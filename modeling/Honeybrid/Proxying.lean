import Honeybrid.Lifecycle

/-!
# Packets of a connection that stays on the low-interaction honeypot

A packet of the attacker is sent on when `DE_process_packet` returns `OK`. The status is computed
apart from the state: a connection that is rejected by its backends, or whose redirection is given
up, stays on the low-interaction honeypot, and yet the status is `NOK` and the packet is not sent
to it. The same happens when `dns_control` has switched the connection and the rule accepts.

## Main definitions

* `Proxied`: the packet is sent to the low-interaction honeypot.
* `Loses`: the verdicts on which it is not, although the connection stays.

## Main results

* `decideExt_events`: what is sent for a packet of the attacker, by the status.
* `proxied_iff`: the exact condition.
-/

namespace Honeybrid

variable {μ : Type} {mods : Modules μ} {g : Globals} {i : ConnId} {pkt : Pkt}
  {w w' w₁ : Work μ} {ev ev₁ : List Event} {status : Status} {t : Target} {d : DecisionHolder}

/-- The packet is sent to the low-interaction honeypot of its target. -/
def Proxied (s : State μ) (i : ConnId) (c : Conn) (pkt : Pkt) (ev : List Event) : Prop :=
  ∃ e t front, .emitted e ∈ ev ∧ e.sender = .proxyExt2int ∧ e.id = i ∧
    e.pkt.original = pkt.original ∧ s.targets[c.target]? = some t ∧ t.frontHandler = some front ∧
    front.iface = some e.out ∧ e.frame.daddr = front.ip

/-- The verdicts on which a packet of the attacker is lost although its connection stays: the
backends reject it, they accept it without a backend it can be redirected to, or they accept it
after `dns_control` has switched it. -/
def Loses (mods : Modules μ) (g : Globals) (i : ConnId) (pkt : Pkt) (w : Work μ) : Prop :=
  ∃ d w₁ ev₁, evaluate mods i pkt w = .ok (d, w₁, ev₁) ∧
    ((d.result = .reject ∧ w₁.conn.state = .decision) ∨
    (d.result = .accept ∧ w₁.conn.state = .decision ∧
      (d.backendUse = 0 ∨ ∃ t h, w₁.st.targets[w₁.conn.target]? = some t ∧
        t.backHandlers[d.backendUse]? = some h ∧
        PinnedElsewhere g w₁.st h w₁.conn.firstPktDstIp)) ∨
    (d.result = .accept ∧ w₁.conn.state = .proxy))

theorem loses_iff (he : evaluate mods i pkt w = .ok (d, w₁, ev₁))
    (ht : w₁.st.targets[w₁.conn.target]? = some t) :
    Loses mods g i pkt w ↔
      (d.result = .reject ∧ w₁.conn.state = .decision) ∨
      (d.result = .accept ∧ w₁.conn.state = .decision ∧
        (d.backendUse = 0 ∨ ∃ h, t.backHandlers[d.backendUse]? = some h ∧
          PinnedElsewhere g w₁.st h w₁.conn.firstPktDstIp)) ∨
      (d.result = .accept ∧ w₁.conn.state = .proxy) := by
  simp [Loses, he, ht]

/-- A packet of the attacker is proxied exactly when the status is `OK`. -/
theorem decideExt_events (ho : pkt.origin = .ext)
    (hs : w.conn.state = .init ∨ w.conn.state = .decision)
    (hd : deProcessPacket mods i pkt g w = .ok (status, w₁, ev₁))
    (hh : handle mods g i pkt w = .ok (w', ev)) :
    (status = .nok ∧ ev = ev₁) ∨
    (status = .ok ∧ ∃ t pkt' ev₂, w₁.st.targets[w₁.conn.target]? = some t ∧
      proxyExt2int g t i w₁.conn pkt = .ok (pkt', ev₂) ∧ ev = ev₁ ++ ev₂) := by
  have hdec : decideExt mods g i pkt w = .ok (w', ev) := by
    obtain hs | hs := hs
    · simpa [handle, ho, dispatchExt, hs] using hh
    · simpa [handle, ho, dispatchExt, hs] using hh
  simp only [decideExt, hd, Except.ok_bind] at hdec
  obtain ⟨t, ht, hdec⟩ := Except.bind_eq_ok.mp hdec
  cases status with
  | nok =>
    cases hdec
    exact .inl ⟨rfl, rfl⟩
  | ok =>
    obtain ⟨⟨pkt', ev₂⟩, hp, hdec⟩ := Except.bind_eq_ok.mp hdec
    cases hdec
    exact .inr ⟨rfl, t, pkt', ev₂, Option.orFail_eq_ok.mp ht, hp, rfl⟩

/-- The frame `proxy_ext2int` sends for a connection from EXT goes to the front handler. -/
theorem proxied_of_proxyExt2int {s : State μ} {c : Conn} {pkt' : Pkt} {ev₂ : List Event}
    (ev₁ : List Event) (hini : c.initiator = .ext) (ho : pkt.origin = .ext)
    (ht : s.targets[c.target]? = some t)
    (hp : proxyExt2int g t i c pkt = .ok (pkt', ev₂)) : Proxied s i c pkt (ev₁ ++ ev₂) := by
  have hrw := proxyExt2int_rewritten hp
  obtain ⟨-, -, hne, -⟩ | ⟨front, out, role, hfront, hout, hpkt, rfl⟩ := proxyExt2int_cases hp
  · exact absurd hini hne
  rw [receiver, hini] at hfront
  refine ⟨_, t, front, List.mem_append_right _ (List.mem_singleton_self _), rfl, rfl, hrw.original,
    ht, hfront, hout, ?_⟩
  change pkt'.packet.daddr = front.ip
  have ho' : ({ pkt with destination := role } : Pkt).origin = .ext := ho
  rw [hpkt]
  exact (nat_ext ho').2.1

/-- With the status `NOK` nothing is sent to the low-interaction honeypot but a reset. -/
theorem not_proxied_of_deProcessPacket {s : State μ} {c : Conn}
    (hd : deProcessPacket mods i pkt g w = .ok (status, w₁, ev)) : ¬Proxied s i c pkt ev := by
  rintro ⟨e, t, front, he, hs, -⟩
  obtain h | h := deProcessPacket_sender hd he <;> simp [h] at hs

/-- The state and the status after the verdict on a packet of the attacker. -/
theorem Acts.loses {ev₂ : List Event}
    (hs : w.conn.state = .init ∨ w.conn.state = .decision)
    (he : evaluate mods i pkt w = .ok (d, w₁, ev₁)) (ht : w₁.st.targets[w₁.conn.target]? = some t)
    (ha : Acts g i t d w₁ status w' ev₂) :
    ((w'.conn.state = .decision ∨ w'.conn.state = .proxy) ∧ status = .nok) ↔
      Loses mods g i pkt w := by
  have hst : w₁.conn.state = .init ∨ w₁.conn.state = .decision ∨ w₁.conn.state = .proxy := by
    obtain hc | ⟨h', k, hc⟩ := (evaluate_run he).conn_cases
    · rw [hc]
      obtain hs | hs := hs <;> simp [hs]
    · simp [hc, Conn.switched]
  rw [loses_iff he ht]
  cases ha with
  | controlFree hd hc => simp [hc] at hst
  | initFree hd hc => simp [hd]
  | otherFree hd hc hi => simp [hd]
  | defer hd => simp [hd]
  | acceptInit hd hc => simp [hd, hc]
  | redirect hd hc hr =>
    have hstate := setupRedirection_state hr
    obtain ⟨h, s₁, c₁, huse, hh, ha, -⟩ := setupRedirection_cases hr
    have hfree := (acquireTarget_cases ha).1
    simp [hd, hc, hstate, huse, hh, hfree]
  | stay hd hc hr => simp [hd, hc, setupRedirection_eq_none hr]
  | acceptControl hd hc => simp [hc] at hst
  | acceptOther hd hi hc hn =>
    have hp := (hst.resolve_left hi).resolve_left hc
    simp [hd, hp]
  | rejectDecision hd hc => simp [hd, hc, Conn.switchState]
  | rejectOther hd hc => simp [hd, hc, Conn.switchState]
  | drop hd => simp [hd, Conn.switchState]

/-- **Packets of a connection that stays.** After a packet of the attacker on a connection from EXT
that is decided on, the packet is proxied if the connection stays in DECISION or PROXY, exactly when
the verdict is none of `Loses`. -/
theorem proxied_iff (hini : w.conn.initiator = .ext) (ho : pkt.origin = .ext)
    (hs : w.conn.state = .init ∨ w.conn.state = .decision)
    (hd : deProcessPacket mods i pkt g w = .ok (status, w₁, ev₁))
    (hh : handle mods g i pkt w = .ok (w', ev)) :
    ((w₁.conn.state = .decision ∨ w₁.conn.state = .proxy) → Proxied w₁.st i w₁.conn pkt ev) ↔
      ¬Loses mods g i pkt w := by
  have hini₁ : w₁.conn.initiator = .ext :=
    (Conn.initiator_of_flow (deProcessPacket_framed hd).2).trans hini
  obtain ⟨d, w₂, ev₂, ev₃, t, he, ht, ha, -⟩ := deProcessPacket_cases hd
  rw [← ha.loses hs he ht]
  obtain ⟨rfl, rfl⟩ | ⟨rfl, t', pkt', ev₄, ht', hp, rfl⟩ := decideExt_events ho hs hd hh
  · have hnot := not_proxied_of_deProcessPacket (s := w₁.st) (c := w₁.conn) hd
    simp [hnot]
  · have hprox := proxied_of_proxyExt2int ev₁ hini₁ ho ht' hp
    simp [hprox]

/-- A verdict that defers: the connection stays in DECISION and the packet is proxied. -/
theorem proxied_iff_defer :
    ∃ status w₁ ev₁ w' ev,
      deProcessPacket (Sample.modules .defer) 1 Sample.request Sample.globals
        ⟨Sample.start, Sample.buffered⟩ = .ok (status, w₁, ev₁) ∧
      handle (Sample.modules .defer) Sample.globals 1 Sample.request
        ⟨Sample.start, Sample.buffered⟩ = .ok (w', ev) ∧
      w₁.conn.state = .decision ∧ Proxied w₁.st 1 w₁.conn Sample.request ev := by
  have hd : (deProcessPacket (Sample.modules .defer) 1 Sample.request Sample.globals
      ⟨Sample.start, Sample.buffered⟩).passes (fun r => r.2.1.conn.state = .decision) = true := by
    decide +kernel
  have hh : (handle (Sample.modules .defer) Sample.globals 1 Sample.request
      ⟨Sample.start, Sample.buffered⟩).passes (fun _ => true) = true := by decide +kernel
  have he : (evaluate (Sample.modules .defer) 1 Sample.request
      ⟨Sample.start, Sample.buffered⟩).passes (fun r => r.1.result = .defer) = true := by
    decide +kernel
  obtain ⟨⟨status, w₁, ev₁⟩, hd, hst⟩ := Except.passes_iff.mp hd
  obtain ⟨⟨w', ev⟩, hh, -⟩ := Except.passes_iff.mp hh
  obtain ⟨⟨d, w₂, ev₂⟩, he, hres⟩ := Except.passes_iff.mp he
  have hstate : w₁.conn.state = .decision := by simpa using hst
  refine ⟨status, w₁, ev₁, w', ev, hd, hh, hstate, ?_⟩
  refine (proxied_iff rfl rfl (.inr rfl) hd hh).mpr ?_ (.inl hstate)
  rintro ⟨d', w₃, ev₃, he', hlose⟩
  rw [he] at he'
  cases he'
  simp_all

/-- The backend rejects the second packet of a connection: the connection stays on the
low-interaction honeypot, and the packet is sent nowhere. -/
theorem proxied_broken :
    ∃ tr s s₁ i pkt c status w₁ ev₁ w' ev,
      Machine.Reaches (step (Sample.modules .reject) Sample.globals) Sample.start tr s ∧
      assign Sample.globals s (Sample.udp 0 50 1000 9 80) 0 = .ok (s₁, some (i, pkt)) ∧
      s₁.conns[i]? = some c ∧ c.initiator = .ext ∧ pkt.origin = .ext ∧ c.state = .decision ∧
      deProcessPacket (Sample.modules .reject) i pkt Sample.globals ⟨s₁, c⟩ =
        .ok (status, w₁, ev₁) ∧
      handle (Sample.modules .reject) Sample.globals i pkt ⟨s₁, c⟩ = .ok (w', ev) ∧
      w₁.conn.state = .proxy ∧ ¬Proxied w₁.st i w₁.conn pkt ev := by
  have hrun : (do
      let r ← Machine.exec (step (Sample.modules .reject) Sample.globals) Sample.start
        [.packet (Sample.udp 0 50 1000 9 80) 0]
      let a ← assign Sample.globals r.1 (Sample.udp 0 50 1000 9 80) 0
      let x ← a.2.orFail .conn
      let c ← a.1.connAt x.1
      let d ← deProcessPacket (Sample.modules .reject) x.1 x.2 Sample.globals ⟨a.1, c⟩
      let _ ← handle (Sample.modules .reject) Sample.globals x.1 x.2 ⟨a.1, c⟩
      return decide (c.initiator = .ext ∧ x.2.origin = .ext ∧ c.state = .decision ∧
        d.2.1.conn.state = .proxy ∧ d.1 = .nok) : Except Fault Bool).passes id = true := by
    decide +kernel
  obtain ⟨b, hrun, hb⟩ := Except.passes_iff.mp hrun
  obtain ⟨⟨s, tr⟩, hr, hrun⟩ := Except.bind_eq_ok.mp hrun
  obtain ⟨⟨s₁, o⟩, ha, hrun⟩ := Except.bind_eq_ok.mp hrun
  obtain ⟨⟨i, pkt⟩, ho, hrun⟩ := Except.bind_eq_ok.mp hrun
  obtain ⟨c, hc, hrun⟩ := Except.bind_eq_ok.mp hrun
  obtain ⟨⟨status, w₁, ev₁⟩, hd, hrun⟩ := Except.bind_eq_ok.mp hrun
  obtain ⟨⟨w', ev⟩, hh, hrun⟩ := Except.bind_eq_ok.mp hrun
  have ho := Option.orFail_eq_ok.mp ho
  simp only at ho
  have hb' := Except.ok.inj hrun
  subst ho hb'
  obtain ⟨hini, hext, hdec, hproxy, rfl⟩ : c.initiator = .ext ∧ pkt.origin = .ext ∧
      c.state = .decision ∧ w₁.conn.state = .proxy ∧ status = .nok := by simpa using hb
  refine ⟨tr, s, s₁, i, pkt, c, _, w₁, ev₁, w', ev, Machine.reaches_of_exec hr, ha,
    Option.orFail_eq_ok.mp hc, hini, hext, hdec, hd, hh, hproxy, ?_⟩
  obtain ⟨-, rfl⟩ | ⟨h, -⟩ := decideExt_events hext (.inr hdec) hd hh
  · exact not_proxied_of_deProcessPacket hd
  · cases h

end Honeybrid
