import Honeybrid.Visibility
import Honeybrid.Steering
import Honeybrid.Configuration

/-!
# Connections that honeypots open

With `deny_hih_init` the configuration asks for the connections of high-interaction honeypots to be
dropped at once. The setting is copied to a variable by `init_variables`, before the configuration
has been read, so that the variable is zero whatever the file says, and such a connection is handed
to the rules. It is dropped exactly when they reject it.

## Main definitions

* `Denied`: the policy along a run.
* `Rejects`: the rules reject a packet by which a high-interaction honeypot opens a connection.

## Main results

* `main_settings`: the settings do not depend on the configuration.
* `denied_iff`: the policy is enforced exactly as far as the rules reject all such packets.
-/

namespace Honeybrid

variable {μ : Type} {mods : Modules μ} {g : Globals} {s s' s₁ : State μ} {i : ConnId} {pkt : Pkt}
  {w w' : Work μ} {tr out ev : List Event} {c : Conn} {inp : Input}
  {targets : Std.TreeMap TargetId Target intcmp} {ifTarget : Std.TreeMap IfaceId TargetId} {mem : μ}

/-! ### Settings -/

section Settings

variable {textWord : String → ℤ} {setup setup' : Setup}

theorem Block.action_settings {b : Block} (h : b.action setup = .ok setup') :
    setup'.settings = setup.settings := by
  cases b with
  | config parameters =>
    cases h
    rfl
  | link tag =>
    cases h
    rfl
  | module name settings =>
    simp only [Block.action] at h
    split_ifs at h
    cases h
    rfl
  | target route entries =>
    cases route with
    | none =>
      obtain ⟨t, -, h⟩ := Except.bind_eq_ok.mp h
      cases h
      rfl
    | some route =>
      obtain ⟨t, -, h⟩ := Except.bind_eq_ok.mp h
      obtain ⟨iface, -, h⟩ := Except.bind_eq_ok.mp h
      cases h
      rfl

theorem initParser_settings {file : List Block} (h : initParser file setup = .ok setup') :
    setup'.settings = setup.settings := by
  induction file generalizing setup with
  | nil =>
    cases h
    rfl
  | cons b bs ih =>
    obtain ⟨s₁, hb, h⟩ := Except.bind_eq_ok.mp h
    exact (ih h).trans (Block.action_settings hb)

/-- The settings are those of an empty configuration, whatever the file says. -/
theorem main_settings {file : List Block} (h : Setup.main textWord file = .ok setup) :
    setup.settings = readSettings textWord fun _ => none :=
  initParser_settings h

theorem main_denyHihInit {file : List Block} (links : IfaceId → Interface)
    (h : Setup.main textWord file = .ok setup) : (setup.globals links).denyHihInit = 0 := by
  rw [Setup.globals, main_settings h]
  rfl

end Settings

/-! ### The policy -/

/-- Frames towards EXT or INTRA. -/
def Sender.outward : Sender → Bool
  | .proxyInt2ext | .forwardHih2ext | .proxyHih2intra => true
  | _ => false

/-- Along a run, nothing is sent to EXT or INTRA for a connection that a high-interaction honeypot
has opened, and such a connection is in DROP. -/
structure Denied (tr : List Event) (s : State μ) : Prop where
  silent : ∀ e, .emitted e ∈ tr → e.conn.initiator = .hih → e.sender.outward = false
  dropped : ∀ (i : ConnId) (c : Conn), s.conns[i]? = some c → c.initiator = .hih → c.state = .drop

/-- The rule in charge rejects the packet, if a high-interaction honeypot opens a connection with
it. -/
def Rejects (mods : Modules μ) (g : Globals) (s : State μ) : Input → Prop
  | .packet raw now => ∀ s₁ i pkt c, assign g s raw now = .ok (s₁, some (i, pkt)) →
      s₁.conns[i]? = some c → c.initiator = .hih → c.state = .init →
      ∃ d w ev, evaluate mods i pkt ⟨s₁, c.switchState .control⟩ = .ok (d, w, ev) ∧
        (d.result = .reject ∨ d.result = .drop)
  | .sweep .. => True

/-! ### Packets -/

/-- What is sent for a packet of a high-interaction honeypot carries the connection as it stands. -/
theorem proxyHih_conn {e : Emission} (h : proxyHih g i pkt w = .ok ev) (he : .emitted e ∈ ev) :
    e.conn = w.conn := by
  unfold proxyHih at h
  split at h
  · obtain ⟨t, -, h⟩ := Except.bind_eq_ok.mp h
    obtain ⟨⟨pkt', ev₁⟩, hp, h⟩ := Except.bind_eq_ok.mp h
    cases h
    exact (proxyInt2ext_emitted hp he).2.2.1
  · obtain ⟨⟨pkt', ev₁⟩, hp, h⟩ := Except.bind_eq_ok.mp h
    cases h
    obtain rfl | ⟨out, rfl⟩ := proxyHih2intra_cases hp
    · cases he
    · simp only [inject, List.mem_singleton, Event.emitted.injEq] at he
      rw [he]
  · cases h
    cases he

/-- What `proxy_hih2intra` sends belongs to the flow of the connection. -/
theorem Handles.toIntra_flow {e : Emission} (h : Handles mods g i pkt w w' ev)
    (he : .emitted e ∈ ev) (hsender : e.sender = .proxyHih2intra) : e.conn.flow = w.conn.flow := by
  have hde {status : Status} {wa wb : Work μ} {ev₁ : List Event}
      (hd : deProcessPacket mods i pkt g wa = .ok (status, wb, ev₁)) : .emitted e ∉ ev₁ := by
    intro he
    obtain hs | hs := deProcessPacket_sender hd he <;> simp [hs] at hsender
  have hint {t : Target} {c : Conn} {pkt' : Pkt} {ev₁ : List Event}
      (hp : Honeybrid.proxyInt2ext g t i c pkt = .ok (pkt', ev₁)) : .emitted e ∉ ev₁ := by
    intro he
    simp [(proxyInt2ext_emitted hp he).1] at hsender
  have hext {t : Target} {c : Conn} {pkt' : Pkt} {ev₁ : List Event}
      (hp : Honeybrid.proxyExt2int g t i c pkt = .ok (pkt', ev₁)) : .emitted e ∉ ev₁ := by
    intro he
    simp [proxyExt2int_emitted hp he] at hsender
  have hreset {ev₁ : List Event} (hr : Resets i ev₁) : .emitted e ∉ ev₁ := by
    intro he
    simp [hr.sender he] at hsender
  have hsends {ev₁ : List Event} (hr : Sends i ev₁) : .emitted e ∉ ev₁ := by
    intro he
    simp [hr.sender he] at hsender
  have happend {ev₁ ev₂ : List Event} (he : .emitted e ∈ ev₁ ++ ev₂) (h₁ : .emitted e ∉ ev₁) :
      .emitted e ∈ ev₂ :=
    (List.mem_append.mp he).resolve_left h₁
  cases h with
  | hihProxy ho hs hp => rw [proxyHih_conn hp he]
  | hihInitOk ho hs hd hp =>
    rw [proxyHih_conn hp (happend he (hde hd)), (deProcessPacket_framed hd).2]
    rfl
  | refused hs hev => exact absurd he (hreset hev)
  | lihEarly ho hs ht hp => exact absurd he (hint hp)
  | lihProxy ho hs ht hp => exact absurd he (hint hp)
  | lihControlOk ho hs hd ht hp => exact absurd (happend he (hde hd)) (hint hp)
  | lihControlNok ho hs hd ht => exact absurd he (hde hd)
  | lihOther ho hs hev => exact absurd he (hreset hev)
  | hihReplay ho hs hr => exact absurd he (hsends (replay_frame hr).2.2)
  | hihForward ho hs ht hf => simp [(forwardHih2ext_emitted hf he).1] at hsender
  | hihControlOk ho hs hd ht hp => exact absurd (happend he (hde hd)) (hint hp)
  | hihControlNok ho hs hd => exact absurd he (hde hd)
  | hihDeny ho hs hev => exact absurd he (hreset hev)
  | hihInitNok ho hs hd => exact absurd he (hde hd)
  | intraProxy ho hs hp =>
    obtain rfl | ⟨out, rfl⟩ := proxyIntra2hih_cases hp
    · cases he
    · simp only [inject, List.mem_singleton, Event.emitted.injEq] at he
      simp [he] at hsender
  | intraOther ho => cases he
  | extEarlyOk ho hs hd ht hp => exact absurd (happend he (hde hd)) (hext hp)
  | extEarlyNok ho hs hd ht => exact absurd he (hde hd)
  | extForward ho hs hf => exact absurd he (hsends (forwardExt2hih_sends hf))
  | extProxy ho hs ht hp => exact absurd he (hext hp)
  | extOther ho hs => cases he

/-- What is sent to EXT or INTRA belongs to the flow of the connection. -/
theorem Handles.outward_flow {e : Emission} (h : Handles mods g i pkt w w' ev)
    (he : .emitted e ∈ ev) (hout : e.sender.outward = true) : e.conn.flow = w.conn.flow := by
  cases hs : e.sender with
  | proxyInt2ext => exact h.toExt_flow he (.inl hs)
  | forwardHih2ext => exact h.toExt_flow he (.inr hs)
  | proxyHih2intra => exact h.toIntra_flow he hs
  | _ => simp [hs, Sender.outward] at hout

/-- The first packet of a connection that a high-interaction honeypot opens is handed to the
rules. -/
theorem handle_opened (ho : pkt.origin = .hih) (hs : w.conn.state = .init) :
    handle mods g i pkt w = openHih mods g i pkt w := by
  simp [handle, dispatchHih, ho, hs]

/-- A verdict on a packet that opens a connection drops it exactly when the packet is rejected. -/
theorem Acts.drops_iff {d : DecisionHolder} {status : Status} {t : Target}
    (h : Acts g i t d w status w' ev) (hs : w.conn.state = .control ∨ w.conn.state = .proxy) :
    w'.conn.state = .drop ↔ d.result = .reject ∨ d.result = .drop := by
  have hdrop : w.conn.state ≠ .drop := by
    obtain hs | hs := hs <;> simp [hs]
  cases h with
  | controlFree hd hs' => simp [hd, Conn.switchState]
  | initFree hd hs' =>
    rw [hs'] at hs
    simp at hs
  | otherFree hd hc hi => simp [hd, hdrop]
  | defer hd => simp [hd, hdrop]
  | acceptInit hd hs' =>
    rw [hs'] at hs
    simp at hs
  | redirect hd hs' hr =>
    rw [hs'] at hs
    simp at hs
  | stay hd hs' hr =>
    rw [hs'] at hs
    simp at hs
  | acceptControl hd hs' => simp [hd, hdrop]
  | acceptOther hd hi hc hs' => simp [hd, hdrop]
  | rejectDecision hd hs' =>
    rw [hs'] at hs
    simp at hs
  | rejectOther hd hs' => simp [hd, Conn.switchState]
  | drop hd => simp [hd, Conn.switchState]

/-- A packet that is rejected is not sent on. -/
theorem Acts.nok_of_rejects {d : DecisionHolder} {status : Status} {t : Target}
    (h : Acts g i t d w status w' ev) (hr : d.result = .reject ∨ d.result = .drop) :
    status = .nok := by
  cases h with
  | rejectDecision hd hs => rfl
  | rejectOther hd hs => rfl
  | drop hd => rfl
  | redirect hd hs hr' => rfl
  | stay hd hs hr' => rfl
  | acceptOther hd hi hc hs => rfl
  | _ => simp_all

/-- Without `deny_hih_init`, a connection that a high-interaction honeypot opens is handed to
`DE_process_packet`. -/
theorem handle_opened_cases (hdeny : g.denyHihInit = 0) (ho : pkt.origin = .hih)
    (hs : w.conn.state = .init) (h : handle mods g i pkt w = .ok (w', ev)) :
    ∃ status ev₁ ev₂, deProcessPacket mods i pkt g { w with conn := w.conn.switchState .control } =
      .ok (status, w', ev₁) ∧ ev = ev₁ ++ ev₂ ∧ (status = .nok → ev₂ = []) := by
  rw [handle_opened ho hs, openHih, if_neg (by simp [hdeny])] at h
  obtain ⟨⟨status, w₂, ev₁⟩, hd, h⟩ := Except.bind_eq_ok.mp h
  cases status with
  | ok =>
    obtain ⟨ev₂, -, h⟩ := Except.bind_eq_ok.mp h
    cases h
    exact ⟨.ok, ev₁, ev₂, hd, rfl, fun h => by cases h⟩
  | nok =>
    cases h
    exact ⟨.nok, ev, [], hd, (List.append_nil _).symm, fun _ => rfl⟩

/-- The verdict of the rules decides on such a connection, and a packet that is rejected is not sent
on. -/
theorem handle_opened_iff (hdeny : g.denyHihInit = 0) (ho : pkt.origin = .hih)
    (hs : w.conn.state = .init) (h : handle mods g i pkt w = .ok (w', ev)) :
    (w'.conn.state = .drop ↔
      ∃ d w₁ ev₁, evaluate mods i pkt { w with conn := w.conn.switchState .control } =
        .ok (d, w₁, ev₁) ∧ (d.result = .reject ∨ d.result = .drop)) ∧
      (w'.conn.state = .drop → ∀ e, .emitted e ∈ ev → e.sender.outward = false) := by
  obtain ⟨status, ev₁, ev₂, hd, rfl, hnok⟩ := handle_opened_cases hdeny ho hs h
  obtain ⟨d, w₁, ev₃, ev₄, t, he, -, ha, -⟩ := deProcessPacket_cases hd
  -- the rules leave the connection in CONTROL, or switch it to PROXY
  have hstate : w₁.conn.state = .control ∨ w₁.conn.state = .proxy := by
    obtain hc | ⟨h', k, hc⟩ := (evaluate_run he).conn_cases
    · rw [hc]
      exact .inl rfl
    · rw [hc]
      exact .inr rfl
  rw [ha.drops_iff hstate]
  refine ⟨⟨fun hr => ⟨d, w₁, ev₃, he, hr⟩, ?_⟩, ?_⟩
  · rintro ⟨d', w', ev', he', hr⟩
    rw [he] at he'
    cases he'
    exact hr
  · intro hr e hmem
    rw [hnok (ha.nok_of_rejects hr), List.append_nil] at hmem
    obtain hsender | hsender := deProcessPacket_sender hd hmem
    · rw [hsender]
      rfl
    · rw [hsender]
      rfl

/-- A dropped connection stays so, and nothing of it is sent on. -/
theorem Handles.stays_dropped (h : Handles mods g i pkt w w' ev) (hs : w.conn.state = .drop) :
    w'.conn.state = .drop ∧ ∀ e, .emitted e ∈ ev → e.sender.outward = false := by
  refine ⟨?_, fun e he => ?_⟩
  · cases h with
    | refused hr hev hext => exact hs
    | intraOther ho => exact hs
    | _ => simp_all
  · rw [(h.dropped hs he).1]
    rfl

/-! ### Runs -/

/-- The connection a packet is attributed to is dropped, or the packet opens it, if a
high-interaction honeypot is its initiator. -/
theorem Denied.attributed {raw : RawPcap} {now : ℤ} (hD : Denied tr s)
    (hatt : Attributed g s raw now s₁ i pkt c) (hini : c.initiator = .hih) :
    c.state = .drop ∨ (pkt.origin = .hih ∧ c.state = .init) := by
  cases hatt with
  | @found pkt₀ c hcap hpkt hlook hc hs => exact .inl (hD.dropped i c hc hini)
  | @created pkt₀ r t c hcap hpkt hlook hid ht hi hcr =>
    obtain ⟨hr, -, ⟨h, -⟩ | ⟨h, -⟩ | ⟨h, hs, -⟩⟩ := hcr.start
    · rw [hini, h] at hr
      cases hr
    · rw [hini, h] at hr
      cases hr
    · exact .inr ⟨by rw [hpkt, h], hs⟩

theorem Denied.kept (hdeny : g.denyHihInit = 0) (hD : Denied tr s) (hrej : Rejects mods g s inp)
    (h : step mods g s inp = .ok (s', out)) : Denied (tr ++ out) s' := by
  obtain ⟨hq, hout⟩ | ⟨raw, now, s₁, i, pkt, c, w, ev, rfl, hc, ha, hatt, hh, rfl, rfl⟩ :=
    step_cases h
  · refine ⟨fun e he hini => ?_, fun i c hc hini => hD.dropped i c (hq.conns i c hc) hini⟩
    obtain he | he := List.mem_append.mp he
    · exact hD.silent e he hini
    · exact absurd (hout _ he) (by simp [Event.id?])
  · have hH := handle_cases hh
    -- the connection of the packet
    have hown (hini : c.initiator = .hih) :
        w.conn.state = .drop ∧ ∀ e, .emitted e ∈ ev → e.sender.outward = false := by
      obtain hs | ⟨ho, hs⟩ := hD.attributed hatt hini
      · exact hH.stays_dropped hs
      · obtain ⟨hiff, hsilent⟩ := handle_opened_iff hdeny ho hs hh
        have hdrop := hiff.mpr (hrej s₁ i pkt c ha hc hini hs)
        exact ⟨hdrop, hsilent hdrop⟩
    refine ⟨fun e he hini => ?_, fun j c' hc' hini => ?_⟩
    · obtain he | he := List.mem_append.mp he
      · exact hD.silent e he hini
      · replace he : .emitted e ∈ ev := by simpa using he
        by_contra hout
        rw [Bool.not_eq_false] at hout
        have hc : c.initiator = .hih := by
          rwa [Conn.initiator_of_flow (hH.outward_flow he hout)] at hini
        rw [(hown hc).2 e he] at hout
        cases hout
    · by_cases hij : i = j
      · subst hij
        rw [withConn_conns, Std.TreeMap.lookup_insert, if_pos rfl] at hc'
        cases hc'
        rw [Conn.initiator_of_flow hH.framed.2] at hini
        exact (hown hini).1
      · rw [hatt.other hH hij] at hc'
        exact hD.dropped j c' hc' hini

/-- A step that keeps to the policy meets the condition. -/
theorem Denied.rejects (hdeny : g.denyHihInit = 0) (hD : Denied tr s)
    (h : step mods g s inp = .ok (s', out)) (hD' : Denied (tr ++ out) s') :
    Rejects mods g s inp := by
  cases inp with
  | sweep now delay => trivial
  | packet raw now =>
    intro s₁ i pkt c ha hc hini hs
    obtain ⟨hnone, -⟩ | ⟨i', pkt', c', hx, hc', hatt⟩ := assign_cases ha
    · cases hnone
    cases hx
    cases hc.symm.trans hc'
    obtain ⟨w, ev, hh, hw⟩ := step_packet_ok ha hc h
    obtain hdrop | ⟨ho, -⟩ := hD.attributed hatt hini
    · rw [hs] at hdrop
      cases hdrop
    · refine (handle_opened_iff hdeny ho hs hh).1.mp (hD'.dropped i w.conn hw ?_)
      rwa [Conn.initiator_of_flow (handle_cases hh).framed.2]

/-- **Connections that honeypots open.** Whatever the configuration says, the policy holds along the
runs in which the rules reject every packet by which a high-interaction honeypot opens a connection,
and along no others. -/
theorem denied_iff {textWord : String → ℤ} {file : List Block} {setup : Setup}
    (links : IfaceId → Interface) (mem : μ) (hmain : Setup.main textWord file = .ok setup) :
    (∀ tr s, Machine.Run (step mods (setup.globals links)) (Rejects mods (setup.globals links))
      (setup.start mem) tr s → Denied tr s) ∧
    (∀ tr s inp s' out,
      Machine.Run (step mods (setup.globals links)) (Rejects mods (setup.globals links))
        (setup.start mem) tr s →
      step mods (setup.globals links) s inp = .ok (s', out) → Denied (tr ++ out) s' →
      Rejects mods (setup.globals links) s inp) := by
  have hdeny := main_denyHihInit links hmain
  have hrun (tr : List Event) (s : State μ)
      (h : Machine.Run (step mods (setup.globals links))
        (Rejects mods (setup.globals links)) (setup.start mem) tr s) : Denied tr s := by
    refine h.traceInvariant Denied ⟨fun e he => (by cases he), fun i c hc => ?_⟩ ?_
    · simp [Setup.start, boot] at hc
    · exact fun tr s₁ inp s₂ out hD hrej hstep => hD.kept hdeny hrej hstep
  exact ⟨hrun, fun tr s inp s' out h hstep hD' => (hrun tr s h).rejects hdeny hstep hD'⟩

namespace Sample

/-- A configuration that sets `deny_hih_init`: one target with a low-interaction honeypot, one
backend and, if there is one, a rule for outgoing connections. -/
def denying (internet : List TargetEntry) : List Block :=
  [.config [("deny_hih_init", .number 1)], .link "wan1", .link "honeynet1", .link "honeynet2",
    .module "random" { function := some "yesno" },
    .target (some { link := "wan1", mac := 4, src := some 9 })
      ([.frontend { link := "honeynet1", ip := 10, mac := 2 } none,
        .backend { link := "honeynet2", ip := 20, mac := 3 } (some ⟨⟨"random", []⟩, []⟩)] ++
        internet)]

/-- A packet of the high-interaction honeypot to EXT. -/
def outgoing : Input :=
  .packet (udp 2 20 4000 60 80) 0

/-- The rule in charge rejects the packet of a step. -/
def rejecting (mods : Modules Unit) (g : Globals) (s : State Unit) : Input → Bool
  | .packet raw now =>
    match assign g s raw now with
    | .ok (s₁, some (i, pkt)) => s₁.conns[i]?.any fun c =>
        (evaluate mods i pkt ⟨s₁, c.switchState .control⟩).passes fun r => r.1.result == .reject
    | _ => false
  | .sweep .. => true

theorem rejects_of_rejecting {mods : Modules Unit} {g : Globals} {s : State Unit} {inp : Input}
    (h : rejecting mods g s inp = true) : Rejects mods g s inp := by
  cases inp with
  | sweep now delay => trivial
  | packet raw now =>
    intro s₁ i pkt c ha hc hini hs
    simp only [rejecting, ha, hc, Option.any_some] at h
    obtain ⟨⟨d, w, ev⟩, he, hr⟩ := Except.passes_iff.mp h
    exact ⟨d, w, ev, he, .inl (beq_iff_eq.mp hr)⟩

/-- A packet of a connection that a high-interaction honeypot has opened is sent to EXT. -/
def opensOutward : Event → Bool
  | .emitted e => e.conn.initiator == .hih && e.sender == .proxyInt2ext
  | _ => false

end Sample

/-- With a rule that rejects outgoing connections, the one of the honeypot is dropped. -/
theorem denied_by_rule : ∃ setup,
    Setup.main (fun _ => 0) (Sample.denying [.internet ⟨⟨"random", []⟩, []⟩]) = .ok setup ∧
      ∃ tr s c, Machine.Run (step (Sample.modules .reject) (setup.globals Sample.globals.links))
          (Rejects (Sample.modules .reject) (setup.globals Sample.globals.links))
          (setup.start ()) tr s ∧
        s.conns[1]? = some c ∧ c.initiator = .hih ∧ Denied tr s := by
  have hex : (Setup.main (fun _ => 0)
      (Sample.denying [.internet ⟨⟨"random", []⟩, []⟩])).passes fun setup =>
        ((Machine.exec (step (Sample.modules .reject) (setup.globals Sample.globals.links))
          (setup.start ()) [Sample.outgoing]).passes
            fun r => r.1.conns[1]?.any fun c => c.initiator == .hih) &&
        Machine.checks (step (Sample.modules .reject) (setup.globals Sample.globals.links))
          (Sample.rejecting (Sample.modules .reject) (setup.globals Sample.globals.links))
          (setup.start ()) [Sample.outgoing] := by
    decide +kernel
  obtain ⟨setup, hmain, hexec⟩ := Except.passes_iff.mp hex
  obtain ⟨tr, s, hrun, htest⟩ := Machine.exists_run _ _ _ _
    (fun _ _ => Sample.rejects_of_rejecting) hexec
  obtain ⟨c, hc, hini⟩ := (Option.any_eq_true ..).mp htest
  exact ⟨setup, hmain, tr, s, c, hrun, hc, beq_iff_eq.mp hini,
    (denied_iff Sample.globals.links () hmain).1 tr s hrun⟩

/-- **The setting is not enforced.** The configuration sets `deny_hih_init`, and a packet by which a
high-interaction honeypot opens a connection is sent to EXT. -/
theorem hih_not_denied : .config [("deny_hih_init", .number 1)] ∈ Sample.denying [] ∧
    ∃ setup, Setup.main (fun _ => 0) (Sample.denying []) = .ok setup ∧
      ∃ tr s, Machine.Reaches (step (Sample.modules .accept) (setup.globals Sample.globals.links))
          (setup.start ()) tr s ∧ ¬Denied tr s := by
  have hex : (Setup.main (fun _ => 0) (Sample.denying [])).passes fun setup =>
      (Machine.exec (step (Sample.modules .accept) (setup.globals Sample.globals.links))
        (setup.start ()) [Sample.outgoing]).passes fun r => r.2.any Sample.opensOutward := by
    decide +kernel
  obtain ⟨setup, hmain, hexec⟩ := Except.passes_iff.mp hex
  obtain ⟨tr, s, hrun, htest⟩ := Machine.exists_reaches _ _ _ _ hexec
  refine ⟨by simp [Sample.denying], setup, hmain, tr, s, hrun, fun hD => ?_⟩
  obtain ⟨x, hx, htest⟩ := List.any_eq_true.mp htest
  cases x with
  | emitted e =>
    simp only [Sample.opensOutward, Bool.and_eq_true, beq_iff_eq] at htest
    have hsilent := hD.silent e hx htest.1
    rw [htest.2] at hsilent
    cases hsilent
  | _ => cases htest

end Honeybrid
