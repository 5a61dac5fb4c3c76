import Honeybrid.Effects
import Honeybrid.Selection

/-!
# Packets accepted by a control rule

In CONTROL a packet of a honeypot is submitted to the control rule of its target, and sent on when
`DE_process_packet` returns `OK`. The status is taken from the state the connection is in after the
evaluation. When `dns_control` has switched the connection on the way, this is no longer CONTROL but
PROXY, for which an accepted packet has the status `NOK`: the query that was meant for the INTRA
host is sent nowhere.

## Main definitions

* `Switches`: the evaluation passes a `dns_control` that switches the connection.
* `Routed`: the connection has a way out to EXT.
* `Delivered`: a frame takes a packet to where its connection goes.

## Main results

* `decide_switches`: `decide` with and without such a module.
* `accepted_iff`: the accepted packets that are delivered.
-/

namespace Honeybrid

variable {μ : Type} {mods : Modules μ} {g : Globals} {i : ConnId} {pkt : Pkt} {w w' w₁ : Work μ}
  {d d' : DecisionHolder} {rule : Rule} {ev ev₁ : List Event} {t : Target} {c : Conn}

/-! ### Switching modules -/

/-- A `dns_control` with a complete configuration. -/
def ModuleDef.switching (m : ModuleDef) : Bool :=
  m.function = .dnsControl ∧ m.dnsServer.isSome

/-- On the way through the rule, a DNS query comes to a `dns_control` that switches it. -/
def Switches (mods : Modules μ) (i : ConnId) (pkt : Pkt) (rule : Rule) (w : Work μ) : Prop :=
  isDnsQuery pkt = true ∧ ∃ m ∈ modulesRun mods i pkt 0 rule 0 w, m.switching = true

theorem runModule_switching {m : ModuleDef} {test use : HandlerId} {o : ModOut}
    (hq : isDnsQuery pkt = true) (hm : m.switching = true)
    (h : runModule mods i pkt m test use w = .ok (o, w')) : w'.conn.state = .proxy := by
  obtain ⟨hf, hserver⟩ := of_decide_eq_true hm
  obtain ⟨server, hserver⟩ := Option.isSome_iff_exists.mp hserver
  simp only [runModule, hf, if_true] at h
  obtain ⟨w₁, hdns, h⟩ := Except.bind_eq_ok.mp h
  cases h
  simp only [modDnsControl, hq, if_true, hserver] at hdns
  obtain ⟨t, ht, hdns⟩ := Except.bind_eq_ok.mp hdns
  obtain ⟨⟨s, c⟩, hsw, hdns⟩ := Except.bind_eq_ok.mp hdns
  cases hdns
  obtain ⟨-, -, -, -, -, -, rfl⟩ := switchConnToIntra_cases hsw
  rfl

theorem runModule_not_switching {m : ModuleDef} {test use : HandlerId} {o : ModOut}
    (hm : ¬(isDnsQuery pkt = true ∧ m.switching = true))
    (h : runModule mods i pkt m test use w = .ok (o, w')) :
    ∃ mem, w' = { w with st := { w.st with mod := mem } } := by
  simp only [runModule] at h
  split_ifs at h with hf
  · obtain ⟨w₁, hdns, h⟩ := Except.bind_eq_ok.mp h
    cases h
    simp only [modDnsControl] at hdns
    split_ifs at hdns with hq
    · cases hserver : m.dnsServer with
      | none =>
        rw [hserver] at hdns
        cases hdns
        exact ⟨w.st.mod, rfl⟩
      | some server => exact absurd ⟨hq, by simp [ModuleDef.switching, hf, hserver]⟩ hm
    · cases hdns
      exact ⟨w.st.mod, rfl⟩
  · obtain ⟨t, -, h⟩ := Except.bind_eq_ok.mp h
    cases h
    exact ⟨_, rfl⟩

/-- A connection in PROXY stays there while rules are evaluated. -/
theorem RuleRun.proxy {b : Bool} (h : RuleRun i b w w') (hs : w.conn.state = .proxy) :
    w'.conn.state = .proxy := by
  obtain hc | ⟨h', k, hc⟩ := h.conn_cases
  · rw [hc, hs]
  · rw [hc]
    rfl

/-- The end of `decide` after the module of a node: the verdict, or one of the branches. -/
theorem decide_node_cases {m : ModuleDef} {tb fb : Rule} {use : HandlerId}
    (h : d.decide mods i pkt (.node m tb fb) use w = .ok (d', w')) :
    ∃ o w₁, runModule mods i pkt m d.backendTest use w = .ok (o, w₁) ∧
      ((w' = w₁ ∧ modulesRun mods i pkt d.backendTest (.node m tb fb) use w = [m]) ∨
      ∃ (branch : Rule) (d₁ : DecisionHolder), (branch = tb ∨ branch = fb) ∧
        d₁.backendTest = d.backendTest ∧
        d₁.decide mods i pkt branch o.backendUse w₁ = .ok (d', w') ∧
        modulesRun mods i pkt d.backendTest (.node m tb fb) use w =
          m :: modulesRun mods i pkt d.backendTest branch o.backendUse w₁) := by
  simp only [DecisionHolder.decide] at h
  obtain ⟨⟨o, w₁⟩, hrun, h⟩ := Except.bind_eq_ok.mp h
  refine ⟨o, w₁, hrun, ?_⟩
  rw [modulesRun, hrun]
  simp only at h ⊢
  have hnull (w₁ : Work μ) : modulesRun mods i pkt d.backendTest .null o.backendUse w₁ = [] := rfl
  cases hres : o.result with
  | accept =>
    rw [hres] at h
    simp only at h ⊢
    by_cases htb : tb = .null
    · rw [if_pos htb] at h
      cases h
      exact .inl ⟨rfl, by rw [htb, hnull]⟩
    · rw [if_neg htb] at h
      refine .inr ⟨tb, _, .inl rfl, ?_, h, rfl⟩
      split_ifs <;> rfl
  | defer =>
    rw [hres] at h
    cases h
    exact .inl ⟨rfl, rfl⟩
  | reject =>
    rw [hres] at h
    simp only at h ⊢
    by_cases hfb : fb = .null
    · rw [if_pos hfb] at h
      cases h
      exact .inl ⟨rfl, by rw [hfb, hnull]⟩
    · rw [if_neg hfb] at h
      exact .inr ⟨fb, d, .inr rfl, rfl, h, rfl⟩

/-- A DNS query has come to a `dns_control` that switches it. -/
theorem decide_switching {m : ModuleDef} {use : HandlerId} (hq : isDnsQuery pkt = true)
    (h : d.decide mods i pkt rule use w = .ok (d', w'))
    (hm : m ∈ modulesRun mods i pkt d.backendTest rule use w) (hsw : m.switching = true) :
    w'.conn.state = .proxy := by
  induction rule generalizing use d w with
  | null => exact (List.not_mem_nil hm).elim
  | node m' tb fb iht ihf =>
    obtain ⟨o, w₁, hrun, ⟨rfl, heq⟩ | ⟨branch, d₁, hbranch, htest, hdec, heq⟩⟩ :=
      decide_node_cases h
    · rw [heq, List.mem_singleton] at hm
      exact runModule_switching hq (hm ▸ hsw) hrun
    · rw [heq] at hm
      obtain rfl | hm := List.mem_cons.mp hm
      · exact (decide_run hdec).proxy (runModule_switching hq hsw hrun)
      · rw [← htest] at hm
        obtain rfl | rfl := hbranch
        · exact iht hdec hm
        · exact ihf hdec hm

/-- Without such a module, `decide` changes the memory of the modules only. -/
theorem decide_not_switching {use : HandlerId}
    (hsw : ∀ m ∈ modulesRun mods i pkt d.backendTest rule use w,
      ¬(isDnsQuery pkt = true ∧ m.switching = true))
    (h : d.decide mods i pkt rule use w = .ok (d', w')) :
    ∃ mem, w' = { w with st := { w.st with mod := mem } } := by
  induction rule generalizing use d w with
  | null =>
    cases h
    exact ⟨w'.st.mod, rfl⟩
  | node m tb fb iht ihf =>
    obtain ⟨o, w₁, hrun, ⟨rfl, heq⟩ | ⟨branch, d₁, hbranch, htest, hdec, heq⟩⟩ :=
      decide_node_cases h
    · rw [heq] at hsw
      exact runModule_not_switching (hsw m (List.mem_cons_self ..)) hrun
    · rw [heq] at hsw
      obtain ⟨mem, rfl⟩ := runModule_not_switching (hsw m (List.mem_cons_self ..)) hrun
      have hrest := fun x hx => hsw x (List.mem_cons_of_mem _ hx)
      rw [← htest] at hrest
      obtain rfl | rfl := hbranch
      · obtain ⟨mem', rfl⟩ := iht hrest hdec
        exact ⟨mem', rfl⟩
      · obtain ⟨mem', rfl⟩ := ihf hrest hdec
        exact ⟨mem', rfl⟩

/-! ### Delivery -/

/-- The frame that an event sends. -/
def Event.emission : Event → Option Emission
  | .emitted e => some e
  | _ => none

/-- The way out of a connection to EXT: its target has a default route, and there is an address to
show on it. -/
def Routed (g : Globals) (t : Target) (c : Conn) : Prop :=
  ∃ out ip, t.defaultRoute = some out ∧ snatIp g c out = .ok ip

/-- A frame takes the packet to EXT, or to the INTRA host of the connection, by the destination of
the connection. -/
structure Delivered (i : ConnId) (t : Target) (c : Conn) (pkt : Pkt) (e : Emission) : Prop where
  id : e.id = i
  original : e.pkt.original = pkt.original
  ext : c.destination = .ext → e.sender = .proxyInt2ext ∧ t.defaultRoute = some e.out
  intra : c.destination = .intra → e.sender = .proxyHih2intra ∧
    ∃ h, c.intraHandler = some h ∧ h.iface = some e.out

theorem evaluate_emission (he : evaluate mods i pkt w = .ok (d, w₁, ev)) :
    ev.filterMap Event.emission = [] := by
  refine List.filterMap_eq_nil_iff.mpr fun e hmem => ?_
  obtain ⟨name, r, rfl⟩ := evaluate_events he e hmem
  rfl

theorem routed_iff (pkt : Pkt) :
    Routed g t c ↔ ∃ pkt' ev, proxyInt2ext g t i c pkt = .ok (pkt', ev) := by
  constructor
  · rintro ⟨out, ip, hout, hip⟩
    exact ⟨_, _, by simp only [proxyInt2ext, hout, Option.orFail, hip, Except.ok_bind]; rfl⟩
  · rintro ⟨pkt', ev, h⟩
    obtain ⟨out, ip, mac, hout, hip, -⟩ := proxyInt2ext_cases h
    exact ⟨out, ip, hout, hip⟩

/-- A packet in CONTROL comes from a low-interaction honeypot on a connection in CONTROL, from a
high-interaction honeypot on such a connection, or from one that opens a connection. -/
theorem submits_control_cases (hsub : c.submits g pkt = true)
    (hctl : (c.submitted pkt).state = .control) :
    (pkt.origin = .lih ∧ c.state = .control) ∨ (pkt.origin = .hih ∧ c.state = .control) ∨
      (pkt.origin = .hih ∧ (c.state = .init ∨ c.state = .decision ∨ c.state = .invalid) ∧
        g.denyHihInit ≠ 1) := by
  unfold Conn.submits at hsub
  unfold Conn.submitted at hctl
  split at hsub <;> simp_all

/-- `de_thread` on a packet that was accepted in CONTROL, on a connection that still goes to EXT. -/
theorem handle_accepted (hsub : w.conn.submits g pkt = true)
    (hctl : (w.conn.submitted pkt).state = .control)
    (hd : deProcessPacket mods i pkt g ⟨w.st, w.conn.submitted pkt⟩ = .ok (.ok, w₁, ev₁))
    (ht : w₁.st.targets[w₁.conn.target]? = some t) (hdest : w₁.conn.destination = .ext) :
    (∃ w', handle mods g i pkt w = .ok (w', ev)) ↔
      ∃ pkt' ev₂, proxyInt2ext g t i w₁.conn pkt = .ok (pkt', ev₂) ∧ ev = ev₁ ++ ev₂ := by
  obtain ⟨ho, hs⟩ | ⟨ho, hs⟩ | ⟨ho, hs, hdeny⟩ := submits_control_cases hsub hctl
  · have hd' : deProcessPacket mods i pkt g { w with conn := noteLihSyn pkt w.conn } =
        .ok (.ok, w₁, ev₁) := by
      simpa [Conn.submitted, ho] using hd
    simp only [handle, hs, ho, dispatchLih, hd', State.targetOf, ht, Option.orFail, Except.ok_bind]
    cases hp : proxyInt2ext g t i w₁.conn pkt with
    | error e => simp
    | ok r =>
      obtain ⟨pkt', ev₂⟩ := r
      simp [eq_comm]
  · have hd' : deProcessPacket mods i pkt g w = .ok (.ok, w₁, ev₁) := by
      have hw : (⟨w.st, w.conn.submitted pkt⟩ : Work μ) = w := by
        rw [Conn.submitted, ho]
        simp [Conn.switchState, ← hs]
      rwa [hw] at hd
    simp only [handle, hs, ho, dispatchHih, hd', State.targetOf, ht, Option.orFail, Except.ok_bind]
    cases hp : proxyInt2ext g t i w₁.conn pkt with
    | error e => simp
    | ok r =>
      obtain ⟨pkt', ev₂⟩ := r
      simp [eq_comm]
  · have hd' : deProcessPacket mods i pkt g { w with conn := w.conn.switchState .control } =
        .ok (.ok, w₁, ev₁) := by
      simpa [Conn.submitted, ho] using hd
    have hopen : handle mods g i pkt w = openHih mods g i pkt w := by
      obtain hs | hs | hs := hs <;> simp [handle, hs, ho, dispatchHih]
    simp only [hopen, openHih, hdeny, if_false, hd', Except.ok_bind, proxyHih, hdest,
      State.targetOf, ht, Option.orFail]
    cases hp : proxyInt2ext g t i w₁.conn pkt with
    | error e => simp
    | ok r =>
      obtain ⟨pkt', ev₂⟩ := r
      simp [eq_comm]

/-- The control rule is evaluated for a connection in CONTROL that goes to EXT. -/
theorem evaluate_control_ext (hs : w.conn.state = .control) (hdest : w.conn.destination = .ext)
    (ht : w.st.targets[w.conn.target]? = some t) (he : evaluate mods i pkt w = .ok (d, w₁, ev))
    (hacc : d.result = .accept) :
    DecisionHolder.decide mods i pkt t.controlRule 0 {} w = .ok (d, w₁) := by
  have hget : getDecision mods i pkt .control t.controlRule {} w = .ok (d, w₁, ev) := by
    simpa [evaluate, State.targetOf, ht, Option.orFail, hs, hdest] using he
  exact (getDecision_accept hget Decision.noConfusion hacc).2.1

theorem deProcessPacket_accept_control (hs : w₁.conn.state = .control)
    (ht : w₁.st.targets[w₁.conn.target]? = some t) (he : evaluate mods i pkt w = .ok (d, w₁, ev))
    (hacc : d.result = .accept) : deProcessPacket mods i pkt g w = .ok (.ok, w₁, ev) := by
  rw [deProcessPacket, he]
  simp [act, State.targetOf, ht, Option.orFail, hacc, hs]

theorem submitted_conn (pkt : Pkt) (c : Conn) :
    (c.submitted pkt).destination = c.destination ∧ (c.submitted pkt).target = c.target ∧
      ∀ g out, snatIp g (c.submitted pkt) out = snatIp g c out := by
  have halike : c.submitted pkt = c.worked (c.submitted pkt) := alike_submitted pkt c
  rw [halike]
  exact ⟨rfl, rfl, fun _ _ => rfl⟩

/-- **Accepted packets.** Let the control rule accept a packet of a honeypot, on a connection to EXT
that is in CONTROL. Then `DE_process_packet` returns `OK`, and `de_thread` sends the packet exactly
once, to where the connection goes after the evaluation, if and only if no module on the way has
switched the connection and there is a way out to EXT. -/
theorem accepted_iff (hsub : w.conn.submits g pkt = true)
    (hctl : (w.conn.submitted pkt).state = .control) (hdest : w.conn.destination = .ext)
    (ht : w.st.targets[w.conn.target]? = some t)
    (he : evaluate mods i pkt ⟨w.st, w.conn.submitted pkt⟩ = .ok (d, w₁, ev₁))
    (hacc : d.result = .accept) :
    ((∃ w₂ ev₂, deProcessPacket mods i pkt g ⟨w.st, w.conn.submitted pkt⟩ = .ok (.ok, w₂, ev₂)) ∧
        ∃ w' ev e, handle mods g i pkt w = .ok (w', ev) ∧ ev.filterMap Event.emission = [e] ∧
          Delivered i t w₁.conn pkt e) ↔
      ¬Switches mods i pkt t.controlRule ⟨w.st, w.conn.submitted pkt⟩ ∧ Routed g t w.conn := by
  obtain ⟨hdest', htarget, hsnat⟩ := submitted_conn pkt w.conn
  have hdec := evaluate_control_ext hctl (hdest'.trans hdest) (by rw [htarget]; exact ht) he hacc
  by_cases hsw : Switches mods i pkt t.controlRule ⟨w.st, w.conn.submitted pkt⟩
  · -- the connection is in PROXY, for which the status is NOK
    obtain ⟨hq, m, hm, hmsw⟩ := hsw
    have hproxy : w₁.conn.state = .proxy := decide_switching hq hdec hm hmsw
    refine iff_of_false ?_ fun h => h.1 ⟨hq, m, hm, hmsw⟩
    rintro ⟨⟨w₂, ev₂, hd⟩, -⟩
    obtain ⟨t', ht', -⟩ := Option.map_eq_some_iff.mp
      (((evaluate_run he).framed.targets w.conn.target).trans (congrArg _ ht))
    have htarget₁ : w₁.conn.target = w.conn.target :=
      (Conn.target_of_flow (evaluate_run he).flow).trans htarget
    rw [deProcessPacket_switched he hacc hproxy (htarget₁ ▸ ht')] at hd
    cases hd
  · obtain ⟨mem, rfl⟩ := decide_not_switching (d := {}) (fun m hm h => hsw ⟨h.1, m, hm, h.2⟩) hdec
    have hd : deProcessPacket mods i pkt g ⟨w.st, w.conn.submitted pkt⟩ = .ok (.ok, _, ev₁) :=
      deProcessPacket_accept_control hctl (by rw [htarget]; exact ht) he hacc
    have hout (ev : List Event) := @handle_accepted _ mods g i pkt w _ ev ev₁ t hsub hctl hd
      (by rw [htarget]; exact ht) (hdest'.trans hdest)
    have hroute : Routed g t w.conn ↔ Routed g t (w.conn.submitted pkt) := by
      simp only [Routed, hsnat]
    constructor
    · rintro ⟨-, w', ev, e, hh, -, -⟩
      obtain ⟨pkt', ev₂, hp, -⟩ := (hout ev).mp ⟨w', hh⟩
      exact ⟨hsw, hroute.mpr ((routed_iff pkt).mpr ⟨pkt', ev₂, hp⟩)⟩
    · rintro ⟨-, hr⟩
      obtain ⟨pkt', ev₂, hp⟩ := (routed_iff (i := i) pkt).mp (hroute.mp hr)
      obtain ⟨w', hh⟩ := (hout _).mpr ⟨pkt', ev₂, hp, rfl⟩
      have hrw := proxyInt2ext_rewritten hp
      obtain ⟨out, ip, mac, hdef, -, -, rfl⟩ := proxyInt2ext_cases hp
      refine ⟨⟨_, _, hd⟩, w', _, { sender := .proxyInt2ext, id := i, conn := w.conn.submitted pkt
                                   pkt := pkt', out, frame := pkt'.packet },
        hh, ?_, ⟨rfl, hrw.original, fun _ => ⟨rfl, hdef⟩, fun hi => ?_⟩⟩
      · rw [List.filterMap_append, evaluate_emission he]
        rfl
      · exact absurd ((hdest'.trans hdest).symm.trans hi) (by decide)

namespace Sample

/-- A packet of the backend to EXT. -/
def egress : Pkt :=
  packet .hih (udp 2 20 1000 50 80)

/-- A connection to EXT that the backend has opened, under a control rule. -/
def leaving : Work Unit :=
  Work.withTarget
    ⟨start, { Conn.fresh egress 1 .hih 0 .control with destination := .ext }⟩
    { target with controlRule := Sample.rule }

end Sample

/-- A packet that the control rule accepts is sent to EXT. -/
theorem accepted_outbound :
    (∃ w₂ ev₂, deProcessPacket (Sample.modules .accept) 1 Sample.egress Sample.globals
        Sample.leaving = .ok (.ok, w₂, ev₂)) ∧
      ∃ w' ev e, handle (Sample.modules .accept) Sample.globals 1 Sample.egress Sample.leaving =
          .ok (w', ev) ∧ ev.filterMap Event.emission = [e] ∧
        Delivered 1 { Sample.target with controlRule := Sample.rule } Sample.leaving.conn
          Sample.egress e := by
  have he : evaluate (Sample.modules .accept) 1 Sample.egress Sample.leaving =
      .ok ({ result := .accept }, Sample.leaving, [.evaluated 1 .control .accept]) := rfl
  refine (accepted_iff (w := Sample.leaving) rfl rfl rfl
    (t := { Sample.target with controlRule := Sample.rule }) ?_ he rfl).mpr ⟨?_, 0, 9, rfl, rfl⟩
  · simp [Sample.leaving, Work.withTarget]
  · rintro ⟨hq, -⟩
    exact absurd hq (by decide)

/-- **A query that is lost.** The control rule is a `dns_control` with a complete configuration. A
high-interaction honeypot opens a connection to port 53 and sends a query on it. The rule accepts,
`DE_process_packet` returns `NOK`, and nothing is sent. -/
theorem accepted_broken :
    ∃ tr s s₁ i pkt c d w₁ ev₁ w₂ ev₂ w' ev,
      Machine.Reaches (step (Sample.modules .accept) Sample.globals) Sample.dnsStart tr s ∧
      assign Sample.globals s (Sample.query 2 20 60) 0 = .ok (s₁, some (i, pkt)) ∧
      s₁.conns[i]? = some c ∧ pkt.origin = .hih ∧ c.state = .control ∧ c.destination = .ext ∧
      evaluate (Sample.modules .accept) i pkt ⟨s₁, c⟩ = .ok (d, w₁, ev₁) ∧ d.result = .accept ∧
      w₁.conn.destination = .intra ∧
      deProcessPacket (Sample.modules .accept) i pkt Sample.globals ⟨s₁, c⟩ =
        .ok (.nok, w₂, ev₂) ∧
      handle (Sample.modules .accept) Sample.globals i pkt ⟨s₁, c⟩ = .ok (w', ev) ∧
      ev.filterMap Event.emission = [] := by
  have hrun : (do
      let r ← Machine.exec (step (Sample.modules .accept) Sample.globals) Sample.dnsStart
        [.packet (Sample.udp 2 20 1000 60 0x3500) 0]
      let a ← assign Sample.globals r.1 (Sample.query 2 20 60) 0
      let x ← a.2.orFail .conn
      let c ← a.1.connAt x.1
      let e ← evaluate (Sample.modules .accept) x.1 x.2 ⟨a.1, c⟩
      let d ← deProcessPacket (Sample.modules .accept) x.1 x.2 Sample.globals ⟨a.1, c⟩
      let h ← handle (Sample.modules .accept) Sample.globals x.1 x.2 ⟨a.1, c⟩
      return decide (x.2.origin = .hih ∧ c.state = .control ∧ c.destination = .ext ∧
        e.1.result = .accept ∧ e.2.1.conn.destination = .intra ∧ d.1 = .nok ∧
        h.2.filterMap Event.emission = []) : Except Fault Bool).passes id = true := by
    decide +kernel
  obtain ⟨b, hrun, hb⟩ := Except.passes_iff.mp hrun
  obtain ⟨⟨s, tr⟩, hr, hrun⟩ := Except.bind_eq_ok.mp hrun
  obtain ⟨⟨s₁, o⟩, ha, hrun⟩ := Except.bind_eq_ok.mp hrun
  obtain ⟨⟨i, pkt⟩, ho, hrun⟩ := Except.bind_eq_ok.mp hrun
  obtain ⟨c, hc, hrun⟩ := Except.bind_eq_ok.mp hrun
  obtain ⟨⟨d, w₁, ev₁⟩, he, hrun⟩ := Except.bind_eq_ok.mp hrun
  obtain ⟨⟨status, w₂, ev₂⟩, hd, hrun⟩ := Except.bind_eq_ok.mp hrun
  obtain ⟨⟨w', ev⟩, hh, hrun⟩ := Except.bind_eq_ok.mp hrun
  have ho := Option.orFail_eq_ok.mp ho
  simp only at ho
  have hb' := Except.ok.inj hrun
  subst ho hb'
  obtain ⟨hhih, hctl, hdest, hacc, hintra, rfl, hnone⟩ : pkt.origin = .hih ∧ c.state = .control ∧
      c.destination = .ext ∧ d.result = .accept ∧ w₁.conn.destination = .intra ∧ status = .nok ∧
      ev.filterMap Event.emission = [] := by simpa using hb
  exact ⟨tr, s, s₁, i, pkt, c, d, w₁, ev₁, w₂, ev₂, w', ev, Machine.reaches_of_exec hr, ha,
    Option.orFail_eq_ok.mp hc, hhih, hctl, hdest, he, hacc, hintra, hd, hh, hnone⟩

end Honeybrid
