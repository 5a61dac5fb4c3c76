import Mathlib.Logic.Relation
import Honeybrid.Creation
import Honeybrid.DecisionEngine

/-!
# What a rule and its verdict can do

Evaluating a rule changes little: the memory of the modules, and, when the rule visits the module
`dns_control` on a DNS query, the connection, which is switched to an INTRA host. `RuleRun` records
this, and `evaluate_run` shows it for the first half of `DE_process_packet`. The second half,
`act`, has one exit for each pair of verdict and state; `Acts` lists them.

## Main definitions

* `Rule.usesDns`: the rule contains the module `dns_control`.
* `RuleStep`, `RuleRun`: the changes a rule can make; with the flag `false`, without `dns_control`.
* `Acts`: the exits of `act`.
* `Framed`: the part of the state that neither rules nor verdicts touch.
* `Conn.flow`: the part of a connection that never changes.

## Main results

* `decide_run`, `evaluate_run`, `RuleRun.mem_only`: rules change nothing else.
* `RuleRun.conn_cases`: after a rule the connection is the same, or it was switched to INTRA.
* `decide_result`: a rule that is present has a verdict.
* `act_cases`: every execution of `act` is one of the exits `Acts`.
-/

namespace Honeybrid

variable {μ : Type} {mods : Modules μ} {g : Globals} {i : ConnId} {pkt : Pkt} {w w' : Work μ}
  {d d' : DecisionHolder} {rule : Rule} {ev : List Event} {b : Bool}

/-! ### The part of the state that stays -/

/-- A target without its INTRA handlers, which are all that changes in it. -/
def Target.fixed (t : Target) : Target :=
  { t with intraHandlers := ∅, intraHandlersList := [] }

/-- `s'` has the connections, the counter and the default routes of `s`, and its targets up to
their INTRA handlers. -/
structure Framed (s s' : State μ) : Prop where
  conns : s'.conns = s.conns
  cId : s'.cId = s.cId
  ifTarget : s'.ifTarget = s.ifTarget
  targets : ∀ id : TargetId, s'.targets[id]?.map Target.fixed = s.targets[id]?.map Target.fixed

theorem Framed.refl (s : State μ) : Framed s s :=
  ⟨rfl, rfl, rfl, fun _ => rfl⟩

theorem Framed.trans {s₁ s₂ s₃ : State μ} (h : Framed s₁ s₂) (h' : Framed s₂ s₃) : Framed s₁ s₃ :=
  ⟨h'.conns.trans h.conns, h'.cId.trans h.cId, h'.ifTarget.trans h.ifTarget,
    fun id => (h'.targets id).trans (h.targets id)⟩

/-- What a connection is about: who opened it, for which target, and the first packet. -/
structure Flow where
  initiator : Role
  target : TargetId
  protocol : BitVec 8
  srcIp : IpAddr
  dstIp : IpAddr
  srcPort : Port
  dstPort : Port

/-- What a connection says about its first packet. -/
def Conn.flow (c : Conn) : Flow where
  initiator := c.initiator
  target := c.target
  protocol := c.protocol
  srcIp := c.firstPktSrcIp
  dstIp := c.firstPktDstIp
  srcPort := c.firstPktSrcPort
  dstPort := c.firstPktDstPort

theorem Conn.initiator_of_flow {c c' : Conn} (h : c'.flow = c.flow) : c'.initiator = c.initiator :=
  congrArg Flow.initiator h

theorem Conn.target_of_flow {c c' : Conn} (h : c'.flow = c.flow) : c'.target = c.target :=
  congrArg Flow.target h

/-! ### Rules -/

/-- The rule contains the module `dns_control`. -/
def Rule.usesDns : Rule → Bool
  | .null => false
  | .node m trueBranch falseBranch =>
    m.function = .dnsControl || trueBranch.usesDns || falseBranch.usesDns

/-- One change a rule makes: a module writes its memory, or `dns_control` switches the connection
to an INTRA host. The second is possible only with the flag `b`. -/
inductive RuleStep (i : ConnId) (b : Bool) : Work μ → Work μ → Prop
  | mem (w : Work μ) (m : μ) : RuleStep i b w { w with st := { w.st with mod := m } }
  | dns {w : Work μ} {t : Target} {d : DnsServer} {ip : IpAddr} {s : State μ} {c : Conn}
      (hb : b = true) (ht : w.st.targets[w.conn.target]? = some t)
      (hs : switchConnToIntra
        { w.st with targets := w.st.targets.insert w.conn.target (dnsHandler t ip d).1 } i
        { w.conn with state := .proxy, destination := .intra } (dnsHandler t ip d).2 = .ok (s, c)) :
      RuleStep i b w ⟨s, c⟩

/-- The changes a rule makes on its way. -/
abbrev RuleRun (i : ConnId) (b : Bool) : Work μ → Work μ → Prop :=
  Relation.ReflTransGen (RuleStep i b)

theorem RuleRun.mono (h : RuleRun i false w w') : RuleRun i b w w' := by
  refine Relation.ReflTransGen.mono (fun w w' hw => ?_) _ _ h
  cases hw with
  | mem m => exact .mem _ m
  | dns hb => cases hb

theorem runModule_run {m : ModuleDef} {test use : HandlerId} {o : ModOut}
    (h : runModule mods i pkt m test use w = .ok (o, w')) :
    RuleRun i (m.function = .dnsControl) w w' := by
  simp only [runModule] at h
  split_ifs at h with hm
  · obtain ⟨w₁, hdns, h⟩ := Except.bind_eq_ok.mp h
    simp only [Except.pure_eq_ok, Except.ok.injEq, Prod.mk.injEq] at h
    obtain ⟨-, rfl⟩ := h
    simp only [modDnsControl] at hdns
    split_ifs at hdns
    · split at hdns
      · cases hdns
        exact .refl
      · obtain ⟨t, ht, hdns⟩ := Except.bind_eq_ok.mp hdns
        obtain ⟨x, hx, hdns⟩ := Except.bind_eq_ok.mp hdns
        cases hdns
        exact .single (.dns (by simpa using hm) (Option.orFail_eq_ok.mp ht) hx)
    · cases hdns
      exact .refl
  · obtain ⟨t, -, h⟩ := Except.bind_eq_ok.mp h
    simp only [Except.pure_eq_ok, Except.ok.injEq, Prod.mk.injEq] at h
    rw [← h.2]
    exact .single (.mem _ _)

theorem decide_run {use : HandlerId} (h : d.decide mods i pkt rule use w = .ok (d', w')) :
    RuleRun i rule.usesDns w w' := by
  induction rule generalizing use d w with
  | null =>
    cases h
    exact .refl
  | node m tb fb iht ihf =>
    simp only [DecisionHolder.decide] at h
    obtain ⟨⟨o, w₁⟩, hm, h⟩ := Except.bind_eq_ok.mp h
    have hfst : RuleRun i (Rule.node m tb fb).usesDns w w₁ := by
      have hrun := runModule_run hm
      by_cases hf : m.function = .dnsControl
      · simpa [Rule.usesDns, hf] using hrun
      · rw [decide_eq_false hf] at hrun
        exact hrun.mono
    have hbranch {tb' : Rule} (hle : tb'.usesDns = true → (Rule.node m tb fb).usesDns = true)
        (hrun : RuleRun i tb'.usesDns w₁ w') : RuleRun i (Rule.node m tb fb).usesDns w w' := by
      refine hfst.trans ?_
      cases htb : tb'.usesDns with
      | true => rw [hle htb, ← htb]; exact hrun
      | false => rw [htb] at hrun; exact hrun.mono
    simp only at h
    cases hres : o.result with
    | accept =>
      rw [hres] at h
      simp only at h
      split_ifs at h
      · cases h
        exact hfst
      · cases h
        exact hfst
      · exact hbranch (fun h => by simp [Rule.usesDns, h]) (iht h)
      · exact hbranch (fun h => by simp [Rule.usesDns, h]) (iht h)
    | defer =>
      rw [hres] at h
      cases h
      exact hfst
    | reject =>
      rw [hres] at h
      simp only at h
      split_ifs at h
      · cases h
        exact hfst
      · exact hbranch (fun h => by simp [Rule.usesDns, h]) (ihf h)

/-- A rule that is present has a verdict. -/
theorem decide_result {use : HandlerId} (hr : rule ≠ .null)
    (h : d.decide mods i pkt rule use w = .ok (d', w')) :
    d'.result = .accept ∨ d'.result = .defer ∨ d'.result = .reject := by
  induction rule generalizing use d w with
  | null => exact absurd rfl hr
  | node m tb fb iht ihf =>
    simp only [DecisionHolder.decide] at h
    obtain ⟨⟨o, w₁⟩, -, h⟩ := Except.bind_eq_ok.mp h
    simp only at h
    cases hres : o.result with
    | accept =>
      rw [hres] at h
      simp only at h
      split_ifs at h with htb
      · cases h
        exact .inl rfl
      · cases h
        exact .inl rfl
      · exact iht htb h
      · exact iht htb h
    | defer =>
      rw [hres] at h
      cases h
      exact .inr (.inl rfl)
    | reject =>
      rw [hres] at h
      simp only at h
      split_ifs at h with hfb
      · cases h
        exact .inr (.inr rfl)
      · exact ihf hfb h

/-- Without a rule nothing happens; with one there is a verdict, and it is recorded. -/
theorem getDecision_cases {name : RuleName}
    (h : getDecision mods i pkt name rule d w = .ok (d', w', ev)) :
    (rule = .null ∧ d' = d ∧ w' = w ∧ ev = []) ∨
    (rule ≠ .null ∧ RuleRun i rule.usesDns w w' ∧ ev = [.evaluated i name d'.result] ∧
      (d'.result = .accept ∨ d'.result = .defer ∨ d'.result = .reject)) := by
  simp only [getDecision] at h
  split_ifs at h with hr
  · simp only [Except.pure_eq_ok, Except.ok.injEq, Prod.mk.injEq] at h
    exact .inl ⟨hr, h.1.symm, h.2.1.symm, h.2.2.symm⟩
  · obtain ⟨⟨d₁, w₁⟩, hd, h⟩ := Except.bind_eq_ok.mp h
    simp only [Except.pure_eq_ok, Except.ok.injEq, Prod.mk.injEq] at h
    obtain ⟨rfl, rfl, rfl⟩ := h
    exact .inr ⟨hr, decide_run hd, rfl, decide_result hr hd⟩

theorem getDecision_run {name : RuleName} (hb : rule.usesDns = true → b = true)
    (h : getDecision mods i pkt name rule d w = .ok (d', w', ev)) : RuleRun i b w w' := by
  obtain ⟨-, -, rfl, -⟩ | ⟨-, hrun, -⟩ := getDecision_cases h
  · exact .refl
  · cases hr : rule.usesDns with
    | true => rwa [hb hr, ← hr]
    | false =>
      rw [hr] at hrun
      exact hrun.mono

theorem getDecisionBackends_run {hs : List (HandlerId × Handler)}
    (hb : ∀ e ∈ hs, e.2.rule.usesDns = true → b = true)
    (h : getDecisionBackends mods i pkt hs d w = .ok (d', w', ev)) : RuleRun i b w w' := by
  induction hs generalizing d w ev with
  | nil =>
    cases h
    exact .refl
  | cons e rest ih =>
    simp only [getDecisionBackends] at h
    obtain ⟨⟨d₁, w₁, ev₁⟩, hd, h⟩ := Except.bind_eq_ok.mp h
    have hrun := getDecision_run (hb e (List.mem_cons_self ..)) hd
    simp only at h
    split_ifs at h
    · simp only [Except.pure_eq_ok, Except.ok.injEq, Prod.mk.injEq] at h
      rwa [← h.2.1]
    · obtain ⟨⟨d₂, w₂, ev₂⟩, hd₂, h⟩ := Except.bind_eq_ok.mp h
      simp only [Except.pure_eq_ok, Except.ok.injEq, Prod.mk.injEq] at h
      obtain ⟨rfl, rfl, rfl⟩ := h
      exact hrun.trans (ih (fun e he => hb e (List.mem_cons_of_mem _ he)) hd₂)

/-- The rules that decide on a connection from EXT. -/
def Target.decisionRules (t : Target) : List Rule :=
  (t.frontHandler.map Handler.rule).toList ++ t.backPicker ::
    t.backHandlers.toList.map fun e => e.2.rule

theorem evaluatePicker_run {t : Target} (hb : ∀ r ∈ t.decisionRules, r.usesDns = true → b = true)
    (h : evaluatePicker mods i pkt t w = .ok (d', w', ev)) : RuleRun i b w w' := by
  simp only [evaluatePicker] at h
  obtain ⟨⟨d₁, w₁, ev₁⟩, hd, h⟩ := Except.bind_eq_ok.mp h
  have hrun := getDecision_run (hb t.backPicker (by simp [Target.decisionRules])) hd
  simp only at h
  split_ifs at h
  · obtain ⟨x, hx, h⟩ := Except.bind_eq_ok.mp h
    obtain ⟨⟨d₂, w₂, ev₂⟩, hd₂, h⟩ := Except.bind_eq_ok.mp h
    simp only [Except.pure_eq_ok, Except.ok.injEq, Prod.mk.injEq] at h
    rw [← h.2.1]
    refine hrun.trans (getDecision_run (hb x.rule ?_) hd₂)
    obtain ⟨k, -, hmem⟩ :=
      Std.TreeMap.getElem?_eq_some_iff_exists_compare_eq_eq_and_mem_toList.mp
        (Option.orFail_eq_ok.mp hx)
    simp only [Target.decisionRules, List.mem_append, List.mem_cons, List.mem_map]
    exact .inr (.inr ⟨(k, x), hmem, rfl⟩)
  · simp only [Except.pure_eq_ok, Except.ok.injEq, Prod.mk.injEq] at h
    rwa [← h.2.1]

/-- The evaluation of the rule in charge, with a flag that is set if one of the rules that can be
in charge uses `dns_control`. -/
theorem evaluate_run_of
    (hb : ∀ t, w.st.targets[w.conn.target]? = some t →
      w.conn.state = .control ∨ (∃ r ∈ t.decisionRules, r.usesDns = true) → b = true)
    (h : evaluate mods i pkt w = .ok (d', w', ev)) : RuleRun i b w w' := by
  simp only [evaluate] at h
  obtain ⟨t, ht, h⟩ := Except.bind_eq_ok.mp h
  have hb' := hb t (Option.orFail_eq_ok.mp ht)
  have hrules : ∀ r ∈ t.decisionRules, r.usesDns = true → b = true :=
    fun r hr hu => hb' (.inr ⟨r, hr, hu⟩)
  split at h
  · obtain ⟨front, hf, h⟩ := Except.bind_eq_ok.mp h
    obtain ⟨⟨d₁, w₁, ev₁⟩, hd, h⟩ := Except.bind_eq_ok.mp h
    simp only [Except.pure_eq_ok, Except.ok.injEq, Prod.mk.injEq] at h
    rw [← h.2.1]
    exact getDecision_run
      (hrules _ (by simp [Target.decisionRules, Option.orFail_eq_ok.mp hf])) hd
  · split_ifs at h
    · exact evaluatePicker_run hrules h
    · refine getDecisionBackends_run (fun e he => hrules _ ?_) h
      simp only [Target.decisionRules, List.mem_append, List.mem_cons, List.mem_map]
      exact .inr (.inr ⟨e, he, rfl⟩)
  · rename_i hctl
    have hbt : b = true := hb' (.inl hctl)
    split at h
    · exact getDecision_run (fun _ => hbt) h
    · obtain ⟨⟨d₁, w₁, ev₁⟩, hd, h⟩ := Except.bind_eq_ok.mp h
      simp only [Except.pure_eq_ok, Except.ok.injEq, Prod.mk.injEq] at h
      rw [← h.2.1]
      exact getDecision_run (fun _ => hbt) hd
    · cases h
      exact .refl
  · cases h
    exact .refl

/-- **Rules.** The first half of `DE_process_packet` only runs rules. -/
theorem evaluate_run (h : evaluate mods i pkt w = .ok (d', w', ev)) : RuleRun i true w w' :=
  evaluate_run_of (fun _ _ _ => rfl) h

/-- Without `dns_control`, a rule changes the memory of the modules only. -/
theorem RuleRun.mem_only (h : RuleRun i false w w') :
    ∃ m, w' = { w with st := { w.st with mod := m } } := by
  induction h with
  | refl => exact ⟨w.st.mod, rfl⟩
  | tail _ hstep ih =>
    obtain ⟨m, rfl⟩ := ih
    cases hstep with
    | mem m' => exact ⟨m', rfl⟩
    | dns hb => cases hb

theorem switchConnToIntra_cases {s s' : State μ} {c c' : Conn} {h : Handler}
    (hs : switchConnToIntra s i c h = .ok (s', c')) :
    ∃ intKey extKey intraKey, c.intKey = some intKey ∧ c.extKey = some extKey ∧
      s' = insertIntra { s with
        intTree1 := s.intTree1.erase intKey, intTree2 := s.intTree2.erase extKey } i intKey
          intraKey ∧
      c' = { c with intraHandler := some h, intraKey := some intraKey } := by
  simp only [switchConnToIntra] at hs
  obtain ⟨intKey, hi, hs⟩ := Except.bind_eq_ok.mp hs
  obtain ⟨extKey, he, hs⟩ := Except.bind_eq_ok.mp hs
  simp only [Except.pure_eq_ok, Except.ok.injEq, Prod.mk.injEq] at hs
  exact ⟨intKey, extKey, _, Option.orFail_eq_ok.mp hi, Option.orFail_eq_ok.mp he, hs.1.symm,
    hs.2.symm⟩

/-- The connection structure once `dns_control` has switched it to an INTRA host. -/
def Conn.switched (c : Conn) (h : Handler) (intraKey : ConnKey) : Conn :=
  { c with
    state := .proxy, destination := .intra, intraHandler := some h, intraKey := some intraKey }

/-- After a rule the connection is the same, or it was switched to an INTRA host. -/
theorem RuleRun.conn_cases (h : RuleRun i b w w') :
    w'.conn = w.conn ∨ ∃ h k, w'.conn = w.conn.switched h k := by
  induction h with
  | refl => exact .inl rfl
  | tail _ hstep ih =>
    cases hstep with
    | mem m => exact ih
    | @dns t d ip s c hb ht hs =>
      obtain ⟨-, -, k, -, -, -, rfl⟩ := switchConnToIntra_cases hs
      refine .inr ⟨(dnsHandler t ip d).2, k, ?_⟩
      obtain hc | ⟨h', k', hc⟩ := ih <;> simp only [hc, Conn.switched]

theorem addIntraHandler_fixed (t : Target) (ip : IpAddr) (h : Handler) :
    (addIntraHandler t ip h).1.fixed = t.fixed := by
  unfold addIntraHandler
  split_ifs <;> rfl

theorem dnsHandler_fixed (t : Target) (ip : IpAddr) (d : DnsServer) :
    (dnsHandler t ip d).1.fixed = t.fixed := by
  unfold dnsHandler
  split
  · rfl
  · exact addIntraHandler_fixed t ip _

theorem RuleRun.framed (h : RuleRun i b w w') : Framed w.st w'.st := by
  induction h with
  | refl => exact Framed.refl _
  | @tail w₁ w₂ _ hstep ih =>
    refine ih.trans ?_
    cases hstep with
    | mem m => exact ⟨rfl, rfl, rfl, fun _ => rfl⟩
    | dns hb ht hs =>
      obtain ⟨ik, ek, k, -, -, rfl, -⟩ := switchConnToIntra_cases hs
      refine ⟨rfl, rfl, rfl, fun id => ?_⟩
      change ((w₁.st.targets.insert w₁.conn.target _)[id]?).map _ = _
      rw [Std.TreeMap.getElem?_insert]
      split_ifs with hcmp
      · rw [← Std.TreeMap.getElem?_congr hcmp, ht, Option.map_some, Option.map_some,
          dnsHandler_fixed]
      · rfl

/-! ### Records of evaluations -/

theorem getDecision_events {name : RuleName}
    (h : getDecision mods i pkt name rule d w = .ok (d', w', ev)) :
    ∀ e ∈ ev, ∃ name r, e = .evaluated i name r := by
  obtain ⟨-, -, -, rfl⟩ | ⟨-, -, rfl, -⟩ := getDecision_cases h
  · simp
  · simp

theorem getDecisionBackends_events {hs : List (HandlerId × Handler)}
    (h : getDecisionBackends mods i pkt hs d w = .ok (d', w', ev)) :
    ∀ e ∈ ev, ∃ name r, e = .evaluated i name r := by
  induction hs generalizing d w ev with
  | nil =>
    cases h
    simp
  | cons x rest ih =>
    simp only [getDecisionBackends] at h
    obtain ⟨⟨d₁, w₁, ev₁⟩, hd, h⟩ := Except.bind_eq_ok.mp h
    simp only at h
    split_ifs at h
    · cases h
      exact getDecision_events hd
    · obtain ⟨⟨d₂, w₂, ev₂⟩, hd₂, h⟩ := Except.bind_eq_ok.mp h
      cases h
      intro e he
      obtain he | he := List.mem_append.mp he
      · exact getDecision_events hd e he
      · exact ih hd₂ e he

theorem evaluatePicker_events {t : Target}
    (h : evaluatePicker mods i pkt t w = .ok (d', w', ev)) :
    ∀ e ∈ ev, ∃ name r, e = .evaluated i name r := by
  simp only [evaluatePicker] at h
  obtain ⟨⟨d₁, w₁, ev₁⟩, hd, h⟩ := Except.bind_eq_ok.mp h
  simp only at h
  split_ifs at h
  · obtain ⟨x, hx, h⟩ := Except.bind_eq_ok.mp h
    obtain ⟨⟨d₂, w₂, ev₂⟩, hd₂, h⟩ := Except.bind_eq_ok.mp h
    cases h
    intro e he
    obtain he | he := List.mem_append.mp he
    · exact getDecision_events hd e he
    · exact getDecision_events hd₂ e he
  · cases h
    exact getDecision_events hd

/-- Nothing is sent while a rule is evaluated. -/
theorem evaluate_events (h : evaluate mods i pkt w = .ok (d', w', ev)) :
    ∀ e ∈ ev, ∃ name r, e = .evaluated i name r := by
  simp only [evaluate] at h
  obtain ⟨t, -, h⟩ := Except.bind_eq_ok.mp h
  split at h
  · obtain ⟨front, -, h⟩ := Except.bind_eq_ok.mp h
    obtain ⟨⟨d₁, w₁, ev₁⟩, hd, h⟩ := Except.bind_eq_ok.mp h
    cases h
    exact getDecision_events hd
  · split_ifs at h
    · exact evaluatePicker_events h
    · exact getDecisionBackends_events h
  · split at h
    · exact getDecision_events h
    · obtain ⟨⟨d₁, w₁, ev₁⟩, hd, h⟩ := Except.bind_eq_ok.mp h
      cases h
      exact getDecision_events hd
    · cases h
      simp
  · cases h
    simp

/-! ### Verdicts -/

/-- The exits of `act` for a connection of the target `t`. -/
inductive Acts (g : Globals) (i : ConnId) (t : Target) (d : DecisionHolder) (w : Work μ) :
    Status → Work μ → List Event → Prop
  | controlFree (hd : d.result = .noRule) (hs : w.conn.state = .control) :
      Acts g i t d w .ok { w with conn := w.conn.switchState .proxy } []
  | initFree (hd : d.result = .noRule) (hs : w.conn.state = .init) :
      Acts g i t d w .ok
        { w with
          conn := w.conn.switchState (if t.backHandlerCount = 0 then .proxy else .decision) } []
  | otherFree (hd : d.result = .noRule) (hc : w.conn.state ≠ .control) (hi : w.conn.state ≠ .init) :
      Acts g i t d w .ok w []
  | defer (hd : d.result = .defer) : Acts g i t d w .ok w []
  | acceptInit (hd : d.result = .accept) (hs : w.conn.state = .init) :
      Acts g i t d w .ok
        { w with
          conn := w.conn.switchState
            (if t.backHandlerCount = 0 ∧ t.backPicker = .null then .proxy else .decision) } []
  | redirect (hd : d.result = .accept) (hs : w.conn.state = .decision) {s : State μ} {c : Conn}
      {ev : List Event} (hr : setupRedirection g w.st t i w.conn d.backendUse =
        .ok (some (s, c, ev))) :
      Acts g i t d w .nok ⟨s, c⟩ ev
  | stay (hd : d.result = .accept) (hs : w.conn.state = .decision)
      (hr : setupRedirection g w.st t i w.conn d.backendUse = .ok none) : Acts g i t d w .nok w []
  | acceptControl (hd : d.result = .accept) (hs : w.conn.state = .control) :
      Acts g i t d w .ok w []
  | acceptOther (hd : d.result = .accept) (hi : w.conn.state ≠ .init)
      (hc : w.conn.state ≠ .decision) (hs : w.conn.state ≠ .control) : Acts g i t d w .nok w []
  | rejectDecision (hd : d.result = .reject) (hs : w.conn.state = .decision) :
      Acts g i t d w .nok { w with conn := w.conn.switchState .proxy } []
  | rejectOther (hd : d.result = .reject) (hs : w.conn.state ≠ .decision) :
      Acts g i t d w .nok { w with conn := w.conn.switchState .drop } []
  | drop (hd : d.result = .drop) :
      Acts g i t d w .nok { w with conn := w.conn.switchState .drop } []

/-- **Verdicts.** The second half of `DE_process_packet` takes one of the exits `Acts`. -/
theorem act_cases {status : Status} (h : act i g d w = .ok (status, w', ev)) :
    ∃ t, w.st.targets[w.conn.target]? = some t ∧ Acts g i t d w status w' ev := by
  simp only [act] at h
  obtain ⟨t, ht, h⟩ := Except.bind_eq_ok.mp h
  refine ⟨t, Option.orFail_eq_ok.mp ht, ?_⟩
  cases hd : d.result with
  | noRule =>
    rw [hd] at h
    simp only at h
    split at h
    · cases h
      exact .controlFree hd (by assumption)
    · rename_i hs
      have hinit := Acts.initFree (g := g) (i := i) (t := t) hd hs
      split_ifs at h with hcount
      · cases h
        rwa [if_pos hcount] at hinit
      · cases h
        rwa [if_neg hcount] at hinit
    · cases h
      exact .otherFree hd (by assumption) (by assumption)
  | defer =>
    rw [hd] at h
    cases h
    exact .defer hd
  | accept =>
    rw [hd] at h
    simp only at h
    split at h
    · rename_i hs
      have hinit := Acts.acceptInit (g := g) (i := i) (t := t) hd hs
      split_ifs at h with hcount
      · cases h
        rwa [if_pos hcount] at hinit
      · cases h
        rwa [if_neg hcount] at hinit
    · obtain ⟨o, ho, h⟩ := Except.bind_eq_ok.mp h
      cases o with
      | none =>
        cases h
        exact .stay hd (by assumption) ho
      | some x =>
        cases h
        exact .redirect hd (by assumption) ho
    · cases h
      exact .acceptControl hd (by assumption)
    · cases h
      exact .acceptOther hd (by assumption) (by assumption) (by assumption)
  | reject =>
    rw [hd] at h
    simp only at h
    split at h
    · cases h
      exact .rejectDecision hd (by assumption)
    · cases h
      exact .rejectOther hd (by assumption)
  | drop =>
    rw [hd] at h
    cases h
    exact .drop hd

/-- `DE_process_packet` in two halves. -/
theorem deProcessPacket_cases {status : Status}
    (h : deProcessPacket mods i pkt g w = .ok (status, w', ev)) :
    ∃ d w₁ ev₁ ev₂ t, evaluate mods i pkt w = .ok (d, w₁, ev₁) ∧
      w₁.st.targets[w₁.conn.target]? = some t ∧ Acts g i t d w₁ status w' ev₂ ∧
      ev = ev₁ ++ ev₂ := by
  simp only [deProcessPacket] at h
  obtain ⟨⟨d, w₁, ev₁⟩, he, h⟩ := Except.bind_eq_ok.mp h
  obtain ⟨⟨st, w₂, ev₂⟩, ha, h⟩ := Except.bind_eq_ok.mp h
  cases h
  obtain ⟨t, ht, hacts⟩ := act_cases ha
  exact ⟨d, w₁, ev₁, ev₂, t, he, ht, hacts, rfl⟩

end Honeybrid
