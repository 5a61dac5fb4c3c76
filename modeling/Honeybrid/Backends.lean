import Honeybrid.Verdicts
import Honeybrid.Engine

/-!
# Backends and their numbers

In DECISION, `get_decision_backend` is called for the backends in the order of their numbers, and
each rule overwrites the verdict of the one before. When no backend accepts, the verdict is
therefore that of the last backend that has a rule, and it depends on the numbers as soon as one
rule rejects and another one defers.

## Main definitions

* `Rates`: the result a rule comes to, as an assumption on the modules.
* `lastVerdict`: the verdict that is left after all backends.
* `Renumbers`: the same backends under other numbers.
* `Settles`: the state `DE_process_packet` leaves the connection in.

## Main results

* `getDecisionBackends_last`: the verdict of the backends is the last one.
* `numbering_iff`: the numbers do not matter exactly when the rules agree.
-/

namespace Honeybrid

variable {μ : Type} {mods : Modules μ} {g : Globals} {i : ConnId} {pkt : Pkt} {w : Work μ}
  {d : DecisionHolder} {t t' : Target} {verdict : Rule → Decision}

/-- On the packet and the connection the rule comes to the result `r` whenever it is evaluated, and
writes nothing but the memory of the modules and the holder. -/
def Rates (mods : Modules μ) (i : ConnId) (pkt : Pkt) (c : Conn) (rule : Rule) (r : Decision) :
    Prop :=
  ∀ (d : DecisionHolder) (st : State μ), st.targets[c.target]?.isSome = true →
    ∃ d' m, d.decide mods i pkt rule 0 ⟨st, c⟩ = .ok (d', ⟨{ st with mod := m }, c⟩) ∧
      d'.result = r

/-- The result that is left when backends with these rules have been asked in turn. -/
def lastVerdict (verdict : Rule → Decision) : Decision → List Rule → Decision
  | r, [] => r
  | r, rule :: rules => lastVerdict verdict (if rule = .null then r else verdict rule) rules

/-- The rules of the backends, in the order in which they are asked. -/
def Target.backRules (t : Target) : List Rule :=
  t.backHandlers.toList.map fun e => e.2.rule

/-- A handler without its number. -/
def Handler.unnumbered (h : Handler) : Handler :=
  { h with id := 0 }

/-- `t'` is `t` with its backends under other numbers. -/
def Renumbers (t t' : Target) : Prop :=
  t' = { t with backHandlers := t'.backHandlers } ∧
    (t'.backHandlers.toList.map fun e => e.2.unnumbered).Perm
      (t.backHandlers.toList.map fun e => e.2.unnumbered)

/-- The work with the target of its connection replaced. -/
def Work.withTarget (w : Work μ) (t : Target) : Work μ :=
  { w with st := { w.st with targets := w.st.targets.insert w.conn.target t } }

/-- `DE_process_packet` returns, and leaves the connection in the given state. -/
def Settles (mods : Modules μ) (g : Globals) (i : ConnId) (pkt : Pkt) (w : Work μ)
    (state : ConnStatus) : Prop :=
  ∃ status w' ev, deProcessPacket mods i pkt g w = .ok (status, w', ev) ∧ w'.conn.state = state

theorem Settles.unique {state state' : ConnStatus} (h : Settles mods g i pkt w state)
    (h' : Settles mods g i pkt w state') : state = state' := by
  obtain ⟨st, w₁, ev, hd, rfl⟩ := h
  obtain ⟨st', w₂, ev', hd', rfl⟩ := h'
  rw [hd] at hd'
  cases hd'
  rfl

theorem Renumbers.backRules (h : Renumbers t t') : t'.backRules.Perm t.backRules := by
  have hp := h.2.map Handler.rule
  rw [List.map_map, List.map_map] at hp
  exact hp

/-! ### The verdict of the backends -/

theorem lastVerdict_append (r : Decision) (rules rules' : List Rule) :
    lastVerdict verdict r (rules ++ rules') =
      lastVerdict verdict (lastVerdict verdict r rules) rules' := by
  induction rules generalizing r with
  | nil => rfl
  | cons rule rules ih => exact ih _

theorem lastVerdict_null (r : Decision) {rules : List Rule} (h : ∀ x ∈ rules, x = .null) :
    lastVerdict verdict r rules = r := by
  induction rules with
  | nil => rfl
  | cons rule rules ih =>
    rw [lastVerdict, if_pos (h rule (List.mem_cons_self ..))]
    exact ih fun x hx => h x (List.mem_cons_of_mem _ hx)

/-- Rules that agree leave their common result, if there is one at all. -/
theorem lastVerdict_agree {r r₀ : Decision} {rules : List Rule}
    (h : ∀ x ∈ rules, x ≠ .null → verdict x = r) :
    lastVerdict verdict r₀ rules = if ∀ x ∈ rules, x = .null then r₀ else r := by
  induction rules generalizing r₀ with
  | nil => simp [lastVerdict]
  | cons rule rules ih =>
    rw [lastVerdict, ih fun x hx => h x (List.mem_cons_of_mem _ hx)]
    by_cases hrule : rule = .null
    · simp [hrule]
    · simp [hrule, h rule (List.mem_cons_self ..) hrule]

/-- **The backends in turn.** When no rule accepts, all backends are asked, and the result is the
last one. -/
theorem getDecisionBackends_last {hs : List (HandlerId × Handler)}
    (hrate : ∀ e ∈ hs, e.2.rule ≠ .null → Rates mods i pkt w.conn e.2.rule (verdict e.2.rule))
    (hacc : ∀ e ∈ hs, e.2.rule ≠ .null → verdict e.2.rule ≠ .accept) (hd : d.result ≠ .accept)
    (ht : w.st.targets[w.conn.target]?.isSome = true) :
    ∃ d' m ev, getDecisionBackends mods i pkt hs d w =
        .ok (d', { w with st := { w.st with mod := m } }, ev) ∧
      d'.result = lastVerdict verdict d.result (hs.map fun e => e.2.rule) := by
  induction hs generalizing d w with
  | nil => exact ⟨d, w.st.mod, [], rfl, rfl⟩
  | cons e rest ih =>
    obtain ⟨key, h⟩ := e
    have hrate' := fun e he => hrate e (List.mem_cons_of_mem _ he)
    have hacc' := fun e he => hacc e (List.mem_cons_of_mem _ he)
    rw [getDecisionBackends]
    -- the callback sees the low bits of the number, and nothing here depends on them
    generalize key % 2 ^ 32 = low
    by_cases hrule : h.rule = .null
    · obtain ⟨d', m, ev, hrun, hres⟩ := ih (d := { d with backendTest := low }) hrate' hacc' hd ht
      refine ⟨d', m, [] ++ ev, ?_, ?_⟩
      · simp [getDecision, hrule, hd, hrun]
      · simp [lastVerdict, hrule, hres]
    · obtain ⟨d₁, m₁, hdec, hres₁⟩ := hrate (key, h) (List.mem_cons_self ..) hrule
        { d with backendTest := low } w.st ht
      have hd₁ : d₁.result ≠ .accept := by
        rw [hres₁]
        exact hacc (key, h) (List.mem_cons_self ..) hrule
      obtain ⟨d', m, ev, hrun, hres⟩ :=
        ih (d := d₁) (w := { w with st := { w.st with mod := m₁ } }) hrate' hacc' hd₁ ht
      refine ⟨d', m, [.evaluated i (.back low) d₁.result] ++ ev, ?_, ?_⟩
      · simp [getDecision, hrule, hdec, hd₁, hrun]
      · simp [lastVerdict, hrule, hres, hres₁]

/-- Without a verdict that accepts, the result is none, or one of the two others. -/
theorem lastVerdict_cases {r : Decision} {rules : List Rule}
    (hver : ∀ x ∈ rules, x ≠ .null → verdict x = .defer ∨ verdict x = .reject)
    (hr : r = .noRule ∨ r = .defer ∨ r = .reject) :
    lastVerdict verdict r rules = .noRule ∨ lastVerdict verdict r rules = .defer ∨
      lastVerdict verdict r rules = .reject := by
  induction rules generalizing r with
  | nil => exact hr
  | cons rule rules ih =>
    refine ih (fun x hx => hver x (List.mem_cons_of_mem _ hx)) ?_
    split_ifs with hrule
    · exact hr
    · exact .inr (hver rule (List.mem_cons_self ..) hrule)

/-- The state that `DE_process_packet` makes of such a verdict in DECISION. -/
def settled : Decision → ConnStatus
  | .reject => .proxy
  | _ => .decision

/-- In DECISION the connection is left in the state that the last verdict asks for. -/
theorem settles_last (ht : w.st.targets[w.conn.target]? = some t) (hs : w.conn.state = .decision)
    (hpick : t.backPicker = .null)
    (hrate : ∀ r ∈ t.backRules, r ≠ .null → Rates mods i pkt w.conn r (verdict r))
    (hver : ∀ r ∈ t.backRules, r ≠ .null → verdict r = .defer ∨ verdict r = .reject) :
    Settles mods g i pkt w (settled (lastVerdict verdict .noRule t.backRules)) := by
  have hmem (e : HandlerId × Handler) (he : e ∈ t.backHandlers.toList) : e.2.rule ∈ t.backRules :=
    List.mem_map_of_mem (f := fun e : HandlerId × Handler => e.2.rule) he
  obtain ⟨d, m, ev, hrun, hres⟩ := getDecisionBackends_last (d := {}) (w := w)
    (fun e he => hrate _ (hmem e he))
    (fun e he hr => by obtain h | h := hver _ (hmem e he) hr <;> simp [h]) (by simp) (by simp [ht])
  have heval : evaluate mods i pkt w = .ok (d, { w with st := { w.st with mod := m } }, ev) := by
    simp [evaluate, State.targetOf, ht, hs, hpick, hrun]
  have hres' : d.result = lastVerdict verdict .noRule t.backRules := hres
  unfold Settles deProcessPacket act
  rw [heval, ← hres']
  obtain h | h | h : d.result = .noRule ∨ d.result = .defer ∨ d.result = .reject := by
    rw [hres']
    exact lastVerdict_cases hver (.inl rfl)
  · refine ⟨.ok, { w with st := { w.st with mod := m } }, ev ++ [], ?_, ?_⟩
    · simp [h, State.targetOf, ht, hs]
    · simp [h, settled, hs]
  · refine ⟨.ok, { w with st := { w.st with mod := m } }, ev ++ [], ?_, ?_⟩
    · simp [h, State.targetOf, ht]
    · simp [h, settled, hs]
  · refine ⟨.nok, ⟨{ w.st with mod := m }, w.conn.switchState .proxy⟩, ev ++ [], ?_, ?_⟩
    · simp [h, State.targetOf, ht, hs]
    · simp [h, settled, Conn.switchState]

/-! ### Other numbers -/

/-- The target with the handlers of two numbers exchanged. -/
def Target.exchange (t : Target) (a b : HandlerId × Handler) : Target :=
  { t with
    backHandlers := t.backHandlers.map fun k h =>
      if k = a.1 then b.2 else if k = b.1 then a.2 else h }

theorem toList_exchange {a b : HandlerId × Handler} {l₁ l₂ l₃ : List (HandlerId × Handler)}
    (h : t.backHandlers.toList = l₁ ++ a :: (l₂ ++ b :: l₃)) :
    (t.exchange a b).backHandlers.toList = l₁ ++ (a.1, b.2) :: (l₂ ++ (b.1, a.2) :: l₃) := by
  -- the numbers in the tree are different from each other
  have hne : (t.backHandlers.toList.map Prod.fst).Nodup := by
    rw [List.Nodup, List.pairwise_map]
    refine Std.TreeMap.distinct_keys_toList.imp fun {x y} hxy he => hxy ?_
    rw [he]
    exact Std.ReflCmp.compare_self
  rw [h] at hne
  simp only [List.map_append, List.map_cons, List.nodup_append, List.nodup_cons, List.mem_append,
    List.mem_cons, List.mem_map, not_or] at hne
  obtain ⟨-, ⟨⟨ha₂, hab, ha₃⟩, -, ⟨hb₃, -⟩, hl₂⟩, hl₁⟩ := hne
  have hfix {l : List (HandlerId × Handler)} (ha : ∀ x ∈ l, x.1 ≠ a.1) (hb : ∀ x ∈ l, x.1 ≠ b.1) :
      (l.map fun e => (e.1, if e.1 = a.1 then b.2 else if e.1 = b.1 then a.2 else e.2)) = l := by
    refine (List.map_congr_left fun x hx => ?_).trans (List.map_id l)
    rw [if_neg (ha x hx), if_neg (hb x hx)]
    rfl
  rw [Target.exchange, Std.TreeMap.toList_map, h]
  simp only [List.map_append, List.map_cons, if_true, if_neg (Ne.symm hab)]
  rw [hfix (l := l₁), hfix (l := l₂), hfix (l := l₃)]
  · exact fun x hx he => ha₃ ⟨x, hx, he⟩
  · exact fun x hx he => hb₃ ⟨x, hx, he⟩
  · exact fun x hx he => ha₂ ⟨x, hx, he⟩
  · exact fun x hx => hl₂ _ ⟨x, hx, rfl⟩ _ (.inl rfl)
  · exact fun x hx => hl₁ _ ⟨x, hx, rfl⟩ _ (.inl rfl)
  · exact fun x hx => hl₁ _ ⟨x, hx, rfl⟩ _ (.inr (.inr (.inl rfl)))

theorem renumbers_exchange {a b : HandlerId × Handler} {l₁ l₂ l₃ : List (HandlerId × Handler)}
    (h : t.backHandlers.toList = l₁ ++ a :: (l₂ ++ b :: l₃)) : Renumbers t (t.exchange a b) := by
  refine ⟨rfl, ?_⟩
  rw [toList_exchange h, h]
  simp only [List.map_append, List.map_cons]
  refine List.Perm.append_left _ ?_
  refine (List.perm_middle.cons _).trans ((List.Perm.swap _ _ _).trans ?_)
  exact (List.perm_middle.symm).cons _

/-- The result is that of the last backend with a rule. -/
theorem lastVerdict_of_split {r : Decision} {l₁ l₃ : List Rule} {rule : Rule} (hrule : rule ≠ .null)
    (hnull : ∀ x ∈ l₃, x = .null) :
    lastVerdict verdict r (l₁ ++ rule :: l₃) = verdict rule := by
  rw [lastVerdict_append, lastVerdict, if_neg hrule, lastVerdict_null _ hnull]

/-- When some rule rejects, there are numbers under which the last one rejects. -/
theorem exists_renumbers_reject (hver : ∀ r ∈ t.backRules, r ≠ .null →
      verdict r = .defer ∨ verdict r = .reject)
    (hrej : ∃ r ∈ t.backRules, r ≠ .null ∧ verdict r = .reject) :
    ∃ t', Renumbers t t' ∧ lastVerdict verdict .noRule t'.backRules = .reject := by
  obtain ⟨r, hr, hnull, hverr⟩ := hrej
  obtain ⟨a, ha, rfl⟩ := List.mem_map.mp hr
  -- the last backend with a rule
  obtain ⟨l, b, l₃, hl, hb, hl₃⟩ : ∃ l b l₃, t.backHandlers.toList = l ++ b :: l₃ ∧
      b.2.rule ≠ .null ∧ ∀ x ∈ l₃, x.2.rule = .null := by
    have hsome : (t.backHandlers.toList.reverse.find? fun e => e.2.rule ≠ .null).isSome = true :=
      List.find?_isSome.mpr ⟨a, List.mem_reverse.mpr ha, decide_eq_true hnull⟩
    obtain ⟨b, hfind⟩ := Option.isSome_iff_exists.mp hsome
    obtain ⟨hb, as, bs, has, hnone⟩ := List.find?_eq_some_iff_append.mp hfind
    refine ⟨bs.reverse, b, as.reverse, ?_, of_decide_eq_true hb, fun x hx => ?_⟩
    · simpa using congrArg List.reverse has
    · simpa using hnone x (List.mem_reverse.mp hx)
  have hb' : b.2.rule ∈ t.backRules := by simp [Target.backRules, hl]
  have hnull₃ : ∀ x ∈ l₃.map fun e => e.2.rule, x = .null := by
    intro x hx
    obtain ⟨e, he, rfl⟩ := List.mem_map.mp hx
    exact hl₃ e he
  obtain hdef | hrej := hver _ hb' hb
  · -- it defers: a backend before it rejects, and the two are exchanged
    have ha' : a ∈ l := by
      rw [hl] at ha
      obtain ha | ha := List.mem_append.mp ha
      · exact ha
      · obtain rfl | ha := List.mem_cons.mp ha
        · rw [hdef] at hverr
          cases hverr
        · exact absurd (hl₃ a ha) hnull
    obtain ⟨l₁, l₂, rfl⟩ := List.append_of_mem ha'
    have hsplit : t.backHandlers.toList = l₁ ++ a :: (l₂ ++ b :: l₃) := by simp [hl]
    refine ⟨t.exchange a b, renumbers_exchange hsplit, ?_⟩
    rw [Target.backRules, toList_exchange hsplit, ← List.cons_append, ← List.append_assoc,
      List.map_append, List.map_cons, lastVerdict_of_split hnull hnull₃, hverr]
  · refine ⟨t, ⟨rfl, List.Perm.refl _⟩, ?_⟩
    rw [Target.backRules, hl, List.map_append, List.map_cons,
      lastVerdict_of_split hb hnull₃, hrej]

/-- **The numbers of the backends.** On a connection in DECISION, without a back-picking rule and
with no backend that accepts, the state after the packet is the same under all numberings of the
backends, and DECISION if one of them defers, exactly when it is not the case that one of them
defers and another one rejects. -/
theorem numbering_iff (hs : w.conn.state = .decision) (hpick : t.backPicker = .null)
    (hrate : ∀ r ∈ t.backRules, r ≠ .null → Rates mods i pkt w.conn r (verdict r))
    (hver : ∀ r ∈ t.backRules, r ≠ .null → verdict r = .defer ∨ verdict r = .reject) :
    ((∃ state, ∀ t', Renumbers t t' → Settles mods g i pkt (w.withTarget t') state) ∧
      ((∃ r ∈ t.backRules, r ≠ .null ∧ verdict r = .defer) →
        ∀ t', Renumbers t t' → Settles mods g i pkt (w.withTarget t') .decision)) ↔
      ¬((∃ r ∈ t.backRules, r ≠ .null ∧ verdict r = .defer) ∧
        ∃ r ∈ t.backRules, r ≠ .null ∧ verdict r = .reject) := by
  -- under other numbers the same rules are asked in another order
  have hset (t' : Target) (h : Renumbers t t') : Settles mods g i pkt (w.withTarget t')
      (settled (lastVerdict verdict .noRule t'.backRules)) := by
    have hmem (r : Rule) (hr : r ∈ t'.backRules) : r ∈ t.backRules := h.backRules.mem_iff.mp hr
    refine settles_last (t := t') ?_ hs ?_ (fun r hr => hrate r (hmem r hr))
      fun r hr => hver r (hmem r hr)
    · simp [Work.withTarget]
    · rw [h.1]
      exact hpick
  constructor
  · rintro ⟨-, hstay⟩ ⟨hdef, hrej⟩
    obtain ⟨t', hren, hlast⟩ := exists_renumbers_reject hver hrej
    have hproxy := hset t' hren
    rw [hlast] at hproxy
    cases hproxy.unique (hstay hdef t' hren)
  · intro hmix
    by_cases hdef : ∃ r ∈ t.backRules, r ≠ .null ∧ verdict r = .defer
    · -- all rules defer
      have hstay (t' : Target) (h : Renumbers t t') :
          Settles mods g i pkt (w.withTarget t') .decision := by
        have hagree (x : Rule) (hx : x ∈ t'.backRules) (hne : x ≠ .null) : verdict x = .defer := by
          have hx' := h.backRules.mem_iff.mp hx
          exact (hver x hx' hne).resolve_right fun hr => hmix ⟨hdef, x, hx', hne, hr⟩
        have hsettled := hset t' h
        rw [lastVerdict_agree hagree] at hsettled
        split_ifs at hsettled <;> exact hsettled
      exact ⟨⟨.decision, hstay⟩, fun _ => hstay⟩
    · -- all rules reject
      refine ⟨⟨settled (if ∀ x ∈ t.backRules, x = .null then .noRule else .reject),
        fun t' h => ?_⟩, fun h => absurd h hdef⟩
      have hagree (x : Rule) (hx : x ∈ t'.backRules) (hne : x ≠ .null) : verdict x = .reject := by
        have hx' := h.backRules.mem_iff.mp hx
        exact (hver x hx' hne).resolve_left fun hd => hdef ⟨x, hx', hne, hd⟩
      have hsettled := hset t' h
      rw [lastVerdict_agree hagree] at hsettled
      simpa only [h.backRules.mem_iff] using hsettled

namespace Sample

/-- The rule of one module. -/
def single (name : String) : Rule :=
  .node { name := name, function := .yesno } .null .null

/-- The modules by name: one rejects, the others defer. -/
def named : Modules Unit :=
  fun m a mem => (⟨if m.name = "no" then .reject else .defer, a.backendUse⟩, mem)

/-- The decision that a rule comes to with these modules. -/
def result (rule : Rule) : Decision :=
  if rule = single "no" then .reject else .defer

/-- The target with two backends, under the numbers 1 and 2. -/
def pair (first second : String) : Target :=
  { target with
    backHandlers := ((∅ : Std.TreeMap HandlerId Handler intcmp).insert 1
      { hih with rule := single first }).insert 2 { hih with id := 2, rule := single second }
    backHandlerCount := 2 }

/-- A connection in DECISION on that target. -/
def deciding (t : Target) : Work Unit :=
  Work.withTarget ⟨start, buffered⟩ t

end Sample

theorem rates_named {c : Conn} {name : String} :
    Rates Sample.named i pkt c (Sample.single name) (Sample.result (Sample.single name)) := by
  intro d st ht
  obtain ⟨t, ht⟩ := Option.isSome_iff_exists.mp ht
  by_cases hname : name = "no"
  · refine ⟨{ d with result := .reject }, (), ?_, ?_⟩ <;>
      simp [DecisionHolder.decide, runModule, State.targetOf, ht, Sample.single, Sample.named,
        Sample.result, hname]
  · refine ⟨{ d with result := .defer }, (), ?_, ?_⟩ <;>
      simp [DecisionHolder.decide, runModule, State.targetOf, ht, Sample.single, Sample.named,
        Sample.result, hname]

theorem backRules_pair (first second : String) :
    (Sample.pair first second).backRules = [Sample.single second, Sample.single first] :=
  rfl

theorem result_cases (rule : Rule) :
    Sample.result rule = .defer ∨ Sample.result rule = .reject := by
  unfold Sample.result
  split_ifs
  · exact .inr rfl
  · exact .inl rfl

theorem rates_pair {c : Conn} {first second : String} {r : Rule}
    (h : r ∈ (Sample.pair first second).backRules) :
    Rates Sample.named i pkt c r (Sample.result r) := by
  rw [backRules_pair] at h
  simp only [List.mem_cons, List.not_mem_nil, or_false] at h
  obtain rfl | rfl := h <;> exact rates_named

/-- Two backends that defer: the connection stays in DECISION. -/
theorem numbering_iff_defer : Settles Sample.named Sample.globals 1 Sample.request
    (Sample.deciding (Sample.pair "later" "later")) .decision := by
  refine ((numbering_iff (w := ⟨Sample.start, Sample.buffered⟩)
    (t := Sample.pair "later" "later") rfl rfl (fun r hr _ => rates_pair hr)
    fun r _ _ => result_cases r).mpr ?_).2 ?_ _ ⟨rfl, List.Perm.refl _⟩
  · rw [backRules_pair]
    decide +kernel
  · rw [backRules_pair]
    decide +kernel

/-- **The numbers decide.** Of two backends one rejects and one defers. The higher number is asked
first. When the backend that rejects has the number 1, the connection is given up to PROXY; under
exchanged numbers it stays in DECISION. -/
theorem numbering_broken :
    Renumbers (Sample.pair "no" "later") (Sample.pair "later" "no") ∧
      Settles Sample.named Sample.globals 1 Sample.request
        (Sample.deciding (Sample.pair "no" "later")) .proxy ∧
      Settles Sample.named Sample.globals 1 Sample.request
        (Sample.deciding (Sample.pair "later" "no")) .decision := by
  have hset (first second : String) : Settles Sample.named Sample.globals 1 Sample.request
      (Sample.deciding (Sample.pair first second))
      (settled
        (lastVerdict Sample.result .noRule [Sample.single second, Sample.single first])) := by
    refine settles_last (t := Sample.pair first second) ?_ rfl rfl (fun r hr _ => rates_pair hr)
      fun r _ _ => result_cases r
    simp [Sample.deciding, Work.withTarget]
  exact ⟨⟨rfl, List.Perm.swap _ _ _⟩, hset "no" "later", hset "later" "no"⟩

end Honeybrid
