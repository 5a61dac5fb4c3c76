import Honeybrid.Rules

/-!
# AND chains

A group of an equation stands for the conjunction of its modules. `DE_build_subtree` splits the
whole group, and hands only the second part on to the recursive call, which finds no operator in it.
The chain has a node for each name when there are at most two of them; the names from the third on
are neither looked up nor asked.

## Main definitions

* `Group.conjuncts`: the modules of all names of a group.
* `AcceptAll`: modules that accept one after the other.
* `Complete`: a chain that stands for the conjunction of a group.

## Main results

* `decide_chain_accept`: a chain is accepted when all its modules accept.
* `complete_iff`: the groups whose chain is complete.
-/

namespace Honeybrid

/-- The modules of all names of a group. -/
def Group.conjuncts (table : ModuleTable) (g : Group) : List ModuleDef :=
  (g.first :: g.rest).filterMap fun modname => (lookupModule table modname).toOption

/-- All modules accept, each run after the ones before it. -/
def AcceptAll {μ : Type} (mods : Modules μ) (i : ConnId) (pkt : Pkt) (test : HandlerId) :
    List ModuleDef → HandlerId → Work μ → Prop
  | [], _, _ => True
  | m :: ms, use, w => ∃ o w', runModule mods i pkt m test use w = .ok (o, w') ∧
      o.result = .accept ∧ AcceptAll mods i pkt test ms o.backendUse w'

/-- A pointer to the conjunction of a group: a chain with a node for each of its modules, in their
order, which is accepted exactly when all of them accept. -/
structure Complete (table : ModuleTable) (g : Group) (p : NodePtr) (h : Heap) : Prop where
  reads : h.Reads (some p) (Rule.chain (g.conjuncts table))
  length_eq : (g.conjuncts table).length = (g.first :: g.rest).length
  accepts : ∀ rule, h.Reads (some p) rule → ∀ {μ : Type} (mods : Modules μ) (i : ConnId) (pkt : Pkt)
    (d : DecisionHolder) (w : Work μ),
    (∃ d' w', d.decide mods i pkt rule 0 w = .ok (d', w') ∧ d'.result = .accept) ↔
      AcceptAll mods i pkt d.backendTest (g.conjuncts table) 0 w

variable {table : ModuleTable} {g : Group} {h : Heap}

/-! ### Chains -/

/-- A pointer stands for one rule. -/
theorem Heap.Reads.unique {q : Option NodePtr} {r r' : Rule} (hr : h.Reads q r)
    (hr' : h.Reads q r') : r = r' := by
  induction hr generalizing r' with
  | null =>
    cases hr'
    rfl
  | node hp _ _ iht ihf =>
    cases hr' with
    | node hp' ht' hf' =>
      obtain rfl : _ = _ := Option.some.inj (hp.symm.trans hp')
      rw [iht ht', ihf hf']

theorem chain_injective : Function.Injective Rule.chain := by
  intro ms
  induction ms with
  | nil =>
    intro ms' heq
    cases ms' with
    | nil => rfl
    | cons m ms' => cases heq
  | cons m ms ih =>
    intro ms' heq
    cases ms' with
    | nil => cases heq
    | cons m' ms' =>
      rw [Rule.chain, Rule.chain, Rule.node.injEq] at heq
      rw [heq.1, ih heq.2.1]

theorem acceptAll_cons {μ : Type} {mods : Modules μ} {i : ConnId} {pkt : Pkt} {test u : HandlerId}
    {m : ModuleDef} {ms : List ModuleDef} {o : ModOut} {w w' : Work μ}
    (hrun : runModule mods i pkt m test u w = .ok (o, w')) :
    AcceptAll mods i pkt test (m :: ms) u w ↔
      o.result = .accept ∧ AcceptAll mods i pkt test ms o.backendUse w' := by
  rw [AcceptAll, hrun]
  constructor
  · rintro ⟨o', w'', hok, hall⟩
    cases hok
    exact hall
  · exact fun hall => ⟨o, w', rfl, hall⟩

/-- **Chains.** `decide` accepts on a chain exactly when all its modules accept, one after the
other. -/
theorem decide_chain_accept {μ : Type} {mods : Modules μ} {i : ConnId} {pkt : Pkt}
    {ms : List ModuleDef} {d : DecisionHolder} {u : HandlerId} {w : Work μ} (hne : ms ≠ []) :
    (∃ d' w', d.decide mods i pkt (Rule.chain ms) u w = .ok (d', w') ∧ d'.result = .accept) ↔
      AcceptAll mods i pkt d.backendTest ms u w := by
  induction ms generalizing d u w with
  | nil => exact absurd rfl hne
  | cons m ms ih =>
    rw [Rule.chain, DecisionHolder.decide]
    cases hrun : runModule mods i pkt m d.backendTest u w with
    | error e => simp [AcceptAll, hrun]
    | ok r =>
      obtain ⟨o, w₁⟩ := r
      rw [acceptAll_cons hrun]
      simp only [Except.ok_bind]
      cases hres : o.result with
      | defer => simp [pure, Except.pure]
      | reject => simp [pure, Except.pure]
      | accept =>
        cases ms with
        | nil => simp [Rule.chain, AcceptAll, pure, Except.pure]
        | cons m' ms =>
          have hchain : Rule.chain (m' :: ms) ≠ .null := Rule.noConfusion
          -- a suggested backend does not touch the backend under test
          have htest : (if o.backendUse ≠ 0 then { d with backendUse := o.backendUse } else d :
              DecisionHolder).backendTest = d.backendTest := by
            split_ifs <;> rfl
          rw [if_neg hchain, ih (List.cons_ne_nil _ _), htest]
          exact ⟨fun hall => ⟨rfl, hall⟩, And.right⟩

/-! ### Groups -/

/-- With known names, `DE_build_subtree` returns. -/
theorem deBuildSubtree_returns
    (hknown : ∀ name ∈ g.first :: g.rest, ∃ m, lookupModule table name = .ok m) :
    ∃ p h', deBuildSubtree table g h = .ok (p, h') := by
  obtain ⟨name, rest⟩ := g
  obtain ⟨m, hm⟩ := hknown name (List.mem_cons_self ..)
  cases rest with
  | nil => exact ⟨_, _, by rw [deBuildSubtree, hm]; rfl⟩
  | cons next rest =>
    obtain ⟨m', hm'⟩ := hknown next (List.mem_cons_of_mem _ (List.mem_cons_self ..))
    exact ⟨_, _, by rw [deBuildSubtree, deBuildSubtree, hm', hm]; rfl⟩

theorem length_conjuncts
    (hknown : ∀ name ∈ g.first :: g.rest, ∃ m, lookupModule table name = .ok m) :
    (g.conjuncts table).length = (g.first :: g.rest).length := by
  refine List.filterMap_length_eq_length.mpr fun name hname => ?_
  obtain ⟨m, hm⟩ := hknown name hname
  rw [hm]
  rfl

/-- The chain holds the modules of the first two names. -/
theorem modules_eq_take
    (hknown : ∀ name ∈ g.first :: g.rest, ∃ m, lookupModule table name = .ok m) :
    g.modules table = (g.conjuncts table).take 2 := by
  obtain ⟨name, rest⟩ := g
  obtain ⟨m, hm⟩ := hknown name (List.mem_cons_self ..)
  cases rest with
  | nil => simp [Group.modules, Group.conjuncts, hm, Except.toOption]
  | cons next rest =>
    obtain ⟨m', hm'⟩ := hknown next (List.mem_cons_of_mem _ (List.mem_cons_self ..))
    simp [Group.modules, Group.conjuncts, hm, hm', Except.toOption]

theorem complete_of_modules {p : NodePtr} {h' : Heap} (hb : Built table g h p h')
    (heq : g.modules table = g.conjuncts table)
    (hlen : (g.conjuncts table).length = (g.first :: g.rest).length) : Complete table g p h' := by
  have hreads := hb.reads h' fun _ _ _ => rfl
  rw [heq] at hreads
  refine ⟨hreads, hlen, fun rule hrule μ mods i pkt d w => ?_⟩
  rw [hrule.unique hreads]
  exact decide_chain_accept (heq ▸ hb.nonempty)

/-- **AND chains.** Let all names of a group be known. The chain that `DE_build_subtree` returns
stands for the conjunction of the group exactly when the group has at most two names. -/
theorem complete_iff
    (hknown : ∀ name ∈ g.first :: g.rest, ∃ m, lookupModule table name = .ok m) :
    (∃ p h', deBuildSubtree table g h = .ok (p, h') ∧ Complete table g p h') ↔
      (g.first :: g.rest).length ≤ 2 := by
  have hlen := length_conjuncts hknown
  have htake := modules_eq_take hknown
  constructor
  · rintro ⟨p, h', hok, hc⟩
    have hreads := (deBuildSubtree_built hok).reads h' fun _ _ _ => rfl
    have heq : g.modules table = g.conjuncts table := chain_injective (hreads.unique hc.reads)
    rw [← hlen, ← heq, htake]
    exact List.length_take_le ..
  · intro hle
    obtain ⟨p, h', hok⟩ := deBuildSubtree_returns (h := h) hknown
    refine ⟨p, h', hok, complete_of_modules (deBuildSubtree_built hok) ?_ hlen⟩
    rw [htake, List.take_of_length_le (hlen ▸ hle)]

/-- The chain of `a AND b`. -/
theorem complete_pair : ∃ p h', deBuildSubtree Sample.moduleTable ⟨"a", ["b"]⟩ [] = .ok (p, h') ∧
    Complete Sample.moduleTable ⟨"a", ["b"]⟩ p h' := by
  refine (complete_iff fun name hname => ?_).mpr (Nat.le_refl _)
  simp only [List.mem_cons, List.not_mem_nil, or_false] at hname
  obtain rfl | rfl := hname
  · exact ⟨Sample.moduleNamed "a", by decide +kernel⟩
  · exact ⟨Sample.moduleNamed "b", by decide +kernel⟩

/-- **The third module is dropped.** In `a AND a AND b` the module `a` accepts and `b` rejects. The
chain has two nodes with the module `a`, and `decide` accepts on it. -/
theorem complete_broken : ∃ p h rule,
    deBuildSubtree Sample.moduleTable ⟨"a", ["a", "b"]⟩ [] = .ok (p, h) ∧
      h.Reads (some p) rule ∧
      rule = Rule.chain [Sample.moduleNamed "a", Sample.moduleNamed "a"] ∧
      (∃ d w, DecisionHolder.decide Sample.byName 1 Sample.request rule 0 {} Sample.work =
        .ok (d, w) ∧ d.result = .accept) ∧
      Sample.verdicts (Sample.moduleNamed "b") = .reject ∧
      ¬ Complete Sample.moduleTable ⟨"a", ["a", "b"]⟩ p h := by
  have hb : deBuildSubtree Sample.moduleTable ⟨"a", ["a", "b"]⟩ [] =
      .ok (1, [{ module := Sample.moduleNamed "a" },
        { module := Sample.moduleNamed "a", trueBranch := some 0 }]) := by
    decide +kernel
  have hmodules : Group.modules Sample.moduleTable ⟨"a", ["a", "b"]⟩ =
      [Sample.moduleNamed "a", Sample.moduleNamed "a"] := by
    decide +kernel
  have hread := (deBuildSubtree_built hb).reads _ fun _ _ _ => rfl
  rw [hmodules] at hread
  refine ⟨_, _, _, hb, hread, rfl, ⟨{ result := .accept }, Sample.work, rfl, rfl⟩, by decide, ?_⟩
  intro hc
  have heq := chain_injective (hread.unique hc.reads)
  exact absurd (heq ▸ hc.length_eq) (by decide)

end Honeybrid
