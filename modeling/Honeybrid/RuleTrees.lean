import Honeybrid.Rules
import Honeybrid.Lib.Loops

/-!
# Rules on the heap

`decide` and `DE_destroy_tree` of `decision_engine.c` follow the branches of the nodes that
`DE_create_tree` has linked. Both are given here on the heap itself. A true branch leads to the node
behind it in a group, and a false branch to the head of the next group, so that the nodes can be
numbered downwards along all branches: no walk through the nodes comes back.

`DE_create_tree` returns the head of the last group, and no branch leads from there to an earlier
one. `DE_destroy_tree` releases the nodes of the last group only.

## Main definitions

* `decideRound`: a round of the loop of `decide`, on a pointer into the heap.
* `deDestroyTree`: the nodes that `DE_destroy_tree` frees, in their order.
* `Heap.Ranked`: the nodes of a part of the heap, numbered downwards along the branches.

## Main results

* `run_decideRound`: the loop of `decide` on the heap comes to what the rule of its node gives.
* `decide_terminates`: it ends from every node of an equation, and comes to no node twice.
* `deDestroyTree_complete_iff`: the equations whose nodes are all released.
-/

namespace Honeybrid

/-! ### `decide` on the heap -/

section Decide

variable {μ : Type}

/-- The variables of the loop of `decide`. -/
structure Deciding (μ : Type) where
  node : NodePtr
  use : HandlerId
  holder : DecisionHolder
  work : Work μ

variable (mods : Modules μ) (i : ConnId) (pkt : Pkt)

/-- Where a branch leads: to the next round, or out of the loop with a verdict. -/
def takeBranch (verdict : Decision) (use : HandlerId) (d : DecisionHolder) (w : Work μ) :
    Option NodePtr → Loop.Outcome (Deciding μ) (Except Fault (DecisionHolder × Work μ))
  | none => .done (.ok ({ d with result := verdict }, w))
  | some p => .again ⟨p, use, d, w⟩

/-- A round of the loop of `decide`. A pointer that leads nowhere keeps the loop where it is: a loop
that ends has followed none. -/
def decideRound (h : Heap) (s : Deciding μ) :
    Loop.Outcome (Deciding μ) (Except Fault (DecisionHolder × Work μ)) :=
  match h[s.node]? with
  | none => .again s
  | some nd =>
    match runModule mods i pkt nd.module s.holder.backendTest s.use s.work with
    | .error fault => .done (.error fault)
    | .ok (o, w) =>
      match o.result with
      | .accept =>
        let d := if o.backendUse ≠ 0 then { s.holder with backendUse := o.backendUse } else s.holder
        takeBranch .accept o.backendUse d w nd.trueBranch
      | .defer => .done (.ok ({ s.holder with result := .defer }, w))
      | .reject => takeBranch .reject o.backendUse s.holder w nd.falseBranch

variable {mods i pkt} {h : Heap} {p : NodePtr} {nd : Node} {s s' : Deciding μ} {rule : Rule}

theorem takeBranch_again {verdict : Decision} {use : HandlerId} {d : DecisionHolder} {w : Work μ}
    {q : Option NodePtr} (hs : takeBranch verdict use d w q = .again s') : q = some s'.node := by
  cases q with
  | none => cases hs
  | some p =>
    cases hs
    rfl

/-- A round that goes on has followed a branch of its node. -/
theorem decideRound_again (hnd : h[s.node]? = some nd)
    (hs : decideRound mods i pkt h s = .again s') :
    nd.trueBranch = some s'.node ∨ nd.falseBranch = some s'.node := by
  simp only [decideRound, hnd] at hs
  split at hs
  · cases hs
  · split at hs
    · exact .inl (takeBranch_again hs)
    · cases hs
    · exact .inr (takeBranch_again hs)

theorem Heap.Reads.eq_null_iff {q : Option NodePtr} (hr : h.Reads q rule) :
    rule = .null ↔ q = none := by
  cases hr <;> simp

/-- A round that follows a branch, or ends where there is none, comes to what the rule of the branch
gives. -/
theorem run_branch {q : Option NodePtr} {use : HandlerId} {d : DecisionHolder} {w : Work μ}
    {verdict : Decision} (hr : h.Reads q rule)
    (hrun : ∀ p, q = some p → ∃ n, Loop.run (decideRound mods i pkt h) n ⟨p, use, d, w⟩ =
      some (d.decide mods i pkt rule use w))
    (hs : decideRound mods i pkt h s = takeBranch verdict use d w q) :
    ∃ n, Loop.run (decideRound mods i pkt h) n s = some (if rule = .null then
      .ok ({ d with result := verdict }, w) else d.decide mods i pkt rule use w) := by
  cases q with
  | none => exact ⟨1, by rw [Loop.run_done hs, if_pos (hr.eq_null_iff.mpr rfl)]⟩
  | some p =>
    obtain ⟨n, hn⟩ := hrun p rfl
    have hne : rule ≠ .null := fun hnull => nomatch hr.eq_null_iff.mp hnull
    exact ⟨n + 1, by rw [Loop.run_again hs, hn, if_neg hne]⟩

/-- **`decide` on the heap.** The loop ends, with what the rule that its pointer stands for
gives. -/
theorem run_decideRound {use : HandlerId} {d : DecisionHolder} {w : Work μ}
    (hr : h.Reads (some p) rule) :
    ∃ n, Loop.run (decideRound mods i pkt h) n ⟨p, use, d, w⟩ =
      some (d.decide mods i pkt rule use w) := by
  -- induction on the rule: the branch that is followed stands for a smaller one
  induction rule generalizing p use d w with
  | null => cases hr
  | node m t f iht ihf =>
    cases hr with
    | @node _ nd _ _ hp ht hf =>
      rw [DecisionHolder.decide]
      cases hrun : runModule mods i pkt nd.module d.backendTest use w with
      | error fault => exact ⟨1, Loop.run_done (by simp only [decideRound, hp, hrun]; rfl)⟩
      | ok ow =>
        simp only [Except.ok_bind]
        cases hres : ow.1.result with
        | accept =>
          exact run_branch ht (fun q hq => iht (hq ▸ ht))
            (by simp only [decideRound, hp, hrun, hres])
        | defer => exact ⟨1, Loop.run_done (by simp only [decideRound, hp, hrun, hres]; rfl)⟩
        | reject =>
          exact run_branch hf (fun q hq => ihf (hq ▸ hf))
            (by simp only [decideRound, hp, hrun, hres])

end Decide

/-! ### The nodes of a group -/

variable {table : ModuleTable} {g : Group} {h h' : Heap} {p q head b c n : ℕ} {ρ : ℕ → ℕ}

/-- The nodes from `c` on are those of one group, and `p` is the head of its chain. -/
def Heap.LastGroup (h : Heap) (c p : ℕ) : Prop :=
  (p = c ∧ ∃ m, h.drop c = [{ module := m }]) ∨
    (p = c + 1 ∧ ∃ m m', h.drop c = [{ module := m }, { module := m', trueBranch := some c }])

/-- `DE_build_subtree` adds the nodes of a group behind the others. -/
theorem deBuildSubtree_lastGroup (hb : deBuildSubtree table g h = .ok (p, h')) :
    (∀ q < h.length, h'[q]? = h[q]?) ∧ h'.LastGroup h.length p := by
  refine ⟨(deBuildSubtree_built hb).frame, ?_⟩
  obtain ⟨name, _ | ⟨next, rest⟩⟩ := g
  · rw [deBuildSubtree] at hb
    obtain ⟨m, -, hb⟩ := Except.bind_eq_ok.mp hb
    cases hb
    exact .inl ⟨rfl, m, List.drop_left⟩
  · rw [deBuildSubtree, deBuildSubtree] at hb
    obtain ⟨⟨q, h₁⟩, hq, hb⟩ := Except.bind_eq_ok.mp hb
    obtain ⟨m, -, hq⟩ := Except.bind_eq_ok.mp hq
    obtain ⟨m', -, hb⟩ := Except.bind_eq_ok.mp hb
    cases hq
    cases hb
    refine .inr ⟨by simp, m, m', ?_⟩
    rw [List.append_assoc]
    exact List.drop_left

namespace Heap.LastGroup

variable (hg : h.LastGroup c p)

include hg

theorem length_eq : h.length = p + 1 ∧ c ≤ p := by
  obtain ⟨rfl, m, hd⟩ | ⟨rfl, m, m', hd⟩ := hg
  · have hlen := congrArg List.length hd
    simp only [List.length_drop, List.length_singleton] at hlen
    omega
  · have hlen := congrArg List.length hd
    simp only [List.length_drop, List.length_cons, List.length_nil] at hlen
    omega

theorem node_eq {nd : Node} (hq : c ≤ q) (hnd : h[q]? = some nd) :
    nd.falseBranch = none ∧ ∀ r : ℕ, nd.trueBranch = some r → c ≤ r ∧ r < q := by
  obtain ⟨k, rfl⟩ := Nat.exists_eq_add_of_le hq
  rw [← List.getElem?_drop] at hnd
  obtain ⟨-, m, hd⟩ | ⟨-, m, m', hd⟩ := hg
  · rw [hd] at hnd
    match k, hnd with
    | 0, hnd =>
      cases hnd
      exact ⟨rfl, nofun⟩
  · rw [hd] at hnd
    match k, hnd with
    | 0, hnd =>
      cases hnd
      exact ⟨rfl, nofun⟩
    | 1, hnd =>
      cases hnd
      refine ⟨rfl, fun r hr => ?_⟩
      cases hr
      omega

end Heap.LastGroup

/-! ### The loop over the groups -/

@[simp] theorem length_stitch (head : NodePtr) (n : ℕ) (p : NodePtr) (h : Heap) :
    (stitch head n p h).length = h.length := by
  induction n generalizing p h with
  | zero => rfl
  | succ n ih =>
    rw [stitch]
    split
    · rfl
    · split
      · exact List.length_set
      · exact (ih ..).trans List.length_set

/-- Stitching leads false branches to the head, of nodes that are reached along true branches. -/
theorem stitch_getElem? {S : NodePtr → Prop} (hp : S p)
    (hS : ∀ q nd r, S q → h[q]? = some nd → nd.trueBranch = some r → S r) (q : NodePtr) :
    (stitch head n p h)[q]? = h[q]? ∨ S q ∧ ∃ nd, h[q]? = some nd ∧
      (stitch head n p h)[q]? = some { nd with falseBranch := some head } := by
  induction n generalizing p h with
  | zero => exact .inl rfl
  | succ n ih =>
    rw [stitch]
    split
    · exact .inl rfl
    · rename_i nd hnd
      have hself : (h.set p { nd with falseBranch := some head })[p]? =
          some { nd with falseBranch := some head } :=
        List.getElem?_set_self (List.getElem?_eq_some_iff.mp hnd).1
      have hother (q : NodePtr) (hne : p ≠ q) :
          (h.set p { nd with falseBranch := some head })[q]? = h[q]? :=
        List.getElem?_set_ne hne
      split
      · by_cases hpq : p = q
        · exact .inr ⟨hpq ▸ hp, nd, hpq ▸ hnd, hpq ▸ hself⟩
        · exact .inl (hother q hpq)
      · rename_i next hnext
        -- the true branches are what they were, and the loop goes on from the next node
        have hS' : ∀ q nd' r, S q → (h.set p { nd with falseBranch := some head })[q]? = some nd' →
            nd'.trueBranch = some r → S r := by
          intro q nd' r hq hnd' hr
          by_cases hpq : p = q
          · subst hpq
            rw [hself] at hnd'
            cases hnd'
            exact hS p nd r hp hnd hr
          · exact hS q nd' r hq (hother q hpq ▸ hnd') hr
        by_cases hpq : p = q
        · subst hpq
          refine .inr ⟨hp, nd, hnd, ?_⟩
          obtain hold | ⟨-, nd', hnd', hnew⟩ := ih (hS p nd next hp hnd hnext) hS'
          · exact hold.trans hself
          · rw [hself] at hnd'
            cases hnd'
            exact hnew
        · rw [← hother q hpq]
          exact ih (hS p nd next hp hnd hnext) hS'

/-- The nodes from `b` on are numbered downwards along their branches, which lead to nodes among
them. -/
def Heap.Ranked (h : Heap) (b : ℕ) (ρ : ℕ → ℕ) : Prop :=
  ∀ (q : ℕ) (nd : Node) (r : ℕ), b ≤ q → h[q]? = some nd →
    nd.trueBranch = some r ∨ nd.falseBranch = some r → b ≤ r ∧ r < h.length ∧ ρ r < ρ q

/-- The nodes that are written when the last of the numbered nodes are stitched to a new group. -/
theorem Heap.Ranked.stitch_node (hr : h.Ranked b ρ) (hb : b ≤ p) (hp : p < h.length)
    (hframe : ∀ q < h.length, h'[q]? = h[q]?) (q : ℕ) :
    (stitch head n p h')[q]? = h'[q]? ∨ (b ≤ q ∧ q < h.length) ∧ ∃ nd, h'[q]? = some nd ∧
      (stitch head n p h')[q]? = some { nd with falseBranch := some head } := by
  refine stitch_getElem? (S := fun q => b ≤ q ∧ q < h.length) ⟨hb, hp⟩ ?_ q
  intro q nd r hq hnd ht
  obtain ⟨hle, hlt, -⟩ := hr q nd r hq.1 (hframe q hq.2 ▸ hnd) (.inl ht)
  exact ⟨hle, hlt⟩

/-- A group is added, and the false branches of the group before are led to its head: its nodes are
numbered by their places, and the nodes before them from there on. -/
theorem Heap.Ranked.extend (hr : h.Ranked b ρ) (hb : b ≤ p) (hp : p < h.length)
    (hbuild : deBuildSubtree table g h = .ok (head, h')) :
    ∃ ρ', (stitch head n p h').Ranked b ρ' := by
  obtain ⟨hframe, hgroup⟩ := deBuildSubtree_lastGroup hbuild
  obtain ⟨hlen, hle⟩ := hgroup.length_eq
  obtain ⟨ρ', hlow, hhigh⟩ : ∃ ρ' : ℕ → ℕ, (∀ q, q < h.length → ρ' q = ρ q + h'.length) ∧
      ∀ q, h.length ≤ q → ρ' q = q :=
    ⟨fun q => if q < h.length then ρ q + h'.length else q, fun _ hq => if_pos hq,
      fun _ hq => if_neg (Nat.not_lt.mpr hq)⟩
  refine ⟨ρ', fun q nd r hq hnd hbranch => ?_⟩
  rw [length_stitch]
  by_cases hlt : q < h.length
  · -- a node that was there before: its branches are as they were, or its false one is led on
    have hstay (hprev : b ≤ r ∧ r < h.length ∧ ρ r < ρ q) :
        b ≤ r ∧ r < h'.length ∧ ρ' r < ρ' q := by
      rw [hlow r hprev.2.1, hlow q hlt]
      omega
    obtain hsame | ⟨-, nd₀, hnd₀, hnew⟩ := hr.stitch_node hb hp hframe q
    · exact hstay (hr q nd r hq (hframe q hlt ▸ hsame ▸ hnd) hbranch)
    · rw [hnew] at hnd
      cases hnd
      rcases hbranch with ht | hf
      · exact hstay (hr q nd₀ r hq (hframe q hlt ▸ hnd₀) (.inl ht))
      · cases hf
        rw [hlow q hlt, hhigh head hle]
        omega
  · -- a node of the new group: its branches lead down
    have hge := Nat.le_of_not_lt hlt
    have hnd' : h'[q]? = some nd := by
      obtain hsame | ⟨hmem, -⟩ := hr.stitch_node hb hp hframe q
      · exact hsame ▸ hnd
      · exact absurd hmem.2 hlt
    have hq' := (List.getElem?_eq_some_iff.mp hnd').1
    obtain ⟨hfalse, htrue⟩ := hgroup.node_eq hge hnd'
    rcases hbranch with ht | hf
    · obtain ⟨hcr, hrq⟩ := htrue r ht
      rw [hhigh r hcr, hhigh q hge]
      omega
    · rw [hfalse] at hf
      cases hf

theorem deBuildSubtree_ranked (hbuild : deBuildSubtree table g h = .ok (p, h')) :
    h'.Ranked h.length id := by
  obtain ⟨-, hgroup⟩ := deBuildSubtree_lastGroup hbuild
  intro q nd r hq hnd hbranch
  obtain ⟨hfalse, htrue⟩ := hgroup.node_eq hq hnd
  have hlt := (List.getElem?_eq_some_iff.mp hnd).1
  rcases hbranch with ht | hf
  · obtain ⟨hcr, hrq⟩ := htrue r ht
    exact ⟨hcr, Nat.lt_trans hrq hlt, hrq⟩
  · rw [hfalse] at hf
    cases hf

theorem deCreateTreeLoop_ranked {gs : List Group}
    (hl : deCreateTreeLoop table p gs h = .ok (q, h')) (hr : h.Ranked b ρ) (hb : b ≤ p)
    (hp : p < h.length) : ∃ ρ', h'.Ranked b ρ' := by
  induction gs generalizing p h ρ with
  | nil =>
    cases hl
    exact ⟨ρ, hr⟩
  | cons g gs ih =>
    obtain ⟨⟨head, h₁⟩, hbuild, hl⟩ := Except.bind_eq_ok.mp hl
    obtain ⟨hlen, hle⟩ := (deBuildSubtree_lastGroup hbuild).2.length_eq
    obtain ⟨ρ', hr'⟩ := hr.extend (n := h₁.length) hb hp hbuild
    refine ih hl hr' ?_ ?_
    · omega
    · rw [length_stitch]
      omega

/-- The nodes of an equation are numbered downwards along their branches. -/
theorem deCreateTree_ranked {e : Equation} {root : Option NodePtr}
    (ht : deCreateTree table (some e) h = .ok (root, h')) : ∃ ρ, h'.Ranked h.length ρ := by
  obtain ⟨⟨node, h₁⟩, hbuild, ht⟩ := Except.bind_eq_ok.mp ht
  obtain ⟨⟨node', h₂⟩, hloop, ht⟩ := Except.bind_eq_ok.mp ht
  cases ht
  obtain ⟨hlen, hle⟩ := (deBuildSubtree_lastGroup hbuild).2.length_eq
  exact deCreateTreeLoop_ranked hloop (deBuildSubtree_ranked hbuild) hle (by omega)

/-- A numbered node stands for a rule. -/
theorem Heap.Ranked.reads (hr : h.Ranked b ρ) (hb : b ≤ p) (hp : p < h.length) :
    ∃ rule, h.Reads (some p) rule := by
  induction hn : ρ p using Nat.strongRecOn generalizing p with
  | ind n ih =>
    have hnd : h[p]? = some h[p] := List.getElem?_eq_getElem hp
    have hbranch (q : Option NodePtr) (hq : ∀ r, q = some r →
        h[p].trueBranch = some r ∨ h[p].falseBranch = some r) : ∃ rule, h.Reads q rule := by
      match q with
      | none => exact ⟨.null, .null⟩
      | some r =>
        obtain ⟨hbr, hlt, hrank⟩ := hr p h[p] r hb hnd (hq r rfl)
        exact ih (ρ r) (hn ▸ hrank) hbr hlt rfl
    obtain ⟨t, ht⟩ := hbranch h[p].trueBranch fun r hr => .inl hr
    obtain ⟨f, hf⟩ := hbranch h[p].falseBranch fun r hr => .inr hr
    exact ⟨_, .node hnd ht hf⟩

/-- **Rule evaluation terminates.** From every node that `DE_create_tree` allocates for an equation,
whatever the modules return, the loop of `decide` ends, with what the rule of the node gives, and no
node has its module run twice. -/
theorem decide_terminates {μ : Type} {mods : Modules μ} {i : ConnId} {pkt : Pkt} {e : Equation}
    {root : Option NodePtr} (ht : deCreateTree table (some e) h = .ok (root, h'))
    (hb : h.length ≤ p) (hp : p < h'.length) (use : HandlerId) (d : DecisionHolder) (w : Work μ) :
    ∃ rule, h'.Reads (some p) rule ∧
      (∃ n, Loop.run (decideRound mods i pkt h') n ⟨p, use, d, w⟩ =
        some (d.decide mods i pkt rule use w)) ∧
      ∀ n,
        ((Loop.visits (decideRound mods i pkt h') n ⟨p, use, d, w⟩).map Deciding.node).Nodup := by
  obtain ⟨ρ, hr⟩ := deCreateTree_ranked ht
  obtain ⟨rule, hread⟩ := hr.reads hb hp
  refine ⟨rule, hread, run_decideRound hread, fun n => ?_⟩
  -- a round leads to a node of a smaller number
  have hstep : ∀ s s' : Deciding μ, (h.length ≤ s.node ∧ s.node < h'.length) →
      decideRound mods i pkt h' s = .again s' →
        (h.length ≤ s'.node ∧ s'.node < h'.length) ∧ ρ s'.node < ρ s.node := by
    intro s s' hs hround
    have hnd := List.getElem?_eq_getElem hs.2
    obtain ⟨hle, hlt, hrank⟩ := hr _ _ _ hs.1 hnd (decideRound_again hnd hround)
    exact ⟨⟨hle, hlt⟩, hrank⟩
  have hvisits := (Loop.visits_pairwise (s := ⟨p, use, d, w⟩) _ (fun s : Deciding μ => ρ s.node)
    hstep n ⟨hb, hp⟩).1
  refine List.nodup_iff_pairwise_ne.mpr (List.pairwise_map.mpr (hvisits.imp ?_))
  rintro x y hlt heq
  rw [heq] at hlt
  exact Nat.lt_irrefl _ hlt

/-! ### `DE_destroy_tree` -/

/-- `DE_destroy_tree`: the nodes that are freed, in their order. -/
def deDestroyTree (h : Heap) : ℕ → Option NodePtr → Option (List NodePtr)
  | _, none => some []
  | 0, some _ => none
  | n + 1, some p => do
    let nd ← h[p]?
    let falses ← deDestroyTree h n nd.falseBranch
    let trues ← deDestroyTree h n nd.trueBranch
    return falses ++ trues ++ [p]

/-- Every node that was allocated between the two heaps is freed, once, and no other one. -/
def FreedOnce (h h' : Heap) (freed : List NodePtr) : Prop :=
  freed.Nodup ∧ ∀ q : ℕ, q ∈ freed ↔ h.length ≤ q ∧ q < h'.length

/-- From the head of the last group, the nodes of this group are freed. -/
theorem deDestroyTree_lastGroup (hg : h.LastGroup c p) (hn : h.length ≤ n) :
    deDestroyTree h n (some p) = some (List.range' c (h.length - c)) := by
  obtain ⟨hlen, hle⟩ := hg.length_eq
  obtain ⟨rfl, m, hd⟩ | ⟨rfl, m, m', hd⟩ := hg
  · have hnd : h[p]? = some { module := m } := by
      have h0 := congrArg (·[0]?) hd
      simpa using h0
    obtain ⟨n, rfl⟩ : ∃ k, n = k + 1 := ⟨n - 1, by omega⟩
    have hone : h.length - p = 1 := by omega
    simp [deDestroyTree, hnd, hone]
  · have hnd : h[c]? = some { module := m } := by
      have h0 := congrArg (·[0]?) hd
      simpa using h0
    have hnd' : h[c + 1]? = some { module := m', trueBranch := some c } := by
      have h1 := congrArg (·[1]?) hd
      simpa using h1
    obtain ⟨n, rfl⟩ : ∃ k, n = k + 2 := ⟨n - 2, by omega⟩
    have htwo : h.length - c = 2 := by omega
    simp [deDestroyTree, hnd, hnd', htwo, List.range'_succ]

theorem Heap.LastGroup.congr (hg : h.LastGroup c p)
    (heq : ∀ q, c ≤ q → h'[q]? = h[q]?) : h'.LastGroup c p := by
  have hdrop : h'.drop c = h.drop c := by
    refine List.ext_getElem? fun k => ?_
    rw [List.getElem?_drop, List.getElem?_drop, heq (c + k) (Nat.le_add_right c k)]
  unfold Heap.LastGroup at hg ⊢
  rwa [hdrop]

/-- The loop over the groups ends at the nodes of the last one, which lie behind those of the groups
before it. -/
theorem deCreateTreeLoop_lastGroup {gs : List Group}
    (hl : deCreateTreeLoop table p gs h = .ok (q, h')) (hr : h.Ranked b ρ) (hb : b ≤ c)
    (hg : h.LastGroup c p) : ∃ c', h'.LastGroup c' q ∧ c ≤ c' ∧ (c' = c ↔ gs = []) := by
  induction gs generalizing p h ρ c with
  | nil =>
    cases hl
    exact ⟨c, hg, Nat.le_refl c, by simp⟩
  | cons g gs ih =>
    obtain ⟨⟨head, h₁⟩, hbuild, hl⟩ := Except.bind_eq_ok.mp hl
    obtain ⟨hframe, hg₁⟩ := deBuildSubtree_lastGroup hbuild
    obtain ⟨hlen, hle⟩ := hg.length_eq
    have hp : p < h.length := by omega
    obtain ⟨ρ', hr'⟩ := hr.extend (n := h₁.length) (Nat.le_trans hb hle) hp hbuild
    -- the nodes of the new group are not written
    have hg' : (stitch head h₁.length p h₁).LastGroup h.length head := by
      refine hg₁.congr fun q hq => ?_
      obtain hsame | ⟨hmem, -⟩ := hr.stitch_node (Nat.le_trans hb hle) hp hframe q
      · exact hsame
      · exact absurd hmem.2 (Nat.not_lt.mpr hq)
    obtain ⟨c', hlast, hle', -⟩ := ih hl hr' (by omega) hg'
    refine ⟨c', hlast, by omega, ?_⟩
    simp only [reduceCtorEq, iff_false]
    omega

/-- **Release of a rule.** The nodes that `DE_create_tree` and its calls of `DE_build_subtree`
allocate for an equation are freed by `DE_destroy_tree`, each of them once, exactly if the equation
has only one group: the root that is returned is the head of the last one. -/
theorem deDestroyTree_complete_iff {e : Equation} {root : Option NodePtr}
    (ht : deCreateTree table (some e) h = .ok (root, h')) :
    ∃ freed, (∀ n, h'.length ≤ n → deDestroyTree h' n root = some freed) ∧
      (FreedOnce h h' freed ↔ e.rest = []) := by
  obtain ⟨⟨node, h₁⟩, hbuild, ht⟩ := Except.bind_eq_ok.mp ht
  obtain ⟨⟨node', h₂⟩, hloop, ht⟩ := Except.bind_eq_ok.mp ht
  cases ht
  obtain ⟨-, hg⟩ := deBuildSubtree_lastGroup hbuild
  obtain ⟨c, hlast, hle, hiff⟩ :=
    deCreateTreeLoop_lastGroup hloop (deBuildSubtree_ranked hbuild) (Nat.le_refl _) hg
  obtain ⟨hlen, hge⟩ := hlast.length_eq
  refine ⟨_, fun n hn => deDestroyTree_lastGroup hlast hn, ?_⟩
  have hnodup : (List.range' c (h'.length - c)).Nodup := List.nodup_range'
  rw [← hiff, FreedOnce]
  simp only [List.mem_range'_1]
  constructor
  · rintro ⟨-, hall⟩
    have := (hall h.length).mpr
    omega
  · rintro rfl
    exact ⟨hnodup, fun q => by omega⟩

namespace Sample

/-- The heap after the equation `a OR b` was built. -/
def alternatives : Heap :=
  [{ module := moduleNamed "a", falseBranch := some 1 }, { module := moduleNamed "b" }]

end Sample

/-- The nodes of `a AND b` are released. -/
theorem deDestroyTree_complete_single :
    ∃ freed, (∀ n, 2 ≤ n → deDestroyTree [{ module := Sample.moduleNamed "b" },
        { module := Sample.moduleNamed "a", trueBranch := some 0 }] n (some 1) = some freed) ∧
      FreedOnce [] [{ module := Sample.moduleNamed "b" },
        { module := Sample.moduleNamed "a", trueBranch := some 0 }] freed := by
  have ht : deCreateTree Sample.moduleTable (some ⟨⟨"a", ["b"]⟩, []⟩) [] =
      .ok (some 1, [{ module := Sample.moduleNamed "b" },
        { module := Sample.moduleNamed "a", trueBranch := some 0 }]) := by
    decide +kernel
  obtain ⟨freed, hfreed, hiff⟩ := deDestroyTree_complete_iff ht
  exact ⟨freed, hfreed, hiff.mpr rfl⟩

/-- Of the two nodes of `a OR b` the first one is never freed. -/
theorem deDestroyTree_leaks :
    deCreateTree Sample.moduleTable (some ⟨⟨"a", []⟩, [⟨"b", []⟩]⟩) [] =
        .ok (some 1, Sample.alternatives) ∧
      (∀ n, 2 ≤ n → deDestroyTree Sample.alternatives n (some 1) = some [1]) ∧
        ¬FreedOnce [] Sample.alternatives [1] := by
  refine ⟨by decide +kernel, fun n hn => ?_, fun h => ?_⟩
  · obtain ⟨n, rfl⟩ : ∃ k, n = k + 1 := ⟨n - 1, by omega⟩
    simp [deDestroyTree, Sample.alternatives]
  · exact absurd ((h.2 0).mpr (by decide)) (by decide)

/-- In `a OR b`, the loop from the node of `a` runs `a` and no module twice. -/
theorem decide_terminates_alternatives :
    ∃ rule, Sample.alternatives.Reads (some 0) rule ∧
      (∃ n, Loop.run (decideRound Sample.byName 1 Sample.request Sample.alternatives) n
        ⟨0, 0, {}, Sample.work⟩ =
          some (DecisionHolder.decide Sample.byName 1 Sample.request rule 0 {} Sample.work)) ∧
      ∀ n, ((Loop.visits (decideRound Sample.byName 1 Sample.request Sample.alternatives) n
        ⟨0, 0, {}, Sample.work⟩).map Deciding.node).Nodup := by
  have ht : deCreateTree Sample.moduleTable (some ⟨⟨"a", []⟩, [⟨"b", []⟩]⟩) [] =
      .ok (some 1, Sample.alternatives) := by
    decide +kernel
  exact decide_terminates ht (by decide) (by decide) 0 {} Sample.work

end Honeybrid
