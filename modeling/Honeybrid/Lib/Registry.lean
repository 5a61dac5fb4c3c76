import Mathlib.Tactic.Common

/-!
# Records under several indexes

A registry keeps numbered records, and indexes that lead from keys to numbers. Nothing ties the two
together: an index may lead to a number whose record is gone, and a record may be in no index. This
file has the rules by which such ties are kept while the entries of one record at a time are added
and taken out.

## Main definitions

* `Registry`: the records and the entries of the indexes.
* `Registry.Edits r r' i add del`: the record `i` has changed, the entries `add` lead to it, and the
  entries `del` are gone.
* `Registry.Belongs H`: an entry that leads to a record is one that the record is to have.
* `Registry.Leads req`: the entries that a record needs lead to it.
* `Registry.Within`, `Registry.Forgets`: the numbers that occur in the indexes.

## Main results

* `Registry.Edits.belongs`, `Registry.Edits.leads`, `Registry.Edits.within`,
  `Registry.Edits.forgets`: the rules.
* `Registry.Leads.unique`: two records do not need the same entry.
-/

universe u v w x

/-- Records of type `σ` under numbers of type `ι`, and indexes, named by `τ`, from keys to
numbers. -/
structure Registry (τ : Type u) (κ : Type v) (ι : Type w) (σ : Type x) where
  live : ι → Option σ
  entry : τ → κ → Option ι

namespace Registry

variable {τ : Type u} {κ : Type v} {ι : Type w} {σ : Type x} {r r' : Registry τ κ ι σ} {i j : ι}
  {add del : τ → κ → Prop} {H req : τ → κ → σ → Prop} {S S' : ι → Prop} {t : τ} {k : κ} {c d : σ}

/-- No entry. -/
def nothing (_ : τ) (_ : κ) : Prop :=
  False

open Classical in
/-- The record `i` has changed, the entries `add` lead to it, and the entries `del` are gone. -/
structure Edits (r r' : Registry τ κ ι σ) (i : ι) (add del : τ → κ → Prop) : Prop where
  live : ∀ j, j ≠ i → r'.live j = r.live j
  entry : ∀ t k, r'.entry t k =
    if add t k then some i else if del t k then none else r.entry t k

/-- An entry after an edit is new, or as before. -/
theorem Edits.entry_cases (h : r.Edits r' i add del) (he : r'.entry t k = some j) :
    (add t k ∧ i = j) ∨ (¬del t k ∧ r.entry t k = some j) := by
  rw [h.entry] at he
  split_ifs at he with hadd hdel
  · exact .inl ⟨hadd, Option.some.inj he⟩
  · exact .inr ⟨hdel, he⟩

theorem Edits.entry_of_add (h : r.Edits r' i add del) (hadd : add t k) : r'.entry t k = some i := by
  rw [h.entry, if_pos hadd]

theorem Edits.entry_of_kept (h : r.Edits r' i add del) (hadd : ¬add t k) (hdel : ¬del t k) :
    r'.entry t k = r.entry t k := by
  rw [h.entry, if_neg hadd, if_neg hdel]

/-- An entry that leads to a record is one that the record is to have. -/
def Belongs (r : Registry τ κ ι σ) (H : τ → κ → σ → Prop) : Prop :=
  ∀ t k i c, r.entry t k = some i → r.live i = some c → H t k c

/-- The entries that a record needs lead to it. -/
def Leads (r : Registry τ κ ι σ) (req : τ → κ → σ → Prop) : Prop :=
  ∀ i c t k, r.live i = some c → req t k c → r.entry t k = some i

/-- The indexes lead to numbers of the set `S` only. -/
def Within (r : Registry τ κ ι σ) (S : ι → Prop) : Prop :=
  ∀ t k i, r.entry t k = some i → S i

/-- The number `i` has no record, and no index leads to it. -/
def Forgets (r : Registry τ κ ι σ) (i : ι) : Prop :=
  r.live i = none ∧ ∀ t k, r.entry t k ≠ some i

/-- Two records do not need the same entry. -/
theorem Leads.unique (h : r.Leads req) (hi : r.live i = some c) (hj : r.live j = some d)
    (hc : req t k c) (hd : req t k d) : i = j :=
  Option.some.inj ((h i c t k hi hc).symm.trans (h j d t k hj hd))

/-- An edit keeps the entries with their owners if the new record may have the new entries, and the
old ones that stay. -/
theorem Edits.belongs (h : r.Edits r' i add del) (hb : r.Belongs H)
    (hadd : ∀ c t k, r'.live i = some c → add t k → H t k c)
    (hold : ∀ c t k, r'.live i = some c → r.entry t k = some i → ¬del t k → H t k c) :
    r'.Belongs H := by
  intro t k j c he hc
  obtain ⟨ha, rfl⟩ | ⟨hdel, he⟩ := h.entry_cases he
  · exact hadd c t k hc ha
  · by_cases hj : j = i
    · subst hj
      exact hold c t k hc he hdel
    · rw [h.live j hj] at hc
      exact hb t k j c he hc

/-- An edit keeps the entries that the records need if it does not touch those of other records, and
the new record has its own. -/
theorem Edits.leads (h : r.Edits r' i add del) (hl : r.Leads req)
    (hother : ∀ j d t k, j ≠ i → r.live j = some d → req t k d → ¬add t k ∧ ¬del t k)
    (hown : ∀ c t k, r'.live i = some c → req t k c →
      add t k ∨ (¬del t k ∧ r.entry t k = some i)) : r'.Leads req := by
  intro j d t k hd hreq
  by_cases hj : j = i
  · subst hj
    obtain ha | ⟨hdel, he⟩ := hown d t k hd hreq
    · exact h.entry_of_add ha
    · by_cases ha : add t k
      · exact h.entry_of_add ha
      · rw [h.entry_of_kept ha hdel]
        exact he
  · rw [h.live j hj] at hd
    obtain ⟨ha, hdel⟩ := hother j d t k hj hd hreq
    rw [h.entry_of_kept ha hdel]
    exact hl j d t k hd hreq

theorem Edits.within (h : r.Edits r' i add del) (hw : r.Within S) (hS : ∀ j, S j → S' j)
    (hi : S' i) : r'.Within S' := by
  intro t k j he
  obtain ⟨-, rfl⟩ | ⟨-, he⟩ := h.entry_cases he
  · exact hi
  · exact hS j (hw t k j he)

theorem Edits.forgets (h : r.Edits r' i add del) (hf : r.Forgets j) (hj : j ≠ i) :
    r'.Forgets j := by
  refine ⟨(h.live j hj).trans hf.1, fun t k he => ?_⟩
  obtain ⟨-, rfl⟩ | ⟨-, he⟩ := h.entry_cases he
  · exact hj rfl
  · exact hf.2 t k he

end Registry
