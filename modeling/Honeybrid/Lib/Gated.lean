import Mathlib.Data.List.Count

/-!
# Lists with gates

Some items of a list are *gates*: whoever goes through the list in order passes its other items on,
but stops at every gate until it is opened, and the gates are opened one after the other. This file
describes what has been passed on once `n` gates are open, `List.released gate n l`.

## Main results

* `List.released_append_gate`, `List.released_eq_filter`: what is released while the traversal
  stands at a gate, and when no gate is left.
* `List.released_prefix`: it is always a prefix of the items that are not gates.
* `List.countP_take_le_of_released`: an item is released only after the gates before it.
-/

universe u

namespace List

variable {α : Type u} {gate : α → Bool} {a : α} {l pre post : List α} {n : ℕ}

/-- The items that are passed on once `n` gates are open. -/
def released (gate : α → Bool) : ℕ → List α → List α
  | _, [] => []
  | n, a :: l =>
    if gate a then
      match n with
      | 0 => []
      | n + 1 => released gate n l
    else a :: released gate n l

@[simp] theorem released_nil : released gate n [] = [] := by
  simp [released]

@[simp] theorem released_cons_of_neg (ha : gate a = false) :
    released gate n (a :: l) = a :: released gate n l := by
  cases n <;> simp [released, ha]

@[simp] theorem released_zero_cons_of_pos (ha : gate a = true) : released gate 0 (a :: l) = [] := by
  simp [released, ha]

@[simp] theorem released_succ_cons_of_pos (ha : gate a = true) :
    released gate (n + 1) (a :: l) = released gate n l := by
  simp [released, ha]

/-- While the traversal stands at a gate, the items before it are released. -/
theorem released_append_gate (ha : gate a = true) :
    released gate (pre.countP gate) (pre ++ a :: post) = pre.filter (!gate ·) := by
  induction pre with
  | nil => simp [ha]
  | cons x pre ih =>
    cases hx : gate x with
    | true => simp [hx, ih]
    | false => simp [hx, ih]

/-- When no gate is left, every item is released. -/
theorem released_eq_filter (h : l.countP gate ≤ n) : released gate n l = l.filter (!gate ·) := by
  induction l generalizing n with
  | nil => simp
  | cons x l ih =>
    cases hx : gate x with
    | true =>
      rw [countP_cons_of_pos hx] at h
      obtain ⟨n, rfl⟩ : ∃ m, n = m + 1 := ⟨n - 1, by omega⟩
      simp [hx, ih (Nat.le_of_succ_le_succ h)]
    | false =>
      rw [countP_cons_of_neg (by simp [hx])] at h
      simp [hx, ih h]

theorem released_prefix : released gate n l <+: l.filter (!gate ·) := by
  induction l generalizing n with
  | nil => simp
  | cons x l ih =>
    cases hx : gate x with
    | true =>
      cases n with
      | zero => simp [hx]
      | succ n => simpa [hx] using ih
    | false => simpa [hx] using ih

/-- An item is released only after the gates before it have been opened. -/
theorem countP_take_le_of_released {k : ℕ}
    (h : (l.take k).countP (!gate ·) < (released gate n l).length) :
    (l.take k).countP gate ≤ n := by
  induction l generalizing n k with
  | nil => simp
  | cons x l ih =>
    cases k with
    | zero => simp
    | succ k =>
      cases hx : gate x with
      | true =>
        cases n with
        | zero => simp [hx] at h
        | succ n =>
          simp only [take_succ_cons, hx, countP_cons_of_pos]
          simp only [take_succ_cons, hx, Bool.not_true, Bool.false_eq_true, not_false_eq_true,
            countP_cons_of_neg, released_succ_cons_of_pos] at h
          exact Nat.succ_le_succ (ih h)
      | false =>
        simp only [take_succ_cons, hx, Bool.false_eq_true, not_false_eq_true, countP_cons_of_neg]
        simp only [take_succ_cons, hx, Bool.not_false, countP_cons_of_pos, released_cons_of_neg,
          length_cons, Nat.add_lt_add_iff_right] at h
        exact ih h

end List
