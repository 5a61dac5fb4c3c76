import Mathlib.Tactic.Common

/-!
# Histories of operations

A component that is changed by operations, none of which fails, is a function `apply` from states
and operations to states. A property of the states is followed through a history of operations. Some
operations keep it and some do not, depending on the state they meet; `Throughout` says that every
operation of a history meets its condition.

## Main definitions

* `History.after`: the state after a history.
* `History.Throughout`: each operation meets a condition in the state it is applied to.

## Main results

* `History.invariant`: what each operation keeps holds after every history.
* `History.throughout_congr`: conditions that agree along a history.
* `History.iff_throughout`: a property that an operation leaves behind exactly when it was there
  before and the operation meets its condition holds after exactly the histories all of whose
  operations do.
-/

universe u v

namespace History

variable {σ : Type u} {ι : Type v} (apply : σ → ι → σ) (cond : σ → ι → Prop)

/-- The state after a history. -/
def after (s : σ) (is : List ι) : σ :=
  is.foldl apply s

/-- Each operation meets the condition in the state it is applied to. -/
def Throughout : σ → List ι → Prop
  | _, [] => True
  | s, i :: is => cond s i ∧ Throughout (apply s i) is

instance decidableThroughout [∀ s i, Decidable (cond s i)] : ∀ (s : σ) (is : List ι),
    Decidable (Throughout apply cond s is)
  | _, [] => .isTrue trivial
  | s, i :: is =>
    have := decidableThroughout (apply s i) is
    inferInstanceAs (Decidable (_ ∧ _))

variable {apply cond} {s : σ} {is : List ι} {i : ι} {P : σ → Prop}

@[simp] theorem after_nil : after apply s [] = s :=
  rfl

@[simp] theorem after_cons : after apply s (i :: is) = after apply (apply s i) is :=
  rfl

theorem after_concat : after apply s (is ++ [i]) = apply (after apply s is) i := by
  simp [after]

/-- **Invariants of histories.** -/
theorem invariant (h₀ : P s) (hstep : ∀ s i, P s → cond s i → P (apply s i))
    (h : Throughout apply cond s is) : P (after apply s is) := by
  induction is generalizing s with
  | nil => exact h₀
  | cons i is ih => exact ih (hstep s i h₀ h.1) h.2

/-- Two conditions that agree wherever one of them has led. -/
theorem throughout_congr {cond' : σ → ι → Prop} {I : σ → Prop} (hI₀ : I s)
    (hI : ∀ s i, I s → cond s i → I (apply s i)) (hiff : ∀ s i, I s → (cond' s i ↔ cond s i)) :
    Throughout apply cond' s is ↔ Throughout apply cond s is := by
  induction is generalizing s with
  | nil => rfl
  | cons i is ih =>
    rw [Throughout, Throughout, hiff s i hI₀]
    exact and_congr_right fun h => ih (hI s i hI₀ h)

/-- **Exact conditions.** Under an invariant `I`, an operation leaves `P` behind exactly when `P`
held and the operation meets the condition. -/
theorem iff_throughout {I : σ → Prop} (hI₀ : I s) (hI : ∀ s i, I s → I (apply s i))
    (hP : ∀ s i, I s → (P (apply s i) ↔ P s ∧ cond s i)) :
    P (after apply s is) ↔ P s ∧ Throughout apply cond s is := by
  induction is generalizing s with
  | nil => simp [Throughout]
  | cons i is ih => rw [after_cons, ih (hI s i hI₀), hP s i hI₀, and_assoc, Throughout]

end History
