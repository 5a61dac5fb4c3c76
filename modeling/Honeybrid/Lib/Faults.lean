import Honeybrid.Lib.Runs

/-!
# Faults that a computation avoids

A program whose undefined behaviour is an error value avoids the faults of a kind when none of its
executions ends with one. `Except.Avoids` says so of a single computation. Its rules follow the
commands of a `do` block: a pointer may be read where it is not null, or where the fault is of
another kind.

## Main definitions

* `Except.Avoids`: a computation does not fail with an error of a kind.

## Main results

* `Except.Avoids.bind`: the commands of a sequence are checked one by one, each under the results of
  those before it.
-/

universe u v

namespace Except

variable {φ : Type u} {α β : Type v} {bad : φ → Bool} {x : Except φ α} {f : α → Except φ β}

/-- The computation does not fail with an error of the kind `bad`. -/
def Avoids (bad : φ → Bool) (x : Except φ α) : Prop :=
  ∀ e, x = .error e → bad e = false

theorem avoids_ok (a : α) : Avoids bad (.ok a : Except φ α) := by
  intro e h
  cases h

theorem avoids_error {e : φ} (h : bad e = false) : Avoids bad (.error e : Except φ α) := by
  intro e' he
  cases he
  exact h

theorem Avoids.bind (hx : x.Avoids bad) (hf : ∀ a, x = .ok a → (f a).Avoids bad) :
    (x >>= f).Avoids bad := by
  intro e h
  cases hr : x with
  | error e' =>
    rw [hr] at h
    cases h
    exact hx e hr
  | ok a =>
    rw [hr] at h
    exact hf a hr e h

/-- A pointer that is not null, or whose fault is of another kind, may be read. -/
theorem avoids_orFail {o : Option α} {e : φ} (h : o = none → bad e = false) :
    (o.orFail e).Avoids bad := by
  cases o with
  | none => exact avoids_error (h rfl)
  | some a => exact avoids_ok a

theorem Avoids.ite {p : Prop} [Decidable p] {y : Except φ α} (hx : p → x.Avoids bad)
    (hy : ¬p → y.Avoids bad) : (if p then x else y).Avoids bad := by
  split_ifs with h
  · exact hx h
  · exact hy h

end Except
