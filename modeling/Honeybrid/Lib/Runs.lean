import Mathlib.Tactic.Common

/-!
# Fallible computations and runs of fallible machines

A program whose undefined behaviour is an error value is a function into `Except φ`. This file
collects what is needed to take such programs apart and to reason about their runs.

* `Option.orFail` reads a pointer: `none` is the null pointer and fails with a given error.
* `Except.bind_eq_ok` and its variants say when a sequence of fallible computations succeeds; with
  them a `do` block is peeled apart from the first command to the last.
* `Run step ok s tr s'` says that a machine with transition function `step`, whose steps may fail
  and produce a list of outputs, leads from `s` to `s'` with the outputs `tr`, every step being
  taken under the condition `ok`.

## Main results

* `Run.invariant`, `Run.traceInvariant`: the induction rules for properties of the states, and of
  the outputs and the states, of a run.
* `Run.trans`, `Run.mono`: runs compose, and a weaker condition admits more runs.
* `run_of_exec`, `exists_run`, `exists_reaches`: the execution of a list of inputs is a run.
-/

universe u v w x

namespace Except

variable {φ : Type u} {α β : Type v}

theorem bind_eq_ok {x : Except φ α} {f : α → Except φ β} {b : β} :
    x >>= f = .ok b ↔ ∃ a, x = .ok a ∧ f a = .ok b := by
  cases x <;> simp [bind, Except.bind]

@[simp] theorem ok_bind (a : α) (f : α → Except φ β) : (Except.ok a : Except φ α) >>= f = f a :=
  rfl

@[simp] theorem error_bind (e : φ) (f : α → Except φ β) :
    (Except.error e : Except φ α) >>= f = .error e :=
  rfl

@[simp] theorem pure_eq_ok (a : α) : (pure a : Except φ α) = .ok a :=
  rfl

/-- The computation succeeds with a value that passes the test. -/
def passes (x : Except φ α) (p : α → Bool) : Bool :=
  match x with
  | .ok a => p a
  | .error _ => false

theorem passes_iff {x : Except φ α} {p : α → Bool} :
    x.passes p = true ↔ ∃ a, x = .ok a ∧ p a = true := by
  cases x <;> simp [passes]

theorem eq_ok_of_passes [DecidableEq α] {x : Except φ α} {a : α}
    (h : x.passes (· = a) = true) : x = .ok a := by
  obtain ⟨b, hx, hb⟩ := passes_iff.mp h
  rw [hx, of_decide_eq_true hb]

end Except

/-- The value behind a pointer; reading the null pointer fails with `e`. -/
def Option.orFail {φ : Type u} {α : Type v} (o : Option α) (e : φ) : Except φ α :=
  match o with
  | some a => .ok a
  | none => .error e

section OrFail

variable {φ : Type u} {α : Type v}

@[simp] theorem Option.orFail_some (a : α) (e : φ) : (some a).orFail e = .ok a :=
  rfl

@[simp] theorem Option.orFail_none (e : φ) : (none : Option α).orFail e = .error e :=
  rfl

@[simp] theorem Option.orFail_eq_ok {o : Option α} {e : φ} {a : α} :
    o.orFail e = .ok a ↔ o = some a := by
  cases o <;> simp

end OrFail

/-! ### Runs -/

namespace Machine

variable {σ : Type u} {ι : Type v} {ε : Type w} {φ : Type x}

/-- A run of the machine `step` from `s`, with the outputs produced so far, all of whose steps
are taken under the condition `ok`. A step that fails ends the run before it. -/
inductive Run (step : σ → ι → Except φ (σ × List ε)) (ok : σ → ι → Prop) (s : σ) :
    List ε → σ → Prop
  | start : Run step ok s [] s
  | snoc {tr out : List ε} {s₁ s₂ : σ} {i : ι} (h : Run step ok s tr s₁) (hok : ok s₁ i)
      (hstep : step s₁ i = .ok (s₂, out)) : Run step ok s (tr ++ out) s₂

variable {step : σ → ι → Except φ (σ × List ε)} {ok ok' : σ → ι → Prop} {s s₁ s₂ : σ}
  {tr tr' : List ε}

/-- Runs with no condition on their steps. -/
abbrev Reaches (step : σ → ι → Except φ (σ × List ε)) : σ → List ε → σ → Prop :=
  Run step fun _ _ => True

/-- **Invariants of the outputs and the states.** A property of the outputs so far and the state
reached that holds at the start and is kept by every admitted step holds along every run. -/
theorem Run.traceInvariant (P : List ε → σ → Prop) (h : Run step ok s tr s₁) (h₀ : P [] s)
    (hs : ∀ tr s₁ i s₂ out, P tr s₁ → ok s₁ i → step s₁ i = .ok (s₂, out) → P (tr ++ out) s₂) :
    P tr s₁ := by
  induction h with
  | start => exact h₀
  | snoc h hok hstep ih => exact hs _ _ _ _ _ ih hok hstep

/-- **Invariants of the states.** -/
theorem Run.invariant (P : σ → Prop) (h : Run step ok s tr s₁) (h₀ : P s)
    (hs : ∀ s₁ i s₂ out, P s₁ → ok s₁ i → step s₁ i = .ok (s₂, out) → P s₂) : P s₁ :=
  h.traceInvariant (fun _ => P) h₀ fun _ s₁ i s₂ out hP => hs s₁ i s₂ out hP

theorem Run.trans (h : Run step ok s tr s₁) (h' : Run step ok s₁ tr' s₂) :
    Run step ok s (tr ++ tr') s₂ := by
  induction h' with
  | start => simpa using h
  | snoc h' hok hstep ih => simpa [List.append_assoc] using ih.snoc hok hstep

theorem Run.mono (h : Run step ok s tr s₁) (hok : ∀ s i, ok s i → ok' s i) :
    Run step ok' s tr s₁ := by
  induction h with
  | start => exact .start
  | snoc h h' hstep ih => exact ih.snoc (hok _ _ h') hstep

/-- The execution of a list of inputs. -/
def exec (step : σ → ι → Except φ (σ × List ε)) (s : σ) : List ι → Except φ (σ × List ε)
  | [] => .ok (s, [])
  | i :: is =>
    match step s i with
    | .error e => .error e
    | .ok (s₁, out) => (exec step s₁ is).map fun r => (r.1, out ++ r.2)

/-- The execution of a list of inputs takes its steps under the condition `ok`. -/
def checks (step : σ → ι → Except φ (σ × List ε)) (ok : σ → ι → Bool) (s : σ) : List ι → Bool
  | [] => true
  | i :: is => ok s i && (step s i).passes fun r => checks step ok r.1 is

theorem run_of_exec {is : List ι} {test : σ → ι → Bool} (htest : ∀ s i, test s i = true → ok s i)
    (hc : checks step test s is = true) (h : exec step s is = .ok (s₁, tr)) :
    Run step ok s tr s₁ := by
  induction is generalizing s tr with
  | nil =>
    cases h
    exact .start
  | cons i is ih =>
    unfold exec at h
    unfold checks at hc
    obtain ⟨hok, hc⟩ := Bool.and_eq_true_iff.mp hc
    obtain ⟨⟨s₂, out⟩, hstep, hc⟩ := Except.passes_iff.mp hc
    rw [hstep] at h
    cases hr : exec step s₂ is with
    | error e =>
      simp [hr, Except.map] at h
    | ok r =>
      simp only [hr, Except.map, Except.ok.injEq, Prod.mk.injEq] at h
      obtain ⟨rfl, rfl⟩ := h
      exact (Run.start.snoc (htest s i hok) hstep).trans (ih hc hr)

theorem checks_of_exec {is : List ι} {r : σ × List ε} (h : exec step s is = .ok r) :
    checks step (fun _ _ => true) s is = true := by
  induction is generalizing s r with
  | nil => rfl
  | cons i is ih =>
    unfold exec at h
    split at h
    · cases h
    · rename_i s₂ out hstep
      cases hr : exec step s₂ is with
      | error e => simp [hr, Except.map] at h
      | ok r' =>
        rw [checks, hstep]
        exact ih hr

theorem reaches_of_exec {is : List ι} (h : exec step s is = .ok (s₁, tr)) :
    Reaches step s tr s₁ :=
  run_of_exec (fun _ _ _ => trivial) (checks_of_exec h) h

/-- A run that is found by executing a list of inputs. -/
theorem exists_reaches (step : σ → ι → Except φ (σ × List ε)) (s : σ) (is : List ι)
    (p : σ × List ε → Bool) (h : (exec step s is).passes p = true) :
    ∃ tr s₁, Reaches step s tr s₁ ∧ p (s₁, tr) = true := by
  obtain ⟨⟨s₁, tr⟩, hr, hp⟩ := Except.passes_iff.mp h
  exact ⟨tr, s₁, reaches_of_exec hr, hp⟩

theorem exists_run (step : σ → ι → Except φ (σ × List ε)) (s : σ) (is : List ι)
    (p : σ × List ε → Bool) {test : σ → ι → Bool} (htest : ∀ s i, test s i = true → ok s i)
    (h : ((exec step s is).passes p && checks step test s is) = true) :
    ∃ tr s₁, Run step ok s tr s₁ ∧ p (s₁, tr) = true := by
  obtain ⟨h, hc⟩ := Bool.and_eq_true_iff.mp h
  obtain ⟨⟨s₁, tr⟩, hr, hp⟩ := Except.passes_iff.mp h
  exact ⟨tr, s₁, run_of_exec htest hc hr, hp⟩

end Machine
