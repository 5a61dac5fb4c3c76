import Honeybrid.Lib.Runs

/-!
# Runs with a log

An observer writes down something about each step of a run, which may depend on the state before the
step and on the input. `Logged step note s log s'` is a run together with what was written.

`Correct P tr` says that every output is right in view of those before it. A machine that follows an
ideal one as long as its steps meet a condition, and is wrong at the first one that does not, is
right in exactly the runs all of whose steps meet it.

## Main results

* `Logged.invariant`: the induction rule for properties of the log and the state.
* `Logged.filterMap`: what is left of a log when some of the notes are not taken.
* `Run.logged`, `Logged.reaches`: every run has a log, and a log is that of a run.
* `correct_concat`: outputs are right if the last one is, and those before it.
* `Run.correct_iff`: the rule for the runs in which a machine is right.
-/

universe u v w x y z

namespace Machine

variable {σ : Type u} {ι : Type v} {ε : Type w} {φ : Type x} {κ : Type y}

/-- A run of the machine `step` from `s`, with the notes that were taken of its steps. -/
inductive Logged (step : σ → ι → Except φ (σ × List ε)) (note : σ → ι → List κ) (s : σ) :
    List κ → σ → Prop
  | start : Logged step note s [] s
  | snoc {log : List κ} {out : List ε} {s₁ s₂ : σ} {i : ι} (h : Logged step note s log s₁)
      (hstep : step s₁ i = .ok (s₂, out)) : Logged step note s (log ++ note s₁ i) s₂

variable {step : σ → ι → Except φ (σ × List ε)} {note : σ → ι → List κ} {s s₁ : σ} {log : List κ}

/-- **Invariants of the log and the states.** -/
theorem Logged.invariant (P : List κ → σ → Prop) (h : Logged step note s log s₁) (h₀ : P [] s)
    (hs : ∀ log s₁ i s₂ out, P log s₁ → step s₁ i = .ok (s₂, out) → P (log ++ note s₁ i) s₂) :
    P log s₁ := by
  induction h with
  | start => exact h₀
  | snoc h hstep ih => exact hs _ _ _ _ _ ih hstep

theorem Logged.reaches (h : Logged step note s log s₁) : ∃ tr, Reaches step s tr s₁ := by
  induction h with
  | start => exact ⟨[], .start⟩
  | snoc h hstep ih =>
    obtain ⟨tr, hr⟩ := ih
    exact ⟨_, hr.snoc trivial hstep⟩

theorem Run.logged {ok : σ → ι → Prop} {tr : List ε} (h : Run step ok s tr s₁)
    (note : σ → ι → List κ) : ∃ log, Logged step note s log s₁ := by
  induction h with
  | start => exact ⟨[], .start⟩
  | snoc h hok hstep ih =>
    obtain ⟨log, hl⟩ := ih
    exact ⟨_, hl.snoc hstep⟩

/-- Part of a log is the log of an observer that writes down less. -/
theorem Logged.filterMap {κ' : Type z} {note' : σ → ι → List κ'} (f : κ → Option κ')
    (h : Logged step note s log s₁) (hf : ∀ s i, (note s i).filterMap f = note' s i) :
    Logged step note' s (log.filterMap f) s₁ := by
  induction h with
  | start => exact .start
  | snoc h hstep ih =>
    rw [List.filterMap_append, hf]
    exact ih.snoc hstep

/-- The log of the execution of a list of inputs. -/
def logOf (step : σ → ι → Except φ (σ × List ε)) (note : σ → ι → List κ) :
    σ → List ι → Except φ (List κ × σ)
  | s, [] => .ok ([], s)
  | s, i :: is =>
    match step s i with
    | .error e => .error e
    | .ok (s₁, _) => (logOf step note s₁ is).map fun r => (note s i ++ r.1, r.2)

theorem Logged.cons {i : ι} {s₂ : σ} {out : List ε} (hstep : step s i = .ok (s₁, out))
    (h : Logged step note s₁ log s₂) : Logged step note s (note s i ++ log) s₂ := by
  induction h with
  | start => simpa using Logged.snoc .start hstep
  | snoc h hstep' ih =>
    rw [← List.append_assoc]
    exact ih.snoc hstep'

theorem logged_of_logOf {is : List ι} (h : logOf step note s is = .ok (log, s₁)) :
    Logged step note s log s₁ := by
  induction is generalizing s log with
  | nil =>
    cases h
    exact .start
  | cons i is ih =>
    unfold logOf at h
    split at h
    · cases h
    · rename_i s₂ out hstep
      cases hr : logOf step note s₂ is with
      | error e =>
        rw [hr] at h
        cases h
      | ok r =>
        rw [hr] at h
        cases h
        exact .cons hstep (ih hr)

/-! ### Right outputs -/

/-- Every output is right in view of those before it. -/
def Correct (P : List ε → ε → Prop) (tr : List ε) : Prop :=
  ∀ before a after, tr = before ++ a :: after → P before a

variable {ok ok' : σ → ι → Prop} {P : List ε → ε → Prop} {tr : List ε}

theorem correct_nil : Correct P [] := by
  intro before a after heq
  simp at heq

theorem correct_concat {a : ε} : Correct P (tr ++ [a]) ↔ Correct P tr ∧ P tr a := by
  constructor
  · intro h
    refine ⟨fun before b after heq => ?_, h tr a [] rfl⟩
    exact h before b (after ++ [a]) (by rw [heq, List.append_assoc, List.cons_append])
  · rintro ⟨h, ha⟩ before b after heq
    rcases List.eq_nil_or_concat after with rfl | ⟨after, c, rfl⟩
    · obtain ⟨rfl, hlast⟩ := List.append_inj' heq rfl
      cases hlast
      exact ha
    · rw [List.concat_eq_append, ← List.cons_append, ← List.append_assoc] at heq
      exact h before b after (List.append_inj' heq rfl).1

/-- **Right outputs.** Let `J` hold at the start and be kept by the steps under `ok'`. If, from the
states with `J`, the outputs of a step are right exactly under `ok'`, then those of a run are right
exactly if all its steps are taken under `ok'`. -/
theorem Run.correct_iff (J : List ε → σ → Prop) (h : Run step ok s tr s₁) (h₀ : J [] s)
    (hs : ∀ tr s₁ i s₂ out, J tr s₁ → ok s₁ i → step s₁ i = .ok (s₂, out) →
      (Correct P (tr ++ out) ↔ Correct P tr ∧ ok' s₁ i) ∧ (ok' s₁ i → J (tr ++ out) s₂)) :
    Correct P tr ↔ Run step (fun s i => ok s i ∧ ok' s i) s tr s₁ := by
  have hright : ∀ {tr s₁}, Run step (fun s i => ok s i ∧ ok' s i) s tr s₁ →
      Correct P tr ∧ J tr s₁ := by
    intro tr s₁ h
    refine h.traceInvariant (fun tr s₁ => Correct P tr ∧ J tr s₁) ⟨correct_nil, h₀⟩ ?_
    rintro tr s₁ i s₂ out ⟨hP, hJ⟩ ⟨hok, hok'⟩ hstep
    obtain ⟨hiff, hkeep⟩ := hs tr s₁ i s₂ out hJ hok hstep
    exact ⟨hiff.2 ⟨hP, hok'⟩, hkeep hok'⟩
  refine ⟨fun hP => ?_, fun h => (hright h).1⟩
  induction h with
  | start => exact .start
  | @snoc tr out s₁ s₂ i h hok hstep ih =>
    have hbefore : Correct P tr := by
      intro before a after heq
      exact hP before a (after ++ out) (by rw [heq, List.append_assoc, List.cons_append])
    have hrun := ih hbefore
    exact hrun.snoc ⟨hok, ((hs tr s₁ i s₂ out (hright hrun).2 hok hstep).1.1 hP).2⟩ hstep

end Machine
