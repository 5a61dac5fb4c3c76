import Mathlib.Data.Nat.Notation
import Mathlib.Order.Basic

/-!
# Loops

A loop is given by what one round of it does with its state: it ends with a result, or it goes on
from another state. `Loop.run step n s` is the result if there is one after at most `n` rounds.

## Main results

* `Loop.run_mono`: more rounds give the same result.
* `Loop.run_comes`, `Loop.Comes.run`: the result is that of the last state the loop comes to.
* `Loop.halts_iff`: a loop whose rounds either stay in their state or make a measure smaller halts
  exactly if it never comes to a state in which it stays.
* `Loop.Halts.within`: the measure bounds the number of its rounds.
* `Loop.visits_pairwise`: the rounds of a loop that makes a measure smaller differ in it.
* `Loop.run_eq_of_sim`: loops whose rounds correspond have the same result.
-/

universe u v

namespace Loop

/-- What a round ends with. -/
inductive Outcome (σ : Type u) (α : Type v)
  | again (s : σ)
  | done (a : α)

variable {σ : Type u} {α : Type v} {step : σ → Outcome σ α} {s s' : σ} {a : α} {k n : ℕ}

/-- The result of the loop, if it ends within `n` rounds. -/
def run (step : σ → Outcome σ α) : ℕ → σ → Option α
  | 0, _ => none
  | n + 1, s =>
    match step s with
    | .done a => some a
    | .again s' => run step n s'

theorem run_done (h : step s = .done a) : run step (n + 1) s = some a := by
  rw [run, h]

theorem run_again (h : step s = .again s') : run step (n + 1) s = run step n s' := by
  rw [run, h]

theorem run_mono (h : run step n s = some a) (hk : n ≤ k) : run step k s = some a := by
  induction n generalizing s k with
  | zero => simp [run] at h
  | succ n ih =>
    obtain ⟨k, rfl⟩ : ∃ j, k = j + 1 := ⟨k - 1, by omega⟩
    cases hs : step s with
    | done b =>
      rw [run_done hs] at h ⊢
      exact h
    | again s' =>
      rw [run_again hs] at h ⊢
      exact ih h (by omega)

/-- The loop ends, from the state `s`. -/
def Halts (step : σ → Outcome σ α) (s : σ) : Prop :=
  ∃ n a, run step n s = some a

theorem Halts.of_done (h : step s = .done a) : Halts step s :=
  ⟨1, a, run_done h⟩

theorem Halts.of_again (h : step s = .again s') : Halts step s ↔ Halts step s' := by
  constructor
  · rintro ⟨_ | n, a, hr⟩
    · simp [run] at hr
    · exact ⟨n, a, by rwa [run_again h] at hr⟩
  · rintro ⟨n, a, hr⟩
    exact ⟨n + 1, a, by rwa [run_again h]⟩

/-- A loop that stays in a state does not end. -/
theorem run_stuck (h : step s = .again s) (n : ℕ) : run step n s = none := by
  induction n with
  | zero => rfl
  | succ n ih => rw [run_again h, ih]

/-- The states a loop comes to. -/
inductive Comes (step : σ → Outcome σ α) (s : σ) : σ → Prop
  | start : Comes step s s
  | next {s₁ s₂ : σ} (h : Comes step s s₁) (hs : step s₁ = .again s₂) : Comes step s s₂

theorem Comes.of_again {s₁ : σ} (hs : step s = .again s₁) (h : Comes step s₁ s') :
    Comes step s s' := by
  induction h with
  | start => exact .next .start hs
  | next _ hs ih => exact ih.next hs

theorem Comes.halts (h : Comes step s s') (hh : Halts step s) : Halts step s' := by
  induction h with
  | start => exact hh
  | next _ hs ih => exact (Halts.of_again hs).1 ih

/-- The loop ends with what the last of its states gives. -/
theorem Comes.run (h : Comes step s s') (hd : step s' = .done a) : ∃ n, run step n s = some a := by
  have hlast : ∃ n, Loop.run step n s' = some a := ⟨1, run_done hd⟩
  clear hd
  induction h with
  | start => exact hlast
  | next _ hs ih =>
    obtain ⟨n, hn⟩ := hlast
    exact ih ⟨n + 1, by rwa [run_again hs]⟩

theorem run_comes (h : run step n s = some a) : ∃ s', Comes step s s' ∧ step s' = .done a := by
  induction n generalizing s with
  | zero => simp [run] at h
  | succ n ih =>
    cases hs : step s with
    | done b =>
      rw [run_done hs] at h
      cases h
      exact ⟨s, .start, hs⟩
    | again s₁ =>
      rw [run_again hs] at h
      obtain ⟨s', hc, hd⟩ := ih h
      exact ⟨s', hc.of_again hs, hd⟩

/-- A loop that can only make its measure smaller or stay where it is ends exactly if it never comes
to a state in which it stays. -/
theorem halts_iff (μ : σ → ℕ) (hμ : ∀ s s', step s = .again s' → s' = s ∨ μ s' < μ s) :
    Halts step s ↔ ∀ s', Comes step s s' → step s' ≠ .again s' := by
  constructor
  · intro hh s' hc hs
    obtain ⟨n, a, hr⟩ := hc.halts hh
    rw [run_stuck hs] at hr
    cases hr
  · intro hc
    -- induction on the measure of the state: a round that goes on makes it smaller
    induction hn : μ s using Nat.strongRecOn generalizing s with
    | ind n ih =>
      cases hs : step s with
      | done a => exact .of_done hs
      | again s₁ =>
        obtain rfl | hlt := hμ s s₁ hs
        · exact absurd hs (hc _ .start)
        · rw [Halts.of_again hs]
          exact ih (μ s₁) (hn ▸ hlt) (fun s' h => hc s' (h.of_again hs)) rfl

/-- A loop that ends does so within as many rounds as its measure allows. -/
theorem Halts.within (μ : σ → ℕ) (hμ : ∀ s s', step s = .again s' → s' = s ∨ μ s' < μ s)
    (h : Halts step s) (hn : μ s < n) : ∃ a, run step n s = some a := by
  induction n generalizing s with
  | zero => exact absurd hn (Nat.not_lt_zero _)
  | succ n ih =>
    cases hs : step s with
    | done a => exact ⟨a, run_done hs⟩
    | again s₁ =>
      rw [run_again hs]
      obtain rfl | hlt := hμ s s₁ hs
      · obtain ⟨k, a, hr⟩ := h
        rw [run_stuck hs] at hr
        cases hr
      · exact ih ((Halts.of_again hs).1 h) (by omega)

/-- The states of the first `n` rounds, in their order. -/
def visits (step : σ → Outcome σ α) : ℕ → σ → List σ
  | 0, _ => []
  | n + 1, s =>
    match step s with
    | .done _ => [s]
    | .again s' => s :: visits step n s'

/-- Where every round makes the measure smaller, no two rounds have the same measure. -/
theorem visits_pairwise (I : σ → Prop) (μ : σ → ℕ)
    (hμ : ∀ s s', I s → step s = .again s' → I s' ∧ μ s' < μ s) (n : ℕ) (hs : I s) :
    (visits step n s).Pairwise (fun x y => μ y < μ x) ∧ ∀ x ∈ visits step n s, μ x ≤ μ s := by
  induction n generalizing s with
  | zero => simp [visits]
  | succ n ih =>
    rw [visits]
    split
    · simp
    · rename_i s' hstep
      obtain ⟨hs', hlt⟩ := hμ s s' hs hstep
      obtain ⟨hpair, hle⟩ := ih hs'
      refine ⟨List.pairwise_cons.2 ⟨fun x hx => Nat.lt_of_le_of_lt (hle x hx) hlt, hpair⟩, ?_⟩
      intro x hx
      obtain rfl | hx := List.mem_cons.1 hx
      · exact Nat.le_refl _
      · exact Nat.le_of_lt (Nat.lt_of_le_of_lt (hle x hx) hlt)

/-- Loops whose rounds correspond have the same result. -/
theorem run_eq_of_sim {τ : Type u} {step' : τ → Outcome τ α} {t : τ} (R : σ → τ → Prop)
    (hR : ∀ s t, R s t → (∃ a, step s = .done a ∧ step' t = .done a) ∨
      ∃ s₁ t₁, step s = .again s₁ ∧ step' t = .again t₁ ∧ R s₁ t₁)
    (h : R s t) : run step n s = run step' n t := by
  induction n generalizing s t with
  | zero => rfl
  | succ n ih =>
    obtain ⟨a, hs, ht⟩ | ⟨s₁, t₁, hs, ht, h₁⟩ := hR s t h
    · rw [run_done hs, run_done ht]
    · rw [run_again hs, run_again ht]
      exact ih h₁

end Loop
