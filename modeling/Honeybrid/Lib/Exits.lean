import Honeybrid.Lib.Runs

/-!
# Procedures that give up

A procedure of an imperative program reads and writes a state `σ`, may fail with an error of `φ`,
and may give up on the way: it then returns without a value, and the state stays as it is at that
point. Nothing is rolled back, so that giving up is harmless only when the writes come after the
last point at which the procedure can give up.

## Main definitions

* `Procedure`, with its monad structure, `giveUp`, `read`, `write` and `call`.
* `Procedure.Within R`: whatever the outcome, the state changes along `R` only.
* `Procedure.Returns`: the procedure does not give up.
* `Procedure.Spares R`: when the procedure gives up, the state has changed along `R` only.

## Main results

* `Procedure.Spares.bind_within`, `Procedure.Spares.bind_returns`: the two ways to put procedures in
  sequence. The part before may give up as long as it changes nothing that matters, and the part
  after may change everything as long as it returns.
-/

universe u

/-- A procedure over the state `σ`: `none` stands for giving up. -/
def Procedure (σ φ α : Type u) :=
  σ → Except φ (σ × Option α)

namespace Procedure

variable {σ φ α β : Type u} {R : σ → σ → Prop} {p : Procedure σ φ α}
  {f : α → Procedure σ φ β}

instance : Monad (Procedure σ φ) where
  pure a := fun s => .ok (s, some a)
  bind p f := fun s => do
    match ← p s with
    | (s', some a) => f a s'
    | (s', none) => .ok (s', none)

/-- Give up. -/
def giveUp : Procedure σ φ α :=
  fun s => .ok (s, none)

/-- A computation that looks at the state. -/
def read (x : σ → Except φ α) : Procedure σ φ α :=
  fun s => (x s).map fun a => (s, some a)

/-- A change of the state. -/
def write (x : σ → σ) : Procedure σ φ PUnit :=
  fun s => .ok (x s, some ⟨⟩)

@[simp] theorem pure_apply (a : α) (s : σ) : (pure a : Procedure σ φ α) s = .ok (s, some a) :=
  rfl

@[simp] theorem giveUp_apply (s : σ) : (giveUp : Procedure σ φ α) s = .ok (s, none) :=
  rfl

@[simp] theorem write_apply (x : σ → σ) (s : σ) :
    (write x : Procedure σ φ PUnit) s = .ok (x s, some ⟨⟩) :=
  rfl

theorem bind_apply (s : σ) :
    (p >>= f) s = p s >>= fun r => match r with
      | (s', some a) => f a s'
      | (s', none) => .ok (s', none) :=
  rfl

@[simp] theorem write_bind_apply (x : σ → σ) (q : PUnit → Procedure σ φ β) (s : σ) :
    (write x >>= q) s = q ⟨⟩ (x s) :=
  rfl

@[simp] theorem giveUp_bind_apply (s : σ) : (giveUp >>= f) s = .ok (s, none) :=
  rfl

@[simp] theorem read_bind_apply (x : σ → Except φ α) (s : σ) :
    (read x >>= f) s = x s >>= fun a => f a s := by
  rw [bind_apply, read]
  cases x s with
  | error e => rfl
  | ok a => rfl

theorem ext {p q : Procedure σ φ α} (h : ∀ s, p s = q s) : p = q :=
  funext h

instance : LawfulMonad (Procedure σ φ) := by
  refine LawfulMonad.mk' _ (fun p => ext fun s => ?_) (fun a f => rfl)
    fun p f q => ext fun s => ?_
  · show (p >>= fun a => pure (id a)) s = p s
    rw [bind_apply]
    rcases p s with e | ⟨s', _ | a⟩ <;> rfl
  · rw [bind_apply, bind_apply, bind_apply]
    rcases p s with e | ⟨s', _ | a⟩ <;> rfl

/-! ### Giving up without a trace -/

/-- Whatever the outcome, the state changes along `R` only. -/
def Within (R : σ → σ → Prop) (p : Procedure σ φ α) : Prop :=
  ∀ s s' o, p s = .ok (s', o) → R s s'

/-- The procedure does not give up. -/
def Returns (p : Procedure σ φ α) : Prop :=
  ∀ s s' o, p s = .ok (s', o) → o ≠ none

/-- When the procedure gives up, the state has changed along `R` only. -/
def Spares (R : σ → σ → Prop) (p : Procedure σ φ α) : Prop :=
  ∀ s s', p s = .ok (s', none) → R s s'

theorem bind_cases {s s' : σ} {o : Option β} (h : (p >>= f) s = .ok (s', o)) :
    (p s = .ok (s', none) ∧ o = none) ∨
    ∃ s₁ a, p s = .ok (s₁, some a) ∧ f a s₁ = .ok (s', o) := by
  obtain ⟨⟨s₁, _ | a⟩, hp, hf⟩ := Except.bind_eq_ok.mp h
  · cases hf
    exact .inl ⟨hp, rfl⟩
  · exact .inr ⟨s₁, a, hp, hf⟩

theorem within_read (x : σ → Except φ α) (hR : ∀ s, R s s) : (read x).Within R := by
  intro s s' o h
  rw [read] at h
  cases hx : x s with
  | error e =>
    rw [hx] at h
    cases h
  | ok a =>
    rw [hx] at h
    cases h
    exact hR s

theorem within_write {x : σ → σ} (hx : ∀ s, R s (x s)) :
    (write x : Procedure σ φ PUnit).Within R := by
  intro s s' o h
  cases h
  exact hx s

theorem returns_read (x : σ → Except φ α) : (read x).Returns := by
  intro s s' o h
  rw [read] at h
  cases hx : x s with
  | error e =>
    rw [hx] at h
    cases h
  | ok a =>
    rw [hx] at h
    cases h
    exact Option.some_ne_none a

theorem returns_pure (a : α) : (pure a : Procedure σ φ α).Returns := by
  intro s s' o h
  cases h
  exact Option.some_ne_none a

theorem returns_write (x : σ → σ) : (write x : Procedure σ φ PUnit).Returns := by
  intro s s' o h
  cases h
  exact Option.some_ne_none _

theorem Returns.bind (hp : p.Returns) (hf : ∀ a, (f a).Returns) : (p >>= f).Returns := by
  intro s s' o h
  obtain ⟨hp', -⟩ | ⟨s₁, a, -, hf'⟩ := bind_cases h
  · exact absurd rfl (hp s s' none hp')
  · exact hf a s₁ s' o hf'

theorem Returns.spares (hp : p.Returns) : p.Spares R :=
  fun s s' h => absurd rfl (hp s s' none h)

theorem Within.spares (hp : p.Within R) : p.Spares R :=
  fun s s' h => hp s s' none h

theorem spares_giveUp (hR : ∀ s, R s s) : (giveUp : Procedure σ φ α).Spares R := by
  intro s s' h
  cases h
  exact hR s

/-- The part that comes first changes nothing that matters. -/
theorem Spares.bind_within (hp : p.Within R) (hf : ∀ a, (f a).Spares R)
    (htrans : ∀ a b c, R a b → R b c → R a c) : (p >>= f).Spares R := by
  intro s s' h
  obtain ⟨hp', -⟩ | ⟨s₁, a, hp', hf'⟩ := bind_cases h
  · exact hp s s' none hp'
  · exact htrans s s₁ s' (hp s s₁ (some a) hp') (hf a s₁ s' hf')

/-- The part that comes last does not give up. -/
theorem Spares.bind_returns (hp : p.Spares R) (hf : ∀ a, (f a).Returns) : (p >>= f).Spares R := by
  intro s s' h
  obtain ⟨hp', -⟩ | ⟨s₁, a, -, hf'⟩ := bind_cases h
  · exact hp s s' hp'
  · exact absurd rfl (hf a s₁ s' none hf')

end Procedure
