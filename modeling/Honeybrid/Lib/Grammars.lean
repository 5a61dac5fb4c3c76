import Mathlib.Data.List.Basic
import Mathlib.Tactic.Common

/-!
# Readers of grammars

A nonterminal of a grammar with values is a relation between the words that it derives and their
values. A reader takes a word of a nonterminal from the front of a text. It reads the nonterminal if
it finds exactly the words of it, so that no word of the nonterminal goes on with another one.

## Main definitions

* `Grammars.Reader`, `Grammars.Words`: readers, and nonterminals.
* `Grammars.Reads`: a reader and the nonterminal that it reads.
* `Grammars.Many`, `Grammars.Reader.many`: repetition.

## Main results

* `Grammars.Reads.bind_iff`: what is read behind a nonterminal.
* `Grammars.Reads.many_iff`, `Grammars.Reads.many_bind_iff`: repetition is read up to where no word
  starts.
-/

universe u v w

namespace Grammars

variable {τ : Type u} {α : Type v} {β : Type w}

/-- A reader: the value and what is left of the text, if there is a word at its front. -/
abbrev Reader (τ : Type u) (α : Type v) := List τ → Option (α × List τ)

/-- The words of a nonterminal, with their values. -/
abbrev Words (τ : Type u) (α : Type v) := List τ → α → Prop

/-- The reader finds the words of `L`. -/
def Reads (p : Reader τ α) (L : Words τ α) : Prop :=
  ∀ ts a rest, p ts = some (a, rest) ↔ ∃ x, ts = x ++ rest ∧ L x a

/-- Words of `L`, one after the other. -/
inductive Many (L : Words τ α) : Words τ (List α)
  | nil : Many L [] []
  | cons {x y : List τ} {a : α} {as : List α} (ha : L x a) (has : Many L y as) :
      Many L (x ++ y) (a :: as)

namespace Reader

/-- Values as long as the text meets the test, with at most `n` turns. -/
def manyLoop (more : List τ → Bool) (p : Reader τ α) : ℕ → Reader τ (List α)
  | 0, _ => none
  | n + 1, ts =>
    if more ts then
      (p ts).bind fun r => (manyLoop more p n r.2).map fun s => (r.1 :: s.1, s.2)
    else some ([], ts)

/-- Values as long as the text meets the test. -/
def many (more : List τ → Bool) (p : Reader τ α) : Reader τ (List α) :=
  fun ts => manyLoop more p (ts.length + 1) ts

end Reader

variable {p : Reader τ α} {L : Words τ α}

/-- What is read behind a word of `L`. -/
theorem Reads.bind_iff (hp : Reads p L) {k : α × List τ → Option β} {ts : List τ} {b : β} :
    (p ts).bind k = some b ↔ ∃ x a us, ts = x ++ us ∧ L x a ∧ k (a, us) = some b := by
  rw [Option.bind_eq_some_iff]
  constructor
  · rintro ⟨⟨a, us⟩, ha, hb⟩
    obtain ⟨x, hx, hL⟩ := (hp ts a us).1 ha
    exact ⟨x, a, us, hx, hL, hb⟩
  · rintro ⟨x, a, us, hx, hL, hb⟩
    exact ⟨(a, us), (hp ts a us).2 ⟨x, hx, hL⟩, hb⟩

/-- What holds of a text that starts with a word of `L`, and of what follows, holds of a text that
starts with words of `L`. -/
theorem Many.start {P : List τ → Prop} {x rest : List τ} {as : List α} (h : Many L x as)
    (hL : ∀ x a rest, L x a → P (x ++ rest)) (hrest : P rest) : P (x ++ rest) := by
  cases h with
  | nil => exact hrest
  | cons ha _ =>
    rw [List.append_assoc]
    exact hL _ _ _ ha

/-- **Repetition.** If the test tells where the words start, words are read as long as there are
any. -/
theorem Reads.many_iff {more : List τ → Bool} (hp : Reads p L)
    (hL : ∀ x a rest, L x a → x ≠ [] ∧ more (x ++ rest) = true) {ts us : List τ} {as : List α} :
    Reader.many more p ts = some (as, us) ↔ more us = false ∧ ∃ x, ts = x ++ us ∧ Many L x as := by
  have hloop (n : ℕ) (ts : List τ) (hn : ts.length < n) (as : List α) :
      Reader.manyLoop more p n ts = some (as, us) ↔
        more us = false ∧ ∃ x, ts = x ++ us ∧ Many L x as := by
    induction n generalizing ts as with
    | zero => exact absurd hn (Nat.not_lt_zero _)
    | succ n ih =>
      rw [Reader.manyLoop]
      have hshort {x : List τ} {a : α} {vs : List τ} (hx : L x a) (hts : ts = x ++ vs) :
          vs.length < n := by
        have hpos := List.length_pos_iff.2 (hL x a vs hx).1
        rw [hts, List.length_append] at hn
        omega
      constructor
      · intro h
        split_ifs at h with hmore
        · obtain ⟨x, a, vs, hts, hx, h⟩ := hp.bind_iff.1 h
          obtain ⟨⟨bs, ws⟩, hbs, heq⟩ := Option.map_eq_some_iff.1 h
          cases heq
          obtain ⟨hus, y, rfl, hy⟩ := (ih vs (hshort hx hts) bs).1 hbs
          exact ⟨hus, x ++ y, by rw [hts, List.append_assoc], .cons hx hy⟩
        · cases h
          exact ⟨Bool.eq_false_iff.2 hmore, [], rfl, .nil⟩
      · rintro ⟨hus, z, hts, hz⟩
        cases hz with
        | nil =>
          rw [hts, List.nil_append, if_neg (Bool.eq_false_iff.1 hus)]
        | @cons x y a bs hx hy =>
          rw [List.append_assoc] at hts
          rw [if_pos (hts ▸ (hL x a _ hx).2)]
          refine hp.bind_iff.2 ⟨x, a, y ++ us, hts, hx, ?_⟩
          have hbs := (ih (y ++ us) (hshort hx hts) bs).2 ⟨hus, y, rfl, hy⟩
          exact Option.map_eq_some_iff.2 ⟨(bs, us), hbs, rfl⟩
  exact hloop _ ts (Nat.lt_succ_self _) as

/-- What is read behind words of `L`. -/
theorem Reads.many_bind_iff {more : List τ → Bool} (hp : Reads p L)
    (hL : ∀ x a rest, L x a → x ≠ [] ∧ more (x ++ rest) = true)
    {k : List α × List τ → Option β} {ts : List τ} {b : β} :
    (Reader.many more p ts).bind k = some b ↔
      ∃ x as us, ts = x ++ us ∧ more us = false ∧ Many L x as ∧ k (as, us) = some b := by
  rw [Option.bind_eq_some_iff]
  constructor
  · rintro ⟨⟨as, us⟩, has, hb⟩
    obtain ⟨hus, x, hts, hx⟩ := (hp.many_iff hL).1 has
    exact ⟨x, as, us, hts, hus, hx, hb⟩
  · rintro ⟨x, as, us, hts, hus, hx, hb⟩
    exact ⟨(as, us), (hp.many_iff hL).2 ⟨hus, x, hts, hx⟩, hb⟩

end Grammars
