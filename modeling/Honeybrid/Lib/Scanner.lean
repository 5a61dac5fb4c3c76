import Mathlib.Data.List.Basic
import Mathlib.Tactic.Common

/-!
# Scanners by longest match

A scanner cuts a text into lexemes with a list of rules. At each point the rule with the longest
match is taken, and the first one among several; its action returns a token, or none if the lexeme
is skipped. A symbol that no rule matches is skipped.

## Main definitions

* `Scanner.Rule`: a rule, with the length of its match at the front of a text.
* `Scanner.literal`, `Scanner.span`, `Scanner.comment`: the rules for a fixed text, for a run of
  symbols, and for a text from a mark to the end of a run.
* `Scanner.pick`, `Scanner.scan`: the rule that is taken, and the tokens of a text.

## Main results

* `Scanner.pick_eq`: a rule is taken if the rules before it match less and those after it no more.
* `Scanner.scan_append`: the tokens of a text after its first lexeme.
* `Scanner.mem_scan`: every token comes from a rule and a text that it matches.
-/

namespace Scanner

universe u v

variable {α : Type u} {τ : Type v}

/-- A rule: the length of its match at the front of a text, zero if it does not match, and its
action on the lexeme. -/
structure Rule (α : Type u) (τ : Type v) where
  length : List α → ℕ
  token : List α → Option τ

/-- The rule with the longest match, the first one among several. -/
def pick : List (Rule α τ) → List α → Option (Rule α τ)
  | [], _ => none
  | r :: rs, x =>
    match pick rs x with
    | none => if r.length x = 0 then none else some r
    | some q => if q.length x ≤ r.length x then some r else some q

/-- The tokens of a text, with at most `n` lexemes. -/
def scanLoop (rules : List (Rule α τ)) : ℕ → List α → List τ
  | 0, _ => []
  | _ + 1, [] => []
  | n + 1, a :: x =>
    match pick rules (a :: x) with
    | none => scanLoop rules n x
    | some r =>
      (r.token ((a :: x).take (r.length (a :: x)))).toList ++
        scanLoop rules n ((a :: x).drop (r.length (a :: x)))

/-- The tokens of a text. -/
def scan (rules : List (Rule α τ)) (x : List α) : List τ :=
  scanLoop rules x.length x

section Rules

variable [DecidableEq α]

/-- The rule for a fixed text. -/
def literal (y : List α) (t : Option τ) : Rule α τ where
  length x := if y <+: x then y.length else 0
  token _ := t

omit [DecidableEq α] in
/-- The rule for a run of symbols. -/
def span (p : α → Bool) (f : List α → Option τ) : Rule α τ where
  length x := (x.takeWhile p).length
  token := f

/-- The rule for a mark with the run of symbols after it, which is skipped. -/
def comment (y : List α) (p : α → Bool) : Rule α τ where
  length x := if y <+: x then y.length + ((x.drop y.length).takeWhile p).length else 0
  token _ := none

end Rules

section Lemmas

variable {rules before after : List (Rule α τ)} {r q : Rule α τ} {x y rest : List α} {n : ℕ}
  {p : α → Bool} {a : α}

theorem pick_mem (h : pick rules x = some r) : r ∈ rules ∧ 0 < r.length x := by
  induction rules generalizing r with
  | nil => cases h
  | cons r₀ rs ih =>
    rw [pick] at h
    split at h
    · split_ifs at h with h₀
      cases h
      exact ⟨.head _, Nat.pos_of_ne_zero h₀⟩
    · rename_i q hq
      obtain ⟨hmem, hpos⟩ := ih hq
      split_ifs at h with hle
      · cases h
        exact ⟨.head _, Nat.lt_of_lt_of_le hpos hle⟩
      · cases h
        exact ⟨.tail _ hmem, hpos⟩

/-- The first of the longest matches is taken. -/
theorem pick_eq (hpos : 0 < r.length x) (hbefore : ∀ q ∈ before, q.length x < r.length x)
    (hafter : ∀ q ∈ after, q.length x ≤ r.length x) :
    pick (before ++ r :: after) x = some r := by
  induction before with
  | nil =>
    rw [List.nil_append, pick]
    split
    · exact if_neg (Nat.pos_iff_ne_zero.1 hpos)
    · rename_i q hq
      exact if_pos (hafter q (pick_mem hq).1)
  | cons r₀ rs ih =>
    rw [List.cons_append, pick, ih fun q hq => hbefore q (.tail _ hq)]
    exact if_neg (Nat.not_le.2 (hbefore r₀ (.head _)))

theorem scanLoop_eq_scan (hn : x.length ≤ n) : scanLoop rules n x = scan rules x := by
  -- two bounds that suffice give the same tokens
  have hloop : ∀ m n (x : List α), x.length ≤ m → x.length ≤ n →
      scanLoop rules m x = scanLoop rules n x := by
    intro m
    induction m with
    | zero =>
      intro n x hm hn
      rw [List.length_eq_zero_iff.1 (Nat.le_zero.1 hm)]
      cases n <;> rfl
    | succ m ih =>
      intro n x hm hn
      cases x with
      | nil => cases n <;> rfl
      | cons a x =>
        obtain ⟨n, rfl⟩ : ∃ k, n = k + 1 := ⟨n - 1, by simp only [List.length_cons] at hn; omega⟩
        rw [scanLoop, scanLoop]
        cases hp : pick rules (a :: x) with
        | none => exact ih n x (by simpa using hm) (by simpa using hn)
        | some r =>
          have hlen : ((a :: x).drop (r.length (a :: x))).length < (a :: x).length := by
            rw [List.length_drop]
            have hpos := (pick_mem hp).2
            simp only [List.length_cons]
            omega
          exact congrArg _ (ih n _ (by omega) (by omega))
  exact hloop n x.length x hn (Nat.le_refl _)

/-- The tokens of a text that starts with a lexeme. -/
theorem scan_append (hpick : pick rules (x ++ rest) = some r)
    (hlen : r.length (x ++ rest) = x.length) :
    scan rules (x ++ rest) = (r.token x).toList ++ scan rules rest := by
  have hpos : 0 < x.length := hlen ▸ (pick_mem hpick).2
  cases x with
  | nil => cases hpos
  | cons a x =>
    rw [List.cons_append] at hpick hlen ⊢
    rw [scan, List.length_cons, scanLoop, hpick]
    simp only [hlen]
    rw [← List.cons_append, List.take_left, List.drop_left, scanLoop_eq_scan (by simp)]

/-- A token is made of a match. -/
theorem mem_scan {t : τ} (h : t ∈ scan rules x) :
    ∃ r ∈ rules, ∃ y, 0 < r.length y ∧ r.token (y.take (r.length y)) = some t := by
  have hloop : ∀ n (x : List α), t ∈ scanLoop rules n x →
      ∃ r ∈ rules, ∃ y, 0 < r.length y ∧ r.token (y.take (r.length y)) = some t := by
    intro n
    induction n with
    | zero =>
      intro x hx
      cases hx
    | succ n ih =>
      intro x hx
      cases x with
      | nil => cases hx
      | cons a x =>
        rw [scanLoop] at hx
        cases hp : pick rules (a :: x) with
        | none =>
          rw [hp] at hx
          exact ih x hx
        | some r =>
          rw [hp] at hx
          obtain ⟨hmem, hpos⟩ := pick_mem hp
          rcases List.mem_append.1 hx with ht | hx
          · exact ⟨r, hmem, a :: x, hpos, Option.mem_toList.1 ht⟩
          · exact ih _ hx
  exact hloop x.length x h

/-! ### Lengths of matches -/

theorem takeWhile_append_length_le (hrest : ∀ a ∈ rest.head?, p a = false) :
    ((x ++ rest).takeWhile p).length ≤ x.length := by
  induction x with
  | nil =>
    cases rest with
    | nil => exact Nat.le_refl 0
    | cons a rest =>
      rw [List.nil_append, List.takeWhile_cons, hrest a rfl]
      exact Nat.le_refl 0
  | cons a x ih =>
    rw [List.cons_append, List.takeWhile_cons]
    split
    · exact Nat.succ_le_succ ih
    · exact Nat.zero_le _

theorem takeWhile_append_of_all (hx : ∀ a ∈ x, p a = true)
    (hrest : ∀ a ∈ rest.head?, p a = false) : (x ++ rest).takeWhile p = x := by
  rw [List.takeWhile_append_of_pos hx]
  cases rest with
  | nil => exact List.append_nil x
  | cons a rest =>
    rw [List.takeWhile_cons, hrest a rfl]
    exact List.append_nil x

theorem takeWhile_append_length_lt (hx : ¬∀ a ∈ x, p a = true) :
    ((x ++ rest).takeWhile p).length < x.length := by
  induction x with
  | nil => simp at hx
  | cons a x ih =>
    rw [List.cons_append, List.takeWhile_cons]
    split
    · rename_i ha
      refine Nat.succ_lt_succ (ih fun hall => hx ?_)
      intro b hb
      cases hb with
      | head => exact ha
      | tail _ hb => exact hall b hb
    · exact Nat.succ_pos _

variable [DecidableEq α]

omit [DecidableEq α] in
/-- A text of symbols with which the rest does not start is matched inside the lexeme. -/
theorem prefix_of_prefix_append (hy : ∀ a ∈ y, p a = true) (hrest : ∀ a ∈ rest.head?, p a = false)
    (h : y <+: x ++ rest) : y <+: x := by
  refine List.prefix_of_prefix_length_le h (List.prefix_append x rest) ?_
  obtain ⟨z, hz⟩ := h
  have htake : ((x ++ rest).takeWhile p).length ≤ x.length := takeWhile_append_length_le hrest
  rw [← hz, List.takeWhile_append_of_pos hy, List.length_append] at htake
  exact Nat.le_of_add_right_le htake

theorem literal_length_le {t : Option τ} (hy : ∀ a ∈ y, p a = true)
    (hrest : ∀ a ∈ rest.head?, p a = false) :
    (literal y t).length (x ++ rest) ≤ x.length := by
  show (if y <+: x ++ rest then y.length else 0) ≤ x.length
  split_ifs with h
  · exact (prefix_of_prefix_append hy hrest h).length_le
  · exact Nat.zero_le _

/-- Such a text matches less than the lexeme unless it is the lexeme. -/
theorem literal_length_lt {t : Option τ} (hy : ∀ a ∈ y, p a = true)
    (hrest : ∀ a ∈ rest.head?, p a = false) (hx : x ≠ []) (hne : y ≠ x) :
    (literal y t).length (x ++ rest) < x.length := by
  refine Nat.lt_of_le_of_ne (literal_length_le hy hrest) fun heq => ?_
  have heq : (if y <+: x ++ rest then y.length else 0) = x.length := heq
  split_ifs at heq with h
  · exact hne ((prefix_of_prefix_append hy hrest h).eq_of_length heq)
  · exact hx (List.length_eq_zero_iff.1 heq.symm)

omit [DecidableEq α] in
/-- A text does not start where its first symbol does not stand. -/
theorem not_prefix_of_head (hy : y.head? ≠ x.head?) (hne : y ≠ []) : ¬y <+: x := by
  rintro ⟨z, rfl⟩
  cases y with
  | nil => exact hne rfl
  | cons b y => exact hy rfl

theorem literal_length_zero {t : Option τ} (h : ¬y <+: x) : (literal y t).length x = 0 :=
  if_neg h

theorem comment_length_zero (h : ¬y <+: x) : (comment (τ := τ) y p).length x = 0 :=
  if_neg h

end Lemmas

end Scanner
