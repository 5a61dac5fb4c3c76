import Mathlib.Data.List.TakeWhile
import Mathlib.Tactic.Common

/-!
# Splitting a text at its operators

A text is cut at the matches of a pattern, from left to right; what has matched is left out, and the
search goes on behind it. For a pattern that matches an operator with a blank on each side, and a
text of words with one blank between them, this cuts the list of words. An operator at the start of
a piece is not one, since the blank before it is gone, and neither is one at the end.

## Main definitions

* `Splits.split`: the pieces of a text.
* `Splits.around`: the pattern of an operator between blanks.
* `Splits.cut`: the pieces of a list of words.
* `Splits.Joined`: pieces with operators between them.

## Main results

* `Splits.split_intercalate`: splitting a text of words is cutting the list of its words.
* `Splits.Joined.cut`: pieces without operators come back from behind the operators between them.
-/

universe u

namespace Splits

variable {α : Type u}

/-- The pieces of a text, where `m` is the length of the match at the front of what is left, or
zero. The next `n` symbols belong to a match. -/
def splitLoop (m : List α → ℕ) : ℕ → List α → List α → List (List α)
  | _, piece, [] => [piece]
  | n + 1, piece, _ :: x => splitLoop m n piece x
  | 0, piece, a :: x =>
    if m (a :: x) = 0 then splitLoop m 0 (piece ++ [a]) x
    else piece :: splitLoop m (m (a :: x) - 1) [] x

/-- The pieces of a text between the matches. -/
def split (m : List α → ℕ) (x : List α) : List (List α) :=
  splitLoop m 0 [] x

/-- The match of an operator of `k` symbols with a blank on each side. -/
def around (blank : α → Bool) (k : ℕ) (op : List α → Bool) : List α → ℕ
  | [] => 0
  | a :: x => if blank a && op (x.take k) && (x.drop k).head?.any blank then k + 2 else 0

/-- The pieces of a list of words. The first word of a piece, and the last of the list, are no
operators. -/
def cutLoop (op : List α → Bool) : List (List α) → List (List α) → List (List (List α))
  | piece, [] => [piece]
  | piece, [w] => [piece ++ [w]]
  | piece, w :: v :: ws =>
    if piece ≠ [] ∧ op w = true then piece :: cutLoop op [] (v :: ws)
    else cutLoop op (piece ++ [w]) (v :: ws)

/-- The pieces of a list of words between the operators. -/
def cut (op : List α → Bool) (ws : List (List α)) : List (List (List α)) :=
  cutLoop op [] ws

/-- The pieces `gs`, with operators between them. -/
inductive Joined (op : List α → Bool) : List (List (List α)) → List (List α) → Prop
  | one (g : List (List α)) : Joined op [g] g
  | cons {g : List (List α)} {gs : List (List (List α))} {o : List α} {ws : List (List α)}
      (ho : op o = true) (h : Joined op gs ws) : Joined op (g :: gs) (g ++ o :: ws)

/-! ### Words -/

section Words

variable {op : List α → Bool} {piece ws : List (List α)} {gs : List (List (List α))}

/-- Words that are no operators stay in their piece. -/
theorem cutLoop_append (hws : ∀ w ∈ ws, op w = false) (v : List α) (us : List (List α)) :
    cutLoop op piece (ws ++ v :: us) = cutLoop op (piece ++ ws) (v :: us) := by
  induction ws generalizing piece with
  | nil => rw [List.nil_append, List.append_nil]
  | cons w ws ih =>
    have hw : ¬(piece ≠ [] ∧ op w = true) := by
      rw [hws w (.head _)]
      simp
    have hrest : cutLoop op (piece ++ [w]) (ws ++ v :: us) =
        cutLoop op (piece ++ [w] ++ ws) (v :: us) :=
      ih fun w' hw' => hws w' (.tail _ hw')
    rw [List.append_assoc, List.singleton_append] at hrest
    rw [← hrest, List.cons_append]
    rcases ws with _ | ⟨w', ws⟩
    · exact if_neg hw
    · exact if_neg hw

theorem cutLoop_last (hws : ∀ w ∈ ws, op w = false) : cutLoop op piece ws = [piece ++ ws] := by
  rcases List.eq_nil_or_concat ws with rfl | ⟨us, w, rfl⟩
  · rw [List.append_nil]
    rfl
  · rw [List.concat_eq_append] at hws ⊢
    rw [cutLoop_append (fun w' hw' => hws w' (List.mem_append_left _ hw')) w [],
      ← List.append_assoc]
    rfl

/-- A word is one of a piece, or an operator. -/
theorem Joined.mem {w : List α} (h : Joined op gs ws) (hw : w ∈ ws) :
    (∃ g ∈ gs, w ∈ g) ∨ op w = true := by
  induction h with
  | one g => exact .inl ⟨g, .head _, hw⟩
  | @cons g gs o ws ho _ ih =>
    rcases List.mem_append.1 hw with hw | hw
    · exact .inl ⟨g, .head _, hw⟩
    · rcases List.mem_cons.1 hw with rfl | hw
      · exact .inr ho
      · exact (ih hw).imp_left fun ⟨g', hg', hw'⟩ => ⟨g', .tail _ hg', hw'⟩

theorem Joined.ne_nil (h : Joined op gs ws) (hgs : ∀ g ∈ gs, g ≠ []) : ws ≠ [] := by
  induction h with
  | one g => exact hgs g (.head _)
  | cons => simp

/-- **Pieces.** Pieces without operators come back from behind the operators between them. -/
theorem Joined.cut (h : Joined op gs ws) (hgs : ∀ g ∈ gs, g ≠ [] ∧ ∀ w ∈ g, op w = false) :
    Splits.cut op ws = gs := by
  induction h with
  | one g =>
    rw [Splits.cut, cutLoop_last (hgs g (.head _)).2, List.nil_append]
  | @cons g gs o ws ho hjoined ih =>
    obtain ⟨hg, hwords⟩ := hgs g (.head _)
    have hrest := ih fun g' hg' => hgs g' (.tail _ hg')
    rw [Splits.cut, cutLoop_append hwords, List.nil_append]
    rcases ws with _ | ⟨v, us⟩
    · exact absurd rfl (hjoined.ne_nil fun g' hg' => (hgs g' (.tail _ hg')).1)
    · rw [cutLoop, if_pos ⟨hg, ho⟩]
      exact congrArg (g :: ·) hrest

end Words

/-! ### Texts -/

section Texts

variable {blank : α → Bool} {op : List α → Bool} {k : ℕ} {b : α} {w x piece : List α}
  {ws pieces : List (List α)}

theorem splitLoop_skip (m : List α → ℕ) (y : List α) :
    splitLoop m y.length piece (y ++ x) = splitLoop m 0 piece x := by
  induction y with
  | nil => rfl
  | cons a y ih =>
    rw [List.cons_append, List.length_cons, splitLoop]
    exact ih

/-- Nothing is cut in a word. -/
theorem splitLoop_word (hw : ∀ c ∈ w, blank c = false) :
    splitLoop (around blank k op) 0 piece (w ++ x) =
      splitLoop (around blank k op) 0 (piece ++ w) x := by
  induction w generalizing piece with
  | nil => rw [List.nil_append, List.append_nil]
  | cons c w ih =>
    have hzero : around blank k op (c :: (w ++ x)) = 0 := by
      rw [around, hw c (.head _)]
      rfl
    rw [List.cons_append, splitLoop, if_pos hzero, ih fun d hd => hw d (.tail _ hd),
      List.append_assoc, List.singleton_append]

/-- A word between blanks. -/
theorem around_word (hop : ∀ y, op y = true → y.length = k ∧ ∀ c ∈ y, blank c = false)
    (hb : blank b = true) (hw : ∀ c ∈ w, blank c = false) :
    around blank k op (b :: (w ++ b :: x)) = if op w = true then k + 2 else 0 := by
  rw [around, hb, Bool.true_and]
  by_cases ho : op w = true
  · obtain ⟨rfl, -⟩ := hop w ho
    rw [if_pos ho, List.take_left, List.drop_left, ho]
    exact if_pos hb
  · rw [if_neg ho]
    refine if_neg fun h => ?_
    obtain ⟨htake, hdrop⟩ := Bool.and_eq_true_iff.1 h
    obtain ⟨hlen, hplain⟩ := hop _ htake
    -- the operator does not end before the word, and does not go on behind it
    rcases Nat.lt_trichotomy k w.length with hk | rfl | hk
    · rw [List.drop_append_of_le_length hk.le, List.drop_eq_getElem_cons hk] at hdrop
      rw [List.cons_append, List.head?_cons, Option.any_some, hw _ (List.getElem_mem hk)] at hdrop
      cases hdrop
    · rw [List.take_left] at htake
      exact ho htake
    · have hmem : b ∈ (w ++ b :: x).take k := by
        rw [List.take_append, List.take_of_length_le hk.le]
        obtain ⟨n, hn⟩ := Nat.exists_eq_succ_of_ne_zero (Nat.sub_ne_zero_of_lt hk)
        rw [hn, List.take_succ_cons]
        exact List.mem_append_right _ (.head _)
      rw [hplain b hmem] at hb
      cases hb

/-- A word with nothing behind it. -/
theorem around_last (hw : ∀ c ∈ w, blank c = false) : around blank k op (b :: w) = 0 := by
  refine if_neg fun h => ?_
  obtain ⟨-, hdrop⟩ := Bool.and_eq_true_iff.1 h
  obtain ⟨c, hc, hblank⟩ := (Option.any_eq_true ..).1 hdrop
  rw [hw c (List.mem_of_mem_drop (List.mem_of_mem_head? hc))] at hblank
  cases hblank

theorem intercalate_concat (hne : pieces ≠ []) (w : List α) :
    [b].intercalate (pieces ++ [w]) = [b].intercalate pieces ++ b :: w := by
  induction pieces with
  | nil => exact absurd rfl hne
  | cons v vs ih =>
    rcases vs with _ | ⟨v', vs⟩
    · rw [List.singleton_append, List.intercalate_cons_cons, List.intercalate_singleton,
        List.intercalate_singleton, List.append_assoc, List.singleton_append]
    · rw [List.cons_append, List.cons_append, List.intercalate_cons_cons, ← List.cons_append,
        ih (List.cons_ne_nil _ _), List.intercalate_cons_cons]
      simp only [List.append_assoc]

/-- What is left of a text of words behind a piece: the blank before the next word is there unless
the piece is empty. -/
def behind (b : α) (pieces : List (List α)) : List (List α) → List α
  | [] => []
  | w :: ws => if pieces = [] then [b].intercalate (w :: ws) else b :: [b].intercalate (w :: ws)

theorem behind_cons (hne : pieces ≠ []) (v : List α) (us : List (List α)) :
    behind b pieces (v :: us) = b :: [b].intercalate (v :: us) :=
  if_neg hne

theorem intercalate_cons_behind (w : List α) (ws : List (List α)) :
    [b].intercalate (w :: ws) = w ++ behind b [w] ws := by
  rcases ws with _ | ⟨v, ws⟩
  · rw [List.intercalate_singleton]
    exact (List.append_nil w).symm
  · rw [List.intercalate_cons_cons, List.append_assoc, behind_cons (List.cons_ne_nil _ _)]
    rfl

theorem splitLoop_behind (hop : ∀ y, op y = true → y.length = k ∧ ∀ c ∈ y, blank c = false)
    (hb : blank b = true) (hws : ∀ w ∈ ws, ∀ c ∈ w, blank c = false) :
    splitLoop (around blank k op) 0 ([b].intercalate pieces) (behind b pieces ws) =
      (cutLoop op pieces ws).map [b].intercalate := by
  induction ws generalizing pieces with
  | nil => rfl
  | cons w ws ih =>
    have hw := hws w (.head _)
    have hrest (pieces : List (List α)) :
        splitLoop (around blank k op) 0 ([b].intercalate pieces) (behind b pieces ws) =
          (cutLoop op pieces ws).map [b].intercalate :=
      ih fun w' hw' => hws w' (.tail _ hw')
    by_cases hne : pieces = []
    · subst hne
      show splitLoop (around blank k op) 0 [] ([b].intercalate (w :: ws)) = _
      rw [intercalate_cons_behind, splitLoop_word hw, List.nil_append]
      have hone := hrest [w]
      rw [List.intercalate_singleton] at hone
      rw [hone]
      rcases ws with _ | ⟨v, ws⟩
      · rfl
      · rw [cutLoop, if_neg (by simp)]
        rfl
    · have hconcat := intercalate_concat (b := b) hne w
      rw [behind_cons hne, intercalate_cons_behind]
      rcases ws with _ | ⟨v, ws⟩
      · have hzero : around blank k op (b :: (w ++ [])) = 0 := by
          rw [List.append_nil]
          exact around_last hw
        show splitLoop (around blank k op) 0 _ (b :: (w ++ [])) = [[b].intercalate (pieces ++ [w])]
        rw [splitLoop, if_pos hzero, splitLoop_word hw, hconcat, List.append_assoc,
          List.singleton_append]
        rfl
      · have hmatch := around_word (x := [b].intercalate (v :: ws)) hop hb hw
        rw [behind_cons (List.cons_ne_nil _ _), splitLoop, hmatch, cutLoop]
        by_cases ho : op w = true
        · have hskip : ((w ++ [b]).length : ℕ) = k + 2 - 1 := by
            rw [List.length_append, (hop w ho).1]
            rfl
          rw [if_pos ho, if_neg (Nat.succ_ne_zero _), if_pos ⟨hne, ho⟩, List.map_cons,
            List.append_cons, ← hskip, splitLoop_skip]
          exact congrArg _ (hrest [])
        · rw [if_neg ho, if_pos rfl, if_neg fun h => ho h.2, splitLoop_word hw, ← hrest, hconcat,
            behind_cons (by simp), List.append_assoc, List.singleton_append]

/-- **Texts of words.** -/
theorem split_intercalate (hop : ∀ y, op y = true → y.length = k ∧ ∀ c ∈ y, blank c = false)
    (hb : blank b = true) (hws : ∀ w ∈ ws, ∀ c ∈ w, blank c = false) :
    split (around blank k op) ([b].intercalate ws) = (cut op ws).map [b].intercalate := by
  have h : splitLoop (around blank k op) 0 ([b].intercalate []) (behind b [] ws) =
      (cutLoop op [] ws).map [b].intercalate :=
    splitLoop_behind hop hb hws
  rcases ws with _ | ⟨w, ws⟩
  · exact h
  · exact h

end Texts

end Splits
