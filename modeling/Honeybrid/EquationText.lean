import Honeybrid.ModuleSettings

/-!
# The text of filters and rules

A filter or an equation is written between quotes, and reaches the parser as the tokens that the
lexer makes everywhere. The production `equation` puts its text together again, with one blank
between the items: words and expressions as they are, numbers as they are printed. It has no case
for keywords, and the lexer starts comments between quotes too.

## Main definitions

* `decimalText`, `Token.item`: what is printed for an `int`, and appended for a token.
* `equation`, `Setting.parse`: the production, and the settings that contain it.
* `Spaced`, `Lead`: the texts of some words, and of what stands before the quote.
* `Survives`: however the words are written, the setting gets them with one blank between them.
* `Plain`: the words that come back as they are.

## Main results

* `decimalText_atoi_iff`: a numeral is printed as it was written exactly if it is canonical.
* `survives_iff`: the text survives exactly if all its words are plain.
-/

namespace Honeybrid

/-! ### Equations -/

/-- What `%d` prints. -/
def decimalText (n : ℤ) : List Char :=
  if n < 0 then '-' :: Nat.toDigits 10 n.natAbs else Nat.toDigits 10 n.natAbs

/-- What `equation` appends for a token. -/
def Token.item : Token → Option (List Char)
  | .word s | .expr s => some s.toList
  | .number n => some (decimalText n.toInt)
  | .eq => some ['=']
  | _ => none

/-- Appends an item, after a blank unless it is the first. -/
def appendItem (acc x : List Char) : List Char :=
  if acc.length > 0 then acc ++ ' ' :: x else x

/-- The production `equation` and the quote behind it. -/
def equation (acc : List Char) : List Token → Option (List Char × List Token)
  | [] => none
  | .quote :: ts => some (acc, ts)
  | t :: ts =>
    match t.item with
    | some x => equation (appendItem acc x) ts
    | none => none

/-- The settings with an equation: the filter of a link, and the rules of a target. The production
`handler` is that of a frontend, backend or internal handler after its VLAN. -/
inductive Setting
  | filter | backpick | internet | intralan | handler
  deriving DecidableEq, Repr

/-- The tokens before the quote. -/
def Setting.opening : Setting → List Token
  | filter => [.keyword .filter, .eq]
  | backpick => [.keyword .backpick]
  | internet => [.keyword .internet]
  | intralan => [.keyword .intralan]
  | handler => []

/-- `QUOTE equation QUOTE SEMICOLON` -/
def quotedEquation : List Token → Option (List Char × List Token)
  | .quote :: ts =>
    match equation [] ts with
    | some (x, .semicolon :: ts) => some (x, ts)
    | _ => none
  | _ => none

/-- The text that the action of a setting gets, and the tokens after the setting. -/
def Setting.parse (s : Setting) (ts : List Token) : Option (List Char × List Token) :=
  if s.opening <+: ts then quotedEquation (ts.drop s.opening.length) else none

example : Setting.filter.parse (lex "filter = \"tcp and  dst net 192.168.10.0/24\";".toList) =
    some ("tcp and dst net 192.168.10.0/24".toList, []) := by
  decide +kernel

/-! ### Texts -/

/-- A word of the signs of words and expressions and of `=`. -/
structure IsWord (w : List Char) : Prop where
  nonempty : w ≠ []
  chars : ∀ c ∈ w, isExprChar c = true ∨ c = '='

/-- A blank, a tab or the end of a line. -/
def isSpacing (c : Char) : Bool :=
  isBlank c || c = '\n'

/-- The texts of some words, with blanks and ends of lines between them. -/
inductive Spaced : List (List Char) → List Char → Prop
  | nil {g : List Char} (hg : ∀ c ∈ g, isSpacing c = true) : Spaced [] g
  | cons {g w text : List Char} {ws : List (List Char)} (hg : ∀ c ∈ g, isSpacing c = true)
      (hsep : ∀ c ∈ text.head?, isSpacing c = true) (htext : Spaced ws text) :
      Spaced (w :: ws) (g ++ (w ++ text))

/-- The texts of what stands before the quote. -/
inductive Lead : Setting → List Char → Prop
  | handler {g : List Char} (hg : Gap g) : Lead .handler g
  | keyword {s : Setting} {k : Keyword} {g₀ g₁ : List Char} (hs : s.opening = [.keyword k])
      (h₀ : Gap g₀) (h₁ : Gap g₁) : Lead s (g₀ ++ (k.text.toList ++ g₁))
  | filter {g₀ g₁ g₂ : List Char} (h₀ : Gap g₀) (h₁ : Gap g₁) (h₂ : Gap g₂) :
      Lead .filter (g₀ ++ (Keyword.filter.text.toList ++ (g₁ ++ '=' :: g₂)))

/-- However the words are written between the quotes of a setting, it is accepted, and its text is
the words with one blank between them. -/
def Survives (s : Setting) (ws : List (List Char)) : Prop :=
  ∀ lead text g rest : List Char, Lead s lead → Spaced ws text → Gap g →
    s.parse (lex (lead ++ '"' :: (text ++ '"' :: (g ++ ';' :: rest)))) =
      some ([' '].intercalate ws, lex rest)

/-- A numeral as an `int` is printed. -/
structure Canonical (ds : List Char) : Prop extends Numeral ds where
  inRange : decimal ds < 2 ^ 31
  leading : ds = ['0'] ∨ ds.head? ≠ some '0'

/-- A word that is one token, and one that `equation` gives back: `=` alone, or a lexeme that is no
keyword and, if it is a number, is written as numbers are printed. -/
def Plain (w : List Char) : Prop :=
  w = ['='] ∨ Lexeme w ∧ keywordOf w = none ∧ (w.all Char.isDigit = true → Canonical w)

/-! ### Numerals -/

section Numerals

variable {ds : List Char} {n : ℕ}

theorem digitChar_sub {c : Char} (hc : c.isDigit = true) :
    c.toNat - 48 < 10 ∧ (c.toNat - 48).digitChar = c := by
  obtain ⟨-, h48, h57⟩ := octet_of_digit hc
  have hlt : c.toNat - 48 < 10 := by omega
  refine ⟨hlt, ?_⟩
  rw [← Char.toNat_inj, Nat.toNat_digitChar_of_lt_ten hlt]
  omega

/-- Digits behind a number that is not zero. -/
theorem toDigits_append (hds : ∀ c ∈ ds, c.isDigit = true) (hn : 0 < n) :
    Nat.toDigits 10 n ++ ds = Nat.toDigits 10 (Nat.ofDigitChars 10 ds n) := by
  induction ds generalizing n with
  | nil => rw [List.append_nil, Nat.ofDigitChars_nil]
  | cons c ds ih =>
    obtain ⟨hlt, hc⟩ := digitChar_sub (hds c (.head _))
    have hdigit : Nat.toDigits 10 n ++ [c] = Nat.toDigits 10 (10 * n + (c.toNat - 48)) := by
      rw [← Nat.toDigits_append_toDigits (by decide) hn hlt, Nat.toDigits_of_lt_base hlt, hc]
    calc Nat.toDigits 10 n ++ c :: ds
        = (Nat.toDigits 10 n ++ [c]) ++ ds := List.append_cons ..
      _ = Nat.toDigits 10 (10 * n + (c.toNat - 48)) ++ ds := by rw [hdigit]
      _ = Nat.toDigits 10 (Nat.ofDigitChars 10 (c :: ds) n) :=
          ih (fun d hd => hds d (.tail _ hd)) (by omega)

/-- Numerals without leading zeros are those that are printed. -/
theorem toDigits_decimal (hds : Numeral ds) (hlead : ds = ['0'] ∨ ds.head? ≠ some '0') :
    Nat.toDigits 10 (decimal ds) = ds := by
  rcases hlead with rfl | hlead
  · rfl
  cases ds with
  | nil => exact absurd rfl hds.nonempty
  | cons c ds =>
    obtain ⟨hlt, hc⟩ := digitChar_sub (hds.digits c (.head _))
    have hpos : 0 < c.toNat - 48 := by
      refine Nat.pos_of_ne_zero fun h0 => hlead ?_
      rw [h0] at hc
      rw [← hc]
      rfl
    calc Nat.toDigits 10 (decimal (c :: ds))
        = Nat.toDigits 10 (Nat.ofDigitChars 10 ds (c.toNat - 48)) := by
          rw [← Nat.zero_add (c.toNat - 48)]
          rfl
      _ = Nat.toDigits 10 (c.toNat - 48) ++ ds :=
          (toDigits_append (fun d hd => hds.digits d (.tail _ hd)) hpos).symm
      _ = c :: ds := by rw [Nat.toDigits_of_lt_base hlt, hc]; rfl

theorem toDigits_leading (n : ℕ) :
    Nat.toDigits 10 n = ['0'] ∨ (Nat.toDigits 10 n).head? ≠ some '0' := by
  induction n using Nat.base_induction 10 (by decide) with
  | single m hm =>
    rw [Nat.toDigits_of_lt_base hm]
    by_cases h0 : m.digitChar = '0'
    · exact .inl (congrArg (· :: []) h0)
    · exact .inr fun h => h0 (Option.some.inj h)
  | digit m k hk hm ih =>
    rw [← Nat.toDigits_append_toDigits (by decide) hm hk, List.head?_append_of_ne_nil _ (by simp)]
    rcases ih with h0 | ih
    · have hzero := congrArg (Nat.ofDigitChars 10 · 0) h0
      rw [Nat.ofDigitChars_ten_toDigits] at hzero
      exact absurd hzero (Nat.pos_iff_ne_zero.1 hm)
    · exact .inr ih

/-- **Numbers.** A numeral that is read and printed is as it was written exactly if it is
canonical. -/
theorem decimalText_atoi_iff (hds : Numeral ds) :
    decimalText (atoi (ds.map octet)).toInt = ds ↔ Canonical ds := by
  constructor
  · intro h
    rw [decimalText] at h
    split_ifs at h with hneg
    · rw [← h] at hds
      exact absurd (hds.digits '-' (.head _)) (by decide)
    · have hvalue : decimal ds = (atoi (ds.map octet)).toInt.natAbs := by
        conv_lhs => rw [← h]
        exact Nat.ofDigitChars_ten_toDigits
      have hlt := @BitVec.toInt_lt 32 (atoi (ds.map octet))
      refine ⟨hds, by omega, ?_⟩
      rw [← h]
      exact toDigits_leading _
  · rintro ⟨-, hrange, hlead⟩
    have hvalue : (atoi (ds.map octet)).toInt = decimal ds := by
      rw [atoi_numeral hds (by omega), BitVec.toInt_eq_toNat_cond, BitVec.toNat_ofNat,
        Nat.mod_eq_of_lt (by omega), if_pos (by omega)]
    rw [hvalue, decimalText, if_neg (by omega)]
    exact toDigits_decimal hds hlead

end Numerals

/-! ### Tokens of words -/

section Words

variable {w rest : List Char} {t : Token} {ts : List Token}

/-- A plain word is one token, which gives it back. -/
theorem Plain.lex (hw : Plain w) (he : Ends rest) :
    ∃ t, Honeybrid.lex (w ++ rest) = t :: Honeybrid.lex rest ∧ t.item = some w := by
  rcases hw with rfl | ⟨hlexeme, hkey, hcanonical⟩
  · exact ⟨.eq, lex_eq, rfl⟩
  · refine ⟨tokenOf w, lex_lexeme hlexeme he, ?_⟩
    simp only [tokenOf, hkey]
    split_ifs with hdigits hword
    · have hw := hcanonical hdigits
      exact congrArg some ((decimalText_atoi_iff hw.toNumeral).2 hw)
    · exact congrArg some (String.toList_ofList)
    · exact congrArg some (String.toList_ofList)

theorem decimalText_chars {n : ℤ} {c : Char} (hc : c ∈ decimalText n) : isExprChar c = true := by
  have hdigit (h : c ∈ Nat.toDigits 10 n.natAbs) : isExprChar c = true :=
    isExprChar_of_isWordChar
      (isWordChar_of_isDigit (Nat.isDigit_of_mem_toDigits (by decide) (by decide) h))
  rw [decimalText] at hc
  split_ifs at hc
  · rcases List.mem_cons.1 hc with rfl | hc
    · rfl
    · exact hdigit hc
  · exact hdigit hc

/-- What is appended for a lexeme. -/
theorem tokenOf_item {y x : List Char} (hitem : (tokenOf y).item = some x) :
    keywordOf y = none ∧
      (y.all Char.isDigit = true ∧ x = decimalText (atoi (y.map octet)).toInt ∨
        y.all Char.isDigit = false ∧ x = y) := by
  unfold tokenOf at hitem
  split at hitem
  · cases hitem
  · rename_i hkey
    refine ⟨hkey, ?_⟩
    split_ifs at hitem with hdigits hword
    · exact .inl ⟨hdigits, (Option.some.inj hitem).symm⟩
    · refine .inr ⟨Bool.eq_false_iff.2 hdigits, ?_⟩
      rw [← Option.some.inj hitem, String.toList_ofList]
    · refine .inr ⟨Bool.eq_false_iff.2 hdigits, ?_⟩
      rw [← Option.some.inj hitem, String.toList_ofList]

/-- A word is cut before its first `=`. -/
theorem IsWord.split (hw : IsWord w) :
    ∃ y z, w = y ++ z ∧ (∀ c ∈ y, isExprChar c = true) ∧ (z = [] ∨ ∃ x, z = '=' :: x) := by
  refine ⟨w.takeWhile isExprChar, w.dropWhile isExprChar, List.takeWhile_append_dropWhile.symm,
    List.all_eq_true.1 List.all_takeWhile, ?_⟩
  cases hz : w.dropWhile isExprChar with
  | nil => exact .inl rfl
  | cons c x =>
    have hhead := List.head?_dropWhile_not isExprChar w
    rw [hz] at hhead
    have hc : isExprChar c = false := by simpa using hhead
    have hmem : c ∈ w := List.dropWhile_subset isExprChar (hz ▸ .head _)
    rcases hw.chars c hmem with hexpr | rfl
    · rw [hexpr] at hc
      cases hc
    · exact .inr ⟨x, rfl⟩

/-- Only a plain word is given back by its first token. -/
theorem plain_of_item (hw : IsWord w) (he : Ends rest) (hrest : rest ≠ [])
    (hline : ∀ c ∈ w ++ rest, c ≠ '\n') (hlex : lex (w ++ rest) = t :: ts)
    (hitem : t.item = some w) : Plain w := by
  obtain ⟨y, z, rfl, hy, hz⟩ := hw.split
  have hends : Ends (z ++ rest) := by
    rcases hz with rfl | ⟨x, rfl⟩
    · exact he
    · exact ends_cons (by decide)
  rw [List.append_assoc] at hlex hline
  by_cases hnil : y = []
  · -- an `=` is a token alone
    subst hnil
    rcases hz with rfl | ⟨x, rfl⟩
    · exact absurd rfl hw.nonempty
    · cases hlex
      exact .inl (Option.some.inj hitem).symm
  by_cases hslash : ['/', '/'] <+: y
  · -- the comment is longer than the word, and nothing is left of the line
    obtain ⟨x, rfl⟩ := hslash
    have hsign : ∃ c ∈ x ++ (z ++ rest), isExprChar c = false := by
      have hne : z ++ rest ≠ [] := List.append_ne_nil_of_right_ne_nil z hrest
      exact ⟨(z ++ rest).head hne, List.mem_append_right _ (List.head_mem hne),
        hends _ (List.head_mem_head? hne)⟩
    have hcomment : Honeybrid.lex ('/' :: '/' :: (x ++ (z ++ rest)) ++ []) = [] :=
      lex_slashes (fun c hc => hline c (.tail _ (.tail _ hc))) hsign lineEnds_nil
    rw [List.append_nil] at hcomment
    exact absurd (hcomment.symm.trans hlex) (List.cons_ne_nil _ _).symm
  · have hlexeme : Lexeme y := ⟨hnil, hy, hslash⟩
    rw [lex_lexeme hlexeme hends] at hlex
    cases hlex
    obtain ⟨hkey, hcases⟩ := tokenOf_item hitem
    -- the item has no `=`, so that the word is not cut
    have hall : ∀ c ∈ y ++ z, isExprChar c = true := by
      rcases hcases with ⟨-, htext⟩ | ⟨-, htext⟩
      · rw [htext]
        exact fun c hc => decimalText_chars hc
      · rwa [htext]
    have hznil : z = [] := by
      rcases hz with rfl | ⟨x, rfl⟩
      · rfl
      · exact absurd (hall '=' (List.mem_append_right _ (.head _))) (by decide)
    rw [hznil, List.append_nil] at hcases ⊢
    refine .inr ⟨hlexeme, hkey, fun hdigits => ?_⟩
    have hnumeral : Numeral y := ⟨hnil, List.all_eq_true.1 hdigits⟩
    rcases hcases with ⟨-, htext⟩ | ⟨hfalse, -⟩
    · exact (decimalText_atoi_iff hnumeral).1 htext.symm
    · rw [hdigits] at hfalse
      cases hfalse

end Words

/-! ### Items -/

/-- The items up to the quote, and the tokens after it. -/
def items : List Token → Option (List (List Char) × List Token)
  | [] => none
  | .quote :: ts => some ([], ts)
  | t :: ts =>
    match t.item with
    | some x => (items ts).map fun r => (x :: r.1, r.2)
    | none => none

section Items

variable {acc text rest : List Char} {ts us : List Token} {xs ws : List (List Char)} {t : Token}

theorem items_cons {x : List Char} (hitem : t.item = some x) :
    items (t :: ts) = (items ts).map fun r => (x :: r.1, r.2) := by
  have hquote : t ≠ .quote := by
    rintro rfl
    cases hitem
  rw [items, hitem]
  exact hquote

/-- `equation` appends the items one by one. -/
theorem equation_eq (acc : List Char) (ts : List Token) :
    equation acc ts = (items ts).map fun r => (r.1.foldl appendItem acc, r.2) := by
  induction ts generalizing acc with
  | nil => rfl
  | cons t ts ih =>
    by_cases hq : t = .quote
    · subst hq
      rfl
    · rw [equation, items]
      · split
        · rw [ih, Option.map_map]
          rfl
        · rfl
      · exact hq
      · exact hq

theorem foldl_appendItem (hacc : acc ≠ []) (xs : List (List Char)) :
    xs.foldl appendItem acc = [' '].intercalate (acc :: xs) := by
  induction xs generalizing acc with
  | nil => exact List.intercalate_singleton.symm
  | cons x xs ih =>
    have happend : appendItem acc x = acc ++ ' ' :: x := if_pos (List.length_pos_iff.2 hacc)
    rw [List.foldl_cons, happend, ih (by simp), List.intercalate_cons_cons]
    cases xs with
    | nil => simp
    | cons y xs => simp [List.intercalate_cons_cons]

/-- One blank between the items. -/
theorem foldl_appendItem_nil (hxs : ∀ x ∈ xs, x ≠ []) :
    xs.foldl appendItem [] = [' '].intercalate xs := by
  cases xs with
  | nil => rfl
  | cons x xs => exact foldl_appendItem (hxs x (.head _)) xs

theorem intercalate_ne_nil {x : List Char} (hx : x ≠ []) (xs : List (List Char)) :
    [' '].intercalate (x :: xs) ≠ [] := by
  cases xs with
  | nil => rwa [List.intercalate_singleton]
  | cons y xs =>
    rw [List.intercalate_cons_cons]
    simp

/-- Lists of items are told apart by the text with one blank between them. -/
theorem intercalate_inj {ys : List (List Char)} (hxs : ∀ x ∈ xs, x ≠ [] ∧ ' ' ∉ x)
    (hys : ∀ y ∈ ys, y ≠ [] ∧ ' ' ∉ y) (h : [' '].intercalate xs = [' '].intercalate ys) :
    xs = ys := by
  cases xs with
  | nil =>
    cases ys with
    | nil => rfl
    | cons y ys => exact absurd h.symm (intercalate_ne_nil (hys y (.head _)).1 ys)
  | cons x xs =>
    cases ys with
    | nil => exact absurd h (intercalate_ne_nil (hxs x (.head _)).1 xs)
    | cons y ys =>
      rw [← List.splitOn_intercalate ' ' (fun z hz => (hxs z hz).2) (List.cons_ne_nil _ _), h,
        List.splitOn_intercalate ' ' (fun z hz => (hys z hz).2) (List.cons_ne_nil _ _)]

/-- The items of an equation are not empty, and have no blank. -/
theorem item_of_mem_lex {x : List Char} (ht : t ∈ lex text) (hitem : t.item = some x) :
    x ≠ [] ∧ ' ' ∉ x := by
  have hsigns (h : ∀ c ∈ x, isExprChar c = true) : ' ' ∉ x :=
    fun hc => absurd (h ' ' hc) (by decide)
  have hspan {p : Char → Bool} {y : List Char} (hp : ∀ c, p c = true → isExprChar c = true)
      (hpos : 0 < (y.takeWhile p).length) (hx : x = y.takeWhile p) : x ≠ [] ∧ ' ' ∉ x := by
    subst hx
    exact ⟨List.length_pos_iff.1 hpos,
      hsigns fun c hc => hp c (List.all_eq_true.1 List.all_takeWhile c hc)⟩
  obtain ⟨r, hr, y, hpos, htoken⟩ := Scanner.mem_scan ht
  have htake (p : Char → Bool) : y.take (y.takeWhile p).length = y.takeWhile p :=
    (List.prefix_iff_eq_take.1 (List.takeWhile_prefix p)).symm
  simp only [lexRules, fixedRules, List.append_assoc, List.mem_append, List.mem_map, List.mem_cons,
    List.not_mem_nil, or_false] at hr
  obtain ⟨k, -, rfl⟩ | (rfl | rfl | rfl | rfl | rfl) | rfl | rfl | rfl | rfl | rfl | rfl | rfl := hr
  · cases htoken
    cases hitem
  · cases htoken
    cases hitem
  · cases htoken
    cases hitem
  · cases htoken
    cases hitem
  · cases htoken
    cases hitem
  · cases htoken
    cases hitem
    decide
  · cases htoken
    cases hitem
    refine ⟨?_, hsigns fun c hc => decimalText_chars hc⟩
    rw [decimalText]
    split_ifs
    · exact List.cons_ne_nil _ _
    · exact Nat.toDigits_ne_nil
  · cases htoken
    refine hspan (fun c hc => isExprChar_of_isWordChar hc) hpos ?_
    rw [← Option.some.inj hitem, String.toList_ofList]
    exact htake isWordChar
  · cases htoken
    refine hspan (fun c hc => hc) hpos ?_
    rw [← Option.some.inj hitem, String.toList_ofList]
    exact htake isExprChar
  · cases htoken
  · cases htoken
  · cases htoken
  · cases htoken

/-- What the items of some tokens say about the first one. -/
theorem items_cons_inv (h : items (t :: ts) = some (xs, us)) :
    t = .quote ∧ xs = [] ∨
      ∃ x ys, t.item = some x ∧ items ts = some (ys, us) ∧ xs = x :: ys := by
  by_cases hquote : t = .quote
  · subst hquote
    cases h
    exact .inl ⟨rfl, rfl⟩
  · right
    cases hitem : t.item with
    | none =>
      rw [items, hitem] at h
      · cases h
      · exact hquote
    | some x =>
      rw [items_cons hitem] at h
      obtain ⟨⟨ys, vs⟩, hys, heq⟩ := Option.map_eq_some_iff.1 h
      cases heq
      exact ⟨x, ys, rfl, hys, rfl⟩

theorem mem_items (h : items ts = some (xs, us)) : ∀ x ∈ xs, ∃ t ∈ ts, t.item = some x := by
  induction ts generalizing xs with
  | nil => cases h
  | cons t ts ih =>
    intro x hx
    rcases items_cons_inv h with ⟨-, rfl⟩ | ⟨y, ys, hy, hys, rfl⟩
    · cases hx
    · rcases List.mem_cons.1 hx with rfl | hx
      · exact ⟨t, .head _, hy⟩
      · obtain ⟨u, hu, hitem⟩ := ih hys x hx
        exact ⟨u, .tail _ hu, hitem⟩

end Items

/-! ### Texts of words -/

section Texts

variable {s : Setting} {w x text rest : List Char} {ws : List (List Char)} {us : List Token}

theorem isSpacing_iff {c : Char} : isSpacing c = true ↔ isBlank c = true ∨ c = '\n' := by
  rw [isSpacing, Bool.or_eq_true, decide_eq_true_iff]

theorem isExprChar_of_isSpacing {c : Char} (h : isSpacing c = true) : isExprChar c = false := by
  rcases isSpacing_iff.1 h with h | rfl
  · exact isExprChar_of_isBlank h
  · decide

theorem ends_of_spacing (h : ∀ c ∈ rest.head?, isSpacing c = true) : Ends (rest ++ '"' :: x) := by
  cases rest with
  | nil => exact ends_cons (by decide)
  | cons c rest => exact ends_cons (isExprChar_of_isSpacing (h c rfl))

theorem gap_of_spacing {g : List Char} (hg : ∀ c ∈ g, isSpacing c = true) : Gap g := by
  induction g with
  | nil => exact .nil
  | cons c g ih =>
    have hrest := ih fun d hd => hg d (.tail _ hd)
    rcases isSpacing_iff.1 (hg c (.head _)) with hc | rfl
    · exact .blank hc hrest
    · exact .newline hrest

/-- The items of a text of plain words are the words. -/
theorem Spaced.items (htext : Spaced ws text) (hws : ∀ w ∈ ws, Plain w) :
    Honeybrid.items (lex (text ++ '"' :: rest)) = some (ws, lex rest) := by
  induction htext with
  | nil hg =>
    rw [lex_gap (gap_of_spacing hg), lex_quote]
    rfl
  | @cons g w text ws hg hsep _ ih =>
    obtain ⟨t, hlex, hitem⟩ := (hws w (.head _)).lex (ends_of_spacing (x := rest) hsep)
    rw [List.append_assoc, lex_gap (gap_of_spacing hg), List.append_assoc, hlex, items_cons hitem,
      ih fun v hv => hws v (.tail _ hv)]
    rfl

theorem Spaced.blank (htext : Spaced ws text) : Spaced ws (' ' :: text) := by
  have hcons {g : List Char} (hg : ∀ c ∈ g, isSpacing c = true) :
      ∀ c ∈ ' ' :: g, isSpacing c = true := by
    intro c hc
    rcases List.mem_cons.1 hc with rfl | hc
    · rfl
    · exact hg c hc
  cases htext with
  | nil hg => exact .nil (hcons hg)
  | cons hg hsep htext => exact .cons (hcons hg) hsep htext

/-- What follows a word in the text with one blank between the words. -/
theorem intercalate_cons (w : List Char) (ws : List (List Char)) :
    ∃ text, [' '].intercalate (w :: ws) = w ++ text ∧ (∀ c ∈ text.head?, isSpacing c = true) ∧
      (text = [' '].intercalate ws ∨ text = ' ' :: [' '].intercalate ws) := by
  cases ws with
  | nil => exact ⟨[], by rw [List.intercalate_singleton, List.append_nil], by simp, .inl rfl⟩
  | cons v ws =>
    refine ⟨' ' :: [' '].intercalate (v :: ws), ?_, ?_, .inr rfl⟩
    · rw [List.intercalate_cons_cons, List.append_assoc]
      rfl
    · rintro c ⟨rfl⟩
      rfl

theorem spaced_intercalate (ws : List (List Char)) : Spaced ws ([' '].intercalate ws) := by
  induction ws with
  | nil => exact .nil (by simp)
  | cons w ws ih =>
    obtain ⟨text, hcons, hsep, htext⟩ := intercalate_cons w ws
    have hspaced : Spaced ws text := by
      rcases htext with rfl | rfl
      · exact ih
      · exact ih.blank
    rw [hcons]
    exact .cons (g := []) (by simp) hsep hspaced

theorem IsWord.notMem {c : Char} (hw : IsWord w) (hc : isExprChar c = false) (heq : c ≠ '=') :
    c ∉ w := by
  intro hmem
  rcases hw.chars c hmem with h | h
  · rw [hc] at h
    cases h
  · exact heq h

theorem IsWord.line (hw : IsWord w) : ∀ c ∈ w, c ≠ '\n' := by
  rintro c hc rfl
  exact hw.notMem (by decide) (by decide) hc

/-- The words and their blanks stand in one line. -/
theorem intercalate_line (hws : ∀ w ∈ ws, IsWord w) : ∀ c ∈ [' '].intercalate ws, c ≠ '\n' := by
  induction ws with
  | nil =>
    intro c hc
    cases hc
  | cons w ws ih =>
    obtain ⟨text, hcons, -, htext⟩ := intercalate_cons w ws
    have hrest := ih fun v hv => hws v (.tail _ hv)
    intro c hc
    rw [hcons] at hc
    rcases List.mem_append.1 hc with hc | hc
    · exact (hws w (.head _)).line c hc
    · rcases htext with rfl | rfl
      · exact hrest c hc
      · rcases List.mem_cons.1 hc with rfl | hc
        · decide
        · exact hrest c hc

/-- Words that are the items of their text are plain. -/
theorem plain_of_items (hws : ∀ w ∈ ws, IsWord w) (hx : ∀ c ∈ x, c ≠ '\n')
    (h : items (lex ([' '].intercalate ws ++ '"' :: x)) = some (ws, us)) : ∀ w ∈ ws, Plain w := by
  induction ws with
  | nil => exact fun w hw => absurd hw List.not_mem_nil
  | cons w ws ih =>
    have hline : ∀ c ∈ [' '].intercalate (w :: ws) ++ '"' :: x, c ≠ '\n' := by
      intro c hc
      rcases List.mem_append.1 hc with hc | hc
      · exact intercalate_line hws c hc
      · rcases List.mem_cons.1 hc with rfl | hc
        · decide
        · exact hx c hc
    obtain ⟨text, hcons, hsep, htext⟩ := intercalate_cons w ws
    have hends := ends_of_spacing (x := x) hsep
    rw [hcons, List.append_assoc] at h hline
    cases hlex : lex (w ++ (text ++ '"' :: x)) with
    | nil =>
      rw [hlex] at h
      cases h
    | cons t ts =>
      rw [hlex] at h
      rcases items_cons_inv h with ⟨-, hnil⟩ | ⟨y, ys, hitem, hys, heq⟩
      · cases hnil
      cases heq
      have hplain : Plain w :=
        plain_of_item (hws w (.head _)) hends (by simp) hline hlex hitem
      -- the tokens after those of the word are those of the other words
      obtain ⟨u, hword, -⟩ := hplain.lex hends
      obtain ⟨-, rfl⟩ := List.cons.inj (hlex.symm.trans hword)
      have hrest : lex (text ++ '"' :: x) = lex ([' '].intercalate ws ++ '"' :: x) := by
        rcases htext with rfl | rfl
        · rfl
        · exact lex_blank rfl
      rw [hrest] at hys
      intro v hv
      rcases List.mem_cons.1 hv with rfl | hv
      · exact hplain
      · exact ih (fun v hv => hws v (.tail _ hv)) hys v hv

/-! ### Settings -/

theorem Setting.parse_opening (s : Setting) (ts : List Token) :
    s.parse (s.opening ++ .quote :: ts) = quotedEquation (.quote :: ts) := by
  rw [Setting.parse, if_pos (List.prefix_append _ _), List.drop_left]

theorem quotedEquation_iff {ts : List Token} :
    quotedEquation (.quote :: ts) = some (x, us) ↔
      equation [] ts = some (x, .semicolon :: us) := by
  rw [quotedEquation]
  constructor
  · intro h
    split at h
    · rename_i heq
      cases h
      exact heq
    · cases h
  · intro h
    rw [h]

/-- The tokens before the quote. -/
theorem Lead.lex (hx : Lead s x) :
    Honeybrid.lex (x ++ '"' :: rest) = s.opening ++ .quote :: Honeybrid.lex rest := by
  have hquote : Ends ('"' :: rest) := ends_cons (by decide)
  cases hx with
  | handler hg => exact lex_gap hg
  | @keyword s k g₀ g₁ hs h₀ h₁ =>
    rw [List.append_assoc, List.append_assoc, lex_gap h₀,
      lex_lexeme (keyword_lexeme k) (h₁.ends hquote), tokenOf_keyword, lex_gap h₁, lex_quote, hs]
    rfl
  | @filter g₀ g₁ g₂ h₀ h₁ h₂ =>
    simp only [List.append_assoc, List.cons_append]
    rw [lex_gap h₀, lex_lexeme (keyword_lexeme _) (h₁.ends (ends_cons (by decide))),
      tokenOf_keyword, lex_gap h₁, lex_eq, lex_gap h₂, lex_quote]
    rfl

theorem exists_lead (s : Setting) : ∃ x, Lead s x := by
  cases s with
  | handler => exact ⟨[], .handler .nil⟩
  | filter => exact ⟨_, .filter .nil .nil .nil⟩
  | backpick | internet | intralan => exact ⟨_, .keyword rfl .nil .nil⟩

end Texts

/-- **Texts of filters and rules.** Words come out of the quotes of a setting as they were written,
with one blank between them, exactly if each is plain: `=` alone, or a word without `=` that does
not start a comment, is no keyword and, if it is a number, is below `2 ^ 31` and has no leading
zeros. -/
theorem survives_iff {s : Setting} {ws : List (List Char)} (hws : ∀ w ∈ ws, IsWord w) :
    Survives s ws ↔ ∀ w ∈ ws, Plain w := by
  have hnonempty : ∀ w ∈ ws, w ≠ [] := fun w hw => (hws w hw).nonempty
  constructor
  · intro h
    obtain ⟨lead, hlead⟩ := exists_lead s
    have hparse := h lead _ [] [] hlead (spaced_intercalate ws) .nil
    rw [hlead.lex, s.parse_opening, quotedEquation_iff, equation_eq] at hparse
    obtain ⟨⟨xs, us⟩, hitems, heq⟩ := Option.map_eq_some_iff.1 hparse
    have hxs : ∀ x ∈ xs, x ≠ [] ∧ ' ' ∉ x := by
      intro x hx
      obtain ⟨t, ht, hitem⟩ := mem_items hitems x hx
      exact item_of_mem_lex ht hitem
    have htext : xs.foldl appendItem [] = [' '].intercalate ws := congrArg Prod.fst heq
    rw [foldl_appendItem_nil fun x hx => (hxs x hx).1] at htext
    have hblank : ∀ w ∈ ws, w ≠ [] ∧ ' ' ∉ w :=
      fun w hw => ⟨hnonempty w hw, (hws w hw).notMem (by decide) (by decide)⟩
    rw [intercalate_inj hxs hblank htext] at hitems
    exact plain_of_items hws (by simp) hitems
  · intro hplain lead text g rest hlead htext hg
    rw [hlead.lex, s.parse_opening, quotedEquation_iff, equation_eq, htext.items hplain,
      Option.map_some, foldl_appendItem_nil hnonempty, lex_gap hg, lex_semicolon]

namespace Sample

theorem isWord {w : List Char} (hne : w ≠ []) (hw : w.all isExprChar = true) : IsWord w :=
  ⟨hne, fun c hc => .inl (List.all_eq_true.1 hw c hc)⟩

theorem plain {w : List Char} (hw : Word w) : Plain w :=
  .inr ⟨hw.toLexeme, hw.notKeyword, fun h => absurd (List.all_eq_true.1 h) hw.notNumber⟩

end Sample

/-- The filter `tcp port 80`. -/
theorem survives_port : Survives .filter ["tcp".toList, "port".toList, "80".toList] := by
  have hws : ∀ w ∈ ["tcp".toList, "port".toList, "80".toList], IsWord w := by
    simp only [List.forall_mem_cons, List.not_mem_nil, false_implies, implies_true, and_true]
    exact ⟨Sample.isWord (by decide) (by decide), Sample.isWord (by decide) (by decide),
      Sample.isWord (by decide) (by decide)⟩
  have h80 : Numeral "80".toList := ⟨by decide, List.all_eq_true.1 (by decide)⟩
  refine (survives_iff hws).2 ?_
  simp only [List.forall_mem_cons, List.not_mem_nil, false_implies, implies_true, and_true]
  exact ⟨Sample.plain (Sample.word_iff (s := "tcp") (by decide)),
    Sample.plain (Sample.word_iff (s := "port") (by decide)),
    .inr ⟨h80.operand.toLexeme, h80.operand.notKeyword,
      fun _ => ⟨h80, by decide, .inr (by decide)⟩⟩⟩

/-- The filter `src host 10.0.0.1` is a syntax error, because `src` is a keyword. -/
theorem survives_broken : ¬∀ (s : Setting) (ws : List (List Char)), (∀ w ∈ ws, IsWord w) →
    Survives s ws := by
  intro hall
  let ws := ["src".toList, "host".toList, "10.0.0.1".toList]
  have hws : ∀ w ∈ ws, IsWord w := by
    simp only [ws, List.forall_mem_cons, List.not_mem_nil, false_implies, implies_true, and_true]
    exact ⟨Sample.isWord (by decide) (by decide), Sample.isWord (by decide) (by decide),
      Sample.isWord (by decide) (by decide)⟩
  have hspaced : Spaced ws "src host 10.0.0.1".toList := spaced_intercalate ws
  have hlead : Lead .filter "filter =".toList :=
    @Lead.filter [] [' '] [] .nil (.blank rfl .nil) .nil
  have hparse := hall .filter ws hws _ _ [] [] hlead hspaced .nil
  have herror : Setting.filter.parse (lex "filter =\"src host 10.0.0.1\";".toList) = none := by
    decide +kernel
  exact absurd (herror.symm.trans hparse) (by simp)

end Honeybrid
