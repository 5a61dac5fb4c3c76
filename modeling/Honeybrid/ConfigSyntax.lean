import Mathlib.Algebra.Group.Int.Defs
import Mathlib.Algebra.Group.Nat.Defs
import Mathlib.Data.Fintype.Basic
import Honeybrid.Lib.Scanner

/-!
# The lexer of the configuration language

The rules of `config_syntax.l`, in their order, and the tokens they make of a text. A lexeme of
letters, digits and the signs of expressions is a number, a keyword, a word or an expression; which
one depends on the order of the rules where several match equally long.

## Main definitions

* `Keyword`, `Token`: what the lexer returns.
* `atoi`: the function of the C library, over the octets of a string.
* `lexRules`, `lex`: the rules, and the tokens of a text.
* `tokenOf`: the token of a lexeme.
* `Gap`, `Comment`, `Skipped`: what is skipped between lexemes.

## Main results

* `lex_lexeme`: a lexeme that ends before another sign gives its token.
* `lex_gap`, `lex_skipped`: gaps and comments are skipped.
-/

namespace Honeybrid

/-! ### Numbers in strings -/

/-- The octets that `isspace` accepts. -/
def isSpace (b : BitVec 8) : Bool :=
  b = 32 ∨ (9 ≤ b ∧ b ≤ 13)

/-- The octets that `isdigit` accepts. -/
def isDigit (b : BitVec 8) : Bool :=
  48 ≤ b ∧ b ≤ 57

/-- The number that a string of digits denotes. -/
def digitsValue (ds : List (BitVec 8)) : ℕ :=
  ds.foldl (fun n d => 10 * n + (d.toNat - 48)) 0

/-- `strtol` with base 10: blanks, a sign and digits, and the nearest `long` if the number is out of
range. -/
def strtol (bs : List (BitVec 8)) : ℤ :=
  match bs.dropWhile isSpace with
  | [] => 0
  | b :: ds =>
    if b = 45 then max (-(digitsValue (ds.takeWhile isDigit) : ℤ)) (-2 ^ 63)
    else if b = 43 then min (digitsValue (ds.takeWhile isDigit)) (2 ^ 63 - 1)
    else min (digitsValue ((b :: ds).takeWhile isDigit)) (2 ^ 63 - 1)

/-- `atoi`: the result of `strtol` as an `int`. -/
def atoi (bs : List (BitVec 8)) : BitVec 32 :=
  BitVec.ofInt 32 (strtol bs)

/-- The octet of a character. -/
def octet (c : Char) : BitVec 8 :=
  BitVec.ofNat 8 c.toNat

section

variable {ds ys : List (BitVec 8)}

theorem digitsValue_lt (h : ∀ d ∈ ds, isDigit d = true) : digitsValue ds < 10 ^ ds.length := by
  have hfold (n : ℕ) :
      ds.foldl (fun n d => 10 * n + (d.toNat - 48)) n < (n + 1) * 10 ^ ds.length := by
    induction ds generalizing n with
    | nil => simp
    | cons d ds ih =>
      have hd : d.toNat - 48 ≤ 9 := by
        have hdigit := h d (.head _)
        simp only [isDigit, decide_eq_true_eq] at hdigit
        have h57 : d.toNat ≤ 57 := hdigit.2
        omega
      calc (d :: ds).foldl (fun n d => 10 * n + (d.toNat - 48)) n
          < (10 * n + (d.toNat - 48) + 1) * 10 ^ ds.length :=
            ih (fun d hd => h d (.tail _ hd)) _
        _ ≤ ((n + 1) * 10) * 10 ^ ds.length := Nat.mul_le_mul_right _ (by omega)
        _ = (n + 1) * 10 ^ (d :: ds).length := by
          rw [List.length_cons, Nat.pow_succ', Nat.mul_assoc]
  simpa only [digitsValue, Nat.zero_add, Nat.one_mul] using hfold 0

theorem takeWhile_digitsValue_lt (ds : List (BitVec 8)) :
    digitsValue (ds.takeWhile isDigit) < 10 ^ ds.length :=
  calc digitsValue (ds.takeWhile isDigit)
      < 10 ^ (ds.takeWhile isDigit).length :=
        digitsValue_lt fun _ hd => (List.all_eq_true.1 List.all_takeWhile _ hd)
    _ ≤ 10 ^ ds.length :=
        Nat.pow_le_pow_right (by decide) (List.takeWhile_sublist _).length_le

/-- A short string denotes a small number. -/
theorem strtol_natAbs_lt (bs : List (BitVec 8)) : (strtol bs).natAbs < 10 ^ bs.length := by
  have hdrop : (bs.dropWhile isSpace).length ≤ bs.length := (List.dropWhile_sublist _).length_le
  unfold strtol
  split
  · exact Nat.pow_pos (by decide)
  · rename_i b ds hds
    rw [hds, List.length_cons] at hdrop
    have hpow : 10 ^ ds.length ≤ 10 ^ bs.length := Nat.pow_le_pow_right (by decide) (by omega)
    have hpow' : 10 ^ (b :: ds).length ≤ 10 ^ bs.length :=
      Nat.pow_le_pow_right (by decide) (by rw [List.length_cons]; omega)
    have hlt := takeWhile_digitsValue_lt ds
    have hlt' := takeWhile_digitsValue_lt (b :: ds)
    split_ifs
    · omega
    · omega
    · omega

theorem takeWhile_nul (p : BitVec 8 → Bool) (hp : p 0 = false) (ds : List (BitVec 8)) :
    (ds ++ 0 :: ys).takeWhile p = ds.takeWhile p := by
  induction ds with
  | nil => rw [List.nil_append, List.takeWhile_cons, hp, List.takeWhile_nil]; rfl
  | cons d ds ih =>
    rw [List.cons_append, List.takeWhile_cons, List.takeWhile_cons, ih]

/-- A string ends at its first zero octet. -/
theorem strtol_nul (bs : List (BitVec 8)) : strtol (bs ++ 0 :: ys) = strtol bs := by
  have hdigit : isDigit 0 = false := by decide
  have hspace : isSpace 0 = false := by decide
  induction bs with
  | nil =>
    unfold strtol
    rw [List.nil_append, List.dropWhile_cons, hspace]
    rfl
  | cons b bs ih =>
    by_cases hb : isSpace b = true
    · have hskip (xs : List (BitVec 8)) : strtol (b :: xs) = strtol xs := by
        unfold strtol
        rw [List.dropWhile_cons, if_pos hb]
      rw [List.cons_append, hskip, hskip, ih]
    · unfold strtol
      rw [List.cons_append, List.dropWhile_cons, List.dropWhile_cons, if_neg hb, if_neg hb]
      dsimp only
      rw [takeWhile_nul _ hdigit, ← List.cons_append, takeWhile_nul _ hdigit]

end

/-! ### Tokens -/

/-- The keywords of `config_syntax.l`. -/
inductive Keyword
  | config | target | module | frontend | backend | internet | backpick | link | filter | hw | vlan
  | default | route | via | netmask | internal | with | exclusive | intralan | src
  deriving DecidableEq, Repr

namespace Keyword

/-- The lexeme of a keyword. -/
def text : Keyword → String
  | config => "config"
  | target => "target"
  | module => "module"
  | frontend => "frontend"
  | backend => "backend"
  | internet => "internet"
  | backpick => "backpick"
  | link => "link"
  | filter => "filter"
  | hw => "hw"
  | vlan => "vlan"
  | default => "default"
  | route => "route"
  | via => "via"
  | netmask => "netmask"
  | internal => "internal"
  | «with» => "with"
  | exclusive => "exclusive"
  | intralan => "intralan"
  | src => "src"

/-- The keywords, in the order of their rules. -/
def all : List Keyword :=
  [config, target, module, frontend, backend, internet, backpick, link, filter, hw, vlan, default,
    route, via, netmask, internal, «with», exclusive, intralan, src]

end Keyword

/-- The tokens of `config_rules.y`. -/
inductive Token
  | keyword (k : Keyword)
  | «open» | «end» | semicolon | quote | eq
  | number (n : BitVec 32)
  | word (s : String)
  | expr (s : String)
  deriving DecidableEq, Repr

/-! ### Rules -/

/-- `[a-zA-Z0-9_-]` -/
def isWordChar (c : Char) : Bool :=
  c.isAlpha || c.isDigit || c = '_' || c = '-'

/-- `[a-zA-Z0-9()<>|&^!\/._\:\-]` -/
def isExprChar (c : Char) : Bool :=
  isWordChar c || "()<>|&^!/.:".toList.contains c

/-- `[ \t]` -/
def isBlank (c : Char) : Bool :=
  c = ' ' || c = '\t'

/-- The token of a string of digits, which `atoi` reads. -/
def number (x : List Char) : Token :=
  .number (atoi (x.map octet))

open Scanner in
/-- The rules for keywords and delimiters. -/
def fixedRules : List (Rule Char Token) :=
  Keyword.all.map (fun k => literal k.text.toList (some (.keyword k))) ++
    [literal ['\x7b'] (some .open), literal ['\x7d'] (some .end), literal [';'] (some .semicolon),
      literal ['"'] (some .quote), literal ['='] (some .eq)]

open Scanner in
/-- The rules of `config_syntax.l`. -/
def lexRules : List (Rule Char Token) :=
  fixedRules ++
    [span Char.isDigit fun x => some (number x),
      span isWordChar fun x => some (.word (String.ofList x)),
      span isExprChar fun x => some (.expr (String.ofList x)),
      comment ['/', '/'] (· ≠ '\n'), comment ['#'] (· ≠ '\n'), literal ['\n'] none,
      span isBlank fun _ => none]

/-- The tokens of a text. -/
def lex (text : List Char) : List Token :=
  Scanner.scan lexRules text

example : lex "value = 10;".toList = [.word "value", .eq, .number 10, .semicolon] := by
  decide +kernel

/-! ### Lexemes -/

/-- A lexeme of letters, digits and the signs of expressions that does not start a comment. -/
structure Lexeme (x : List Char) : Prop where
  nonempty : x ≠ []
  chars : ∀ c ∈ x, isExprChar c = true
  plain : ¬['/', '/'] <+: x

/-- The text ends, or goes on with another sign. -/
def Ends (rest : List Char) : Prop :=
  ∀ c ∈ rest.head?, isExprChar c = false

/-- The keyword of a lexeme, if it is one. -/
def keywordOf (x : List Char) : Option Keyword :=
  Keyword.all.find? fun k => k.text.toList = x

/-- The token of a lexeme. -/
def tokenOf (x : List Char) : Token :=
  match keywordOf x with
  | some k => .keyword k
  | none =>
    if x.all Char.isDigit then number x
    else if x.all isWordChar then .word (String.ofList x)
    else .expr (String.ofList x)

/-- What is skipped also next to a lexeme: blanks, ends of lines, and `#` with the rest of its
line. -/
inductive Gap : List Char → Prop
  | nil : Gap []
  | blank {c : Char} {g : List Char} (hc : isBlank c = true) (hg : Gap g) : Gap (c :: g)
  | newline {g : List Char} (hg : Gap g) : Gap ('\n' :: g)
  | comment {x g : List Char} (hx : ∀ c ∈ x, c ≠ '\n') (hg : Gap g) : Gap ('#' :: x ++ '\n' :: g)

/-- The text of a comment. After `//` there has to be a sign that no expression has: else the rule
for expressions matches as much, and stands before the one for comments. -/
inductive Comment : List Char → Prop
  | hash {x : List Char} (hx : ∀ c ∈ x, c ≠ '\n') : Comment ('#' :: x)
  | slashes {x : List Char} (hx : ∀ c ∈ x, c ≠ '\n') (hsign : ∃ c ∈ x, isExprChar c = false) :
      Comment ('/' :: '/' :: x)

/-- What is skipped: gaps and comments to the ends of their lines. -/
inductive Skipped : List Char → Prop
  | gap {g : List Char} (hg : Gap g) : Skipped g
  | comment {g x h : List Char} (hg : Gap g) (hx : Comment x) (hh : Skipped h) :
      Skipped (g ++ (x ++ '\n' :: h))

section

open Scanner

variable {x rest : List Char}

theorem isExprChar_of_isWordChar {c : Char} (h : isWordChar c = true) : isExprChar c = true := by
  simp [isExprChar, h]

theorem isWordChar_of_isDigit {c : Char} (h : c.isDigit = true) : isWordChar c = true := by
  simp [isWordChar, h]

theorem isExprChar_of_isBlank {c : Char} (h : isBlank c = true) : isExprChar c = false := by
  obtain rfl | rfl : c = ' ' ∨ c = '\t' := by simpa [isBlank] using h
  · decide
  · decide

theorem keyword_chars (k : Keyword) : ∀ c ∈ k.text.toList, isExprChar c = true := by
  rw [← List.all_eq_true]
  cases k <;> decide

theorem keyword_lexeme (k : Keyword) : Lexeme k.text.toList where
  nonempty := by cases k <;> decide
  chars := keyword_chars k
  plain := by cases k <;> decide

theorem tokenOf_keyword (k : Keyword) : tokenOf k.text.toList = .keyword k := by
  cases k <;> decide

theorem Ends.word (h : Ends rest) : ∀ c ∈ rest.head?, isWordChar c = false := by
  intro c hc
  rw [Bool.eq_false_iff]
  intro hw
  exact absurd (isExprChar_of_isWordChar hw) (Bool.eq_false_iff.1 (h c hc))

theorem Ends.digit (h : Ends rest) : ∀ c ∈ rest.head?, c.isDigit = false := by
  intro c hc
  rw [Bool.eq_false_iff]
  intro hd
  exact absurd (isWordChar_of_isDigit hd) (Bool.eq_false_iff.1 (h.word c hc))

/-- The other signs do not stand at a lexeme. -/
theorem Lexeme.not_prefix {d : Char} (hx : Lexeme x) (hd : isExprChar d = false) :
    ¬[d] <+: x ++ rest := by
  refine not_prefix_of_head (fun h => ?_) (List.cons_ne_nil _ _)
  cases x with
  | nil => exact hx.nonempty rfl
  | cons c x =>
    cases h
    rw [hx.chars d (.head _)] at hd
    cases hd

theorem Lexeme.not_comment (hx : Lexeme x) (he : Ends rest) : ¬['/', '/'] <+: x ++ rest :=
  fun h => hx.plain (prefix_of_prefix_append (List.all_eq_true.1 (by decide)) he h)

/-- No rule matches more than the lexeme. -/
theorem Lexeme.length_le (hx : Lexeme x) (he : Ends rest) :
    ∀ q ∈ lexRules, q.length (x ++ rest) ≤ x.length := by
  have hsign {d : Char} {t : Option Token} (hd : isExprChar d = false) :
      (literal [d] t).length (x ++ rest) ≤ x.length := by
    rw [literal_length_zero (hx.not_prefix hd)]
    exact Nat.zero_le _
  have hblank : (x ++ rest).takeWhile isBlank = [] := by
    cases x with
    | nil => exact absurd rfl hx.nonempty
    | cons c x =>
      have hc : isBlank c = false := by
        rw [Bool.eq_false_iff]
        intro hb
        exact absurd (hx.chars c (.head _)) (Bool.eq_false_iff.1 (isExprChar_of_isBlank hb))
      rw [List.cons_append, List.takeWhile_cons, hc]
      rfl
  intro q hq
  simp only [lexRules, fixedRules, List.append_assoc, List.mem_append, List.mem_map, List.mem_cons,
    List.not_mem_nil, or_false] at hq
  obtain ⟨k, -, rfl⟩ | (rfl | rfl | rfl | rfl | rfl) | rfl | rfl | rfl | rfl | rfl | rfl | rfl := hq
  · exact literal_length_le (keyword_chars k) he
  · exact hsign (by decide)
  · exact hsign (by decide)
  · exact hsign (by decide)
  · exact hsign (by decide)
  · exact hsign (by decide)
  · exact takeWhile_append_length_le he.digit
  · exact takeWhile_append_length_le he.word
  · exact takeWhile_append_length_le he
  · rw [comment_length_zero (hx.not_comment he)]
    exact Nat.zero_le _
  · rw [comment_length_zero (hx.not_prefix (by decide))]
    exact Nat.zero_le _
  · exact hsign (by decide)
  · show ((x ++ rest).takeWhile isBlank).length ≤ x.length
    rw [hblank]
    exact Nat.zero_le _

/-- A rule that matches the lexeme, and before which no rule does, gives the token. -/
theorem Lexeme.lex_of_rule (before : List (Rule Char Token)) {after : List (Rule Char Token)}
    {r : Rule Char Token} (hx : Lexeme x) (he : Ends rest)
    (hrules : lexRules = before ++ r :: after)
    (hr : r.length (x ++ rest) = x.length)
    (hbefore : ∀ q ∈ before, q.length (x ++ rest) < x.length) :
    lex (x ++ rest) = (r.token x).toList ++ lex rest := by
  refine scan_append ?_ hr
  rw [hrules]
  refine pick_eq ?_ (fun q hq => ?_) fun q hq => ?_
  · rw [hr]
    exact List.length_pos_iff.2 hx.nonempty
  · rw [hr]
    exact hbefore q hq
  · rw [hr]
    refine hx.length_le he q ?_
    rw [hrules]
    exact List.mem_append_right _ (.tail _ hq)

/-- No keyword and no delimiter is a lexeme that is not a keyword. -/
theorem Lexeme.fixed_lt (hx : Lexeme x) (he : Ends rest) (hk : keywordOf x = none) :
    ∀ q ∈ fixedRules, q.length (x ++ rest) < x.length := by
  have hpos := List.length_pos_iff.2 hx.nonempty
  intro q hq
  rw [fixedRules, List.mem_append, List.mem_map] at hq
  obtain ⟨k, hmem, rfl⟩ | hq := hq
  · refine literal_length_lt (keyword_chars k) he hx.nonempty ?_
    rw [keywordOf, List.find?_eq_none] at hk
    simpa using hk k hmem
  · have hsign {d : Char} {t : Option Token} (hd : isExprChar d = false) :
        (literal [d] t).length (x ++ rest) < x.length := by
      rw [literal_length_zero (hx.not_prefix hd)]
      exact hpos
    simp only [List.mem_cons, List.not_mem_nil, or_false] at hq
    obtain rfl | rfl | rfl | rfl | rfl := hq
    · exact hsign (by decide)
    · exact hsign (by decide)
    · exact hsign (by decide)
    · exact hsign (by decide)
    · exact hsign (by decide)

/-- The rule of a keyword stands before the rules for its letters. -/
theorem Lexeme.lex_keyword {k : Keyword} (hx : Lexeme x) (he : Ends rest)
    (hk : keywordOf x = some k) : lex (x ++ rest) = .keyword k :: lex rest := by
  obtain ⟨htext, as, bs, hall, has⟩ := List.find?_eq_some_iff_append.1 hk
  have htext : k.text.toList = x := of_decide_eq_true htext
  let rule (k : Keyword) : Rule Char Token := literal k.text.toList (some (.keyword k))
  have hrules : lexRules = as.map rule ++ rule k :: (bs.map rule ++ lexRules.drop 20) := by
    show Keyword.all.map rule ++ _ = _
    rw [hall, List.map_append, List.map_cons, List.append_assoc]
    rfl
  refine hx.lex_of_rule _ he hrules ?_ fun q hq => ?_
  · show (if k.text.toList <+: x ++ rest then k.text.toList.length else 0) = x.length
    rw [htext, if_pos (List.prefix_append x rest)]
  · obtain ⟨k', hmem, rfl⟩ := List.mem_map.1 hq
    refine literal_length_lt (keyword_chars k') he hx.nonempty ?_
    simpa using has k' hmem

/-- **Lexemes.** A lexeme before another sign gives its token: a keyword, a number if it has only
digits, and else a word or an expression. -/
theorem lex_lexeme (hx : Lexeme x) (he : Ends rest) : lex (x ++ rest) = tokenOf x :: lex rest := by
  cases hk : keywordOf x with
  | some k =>
    rw [hx.lex_keyword he hk, tokenOf, hk]
  | none =>
    have hfixed := hx.fixed_lt he hk
    simp only [tokenOf, hk, List.all_eq_true]
    split_ifs with hd hw
    · exact hx.lex_of_rule fixedRules he rfl
        (congrArg List.length (takeWhile_append_of_all hd he.digit)) hfixed
    · refine hx.lex_of_rule (fixedRules ++ [span Char.isDigit fun x => some (number x)]) he rfl
        (congrArg List.length (takeWhile_append_of_all hw he.word)) fun q hq => ?_
      obtain hq | hq := List.mem_append.1 hq
      · exact hfixed q hq
      · cases List.mem_singleton.1 hq
        exact takeWhile_append_length_lt hd
    · refine hx.lex_of_rule (fixedRules ++ [span Char.isDigit fun x => some (number x),
        span isWordChar fun x => some (.word (String.ofList x))]) he rfl
        (congrArg List.length (takeWhile_append_of_all hx.chars he)) fun q hq => ?_
      obtain hq | hq := List.mem_append.1 hq
      · exact hfixed q hq
      · obtain rfl | hq := List.mem_cons.1 hq
        · exact takeWhile_append_length_lt hd
        · cases List.mem_singleton.1 hq
          exact takeWhile_append_length_lt hw

theorem lex_open : lex ('\x7b' :: rest) = .open :: lex rest :=
  rfl

theorem lex_end : lex ('\x7d' :: rest) = .end :: lex rest :=
  rfl

theorem lex_semicolon : lex (';' :: rest) = .semicolon :: lex rest :=
  rfl

theorem lex_quote : lex ('"' :: rest) = .quote :: lex rest :=
  rfl

theorem lex_eq : lex ('=' :: rest) = .eq :: lex rest :=
  rfl

theorem lex_newline : lex ('\n' :: rest) = lex rest :=
  rfl

/-- A lexeme that is matched by one rule only. -/
theorem lex_of_only (n : ℕ) {r : Rule Char Token} (hx : x ≠ [])
    (hrules : lexRules = lexRules.take n ++ r :: lexRules.drop (n + 1))
    (hr : r.length (x ++ rest) = x.length)
    (hbefore : ∀ q ∈ lexRules.take n, q.length (x ++ rest) = 0)
    (hafter : ∀ q ∈ lexRules.drop (n + 1), q.length (x ++ rest) = 0) :
    lex (x ++ rest) = (r.token x).toList ++ lex rest := by
  have hpos : 0 < r.length (x ++ rest) := by
    rw [hr]
    exact List.length_pos_iff.2 hx
  refine scan_append ?_ hr
  rw [hrules]
  refine pick_eq hpos (fun q hq => ?_) fun q hq => ?_
  · rw [hbefore q hq]
    exact hpos
  · rw [hafter q hq]
    exact Nat.zero_le _

/-- A blank starts a lexeme that is skipped. -/
theorem lex_blanks {c : Char} (hc : isBlank c = true) (rest : List Char) :
    lex (c :: rest) = lex (rest.dropWhile isBlank) := by
  have hx : c :: rest = (c :: rest.takeWhile isBlank) ++ rest.dropWhile isBlank := by
    rw [List.cons_append, List.takeWhile_append_dropWhile]
  have hzero : (lexRules.take 31).map (fun q => q.length (c :: rest)) = List.replicate 31 0 := by
    obtain rfl | rfl : c = ' ' ∨ c = '\t' := by simpa [isBlank] using hc
    · rfl
    · rfl
  rw [hx] at hzero ⊢
  refine lex_of_only 31 (List.cons_ne_nil _ _) rfl ?_ (List.map_eq_replicate_iff.1 hzero)
    fun q hq => by cases hq
  rw [← hx]
  show ((c :: rest).takeWhile isBlank).length = _
  rw [List.takeWhile_cons, hc, if_pos rfl]

/-- A blank is skipped, alone or with those after it. -/
theorem lex_blank {c : Char} (hc : isBlank c = true) : lex (c :: rest) = lex rest := by
  rw [lex_blanks hc]
  cases rest with
  | nil => rfl
  | cons d rest =>
    rw [List.dropWhile_cons]
    split
    · rename_i hd
      exact (lex_blanks hd rest).symm
    · rfl

/-- The text ends, or goes on with the next line. -/
def LineEnds (rest : List Char) : Prop :=
  ∀ c ∈ rest.head?, c = '\n'

theorem LineEnds.takeWhile (hend : LineEnds rest) (hx : ∀ c ∈ x, c ≠ '\n') :
    (x ++ rest).takeWhile (fun c => decide (c ≠ '\n')) = x :=
  takeWhile_append_of_all (fun c hc => decide_eq_true (hx c hc)) fun c hc => by
    rw [hend c hc]
    rfl

theorem lex_hash (hx : ∀ c ∈ x, c ≠ '\n') (hend : LineEnds rest) :
    lex ('#' :: x ++ rest) = lex rest := by
  have hbefore : (lexRules.take 29).map (fun q => q.length ('#' :: x ++ rest)) =
      List.replicate 29 0 :=
    rfl
  have hafter : (lexRules.drop 30).map (fun q => q.length ('#' :: x ++ rest)) =
      List.replicate 2 0 :=
    rfl
  refine lex_of_only 29 (List.cons_ne_nil _ _) rfl ?_ (List.map_eq_replicate_iff.1 hbefore)
    (List.map_eq_replicate_iff.1 hafter)
  show 1 + ((x ++ rest).takeWhile _).length = x.length + 1
  rw [hend.takeWhile hx, Nat.add_comm]

theorem lex_slashes (hx : ∀ c ∈ x, c ≠ '\n') (hsign : ∃ c ∈ x, isExprChar c = false)
    (hend : LineEnds rest) : lex ('/' :: '/' :: x ++ rest) = lex rest := by
  let r : Rule Char Token := comment ['/', '/'] (· ≠ '\n')
  have hlen : r.length ('/' :: '/' :: x ++ rest) = x.length + 2 := by
    show 2 + ((x ++ rest).takeWhile _).length = x.length + 2
    rw [hend.takeWhile hx, Nat.add_comm]
  have hbefore : (lexRules.take 27).map (fun q => q.length ('/' :: '/' :: x ++ rest)) =
      List.replicate 27 0 :=
    rfl
  have hafter : (lexRules.drop 29).map (fun q => q.length ('/' :: '/' :: x ++ rest)) =
      List.replicate 3 0 :=
    rfl
  have hexpr : (('/' :: '/' :: x ++ rest).takeWhile isExprChar).length <
      ('/' :: '/' :: x).length := by
    refine takeWhile_append_length_lt fun hall => ?_
    obtain ⟨c, hc, hno⟩ := hsign
    rw [hall c (.tail _ (.tail _ hc))] at hno
    cases hno
  have hrules : lexRules =
      (lexRules.take 27 ++ [span isExprChar fun x => some (.expr (String.ofList x))]) ++
        r :: lexRules.drop 29 :=
    rfl
  refine (scan_append (r := r) ?_ hlen).trans (List.nil_append _)
  rw [hrules]
  refine pick_eq (hlen ▸ Nat.succ_pos _) (fun q hq => ?_) fun q hq => ?_
  · rw [hlen]
    rcases List.mem_append.1 hq with hq | hq
    · rw [List.map_eq_replicate_iff.1 hbefore q hq]
      exact Nat.succ_pos _
    · cases List.mem_singleton.1 hq
      exact hexpr
  · rw [List.map_eq_replicate_iff.1 hafter q hq]
    exact Nat.zero_le _

/-- A comment is skipped up to the end of its line. -/
theorem lex_comment (hx : Comment x) (hend : LineEnds rest) : lex (x ++ rest) = lex rest := by
  cases hx with
  | hash hx => exact lex_hash hx hend
  | slashes hx hsign => exact lex_slashes hx hsign hend

theorem lineEnds_nil : LineEnds [] := by
  rintro c ⟨⟩

theorem lineEnds_newline : LineEnds ('\n' :: rest) := by
  rintro c ⟨rfl⟩
  rfl

/-- **Gaps.** Blanks, ends of lines and comments are skipped. -/
theorem lex_gap {g : List Char} (hg : Gap g) : lex (g ++ rest) = lex rest := by
  induction hg with
  | nil => rfl
  | blank hc _ ih => exact (lex_blank hc).trans ih
  | newline _ ih => exact lex_newline.trans ih
  | @comment x g hx _ ih =>
    rw [List.append_assoc]
    exact (lex_hash hx lineEnds_newline).trans (lex_newline.trans ih)

/-- What is skipped between the tokens of a file. -/
theorem lex_skipped {g : List Char} (hg : Skipped g) : lex (g ++ rest) = lex rest := by
  induction hg with
  | gap hg => exact lex_gap hg
  | comment hg hx _ ih =>
    rw [List.append_assoc, lex_gap hg, List.append_assoc, List.cons_append,
      lex_comment hx lineEnds_newline]
    exact lex_newline.trans ih

end

end Honeybrid
