import Honeybrid.EquationText
import Honeybrid.Lib.Splits
import Honeybrid.Rules

/-!
# The operators of a rule

`DE_create_tree` cuts the text of a rule at `\sOR\s`, and `DE_build_subtree` cuts each part at
`\sAND\s`, both in any case of the letters. The text is that which `equation` has put together, with
one blank between the words that were written between the quotes.

## Main definitions

* `Equation.ofText`: the parts of a text.
* `Equation.Written`: the words by which an equation is written.

## Main results

* `ofText_written`: the words of an equation are cut into it again.
* `rule_read`: however the words are laid out between the quotes, the rule is built from them.
-/

namespace Honeybrid

/-! ### Texts -/

/-- `\s` -/
def isRegexSpace (c : Char) : Bool :=
  c = ' ' || (9 ≤ c.toNat && c.toNat ≤ 13)

/-- The text is the name of the operator, in any case. -/
def isOperator (name : String) (x : List Char) : Bool :=
  x.map Char.toUpper = name.toList

/-- The pattern of an operator. -/
def operator (name : String) : List Char → ℕ :=
  Splits.around isRegexSpace name.toList.length (isOperator name)

/-- What `g_regex_split` cuts out of a part at the ANDs. -/
def Group.ofText (x : List Char) : Group :=
  match Splits.split (operator "AND") x with
  | [] => ⟨"", []⟩
  | y :: ys => ⟨String.ofList y, ys.map String.ofList⟩

/-- What `g_regex_split` cuts out of an equation at the ORs. There is nothing in an empty text, and
`DE_build_subtree` is called with a null pointer. -/
def Equation.ofText (x : List Char) : Option Equation :=
  if x = [] then none
  else
    match Splits.split (operator "OR") x with
    | [] => none
    | y :: ys => some ⟨Group.ofText y, ys.map Group.ofText⟩

example : Equation.ofText "a and b OR c".toList = some ⟨⟨"a", ["b"]⟩, [⟨"c", []⟩]⟩ := by
  decide +kernel

/-! ### Words -/

/-- The names of a group with ANDs between them. -/
def Group.Written (g : Group) (ws : List (List Char)) : Prop :=
  Splits.Joined (isOperator "AND") ((g.first :: g.rest).map fun name => [name.toList]) ws

/-- The groups of an equation with ORs between them. -/
def Equation.Written (e : Equation) (ws : List (List Char)) : Prop :=
  ∃ gs, List.Forall₂ Group.Written (e.first :: e.rest) gs ∧ Splits.Joined (isOperator "OR") gs ws

/-- A name that is a word and no operator. -/
structure IsName (name : String) : Prop where
  nonempty : name.toList ≠ []
  plain : ∀ c ∈ name.toList, isRegexSpace c = false
  notAnd : isOperator "AND" name.toList = false
  notOr : isOperator "OR" name.toList = false

/-- Every name of the equation is a word. -/
def Equation.Named (e : Equation) : Prop :=
  ∀ g ∈ e.first :: e.rest, ∀ name ∈ g.first :: g.rest, IsName name

section Words

variable {name : String} {x : List Char} {g : Group} {e : Equation} {ws : List (List Char)}

/-- An operator has no blank in it. -/
theorem isOperator_spec (hname : ∀ c ∈ name.toList, 65 ≤ c.toNat) (x : List Char)
    (h : isOperator name x = true) :
    x.length = name.toList.length ∧ ∀ c ∈ x, isRegexSpace c = false := by
  have hx : x.map Char.toUpper = name.toList := of_decide_eq_true h
  refine ⟨by rw [← hx, List.length_map], fun c hc => ?_⟩
  have hupper := hname c.toUpper (hx ▸ List.mem_map_of_mem hc)
  rw [Bool.eq_false_iff]
  intro hspace
  have hlow : c.toNat ≤ 32 := by
    simp only [isRegexSpace, Bool.or_eq_true, Bool.and_eq_true, decide_eq_true_eq] at hspace
    rcases hspace with rfl | ⟨-, hle⟩
    · decide
    · omega
  have hsame : c.toUpper = c := by
    refine dif_neg fun h => ?_
    have ha : 97 ≤ c.toNat := h.1
    omega
  rw [hsame] at hupper
  omega

theorem operator_and (x : List Char) (h : isOperator "AND" x = true) :
    x.length = "AND".toList.length ∧ ∀ c ∈ x, isRegexSpace c = false :=
  isOperator_spec (by simp) x h

theorem operator_or (x : List Char) (h : isOperator "OR" x = true) :
    x.length = "OR".toList.length ∧ ∀ c ∈ x, isRegexSpace c = false :=
  isOperator_spec (by simp) x h

/-- The words of a group are names and ANDs. -/
theorem Group.Written.words (h : g.Written ws) (hnames : ∀ name ∈ g.first :: g.rest, IsName name) :
    ∀ w ∈ ws, w ≠ [] ∧ (∀ c ∈ w, isRegexSpace c = false) ∧ isOperator "OR" w = false := by
  intro w hw
  rcases Splits.Joined.mem h hw with ⟨p, hp, hwp⟩ | hand
  · obtain ⟨name, hname, rfl⟩ := List.mem_map.1 hp
    have hspec := hnames name hname
    rw [List.mem_singleton.1 hwp]
    exact ⟨hspec.nonempty, hspec.plain, hspec.notOr⟩
  · obtain ⟨hlen, hplain⟩ := operator_and w hand
    refine ⟨List.ne_nil_of_length_pos (by rw [hlen]; decide), hplain, ?_⟩
    rw [Bool.eq_false_iff]
    intro hor
    exact absurd (hlen.symm.trans (operator_or w hor).1) (by decide)

theorem Group.Written.ne_nil (h : g.Written ws) : ws ≠ [] := by
  refine Splits.Joined.ne_nil h fun p hp => ?_
  obtain ⟨name, -, rfl⟩ := List.mem_map.1 hp
  exact List.cons_ne_nil _ _

/-- The names of a group come back. -/
theorem Group.Written.ofText (h : g.Written ws) (hnames : ∀ name ∈ g.first :: g.rest, IsName name) :
    Group.ofText ([' '].intercalate ws) = g := by
  have hcut :
      Splits.cut (isOperator "AND") ws = (g.first :: g.rest).map fun name => [name.toList] := by
    refine Splits.Joined.cut h fun p hp => ?_
    obtain ⟨name, hname, rfl⟩ := List.mem_map.1 hp
    refine ⟨List.cons_ne_nil _ _, fun w hw => ?_⟩
    rw [List.mem_singleton.1 hw]
    exact (hnames name hname).notAnd
  have hsplit : Splits.split (operator "AND") ([' '].intercalate ws) =
      (g.first :: g.rest).map String.toList := by
    rw [operator, Splits.split_intercalate operator_and (by decide)
      (fun w hw => (h.words hnames w hw).2.1), hcut, List.map_map]
    exact List.map_congr_left fun name _ => List.intercalate_singleton
  rw [Group.ofText, hsplit, List.map_cons]
  simp

theorem groups_written {groups : List Group} {gs : List (List (List Char))}
    (h : List.Forall₂ Group.Written groups gs)
    (hnames : ∀ g ∈ groups, ∀ name ∈ g.first :: g.rest, IsName name) :
    (∀ p ∈ gs, p ≠ [] ∧
      ∀ w ∈ p, w ≠ [] ∧ (∀ c ∈ w, isRegexSpace c = false) ∧ isOperator "OR" w = false) ∧
      gs.map (fun p => Group.ofText ([' '].intercalate p)) = groups := by
  induction h with
  | nil => simp
  | @cons g p groups gs hg _ ih =>
    obtain ⟨hgs, hmap⟩ := ih fun g' hg' => hnames g' (.tail _ hg')
    have hhead := hnames g (.head _)
    refine ⟨fun p' hp' => ?_, ?_⟩
    · rcases List.mem_cons.1 hp' with rfl | hp'
      · exact ⟨hg.ne_nil, hg.words hhead⟩
      · exact hgs p' hp'
    · rw [List.map_cons, hg.ofText hhead, hmap]

/-- **Equations.** The words of an equation are cut into it again. -/
theorem ofText_written (h : e.Written ws) (hnames : e.Named) :
    Equation.ofText ([' '].intercalate ws) = some e := by
  obtain ⟨gs, hgs, hjoined⟩ := h
  obtain ⟨hwords, hmap⟩ := groups_written hgs hnames
  have hall : ∀ w ∈ ws, w ≠ [] ∧ ∀ c ∈ w, isRegexSpace c = false := by
    intro w hw
    rcases hjoined.mem hw with ⟨p, hp, hwp⟩ | hor
    · obtain ⟨hne, hplain, -⟩ := (hwords p hp).2 w hwp
      exact ⟨hne, hplain⟩
    · obtain ⟨hlen, hplain⟩ := operator_or w hor
      exact ⟨List.ne_nil_of_length_pos (by rw [hlen]; decide), hplain⟩
  have hne : [' '].intercalate ws ≠ [] := by
    obtain ⟨w, us, rfl⟩ := List.exists_cons_of_ne_nil (hjoined.ne_nil fun p hp => (hwords p hp).1)
    exact intercalate_ne_nil (hall w (.head _)).1 us
  have hcut : Splits.cut (isOperator "OR") ws = gs :=
    hjoined.cut fun p hp => ⟨(hwords p hp).1, fun w hw => ((hwords p hp).2 w hw).2.2⟩
  have hsplit : Splits.split (operator "OR") ([' '].intercalate ws) =
      gs.map [' '].intercalate := by
    rw [operator, Splits.split_intercalate operator_or (by decide) (fun w hw => (hall w hw).2),
      hcut]
  rw [Equation.ofText, if_neg hne, hsplit]
  rcases gs with _ | ⟨p, gs⟩
  · cases hmap
  · rw [List.map_cons] at hmap ⊢
    obtain ⟨hfirst, hrest⟩ := List.cons.inj hmap
    simp only [hfirst, List.map_map]
    exact congrArg (fun rest => some (⟨e.first, rest⟩ : Equation)) hrest

end Words

/-- **Rules.** An equation is written between the quotes of a setting, with its operators in any
case, in words that reach the parser as they are. However they are spaced, the setting is accepted,
and its rule is built from the equation. -/
theorem rule_read {s : Setting} {e : Equation} {ws : List (List Char)} (h : e.Written ws)
    (hnames : e.Named) (hws : ∀ w ∈ ws, Plain w) {lead text g rest : List Char}
    (hlead : Lead s lead) (htext : Spaced ws text) (hg : Gap g) :
    ∃ x, s.parse (lex (lead ++ '"' :: (text ++ '"' :: (g ++ ';' :: rest)))) = some (x, lex rest) ∧
      Equation.ofText x = some e := by
  refine ⟨[' '].intercalate ws, ?_, ofText_written h hnames⟩
  have hnonempty : ∀ w ∈ ws, w ≠ [] := by
    intro w hw
    rcases hws w hw with rfl | ⟨hlexeme, -⟩
    · exact List.cons_ne_nil _ _
    · exact hlexeme.nonempty
  rw [hlead.lex, s.parse_opening, quotedEquation_iff, equation_eq, htext.items hws, Option.map_some,
    foldl_appendItem_nil hnonempty, lex_gap hg, lex_semicolon]

/-- The rule `a And b` of a backend picker, in two lines. -/
theorem rule_read_and : ∃ x,
    Setting.backpick.parse
      (lex ("backpick".toList ++ '"' :: ("a And\n\t b".toList ++ '"' :: [';']))) =
      some (x, []) ∧ Equation.ofText x = some ⟨⟨"a", ["b"]⟩, []⟩ := by
  let ws := ["a".toList, "And".toList, "b".toList]
  have hwritten : Equation.Written ⟨⟨"a", ["b"]⟩, []⟩ ws :=
    ⟨[ws], .cons (.cons rfl (.one _)) .nil, .one _⟩
  have hnamed : Equation.Named ⟨⟨"a", ["b"]⟩, []⟩ := by
    have hname : IsName "a" ∧ IsName "b" :=
      ⟨⟨by decide, by simp [isRegexSpace], by decide, by decide⟩,
        ⟨by decide, by simp [isRegexSpace], by decide, by decide⟩⟩
    simpa [Equation.Named] using hname
  have hplain : ∀ w ∈ ws, Plain w := by
    simp only [ws, List.forall_mem_cons, List.not_mem_nil, false_implies, implies_true, and_true]
    exact ⟨Sample.plain (Sample.word_iff (s := "a") (by decide)),
      Sample.plain (Sample.word_iff (s := "And") (by decide)),
      Sample.plain (Sample.word_iff (s := "b") (by decide))⟩
  have hlead : Lead .backpick "backpick".toList :=
    @Lead.keyword .backpick .backpick [] [] rfl .nil .nil
  have hsep (c : Char) (hc : isSpacing c = true) : ∀ d ∈ some c, isSpacing d = true := by
    rintro d ⟨⟩
    exact hc
  have htext : Spaced ws "a And\n\t b".toList :=
    @Spaced.cons [] ['a'] _ _ (by simp) (hsep ' ' rfl)
      (@Spaced.cons [' '] "And".toList _ _ (List.all_eq_true.1 rfl) (hsep '\n' rfl)
        (@Spaced.cons "\n\t ".toList ['b'] [] _ (List.all_eq_true.1 rfl) (by simp)
          (.nil (by simp))))
  exact rule_read hwritten hnamed hplain hlead htext (g := []) .nil

end Honeybrid
