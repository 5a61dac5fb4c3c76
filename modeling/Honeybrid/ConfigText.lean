import Honeybrid.ConfigGrammar

/-!
# Configuration files

A file is read by the lexer and the parser, whose actions fill the tables, and `main` goes on if it
finds the parameters that it looks up whatever the others are. Between two tokens there may be any
gaps and comments, and there need not be any unless both are lexemes.

## Main definitions

* `FileText`: the texts of a list of tokens.
* `loadConfig`: from the text of a file to the tables.

## Main results

* `configuration_text`: however its tokens are laid out, a file is accepted with the definitions
  that the grammar gives it.
* `loadConfig_iff`: and the tables are those of these definitions.
-/

namespace Honeybrid

open Grammars

/-! ### Texts -/

/-- The signs that are tokens. -/
inductive Sign : Char → Token → Prop
  | open : Sign '\x7b' .open
  | end : Sign '\x7d' .end
  | semicolon : Sign ';' .semicolon
  | quote : Sign '"' .quote
  | eq : Sign '=' .eq

/-- The texts of some tokens, with any gaps and comments. The last comment need not end its line. -/
inductive FileText : List Token → List Char → Prop
  | nil {g : List Char} (hg : Skipped g) : FileText [] g
  | comment {g x : List Char} (hg : Skipped g) (hx : Comment x) : FileText [] (g ++ x)
  | sign {g text : List Char} {c : Char} {t : Token} {ts : List Token} (hg : Skipped g)
      (hc : Sign c t) (htext : FileText ts text) : FileText (t :: ts) (g ++ c :: text)
  | lexeme {g x text : List Char} {ts : List Token} (hg : Skipped g) (hx : Lexeme x)
      (hsep : Ends text) (htext : FileText ts text) : FileText (tokenOf x :: ts) (g ++ (x ++ text))

/-- A module of the configuration, as the rest of the program sees its table. What is not entered as
a string may be read as one: `other` is what is read then. -/
def ModSettings.config (other : Value → String) (dns : ModSettings → Option DnsServer)
    (t : ModSettings) : ModuleConfig where
  function := (t "function").map fun
    | .text s => s
    | v => other v
  dnsServer := dns t

/-- What `main` starts from: the library for addresses, the files, and what is read of entries that
are not strings or numbers. -/
structure Surroundings where
  addresses : Addresses
  files : Files
  other : Value → String
  dns : ModSettings → Option DnsServer
  textWord : String → ℤ

variable (σ : Surroundings)

/-- The block of a definition, unless the action of `module` ends the program. -/
def Definition.block : Definition → Option Block
  | .config parameters => some (.config parameters)
  | .link tag _ => some (.link tag)
  | .module name t =>
    match moduleAction σ.files name t with
    | .ok t => some (.module name (t.config σ.other σ.dns))
    | .error _ => none
  | .target route entries => some (.target route entries)

/-- The parameters that `main` looks up with `ICONFIG_REQUIRED` and `CONFIG_REQUIRED` in every
case. What it requires for a kind of output is not among them. -/
def requiredParameters : List String :=
  ["output", "exec_directory", "decision_threads"]

/-- `config_lookup` ends the program for no required parameter. -/
def Setup.Complete (s : Setup) : Prop :=
  ∀ p ∈ requiredParameters, (s.config p).isSome = true

instance (s : Setup) : Decidable s.Complete :=
  inferInstanceAs (Decidable (∀ p ∈ requiredParameters, _))

/-- The tables that `main` starts its threads with, from the text of its configuration file, unless
an error or a missing parameter ends the program. -/
def loadConfig (text : List Char) : Option Setup :=
  (configuration σ.addresses (lex text)).bind fun ds =>
  (ds.mapM (Definition.block σ)).bind fun bs =>
  (Setup.main σ.textWord bs).toOption.bind fun s =>
  if s.Complete then some s else none

variable {σ} {a : Addresses} {ts : List Token} {text : List Char}

/-- The lexer finds the tokens of a text. -/
theorem FileText.lex (h : FileText ts text) : lex text = ts := by
  induction h with
  | @nil g hg =>
    rw [← List.append_nil g, lex_skipped hg]
    rfl
  | @comment g x hg hx =>
    rw [lex_skipped hg, ← List.append_nil x, lex_comment hx lineEnds_nil]
    rfl
  | @sign g text c t ts hg hc _ ih =>
    rw [lex_skipped hg]
    cases hc with
    | «open» => rw [lex_open, ih]
    | «end» => rw [lex_end, ih]
    | semicolon => rw [lex_semicolon, ih]
    | quote => rw [lex_quote, ih]
    | eq => rw [lex_eq, ih]
  | lexeme hg hx hsep _ ih => rw [lex_skipped hg, lex_lexeme hx hsep, ih]

/-- **Texts of files.** However its tokens are laid out, a file is accepted exactly if they are a
list of definitions, and with these. -/
theorem configuration_text (h : FileText ts text) {ds : List Definition} :
    configuration a (lex text) = some ds ↔ Many (Defines a) ts ds := by
  rw [h.lex, configuration_iff]

/-- **Configuration files.** However the file is laid out, `main` gets as far as its threads with
some tables exactly if the grammar derives its tokens, the actions of the definitions are carried
out and leave these tables, and no required parameter is missing. -/
theorem loadConfig_iff (h : FileText ts text) {s : Setup} :
    loadConfig σ text = some s ↔ ∃ ds bs, Many (Defines σ.addresses) ts ds ∧
      ds.mapM (Definition.block σ) = some bs ∧ Setup.main σ.textWord bs = .ok s ∧ s.Complete := by
  have hmain (bs : List Block) :
      ((Setup.main σ.textWord bs).toOption.bind fun s => if s.Complete then some s else none) =
        some s ↔ Setup.main σ.textWord bs = .ok s ∧ s.Complete := by
    cases Setup.main σ.textWord bs with
    | error e => exact iff_of_false nofun fun hno => by cases hno.1
    | ok s' =>
      show (if s'.Complete then some s' else none) = some s ↔ _
      rw [Option.ite_none_right_eq_some]
      constructor
      · rintro ⟨hcomplete, heq⟩
        cases heq
        exact ⟨rfl, hcomplete⟩
      · rintro ⟨heq, hcomplete⟩
        cases heq
        exact ⟨hcomplete, rfl⟩
  simp only [loadConfig, Option.bind_eq_some_iff, configuration_text h]
  constructor
  · rintro ⟨ds, hds, bs, hbs, hs⟩
    exact ⟨ds, bs, hds, hbs, (hmain bs).1 (Option.bind_eq_some_iff.2 hs)⟩
  · rintro ⟨ds, bs, hds, hbs, hs⟩
    exact ⟨ds, hds, bs, hbs, Option.bind_eq_some_iff.1 ((hmain bs).2 hs)⟩

namespace Sample

/-- A system on which two addresses are legal and no name is known. -/
def surroundings : Surroundings where
  addresses := addresses
  files := files
  other _ := ""
  dns _ := none
  textWord _ := 0

/-- The line of a parameter. -/
def line (name : String) (value : Token) : List Token :=
  [.word name, .eq, value, .semicolon]

/-- The tokens of a file with the required parameters and an empty target. -/
def required : List Token :=
  [.keyword .config, .open] ++ line "output" (.number 1) ++ line "exec_directory" (.word "run") ++
    line "decision_threads" (.number 2) ++ [.end, .keyword .target, .open, .end]

/-- The file, with comments of both kinds. -/
def requiredText : List Char :=
  ("# engine\nconfig \x7b\noutput = 1;\nexec_directory = run;\ndecision_threads = 2;\n" ++
    "\x7d // no links\ntarget \x7b\x7d # end").toList

theorem line_text {g name value text : List Char} {ts : List Token} (hg : Skipped g)
    (hname : Lexeme name) (hvalue : Lexeme value) (htext : FileText ts text) :
    FileText (tokenOf name :: .eq :: tokenOf value :: .semicolon :: ts)
      (g ++ (name ++ ([' '] ++ '=' :: ([' '] ++ (value ++ ([] ++ ';' :: text)))))) :=
  have hblank : Skipped [' '] := .gap (.blank rfl .nil)
  .lexeme hg hname (ends_cons (by decide)) (.sign hblank .eq
    (.lexeme hblank hvalue (ends_cons (by decide)) (.sign (.gap .nil) .semicolon htext)))

theorem required_text : FileText required requiredText := by
  have hline : Skipped ['\n'] := .gap (.newline .nil)
  have hblank : Skipped [' '] := .gap (.blank rfl .nil)
  have honeline (x : List Char) (h : x.all (· ≠ '\n') = true) : ∀ c ∈ x, c ≠ '\n' :=
    fun c hc => of_decide_eq_true (List.all_eq_true.1 h c hc)
  have hlinks : Skipped " // no links\n".toList :=
    @Skipped.comment [' '] "// no links".toList [] (.blank rfl .nil)
      (.slashes (honeline _ rfl) ⟨' ', by decide⟩) (.gap .nil)
  have hengine : Skipped "# engine\n".toList :=
    .gap (@Gap.comment " engine".toList [] (honeline _ rfl) .nil)
  have hend : FileText [] " # end".toList :=
    @FileText.comment [' '] "# end".toList hblank (.hash (honeline _ rfl))
  have htarget : FileText [.end, .keyword .target, .open, .end]
      "\n\x7d // no links\ntarget \x7b\x7d # end".toList :=
    .sign hline .end (.lexeme hlinks (keyword_lexeme .target) (ends_cons (by decide))
      (.sign hblank .open (.sign (.gap .nil) .end hend)))
  have hlexeme (s : String) (hne : s.toList ≠ []) (hchars : s.toList.all isExprChar = true)
      (hplain : ¬['/', '/'] <+: s.toList) : Lexeme s.toList :=
    ⟨hne, List.all_eq_true.1 hchars, hplain⟩
  have hthreads := line_text hline
    (hlexeme "decision_threads" (by decide) (by decide) (by decide))
    (hlexeme "2" (by decide) (by decide) (by decide)) htarget
  have hdirectory := line_text hline
    (hlexeme "exec_directory" (by decide) (by decide) (by decide))
    (hlexeme "run" (by decide) (by decide) (by decide)) hthreads
  have houtput := line_text hline (hlexeme "output" (by decide) (by decide) (by decide))
    (hlexeme "1" (by decide) (by decide) (by decide)) hdirectory
  exact .lexeme hengine (keyword_lexeme .config) (ends_cons (by decide))
    (.sign hblank .open houtput)

end Sample

/-- A file with the required parameters and an empty target. -/
theorem loadConfig_target : ∃ ds bs s,
    Many (Defines Sample.addresses) Sample.required ds ∧
    ds.mapM (Definition.block Sample.surroundings) = some bs ∧
    Setup.main Sample.surroundings.textWord bs = .ok s ∧ s.Complete ∧
    loadConfig Sample.surroundings Sample.requiredText = some s := by
  have htext : FileText Sample.required Sample.requiredText := Sample.required_text
  have hload : (loadConfig Sample.surroundings Sample.requiredText).isSome = true := by
    decide +kernel
  obtain ⟨s, hs⟩ := Option.isSome_iff_exists.1 hload
  obtain ⟨ds, bs, hds, hbs, hmain, hcomplete⟩ := (loadConfig_iff htext).1 hs
  exact ⟨ds, bs, s, hds, hbs, hmain, hcomplete, hs⟩

end Honeybrid
