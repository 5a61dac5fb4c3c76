import Mathlib.Data.List.TakeWhile
import Honeybrid.ConfigSyntax
import Honeybrid.Types

/-!
# The settings of modules

A module block is read by the lexer, its lines are entered in a table by the actions of
`module_settings`, and the action of `module` replaces the entry `backup` by a key file. Numbers are
entered as an `int` and everything else as a string, under one type of pointer; each module then
reads an entry in its own way.

The functions of the modules get the table with the octets that lie behind an entry in memory, which
`atoi` may reach when an entry is not terminated.

## Main definitions

* `Value`, `ModSettings`: the entries of a table.
* `moduleBlock`, `moduleAction`, `loadModule`: from the text of a block to the table.
* `BlockText`: the texts of a block with given lines.
* `Param`, `Param.value`: the numeric parameters of the modules, and what is read of them.

## Main results

* `loadModule_eq`: the table of a block.
* `param_iff`: a number is read as it was written exactly if it is zero, or if the module reads an
  `int`.
* `modYesno_of_block`, `modRandom_of_block`: what these two modules answer for a block.
-/

namespace Honeybrid

/-! ### Tables -/

/-- An entry of a table: a string, an `int`, or the key file that stands for `backup`. -/
inductive Value
  | text (s : String)
  | number (n : BitVec 32)
  | keyFile
  deriving DecidableEq, Repr

/-- The table of a module. -/
abbrev ModSettings := String → Option Value

/-- What the actions of `module_settings` enter for a token. -/
def Token.value : Token → Option Value
  | .word s | .expr s => some (.text s)
  | .number n => some (.number n)
  | _ => none

/-- The productions of `module_settings`, up to the end of the block. -/
def moduleSettings (t : ModSettings) : List Token → Option (ModSettings × List Token)
  | .end :: rest => some (t, rest)
  | .word name :: .eq :: v :: .semicolon :: rest =>
    match v.value with
    | some v => moduleSettings (Function.update t name (some v)) rest
    | none => none
  | _ => none

/-- The production of `module`: the name and the table of a block. -/
def moduleBlock : List Token → Option (String × ModSettings × List Token)
  | .keyword .module :: .quote :: .word name :: .quote :: .open :: rest =>
    (moduleSettings (fun _ => none) rest).map fun r => (name, r)
  | _ => none

/-- The files, as the action of `module` sees them. The path is read after its entry has been
replaced and freed, and `stale` is what is read then. -/
structure Files where
  stale : String
  isRegular : String → Bool
  canCreate : String → Bool

/-- What ends the program while a module block is read. -/
inductive ModuleError
  /-- A syntax error. -/
  | parse
  /-- `Fatal error: missing parameter 'function' in module` -/
  | missingFunction (name : String)
  /-- `Fatal error, can't create backup file for module` -/
  | backupFile
  deriving DecidableEq, Repr

/-- The action of `module`. A key file that cannot be loaded stays empty. -/
def moduleAction (files : Files) (name : String) (t : ModSettings) :
    Except ModuleError ModSettings :=
  if t "function" = none then .error (.missingFunction name)
  else if t "backup" = none then .ok t
  else if files.isRegular files.stale || files.canCreate files.stale then
    .ok (Function.update t "backup" (some .keyFile))
  else .error .backupFile

/-- A module block, from its text to its table. -/
def loadModule (files : Files) (text : List Char) : Except ModuleError ModSettings :=
  match moduleBlock (lex text) with
  | some (name, t, _) => moduleAction files name t
  | none => .error .parse

/-! ### Texts of blocks -/

/-- A lexeme that the lexer returns as a word. -/
structure Word (x : List Char) : Prop extends Lexeme x where
  word : ∀ c ∈ x, isWordChar c = true
  notNumber : ¬∀ c ∈ x, c.isDigit = true
  notKeyword : keywordOf x = none

/-- A lexeme that may stand as a value. -/
structure Operand (x : List Char) : Prop extends Lexeme x where
  notKeyword : keywordOf x = none

/-- The texts of the lines of a block, with any gaps, to the end of the block. -/
inductive LinesText : List (List Char × List Char) → List Char → Prop
  | nil {g rest : List Char} (hg : Gap g) : LinesText [] (g ++ '\x7d' :: rest)
  | cons {g₀ g₁ g₂ g₃ name value text : List Char} {ls : List (List Char × List Char)}
      (h₀ : Gap g₀) (h₁ : Gap g₁) (h₂ : Gap g₂) (h₃ : Gap g₃) (hname : Word name)
      (hvalue : Operand value) (hls : LinesText ls text) :
      LinesText ((name, value) :: ls)
        (g₀ ++ (name ++ (g₁ ++ '=' :: (g₂ ++ (value ++ (g₃ ++ ';' :: text))))))

/-- The texts of a block with a name and lines. -/
inductive BlockText : List (List Char × List Char) → List Char → Prop
  | mk {g₀ g₁ g₂ name text : List Char} {ls : List (List Char × List Char)} (h₀ : Gap g₀)
      (h₁ : Gap g₁) (h₂ : Gap g₂) (hname : Word name) (hls : LinesText ls text) :
      BlockText ls (g₀ ++ (Keyword.module.text.toList ++
        (g₁ ++ '"' :: (name ++ '"' :: (g₂ ++ '\x7b' :: text)))))

/-- The table of the lines of a block: a later line replaces an earlier one. -/
def tableOf (ls : List (List Char × List Char)) : ModSettings :=
  ls.foldl (fun t l => Function.update t (String.ofList l.1) (tokenOf l.2).value) fun _ => none

section Texts

variable {x g rest text : List Char} {ls : List (List Char × List Char)} {t : ModSettings}

theorem ends_cons {c : Char} (hc : isExprChar c = false) : Ends (c :: rest) := by
  rintro d ⟨rfl⟩
  exact hc

theorem Gap.ends (hg : Gap g) (he : Ends rest) : Ends (g ++ rest) := by
  cases hg with
  | nil => exact he
  | blank hc hg => exact ends_cons (isExprChar_of_isBlank hc)
  | newline hg => exact ends_cons (by decide)
  | comment hx hg => exact ends_cons (by decide)

theorem Word.tokenOf (hx : Word x) : tokenOf x = .word (String.ofList x) := by
  rw [Honeybrid.tokenOf, hx.notKeyword]
  simp only [List.all_eq_true]
  rw [if_neg hx.notNumber, if_pos hx.word]

/-- A value is entered as a number or as a string. -/
theorem Operand.value (hx : Operand x) : ∃ v, (Honeybrid.tokenOf x).value = some v := by
  rw [Honeybrid.tokenOf, hx.notKeyword]
  dsimp only
  split_ifs
  · exact ⟨_, rfl⟩
  · exact ⟨_, rfl⟩
  · exact ⟨_, rfl⟩

/-- The table that `module_settings` makes of the lines. -/
theorem LinesText.moduleSettings (h : LinesText ls text) (t : ModSettings) :
    ∃ rest, Honeybrid.moduleSettings t (lex text) =
      some (ls.foldl (fun t l => Function.update t (String.ofList l.1) (tokenOf l.2).value) t,
        rest) := by
  induction h generalizing t with
  | @nil g rest hg =>
    rw [lex_gap hg, lex_end]
    exact ⟨lex rest, rfl⟩
  | @cons g₀ g₁ g₂ g₃ name value text ls h₀ h₁ h₂ h₃ hname hvalue hls ih =>
    obtain ⟨v, hv⟩ := hvalue.value
    rw [lex_gap h₀, lex_lexeme hname.toLexeme (h₁.ends (ends_cons (by decide))), hname.tokenOf,
      lex_gap h₁, lex_eq, lex_gap h₂, lex_lexeme hvalue.toLexeme (h₃.ends (ends_cons (by decide))),
      lex_gap h₃, lex_semicolon, Honeybrid.moduleSettings, hv]
    obtain ⟨rest, hrest⟩ := ih (Function.update t (String.ofList name) (some v))
    refine ⟨rest, hrest.trans ?_⟩
    rw [List.foldl_cons, hv]

/-- A block is read, and the action of `module` gets the table of its lines. -/
theorem loadModule_text (files : Files) (h : BlockText ls text) :
    ∃ name, loadModule files text = moduleAction files name (tableOf ls) := by
  cases h with
  | @mk g₀ g₁ g₂ name text _ h₀ h₁ h₂ hname hls =>
    obtain ⟨rest, hrest⟩ := hls.moduleSettings fun _ => none
    have hblock : moduleBlock (lex (g₀ ++ (Keyword.module.text.toList ++
        (g₁ ++ '"' :: (name ++ '"' :: (g₂ ++ '\x7b' :: text)))))) =
        some (String.ofList name, tableOf ls, rest) := by
      rw [lex_gap h₀, lex_lexeme (keyword_lexeme _) (h₁.ends (ends_cons (by decide))),
        tokenOf_keyword, lex_gap h₁, lex_quote, lex_lexeme hname.toLexeme (ends_cons (by decide)),
        hname.tokenOf, lex_quote, lex_gap h₂, lex_open, moduleBlock, hrest]
      rfl
    refine ⟨String.ofList name, ?_⟩
    rw [loadModule, hblock]

/-- Every list of lines has a text. -/
theorem exists_blockText (hls : ∀ l ∈ ls, Word l.1 ∧ Operand l.2) : ∃ text, BlockText ls text := by
  have hblank : Gap [' '] := .blank rfl .nil
  have hlines : ∃ text, LinesText ls text := by
    induction ls with
    | nil => exact ⟨_, @LinesText.nil [] [] .nil⟩
    | cons l ls ih =>
      obtain ⟨text, htext⟩ := ih fun l hl => hls l (.tail _ hl)
      obtain ⟨hname, hvalue⟩ := hls l (.head _)
      exact ⟨_, .cons (.newline .nil) hblank hblank .nil hname hvalue htext⟩
  obtain ⟨text, htext⟩ := hlines
  have hchars : ∀ c ∈ ['m'], isWordChar c = true := List.all_eq_true.1 (by decide)
  have hname : Word ['m'] :=
    ⟨⟨by decide, fun c hc => isExprChar_of_isWordChar (hchars c hc), by decide⟩, hchars,
      fun h => absurd (h 'm' (.head _)) (by decide), by decide⟩
  exact ⟨_, .mk .nil hblank hblank hname htext⟩

theorem moduleAction_cases {files : Files} {name : String} {t₀ : ModSettings}
    (h : moduleAction files name t₀ = .ok t) :
    t₀ "backup" = none ∧ t = t₀ ∨
      t₀ "backup" ≠ none ∧ t = Function.update t₀ "backup" (some .keyFile) := by
  unfold moduleAction at h
  split_ifs at h with hf hb
  · cases h
    exact .inl ⟨hb, rfl⟩
  · cases h
    exact .inr ⟨hb, rfl⟩

/-- **Module blocks.** The table that is left of a block is that of its lines, up to `backup`. -/
theorem loadModule_eq {files : Files} (h : BlockText ls text) (ht : loadModule files text = .ok t)
    {name : String} (hname : name ≠ "backup") : t name = tableOf ls name := by
  obtain ⟨_, hload⟩ := loadModule_text files h
  obtain ⟨-, rfl⟩ | ⟨-, rfl⟩ := moduleAction_cases (hload.symm.trans ht)
  · rfl
  · exact Function.update_of_ne hname ..

/-- The entry of a parameter is that of its last line. -/
theorem tableOf_last {before after : List (List Char × List Char)} {name : String}
    {value : List Char} (hlast : ∀ l ∈ after, String.ofList l.1 ≠ name) :
    tableOf (before ++ (name.toList, value) :: after) name = (tokenOf value).value := by
  have hafter (t : ModSettings) :
      after.foldl (fun t l => Function.update t (String.ofList l.1) (tokenOf l.2).value) t name =
        t name := by
    induction after generalizing t with
    | nil => rfl
    | cons l ls ih =>
      rw [List.foldl_cons, ih fun l hl => hlast l (.tail _ hl)]
      exact Function.update_of_ne (hlast l (.head _)).symm ..
  rw [tableOf, List.foldl_append, List.foldl_cons, hafter]
  simp

end Texts

/-! ### Numeric parameters -/

/-- The octets of an entry. -/
def Value.octets : Value → List (BitVec 8)
  | .text s => s.toList.map octet ++ [0]
  | .number n =>
    [n.extractLsb' 0 8, n.extractLsb' 8 8, n.extractLsb' 16 8, n.extractLsb' 24 8]
  | .keyFile => []

/-- The `int` at the start of some octets. -/
def readInt (bs : List (BitVec 8)) : BitVec 32 :=
  bs.getD 3 0 ++ bs.getD 2 0 ++ bs.getD 1 0 ++ bs.getD 0 0

/-- The numeric parameters of the modules. -/
inductive Param
  | counter | controlExpiration | maxPacket | sourceExpiration | denyAfter | allowAfter
  | randomValue | yesnoValue
  deriving DecidableEq, Repr

namespace Param

/-- The name of a parameter in the file. -/
def name : Param → String
  | counter => "counter"
  | controlExpiration | sourceExpiration => "expiration"
  | maxPacket => "max_packet"
  | denyAfter => "deny_after"
  | allowAfter => "allow_after"
  | randomValue | yesnoValue => "value"

/-- The module that has the parameter. -/
def function : Param → ModuleFn
  | counter => .counter
  | controlExpiration | maxPacket => .control
  | sourceExpiration | denyAfter | allowAfter => .sourceTime
  | randomValue => .random
  | yesnoValue => .yesno

/-- What the module makes of the octets of the entry: `(uint32_t) atoi(param)`, `atoi(param)`, or
the `uint32_t` or `int` that stands there. -/
def decode (p : Param) (bs : List (BitVec 8)) : ℤ :=
  match p with
  | counter => (atoi bs).toNat
  | controlExpiration | maxPacket | sourceExpiration | denyAfter | allowAfter => (atoi bs).toInt
  | randomValue => (readInt bs).toNat
  | yesnoValue => (readInt bs).toInt

/-- The value of the parameter in a table. Behind the entry, memory holds `mem`. -/
def value (p : Param) (t : ModSettings) (mem : List (BitVec 8)) : Option ℤ :=
  (t p.name).map fun v => p.decode (v.octets ++ mem)

end Param

/-- `mod_counter`, for a connection with the given number of packets from the intruder. -/
def modCounter (t : ModSettings) (mem : List (BitVec 8)) (count : BitVec 32) : ModResult :=
  match Param.counter.value t mem with
  | none => .defer
  | some pktval => if pktval ≤ count.toNat then .accept else .reject

/-- `mod_random`. The draw is `(int) (value * (rand() / (RAND_MAX + 1.0)))`. -/
def modRandom (t : ModSettings) (mem : List (BitVec 8)) (draw : ℤ → ℤ) : ModResult :=
  match Param.randomValue.value t mem with
  | none => .defer
  | some value => if value < 1 then .reject else if draw value = 1 then .accept else .reject

/-- `mod_yesno`. -/
def modYesno (t : ModSettings) (mem : List (BitVec 8)) : ModResult :=
  match Param.yesnoValue.value t mem with
  | none => .defer
  | some value => if value = 0 then .accept else .reject

/-! ### Reading numbers back -/

/-- A numeral of a configuration file. -/
structure Numeral (ds : List Char) : Prop where
  nonempty : ds ≠ []
  digits : ∀ c ∈ ds, c.isDigit = true

/-- The number that a numeral denotes. -/
def decimal (ds : List Char) : ℕ :=
  ds.foldl (fun n c => 10 * n + (c.toNat - 48)) 0

section Numbers

variable {ds : List Char} {w : BitVec 32}

theorem readInt_octets (w : BitVec 32) (mem : List (BitVec 8)) :
    readInt ((Value.number w).octets ++ mem) = w := by
  show w.extractLsb' 24 8 ++ w.extractLsb' 16 8 ++ w.extractLsb' 8 8 ++ w.extractLsb' 0 8 = w
  ext i hi
  grind

/-- A sign before a letter denotes nothing. -/
theorem strtol_nonneg {b c : BitVec 8} {bs : List (BitVec 8)} (hc : 58 ≤ c.toNat) :
    0 ≤ strtol (b :: c :: bs) := by
  have hspace : isSpace c = false := by
    simp only [isSpace, decide_eq_false_iff_not, not_or, not_and, BitVec.le_def, ← BitVec.toNat_inj]
    exact ⟨by simp; omega, fun _ => by simp; omega⟩
  have hdigit : isDigit c = false := by
    simp only [isDigit, decide_eq_false_iff_not, not_and, BitVec.le_def]
    exact fun _ => by simp; omega
  have hminus : c ≠ 45 := by
    rintro rfl
    exact absurd hc (by decide)
  unfold strtol
  rw [List.dropWhile_cons]
  split_ifs with hb
  · rw [List.dropWhile_cons, hspace]
    show 0 ≤ if c = 45 then _ else _
    rw [if_neg hminus]
    split_ifs <;> omega
  · have hnone : (c :: bs).takeWhile isDigit = [] := by
      rw [List.takeWhile_cons, hdigit]
      rfl
    dsimp only
    rw [hnone]
    split_ifs
    · exact Int.le_refl 0
    · exact Int.le_refl 0
    · omega

theorem octet_toNat (w : BitVec 32) (s : ℕ) :
    (w.extractLsb' s 8).toNat = w.toNat / 2 ^ s % 256 := by
  rw [BitVec.extractLsb'_toNat, Nat.shiftRight_eq_div_pow]

/-- A character below the digits and the signs denotes nothing. -/
theorem strtol_low {b : BitVec 8} (hb : b.toNat < 10) : strtol [b] = 0 := by
  have hdigit : isDigit b = false := by
    simp only [isDigit, decide_eq_false_iff_not, not_and, BitVec.le_def]
    intro h
    have h48 : 48 ≤ b.toNat := h
    omega
  have hsign (n : ℕ) (hn : 10 ≤ n ∧ n < 256) : b ≠ BitVec.ofNat 8 n := by
    rintro rfl
    rw [BitVec.toNat_ofNat] at hb
    omega
  unfold strtol
  rw [List.dropWhile_cons]
  split_ifs
  · rfl
  · dsimp only
    split_ifs with h45 h43
    · exact absurd h45 (hsign 45 (by decide))
    · exact absurd h43 (hsign 43 (by decide))
    · rw [List.takeWhile_cons, hdigit]
      rfl

/-- The octets of a number, read as a string, do not denote it. -/
theorem atoi_octets (h : atoi (Value.number w).octets = w) : w = 0 := by
  have h₀ := octet_toNat w 0
  have h₁ := octet_toNat w 8
  have hlt := w.isLt
  have hw : w.toNat = (strtol (Value.number w).octets % (2 ^ 32 : ℕ)).toNat := by
    rw [← BitVec.toNat_ofInt]
    exact congrArg BitVec.toNat h.symm
  have habs : (strtol (Value.number w).octets).natAbs < 10 ^ 4 := strtol_natAbs_lt _
  -- a negative number would have a second octet above the digits
  have hnonneg : 0 ≤ strtol (Value.number w).octets := by
    by_contra hneg
    exact hneg (strtol_nonneg (by omega))
  -- four digits at most leave the upper two octets zero, and two digits the upper three
  have hzero (s : ℕ) (hs : w.toNat / 2 ^ s % 256 = 0) : w.extractLsb' s 8 = 0 := by
    rw [← BitVec.toNat_inj, octet_toNat, hs]
    rfl
  have hoctets : (Value.number w).octets =
      [w.extractLsb' 0 8, w.extractLsb' 8 8] ++ 0 :: [0] := by
    rw [Value.octets, hzero 16 (by omega), hzero 24 (by omega)]
    rfl
  have htwo : (strtol (Value.number w).octets).natAbs < 10 ^ 2 := by
    rw [hoctets, strtol_nul]
    exact strtol_natAbs_lt _
  have hoctets' : (Value.number w).octets = [w.extractLsb' 0 8] ++ 0 :: [0, 0] := by
    rw [hoctets, hzero 8 (by omega)]
    rfl
  have hone : (strtol (Value.number w).octets).natAbs < 10 ^ 1 := by
    rw [hoctets', strtol_nul]
    exact strtol_natAbs_lt _
  have hlow : strtol (Value.number w).octets = 0 := by
    rw [hoctets', strtol_nul]
    exact strtol_low (by omega)
  rw [← h, atoi, hlow]
  rfl

theorem keyword_not_digits (k : Keyword) : ¬∀ c ∈ k.text.toList, c.isDigit = true := by
  rw [← List.all_eq_true]
  cases k <;> decide

theorem Numeral.operand (h : Numeral ds) : Operand ds where
  nonempty := h.nonempty
  chars c hc := isExprChar_of_isWordChar (isWordChar_of_isDigit (h.digits c hc))
  plain := by
    rintro ⟨z, rfl⟩
    exact absurd (h.digits '/' (.head _)) (by decide)
  notKeyword := by
    refine List.find?_eq_none.2 fun k _ hk => keyword_not_digits k ?_
    rw [of_decide_eq_true hk]
    exact h.digits

/-- A numeral is entered as an `int`. -/
theorem Numeral.value (h : Numeral ds) :
    (tokenOf ds).value = some (.number (atoi (ds.map octet))) := by
  rw [tokenOf, h.operand.notKeyword]
  simp only [List.all_eq_true]
  rw [if_pos h.digits]
  rfl

theorem octet_of_digit {c : Char} (h : c.isDigit = true) :
    (octet c).toNat = c.toNat ∧ 48 ≤ c.toNat ∧ c.toNat ≤ 57 := by
  simp only [Char.isDigit, Bool.and_eq_true, decide_eq_true_eq] at h
  have h48 : 48 ≤ c.toNat := h.1
  have h57 : c.toNat ≤ 57 := h.2
  refine ⟨?_, h48, h57⟩
  rw [octet, BitVec.toNat_ofNat, Nat.mod_eq_of_lt (by omega)]

/-- `atoi` reads a numeral in range. -/
theorem atoi_numeral (h : Numeral ds) (hn : decimal ds < 2 ^ 32) :
    atoi (ds.map octet) = BitVec.ofNat 32 (decimal ds) := by
  have hdigits : ∀ d ∈ ds.map octet, isDigit d = true := by
    intro d hd
    obtain ⟨c, hc, rfl⟩ := List.mem_map.1 hd
    obtain ⟨hval, h48, h57⟩ := octet_of_digit (h.digits c hc)
    simp only [isDigit, decide_eq_true_eq, BitVec.le_def, hval]
    exact ⟨h48, h57⟩
  have hvalue : digitsValue (ds.map octet) = decimal ds := by
    rw [digitsValue, decimal, List.foldl_map]
    refine List.foldl_ext _ _ _ fun n c hc => ?_
    rw [(octet_of_digit (h.digits c hc)).1]
  have hstrtol : strtol (ds.map octet) = decimal ds := by
    cases ds with
    | nil => exact absurd rfl h.nonempty
    | cons c ds =>
      obtain ⟨hval, h48, h57⟩ := octet_of_digit (h.digits c (.head _))
      have hspace : isSpace (octet c) = false := by
        simp only [isSpace, decide_eq_false_iff_not, not_or, not_and, BitVec.le_def,
          ← BitVec.toNat_inj, hval]
        exact ⟨by simp; omega, fun _ => by simp; omega⟩
      have hsign (n : ℕ) (hn : n < 48) : octet c ≠ BitVec.ofNat 8 n := by
        intro heq
        rw [heq, BitVec.toNat_ofNat] at hval
        omega
      unfold strtol
      rw [List.map_cons, List.dropWhile_cons, hspace]
      show (if octet c = 45 then _ else if octet c = 43 then _ else _) = _
      split_ifs with hminus hplus
      · exact absurd hminus (hsign 45 (by decide))
      · exact absurd hplus (hsign 43 (by decide))
      · rw [List.map_cons] at hdigits hvalue
        rw [List.takeWhile_eq_self_iff.2 hdigits, hvalue]
        omega
  rw [atoi, hstrtol, BitVec.ofInt_natCast]

/-- What a module reads of a number: the `int` itself, or a string that denotes another number
unless it is empty. -/
theorem Param.decode_iff (p : Param) {n : ℕ} (hn : n < 2 ^ 32) :
    (∀ mem, p.decode ((Value.number (BitVec.ofNat 32 n)).octets ++ mem) = n) ↔
      n = 0 ∨ p = .randomValue ∨ p = .yesnoValue ∧ n < 2 ^ 31 := by
  have htoNat : (BitVec.ofNat 32 n).toNat = n := by
    rw [BitVec.toNat_ofNat, Nat.mod_eq_of_lt hn]
  -- the modules that read a string read zero as zero, and nothing else
  have hstring : (∀ mem, atoi ((Value.number (BitVec.ofNat 32 n)).octets ++ mem) =
      BitVec.ofNat 32 n) ↔ n = 0 := by
    constructor
    · intro h
      have hzero := atoi_octets (by simpa using h [])
      rw [← htoNat, hzero]
      rfl
    · rintro rfl mem
      show BitVec.ofInt 32 (strtol ([] ++ 0 :: ([0, 0, 0] ++ mem))) = 0
      rw [strtol_nul]
      rfl
  have hsigned (h : ∀ mem, (atoi ((Value.number (BitVec.ofNat 32 n)).octets ++ mem)).toInt = n) :
      n = 0 := by
    refine hstring.1 fun mem => ?_
    have hmem := congrArg (BitVec.ofInt 32) (h mem)
    rwa [BitVec.ofInt_toInt, BitVec.ofInt_natCast] at hmem
  cases p with
  | counter =>
    simp only [Param.decode, reduceCtorEq, false_and, or_false]
    rw [← hstring]
    refine forall_congr' fun mem => ?_
    rw [Int.ofNat_inj, ← BitVec.toNat_inj, htoNat]
  | randomValue =>
    simp only [Param.decode, readInt_octets, htoNat]
    simp
  | yesnoValue =>
    simp only [Param.decode, readInt_octets, forall_const, reduceCtorEq, false_or, true_and]
    rw [BitVec.toInt_eq_toNat_cond, htoNat]
    split_ifs <;> omega
  | controlExpiration | maxPacket | sourceExpiration | denyAfter | allowAfter =>
    simp only [Param.decode, reduceCtorEq, false_and, or_false]
    refine ⟨hsigned, ?_⟩
    rintro rfl mem
    rw [hstring.2 rfl mem]
    rfl

end Numbers

section Blocks

variable {p : Param} {ds text : List Char} {before after : List (List Char × List Char)}
  {files : Files} {t : ModSettings}

/-- The entry that the last line for a parameter leaves. -/
theorem entry_of_block (hds : Numeral ds) (hn : decimal ds < 2 ^ 32)
    (hblock : BlockText (before ++ (p.name.toList, ds) :: after) text)
    (hlast : ∀ l ∈ after, String.ofList l.1 ≠ p.name) (ht : loadModule files text = .ok t) :
    t p.name = some (.number (BitVec.ofNat 32 (decimal ds))) := by
  have hname : p.name ≠ "backup" := by
    cases p <;> decide
  rw [loadModule_eq hblock ht hname, tableOf_last hlast, hds.value, atoi_numeral hds hn]

/-- The two modules that read an `int` read the number that was written. -/
theorem value_of_block (hp : p = .randomValue ∨ p = .yesnoValue) (hds : Numeral ds)
    (hn : decimal ds < 2 ^ 31) (hblock : BlockText (before ++ (p.name.toList, ds) :: after) text)
    (hlast : ∀ l ∈ after, String.ofList l.1 ≠ p.name) (ht : loadModule files text = .ok t)
    (mem : List (BitVec 8)) : p.value t mem = some (decimal ds : ℤ) := by
  have hlt : decimal ds < 2 ^ 32 := by omega
  rw [Param.value, entry_of_block hds hlt hblock hlast ht, Option.map_some, Option.some.injEq]
  exact (p.decode_iff hlt).2 (.inr (hp.imp_right fun hp => ⟨hp, hn⟩)) mem

/-- `mod_yesno` accepts everything if zero was written, and rejects everything if another number
was. -/
theorem modYesno_of_block (hds : Numeral ds) (hn : decimal ds < 2 ^ 31)
    (hblock : BlockText (before ++ (Param.yesnoValue.name.toList, ds) :: after) text)
    (hlast : ∀ l ∈ after, String.ofList l.1 ≠ Param.yesnoValue.name)
    (ht : loadModule files text = .ok t) (mem : List (BitVec 8)) :
    modYesno t mem = if decimal ds = 0 then .accept else .reject := by
  rw [modYesno, value_of_block (.inr rfl) hds hn hblock hlast ht mem]
  simp only [Int.natCast_eq_zero]

/-- `mod_random` accepts if the draw below the number that was written is one, so that it never
accepts if zero or one was written. -/
theorem modRandom_of_block (hds : Numeral ds) (hn : decimal ds < 2 ^ 31)
    (hblock : BlockText (before ++ (Param.randomValue.name.toList, ds) :: after) text)
    (hlast : ∀ l ∈ after, String.ofList l.1 ≠ Param.randomValue.name)
    (ht : loadModule files text = .ok t) (mem : List (BitVec 8)) {draw : ℤ → ℤ}
    (hdraw : ∀ v, 0 < v → 0 ≤ draw v ∧ draw v < v) :
    modRandom t mem draw = .accept ↔ 1 < decimal ds ∧ draw (decimal ds) = 1 := by
  rw [modRandom, value_of_block (.inl rfl) hds hn hblock hlast ht mem]
  dsimp only
  split_ifs with hlow hone
  · refine iff_of_false nofun fun h => ?_
    omega
  · have hbelow := (hdraw (decimal ds) (by omega)).2
    exact iff_of_true rfl ⟨by omega, hone⟩
  · exact iff_of_false nofun fun h => hone h.2

end Blocks

/-- **Numbers.** A module block sets a parameter to a numeral, in its last line for it. Whatever
lies behind the entry in memory, the module reads the number that was written exactly if it is zero,
or if the module reads an `int`, and the number is in its range. -/
theorem param_iff {p : Param} {ds text : List Char} {before after : List (List Char × List Char)}
    {files : Files} {t : ModSettings} (hds : Numeral ds) (hn : decimal ds < 2 ^ 32)
    (hblock : BlockText (before ++ (p.name.toList, ds) :: after) text)
    (hlast : ∀ l ∈ after, String.ofList l.1 ≠ p.name) (ht : loadModule files text = .ok t) :
    (∀ mem, p.value t mem = some (decimal ds : ℤ)) ↔
      decimal ds = 0 ∨ p = .randomValue ∨ p = .yesnoValue ∧ decimal ds < 2 ^ 31 := by
  rw [← p.decode_iff hn]
  refine forall_congr' fun mem => ?_
  rw [Param.value, entry_of_block hds hn hblock hlast ht, Option.map_some, Option.some.injEq]

namespace Sample

/-- The test for a word that is no number and no keyword. -/
def word (s : String) : Bool :=
  s.toList.all isWordChar && !s.toList.all Char.isDigit && !s.toList.isEmpty &&
    !List.isPrefixOf ['/', '/'] s.toList && (keywordOf s.toList).isNone

theorem word_iff {s : String} (h : word s = true) : Word s.toList := by
  simp only [word, Bool.and_eq_true, Bool.not_eq_true', List.all_eq_true, Option.isNone_iff_eq_none,
    Bool.eq_false_iff, ne_eq, List.isEmpty_iff, List.isPrefixOf_iff_prefix] at h
  obtain ⟨⟨⟨⟨hword, hdigit⟩, hne⟩, hplain⟩, hkey⟩ := h
  exact ⟨⟨hne, fun c hc => isExprChar_of_isWordChar (hword c hc), hplain⟩, hword, hdigit, hkey⟩

/-- A system on which the backup file can be opened. -/
def files : Files :=
  ⟨"hash.db", fun _ => false, fun _ => true⟩

/-- The lines of a block as in `honeybrid.conf`: the function, and a parameter. -/
def lines (p : Param) (function : String) (ds : List Char) : List (List Char × List Char) :=
  [("function".toList, function.toList)] ++ (p.name.toList, ds) :: []

theorem exists_module (p : Param) (function : String) {ds : List Char} (hf : word function = true)
    (hds : Numeral ds) (hfunction : tableOf (lines p function ds) "function" ≠ none)
    (hbackup : tableOf (lines p function ds) "backup" = none) :
    ∃ text t, BlockText (lines p function ds) text ∧ loadModule files text = .ok t := by
  have hp : word p.name = true := by
    cases p <;> decide
  have hls : ∀ l ∈ lines p function ds, Word l.1 ∧ Operand l.2 := by
    simp only [lines, List.cons_append, List.nil_append, List.forall_mem_cons, List.not_mem_nil,
      false_implies, implies_true, and_true]
    exact ⟨⟨word_iff (by decide), (word_iff hf).toLexeme, (word_iff hf).notKeyword⟩, word_iff hp,
      hds.operand⟩
  obtain ⟨text, hblock⟩ := exists_blockText hls
  obtain ⟨name, hload⟩ := loadModule_text files hblock
  refine ⟨text, tableOf (lines p function ds), hblock, hload.trans ?_⟩
  rw [moduleAction, if_neg hfunction, if_pos hbackup]

end Sample

/-- The module `no` of `honeybrid.conf`. -/
theorem param_no : ∃ text t, BlockText (Sample.lines .yesnoValue "yesno" ['1']) text ∧
    loadModule Sample.files text = .ok t ∧ ∀ mem, Param.yesnoValue.value t mem = some 1 := by
  have hds : Numeral ['1'] := ⟨by decide, List.all_eq_true.1 (by decide)⟩
  obtain ⟨text, t, hblock, ht⟩ :=
    Sample.exists_module .yesnoValue "yesno" (by decide) hds (by decide) (by decide)
  exact ⟨text, t, hblock, ht,
    (param_iff hds (by decide) hblock (by simp) ht).2 (.inr (.inr ⟨rfl, by decide⟩))⟩

/-- The module `counter` of `honeybrid.conf`, which is to accept after two packets. -/
theorem param_counter : ¬∀ (p : Param) (ds text : List Char)
    (before after : List (List Char × List Char)) (files : Files) (t : ModSettings), Numeral ds →
    decimal ds < 2 ^ 32 → BlockText (before ++ (p.name.toList, ds) :: after) text →
    (∀ l ∈ after, String.ofList l.1 ≠ p.name) → loadModule files text = .ok t →
    ∀ mem, p.value t mem = some (decimal ds : ℤ) := by
  intro hall
  have hds : Numeral ['2'] := ⟨by decide, List.all_eq_true.1 (by decide)⟩
  obtain ⟨text, t, hblock, ht⟩ :=
    Sample.exists_module .counter "counter" (by decide) hds (by decide) (by decide)
  have hvalue := hall .counter ['2'] text _ _ Sample.files t hds (by decide) hblock (by simp) ht []
  have hentry : t "counter" = some (.number 2) := by
    rw [loadModule_eq hblock ht (by decide)]
    decide
  rw [Param.value, Param.name, hentry] at hvalue
  exact absurd hvalue (by decide)

end Honeybrid
