import Honeybrid.ModuleSettings

/-!
# Modules with a backup

The modules `control`, `source`, `source_time` and `hash` keep records in a key file, which the
action of `module` has put into their table under `backup`. They also want the path of this file,
under `backup_file`; the grammar enters no such name.

A record has a counter, the time of its first packet and a duration, written as decimal numbers; it
is renewed when its duration is longer than the expiration. The key file is given by the records it
holds: those of the group `source`, by address, and those of `hash`, by port and digest.

## Main definitions

* `Deferral`: why a module does not decide.
* `Record`, `sight`: the records, and what becomes of one when its source is seen.
* `modControl`, `modSource`, `modSourceTime`, `modHash`: the functions of the modules.
* `Payload.buffer`, `Payload.normalised`, `Payload.digested`, `Payload.ascii`: what `mod_hash` does
  with a payload.
* `Equips`: a table with which a module is not in want of configuration.

## Main results

* `equips_iff`: the table of a block with `backup` equips a module exactly if the block has a line
  for `backup_file` as well.
-/

namespace Honeybrid

/-- Why a module returns `DEFER`. -/
inductive Deferral
  /-- `No data to work on` -/
  | noData
  /-- `mandatory argument 'backup' undefined!` -/
  | backupUndefined
  /-- `error, backup file path missing` -/
  | backupFileMissing
  /-- `Misconfiguration: allow_after is greater then deny_after!` -/
  | misconfiguration
  deriving DecidableEq, Repr

/-- The deferrals for want of an entry in the table. -/
def Deferral.unequipped : Deferral → Bool
  | .backupUndefined | .backupFileMissing => true
  | _ => false

/-- The tests for the key file and its path. -/
def requireBackup (t : ModSettings) : Except Deferral Unit :=
  if t "backup" = none then .error .backupUndefined
  else if t "backup_file" = none then .error .backupFileMissing
  else .ok ()

/-- A number from the table, or its default. Behind the entries, memory holds `mem`. -/
def Param.valueD (p : Param) (t : ModSettings) (mem : String → List (BitVec 8)) (d : ℤ) : ℤ :=
  (p.value t (mem p.name)).getD d

/-! ### Records of sources -/

/-- A record: `counter`, `first seen` and `duration`. -/
structure Record where
  counter : BitVec 32
  firstSeen : BitVec 32
  duration : BitVec 32
  deriving DecidableEq, Repr

/-- The record of a first packet. -/
def Record.first (now : BitVec 32) : Record :=
  ⟨1, now, 0⟩

/-- The record with another packet. -/
def Record.again (r : Record) (now : BitVec 32) : Record :=
  ⟨r.counter + 1, r.firstSeen, now - r.firstSeen⟩

/-- `age > expiration`, where `age` is the duration of the record. -/
def Record.expired (r : Record) (expiration : ℤ) : Bool :=
  expiration < r.duration.toInt

/-- The branches of a module that looks a source up. -/
inductive Sighting
  | created | renewed | updated
  deriving DecidableEq, Repr

/-- What becomes of a record when its source is seen. -/
def sight (expiration : ℤ) (now : BitVec 32) : Option Record → Sighting × Record
  | none => (.created, .first now)
  | some r => if r.expired expiration then (.renewed, .first now) else (.updated, r.again now)

/-- The group `source` of a key file. -/
abbrev SourceDb := IpAddr → Option Record

/-- A day, the expiration of `mod_source` and `mod_hash`. -/
def DAY : ℤ := 24 * 3600

variable (t : ModSettings) (mem : String → List (BitVec 8)) (now : BitVec 32)

/-- `mod_control`. -/
def modControl (src : IpAddr) (db : SourceDb) : Except Deferral (ModResult × SourceDb) := do
  requireBackup t
  let expiration := Param.controlExpiration.valueD t mem 600
  let maxPacket := Param.maxPacket.valueD t mem 1000
  let (_, r) := sight expiration now (db src)
  return (if maxPacket < r.counter.toInt then .reject else .accept, Function.update db src (some r))

/-- `mod_source`. -/
def modSource (src : IpAddr) (db : SourceDb) : Except Deferral (ModResult × SourceDb) := do
  requireBackup t
  let (s, r) := sight DAY now (db src)
  return (if s = .updated then .reject else .accept, Function.update db src (some r))

/-- `mod_source_time`. -/
def modSourceTime (src : IpAddr) (db : SourceDb) : Except Deferral (ModResult × SourceDb) := do
  requireBackup t
  let expiration := Param.sourceExpiration.valueD t mem DAY
  let denyAfter := Param.denyAfter.valueD t mem 1200
  let allowAfter := Param.allowAfter.valueD t mem 0
  if denyAfter ≤ allowAfter then .error .misconfiguration
  else
    let (s, r) := sight expiration now (db src)
    let allowed : Bool :=
      if s = .updated then
        now.toInt ≤ (r.firstSeen + BitVec.ofInt 32 denyAfter).toInt ∧
          (r.firstSeen + BitVec.ofInt 32 allowAfter).toInt ≤ now.toInt
      else allowAfter = 0
    return (if allowed then .accept else .reject, Function.update db src (some r))

/-! ### Times and counters -/

section

variable {now : ℤ} {first counter : BitVec 32}

theorem toInt_ofInt_now (h₀ : 0 ≤ now) (h₁ : now < 2 ^ 31) : (BitVec.ofInt 32 now).toInt = now := by
  rw [BitVec.toInt_ofInt]
  simp only [Int.bmod]
  omega

theorem toInt_now_sub (hfirst : 0 ≤ first.toInt) (h₀ : first.toInt ≤ now)
    (h₁ : now < 2 ^ 31) : (BitVec.ofInt 32 now - first).toInt = now - first.toInt := by
  rw [BitVec.toInt_sub, toInt_ofInt_now (hfirst.trans h₀) h₁]
  simp only [Int.bmod]
  omega

theorem toInt_add_one (h : counter.toInt < 2 ^ 31 - 1) :
    (counter + 1).toInt = counter.toInt + 1 := by
  have hlow := BitVec.le_toInt counter
  rw [BitVec.toInt_add, show (1 : BitVec 32).toInt = 1 from rfl]
  simp only [Int.bmod]
  omega

end

/-! ### Records of payloads -/

/-- A string of C: the octets up to the first zero. -/
def cString (b : List (BitVec 8)) : List (BitVec 8) :=
  b.takeWhile (· ≠ 0)

/-- The payload of a packet, as far as `mod_hash` reads it: `data` and the octets at `payload`. -/
structure Payload where
  data : BitVec 32
  octets : List (BitVec 8)
  deriving DecidableEq, Repr

/-- The buffer of `data + 1` octets after the copy: the last octet but one is not written, and holds
`u`. -/
def Payload.buffer (p : Payload) (u : BitVec 8) : List (BitVec 8) :=
  p.octets.take (p.data - 1).toNat ++ [u, 0]

/-- The payload after the addresses in it have been replaced. `replace` stands for `g_regex_match`
and `g_regex_replace`, on a string of C. -/
def Payload.normalised (replace : List (BitVec 8) → Option (List (BitVec 8))) (p : Payload)
    (u : BitVec 8) : List (BitVec 8) :=
  match replace (cString (p.buffer u)) with
  | some s => s ++ [0]
  | none => p.buffer u

/-- The octets that are digested: `data - 2` of them, with what lies behind the buffer. -/
def Payload.digested (replace : List (BitVec 8) → Option (List (BitVec 8))) (p : Payload)
    (u : BitVec 8) (behind : List (BitVec 8)) : List (BitVec 8) :=
  (p.normalised replace u ++ behind).take (p.data - 2).toNat

/-- `ascii_len`. -/
def Payload.asciiLen (replace : List (BitVec 8) → Option (List (BitVec 8))) (p : Payload)
    (u : BitVec 8) : ℕ :=
  min 64 (cString (p.normalised replace u)).length

/-- `isprint`. -/
def isPrint (b : BitVec 8) : Bool :=
  32 ≤ b ∧ b < 127

/-- The printable form of a payload. -/
def Payload.ascii (replace : List (BitVec 8) → Option (List (BitVec 8))) (p : Payload)
    (u : BitVec 8) : List (BitVec 8) :=
  ((p.normalised replace u).take (p.asciiLen replace u)).map fun b => if isPrint b then b else 46

/-- A record of `mod_hash`, with the number of the packet, its size and its printable form. -/
structure HashRecord extends Record where
  packet : BitVec 32
  byte : BitVec 32
  ascii : List (BitVec 8)
  deriving DecidableEq, Repr

/-- The groups of `mod_hash`: records by port and digest. -/
abbrev HashDb (δ : Type) := Port → δ → Option HashRecord

/-- The record of a known payload that has not expired. -/
def HashRecord.hit (r : HashRecord) (now : BitVec 32) : HashRecord :=
  { r with counter := r.counter + 1, duration := now - r.duration }

/-- What becomes of a record when its payload is seen. The last character of the printable form
makes room for the end of the string. -/
def sightHash (now data count : BitVec 32) (ascii : List (BitVec 8)) :
    Option HashRecord → Sighting × HashRecord
  | none =>
    (.created, { Record.first now with packet := count, byte := data, ascii := ascii.dropLast })
  | some r =>
    if r.expired DAY then
      (.renewed, { r with toRecord := .first now, packet := count })
    else (.updated, { r.hit now with packet := count })

/-- What `mod_hash` takes from the libraries and from memory: the replacement of addresses, the
digest, the octet of the buffer that is not written, and the octets behind the buffer. -/
structure HashEnv (δ : Type) where
  replace : List (BitVec 8) → Option (List (BitVec 8))
  digest : List (BitVec 8) → δ
  unwritten : BitVec 8
  behind : List (BitVec 8)

variable {δ : Type} [DecidableEq δ]

/-- `mod_hash`, for the packet `count` of a connection, with the destination port `dest`. -/
def modHash (env : HashEnv δ) (dest : Port) (p : Payload) (count : BitVec 32) (db : HashDb δ) :
    Except Deferral (ModResult × HashDb δ) :=
  if p.data = 0 then .error .noData
  else do
    requireBackup t
    let hash := env.digest (p.digested env.replace env.unwritten env.behind)
    let ascii := p.ascii env.replace env.unwritten
    let (s, r) := sightHash now p.data count ascii (db dest hash)
    return (if s = .updated then .reject else .accept,
      Function.update db dest (Function.update (db dest) hash (some r)))

/-! ### Configuration -/

/-- The functions that keep a backup. -/
def ModuleFn.backed : ModuleFn → Bool
  | .control | .source | .sourceTime | .hash => true
  | _ => false

/-- With this table, the function does not defer for want of configuration, on any packet with
data. -/
def Equips (t : ModSettings) : ModuleFn → Prop
  | .control => ∀ mem now src db d, modControl t mem now src db = .error d → d.unequipped = false
  | .source => ∀ now src db d, modSource t now src db = .error d → d.unequipped = false
  | .sourceTime =>
    ∀ mem now src db d, modSourceTime t mem now src db = .error d → d.unequipped = false
  | .hash => ∀ (now : BitVec 32) (env : HashEnv String) (dest : Port) (p : Payload)
      (count : BitVec 32) (db : HashDb String) (d : Deferral), p.data ≠ 0 →
      modHash t now env dest p count db = .error d → d.unequipped = false
  | _ => True

section Equipment

variable {t : ModSettings} {ls : List (List Char × List Char)} {text : List Char}

theorem BlockText.operands (h : BlockText ls text) : ∀ l ∈ ls, Operand l.2 := by
  cases h with
  | mk h₀ h₁ h₂ hname hls =>
    induction hls with
    | nil hg =>
      intro l hl
      cases hl
    | cons _ _ _ _ hn hvalue _ ih =>
      intro l hl
      cases hl with
      | head => exact hvalue
      | tail _ hl => exact ih l hl

/-- A table has the names that the lines have. -/
theorem tableOf_ne_none {name : String} (hls : ∀ l ∈ ls, Operand l.2) :
    tableOf ls name ≠ none ↔ ∃ l ∈ ls, String.ofList l.1 = name := by
  induction ls using List.reverseRecOn with
  | nil => simp [tableOf]
  | append_singleton ls l ih =>
    have hlast : tableOf (ls ++ [l]) =
        Function.update (tableOf ls) (String.ofList l.1) (tokenOf l.2).value := by
      rw [tableOf, List.foldl_append]
      rfl
    obtain ⟨v, hv⟩ := (hls l (by simp)).value
    rw [hlast, hv]
    by_cases hname : name = String.ofList l.1
    · subst hname
      rw [Function.update_self]
      exact iff_of_true (Option.some_ne_none v) ⟨l, by simp, rfl⟩
    · rw [Function.update_of_ne hname, ih fun l hl => hls l (List.mem_append_left _ hl)]
      constructor
      · rintro ⟨l', hl', h⟩
        exact ⟨l', List.mem_append_left _ hl', h⟩
      · rintro ⟨l', hl', h⟩
        obtain hl' | hl' := List.mem_append.1 hl'
        · exact ⟨l', hl', h⟩
        · cases List.mem_singleton.1 hl'
          exact absurd h.symm hname

/-- With both entries, a module decides or finds its numbers wrong. -/
theorem requireBackup_bind {α : Type} (hb : t "backup" ≠ none) (hf : t "backup_file" ≠ none)
    (x : Except Deferral α) : (requireBackup t >>= fun _ => x) = x := by
  rw [requireBackup, if_neg hb, if_neg hf]
  rfl

theorem requireBackup_missing {α : Type} (hb : t "backup" ≠ none) (hf : t "backup_file" = none)
    (x : Except Deferral α) : (requireBackup t >>= fun _ => x) = .error .backupFileMissing := by
  rw [requireBackup, if_neg hb, if_pos hf]
  rfl

theorem Equips.entry {fn : ModuleFn} (h : Equips t fn) (hfn : fn.backed = true)
    (hb : t "backup" ≠ none) : t "backup_file" ≠ none := by
  intro hf
  cases fn with
  | control =>
    have hdefer := h (fun _ => []) 0 0 (fun _ => none) .backupFileMissing
      (by rw [modControl, requireBackup_missing hb hf])
    cases hdefer
  | source =>
    have hdefer := h 0 0 (fun _ => none) .backupFileMissing
      (by rw [modSource, requireBackup_missing hb hf])
    cases hdefer
  | sourceTime =>
    have hdefer := h (fun _ => []) 0 0 (fun _ => none) .backupFileMissing
      (by rw [modSourceTime, requireBackup_missing hb hf])
    cases hdefer
  | hash =>
    have hdefer := h 0 ⟨fun _ => none, fun _ => "", 0, []⟩ 0 ⟨1, [0]⟩ 0 (fun _ _ => none)
      .backupFileMissing (by decide)
      (by rw [modHash, if_neg (by decide), requireBackup_missing hb hf])
    cases hdefer
  | random | yesno | counter | vmi | backpickRandom | dnsControl => cases hfn

theorem equips_of_entry (fn : ModuleFn) (hb : t "backup" ≠ none) (hf : t "backup_file" ≠ none) :
    Equips t fn := by
  cases fn with
  | control =>
    intro mem now src db d h
    rw [modControl, requireBackup_bind hb hf] at h
    cases h
  | source =>
    intro now src db d h
    rw [modSource, requireBackup_bind hb hf] at h
    cases h
  | sourceTime =>
    intro mem now src db d h
    rw [modSourceTime, requireBackup_bind hb hf] at h
    by_cases hm : Param.denyAfter.valueD t mem 1200 ≤ Param.allowAfter.valueD t mem 0
    · rw [if_pos hm] at h
      cases h
      rfl
    · rw [if_neg hm] at h
      cases h
  | hash =>
    intro now env dest p count db d hdata h
    rw [modHash, if_neg hdata, requireBackup_bind hb hf] at h
    cases h
  | random | yesno | counter | vmi | backpickRandom | dnsControl => trivial

theorem equips_iff_entry {fn : ModuleFn} (hfn : fn.backed = true) (hb : t "backup" ≠ none) :
    Equips t fn ↔ t "backup_file" ≠ none :=
  ⟨fun h => h.entry hfn hb, equips_of_entry fn hb⟩

/-- The key file is in the table of a block with a line for `backup`. -/
theorem backup_entry {files : Files} (hblock : BlockText ls text)
    (hbackup : ∃ l ∈ ls, String.ofList l.1 = "backup") (ht : loadModule files text = .ok t) :
    t "backup" ≠ none := by
  obtain ⟨_, hload⟩ := loadModule_text files hblock
  obtain ⟨hnone, -⟩ | ⟨-, rfl⟩ := moduleAction_cases (hload.symm.trans ht)
  · exact absurd hnone ((tableOf_ne_none hblock.operands).2 hbackup)
  · rw [Function.update_self]
    exact Option.some_ne_none _

end Equipment

/-- **Backups.** A block has a line for `backup`. The table that the grammar leaves of it equips the
function of the module exactly if the block has a line for `backup_file` as well, a name that no
documentation mentions as a parameter. -/
theorem equips_iff {fn : ModuleFn} {ls : List (List Char × List Char)} {text : List Char}
    {files : Files} {t : ModSettings} (hfn : fn.backed = true) (hblock : BlockText ls text)
    (hbackup : ∃ l ∈ ls, String.ofList l.1 = "backup") (ht : loadModule files text = .ok t) :
    Equips t fn ↔ ∃ l ∈ ls, String.ofList l.1 = "backup_file" := by
  rw [equips_iff_entry hfn (backup_entry hblock hbackup ht), loadModule_eq hblock ht (by decide),
    tableOf_ne_none hblock.operands]

namespace Sample

/-- The block of the module `hash` in the README. -/
def hashLines : List (List Char × List Char) :=
  [("function".toList, "hash".toList), ("backup".toList, "/etc/honeybrid/hash.tb".toList)]

/-- The same with the path under the name by which the module looks for it. -/
def pathLines : List (List Char × List Char) :=
  hashLines ++ [("backup_file".toList, "/etc/honeybrid/hash.tb".toList)]

theorem exists_backup {ls : List (List Char × List Char)} (hls : ls = hashLines ∨ ls = pathLines) :
    ∃ text t, BlockText ls text ∧ loadModule files text = .ok t := by
  have hpath : Operand "/etc/honeybrid/hash.tb".toList :=
    ⟨⟨by decide, List.all_eq_true.1 (by decide), by decide⟩, by decide⟩
  have hhash : Operand "hash".toList :=
    ⟨⟨by decide, List.all_eq_true.1 (by decide), by decide⟩, by decide⟩
  have hlines : ∀ l ∈ ls, Word l.1 ∧ Operand l.2 := by
    obtain rfl | rfl := hls
    · simp only [hashLines, List.forall_mem_cons, List.not_mem_nil, false_implies, implies_true,
        and_true]
      exact ⟨⟨word_iff (by decide), hhash⟩, word_iff (by decide), hpath⟩
    · simp only [pathLines, hashLines, List.cons_append, List.nil_append, List.forall_mem_cons,
        List.not_mem_nil, false_implies, implies_true, and_true]
      exact ⟨⟨word_iff (by decide), hhash⟩, ⟨word_iff (by decide), hpath⟩, word_iff (by decide),
        hpath⟩
  obtain ⟨text, hblock⟩ := exists_blockText hlines
  obtain ⟨name, hload⟩ := loadModule_text files hblock
  have hfunction : tableOf ls "function" ≠ none ∧ tableOf ls "backup" ≠ none := by
    obtain rfl | rfl := hls
    · decide
    · decide
  refine ⟨text, Function.update (tableOf ls) "backup" (some .keyFile), hblock, hload.trans ?_⟩
  rw [moduleAction, if_neg hfunction.1, if_neg hfunction.2]
  rfl

end Sample

theorem equips_path : ∃ text t, BlockText Sample.pathLines text ∧
    loadModule Sample.files text = .ok t ∧ Equips t .hash := by
  obtain ⟨text, t, hblock, ht⟩ := Sample.exists_backup (.inr rfl)
  exact ⟨text, t, hblock, ht, (equips_iff rfl hblock (by decide) ht).2 (by decide)⟩

/-- The module `hash` of the README is in want of configuration. -/
theorem equips_not : ¬∀ (fn : ModuleFn) (ls : List (List Char × List Char)) (text : List Char)
    (files : Files) (t : ModSettings), fn.backed = true → BlockText ls text →
    (∃ l ∈ ls, String.ofList l.1 = "backup") → loadModule files text = .ok t → Equips t fn := by
  intro hall
  obtain ⟨text, t, hblock, ht⟩ := Sample.exists_backup (.inl rfl)
  have hequips := hall .hash _ text Sample.files t rfl hblock (by decide) ht
  rw [equips_iff_entry rfl (backup_entry hblock (by decide) ht),
    loadModule_eq hblock ht (by decide)] at hequips
  exact hequips (by decide)

end Honeybrid
