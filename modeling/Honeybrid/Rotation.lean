import Honeybrid.LogText

/-!
# Log rotation

With `log_rotation` set, `connection_log` calls `rotate_connection_log` before it writes a row,
which puts the log file away when the hour has changed; the signal `SIGUSR1` makes it do so at any
time. The first call only takes note of the hour, also for a signal.

At its end the rotation hands the text of its last message to `L`, which frees it since `LOG_LEVEL`
is zero, and then frees it again. The program does not survive this. The file has been renamed and
opened again by then, but the row that asked for the rotation is not written.

The rows of a run are numbered in the order in which they are written. Calls are taken one at a
time, and the log file can be opened again.

## Main definitions

* `rotateConnectionLog`, `LogCall.apply`, `logDir`: the files.
* `Lasts`: the calls after which there has been no rotation.

## Main results

* `rows_written_kept`: the rows are in one file, and the program runs on until the first rotation.
-/

namespace Honeybrid

/-! ### Names and hours -/

/-- `struct tm`, down to the minute. -/
structure Tm where
  year : ℕ
  mon : ℕ
  mday : ℕ
  hour : ℕ
  min : ℕ
  mon_lt : mon < 12
  mday_lt : mday < 32
  hour_lt : hour < 24
  min_lt : min < 60
  deriving DecidableEq

/-- The number of an hour: the year, the month, the day and the hour. -/
def Tm.timestamp (tm : Tm) : ℕ :=
  tm.year * 1000000 + (1 + tm.mon) * 10000 + tm.mday * 100 + tm.hour

/-- The hour of `tm` is before that of `tm'`. -/
def Tm.EarlierHour (tm tm' : Tm) : Prop :=
  tm.year < tm'.year ∨ tm.year = tm'.year ∧ (tm.mon < tm'.mon ∨ tm.mon = tm'.mon ∧
    (tm.mday < tm'.mday ∨ tm.mday = tm'.mday ∧ tm.hour < tm'.hour))

/-- What `%02d` prints. -/
def twoDigits (n : ℕ) : List Char :=
  if n < 10 then '0' :: Nat.toDigits 10 n else Nat.toDigits 10 n

/-- The name of a file that is put away: `%s.%d%02d%02d_%02d%02d`. -/
def rotatedName (file : List Char) (tm : Tm) : List Char :=
  file ++ '.' :: (Nat.toDigits 10 (1900 + tm.year) ++ (twoDigits (1 + tm.mon) ++
    (twoDigits tm.mday ++ '_' :: (twoDigits tm.hour ++ twoDigits tm.min))))

section Names

variable {file : List Char} {tm tm' : Tm}

theorem rotatedName_ne : rotatedName file tm ≠ file := by
  intro h
  have hlen := congrArg List.length h
  simp only [rotatedName, List.length_append, List.length_cons] at hlen
  omega

theorem Tm.timestamp_pos (tm : Tm) : 0 < tm.timestamp := by
  rw [Tm.timestamp]
  omega

/-- The numbers of the hours are ordered like the hours. -/
theorem Tm.timestamp_lt_iff : tm.timestamp < tm'.timestamp ↔ tm.EarlierHour tm' := by
  obtain ⟨year, mon, mday, hour, min, hmon, hmday, hhour, -⟩ := tm
  obtain ⟨year', mon', mday', hour', min', hmon', hmday', hhour', -⟩ := tm'
  simp only [Tm.timestamp, Tm.EarlierHour]
  omega

end Names

/-! ### Files -/

/-- The rows of the run that each file holds, `last_rotation`, the number of rows, and whether the
program was ended by the second `free`. -/
structure LogDir where
  files : List Char → List ℕ := fun _ => []
  lastRotation : ℕ := 0
  rows : ℕ := 0
  aborted : Bool := false

/-- `rotate_connection_log`. A file that cannot be renamed is opened again. -/
def rotateConnectionLog (file : List Char) (signal : Bool) (tm : Tm) (renames : Bool) (d : LogDir) :
    LogDir :=
  if d.lastRotation = 0 then { d with lastRotation := tm.timestamp }
  else if d.lastRotation < tm.timestamp ∨ signal = true then
    { d with
      files :=
        if renames then
          Function.update (Function.update d.files (rotatedName file tm) (d.files file)) file []
        else d.files
      lastRotation := tm.timestamp
      -- `L(NULL, logbuf, LOG_HIGH, LOG_LOG)` has freed `logbuf` before `g_free(logbuf)`
      aborted := true }
  else d

/-- Writes a row to the log file. -/
def LogDir.write (file : List Char) (d : LogDir) : LogDir :=
  { d with
    files := Function.update d.files file (d.files file ++ [d.rows])
    rows := d.rows + 1 }

/-- A call of `connection_log`, or the signal `SIGUSR1`, at a time, and whether the file can be
renamed then. -/
inductive LogCall
  | row (tm : Tm) (renames : Bool)
  | signal (tm : Tm) (renames : Bool)

/-- `connection_log`, where `rotation` says whether `log_rotation` is set. -/
def connectionLogRow (file : List Char) (rotation : Bool) (tm : Tm) (renames : Bool) (d : LogDir) :
    LogDir :=
  let d := if rotation then rotateConnectionLog file false tm renames d else d
  if d.aborted then d else d.write file

/-- A call. Nothing follows the end of the program. -/
def LogCall.apply (file : List Char) (rotation : Bool) (d : LogDir) (c : LogCall) : LogDir :=
  if d.aborted then d
  else
    match c with
    | row tm renames => connectionLogRow file rotation tm renames d
    | signal tm renames => rotateConnectionLog file true tm renames d

/-- The files after some calls. -/
def logDir (file : List Char) (rotation : Bool) (calls : List LogCall) : LogDir :=
  calls.foldl (LogCall.apply file rotation) {}

/-! ### Calls without a rotation -/

/-- The call looks at the hour. -/
def LogCall.looks (rotation : Bool) : LogCall → Bool
  | row .. => rotation
  | signal .. => true

/-- The time of a call. -/
def LogCall.tm : LogCall → Tm
  | row tm _ => tm
  | signal tm _ => tm

/-- The call is one of `connection_log`. -/
def LogCall.isRow : LogCall → Bool
  | row .. => true
  | signal .. => false

/-- The call is no signal, and not in an hour after the one that was noted. -/
def LogCall.Stays (noted : Tm) : LogCall → Prop
  | row tm _ => ¬noted.EarlierHour tm
  | signal .. => False

/-- After the first call that looks at the hour, there was no signal, and no row in a later hour. -/
def Lasts (rotation : Bool) (calls : List LogCall) : Prop :=
  match calls.filter (LogCall.looks rotation) with
  | [] => True
  | first :: others => ∀ c ∈ others, c.Stays first.tm

/-- The number of the hour that was noted, or zero. -/
def notedHour (rotation : Bool) (calls : List LogCall) : ℕ :=
  match calls.filter (LogCall.looks rotation) with
  | [] => 0
  | first :: _ => first.tm.timestamp

section Runs

variable {file : List Char} {rotation signal renames : Bool} {calls : List LogCall} {tm : Tm}
  {c : LogCall} {d : LogDir}

theorem logDir_concat (calls : List LogCall) (c : LogCall) :
    logDir file rotation (calls ++ [c]) = c.apply file rotation (logDir file rotation calls) := by
  rw [logDir, List.foldl_append]
  rfl

/-- The rows are in the log file, or, if the program has ended, where they were put away. -/
def RowsKept (file : List Char) (d : LogDir) : Prop :=
  (d.aborted = false → d.files file = List.range d.rows) ∧ ∃ name, d.files name = List.range d.rows

theorem RowsKept.of_file (h : d.files file = List.range d.rows) : RowsKept file d :=
  ⟨fun _ => h, file, h⟩

theorem RowsKept.rotate (hfile : d.files file = List.range d.rows) (signal : Bool) (tm : Tm)
    (renames : Bool) : RowsKept file (rotateConnectionLog file signal tm renames d) := by
  rw [rotateConnectionLog]
  split_ifs with hfirst hrotate hrenames
  · exact .of_file hfile
  · refine ⟨nofun, rotatedName file tm, ?_⟩
    show Function.update (Function.update d.files _ (d.files file)) file [] _ = _
    rw [Function.update_of_ne rotatedName_ne, Function.update_self]
    exact hfile
  · exact ⟨nofun, file, hfile⟩
  · exact .of_file hfile

theorem RowsKept.write (hfile : d.files file = List.range d.rows) :
    RowsKept file (d.write file) := by
  refine .of_file ?_
  show Function.update d.files file (d.files file ++ [d.rows]) file = List.range (d.rows + 1)
  rw [Function.update_self, hfile, List.range_succ]

theorem RowsKept.row (hfile : d.files file = List.range d.rows) (rotation : Bool) (tm : Tm)
    (renames : Bool) : RowsKept file (connectionLogRow file rotation tm renames d) := by
  rw [connectionLogRow]
  have hkept : RowsKept file
      (if rotation then rotateConnectionLog file false tm renames d else d) := by
    split_ifs
    · exact .rotate hfile false tm renames
    · exact .of_file hfile
  generalize (if rotation then rotateConnectionLog file false tm renames d else d) = d' at hkept
  split_ifs with haborted
  · exact hkept
  · exact .write (hkept.1 (Bool.eq_false_of_not_eq_true haborted))

theorem RowsKept.apply (h : RowsKept file d) (c : LogCall) :
    RowsKept file (c.apply file rotation d) := by
  unfold LogCall.apply
  split_ifs with haborted
  · exact h
  · have hfile := h.1 (Bool.eq_false_of_not_eq_true haborted)
    cases c with
    | row tm renames => exact .row hfile rotation tm renames
    | signal tm renames => exact .rotate hfile true tm renames

theorem rowsKept (file : List Char) (rotation : Bool) (calls : List LogCall) :
    RowsKept file (logDir file rotation calls) := by
  induction calls using List.reverseRecOn with
  | nil => exact .of_file rfl
  | append_singleton calls c ih =>
    rw [logDir_concat]
    exact ih.apply c

/-! ### The end of the program -/

theorem rotate_aborted (h : d.aborted = false) :
    (rotateConnectionLog file signal tm renames d).aborted = false ↔
      d.lastRotation = 0 ∨ ¬d.lastRotation < tm.timestamp ∧ signal = false := by
  rw [rotateConnectionLog]
  split_ifs with hfirst hrotate
  · exact iff_of_true h (.inl hfirst)
  · refine iff_of_false (by simp) ?_
    rintro (hno | ⟨hle, hsignal⟩)
    · exact hfirst hno
    · rcases hrotate with hlt | hset
      · exact hle hlt
      · rw [hsignal] at hset
        cases hset
  · push Not at hrotate
    exact iff_of_true h (.inr ⟨hrotate.1.not_gt, Bool.eq_false_of_not_eq_true hrotate.2⟩)

theorem rotate_lastRotation (h : (rotateConnectionLog file signal tm renames d).aborted = false) :
    (rotateConnectionLog file signal tm renames d).lastRotation =
      if d.lastRotation = 0 then tm.timestamp else d.lastRotation := by
  rw [rotateConnectionLog] at h ⊢
  split_ifs at h ⊢
  · rfl
  · rfl

/-- The call rotates the log at most if it looks at the hour. -/
theorem apply_of_not_looks (file : List Char) (h : d.aborted = false)
    (hlooks : c.looks rotation = false) :
    (c.apply file rotation d).aborted = false ∧
      (c.apply file rotation d).lastRotation = d.lastRotation := by
  cases c with
  | row tm renames =>
    obtain rfl : rotation = false := hlooks
    simp [LogCall.apply, connectionLogRow, LogDir.write, h]
  | signal tm renames => cases hlooks

theorem row_aborted : (connectionLogRow file true tm renames d).aborted =
    (rotateConnectionLog file false tm renames d).aborted := by
  rw [connectionLogRow]
  rw [if_pos rfl]
  split_ifs <;> rfl

theorem row_lastRotation : (connectionLogRow file true tm renames d).lastRotation =
    (rotateConnectionLog file false tm renames d).lastRotation := by
  rw [connectionLogRow]
  rw [if_pos rfl]
  split_ifs <;> rfl

/-- What a call that looks at the hour does to the hour that was noted. -/
theorem apply_of_looks (file : List Char) (h : d.aborted = false)
    (hlooks : c.looks rotation = true) :
    ((c.apply file rotation d).aborted = false ↔
      d.lastRotation = 0 ∨ ¬d.lastRotation < c.tm.timestamp ∧ ∃ tm renames, c = .row tm renames) ∧
    ((c.apply file rotation d).aborted = false → (c.apply file rotation d).lastRotation =
      if d.lastRotation = 0 then c.tm.timestamp else d.lastRotation) := by
  have hlives : ¬d.aborted = true := by
    rw [h]
    exact Bool.false_ne_true
  cases c with
  | row tm renames =>
    obtain rfl : rotation = true := hlooks
    have happly : (LogCall.row tm renames).apply file true d =
        connectionLogRow file true tm renames d := if_neg hlives
    rw [happly, row_aborted, row_lastRotation]
    refine ⟨(rotate_aborted h).trans (or_congr_right (and_congr_right fun _ => ?_)),
      rotate_lastRotation⟩
    exact iff_of_true rfl ⟨tm, renames, rfl⟩
  | signal tm renames =>
    have happly : (LogCall.signal tm renames).apply file rotation d =
        rotateConnectionLog file true tm renames d := if_neg hlives
    rw [happly]
    refine ⟨(rotate_aborted h).trans (or_congr_right (and_congr_right fun _ => ?_)),
      rotate_lastRotation⟩
    exact iff_of_false Bool.noConfusion (by rintro ⟨_, _, hno⟩; cases hno)

theorem notedHour_concat (calls : List LogCall) (c : LogCall) :
    notedHour rotation (calls ++ [c]) =
      if c.looks rotation = true ∧ notedHour rotation calls = 0 then c.tm.timestamp
      else notedHour rotation calls := by
  rw [notedHour, notedHour, List.filter_append]
  cases hcalls : calls.filter (LogCall.looks rotation) with
  | nil => cases hlooks : c.looks rotation <;> simp [hlooks]
  | cons first others => simp [first.tm.timestamp_pos.ne']

/-- The call is no signal, and not in a later hour than the one that was noted. -/
theorem lasts_concat (calls : List LogCall) (c : LogCall) :
    Lasts rotation (calls ++ [c]) ↔ Lasts rotation calls ∧ (c.looks rotation = true →
      notedHour rotation calls = 0 ∨ ¬notedHour rotation calls < c.tm.timestamp ∧
        ∃ tm renames, c = .row tm renames) := by
  rw [Lasts, Lasts, notedHour, List.filter_append]
  cases hcalls : calls.filter (LogCall.looks rotation) with
  | nil => cases hlooks : c.looks rotation <;> simp [hlooks]
  | cons first others =>
    have hstays : c.Stays first.tm ↔
        first.tm.timestamp = 0 ∨ ¬first.tm.timestamp < c.tm.timestamp ∧
          ∃ tm renames, c = .row tm renames := by
      rw [or_iff_right first.tm.timestamp_pos.ne', Tm.timestamp_lt_iff]
      cases c with
      | row tm renames => exact (and_iff_left ⟨tm, renames, rfl⟩).symm
      | signal tm renames => exact iff_of_false id (by rintro ⟨-, _, _, hno⟩; cases hno)
    cases hlooks : c.looks rotation with
    | false => simp [hlooks]
    | true =>
      simp only [List.cons_append, List.filter_cons_of_pos hlooks, List.filter_nil,
        List.forall_mem_append, List.forall_mem_singleton, forall_const, hstays]

/-- The program is there, with the hour that was noted first, as long as the log lasts. -/
theorem logDir_aborted (file : List Char) (rotation : Bool) (calls : List LogCall) :
    ((logDir file rotation calls).aborted = false ↔ Lasts rotation calls) ∧
      ((logDir file rotation calls).aborted = false →
        (logDir file rotation calls).lastRotation = notedHour rotation calls) := by
  induction calls using List.reverseRecOn with
  | nil => exact ⟨iff_of_true rfl trivial, fun _ => rfl⟩
  | append_singleton calls c ih =>
    obtain ⟨ihlasts, ihhour⟩ := ih
    rw [logDir_concat, lasts_concat, notedHour_concat, ← ihlasts]
    cases haborted : (logDir file rotation calls).aborted with
    | true =>
      have happly : c.apply file rotation (logDir file rotation calls) =
          logDir file rotation calls := if_pos haborted
      rw [happly, haborted]
      exact ⟨iff_of_false nofun fun hno => Bool.noConfusion hno.1, nofun⟩
    | false =>
      have hhour := ihhour haborted
      cases hlooks : c.looks rotation with
      | false =>
        obtain ⟨hlives, hsame⟩ := apply_of_not_looks file haborted hlooks
        refine ⟨iff_of_true hlives ⟨rfl, nofun⟩, fun _ => ?_⟩
        rw [hsame, hhour, if_neg fun hno => Bool.noConfusion hno.1]
      | true =>
        obtain ⟨hlives, hnoted⟩ := apply_of_looks file haborted hlooks
        rw [hhour] at hlives hnoted
        refine ⟨hlives.trans (by simp), fun h => ?_⟩
        rw [hnoted h]
        simp

/-! ### The rows -/

theorem rotate_rows : (rotateConnectionLog file signal tm renames d).rows = d.rows := by
  rw [rotateConnectionLog]
  split_ifs <;> rfl

theorem row_rows : (connectionLogRow file rotation tm renames d).rows =
    if (connectionLogRow file rotation tm renames d).aborted then d.rows else d.rows + 1 := by
  have hrows : (if rotation then rotateConnectionLog file false tm renames d else d).rows =
      d.rows := by
    split_ifs
    · exact rotate_rows
    · rfl
  rw [connectionLogRow]
  generalize (if rotation then rotateConnectionLog file false tm renames d else d) = d' at hrows
  by_cases haborted : d'.aborted = true
  · rw [if_pos haborted, if_pos haborted, hrows]
  · rw [if_neg haborted]
    show d'.rows + 1 = if d'.aborted = true then _ else _
    rw [if_neg haborted, hrows]

/-- A call writes a row if it is one of `connection_log` and does not end the program. -/
theorem apply_rows : (c.apply file rotation d).rows =
    if (c.apply file rotation d).aborted = false ∧ c.isRow = true then d.rows + 1 else d.rows := by
  by_cases hlives : d.aborted = true
  · have happly : c.apply file rotation d = d := if_pos hlives
    rw [happly, hlives, if_neg fun hno => Bool.noConfusion hno.1]
  · cases c with
    | row tm renames =>
      have happly : (LogCall.row tm renames).apply file rotation d =
          connectionLogRow file rotation tm renames d := if_neg hlives
      rw [happly, row_rows]
      cases (connectionLogRow file rotation tm renames d).aborted <;> rfl
    | signal tm renames =>
      have happly : (LogCall.signal tm renames).apply file rotation d =
          rotateConnectionLog file true tm renames d := if_neg hlives
      rw [happly, rotate_rows, if_neg fun hno => Bool.noConfusion hno.2]

/-- As long as the program is there, every row is written. -/
theorem rows_of_lasts (h : Lasts rotation calls) :
    (logDir file rotation calls).rows = calls.countP LogCall.isRow := by
  induction calls using List.reverseRecOn with
  | nil => rfl
  | append_singleton calls c ih =>
    have hlives := (logDir_aborted file rotation (calls ++ [c])).1.2 h
    have hrows := ih ((lasts_concat calls c).1 h).1
    rw [logDir_concat] at hlives ⊢
    rw [apply_rows, hlives, hrows, List.countP_append, List.countP_singleton]
    cases c <;> rfl

/-- No row is written by the call that ends the program, or after it. -/
theorem rows_of_not_lasts (h : ¬Lasts rotation (calls ++ [c])) :
    (logDir file rotation (calls ++ [c])).rows = (logDir file rotation calls).rows := by
  have haborted := mt (logDir_aborted file rotation (calls ++ [c])).1.1 h
  rw [logDir_concat] at haborted ⊢
  rw [apply_rows, if_neg fun hno => haborted hno.1]

end Runs

/-- **The rows of the log.** In every run of rows and signals, on any clock and whether or not the
file can be renamed, the rows that were written are in one file, in their order. The program is
still there exactly if, after the first call that looked at the hour, there was no signal, and no
row in a later hour; until then every row is written, and then none. -/
theorem rows_written_kept (file : List Char) (rotation : Bool) (calls : List LogCall) :
    (∃ name, (logDir file rotation calls).files name =
      List.range (logDir file rotation calls).rows) ∧
    ((logDir file rotation calls).aborted = false ↔ Lasts rotation calls) ∧
    (Lasts rotation calls →
      (logDir file rotation calls).rows = calls.countP LogCall.isRow) ∧
    ∀ c, ¬Lasts rotation (calls ++ [c]) →
      (logDir file rotation (calls ++ [c])).rows = (logDir file rotation calls).rows :=
  ⟨(rowsKept file rotation calls).2, (logDir_aborted file rotation calls).1, rows_of_lasts,
    fun _ => rows_of_not_lasts⟩

namespace Sample

/-- A minute of the first of January 1970. -/
def minute (hour min : ℕ) (hhour : hour < 24) (hmin : min < 60) : Tm where
  year := 70
  mon := 0
  mday := 1
  hour := hour
  min := min
  mon_lt := by decide
  mday_lt := by decide
  hour_lt := hhour
  min_lt := hmin

end Sample

/-- The first row of a new hour is not written; the one before has been put away. -/
example :
    let calls : List LogCall :=
      [.row (Sample.minute 1 59 (by decide) (by decide)) true,
        .row (Sample.minute 2 0 (by decide) (by decide)) true]
    let d := logDir "log".toList true calls
    d.aborted = true ∧ d.rows = 1 ∧ d.files "log".toList = [] ∧
      d.files "log.19700101_0200".toList = [0] := by
  decide +kernel

end Honeybrid
