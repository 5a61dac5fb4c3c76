import Honeybrid.ConnLog
import Honeybrid.EquationText

/-!
# The text of the connection log

`log_csv` prints a row as one line, with commas between the fields; the fields that
`connection_log` makes for the states have bars between their parts. The text of a rule that has
decided is always empty, since nothing is appended to `decision_rule`, and no module sets the data
that the last field would show.

Times are given by what is printed for them.

## Main definitions

* `LogLine`: what a line shows.
* `connectionLog`: the line that is written for a connection.
* `readLog`: what is read out of a file.

## Main results

* `readLog_connectionLog`: the file shows the rows that were written, in their order.
-/

namespace Honeybrid

/-! ### Fields -/

/-- What `%.3f` prints for a number of seconds. -/
structure Seconds where
  text : List Char
  digit : text.any Char.isDigit = true
  chars : text.all (fun c => c.isDigit || c = '-' || c = '.') = true
  deriving DecidableEq

/-- What is printed for `start_timestamp`: the signs of `%d-%02d-%02d %02d:%02d:%02d.%.6d`. -/
structure Stamp where
  text : List Char
  chars : text.all (fun c => c.isDigit || " -:.".toList.contains c) = true
  deriving DecidableEq

/-- The names of protocols. -/
inductive ProtocolName
  | tcp | udp | unsupported
  deriving DecidableEq, Repr

/-- The text of a name. -/
def ProtocolName.text : ProtocolName → List Char
  | tcp => "TCP".toList
  | udp => "UDP".toList
  | unsupported => "Unsupported protocol".toList

/-- `lookup_proto`. -/
def lookupProto (protocol : BitVec 8) : ProtocolName :=
  if protocol = IPPROTO_TCP then .tcp else if protocol = IPPROTO_UDP then .udp else .unsupported

/-- `lookup_state`. -/
def lookupState : ConnStatus → List Char
  | .invalid => "UNKNOWN".toList
  | .init => "INIT".toList
  | .decision => "DECISION".toList
  | .replay => "REPLAY".toList
  | .forward => "FORWARD".toList
  | .proxy => "PROXY".toList
  | .drop => "DROP".toList
  | .control => "CONTROL".toList

/-- The states, in the order of their numbers. -/
def ConnStatus.all : List ConnStatus :=
  [.invalid, .init, .decision, .replay, .forward, .proxy, .drop, .control]

/-- `inet_ntop`: the octets of an address, as they lie in memory. -/
def inetNtop (a : IpAddr) : List Char :=
  ['.'].intercalate ([0, 8, 16, 24].map fun s => decimalText (a.extractLsb' s 8).toNat)

/-- The value of `replay_problem`. -/
def ReplayProblem.number (r : ReplayProblem) : ℕ :=
  r.unexpectedProtocol.toNat + 2 * (r.unexpectedPayload.toNat + 2 * (r.unexpectedTcpAck.toNat +
    2 * (r.unexpectedTcpSeq.toNat + 2 * (r.unexpectedTcpTs.toNat + 2 * (r.expectedTcpTs.toNat +
      2 * r.tcpTsOutOfSync.toNat)))))

/-- What a line shows for a state. -/
inductive LogColumn
  | blank
  | counts (time : Seconds) (packets bytes : BitVec 32)
  | failed (time : Seconds) (packets bytes : BitVec 32) (problem : ReplayProblem)
  | rules (time : Seconds)
  deriving DecidableEq

/-- The parts of `status_info`. -/
def LogColumn.parts (state : ConnStatus) : LogColumn → List (List Char)
  | blank =>
    if state = .replay then [['.'], ['.'], ['.'], ['.']]
    else if state = .decision then [['.'], ['.']]
    else [['.'], ['.'], ['.']]
  | counts time packets bytes =>
    [time.text, decimalText packets.toInt, decimalText bytes.toInt]
  | failed time packets bytes problem =>
    [time.text, decimalText packets.toInt, decimalText bytes.toInt,
      "error:".toList ++ decimalText problem.number]
  | rules time => [time.text, []]

/-- The text of a column, its parts between bars. -/
def LogColumn.text (state : ConnStatus) (column : LogColumn) : List Char :=
  ['|'].intercalate (column.parts state)

/-! ### Lines -/

/-- What a line shows. -/
structure LogLine where
  start : Stamp
  duration : Seconds
  protocol : ProtocolName
  srcIp : IpAddr
  srcPort : Port
  dstIp : IpAddr
  dstPort : Port
  totalPacket : BitVec 32
  totalByte : BitVec 32
  state : ConnStatus
  id : BitVec 32
  init : LogColumn
  decision : LogColumn
  replay : LogColumn
  forward : LogColumn
  proxy : LogColumn
  deriving DecidableEq

/-- The fields that `log_csv` prints. -/
def LogLine.fields (l : LogLine) : List (List Char) :=
  [l.start.text, l.duration.text, l.protocol.text, inetNtop l.srcIp,
    decimalText (ntohs l.srcPort).toNat, inetNtop l.dstIp, decimalText (ntohs l.dstPort).toNat,
    decimalText l.totalPacket.toInt, decimalText l.totalByte.toInt, lookupState l.state,
    decimalText l.id.toInt, l.init.text .init, l.decision.text .decision, l.replay.text .replay,
    l.forward.text .forward, l.proxy.text .proxy, ['-']]

/-- `log_csv`. -/
def logCsv (l : LogLine) : List Char :=
  [','].intercalate l.fields ++ ['\n']

/-- What `connection_log` gets: a connection with its counters, and the times. -/
structure LogRow where
  id : ConnId
  conn : Conn
  stats : Stats
  start : Stamp
  duration : Seconds
  times : ConnStatus → Seconds

/-- A column with the time that was spent in the state. -/
def Column.timed (time : Seconds) : Column → LogColumn
  | .blank => .blank
  | .counts packets bytes => .counts time packets bytes
  | .failed packets bytes problem => .failed time packets bytes problem
  | .rules => .rules time

/-- What the line of a connection shows for a state. -/
def LogRow.column (r : LogRow) (state : ConnStatus) : LogColumn :=
  (statusInfo r.conn r.stats state).timed (r.times state)

/-- The fields of the line of a connection. -/
def LogRow.line (r : LogRow) : LogLine where
  start := r.start
  duration := r.duration
  protocol := lookupProto r.conn.protocol
  srcIp := r.conn.firstPktSrcIp
  srcPort := r.conn.firstPktSrcPort
  dstIp := r.conn.firstPktDstIp
  dstPort := r.conn.firstPktDstPort
  totalPacket := r.stats.totalPacket
  totalByte := r.stats.totalByte
  state := r.conn.state
  id := BitVec.ofNat 32 r.id
  init := r.column .init
  decision := r.column .decision
  replay := r.column .replay
  forward := r.column .forward
  proxy := r.column .proxy

/-- `connection_log`, with the format `csv`. -/
def connectionLog (r : LogRow) : List Char :=
  logCsv r.line

/-! ### Reading -/

/-- The number that a string of digits denotes. -/
def readDigits (x : List Char) : Option ℕ :=
  if x ≠ [] ∧ x.all Char.isDigit = true then some (decimal x) else none

/-- A number with its sign. -/
def readNumber : List Char → Option ℤ
  | '-' :: x => (readDigits x).map fun (n : ℕ) => -(n : ℤ)
  | x => (readDigits x).map fun (n : ℕ) => (n : ℤ)

/-- The number of a column, as a word. -/
def readWord (w : ℕ) (x : List Char) : Option (BitVec w) :=
  (readNumber x).map (BitVec.ofInt w)

/-- An address with dots, the first number in the lowest octet. -/
def readAddress (x : List Char) : Option IpAddr :=
  match x.splitOn '.' with
  | [a, b, c, d] => do
    let a ← readWord 8 a
    let b ← readWord 8 b
    let c ← readWord 8 c
    let d ← readWord 8 d
    return d ++ c ++ b ++ a
  | _ => none

/-- A port, in network byte order. -/
def readPort (x : List Char) : Option Port :=
  (readWord 16 x).map ntohs

/-- The text of a duration. -/
def readSeconds (x : List Char) : Option Seconds :=
  if h : x.any Char.isDigit = true ∧
      x.all (fun c => c.isDigit || c = '-' || c = '.') = true then some ⟨x, h.1, h.2⟩
  else none

/-- The text of a time. -/
def readStamp (x : List Char) : Option Stamp :=
  if h : x.all (fun c => c.isDigit || " -:.".toList.contains c) = true then some ⟨x, h⟩ else none

/-- The protocol of a name. -/
def readProtocol (x : List Char) : Option ProtocolName :=
  [ProtocolName.tcp, .udp, .unsupported].find? fun p => p.text = x

/-- The state of a name. -/
def readState (x : List Char) : Option ConnStatus :=
  ConnStatus.all.find? fun s => lookupState s = x

/-- The flags of the number after `error:`. -/
def readProblem (n : ℕ) : ReplayProblem where
  unexpectedProtocol := n.testBit 0
  unexpectedPayload := n.testBit 1
  unexpectedTcpAck := n.testBit 2
  unexpectedTcpSeq := n.testBit 3
  unexpectedTcpTs := n.testBit 4
  expectedTcpTs := n.testBit 5
  tcpTsOutOfSync := n.testBit 6

/-- A column that is not blank, of its time and the parts after it. -/
def readParts (time : List Char) : List (List Char) → Option LogColumn
  | [_] => (readSeconds time).map .rules
  | [packets, bytes] => do
    return .counts (← readSeconds time) (← readWord 32 packets) (← readWord 32 bytes)
  | [packets, bytes, problem] => do
    return .failed (← readSeconds time) (← readWord 32 packets) (← readWord 32 bytes)
      (readProblem (← readDigits (problem.drop 6)))
  | _ => none

/-- A column, of its parts between bars. -/
def readColumn (x : List Char) : Option LogColumn :=
  match x.splitOn '|' with
  | [] => none
  | time :: parts => if time = ['.'] then some .blank else readParts time parts

/-- A line, of its fields between commas. What follows the last one is not read. -/
def readLine (x : List Char) : Option LogLine :=
  match x.splitOn ',' with
  | [start, duration, protocol, srcIp, srcPort, dstIp, dstPort, totalPacket, totalByte, state, id,
      init, decision, replay, forward, proxy, _] => do
    return {
      start := ← readStamp start
      duration := ← readSeconds duration
      protocol := ← readProtocol protocol
      srcIp := ← readAddress srcIp
      srcPort := ← readPort srcPort
      dstIp := ← readAddress dstIp
      dstPort := ← readPort dstPort
      totalPacket := ← readWord 32 totalPacket
      totalByte := ← readWord 32 totalByte
      state := ← readState state
      id := ← readWord 32 id
      init := ← readColumn init
      decision := ← readColumn decision
      replay := ← readColumn replay
      forward := ← readColumn forward
      proxy := ← readColumn proxy }
  | _ => none

/-- The lines of a file. -/
def readLog (x : List Char) : Option (List LogLine) :=
  (x.splitOn '\n').dropLast.mapM readLine

/-! ### Numbers -/

section Fields

variable {x : List Char} {c : Char} {w : ℕ}

theorem readDigits_toDigits (n : ℕ) : readDigits (Nat.toDigits 10 n) = some n := by
  have hdigits : (Nat.toDigits 10 n).all Char.isDigit = true :=
    List.all_eq_true.2 fun c hc => Nat.isDigit_of_mem_toDigits (by decide) (by decide) hc
  have hvalue : decimal (Nat.toDigits 10 n) = n := Nat.ofDigitChars_ten_toDigits
  rw [readDigits, if_pos ⟨Nat.toDigits_ne_nil, hdigits⟩, hvalue]

theorem decimalText_natCast (n : ℕ) : decimalText n = Nat.toDigits 10 n := by
  rw [decimalText, if_neg (by omega), Int.natAbs_natCast]

/-- A sign comes before the digits. -/
theorem readNumber_decimalText (n : ℤ) : readNumber (decimalText n) = some n := by
  rw [decimalText]
  split_ifs with hneg
  · rw [readNumber, readDigits_toDigits, Option.map_some]
    congr 1
    omega
  · have hhead : ∀ x, Nat.toDigits 10 n.natAbs ≠ '-' :: x := by
      intro x h
      have hdigit : '-'.isDigit = true :=
        Nat.isDigit_of_mem_toDigits (b := 10) (by decide) (by decide) (h ▸ List.mem_cons_self)
      exact absurd hdigit (by decide)
    rw [readNumber, readDigits_toDigits, Option.map_some]
    · congr 1
      omega
    · exact hhead

theorem readWord_toInt (b : BitVec w) : readWord w (decimalText b.toInt) = some b := by
  rw [readWord, readNumber_decimalText, Option.map_some, BitVec.ofInt_toInt]

theorem readWord_toNat (b : BitVec w) : readWord w (decimalText b.toNat) = some b := by
  rw [readWord, readNumber_decimalText, Option.map_some, BitVec.ofInt_natCast, BitVec.ofNat_toNat,
    BitVec.setWidth_eq]

theorem mem_decimalText {n : ℤ} (h : c ∈ decimalText n) : c = '-' ∨ c.isDigit = true := by
  have hdigit (h : c ∈ Nat.toDigits 10 n.natAbs) : c.isDigit = true :=
    Nat.isDigit_of_mem_toDigits (by decide) (by decide) h
  rw [decimalText] at h
  split_ifs at h
  · rcases List.mem_cons.1 h with rfl | h
    · exact .inl rfl
    · exact .inr (hdigit h)
  · exact .inr (hdigit h)

/-- Signs other than these do not stand in a number. -/
theorem not_mem_decimalText {n : ℤ} (hc : c.isDigit = false) (hsign : c ≠ '-') :
    c ∉ decimalText n := by
  intro h
  rcases mem_decimalText h with rfl | hdigit
  · exact hsign rfl
  · rw [hc] at hdigit
    cases hdigit

theorem mem_intercalate {d : Char} {xs : List (List Char)} (h : c ∈ [d].intercalate xs) :
    c = d ∨ ∃ x ∈ xs, c ∈ x := by
  induction xs with
  | nil => cases h
  | cons x xs ih =>
    cases xs with
    | nil =>
      rw [List.intercalate_singleton] at h
      exact .inr ⟨x, .head _, h⟩
    | cons y ys =>
      rw [List.intercalate_cons_cons, List.append_assoc, List.mem_append, List.mem_append,
        List.mem_singleton] at h
      rcases h with h | h | h
      · exact .inr ⟨x, .head _, h⟩
      · exact .inl h
      · rcases ih h with hd | ⟨z, hz, hc⟩
        · exact .inl hd
        · exact .inr ⟨z, .tail _ hz, hc⟩

theorem readAddress_inetNtop (a : IpAddr) : readAddress (inetNtop a) = some a := by
  have hsplit : (inetNtop a).splitOn '.' =
      [0, 8, 16, 24].map fun s => decimalText (a.extractLsb' s 8).toNat := by
    refine List.splitOn_intercalate '.' ?_ (by simp)
    intro x hx
    obtain ⟨s, -, rfl⟩ := List.mem_map.1 hx
    exact not_mem_decimalText (by decide) (by decide)
  rw [readAddress, hsplit]
  simp only [List.map_cons, List.map_nil, readWord_toNat]
  show some _ = some _
  congr 1
  ext i hi
  grind

theorem readPort_ntohs (p : Port) : readPort (decimalText (ntohs p).toNat) = some p := by
  rw [readPort, readWord_toNat, Option.map_some]
  congr 1
  ext i hi
  simp only [ntohs]
  grind

theorem readSeconds_text (t : Seconds) : readSeconds t.text = some t := by
  rw [readSeconds, dif_pos ⟨t.digit, t.chars⟩]

theorem readStamp_text (t : Stamp) : readStamp t.text = some t := by
  rw [readStamp, dif_pos t.chars]

theorem readProtocol_text (p : ProtocolName) : readProtocol p.text = some p := by
  cases p <;> decide

theorem readState_lookupState (s : ConnStatus) : readState (lookupState s) = some s := by
  cases s <;> decide

theorem readProblem_number (r : ReplayProblem) : readProblem r.number = r := by
  rcases r with ⟨_ | _, _ | _, _ | _, _ | _, _ | _, _ | _, _ | _⟩ <;> decide

/-- A time is not a blank. -/
theorem Seconds.ne_blank (t : Seconds) : t.text ≠ ['.'] := by
  intro h
  have hdigit := t.digit
  rw [h] at hdigit
  cases hdigit

theorem Seconds.not_mem (t : Seconds) (hc : c.isDigit = false) (hsign : c ≠ '-' ∧ c ≠ '.') :
    c ∉ t.text := by
  intro h
  have hchar := List.all_eq_true.1 t.chars c h
  simp [hc, hsign] at hchar

/-- Signs that do not stand in a column. -/
theorem LogColumn.not_mem_parts {state : ConnStatus} (column : LogColumn)
    (hx : x ∈ column.parts state) (hc : c.isDigit = false) (hsign : c ∉ "-.error:".toList) :
    c ∉ x := by
  have hother : c ≠ '-' ∧ c ≠ '.' := by
    refine ⟨?_, ?_⟩ <;> rintro rfl <;> exact hsign (by decide)
  have htime (t : Seconds) : c ∉ t.text := t.not_mem hc hother
  have hnumber (n : ℤ) : c ∉ decimalText n := not_mem_decimalText hc hother.1
  have hdot : c ∉ ['.'] := by simpa using hother.2
  cases column with
  | blank =>
    rw [LogColumn.parts] at hx
    split_ifs at hx
    all_goals
      simp only [List.mem_cons, List.not_mem_nil, or_false, or_self] at hx
      rwa [hx]
  | counts time packets bytes =>
    simp only [LogColumn.parts, List.mem_cons, List.not_mem_nil, or_false] at hx
    rcases hx with rfl | rfl | rfl
    · exact htime time
    · exact hnumber _
    · exact hnumber _
  | failed time packets bytes problem =>
    simp only [LogColumn.parts, List.mem_cons, List.not_mem_nil, or_false] at hx
    rcases hx with rfl | rfl | rfl | rfl
    · exact htime time
    · exact hnumber _
    · exact hnumber _
    · rw [List.mem_append, not_or]
      refine ⟨fun h => hsign (List.mem_append_right ['-', '.'] h), hnumber _⟩
  | rules time =>
    simp only [LogColumn.parts, List.mem_cons, List.not_mem_nil, or_false] at hx
    rcases hx with rfl | rfl
    · exact htime time
    · exact List.not_mem_nil

theorem LogColumn.splitOn_text (state : ConnStatus) (column : LogColumn) :
    (column.text state).splitOn '|' = column.parts state := by
  refine List.splitOn_intercalate '|'
    (fun x hx => column.not_mem_parts hx (by decide) (by decide)) ?_
  cases column with
  | blank =>
    rw [LogColumn.parts]
    split_ifs <;> exact List.cons_ne_nil _ _
  | counts time packets bytes => exact List.cons_ne_nil _ _
  | failed time packets bytes problem => exact List.cons_ne_nil _ _
  | rules time => exact List.cons_ne_nil _ _

theorem readColumn_text (state : ConnStatus) (column : LogColumn) :
    readColumn (column.text state) = some column := by
  rw [readColumn, column.splitOn_text]
  cases column with
  | blank =>
    rw [LogColumn.parts]
    split_ifs <;> rfl
  | counts time packets bytes =>
    simp [LogColumn.parts, readParts, time.ne_blank, readSeconds_text, readWord_toInt]
  | failed time packets bytes problem =>
    simp [LogColumn.parts, readParts, time.ne_blank, readSeconds_text, readWord_toInt,
      decimalText_natCast, readDigits_toDigits, readProblem_number]
  | rules time => simp [LogColumn.parts, readParts, time.ne_blank, readSeconds_text]

/-! ### Files -/

/-- No field has a comma or the end of a line in it. -/
theorem LogLine.not_mem_fields (l : LogLine) (hx : x ∈ l.fields) (hc : c = ',' ∨ c = '\n') :
    c ∉ x := by
  have hdigit : c.isDigit = false := by
    rcases hc with rfl | rfl <;> rfl
  have hsign : c ≠ '-' ∧ c ≠ '.' ∧ c ≠ '|' := by
    rcases hc with rfl | rfl <;> decide
  have hnumber (n : ℤ) : c ∉ decimalText n := not_mem_decimalText hdigit hsign.1
  have htime (t : Seconds) : c ∉ t.text := t.not_mem hdigit ⟨hsign.1, hsign.2.1⟩
  have haddress (a : IpAddr) : c ∉ inetNtop a := by
    intro h
    rcases mem_intercalate h with hd | ⟨y, hy, h⟩
    · exact hsign.2.1 hd
    · obtain ⟨s, -, rfl⟩ := List.mem_map.1 hy
      exact hnumber _ h
  have hcolumn (state : ConnStatus) (column : LogColumn) : c ∉ column.text state := by
    intro h
    rcases mem_intercalate h with hd | ⟨y, hy, h⟩
    · exact hsign.2.2 hd
    · refine column.not_mem_parts hy hdigit ?_ h
      rcases hc with rfl | rfl <;> decide
  have hstamp : c ∉ l.start.text := by
    intro h
    have hchar := List.all_eq_true.1 l.start.chars c h
    rcases hc with rfl | rfl <;> cases hchar
  have hname : c ∉ l.protocol.text ∧ c ∉ lookupState l.state ∧ c ∉ ['-'] := by
    refine ⟨?_, ?_, ?_⟩
    · rcases hc with rfl | rfl <;> cases l.protocol <;> decide
    · rcases hc with rfl | rfl <;> cases l.state <;> decide
    · simpa using hsign.1
  simp only [LogLine.fields, List.mem_cons, List.not_mem_nil, or_false] at hx
  rcases hx with rfl | rfl | rfl | rfl | rfl | rfl | rfl | rfl | rfl | rfl | rfl | rfl | rfl | rfl |
    rfl | rfl | rfl
  · exact hstamp
  · exact htime _
  · exact hname.1
  · exact haddress _
  · exact hnumber _
  · exact haddress _
  · exact hnumber _
  · exact hnumber _
  · exact hnumber _
  · exact hname.2.1
  · exact hnumber _
  · exact hcolumn _ _
  · exact hcolumn _ _
  · exact hcolumn _ _
  · exact hcolumn _ _
  · exact hcolumn _ _
  · exact hname.2.2

theorem readLine_fields (l : LogLine) : readLine ([','].intercalate l.fields) = some l := by
  have hsplit : ([','].intercalate l.fields).splitOn ',' = l.fields :=
    List.splitOn_intercalate ',' (fun x hx => l.not_mem_fields hx (.inl rfl)) (List.cons_ne_nil _ _)
  rw [readLine, hsplit]
  simp [LogLine.fields, readStamp_text, readSeconds_text, readProtocol_text, readAddress_inetNtop,
    readPort_ntohs, readWord_toInt, readState_lookupState, readColumn_text]

/-- The lines of a file, each with its end. -/
theorem splitOn_lines {xs : List (List Char)} (h : ∀ x ∈ xs, '\n' ∉ x) :
    (xs.flatMap (· ++ ['\n'])).splitOn '\n' = xs ++ [[]] := by
  have hlines : xs.flatMap (· ++ ['\n']) = ['\n'].intercalate (xs ++ [[]]) := by
    induction xs with
    | nil => rfl
    | cons x xs ih =>
      obtain ⟨y, ys, hys⟩ := List.exists_cons_of_ne_nil (List.append_ne_nil_of_right_ne_nil xs
        (List.cons_ne_nil ([] : List Char) []))
      rw [List.flatMap_cons, ih fun y hy => h y (.tail _ hy), List.cons_append, hys,
        List.intercalate_cons_cons]
  rw [hlines]
  refine List.splitOn_intercalate '\n' (fun x hx => ?_) (by simp)
  rcases List.mem_append.1 hx with hx | hx
  · exact h x hx
  · rw [List.mem_singleton.1 hx]
    exact List.not_mem_nil

theorem readLog_logCsv (ls : List LogLine) : readLog (ls.flatMap logCsv) = some ls := by
  have hsplit : (ls.flatMap logCsv).splitOn '\n' =
      (ls.map fun l => [','].intercalate l.fields) ++ [[]] := by
    have hlines : ls.flatMap logCsv =
        (ls.map fun l => [','].intercalate l.fields).flatMap (· ++ ['\n']) := by
      rw [List.flatMap_map]
      rfl
    rw [hlines]
    refine splitOn_lines fun x hx => ?_
    obtain ⟨l, -, rfl⟩ := List.mem_map.1 hx
    intro h
    rcases mem_intercalate h with hd | ⟨y, hy, h⟩
    · exact absurd hd (by decide)
    · exact l.not_mem_fields hy (.inr rfl) h
  have hread : (ls.map fun l => [','].intercalate l.fields).mapM readLine = some ls := by
    clear hsplit
    induction ls with
    | nil => rfl
    | cons l ls ih =>
      rw [List.map_cons, List.mapM_cons, readLine_fields, ih]
      rfl
  rw [readLog, hsplit, List.dropLast_concat, hread]

end Fields

/-- **The connection log.** The file shows what was written for each connection, in this order: the
addresses, the ports, the counters and the state, and the columns that it has for its states. -/
theorem readLog_connectionLog (rs : List LogRow) :
    readLog (rs.flatMap connectionLog) = some (rs.map LogRow.line) := by
  rw [← readLog_logCsv, List.flatMap_map]
  rfl

end Honeybrid
