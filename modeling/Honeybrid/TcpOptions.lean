import Honeybrid.Netcode
import Honeybrid.Lib.Octets
import Honeybrid.Lib.Loops

/-!
# The options of a TCP header

`strip_tcp_timestamps`, `get_tcp_timestamps` and `set_tcp_timestamps` of `netcode.c` look for the
timestamp option, over the octets of the packet with the TCP header at the offset `th`. Their loops
go from option to option by the length octet of each, and nothing bounds their number of rounds:
every function takes the number of rounds it may run and is `none` if they do not suffice.

A round leaves the cursor where it is at an option of length zero and, in the functions that read or
write the timestamp, at a timestamp option of an unexpected length. The loops end exactly for the
headers that have neither.

## Main definitions

* `scanStep`, `stripTcpTimestamps`, `getTcpTimestamps`, `setTcpTimestamps`, `fixTcpTimestamps`.
* `OptionAt`, `SoundAt`: where the options of a header start, and which of them can be passed.
* `TimestampField`, `TimestampInside`: the octets of the timestamp.

## Main results

* `strip_halts_iff`, `get_halts_iff`, `set_halts_iff`: when each of the loops ends.
* `scans_end_iff`: when all of them do.
* `fix_returns`, `fix_agrees`: `fix_tcp_timestamps` returns for these headers, and changes nothing
  but the timestamp.
-/

namespace Honeybrid

namespace Wire

open Loop

/-- The end of the options. -/
def TCPOPT_EOL : BitVec 8 := 0

/-- The option of one octet that does nothing. -/
def TCPOPT_NOP : BitVec 8 := 1

/-- The kind of a timestamp. -/
def TCPOPT_TIMESTAMP : BitVec 8 := 8

/-- The octets of a timestamp option. -/
def TCPOLEN_TIMESTAMP : BitVec 8 := 10

/-- The four octets before an aligned timestamp. -/
def TCPOPT_TSTAMP_HDR : BitVec 32 := 0x0101080a

variable {α : Type} (m : Octets) (th : ℕ)

/-- The data offset, in words of four octets. -/
def doff : BitVec 4 :=
  (m (th + 12)).extractLsb' 4 4

/-- Where the loops stop: the last octet of the header. -/
def optionsEnd : ℕ :=
  th + 20 + (doff m th).toNat * 4 - 20 - 1

/-- The only option is an aligned timestamp, which is recognised without a loop. -/
def aligned : Bool :=
  doff m th = 8 ∧ m.be32 (th + 20) = TCPOPT_TSTAMP_HDR

/-- A round of the loops, with `ptr` as the cursor. `found` is what the function does at a timestamp
option; `none` is the `break` that leaves the switch with the cursor unchanged. -/
def scanStep (last : ℕ) (nok : α) (found : ℕ → Option α) (ptr : ℕ) : Outcome ℕ α :=
  if ptr < last then
    let opcode := m ptr
    let opsize := m (ptr + 1)
    if opcode = TCPOPT_EOL then .done nok
    else if opcode = TCPOPT_NOP then .again (ptr + 1)
    else if opcode = TCPOPT_TIMESTAMP then
      match found ptr with
      | some a => .done a
      | none => .again ptr
    else .again (ptr + opsize.toNat)
  else .done nok

/-- The loop over the options of a header. -/
def scan (nok : α) (found : ℕ → Option α) (rounds : ℕ) : Option α :=
  run (scanStep m (optionsEnd m th) nok found) rounds (th + 20)

/-- `strip_tcp_timestamps`: the option list is ended where the timestamp is. -/
def stripTcpTimestamps (rounds : ℕ) : Option Octets :=
  if doff m th = 5 then some m
  else if aligned m th then some (m.write (th + 20) [TCPOPT_EOL])
  else scan m th m (fun ptr => some (m.write ptr [TCPOPT_EOL])) rounds

/-- `get_tcp_timestamps`: the value and the echo of the timestamp, if there is one. -/
def getTcpTimestamps (rounds : ℕ) : Option (Option (BitVec 32 × BitVec 32)) :=
  if doff m th = 5 then some none
  else if aligned m th then some (some (m.be32 (th + 24), m.be32 (th + 28)))
  else
    scan m th none
      (fun ptr =>
        if m (ptr + 1) = TCPOLEN_TIMESTAMP then some (some (m.be32 (ptr + 2), m.be32 (ptr + 6)))
        else none)
      rounds

/-- The timestamp at `ts`, with those of its fields replaced for which there is a value. -/
def putTimestamps (tsval tsecho : Option (BitVec 32)) (ts : ℕ) : Octets :=
  let m := match tsval with
    | some v => m.write ts (Octets.ofBe32 v)
    | none => m
  match tsecho with
  | some v => m.write (ts + 4) (Octets.ofBe32 v)
  | none => m

/-- `set_tcp_timestamps`. -/
def setTcpTimestamps (tsval tsecho : Option (BitVec 32)) (rounds : ℕ) : Option Octets :=
  if doff m th = 5 ∨ (tsval = none ∧ tsecho = none) then some m
  else if aligned m th then some (putTimestamps m tsval tsecho (th + 24))
  else
    scan m th m
      (fun ptr =>
        if m (ptr + 1) = TCPOLEN_TIMESTAMP then some (putTimestamps m tsval tsecho (ptr + 2))
        else none)
      rounds

/-- `fix_tcp_timestamps`. -/
def fixTcpTimestamps (c : Conn) (rounds : ℕ) : Option Octets :=
  if c.replayProblem.unexpectedTcpTs then stripTcpTimestamps m th rounds
  else if c.replayProblem.tcpTsOutOfSync then do
    match ← getTcpTimestamps m th rounds with
    | some (ts, _) =>
      setTcpTimestamps m th (some (ts + BitVec.ofInt 32 c.tcpTsDiff)) none rounds
    | none => return m
  else some m

/-! ### The options of a header -/

/-- The options of a header, from the first to the next by their lengths; the list ends at the end
of the header, at an end-of-options octet, and at the timestamp. -/
inductive OptionAt : ℕ → Prop
  | first (h : th + 20 < optionsEnd m th) : OptionAt (th + 20)
  | nop {p : ℕ} (hp : OptionAt p) (hk : m p = TCPOPT_NOP) (h : p + 1 < optionsEnd m th) :
      OptionAt (p + 1)
  | other {p : ℕ} (hp : OptionAt p) (h₀ : m p ≠ TCPOPT_EOL) (h₁ : m p ≠ TCPOPT_NOP)
      (h₈ : m p ≠ TCPOPT_TIMESTAMP) (h : p + (m (p + 1)).toNat < optionsEnd m th) :
      OptionAt (p + (m (p + 1)).toNat)

/-- An option that ends the list, is a single octet or the timestamp, or has a length. -/
def PassableAt (p : ℕ) : Prop :=
  m p ≠ TCPOPT_EOL → m p ≠ TCPOPT_NOP → m p ≠ TCPOPT_TIMESTAMP → m (p + 1) ≠ 0

/-- Moreover a timestamp has the length of a timestamp. -/
def SoundAt (p : ℕ) : Prop :=
  PassableAt m p ∧ (m p = TCPOPT_TIMESTAMP → m (p + 1) = TCPOLEN_TIMESTAMP)

variable {m th} {last p q : ℕ} {nok : α} {found : ℕ → Option α}

/-- What a round can do that goes on. -/
theorem scanStep_again (h : scanStep m last nok found p = .again q) :
    p < last ∧
      ((m p = TCPOPT_NOP ∧ q = p + 1) ∨ (m p = TCPOPT_TIMESTAMP ∧ found p = none ∧ q = p) ∨
        (m p ≠ TCPOPT_EOL ∧ m p ≠ TCPOPT_NOP ∧ m p ≠ TCPOPT_TIMESTAMP ∧
          q = p + (m (p + 1)).toNat)) := by
  unfold scanStep at h
  split at h
  case isFalse => cases h
  case isTrue hp =>
    refine ⟨hp, ?_⟩
    dsimp only at h
    split_ifs at h with h₀ h₁ h₈
    · cases h
      exact .inl ⟨h₁, rfl⟩
    · split at h
      · cases h
      · rename_i hf
        cases h
        exact .inr (.inl ⟨h₈, hf, rfl⟩)
    · cases h
      exact .inr (.inr ⟨h₀, h₁, h₈, rfl⟩)

theorem scanStep_nop (hp : p < last) (hk : m p = TCPOPT_NOP) :
    scanStep m last nok found p = .again (p + 1) := by
  simp [scanStep, hp, hk, TCPOPT_NOP, TCPOPT_EOL]

theorem scanStep_other (hp : p < last) (h₀ : m p ≠ TCPOPT_EOL) (h₁ : m p ≠ TCPOPT_NOP)
    (h₈ : m p ≠ TCPOPT_TIMESTAMP) :
    scanStep m last nok found p = .again (p + (m (p + 1)).toNat) := by
  simp [scanStep, hp, h₀, h₁, h₈]

/-- The loop stays at an option it neither passes nor ends at. -/
theorem scanStep_stays_iff :
    scanStep m last nok found p = .again p ↔
      p < last ∧ ¬(PassableAt m p ∧ (m p = TCPOPT_TIMESTAMP → (found p).isSome)) := by
  constructor
  · intro h
    obtain ⟨hp, ⟨-, hq⟩ | ⟨h₈, hf, -⟩ | ⟨h₀, h₁, h₈, hq⟩⟩ := scanStep_again h
    · omega
    · exact ⟨hp, fun hs => by simpa [hf] using hs.2 h₈⟩
    · refine ⟨hp, fun hs => hs.1 h₀ h₁ h₈ ?_⟩
      exact BitVec.eq_of_toNat_eq (by simpa using hq)
  · rintro ⟨hp, hs⟩
    by_cases h₈ : m p = TCPOPT_TIMESTAMP
    · have hpass : PassableAt m p := fun _ _ h => absurd h₈ h
      have hf : found p = none := by
        by_contra hf
        exact hs ⟨hpass, fun _ => Option.isSome_iff_ne_none.2 hf⟩
      simp [scanStep, hp, h₈, hf, TCPOPT_TIMESTAMP, TCPOPT_EOL, TCPOPT_NOP]
    · have hpass : ¬PassableAt m p := fun h => hs ⟨h, fun h => absurd h h₈⟩
      simp only [PassableAt, Classical.not_imp, not_not] at hpass
      obtain ⟨h₀, h₁, -, hz⟩ := hpass
      rw [scanStep_other hp h₀ h₁ h₈, hz]
      rfl

/-- A round that moves the cursor moves it on. -/
theorem scanStep_measure (h : scanStep m last nok found p = .again q) :
    q = p ∨ last - q < last - p := by
  obtain ⟨hp, ⟨-, hq⟩ | ⟨-, -, hq⟩ | ⟨-, -, -, hq⟩⟩ := scanStep_again h
  · omega
  · exact .inl hq
  · omega

theorem OptionAt.lt (h : OptionAt m th p) : p < optionsEnd m th := by
  cases h <;> assumption

theorem OptionAt.le (hp : OptionAt m th p) : th + 20 ≤ p := by
  induction hp with
  | first => exact Nat.le_refl _
  | nop hp hk h ih => omega
  | other hp h₀ h₁ h₈ h ih => omega

theorem OptionAt.comes (h : OptionAt m th p) :
    Comes (scanStep m (optionsEnd m th) nok found) (th + 20) p := by
  induction h with
  | first h => exact .start
  | nop hp hk h ih => exact ih.next (scanStep_nop hp.lt hk)
  | other hp h₀ h₁ h₈ h ih => exact ih.next (scanStep_other hp.lt h₀ h₁ h₈)

/-- Before the end of the header, the loop comes to options only. -/
theorem optionAt_of_comes (h : Comes (scanStep m (optionsEnd m th) nok found) (th + 20) p)
    (hp : p < optionsEnd m th) : OptionAt m th p := by
  induction h with
  | start => exact .first hp
  | next _ hs ih =>
    obtain ⟨hlt, ⟨hk, rfl⟩ | ⟨-, -, rfl⟩ | ⟨h₀, h₁, h₈, rfl⟩⟩ := scanStep_again hs
    · exact .nop (ih hlt) hk hp
    · exact ih hlt
    · exact .other (ih hlt) h₀ h₁ h₈ hp

/-- The loop over the options ends exactly if it can pass, or end at, each of them. -/
theorem scan_halts_iff :
    (∃ n a, scan m th nok found n = some a) ↔
      ∀ p, OptionAt m th p →
        PassableAt m p ∧ (m p = TCPOPT_TIMESTAMP → (found p).isSome) := by
  have hmeasure : ∀ p q, scanStep m (optionsEnd m th) nok found p = .again q →
      q = p ∨ optionsEnd m th - q < optionsEnd m th - p := fun _ _ h => scanStep_measure h
  have hiff := halts_iff (s := th + 20) (fun p => optionsEnd m th - p) hmeasure
  refine hiff.trans ⟨fun h p hp => ?_, fun h p hc hs => ?_⟩
  · by_contra hs
    exact h p hp.comes (scanStep_stays_iff.2 ⟨hp.lt, hs⟩)
  · obtain ⟨hp, hs⟩ := scanStep_stays_iff.1 hs
    exact hs (h p (optionAt_of_comes hc hp))

/-! ### When the loops end -/

/-- A header without options has none that could stop a loop. -/
theorem not_optionAt_of_doff (h : doff m th = 5) : ¬OptionAt m th p := by
  intro hp
  have hend : optionsEnd m th = th + 19 := by simp [optionsEnd, h]
  have hle := hp.le
  have hlt := hp.lt
  omega

/-- The four octets of an aligned timestamp. -/
theorem aligned_octets (h : aligned m th = true) :
    m (th + 20) = TCPOPT_NOP ∧ m (th + 21) = TCPOPT_NOP ∧ m (th + 22) = TCPOPT_TIMESTAMP ∧
      m (th + 23) = TCPOLEN_TIMESTAMP := by
  obtain ⟨-, h⟩ := of_decide_eq_true h
  have hhdr : Octets.ofBe32 TCPOPT_TSTAMP_HDR =
      [TCPOPT_NOP, TCPOPT_NOP, TCPOPT_TIMESTAMP, TCPOLEN_TIMESTAMP] := by decide
  have hoct := m.ofBe32_be32 (th + 20)
  rw [h, hhdr] at hoct
  simpa [eq_comm] using hoct

theorem OptionAt.of_aligned (hp : OptionAt m th p) (h : aligned m th = true) :
    p = th + 20 ∨ p = th + 21 ∨ p = th + 22 := by
  obtain ⟨h₀, h₁, h₂, -⟩ := aligned_octets h
  induction hp with
  | first => exact .inl rfl
  | nop hp hk h ih =>
    obtain rfl | rfl | rfl := ih
    · exact .inr (.inl rfl)
    · exact .inr (.inr rfl)
    · rw [h₂] at hk
      cases hk
  | other hp h₀ h₁ h₈ h ih =>
    obtain rfl | rfl | rfl := ih <;> contradiction

theorem optionAt_of_aligned (h : aligned m th = true) : OptionAt m th (th + 22) := by
  have hend : optionsEnd m th = th + 31 := by
    rw [optionsEnd, (of_decide_eq_true h).1]
    exact congrArg (· - 1) (Nat.add_right_comm th 20 32 ▸ Nat.add_sub_cancel _ 20)
  obtain ⟨h₀, h₁, -⟩ := aligned_octets h
  exact ((OptionAt.first (by omega)).nop h₀ (by omega)).nop h₁ (by omega)

/-- An aligned timestamp is found by the loops as well. -/
theorem soundAt_of_aligned (h : aligned m th = true) (hp : OptionAt m th p) : SoundAt m p := by
  obtain ⟨h₀, h₁, h₂, h₃⟩ := aligned_octets h
  obtain rfl | rfl | rfl := hp.of_aligned h
  · exact ⟨fun _ hk => absurd h₀ hk, fun hk => by rw [h₀] at hk; cases hk⟩
  · exact ⟨fun _ hk => absurd h₁ hk, fun hk => by rw [h₁] at hk; cases hk⟩
  · exact ⟨fun _ _ hk => absurd h₂ hk, fun _ => h₃⟩

/-- The loop of `strip_tcp_timestamps` ends at every timestamp option. -/
theorem strip_halts_iff :
    (∃ n m', stripTcpTimestamps m th n = some m') ↔ ∀ p, OptionAt m th p → PassableAt m p := by
  unfold stripTcpTimestamps
  split_ifs with hd ha
  · simp [not_optionAt_of_doff hd]
  · simpa using fun p hp => (soundAt_of_aligned ha hp).1
  · have hscan :
        (∃ n m', scan m th m (fun ptr => some (m.write ptr [TCPOPT_EOL])) n = some m') ↔ _ :=
      scan_halts_iff
    simpa using hscan

/-- The loop of `get_tcp_timestamps` ends at a timestamp option of the right length only. -/
theorem get_halts_iff :
    (∃ n r, getTcpTimestamps m th n = some r) ↔ ∀ p, OptionAt m th p → SoundAt m p := by
  unfold getTcpTimestamps
  split_ifs with hd ha
  · simp [not_optionAt_of_doff hd]
  · simpa using fun p hp => soundAt_of_aligned ha hp
  · rw [scan_halts_iff]
    refine forall₂_congr fun p _ => and_congr_right fun _ => imp_congr_right fun _ => ?_
    split_ifs with hl <;> simp [hl]

/-- `set_tcp_timestamps` without a value to set does not start its loop. -/
theorem set_halts_iff {tsval tsecho : Option (BitVec 32)} :
    (∃ n m', setTcpTimestamps m th tsval tsecho n = some m') ↔
      (tsval = none ∧ tsecho = none) ∨ ∀ p, OptionAt m th p → SoundAt m p := by
  unfold setTcpTimestamps
  split_ifs with hd ha
  · obtain hd | hd := hd
    · simp [not_optionAt_of_doff hd]
    · simp [hd]
  · simpa using .inr fun p hp => soundAt_of_aligned ha hp
  · rw [scan_halts_iff, or_iff_right fun h => hd (.inr h)]
    refine forall₂_congr fun p _ => and_congr_right fun _ => imp_congr_right fun _ => ?_
    split_ifs with hl <;> simp [hl]

/-- The three loops end, whatever values `set_tcp_timestamps` is given. -/
def ScansEnd (m : Octets) (th : ℕ) : Prop :=
  (∃ n m', stripTcpTimestamps m th n = some m') ∧ (∃ n r, getTcpTimestamps m th n = some r) ∧
    ∀ tsval tsecho, ∃ n m', setTcpTimestamps m th tsval tsecho n = some m'

/-- **Termination.** The loops over the options end exactly for the headers in which every option
but the single octets has a length other than zero, and a timestamp option the length ten. -/
theorem scans_end_iff (m : Octets) (th : ℕ) :
    ScansEnd m th ↔ ∀ p, OptionAt m th p → SoundAt m p := by
  constructor
  · rintro ⟨-, hget, -⟩
    exact get_halts_iff.1 hget
  · intro h
    refine ⟨strip_halts_iff.2 fun p hp => (h p hp).1, get_halts_iff.2 h, fun tsval tsecho => ?_⟩
    exact set_halts_iff.2 (.inr h)

/-- A header of six words whose option announces the length zero. -/
def Sample.emptyOption : Octets :=
  Octets.write (fun _ => 0) 12 [0x60, 0x02, 0, 0, 0, 0, 0, 0, 2, 0]

/-- None of the loops gets past an option of length zero. -/
theorem scans_end_broken :
    ¬∀ (m : Octets) (th : ℕ), 5 ≤ doff m th → ScansEnd m th := by
  intro h
  obtain ⟨hstrip, -⟩ := h Sample.emptyOption 0 (by decide)
  refine strip_halts_iff.1 hstrip 20 (.first ?_) ?_ ?_ ?_ ?_ <;> decide

/-! ### What is changed -/

/-- The result of a loop is that of the timestamp option, if it has come to one. -/
theorem scan_some {n : ℕ} {a : α} (h : scan m th nok found n = some a) :
    a = nok ∨ ∃ p, OptionAt m th p ∧ m p = TCPOPT_TIMESTAMP ∧ found p = some a := by
  obtain ⟨p, hc, hd⟩ := run_comes h
  unfold scanStep at hd
  split at hd
  case isFalse =>
    cases hd
    exact .inl rfl
  case isTrue hp =>
    dsimp only at hd
    split_ifs at hd with h₀ h₁ h₈
    · cases hd
      exact .inl rfl
    · split at hd
      · rename_i hf
        cases hd
        exact .inr ⟨p, optionAt_of_comes hc hp, h₈, hf⟩
      · cases hd

theorem scan_of_optionAt {a : α} (hp : OptionAt m th p) (hk : m p = TCPOPT_TIMESTAMP)
    (hf : found p = some a) : ∃ n, scan m th nok found n = some a := by
  have hstep : scanStep m (optionsEnd m th) nok found p = .done a := by
    have h₀ : TCPOPT_TIMESTAMP ≠ TCPOPT_EOL := by decide
    have h₁ : TCPOPT_TIMESTAMP ≠ TCPOPT_NOP := by decide
    simp [scanStep, hp.lt, hk, hf, h₀, h₁]
  exact hp.comes.run hstep

/-- The octets of the timestamp: the option as far as it lies in the header, with the two octets
before it where it is aligned. -/
def TimestampField (m : Octets) (th q : ℕ) : Prop :=
  (aligned m th = true ∧ th + 20 ≤ q ∧ q < th + 32) ∨
    ∃ p, OptionAt m th p ∧ m p = TCPOPT_TIMESTAMP ∧ p ≤ q ∧ q < p + 10 ∧
      q < th + (doff m th).toNat * 4

/-- The value of the timestamp lies in the header, or the packet ends with it. -/
def TimestampInside (m : Octets) (th last : ℕ) : Prop :=
  ∀ p, OptionAt m th p → m p = TCPOPT_TIMESTAMP →
    p + 6 ≤ th + (doff m th).toNat * 4 ∨ last ≤ th + (doff m th).toNat * 4

theorem TimestampField.le (h : TimestampField m th q) : th + 20 ≤ q := by
  obtain ⟨-, hq, -⟩ | ⟨p, hp, -, hq, -⟩ := h
  · exact hq
  · exact Nat.le_trans hp.le hq

theorem OptionAt.lt_doff (h : OptionAt m th p) : p + 1 < th + (doff m th).toNat * 4 := by
  have := h.lt
  unfold optionsEnd at this
  omega

/-- The value of an aligned timestamp lies in the header. -/
theorem OptionAt.not_aligned (hp : OptionAt m th p) (h : ¬p + 6 ≤ th + (doff m th).toNat * 4) :
    aligned m th = false := by
  rw [Bool.eq_false_iff]
  intro hal
  have h8 : (doff m th).toNat = 8 := congrArg BitVec.toNat (of_decide_eq_true hal).1
  have := hp.of_aligned hal
  omega

theorem strip_agrees {m' : Octets} {n : ℕ} (h : stripTcpTimestamps m th n = some m')
    (hq : ¬TimestampField m th q) : m' q = m q := by
  unfold stripTcpTimestamps at h
  split_ifs at h with hd ha
  · cases h
    rfl
  · cases h
    refine Octets.write_of_notMem ?_
    have : ¬(th + 20 ≤ q ∧ q < th + 32) := fun hr => hq (.inl ⟨ha, hr⟩)
    simp only [List.length_singleton]
    omega
  · obtain rfl | ⟨p, hp, hk, hf⟩ := scan_some h
    · rfl
    · cases hf
      refine Octets.write_of_notMem ?_
      have hlt := hp.lt_doff
      have : ¬(p ≤ q ∧ q < p + 10 ∧ q < th + (doff m th).toNat * 4) :=
        fun hr => hq (.inr ⟨p, hp, hk, hr⟩)
      simp only [List.length_singleton]
      omega

theorem set_agrees {m' : Octets} {n last : ℕ} {v : BitVec 32} (hin : TimestampInside m th last)
    (h : setTcpTimestamps m th (some v) none n = some m') (hl : q < last)
    (hq : ¬TimestampField m th q) : m' q = m q := by
  unfold setTcpTimestamps at h
  split at h
  · cases h
    rfl
  split at h
  · rename_i ha
    cases h
    refine Octets.write_of_notMem ?_
    have : ¬(th + 20 ≤ q ∧ q < th + 32) := fun hr => hq (.inl ⟨ha, hr⟩)
    simp only [Octets.ofBe32, List.length_cons, List.length_nil]
    omega
  · obtain rfl | ⟨p, hp, hk, hf⟩ := scan_some h
    · rfl
    · split at hf
      · cases hf
        refine Octets.write_of_notMem ?_
        have hlt := hp.lt_doff
        have hend := hin p hp hk
        have : ¬(p ≤ q ∧ q < p + 10 ∧ q < th + (doff m th).toNat * 4) :=
          fun hr => hq (.inr ⟨p, hp, hk, hr⟩)
        simp only [Octets.ofBe32, List.length_cons, List.length_nil]
        omega
      · cases hf

/-- `fix_tcp_timestamps` changes nothing but the timestamp. -/
theorem fix_agrees {m' : Octets} {c : Conn} {n last : ℕ} (hin : TimestampInside m th last)
    (h : fixTcpTimestamps m th c n = some m') (hl : q < last) (hq : ¬TimestampField m th q) :
    m' q = m q := by
  unfold fixTcpTimestamps at h
  split_ifs at h with hu ho
  · exact strip_agrees h hq
  · cases hget : getTcpTimestamps m th n with
    | none => simp [hget] at h
    | some r =>
      cases r with
      | none =>
        simp [hget] at h
        rw [h]
      | some ts =>
        simp [hget] at h
        exact set_agrees hin h hl hq
  · cases h
    rfl

theorem get_mono {n k : ℕ} {r : Option (BitVec 32 × BitVec 32)}
    (h : getTcpTimestamps m th n = some r) (hk : n ≤ k) : getTcpTimestamps m th k = some r := by
  unfold getTcpTimestamps at h ⊢
  split_ifs at h ⊢
  · exact h
  · exact h
  · exact run_mono h hk

theorem set_mono {n k : ℕ} {m' : Octets} {tsval tsecho : Option (BitVec 32)}
    (h : setTcpTimestamps m th tsval tsecho n = some m') (hk : n ≤ k) :
    setTcpTimestamps m th tsval tsecho k = some m' := by
  unfold setTcpTimestamps at h ⊢
  split_ifs at h ⊢
  · exact h
  · exact h
  · exact run_mono h hk

theorem strip_mono {n k : ℕ} {m' : Octets} (h : stripTcpTimestamps m th n = some m')
    (hk : n ≤ k) : stripTcpTimestamps m th k = some m' := by
  unfold stripTcpTimestamps at h ⊢
  split_ifs at h ⊢
  · exact h
  · exact h
  · exact run_mono h hk

/-- The result of a loop does not depend on the rounds it was given: two of them have the result of
the longer one. -/
theorem get_unique {n k : ℕ} {r r' : Option (BitVec 32 × BitVec 32)}
    (h : getTcpTimestamps m th n = some r) (h' : getTcpTimestamps m th k = some r') : r = r' :=
  Option.some.inj ((get_mono h (Nat.le_max_left n k)).symm.trans
    (get_mono h' (Nat.le_max_right n k)))

theorem set_unique {n k : ℕ} {m₁ m₂ : Octets} {tsval tsecho : Option (BitVec 32)}
    (h : setTcpTimestamps m th tsval tsecho n = some m₁)
    (h' : setTcpTimestamps m th tsval tsecho k = some m₂) : m₁ = m₂ :=
  Option.some.inj ((set_mono h (Nat.le_max_left n k)).symm.trans
    (set_mono h' (Nat.le_max_right n k)))

theorem strip_unique {n k : ℕ} {m₁ m₂ : Octets} (h : stripTcpTimestamps m th n = some m₁)
    (h' : stripTcpTimestamps m th k = some m₂) : m₁ = m₂ :=
  Option.some.inj ((strip_mono h (Nat.le_max_left n k)).symm.trans
    (strip_mono h' (Nat.le_max_right n k)))

section

variable {c : Conn} {m' : Octets} {n k : ℕ}

/-- Whatever is to be done with the timestamp of a sound header is done. -/
theorem fix_returns (hs : ∀ p, OptionAt m th p → SoundAt m p) (c : Conn) :
    ∃ n m', fixTcpTimestamps m th c n = some m' := by
  unfold fixTcpTimestamps
  split_ifs
  · exact strip_halts_iff.2 fun p hp => (hs p hp).1
  · obtain ⟨n, r, hget⟩ := get_halts_iff.2 hs
    cases r with
    | none => exact ⟨n, m, by simp [hget]⟩
    | some ts =>
      obtain ⟨k, m', hset⟩ : ∃ k m', setTcpTimestamps m th
          (some (ts.1 + BitVec.ofInt 32 c.tcpTsDiff)) none k = some m' :=
        set_halts_iff.2 (.inr hs)
      refine ⟨max n k, m', ?_⟩
      simp [get_mono hget (Nat.le_max_left n k), set_mono hset (Nat.le_max_right n k)]
  · exact ⟨0, m, rfl⟩

/-- A timestamp that is out of sync is read, which ends for sound headers only. -/
theorem soundAt_of_fix (hu : c.replayProblem.unexpectedTcpTs = false)
    (ho : c.replayProblem.tcpTsOutOfSync = true) (h : fixTcpTimestamps m th c n = some m')
    (hp : OptionAt m th p) : SoundAt m p := by
  cases hget : getTcpTimestamps m th n with
  | none => simp [fixTcpTimestamps, hu, ho, hget] at h
  | some r => exact get_halts_iff.1 ⟨n, r, hget⟩ p hp

/-- The timestamp option of an aligned timestamp. -/
theorem OptionAt.eq_of_aligned (hp : OptionAt m th p) (hk : m p = TCPOPT_TIMESTAMP)
    (h : aligned m th = true) : p = th + 22 := by
  obtain ⟨h₀, h₁, -⟩ := aligned_octets h
  obtain rfl | rfl | rfl := hp.of_aligned h
  · exact absurd (hk.symm.trans h₀) (by decide)
  · exact absurd (hk.symm.trans h₁) (by decide)
  · rfl

theorem get_of_optionAt (hp : OptionAt m th p) (hk : m p = TCPOPT_TIMESTAMP)
    (hlen : m (p + 1) = TCPOLEN_TIMESTAMP) :
    ∃ k, getTcpTimestamps m th k = some (some (m.be32 (p + 2), m.be32 (p + 6))) := by
  unfold getTcpTimestamps
  split_ifs with hd ha
  · exact absurd hp (not_optionAt_of_doff hd)
  · rw [hp.eq_of_aligned hk ha]
    exact ⟨0, rfl⟩
  · exact scan_of_optionAt hp hk (if_pos hlen)

theorem set_of_optionAt (hp : OptionAt m th p) (hk : m p = TCPOPT_TIMESTAMP)
    (hlen : m (p + 1) = TCPOLEN_TIMESTAMP) (v : BitVec 32) :
    ∃ k, setTcpTimestamps m th (some v) none k =
      some (m.write (p + 2) (Octets.ofBe32 v)) := by
  have hd : doff m th ≠ 5 := fun hd => not_optionAt_of_doff hd hp
  simp only [setTcpTimestamps, hd, reduceCtorEq, false_and, or_self, ↓reduceIte]
  split_ifs with ha
  · rw [hp.eq_of_aligned hk ha]
    exact ⟨0, rfl⟩
  · exact scan_of_optionAt hp hk (if_pos hlen)

/-- The value of a timestamp that is out of sync is written behind the option's length. -/
theorem fix_eq_write (hu : c.replayProblem.unexpectedTcpTs = false)
    (ho : c.replayProblem.tcpTsOutOfSync = true) (h : fixTcpTimestamps m th c n = some m')
    (hp : OptionAt m th p) (hk : m p = TCPOPT_TIMESTAMP) :
    m' = m.write (p + 2) (Octets.ofBe32 (m.be32 (p + 2) + BitVec.ofInt 32 c.tcpTsDiff)) := by
  have hlen : m (p + 1) = TCPOLEN_TIMESTAMP := (soundAt_of_fix hu ho h hp).2 hk
  obtain ⟨k, hget⟩ := get_of_optionAt hp hk hlen
  cases hr : getTcpTimestamps m th n with
  | none => simp [fixTcpTimestamps, hu, ho, hr] at h
  | some r =>
    cases get_unique hr hget
    have hset : setTcpTimestamps m th (some (m.be32 (p + 2) + BitVec.ofInt 32 c.tcpTsDiff)) none n =
        some m' := by simpa [fixTcpTimestamps, hu, ho, hr] using h
    obtain ⟨j, hset'⟩ := set_of_optionAt hp hk hlen
      (m.be32 (p + 2) + BitVec.ofInt 32 c.tcpTsDiff)
    exact set_unique hset hset'

/-- The timestamp is looked for behind the first twelve octets of the header. -/
theorem doff_congr (h : ∀ q, th + 12 ≤ q → m q = m' q) : doff m th = doff m' th := by
  rw [doff, doff, h _ (Nat.le_refl _)]

theorem OptionAt.congr (h : ∀ q, th + 12 ≤ q → m q = m' q) (hp : OptionAt m th p) :
    OptionAt m' th p := by
  have hend : optionsEnd m th = optionsEnd m' th := by
    rw [optionsEnd, optionsEnd, doff_congr h]
  induction hp with
  | first hlt => exact .first (hend ▸ hlt)
  | @nop p hp hk hlt ih =>
    have := hp.le
    exact ih.nop (by rw [← h p (by omega), hk]) (hend ▸ hlt)
  | @other p hp h₀ h₁ h₈ hlt ih =>
    have := hp.le
    have hkind := h p (by omega)
    have hsize := h (p + 1) (by omega)
    rw [hsize] at hlt ⊢
    exact ih.other (hkind ▸ h₀) (hkind ▸ h₁) (hkind ▸ h₈) (hend ▸ hlt)

theorem optionAt_congr (h : ∀ q, th + 12 ≤ q → m q = m' q) : OptionAt m th p ↔ OptionAt m' th p :=
  ⟨.congr h, .congr fun q hq => (h q hq).symm⟩

theorem soundAt_congr (h : ∀ q, th + 12 ≤ q → m q = m' q) (hp : th + 20 ≤ p) :
    SoundAt m p ↔ SoundAt m' p := by
  rw [SoundAt, SoundAt, PassableAt, PassableAt, h p (by omega), h (p + 1) (by omega)]

theorem aligned_congr (h : ∀ q, th + 12 ≤ q → m q = m' q) : aligned m th = aligned m' th := by
  unfold aligned Octets.be32
  rw [doff_congr h, h (th + 20) (by omega), h (th + 20 + 1) (by omega), h (th + 20 + 2) (by omega),
    h (th + 20 + 3) (by omega)]

theorem timestampField_congr (h : ∀ q, th + 12 ≤ q → m q = m' q) :
    TimestampField m th q ↔ TimestampField m' th q := by
  unfold TimestampField
  rw [aligned_congr h, doff_congr h]
  refine or_congr_right (exists_congr fun p => ?_)
  rw [optionAt_congr h]
  refine and_congr_right fun hp => ?_
  have := hp.le
  rw [h p (by omega)]

theorem sound_congr (h : ∀ q, th + 12 ≤ q → m q = m' q) :
    (∀ p, OptionAt m th p → SoundAt m p) ↔ ∀ p, OptionAt m' th p → SoundAt m' p := by
  refine forall_congr' fun p => ?_
  rw [optionAt_congr h]
  exact imp_congr_right fun hp => soundAt_congr h hp.le

theorem timestampInside_congr {last : ℕ} (h : ∀ q, th + 12 ≤ q → m q = m' q) :
    TimestampInside m th last ↔ TimestampInside m' th last := by
  unfold TimestampInside
  rw [doff_congr h]
  refine forall_congr' fun p => ?_
  rw [optionAt_congr h]
  refine imp_congr_right fun hp => ?_
  have := hp.le
  rw [h p (by omega)]

end

end Wire

end Honeybrid
