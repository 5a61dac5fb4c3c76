import Honeybrid.Timestamps
import Honeybrid.Lib.Checksum

/-!
# Well-formed option lists

The three functions that look for the timestamp option are written separately, and each of them has
a test for the aligned timestamp before its loop. For an option area that is a list of options, they
agree on the option: what `set_tcp_timestamps` has set is found by `get_tcp_timestamps`, and what
`strip_tcp_timestamps` has ended is not.

## Main definitions

* `OptionList`, `WellFormed`: option areas.
* `getLoop`, `setLoop`: the loops without the test for the aligned timestamp.
* `Coherent`: how the functions are related.

## Main results

* `WellFormed.sound`: the loops pass every option of a well-formed area.
* `timestamps_coherent`: the functions are related so for every well-formed area.
-/

namespace Honeybrid

namespace Wire

open Loop Checksum

/-- Octets that are a list of options. A single octet is the end of the list or padding; every other
option has a length that covers at least its first two octets and lies in the area, and that of a
timestamp is ten. -/
inductive OptionList : List (BitVec 8) → Prop
  | nil : OptionList []
  | eol (rest : List (BitVec 8)) : OptionList (TCPOPT_EOL :: rest)
  | nop {rest : List (BitVec 8)} (h : OptionList rest) : OptionList (TCPOPT_NOP :: rest)
  | option {kind size : BitVec 8} {body rest : List (BitVec 8)} (h₀ : kind ≠ TCPOPT_EOL)
      (h₁ : kind ≠ TCPOPT_NOP) (hsize : size.toNat = body.length + 2)
      (h₈ : kind = TCPOPT_TIMESTAMP → size = TCPOLEN_TIMESTAMP) (h : OptionList rest) :
      OptionList (kind :: size :: (body ++ rest))

variable (m : Octets) (th : ℕ)

/-- Where the header ends. -/
def headerEnd : ℕ :=
  th + (doff m th).toNat * 4

/-- The option area of a header is a list of options. -/
def WellFormed : Prop :=
  OptionList (m.block (th + 20) (headerEnd m th - (th + 20)))

/-- The loop of `get_tcp_timestamps`. -/
def getLoop (rounds : ℕ) : Option (Option (BitVec 32 × BitVec 32)) :=
  scan m th none
    (fun ptr =>
      if m (ptr + 1) = TCPOLEN_TIMESTAMP then some (some (m.be32 (ptr + 2), m.be32 (ptr + 6)))
      else none)
    rounds

/-- The loop of `set_tcp_timestamps`. -/
def setLoop (tsval tsecho : Option (BitVec 32)) (rounds : ℕ) : Option Octets :=
  scan m th m
    (fun ptr =>
      if m (ptr + 1) = TCPOLEN_TIMESTAMP then some (putTimestamps m tsval tsecho (ptr + 2))
      else none)
    rounds

/-- `get_tcp_timestamps` returns with the result `r`. -/
def Gets (r : Option (BitVec 32 × BitVec 32)) : Prop :=
  ∃ rounds, getTcpTimestamps m th rounds = some r

/-- `set_tcp_timestamps` returns, with the octets `m'`. -/
def Sets (tsval tsecho : Option (BitVec 32)) (m' : Octets) : Prop :=
  ∃ rounds, setTcpTimestamps m th tsval tsecho rounds = some m'

/-- `strip_tcp_timestamps` returns, with the octets `m'`. -/
def Strips (m' : Octets) : Prop :=
  ∃ rounds, stripTcpTimestamps m th rounds = some m'

/-- The functions work on the same timestamp option. -/
structure Coherent : Prop where
  get_returns : ∃ r, Gets m th r
  set_found : ∀ v e w, Gets m th (some (v, e)) → ∃ m' p, Sets m th (some w) none m' ∧
    Gets m' th (some (w, e)) ∧ OptionAt m th p ∧ m p = TCPOPT_TIMESTAMP ∧ m.be32 (p + 2) = v ∧
    p + 10 ≤ headerEnd m th ∧ ∀ q, ¬(p + 2 ≤ q ∧ q < p + 6) → m' q = m q
  set_missing : Gets m th none → ∀ tsval tsecho, Sets m th tsval tsecho m
  strip : ∃ m', Strips m th m' ∧ Gets m' th none ∧ (∃ p, ∀ q, q ≠ p → m' q = m q) ∧
    ∀ q, ¬(th + 20 ≤ q ∧ q < headerEnd m th) → m' q = m q
  get_loop : ∀ r, Gets m th r ↔ ∃ rounds, getLoop m th rounds = some r
  set_loop : ∀ tsval tsecho m', tsval ≠ none ∨ tsecho ≠ none →
    (Sets m th tsval tsecho m' ↔ ∃ rounds, setLoop m th tsval tsecho rounds = some m')

variable {m th} {m' : Octets} {p n k : ℕ}

/-! ### The options of an area -/

/-- What follows an option of a list is a list. -/
theorem OptionList.after {kind size : BitVec 8} {bs : List (BitVec 8)}
    (h : OptionList (kind :: size :: bs)) (h₀ : kind ≠ TCPOPT_EOL) (h₁ : kind ≠ TCPOPT_NOP) :
    (kind = TCPOPT_TIMESTAMP → size = TCPOLEN_TIMESTAMP) ∧
      ∃ k, size.toNat = k + 2 ∧ k ≤ bs.length ∧ OptionList (bs.drop k) := by
  cases h with
  | eol => exact absurd rfl h₀
  | nop => exact absurd rfl h₁
  | @option _ _ body rest _ _ hsize h₈ h =>
    refine ⟨h₈, body.length, hsize, by simp, ?_⟩
    rwa [List.drop_left]

theorem OptionList.tail {rest : List (BitVec 8)} (h : OptionList (TCPOPT_NOP :: rest)) :
    OptionList rest := by
  cases h with
  | nop h => exact h
  | option _ h₁ => exact absurd rfl h₁

theorem drop_block (m : Octets) (o : ℕ) (h : k ≤ n) :
    (m.block o n).drop k = m.block (o + k) (n - k) := by
  obtain ⟨j, rfl⟩ : ∃ j, n = k + j := ⟨n - k, by omega⟩
  rw [block_add, List.drop_left' (length_block m o k), Nat.add_sub_cancel_left]

/-- From the start of an option on, the area is a list of options. -/
theorem WellFormed.optionList (h : WellFormed m th) (hp : OptionAt m th p) :
    OptionList (m p :: m (p + 1) :: m.block (p + 2) (headerEnd m th - (p + 2))) := by
  have hfront : ∀ {p}, OptionAt m th p → m.block p (headerEnd m th - p) =
      m p :: m (p + 1) :: m.block (p + 2) (headerEnd m th - (p + 2)) := by
    intro p hp
    have hlt : p + 1 < headerEnd m th := hp.lt_doff
    obtain ⟨j, hj⟩ : ∃ j, headerEnd m th - p = j + 1 + 1 := ⟨headerEnd m th - p - 2, by omega⟩
    have hj' : headerEnd m th - (p + 2) = j := by omega
    rw [hj, block_succ, block_succ, hj']
  induction hp with
  | first hlt =>
    rw [← hfront (.first hlt)]
    exact h
  | @nop p hp hk hlt ih =>
    rw [hk] at ih
    rw [← hfront (hp.nop hk hlt)]
    have hj : headerEnd m th - (p + 1) = headerEnd m th - (p + 2) + 1 := by
      have : p + 1 < headerEnd m th := hp.lt_doff
      omega
    rw [hj, block_succ]
    exact ih.tail
  | @other p hp h₀ h₁ h₈ hlt ih =>
    obtain ⟨-, k, hk, hle, hrest⟩ := ih.after h₀ h₁
    rw [length_block] at hle
    rw [drop_block m _ hle] at hrest
    rw [← hfront (hp.other h₀ h₁ h₈ hlt)]
    have hstart : p + (m (p + 1)).toNat = p + 2 + k := by omega
    have hlen : headerEnd m th - (p + 2 + k) = headerEnd m th - (p + 2) - k := by omega
    rwa [hstart, hlen]

/-- The loops pass every option of a list, and find the timestamp at its length. -/
theorem WellFormed.sound (h : WellFormed m th) (hp : OptionAt m th p) : SoundAt m p := by
  refine ⟨fun h₀ h₁ _ hz => ?_, fun hk => ?_⟩
  · obtain ⟨-, k, hk, -⟩ := (h.optionList hp).after h₀ h₁
    simp [hz] at hk
  · refine ((h.optionList hp).after ?_ ?_).1 hk <;> rw [hk] <;> decide

/-- A timestamp lies in the area. -/
theorem WellFormed.timestamp_inside (h : WellFormed m th) (hp : OptionAt m th p)
    (hk : m p = TCPOPT_TIMESTAMP) : p + 10 ≤ headerEnd m th := by
  obtain ⟨hlen, k, hsize, hle, -⟩ := (h.optionList hp).after
    (by rw [hk]; decide) (by rw [hk]; decide)
  have hten : (m (p + 1)).toNat = 10 := by
    rw [hlen hk]
    rfl
  rw [length_block] at hle
  omega

/-! ### The aligned timestamp -/

theorem scan_unique {α : Type} {nok a b : α} {found : ℕ → Option α}
    (h : scan m th nok found n = some a) (h' : scan m th nok found k = some b) : a = b :=
  Option.some.inj ((run_mono h (Nat.le_max_left n k)).symm.trans
    (run_mono h' (Nat.le_max_right n k)))

/-- Without options, a loop ends at once. -/
theorem scan_of_doff {α : Type} {nok : α} {found : ℕ → Option α} (hd : doff m th = 5) :
    scan m th nok found 1 = some nok := by
  have hend : ¬th + 20 < optionsEnd m th := by simp [optionsEnd, hd]
  exact run_done (if_neg hend)

/-- A test before the loop that has the loop's result. -/
theorem exists_eq_iff {α : Type} {f g : ℕ → Option α} {a : α}
    (hf : ∀ n, f n = some a) (hg : ∃ n, g n = some a)
    (hu : ∀ {n k b c}, g n = some b → g k = some c → b = c) (r : α) :
    (∃ n, f n = some r) ↔ ∃ n, g n = some r := by
  obtain ⟨n, hn⟩ := hg
  constructor
  · rintro ⟨k, hk⟩
    exact ⟨n, by rw [hn, ← hf k, hk]⟩
  · rintro ⟨k, hk⟩
    exact ⟨0, by rw [hf 0, hu hn hk]⟩

/-- `get_tcp_timestamps` gives what its loop gives. -/
theorem gets_iff_loop (r : Option (BitVec 32 × BitVec 32)) :
    Gets m th r ↔ ∃ rounds, getLoop m th rounds = some r := by
  by_cases hd : doff m th = 5
  · refine exists_eq_iff (fun n => ?_) ⟨1, scan_of_doff hd⟩ scan_unique r
    rw [getTcpTimestamps, if_pos hd]
  by_cases ha : aligned m th = true
  · obtain ⟨-, -, hk, hlen⟩ := aligned_octets ha
    refine exists_eq_iff (fun n => ?_)
      (scan_of_optionAt (optionAt_of_aligned ha) hk (if_pos hlen)) scan_unique r
    rw [getTcpTimestamps, if_neg hd, if_pos ha]
  · unfold Gets getTcpTimestamps
    simp only [hd, ha, if_false]
    rfl

/-- `set_tcp_timestamps` gives what its loop gives, where there is a value to set. -/
theorem sets_iff_loop {tsval tsecho : Option (BitVec 32)} (h : tsval ≠ none ∨ tsecho ≠ none) :
    Sets m th tsval tsecho m' ↔ ∃ rounds, setLoop m th tsval tsecho rounds = some m' := by
  have hval : ¬(tsval = none ∧ tsecho = none) := by
    rintro ⟨hv, he⟩
    exact h.elim (· hv) (· he)
  by_cases hd : doff m th = 5
  · refine exists_eq_iff (fun n => ?_) ⟨1, scan_of_doff hd⟩ scan_unique m'
    rw [setTcpTimestamps, if_pos (.inl hd)]
  have hcond : ¬(doff m th = 5 ∨ tsval = none ∧ tsecho = none) := by simp only [hd, hval, or_self,
    not_false_eq_true]
  by_cases ha : aligned m th = true
  · obtain ⟨-, -, hk, hlen⟩ := aligned_octets ha
    refine exists_eq_iff (fun n => ?_)
      (scan_of_optionAt (optionAt_of_aligned ha) hk (if_pos hlen)) scan_unique m'
    rw [setTcpTimestamps, if_neg hcond, if_pos ha]
  · unfold Sets setTcpTimestamps
    simp only [hcond, ha, if_false]
    rfl

/-! ### The functions on one header -/

theorem TimestampField.lt_headerEnd {q : ℕ} (h : TimestampField m th q) : q < headerEnd m th := by
  obtain ⟨ha, -, hlt⟩ | ⟨p, -, -, -, -, hlt⟩ := h
  · have h8 : (doff m th).toNat = 8 := congrArg BitVec.toNat (of_decide_eq_true ha).1
    rwa [headerEnd, h8]
  · exact hlt

/-- `strip_tcp_timestamps` writes the end of the list over one octet. -/
theorem strip_writes (h : stripTcpTimestamps m th n = some m') : ∃ p, ∀ q, q ≠ p → m' q = m q := by
  have hwrite : ∀ p q, q ≠ p → m.write p [TCPOPT_EOL] q = m q := by
    refine fun p q hq => Octets.write_of_notMem ?_
    rw [List.length_singleton]
    omega
  unfold stripTcpTimestamps at h
  split_ifs at h
  · cases h
    exact ⟨0, fun _ _ => rfl⟩
  · cases h
    exact ⟨th + 20, hwrite _⟩
  · obtain rfl | ⟨p, -, -, hf⟩ := scan_some h
    · exact ⟨0, fun _ _ => rfl⟩
    · cases hf
      exact ⟨p, hwrite p⟩

/-- Where no timestamp is found, there is no timestamp option. -/
theorem not_timestamp_of_gets (h : Gets m th none) (hp : OptionAt m th p) :
    m p ≠ TCPOPT_TIMESTAMP := by
  obtain ⟨n, hget⟩ := h
  intro hk
  obtain ⟨k, hget'⟩ := get_of_optionAt hp hk ((get_halts_iff.1 ⟨n, _, hget⟩ p hp).2 hk)
  cases get_unique hget hget'

/-- Where no timestamp is found, none is set. -/
theorem sets_of_gets_none (h : Gets m th none) (tsval tsecho : Option (BitVec 32)) :
    Sets m th tsval tsecho m := by
  obtain ⟨n, hget⟩ := h
  obtain ⟨k, m', hset⟩ : ∃ k m', setTcpTimestamps m th tsval tsecho k = some m' :=
    set_halts_iff.2 (.inr (get_halts_iff.1 ⟨n, _, hget⟩))
  have hsame : m' = m := by
    unfold setTcpTimestamps at hset
    split_ifs at hset with _ ha
    · cases hset
      rfl
    · exact absurd (aligned_octets ha).2.2.1
        (not_timestamp_of_gets ⟨n, hget⟩ (optionAt_of_aligned ha))
    · obtain hr | ⟨p, hp, hk, -⟩ := scan_some hset
      · exact hr
      · exact absurd hk (not_timestamp_of_gets ⟨n, hget⟩ hp)
  exact ⟨k, by rw [hset, hsame]⟩

/-- The value of a timestamp that is found is replaced, and nothing else. -/
theorem WellFormed.set_found (h : WellFormed m th) {v e : BitVec 32} (w : BitVec 32)
    (hget : Gets m th (some (v, e))) :
    ∃ m' p, Sets m th (some w) none m' ∧ Gets m' th (some (w, e)) ∧ OptionAt m th p ∧
      m p = TCPOPT_TIMESTAMP ∧ m.be32 (p + 2) = v ∧ p + 10 ≤ headerEnd m th ∧
      ∀ q, ¬(p + 2 ≤ q ∧ q < p + 6) → m' q = m q := by
  obtain ⟨n, hget⟩ := hget
  obtain ⟨p, hp, hk, hlen, hts⟩ := get_some hget
  obtain ⟨k, hset⟩ := set_of_optionAt hp hk hlen w
  refine ⟨_, p, ⟨k, hset⟩, get_after_set hget hset, hp, hk, (congrArg Prod.fst hts).symm,
    h.timestamp_inside hp hk, fun q hq => Octets.write_of_notMem ?_⟩
  have hfour : (Octets.ofBe32 w).length = 4 := rfl
  omega

/-- **Coherence.** For every header whose option area is a well-formed list, the three functions
return and work on the same timestamp, and the test for the aligned timestamp makes no difference.
-/
theorem timestamps_coherent (m : Octets) (th : ℕ) (h : WellFormed m th) : Coherent m th where
  get_returns := by
    obtain ⟨n, r, hget⟩ := get_halts_iff.2 fun p hp => h.sound hp
    exact ⟨r, n, hget⟩
  set_found _ _ w hget := h.set_found w hget
  set_missing := sets_of_gets_none
  strip := by
    obtain ⟨n, m', hstrip⟩ := strip_halts_iff.2 fun p hp => (h.sound hp).1
    refine ⟨m', ⟨n, hstrip⟩, get_after_strip hstrip, strip_writes hstrip, fun q hq => ?_⟩
    exact strip_agrees hstrip fun hf => hq ⟨hf.le, hf.lt_headerEnd⟩
  get_loop := gets_iff_loop
  set_loop _ _ _ := sets_iff_loop

/-- A header with a maximum segment size, a timestamp and padding. -/
def Sample.timestamped : Octets :=
  Octets.write (fun _ => 0) 12
    [0x90, 0x02, 0, 0, 0, 0, 0, 0, 2, 4, 0x05, 0xb4, 8, 10, 0, 0, 0, 7, 0, 0, 0, 9, 1, 0]

theorem timestamps_coherent_sample :
    WellFormed Sample.timestamped 0 ∧ Coherent Sample.timestamped 0 := by
  have hlist : WellFormed Sample.timestamped 0 := by
    have hblock : Sample.timestamped.block 20 16 =
        2 :: 4 :: ([0x05, 0xb4] ++ (8 :: 10 :: ([0, 0, 0, 7, 0, 0, 0, 9] ++ [1, 0]))) := by decide
    have hlen : headerEnd Sample.timestamped 0 - (0 + 20) = 16 := by decide
    rw [WellFormed, hlen, hblock]
    refine .option (by decide) (by decide) (by decide) (by decide) ?_
    exact .option (by decide) (by decide) (by decide) (by decide) (.nop (.eol []))
  exact ⟨hlist, timestamps_coherent _ _ hlist⟩

end Wire

end Honeybrid
