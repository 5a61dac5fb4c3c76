import Honeybrid.Wire

/-!
# The timestamp of a header

What `get_tcp_timestamps` finds in the headers that `strip_tcp_timestamps` and
`set_tcp_timestamps` have changed: nothing, and the value that was set. The functions on octets do
to the value of the timestamp what `fixTcpTimestamps` does to it as a field of the header.

## Main results

* `get_moved`: a timestamp is found wherever the header is in memory.
* `get_after_strip`, `get_after_set`.
* `timestamp_fix`: `fix_tcp_timestamps` on octets and on fields.
-/

namespace Honeybrid

namespace Wire

open Loop

variable {m m' : Octets} {th p n : ℕ}

/-! ### The rounds of a loop -/

/-- Forty-one rounds are enough, since the options of a header have at most forty octets. -/
theorem get_within {r : Option (BitVec 32 × BitVec 32)} (h : getTcpTimestamps m th n = some r) :
    getTcpTimestamps m th 41 = some r := by
  obtain ⟨r', h'⟩ : ∃ r', getTcpTimestamps m th 41 = some r' := by
    unfold getTcpTimestamps at h ⊢
    split_ifs at h ⊢
    · exact ⟨_, rfl⟩
    · exact ⟨_, rfl⟩
    · refine Halts.within (fun p => optionsEnd m th - p) (fun _ _ h => scanStep_measure h)
        ⟨n, r, h⟩ ?_
      have := (doff m th).isLt
      unfold optionsEnd
      omega
  rw [h', get_unique h h']

theorem timestamp_of_get {r : Option (BitVec 32 × BitVec 32)}
    (h : getTcpTimestamps m th n = some r) : timestamp m th = r.map Prod.fst := by
  rw [timestamp, get_within h, Option.getD_some]

/-! ### Headers that are moved -/

/-- A round at the same octets does the same. -/
theorem scanStep_moved {α : Type} {k q last last' : ℕ} {nok : α} {found found' : ℕ → Option α}
    (h₀ : m' (q + k) = m q) (h₁ : m' (q + k + 1) = m (q + 1)) (hlt : q + k < last' ↔ q < last)
    (hf : found' (q + k) = found q) :
    (∃ a, scanStep m last nok found q = .done a ∧ scanStep m' last' nok found' (q + k) = .done a) ∨
      ∃ q₁, scanStep m last nok found q = .again q₁ ∧
        scanStep m' last' nok found' (q + k) = .again (q₁ + k) ∧ q ≤ q₁ := by
  simp only [scanStep, h₀, h₁, hlt, hf]
  split_ifs
  · exact .inl ⟨_, rfl, rfl⟩
  · exact .inr ⟨_, rfl, by rw [Nat.add_right_comm], by omega⟩
  · cases found q with
    | some a => exact .inl ⟨_, rfl, rfl⟩
    | none => exact .inr ⟨_, rfl, rfl, Nat.le_refl q⟩
  · exact .inr ⟨_, rfl, by rw [Nat.add_right_comm], by omega⟩
  · exact .inl ⟨_, rfl, rfl⟩

/-- The timestamp is found in the options and by the data offset, wherever the header is. -/
theorem get_moved {k : ℕ} (hd : m' (th + k + 12) = m (th + 12))
    (h : ∀ q, th + 20 ≤ q → m' (q + k) = m q) :
    getTcpTimestamps m' (th + k) n = getTcpTimestamps m th n := by
  have hdoff : doff m' (th + k) = doff m th := congrArg (BitVec.extractLsb' 4 4) hd
  have hword : ∀ q, th + 20 ≤ q → m'.be32 (q + k) = m.be32 q := by
    refine fun q hq => Octets.be32_congr fun i hi => ?_
    rw [Nat.add_right_comm]
    exact h _ (by omega)
  have haligned : aligned m' (th + k) = aligned m th := by
    unfold aligned
    rw [hdoff, Nat.add_right_comm th k 20, hword _ (Nat.le_refl _)]
  have hlt : ∀ q, th + 20 ≤ q → (q + k < optionsEnd m' (th + k) ↔ q < optionsEnd m th) := by
    intro q hq
    unfold optionsEnd
    rw [hdoff]
    omega
  unfold getTcpTimestamps
  rw [hdoff, haligned, Nat.add_right_comm th k 24, Nat.add_right_comm th k 28,
    hword _ (by omega), hword _ (by omega)]
  refine ite_congr rfl (fun _ => rfl) fun _ => ite_congr rfl (fun _ => rfl) fun _ => ?_
  unfold scan
  rw [Nat.add_right_comm th k 20]
  refine (run_eq_of_sim (fun q q' => q' = q + k ∧ th + 20 ≤ q) ?_ ⟨rfl, Nat.le_refl _⟩).symm
  rintro q _ ⟨rfl, hq⟩
  have h₁ : m' (q + k + 1) = m (q + 1) := by
    rw [Nat.add_right_comm]
    exact h _ (by omega)
  refine (scanStep_moved (h q hq) h₁ (hlt q hq) ?_).imp_right ?_
  · rw [h₁, Nat.add_right_comm q k 2, Nat.add_right_comm q k 6, hword _ (by omega),
      hword _ (by omega)]
  · rintro ⟨q₁, hs, ht, hle⟩
    exact ⟨q₁, q₁ + k, hs, ht, rfl, by omega⟩

/-! ### Headers that are changed -/

/-- The way to an option is over the octets before it, and its own kind where the option before it
has no length. -/
theorem OptionAt.congr_upto (hp : OptionAt m th p) (hd : m' (th + 12) = m (th + 12))
    (h : ∀ q, th + 20 ≤ q → q ≤ p → m' q = m q) : OptionAt m' th p := by
  have hend : optionsEnd m' th = optionsEnd m th := by
    rw [optionsEnd, optionsEnd, doff, doff, hd]
  induction hp with
  | first hlt => exact .first (hend ▸ hlt)
  | @nop p hp hk hlt ih =>
    have hle := hp.le
    exact (ih fun q hq hqp => h q hq (by omega)).nop ((h p hle (by omega)).trans hk) (hend ▸ hlt)
  | @other p hp h₀ h₁ h₈ hlt ih =>
    have hle := hp.le
    have hbefore : OptionAt m' th p := ih fun q hq hqp => h q hq (by omega)
    obtain hzero | hpos := Nat.eq_zero_or_pos (m (p + 1)).toNat
    · rwa [hzero]
    · have hkind : m' p = m p := h p hle (by omega)
      have hsize : m' (p + 1) = m (p + 1) := h (p + 1) (by omega) (by omega)
      rw [← hsize] at hlt ⊢
      exact hbefore.other (hkind ▸ h₀) (hkind ▸ h₁) (hkind ▸ h₈) (hend ▸ hlt)

/-- To a timestamp, it is over the octets before it. -/
theorem OptionAt.congr_before (hp : OptionAt m th p) (hk : m p = TCPOPT_TIMESTAMP)
    (hd : m' (th + 12) = m (th + 12)) (h : ∀ q, th + 20 ≤ q → q < p → m' q = m q) :
    OptionAt m' th p := by
  have hend : optionsEnd m' th = optionsEnd m th := by
    rw [optionsEnd, optionsEnd, doff, doff, hd]
  cases hp with
  | first hlt => exact .first (hend ▸ hlt)
  | @nop p hp hnop hlt =>
    have hle := hp.le
    exact (hp.congr_upto hd fun q hq hqp => h q hq (by omega)).nop
      ((h p hle (by omega)).trans hnop) (hend ▸ hlt)
  | @other p hp h₀ h₁ h₈ hlt =>
    have hle := hp.le
    have hne₀ : (m (p + 1)).toNat ≠ 0 := fun hzero => h₈ (by rwa [hzero] at hk)
    have hne₁ : (m (p + 1)).toNat ≠ 1 := fun hone => by
      rw [hone] at hk
      rw [hk] at hone
      cases hone
    have hkind : m' p = m p := h p hle (by omega)
    have hsize : m' (p + 1) = m (p + 1) := h (p + 1) (by omega) (by omega)
    have hbefore : OptionAt m' th p := hp.congr_upto hd fun q hq hqp => h q hq (by omega)
    rw [← hsize] at hlt ⊢
    exact hbefore.other (hkind ▸ h₀) (hkind ▸ h₁) (hkind ▸ h₈) (hend ▸ hlt)

theorem aligned_eq {o : ℕ} (h : ∀ q < o, m' q = m q) (ho : th + 24 ≤ o) :
    aligned m' th = aligned m th := by
  unfold aligned doff Octets.be32
  rw [h (th + 12) (by omega), h (th + 20) (by omega), h (th + 20 + 1) (by omega),
    h (th + 20 + 2) (by omega), h (th + 20 + 3) (by omega)]

/-- Behind the end of the options nothing is found. -/
theorem get_of_eol (ha : aligned m th = false) (hp : OptionAt m th p) (hk : m p = TCPOPT_EOL) :
    ∃ n, getTcpTimestamps m th n = some none := by
  have hd : doff m th ≠ 5 := fun hd => not_optionAt_of_doff hd hp
  simp only [getTcpTimestamps, hd, ha, Bool.false_eq_true, ↓reduceIte]
  refine hp.comes.run ?_
  simp [scanStep, hp.lt, hk]

/-- The end of the options hides the timestamp behind it. -/
theorem get_write_eol (ha : aligned m th = false) (hp : OptionAt m th p)
    (hk : m p = TCPOPT_TIMESTAMP) :
    ∃ n, getTcpTimestamps (m.write p [TCPOPT_EOL]) th n = some none := by
  have hle := hp.le
  have hout : ∀ q < p, m.write p [TCPOPT_EOL] q = m q :=
    fun q hq => Octets.write_of_notMem (.inl hq)
  have heol : m.write p [TCPOPT_EOL] p = TCPOPT_EOL := by simp [Octets.write]
  refine get_of_eol ?_ (hp.congr_before hk (hout _ (by omega)) fun q _ hq => hout q hq) heol
  rw [Bool.eq_false_iff]
  intro hal
  obtain ⟨h₀, h₁, h₂, h₃⟩ := aligned_octets hal
  have h24 : th + 24 ≤ p := by
    by_contra hlt
    obtain rfl | rfl | rfl | rfl : p = th + 20 ∨ p = th + 21 ∨ p = th + 22 ∨ p = th + 23 := by omega
    · exact absurd (heol.symm.trans h₀) (by decide)
    · exact absurd (heol.symm.trans h₁) (by decide)
    · exact absurd (heol.symm.trans h₂) (by decide)
    · exact absurd (heol.symm.trans h₃) (by decide)
  rw [aligned_eq hout h24, ha] at hal
  cases hal

/-- Without a timestamp option, nothing is found. -/
theorem get_eq_none {r : Option (BitVec 32 × BitVec 32)} (h : getTcpTimestamps m th n = some r)
    (ha : aligned m th = false) (hno : ∀ p, OptionAt m th p → m p ≠ TCPOPT_TIMESTAMP) :
    r = none := by
  unfold getTcpTimestamps at h
  split_ifs at h with hd hal
  · exact (Option.some.inj h).symm
  · rw [ha] at hal
    cases hal
  · obtain hr | ⟨p, hp, hk, -⟩ := scan_some h
    · exact hr
    · exact absurd hk (hno p hp)

/-- After `strip_tcp_timestamps`, nothing is found. -/
theorem get_after_strip (h : stripTcpTimestamps m th n = some m') :
    ∃ k, getTcpTimestamps m' th k = some none := by
  by_cases hd : doff m th = 5
  · rw [stripTcpTimestamps, if_pos hd] at h
    cases h
    exact ⟨0, if_pos hd⟩
  cases ha : aligned m th with
  | true =>
    -- the loop, which is now run, ends at the first option
    rw [stripTcpTimestamps, if_neg hd, if_pos ha] at h
    cases h
    have heol : m.write (th + 20) [TCPOPT_EOL] (th + 20) = TCPOPT_EOL := by simp [Octets.write]
    have hdoff : doff (m.write (th + 20) [TCPOPT_EOL]) th = 8 := by
      rw [doff, Octets.write_of_notMem (.inl (by omega))]
      exact (of_decide_eq_true ha).1
    have hfirst : th + 20 < optionsEnd (m.write (th + 20) [TCPOPT_EOL]) th := by
      have h8 : (8 : BitVec 4).toNat = 8 := rfl
      rw [optionsEnd, hdoff, h8]
      omega
    refine get_of_eol ?_ (.first hfirst) heol
    rw [Bool.eq_false_iff]
    intro hal
    exact absurd (heol.symm.trans (aligned_octets hal).1) (by decide)
  | false =>
    by_cases hts : ∃ p, OptionAt m th p ∧ m p = TCPOPT_TIMESTAMP
    · obtain ⟨p, hp, hk⟩ := hts
      obtain ⟨k, hstrip⟩ : ∃ k, stripTcpTimestamps m th k = some (m.write p [TCPOPT_EOL]) := by
        simp only [stripTcpTimestamps, hd, ha, Bool.false_eq_true, ↓reduceIte]
        exact scan_of_optionAt hp hk rfl
      rw [strip_unique h hstrip]
      exact get_write_eol ha hp hk
    · have hno : ∀ p, OptionAt m th p → m p ≠ TCPOPT_TIMESTAMP := fun p hp hk => hts ⟨p, hp, hk⟩
      have hpass := strip_halts_iff.1 ⟨n, m', h⟩
      obtain ⟨k, r, hget⟩ :=
        get_halts_iff.2 fun p hp => ⟨hpass p hp, fun hk => absurd hk (hno p hp)⟩
      have hsame : m' = m := by
        simp only [stripTcpTimestamps, hd, ha, Bool.false_eq_true, ↓reduceIte] at h
        obtain hr | ⟨p, hp, hk, -⟩ := scan_some h
        · exact hr
        · exact absurd hk (hno p hp)
      rw [hsame]
      exact ⟨k, by rw [hget, get_eq_none hget ha hno]⟩

/-- A timestamp is found at an option of its kind and length. -/
theorem get_some {ts : BitVec 32 × BitVec 32} (h : getTcpTimestamps m th n = some (some ts)) :
    ∃ p, OptionAt m th p ∧ m p = TCPOPT_TIMESTAMP ∧ m (p + 1) = TCPOLEN_TIMESTAMP ∧
      ts = (m.be32 (p + 2), m.be32 (p + 6)) := by
  have hp : ∃ p, OptionAt m th p ∧ m p = TCPOPT_TIMESTAMP := by
    cases ha : aligned m th with
    | true => exact ⟨th + 22, optionAt_of_aligned ha, (aligned_octets ha).2.2.1⟩
    | false =>
      by_contra hno
      cases get_eq_none h ha fun p hp hk => hno ⟨p, hp, hk⟩
  obtain ⟨p, hp, hk⟩ := hp
  have hlen : m (p + 1) = TCPOLEN_TIMESTAMP := (get_halts_iff.1 ⟨n, _, h⟩ p hp).2 hk
  obtain ⟨k, hget⟩ := get_of_optionAt hp hk hlen
  exact ⟨p, hp, hk, hlen, Option.some.inj (get_unique h hget)⟩

/-- After `set_tcp_timestamps`, the value that was set is found where there was one, and the echo as
it was. -/
theorem get_after_set {ts : BitVec 32 × BitVec 32} {v : BitVec 32} {k : ℕ}
    (hget : getTcpTimestamps m th n = some (some ts))
    (hset : setTcpTimestamps m th (some v) none k = some m') :
    ∃ j, getTcpTimestamps m' th j = some (some (v, ts.2)) := by
  obtain ⟨p, hp, hk, hlen, rfl⟩ := get_some hget
  obtain ⟨j, hset'⟩ := set_of_optionAt hp hk hlen v
  rw [set_unique hset hset']
  have hle := hp.le
  have hout : ∀ q < p + 2, m.write (p + 2) (Octets.ofBe32 v) q = m q :=
    fun q hq => Octets.write_of_notMem (.inl hq)
  have hp' : OptionAt (m.write (p + 2) (Octets.ofBe32 v)) th p :=
    hp.congr_upto (hout _ (by omega)) fun q _ hq => hout q (by omega)
  obtain ⟨i, hi⟩ := get_of_optionAt hp' ((hout p (by omega)).trans hk)
    ((hout (p + 1) (by omega)).trans hlen)
  have hecho : (m.write (p + 2) (Octets.ofBe32 v)).be32 (p + 6) = m.be32 (p + 6) :=
    Octets.be32_write_of_notMem (.inr (Nat.le_refl _))
  exact ⟨i, by rw [hi, Octets.be32_write, hecho]⟩

/-- **Timestamps.** The value that is found after `fix_tcp_timestamps` is what the function makes of
the value that was found before. -/
theorem timestamp_fix {c : Conn} {hdr : TcpHdr} (h : fixTcpTimestamps m th c n = some m')
    (hts : hdr.ts = timestamp m th) :
    timestamp m' th = (Honeybrid.fixTcpTimestamps c hdr).ts := by
  unfold fixTcpTimestamps at h
  unfold Honeybrid.fixTcpTimestamps
  split_ifs at h ⊢ with hu ho
  · obtain ⟨k, hk⟩ := get_after_strip h
    rw [timestamp_of_get hk]
    rfl
  · cases hget : getTcpTimestamps m th n with
    | none => simp [hget] at h
    | some r =>
      dsimp only
      rw [hts, timestamp_of_get hget]
      cases r with
      | none =>
        simp [hget] at h
        cases h
        rw [timestamp_of_get hget]
        rfl
      | some ts =>
        have hset : setTcpTimestamps m th (some (ts.1 + BitVec.ofInt 32 c.tcpTsDiff)) none n =
            some m' := by simpa [hget] using h
        obtain ⟨j, hget'⟩ := get_after_set hget hset
        rw [timestamp_of_get hget']
        rfl
  · cases h
    exact hts.symm

end Wire

end Honeybrid
