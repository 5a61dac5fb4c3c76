import Mathlib.Algebra.GroupWithZero.Nat
import Honeybrid.Lib.Octets

/-!
# Sums of 16-bit words

The checksum of the Internet protocols is the one's complement of the one's complement sum of the
16-bit words of a message. `Verifies` is the receiver's test: the words, in network byte order and
with an odd last octet padded by zero, sum to `0xffff`. `leSum` is the sum of the words as a
little-endian machine loads them, without reduction: a message that is not zero verifies exactly if
this sum is a multiple of `65535`.

## Main results

* `verifies_iff`: the receiver's test by the sum of the machine's words.
* `onesTotal_spec`: the one's complement sum of words by their sum.
* `leSum_append`: words are not split by a prefix of even length.
* `leSum_write`: the sum after one word of a message was replaced.
-/

namespace Checksum

variable {xs ys bs : List (BitVec 8)} {m m' : Octets} {o p n k : ℕ} {w : BitVec 16}

/-- The sum of the words, least significant octet first. -/
def leSum : List (BitVec 8) → ℕ
  | [] => 0
  | [a] => a.toNat
  | a :: b :: bs => a.toNat + 256 * b.toNat + leSum bs

/-- Addition of 16-bit words with end-around carry. -/
def onesAdd (a b : ℕ) : ℕ :=
  (a + b) % 65536 + (a + b) / 65536

/-- The one's complement sum of the words, most significant octet first. -/
def onesSum : List (BitVec 8) → ℕ
  | [] => 0
  | [a] => 256 * a.toNat
  | a :: b :: bs => onesAdd (256 * a.toNat + b.toNat) (onesSum bs)

/-- The receiver's test of a message with its checksum. -/
def Verifies (bs : List (BitVec 8)) : Prop :=
  onesSum bs = 65535

instance : Decidable (Verifies bs) :=
  inferInstanceAs (Decidable (_ = _))

/-- The one's complement sum is a word, zero only for the message of zeros, and it depends on the
order of the octets in a word by a factor only. -/
theorem onesSum_spec (bs : List (BitVec 8)) :
    onesSum bs ≤ 65535 ∧ (onesSum bs = 0 ↔ leSum bs = 0) ∧
      onesSum bs % 65535 = 256 * leSum bs % 65535 := by
  induction bs using leSum.induct with
  | case1 => simp [onesSum, leSum]
  | case2 a =>
    have := a.isLt
    simp only [onesSum, leSum]
    exact ⟨by omega, by omega, trivial⟩
  | case3 a b bs ih =>
    have := a.isLt
    have := b.isLt
    simp only [onesSum, leSum, onesAdd]
    omega

/-- The receiver's test, in the byte order of the machine. -/
theorem verifies_iff (h : 0 < leSum bs) : Verifies bs ↔ leSum bs % 65535 = 0 := by
  obtain ⟨hle, hz, hmod⟩ := onesSum_spec bs
  unfold Verifies
  omega

/-! ### Words as the machine loads them -/

/-- The words of a message, least significant octet first. An odd last octet is padded by zero on
its right. -/
def words : List (BitVec 8) → List (BitVec 16)
  | [] => []
  | [a] => [0#8 ++ a]
  | a :: b :: bs => (b ++ a) :: words bs

/-- The one's complement sum of words. -/
def onesTotal (ws : List (BitVec 16)) : ℕ :=
  ws.foldr (fun w s => onesAdd w.toNat s) 0

theorem toNat_append_octets (a b : BitVec 8) : (b ++ a).toNat = a.toNat + 256 * b.toNat := by
  rw [BitVec.toNat_append, ← Nat.shiftLeft_add_eq_or_of_lt a.isLt, Nat.shiftLeft_eq]
  omega

theorem leSum_eq_sum (bs : List (BitVec 8)) :
    leSum bs = ((words bs).map BitVec.toNat).sum := by
  induction bs using leSum.induct with
  | case1 => rfl
  | case2 a =>
    rw [leSum, words, List.map_singleton, List.sum_singleton, toNat_append_octets]
    rfl
  | case3 a b bs ih =>
    rw [leSum, words, List.map_cons, List.sum_cons, ih, toNat_append_octets]

/-- End-around carry is arithmetic modulo `65535`, where zero is kept for words that are all
zero. -/
theorem onesTotal_spec (ws : List (BitVec 16)) :
    onesTotal ws ≤ 65535 ∧ (onesTotal ws = 0 ↔ (ws.map BitVec.toNat).sum = 0) ∧
      onesTotal ws % 65535 = (ws.map BitVec.toNat).sum % 65535 := by
  induction ws with
  | nil => simp [onesTotal]
  | cons w ws ih =>
    have := w.isLt
    have hcons : onesTotal (w :: ws) = onesAdd w.toNat (onesTotal ws) := rfl
    rw [hcons, List.map_cons, List.sum_cons, onesAdd]
    omega

theorem leSum_append (h : xs.length % 2 = 0) : leSum (xs ++ ys) = leSum xs + leSum ys := by
  induction xs using leSum.induct with
  | case1 => simp [leSum]
  | case2 a => simp at h
  | case3 a b bs ih =>
    have hbs : bs.length % 2 = 0 := by
      simp only [List.length_cons] at h
      omega
    simp only [List.cons_append, leSum, ih hbs]
    omega

theorem leSum_le (bs : List (BitVec 8)) : leSum bs ≤ 65535 * ((bs.length + 1) / 2) := by
  induction bs using leSum.induct with
  | case1 => simp [leSum]
  | case2 a =>
    have := a.isLt
    simp only [leSum, List.length_cons, List.length_nil]
    omega
  | case3 a b bs ih =>
    have := a.isLt
    have := b.isLt
    simp only [leSum, List.length_cons]
    omega

/-- A message that starts with an octet other than zero has a sum. -/
theorem leSum_pos {a : BitVec 8} (h : a ≠ 0) : 0 < leSum (a :: bs) := by
  have ha : 0 < a.toNat := by
    rcases Nat.eq_zero_or_pos a.toNat with h0 | h0
    · exact absurd (BitVec.eq_of_toNat_eq h0) h
    · exact h0
  cases bs with
  | nil => simpa [leSum] using ha
  | cons b bs =>
    simp only [leSum]
    omega

/-! ### Blocks of memory -/

@[simp] theorem length_block (m : Octets) (o n : ℕ) : (m.block o n).length = n := by
  simp [Octets.block]

theorem block_add (m : Octets) (o n k : ℕ) :
    m.block o (n + k) = m.block o n ++ m.block (o + n) k := by
  simp [Octets.block, ← List.range'_append_1]

theorem block_congr {o' : ℕ} (h : ∀ i < n, m (o + i) = m' (o' + i)) :
    m.block o n = m'.block o' n := by
  refine List.ext_getElem (by simp) fun i hi _ => ?_
  rw [length_block] at hi
  simpa [Octets.block] using h i hi

theorem block_succ (m : Octets) (o n : ℕ) : m.block o (n + 1) = m o :: m.block (o + 1) n := by
  simp [Octets.block, List.range'_succ]

/-- The sum of a block, at an even distance from its start. -/
theorem leSum_block_add (hn : n % 2 = 0) :
    leSum (m.block o (n + k)) = leSum (m.block o n) + leSum (m.block (o + n) k) := by
  rw [block_add, leSum_append (by simpa using hn)]

theorem write_outside (h : p < o ∨ o + 2 ≤ p) : m.write o (Octets.ofLe16 w) p = m p :=
  Octets.write_of_notMem h

theorem leSum_ofLe16 : leSum (Octets.ofLe16 w) = w.toNat := by
  have := w.isLt
  simp only [Octets.ofLe16, leSum, BitVec.extractLsb'_toNat, Nat.shiftRight_eq_div_pow]
  omega

/-- A word that was zero adds its value to the sum. -/
theorem leSum_store (h : xs.length % 2 = 0) :
    leSum (xs ++ (Octets.ofLe16 w ++ ys)) = leSum (xs ++ ([0, 0] ++ ys)) + w.toNat := by
  have heven : (Octets.ofLe16 w).length % 2 = 0 := by
    simp [Octets.ofLe16]
  have hzeros : ([0, 0] : List (BitVec 8)).length % 2 = 0 := rfl
  have hnull : leSum [0, 0] = 0 := rfl
  rw [leSum_append h, leSum_append heven, leSum_append h, leSum_append hzeros,
    leSum_ofLe16, hnull]
  omega

theorem block_write_self (m : Octets) (o : ℕ) (bs : List (BitVec 8)) :
    (m.write o bs).block o bs.length = bs := by
  refine List.ext_getElem (by simp) fun i hi hi' => ?_
  simp [Octets.block, Octets.write, hi']

/-- A part of what was written, octet by octet. -/
theorem write_append_apply (m : Octets) (o : ℕ) (xs : List (BitVec 8)) {i : ℕ}
    (hi : i < ys.length) (zs : List (BitVec 8)) :
    m.write o (xs ++ (ys ++ zs)) (o + xs.length + i) = ys[i] := by
  have hle : o ≤ o + xs.length + i := by omega
  have hsub : o + xs.length + i - o = xs.length + i := by omega
  rw [Octets.write, if_pos hle, hsub, List.getElem?_append_right (Nat.le_add_right ..),
    Nat.add_sub_cancel_left, List.getElem?_append_left hi, List.getElem?_eq_getElem hi,
    Option.getD_some]

theorem block_write_append (xs ys zs : List (BitVec 8)) :
    (m.write o (xs ++ (ys ++ zs))).block (o + xs.length) ys.length = ys := by
  refine List.ext_getElem (length_block ..) fun i _ hi => ?_
  simpa [Octets.block] using write_append_apply m o xs hi zs

/-- One word of a block is replaced. -/
theorem leSum_write (hp : p % 2 = 0) (hn : p + 2 ≤ n) :
    leSum ((m.write (o + p) (Octets.ofLe16 w)).block o n) + leSum (m.block (o + p) 2) =
      leSum (m.block o n) + w.toNat := by
  obtain ⟨k, rfl⟩ : ∃ k, n = p + (2 + k) := ⟨n - p - 2, by omega⟩
  have hpre : (m.write (o + p) (Octets.ofLe16 w)).block o p = m.block o p :=
    block_congr fun i hi => write_outside (by omega)
  have hpost : (m.write (o + p) (Octets.ofLe16 w)).block (o + p + 2) k = m.block (o + p + 2) k :=
    block_congr fun i hi => write_outside (by omega)
  have hself : (m.write (o + p) (Octets.ofLe16 w)).block (o + p) 2 = Octets.ofLe16 w :=
    block_write_self m (o + p) (Octets.ofLe16 w)
  simp only [leSum_block_add hp, leSum_block_add (Nat.mod_self 2), hpre, hpost, hself, leSum_ofLe16]
  omega

end Checksum
