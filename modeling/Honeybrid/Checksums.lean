import Honeybrid.Wire
import Honeybrid.Lib.Checksum

/-!
# Checksums of rewritten packets

`in_cksum`, `set_ip_checksum`, `set_tcp_checksum` and `set_udp_checksum` of `netcode.c`, over the
octets of a packet with the IP header at the offset `ip`. The macros overlay `struct iphdr`,
`struct tcp_packet` and `struct udp_packet` on the packet, in which the IP header has twenty octets:
the TCP checksum is stored at offset 36 and covers what follows offset 20, the UDP checksum is
cleared at offset 26, and the IP checksum covers twenty octets.

## Main results

* `inCksum_internet`: `in_cksum` is the complement of the one's complement sum of the words.
* `setIpChecksum_verifies_iff`: the IP header verifies if its options sum to zero.
* `setTcpChecksum_verifies`: a TCP segment behind an IP header without options verifies.
-/

namespace Honeybrid

namespace Wire

open Checksum

/-! ### The checksum routine -/

/-- The loop of `in_cksum`. -/
def accumulate : List (BitVec 8) → BitVec 32
  | [] => 0
  | [a] => a.setWidth 32
  | a :: b :: bs => (b ++ a).setWidth 32 + accumulate bs

/-- `in_cksum`. -/
def inCksum (bs : List (BitVec 8)) : BitVec 16 :=
  let sum := accumulate bs
  let sum := (sum >>> 16) + (sum &&& 0xffff)
  let sum := sum + (sum >>> 16)
  (~~~sum).setWidth 16

/-- The loop of `in_cksum` in the order of the source: `sum` is what was added before. -/
def inCksumLoop (sum : BitVec 32) : List (BitVec 8) → BitVec 32
  | [] => sum
  | [a] => sum + a.setWidth 32
  | a :: b :: bs => inCksumLoop (sum + (b ++ a).setWidth 32) bs

theorem inCksumLoop_eq (sum : BitVec 32) (bs : List (BitVec 8)) :
    inCksumLoop sum bs = sum + accumulate bs := by
  induction bs using accumulate.induct generalizing sum with
  | case1 => simp [inCksumLoop, accumulate]
  | case2 a => rw [inCksumLoop, accumulate]
  | case3 a b bs ih => rw [inCksumLoop, accumulate, ih, BitVec.add_assoc]

theorem accumulate_toNat (bs : List (BitVec 8)) :
    (accumulate bs).toNat = leSum bs % 2 ^ 32 := by
  induction bs using leSum.induct with
  | case1 => rfl
  | case2 a =>
    have := a.isLt
    simp only [accumulate, leSum, BitVec.toNat_setWidth]
  | case3 a b bs ih =>
    have := a.isLt
    have := b.isLt
    simp only [accumulate, leSum, BitVec.toNat_add, BitVec.toNat_setWidth, toNat_append_octets, ih]
    omega

/-- The result of `in_cksum` completes the sum of the words to a multiple of `65535`. -/
theorem inCksum_spec {bs : List (BitVec 8)} (h : leSum bs < 2 ^ 32) (hpos : 0 < leSum bs) :
    (leSum bs + (inCksum bs).toNat) % 65535 = 0 ∧ (inCksum bs).toNat < 65535 := by
  have hacc : (accumulate bs).toNat = leSum bs := by
    rw [accumulate_toNat, Nat.mod_eq_of_lt h]
  have hmask : (0xffff : BitVec 32).toNat = 2 ^ 16 - 1 := rfl
  have hval : (inCksum bs).toNat = (2 ^ 32 - 1 -
      ((leSum bs / 2 ^ 16 + leSum bs % 2 ^ 16) % 2 ^ 32 +
        (leSum bs / 2 ^ 16 + leSum bs % 2 ^ 16) % 2 ^ 32 / 2 ^ 16) % 2 ^ 32) % 2 ^ 16 := by
    simp only [inCksum, BitVec.toNat_setWidth, BitVec.toNat_not, BitVec.toNat_add,
      BitVec.toNat_ushiftRight, BitVec.toNat_and, hmask, Nat.and_two_pow_sub_one_eq_mod,
      Nat.shiftRight_eq_div_pow, hacc]
  -- the first fold leaves at most seventeen bits, the second at most sixteen
  obtain ⟨s, hs⟩ : ∃ s, leSum bs / 2 ^ 16 + leSum bs % 2 ^ 16 = s := ⟨_, rfl⟩
  have hs32 : s % 2 ^ 32 = s := Nat.mod_eq_of_lt (by omega)
  have hsmod : s % 65535 = leSum bs % 65535 := by omega
  have hspos : 0 < s ∧ s ≤ 131070 := by omega
  have hsum : (inCksum bs).toNat + (s + s / 2 ^ 16) % 2 ^ 16 = 65535 := by
    rw [hs, hs32] at hval
    omega
  obtain hlt | hge := Nat.lt_or_ge s 65536
  · have hdiv : s / 2 ^ 16 = 0 := Nat.div_eq_of_lt hlt
    omega
  · have hdiv : s / 2 ^ 16 = 1 := by omega
    omega

/-- The result of `in_cksum` and the one's complement sum of the words add up to `65535`. -/
theorem inCksum_add_onesTotal {bs : List (BitVec 8)} (h : leSum bs < 2 ^ 32) :
    (inCksum bs).toNat + onesTotal (words bs) = 65535 := by
  obtain ⟨hle, hzero, hmod⟩ := onesTotal_spec (words bs)
  rw [← leSum_eq_sum] at hzero hmod
  obtain hnil | hpos := Nat.eq_zero_or_pos (leSum bs)
  · have hacc : accumulate bs = 0 :=
      BitVec.eq_of_toNat_eq (by rw [accumulate_toNat, hnil]; rfl)
    have hones : inCksum bs = 65535 := by
      rw [inCksum, hacc]
      rfl
    rw [hones, hzero.mpr hnil]
    rfl
  · obtain ⟨hspec, hlt⟩ := inCksum_spec h hpos
    omega

/-- The sums of messages that are captured or assembled here fit the accumulator. -/
theorem leSum_lt {bs : List (BitVec 8)} (h : bs.length ≤ 65535 + 12) : leSum bs < 2 ^ 32 := by
  have hle := leSum_le bs
  omega

/-- **The Internet checksum.** For a message of at most `65535` octets behind a pseudo header of
twelve, the accumulator of `in_cksum` is the sum of the words, without loss, and the result is the
complement of their one's complement sum. Where a word of the message was zero, the message sums to
zero once the result is stored there. -/
theorem inCksum_internet {bs : List (BitVec 8)} (h : bs.length ≤ 65535 + 12) :
    (∀ n, (inCksumLoop 0 (bs.take n)).toNat = ((words (bs.take n)).map BitVec.toNat).sum) ∧
      inCksum bs = ~~~BitVec.ofNat 16 (onesTotal (words bs)) ∧
        ∀ xs ys, bs = xs ++ ([0, 0] ++ ys) → xs.length % 2 = 0 →
          inCksum (xs ++ (Octets.ofLe16 (inCksum bs) ++ ys)) = 0 := by
  have hones := inCksum_add_onesTotal (leSum_lt h)
  refine ⟨fun n => ?_, ?_, fun xs ys hbs heven => ?_⟩
  · have hlen : (bs.take n).length ≤ 65535 + 12 := Nat.le_trans (List.length_take_le' n bs) h
    have hloop : inCksumLoop 0 (bs.take n) = accumulate (bs.take n) := by
      simp [inCksumLoop_eq]
    rw [hloop, accumulate_toNat, Nat.mod_eq_of_lt (leSum_lt hlen), leSum_eq_sum]
  · refine BitVec.eq_of_toNat_eq ?_
    rw [BitVec.toNat_not, BitVec.toNat_ofNat, Nat.mod_eq_of_lt (by omega)]
    omega
  · have hlen : (xs ++ (Octets.ofLe16 (inCksum bs) ++ ys)).length ≤ 65535 + 12 := by
      simpa [hbs, Octets.ofLe16] using h
    have hstored := inCksum_add_onesTotal (leSum_lt hlen)
    -- the word adds its value to the sum that it completes
    have hsum : leSum (xs ++ (Octets.ofLe16 (inCksum bs) ++ ys)) = _ := leSum_store heven
    rw [← hbs] at hsum
    obtain ⟨-, hzero, hmod⟩ := onesTotal_spec (words bs)
    obtain ⟨hle, hzero', hmod'⟩ := onesTotal_spec
      (words (xs ++ (Octets.ofLe16 (inCksum bs) ++ ys)))
    rw [← leSum_eq_sum] at hzero hmod hzero' hmod'
    refine BitVec.eq_of_toNat_eq (Nat.add_right_cancel (hstored.trans ?_))
    show 65535 = 0 + _
    omega

/-- Five octets, the second word of which is the checksum. -/
theorem inCksum_internet_odd :
    inCksum [0xff, 0xff, 0, 0, 7] = ~~~BitVec.ofNat 16 (onesTotal [0xffff, 0, 7]) ∧
      inCksum [0xff, 0xff, 0xf8, 0xff, 7] = 0 := by
  have hlen : [0xff, 0xff, 0, 0, (7 : BitVec 8)].length ≤ 65535 + 12 := by decide
  obtain ⟨-, hsum, hfield⟩ := inCksum_internet hlen
  exact ⟨hsum, hfield [0xff, 0xff] [7] rfl rfl⟩

/-- A word that is cleared, and set to the checksum of the message, makes the message sum to a
multiple of `65535`. -/
theorem leSum_complete {a : List (BitVec 8)} {m : Octets} {o p n : ℕ}
    (ha : a.length % 2 = 0) (hp : p % 2 = 0) (hn : p + 2 ≤ n)
    (hlt : leSum (a ++ (m.write (o + p) (Octets.ofLe16 0)).block o n) < 2 ^ 32)
    (hpos : 0 < leSum (a ++ (m.write (o + p) (Octets.ofLe16 0)).block o n)) :
    leSum (a ++ ((m.write (o + p) (Octets.ofLe16 0)).write (o + p) (Octets.ofLe16
      (inCksum (a ++ (m.write (o + p) (Octets.ofLe16 0)).block o n)))).block o n) % 65535 = 0 := by
  have hspec := (inCksum_spec hlt hpos).1
  have hzero : leSum ((m.write (o + p) (Octets.ofLe16 0)).block (o + p) 2) = 0 := by
    exact congrArg leSum (block_write_self m (o + p) (Octets.ofLe16 0))
  have hwrite := leSum_write (m := m.write (o + p) (Octets.ofLe16 0)) (o := o)
    (w := inCksum (a ++ (m.write (o + p) (Octets.ofLe16 0)).block o n)) hp hn
  rw [leSum_append ha] at hspec ⊢
  omega

/-! ### The checksum fields -/

variable (m : Octets) (ip : ℕ)

/-- `set_ip_checksum`. -/
def setIpChecksum : Octets :=
  let m := m.write (ip + 10) (Octets.ofLe16 0)
  m.write (ip + 10) (Octets.ofLe16 (inCksum (m.block ip 20)))

/-- `struct pseudohdr` as `tcp_checksum` fills it. -/
def pseudohdr : List (BitVec 8) :=
  m.block (ip + 12) 8 ++
    [0, IPPROTO_TCP, (hdrdataSize m ip).extractLsb' 8 8, (hdrdataSize m ip).extractLsb' 0 8]

/-- `tcp_checksum`: the fixed part of the header and the payload are copied behind the pseudo
header. The copy has room for `BUFSIZE` octets of payload, and a capture is no longer than that. -/
def tcpChecksum : BitVec 16 :=
  inCksum (pseudohdr m ip ++
    (m.block (ip + 20) 20 ++ m.block (ip + 20 + 20) ((hdrdataSize m ip).toNat - 20)))

/-- `set_tcp_checksum`. -/
def setTcpChecksum : Octets :=
  let m := m.write (ip + 36) (Octets.ofLe16 0)
  m.write (ip + 36) (Octets.ofLe16 (tcpChecksum m ip))

/-- `set_udp_checksum`. -/
def setUdpChecksum : Octets :=
  m.write (ip + 26) (Octets.ofLe16 0)

variable {m ip} {m' : Octets} {q : ℕ}

/-- The checksum macros change nothing but the field they set. -/
theorem setIpChecksum_apply (h : q < ip + 10 ∨ ip + 12 ≤ q) : setIpChecksum m ip q = m q := by
  rw [setIpChecksum, write_outside h, write_outside h]

theorem setTcpChecksum_apply (h : q < ip + 36 ∨ ip + 38 ≤ q) : setTcpChecksum m ip q = m q := by
  rw [setTcpChecksum, write_outside h, write_outside h]

theorem setUdpChecksum_apply (h : q < ip + 26 ∨ ip + 28 ≤ q) : setUdpChecksum m ip q = m q :=
  write_outside h

theorem setUdpChecksum_zero (h : q = ip + 26 ∨ q = ip + 27) : setUdpChecksum m ip q = 0 := by
  obtain rfl | rfl := h <;> simp [setUdpChecksum, Octets.write, Octets.ofLe16]

/-! ### What verifies -/

theorem leSum_block_pos {n : ℕ} (h : m q ≠ 0) : 0 < leSum (m.block q (n + 1)) := by
  rw [block_succ]
  exact leSum_pos h

/-- The fixed part of the IP header verifies. -/
theorem setIpChecksum_leSum (h : m ip ≠ 0) :
    leSum ((setIpChecksum m ip).block ip 20) % 65535 = 0 := by
  have hne : m.write (ip + 10) (Octets.ofLe16 0) ip ≠ 0 := by
    rwa [write_outside (by omega)]
  have hle := leSum_le ((m.write (ip + 10) (Octets.ofLe16 0)).block ip 20)
  rw [length_block] at hle
  have hall := leSum_complete (a := []) (m := m) (o := ip) (p := 10) (n := 20) rfl rfl (by decide)
    (by simp only [List.nil_append]; omega) (by simpa using leSum_block_pos hne)
  simpa [setIpChecksum] using hall

/-- The IP header verifies exactly if its options sum to zero. -/
theorem setIpChecksum_verifies_iff {n : ℕ} (h : m ip ≠ 0) :
    Verifies ((setIpChecksum m ip).block ip (20 + n)) ↔
      leSum (m.block (ip + 20) n) % 65535 = 0 := by
  have hne : setIpChecksum m ip ip ≠ 0 := by
    rwa [setIpChecksum_apply (by omega)]
  have hfixed := setIpChecksum_leSum h
  have hopts : (setIpChecksum m ip).block (ip + 20) n = m.block (ip + 20) n :=
    block_congr fun i _ => setIpChecksum_apply (by omega)
  rw [verifies_iff (by rw [Nat.add_comm]; exact leSum_block_pos hne), leSum_block_add rfl, hopts]
  omega

theorem hdrdataSize_congr (h₀ : m ip = m' ip) (h₂ : m (ip + 2) = m' (ip + 2))
    (h₃ : m (ip + 3) = m' (ip + 3)) : hdrdataSize m ip = hdrdataSize m' ip := by
  simp only [hdrdataSize, totLen, ihl, Octets.be16, h₀, h₂, h₃]

theorem pseudohdr_congr (h : ∀ o, o < 10 ∨ (12 ≤ o ∧ o < 20) → m (ip + o) = m' (ip + o)) :
    pseudohdr m ip = pseudohdr m' ip := by
  have hsize : hdrdataSize m ip = hdrdataSize m' ip :=
    hdrdataSize_congr (h 0 (by decide)) (h 2 (by decide)) (h 3 (by decide))
  have haddr : m.block (ip + 12) 8 = m'.block (ip + 12) 8 :=
    block_congr fun i hi => by simpa [Nat.add_assoc] using h (12 + i) (by omega)
  rw [pseudohdr, pseudohdr, hsize, haddr]

@[simp] theorem length_pseudohdr : (pseudohdr m ip).length = 12 := by
  simp [pseudohdr]

/-- The pseudo header names the protocol, so that no message sums to zero. -/
theorem leSum_pseudohdr_pos (m : Octets) (ip : ℕ) : 0 < leSum (pseudohdr m ip) := by
  have h6 : IPPROTO_TCP.toNat = 6 := rfl
  rw [pseudohdr, leSum_append (by simp)]
  simp only [leSum, h6]
  omega

/-- What the receiver of a TCP segment sums: the pseudo header, the TCP header and the payload. -/
def tcpMessage (m : Octets) (ip : ℕ) : List (BitVec 8) :=
  pseudohdr m ip ++ m.block (l4 m ip) (hdrdataSize m ip).toNat

/-- What `tcp_checksum` sums: the same length, but from where the TCP header is behind an IP header
without options. -/
def overlaid (m : Octets) (ip : ℕ) : List (BitVec 8) :=
  pseudohdr m ip ++ m.block (ip + 20) (hdrdataSize m ip).toNat

theorem tcpChecksum_eq (h : 20 ≤ (hdrdataSize m ip).toNat) :
    tcpChecksum m ip = inCksum (overlaid m ip) := by
  rw [tcpChecksum, overlaid, ← block_add, Nat.add_sub_cancel' h]

theorem leSum_overlaid_bounds (m : Octets) (ip : ℕ) :
    0 < leSum (overlaid m ip) ∧ leSum (overlaid m ip) < 2 ^ 32 := by
  have hpos := leSum_pseudohdr_pos m ip
  have hle := leSum_le (overlaid m ip)
  have hlt := (hdrdataSize m ip).isLt
  simp only [overlaid, List.length_append, length_pseudohdr, length_block] at hle
  refine ⟨?_, ?_⟩
  · rw [overlaid, leSum_append (by simp)]
    omega
  · simp only [overlaid]
    omega

theorem overlaid_setTcpChecksum :
    overlaid (setTcpChecksum m ip) ip =
      pseudohdr m ip ++ (setTcpChecksum m ip).block (ip + 20) (hdrdataSize m ip).toNat := by
  have hpseudo : pseudohdr (setTcpChecksum m ip) ip = pseudohdr m ip :=
    pseudohdr_congr fun o ho => setTcpChecksum_apply (by omega)
  have hsize : hdrdataSize (setTcpChecksum m ip) ip = hdrdataSize m ip :=
    hdrdataSize_congr (setTcpChecksum_apply (by omega)) (setTcpChecksum_apply (by omega))
      (setTcpChecksum_apply (by omega))
  rw [overlaid, hpseudo, hsize]

/-- What `tcp_checksum` sums does sum to a multiple of `65535` once its result is stored. -/
theorem setTcpChecksum_leSum (h : 20 ≤ (hdrdataSize m ip).toNat) :
    leSum (overlaid (setTcpChecksum m ip) ip) % 65535 = 0 := by
  obtain ⟨m₁, hm₁⟩ : ∃ m₁, m.write (ip + 20 + 16) (Octets.ofLe16 0) = m₁ := ⟨_, rfl⟩
  have hpseudo : pseudohdr m₁ ip = pseudohdr m ip :=
    hm₁ ▸ pseudohdr_congr fun o ho => write_outside (by omega)
  have hsize : hdrdataSize m₁ ip = hdrdataSize m ip :=
    hm₁ ▸ hdrdataSize_congr (write_outside (by omega)) (write_outside (by omega))
      (write_outside (by omega))
  have hover : overlaid m₁ ip = pseudohdr m ip ++ m₁.block (ip + 20) (hdrdataSize m ip).toNat := by
    rw [overlaid, hpseudo, hsize]
  obtain ⟨hpos, hlt⟩ := leSum_overlaid_bounds m₁ ip
  rw [hover, ← hm₁] at hpos hlt
  have hall := leSum_complete (by simp) rfl (by omega) hlt hpos
  rw [hm₁, ← hover, ← tcpChecksum_eq (by rwa [hsize])] at hall
  rw [overlaid_setTcpChecksum]
  have hset : setTcpChecksum m ip =
      m₁.write (ip + 20 + 16) (Octets.ofLe16 (tcpChecksum m₁ ip)) := by
    rw [← hm₁]
    rfl
  rwa [hset]

/-- What `tcp_checksum` sums does not contain the IP checksum. -/
theorem overlaid_setIpChecksum : overlaid (setIpChecksum m ip) ip = overlaid m ip := by
  have hpseudo : pseudohdr (setIpChecksum m ip) ip = pseudohdr m ip :=
    pseudohdr_congr fun o ho => setIpChecksum_apply (by omega)
  have hsize : hdrdataSize (setIpChecksum m ip) ip = hdrdataSize m ip :=
    hdrdataSize_congr (setIpChecksum_apply (by omega)) (setIpChecksum_apply (by omega))
      (setIpChecksum_apply (by omega))
  have hblock : ∀ n, (setIpChecksum m ip).block (ip + 20) n = m.block (ip + 20) n := fun n =>
    block_congr fun i _ => setIpChecksum_apply (by omega)
  rw [overlaid, overlaid, hpseudo, hsize, hblock]

theorem tcpMessage_eq (h : ihl m ip = 5) : tcpMessage m ip = overlaid m ip := by
  have hl4 : l4 m ip = ip + 20 := by
    rw [l4, h]
    rfl
  rw [tcpMessage, overlaid, hl4]

/-- A TCP segment behind an IP header without options verifies. -/
theorem setTcpChecksum_verifies (h₅ : ihl m ip = 5) (h : 20 ≤ (hdrdataSize m ip).toNat) :
    Verifies (tcpMessage (setIpChecksum (setTcpChecksum m ip) ip) ip) := by
  have hihl : ihl (setIpChecksum (setTcpChecksum m ip) ip) ip = 5 := by
    rw [ihl, setIpChecksum_apply (by omega), setTcpChecksum_apply (by omega)]
    exact h₅
  rw [tcpMessage_eq hihl, overlaid_setIpChecksum,
    verifies_iff (leSum_overlaid_bounds (setTcpChecksum m ip) ip).1]
  exact setTcpChecksum_leSum h

end Wire

end Honeybrid
