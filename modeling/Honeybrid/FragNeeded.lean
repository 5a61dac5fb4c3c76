import Honeybrid.Checksums

/-!
# The answer to a cut frame

`send_icmp_frag_needed` of `netcode.c` answers a packet that was cut off by the capture. The frame
is assembled on the stack, behind a link-layer header of 14 or 18 octets, and one variable is its
length, the length that its IP header announces, and the number of octets that the ICMP checksum is
computed over.

`icmp_pack_hdr_needfrag` is a macro of libdnet, and a parameter here.

## Main definitions

* `PacksNeedfrag`: what the macro does.
* `sendIcmpFragNeeded`: the memory at `frame` and the length of the frame.
* `ValidFragNeeded`: an answer that its receiver takes.

## Main results

* `fragNeeded_never`: the answer is never taken, and which of its parts are right.
-/

namespace Honeybrid

namespace Wire

open Checksum

/-- The protocol number of ICMP. -/
def IPPROTO_ICMP : BitVec 8 := 1

/-- The ICMP type: the destination is unreachable. -/
def ICMP_UNREACH : BitVec 8 := 3

/-- The ICMP code: fragmentation is needed and DF is set. -/
def ICMP_UNREACH_NEEDFRAG : BitVec 8 := 4

/-- A version of `icmp_pack_hdr_needfrag`: the memory after the macro has been called for the ICMP
header at an offset, with a type, a code, the MTU and the octets that are quoted. -/
abbrev PackNeedfrag :=
  Octets → ℕ → BitVec 8 → BitVec 8 → BitVec 32 → List (BitVec 8) → Octets

/-- The macro fills in the type, the code and the MTU, and copies the octets it is given. -/
structure PacksNeedfrag (pack : PackNeedfrag) : Prop where
  type (m : Octets) (o : ℕ) (t c : BitVec 8) (mtu : BitVec 32) (bs : List (BitVec 8)) :
    pack m o t c mtu bs o = t
  code (m : Octets) (o : ℕ) (t c : BitVec 8) (mtu : BitVec 32) (bs : List (BitVec 8)) :
    pack m o t c mtu bs (o + 1) = c
  mtu (m : Octets) (o : ℕ) (t c : BitVec 8) (mtu : BitVec 32) (bs : List (BitVec 8)) :
    (pack m o t c mtu bs).be16 (o + 6) = mtu.setWidth 16
  quoted (m : Octets) (o : ℕ) (t c : BitVec 8) (mtu : BitVec 32) (bs : List (BitVec 8)) :
    (pack m o t c mtu bs).block (o + 8) bs.length = bs
  outside (m : Octets) (o : ℕ) (t c : BitVec 8) (mtu : BitVec 32) (bs : List (BitVec 8)) (q : ℕ)
    (hq : q < o ∨ o + 8 + bs.length ≤ q) : pack m o t c mtu bs q = m q

/-! ### The frame -/

/-- The length of the link-layer header, by the type of the packet that is answered. -/
def linkLen (p : Packet) : ℕ :=
  if p.frame.be16 12 = ETHERTYPE_IP then ETHER_HDR_LEN else VLAN_ETH_HLEN

/-- The Ethernet header, with the tag of a tagged packet. -/
def fragLink (mac : MacAddr) (p : Packet) : List (BitVec 8) :=
  p.frame.block 6 6 ++ macOctets mac ++
    if p.frame.be16 12 = ETHERTYPE_IP then [0x08, 0x00]
    else [0x81, 0x00] ++ p.frame.block ETHER_HDR_LEN VLAN_HLEN

/-- The IP header, its checksum still zero. The addresses are those of `original_headers`, which
`init_pkt` has copied from the frame. -/
def fragIp (psize : ℕ) (p : Packet) : List (BitVec 8) :=
  [0x45, 0x00] ++ Octets.ofBe16 (BitVec.ofNat 16 psize) ++
    [0x00, 0x00, 0x40, 0x00, 0x40, IPPROTO_TCP, 0x00, 0x00] ++
      (p.frame.block (p.ip + 16) 4 ++ p.frame.block (p.ip + 12) 4)

/-- The variable `psize`. -/
def fragSize (p : Packet) : ℕ :=
  2 * 20 + 4 + 4 + 8 + linkLen p

/-- The memory at `frame` before the checksums: `mem` is the stack at this place, of which the frame
is cleared. -/
def fragHeaders (pack : PackNeedfrag) (mem : Octets) (mac : MacAddr) (mtu : BitVec 32)
    (p : Packet) : Octets :=
  let m := mem.write 0 (fragLink mac p ++ (fragIp (fragSize p) p ++ List.replicate 36 0))
  pack m (linkLen p + 20) ICMP_UNREACH ICMP_UNREACH_NEEDFRAG mtu (p.frame.block p.ip 28)

/-- `send_icmp_frag_needed`: the memory at `frame`, with the offsets of it that the checksums
read. -/
def sendIcmpFragNeeded (pack : PackNeedfrag) (mem : Octets) (mac : MacAddr) (mtu : BitVec 32)
    (p : Packet) : Reads Octets := do
  let icmp := linkLen p + 20
  let m := (fragHeaders pack mem mac mtu p).write (icmp + 2) (Octets.ofLe16 0)
  let message ← m.readBlock icmp (fragSize p)
  let m := m.write (icmp + 2) (Octets.ofLe16 (inCksum message))
  let _ ← m.readBlock (linkLen p) 20
  return setIpChecksum m (linkLen p)

/-- An answer that the sender of the packet takes: an ICMP packet of the length it announces, with
checksums that were computed inside the frame and verify, on its way back. -/
structure ValidFragNeeded (p : Packet) (r : Reads Octets) : Prop where
  protocol : protocol r.val (linkLen p) = IPPROTO_ICMP
  length : (totLen r.val (linkLen p)).toNat = fragSize p - linkLen p
  header : Verifies (r.val.block (linkLen p) 20)
  within : r.Within (fragSize p)
  message : Verifies (r.val.block (linkLen p + 20) (fragSize p - (linkLen p + 20)))
  host : r.val.block 0 6 = p.frame.block 6 6
  address : daddr r.val (linkLen p) = saddr p.frame p.ip

variable {pack : PackNeedfrag} {mem : Octets} {mac : MacAddr} {mtu : BitVec 32} {p : Packet} {q : ℕ}

theorem length_fragLink (mac : MacAddr) (p : Packet) : (fragLink mac p).length = linkLen p := by
  unfold fragLink linkLen
  split_ifs <;> simp [macOctets] <;> rfl

theorem length_fragIp (n : ℕ) (p : Packet) : (fragIp n p).length = 20 := by
  simp [fragIp, Octets.ofBe16]

/-- The memory once the ICMP checksum is stored. -/
def fragSummed (pack : PackNeedfrag) (mem : Octets) (mac : MacAddr) (mtu : BitVec 32)
    (p : Packet) : Octets :=
  let m := (fragHeaders pack mem mac mtu p).write (linkLen p + 20 + 2) (Octets.ofLe16 0)
  m.write (linkLen p + 20 + 2)
    (Octets.ofLe16 (inCksum (m.block (linkLen p + 20) (fragSize p))))

theorem sendIcmpFragNeeded_val : (sendIcmpFragNeeded pack mem mac mtu p).val =
    setIpChecksum (fragSummed pack mem mac mtu p) (linkLen p) := rfl

/-! ### What is written where -/

theorem fragSummed_apply (hq : q < linkLen p + 22 ∨ linkLen p + 24 ≤ q) :
    fragSummed pack mem mac mtu p q = fragHeaders pack mem mac mtu p q := by
  rw [fragSummed, write_outside (by omega), write_outside (by omega)]

/-- Outside of the two checksums, the frame is as the headers were filled in. -/
theorem sendIcmpFragNeeded_apply
    (hq : q < linkLen p + 10 ∨ linkLen p + 12 ≤ q ∧ q < linkLen p + 22 ∨ linkLen p + 24 ≤ q) :
    (sendIcmpFragNeeded pack mem mac mtu p).val q = fragHeaders pack mem mac mtu p q := by
  rw [sendIcmpFragNeeded_val, setIpChecksum_apply (by omega), fragSummed_apply (by omega)]

/-- A part of the Ethernet header or the IP header. -/
theorem fragHeaders_apply (hpack : PacksNeedfrag pack) {xs ys zs : List (BitVec 8)} {i : ℕ}
    (hframe : fragLink mac p ++ (fragIp (fragSize p) p ++ List.replicate 36 0) = xs ++ (ys ++ zs))
    (hi : i < ys.length) (hq : xs.length + i < linkLen p + 20) :
    fragHeaders pack mem mac mtu p (xs.length + i) = ys.getD i 0 := by
  have happly := write_append_apply mem 0 xs hi zs
  rw [Nat.zero_add] at happly
  rw [fragHeaders, hpack.outside _ _ _ _ _ _ _ (.inl hq), hframe, happly,
    List.getD_eq_getElem?_getD, List.getElem?_eq_getElem hi, Option.getD_some]

theorem fragHeaders_ip (hpack : PacksNeedfrag pack) {i : ℕ} (hi : i < 20) :
    fragHeaders pack mem mac mtu p (linkLen p + i) = (fragIp (fragSize p) p).getD i 0 := by
  have hlen := length_fragIp (fragSize p) p
  have h : fragHeaders pack mem mac mtu p ((fragLink mac p).length + i) =
      (fragIp (fragSize p) p).getD i 0 :=
    fragHeaders_apply hpack rfl (by omega) (by rw [length_fragLink]; omega)
  rwa [length_fragLink] at h

/-- An octet of the IP header that is not part of its checksum. -/
theorem sendIcmpFragNeeded_ip (hpack : PacksNeedfrag pack) {i : ℕ}
    (hi : i < 10 ∨ 12 ≤ i ∧ i < 20) :
    (sendIcmpFragNeeded pack mem mac mtu p).val (linkLen p + i) =
      (fragIp (fragSize p) p).getD i 0 := by
  rw [sendIcmpFragNeeded_apply (by omega), fragHeaders_ip hpack (by omega)]

theorem fragSize_lt (p : Packet) : fragSize p < 2 ^ 16 ∧ fragSize p = 36 + (linkLen p + 20) ∧
    0 < linkLen p := by
  unfold fragSize linkLen
  split_ifs
  · exact ⟨by decide, rfl, by decide⟩
  · exact ⟨by decide, rfl, by decide⟩

/-! ### The parts of the answer -/

/-- The checksums read beyond the end of the frame. -/
theorem fragNeeded_within : ¬(sendIcmpFragNeeded pack mem mac mtu p).Within (fragSize p) := by
  obtain ⟨-, hsize, -⟩ := fragSize_lt p
  intro h
  rw [sendIcmpFragNeeded, Reads.within_bind, Octets.readBlock,
    Octets.field_within (by omega)] at h
  obtain ⟨hmessage, -⟩ := h
  omega

section Parts

variable (hpack : PacksNeedfrag pack)

include hpack

theorem fragNeeded_protocol :
    protocol (sendIcmpFragNeeded pack mem mac mtu p).val (linkLen p) = IPPROTO_TCP :=
  sendIcmpFragNeeded_ip hpack (i := 9) (.inl (by decide))

/-- The length that is announced covers the link-layer header. -/
theorem fragNeeded_totLen :
    (totLen (sendIcmpFragNeeded pack mem mac mtu p).val (linkLen p)).toNat = fragSize p := by
  have hsize : totLen (sendIcmpFragNeeded pack mem mac mtu p).val (linkLen p) =
      BitVec.ofNat 16 (fragSize p) :=
    Octets.be16_of_octets (sendIcmpFragNeeded_ip hpack (i := 2) (.inl (by decide)))
      (sendIcmpFragNeeded_ip hpack (i := 3) (.inl (by decide)))
  rw [hsize, BitVec.toNat_ofNat, Nat.mod_eq_of_lt (fragSize_lt p).1]

theorem fragNeeded_header :
    Verifies ((sendIcmpFragNeeded pack mem mac mtu p).val.block (linkLen p) 20) := by
  have hversion : fragSummed pack mem mac mtu p (linkLen p) = 0x45 :=
    (fragSummed_apply (by omega)).trans (fragHeaders_ip hpack (i := 0) (by decide))
  rw [sendIcmpFragNeeded_val]
  refine (setIpChecksum_verifies_iff (n := 0) ?_).mpr rfl
  rw [hversion]
  exact nofun

theorem fragNeeded_host :
    (sendIcmpFragNeeded pack mem mac mtu p).val.block 0 6 = p.frame.block 6 6 := by
  refine block_congr fun i hi => ?_
  obtain ⟨-, -, hpos⟩ := fragSize_lt p
  have hlink : 14 ≤ linkLen p := by
    unfold linkLen
    split_ifs <;> decide
  rw [Nat.zero_add, sendIcmpFragNeeded_apply (.inl (by omega))]
  have h : fragHeaders pack mem mac mtu p (([] : List (BitVec 8)).length + i) =
      (p.frame.block 6 6).getD i 0 :=
    fragHeaders_apply hpack (by rw [fragLink, List.append_assoc, List.append_assoc]; rfl)
      (by simpa using hi) (by simp; omega)
  rw [List.length_nil, Nat.zero_add] at h
  rw [h]
  simp [Octets.block, hi]

theorem fragNeeded_address :
    daddr (sendIcmpFragNeeded pack mem mac mtu p).val (linkLen p) = saddr p.frame p.ip := by
  refine Octets.le32_congr fun i hi => ?_
  rw [Nat.add_assoc, sendIcmpFragNeeded_ip hpack (.inr (by omega))]
  match i, hi with
  | 0, _ => rfl
  | 1, _ => rfl
  | 2, _ => rfl
  | 3, _ => rfl

/-- What the ICMP message says: the type, the code, the MTU, and the start of the packet. -/
theorem fragNeeded_quoted :
    (sendIcmpFragNeeded pack mem mac mtu p).val (linkLen p + 20) = ICMP_UNREACH ∧
      (sendIcmpFragNeeded pack mem mac mtu p).val (linkLen p + 20 + 1) = ICMP_UNREACH_NEEDFRAG ∧
      (sendIcmpFragNeeded pack mem mac mtu p).val.be16 (linkLen p + 20 + 6) = mtu.setWidth 16 ∧
      (sendIcmpFragNeeded pack mem mac mtu p).val.block (linkLen p + 20 + 8) 28 =
        p.frame.block p.ip 28 := by
  refine ⟨?_, ?_, ?_, ?_⟩
  · rw [sendIcmpFragNeeded_apply (.inr (.inl (by omega)))]
    exact hpack.type ..
  · rw [sendIcmpFragNeeded_apply (.inr (.inl (by omega)))]
    exact hpack.code ..
  · rw [← hpack.mtu _ (linkLen p + 20) ICMP_UNREACH ICMP_UNREACH_NEEDFRAG mtu
      (p.frame.block p.ip 28)]
    exact Octets.be16_congr fun i hi => sendIcmpFragNeeded_apply (.inr (.inr (by omega)))
  · have hquoted := hpack.quoted
      (mem.write 0 (fragLink mac p ++ (fragIp (fragSize p) p ++ List.replicate 36 0)))
      (linkLen p + 20) ICMP_UNREACH ICMP_UNREACH_NEEDFRAG mtu (p.frame.block p.ip 28)
    rw [length_block] at hquoted
    rw [← hquoted]
    exact block_congr fun i hi => sendIcmpFragNeeded_apply (.inr (.inr (by omega)))

/-- The ICMP checksum covers what lies behind the frame on the stack, and verifies exactly if this
sums to zero. -/
theorem fragNeeded_message_iff :
    Verifies ((sendIcmpFragNeeded pack mem mac mtu p).val.block (linkLen p + 20) 36) ↔
      leSum (mem.block (fragSize p) (linkLen p + 20)) % 65535 = 0 := by
  obtain ⟨hlt, hsize, -⟩ := fragSize_lt p
  have htype : fragHeaders pack mem mac mtu p (linkLen p + 20) ≠ 0 := by
    rw [fragHeaders, hpack.type]
    exact nofun
  have hmpos (m : Octets) (h : m (linkLen p + 20) ≠ 0) : 0 < leSum (m.block (linkLen p + 20) 36) :=
    leSum_block_pos h
  have hle := leSum_le (((fragHeaders pack mem mac mtu p).write (linkLen p + 20 + 2)
    (Octets.ofLe16 0)).block (linkLen p + 20) (fragSize p))
  rw [length_block] at hle
  have hpos : 0 < leSum (((fragHeaders pack mem mac mtu p).write (linkLen p + 20 + 2)
      (Octets.ofLe16 0)).block (linkLen p + 20) (fragSize p)) := by
    have hfirst := hmpos ((fragHeaders pack mem mac mtu p).write (linkLen p + 20 + 2)
      (Octets.ofLe16 0)) (by rwa [write_outside (by omega)])
    rw [hsize, leSum_block_add rfl]
    omega
  have hall := leSum_complete (a := []) (m := fragHeaders pack mem mac mtu p) (o := linkLen p + 20)
    (p := 2) (n := fragSize p) rfl rfl (by omega) (by rw [List.nil_append]; omega)
    (by rw [List.nil_append]; exact hpos)
  have hsum : leSum ((fragSummed pack mem mac mtu p).block (linkLen p + 20) (fragSize p)) % 65535 =
      0 := hall
  -- the message, and what lies behind the frame
  have hmessage : (sendIcmpFragNeeded pack mem mac mtu p).val.block (linkLen p + 20) 36 =
      (fragSummed pack mem mac mtu p).block (linkLen p + 20) 36 := by
    rw [sendIcmpFragNeeded_val]
    exact block_congr fun i hi => setIpChecksum_apply (by omega)
  have hbehind : (fragSummed pack mem mac mtu p).block (linkLen p + 20 + 36) (linkLen p + 20) =
      mem.block (fragSize p) (linkLen p + 20) := by
    refine block_congr fun i hi => ?_
    have hlink : (fragLink mac p ++ (fragIp (fragSize p) p ++ List.replicate 36 0)).length =
        fragSize p := by
      simp [length_fragLink, length_fragIp]
      omega
    rw [fragSummed_apply (by omega), fragHeaders, hpack.outside _ _ _ _ _ _ _
      (.inr (by rw [length_block]; omega)), Octets.write_of_notMem (.inr (by omega))]
    exact congrArg mem (by omega)
  rw [hsize, leSum_block_add rfl, hbehind] at hsum
  rw [hmessage, verifies_iff (hmpos _ (by rwa [fragSummed_apply (by omega)]))]
  omega

/-- **The answer to a cut frame is not valid.** Whatever the packet, its tag and the stack, the
frame is sent as a TCP packet, announces the length of its link-layer header on top of its own, and
has an ICMP checksum over octets behind its end, which verifies only if these sum to zero. Its IP
header verifies, and it is addressed to the sender. -/
theorem fragNeeded_never (mem : Octets) (mac : MacAddr) (mtu : BitVec 32) (p : Packet) :
    ¬ValidFragNeeded p (sendIcmpFragNeeded pack mem mac mtu p) ∧
      protocol (sendIcmpFragNeeded pack mem mac mtu p).val (linkLen p) = IPPROTO_TCP ∧
      (totLen (sendIcmpFragNeeded pack mem mac mtu p).val (linkLen p)).toNat = fragSize p ∧
      Verifies ((sendIcmpFragNeeded pack mem mac mtu p).val.block (linkLen p) 20) ∧
      ¬(sendIcmpFragNeeded pack mem mac mtu p).Within (fragSize p) ∧
      (Verifies ((sendIcmpFragNeeded pack mem mac mtu p).val.block (linkLen p + 20) 36) ↔
        leSum (mem.block (fragSize p) (linkLen p + 20)) % 65535 = 0) ∧
      (sendIcmpFragNeeded pack mem mac mtu p).val.block 0 6 = p.frame.block 6 6 ∧
      daddr (sendIcmpFragNeeded pack mem mac mtu p).val (linkLen p) = saddr p.frame p.ip := by
  have hprotocol : protocol (sendIcmpFragNeeded pack mem mac mtu p).val (linkLen p) =
      IPPROTO_TCP :=
    fragNeeded_protocol hpack
  refine ⟨fun hvalid => ?_, hprotocol, fragNeeded_totLen hpack, fragNeeded_header hpack,
    fragNeeded_within, fragNeeded_message_iff hpack, fragNeeded_host hpack,
    fragNeeded_address hpack⟩
  have hicmp := hvalid.protocol
  rw [hprotocol] at hicmp
  exact absurd hicmp (by decide)

end Parts

namespace Sample

/-- The version that writes all the octets it is given. -/
def packNeedfrag : PackNeedfrag := fun m o t c mtu bs =>
  (m.write o [t, c]).write (o + 4) ([0, 0] ++ (Octets.ofBe16 (mtu.setWidth 16) ++ bs))

/-- A datagram of 1500 octets, of which the first 46 were captured behind the Ethernet header. -/
def cutDatagram : Capture where
  len := 1514
  caplen := 60
  bytes := Octets.write (fun _ => 0) 12
    [0x08, 0x00, 0x45, 0x00, 0x05, 0xdc, 0, 0, 0, 0, 64, 17, 0, 0, 192, 0, 2, 1, 192, 0, 2, 2,
      0, 53, 0, 54, 5, 200, 0, 0]

end Sample

theorem packsNeedfrag_sample : PacksNeedfrag Sample.packNeedfrag where
  type m o t c mtu bs := by
    rw [Sample.packNeedfrag, Octets.write_of_notMem (.inl (by omega))]
    simp [Octets.write]
  code m o t c mtu bs := by
    rw [Sample.packNeedfrag, Octets.write_of_notMem (.inl (by omega))]
    simp [Octets.write]
  mtu m o t c mtu bs := by
    have hwrite (i : ℕ) (hi : i < (Octets.ofBe16 (mtu.setWidth 16)).length) :
        Sample.packNeedfrag m o t c mtu bs (o + 6 + i) = (Octets.ofBe16 (mtu.setWidth 16))[i] :=
      write_append_apply (m.write o [t, c]) (o + 4) [0, 0] hi bs
    exact Octets.be16_of_octets (hwrite 0 (by simp [Octets.ofBe16]))
      (hwrite 1 (by simp [Octets.ofBe16]))
  quoted m o t c mtu bs := by
    have hblock := block_write_append (m := m.write o [t, c]) (o := o + 4)
      ([0, 0] ++ Octets.ofBe16 (mtu.setWidth 16)) bs []
    rwa [List.append_nil, List.append_assoc] at hblock
  outside m o t c mtu bs q hq := by
    rw [Sample.packNeedfrag, Octets.write_of_notMem, Octets.write_of_notMem]
    · simp only [List.length_cons, List.length_nil]
      omega
    · simp only [List.length_append, List.length_cons, List.length_nil, Octets.ofBe16]
      omega

/-- The first 46 octets of a datagram of 1500 are answered so. -/
theorem fragNeeded_cutDatagram : ∃ p,
    (processPacket { target := true, mac := 0 } Sample.cutDatagram).val = some p ∧
      p.fragmented = true ∧
      ¬ValidFragNeeded p (sendIcmpFragNeeded Sample.packNeedfrag (fun _ => 0) 7 1500 p) := by
  refine ⟨_, rfl, rfl, ?_⟩
  exact (fragNeeded_never packsNeedfrag_sample _ _ _ _).1

/-- The answer to this datagram is no ICMP packet, announces 70 octets where the frame carries 56
behind its link-layer header, and its checksum reads 34 octets behind the frame. -/
theorem fragNeeded_broken : ∃ p,
    (processPacket { target := true, mac := 0 } Sample.cutDatagram).val = some p ∧
      p.fragmented = true ∧ fragSize p = 70 ∧ ∀ mem mac mtu,
        protocol (sendIcmpFragNeeded Sample.packNeedfrag mem mac mtu p).val 14 = 6 ∧
        totLen (sendIcmpFragNeeded Sample.packNeedfrag mem mac mtu p).val 14 = 70 ∧
        103 ∈ (sendIcmpFragNeeded Sample.packNeedfrag mem mac mtu p).offsets ∧
        ¬ValidFragNeeded p (sendIcmpFragNeeded Sample.packNeedfrag mem mac mtu p) := by
  refine ⟨_, rfl, rfl, rfl, fun mem mac mtu => ⟨?_, ?_, ?_, fun hvalid => ?_⟩⟩
  · exact fragNeeded_protocol packsNeedfrag_sample
  · exact BitVec.eq_of_toNat_eq (fragNeeded_totLen packsNeedfrag_sample)
  · show 103 ∈ List.range' 34 70 ++ (List.range' 14 20 ++ [])
    decide
  · exact absurd hvalid.within fragNeeded_within

end Wire

end Honeybrid
