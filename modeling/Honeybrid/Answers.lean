import Honeybrid.Decoding
import Honeybrid.FragNeeded

/-!
# Frames of its own

Two functions of `netcode.c` answer a frame with one of their own, which they assemble on the stack:
`reply_reset` answers a TCP packet from the copies of its headers that `init_pkt` has made, and
`send_arp_reply` an ARP request.

The frame of a reset has room for a tag and for `struct tcp_packet`, which ends in a pointer: as
many octets as it has are sent behind the TCP header. The size of the pointer is a parameter. The
engine works with the fields of this frame, `resetFrame`.

An ARP reply has the hardware address of the listener as that of the sender, and the protocol
addresses of the request in their new places; the hardware address of the target is left zero.

## Main definitions

* `replyReset`, `resetSize`: the memory at `frame`, and how much of it is sent.
* `ConnKey.reverse`: the key of the packets in the other direction.
* `Arp`, `arpOf`: the fields of an ARP packet.

## Main results

* `frameOf_replyReset`: the frame has the fields that the engine works with.
* `reset_accepted`: the reset of an accepted packet verifies, and is accepted as a packet of the
  other direction.
* `arp_answered`: a request is answered on its link, and the answer is not answered.
-/

namespace Honeybrid

/-- The key of the packets in the other direction. -/
def ConnKey.reverse (k : ConnKey) : ConnKey where
  protocol := k.protocol
  srcIp := k.dstIp
  srcPort := k.dstPort
  dstIp := k.srcIp
  dstPort := k.srcPort
  vlanId := k.vlanId

namespace Wire

open Checksum

/-- An octet of the first part of what was written, and of the second. -/
theorem write_append_left {m : Octets} {o i : ℕ} {xs : List (BitVec 8)} (hi : i < xs.length)
    (ys : List (BitVec 8)) : m.write o (xs ++ ys) (o + i) = xs.getD i 0 := by
  have happly := write_append_apply m o [] hi ys
  rw [List.nil_append, List.length_nil, Nat.add_zero] at happly
  rw [happly, List.getD_eq_getElem?_getD, List.getElem?_eq_getElem hi, Option.getD_some]

theorem write_append_right {m : Octets} {o i : ℕ} (xs : List (BitVec 8)) {ys : List (BitVec 8)}
    (hi : i < ys.length) : m.write o (xs ++ ys) (o + xs.length + i) = ys.getD i 0 := by
  have happly := write_append_apply m o xs hi []
  rw [List.append_nil] at happly
  rw [happly, List.getD_eq_getElem?_getD, List.getElem?_eq_getElem hi, Option.getD_some]

/-! ### Resets -/

/-- The Ethernet header, with the tag of a tagged packet. -/
def resetLink (p : Packet) : List (BitVec 8) :=
  p.frame.block 6 6 ++ (p.frame.block 0 6 ++
    if p.frame.be16 12 = ETHERTYPE_IP then [0x08, 0x00] else p.frame.block 12 6)

/-- The sequence number: that which the packet acknowledges. -/
def resetSeq (p : Packet) : BitVec 32 :=
  if tcpFlag p.frame p.th 4 then p.frame.be32 (p.th + 8) else 0

/-- The acknowledgment: what comes behind the packet. -/
def resetAck (p : Packet) : BitVec 32 :=
  p.frame.be32 (p.th + 4) + (if tcpFlag p.frame p.th 1 then 1 else 0) +
    (if tcpFlag p.frame p.th 0 then 1 else 0) + (totLen p.frame p.ip).setWidth 32 -
    (ihl p.frame p.ip).setWidth 32 * 4 - (doff p.frame p.th).setWidth 32 * 4

/-- The IP header and the TCP header, their checksums still zero. -/
def resetHeaders (p : Packet) : List (BitVec 8) :=
  [0x45, 0x00, 0x00, 0x28, 0x00, 0x00, 0x40, 0x00, 0x40, IPPROTO_TCP, 0x00, 0x00] ++
    (p.frame.block (p.ip + 16) 4 ++ p.frame.block (p.ip + 12) 4) ++
    (p.frame.block (p.th + 2) 2 ++ p.frame.block p.th 2 ++
      (Octets.ofBe32 (resetSeq p) ++ Octets.ofBe32 (resetAck p)) ++
      [0x50, 0x14, 0x00, 0x00, 0x00, 0x00, 0x00, 0x00])

/-- The memory at `frame` before the checksums. A pointer has `ptr` octets. -/
def resetMemory (ptr : ℕ) (mem : Octets) (p : Packet) : Octets :=
  (mem.write 0 (List.replicate (VLAN_ETH_HLEN + (40 + ptr)) 0)).write 0
    (resetLink p ++ resetHeaders p)

/-- `reply_reset`: the memory at `frame`. -/
def replyReset (ptr : ℕ) (mem : Octets) (p : Packet) : Octets :=
  setIpChecksum (setTcpChecksum (resetMemory ptr mem p) (linkLen p)) (linkLen p)

/-- The variable `size`. -/
def resetSize (ptr : ℕ) (p : Packet) : ℕ :=
  linkLen p + (40 + ptr)

variable {ptr : ℕ} {mem : Octets} {p : Packet} {l : Listener} {c : Capture}

theorem length_resetLink (p : Packet) : (resetLink p).length = linkLen p := by
  unfold resetLink linkLen
  split_ifs
  · rfl
  · rfl

theorem length_resetHeaders (p : Packet) : (resetHeaders p).length = 40 := rfl

theorem linkLen_cases (p : Packet) :
    (p.frame.be16 12 = ETHERTYPE_IP ∧ linkLen p = 14) ∨
      (p.frame.be16 12 ≠ ETHERTYPE_IP ∧ linkLen p = 18) := by
  unfold linkLen
  split_ifs with h
  · exact .inl ⟨h, rfl⟩
  · exact .inr ⟨h, rfl⟩

/-- An octet of the Ethernet header. -/
theorem replyReset_link {i : ℕ} (hi : i < linkLen p) :
    replyReset ptr mem p i = (resetLink p).getD i 0 := by
  rw [replyReset, setIpChecksum_apply (by omega), setTcpChecksum_apply (by omega), resetMemory]
  have happly := write_append_left
    (m := mem.write 0 (List.replicate (VLAN_ETH_HLEN + (40 + ptr)) 0)) (o := 0)
    (by rwa [length_resetLink]) (resetHeaders p)
  rwa [Nat.zero_add] at happly

/-- An octet of the IP header or the TCP header that is not part of a checksum. -/
theorem replyReset_header {i : ℕ} (hi : i < 10 ∨ (12 ≤ i ∧ i < 36) ∨ (38 ≤ i ∧ i < 40)) :
    replyReset ptr mem p (linkLen p + i) = (resetHeaders p).getD i 0 := by
  rw [replyReset, setIpChecksum_apply (by omega), setTcpChecksum_apply (by omega), resetMemory]
  have happly := write_append_right
    (m := mem.write 0 (List.replicate (VLAN_ETH_HLEN + (40 + ptr)) 0)) (o := 0) (resetLink p)
    (by rw [length_resetHeaders]; omega : i < (resetHeaders p).length)
  rwa [Nat.zero_add, length_resetLink] at happly

/-- The octets of the headers that were copied from the packet. -/
theorem replyReset_daddr {i : ℕ} (hi : i < 4) :
    replyReset ptr mem p (linkLen p + 12 + i) = p.frame (p.ip + 16 + i) := by
  rw [Nat.add_assoc, replyReset_header (by omega)]
  match i, hi with
  | 0, _ => rfl
  | 1, _ => rfl
  | 2, _ => rfl
  | 3, _ => rfl

theorem replyReset_saddr {i : ℕ} (hi : i < 4) :
    replyReset ptr mem p (linkLen p + 16 + i) = p.frame (p.ip + 12 + i) := by
  rw [Nat.add_assoc, replyReset_header (by omega)]
  match i, hi with
  | 0, _ => rfl
  | 1, _ => rfl
  | 2, _ => rfl
  | 3, _ => rfl

theorem replyReset_dest {i : ℕ} (hi : i < 2) :
    replyReset ptr mem p (linkLen p + 20 + i) = p.frame (p.th + 2 + i) := by
  rw [Nat.add_assoc, replyReset_header (by omega)]
  match i, hi with
  | 0, _ => rfl
  | 1, _ => rfl

theorem replyReset_source {i : ℕ} (hi : i < 2) :
    replyReset ptr mem p (linkLen p + 20 + 2 + i) = p.frame (p.th + i) := by
  rw [Nat.add_assoc, Nat.add_assoc, replyReset_header (by omega)]
  match i, hi with
  | 0, _ => rfl
  | 1, _ => rfl

/-- The octets of the Ethernet header that were copied from the packet. -/
theorem replyReset_dhost {i : ℕ} (hi : i < 6) : replyReset ptr mem p (0 + i) = p.frame (6 + i) := by
  have hlink : i < linkLen p := by
    obtain ⟨-, h⟩ | ⟨-, h⟩ := linkLen_cases p <;> omega
  rw [Nat.zero_add, replyReset_link hlink]
  match i, hi with
  | 0, _ => rfl
  | 1, _ => rfl
  | 2, _ => rfl
  | 3, _ => rfl
  | 4, _ => rfl
  | 5, _ => rfl

theorem replyReset_shost {i : ℕ} (hi : i < 6) :
    replyReset ptr mem p (0 + 6 + i) = p.frame (0 + i) := by
  have hlink : 0 + 6 + i < linkLen p := by
    obtain ⟨-, h⟩ | ⟨-, h⟩ := linkLen_cases p <;> omega
  rw [replyReset_link hlink]
  match i, hi with
  | 0, _ => rfl
  | 1, _ => rfl
  | 2, _ => rfl
  | 3, _ => rfl
  | 4, _ => rfl
  | 5, _ => rfl

/-- An octet of a part of the Ethernet header behind the addresses. -/
theorem replyReset_type {i : ℕ} (hi : 12 + i < linkLen p) : replyReset ptr mem p (12 + i) =
    (if p.frame.be16 12 = ETHERTYPE_IP then [0x08, 0x00] else p.frame.block 12 6).getD i 0 := by
  have hlen : (p.frame.block 6 6 ++ p.frame.block 0 6).length = 12 := by simp
  rw [replyReset_link hi, resetLink, ← List.append_assoc, List.getD_eq_getElem?_getD,
    List.getElem?_append_right (by omega), hlen, Nat.add_sub_cancel_left,
    List.getD_eq_getElem?_getD]

/-- The type of the frame is that of the packet. -/
theorem be16_replyReset : (replyReset ptr mem p).be16 12 = p.frame.be16 12 := by
  obtain ⟨he, hlink⟩ | ⟨he, hlink⟩ := linkLen_cases p
  · rw [he]
    refine Octets.be16_of_octets ((replyReset_type (i := 0) (by omega)).trans ?_)
      ((replyReset_type (i := 1) (by omega)).trans ?_)
    · rw [if_pos he]
      rfl
    · rw [if_pos he]
      rfl
  · refine Octets.be16_congr fun i hi => (replyReset_type (by omega)).trans ?_
    rw [if_neg he]
    match i, hi with
    | 0, _ => rfl
    | 1, _ => rfl

/-- A tagged frame has the tag of the packet, and the type behind it. -/
theorem replyReset_tag (he : p.frame.be16 12 ≠ ETHERTYPE_IP) :
    (replyReset ptr mem p).le16 14 = p.frame.le16 14 ∧
      (replyReset ptr mem p).be16 16 = p.frame.be16 16 := by
  have hlink : linkLen p = 18 := by
    obtain ⟨h, -⟩ | ⟨-, h⟩ := linkLen_cases p
    · exact absurd h he
    · exact h
  refine ⟨Octets.le16_congr fun i hi => ?_, Octets.be16_congr fun i hi => ?_⟩
  · show replyReset ptr mem p (12 + 2 + i) = _
    rw [Nat.add_assoc, replyReset_type (by omega), if_neg he]
    match i, hi with
    | 0, _ => rfl
    | 1, _ => rfl
  · show replyReset ptr mem p (12 + 4 + i) = _
    rw [Nat.add_assoc, replyReset_type (by omega), if_neg he]
    match i, hi with
    | 0, _ => rfl
    | 1, _ => rfl

theorem ipOffset_replyReset (hip : ipOffset p.frame = some p.ip) :
    p.ip = linkLen p ∧ ipOffset (replyReset ptr mem p) = some (linkLen p) := by
  unfold ipOffset at hip ⊢
  rw [be16_replyReset]
  by_cases he : p.frame.be16 12 = ETHERTYPE_IP
  · rw [if_pos he] at hip ⊢
    have hlink : linkLen p = ETHER_HDR_LEN := if_pos he
    rw [hlink]
    exact ⟨(Option.some.inj hip).symm, rfl⟩
  · rw [if_neg he] at hip ⊢
    have hlink : linkLen p = VLAN_ETH_HLEN := if_neg he
    rw [(replyReset_tag he).2, hlink]
    split_ifs at hip ⊢ with hv
    exact ⟨(Option.some.inj hip).symm, rfl⟩

theorem ihl_replyReset : ihl (replyReset ptr mem p) (linkLen p) = 5 := by
  have h : replyReset ptr mem p (linkLen p) = 0x45 := replyReset_header (i := 0) (by decide)
  rw [ihl, h]
  rfl

theorem l4_replyReset : l4 (replyReset ptr mem p) (linkLen p) = linkLen p + 20 := by
  rw [l4, ihl_replyReset]
  rfl

theorem totLen_replyReset : totLen (replyReset ptr mem p) (linkLen p) = 40 :=
  Octets.be16_of_octets (replyReset_header (i := 2) (by decide))
    (replyReset_header (i := 3) (by decide))

theorem protocol_replyReset : protocol (replyReset ptr mem p) (linkLen p) = IPPROTO_TCP :=
  replyReset_header (i := 9) (by decide)

theorem doff_replyReset : doff (replyReset ptr mem p) (linkLen p + 20) = 5 := by
  have h : replyReset ptr mem p (linkLen p + 20 + 12) = 0x50 :=
    replyReset_header (i := 32) (by decide)
  rw [doff, h]
  rfl

theorem tcpFlag_replyReset (bit : ℕ) :
    tcpFlag (replyReset ptr mem p) (linkLen p + 20) bit = (0x14 : BitVec 8).getLsbD bit := by
  have h : replyReset ptr mem p (linkLen p + 20 + 13) = 0x14 :=
    replyReset_header (i := 33) (by decide)
  rw [tcpFlag, h]

theorem source_replyReset :
    source (replyReset ptr mem p) (linkLen p + 20) = dest p.frame p.th :=
  Octets.le16_congr fun _ hi => replyReset_dest hi

theorem dest_replyReset :
    dest (replyReset ptr mem p) (linkLen p + 20) = source p.frame p.th :=
  Octets.le16_congr fun _ hi => replyReset_source hi

/-- A word of the TCP header. -/
theorem be32_of_octets {m : Octets} {o : ℕ} {w : BitVec 32}
    (h : ∀ i < 4, m (o + i) = (Octets.ofBe32 w).getD i 0) : m.be32 o = w := by
  rw [← Octets.be32_write (m := m) (o := o) w]
  refine Octets.be32_congr fun i hi => ?_
  rw [h i hi]
  match i, hi with
  | 0, _ => simp [Octets.write, Octets.ofBe32]
  | 1, _ => simp [Octets.write, Octets.ofBe32]
  | 2, _ => simp [Octets.write, Octets.ofBe32]
  | 3, _ => simp [Octets.write, Octets.ofBe32]

theorem seq_replyReset : (replyReset ptr mem p).be32 (linkLen p + 20 + 4) = resetSeq p := by
  refine be32_of_octets fun i hi => ?_
  rw [Nat.add_assoc, Nat.add_assoc, replyReset_header (by omega)]
  match i, hi with
  | 0, _ => rfl
  | 1, _ => rfl
  | 2, _ => rfl
  | 3, _ => rfl

theorem ack_replyReset : (replyReset ptr mem p).be32 (linkLen p + 20 + 8) = resetAck p := by
  refine be32_of_octets fun i hi => ?_
  rw [Nat.add_assoc, Nat.add_assoc, replyReset_header (by omega)]
  match i, hi with
  | 0, _ => rfl
  | 1, _ => rfl
  | 2, _ => rfl
  | 3, _ => rfl

theorem timestamp_of_doff {m : Octets} {th : ℕ} (h : doff m th = 5) : timestamp m th = none := by
  rw [timestamp, getTcpTimestamps, if_pos h]
  rfl

theorem l4Len_replyReset : l4Len (replyReset ptr mem p) (linkLen p) = 20 := by
  rw [l4Len, if_pos protocol_replyReset, l4_replyReset, doff_replyReset]
  rfl

/-- The frame that is sent has the fields the engine works with. -/
theorem frameOf_replyReset (hth : p.th = l4 p.frame p.ip) :
    frameOf (replyReset ptr mem p) (linkLen p) = resetFrame (frameOf p.frame p.ip) := by
  have hdhost : (replyReset ptr mem p).be48 0 = p.frame.be48 6 :=
    Octets.be48_congr fun _ hi => replyReset_dhost hi
  have hshost : (replyReset ptr mem p).be48 6 = p.frame.be48 0 :=
    Octets.be48_congr fun _ hi => replyReset_shost hi
  have hsaddr : saddr (replyReset ptr mem p) (linkLen p) = daddr p.frame p.ip :=
    Octets.le32_congr fun _ hi => replyReset_daddr hi
  have hdaddr : daddr (replyReset ptr mem p) (linkLen p) = saddr p.frame p.ip :=
    Octets.le32_congr fun _ hi => replyReset_saddr hi
  have hvlan : (if p.frame.be16 12 = ETHERTYPE_IP then none
        else some (⟨(replyReset ptr mem p).le16 14⟩ : VlanTci)) =
      if p.frame.be16 12 = ETHERTYPE_IP then none else some ⟨p.frame.le16 14⟩ := by
    by_cases he : p.frame.be16 12 = ETHERTYPE_IP
    · rw [if_pos he, if_pos he]
    · rw [if_neg he, if_neg he, (replyReset_tag he).1]
  have hpayload : (totLen (replyReset ptr mem p) (linkLen p)).toNat -
      (ihl (replyReset ptr mem p) (linkLen p)).toNat * 4 -
        l4Len (replyReset ptr mem p) (linkLen p) = 0 := by
    rw [totLen_replyReset, ihl_replyReset, l4Len_replyReset]
    rfl
  rw [frameOf, hpayload, hdhost, hshost, be16_replyReset, hvlan, ihl_replyReset, totLen_replyReset,
    protocol_replyReset, hsaddr, hdaddr, l4_replyReset, source_replyReset, dest_replyReset,
    seq_replyReset, ack_replyReset, doff_replyReset, tcpFlag_replyReset, tcpFlag_replyReset,
    tcpFlag_replyReset, tcpFlag_replyReset, timestamp_of_doff doff_replyReset]
  simp only [resetFrame, frameOf, resetSeq, resetAck, hth]
  rfl

/-- The checksums verify. -/
theorem replyReset_verifies : Verifies ((replyReset ptr mem p).block (linkLen p) 20) ∧
    Verifies (tcpMessage (replyReset ptr mem p) (linkLen p)) := by
  have hfirst : setTcpChecksum (resetMemory ptr mem p) (linkLen p) (linkLen p) = 0x45 := by
    have hset : setIpChecksum (setTcpChecksum (resetMemory ptr mem p) (linkLen p)) (linkLen p)
        (linkLen p) = setTcpChecksum (resetMemory ptr mem p) (linkLen p) (linkLen p) :=
      setIpChecksum_apply (by omega)
    rw [← hset]
    exact replyReset_header (i := 0) (by decide)
  have hmem {i : ℕ} (hi : i < 10) :
      resetMemory ptr mem p (linkLen p + i) = replyReset ptr mem p (linkLen p + i) := by
    rw [replyReset, setIpChecksum_apply (by omega), setTcpChecksum_apply (by omega)]
  have hihl : ihl (resetMemory ptr mem p) (linkLen p) = 5 := by
    rw [ihl, show resetMemory ptr mem p (linkLen p) = _ from hmem (i := 0) (by decide)]
    exact ihl_replyReset
  have htot : totLen (resetMemory ptr mem p) (linkLen p) = 40 := by
    have h40 : totLen (replyReset ptr mem p) (linkLen p) = 40 := totLen_replyReset
    rw [← h40]
    refine Octets.be16_congr fun i hi => ?_
    rw [Nat.add_assoc]
    exact hmem (by omega)
  have hsize : (hdrdataSize (resetMemory ptr mem p) (linkLen p)).toNat = 20 := by
    rw [hdrdataSize, htot, hihl]
    rfl
  refine ⟨(setIpChecksum_verifies_iff (n := 0) ?_).2 rfl, setTcpChecksum_verifies hihl hsize.ge⟩
  rw [hfirst]
  decide

/-- A TCP packet without IP options that `process_packet` accepts. -/
theorem exists_processPacket {ip : ℕ} (hlen : ¬c.len < MIN_PACKET_SIZE)
    (hip : ipOffset c.bytes = some ip) (hihl : ihl c.bytes ip = 5)
    (hproto : protocol c.bytes ip = IPPROTO_TCP)
    (hsize : ¬ip + (totLen c.bytes ip).toNat < MIN_TCP_SIZE)
    (hdoff : ¬doff c.bytes (ip + 20) < 5) (hsource : source c.bytes (ip + 20) ≠ 0)
    (hdest : dest c.bytes (ip + 20) ≠ 0) : ∃ q, (processPacket l c).val = some q := by
  have hne : ETHERTYPE_VLAN ≠ ETHERTYPE_IP := by decide
  have hoctet : c.bytes (ip + 9) = IPPROTO_TCP := hproto
  have hcheck (ethertype : BitVec 16)
      (heq : (if ethertype = ETHERTYPE_IP then ETHER_HDR_LEN else VLAN_ETH_HLEN) = ip) :
      ∃ q, (checkIp l c ethertype ip).val = some q := by
    have hinit : ∃ q, (initPkt l c ethertype).val = some q := by
      have hth : ip + (5 : BitVec 4).toNat * 4 = ip + 20 := rfl
      have hsize' : ¬ip + (c.bytes.be16 (ip + 2)).toNat < MIN_TCP_SIZE := hsize
      have hsource' : ¬c.bytes.le16 (ip + 20) = 0 := hsource
      have hdest' : ¬c.bytes.le16 (ip + 20 + 2) = 0 := hdest
      unfold initPkt
      simp only [heq, Octets.readBlock, Octets.readBe16, Octets.readBe48, Octets.readOctet,
        Octets.readLe16, Reads.val_bind, Reads.val_pure, Octets.field_val, hoctet, hihl, hth,
        hsize', hdoff, hsource', hdest', ↓reduceIte, Option.some.injEq, exists_eq']
    obtain ⟨q, hq⟩ := hinit
    have hkind : ¬(IPPROTO_TCP ≠ IPPROTO_TCP ∧ IPPROTO_TCP ≠ IPPROTO_UDP) := by decide
    have hrange : ¬((5 : BitVec 4) < 5 ∨ (8 : BitVec 4) < 5) := by decide
    refine ⟨q, ?_⟩
    simp only [checkIp, Octets.readOctet, Reads.val_bind, Octets.field_val, hoctet, hihl, hkind,
      hrange, ↓reduceIte, hq]
  unfold ipOffset at hip
  split_ifs at hip with he hv
  · obtain ⟨q, hq⟩ := hcheck (c.bytes.be16 12) (by rw [if_pos he]; exact Option.some.inj hip)
    rw [he] at hq
    rw [← Option.some.inj hip] at hq
    refine ⟨q, ?_⟩
    simp [processPacket, hlen, he, hq]
  · obtain ⟨q, hq⟩ := hcheck (c.bytes.be16 12) (by rw [if_neg he]; exact Option.some.inj hip)
    rw [hv.1] at hq
    rw [← Option.some.inj hip] at hq
    refine ⟨q, ?_⟩
    simp [processPacket, hlen, hv.1, hv.2, hne, hq]

/-- The frame that is sent, as its receiver captures it. -/
def resetCapture (ptr : ℕ) (mem : Octets) (p : Packet) : Capture where
  len := resetSize ptr p
  caplen := resetSize ptr p
  bytes := replyReset ptr mem p

/-- **Resets.** The packet is a TCP packet that was accepted. The frame of its reset has the fields
the engine works with, its checksums verify, and it is accepted by any listener: whole, with no
data, and as a packet of the other direction. -/
theorem reset_accepted (h : (processPacket l c).val = some p)
    (htcp : protocol p.frame p.ip = IPPROTO_TCP) :
    frameOf (replyReset ptr mem p) (linkLen p) = resetFrame (frameOf p.frame p.ip) ∧
      Verifies ((replyReset ptr mem p).block (linkLen p) 20) ∧
      Verifies (tcpMessage (replyReset ptr mem p) (linkLen p)) ∧
      ∀ l', ∃ q, (processPacket l' (resetCapture ptr mem p)).val = some q ∧ q.fragmented = false ∧
        q.data = 0 ∧ (connLookup q).val = (connLookup p).val.reverse := by
  obtain ⟨hip, -, -, hinit⟩ := processPacket_some h
  rw [← hinit.frame] at hip
  have hth : p.th = l4 p.frame p.ip := by rw [hinit.th, hinit.frame]
  obtain ⟨hlink, hoffset⟩ : p.ip = linkLen p ∧
      ipOffset (replyReset ptr mem p) = some (linkLen p) := ipOffset_replyReset hip
  have hports : source p.frame p.th ≠ 0 ∧ dest p.frame p.th ≠ 0 := by
    obtain ⟨-, -, -, hs, hd⟩ | hudp := hinit.kind
    · rw [hinit.frame]
      exact ⟨hs, hd⟩
    · rw [← hinit.frame, htcp] at hudp
      cases hudp
  have hlink₁₄ : 14 ≤ linkLen p := by
    obtain ⟨-, hl⟩ | ⟨-, hl⟩ := linkLen_cases p <;> omega
  refine ⟨frameOf_replyReset hth, replyReset_verifies.1, replyReset_verifies.2, fun l' => ?_⟩
  have htot : (totLen (replyReset ptr mem p) (linkLen p)).toNat = 40 := by
    rw [totLen_replyReset]
    rfl
  obtain ⟨q, hq⟩ : ∃ q, (processPacket l' (resetCapture ptr mem p)).val = some q := by
    refine exists_processPacket ?_ hoffset ihl_replyReset protocol_replyReset ?_ ?_ ?_ ?_
    · show ¬linkLen p + (40 + ptr) < MIN_PACKET_SIZE
      rw [MIN_PACKET_SIZE]
      omega
    · show ¬linkLen p + (totLen (replyReset ptr mem p) (linkLen p)).toNat < MIN_TCP_SIZE
      rw [htot, MIN_TCP_SIZE]
      omega
    · show ¬doff (replyReset ptr mem p) (linkLen p + 20) < 5
      rw [doff_replyReset]
      decide
    · show source (replyReset ptr mem p) (linkLen p + 20) ≠ 0
      rw [source_replyReset]
      exact hports.2
    · show dest (replyReset ptr mem p) (linkLen p + 20) ≠ 0
      rw [dest_replyReset]
      exact hports.1
  obtain ⟨hqip, -, -, hqinit⟩ := processPacket_some hq
  have hframe : q.frame = replyReset ptr mem p := hqinit.frame
  have hipq : q.ip = linkLen p := Option.some.inj (hqip.symm.trans hoffset)
  have hthq : q.th = l4 q.frame q.ip := by rw [hqinit.th, hqinit.frame]
  refine ⟨q, hq, ?_, ?_, ?_⟩
  · rw [hqinit.fragmented, hqinit.size, hipq]
    refine decide_eq_false ?_
    show ¬linkLen p + (40 + ptr) < linkLen p + (totLen (replyReset ptr mem p) (linkLen p)).toNat
    omega
  · rw [hqinit.data, hipq]
    show (totLen (replyReset ptr mem p) (linkLen p)).setWidth 32 -
      (ihl (replyReset ptr mem p) (linkLen p)).setWidth 32 * 4 -
        BitVec.ofNat 32 (l4Len (replyReset ptr mem p) (linkLen p)) = 0
    rw [totLen_replyReset, ihl_replyReset, l4Len_replyReset]
    rfl
  · have hfields : (q.toPkt 0).packet = resetFrame (frameOf p.frame p.ip) := by
      show frameOf q.frame q.ip = _
      rw [hframe, hipq, frameOf_replyReset hth]
    rw [connLookup_val (i := 0) hthq, connLookup_val (i := 0) hth, Pkt.connKey, hfields]
    show (⟨IPPROTO_TCP, _, _, _, _, _⟩ : ConnKey) = _
    rw [← htcp]
    rfl

/-- The reset of a SYN is a packet of the other direction. -/
theorem reset_accepted_syn : ∃ p,
    (processPacket { target := true, mac := 0 } Sample.synFrame).val = some p ∧
      resetSize 8 p = 62 ∧
      Verifies (tcpMessage (replyReset 8 (fun _ => 0xff) p) 14) ∧
      ∃ q, (processPacket { target := false, mac := 0 }
        (resetCapture 8 (fun _ => 0xff) p)).val = some q ∧
        (connLookup q).val = (connLookup p).val.reverse := by
  refine ⟨_, rfl, rfl, ?_⟩
  obtain ⟨-, -, htcp, haccepted⟩ := @reset_accepted 8 (fun _ => 0xff) _
    { target := true, mac := 0 } Sample.synFrame rfl rfl
  obtain ⟨q, hq, -, -, hkey⟩ := haccepted { target := false, mac := 0 }
  exact ⟨htcp, q, hq, hkey⟩

/-! ### ARP -/

/-- `struct ether_arp`. -/
structure Arp where
  hrd : BitVec 16
  pro : BitVec 16
  hln : BitVec 8
  pln : BitVec 8
  op : BitVec 16
  sha : MacAddr
  spa : IpAddr
  tha : MacAddr
  tpa : IpAddr
  deriving DecidableEq, Repr

/-- The ARP packet at an offset. -/
def arpOf (m : Octets) (o : ℕ) : Arp where
  hrd := m.be16 o
  pro := m.be16 (o + 2)
  hln := m (o + 4)
  pln := m (o + 5)
  op := m.be16 (o + 6)
  sha := m.be48 (o + 8)
  spa := m.le32 (o + 14)
  tha := m.be48 (o + 18)
  tpa := m.le32 (o + 24)

/-- Where the ARP packet of a frame is. -/
def arpOffset (m : Octets) : Option ℕ :=
  if m.be16 12 = ETHERTYPE_ARP then some ETHER_HDR_LEN
  else if m.be16 12 = ETHERTYPE_VLAN ∧ m.be16 16 = ETHERTYPE_ARP then some VLAN_ETH_HLEN
  else none

/-- The answer to a request. -/
def Arp.answer (mac : MacAddr) (a : Arp) : Arp where
  hrd := 1
  pro := ETHERTYPE_IP
  hln := 6
  pln := 4
  op := 2
  sha := mac
  spa := a.tpa
  tha := 0
  tpa := a.spa

/-- The Ethernet header of the answer to the request at an offset, with the tag of a tagged one. -/
def arpLink (m : Octets) (mac : MacAddr) (o : ℕ) : List (BitVec 8) :=
  m.block (o + 8) 6 ++ (macOctets mac ++
    if o = ETHER_HDR_LEN then [0x08, 0x06] else [0x81, 0x00] ++ m.block ETHER_HDR_LEN VLAN_HLEN)

/-- The ARP packet of the answer. -/
def arpBody (m : Octets) (mac : MacAddr) (o : ℕ) : List (BitVec 8) :=
  [0x00, 0x01, 0x08, 0x00, 0x06, 0x04, 0x00, 0x02] ++ (macOctets mac ++ (m.block (o + 24) 4 ++
    (List.replicate 6 0 ++ m.block (o + 14) 4)))

section

variable {m m' : Octets} {mac : MacAddr} {o : ℕ}

theorem sendArpReply_val {ethertype : BitVec 16}
    (ho : (if ethertype = ETHERTYPE_ARP then ETHER_HDR_LEN else VLAN_ETH_HLEN) = o) :
    (sendArpReply m l ethertype).val =
      if m.be16 (o + 6) = ARPOP_REQUEST then some (arpLink m l.mac o ++ arpBody m l.mac o)
      else none := by
  have hne : VLAN_ETH_HLEN ≠ ETHER_HDR_LEN := by decide
  by_cases he : ethertype = ETHERTYPE_ARP
  · rw [if_pos he] at ho
    subst ho
    by_cases hop : m.be16 (ETHER_HDR_LEN + 6) = ARPOP_REQUEST
    · simp [sendArpReply, he, hop, arpLink, arpBody]
    · simp [sendArpReply, he, hop]
  · rw [if_neg he] at ho
    subst ho
    by_cases hop : m.be16 (VLAN_ETH_HLEN + 6) = ARPOP_REQUEST
    · simp [sendArpReply, he, hop, arpLink, arpBody, hne]
    · simp [sendArpReply, he, hop]

theorem arpOffset_eq_some : arpOffset m = some o ↔
    (m.be16 12 = ETHERTYPE_ARP ∧ ETHER_HDR_LEN = o) ∨
      (m.be16 12 = ETHERTYPE_VLAN ∧ m.be16 16 = ETHERTYPE_ARP ∧ VLAN_ETH_HLEN = o) := by
  have hne : ETHERTYPE_ARP ≠ ETHERTYPE_VLAN := by decide
  unfold arpOffset
  split_ifs with he hv
  · simp [he, hne]
  · simp [hv, hne.symm]
  · refine iff_of_false not_false ?_
    rintro (⟨h, -⟩ | ⟨h, h', -⟩)
    · exact he h
    · exact hv ⟨h, h'⟩

/-- What a listener does with ARP: it skips tagged frames of EXT. -/
theorem pcapCb_arp (ho : arpOffset m = some o) :
    (pcapCb m l).val =
      if o ≠ ETHER_HDR_LEN ∧ l.target = true then .skipped
      else .arp (if m.be16 (o + 6) = ARPOP_REQUEST then
        some (arpLink m l.mac o ++ arpBody m l.mac o) else none) := by
  have hIA : ETHERTYPE_VLAN ≠ ETHERTYPE_ARP := by decide
  have hVI : ETHERTYPE_VLAN ≠ ETHERTYPE_IP := by decide
  obtain ⟨he, rfl⟩ | ⟨he, henc, rfl⟩ := arpOffset_eq_some.1 ho
  · have hval : (sendArpReply m l ETHERTYPE_ARP).val = _ := sendArpReply_val (if_pos rfl)
    simp [pcapCb, he, hval]
  · have hval : (sendArpReply m l ETHERTYPE_VLAN).val = _ := sendArpReply_val (if_neg hIA)
    have hne : VLAN_ETH_HLEN ≠ ETHER_HDR_LEN := by decide
    cases ht : l.target <;> simp [pcapCb, he, henc, hIA, hVI, ht, hval, hne]

theorem arpOffset_cases (ho : arpOffset m = some o) : o = 14 ∨ o = 18 := by
  obtain ⟨-, rfl⟩ | ⟨-, -, rfl⟩ := arpOffset_eq_some.1 ho
  · exact .inl rfl
  · exact .inr rfl

theorem length_arpLink (ho : o = 14 ∨ o = 18) : (arpLink m mac o).length = o := by
  obtain rfl | rfl := ho <;> rfl

theorem length_arpBody : (arpBody m mac o).length = 28 := rfl

/-- The octets of an answer. -/
theorem arpLink_apply (ho : o = 14 ∨ o = 18) {i : ℕ} (hi : i < o) :
    m'.write 0 (arpLink m mac o ++ arpBody m mac o) i = (arpLink m mac o).getD i 0 := by
  have h : m'.write 0 (arpLink m mac o ++ arpBody m mac o) (0 + i) = _ :=
    write_append_left (by rwa [length_arpLink ho]) (arpBody m mac o)
  rwa [Nat.zero_add] at h

theorem arpBody_apply (ho : o = 14 ∨ o = 18) {i : ℕ} (hi : i < 28) :
    m'.write 0 (arpLink m mac o ++ arpBody m mac o) (o + i) = (arpBody m mac o).getD i 0 := by
  have h : m'.write 0 (arpLink m mac o ++ arpBody m mac o) (0 + (arpLink m mac o).length + i) = _ :=
    write_append_right (arpLink m mac o) hi
  rwa [Nat.zero_add, length_arpLink ho] at h

theorem arp_type (ho : arpOffset m = some o) :
    arpOffset (m'.write 0 (arpLink m mac o ++ arpBody m mac o)) = some o := by
  have hcases := arpOffset_cases ho
  obtain ⟨he, rfl⟩ | ⟨he, henc, rfl⟩ := arpOffset_eq_some.1 ho
  · refine arpOffset_eq_some.2 (.inl ⟨?_, rfl⟩)
    exact Octets.be16_of_octets (arpLink_apply hcases (by decide))
      (arpLink_apply hcases (by decide))
  · refine arpOffset_eq_some.2 (.inr ⟨?_, ?_, rfl⟩)
    · exact Octets.be16_of_octets (arpLink_apply hcases (by decide))
        (arpLink_apply hcases (by decide))
    · rw [← henc]
      refine Octets.be16_congr fun i hi => ?_
      rw [arpLink_apply hcases (by rw [VLAN_ETH_HLEN]; omega)]
      match i, hi with
      | 0, _ => rfl
      | 1, _ => rfl

/-- A hardware address, octet by octet. -/
theorem be48_of_octets {mac : MacAddr} (h : ∀ i < 6, m (o + i) = (macOctets mac).getD i 0) :
    m.be48 o = mac := by
  rw [← be48_write (m := m) (o := o) mac]
  refine Octets.be48_congr fun i hi => ?_
  have happly : m.write o (macOctets mac ++ []) (o + i) = _ := write_append_left hi []
  rw [List.append_nil] at happly
  rw [h i hi, happly]

/-- The fields of the answer. -/
theorem arpOf_answer (ho : o = 14 ∨ o = 18) :
    arpOf (m'.write 0 (arpLink m mac o ++ arpBody m mac o)) o = (arpOf m o).answer mac := by
  have hbody {i : ℕ} (hi : i < 28) :
      m'.write 0 (arpLink m mac o ++ arpBody m mac o) (o + i) = (arpBody m mac o).getD i 0 :=
    arpBody_apply ho hi
  generalize m'.write 0 (arpLink m mac o ++ arpBody m mac o) = r at hbody
  have hhrd : r.be16 o = 1 := Octets.be16_of_octets (hbody (i := 0) (by decide))
    (hbody (i := 1) (by decide))
  have hpro : r.be16 (o + 2) = ETHERTYPE_IP :=
    Octets.be16_of_octets (hbody (i := 2) (by decide)) (hbody (i := 3) (by decide))
  have hhln : r (o + 4) = 6 := hbody (by decide)
  have hpln : r (o + 5) = 4 := hbody (by decide)
  have hop : r.be16 (o + 6) = 2 :=
    Octets.be16_of_octets (hbody (i := 6) (by decide)) (hbody (i := 7) (by decide))
  have hsha : r.be48 (o + 8) = mac := by
    refine be48_of_octets fun i hi => ?_
    rw [Nat.add_assoc, hbody (by omega)]
    match i, hi with
    | 0, _ => rfl
    | 1, _ => rfl
    | 2, _ => rfl
    | 3, _ => rfl
    | 4, _ => rfl
    | 5, _ => rfl
  have hspa : r.le32 (o + 14) = m.le32 (o + 24) := by
    refine Octets.le32_congr fun i hi => ?_
    rw [Nat.add_assoc, hbody (by omega)]
    match i, hi with
    | 0, _ => rfl
    | 1, _ => rfl
    | 2, _ => rfl
    | 3, _ => rfl
  have htha : r.be48 (o + 18) = 0 := by
    refine be48_of_octets fun i hi => ?_
    rw [Nat.add_assoc, hbody (by omega)]
    match i, hi with
    | 0, _ => rfl
    | 1, _ => rfl
    | 2, _ => rfl
    | 3, _ => rfl
    | 4, _ => rfl
    | 5, _ => rfl
  have htpa : r.le32 (o + 24) = m.le32 (o + 14) := by
    refine Octets.le32_congr fun i hi => ?_
    rw [Nat.add_assoc, hbody (by omega)]
    match i, hi with
    | 0, _ => rfl
    | 1, _ => rfl
    | 2, _ => rfl
    | 3, _ => rfl
  rw [arpOf, hhrd, hpro, hhln, hpln, hop, hsha, hspa, htha, htpa]
  rfl

/-- The hosts of the answer. -/
theorem arpLink_hosts (ho : o = 14 ∨ o = 18) :
    (m'.write 0 (arpLink m mac o ++ arpBody m mac o)).be48 0 = m.be48 (o + 8) ∧
      (m'.write 0 (arpLink m mac o ++ arpBody m mac o)).be48 6 = mac := by
  refine ⟨Octets.be48_congr fun i hi => ?_, be48_of_octets fun i hi => ?_⟩
  · rw [Nat.zero_add, arpLink_apply ho (by omega)]
    match i, hi with
    | 0, _ => rfl
    | 1, _ => rfl
    | 2, _ => rfl
    | 3, _ => rfl
    | 4, _ => rfl
    | 5, _ => rfl
  · rw [arpLink_apply ho (by omega)]
    match i, hi with
    | 0, _ => rfl
    | 1, _ => rfl
    | 2, _ => rfl
    | 3, _ => rfl
    | 4, _ => rfl
    | 5, _ => rfl

/-- **ARP.** A request, tagged or not, that is not a tagged one of EXT is answered with a frame of
the same kind, to the host that sent the request, that gives the address of the listener for the
address that was asked for. No listener answers this frame. -/
theorem arp_answered (mem : Octets) (ho : arpOffset m = some o)
    (hop : m.be16 (o + 6) = ARPOP_REQUEST) (hl : l.target = true → o = ETHER_HDR_LEN) :
    ∃ reply, (pcapCb m l).val = .arp (some reply) ∧ reply.length = o + 28 ∧
      arpOffset (mem.write 0 reply) = some o ∧
      arpOf (mem.write 0 reply) o = (arpOf m o).answer l.mac ∧
      (mem.write 0 reply).be48 0 = (arpOf m o).sha ∧ (mem.write 0 reply).be48 6 = l.mac ∧
      ∀ l' : Listener, (pcapCb (mem.write 0 reply) l').val = .skipped ∨
        (pcapCb (mem.write 0 reply) l').val = .arp none := by
  have hcases := arpOffset_cases ho
  have htype : arpOffset (mem.write 0 (arpLink m l.mac o ++ arpBody m l.mac o)) = some o :=
    arp_type ho
  have hanswer : arpOf (mem.write 0 (arpLink m l.mac o ++ arpBody m l.mac o)) o = _ :=
    arpOf_answer hcases
  refine ⟨arpLink m l.mac o ++ arpBody m l.mac o, ?_, ?_, htype, hanswer,
    (arpLink_hosts hcases).1, (arpLink_hosts hcases).2, fun l' => ?_⟩
  · rw [pcapCb_arp ho, if_neg (fun h => h.1 (hl h.2)), if_pos hop]
  · rw [List.length_append, length_arpLink hcases, length_arpBody]
  · have hreply : (mem.write 0 (arpLink m l.mac o ++ arpBody m l.mac o)).be16 (o + 6) ≠
        ARPOP_REQUEST := by
      have hop₂ := congrArg Arp.op hanswer
      rw [show (mem.write 0 (arpLink m l.mac o ++ arpBody m l.mac o)).be16 (o + 6) = _ from hop₂]
      show (2 : BitVec 16) ≠ 1
      decide
    rw [pcapCb_arp htype, if_neg hreply]
    split
    · exact .inl rfl
    · exact .inr rfl

end

/-- A request for 192.0.2.1, in a tagged frame. -/
def Sample.whoHas : Octets :=
  Octets.write (fun _ => 0) 0
    [0xff, 0xff, 0xff, 0xff, 0xff, 0xff, 2, 0, 0, 0, 0, 9, 0x81, 0x00, 0x00, 0x05, 0x08, 0x06,
      0, 1, 8, 0, 6, 4, 0, 1, 2, 0, 0, 0, 0, 9, 192, 0, 2, 9, 0, 0, 0, 0, 0, 0, 192, 0, 2, 1]

theorem arp_answered_tagged : ∃ reply,
    (pcapCb Sample.whoHas { target := false, mac := 0x020000000001 }).val = .arp (some reply) ∧
      (arpOf (Octets.write (fun _ => 0) 0 reply) 18).spa = Sample.whoHas.le32 42 ∧
      (Octets.write (fun _ => 0) 0 reply).be48 0 = 0x020000000009 := by
  obtain ⟨reply, hval, -, -, hanswer, hhost, -⟩ := arp_answered
    (l := { target := false, mac := 0x020000000001 }) (fun _ => 0) (m := Sample.whoHas) (o := 18)
    (by decide) (by decide) (fun h => by cases h)
  refine ⟨reply, hval, by rw [hanswer]; rfl, hhost.trans (by decide)⟩

end Wire

end Honeybrid
