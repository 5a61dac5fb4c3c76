import Honeybrid.Checksums

/-!
# Rewriting a packet in its buffer

`nat`, `forward_ext2hih` and `forward_hih2ext` of `netcode.c`, over the octets of the buffer that
`init_pkt` has allocated. A frame without a VLAN tag is kept four octets behind the start of the
buffer, so that a tag can be added; the IP header is at offset 18 in either case. The tag functions
and the hardware addresses concern the octets before it.

After a rewriting, the IP checksum must verify over the whole IP header, the TCP checksum over the
pseudo header and the segment, and the UDP checksum must be zero; everything but the translated
fields and the checksums must be as it was. This holds for the packets without IP options, whose
timestamp lies in the TCP header. With IP options, the checksums are stored where the overlaid
structures have them and cover what these name.

## Main definitions

* `Buffer`, `Packet.buffer`.
* `nat`, `forwardExt2hih`, `forwardHih2ext`.
* `Rewritten`: what a rewriting must leave.
* `Restorable`: the packets for which it does.

## Main results

* `rewriting_iff`: every rewriting of an admitted packet leaves valid checksums and changes nothing
  else, exactly if the packet is restorable.
-/

namespace Honeybrid

namespace Wire

open Checksum

/-- The part of `struct packet` that a rewriting works on: `FRAME`, the offset of `eth` (or `vlan`)
in it, and the size of the frame. -/
structure Buffer where
  mem : Octets
  eth : ℕ
  size : ℕ

/-- The buffer that `init_pkt` has filled. The octets before an untagged frame are not initialised,
and are not read before they are written. -/
def Packet.buffer (p : Packet) : Buffer where
  mem := fun o => p.frame (o - (18 - p.ip))
  eth := 18 - p.ip
  size := p.size

/-! ### The link layer -/

variable (b : Buffer)

/-- `ether_type == ETHERTYPE_VLAN`. -/
def Buffer.tagged : Bool :=
  b.mem.be16 (b.eth + 12) = ETHERTYPE_VLAN

/-- The source address of the Ethernet header is set. -/
def setShost (mac : MacAddr) : Buffer :=
  { b with mem := b.mem.write (b.eth + 6) (macOctets mac) }

/-- The destination address of the Ethernet header is set. -/
def setDhost (mac : MacAddr) : Buffer :=
  { b with mem := b.mem.write b.eth (macOctets mac) }

/-- The three fields of a VLAN header at the start of the buffer. -/
def setVlanHeader (v : VlanTci) (m : Octets) : Octets :=
  ((m.write 12 [0x81, 0x00]).write 16 [0x08, 0x00]).write 14 (Octets.ofLe16 v.i)

/-- Add a VLAN header: the addresses are moved to the start of the buffer. -/
def pushTag (v : VlanTci) : Buffer where
  mem := setVlanHeader v (b.mem.write 0 (b.mem.block b.eth ETHER_HDR_LEN))
  eth := 0
  size := b.size + VLAN_HLEN

/-- Replace the VLAN tag of a tagged frame. -/
def setTci (v : VlanTci) : Buffer :=
  { b with mem := b.mem.write (b.eth + 14) (Octets.ofLe16 v.i) }

/-- Strip the VLAN header, if there is one. -/
def popTag : Buffer :=
  if b.tagged then
    { mem := (b.mem.write VLAN_HLEN (b.mem.block 0 ETHER_HDR_LEN)).write (VLAN_HLEN + 12)
        [0x08, 0x00]
      eth := VLAN_HLEN
      size := b.size - VLAN_HLEN }
  else b

/-- The VLAN header of a frame towards an INTRA host or a high-interaction honeypot. -/
def changeTag (v : VlanTci) : Buffer :=
  if b.tagged then if v.vid ≠ 0 then setTci b v else b
  else if v.vid ≠ 0 then pushTag b v
  else b

/-! ### The IP and transport headers -/

/-- Translate the source address. -/
def snat (ip : IpAddr) : Buffer :=
  { b with mem := b.mem.write (18 + 12) (Octets.ofLe32 ip) }

/-- Translate the destination address. -/
def dnat (ip : IpAddr) : Buffer :=
  { b with mem := b.mem.write (18 + 16) (Octets.ofLe32 ip) }

/-- The checksums at the end of `nat`. -/
def natChecksums (m : Octets) : Octets :=
  setIpChecksum
    (if protocol m 18 = IPPROTO_TCP then setTcpChecksum m 18 else setUdpChecksum m 18) 18

/-- The checksums at the end of the `forward_*` functions. -/
def forwardChecksums (m : Octets) : Octets :=
  setIpChecksum
    (if protocol m 18 = IPPROTO_TCP then setTcpChecksum m 18
    else if protocol m 18 = IPPROTO_UDP then setUdpChecksum m 18
    else m) 18

/-- `nat` before its checksums; `none` is the return for an invalid destination. -/
def natTranslate (shost : MacAddr) (n : NatFields) (origin destination : Role) : Option Buffer :=
  let b := setShost b shost
  match origin with
  | .ext =>
    let b := dnat (setDhost b n.dstMac) n.dstIp
    some (if n.dstVlan.vid ≠ 0 then pushTag b n.dstVlan else popTag b)
  | _ =>
    let b := setDhost b n.dstMac
    match destination with
    | .intra => some (changeTag (dnat b n.dstIp) n.dstVlan)
    | .ext => some (popTag (snat b n.srcIp))
    | .hih => some (changeTag (snat b n.srcIp) n.dstVlan)
    | _ => none

/-- `nat`. -/
def nat (shost : MacAddr) (n : NatFields) (origin destination : Role) : Buffer :=
  match natTranslate b shost n origin destination with
  | some b => { b with mem := natChecksums b.mem }
  | none => setDhost (setShost b shost) n.dstMac

/-- The port and the acknowledgement number of a packet to the honeypot. -/
def redirectExt2hih (c : Conn) (m : Octets) : Octets :=
  let th := l4 m 18
  if protocol m 18 = IPPROTO_TCP then
    let m := m.write (th + 2) (Octets.ofLe16 c.hih.port)
    if tcpFlag m th 4 then
      m.write (th + 8) (Octets.ofBe32 (m.be32 (th + 8) + ~~~c.hih.delta + 1))
    else m
  else if protocol m 18 = IPPROTO_UDP then m.write (th + 2) (Octets.ofLe16 c.hih.port)
  else m

/-- The VLAN header of a packet to the honeypot. -/
def forwardTag (v : VlanTci) : Buffer :=
  if v.i ≠ 0 then
    if b.tagged then { b with mem := setVlanHeader v b.mem, eth := 0 } else pushTag b v
  else b

/-- `forward_ext2hih`, to the honeypot `h`. -/
def forwardExt2hih (shost : MacAddr) (h : Handler) (c : Conn) : Buffer :=
  let b := forwardTag (dnat (setDhost (setShost b shost) h.mac) h.ip) h.vlan
  { b with mem := forwardChecksums (redirectExt2hih c b.mem) }

/-- The port and the sequence number of a TCP packet of the honeypot. -/
def renumber (c : Conn) (m : Octets) : Octets :=
  let m₁ := m.write (l4 m 18) (Octets.ofLe16 c.hih.port)
  m₁.write (l4 m 18 + 4) (Octets.ofBe32 (m₁.be32 (l4 m 18 + 4) + c.hih.delta))

/-- The port, the sequence number and the timestamp of a packet of the honeypot. -/
def redirectHih2ext (c : Conn) (rounds : ℕ) (m : Octets) : Option Octets :=
  if protocol m 18 = IPPROTO_TCP then fixTcpTimestamps (renumber c m) (l4 m 18) c rounds
  else if protocol m 18 = IPPROTO_UDP then some (m.write (l4 m 18) (Octets.ofLe16 c.hih.port))
  else some m

/-- The addresses of a packet of the honeypot, which loses its tag. -/
def showToExt (c : Conn) : Buffer :=
  popTag (snat (setDhost (setShost b c.firstPktDstMac) c.firstPktSrcMac) c.firstPktDstIp)

/-- `forward_hih2ext`, with the number of rounds for the loops over the TCP options. -/
def forwardHih2ext (c : Conn) (rounds : ℕ) : Option Buffer :=
  (redirectHih2ext c rounds (showToExt b c).mem).map fun m =>
    { showToExt b c with mem := forwardChecksums m }

/-! ### What a rewriting must leave -/

section

variable (m : Octets)

/-- The length of the IP header. -/
def ipLen : ℕ :=
  (ihl m 18).toNat * 4

/-- The checksum fields of a packet. -/
def ChecksumField (o : ℕ) : Prop :=
  (10 ≤ o ∧ o < 12) ∨
    (protocol m 18 = IPPROTO_TCP ∧ ipLen m + 16 ≤ o ∧ o < ipLen m + 18) ∨
    (protocol m 18 = IPPROTO_UDP ∧ ipLen m + 6 ≤ o ∧ o < ipLen m + 8)

/-- `m'` is the packet `m` after the fields for which `field` holds were rewritten: its checksums
are valid, and its other octets as they were. -/
structure Rewritten (field : ℕ → Prop) (m' : Octets) : Prop where
  ip : Verifies (m'.block 18 (ipLen m))
  tcp : protocol m 18 = IPPROTO_TCP → Verifies (tcpMessage m' 18)
  udp : protocol m 18 = IPPROTO_UDP → m' (18 + (ipLen m + 6)) = 0 ∧ m' (18 + (ipLen m + 7)) = 0
  unchanged : ∀ o < (totLen m 18).toNat, ¬field o → ¬ChecksumField m o → m' (18 + o) = m (18 + o)

/-- The address that `nat` translates. -/
def NatField (origin destination : Role) (o : ℕ) : Prop :=
  if origin = .ext ∨ destination = .intra then 16 ≤ o ∧ o < 20 else 12 ≤ o ∧ o < 16

/-- The fields that `forward_ext2hih` translates. -/
def Ext2hihField (o : ℕ) : Prop :=
  (16 ≤ o ∧ o < 20) ∨ (ipLen m + 2 ≤ o ∧ o < ipLen m + 4) ∨
    (protocol m 18 = IPPROTO_TCP ∧ tcpFlag m (l4 m 18) 4 ∧ ipLen m + 8 ≤ o ∧ o < ipLen m + 12)

/-- The fields that `forward_hih2ext` translates. -/
def Hih2extField (o : ℕ) : Prop :=
  (12 ≤ o ∧ o < 16) ∨ (ipLen m ≤ o ∧ o < ipLen m + 2) ∨
    (protocol m 18 = IPPROTO_TCP ∧
      ((ipLen m + 4 ≤ o ∧ o < ipLen m + 8) ∨ TimestampField m (l4 m 18) (18 + o)))

/-- The calls of `nat` that its callers make: a packet of EXT, or towards an INTRA host, EXT or a
high-interaction honeypot. -/
def Directed (origin destination : Role) : Prop :=
  origin = .ext ∨ destination = .intra ∨ destination = .ext ∨ destination = .hih

/-- Every rewriting of a packet leaves what it must. -/
structure Valid (b : Buffer) : Prop where
  nat : ∀ shost n origin destination, Directed origin destination →
    Rewritten b.mem (NatField origin destination) (nat b shost n origin destination).mem
  ext2hih : ∀ shost h c, Rewritten b.mem (Ext2hihField b.mem) (forwardExt2hih b shost h c).mem
  hih2ext : ∀ c, ∃ rounds b', forwardHih2ext b c rounds = some b' ∧
    Rewritten b.mem (Hih2extField b.mem) b'.mem

/-- A packet whose checksums are stored where they belong and cover what they must: one without IP
options or, for UDP, one whose options sum to zero and in which the UDP checksum and the octets that
are cleared in its place are zero already. The timestamp of a TCP packet can be found, and lies in
the TCP header. -/
def Restorable : Prop :=
  if protocol m 18 = IPPROTO_TCP then
    ihl m 18 = 5 ∧ (∀ p, OptionAt m (l4 m 18) p → SoundAt m p) ∧
      TimestampInside m (l4 m 18) (18 + (totLen m 18).toNat)
  else
    ihl m 18 = 5 ∨
      (m (18 + 26) = 0 ∧ m (18 + 27) = 0 ∧ m (18 + (ipLen m + 6)) = 0 ∧
        m (18 + (ipLen m + 7)) = 0 ∧ leSum (m.block (18 + 20) (ipLen m - 20)) % 65535 = 0)

/-- What is known of the packets that are rewritten. -/
structure Admitted : Prop where
  kind : protocol m 18 = IPPROTO_TCP ∨ protocol m 18 = IPPROTO_UDP
  ihl_ge : 5 ≤ (ihl m 18).toNat
  ihl_le : (ihl m 18).toNat ≤ 8
  covers : ipLen m + l4Len m 18 ≤ (totLen m 18).toNat
  doff : protocol m 18 = IPPROTO_TCP → 20 ≤ l4Len m 18

end

/-! ### The octets before the IP header -/

section

variable {b} {q : ℕ} {mac : MacAddr} {v : VlanTci} {ip : IpAddr}

/-- An untagged frame leaves room for a tag. -/
def Buffer.Framed (b : Buffer) : Prop :=
  (b.eth = 4 ∧ b.tagged = false) ∨ b.eth = 0

theorem Buffer.Framed.eth_le (h : b.Framed) : b.eth ≤ 4 := by
  obtain ⟨h, -⟩ | h := h <;> omega

@[simp] theorem length_macOctets : (macOctets mac).length = 6 := rfl

@[simp] theorem length_ofLe32 {w : BitVec 32} : (Octets.ofLe32 w).length = 4 := rfl

@[simp] theorem length_ofLe16 {w : BitVec 16} : (Octets.ofLe16 w).length = 2 := rfl

@[simp] theorem length_ofBe32 {w : BitVec 32} : (Octets.ofBe32 w).length = 4 := rfl

theorem tagged_congr {b' : Buffer} (he : b'.eth = b.eth)
    (h₀ : b'.mem (b.eth + 12) = b.mem (b.eth + 12))
    (h₁ : b'.mem (b.eth + 13) = b.mem (b.eth + 13)) :
    b'.tagged = b.tagged := by
  have hword : b'.mem.be16 (b.eth + 12) = b.mem.be16 (b.eth + 12) := congrArg₂ (· ++ ·) h₀ h₁
  rw [Buffer.tagged, Buffer.tagged, he, hword]

theorem Buffer.Framed.congr {b' : Buffer} (h : b.Framed) (he : b'.eth = b.eth)
    (h₀ : b'.mem (b.eth + 12) = b.mem (b.eth + 12))
    (h₁ : b'.mem (b.eth + 13) = b.mem (b.eth + 13)) :
    b'.Framed := by
  unfold Buffer.Framed
  rw [tagged_congr he h₀ h₁, he]
  exact h

/-- The hardware addresses are before the IP header, and before the type of the frame. -/
theorem setHosts_mem {shost dhost : MacAddr} (hq : b.eth + 12 ≤ q) :
    (setDhost (setShost b shost) dhost).mem q = b.mem q := by
  simp only [setDhost, setShost]
  rw [Octets.write_of_notMem (by simp; omega), Octets.write_of_notMem (by simp; omega)]

theorem Buffer.Framed.setHosts {shost dhost : MacAddr} (h : b.Framed) :
    (setDhost (setShost b shost) dhost).Framed :=
  h.congr rfl (setHosts_mem (by omega)) (setHosts_mem (by omega))

theorem Buffer.Framed.snat (h : b.Framed) : (snat b ip).Framed := by
  have := h.eth_le
  refine h.congr rfl ?_ ?_ <;>
  · simp only [Wire.snat]
    rw [Octets.write_of_notMem (by simp; omega)]

theorem Buffer.Framed.dnat (h : b.Framed) : (dnat b ip).Framed := by
  have := h.eth_le
  refine h.congr rfl ?_ ?_ <;>
  · simp only [Wire.dnat]
    rw [Octets.write_of_notMem (by simp; omega)]

theorem setVlanHeader_apply {m : Octets} (hq : 18 ≤ q) : setVlanHeader v m q = m q := by
  unfold setVlanHeader
  rw [Octets.write_of_notMem (by simp; omega), Octets.write_of_notMem (by simp; omega),
    Octets.write_of_notMem (by simp; omega)]

theorem pushTag_mem (hq : 18 ≤ q) : (pushTag b v).mem q = b.mem q := by
  simp only [pushTag]
  rw [setVlanHeader_apply hq, Octets.write_of_notMem]
  simp only [length_block, ETHER_HDR_LEN]
  omega

theorem popTag_mem (hq : 18 ≤ q) : (popTag b).mem q = b.mem q := by
  unfold popTag
  split
  · simp only [VLAN_HLEN, ETHER_HDR_LEN]
    rw [Octets.write_of_notMem (by simp; omega), Octets.write_of_notMem (by simp; omega)]
  · rfl

theorem changeTag_mem (h : b.Framed) (hq : 18 ≤ q) : (changeTag b v).mem q = b.mem q := by
  unfold changeTag
  split_ifs with ht
  · have heth : b.eth = 0 := by
      obtain ⟨-, hf⟩ | h := h
      · simp [hf] at ht
      · exact h
    simp only [setTci]
    rw [Octets.write_of_notMem (by simp; omega)]
  · rfl
  · exact pushTag_mem hq
  · rfl

theorem forwardTag_mem (hq : 18 ≤ q) : (forwardTag b v).mem q = b.mem q := by
  unfold forwardTag
  split_ifs
  · exact setVlanHeader_apply hq
  · exact pushTag_mem hq
  · rfl

end

/-! ### Valid checksums -/

section

variable {m m₁ : Octets} {field : ℕ → Prop}

/-- `m₁` is `m` but for the fields for which `field` holds, up to the end of the packet. -/
def Agrees (m : Octets) (field : ℕ → Prop) (m₁ : Octets) : Prop :=
  ∀ o < (totLen m 18).toNat, ¬field o → m₁ (18 + o) = m (18 + o)

/-- The translated fields are addresses, and fields behind the IP header. -/
def Translatable (m : Octets) (field : ℕ → Prop) : Prop :=
  ∀ o, field o → (12 ≤ o ∧ o < 20) ∨ ipLen m ≤ o

/-- A packet is TCP or UDP, not both. -/
theorem not_tcp_of_udp (h : protocol m 18 = IPPROTO_UDP) : protocol m 18 ≠ IPPROTO_TCP := by
  rw [h]
  decide

/-- Octets that are not part of a checksum. -/
theorem ip_of_not_checksum {o : ℕ} (h : ¬ChecksumField m o) : o < 10 ∨ 12 ≤ o := by
  by_contra hno
  exact h (.inl (by omega))

theorem tcp_of_not_checksum {o : ℕ} (h : ¬ChecksumField m o) (htcp : protocol m 18 = IPPROTO_TCP) :
    o < ipLen m + 16 ∨ ipLen m + 18 ≤ o := by
  by_contra hno
  exact h (.inr (.inl ⟨htcp, by omega, by omega⟩))

theorem udp_of_not_checksum {o : ℕ} (h : ¬ChecksumField m o) (hudp : protocol m 18 = IPPROTO_UDP) :
    o < ipLen m + 6 ∨ ipLen m + 8 ≤ o := by
  by_contra hno
  exact h (.inr (.inr ⟨hudp, by omega, by omega⟩))

theorem Admitted.ipLen_ge (ha : Admitted m) : 20 ≤ ipLen m := by
  have := ha.ihl_ge
  unfold ipLen
  omega

theorem Admitted.len_ge (ha : Admitted m) : ipLen m + 8 ≤ (totLen m 18).toNat := by
  have hcov := ha.covers
  obtain htcp | hudp := ha.kind
  · have := ha.doff htcp
    omega
  · rw [l4Len, if_neg (not_tcp_of_udp hudp)] at hcov
    exact hcov

/-- The first ten octets of the IP header are not translated. -/
theorem Agrees.header (h : Agrees m field m₁) (ha : Admitted m) (ht : Translatable m field) {o : ℕ}
    (ho : o < 10) : m₁ (18 + o) = m (18 + o) := by
  have hlen := ha.len_ge
  have hip := ha.ipLen_ge
  refine h o (by omega) fun hf => ?_
  have := ht o hf
  omega

theorem Agrees.protocol_eq (h : Agrees m field m₁) (ha : Admitted m) (ht : Translatable m field) :
    protocol m₁ 18 = protocol m 18 :=
  h.header ha ht (by decide)

theorem Agrees.ihl_eq (h : Agrees m field m₁) (ha : Admitted m) (ht : Translatable m field) :
    ihl m₁ 18 = ihl m 18 :=
  congrArg (BitVec.extractLsb' 0 4) (h.header ha ht (o := 0) (by decide))

theorem Agrees.hdrdataSize_eq (h : Agrees m field m₁) (ha : Admitted m)
    (ht : Translatable m field) : hdrdataSize m₁ 18 = hdrdataSize m 18 :=
  hdrdataSize_congr (h.header ha ht (o := 0) (by decide)) (h.header ha ht (by decide))
    (h.header ha ht (by decide))

theorem Admitted.version (ha : Admitted m) : m 18 ≠ 0 := by
  intro h
  have := ha.ihl_ge
  simp [ihl, h] at this

theorem Admitted.hdrdataSize_toNat (ha : Admitted m) :
    (hdrdataSize m 18).toNat = (totLen m 18).toNat - ipLen m := by
  have hlen := ha.len_ge
  have hle := ha.ihl_le
  have hT := (totLen m 18).isLt
  have h4 : (4 : BitVec 16).toNat = 4 := rfl
  simp only [ipLen, hdrdataSize, BitVec.toNat_sub, BitVec.toNat_mul, BitVec.toNat_setWidth, h4]
    at hlen ⊢
  omega

theorem ipLen_eq (h : ihl m 18 = 5) : ipLen m = 20 := by
  rw [ipLen, h]
  rfl

/-- The checksums of a TCP packet without IP options. -/
theorem rewritten_tcp (ha : Admitted m) (htcp : protocol m 18 = IPPROTO_TCP) (h5 : ihl m 18 = 5)
    (ht : Translatable m field) (hag : Agrees m field m₁) :
    Rewritten m field (setIpChecksum (setTcpChecksum m₁ 18) 18) := by
  have hlen := ipLen_eq h5
  have hcov := ha.covers
  have hdoff := ha.doff htcp
  have hfirst : setTcpChecksum m₁ 18 18 ≠ 0 := by
    rw [setTcpChecksum_apply (by omega)]
    exact (hag.header ha ht (o := 0) (by decide)) ▸ ha.version
  refine ⟨?_, fun _ => ?_, fun hudp => ?_, fun o ho hf hc => ?_⟩
  · have hv := setIpChecksum_verifies_iff (n := 0) hfirst
    rw [hlen]
    exact hv.2 rfl
  · refine setTcpChecksum_verifies ((hag.ihl_eq ha ht).trans h5) ?_
    rw [hag.hdrdataSize_eq ha ht, ha.hdrdataSize_toNat]
    omega
  · exact absurd htcp (not_tcp_of_udp hudp)
  · have h10 := ip_of_not_checksum hc
    have h36 := tcp_of_not_checksum hc htcp
    rw [setIpChecksum_apply (by omega), setTcpChecksum_apply (by omega)]
    exact hag o ho hf

/-- What `set_udp_checksum` leaves of a translated packet. -/
theorem Agrees.udp_kept (hag : Agrees m field m₁) {o : ℕ} (ho : o < (totLen m 18).toNat)
    (hf : ¬field o) (hz : (o ≠ 26 ∧ o ≠ 27) ∨ m (18 + o) = 0) :
    setUdpChecksum m₁ 18 (18 + o) = m (18 + o) := by
  by_cases h26 : o = 26 ∨ o = 27
  · rw [setUdpChecksum_zero (by omega), hz.resolve_left (by omega)]
  · rw [setUdpChecksum_apply (by omega)]
    exact hag o ho hf

theorem Agrees.udp_first (hag : Agrees m field m₁) (ha : Admitted m) (ht : Translatable m field) :
    setUdpChecksum m₁ 18 18 ≠ 0 := by
  rw [setUdpChecksum_apply (by omega)]
  exact (hag.header ha ht (o := 0) (by decide)) ▸ ha.version

/-- The checksums of a UDP packet without IP options. -/
theorem rewritten_udp_plain (ha : Admitted m) (hudp : protocol m 18 = IPPROTO_UDP)
    (h5 : ihl m 18 = 5) (ht : Translatable m field) (hag : Agrees m field m₁) :
    Rewritten m field (setIpChecksum (setUdpChecksum m₁ 18) 18) := by
  have hlen := ipLen_eq h5
  refine ⟨?_, fun h => absurd h (not_tcp_of_udp hudp), fun _ => ?_, fun o ho hf hc => ?_⟩
  · have hv := setIpChecksum_verifies_iff (n := 0) (hag.udp_first ha ht)
    rw [hlen]
    exact hv.2 rfl
  · rw [hlen, setIpChecksum_apply (by omega), setIpChecksum_apply (by omega)]
    exact ⟨setUdpChecksum_zero (.inl rfl), setUdpChecksum_zero (.inr rfl)⟩
  · have h10 := ip_of_not_checksum hc
    have h26 := udp_of_not_checksum hc hudp
    rw [setIpChecksum_apply (by omega), hag.udp_kept ho hf (.inl (by omega))]

/-- The checksums of a UDP packet whose IP options do no harm. -/
theorem rewritten_udp_options (ha : Admitted m) (hudp : protocol m 18 = IPPROTO_UDP)
    (hclear : m (18 + 26) = 0 ∧ m (18 + 27) = 0)
    (hcheck : m (18 + (ipLen m + 6)) = 0 ∧ m (18 + (ipLen m + 7)) = 0)
    (hopts : leSum (m.block (18 + 20) (ipLen m - 20)) % 65535 = 0) (ht : Translatable m field)
    (hport : ∀ o, field o → o < ipLen m + 6 ∨ ipLen m + 8 ≤ o) (hag : Agrees m field m₁) :
    Rewritten m field (setIpChecksum (setUdpChecksum m₁ 18) 18) := by
  have hip := ha.ipLen_ge
  have hlen := ha.len_ge
  have hkeep : ∀ o < (totLen m 18).toNat, ¬field o →
      setUdpChecksum m₁ 18 (18 + o) = m (18 + o) := by
    refine fun o ho hf => hag.udp_kept ho hf ?_
    by_cases h : o = 26 ∨ o = 27
    · obtain rfl | rfl := h
      · exact .inr hclear.1
      · exact .inr hclear.2
    · exact .inl (by omega)
  have hnot : ∀ o, ipLen m + 6 ≤ o → o < ipLen m + 8 → ¬field o := by
    intro o ho ho' hf
    have := hport o hf
    omega
  refine ⟨?_, fun h => absurd h (not_tcp_of_udp hudp), fun _ => ?_, fun o ho hf hc => ?_⟩
  · obtain ⟨n, hn⟩ : ∃ n, ipLen m = 20 + n := ⟨ipLen m - 20, by omega⟩
    have hblock : (setUdpChecksum m₁ 18).block (18 + 20) n = m.block (18 + 20) n := by
      refine block_congr fun i hi => ?_
      rw [Nat.add_assoc]
      refine hkeep (20 + i) (by omega) fun hf => ?_
      have := ht _ hf
      omega
    rw [hn, setIpChecksum_verifies_iff (hag.udp_first ha ht), hblock]
    rwa [hn, Nat.add_sub_cancel_left] at hopts
  · rw [setIpChecksum_apply (by omega), setIpChecksum_apply (by omega),
      hkeep _ (by omega) (hnot _ (by omega) (by omega)),
      hkeep _ (by omega) (hnot _ (by omega) (by omega))]
    exact hcheck
  · have h10 := ip_of_not_checksum hc
    rw [setIpChecksum_apply (by omega), hkeep o ho hf]

theorem rewritten_udp (ha : Admitted m) (hudp : protocol m 18 = IPPROTO_UDP) (hr : Restorable m)
    (ht : Translatable m field) (hport : ∀ o, field o → o < ipLen m + 6 ∨ ipLen m + 8 ≤ o)
    (hag : Agrees m field m₁) : Rewritten m field (setIpChecksum (setUdpChecksum m₁ 18) 18) := by
  rw [Restorable, if_neg (not_tcp_of_udp hudp)] at hr
  obtain h5 | ⟨h26, h27, hc₆, hc₇, hopts⟩ := hr
  · exact rewritten_udp_plain ha hudp h5 ht hag
  · exact rewritten_udp_options ha hudp ⟨h26, h27⟩ ⟨hc₆, hc₇⟩ hopts ht hport hag

theorem forwardChecksums_rewritten (ha : Admitted m) (hr : Restorable m) (ht : Translatable m field)
    (hport : protocol m 18 = IPPROTO_UDP → ∀ o, field o → o < ipLen m + 6 ∨ ipLen m + 8 ≤ o)
    (hag : Agrees m field m₁) : Rewritten m field (forwardChecksums m₁) := by
  unfold forwardChecksums
  rw [hag.protocol_eq ha ht]
  obtain htcp | hudp := ha.kind
  · rw [if_pos htcp]
    rw [Restorable, if_pos htcp] at hr
    exact rewritten_tcp ha htcp hr.1 ht hag
  · rw [if_neg (not_tcp_of_udp hudp), if_pos hudp]
    exact rewritten_udp ha hudp hr ht (hport hudp) hag

/-- The checksums of `nat` differ from those of the other functions for other protocols only. -/
theorem natChecksums_eq (ha : Admitted m) (ht : Translatable m field) (hag : Agrees m field m₁) :
    natChecksums m₁ = forwardChecksums m₁ := by
  unfold natChecksums forwardChecksums
  rw [hag.protocol_eq ha ht]
  obtain htcp | hudp := ha.kind
  · rw [if_pos htcp, if_pos htcp]
  · rw [if_pos hudp]

end

/-! ### The three functions -/

section

variable {b} {c : Conn} {m m' : Octets}

theorem natTranslate_ext {shost : MacAddr} {n : NatFields} {destination : Role} :
    natTranslate b shost n .ext destination =
      some (if n.dstVlan.vid ≠ 0 then
          pushTag (dnat (setDhost (setShost b shost) n.dstMac) n.dstIp) n.dstVlan
        else popTag (dnat (setDhost (setShost b shost) n.dstMac) n.dstIp)) := rfl

theorem natTranslate_intra {shost : MacAddr} {n : NatFields} {origin : Role} (h : origin ≠ .ext) :
    natTranslate b shost n origin .intra =
      some (changeTag (dnat (setDhost (setShost b shost) n.dstMac) n.dstIp) n.dstVlan) := by
  cases origin <;> first | rfl | exact absurd rfl h

theorem natTranslate_toExt {shost : MacAddr} {n : NatFields} {origin : Role} (h : origin ≠ .ext) :
    natTranslate b shost n origin .ext =
      some (popTag (snat (setDhost (setShost b shost) n.dstMac) n.srcIp)) := by
  cases origin <;> first | rfl | exact absurd rfl h

theorem natTranslate_hih {shost : MacAddr} {n : NatFields} {origin : Role} (h : origin ≠ .ext) :
    natTranslate b shost n origin .hih =
      some (changeTag (snat (setDhost (setShost b shost) n.dstMac) n.srcIp) n.dstVlan) := by
  cases origin <;> first | rfl | exact absurd rfl h

/-- `nat` translates one address, for the calls that are made of it. -/
theorem natTranslate_some (hf : b.Framed) (shost : MacAddr) (n : NatFields)
    {origin destination : Role} (hd : Directed origin destination) :
    ∃ b₁, natTranslate b shost n origin destination = some b₁ ∧ ∀ q, 18 ≤ q → b₁.mem q =
      (if origin = .ext ∨ destination = .intra then b.mem.write (18 + 16) (Octets.ofLe32 n.dstIp)
      else b.mem.write (18 + 12) (Octets.ofLe32 n.srcIp)) q := by
  have heth := hf.eth_le
  have hhosts : (setDhost (setShost b shost) n.dstMac).Framed := hf.setHosts
  have hmem : ∀ q, 18 ≤ q → (setDhost (setShost b shost) n.dstMac).mem q = b.mem q :=
    fun q hq => setHosts_mem (by omega)
  by_cases ho : origin = .ext
  · subst ho
    refine ⟨_, natTranslate_ext, fun q hq => ?_⟩
    have hext : Role.ext = .ext ∨ destination = .intra := .inl rfl
    rw [if_pos hext]
    split
    · rw [pushTag_mem hq]
      exact Octets.write_congr (hmem q hq)
    · rw [popTag_mem hq]
      exact Octets.write_congr (hmem q hq)
  · obtain rfl | rfl | rfl := hd.resolve_left ho
    · refine ⟨_, natTranslate_intra ho, fun q hq => ?_⟩
      rw [if_pos (.inr rfl), changeTag_mem hhosts.dnat hq]
      exact Octets.write_congr (hmem q hq)
    · refine ⟨_, natTranslate_toExt ho, fun q hq => ?_⟩
      rw [if_neg (by simp [ho]), popTag_mem hq]
      exact Octets.write_congr (hmem q hq)
    · refine ⟨_, natTranslate_hih ho, fun q hq => ?_⟩
      rw [if_neg (by simp [ho]), changeTag_mem hhosts.snat hq]
      exact Octets.write_congr (hmem q hq)

theorem translatable_nat {origin destination : Role} :
    Translatable m (NatField origin destination) := by
  intro o ho
  unfold NatField at ho
  split_ifs at ho <;> omega

theorem nat_rewritten (hf : b.Framed) (ha : Admitted b.mem) (hr : Restorable b.mem)
    (shost : MacAddr) (n : NatFields) {origin destination : Role}
    (hd : Directed origin destination) :
    Rewritten b.mem (NatField origin destination) (nat b shost n origin destination).mem := by
  obtain ⟨b₁, hb₁, hmem⟩ := natTranslate_some hf shost n hd
  have hag : Agrees b.mem (NatField origin destination) b₁.mem := by
    intro o ho hfield
    rw [hmem _ (by omega)]
    unfold NatField at hfield
    split_ifs at hfield ⊢ <;> exact Octets.write_of_notMem (by simp; omega)
  have hip := ha.ipLen_ge
  simp only [nat, hb₁]
  rw [natChecksums_eq ha translatable_nat hag]
  refine forwardChecksums_rewritten ha hr translatable_nat (fun _ o ho => ?_) hag
  unfold NatField at ho
  split_ifs at ho <;> omega

theorem l4_eq (m : Octets) : l4 m 18 = 18 + ipLen m := rfl

/-- Memory that differs from `m` in one address only, from the IP header on. -/
def AddressAt (m : Octets) (o : ℕ) (m₁ : Octets) : Prop :=
  ∀ q, 18 ≤ q → ¬(18 + o ≤ q ∧ q < 18 + o + 4) → m₁ q = m q

section

variable {m₁ : Octets} {o q : ℕ}

theorem AddressAt.protocol_eq (h : AddressAt m o m₁) (ho : 12 ≤ o) :
    protocol m₁ 18 = protocol m 18 :=
  h _ (by omega) (by omega)

theorem AddressAt.ipLen_eq (h : AddressAt m o m₁) (ho : 12 ≤ o) : ipLen m₁ = ipLen m := by
  rw [ipLen, ipLen, ihl, ihl, h 18 (by omega) (by omega)]

/-- Behind the IP header, everything is as it was. -/
theorem AddressAt.transport (h : AddressAt m o m₁) (ha : Admitted m) (ho : o ≤ 16)
    (hq : 18 + ipLen m ≤ q) : m₁ q = m q := by
  have := ha.ipLen_ge
  exact h q (by omega) (by omega)

theorem addressAt_write {b' : Buffer} (ip : IpAddr)
    (h : ∀ q, 18 ≤ q → b'.mem q = b.mem.write (18 + o) (Octets.ofLe32 ip) q) :
    AddressAt b.mem o b'.mem := by
  intro q hq hno
  rw [h q hq, Octets.write_of_notMem (by simp; omega)]

end

/-- `forward_ext2hih` translates an address, a port and the acknowledgement number, if there is
one. -/
theorem redirectExt2hih_agrees (ha : Admitted m) (h : AddressAt m 16 m') :
    Agrees m (Ext2hihField m) (redirectExt2hih c m') := by
  have hp := h.protocol_eq (by decide)
  have hl := h.ipLen_eq (by decide)
  intro o ho hf
  have hnot : ¬(18 + 16 ≤ 18 + o ∧ 18 + o < 18 + 16 + 4) := fun hr => hf (.inl (by omega))
  have hport : ¬(ipLen m + 2 ≤ o ∧ o < ipLen m + 4) := fun hr => hf (.inr (.inl hr))
  have hm : m' (18 + o) = m (18 + o) := h _ (by omega) hnot
  have hdest : ∀ v, m'.write (18 + ipLen m + 2) (Octets.ofLe16 v) (18 + o) = m (18 + o) := by
    intro v
    rw [Octets.write_of_notMem (by simp; omega), hm]
  unfold redirectExt2hih
  rw [l4_eq, hl, hp]
  dsimp only
  split_ifs with htcp hack hudp
  · have hflag : tcpFlag m (l4 m 18) 4 = true := by
      rw [l4_eq, tcpFlag, ← h.transport ha (by decide) (by omega)]
      rw [tcpFlag, Octets.write_of_notMem (by simp)] at hack
      exact hack
    have hseq : ¬(ipLen m + 8 ≤ o ∧ o < ipLen m + 12) :=
      fun hr => hf (.inr (.inr ⟨htcp, hflag, hr⟩))
    rw [Octets.write_of_notMem (by simp; omega), hdest]
  · exact hdest _
  · exact hdest _
  · exact hm

theorem ext2hih_rewritten (hfr : b.Framed) (ha : Admitted b.mem) (hr : Restorable b.mem)
    (shost : MacAddr) (h : Handler) (c : Conn) :
    Rewritten b.mem (Ext2hihField b.mem) (forwardExt2hih b shost h c).mem := by
  have heth := hfr.eth_le
  have haddr : AddressAt b.mem 16
      (forwardTag (dnat (setDhost (setShost b shost) h.mac) h.ip) h.vlan).mem := by
    refine addressAt_write h.ip fun q hq => ?_
    rw [forwardTag_mem hq]
    exact Octets.write_congr (setHosts_mem (by omega))
  have hip := ha.ipLen_ge
  refine forwardChecksums_rewritten ha hr (fun o ho => ?_) (fun hudp o ho => ?_)
    (redirectExt2hih_agrees ha haddr)
  · obtain h | h | ⟨-, -, h⟩ := ho <;> omega
  · obtain h | h | ⟨htcp, -⟩ := ho
    · omega
    · omega
    · exact absurd htcp (not_tcp_of_udp hudp)

/-- The options are where they were. -/
theorem renumber_apply {q : ℕ}
    (h : q < l4 m 18 ∨ (l4 m 18 + 2 ≤ q ∧ q < l4 m 18 + 4) ∨ l4 m 18 + 8 ≤ q) :
    renumber c m q = m q := by
  unfold renumber
  rw [Octets.write_of_notMem (by simp; omega), Octets.write_of_notMem (by simp; omega)]

theorem renumber_options (ha : Admitted m) (h : AddressAt m 12 m') {q : ℕ}
    (hq : l4 m 18 + 12 ≤ q) : renumber c m' q = m q := by
  have hl : l4 m' 18 = l4 m 18 := by rw [l4_eq, l4_eq, h.ipLen_eq (by decide)]
  rw [renumber_apply (by omega)]
  exact h.transport ha (by decide) (by rw [l4_eq] at hq; omega)

/-- `forward_hih2ext` translates an address, a port, the sequence number and the timestamp. -/
theorem redirectHih2ext_agrees {m₂ : Octets} {rounds : ℕ} (ha : Admitted m) (h : AddressAt m 12 m')
    (hin : protocol m 18 = IPPROTO_TCP → TimestampInside m (l4 m 18) (18 + (totLen m 18).toNat))
    (hm₂ : redirectHih2ext c rounds m' = some m₂) : Agrees m (Hih2extField m) m₂ := by
  have hp := h.protocol_eq (by decide)
  have hl : l4 m' 18 = l4 m 18 := by rw [l4_eq, l4_eq, h.ipLen_eq (by decide)]
  intro o ho hf
  have hnot : ¬(18 + 12 ≤ 18 + o ∧ 18 + o < 18 + 12 + 4) := fun hr => hf (.inl (by omega))
  have hport : ¬(ipLen m ≤ o ∧ o < ipLen m + 2) := fun hr => hf (.inr (.inl hr))
  have hm : m' (18 + o) = m (18 + o) := h _ (by omega) hnot
  by_cases htcp : protocol m 18 = IPPROTO_TCP
  · rw [redirectHih2ext, if_pos (hp.trans htcp), hl] at hm₂
    have hopt : ∀ q, l4 m 18 + 12 ≤ q → renumber c m' q = m q :=
      fun q hq => renumber_options ha h hq
    have hseq : ¬(ipLen m + 4 ≤ o ∧ o < ipLen m + 8) :=
      fun hr => hf (.inr (.inr ⟨htcp, .inl hr⟩))
    have hts : ¬TimestampField m (l4 m 18) (18 + o) :=
      fun hr => hf (.inr (.inr ⟨htcp, .inr hr⟩))
    rw [fix_agrees ((timestampInside_congr hopt).2 (hin htcp)) hm₂ (by omega)
      (fun hr => hts ((timestampField_congr hopt).1 hr)), renumber_apply, hm]
    rw [hl, l4_eq]
    omega
  · rw [redirectHih2ext, hp, if_neg htcp, hl] at hm₂
    split at hm₂
    · cases hm₂
      rw [Octets.write_of_notMem (by rw [l4_eq]; simp; omega), hm]
    · cases hm₂
      exact hm

theorem redirectHih2ext_returns (ha : Admitted m) (h : AddressAt m 12 m')
    (hs : protocol m 18 = IPPROTO_TCP → ∀ p, OptionAt m (l4 m 18) p → SoundAt m p) (c : Conn) :
    ∃ rounds m₂, redirectHih2ext c rounds m' = some m₂ := by
  have hp := h.protocol_eq (by decide)
  have hl : l4 m' 18 = l4 m 18 := by rw [l4_eq, l4_eq, h.ipLen_eq (by decide)]
  by_cases htcp : protocol m 18 = IPPROTO_TCP
  · have hsound := (sound_congr fun q hq => renumber_options (c := c) ha h hq).2 (hs htcp)
    obtain ⟨n, m₂, hfix⟩ := fix_returns hsound c
    exact ⟨n, m₂, by rw [redirectHih2ext, if_pos (hp.trans htcp), hl, hfix]⟩
  · refine ⟨0, if protocol m 18 = IPPROTO_UDP then
      m'.write (l4 m' 18) (Octets.ofLe16 c.hih.port) else m', ?_⟩
    rw [redirectHih2ext, hp, if_neg htcp]
    split <;> rfl

theorem showToExt_address (hfr : b.Framed) (c : Conn) : AddressAt b.mem 12 (showToExt b c).mem := by
  have heth := hfr.eth_le
  refine addressAt_write c.firstPktDstIp fun q hq => ?_
  rw [showToExt, popTag_mem hq]
  exact Octets.write_congr (setHosts_mem (by omega))

theorem hih2ext_rewritten (hfr : b.Framed) (ha : Admitted b.mem) (hr : Restorable b.mem)
    (c : Conn) :
    ∃ rounds b', forwardHih2ext b c rounds = some b' ∧
      Rewritten b.mem (Hih2extField b.mem) b'.mem := by
  have hip := ha.ipLen_ge
  have haddr := showToExt_address hfr c
  have hts : protocol b.mem 18 = IPPROTO_TCP →
      (∀ p, OptionAt b.mem (l4 b.mem 18) p → SoundAt b.mem p) ∧
        TimestampInside b.mem (l4 b.mem 18) (18 + (totLen b.mem 18).toNat) := by
    intro htcp
    rw [Restorable, if_pos htcp] at hr
    exact hr.2
  obtain ⟨n, m₂, hm₂⟩ := redirectHih2ext_returns ha haddr (fun htcp => (hts htcp).1) c
  refine ⟨n, _, by rw [forwardHih2ext, hm₂]; rfl, ?_⟩
  refine forwardChecksums_rewritten ha hr (fun o ho => ?_) (fun hudp o ho => ?_)
    (redirectHih2ext_agrees ha haddr (fun htcp => (hts htcp).2) hm₂)
  · obtain h | h | ⟨-, h | h⟩ := ho
    · omega
    · omega
    · omega
    · have := h.le
      rw [l4_eq] at this
      omega
  · obtain h | h | ⟨htcp, -⟩ := ho
    · omega
    · omega
    · exact absurd htcp (not_tcp_of_udp hudp)

end

/-! ### Packets that are not restored -/

section

variable {b} {m m' : Octets}

/-- What `tcp_checksum` sums grows with the destination address. -/
theorem leSum_overlaid_address (h : AddressAt m 16 m') :
    leSum (overlaid m' 18) + leSum (m.block 34 4) =
      leSum (overlaid m 18) + leSum (m'.block 34 4) := by
  have hsize : hdrdataSize m' 18 = hdrdataSize m 18 :=
    hdrdataSize_congr (h _ (by omega) (by omega)) (h _ (by omega) (by omega))
      (h _ (by omega) (by omega))
  have hsrc : m'.block 30 4 = m.block 30 4 :=
    block_congr fun i hi => h _ (by omega) (by omega)
  have hseg : ∀ n, m'.block 38 n = m.block 38 n := fun n =>
    block_congr fun i hi => h _ (by omega) (by omega)
  have hsplit : ∀ x : Octets, leSum (overlaid x 18) = leSum (x.block 30 4) + leSum (x.block 34 4) +
      leSum [0, IPPROTO_TCP, (hdrdataSize x 18).extractLsb' 8 8,
        (hdrdataSize x 18).extractLsb' 0 8] + leSum (x.block 38 (hdrdataSize x 18).toNat) := by
    intro x
    rw [overlaid, leSum_append (by simp), pseudohdr, leSum_append (by simp),
      leSum_block_add (o := 18 + 12) (n := 4) (k := 4) rfl]
  rw [hsplit m', hsplit m, hsize, hsrc, hseg]
  omega

/-- The translation of a packet of EXT. -/
theorem nat_ext_mem (hfr : b.Framed) (shost : MacAddr) (n : NatFields) :
    ∃ m₁ : Octets, (∀ q, 18 ≤ q → m₁ q = b.mem.write (18 + 16) (Octets.ofLe32 n.dstIp) q) ∧
      (nat b shost n .ext .lih).mem = natChecksums m₁ := by
  have hd : Directed .ext .lih := .inl rfl
  obtain ⟨b₁, hb₁, hmem⟩ := natTranslate_some hfr shost n hd
  refine ⟨b₁.mem, fun q hq => ?_, by simp only [nat, hb₁]⟩
  rw [hmem q hq, if_pos (by simp)]

theorem Admitted.ipLen_of_ne (ha : Admitted m) (h : ihl m 18 ≠ 5) : 24 ≤ ipLen m := by
  have hge := ha.ihl_ge
  have hne : (ihl m 18).toNat ≠ 5 := fun h' => h (BitVec.eq_of_toNat_eq h')
  unfold ipLen
  omega

/-- Behind IP options, the octets where `set_tcp_checksum` stores its result must be what they
were: they were the checksum already. -/
theorem tcp_sum_of_nat (hfr : b.Framed) (ha : Admitted b.mem)
    (htcp : protocol b.mem 18 = IPPROTO_TCP) (h24 : 24 ≤ ipLen b.mem) {n : NatFields}
    (hv : Rewritten b.mem (NatField .ext .lih) (nat b 0 n .ext .lih).mem) :
    ∃ z : Octets,
      (∀ q, 18 ≤ q →
        z q = ((b.mem.write (18 + 16) (Octets.ofLe32 n.dstIp)).write 54 (Octets.ofLe16 0)) q) ∧
      (leSum (overlaid z 18) + leSum (b.mem.block 54 2)) % 65535 = 0 := by
  obtain ⟨m₁, hm₁, hnat⟩ := nat_ext_mem hfr 0 n
  have hlen := ha.covers
  have hdoff := ha.doff htcp
  have hproto : protocol m₁ 18 = IPPROTO_TCP := by
    rw [← htcp, protocol, hm₁ _ (by omega), Octets.write_of_notMem (by simp)]
    rfl
  obtain ⟨z, hz⟩ : ∃ z, m₁.write 54 (Octets.ofLe16 0) = z := ⟨_, rfl⟩
  have hset : setTcpChecksum m₁ 18 = z.write 54 (Octets.ofLe16 (tcpChecksum z 18)) := by
    rw [← hz]
    rfl
  have hkeep : ∀ o, o = 36 ∨ o = 37 → setTcpChecksum m₁ 18 (18 + o) = b.mem (18 + o) := by
    intro o ho
    have hun := hv.unchanged o (by omega) ?_ ?_
    · rw [hnat, natChecksums, if_pos hproto, setIpChecksum_apply (by omega)] at hun
      exact hun
    · rw [NatField, if_pos (.inl rfl)]
      omega
    · rintro (h | ⟨-, h⟩ | ⟨hudp, -⟩)
      · omega
      · omega
      · exact not_tcp_of_udp hudp htcp
  have hword : b.mem.block 54 2 = Octets.ofLe16 (tcpChecksum z 18) := by
    rw [← block_write_self z 54 (Octets.ofLe16 (tcpChecksum z 18)), ← hset]
    refine block_congr fun i hi => ?_
    have hi' := hkeep (36 + i) (by omega)
    rwa [← Nat.add_assoc, eq_comm] at hi'
  have hsize : 20 ≤ (hdrdataSize z 18).toNat := by
    have hz₁ : ∀ q, 18 ≤ q → q < 22 → z q = b.mem q := fun q hq hq' => by
      rw [← hz, write_outside (by omega), hm₁ q hq, Octets.write_of_notMem (by simp; omega)]
    have heq : hdrdataSize z 18 = hdrdataSize b.mem 18 :=
      hdrdataSize_congr (hz₁ _ (by omega) (by omega)) (hz₁ _ (by omega) (by omega))
        (hz₁ _ (by omega) (by omega))
    rw [heq, ha.hdrdataSize_toNat]
    omega
  obtain ⟨hpos, hlt⟩ := leSum_overlaid_bounds z 18
  refine ⟨z, fun q hq => ?_, ?_⟩
  · rw [← hz]
    exact Octets.write_congr (hm₁ q hq)
  · rw [hword, leSum_ofLe16, tcpChecksum_eq hsize]
    exact (inCksum_spec hlt hpos).1

/-- The TCP checksum is stored in the flags, the acknowledgement or the sequence number of a packet
with IP options, and changes with the address. -/
theorem ihl_of_nat_tcp (hfr : b.Framed) (ha : Admitted b.mem)
    (htcp : protocol b.mem 18 = IPPROTO_TCP)
    (hv : ∀ n, Rewritten b.mem (NatField .ext .lih) (nat b 0 n .ext .lih).mem) :
    ihl b.mem 18 = 5 := by
  by_contra h5
  have h24 := ha.ipLen_of_ne h5
  -- the sums for two addresses that differ by one cannot both be completed by the same word
  obtain ⟨x, hx, hsum₀⟩ := tcp_sum_of_nat hfr ha htcp h24 (hv { dstMac := 0, dstIp := 0 })
  obtain ⟨y, hy, hsum₁⟩ := tcp_sum_of_nat hfr ha htcp h24 (hv { dstMac := 0, dstIp := 1 })
  have hblock : ∀ (z : Octets) (d : IpAddr),
      (∀ q, 18 ≤ q →
        z q = ((b.mem.write (18 + 16) (Octets.ofLe32 d)).write 54 (Octets.ofLe16 0)) q) →
      z.block 34 4 = Octets.ofLe32 d := by
    intro z d hz
    rw [← block_write_self b.mem 34 (Octets.ofLe32 d)]
    refine block_congr fun i hi => ?_
    rw [hz _ (by omega), write_outside (by omega)]
  have haddr : AddressAt x 16 y := by
    intro q hq hno
    rw [hx q hq, hy q hq]
    refine Octets.write_congr ?_
    rw [Octets.write_of_notMem (by simp; omega), Octets.write_of_notMem (by simp; omega)]
  have hdiff := leSum_overlaid_address haddr
  rw [hblock x 0 hx, hblock y 1 hy] at hdiff
  have h₀ : leSum (Octets.ofLe32 0) = 0 := by decide
  have h₁ : leSum (Octets.ofLe32 1) = 1 := by decide
  omega

/-- The options of a UDP packet, its checksum and the octets that are cleared in its place. -/
theorem restorable_of_nat_udp (hfr : b.Framed) (ha : Admitted b.mem)
    (hudp : protocol b.mem 18 = IPPROTO_UDP) {n : NatFields}
    (hv : Rewritten b.mem (NatField .ext .lih) (nat b 0 n .ext .lih).mem) : Restorable b.mem := by
  have hne := not_tcp_of_udp hudp
  rw [Restorable, if_neg hne]
  by_cases h5 : ihl b.mem 18 = 5
  · exact .inl h5
  have h24 := ha.ipLen_of_ne h5
  have hlen := ha.len_ge
  obtain ⟨m₁, hm₁, hnat⟩ := nat_ext_mem hfr 0 n
  have hm₁' : ∀ o, o < 16 ∨ 20 ≤ o → m₁ (18 + o) = b.mem (18 + o) := fun o ho => by
    rw [hm₁ _ (by omega), Octets.write_of_notMem (by simp; omega)]
  have hproto : protocol m₁ 18 ≠ IPPROTO_TCP := by
    rw [protocol, hm₁' 9 (by omega)]
    exact hne
  have hmem : (nat b 0 n .ext .lih).mem = setIpChecksum (setUdpChecksum m₁ 18) 18 := by
    rw [hnat, natChecksums, if_neg hproto]
  -- the cleared octets are neither translated nor the checksum
  have hclear : ∀ o, o = 26 ∨ o = 27 → b.mem (18 + o) = 0 := by
    intro o ho
    have hun := hv.unchanged o (by omega) ?_ ?_
    · rw [hmem, setIpChecksum_apply (by omega), setUdpChecksum_zero (by omega)] at hun
      exact hun.symm
    · rw [NatField, if_pos (.inl rfl)]
      omega
    · rintro (h | ⟨htcp, -⟩ | ⟨-, h⟩)
      · omega
      · exact hne htcp
      · omega
  have hkeep : ∀ o, 20 ≤ o → setUdpChecksum m₁ 18 (18 + o) = b.mem (18 + o) := by
    intro o ho
    by_cases h26 : o = 26 ∨ o = 27
    · rw [setUdpChecksum_zero (by omega), hclear o h26]
    · rw [setUdpChecksum_apply (by omega), hm₁' o (.inr ho)]
  have hcheck := hv.udp hudp
  rw [hmem, setIpChecksum_apply (by omega), setIpChecksum_apply (by omega), hkeep _ (by omega),
    hkeep _ (by omega)] at hcheck
  have hfirst : setUdpChecksum m₁ 18 18 ≠ 0 := by
    rw [setUdpChecksum_apply (by omega)]
    exact (hm₁' 0 (by omega)) ▸ ha.version
  obtain ⟨k, hk⟩ : ∃ k, ipLen b.mem = 20 + k := ⟨ipLen b.mem - 20, by omega⟩
  have hblock : (setUdpChecksum m₁ 18).block (18 + 20) k = b.mem.block (18 + 20) k :=
    block_congr fun i _ => by
      rw [Nat.add_assoc]
      exact hkeep _ (by omega)
  have hip := hv.ip
  rw [hmem, hk, setIpChecksum_verifies_iff hfirst, hblock] at hip
  refine .inr ⟨hclear 26 (.inl rfl), hclear 27 (.inr rfl), hcheck.1, hcheck.2, ?_⟩
  rwa [hk, Nat.add_sub_cancel_left]

/-- A redirected connection whose timestamps differ by `diff`. -/
def outOfSync (diff : ℤ) : Conn where
  protocol := IPPROTO_TCP
  accessTime := 0
  tcpTsDiff := diff
  state := .forward
  initiator := .ext
  destination := .lih
  firstPktSrcMac := 0
  firstPktDstMac := 0
  firstPktSrcIp := 0
  firstPktDstIp := 0
  firstPktSrcPort := 0
  firstPktDstPort := 0
  target := 0
  replayProblem := { tcpTsOutOfSync := true }

/-- What `forward_hih2ext` leaves of a packet of such a connection. -/
theorem fix_of_hih2ext (hfr : b.Framed) (htcp : protocol b.mem 18 = IPPROTO_TCP)
    {c : Conn} {rounds : ℕ} {b' : Buffer} (h : forwardHih2ext b c rounds = some b') :
    ∃ m₂, fixTcpTimestamps (renumber c (showToExt b c).mem) (l4 b.mem 18) c rounds = some m₂ ∧
      b'.mem = forwardChecksums m₂ := by
  have haddr := showToExt_address hfr c
  have hp := haddr.protocol_eq (by decide)
  have hl : l4 (showToExt b c).mem 18 = l4 b.mem 18 := by
    rw [l4_eq, l4_eq, haddr.ipLen_eq (by decide)]
  obtain ⟨m₂, hm₂, rfl⟩ := Option.map_eq_some_iff.1 h
  rw [redirectHih2ext, if_pos (hp.trans htcp), hl] at hm₂
  exact ⟨m₂, hm₂, rfl⟩

theorem showToExt_options (hfr : b.Framed) (ha : Admitted b.mem) (c : Conn) (q : ℕ)
    (hq : l4 b.mem 18 + 12 ≤ q) : renumber c (showToExt b c).mem q = b.mem q :=
  renumber_options ha (showToExt_address hfr c) hq

theorem sound_of_hih2ext (hfr : b.Framed) (ha : Admitted b.mem)
    (htcp : protocol b.mem 18 = IPPROTO_TCP) {diff : ℤ} {rounds : ℕ} {b' : Buffer}
    (h : forwardHih2ext b (outOfSync diff) rounds = some b') :
    ∀ p, OptionAt b.mem (l4 b.mem 18) p → SoundAt b.mem p := by
  obtain ⟨m₂, hfix, -⟩ := fix_of_hih2ext hfr htcp h
  exact (sound_congr (showToExt_options hfr ha _)).1 fun p hp => soundAt_of_fix rfl rfl hfix hp

/-- The checksums are stored behind the first octets of the IP header and before the options of a
TCP header. -/
theorem forwardChecksums_apply {q : ℕ} (hq : q < 28 ∨ 56 ≤ q) : forwardChecksums m q = m q := by
  unfold forwardChecksums
  rw [setIpChecksum_apply (by omega)]
  split_ifs
  · exact setTcpChecksum_apply (by omega)
  · exact setUdpChecksum_apply (by omega)
  · rfl

/-- There is a difference for which every octet of the value of a timestamp changes: it makes the
new value the complement of the old one. -/
theorem exists_value_ne (hfr : b.Framed) (ha : Admitted b.mem)
    (htcp : protocol b.mem 18 = IPPROTO_TCP) {p : ℕ} (hp : OptionAt b.mem (l4 b.mem 18) p)
    (hk : b.mem p = TCPOPT_TIMESTAMP) :
    ∃ c, ∀ rounds b', forwardHih2ext b c rounds = some b' →
      ∀ i < 4, b'.mem (p + 2 + i) ≠ b.mem (p + 2 + i) := by
  have hip := ha.ipLen_ge
  have hple := hp.le
  rw [l4_eq] at hple
  obtain ⟨v, hv⟩ : ∃ v, b.mem.be32 (p + 2) = v := ⟨_, rfl⟩
  obtain ⟨c, hc⟩ : ∃ c, outOfSync ((~~~v - v).toNat : ℤ) = c := ⟨_, rfl⟩
  refine ⟨c, fun rounds b' hb' i hi => ?_⟩
  obtain ⟨m₂, hfix, hmem⟩ := fix_of_hih2ext hfr htcp hb'
  obtain ⟨r, hr⟩ : ∃ r, renumber c (showToExt b c).mem = r := ⟨_, rfl⟩
  have hopt : ∀ q, l4 b.mem 18 + 12 ≤ q → r q = b.mem q := by
    rw [← hr]
    exact showToExt_options hfr ha c
  rw [l4_eq] at hopt
  have hword : r.be32 (p + 2) = v := by
    rw [← hv]
    exact Octets.be32_congr fun i hi => hopt _ (by omega)
  have hnew : v + BitVec.ofInt 32 c.tcpTsDiff = ~~~v := by
    rw [← hc, outOfSync, BitVec.ofInt_natCast, BitVec.ofNat_toNat, BitVec.setWidth_eq,
      BitVec.add_comm, BitVec.sub_add_cancel]
  rw [hr] at hfix
  have hwrite := fix_eq_write (hc ▸ rfl) (hc ▸ rfl) hfix ((optionAt_congr hopt).2 hp)
    ((hopt p (by omega)).trans hk)
  rw [hword, hnew, ← hword] at hwrite
  rw [hmem, forwardChecksums_apply (by omega), hwrite, ← hopt (p + 2 + i) (by omega)]
  exact Octets.write_not_ne hi

/-- The value of a timestamp option that is cut off by the end of the header is written into the
payload. -/
theorem inside_of_hih2ext (hfr : b.Framed) (ha : Admitted b.mem)
    (htcp : protocol b.mem 18 = IPPROTO_TCP) (h5 : ihl b.mem 18 = 5)
    (hv : ∀ c, ∃ rounds b', forwardHih2ext b c rounds = some b' ∧
      Rewritten b.mem (Hih2extField b.mem) b'.mem) :
    TimestampInside b.mem (l4 b.mem 18) (18 + (totLen b.mem 18).toNat) := by
  intro p hp hk
  by_contra hno
  have hlen := ipLen_eq h5
  have hl : l4 b.mem 18 = 38 := by rw [l4_eq, hlen]
  have hple := hp.le
  have hplt := hp.lt_doff
  have hal := hp.not_aligned (by omega)
  obtain ⟨c, hne⟩ := exists_value_ne hfr ha htcp hp hk
  obtain ⟨rounds, b', hb', hrw⟩ := hv c
  -- the first octet behind the header is neither translated nor a checksum
  obtain ⟨i, hi⟩ : ∃ i, l4 b.mem 18 + (doff b.mem (l4 b.mem 18)).toNat * 4 = p + 2 + i :=
    ⟨l4 b.mem 18 + (doff b.mem (l4 b.mem 18)).toNat * 4 - (p + 2), by omega⟩
  have hun := hrw.unchanged (p + 2 + i - 18) (by omega) ?_ ?_
  · rw [Nat.add_sub_cancel' (by omega)] at hun
    exact hne rounds b' hb' i (by omega) hun
  · rintro (h | h | ⟨-, h | h | ⟨p', -, -, -, -, h⟩⟩)
    · omega
    · omega
    · omega
    · simp [hal] at h
    · omega
  · rintro (h | ⟨-, h⟩ | ⟨hudp, -⟩)
    · omega
    · omega
    · exact not_tcp_of_udp hudp htcp

/-! ### Admitted packets -/

/-- A packet is rewritten as it must be if and only if it is restorable. -/
theorem valid_iff (hfr : b.Framed) (ha : Admitted b.mem) : Valid b ↔ Restorable b.mem := by
  constructor
  · intro hv
    have hnat : ∀ n, Rewritten b.mem (NatField .ext .lih) (nat b 0 n .ext .lih).mem :=
      fun n => hv.nat 0 n .ext .lih (.inl rfl)
    obtain htcp | hudp := ha.kind
    · have h5 := ihl_of_nat_tcp hfr ha htcp hnat
      obtain ⟨rounds, b', hb', -⟩ := hv.hih2ext (outOfSync 0)
      rw [Restorable, if_pos htcp]
      exact ⟨h5, sound_of_hih2ext hfr ha htcp hb', inside_of_hih2ext hfr ha htcp h5 hv.hih2ext⟩
    · exact restorable_of_nat_udp hfr ha hudp (hnat { dstMac := 0 })
  · intro hr
    exact ⟨fun shost n origin destination hd => nat_rewritten hfr ha hr shost n hd,
      ext2hih_rewritten hfr ha hr, hih2ext_rewritten hfr ha hr⟩

end

section

variable {l : Listener} {c : Capture} {p : Packet}

/-- The IP header of a packet is at offset 18 of its buffer. -/
theorem buffer_apply (h : p.ip ≤ 18) (o : ℕ) : p.buffer.mem (18 + o) = p.frame (p.ip + o) :=
  congrArg p.frame (by omega)

theorem buffer_ihl (h : p.ip ≤ 18) : ihl p.buffer.mem 18 = ihl p.frame p.ip :=
  congrArg (BitVec.extractLsb' 0 4) (buffer_apply h 0)

theorem buffer_totLen (h : p.ip ≤ 18) : totLen p.buffer.mem 18 = totLen p.frame p.ip :=
  congrArg₂ (· ++ ·) (buffer_apply h 2) (buffer_apply h 3)

theorem buffer_protocol (h : p.ip ≤ 18) : protocol p.buffer.mem 18 = protocol p.frame p.ip :=
  buffer_apply h 9

theorem buffer_l4Len (h : p.ip ≤ 18) : l4Len p.buffer.mem 18 = l4Len p.frame p.ip := by
  have hdoff : doff p.buffer.mem (l4 p.buffer.mem 18) = doff p.frame (l4 p.frame p.ip) := by
    rw [doff, doff, l4, l4, buffer_ihl h, Nat.add_assoc, Nat.add_assoc, buffer_apply h]
  rw [l4Len, l4Len, buffer_protocol h, hdoff]

/-- A packet that was accepted is tagged if and only if its IP header is four octets further. -/
theorem buffer_framed (h : (processPacket l c).val = some p) : p.ip ≤ 18 ∧ p.buffer.Framed := by
  obtain ⟨hip, -, -, hinit⟩ := processPacket_some h
  rw [← hinit.frame] at hip
  unfold ipOffset at hip
  split_ifs at hip with he hv
  · have h14 : p.ip = 14 := (Option.some.inj hip).symm
    have heth : p.buffer.eth = 4 := by rw [Packet.buffer, h14]
    have htype : p.buffer.mem.be16 (p.buffer.eth + 12) = ETHERTYPE_IP := by
      rw [heth, ← he, Packet.buffer, h14]
      rfl
    refine ⟨by omega, .inl ⟨heth, ?_⟩⟩
    rw [Buffer.tagged, htype]
    decide
  · have h18 : p.ip = 18 := (Option.some.inj hip).symm
    exact ⟨by omega, .inr (by rw [Packet.buffer, h18])⟩

theorem buffer_admitted (h : (processPacket l c).val = some p)
    (hcov : (ihl p.frame p.ip).toNat * 4 + l4Len p.frame p.ip ≤ (totLen p.frame p.ip).toNat) :
    Admitted p.buffer.mem := by
  obtain ⟨hle, -⟩ := buffer_framed h
  obtain ⟨-, h₅, h₈, hinit⟩ := processPacket_some h
  have hkind := hinit.kind
  have hlen := hinit.le_l4Len
  rw [← hinit.frame] at h₅ h₈ hkind hlen
  refine ⟨?_, ?_, ?_, ?_, fun htcp => ?_⟩
  · rw [buffer_protocol hle]
    exact hkind.imp_left And.left
  · rw [buffer_ihl hle]
    exact h₅
  · rw [buffer_ihl hle]
    exact h₈
  · rw [ipLen, buffer_ihl hle, buffer_l4Len hle, buffer_totLen hle]
    exact hcov
  · rw [buffer_l4Len hle]
    exact hlen (buffer_protocol hle ▸ htcp)

/-- A packet that was accepted, whose total length covers its headers and does not exceed the
capture. -/
structure Whole (l : Listener) (c : Capture) (p : Packet) : Prop where
  accepted : (processPacket l c).val = some p
  captured : p.fragmented = false
  covers : (ihl p.frame p.ip).toNat * 4 + l4Len p.frame p.ip ≤ (totLen p.frame p.ip).toNat

/-- **Rewriting.** Every rewriting of a whole packet leaves valid checksums and changes the
translated fields only, if and only if the packet is restorable. -/
theorem rewriting_iff (h : Whole l c p) : Valid p.buffer ↔ Restorable p.buffer.mem :=
  valid_iff (buffer_framed h.accepted).2 (buffer_admitted h.accepted h.covers)

theorem rewriting_syn :
    ∃ p, Whole { target := true, mac := 0 } Sample.synFrame p ∧ Valid p.buffer := by
  obtain ⟨p, hp⟩ : ∃ p, (processPacket { target := true, mac := 0 } Sample.synFrame).val = some p :=
    ⟨_, rfl⟩
  have hwhole : Whole { target := true, mac := 0 } Sample.synFrame p := by
    refine ⟨hp, ?_, ?_⟩ <;> cases hp <;> decide
  have hdoff : doff p.buffer.mem (l4 p.buffer.mem 18) = 5 := by
    cases hp
    rfl
  have h5 : ihl p.buffer.mem 18 = 5 := by
    cases hp
    rfl
  refine ⟨p, hwhole, (rewriting_iff hwhole).2 ?_⟩
  unfold Restorable
  split
  · exact ⟨h5, fun q hq => absurd hq (not_optionAt_of_doff hdoff),
      fun q hq => absurd hq (not_optionAt_of_doff hdoff)⟩
  · exact .inl h5

/-- A TCP packet with four octets of IP options. -/
def Sample.optionsFrame : Capture where
  len := 60
  caplen := 60
  bytes := Octets.write (fun _ => 0) 12
    [0x08, 0x00, 0x46, 0, 0x00, 0x2c, 0, 0, 0, 0, 0x40, 0x06, 0, 0, 198, 51, 100, 7, 192, 0, 2, 1,
      1, 1, 1, 0, 0x30, 0x39, 0x00, 0x50, 0, 0, 0, 1, 0, 0, 0, 0, 0x50, 0x02]

/-- The checksum of a TCP packet with IP options is stored in another field. -/
theorem rewriting_broken :
    ¬∀ (l : Listener) (c : Capture) (p : Packet), Whole l c p → Valid p.buffer := by
  intro h
  obtain ⟨l, p, hp, hwhole, h6, htcp⟩ : ∃ l p,
      (processPacket l Sample.optionsFrame).val = some p ∧ Whole l Sample.optionsFrame p ∧
        ihl p.buffer.mem 18 = 6 ∧ protocol p.buffer.mem 18 = IPPROTO_TCP :=
    ⟨{ target := true, mac := 0 }, _, rfl, ⟨rfl, rfl, by decide⟩, rfl, rfl⟩
  have hv := h l Sample.optionsFrame p hwhole
  have h5 := ihl_of_nat_tcp (buffer_framed hp).2 (buffer_admitted hp hwhole.covers) htcp
    fun n => hv.nat 0 n .ext .lih (.inl rfl)
  rw [h6] at h5
  exact absurd h5 (by decide)

end

end Wire

end Honeybrid
