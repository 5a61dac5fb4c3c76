import Honeybrid.Rewriting
import Honeybrid.Timestamps

/-!
# Octets and fields

The functions that rewrite a packet are modelled twice: over the octets of its buffer, and over the
fields of its frame, which is what the engine works on. For the packets without IP options the two
agree: if a buffer shows a packet, it shows the rewritten packet after the rewriting. With IP
options, the checksums are stored in fields of the transport header.

## Main definitions

* `Linked`, `Carries`: the headers of a frame in a buffer.
* `Shows`: a packet in its buffer.

## Main results

* `buffer_shows`: `init_pkt` leaves the buffer of its packet.
* `nat_shows`, `forwardExt2hih_shows`, `forwardHih2ext_shows`: the rewritings.
-/

namespace Honeybrid

namespace Wire

/-! ### Frames in a buffer -/

/-- The TCP header at `th`. -/
def tcpHdr (m : Octets) (th : ℕ) : TcpHdr where
  seq := m.be32 (th + 4)
  ackSeq := m.be32 (th + 8)
  doff := doff m th
  syn := tcpFlag m th 1
  ack := tcpFlag m th 4
  fin := tcpFlag m th 0
  rst := tcpFlag m th 2
  ts := timestamp m th

/-- The Ethernet header of a frame, with or without a tag. -/
structure Linked (b : Buffer) (f : Frame) : Prop where
  dhost : b.mem.be48 b.eth = f.dhost
  shost : b.mem.be48 (b.eth + 6) = f.shost
  tag : (b.eth = 4 ∧ b.mem.be16 16 = ETHERTYPE_IP ∧ f.vlan = none) ∨
    (b.eth = 0 ∧ b.mem.be16 12 = ETHERTYPE_VLAN ∧ f.vlan = some ⟨b.mem.le16 14⟩)

/-- The length of the transport header of a frame. -/
def headerLen (f : Frame) : ℕ :=
  if f.protocol = IPPROTO_TCP then f.tcp.doff.toNat * 4 else 8

/-- A TCP or UDP packet without IP options, from offset 18 on. -/
structure Carries (m : Octets) (f : Frame) : Prop where
  kind : f.protocol = IPPROTO_TCP ∨ f.protocol = IPPROTO_UDP
  ihl : ihl m 18 = 5 ∧ f.ihl = 5
  totLen : m.be16 20 = f.totLen
  protocol : m 27 = f.protocol
  saddr : m.le32 30 = f.saddr
  daddr : m.le32 34 = f.daddr
  source : m.le16 38 = f.source
  dest : m.le16 40 = f.dest
  tcp : f.protocol = IPPROTO_TCP → tcpHdr m 38 = f.tcp ∧ 5 ≤ f.tcp.doff.toNat
  payload : m.block (38 + headerLen f) (f.totLen.toNat - 20 - headerLen f) = f.payload

/-- The buffer of a packet. -/
structure Shows (b : Buffer) (pkt : Pkt) : Prop where
  linked : Linked b pkt.packet
  carries : Carries b.mem pkt.packet
  size : b.size = pkt.size

/-! ### The Ethernet header -/

section

variable {b b' : Buffer} {f : Frame} {mac : MacAddr} {v : VlanTci}

theorem be48_write {m : Octets} {o : ℕ} (a : MacAddr) : (m.write o (macOctets a)).be48 o = a := by
  simp only [Octets.be48, Octets.write, macOctets, Nat.le_refl, Nat.le_add_right, Nat.sub_self,
    ↓reduceIte, Nat.add_sub_cancel_left]
  ext i hi
  grind

/-- What is written behind the Ethernet header leaves it alone. -/
theorem Linked.congr {f' : Frame} (h : Linked b f) (he : b'.eth = b.eth)
    (hm : ∀ q < 18, b'.mem q = b.mem q) (hd : f'.dhost = f.dhost) (hs : f'.shost = f.shost)
    (hv : f'.vlan = f.vlan) : Linked b' f' := by
  have hle : b.eth ≤ 4 := by
    obtain ⟨h, -⟩ | ⟨h, -⟩ := h.tag <;> omega
  refine ⟨?_, ?_, ?_⟩
  · rw [he, hd, ← h.dhost]
    exact Octets.be48_congr fun i hi => hm _ (by omega)
  · rw [he, hs, ← h.shost]
    exact Octets.be48_congr fun i hi => hm _ (by omega)
  · have h₁₂ : b'.mem.be16 12 = b.mem.be16 12 := Octets.be16_congr fun i hi => hm _ (by omega)
    have h₁₄ : b'.mem.le16 14 = b.mem.le16 14 := Octets.le16_congr fun i hi => hm _ (by omega)
    have h₁₆ : b'.mem.be16 16 = b.mem.be16 16 := Octets.be16_congr fun i hi => hm _ (by omega)
    rw [he, hv, h₁₂, h₁₄, h₁₆]
    exact h.tag

theorem Linked.hosts (h : Linked b f) (s d : MacAddr) :
    Linked (setDhost (setShost b s) d) { f with shost := s, dhost := d } := by
  have hm : ∀ q, b.eth + 12 ≤ q → (setDhost (setShost b s) d).mem q = b.mem q :=
    fun q hq => setHosts_mem hq
  refine ⟨be48_write d, ?_, ?_⟩
  · rw [setDhost, setShost]
    dsimp only
    rw [Octets.be48_congr (m := b.mem.write (b.eth + 6) (macOctets s)) (o := b.eth + 6), be48_write]
    intro i hi
    exact Octets.write_of_notMem (.inr (by simp))
  · obtain ⟨he, ht, hv⟩ | ⟨he, ht, hv⟩ := h.tag
    · refine .inl ⟨he, ?_, hv⟩
      rw [← ht]
      exact Octets.be16_congr fun i hi => hm _ (by omega)
    · refine .inr ⟨he, ?_, ?_⟩
      · rw [← ht]
        exact Octets.be16_congr fun i hi => hm _ (by omega)
      · rw [Octets.le16_congr (m := b.mem) (o := 14) fun i hi => hm _ (by omega)]
        exact hv

theorem Linked.tagged_eq (h : Linked b f) : b.tagged = f.vlan.isSome := by
  have hne : ETHERTYPE_IP ≠ ETHERTYPE_VLAN := by decide
  unfold Buffer.tagged
  obtain ⟨he, ht, hv⟩ | ⟨he, ht, hv⟩ := h.tag
  · simp [he, ht, hv, hne]
  · simp [he, ht, hv]

theorem Linked.eth_eq_zero (h : Linked b f) (ht : b.tagged = true) :
    b.eth = 0 ∧ b.mem.be16 12 = ETHERTYPE_VLAN := by
  rw [h.tagged_eq] at ht
  obtain ⟨-, -, hv⟩ | ⟨he, htype, -⟩ := h.tag
  · rw [hv] at ht
    cases ht
  · exact ⟨he, htype⟩

theorem Linked.framed (h : Linked b f) : b.Framed := by
  obtain ⟨he, -, hv⟩ | ⟨he, -⟩ := h.tag
  · exact .inl ⟨he, by rw [h.tagged_eq, hv]; rfl⟩
  · exact .inr he

/-- The three fields of a VLAN header, behind the addresses. -/
theorem setVlanHeader_fields (v : VlanTci) (m : Octets) :
    (∀ q < 12, setVlanHeader v m q = m q) ∧
      (setVlanHeader v m).be16 12 = ETHERTYPE_VLAN ∧ (setVlanHeader v m).le16 14 = v.i := by
  refine ⟨fun q hq => ?_, ?_, ?_⟩
  · unfold setVlanHeader
    rw [Octets.write_of_notMem (.inl (by omega)), Octets.write_of_notMem (.inl (by omega)),
      Octets.write_of_notMem (.inl (by omega))]
  · simp [setVlanHeader, Octets.be16, Octets.write]
    rfl
  · exact Octets.le16_write v.i

/-- The addresses of a frame whose Ethernet header was moved. -/
theorem Linked.moved {m : Octets} {k : ℕ} (h : Linked b f)
    (hm : ∀ i < 12, m (k + i) = b.mem (b.eth + i)) :
    m.be48 k = f.dhost ∧ m.be48 (k + 6) = f.shost := by
  rw [← h.dhost, ← h.shost]
  refine ⟨Octets.be48_congr fun i hi => hm i (by omega), Octets.be48_congr fun i hi => ?_⟩
  rw [Nat.add_assoc, Nat.add_assoc]
  exact hm (6 + i) (by omega)

theorem Linked.pushTag (h : Linked b f) (v : VlanTci) :
    Linked (pushTag b v) { f with vlan := some v } := by
  obtain ⟨hm, htype, htci⟩ :=
    setVlanHeader_fields v (b.mem.write 0 (b.mem.block b.eth ETHER_HDR_LEN))
  have hmoved : ∀ i < 12, (Wire.pushTag b v).mem (0 + i) = b.mem (b.eth + i) := by
    intro i hi
    simp only [Wire.pushTag]
    rw [hm _ (by omega)]
    exact Octets.write_block (by rw [ETHER_HDR_LEN]; omega)
  obtain ⟨hd, hs⟩ := h.moved hmoved
  exact ⟨hd, hs, .inr ⟨rfl, htype, by rw [Wire.pushTag, htci]⟩⟩

/-- The VLAN header of a tagged frame is written anew. -/
theorem Linked.retag (h : Linked b f) (ht : b.tagged = true) (v : VlanTci) :
    Linked { b with mem := setVlanHeader v b.mem, eth := 0 } { f with vlan := some v } := by
  obtain ⟨hm, htype, htci⟩ := setVlanHeader_fields v b.mem
  obtain ⟨hd, hs⟩ := h.moved (m := setVlanHeader v b.mem) (k := 0) fun i hi => by
    rw [(h.eth_eq_zero ht).1]
    exact hm _ (by omega)
  exact ⟨hd, hs, .inr ⟨rfl, htype, by rw [htci]⟩⟩

theorem Linked.popTag (h : Linked b f) : Linked (popTag b) { f with vlan := none } := by
  unfold Wire.popTag
  obtain ⟨he, ht, hv⟩ | ⟨he, ht, hv⟩ := h.tag
  · rw [if_neg (by rw [h.tagged_eq, hv]; decide)]
    exact ⟨h.dhost, h.shost, .inl ⟨he, ht, rfl⟩⟩
  · rw [if_pos (by rw [h.tagged_eq, hv]; rfl)]
    have hmoved : ∀ i < 12, ((b.mem.write VLAN_HLEN (b.mem.block 0 ETHER_HDR_LEN)).write
        (VLAN_HLEN + 12) [0x08, 0x00]) (VLAN_HLEN + i) = b.mem (b.eth + i) := by
      intro i hi
      rw [he, Octets.write_of_notMem (.inl (by omega))]
      exact Octets.write_block (by rw [ETHER_HDR_LEN]; omega)
    obtain ⟨hd, hs⟩ := h.moved hmoved
    refine ⟨hd, hs, .inl ⟨rfl, ?_, rfl⟩⟩
    simp [Octets.be16, Octets.write, VLAN_HLEN]
    rfl

theorem Linked.setTci (h : Linked b f) (ht : b.tagged = true) (v : VlanTci) :
    Linked (setTci b v) { f with vlan := some v } := by
  obtain ⟨he, htype⟩ := h.eth_eq_zero ht
  have hm : ∀ q < 14, (Wire.setTci b v).mem q = b.mem q :=
    fun q hq => Octets.write_of_notMem (.inl (by omega))
  obtain ⟨hd, hs⟩ := h.moved fun i hi => hm (b.eth + i) (by omega)
  refine ⟨hd, hs, .inr ⟨he, ?_, ?_⟩⟩
  · rw [← htype]
    exact Octets.be16_congr fun i hi => hm _ (by omega)
  · simp only [Wire.setTci, he]
    rw [Octets.le16_write]

end

/-! ### The packet -/

section

variable {m m' : Octets} {f f' : Frame}

/-- The parts of a TCP header that a rewriting changes, and those that it keeps. -/
theorem tcpHdr_eq (h₁₂ : m' 50 = m 50) (h₁₃ : m' 51 = m 51) (h : ∀ q, 58 ≤ q → m' q = m q) :
    tcpHdr m' 38 = { tcpHdr m 38 with seq := m'.be32 42, ackSeq := m'.be32 46 } := by
  have hts : timestamp m' 38 = timestamp m 38 := by
    rw [timestamp, timestamp, get_moved (k := 0) h₁₂ h]
  simp only [tcpHdr, doff, tcpFlag, h₁₂, h₁₃, hts]

theorem tcpHdr_congr (h : ∀ q, (42 ≤ q ∧ q < 52) ∨ 58 ≤ q → m' q = m q) :
    tcpHdr m' 38 = tcpHdr m 38 := by
  have hseq : m'.be32 42 = m.be32 42 := Octets.be32_congr fun i hi => h _ (by omega)
  have hack : m'.be32 46 = m.be32 46 := Octets.be32_congr fun i hi => h _ (by omega)
  rw [tcpHdr_eq (h _ (by omega)) (h _ (by omega)) (fun q hq => h q (by omega)), hseq, hack]
  rfl

/-- A packet with the same lengths, protocol and payload. -/
theorem Carries.kept (h : Carries m f) (hhead : ∀ q, 18 ≤ q → q < 28 → m' q = m q)
    (hf : f'.ihl = f.ihl ∧ f'.totLen = f.totLen ∧ f'.protocol = f.protocol ∧
      f'.tcp.doff = f.tcp.doff ∧ f'.payload = f.payload)
    (hsaddr : m'.le32 30 = f'.saddr) (hdaddr : m'.le32 34 = f'.daddr)
    (hsource : m'.le16 38 = f'.source) (hdest : m'.le16 40 = f'.dest)
    (htcp : f.protocol = IPPROTO_TCP → tcpHdr m' 38 = f'.tcp)
    (hpay : ∀ q, 38 + headerLen f ≤ q → q < 18 + f.totLen.toNat → m' q = m q) : Carries m' f' := by
  obtain ⟨hihl, hlen, hproto, hdoff, hpayload⟩ := hf
  have hhdr : headerLen f' = headerLen f := by rw [headerLen, headerLen, hproto, hdoff]
  refine ⟨hproto ▸ h.kind, ?_, ?_, ?_, hsaddr, hdaddr, hsource, hdest, fun hp => ?_, ?_⟩
  · rw [Wire.ihl, hhead 18 (by omega) (by omega), hihl]
    exact h.ihl
  · rw [hlen, ← h.totLen]
    exact Octets.be16_congr fun i hi => hhead _ (by omega) (by omega)
  · rw [hproto, hhead 27 (by omega) (by omega)]
    exact h.protocol
  · rw [hproto] at hp
    rw [hdoff]
    exact ⟨htcp hp, (h.tcp hp).2⟩
  · rw [hhdr, hlen, hpayload, ← h.payload]
    exact Checksum.block_congr fun i hi => hpay _ (by omega) (by omega)

theorem Carries.le_headerLen (h : Carries m f) :
    8 ≤ headerLen f ∧ (f.protocol = IPPROTO_TCP → 20 ≤ headerLen f) := by
  unfold headerLen
  split_ifs with hp
  · have := (h.tcp hp).2
    omega
  · exact ⟨Nat.le_refl 8, fun hp' => absurd hp' hp⟩

/-- The octets of the checksums of a packet without IP options. -/
def Summed (f : Frame) (q : ℕ) : Prop :=
  (28 ≤ q ∧ q < 30) ∨
    if f.protocol = IPPROTO_TCP then 54 ≤ q ∧ q < 56 else 44 ≤ q ∧ q < 46

/-- The addresses and the ports are not. -/
theorem not_summed {q : ℕ} (hq : q < 28 ∨ (30 ≤ q ∧ q < 44)) : ¬Summed f q := by
  unfold Summed
  split_ifs <;> omega

theorem not_summed_tcp {q : ℕ} (hp : f.protocol = IPPROTO_TCP)
    (hq : (30 ≤ q ∧ q < 54) ∨ 56 ≤ q) : ¬Summed f q := by
  rw [Summed, if_pos hp]
  omega

theorem Carries.not_summed_payload {q : ℕ} (h : Carries m f) (hq : 38 + headerLen f ≤ q) :
    ¬Summed f q := by
  obtain ⟨hlen, hlen'⟩ := h.le_headerLen
  unfold Summed
  split_ifs with hp
  · have := hlen' hp
    omega
  · omega

theorem natChecksums_kept {q : ℕ} (hp : m 27 = f.protocol) (hq : ¬Summed f q) :
    natChecksums m q = m q := by
  have hproto : Wire.protocol m 18 = f.protocol := hp
  unfold Summed at hq
  unfold natChecksums
  rw [hproto, setIpChecksum_apply (by omega)]
  split_ifs at hq ⊢
  · exact setTcpChecksum_apply (by omega)
  · exact setUdpChecksum_apply (by omega)

/-- The Ethernet header does not count, nor do the octets before the IP header. -/
theorem Carries.congr (h : Carries m f) (hm : ∀ q, 18 ≤ q → m' q = m q) (dhost shost : MacAddr)
    (vlan : Option VlanTci) : Carries m' { f with dhost, shost, vlan } := by
  refine h.kept (fun q hq _ => hm q hq) ⟨rfl, rfl, rfl, rfl, rfl⟩ ?_ ?_ ?_ ?_ (fun hp => ?_)
    fun q hq _ => hm q (by omega)
  · exact (Octets.le32_congr fun i hi => hm _ (by omega)).trans h.saddr
  · exact (Octets.le32_congr fun i hi => hm _ (by omega)).trans h.daddr
  · exact (Octets.le16_congr fun i hi => hm _ (by omega)).trans h.source
  · exact (Octets.le16_congr fun i hi => hm _ (by omega)).trans h.dest
  · exact (tcpHdr_congr fun q hq => hm q (by omega)).trans (h.tcp hp).1

/-- A packet after its addresses and ports were written to. -/
theorem Carries.write {o : ℕ} {bs : List (BitVec 8)} {saddr daddr : IpAddr} {source dest : Port}
    (h : Carries m f) (ho : 30 ≤ o) (hb : o + bs.length ≤ 42)
    (hsaddr : (m.write o bs).le32 30 = saddr) (hdaddr : (m.write o bs).le32 34 = daddr)
    (hsource : (m.write o bs).le16 38 = source) (hdest : (m.write o bs).le16 40 = dest) :
    Carries (m.write o bs) { f with saddr, daddr, source, dest } := by
  have hlen := h.le_headerLen.1
  have hout : ∀ q, q < 30 ∨ 42 ≤ q → m.write o bs q = m q :=
    fun q hq => Octets.write_of_notMem (by omega)
  refine h.kept (fun q _ hq => hout q (by omega)) ⟨rfl, rfl, rfl, rfl, rfl⟩ hsaddr hdaddr hsource
    hdest (fun hp => ?_) fun q hq _ => hout q (by omega)
  exact (tcpHdr_congr fun q hq => hout q (by omega)).trans (h.tcp hp).1

theorem Carries.snat (h : Carries m f) (ip : IpAddr) :
    Carries (m.write (18 + 12) (Octets.ofLe32 ip)) { f with saddr := ip } :=
  h.write (by decide) (by simp) (Octets.le32_write ip)
    ((Octets.le32_write_of_notMem (by simp)).trans h.daddr)
    ((Octets.le16_write_of_notMem (by simp)).trans h.source)
    ((Octets.le16_write_of_notMem (by simp)).trans h.dest)

theorem Carries.dnat (h : Carries m f) (ip : IpAddr) :
    Carries (m.write (18 + 16) (Octets.ofLe32 ip)) { f with daddr := ip } :=
  h.write (by decide) (by simp) ((Octets.le32_write_of_notMem (by simp)).trans h.saddr)
    (Octets.le32_write ip) ((Octets.le16_write_of_notMem (by simp)).trans h.source)
    ((Octets.le16_write_of_notMem (by simp)).trans h.dest)

theorem Carries.setSource (h : Carries m f) (port : Port) :
    Carries (m.write 38 (Octets.ofLe16 port)) { f with source := port } :=
  h.write (by decide) (by simp) ((Octets.le32_write_of_notMem (by simp)).trans h.saddr)
    ((Octets.le32_write_of_notMem (by simp)).trans h.daddr) (Octets.le16_write port)
    ((Octets.le16_write_of_notMem (by simp)).trans h.dest)

theorem Carries.setDest (h : Carries m f) (port : Port) :
    Carries (m.write 40 (Octets.ofLe16 port)) { f with dest := port } :=
  h.write (by decide) (by simp) ((Octets.le32_write_of_notMem (by simp)).trans h.saddr)
    ((Octets.le32_write_of_notMem (by simp)).trans h.daddr)
    ((Octets.le16_write_of_notMem (by simp)).trans h.source) (Octets.le16_write port)

/-- What a rewriting changes behind the ports of a TCP header. -/
theorem Carries.setTcp {hdr : TcpHdr} (h : Carries m f)
    (hm : ∀ q, 18 ≤ q → q < 42 → m' q = m q)
    (hpay : ∀ q, 38 + headerLen f ≤ q → q < 18 + f.totLen.toNat → m' q = m q)
    (hhdr : tcpHdr m' 38 = hdr) (hdoff : hdr.doff = f.tcp.doff) :
    Carries m' { f with tcp := hdr } := by
  refine h.kept (fun q hq hq' => hm q hq (by omega)) ⟨rfl, rfl, rfl, hdoff, rfl⟩
    ?_ ?_ ?_ ?_ (fun _ => hhdr) hpay
  · exact (Octets.le32_congr fun i hi => hm _ (by omega) (by omega)).trans h.saddr
  · exact (Octets.le32_congr fun i hi => hm _ (by omega) (by omega)).trans h.daddr
  · exact (Octets.le16_congr fun i hi => hm _ (by omega) (by omega)).trans h.source
  · exact (Octets.le16_congr fun i hi => hm _ (by omega) (by omega)).trans h.dest

theorem Carries.setSeq (h : Carries m f) (hp : f.protocol = IPPROTO_TCP) (w : BitVec 32) :
    Carries (m.write 42 (Octets.ofBe32 w)) { f with tcp := { f.tcp with seq := w } } := by
  have hlen := h.le_headerLen.2 hp
  have hout : ∀ q, q < 42 ∨ 46 ≤ q → m.write 42 (Octets.ofBe32 w) q = m q :=
    fun q hq => Octets.write_of_notMem hq
  refine h.setTcp (fun q _ hq => hout q (by omega)) (fun q hq _ => hout q (by omega)) ?_ rfl
  rw [tcpHdr_eq (hout _ (by omega)) (hout _ (by omega)) (fun q hq => hout q (by omega)),
    Octets.be32_write, Octets.be32_write_of_notMem (by simp), ← (h.tcp hp).1]
  rfl

theorem Carries.setAck (h : Carries m f) (hp : f.protocol = IPPROTO_TCP) (w : BitVec 32) :
    Carries (m.write 46 (Octets.ofBe32 w)) { f with tcp := { f.tcp with ackSeq := w } } := by
  have hlen := h.le_headerLen.2 hp
  have hout : ∀ q, q < 46 ∨ 50 ≤ q → m.write 46 (Octets.ofBe32 w) q = m q :=
    fun q hq => Octets.write_of_notMem hq
  refine h.setTcp (fun q _ hq => hout q (by omega)) (fun q hq _ => hout q (by omega)) ?_ rfl
  rw [tcpHdr_eq (hout _ (by omega)) (hout _ (by omega)) (fun q hq => hout q (by omega)),
    Octets.be32_write, Octets.be32_write_of_notMem (by simp), ← (h.tcp hp).1]
  rfl

/-- The checksums are no fields of a frame. -/
theorem Carries.natChecksums (h : Carries m f) : Carries (natChecksums m) f := by
  have hkept : ∀ q, ¬Summed f q → Wire.natChecksums m q = m q :=
    fun q hq => natChecksums_kept h.protocol hq
  refine h.kept (fun q _ hq => hkept q (not_summed (.inl hq))) ⟨rfl, rfl, rfl, rfl, rfl⟩
    ?_ ?_ ?_ ?_ (fun hp => ?_) fun q hq _ => hkept q (h.not_summed_payload hq)
  · exact (Octets.le32_congr fun i hi => hkept _ (not_summed (by omega))).trans h.saddr
  · exact (Octets.le32_congr fun i hi => hkept _ (not_summed (by omega))).trans h.daddr
  · exact (Octets.le16_congr fun i hi => hkept _ (not_summed (by omega))).trans h.source
  · exact (Octets.le16_congr fun i hi => hkept _ (not_summed (by omega))).trans h.dest
  · refine (tcpHdr_congr fun q hq => ?_).trans (h.tcp hp).1
    exact hkept q (not_summed_tcp hp (by omega))

theorem Carries.forwardChecksums (h : Carries m f) : Carries (forwardChecksums m) f := by
  have hproto : Wire.protocol m 18 = f.protocol := h.protocol
  have heq : Wire.forwardChecksums m = Wire.natChecksums m := by
    unfold Wire.forwardChecksums Wire.natChecksums
    rw [hproto]
    obtain htcp | hudp := h.kind
    · rw [if_pos htcp, if_pos htcp]
    · rw [if_pos hudp]
  rw [heq]
  exact h.natChecksums

end

/-! ### The rewritings -/

section

variable {b : Buffer} {pkt : Pkt}

theorem Shows.eth_le (h : Shows b pkt) : b.eth ≤ 4 := by
  obtain ⟨h, -⟩ | ⟨h, -⟩ := h.linked.tag <;> omega

theorem Shows.hosts (h : Shows b pkt) (s d : MacAddr) :
    Shows (setDhost (setShost b s) d)
      { pkt with packet := { pkt.packet with shost := s, dhost := d } } where
  linked := h.linked.hosts s d
  carries := by
    have := h.eth_le
    exact h.carries.congr (fun q hq => setHosts_mem (by omega)) d s _
  size := h.size

theorem Shows.snat (h : Shows b pkt) (ip : IpAddr) :
    Shows (snat b ip) { pkt with packet := { pkt.packet with saddr := ip } } where
  linked := h.linked.congr rfl (fun q hq => Octets.write_of_notMem (.inl (by omega))) rfl rfl rfl
  carries := h.carries.snat ip
  size := h.size

theorem Shows.dnat (h : Shows b pkt) (ip : IpAddr) :
    Shows (dnat b ip) { pkt with packet := { pkt.packet with daddr := ip } } where
  linked := h.linked.congr rfl (fun q hq => Octets.write_of_notMem (.inl (by omega))) rfl rfl rfl
  carries := h.carries.dnat ip
  size := h.size

theorem Shows.pushTag (h : Shows b pkt) (v : VlanTci) :
    Shows (pushTag b v)
      { pkt with packet := { pkt.packet with vlan := some v }, size := pkt.size + VLAN_HLEN } where
  linked := h.linked.pushTag v
  carries := h.carries.congr (fun _ hq => pushTag_mem hq) _ _ _
  size := congrArg (· + VLAN_HLEN) h.size

theorem Shows.setTci (h : Shows b pkt) (ht : b.tagged = true) (v : VlanTci) :
    Shows (setTci b v) { pkt with packet := { pkt.packet with vlan := some v } } where
  linked := h.linked.setTci ht v
  carries := by
    have he := (h.linked.eth_eq_zero ht).1
    refine h.carries.congr (fun q hq => Octets.write_of_notMem (.inr ?_)) _ _ _
    simp only [he, length_ofLe16]
    omega
  size := h.size

theorem Shows.popTag (h : Shows b pkt) : Shows (popTag b) (stripVlan pkt) := by
  have hlinked := h.linked.popTag
  have hcarries := h.carries.congr (fun q hq => popTag_mem hq)
  unfold stripVlan
  rw [← h.linked.tagged_eq]
  split_ifs with ht
  · refine ⟨hlinked, hcarries _ _ _, ?_⟩
    rw [Wire.popTag, if_pos ht, h.size]
  · rwa [Wire.popTag, if_neg ht]

theorem Shows.changeTag (h : Shows b pkt) (v : VlanTci) :
    Shows (changeTag b v) (natVlan v pkt) := by
  unfold Wire.changeTag natVlan
  rw [← h.linked.tagged_eq]
  split_ifs with ht hv hv
  · exact h.setTci ht v
  · exact h
  · exact h.pushTag v
  · exact h

theorem Shows.natChecksums (h : Shows b pkt) :
    Shows { b with mem := natChecksums b.mem } pkt where
  linked := h.linked.congr rfl (fun q hq => natChecksums_kept h.carries.protocol
    (not_summed (by omega))) rfl rfl rfl
  carries := h.carries.natChecksums
  size := h.size

theorem Shows.nat {b₁ : Buffer} {shost : MacAddr} {n : NatFields} {origin destination : Role}
    (hb : natTranslate b shost n origin destination = some b₁) (h : Shows b₁ pkt) :
    Shows (nat b shost n origin destination) pkt := by
  unfold Wire.nat
  rw [hb]
  exact h.natChecksums

/-- **Address translation.** `nat` on octets and on fields. -/
theorem nat_shows (h : Shows b pkt) (g : Globals) (n : NatFields) (out : IfaceId) :
    Shows (nat b (g.links out).mac n pkt.origin pkt.destination) (Honeybrid.nat g n out pkt) := by
  have hhosts := h.hosts (g.links out).mac n.dstMac
  unfold Honeybrid.nat
  split
  next ho =>
    refine .nat (by rw [ho, natTranslate_ext]) ?_
    split_ifs
    · exact (hhosts.dnat n.dstIp).pushTag n.dstVlan
    · exact (hhosts.dnat n.dstIp).popTag
  next ho =>
    split
    next hd =>
      exact .nat (by rw [hd, natTranslate_intra ho]) ((hhosts.dnat n.dstIp).changeTag n.dstVlan)
    next hd => exact .nat (by rw [hd, natTranslate_toExt ho]) (hhosts.snat n.srcIp).popTag
    next hd =>
      exact .nat (by rw [hd, natTranslate_hih ho]) ((hhosts.snat n.srcIp).changeTag n.dstVlan)
    next h₁ h₂ h₃ =>
      have hnone : natTranslate b (g.links out).mac n pkt.origin pkt.destination = none := by
        revert ho h₁ h₂ h₃
        cases pkt.origin <;> cases pkt.destination <;> simp [natTranslate]
      unfold nat
      rw [hnone]
      exact hhosts

/-- The header at offset 38 of a packet without IP options. -/
theorem Carries.l4_eq {m : Octets} {f : Frame} (h : Carries m f) : l4 m 18 = 38 := by
  rw [l4, h.ihl.1]
  rfl

/-- The port and the acknowledgement number on octets and on fields. -/
theorem Carries.redirectExt2hih {m : Octets} {f : Frame} (h : Carries m f) (c : Conn) :
    Carries (redirectExt2hih c m)
      (if f.protocol = IPPROTO_TCP ∧ f.tcp.ack then
        { f with dest := c.hih.port, tcp := { f.tcp with ackSeq := f.tcp.ackSeq - c.hih.delta } }
      else { f with dest := c.hih.port }) := by
  have hproto : Wire.protocol m 18 = f.protocol := h.protocol
  have hdest := h.setDest c.hih.port
  unfold Wire.redirectExt2hih
  rw [hproto, h.l4_eq]
  dsimp only
  by_cases htcp : f.protocol = IPPROTO_TCP
  · have hflag : tcpFlag (m.write (38 + 2) (Octets.ofLe16 c.hih.port)) 38 4 = f.tcp.ack := by
      rw [← (hdest.tcp htcp).1]
      rfl
    rw [if_pos htcp, hflag]
    by_cases hack : f.tcp.ack = true
    · have hseq : (m.write (38 + 2) (Octets.ofLe16 c.hih.port)).be32 (38 + 8) = f.tcp.ackSeq := by
        rw [← (hdest.tcp htcp).1]
        rfl
      have hsub : f.tcp.ackSeq + ~~~c.hih.delta + 1 = f.tcp.ackSeq - c.hih.delta := by
        rw [BitVec.sub_eq_add_neg, BitVec.neg_eq_not_add, ← BitVec.add_assoc]
        rfl
      rw [if_pos hack, if_pos ⟨htcp, hack⟩, hseq, hsub]
      exact hdest.setAck htcp _
    · rw [if_neg hack, if_neg fun hr => hack hr.2]
      exact hdest
  · rw [if_neg htcp, if_pos (h.kind.resolve_left htcp), if_neg fun hr => htcp hr.1]
    exact hdest

theorem Shows.forwardTag (h : Shows b pkt) (v : VlanTci) :
    Shows (forwardTag b v)
      { pkt with
        packet := if v.i ≠ 0 then { pkt.packet with vlan := some v } else pkt.packet
        size := if v.i ≠ 0 ∧ pkt.packet.vlan.isNone then pkt.size + VLAN_HLEN else pkt.size } := by
  have htag := h.linked.tagged_eq
  unfold Wire.forwardTag
  by_cases hv : v.i ≠ 0
  · rw [if_pos hv, if_pos hv]
    cases ht : b.tagged with
    | true =>
      rw [if_pos rfl, if_neg]
      · exact ⟨h.linked.retag ht v, h.carries.congr (fun _ hq => setVlanHeader_apply hq) _ _ _,
          h.size⟩
      · rw [ht] at htag
        rintro ⟨-, hn⟩
        rw [Option.isNone_iff_eq_none] at hn
        rw [hn] at htag
        cases htag
    | false =>
      rw [if_neg Bool.false_ne_true, if_pos]
      · exact h.pushTag v
      · rw [ht] at htag
        exact ⟨hv, Option.isSome_eq_false_iff.1 htag.symm⟩
  · rw [if_neg hv, if_neg hv, if_neg fun hr => hv hr.1]
    exact h

theorem redirectExt2hih_before {m : Octets} {c : Conn} {q : ℕ} (hq : q < 18) :
    redirectExt2hih c m q = m q := by
  have hle : 18 ≤ l4 m 18 := Nat.le_add_right _ _
  unfold redirectExt2hih
  dsimp only
  split_ifs
  · rw [Octets.write_of_notMem (.inl (by omega)), Octets.write_of_notMem (.inl (by omega))]
  · exact Octets.write_of_notMem (.inl (by omega))
  · exact Octets.write_of_notMem (.inl (by omega))
  · rfl

/-- **Packets to the honeypot.** `forward_ext2hih` on octets and on fields. -/
theorem forwardExt2hih_shows {g : Globals} {i : ConnId} {c : Conn} {hd : Handler} {out : IfaceId}
    (h : Shows b pkt) (hb : c.hih.backHandler = some hd) (hi : hd.iface = some out) :
    ∃ pkt' ev, Honeybrid.forwardExt2hih g i c pkt = .ok (pkt', ev) ∧
      Shows (forwardExt2hih b (g.links out).mac hd c) pkt' := by
  have htag := ((h.hosts (g.links out).mac hd.mac).dnat hd.ip).forwardTag hd.vlan
  obtain ⟨b₁, hb₁⟩ : ∃ b₁,
      forwardTag (dnat (setDhost (setShost b (g.links out).mac) hd.mac) hd.ip) hd.vlan = b₁ :=
    ⟨_, rfl⟩
  rw [hb₁] at htag
  have hcarries := (htag.carries.redirectExt2hih c).forwardChecksums
  have hbefore : ∀ q < 18, forwardChecksums (redirectExt2hih c b₁.mem) q = b₁.mem q :=
    fun q hq => (forwardChecksums_apply (.inl (by omega))).trans (redirectExt2hih_before hq)
  simp only [Honeybrid.forwardExt2hih, hb, hi, Option.orFail, Except.ok_bind]
  refine ⟨_, _, rfl, ?_⟩
  rw [forwardExt2hih, hb₁]
  refine ⟨htag.linked.congr rfl hbefore ?_ ?_ ?_, ?_, htag.size⟩
  · split_ifs <;> rfl
  · split_ifs <;> rfl
  · split_ifs <;> rfl
  · dsimp only at hcarries ⊢
    by_cases hv : hd.vlan.i ≠ 0
    · simp only [if_pos hv] at hcarries ⊢
      split_ifs at hcarries ⊢ <;> exact hcarries
    · simp only [if_neg hv] at hcarries ⊢
      split_ifs at hcarries ⊢ <;> exact hcarries

/-- `fix_tcp_timestamps` changes the timestamp only. -/
theorem fixTcpTimestamps_eq (c : Conn) (hdr : TcpHdr) :
    Honeybrid.fixTcpTimestamps c hdr =
      { hdr with ts := (Honeybrid.fixTcpTimestamps c hdr).ts } := by
  unfold Honeybrid.fixTcpTimestamps
  split_ifs <;> rfl

/-- The timestamp on octets and on fields. -/
theorem Carries.fix {m m' : Octets} {f : Frame} {c : Conn} {n : ℕ} (h : Carries m f)
    (hp : f.protocol = IPPROTO_TCP) (hcov : 38 + headerLen f ≤ 18 + f.totLen.toNat)
    (hin : TimestampInside m 38 (18 + f.totLen.toNat))
    (hfix : fixTcpTimestamps m 38 c n = some m') :
    Carries m' { f with tcp := Honeybrid.fixTcpTimestamps c f.tcp } := by
  have hlen := h.le_headerLen.2 hp
  have hdoff : headerLen f = (doff m 38).toNat * 4 := by
    rw [headerLen, if_pos hp, ← (h.tcp hp).1]
    rfl
  have hlow : ∀ q < 58, m' q = m q := by
    refine fun q hq => fix_agrees hin hfix (by omega) fun hts => ?_
    have := hts.le
    omega
  have hpay : ∀ q, 38 + headerLen f ≤ q → q < 18 + f.totLen.toNat → m' q = m q := by
    refine fun q hq hq' => fix_agrees hin hfix hq' ?_
    rintro (⟨ha, hts⟩ | ⟨p, -, -, -, -, hts⟩)
    · have h8 : (doff m 38).toNat = 8 := congrArg BitVec.toNat (of_decide_eq_true ha).1
      omega
    · omega
  have hhdr : tcpHdr m' 38 = Honeybrid.fixTcpTimestamps c (tcpHdr m 38) := by
    have hts : timestamp m' 38 = (Honeybrid.fixTcpTimestamps c (tcpHdr m 38)).ts :=
      timestamp_fix hfix rfl
    have hseq : m'.be32 (38 + 4) = m.be32 (38 + 4) :=
      Octets.be32_congr fun i hi => hlow _ (by omega)
    have hack : m'.be32 (38 + 8) = m.be32 (38 + 8) :=
      Octets.be32_congr fun i hi => hlow _ (by omega)
    rw [fixTcpTimestamps_eq, ← hts]
    simp only [tcpHdr, doff, tcpFlag, hseq, hack, hlow (38 + 12) (by omega),
      hlow (38 + 13) (by omega)]
  refine h.setTcp (fun q _ hq => hlow q (by omega)) hpay (by rw [hhdr, (h.tcp hp).1]) ?_
  rw [fixTcpTimestamps_eq]

/-- The port, the sequence number and the timestamp on octets and on fields. -/
theorem Carries.redirectHih2ext {m m' : Octets} {f : Frame} {c : Conn} {n : ℕ} (h : Carries m f)
    (hcov : 38 + headerLen f ≤ 18 + f.totLen.toNat)
    (hin : f.protocol = IPPROTO_TCP → TimestampInside m 38 (18 + f.totLen.toNat))
    (hm : redirectHih2ext c n m = some m') :
    Carries m' (if f.protocol = IPPROTO_TCP then
        { f with
          source := c.hih.port
          tcp := Honeybrid.fixTcpTimestamps c { f.tcp with seq := f.tcp.seq + c.hih.delta } }
      else { f with source := c.hih.port }) := by
  have hproto : Wire.protocol m 18 = f.protocol := h.protocol
  have hsource := h.setSource c.hih.port
  unfold Wire.redirectHih2ext at hm
  rw [hproto, h.l4_eq] at hm
  by_cases htcp : f.protocol = IPPROTO_TCP
  · rw [if_pos htcp] at hm ⊢
    have hseq : (m.write 38 (Octets.ofLe16 c.hih.port)).be32 (38 + 4) = f.tcp.seq := by
      rw [← (hsource.tcp htcp).1]
      rfl
    have hrenumber : Carries (renumber c m) { f with
        source := c.hih.port
        tcp := { f.tcp with seq := f.tcp.seq + c.hih.delta } } := by
      unfold renumber
      rw [h.l4_eq]
      dsimp only
      rw [hseq]
      exact hsource.setSeq htcp _
    refine hrenumber.fix htcp hcov ?_ hm
    refine (timestampInside_congr fun q hq => ?_).2 (hin htcp)
    rw [renumber_apply (by rw [h.l4_eq]; omega)]
  · rw [if_neg htcp] at hm ⊢
    rw [if_pos (h.kind.resolve_left htcp)] at hm
    cases hm
    exact hsource

theorem redirectHih2ext_before {m m' : Octets} {f : Frame} {c : Conn} {n q : ℕ} (h : Carries m f)
    (hin : f.protocol = IPPROTO_TCP → TimestampInside m 38 (18 + f.totLen.toNat))
    (hm : redirectHih2ext c n m = some m') (hq : q < 18) : m' q = m q := by
  have hproto : Wire.protocol m 18 = f.protocol := h.protocol
  unfold redirectHih2ext at hm
  rw [hproto, h.l4_eq] at hm
  split_ifs at hm with htcp hudp
  · have hopt : ∀ q, 38 + 12 ≤ q → renumber c m q = m q :=
      fun q hq => renumber_apply (by rw [h.l4_eq]; omega)
    rw [fix_agrees ((timestampInside_congr hopt).2 (hin htcp)) hm (by omega) fun hts => ?_]
    · exact renumber_apply (by rw [h.l4_eq]; omega)
    · have := hts.le
      omega
  · cases hm
    exact Octets.write_of_notMem (.inl (by omega))
  · cases hm
    rfl

theorem stripVlan_packet (pkt : Pkt) :
    (stripVlan pkt).packet = { pkt.packet with vlan := none } ∧
      (stripVlan pkt).size =
        if pkt.packet.vlan.isSome then pkt.size - VLAN_HLEN else pkt.size := by
  unfold stripVlan
  split_ifs with hv
  · exact ⟨rfl, rfl⟩
  · have hnone : pkt.packet.vlan = none := by simpa using hv
    exact ⟨by rw [← hnone], rfl⟩

/-- **Packets of the honeypot.** `forward_hih2ext` on octets and on fields. -/
theorem forwardHih2ext_shows {t : Target} {i : ConnId} {c : Conn} {out : IfaceId} {n : ℕ}
    {b' : Buffer} (h : Shows b pkt) (hr : t.defaultRoute = some out)
    (hcov : 38 + headerLen pkt.packet ≤ 18 + pkt.packet.totLen.toNat)
    (hin : pkt.packet.protocol = IPPROTO_TCP →
      TimestampInside b.mem 38 (18 + pkt.packet.totLen.toNat))
    (hb : forwardHih2ext b c n = some b') :
    ∃ pkt' ev, Honeybrid.forwardHih2ext t i c pkt = .ok (pkt', ev) ∧ Shows b' pkt' := by
  have hext : Shows (showToExt b c) _ :=
    ((h.hosts c.firstPktDstMac c.firstPktSrcMac).snat c.firstPktDstIp).popTag
  obtain ⟨m₂, hm₂, rfl⟩ := Option.map_eq_some_iff.1 hb
  obtain ⟨hpacket, hsize⟩ := stripVlan_packet { pkt with
    packet := { pkt.packet with
      shost := c.firstPktDstMac, dhost := c.firstPktSrcMac, saddr := c.firstPktDstIp } }
  have hlinked := hext.linked
  have hcarries := hext.carries
  have hsize' := hext.size
  rw [hpacket] at hlinked hcarries
  rw [hsize] at hsize'
  have haddr := showToExt_address h.linked.framed c
  have hin' : pkt.packet.protocol = IPPROTO_TCP →
      TimestampInside (showToExt b c).mem 38 (18 + pkt.packet.totLen.toNat) := fun hp =>
    (timestampInside_congr fun q hq => haddr q (by omega) (by omega)).2 (hin hp)
  have hfinal := (hcarries.redirectHih2ext hcov hin' hm₂).forwardChecksums
  have hbefore : ∀ q < 18, forwardChecksums m₂ q = (showToExt b c).mem q := fun q hq =>
    (forwardChecksums_apply (.inl (by omega))).trans (redirectHih2ext_before hcarries hin' hm₂ hq)
  obtain ⟨hpacket', hsize''⟩ := stripVlan_packet { pkt with
    destination := .ext
    packet := { pkt.packet with
      shost := c.firstPktDstMac, dhost := c.firstPktSrcMac, saddr := c.firstPktDstIp
      source := c.hih.port } }
  simp only [Honeybrid.forwardHih2ext, hr]
  refine ⟨_, _, rfl, ?_⟩
  rw [hpacket']
  refine ⟨hlinked.congr rfl hbefore ?_ ?_ ?_, ?_, hsize'.trans hsize''.symm⟩
  · split_ifs <;> rfl
  · split_ifs <;> rfl
  · split_ifs <;> rfl
  · dsimp only at hfinal ⊢
    split_ifs at hfinal ⊢ <;> exact hfinal

end

/-! ### Packets that were accepted -/

section

variable {l : Listener} {c : Capture} {p : Packet} {i : IfaceId}

theorem buffer_linked (h : (processPacket l c).val = some p) :
    Linked p.buffer (frameOf p.frame p.ip) := by
  obtain ⟨hip, -, -, hinit⟩ := processPacket_some h
  rw [← hinit.frame] at hip
  have hmem : ∀ o, p.buffer.mem (p.buffer.eth + o) = p.frame o :=
    fun o => congrArg p.frame (Nat.add_sub_cancel_left _ _)
  refine ⟨?_, ?_, ?_⟩
  · exact Octets.be48_congr fun i hi => by rw [hmem, Nat.zero_add]
  · exact Octets.be48_congr fun i hi => by rw [Nat.add_assoc, hmem]
  · unfold ipOffset at hip
    split_ifs at hip with he hv
    · have h14 : p.ip = 14 := (Option.some.inj hip).symm
      have heth : p.buffer.eth = 4 := by rw [Packet.buffer, h14]
      refine .inl ⟨heth, ?_, if_pos he⟩
      rw [← he]
      exact Octets.be16_congr fun i hi => by rw [← hmem, heth, ← Nat.add_assoc]
    · have h18 : p.ip = 18 := (Option.some.inj hip).symm
      have heth : p.buffer.eth = 0 := by rw [Packet.buffer, h18]
      have hmem' : ∀ o, p.buffer.mem o = p.frame o := fun o => by
        rw [← hmem, heth, Nat.zero_add]
      refine .inr ⟨heth, ?_, ?_⟩
      · rw [← hv.1]
        exact Octets.be16_congr fun i hi => hmem' _
      · rw [Octets.le16_congr (m := p.frame) (o := 14) fun i hi => hmem' _]
        exact if_neg he

/-- The transport header at offset 38 of the buffer. -/
theorem buffer_transport (h : p.ip ≤ 18) (o : ℕ) :
    p.buffer.mem (38 + o) = p.frame (p.ip + 20 + o) :=
  congrArg p.frame (by omega)

theorem buffer_tcpHdr (h : p.ip ≤ 18) : tcpHdr p.buffer.mem 38 = tcpHdr p.frame (p.ip + 20) := by
  have hword : ∀ o, p.buffer.mem.be32 (38 + o) = p.frame.be32 (p.ip + 20 + o) := fun o =>
    Octets.be32_congr fun i hi => by rw [Nat.add_assoc, Nat.add_assoc, buffer_transport h]
  have hts : timestamp p.buffer.mem 38 = timestamp p.frame (p.ip + 20) := by
    have hth : 38 = p.ip + 20 + (18 - p.ip) := by omega
    rw [timestamp, timestamp, hth, get_moved (k := 18 - p.ip) (m := p.frame)]
    · exact congrArg p.frame (by omega)
    · exact fun q hq => congrArg p.frame (by omega)
  simp only [tcpHdr, doff, tcpFlag, hword, buffer_transport h, hts]

/-- `init_pkt` leaves the buffer of its packet. -/
theorem buffer_shows (h : (processPacket l c).val = some p) (h5 : ihl p.frame p.ip = 5) :
    Shows p.buffer (p.toPkt i) := by
  obtain ⟨hle, -⟩ := buffer_framed h
  obtain ⟨-, -, -, hinit⟩ := processPacket_some h
  have hth : l4 p.frame p.ip = p.ip + 20 := by
    rw [l4, h5]
    rfl
  have hkind := hinit.kind
  rw [← hinit.frame] at hkind
  refine ⟨buffer_linked h, ⟨hkind.imp_left And.left, ⟨(buffer_ihl hle).trans h5, h5⟩,
    buffer_totLen hle, buffer_protocol hle, ?_, ?_, ?_, ?_, fun htcp => ⟨?_, ?_⟩, ?_⟩, rfl⟩
  · exact Octets.le32_congr fun i hi => congrArg p.frame (by omega)
  · exact Octets.le32_congr fun i hi => congrArg p.frame (by omega)
  · exact Octets.le16_congr fun i hi => congrArg p.frame (by omega)
  · exact Octets.le16_congr fun i hi => congrArg p.frame (by omega)
  · rw [buffer_tcpHdr hle, ← hth]
    rfl
  · obtain ⟨-, -, hd, -⟩ | hudp := hkind
    · rw [hinit.th, ← hinit.frame] at hd
      exact hd
    · exact absurd (hudp.symm.trans htcp) (by decide)
  · have hlen : headerLen (frameOf p.frame p.ip) = l4Len p.frame p.ip := rfl
    have h20 : (ihl p.frame p.ip).toNat * 4 = 20 := by
      rw [h5]
      rfl
    have hpay : (frameOf p.frame p.ip).payload =
        p.frame.block (l4 p.frame p.ip + l4Len p.frame p.ip)
          ((totLen p.frame p.ip).toNat - 20 - l4Len p.frame p.ip) := by simp only [frameOf, h20]
    rw [Packet.toPkt, hpay, hlen, hth]
    exact Checksum.block_congr fun i hi => congrArg p.frame (by omega)

end

end Wire

end Honeybrid
