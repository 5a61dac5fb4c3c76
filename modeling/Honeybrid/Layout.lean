import Honeybrid.Decoding

/-!
# The layout of a rewritten frame

VLAN headers are added and stripped within the buffer of a packet: the Ethernet addresses are moved
over the four octets that an untagged frame leaves free, and the pointer, the type and the size of
the frame are adjusted at each place on its own. The IP header stays at offset 18.

A packet is rewritten at most twice. After `init_pkt`, `nat` or one of the `forward_*` functions is
called for it; a packet of EXT that was buffered after `nat` is rewritten once more by
`forward_ext2hih`.

## Main definitions

* `Rewrite`, `Applied`: the rewritings, and the sequences of them that a packet goes through.
* `Layout`: where the headers of a frame are.
* `RewrittenOctet`: the octets behind the Ethernet header that a rewriting may write.

## Main results

* `nat_laid`, `forwardExt2hih_laid`, `forwardHih2ext_laid`: one lemma per rewriting.
* `layout_kept`: every sequence of rewritings of an accepted packet keeps the layout.
-/

namespace Honeybrid

namespace Wire

/-! ### Rewritings -/

/-- A call of one of the functions that rewrite a packet, with what it reads. -/
inductive Rewrite
  | nat (shost : MacAddr) (n : NatFields) (origin destination : Role)
  | forwardHih2ext (c : Conn) (rounds : ℕ)
  | forwardExt2hih (shost : MacAddr) (h : Handler) (c : Conn)

/-- What is left by a rewriting that returns. -/
def Rewrite.apply (b : Buffer) : Rewrite → Option Buffer
  | .nat shost n origin destination => some (Wire.nat b shost n origin destination)
  | .forwardHih2ext c rounds => Wire.forwardHih2ext b c rounds
  | .forwardExt2hih shost h c => some (Wire.forwardExt2hih b shost h c)

/-- The source and the destination address that a rewriting writes. -/
def Rewrite.hosts : Rewrite → MacAddr × MacAddr
  | .nat shost n _ _ => (shost, n.dstMac)
  | .forwardHih2ext c _ => (c.firstPktDstMac, c.firstPktSrcMac)
  | .forwardExt2hih shost h _ => (shost, h.mac)

/-- Rewritings one after the other. -/
def applyAll : List Rewrite → Buffer → Option Buffer
  | [], b => some b
  | r :: rs, b => (r.apply b).bind (applyAll rs)

/-- The sequences of rewritings of a packet. Only the packets of EXT are rewritten as such, or
twice, when they are replayed from the buffer. -/
inductive Applied (p : Packet) : List Rewrite → Prop
  | none : Applied p []
  | nat (shost : MacAddr) (n : NatFields) {origin : Role} (destination : Role)
      (ho : origin = .ext → p.origin = .ext) : Applied p [.nat shost n origin destination]
  | hih2ext (c : Conn) (rounds : ℕ) : Applied p [.forwardHih2ext c rounds]
  | ext2hih (shost : MacAddr) (h : Handler) (c : Conn) (ho : p.origin = .ext) :
      Applied p [.forwardExt2hih shost h c]
  | replayed (shost : MacAddr) (n : NatFields) (origin destination : Role) (shost' : MacAddr)
      (h : Handler) (c : Conn) (ho : p.origin = .ext) :
      Applied p [.nat shost n origin destination, .forwardExt2hih shost' h c]

/-- Where the headers of a frame are, in a buffer of `n` octets. -/
structure Layout (n : ℕ) (b : Buffer) : Prop where
  inside : b.eth + b.size ≤ n
  ip : (b.mem.be16 (b.eth + 12) = ETHERTYPE_IP ∧ b.eth + ETHER_HDR_LEN = 18 ∧
      b.size = ETHER_HDR_LEN + (totLen b.mem 18).toNat) ∨
    (b.mem.be16 (b.eth + 12) = ETHERTYPE_VLAN ∧ b.mem.be16 (b.eth + 16) = ETHERTYPE_IP ∧
      b.eth + VLAN_ETH_HLEN = 18 ∧ b.size = VLAN_ETH_HLEN + (totLen b.mem 18).toNat)

/-- The length of `FRAME`, as `init_pkt` allocates it. -/
def frameLen (c : Capture) (p : Packet) : ℕ :=
  c.caplen + (18 - p.ip)

/-- A frame that `pcap_cb` has queued, `process_packet` has accepted and that was captured as a
whole. -/
structure Accepted (l : Listener) (c : Capture) (p : Packet) : Prop where
  queued : ∃ queue, (pcapCb c.bytes l).val = .queued queue
  accepted : (processPacket l c).val = some p
  captured : p.fragmented = false

/-! ### The link layer -/

/-- The frame `f` before the IP header, with `n` octets from the start of the buffer to its end. The
type of an untagged frame and the encapsulated type of a tagged one are at the same offset. -/
structure Laid (n : ℕ) (f : Frame) (b : Buffer) : Prop where
  linked : Linked b f
  inner : b.mem.be16 16 = ETHERTYPE_IP
  size : b.eth + b.size = n

section

variable {n : ℕ} {f : Frame} {b b' : Buffer} {v : VlanTci}

theorem Laid.eth_le (h : Laid n f b) : b.eth ≤ 4 := by
  obtain ⟨h, -⟩ | ⟨h, -⟩ := h.linked.tag <;> omega

theorem Laid.eth_eq_four (h : Laid n f b) (hv : f.vlan = none) : b.eth = 4 := by
  obtain ⟨he, -⟩ | ⟨-, -, hv'⟩ := h.linked.tag
  · exact he
  · rw [hv] at hv'
    cases hv'

theorem Laid.congr (h : Laid n f b) (he : b'.eth = b.eth) (hs : b'.size = b.size)
    (hm : ∀ q < 18, b'.mem q = b.mem q) : Laid n f b' where
  linked := h.linked.congr he hm rfl rfl rfl
  inner := by
    rw [← h.inner]
    exact Octets.be16_congr fun i hi => hm _ (by omega)
  size := by rw [he, hs, h.size]

theorem Laid.hosts (h : Laid n f b) (shost dhost : MacAddr) :
    Laid n { f with shost := shost, dhost := dhost } (setDhost (setShost b shost) dhost) where
  linked := h.linked.hosts shost dhost
  inner := by
    have := h.eth_le
    rw [← h.inner]
    exact Octets.be16_congr fun i hi => setHosts_mem (by omega)
  size := h.size

theorem Laid.snat (h : Laid n f b) (ip : IpAddr) : Laid n f (snat b ip) :=
  h.congr rfl rfl fun _ hq => Octets.write_of_notMem (.inl (by omega))

theorem Laid.dnat (h : Laid n f b) (ip : IpAddr) : Laid n f (dnat b ip) :=
  h.congr rfl rfl fun _ hq => Octets.write_of_notMem (.inl (by omega))

theorem setVlanHeader_inner (v : VlanTci) (m : Octets) :
    (setVlanHeader v m).be16 16 = ETHERTYPE_IP := by
  simp [setVlanHeader, Octets.be16, Octets.write]
  rfl

/-- A VLAN header is added in front of an untagged frame. -/
theorem Laid.pushTag (h : Laid n f b) (hv : f.vlan = none) (v : VlanTci) :
    Laid n { f with vlan := some v } (pushTag b v) where
  linked := h.linked.pushTag v
  inner := setVlanHeader_inner v _
  size := by
    have hsize := h.size
    have heth := h.eth_eq_four hv
    simp only [Wire.pushTag, VLAN_HLEN]
    omega

theorem Laid.setTci (h : Laid n f b) (ht : b.tagged = true) (v : VlanTci) :
    Laid n { f with vlan := some v } (setTci b v) where
  linked := h.linked.setTci ht v
  inner := by
    have heth := (h.linked.eth_eq_zero ht).1
    rw [← h.inner]
    refine Octets.be16_congr fun i hi => Octets.write_of_notMem (.inr ?_)
    rw [length_ofLe16]
    omega
  size := h.size

theorem Laid.retag (h : Laid n f b) (ht : b.tagged = true) (v : VlanTci) :
    Laid n { f with vlan := some v } { b with mem := setVlanHeader v b.mem, eth := 0 } where
  linked := h.linked.retag ht v
  inner := setVlanHeader_inner v _
  size := by
    have hsize := h.size
    rw [(h.linked.eth_eq_zero ht).1] at hsize
    exact hsize

theorem Laid.popTag (h : Laid n f b) (hn : 18 ≤ n) :
    Laid n { f with vlan := none } (popTag b) := by
  refine ⟨h.linked.popTag, ?_, ?_⟩ <;> unfold Wire.popTag <;> split_ifs with ht
  · simp [Octets.be16, Octets.write, VLAN_HLEN]
    rfl
  · exact h.inner
  · have hsize := h.size
    have heth := (h.linked.eth_eq_zero ht).1
    simp only [VLAN_HLEN]
    omega
  · exact h.size

/-- An untagged frame has no VLAN header. -/
theorem Laid.vlan_eq_none (h : Laid n f b) (ht : ¬b.tagged = true) : f.vlan = none := by
  rw [h.linked.tagged_eq] at ht
  simpa using ht

theorem Laid.changeTag (h : Laid n f b) (v : VlanTci) :
    ∃ w, Laid n { f with vlan := w } (changeTag b v) := by
  unfold Wire.changeTag
  split_ifs with ht
  · exact ⟨_, h.setTci ht v⟩
  · exact ⟨f.vlan, h⟩
  · exact ⟨_, h.pushTag (h.vlan_eq_none ht) v⟩
  · exact ⟨f.vlan, h⟩

theorem Laid.forwardTag (h : Laid n f b) (v : VlanTci) :
    ∃ w, Laid n { f with vlan := w } (forwardTag b v) := by
  unfold Wire.forwardTag
  split_ifs with hv ht
  · exact ⟨_, h.retag ht v⟩
  · exact ⟨_, h.pushTag (h.vlan_eq_none ht) v⟩
  · exact ⟨f.vlan, h⟩

end

/-! ### The octets that are written -/

/-- The octets of a packet that `nat` may write: the checksum and the addresses of the IP header,
and the checksums where the overlaid structures have them. -/
def NatOctet (o : ℕ) : Prop :=
  (10 ≤ o ∧ o < 20) ∨ (26 ≤ o ∧ o < 28) ∨ (36 ≤ o ∧ o < 38)

/-- The octets that `fix_tcp_timestamps` may write. -/
def TimestampOctet (m : Octets) (th q : ℕ) : Prop :=
  (aligned m th = true ∧ q = th + 20) ∨
    ∃ p, OptionAt m th p ∧ m p = TCPOPT_TIMESTAMP ∧ p ≤ q ∧ q < p + 6

/-- The octets that a rewriting may write, with the ports and the numbers of the TCP header and its
timestamp. -/
def RewrittenOctet (m : Octets) (o : ℕ) : Prop :=
  NatOctet o ∨ (ipLen m ≤ o ∧ o < ipLen m + 12) ∨ TimestampOctet m (l4 m 18) (18 + o)

section

variable {m m' : Octets} {th q o k : ℕ} {c : Conn} {b b' : Buffer} {nf : NatFields}
  {shost : MacAddr} {origin destination : Role}

theorem natChecksums_apply (h : ∀ o, q = 18 + o → ¬NatOctet o) : natChecksums m q = m q := by
  have hne : ¬(28 ≤ q ∧ q < 38 ∨ 44 ≤ q ∧ q < 46 ∨ 54 ≤ q ∧ q < 56) := by
    intro hq
    exact h (q - 18) (by omega) (by unfold NatOctet; omega)
  unfold natChecksums
  rw [setIpChecksum_apply (by omega)]
  split
  · exact setTcpChecksum_apply (by omega)
  · exact setUdpChecksum_apply (by omega)

theorem forwardChecksums_of_not (h : ¬NatOctet o) : forwardChecksums m (18 + o) = m (18 + o) := by
  have hne : ¬(10 ≤ o ∧ o < 20 ∨ 26 ≤ o ∧ o < 28 ∨ 36 ≤ o ∧ o < 38) := h
  unfold forwardChecksums
  rw [setIpChecksum_apply (by omega)]
  split_ifs
  · exact setTcpChecksum_apply (by omega)
  · exact setUdpChecksum_apply (by omega)
  · rfl

/-- `nat` translates for its callers only. -/
theorem directed_of_some (h : natTranslate b shost nf origin destination = some b') :
    Directed origin destination := by
  revert h
  cases origin <;> cases destination <;> simp [natTranslate, Directed]

theorem nat_untouched (hf : b.Framed) (ho : ¬NatOctet o) :
    (nat b shost nf origin destination).mem (18 + o) = b.mem (18 + o) := by
  have hle := hf.eth_le
  have hne : ¬(10 ≤ o ∧ o < 20 ∨ 26 ≤ o ∧ o < 28 ∨ 36 ≤ o ∧ o < 38) := ho
  unfold nat
  cases hb : natTranslate b shost nf origin destination with
  | none => exact setHosts_mem (by omega)
  | some b₁ =>
    obtain ⟨b₂, hb₂, hmem⟩ := natTranslate_some hf shost nf (directed_of_some hb)
    cases hb.symm.trans hb₂
    have hkept : natChecksums b₁.mem (18 + o) = b₁.mem (18 + o) := by
      refine natChecksums_apply fun o' ho' => ?_
      rwa [← Nat.add_left_cancel ho']
    refine hkept.trans ?_
    rw [hmem _ (by omega)]
    split
    · exact Octets.write_of_notMem (by simp; omega)
    · exact Octets.write_of_notMem (by simp; omega)

/-- Only the value of a timestamp is written, or the end of the options over its first octet. -/
theorem fix_untouched (h : fixTcpTimestamps m th c k = some m') (hq : ¬TimestampOctet m th q) :
    m' q = m q := by
  have hone : ∀ p, ¬(p ≤ q ∧ q < p + 6) → m.write p [TCPOPT_EOL] q = m q := by
    refine fun p hp => Octets.write_of_notMem ?_
    rw [List.length_singleton]
    omega
  unfold fixTcpTimestamps at h
  split_ifs at h with hu ho
  · unfold stripTcpTimestamps at h
    split_ifs at h with hd ha
    · cases h
      rfl
    · cases h
      refine Octets.write_of_notMem ?_
      have : q ≠ th + 20 := fun he => hq (.inl ⟨ha, he⟩)
      rw [List.length_singleton]
      omega
    · obtain rfl | ⟨p, hp, hk, hf⟩ := scan_some h
      · rfl
      · cases hf
        exact hone p fun hr => hq (.inr ⟨p, hp, hk, hr⟩)
  · cases hget : getTcpTimestamps m th k with
    | none => simp [hget] at h
    | some r =>
      cases r with
      | none =>
        simp [hget] at h
        rw [h]
      | some ts =>
        have hset : setTcpTimestamps m th (some (ts.1 + BitVec.ofInt 32 c.tcpTsDiff)) none k =
            some m' := by simpa [hget] using h
        obtain ⟨p, hp, hk, hlen, -⟩ := get_some hget
        obtain ⟨j, hset'⟩ := set_of_optionAt hp hk hlen (ts.1 + BitVec.ofInt 32 c.tcpTsDiff)
        have hout : ¬(p ≤ q ∧ q < p + 6) := fun hr => hq (.inr ⟨p, hp, hk, hr⟩)
        rw [set_unique hset hset']
        exact Octets.write_of_notMem (by simp; omega)
  · cases h
    rfl

theorem timestampOctet_congr (h : ∀ q, th + 12 ≤ q → m q = m' q) :
    TimestampOctet m th q ↔ TimestampOctet m' th q := by
  unfold TimestampOctet
  rw [aligned_congr h]
  refine or_congr_right (exists_congr fun p => ?_)
  rw [optionAt_congr h]
  refine and_congr_right fun hp => ?_
  have := hp.le
  rw [h p (by omega)]

/-- `forward_ext2hih` writes an address, a port, the acknowledgement number and the checksums. -/
theorem forwardExt2hih_untouched {h : Handler} (hf : b.Framed) (h20 : 20 ≤ ipLen b.mem)
    (hn : ¬NatOctet o) (ho : ¬(ipLen b.mem ≤ o ∧ o < ipLen b.mem + 12)) :
    (forwardExt2hih b shost h c).mem (18 + o) = b.mem (18 + o) := by
  have hle := hf.eth_le
  have hne : ¬(10 ≤ o ∧ o < 20 ∨ 26 ≤ o ∧ o < 28 ∨ 36 ≤ o ∧ o < 38) := hn
  have haddr : AddressAt b.mem 16
      (forwardTag (dnat (setDhost (setShost b shost) h.mac) h.ip) h.vlan).mem := by
    refine addressAt_write h.ip fun q hq => ?_
    rw [forwardTag_mem hq]
    exact Octets.write_congr (setHosts_mem (by omega))
  obtain ⟨b₁, hb₁⟩ : ∃ b₁,
      forwardTag (dnat (setDhost (setShost b shost) h.mac) h.ip) h.vlan = b₁ := ⟨_, rfl⟩
  rw [hb₁] at haddr
  have hl : l4 b₁.mem 18 = 18 + ipLen b.mem := by rw [l4_eq, haddr.ipLen_eq (by decide)]
  have hkept : b₁.mem (18 + o) = b.mem (18 + o) := haddr _ (by omega) (by omega)
  rw [forwardExt2hih, hb₁]
  dsimp only
  rw [forwardChecksums_of_not hn, ← hkept]
  unfold redirectExt2hih
  dsimp only
  rw [hl]
  split_ifs
  · rw [Octets.write_of_notMem (by simp; omega), Octets.write_of_notMem (by simp; omega)]
  · exact Octets.write_of_notMem (by simp; omega)
  · exact Octets.write_of_notMem (by simp; omega)
  · rfl

/-- What `forward_hih2ext` does to the packet between the address and the checksums. -/
theorem redirectHih2ext_apply (h : redirectHih2ext c k m = some m')
    (hq : q < l4 m 18 ∨ l4 m 18 + 12 ≤ q) (hts : ¬TimestampOctet m (l4 m 18) q) :
    m' q = m q := by
  unfold redirectHih2ext at h
  split_ifs at h
  · have hopt : ∀ q, l4 m 18 + 12 ≤ q → renumber c m q = m q :=
      fun q hq => renumber_apply (by omega)
    rw [fix_untouched h fun hr => hts ((timestampOctet_congr hopt).1 hr)]
    exact renumber_apply (by omega)
  · cases h
    exact Octets.write_of_notMem (by simp; omega)
  · cases h
    rfl

/-- `forward_hih2ext` writes an address, a port, the sequence number, the timestamp and the
checksums. -/
theorem forwardHih2ext_untouched (hf : b.Framed) (h20 : 20 ≤ ipLen b.mem)
    (h : forwardHih2ext b c k = some b') (ho : ¬RewrittenOctet b.mem o) :
    b'.mem (18 + o) = b.mem (18 + o) := by
  obtain ⟨m₂, hm₂, rfl⟩ := Option.map_eq_some_iff.1 h
  have haddr := showToExt_address hf c
  have hl : l4 (showToExt b c).mem 18 = l4 b.mem 18 := by
    rw [l4_eq, l4_eq, haddr.ipLen_eq (by decide)]
  have hn : ¬NatOctet o := fun hr => ho (.inl hr)
  have hne : ¬(10 ≤ o ∧ o < 20 ∨ 26 ≤ o ∧ o < 28 ∨ 36 ≤ o ∧ o < 38) := hn
  have hports : ¬(ipLen b.mem ≤ o ∧ o < ipLen b.mem + 12) := fun hr => ho (.inr (.inl hr))
  have hopt : ∀ q, l4 b.mem 18 + 12 ≤ q → (showToExt b c).mem q = b.mem q := by
    intro q hq
    rw [l4_eq] at hq
    exact haddr q (by omega) (by omega)
  dsimp only
  rw [forwardChecksums_of_not hn, redirectHih2ext_apply hm₂]
  · exact haddr _ (by omega) (by omega)
  · rw [hl, l4_eq]
    omega
  · rw [hl, timestampOctet_congr hopt]
    exact fun hr => ho (.inr (.inr hr))

end

/-! ### One rewriting -/

section

variable {n k : ℕ} {f : Frame} {b b' : Buffer} {nf : NatFields} {shost : MacAddr}
  {origin destination : Role} {c : Conn}

theorem natTranslate_laid (h : Laid n f b) (hn : 18 ≤ n) (hx : origin = .ext → f.vlan = none)
    (hb : natTranslate b shost nf origin destination = some b') :
    ∃ w, Laid n { f with shost := shost, dhost := nf.dstMac, vlan := w } b' := by
  have hhosts := h.hosts shost nf.dstMac
  by_cases ho : origin = .ext
  · subst ho
    rw [natTranslate_ext] at hb
    cases hb
    split_ifs
    · exact ⟨_, (hhosts.dnat nf.dstIp).pushTag (hx rfl) nf.dstVlan⟩
    · exact ⟨_, (hhosts.dnat nf.dstIp).popTag hn⟩
  · obtain rfl | rfl | rfl := (directed_of_some hb).resolve_left ho
    · rw [natTranslate_intra ho] at hb
      cases hb
      exact (hhosts.dnat nf.dstIp).changeTag nf.dstVlan
    · rw [natTranslate_toExt ho] at hb
      cases hb
      exact ⟨_, (hhosts.snat nf.srcIp).popTag hn⟩
    · rw [natTranslate_hih ho] at hb
      cases hb
      exact (hhosts.snat nf.srcIp).changeTag nf.dstVlan

/-- `nat` keeps the layout of a frame. A packet of EXT has no tag. -/
theorem nat_laid (h : Laid n f b) (hn : 18 ≤ n) (hx : origin = .ext → f.vlan = none)
    (shost : MacAddr) (nf : NatFields) (destination : Role) :
    ∃ w, Laid n { f with shost := shost, dhost := nf.dstMac, vlan := w }
      (nat b shost nf origin destination) := by
  unfold nat
  cases hb : natTranslate b shost nf origin destination with
  | none => exact ⟨f.vlan, h.hosts shost nf.dstMac⟩
  | some b₁ =>
    obtain ⟨w, hw⟩ := natTranslate_laid h hn hx hb
    exact ⟨w, hw.congr rfl rfl fun q hq => natChecksums_apply fun o ho => by omega⟩

theorem forwardExt2hih_laid (h : Laid n f b) (shost : MacAddr) (hd : Handler) (c : Conn) :
    ∃ w, Laid n { f with shost := shost, dhost := hd.mac, vlan := w }
      (forwardExt2hih b shost hd c) := by
  obtain ⟨w, hw⟩ := ((h.hosts shost hd.mac).dnat hd.ip).forwardTag hd.vlan
  refine ⟨w, hw.congr rfl rfl fun q hq => ?_⟩
  exact (forwardChecksums_apply (.inl (by omega))).trans (redirectExt2hih_before hq)

theorem forwardHih2ext_laid (h : Laid n f b) (hn : 18 ≤ n)
    (hb : forwardHih2ext b c k = some b') :
    Laid n { f with shost := c.firstPktDstMac, dhost := c.firstPktSrcMac, vlan := none } b' := by
  obtain ⟨m₂, hm₂, rfl⟩ := Option.map_eq_some_iff.1 hb
  have hext : Laid n _ (showToExt b c) :=
    ((h.hosts c.firstPktDstMac c.firstPktSrcMac).snat c.firstPktDstIp).popTag hn
  refine hext.congr rfl rfl fun q hq => ?_
  have hl : 18 ≤ l4 (showToExt b c).mem 18 := Nat.le_add_right _ _
  refine (forwardChecksums_apply (.inl (by omega))).trans
    (redirectHih2ext_apply hm₂ (.inl (by omega)) ?_)
  -- the options are behind the IP header
  rintro (⟨-, hq'⟩ | ⟨p, hp, -, hle, -⟩)
  · omega
  · have := hp.le
    omega

end

/-! ### Rewritten packets -/

section

variable {l : Listener} {c : Capture} {p : Packet} {rs : List Rewrite} {b : Buffer}

theorem initPkt_origin {ethertype : BitVec 16} (h : (initPkt l c ethertype).val = some p) :
    p.origin = if l.target then .ext else .int := by
  unfold initPkt at h
  revert h
  generalize (if ethertype = ETHERTYPE_IP then ETHER_HDR_LEN else VLAN_ETH_HLEN) = ip
  generalize (if l.target then Role.ext else Role.int) = origin
  intro h
  simp only [Reads.val_bind, Reads.val_ite, Reads.val_pure] at h
  split_ifs at h
  · cases h
    rfl
  · cases h
    rfl

/-- The origin of a packet, by the interface that has received it. -/
theorem processPacket_origin (h : (processPacket l c).val = some p) :
    p.origin = if l.target then .ext else .int := by
  unfold processPacket at h
  by_cases hlen : c.len < MIN_PACKET_SIZE
  · simp [hlen] at h
  rw [if_neg hlen] at h
  simp only [Reads.val_bind, Reads.val_ite, Reads.val_pure] at h
  split_ifs at h
  · exact initPkt_origin (checkIp_some h).2.2
  · exact initPkt_origin (checkIp_some h).2.2

/-- Tagged frames of EXT are not queued. -/
theorem Accepted.untagged (h : Accepted l c p) (ho : p.origin = .ext) :
    (frameOf p.frame p.ip).vlan = none := by
  have htarget : l.target = true := by
    by_contra hno
    rw [processPacket_origin h.accepted, if_neg hno] at ho
    cases ho
  obtain ⟨hip, -, -, hinit⟩ := processPacket_some h.accepted
  obtain ⟨queue, hq⟩ := h.queued
  have htype : c.bytes.be16 12 = ETHERTYPE_IP := by
    by_contra hne
    unfold ipOffset at hip
    rw [if_neg hne] at hip
    split_ifs at hip with hv
    have harp : ETHERTYPE_VLAN ≠ ETHERTYPE_ARP := by decide
    have hvlan : ETHERTYPE_VLAN ≠ ETHERTYPE_IP := by decide
    simp [pcapCb, htarget, hv.1, harp, hvlan] at hq
  rw [hinit.frame]
  exact if_pos htype

/-- `init_pkt` lays the frame out. -/
theorem Accepted.laid (h : Accepted l c p) :
    Laid (18 + (totLen p.frame p.ip).toNat) (frameOf p.frame p.ip) p.buffer := by
  obtain ⟨hip, -, -, hinit⟩ := processPacket_some h.accepted
  obtain ⟨hle, -⟩ := buffer_framed h.accepted
  refine ⟨buffer_linked h.accepted, ?_, ?_⟩
  · rw [← hinit.frame] at hip
    unfold ipOffset at hip
    split_ifs at hip with he hv
    · rw [← he]
      refine Octets.be16_congr fun i _ => congrArg p.frame ?_
      have := Option.some.inj hip
      rw [ETHER_HDR_LEN] at this
      omega
    · rw [← hv.2]
      refine Octets.be16_congr fun i _ => congrArg p.frame ?_
      have := Option.some.inj hip
      rw [VLAN_ETH_HLEN] at this
      omega
  · have hsize := hinit.size
    rw [← hinit.frame] at hsize
    simp only [Packet.buffer]
    omega

/-- What a sequence of rewritings must leave of a frame: its layout, the addresses of the last
rewriting, and the octets from the IP header on in their place. -/
structure LaidOut (c : Capture) (p : Packet) (rs : List Rewrite) (b : Buffer) : Prop where
  layout : Layout (frameLen c p) b
  hosts : (b.mem.be48 (b.eth + 6), b.mem.be48 b.eth) =
    (rs.getLast?.map Rewrite.hosts).getD (p.frame.be48 6, p.frame.be48 0)
  unmoved : ∀ o, ¬RewrittenOctet p.buffer.mem o → b.mem (18 + o) = p.frame (p.ip + o)

theorem Accepted.ipLen_ge (h : Accepted l c p) : 20 ≤ ipLen p.buffer.mem := by
  obtain ⟨-, h₅, -, hinit⟩ := processPacket_some h.accepted
  rw [← hinit.frame] at h₅
  have : 5 ≤ (ihl p.buffer.mem 18).toNat := by
    rw [buffer_ihl (buffer_framed h.accepted).1]
    exact h₅
  unfold ipLen
  omega

/-- The start of the IP header, with its length and the total length, is not written. -/
theorem not_rewrittenOctet {m : Octets} {o : ℕ} (h : 20 ≤ ipLen m) (ho : o < 10) :
    ¬RewrittenOctet m o := by
  rintro (h' | h' | ⟨-, h'⟩ | ⟨q, hq, -, hle, -⟩)
  · unfold NatOctet at h'
    omega
  · omega
  · rw [l4_eq] at h'
    omega
  · have := hq.le
    rw [l4_eq] at this
    omega

/-- A frame that is laid out over the octets of the packet. -/
theorem Accepted.laidOut {f : Frame} (h : Accepted l c p)
    (hl : Laid (18 + (totLen p.frame p.ip).toNat) f b)
    (hosts : (f.shost, f.dhost) =
      (rs.getLast?.map Rewrite.hosts).getD (p.frame.be48 6, p.frame.be48 0))
    (hm : ∀ o, ¬RewrittenOctet p.buffer.mem o → b.mem (18 + o) = p.buffer.mem (18 + o)) :
    LaidOut c p rs b := by
  obtain ⟨-, -, -, hinit⟩ := processPacket_some h.accepted
  obtain ⟨hle, -⟩ := buffer_framed h.accepted
  have hunmoved : ∀ o, ¬RewrittenOctet p.buffer.mem o → b.mem (18 + o) = p.frame (p.ip + o) :=
    fun o ho => (hm o ho).trans (buffer_apply hle o)
  have hlen : totLen b.mem 18 = totLen p.frame p.ip :=
    congrArg₂ (· ++ ·) (hunmoved 2 (not_rewrittenOctet h.ipLen_ge (by decide)))
      (hunmoved 3 (not_rewrittenOctet h.ipLen_ge (by decide)))
  have hsize := hl.size
  rw [← hlen] at hsize
  refine ⟨⟨?_, ?_⟩, ?_, hunmoved⟩
  · have hcaptured := h.captured
    rw [hinit.fragmented, hinit.size, ← hinit.frame, ← hlen] at hcaptured
    have := of_decide_eq_false hcaptured
    unfold frameLen
    omega
  · obtain ⟨he, htype, -⟩ | ⟨he, htype, -⟩ := hl.linked.tag
    · refine .inl ⟨by rw [he, htype], by rw [he]; rfl, ?_⟩
      rw [ETHER_HDR_LEN]
      omega
    · refine .inr ⟨by rw [he, htype], by rw [he, hl.inner], by rw [he]; rfl, ?_⟩
      rw [VLAN_ETH_HLEN]
      omega
  · rw [hl.linked.dhost, hl.linked.shost, hosts]

/-- **Layout.** After every sequence of rewritings of an accepted packet, the Ethernet header is in
the buffer and directly before the IP header, the size of the frame is that of its headers and the
packet, the addresses are those of the last rewriting, and no octet of the packet has moved. -/
theorem layout_kept (h : Accepted l c p) (hs : Applied p rs)
    (hb : applyAll rs p.buffer = some b) : LaidOut c p rs b := by
  have hlaid := h.laid
  have hn : 18 ≤ 18 + (totLen p.frame p.ip).toNat := Nat.le_add_right _ _
  have h20 := h.ipLen_ge
  have hf := hlaid.linked.framed
  cases hs with
  | none =>
    cases hb
    exact h.laidOut hlaid rfl fun _ _ => rfl
  | nat shost n destination ho =>
    cases hb
    obtain ⟨w, hw⟩ := nat_laid hlaid hn (fun hext => h.untagged (ho hext)) shost n destination
    exact h.laidOut hw rfl fun o ho => nat_untouched hf fun hr => ho (.inl hr)
  | hih2ext c' rounds =>
    obtain ⟨b', hb', hb⟩ := Option.bind_eq_some_iff.1 hb
    cases hb
    exact h.laidOut (forwardHih2ext_laid hlaid hn hb') rfl
      fun o ho => forwardHih2ext_untouched hf h20 hb' ho
  | ext2hih shost hd c' ho =>
    cases hb
    obtain ⟨w, hw⟩ := forwardExt2hih_laid hlaid shost hd c'
    exact h.laidOut hw rfl fun o ho =>
      forwardExt2hih_untouched hf h20 (fun hr => ho (.inl hr)) fun hr => ho (.inr (.inl hr))
  | replayed shost n origin destination shost' hd c' ho =>
    cases hb
    have huntagged : origin = .ext → (frameOf p.frame p.ip).vlan = none := fun _ => h.untagged ho
    obtain ⟨w, hw⟩ := nat_laid hlaid hn huntagged shost n destination
    obtain ⟨w', hw'⟩ := forwardExt2hih_laid hw shost' hd c'
    have hip : ipLen (nat p.buffer shost n origin destination).mem = ipLen p.buffer.mem := by
      have h0 : ¬NatOctet 0 := by
        unfold NatOctet
        omega
      have hfirst : (nat p.buffer shost n origin destination).mem 18 = p.buffer.mem 18 :=
        nat_untouched hf h0
      rw [ipLen, ipLen, ihl, ihl]
      exact congrArg (fun w => (BitVec.extractLsb' 0 4 w).toNat * 4) hfirst
    refine h.laidOut hw' rfl fun o ho => ?_
    have hnat : ¬NatOctet o := fun hr => ho (.inl hr)
    rw [forwardExt2hih_untouched hw.linked.framed (by omega) hnat
      fun hr => ho (.inr (.inl (by omega)))]
    exact nat_untouched hf hnat

/-- A packet is proxied to a honeypot on one VLAN, and then replayed to one on another. -/
def Sample.retagged : List Rewrite :=
  [.nat 1 { dstMac := 2, dstVlan := ⟨0x0a00⟩ } .ext .lih,
    .forwardExt2hih 3 { mac := 4, ip := 5, vlan := ⟨0x0b00⟩, iface := none } (outOfSync 0)]

theorem layout_kept_syn :
    ∃ p b, Accepted { target := true, mac := 0 } Sample.synFrame p ∧ Applied p Sample.retagged ∧
      applyAll Sample.retagged p.buffer = some b ∧ LaidOut Sample.synFrame p Sample.retagged b := by
  obtain ⟨p, hp, ho⟩ : ∃ p, Accepted { target := true, mac := 0 } Sample.synFrame p ∧
      p.origin = .ext := ⟨_, ⟨⟨_, rfl⟩, rfl, rfl⟩, rfl⟩
  have hs : Applied p Sample.retagged := .replayed _ _ _ _ _ _ _ ho
  exact ⟨p, _, hp, hs, rfl, layout_kept hp hs rfl⟩

end

end Wire

end Honeybrid
