import Honeybrid.Decoding

/-!
# The frames that are sent

What `pcap_inject` sends of a packet is the memory from its Ethernet header on. Whoever captures
this frame decodes it as `init_pkt` does. For the packets without IP options, decoding and rewriting
commute: the frame that is sent for a captured frame decodes to what the engine makes of the decoded
frame.

The fields of the TCP header of a UDP packet mean nothing, and do not count.

## Main definitions

* `sent`, `sentFrame`: the frame that is sent of a buffer, and its fields.
* `Frame.meant`: the fields of a frame that mean something.

## Main results

* `Shows.decoded`: the frame that is sent decodes to the packet.
* `nat_decoded`, `forwardExt2hih_decoded`, `forwardHih2ext_decoded`: decoding and rewriting commute.
-/

namespace Honeybrid

/-- A frame without the fields that mean nothing. -/
def Frame.meant (f : Frame) : Frame :=
  if f.protocol = IPPROTO_TCP then f else { f with tcp := {} }

namespace Wire

/-- The frame that `pcap_inject` sends. -/
def sent (b : Buffer) : Octets := fun o =>
  b.mem (b.eth + o)

/-- The fields of the frame that is sent, the IP header of which is at offset 18 of the buffer. -/
def sentFrame (b : Buffer) : Frame :=
  frameOf (sent b) (18 - b.eth)

section

variable {b : Buffer} {pkt : Pkt} {f : Frame}

theorem sent_eth (h : Linked b f) (o : ℕ) : sent b (18 - b.eth + o) = b.mem (18 + o) := by
  have hle : b.eth ≤ 18 := by
    obtain ⟨he, -⟩ | ⟨he, -⟩ := h.tag <;> omega
  exact congrArg b.mem (by omega)

/-- The tag of the frame that is sent. -/
theorem Linked.vlan (h : Linked b f) :
    (if (sent b).be16 12 = ETHERTYPE_IP then none else some (⟨(sent b).le16 14⟩ : VlanTci)) =
      f.vlan := by
  have hne : ETHERTYPE_VLAN ≠ ETHERTYPE_IP := by decide
  obtain ⟨he, htype, hv⟩ | ⟨he, htype, hv⟩ := h.tag
  · have hsent : (sent b).be16 12 = ETHERTYPE_IP := by
      rw [← htype]
      exact Octets.be16_congr fun i hi => congrArg b.mem (by omega)
    rw [if_pos hsent, hv]
  · have hsent : (sent b).be16 12 = ETHERTYPE_VLAN := by
      rw [← htype]
      exact Octets.be16_congr fun i hi => congrArg b.mem (by omega)
    have htci : (sent b).le16 14 = b.mem.le16 14 :=
      Octets.le16_congr fun i hi => congrArg b.mem (by omega)
    rw [if_neg (by rw [hsent]; exact hne), hv, htci]

/-- The TCP header of the frame that is sent. -/
theorem tcpHdr_sent (h : Linked b f) : tcpHdr (sent b) (18 - b.eth + 20) = tcpHdr b.mem 38 := by
  have heth : 18 - b.eth + 20 + b.eth = 38 := by
    obtain ⟨he, -⟩ | ⟨he, -⟩ := h.tag <;> omega
  have hoctet (o : ℕ) : sent b (18 - b.eth + 20 + o) = b.mem (38 + o) :=
    congrArg b.mem (by omega)
  have hword (o : ℕ) : (sent b).be32 (18 - b.eth + 20 + o) = b.mem.be32 (38 + o) :=
    Octets.be32_congr fun i _ => (congrArg (sent b) (Nat.add_assoc ..)).trans
      ((hoctet (o + i)).trans (congrArg b.mem (Nat.add_assoc ..).symm))
  have hts : timestamp (sent b) (18 - b.eth + 20) = timestamp b.mem 38 := by
    rw [timestamp, timestamp, ← heth, get_moved (k := b.eth) (m := sent b)]
    · exact congrArg b.mem (by omega)
    · exact fun q _ => congrArg b.mem (by omega)
  simp only [tcpHdr, doff, tcpFlag, hoctet, hword, hts]

/-- A frame is given by its fields. The TCP header of a UDP packet is left open. -/
theorem frameOf_eq {m : Octets} {ip : ℕ} (hdhost : m.be48 0 = f.dhost)
    (hshost : m.be48 6 = f.shost)
    (hvlan : (if m.be16 12 = ETHERTYPE_IP then none else some (⟨m.le16 14⟩ : VlanTci)) = f.vlan)
    (hihl : ihl m ip = f.ihl) (hlen : totLen m ip = f.totLen) (hproto : protocol m ip = f.protocol)
    (hsaddr : saddr m ip = f.saddr) (hdaddr : daddr m ip = f.daddr)
    (hsource : source m (l4 m ip) = f.source) (hdest : dest m (l4 m ip) = f.dest)
    (hpayload : m.block (l4 m ip + l4Len m ip)
      ((totLen m ip).toNat - (ihl m ip).toNat * 4 - l4Len m ip) = f.payload) :
    frameOf m ip = { f with tcp := tcpHdr m (l4 m ip) } := by
  rw [frameOf, hpayload, hdhost, hshost, hvlan, hihl, hlen, hproto, hsaddr, hdaddr, hsource, hdest]
  rfl

theorem meant_withTcp {hdr : TcpHdr} (h : f.protocol = IPPROTO_TCP → hdr = f.tcp) :
    ({ f with tcp := hdr } : Frame).meant = f.meant := by
  unfold Frame.meant
  by_cases hp : f.protocol = IPPROTO_TCP
  · rw [if_pos hp, if_pos hp, h hp]
  · rw [if_neg hp, if_neg hp]

/-- **Decoding.** The frame that is sent of a buffer decodes to the packet that the buffer shows. -/
theorem Shows.decoded (h : Shows b pkt) :
    (sentFrame b).meant = pkt.packet.meant := by
  have hlink := h.linked
  have hcarries := h.carries
  have hmem := sent_eth hlink
  have hihl : ihl (sent b) (18 - b.eth) = 5 := by
    rw [ihl, show sent b (18 - b.eth) = b.mem 18 from hmem 0]
    exact hcarries.ihl.1
  have hl4 : l4 (sent b) (18 - b.eth) = 18 - b.eth + 20 := by
    rw [l4, hihl]
    rfl
  have hlen : totLen (sent b) (18 - b.eth) = pkt.packet.totLen := by
    rw [← hcarries.totLen]
    exact Octets.be16_congr fun i _ => by rw [Nat.add_assoc, hmem, ← Nat.add_assoc]
  have hproto : protocol (sent b) (18 - b.eth) = pkt.packet.protocol := by
    rw [← hcarries.protocol]
    exact hmem 9
  have htcp := tcpHdr_sent hlink
  have hl4Len : l4Len (sent b) (18 - b.eth) = headerLen pkt.packet := by
    rw [l4Len, headerLen, hproto, hl4]
    by_cases hp : pkt.packet.protocol = IPPROTO_TCP
    · rw [if_pos hp, if_pos hp, ← (hcarries.tcp hp).1, ← htcp]
      rfl
    · rw [if_neg hp, if_neg hp]
  have hframe : frameOf (sent b) (18 - b.eth) =
      { pkt.packet with tcp := tcpHdr (sent b) (l4 (sent b) (18 - b.eth)) } := by
    refine frameOf_eq ?_ ?_ hlink.vlan (hihl.trans hcarries.ihl.2.symm) hlen hproto ?_ ?_ ?_ ?_ ?_
    · exact hlink.dhost
    · exact hlink.shost
    · rw [← hcarries.saddr]
      exact Octets.le32_congr fun i _ => by rw [Nat.add_assoc, hmem, ← Nat.add_assoc]
    · rw [← hcarries.daddr]
      exact Octets.le32_congr fun i _ => by rw [Nat.add_assoc, hmem, ← Nat.add_assoc]
    · rw [hl4, ← hcarries.source]
      exact Octets.le16_congr fun i _ => by rw [Nat.add_assoc, hmem, ← Nat.add_assoc]
    · rw [hl4, ← hcarries.dest]
      exact Octets.le16_congr fun i _ => by
        rw [Nat.add_assoc, Nat.add_assoc, hmem, ← Nat.add_assoc, ← Nat.add_assoc]
    · rw [hl4, hl4Len, hlen, hihl, ← hcarries.payload]
      exact Checksum.block_congr fun i _ => by
        rw [Nat.add_assoc, Nat.add_assoc, hmem, ← Nat.add_assoc, ← Nat.add_assoc]
  rw [sentFrame, hframe, hl4, htcp]
  exact meant_withTcp fun hp => (hcarries.tcp hp).1

/-- The packet that leaves `forward_ext2hih` is the one that is sent. -/
theorem forwardExt2hih_inject {g : Globals} {id : ConnId} {c : Conn} {hd : Handler} {out : IfaceId}
    {pkt' : Pkt} {ev : List Event} (hb : c.hih.backHandler = some hd) (hi : hd.iface = some out)
    (h : Honeybrid.forwardExt2hih g id c pkt = .ok (pkt', ev)) :
    ev = [inject id c .forwardExt2hih out pkt'] := by
  simp only [Honeybrid.forwardExt2hih, hb, hi, Option.orFail_some, Except.ok_bind] at h
  cases h
  rfl

theorem forwardHih2ext_inject {t : Target} {id : ConnId} {c : Conn} {out : IfaceId} {pkt' : Pkt}
    {ev : List Event} (hr : t.defaultRoute = some out)
    (h : Honeybrid.forwardHih2ext t id c pkt = .ok (pkt', ev)) :
    ev = [inject id c .forwardHih2ext out pkt'] := by
  simp only [Honeybrid.forwardHih2ext, hr] at h
  cases h
  rfl

/-- The buffer shows the packet whatever its origin and its destination. -/
theorem Shows.roles (h : Shows b pkt) (origin destination : Role) :
    Shows b { pkt with origin, destination } :=
  ⟨h.linked, h.carries, h.size⟩

end

section

variable {l : Listener} {cap : Capture} {p : Packet} (i : IfaceId) (origin destination : Role)

/-- **Translated frames.** A frame without IP options was accepted. The frame that is sent after
`nat` has translated its octets decodes to what the engine makes of the decoded packet, and is as
long, whatever the addresses, the origin and the destination. -/
theorem nat_decoded (h : (processPacket l cap).val = some p) (h5 : ihl p.frame p.ip = 5)
    (g : Globals) (n : NatFields) (out : IfaceId) :
    (sentFrame (nat p.buffer (g.links out).mac n origin destination)).meant =
        (Honeybrid.nat g n out { p.toPkt i with origin, destination }).packet.meant ∧
      (nat p.buffer (g.links out).mac n origin destination).size =
        (Honeybrid.nat g n out { p.toPkt i with origin, destination }).size := by
  have hshows : Shows p.buffer (p.toPkt i) := buffer_shows h h5
  have hnat := nat_shows (hshows.roles origin destination) g n out
  exact ⟨hnat.decoded, hnat.size⟩

namespace Sample

/-- Links with one hardware address. -/
def oneMac : Globals where
  maxPacketBuffer := 8
  links := fun _ => { mac := 0x020000000001 }

/-- A high-interaction honeypot on VLAN 5. -/
def taggedHih : Handler where
  mac := 0x020000000003
  ip := 0x0a00000a
  iface := some 2
  vlan := ⟨0x0005⟩

/-- The fields of a redirection to that honeypot. -/
def toTagged : NatFields where
  dstMac := taggedHih.mac
  dstIp := taggedHih.ip
  dstVlan := taggedHih.vlan

/-- A connection that was redirected to it. -/
def redirectedConn : Conn where
  protocol := IPPROTO_TCP
  accessTime := 0
  state := .forward
  initiator := .ext
  destination := .hih
  firstPktSrcMac := 7
  firstPktDstMac := 8
  firstPktSrcIp := 0x071433c6
  firstPktDstIp := 0x010200c0
  firstPktSrcPort := 12345
  firstPktDstPort := 80
  hih := { backHandler := some taggedHih, port := 80, delta := 1000 }
  target := 0

theorem exists_syn : ∃ p,
    (processPacket { target := false, mac := 0 } synFrame).val = some p ∧
      ihl p.frame p.ip = 5 :=
  ⟨_, rfl, rfl⟩

end Sample

/-- A SYN is translated to a host on VLAN 5. -/
theorem nat_decoded_syn : ∃ p,
    (processPacket { target := false, mac := 0 } Sample.synFrame).val = some p ∧
      (sentFrame (nat p.buffer 0x020000000001 Sample.toTagged .ext .lih)).meant =
        (Honeybrid.nat Sample.oneMac Sample.toTagged 1
          { p.toPkt 0 with origin := .ext, destination := .lih }).packet.meant := by
  obtain ⟨p, hp, h5⟩ := Sample.exists_syn
  exact ⟨p, hp, (nat_decoded 0 .ext .lih hp h5 Sample.oneMac Sample.toTagged 1).1⟩

/-- **Frames to the honeypot.** A frame without IP options was accepted. The frame that
`forward_ext2hih` sends decodes to the frame that the engine sends. -/
theorem forwardExt2hih_decoded (h : (processPacket l cap).val = some p)
    (h5 : ihl p.frame p.ip = 5) (g : Globals) (id : ConnId) {c : Conn} {hd : Handler}
    {out : IfaceId} (hb : c.hih.backHandler = some hd) (hi : hd.iface = some out) :
    ∃ pkt', Honeybrid.forwardExt2hih g id c { p.toPkt i with origin, destination } =
        .ok (pkt', [inject id c .forwardExt2hih out pkt']) ∧
      (sentFrame (forwardExt2hih p.buffer (g.links out).mac hd c)).meant = pkt'.packet.meant ∧
      (forwardExt2hih p.buffer (g.links out).mac hd c).size = pkt'.size := by
  have hshows : Shows p.buffer (p.toPkt i) := buffer_shows h h5
  obtain ⟨pkt', ev, hok, hout⟩ :=
    forwardExt2hih_shows (g := g) (i := id) (hshows.roles origin destination) hb hi
  obtain rfl := forwardExt2hih_inject hb hi hok
  exact ⟨pkt', hok, hout.decoded, hout.size⟩

theorem forwardExt2hih_decoded_syn : ∃ p pkt',
    (processPacket { target := false, mac := 0 } Sample.synFrame).val = some p ∧
      (sentFrame (forwardExt2hih p.buffer 0x020000000001 Sample.taggedHih
        Sample.redirectedConn)).meant = pkt'.packet.meant ∧
      Honeybrid.forwardExt2hih Sample.oneMac 1 Sample.redirectedConn
          { p.toPkt 0 with origin := .ext, destination := .hih } =
        .ok (pkt', [inject 1 Sample.redirectedConn .forwardExt2hih 2 pkt']) := by
  obtain ⟨p, hp, h5⟩ := Sample.exists_syn
  obtain ⟨pkt', hok, hdecoded, -⟩ := forwardExt2hih_decoded 0 .ext .hih hp h5 Sample.oneMac 1
    (show Sample.redirectedConn.hih.backHandler = some Sample.taggedHih from rfl)
    (show Sample.taggedHih.iface = some 2 from rfl)
  exact ⟨p, pkt', hp, hdecoded, hok⟩

/-- **Frames of the honeypot.** A frame without IP options was accepted, its total length covers its
headers, and its timestamp option, if it is found, lies inside of it. If `forward_hih2ext` returns,
the frame that it sends decodes to the frame that the engine sends. -/
theorem forwardHih2ext_decoded (h : (processPacket l cap).val = some p)
    (h5 : ihl p.frame p.ip = 5) (id : ConnId) {t : Target} {c : Conn} {out : IfaceId} {n : ℕ}
    {b' : Buffer} (hr : t.defaultRoute = some out)
    (hcov : 38 + headerLen (p.toPkt i).packet ≤ 18 + (p.toPkt i).packet.totLen.toNat)
    (hin : (p.toPkt i).packet.protocol = IPPROTO_TCP →
      TimestampInside p.buffer.mem 38 (18 + (p.toPkt i).packet.totLen.toNat))
    (hb : forwardHih2ext p.buffer c n = some b') :
    ∃ pkt', Honeybrid.forwardHih2ext t id c { p.toPkt i with origin, destination } =
        .ok (pkt', [inject id c .forwardHih2ext out pkt']) ∧
      (sentFrame b').meant = pkt'.packet.meant ∧ b'.size = pkt'.size := by
  have hshows : Shows p.buffer (p.toPkt i) := buffer_shows h h5
  obtain ⟨pkt', ev, hok, hout⟩ :=
    forwardHih2ext_shows (i := id) (hshows.roles origin destination) hr hcov hin hb
  obtain rfl := forwardHih2ext_inject hr hok
  exact ⟨pkt', hok, hout.decoded, hout.size⟩

/-- A TCP packet with a timestamp in an untagged frame. -/
def Sample.stampedFrame : Capture where
  len := 66
  caplen := 66
  bytes := Octets.write (fun _ => 0) 12
    [0x08, 0x00, 0x45, 0, 0x00, 0x34, 0, 0, 0, 0, 0x40, 0x06, 0, 0, 198, 51, 100, 7, 192, 0, 2, 1,
      0x30, 0x39, 0x00, 0x50, 0, 0, 0, 1, 0, 0, 0, 0, 0x80, 0x10, 0, 0, 0, 0, 0, 0,
      1, 1, 8, 10, 0, 0, 0, 7, 0, 0, 0, 9]

/-- A redirected connection whose honeypots have clocks that differ by five. -/
def Sample.stampedConn : Conn :=
  { Sample.redirectedConn with replayProblem := { tcpTsOutOfSync := true }, tcpTsDiff := 5 }

/-- A packet of the honeypot with a timestamp, which is set to the clock of the other one. -/
theorem forwardHih2ext_decoded_stamped : ∃ p b' pkt',
    (processPacket { target := false, mac := 0 } Sample.stampedFrame).val = some p ∧
      forwardHih2ext p.buffer Sample.stampedConn 1 = some b' ∧
      (sentFrame b').meant = pkt'.packet.meant ∧ pkt'.packet.tcp.ts = some 12 ∧
      Honeybrid.forwardHih2ext { defaultRoute := some 1 } 1 Sample.stampedConn
          { p.toPkt 0 with origin := .hih, destination := .ext } =
        .ok (pkt', [inject 1 Sample.stampedConn .forwardHih2ext 1 pkt']) := by
  obtain ⟨p, hp, h5, haligned⟩ : ∃ p,
      (processPacket { target := false, mac := 0 } Sample.stampedFrame).val = some p ∧
        ihl p.frame p.ip = 5 ∧ aligned p.buffer.mem 38 = true :=
    ⟨_, rfl, rfl, rfl⟩
  obtain ⟨b', hb⟩ : ∃ b', forwardHih2ext p.buffer Sample.stampedConn 1 = some b' := by
    cases hp
    exact ⟨_, rfl⟩
  have hinside : TimestampInside p.buffer.mem 38 (18 + (p.toPkt 0).packet.totLen.toNat) := by
    intro q hq hk
    have hdoff : doff p.buffer.mem 38 = 8 := (of_decide_eq_true haligned).1
    rw [hq.eq_of_aligned hk haligned, hdoff]
    exact .inl (by decide)
  obtain ⟨pkt', hok, hdecoded, -⟩ := forwardHih2ext_decoded 0 .hih .ext hp h5 1
    (show ({ defaultRoute := some 1 } : Target).defaultRoute = some 1 from rfl)
    (by cases hp; decide) (fun _ => hinside) hb
  have hts : pkt'.packet.tcp.ts = some 12 := by
    cases hp
    cases hok
    rfl
  exact ⟨p, b', pkt', hp, hb, hdecoded, hts, hok⟩

end

end Wire

end Honeybrid
