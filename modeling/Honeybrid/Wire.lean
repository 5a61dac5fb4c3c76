import Honeybrid.Queues
import Honeybrid.TcpOptions

/-!
# Frames as octets

The way of a captured frame from `pcap_cb` to `conn_lookup`, over the octets at `packet`. Only
`header->caplen` of them were captured; what lies behind them in memory is arbitrary, and every
function is written in `Reads`, so that the offsets it reads are part of its result. The copies of
the whole capture (`g_memdup` in `pcap_cb`, `memcpy` in `init_pkt`) carry their own length and are
not listed.

The fields of a frame that the functions of `connections.c` and `honeybrid.c` work with are those
that are decoded here: `processPacket_val` and `receive_val` connect the two.

## Main definitions

* `pcapCb`, `sendArpReply`, `processPacket`, `initPkt`, `connLookup`, `receive`.
* `frameOf`, `Packet.toPkt`: the header fields of a frame.
* `extent`: how far the headers reach that a frame announces.

## Main results

* `processPacket_val`, `receive_val`: the functions on octets compute what those on fields do.
* `receive_within_iff`: a frame is parsed inside its capture exactly if the capture covers the
  headers it announces.
* `lengths_exact_iff`: the lengths of an accepted packet are exact if its total length covers its
  headers.
-/

namespace Honeybrid

namespace Wire

/-- The type of an IP datagram. -/
def ETHERTYPE_IP : BitVec 16 := 0x0800

/-- The type of an ARP message. -/
def ETHERTYPE_ARP : BitVec 16 := 0x0806

/-- The type of a VLAN tag. -/
def ETHERTYPE_VLAN : BitVec 16 := 0x8100

/-- The operation of an ARP request. -/
def ARPOP_REQUEST : BitVec 16 := 1

/-- What is read of the receiving interface and of the settings. -/
structure Listener where
  target : Bool
  mac : MacAddr
  broadcastAllowed : Bool := false
  threads : BitVec 32 := 1

/-- What `pcap_loop` hands over, with the memory at `packet`. -/
structure Capture where
  len : ℕ
  caplen : ℕ
  bytes : Octets

/-! ### Header fields -/

variable (m : Octets) (ip th : ℕ)

/-- `ip->ihl`, the words of the IP header. -/
def ihl : BitVec 4 :=
  (m ip).extractLsb' 0 4

/-- `ip->tot_len`, in host byte order. -/
def totLen : BitVec 16 :=
  m.be16 (ip + 2)

/-- `ip->protocol`. -/
def protocol : BitVec 8 :=
  m (ip + 9)

/-- `ip->saddr`. -/
def saddr : IpAddr :=
  m.le32 (ip + 12)

/-- `ip->daddr`. -/
def daddr : IpAddr :=
  m.le32 (ip + 16)

/-- The offset of the TCP or UDP header. -/
def l4 : ℕ :=
  ip + (ihl m ip).toNat * 4

/-- `tcp->source` and `udp->source`. -/
def source : Port :=
  m.le16 th

/-- `tcp->dest` and `udp->dest`. -/
def dest : Port :=
  m.le16 (th + 2)

/-- A bit of the octet that holds the TCP flags. -/
def tcpFlag (bit : ℕ) : Bool :=
  (m (th + 13)).getLsbD bit

/-! ### Reception -/

/-- The octets of a hardware address. -/
def macOctets (a : MacAddr) : List (BitVec 8) :=
  [a.extractLsb' 40 8, a.extractLsb' 32 8, a.extractLsb' 24 8, a.extractLsb' 16 8,
    a.extractLsb' 8 8, a.extractLsb' 0 8]

variable (l : Listener)

/-- `send_arp_reply`: the frame that answers an ARP request. -/
def sendArpReply (ethertype : BitVec 16) : Reads (Option (List (BitVec 8))) := do
  let request := if ethertype = ETHERTYPE_ARP then ETHER_HDR_LEN else VLAN_ETH_HLEN
  let op ← m.readBe16 (request + 6)
  if op = ARPOP_REQUEST then do
    let tag ← if ethertype = ETHERTYPE_ARP then pure [] else m.readBlock ETHER_HDR_LEN VLAN_HLEN
    let sha ← m.readBlock (request + 8) 6
    let tpa ← m.readBlock (request + 24) 4
    let spa ← m.readBlock (request + 14) 4
    let type := if ethertype = ETHERTYPE_ARP then [0x08, 0x06] else [0x81, 0x00]
    return some (sha ++ macOctets l.mac ++ type ++ tag ++
      [0x00, 0x01, 0x08, 0x00, 0x06, 0x04, 0x00, 0x02] ++ macOctets l.mac ++ tpa ++
      List.replicate 6 0 ++ spa)
  else return none

/-- What `pcap_cb` does with a frame. -/
inductive Received
  | skipped
  | arp (reply : Option (List (BitVec 8)))
  | queued (queue : BitVec 32)

/-- `IP2QUEUEID`. -/
def ip2queueid : Reads (BitVec 32) :=
  if l.target then do
    let saddr ← m.readLe32 (ip + 12)
    return lastOctet saddr % l.threads
  else do
    let daddr ← m.readLe32 (ip + 16)
    return lastOctet daddr % l.threads

/-- `pcap_cb`. -/
def pcapCb : Reads Received := do
  let ethertype ← m.readBe16 12
  if ethertype = ETHERTYPE_ARP then return .arp (← sendArpReply m l ethertype)
  else if ethertype = ETHERTYPE_IP then return .queued (← ip2queueid m ETHER_HDR_LEN l)
  else if ethertype = ETHERTYPE_VLAN then
    if l.target then return .skipped
    else do
      let encapsulated ← m.readBe16 16
      if encapsulated = ETHERTYPE_ARP then return .arp (← sendArpReply m l ethertype)
      else if encapsulated = ETHERTYPE_IP then return .queued (← ip2queueid m VLAN_ETH_HLEN l)
      else return .skipped
  else return .skipped

/-- `struct pkt_struct`, with offsets where the source has pointers into the frame. -/
structure Packet where
  frame : Octets
  ip : ℕ
  th : ℕ
  payload : ℕ
  size : ℕ
  fragmented : Bool
  broadcast : Bool
  origin : Role
  data : BitVec 32

/-- `init_pkt`. -/
def initPkt (c : Capture) (ethertype : BitVec 16) : Reads (Option Packet) := do
  let m := c.bytes
  let ip := if ethertype = ETHERTYPE_IP then ETHER_HDR_LEN else VLAN_ETH_HLEN
  -- the copy of the link-layer header in `original_headers`
  let _ ← m.readBlock 0 ip
  let totLen ← m.readBe16 (ip + 2)
  let size := ip + totLen.toNat
  let dhost ← m.readBe48 0
  let ihl ← Octets.field ip 1 (ihl m ip)
  -- the copy of the IP header, and further down those of the TCP and UDP headers
  let _ ← m.readBlock ip (ihl.toNat * 4)
  let protocol ← m.readOctet (ip + 9)
  let th := ip + ihl.toNat * 4
  let ipData := totLen.setWidth 32 - ihl.setWidth 32 * 4
  let pkt : Packet :=
    { frame := m, ip, th, payload := th, size, fragmented := c.caplen < size
      broadcast := dhost == Honeybrid.broadcast, origin := if l.target then .ext else .int
      data := 0 }
  if protocol = IPPROTO_TCP then
    if size < MIN_TCP_SIZE then return none
    else do
      let doff ← Octets.field (th + 12) 1 (doff m th)
      if doff < 5 then return none
      else do
        let source ← m.readLe16 th
        if source = 0 then return none
        else do
          let dest ← m.readLe16 (th + 2)
          if dest = 0 then return none
          else do
            let _ ← m.readBlock th 20
            return some
              { pkt with payload := th + doff.toNat * 4, data := ipData - doff.setWidth 32 * 4 }
  else if protocol = IPPROTO_UDP then do
    let _ ← m.readBlock th 8
    return some { pkt with payload := th + 8, data := ipData - UDP_HDR_LEN }
  else return none

/-- The tests of `process_packet` on the IP header. -/
def checkIp (c : Capture) (ethertype : BitVec 16) (ip : ℕ) : Reads (Option Packet) := do
  let protocol ← c.bytes.readOctet (ip + 9)
  if protocol ≠ IPPROTO_TCP ∧ protocol ≠ IPPROTO_UDP then return none
  else do
    let ihl ← Octets.field ip 1 (ihl c.bytes ip)
    if ihl < 5 ∨ 8 < ihl then return none
    else initPkt l c ethertype

/-- `process_packet`. -/
def processPacket (c : Capture) : Reads (Option Packet) :=
  if c.len < MIN_PACKET_SIZE then return none
  else do
    let ethertype ← c.bytes.readBe16 12
    if ethertype = ETHERTYPE_IP then checkIp l c ethertype ETHER_HDR_LEN
    else if ethertype = ETHERTYPE_VLAN then do
      let encapsulated ← c.bytes.readBe16 16
      if encapsulated = ETHERTYPE_IP then checkIp l c ethertype VLAN_ETH_HLEN
      else return none
    else return none

/-- The key that `conn_lookup` builds. -/
def connLookup (p : Packet) : Reads ConnKey := do
  let protocol ← p.frame.readOctet (p.ip + 9)
  let srcIp ← p.frame.readLe32 (p.ip + 12)
  let srcPort ← p.frame.readLe16 p.th
  let dstIp ← p.frame.readLe32 (p.ip + 16)
  let dstPort ← p.frame.readLe16 (p.th + 2)
  let ethertype ← p.frame.readBe16 12
  if ethertype = ETHERTYPE_IP then return { protocol, srcIp, srcPort, dstIp, dstPort }
  else do
    let tci ← p.frame.readLe16 14
    return { protocol, srcIp, srcPort, dstIp, dstPort, vlanId := VlanTci.vid ⟨tci⟩ }

/-- The part of `de_thread` between `process_packet` and `conn_lookup`. -/
def lookup (p : Packet) : Reads (Option ConnKey) :=
  if p.fragmented then return none
  else if p.broadcast then
    if l.broadcastAllowed then some <$> connLookup p else return none
  else do
    let dhost ← p.frame.readBe48 0
    if dhost ≠ l.mac then return none else some <$> connLookup p

/-- What `de_thread` does with a frame, up to `conn_lookup`. -/
def deThread (c : Capture) : Reads (Option ConnKey) := do
  match ← processPacket l c with
  | some p => lookup l p
  | none => return none

/-- A frame on its way: queued by `pcap_cb`, admitted by `process_packet`, and looked up. -/
def receive (c : Capture) : Reads (Option ConnKey) := do
  match ← pcapCb c.bytes l with
  | .queued _ => deThread l c
  | _ => return none

/-! ### The fields of a frame -/

/-- The value of the timestamp option, if `get_tcp_timestamps` finds one. -/
def timestamp : Option (BitVec 32) :=
  ((getTcpTimestamps m th 41).getD none).map Prod.fst

/-- The length of the TCP or UDP header. -/
def l4Len : ℕ :=
  if protocol m ip = IPPROTO_TCP then (doff m (l4 m ip)).toNat * 4 else 8

/-- The header fields of the frame at the start of memory whose IP header is at `ip`. -/
def frameOf : Frame where
  dhost := m.be48 0
  shost := m.be48 6
  vlan := if m.be16 12 = ETHERTYPE_IP then none else some ⟨m.le16 14⟩
  ihl := ihl m ip
  totLen := totLen m ip
  protocol := protocol m ip
  saddr := saddr m ip
  daddr := daddr m ip
  source := source m (l4 m ip)
  dest := dest m (l4 m ip)
  tcp :=
    { seq := m.be32 (l4 m ip + 4)
      ackSeq := m.be32 (l4 m ip + 8)
      doff := doff m (l4 m ip)
      syn := tcpFlag m (l4 m ip) 1
      ack := tcpFlag m (l4 m ip) 4
      fin := tcpFlag m (l4 m ip) 0
      rst := tcpFlag m (l4 m ip) 2
      ts := timestamp m (l4 m ip) }
  payload := m.block (l4 m ip + l4Len m ip)
    ((totLen m ip).toNat - (ihl m ip).toNat * 4 - l4Len m ip)

/-- Where the IP header of a frame is; frames of another type have none. -/
def ipOffset : Option ℕ :=
  if m.be16 12 = ETHERTYPE_IP then some ETHER_HDR_LEN
  else if m.be16 12 = ETHERTYPE_VLAN ∧ m.be16 16 = ETHERTYPE_IP then some VLAN_ETH_HLEN
  else none

/-- A capture as the engine sees it, with the IP header at `ip`. -/
def Capture.raw (c : Capture) (i : IfaceId) (ip : ℕ) : RawPcap where
  iface := i
  len := c.len
  caplen := c.caplen
  frame := frameOf c.bytes ip

/-- The packet of the engine that the octets are. -/
def Packet.toPkt (i : IfaceId) (p : Packet) : Pkt where
  packet := frameOf p.frame p.ip
  original := frameOf p.frame p.ip
  fragmented := p.fragmented
  broadcast := p.broadcast
  origin := p.origin
  data := p.data
  size := p.size
  inIface := i

/-- The link-layer header of a frame is as long as its type says. -/
theorem frameOf_vlan :
    (if (frameOf m ip).vlan.isSome then VLAN_ETH_HLEN else ETHER_HDR_LEN) =
      if m.be16 12 = ETHERTYPE_IP then ETHER_HDR_LEN else VLAN_ETH_HLEN := by
  by_cases h : m.be16 12 = ETHERTYPE_IP <;> simp [frameOf, h]

section

variable {μ : Type} {m ip th} {l : Listener} {c : Capture} {s : State μ} {i : IfaceId} {p : Packet}
  {k : ℕ}

theorem initPkt_val (hl : l.target = s.ifTarget[i]?.isSome) :
    (initPkt l c (c.bytes.be16 12)).val.map (Packet.toPkt i) =
      Honeybrid.initPkt s (c.raw i
        (if c.bytes.be16 12 = ETHERTYPE_IP then ETHER_HDR_LEN else VLAN_ETH_HLEN)) := by
  have hvlan := frameOf_vlan c.bytes
  unfold initPkt Honeybrid.initPkt
  revert hvlan
  generalize (if c.bytes.be16 12 = ETHERTYPE_IP then ETHER_HDR_LEN else VLAN_ETH_HLEN) = ip
  intro hvlan
  have hsize : (if (c.raw i ip).frame.vlan.isSome then VLAN_ETH_HLEN else ETHER_HDR_LEN) = ip :=
    hvlan ip
  have hproto : (c.raw i ip).frame.protocol = c.bytes (ip + 9) := rfl
  have hlen : (c.raw i ip).frame.totLen = c.bytes.be16 (ip + 2) := rfl
  have hdoff : (c.raw i ip).frame.tcp.doff = doff c.bytes (ip + (ihl c.bytes ip).toNat * 4) := rfl
  have hsrc : (c.raw i ip).frame.source = c.bytes.le16 (ip + (ihl c.bytes ip).toNat * 4) := rfl
  have hdst : (c.raw i ip).frame.dest = c.bytes.le16 (ip + (ihl c.bytes ip).toNat * 4 + 2) := rfl
  dsimp only
  rw [hsize, hproto, hlen, hdoff, hsrc, hdst]
  by_cases htcp : c.bytes (ip + 9) = IPPROTO_TCP
  · by_cases hs : ip + (c.bytes.be16 (ip + 2)).toNat < MIN_TCP_SIZE
    · simp [htcp, hs]
    by_cases hd : doff c.bytes (ip + (ihl c.bytes ip).toNat * 4) < 5#4
    · simp [htcp, hs, hd]
    by_cases h₁ : c.bytes.le16 (ip + (ihl c.bytes ip).toNat * 4) = 0#16
    · simp [htcp, hs, hd, h₁]
    by_cases h₂ : c.bytes.le16 (ip + (ihl c.bytes ip).toNat * 4 + 2) = 0#16
    · simp [htcp, hs, hd, h₁, h₂]
    simp [htcp, hs, hd, h₁, h₂, hl]
    rfl
  · by_cases hudp : c.bytes (ip + 9) = IPPROTO_UDP
    · simp [hudp, hl]
      rfl
    · simp [htcp, hudp]

theorem checkIp_val (hl : l.target = s.ifTarget[i]?.isSome) (hlen : ¬c.len < MIN_PACKET_SIZE)
    (hip : (if c.bytes.be16 12 = ETHERTYPE_IP then ETHER_HDR_LEN else VLAN_ETH_HLEN) = ip) :
    (checkIp l c (c.bytes.be16 12) ip).val.map (Packet.toPkt i) =
      Honeybrid.processPacket s (c.raw i ip) := by
  have hproto : (c.raw i ip).frame.protocol = c.bytes (ip + 9) := rfl
  have hihl : (c.raw i ip).frame.ihl = ihl c.bytes ip := rfl
  have hlen' : ¬(c.raw i ip).len < MIN_PACKET_SIZE := hlen
  unfold checkIp Honeybrid.processPacket
  dsimp only
  rw [hproto, hihl, if_neg hlen']
  by_cases hp : c.bytes (ip + 9) ≠ IPPROTO_TCP ∧ c.bytes (ip + 9) ≠ IPPROTO_UDP
  · simp [hp.1, hp.2]
  by_cases hb : ihl c.bytes ip < 5#4 ∨ 8#4 < ihl c.bytes ip
  · simp [hp, hb]
  simp [hp, hb]
  rw [initPkt_val hl, hip]

/-- `process_packet` accepts a frame by its header fields. -/
theorem processPacket_val (hl : l.target = s.ifTarget[i]?.isSome) :
    (processPacket l c).val.map (Packet.toPkt i) =
      (ipOffset c.bytes).bind fun ip => Honeybrid.processPacket s (c.raw i ip) := by
  by_cases hlen : c.len < MIN_PACKET_SIZE
  · have hnone : ∀ ip, Honeybrid.processPacket s (c.raw i ip) = none := fun ip => if_pos hlen
    simp [processPacket, hlen, hnone]
  by_cases hip : c.bytes.be16 12 = ETHERTYPE_IP
  · have h := checkIp_val hl hlen (if_pos hip)
    simpa [processPacket, hlen, ipOffset, hip] using h
  have hne : ETHERTYPE_VLAN ≠ ETHERTYPE_IP := by decide
  by_cases hvlan : c.bytes.be16 12 = ETHERTYPE_VLAN
  · by_cases henc : c.bytes.be16 16 = ETHERTYPE_IP
    · have h := checkIp_val hl hlen (if_neg hip)
      simpa [processPacket, hlen, ipOffset, hvlan, henc, hne] using h
    · simp [processPacket, hlen, ipOffset, hvlan, henc, hne]
  · simp [processPacket, hlen, ipOffset, hip, hvlan]

/-- What is known of a packet that `init_pkt` has initialised. -/
structure Initialised (c : Capture) (p : Packet) : Prop where
  frame : p.frame = c.bytes
  th : p.th = l4 c.bytes p.ip
  size : p.size = p.ip + (totLen c.bytes p.ip).toNat
  fragmented : p.fragmented = decide (c.caplen < p.size)
  data : p.data = (totLen c.bytes p.ip).setWidth 32 - (ihl c.bytes p.ip).setWidth 32 * 4 -
    BitVec.ofNat 32 (l4Len c.bytes p.ip)
  kind : (protocol c.bytes p.ip = IPPROTO_TCP ∧ ¬p.size < MIN_TCP_SIZE ∧ 5 ≤ doff c.bytes p.th ∧
    source c.bytes p.th ≠ 0 ∧ dest c.bytes p.th ≠ 0) ∨ protocol c.bytes p.ip = IPPROTO_UDP

theorem initPkt_some {ethertype : BitVec 16} (h : (initPkt l c ethertype).val = some p) :
    p.ip = (if ethertype = ETHERTYPE_IP then ETHER_HDR_LEN else VLAN_ETH_HLEN) ∧
      Initialised c p := by
  unfold initPkt at h
  revert h
  generalize (if ethertype = ETHERTYPE_IP then ETHER_HDR_LEN else VLAN_ETH_HLEN) = ip
  generalize (if l.target then Role.ext else Role.int) = origin
  intro h
  simp only [Reads.val_bind, Reads.val_ite, Reads.val_pure] at h
  split_ifs at h with htcp hs hd h₁ h₂ hudp
  · cases h
    refine ⟨rfl, rfl, rfl, rfl, rfl, ?_, .inl ⟨htcp, hs, BitVec.not_lt.1 hd, h₁, h₂⟩⟩
    have hlen : l4Len c.bytes ip = (doff c.bytes (ip + (ihl c.bytes ip).toNat * 4)).toNat * 4 :=
      if_pos htcp
    rw [hlen, BitVec.ofNat_mul, BitVec.ofNat_toNat]
    rfl
  · cases h
    refine ⟨rfl, rfl, rfl, rfl, rfl, ?_, .inr hudp⟩
    have hlen : l4Len c.bytes ip = 8 := if_neg htcp
    rw [hlen]
    rfl

theorem checkIp_some {ethertype : BitVec 16} (h : (checkIp l c ethertype ip).val = some p) :
    5 ≤ ihl c.bytes ip ∧ ihl c.bytes ip ≤ 8 ∧ (initPkt l c ethertype).val = some p := by
  unfold checkIp at h
  by_cases hp : c.bytes (ip + 9) ≠ IPPROTO_TCP ∧ c.bytes (ip + 9) ≠ IPPROTO_UDP
  · simp [hp.1, hp.2] at h
  by_cases hb : ihl c.bytes ip < 5#4 ∨ 8#4 < ihl c.bytes ip
  · simp [hp, hb] at h
  · obtain ⟨h₅, h₈⟩ := not_or.1 hb
    refine ⟨BitVec.not_lt.1 h₅, BitVec.not_lt.1 h₈, ?_⟩
    simpa [hp, hb] using h

/-- What is known of a packet that `process_packet` has accepted. -/
theorem processPacket_some (h : (processPacket l c).val = some p) :
    ipOffset c.bytes = some p.ip ∧ 5 ≤ ihl c.bytes p.ip ∧ ihl c.bytes p.ip ≤ 8 ∧
      Initialised c p := by
  by_cases hlen : c.len < MIN_PACKET_SIZE
  · simp [processPacket, hlen] at h
  have hne : ETHERTYPE_VLAN ≠ ETHERTYPE_IP := by decide
  by_cases hip : c.bytes.be16 12 = ETHERTYPE_IP
  · simp only [processPacket, hlen, hip, Octets.readBe16, Reads.val_bind, Octets.field_val,
      ↓reduceIte] at h
    obtain ⟨h₅, h₈, h⟩ := checkIp_some h
    obtain ⟨hpip, hi⟩ := initPkt_some h
    rw [if_pos rfl] at hpip
    exact ⟨by rw [ipOffset, if_pos hip, hpip], hpip ▸ h₅, hpip ▸ h₈, hi⟩
  by_cases hvlan : c.bytes.be16 12 = ETHERTYPE_VLAN
  · by_cases henc : c.bytes.be16 16 = ETHERTYPE_IP
    · simp only [processPacket, hlen, hvlan, henc, hne, Octets.readBe16, Reads.val_bind,
        Octets.field_val, ↓reduceIte] at h
      obtain ⟨h₅, h₈, h⟩ := checkIp_some h
      obtain ⟨hpip, hi⟩ := initPkt_some h
      rw [if_neg hne] at hpip
      exact ⟨by rw [ipOffset, if_neg hip, if_pos ⟨hvlan, henc⟩, hpip], hpip ▸ h₅, hpip ▸ h₈, hi⟩
    · simp [processPacket, hlen, hvlan, henc, hne] at h
  · simp [processPacket, hlen, hip, hvlan] at h

/-- `conn_lookup` builds the key of the decoded packet. -/
theorem connLookup_val (hth : p.th = l4 p.frame p.ip) :
    (connLookup p).val = (p.toPkt i).connKey := by
  have hkey : (p.toPkt i).connKey =
      { protocol := p.frame (p.ip + 9), srcIp := p.frame.le32 (p.ip + 12)
        srcPort := p.frame.le16 p.th, dstIp := p.frame.le32 (p.ip + 16)
        dstPort := p.frame.le16 (p.th + 2), vlanId := (p.toPkt i).packet.vlanId } := by
    rw [hth]
    rfl
  rw [hkey, connLookup]
  by_cases hip : p.frame.be16 12 = ETHERTYPE_IP <;>
    simp [hip, Packet.toPkt, frameOf, Frame.vlanId]

/-- The tests between `process_packet` and `conn_lookup` are those on the decoded packet. -/
theorem lookup_val {g : Globals} (hm : l.mac = (g.links i).mac)
    (hb : l.broadcastAllowed = g.broadcastAllowed) (hth : p.th = l4 p.frame p.ip) :
    (lookup l p).val =
      if (p.toPkt i).fragmented ∨ addressed g (p.toPkt i) = false then none
      else some (p.toPkt i).connKey := by
  have hkey : (connLookup p).val = (p.toPkt i).connKey := connLookup_val hth
  have haddr : addressed g (p.toPkt i) =
      if p.broadcast then l.broadcastAllowed else decide (p.frame.be48 0 = l.mac) := by
    rw [hb, hm]
    rfl
  have hfrag : (p.toPkt i).fragmented = p.fragmented := rfl
  rw [haddr, hfrag]
  unfold lookup
  by_cases hf : p.fragmented
  · simp [hf]
  by_cases hbc : p.broadcast
  · by_cases ha : l.broadcastAllowed <;> simp [hf, hbc, ha, hkey]
  · by_cases hd : p.frame.be48 0 = l.mac <;> simp [hf, hbc, hd, hkey]

theorem ip2queueid_val (hl : l.target = s.ifTarget[i]?.isSome) :
    (ip2queueid c.bytes ip l).val = Honeybrid.ip2queueid l.threads s.ifTarget (c.raw i ip) := by
  unfold ip2queueid Honeybrid.ip2queueid
  have htarget : s.ifTarget[(c.raw i ip).iface]?.isSome = l.target := hl.symm
  rw [htarget]
  by_cases ht : l.target <;> simp [ht] <;> rfl

/-- `pcap_cb` queues IP frames by their header fields. -/
theorem pcapCb_val (hl : l.target = s.ifTarget[i]?.isSome) (hip : ipOffset c.bytes = some ip) :
    (pcapCb c.bytes l).val =
      (Honeybrid.pcapCb l.threads s.ifTarget (c.raw i ip)).elim .skipped .queued := by
  have hIA : ETHERTYPE_IP ≠ ETHERTYPE_ARP := by decide
  have hVA : ETHERTYPE_VLAN ≠ ETHERTYPE_ARP := by decide
  have hVI : ETHERTYPE_VLAN ≠ ETHERTYPE_IP := by decide
  have htarget : s.ifTarget[(c.raw i ip).iface]?.isSome = l.target := hl.symm
  unfold Honeybrid.pcapCb
  rw [htarget, ← ip2queueid_val hl]
  unfold ipOffset at hip
  unfold pcapCb
  split_ifs at hip with he hv
  · cases hip
    simp [he, hIA, Capture.raw, frameOf]
  · cases hip
    cases ht : l.target <;> simp [hv, hVA, hVI, hIA, Capture.raw, frameOf]

/-- It queues nothing else. -/
theorem pcapCb_not_queued (hip : ipOffset m = none) (q : BitVec 32) :
    (pcapCb m l).val ≠ .queued q := by
  have hVA : ETHERTYPE_VLAN ≠ ETHERTYPE_ARP := by decide
  have hVI : ETHERTYPE_VLAN ≠ ETHERTYPE_IP := by decide
  unfold ipOffset at hip
  unfold pcapCb
  split_ifs at hip with he hv
  by_cases harp : m.be16 12 = ETHERTYPE_ARP
  · simp [harp]
  by_cases hvlan : m.be16 12 = ETHERTYPE_VLAN
  · have henc : m.be16 16 ≠ ETHERTYPE_IP := fun h => hv ⟨hvlan, h⟩
    cases ht : l.target
    · by_cases harp' : m.be16 16 = ETHERTYPE_ARP <;> simp [hvlan, hVA, hVI, henc, harp']
    · simp [hvlan, hVA, hVI]
  · simp [he, harp, hvlan]

/-- A frame is looked up if and as its header fields say: the engine on fields abstracts from the
octets of a frame. -/
theorem receive_val {g : Globals} (hl : l.target = s.ifTarget[i]?.isSome)
    (hm : l.mac = (g.links i).mac) (hb : l.broadcastAllowed = g.broadcastAllowed) :
    (receive l c).val =
      ((ipOffset c.bytes).bind fun ip => capture s (c.raw i ip)).bind fun pkt =>
        if pkt.fragmented ∨ addressed g pkt = false then none else some pkt.connKey := by
  unfold receive
  rw [Reads.val_bind]
  cases hip : ipOffset c.bytes with
  | none =>
    cases hcb : (pcapCb c.bytes l).val with
    | queued q => exact absurd hcb (pcapCb_not_queued hip q)
    | skipped => rfl
    | arp reply => rfl
  | some ip =>
    have hproc := processPacket_val (c := c) hl
    rw [hip, Option.bind_some] at hproc
    rw [pcapCb_val hl hip, Option.bind_some, Honeybrid.pcapCb, capture, ← hproc]
    by_cases hskip : (c.raw i ip).frame.vlan.isSome ∧ s.ifTarget[(c.raw i ip).iface]?.isSome
    · rw [if_pos hskip, if_pos hskip]
      rfl
    · rw [if_neg hskip, if_neg hskip]
      simp only [Option.elim_some, deThread, Reads.val_bind]
      cases hval : (processPacket l c).val with
      | none => rfl
      | some p =>
        obtain ⟨-, -, -, hinit⟩ := processPacket_some hval
        exact lookup_val hm hb (by rw [hinit.th, hinit.frame])

/-! ### Inside the capture -/

/-- How far the ARP packet at `request` is read: up to its operation, and as a whole if it is a
request. -/
def arpExtent (m : Octets) (request : ℕ) : ℕ :=
  request + if m.be16 (request + 6) = ARPOP_REQUEST then 28 else 8

/-- How far the TCP or UDP header of a packet is read: a TCP packet is skipped by its total length,
or by its data offset and ports, before its header is copied. -/
def l4Extent (m : Octets) (ip : ℕ) : ℕ :=
  if protocol m ip = IPPROTO_TCP then
    if ip + (totLen m ip).toNat < MIN_TCP_SIZE then 0
    else if doff m (l4 m ip) < 5 ∨ source m (l4 m ip) = 0 ∨ dest m (l4 m ip) = 0 then 13
    else 20
  else 8

/-- How far an IP packet is read: up to the address it is queued by, and, unless it is skipped by
its length, protocol or header length, up to its TCP or UDP header. -/
def ipExtent (l : Listener) (c : Capture) (ip : ℕ) : ℕ :=
  if c.len < MIN_PACKET_SIZE ∨
      (protocol c.bytes ip ≠ IPPROTO_TCP ∧ protocol c.bytes ip ≠ IPPROTO_UDP) ∨
      ihl c.bytes ip < 5 ∨ 8 < ihl c.bytes ip then
    ip + if l.target then 16 else 20
  else l4 c.bytes ip + l4Extent c.bytes ip

/-- How far the headers reach that a frame announces. -/
def extent (l : Listener) (c : Capture) : ℕ :=
  if c.bytes.be16 12 = ETHERTYPE_ARP then arpExtent c.bytes ETHER_HDR_LEN
  else if c.bytes.be16 12 = ETHERTYPE_IP then ipExtent l c ETHER_HDR_LEN
  else if c.bytes.be16 12 = ETHERTYPE_VLAN ∧ l.target = false then
    if c.bytes.be16 16 = ETHERTYPE_ARP then arpExtent c.bytes VLAN_ETH_HLEN
    else if c.bytes.be16 16 = ETHERTYPE_IP then ipExtent l c VLAN_ETH_HLEN
    else VLAN_ETH_HLEN
  else ETHER_HDR_LEN

theorem sendArpReply_within {ethertype : BitVec 16} :
    (sendArpReply m l ethertype).Within k ↔
      arpExtent m (if ethertype = ETHERTYPE_ARP then ETHER_HDR_LEN else VLAN_ETH_HLEN) ≤ k := by
  have hpos : 0 < VLAN_HLEN := by decide
  have htag : ETHER_HDR_LEN + VLAN_HLEN = VLAN_ETH_HLEN := rfl
  unfold sendArpReply arpExtent
  by_cases he : ethertype = ETHERTYPE_ARP
  · by_cases hop : m.be16 (ETHER_HDR_LEN + 6) = ARPOP_REQUEST
    · simp [he, hop]
      omega
    · simp [he, hop]
  · by_cases hop : m.be16 (VLAN_ETH_HLEN + 6) = ARPOP_REQUEST
    · simp [he, hop, hpos]
      omega
    · simp [he, hop]

theorem ip2queueid_within :
    (ip2queueid m ip l).Within k ↔ ip + (if l.target then 16 else 20) ≤ k := by
  unfold ip2queueid
  by_cases ht : l.target <;> simp [ht]

/-- `init_pkt` reads the link-layer and IP headers, and of the next header what it needs. -/
theorem initPkt_within {ethertype : BitVec 16}
    (hip : (if ethertype = ETHERTYPE_IP then ETHER_HDR_LEN else VLAN_ETH_HLEN) = ip)
    (h₅ : 5 ≤ ihl c.bytes ip)
    (hp : protocol c.bytes ip = IPPROTO_TCP ∨ protocol c.bytes ip = IPPROTO_UDP) :
    (initPkt l c ethertype).Within k ↔ l4 c.bytes ip + l4Extent c.bytes ip ≤ k := by
  have hne : IPPROTO_UDP ≠ IPPROTO_TCP := by decide
  have hihl : 5 ≤ (ihl c.bytes ip).toNat := h₅
  have hpos : 0 < (ihl c.bytes ip).toNat * 4 := by omega
  have h14 : 14 ≤ ip := by
    rw [← hip]
    split <;> decide
  have hip0 : 0 < ip := by omega
  unfold initPkt
  rw [hip]
  obtain htcp | hudp := hp
  · simp only [protocol] at htcp
    by_cases hs : ip + (c.bytes.be16 (ip + 2)).toNat < MIN_TCP_SIZE
    · simp [l4Extent, l4, protocol, totLen, htcp, hs, hpos, hip0]
      omega
    by_cases hd : doff c.bytes (ip + (ihl c.bytes ip).toNat * 4) < 5#4
    · simp [l4Extent, l4, protocol, totLen, htcp, hs, hd, hpos, hip0]
      omega
    by_cases h₁ : c.bytes.le16 (ip + (ihl c.bytes ip).toNat * 4) = 0#16
    · simp [l4Extent, l4, protocol, totLen, source, htcp, hs, hd, h₁, hpos, hip0]
      omega
    by_cases h₂ : c.bytes.le16 (ip + (ihl c.bytes ip).toNat * 4 + 2) = 0#16
    · simp [l4Extent, l4, protocol, totLen, source, dest, htcp, hs, hd, h₁, h₂, hpos, hip0]
      omega
    · simp [l4Extent, l4, protocol, totLen, source, dest, htcp, hs, hd, h₁, h₂, hpos, hip0]
      omega
  · simp only [protocol] at hudp
    simp [l4Extent, l4, protocol, hudp, hne, hpos, hip0]
    omega

/-- The tests of `process_packet`, once the frame was queued. -/
theorem checkIp_within {ethertype : BitVec 16}
    (hip : (if ethertype = ETHERTYPE_IP then ETHER_HDR_LEN else VLAN_ETH_HLEN) = ip)
    (hlen : ¬c.len < MIN_PACKET_SIZE) :
    ip + (if l.target then 16 else 20) ≤ k ∧ (checkIp l c ethertype ip).Within k ↔
      ipExtent l c ip ≤ k := by
  have h16 : 16 ≤ if l.target then 16 else 20 := by split <;> decide
  unfold checkIp ipExtent
  by_cases hp : c.bytes (ip + 9) ≠ IPPROTO_TCP ∧ c.bytes (ip + 9) ≠ IPPROTO_UDP
  · simp [protocol, hp.1, hp.2]
    omega
  by_cases hb : ihl c.bytes ip < 5#4 ∨ 8#4 < ihl c.bytes ip
  · simp [protocol, hp, hb]
    omega
  · obtain ⟨h₅, h₈⟩ := not_or.1 hb
    have hih : 5 ≤ (ihl c.bytes ip).toNat := BitVec.not_lt.1 h₅
    have h20 : (if l.target then 16 else 20) ≤ 20 := by split <;> decide
    have hpkt := initPkt_within (l := l) (k := k) hip (BitVec.not_lt.1 h₅)
      (by simpa [protocol, imp_iff_not_or] using hp)
    simp [protocol, hp, hb, hlen, hpkt]
    unfold l4
    omega

/-- Behind an admitted packet's headers, `conn_lookup` reads nothing. -/
theorem lookup_within (hip : 14 ≤ p.ip) (hth : p.ip + 20 ≤ p.th) (hk : p.th + 4 ≤ k) :
    (lookup l p).Within k := by
  have hkey : (connLookup p).Within k := by
    unfold connLookup
    by_cases he : p.frame.be16 12 = ETHERTYPE_IP <;> simp [he] <;> omega
  unfold lookup
  split_ifs
  · simp
  · simpa using hkey
  · simp
  · rw [Reads.within_bind]
    refine ⟨by simp only [Octets.readBe48, Octets.field_within, Nat.succ_pos]; omega, ?_⟩
    split_ifs
    · simp
    · simpa using hkey

/-- A TCP header that was accepted has at least its fixed part. -/
theorem Initialised.le_l4Len (h : Initialised c p) (htcp : protocol c.bytes p.ip = IPPROTO_TCP) :
    20 ≤ l4Len c.bytes p.ip := by
  obtain ⟨-, -, hd, -⟩ | hudp := h.kind
  · have hd : 5 ≤ (doff c.bytes p.th).toNat := hd
    rw [l4Len, if_pos htcp, ← h.th]
    omega
  · rw [hudp] at htcp
    cases htcp

theorem Initialised.le_l4Extent (h : Initialised c p) : 4 ≤ l4Extent c.bytes p.ip := by
  unfold l4Extent
  obtain ⟨htcp, hsize, -⟩ | hudp := h.kind
  · rw [h.size] at hsize
    rw [if_pos htcp, if_neg hsize]
    split <;> decide
  · have hne : IPPROTO_UDP ≠ IPPROTO_TCP := by decide
    simp [hudp, hne]

/-- An admitted packet is read up to its TCP or UDP header. -/
theorem Initialised.ipExtent_eq (h : Initialised c p) (hlen : ¬c.len < MIN_PACKET_SIZE)
    (h₅ : 5 ≤ ihl c.bytes p.ip) (h₈ : ihl c.bytes p.ip ≤ 8) :
    ipExtent l c p.ip = l4 c.bytes p.ip + l4Extent c.bytes p.ip := by
  refine if_neg ?_
  rintro (hl | ⟨htcp, hudp⟩ | hb | hb)
  · exact hlen hl
  · obtain h | h := h.kind
    · exact htcp h.1
    · exact hudp h
  · exact BitVec.not_lt.2 h₅ hb
  · exact BitVec.not_lt.2 h₈ hb

theorem le_of_ipOffset (h : ipOffset m = some ip) :
    (if m.be16 12 = ETHERTYPE_IP then ETHER_HDR_LEN else VLAN_ETH_HLEN) = ip ∧ 14 ≤ ip := by
  unfold ipOffset at h
  split_ifs at h with he hv
  · cases h
    exact ⟨if_pos he, by decide⟩
  · cases h
    exact ⟨if_neg he, by decide⟩

/-- An IP frame that was queued is read as far as its headers reach. -/
theorem deThread_within (hip : ipOffset c.bytes = some ip) :
    ip + (if l.target then 16 else 20) ≤ k ∧ (deThread l c).Within k ↔ ipExtent l c ip ≤ k := by
  obtain ⟨hip', h14⟩ := le_of_ipOffset hip
  by_cases hlen : c.len < MIN_PACKET_SIZE
  · simp [deThread, processPacket, hlen, ipExtent]
  rw [← checkIp_within hip' hlen]
  refine and_congr_right fun hq => ?_
  have h16 : 16 ≤ if l.target then 16 else 20 := by split <;> decide
  have hproc : (processPacket l c).Within k ↔ (checkIp l c (c.bytes.be16 12) ip).Within k := by
    have h₁₄ : 14 ≤ k := by omega
    unfold ipOffset at hip
    split_ifs at hip with he hv
    · cases hip
      simp [processPacket, hlen, he, h₁₄]
    · cases hip
      have h₁₈ : 18 ≤ k := le_trans (by decide) (le_trans (Nat.le_add_right _ _) hq)
      have hne : ETHERTYPE_VLAN ≠ ETHERTYPE_IP := by decide
      simp [processPacket, hlen, hv, hne, h₁₄, h₁₈]
  unfold deThread
  rw [Reads.within_bind, hproc, and_iff_left_iff_imp]
  intro hcheck
  cases hval : (processPacket l c).val with
  | none => simp
  | some p =>
    obtain ⟨hoff, h₅, h₈, hinit⟩ := processPacket_some hval
    rw [hip] at hoff
    cases hoff
    have hih : 5 ≤ (ihl c.bytes p.ip).toNat := h₅
    have hle := hinit.le_l4Extent
    have hext := (checkIp_within hip' hlen).1 ⟨hq, hcheck⟩
    rw [hinit.ipExtent_eq hlen h₅ h₈] at hext
    have hth := hinit.th
    unfold l4 at hth hext
    exact lookup_within h14 (by omega) (by omega)

/-- **Inside the capture.** A frame is read inside its capture, on its way to `conn_lookup`, exactly
if the capture covers the headers that the frame announces. -/
theorem receive_within_iff (l : Listener) (c : Capture) :
    (receive l c).Within c.caplen ↔ extent l c ≤ c.caplen := by
  have heth : ETHER_HDR_LEN = 14 := rfl
  have hveth : VLAN_ETH_HLEN = 18 := rfl
  have hIA : ETHERTYPE_IP ≠ ETHERTYPE_ARP := by decide
  have hVA : ETHERTYPE_VLAN ≠ ETHERTYPE_ARP := by decide
  have hVI : ETHERTYPE_VLAN ≠ ETHERTYPE_IP := by decide
  have harpExt : ∀ request, request ≤ arpExtent c.bytes request := fun _ => Nat.le_add_right _ _
  unfold receive extent pcapCb
  by_cases harp : c.bytes.be16 12 = ETHERTYPE_ARP
  · simp [harp, sendArpReply_within]
    have := harpExt ETHER_HDR_LEN
    omega
  by_cases hip : c.bytes.be16 12 = ETHERTYPE_IP
  · have hoff : ipOffset c.bytes = some ETHER_HDR_LEN := if_pos hip
    simp [hip, hIA, ip2queueid_within]
    rw [← deThread_within hoff]
    refine and_congr_left fun _ => and_iff_right_of_imp fun h => ?_
    omega
  by_cases hvlan : c.bytes.be16 12 = ETHERTYPE_VLAN
  · cases ht : l.target with
    | true => simp [hvlan, hVA, hVI, heth]
    | false =>
      by_cases harp' : c.bytes.be16 16 = ETHERTYPE_ARP
      · simp [hvlan, hVA, hVI, harp', sendArpReply_within]
        have := harpExt VLAN_ETH_HLEN
        omega
      by_cases hip' : c.bytes.be16 16 = ETHERTYPE_IP
      · have hoff : ipOffset c.bytes = some VLAN_ETH_HLEN := by
          rw [ipOffset, if_neg hip, if_pos ⟨hvlan, hip'⟩]
        simp [hvlan, hVA, hVI, ht, hIA, hip', ip2queueid_within]
        rw [← deThread_within hoff, ht]
        refine and_congr_left fun _ => ⟨fun h => h.2.2, fun h => ⟨?_, ?_, h⟩⟩ <;>
        · simp only [Bool.false_eq_true, ↓reduceIte] at h
          omega
      · simp [hvlan, hVA, hVI, harp', hip']
        omega
  · simp [harp, hip, hvlan, heth]

/-- A capture that ends behind the Ethernet header of an IP frame. -/
def Sample.cutFrame : Capture where
  len := 60
  caplen := 14
  bytes := Octets.write (fun _ => 0) 12 [0x08, 0x00]

/-- `pcap_cb` reads the address of a frame that was cut behind its Ethernet header. -/
theorem receive_broken :
    ¬∀ (l : Listener) (c : Capture), 14 ≤ c.caplen → c.caplen ≤ c.len →
      (receive l c).Within c.caplen := by
  intro h
  have hw := h { target := true, mac := 0 } Sample.cutFrame (by decide) (by decide)
  exact absurd (hw 26 (by decide)) (by decide)

/-! ### Lengths -/

/-- `HDRDATA_SIZE` of `tcp_checksum`, an unsigned short. -/
def hdrdataSize (m : Octets) (ip : ℕ) : BitVec 16 :=
  totLen m ip - (ihl m ip).setWidth 16 * 4

/-- No length of a packet has wrapped: the payload fills what the headers leave of the total length
and is no longer than the capture; the two lengths of `tcp_checksum` are what is left without the IP
header, and without both headers. -/
structure LengthsExact (c : Capture) (p : Packet) : Prop where
  data : p.data.toNat + (ihl p.frame p.ip).toNat * 4 + l4Len p.frame p.ip =
    (totLen p.frame p.ip).toNat
  captured : p.data.toNat ≤ c.caplen
  hdrdata : protocol p.frame p.ip = IPPROTO_TCP →
    (hdrdataSize p.frame p.ip).toNat + (ihl p.frame p.ip).toNat * 4 =
      (totLen p.frame p.ip).toNat ∧ 20 ≤ (hdrdataSize p.frame p.ip).toNat

/-- **Lengths.** The lengths of a packet that was accepted, and is not fragmented, are exact if and
only if its total length covers its headers. -/
theorem lengths_exact_iff (h : (processPacket l c).val = some p) (hf : p.fragmented = false) :
    LengthsExact c p ↔
      (ihl p.frame p.ip).toNat * 4 + l4Len p.frame p.ip ≤ (totLen p.frame p.ip).toNat := by
  obtain ⟨-, -, -, hinit⟩ := processPacket_some h
  constructor
  · intro hl
    have := hl.data
    omega
  · intro hle
    have hfr := hinit.frame
    have hT : (totLen c.bytes p.ip).toNat < 65536 := (totLen c.bytes p.ip).isLt
    have hI : (ihl c.bytes p.ip).toNat < 16 := (ihl c.bytes p.ip).isLt
    rw [hfr] at hle
    have hdata : p.data.toNat =
        (totLen c.bytes p.ip).toNat - (ihl c.bytes p.ip).toNat * 4 - l4Len c.bytes p.ip := by
      have h4 : (4 : BitVec 32).toNat = 4 := rfl
      rw [hinit.data]
      simp only [BitVec.toNat_sub, BitVec.toNat_mul, BitVec.toNat_setWidth, BitVec.toNat_ofNat, h4]
      omega
    have hsize := hinit.size
    have hcap : p.size ≤ c.caplen := by
      rw [hinit.fragmented] at hf
      simpa using hf
    refine ⟨by rw [hfr]; omega, by omega, fun htcp => ?_⟩
    rw [hfr] at htcp ⊢
    have hhdr : (hdrdataSize c.bytes p.ip).toNat =
        (totLen c.bytes p.ip).toNat - (ihl c.bytes p.ip).toNat * 4 := by
      have h4 : (4 : BitVec 16).toNat = 4 := rfl
      simp only [hdrdataSize, BitVec.toNat_sub, BitVec.toNat_mul, BitVec.toNat_setWidth, h4]
      omega
    have h20 := hinit.le_l4Len htcp
    omega

/-- A TCP packet of forty octets in an untagged frame. -/
def Sample.synFrame : Capture where
  len := 60
  caplen := 60
  bytes := Octets.write (fun _ => 0) 12
    [0x08, 0x00, 0x45, 0, 0x00, 0x28, 0, 0, 0, 0, 0x40, 0x06, 0, 0, 198, 51, 100, 7, 192, 0, 2, 1,
      0x30, 0x39, 0x00, 0x50, 0, 0, 0, 1, 0, 0, 0, 0, 0x50, 0x02]

/-- It is looked up with its addresses and ports in the order of the network. -/
theorem receive_val_syn :
    (receive { target := false, mac := 0 } Sample.synFrame).val =
      some { protocol := IPPROTO_TCP, srcIp := 0x076433c6, srcPort := 0x3930,
             dstIp := 0x010200c0, dstPort := 0x5000 } := by
  have hval := receive_val (l := { target := false, mac := 0 }) (c := Sample.synFrame)
    (s := ({ mod := () } : State Unit)) (i := 0)
    (g := { maxPacketBuffer := 8, links := fun _ => { mac := 0 } }) rfl rfl rfl
  rw [hval]
  rfl

theorem lengths_exact_syn :
    ∃ p, (processPacket { target := true, mac := 0 } Sample.synFrame).val = some p ∧
      p.fragmented = false ∧ p.data = 0 ∧ LengthsExact Sample.synFrame p :=
  ⟨_, rfl, rfl, rfl, (lengths_exact_iff rfl rfl).2 (by decide)⟩

/-- A UDP packet whose total length leaves no room for the UDP header. -/
def Sample.shortUdp : Capture where
  len := 60
  caplen := 60
  bytes := Octets.write (fun _ => 0) 12
    [0x08, 0x00, 0x45, 0, 0x00, 0x14, 0, 0, 0, 0, 0x40, 0x11]

/-- The total length of a UDP packet is not checked, and the length of its payload wraps. -/
theorem lengths_exact_broken :
    ¬∀ (l : Listener) (c : Capture) (p : Packet), (processPacket l c).val = some p →
      p.fragmented = false → LengthsExact c p := by
  intro h
  have hl := h { target := true, mac := 0 } Sample.shortUdp _ rfl rfl
  exact absurd hl.captured (by decide)

end

end Wire

end Honeybrid
