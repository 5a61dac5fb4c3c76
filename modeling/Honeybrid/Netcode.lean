import Honeybrid.Types

/-!
# Rewriting and injecting frames

The functions of `netcode.c` that send a packet on: the address translation `nat`, the four
`proxy_*` functions, the two `forward_*` functions of a redirected connection, the resets, and the
replay of a connection's buffer against a high-interaction honeypot.

Frames are rewritten field by field; the checksums are not part of a `Frame`. Every function
returns the packet as it leaves it, since the caller may still store it, and the events it causes.
An injection is an event whatever `pcap_inject` returns: no caller looks at the result.

## Main definitions

* `nat`, `proxyExt2int`, `proxyInt2ext`, `proxyHih2intra`, `proxyIntra2hih`.
* `forwardExt2hih`, `forwardHih2ext`.
* `replyReset`, `resetLih`.
* `defineExpectedData`, `testExpected`, `forwardingLoop`, `replayLoop`, `replay`.
-/

namespace Honeybrid

variable (g : Globals) (t : Target) (i : ConnId) (c : Conn)

/-! ### Address translation -/

/-- The octets of a VLAN tag. -/
def VLAN_HLEN : ℕ := 4

/-- `struct nat`; a field that is not set is not read. -/
structure NatFields where
  srcIp : IpAddr := 0
  dstMac : MacAddr
  dstIp : IpAddr := 0
  dstVlan : VlanTci := ⟨0⟩

/-- The VLAN header of a frame towards an INTRA host or a high-interaction honeypot: an existing
tag is replaced or, for an untagged destination, kept; a missing one is added. -/
def natVlan (v : VlanTci) (pkt : Pkt) : Pkt :=
  if pkt.packet.vlan.isSome then
    if v.vid ≠ 0 then { pkt with packet := { pkt.packet with vlan := some v } } else pkt
  else if v.vid ≠ 0 then
    { pkt with packet := { pkt.packet with vlan := some v }, size := pkt.size + VLAN_HLEN }
  else pkt

/-- Strip the VLAN header, if there is one. -/
def stripVlan (pkt : Pkt) : Pkt :=
  if pkt.packet.vlan.isSome then
    { pkt with packet := { pkt.packet with vlan := none }, size := pkt.size - VLAN_HLEN }
  else pkt

/-- `nat`: rewrite the Ethernet header, one IP address and the VLAN header. -/
def nat (n : NatFields) (out : IfaceId) (pkt : Pkt) : Pkt :=
  let f := { pkt.packet with shost := (g.links out).mac, dhost := n.dstMac }
  match pkt.origin with
  | .ext =>
    let pkt := { pkt with packet := { f with daddr := n.dstIp } }
    if n.dstVlan.vid ≠ 0 then
      { pkt with
        packet := { pkt.packet with vlan := some n.dstVlan }
        size := pkt.size + VLAN_HLEN }
    else stripVlan pkt
  | _ =>
    match pkt.destination with
    | .intra => natVlan n.dstVlan { pkt with packet := { f with daddr := n.dstIp } }
    | .ext => stripVlan { pkt with packet := { f with saddr := n.srcIp } }
    | .hih => natVlan n.dstVlan { pkt with packet := { f with saddr := n.srcIp } }
    | _ => { pkt with packet := f }

/-- The injection of a packet by one of the functions below. -/
def inject (sender : Sender) (out : IfaceId) (pkt : Pkt) : Event :=
  .emitted { sender, id := i, conn := c, pkt, out, frame := pkt.packet }

/-- `proxy_ext2int`: from EXT to the honeypot that holds the connection. -/
def proxyExt2int (pkt : Pkt) : Except Fault (Pkt × List Event) :=
  match c.initiator with
  | .lih | .ext => do
    let h ← t.frontHandler.orFail .frontHandler
    let out ← h.iface.orFail .iface
    let pkt := nat g { dstMac := h.mac, dstIp := h.ip, dstVlan := h.vlan } out
      { pkt with destination := .lih }
    return (pkt, [inject i c .proxyExt2int out pkt])
  | .hih => do
    let h ← c.hih.backHandler.orFail .backHandler
    let out ← h.iface.orFail .iface
    let pkt := nat g { dstMac := h.mac, dstIp := h.ip, dstVlan := h.vlan } out
      { pkt with destination := .hih }
    return (pkt, [inject i c .proxyExt2int out pkt])
  | _ => return (pkt, [])

/-- The source address a connection shows to EXT: the address first contacted, the pinned address,
or the address of the default route. -/
def snatIp (out : IfaceId) : Except Fault IpAddr :=
  if c.initiator = .ext then .ok c.firstPktDstIp
  else
    match c.pinIp with
    | some p => .ok p.ip
    | none => (g.links out).ip.orFail .defaultRouteIp

/-- `proxy_int2ext`: from a honeypot to EXT. -/
def proxyInt2ext (pkt : Pkt) : Except Fault (Pkt × List Event) := do
  let out ← t.defaultRoute.orFail .defaultRoute
  let srcIp ← snatIp g c out
  let dstMac := if c.initiator = .ext then c.firstPktSrcMac else t.defaultRouteMac
  let pkt := nat g { srcIp, dstMac } out { pkt with destination := .ext }
  return (pkt, [inject i c .proxyInt2ext out pkt])

/-- `proxy_hih2intra`: from a high-interaction honeypot to an INTRA host, if there is one. -/
def proxyHih2intra (pkt : Pkt) : Except Fault (Pkt × List Event) :=
  match c.intraHandler with
  | some h => do
    let out ← h.iface.orFail .iface
    let pkt := nat g { dstMac := h.mac, dstIp := h.ip, dstVlan := h.vlan } out
      { pkt with destination := .intra }
    return (pkt, [inject i c .proxyHih2intra out pkt])
  | none => return (pkt, [])

/-- `proxy_intra2hih`: from an INTRA host to the high-interaction honeypot, if there is one. -/
def proxyIntra2hih (pkt : Pkt) : Except Fault (Pkt × List Event) :=
  match c.hih.backHandler with
  | some h => do
    let out ← h.iface.orFail .iface
    let srcIp := match c.pinIp with
      | some p => p.ip
      | none => c.firstPktDstIp
    let pkt := nat g { srcIp, dstMac := c.firstPktSrcMac, dstVlan := h.vlan } out
      { pkt with destination := .hih }
    return (pkt, [inject i c .proxyIntra2hih out pkt])
  | none => return (pkt, [])

/-! ### Redirected connections -/

/-- `forward_ext2hih`: from EXT to the high-interaction honeypot of a redirected connection. -/
def forwardExt2hih (pkt : Pkt) : Except Fault (Pkt × List Event) :=
  match c.hih.backHandler with
  | some h => do
    let out ← h.iface.orFail .iface
    let f := { pkt.packet with
      shost := (g.links out).mac, dhost := h.mac, daddr := h.ip, dest := c.hih.port }
    let f := if h.vlan.i ≠ 0 then { f with vlan := some h.vlan } else f
    let f := if f.protocol = IPPROTO_TCP ∧ f.tcp.ack then
        { f with tcp := { f.tcp with ackSeq := f.tcp.ackSeq - c.hih.delta } } else f
    let size := if h.vlan.i ≠ 0 ∧ pkt.packet.vlan.isNone then pkt.size + VLAN_HLEN else pkt.size
    let pkt := { pkt with packet := f, size, destination := .hih }
    return (pkt, [inject i c .forwardExt2hih out pkt])
  | none => return (pkt, [])

/-- `fix_tcp_timestamps`. -/
def fixTcpTimestamps (h : TcpHdr) : TcpHdr :=
  if c.replayProblem.unexpectedTcpTs then { h with ts := none }
  else if c.replayProblem.tcpTsOutOfSync then
    { h with ts := h.ts.map (· + BitVec.ofInt 32 c.tcpTsDiff) }
  else h

/-- `forward_hih2ext`: from the high-interaction honeypot of a redirected connection to EXT. -/
def forwardHih2ext (pkt : Pkt) : Except Fault (Pkt × List Event) :=
  match t.defaultRoute with
  | some out => do
    let pkt := stripVlan { pkt with
      destination := .ext
      packet := { pkt.packet with
        shost := c.firstPktDstMac, dhost := c.firstPktSrcMac, saddr := c.firstPktDstIp
        source := c.hih.port } }
    let f := pkt.packet
    let f := if f.protocol = IPPROTO_TCP then
        { f with tcp := fixTcpTimestamps c { f.tcp with seq := f.tcp.seq + c.hih.delta } } else f
    let pkt := { pkt with packet := f }
    return (pkt, [inject i c .forwardHih2ext out pkt])
  | none => return (pkt, [])

/-! ### Resets -/

/-- The RST that answers a TCP packet, built from the headers as captured. -/
def resetFrame (f : Frame) : Frame where
  dhost := f.shost
  shost := f.dhost
  vlan := f.vlan
  totLen := 40
  protocol := IPPROTO_TCP
  saddr := f.daddr
  daddr := f.saddr
  source := f.dest
  dest := f.source
  tcp :=
    { seq := if f.tcp.ack then f.tcp.ackSeq else 0
      ackSeq := f.tcp.seq + (if f.tcp.syn then 1 else 0) + (if f.tcp.fin then 1 else 0)
        + f.totLen.setWidth 32 - f.ihl.setWidth 32 * 4 - f.tcp.doff.setWidth 32 * 4
      rst := true
      ack := true }

/-- `reply_reset`: nothing is sent without an interface. -/
def replyReset (iface : Option IfaceId) (pkt : Pkt) : List Event :=
  match iface with
  | some out =>
    [.emitted { sender := .replyReset, id := i, conn := c, pkt, out
                frame := resetFrame pkt.original }]
  | none => []

/-- `reset_lih`: the loop looks for a packet of the low-interaction honeypot, but the packet that
is answered is the last one it has visited. -/
def resetLih : Except Fault (List Event) :=
  if c.protocol ≠ IPPROTO_TCP then return []
  else
    match c.buffer.getLast? with
    | some tmp =>
      if c.buffer.any (·.origin = .lih) then do
        let h ← t.frontHandler.orFail .frontHandler
        return replyReset i c h.iface tmp
      else return []
    | none => return []

/-! ### Replay -/

/-- `define_expected_data`: expect the answer the low-interaction honeypot gave in `pkt`. -/
def defineExpectedData (pkt : Pkt) : Conn :=
  let e := { c.expectedData with ipProto := pkt.packet.protocol, payload := pkt.packet.payload }
  { c with expectedData :=
      if pkt.packet.protocol = IPPROTO_TCP then
        { e with
          tcpSeq := pkt.packet.tcp.seq - c.hih.delta
          tcpAckSeq := pkt.packet.tcp.ackSeq
          tcpTs := pkt.packet.tcp.ts }
      else e }

/-- `strncmp(a, b, n) == 0`; the bytes after a payload read as zero. -/
def strncmpEq : ℕ → List (BitVec 8) → List (BitVec 8) → Bool
  | 0, _, _ => true
  | n + 1, a, b =>
    let x := a.headD 0
    let y := b.headD 0
    if x ≠ y then false
    else if x = 0 then true
    else strncmpEq n a.tail b.tail

/-- The comparison of TCP timestamps in `test_expected`; a difference can be corrected. -/
def testTimestamps (ts : Option (BitVec 32)) : Conn :=
  match c.expectedData.tcpTs, ts with
  | none, some _ => { c with replayProblem := { c.replayProblem with unexpectedTcpTs := true } }
  | some e, some v =>
    if v ≠ e then
      { c with
        tcpTsDiff := (e.toNat : ℤ) - v.toNat
        replayProblem := { c.replayProblem with tcpTsOutOfSync := true } }
    else c
  | some _, none => { c with replayProblem := { c.replayProblem with expectedTcpTs := true } }
  | none, none => c

/-- The comparison of payloads in `test_expected`; a difference is only recorded. -/
def testPayload (pkt : Pkt) : Conn :=
  if strncmpEq pkt.data.toNat pkt.packet.payload c.expectedData.payload then c
  else { c with replayProblem := { c.replayProblem with unexpectedPayload := true } }

/-- `test_expected`: compare a packet with the expected one. -/
def testExpected (pkt : Pkt) : Conn × Status :=
  let f := pkt.packet
  if f.protocol ≠ c.expectedData.ipProto then
    ({ c with replayProblem := { c.replayProblem with unexpectedProtocol := true } }, .nok)
  else if f.protocol = IPPROTO_TCP then
    if f.tcp.syn = false ∧ f.tcp.seq ≠ c.expectedData.tcpSeq then
      ({ c with replayProblem := { c.replayProblem with unexpectedTcpSeq := true } }, .nok)
    else if f.tcp.ackSeq ≠ c.expectedData.tcpAckSeq then
      ({ c with replayProblem := { c.replayProblem with unexpectedTcpAck := true } }, .nok)
    else (testPayload (testTimestamps c f.tcp.ts) pkt, .ok)
  else (testPayload c pkt, .ok)

/-- The forwarding loop of `setup_redirection`, over the buffer from `replay_id` on: the packets of
EXT are sent to the honeypot until a packet of another origin is found, which is returned. The
rewritten packets are not written back to the buffer: nothing reads them again. -/
def forwardingLoop : Conn → List Pkt → Except Fault (Conn × List Event × Option Pkt)
  | c, [] => .ok (c, [], none)
  | c, current :: rest =>
    if current.origin = .ext then do
      let (_, ev) ← forwardExt2hih g i c current
      let (c, evs, found) ← forwardingLoop { c with replayId := c.replayId + 1 } rest
      return (c, ev ++ evs, found)
    else .ok (c, [], some current)

/-- The first half of the loop of `replay`: the packets of EXT are sent, others are passed over. -/
def replayPkt (current : Pkt) : Except Fault (List Event) := do
  if current.origin = .ext then
    let (_, ev) ← forwardExt2hih g i c current
    return ev
  else return []

/-- The loop of `replay`, at the packet `current` with `rest` behind it in the buffer. -/
def replayLoop : Conn → ℕ → Pkt → List Pkt → Except Fault (Conn × List Event)
  | c, de, current, rest =>
    if current.origin = .ext ∨ de = 1 then do
      let ev ← replayPkt g i c current
      match rest with
      | [] => return ({ c with state := .forward }, ev)
      | next :: rest =>
        let (c, evs) ← replayLoop { c with replayId := c.replayId + 1 }
          (if de = 0 then next.de else de) next rest
        return (c, ev ++ evs)
    else
      let c := defineExpectedData c current
      return ({ c with replayId := c.replayId + 1 }, [])

/-- `replay`: a packet of the high-interaction honeypot that answers as expected releases the
following packets of EXT, up to the next answer of the low-interaction honeypot. -/
def replay (pkt : Pkt) : Except Fault (Conn × List Event) :=
  if pkt.origin ≠ .hih then return (c, [])
  else
    match testExpected c pkt with
    | (c, .nok) => return (c, [])
    | (c, .ok) =>
      match c.buffer.drop c.replayId with
      | [] => .error .bufferEnd
      | current :: rest => replayLoop g i c current.de current rest

end Honeybrid
