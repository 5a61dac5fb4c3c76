import Honeybrid.DecisionEngine

/-!
# The decision engine thread

`pcap_cb` and `de_thread` of `honeybrid.c`: a captured frame is admitted, attributed to a
connection, and dispatched by the origin of the packet and the state of the connection. With the
sweeps of `clean` this is the transition function of the whole program, `step`; its runs are the
runs of `Machine.Run`.

## Main definitions

* `capture`, `assign`: from a captured frame to a packet of a connection.
* `dispatchLih`, `dispatchHih`, `dispatchIntra`, `dispatchExt`, `handle`: what is done with it.
* `receive`, `step`: one packet, and one step of the program.
* `boot`: the state in which packets start to arrive.
-/

namespace Honeybrid

variable {μ : Type} (mods : Modules μ) (g : Globals) (i : ConnId) (pkt : Pkt)

/-! ### Dispatch -/

/-- Packets are stored only when there are backends. -/
def Target.hasBackends (t : Target) : Bool :=
  0 < t.backHandlerCount ∨ t.backPicker ≠ .null

/-- The end of a branch that stores its packet. -/
def keepPkt (t : Target) (c : Conn) (pkt : Pkt) : Conn :=
  if t.hasBackends then storePkt g c pkt else c

/-- A TCP packet with the flag SYN. -/
def Pkt.isSyn (pkt : Pkt) : Bool :=
  pkt.packet.protocol = IPPROTO_TCP ∧ pkt.packet.tcp.syn

/-- Remember the initial sequence number of the low-interaction honeypot. -/
def noteLihSyn (pkt : Pkt) (c : Conn) : Conn :=
  if pkt.isSyn then { c with hih := { c.hih with lihSynSeq := pkt.packet.tcp.seq } } else c

/-- Compute the offset between the sequence numbers of the two honeypots. -/
def noteDelta (pkt : Pkt) (c : Conn) : Conn :=
  if pkt.isSyn then
    { c with hih := { c.hih with delta := ~~~pkt.packet.tcp.seq + 1 + c.hih.lihSynSeq } }
  else c

/-- A packet of the low-interaction honeypot in INIT or DECISION. -/
def relayLih (w : Work μ) : Except Fault (Work μ × List Event) := do
  let c := noteLihSyn pkt w.conn
  let t ← w.st.targetOf c
  let (pkt, ev) ← proxyInt2ext g t i c pkt
  return ({ w with conn := keepPkt g t c pkt }, ev)

/-- A packet of the low-interaction honeypot in a state in which it should not send. -/
def resetAtWrongState (w : Work μ) : Except Fault (Work μ × List Event) := do
  if pkt.packet.protocol = IPPROTO_TCP then
    let t ← w.st.targetOf w.conn
    let front ← t.frontHandler.orFail .frontHandler
    return (w, replyReset i w.conn front.iface pkt)
  else return (w, [])

/-- A packet of the low-interaction honeypot. -/
def dispatchLih (w : Work μ) : Except Fault (Work μ × List Event) :=
  match w.conn.state with
  | .init | .decision => relayLih g i pkt w
  | .proxy => do
    let t ← w.st.targetOf w.conn
    let (_, ev) ← proxyInt2ext g t i w.conn pkt
    return (w, ev)
  | .control => do
    let (status, w, ev) ← deProcessPacket mods i pkt g { w with conn := noteLihSyn pkt w.conn }
    let t ← w.st.targetOf w.conn
    match status with
    | .ok =>
      let (pkt, ev') ← proxyInt2ext g t i w.conn pkt
      return ({ w with conn := keepPkt g t w.conn pkt }, ev ++ ev')
    | .nok => return ({ w with conn := keepPkt g t w.conn pkt }, ev)
  | _ => resetAtWrongState i pkt w

/-- Send a packet of a high-interaction honeypot to where its connection goes. -/
def proxyHih (w : Work μ) : Except Fault (List Event) :=
  match w.conn.destination with
  | .ext => do
    let t ← w.st.targetOf w.conn
    let (_, ev) ← proxyInt2ext g t i w.conn pkt
    return ev
  | .intra => do
    let (_, ev) ← proxyHih2intra g i w.conn pkt
    return ev
  | _ => .ok []

/-- A packet of a high-interaction honeypot that is taken to open a connection, which is denied or
controlled. -/
def openHih (w : Work μ) : Except Fault (Work μ × List Event) := do
  if g.denyHihInit = 1 then
    let dropped := { w with conn := w.conn.switchState .drop }
    if pkt.packet.protocol = IPPROTO_TCP then
      let h ← w.conn.hih.backHandler.orFail .backHandler
      return (dropped, replyReset i w.conn h.iface pkt)
    else return (dropped, [])
  else
    let (status, w, ev) ← deProcessPacket mods i pkt g
      { w with conn := w.conn.switchState .control }
    match status with
    | .ok =>
      let ev' ← proxyHih g i pkt w
      return (w, ev ++ ev')
    | .nok => return (w, ev)

/-- A packet of a high-interaction honeypot. -/
def dispatchHih (w : Work μ) : Except Fault (Work μ × List Event) :=
  match w.conn.state with
  | .replay => do
    let (c, ev) ← replay g i (noteDelta pkt w.conn) pkt
    return ({ w with conn := c }, ev)
  | .forward => do
    let t ← w.st.targetOf w.conn
    let (_, ev) ← forwardHih2ext t i w.conn pkt
    return (w, ev)
  | .proxy => do
    let ev ← proxyHih g i pkt w
    return (w, ev)
  | .control => do
    let (status, w, ev) ← deProcessPacket mods i pkt g w
    match status with
    | .ok =>
      let t ← w.st.targetOf w.conn
      let (_, ev') ← proxyInt2ext g t i w.conn pkt
      return (w, ev ++ ev')
    | .nok => return (w, ev)
  | _ => openHih mods g i pkt w

/-- A packet of an INTRA host. -/
def dispatchIntra (w : Work μ) : Except Fault (Work μ × List Event) :=
  match w.conn.state with
  | .proxy => do
    let (_, ev) ← proxyIntra2hih g i w.conn pkt
    return (w, ev)
  | _ => .ok (w, [])

/-- A packet of the external attacker in INIT or DECISION. -/
def decideExt (w : Work μ) : Except Fault (Work μ × List Event) := do
  let (status, w, ev) ← deProcessPacket mods i pkt g w
  let t ← w.st.targetOf w.conn
  match status with
  | .ok =>
    let (pkt, ev') ← proxyExt2int g t i w.conn pkt
    return ({ w with conn := keepPkt g t w.conn pkt }, ev ++ ev')
  | .nok => return ({ w with conn := keepPkt g t w.conn pkt }, ev)

/-- A packet of the external attacker in PROXY or CONTROL. -/
def relayExt (w : Work μ) : Except Fault (Work μ × List Event) := do
  let t ← w.st.targetOf w.conn
  let (_, ev) ← proxyExt2int g t i w.conn pkt
  return (w, ev)

/-- A packet of the external attacker. -/
def dispatchExt (w : Work μ) : Except Fault (Work μ × List Event) :=
  match w.conn.state with
  | .init | .decision => decideExt mods g i pkt w
  | .forward => do
    let (_, ev) ← forwardExt2hih g i w.conn pkt
    return (w, ev)
  | .proxy | .control => relayExt g i pkt w
  | _ => .ok (w, [])

/-- The answer to a packet of EXT on an invalid or dropped connection: a reset, if so configured. -/
def refuse (w : Work μ) : Except Fault (Work μ × List Event) := do
  if pkt.origin = .ext ∧ pkt.packet.protocol = IPPROTO_TCP ∧ g.resetExt = 1 then
    let t ← w.st.targetOf w.conn
    return (w, replyReset i w.conn t.defaultRoute pkt)
  else return (w, [])

/-- What `de_thread` does with a packet once its connection is known. -/
def handle (w : Work μ) : Except Fault (Work μ × List Event) :=
  if (w.conn.state = .invalid ∧ pkt.origin = .ext) ∨ w.conn.state = .drop then refuse g i pkt w
  else
    match pkt.origin with
    | .lih => dispatchLih mods g i pkt w
    | .hih => dispatchHih mods g i pkt w
    | .intra => dispatchIntra g i pkt w
    | _ => dispatchExt mods g i pkt w

/-! ### Steps -/

/-- `pcap_cb` and the start of `de_thread`: a frame with a VLAN tag from an uplink is skipped. -/
def capture (s : State μ) (raw : RawPcap) : Option Pkt :=
  if raw.frame.vlan.isSome ∧ s.ifTarget[raw.iface]?.isSome then none else processPacket s raw

/-- Whether a packet is addressed to the interface it came from, or broadcast. -/
def addressed : Bool :=
  if pkt.broadcast then g.broadcastAllowed else pkt.packet.dhost = (g.links pkt.inIface).mac

/-- The connection a frame is attributed to, with its packet; `none` when the frame goes no
further. -/
def assign (s : State μ) (raw : RawPcap) (now : ℤ) :
    Except Fault (State μ × Option (ConnId × Pkt)) :=
  match capture s raw with
  | none => .ok (s, none)
  | some pkt =>
    if pkt.fragmented ∨ addressed g pkt = false then .ok (s, none)
    else do
      let (s, found) ← initConn g s pkt now
      return (s, found.map fun (i, origin) => (i, { pkt with origin }))

/-- The answer to a frame that was cut off by the capture. -/
def fragNeeded (s : State μ) (raw : RawPcap) : List Event :=
  match capture s raw with
  | some pkt => if pkt.fragmented then [.fragNeeded pkt] else []
  | none => []

/-- The processing of one captured frame. -/
def receive (s : State μ) (raw : RawPcap) (now : ℤ) : Except Fault (State μ × List Event) := do
  match ← assign g s raw now with
  | (s', none) => return (s', fragNeeded s raw)
  | (s', some (i, pkt)) =>
    let c ← s'.connAt i
    let (w, ev) ← handle mods g i pkt ⟨s', c⟩
    return (w.st.withConn i w.conn, .received i pkt :: ev)

/-- What can happen next: a frame is captured, or `clean` sweeps. -/
inductive Input
  | packet (raw : RawPcap) (now : ℤ)
  | sweep (now delay : ℤ)
  deriving DecidableEq, Repr

/-- One step of the program. -/
def step (s : State μ) : Input → Except Fault (State μ × List Event)
  | .packet raw now => receive mods g s raw now
  | .sweep now delay => do
    let s ← clean s now delay
    return (s, [])

/-- The state once the configuration has been read: targets and default routes, and neither
connections nor pins. -/
def boot (targets : Std.TreeMap TargetId Target intcmp) (ifTarget : Std.TreeMap IfaceId TargetId)
    (mod : μ) : State μ :=
  { targets, ifTarget, mod }

/-! ### A small configuration

One target with a low-interaction honeypot, one backend and one INTRA host, each on an interface of
its own; the modules all return the same result. -/

namespace Sample

/-- Interface 0 leads to EXT. -/
def globals : Globals where
  maxPacketBuffer := 8
  links := fun _ => { mac := 1, ip := some 9 }

/-- The low-interaction honeypot, on interface 1. -/
def lih : Handler where
  mac := 2
  ip := 10
  iface := some 1

/-- The rule of the backend and of the INTRA host: one module. -/
def rule : Rule :=
  .node { name := "rule", function := .yesno } .null .null

/-- The backend of the target, on interface 2. -/
def hih : Handler where
  id := 1
  mac := 3
  ip := 20
  iface := some 2
  rule := rule

/-- The INTRA host that stands for the address 40. -/
def intra : Handler where
  mac := 4
  ip := 30
  iface := some 3
  rule := rule

/-- A target with one backend and one INTRA host. -/
def target : Target where
  defaultRoute := some 0
  frontHandler := some lih
  backHandlers := (∅ : Std.TreeMap HandlerId Handler intcmp).insert 1 hih
  backHandlerCount := 1
  intraHandlers := (∅ : Std.TreeMap IpAddr Handler addrCmp).insert 40 intra

/-- The tree of targets, with that one. -/
def targets : Std.TreeMap TargetId Target intcmp :=
  (∅ : Std.TreeMap TargetId Target intcmp).insert 1 target

/-- Interface 0 belongs to the target. -/
def ifTarget : Std.TreeMap IfaceId TargetId :=
  (∅ : Std.TreeMap IfaceId TargetId).insert 0 1

/-- The program before its first packet. -/
def start : State Unit :=
  boot targets ifTarget ()

/-- Every module gives the same result. -/
def modules (r : ModResult) : Modules Unit :=
  fun _ a m => (⟨r, a.backendUse⟩, m)

/-- A UDP packet. -/
def udp (iface : IfaceId) (saddr : IpAddr) (source : Port) (daddr : IpAddr) (dest : Port) :
    RawPcap where
  iface := iface
  len := 60
  caplen := 60
  frame :=
    { dhost := 1, shost := 5, totLen := 46, protocol := IPPROTO_UDP, saddr, daddr, source, dest }

/-- The packet of a captured frame, with the origin it is given. -/
def packet (origin : Role) (raw : RawPcap) : Pkt where
  packet := raw.frame
  original := raw.frame
  origin := origin
  size := 60
  inIface := raw.iface

/-- A packet of the attacker. -/
def request : Pkt :=
  packet .ext (udp 0 50 1000 9 80)

/-- A connection from EXT in DECISION, whose buffer holds a packet of the attacker and the answer
of the low-interaction honeypot. -/
def buffered : Conn :=
  { Conn.fresh request 1 .ext 0 .decision with
    destination := .lih
    buffer := [request, packet .lih (udp 1 10 80 50 1000)] }

/-- A connection from EXT: two packets of the attacker around an answer of the low-interaction
honeypot. With an accepting rule the second one redirects the connection. -/
def attack : List Input :=
  [.packet (udp 0 50 1000 9 80) 0, .packet (udp 1 10 80 50 1000) 0,
    .packet (udp 0 50 1000 9 80) 0]

/-- A packet of the backend on the connection `attack`. -/
def answer : Input :=
  .packet (udp 2 20 80 50 1000) 0

end Sample

end Honeybrid
