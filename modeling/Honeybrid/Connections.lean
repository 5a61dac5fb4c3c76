import Honeybrid.Netcode

/-!
# Flow tracking

The functions of `connections.c`: admission of a packet, the lookup of its connection in the six
trees, the creation of a connection with its keys and pins, redirection to a high-interaction
honeypot, the switch to an INTRA host, and removal.

A search callback of the source that stops at its first hit is a `List.find?` over the entries of
the tree in their order. The search records live on the stack of `create_conn`: a field that no
callback has written is uninitialised, and here `none`.

## Main definitions

* `initPkt`, `processPacket`: a captured frame becomes a packet.
* `connLookup`, `createConn`, `updateConn`, `initConn`.
* `setupRedirection`, `switchConnToIntra`.
* `removeConn`, `clean`.
-/

namespace Honeybrid

variable {μ : Type}

/-! ### Packets -/

/-- The octets of an Ethernet header. -/
def ETHER_HDR_LEN : ℕ := 14

/-- The octets of an Ethernet header with a VLAN tag. -/
def VLAN_ETH_HLEN : ℕ := 18

/-- The octets of an Ethernet, an IP and a UDP header. -/
def MIN_PACKET_SIZE : ℕ := 42

/-- The octets of an Ethernet, an IP and a TCP header. -/
def MIN_TCP_SIZE : ℕ := 54

/-- The octets of a UDP header. -/
def UDP_HDR_LEN : BitVec 32 := 8

/-- `mac_broadcast_string`. -/
def broadcast : MacAddr := 0xffffffffffff

/-- `init_pkt`. The origin of a packet from an interface that is no default route is not known
yet. -/
def initPkt (s : State μ) (raw : RawPcap) : Option Pkt :=
  let f := raw.frame
  let size := (if f.vlan.isSome then VLAN_ETH_HLEN else ETHER_HDR_LEN) + f.totLen.toNat
  let ipData := f.totLen.setWidth 32 - f.ihl.setWidth 32 * 4
  let pkt : Pkt :=
    { packet := f
      original := f
      fragmented := raw.caplen < size
      broadcast := f.dhost == broadcast
      origin := if s.ifTarget[raw.iface]?.isSome then .ext else .int
      size
      inIface := raw.iface }
  if f.protocol = IPPROTO_TCP then
    if size < MIN_TCP_SIZE then none
    else if f.tcp.doff < 5 then none
    else if f.source = 0 ∨ f.dest = 0 then none
    else some { pkt with data := ipData - f.tcp.doff.setWidth 32 * 4 }
  else if f.protocol = IPPROTO_UDP then some { pkt with data := ipData - UDP_HDR_LEN }
  else none

/-- `process_packet`. -/
def processPacket (s : State μ) (raw : RawPcap) : Option Pkt :=
  let f := raw.frame
  if raw.len < MIN_PACKET_SIZE then none
  else if f.protocol ≠ IPPROTO_TCP ∧ f.protocol ≠ IPPROTO_UDP then none
  else if f.ihl < 5 ∨ 8 < f.ihl then none
  else initPkt s raw

/-- `store_pkt`: the packet is kept unless the buffer is full. -/
def storePkt (g : Globals) (c : Conn) (pkt : Pkt) : Conn :=
  if c.buffer.length < g.maxPacketBuffer then { c with buffer := c.buffer ++ [pkt] } else c

/-! ### Searching handlers -/

/-- `find_hih_src`. -/
def findHihSrc (pkt : Pkt) (h : Handler) : Bool :=
  h.iface = some pkt.inIface ∧ h.ip = pkt.packet.saddr ∧ pkt.packet.onVlan h.vlan

/-- `find_hih_dst`. -/
def findHihDst (pkt : Pkt) (h : Handler) : Bool :=
  h.ip = pkt.packet.daddr

/-- `find_intra`. -/
def findIntra (pkt : Pkt) (h : Handler) : Bool :=
  h.iface = some pkt.inIface ∧ h.ip = pkt.packet.saddr ∧ pkt.packet.onVlan h.vlan

/-- What `find_target` leaves in the search records: the target, the origin of the packet, and the
backend or INTRA handler it was recognised by. -/
structure TargetSearch where
  target : TargetId
  origin : Role
  hihID : HandlerId := 0
  backHandler : Option Handler := none
  intraHandler : Option Handler := none
  deriving DecidableEq, Repr

/-- `find_target` on one target. -/
def findTarget (pkt : Pkt) (id : TargetId) (t : Target) : Except Fault (Option TargetSearch) := do
  let front ← t.frontHandler.orFail .frontHandler
  if pkt.packet.saddr = front.ip then return some { target := id, origin := .lih }
  else
    match t.backHandlers.toList.find? fun e => findHihSrc pkt e.2 with
    | some (hihID, h) => return some { target := id, origin := .hih, hihID, backHandler := some h }
    | none =>
      match t.intraHandlers.toList.find? fun e => findIntra pkt e.2 with
      | some (_, h) => return some { target := id, origin := .intra, intraHandler := some h }
      | none => return none

/-- `g_tree_foreach(targets, find_target, ...)`. -/
def findTargets (pkt : Pkt) : List (TargetId × Target) → Except Fault (Option TargetSearch)
  | [] => return none
  | (id, t) :: ts => do
    match ← findTarget pkt id t with
    | some r => return some r
    | none => findTargets pkt ts

/-! ### Lookup -/

/-- The key `conn_lookup` builds from a packet. -/
def Pkt.connKey (pkt : Pkt) : ConnKey where
  protocol := pkt.packet.protocol
  srcIp := pkt.packet.saddr
  srcPort := pkt.packet.source
  dstIp := pkt.packet.daddr
  dstPort := pkt.packet.dest
  vlanId := pkt.packet.vlanId

/-- The origin `conn_lookup` gives to a packet from an internal interface: LIH when it comes from
the front handler's interface, address and VLAN, and HIH otherwise. -/
def classify (front : Handler) (pkt : Pkt) : Role :=
  if front.iface = some pkt.inIface ∧ pkt.packet.saddr = front.ip ∧ pkt.packet.onVlan front.vlan
  then .lih else .hih

/-- The origin of an internal packet of a given connection. -/
def originOf (s : State μ) (pkt : Pkt) (i : ConnId) : Except Fault Role := do
  let c ← s.connAt i
  let t ← s.targetOf c
  let front ← t.frontHandler.orFail .frontHandler
  return classify front pkt

/-- `conn_lookup`: the connection of a packet and the packet's origin. -/
def connLookup (s : State μ) (pkt : Pkt) : Except Fault (Option (ConnId × Role)) :=
  let key := pkt.connKey
  if pkt.origin = .ext then
    match s.extTree1[key]?, s.intTree2[key]? with
    | some i, _ | none, some i => do
      let _ ← s.connAt i
      return some (i, .ext)
    | none, none => return none
  else
    match s.extTree2[key]?, s.intTree1[key]?, s.intraTree1[key]?, s.intraTree2[key]? with
    | some i, _, _, _ | none, some i, _, _ | none, none, some i, _ => do
      let role ← originOf s pkt i
      return some (i, role)
    | none, none, none, some i => do
      let _ ← s.connAt i
      return some (i, .intra)
    | none, none, none, none => return none

/-! ### Pins -/

/-- The pin with a given key; a pin that was freed must not be read. -/
def lookupPin (s : State μ) (tree : PinTree) (k : PinKey) : Except Fault (Option Pin) :=
  match (s.pinTree tree)[k]? with
  | none => return none
  | some p => if p.count = 0 then .error .pin else return some p

/-- Write a pin into a tree. -/
def setPin (s : State μ) (tree : PinTree) (k : PinKey) (p : Pin) : State μ :=
  s.setPinTree ((s.pinTree tree).insert k p) tree

/-- Give back one reference of the pin with key `k`; the last one removes the entry with key `k'`
and frees the pin. -/
def releasePin (s : State μ) (tree : PinTree) (k k' : PinKey) : Except Fault (State μ) := do
  match ← lookupPin s tree k with
  | none => return s
  | some p =>
    let s := setPin s tree k { p with count := p.count - 1 }
    if p.count - 1 = 0 then return s.setPinTree ((s.pinTree tree).erase k') tree else return s

/-! ### Creation -/

/-- The connection structure as `create_conn` first fills it. -/
def Conn.fresh (pkt : Pkt) (target : TargetId) (origin : Role) (now : ℤ) (state : ConnStatus) :
    Conn where
  protocol := pkt.packet.protocol
  accessTime := now
  state
  initiator := origin
  destination := .ext
  firstPktSrcMac := pkt.packet.shost
  firstPktDstMac := pkt.packet.dhost
  firstPktSrcIp := pkt.packet.saddr
  firstPktDstIp := pkt.packet.daddr
  firstPktSrcPort := pkt.packet.source
  firstPktDstPort := pkt.packet.dest
  target

/-- The key of the packet that opens a connection, on the VLAN `vlanId`. -/
def newKey (pkt : Pkt) (vlanId : BitVec 12) : ConnKey where
  protocol := pkt.packet.protocol
  srcIp := pkt.packet.saddr
  srcPort := pkt.packet.source
  dstIp := pkt.packet.daddr
  dstPort := pkt.packet.dest
  vlanId

/-- The key of the reply to a packet whose destination is translated to `ip`. -/
def dnatReplyKey (pkt : Pkt) (ip : IpAddr) (vlanId : BitVec 12) : ConnKey where
  protocol := pkt.packet.protocol
  srcIp := ip
  srcPort := pkt.packet.dest
  dstIp := pkt.packet.saddr
  dstPort := pkt.packet.source
  vlanId

/-- The key of the reply to a packet whose source is translated to `ip`. -/
def snatReplyKey (pkt : Pkt) (ip : IpAddr) : ConnKey where
  protocol := pkt.packet.protocol
  srcIp := pkt.packet.daddr
  srcPort := pkt.packet.dest
  dstIp := ip
  dstPort := pkt.packet.source

/-- The pin of a front handler for a target address. -/
def commPinKey (front : Handler) (targetIp : IpAddr) : PinKey where
  targetIp
  handlerIp := front.ip
  vlanId := front.vlan.vid

/-- The pin of a backend. -/
def targetPinKey (h : Handler) : PinKey where
  handlerIp := h.ip
  vlanId := h.vlan.vid

/-- `g_tree_insert` of a connection in the two trees of connections from EXT. -/
def insertExt (s : State μ) (i : ConnId) (extKey intKey : ConnKey) : State μ :=
  { s with extTree1 := s.extTree1.insert extKey i, extTree2 := s.extTree2.insert intKey i }

/-- `g_tree_insert` of a connection in the two trees of connections to EXT. -/
def insertInt (s : State μ) (i : ConnId) (intKey extKey : ConnKey) : State μ :=
  { s with intTree1 := s.intTree1.insert intKey i, intTree2 := s.intTree2.insert extKey i }

/-- `g_tree_insert` of a connection in the two trees of INTRA connections. -/
def insertIntra (s : State μ) (i : ConnId) (intKey intraKey : ConnKey) : State μ :=
  { s with
    intraTree1 := s.intraTree1.insert intKey i
    intraTree2 := s.intraTree2.insert intraKey i }

/-- The connection structure `c` becomes live under the number `i`. -/
def State.withConn (s : State μ) (i : ConnId) (c : Conn) : State μ :=
  { s with conns := s.conns.insert i c }

/-- `create_conn` for a packet from EXT. Each branch of `create_conn` returns the state with the new
connection, or `none` when the packet is refused. Here the connection goes
to the front handler, and the target address is pinned to it. -/
def createExt (s : State μ) (i : ConnId) (c : Conn) (t : Target) (pkt : Pkt) :
    Except Fault (Option (State μ)) := do
  let front ← t.frontHandler.orFail .frontHandler
  let extKey := newKey pkt 0
  let intKey := dnatReplyKey pkt front.ip front.vlan.vid
  let pinKey := commPinKey front pkt.packet.daddr
  let s := insertExt s i extKey intKey
  let s ← match ← lookupPin s .comm pinKey with
    | none => pure (setPin s .comm pinKey { ip := pkt.packet.daddr, count := 1 })
    | some p => pure (setPin s .comm pinKey { p with count := p.count + 1 })
  return some (s.withConn i
    { c with
      state := .init, destination := .lih, extKey := some extKey, intKey := some intKey
      pinKey := some pinKey })

/-- Look up the pin a connection to EXT is to be translated by. Without one the address of the
default route is taken; with one the pin gets another reference. -/
def acquireSnat (g : Globals) (s : State μ) (c : Conn) (t : Target) (tree : PinTree) (k : PinKey) :
    Except Fault (State μ × Conn × IpAddr) := do
  match ← lookupPin s tree k with
  | none =>
    let out ← t.defaultRoute.orFail .defaultRoute
    let ip ← (g.links out).ip.orFail .defaultRouteIp
    return (s, c, ip)
  | some p =>
    return (setPin s tree k { p with count := p.count + 1 },
      { c with pinKey := some k, pinIp := some ⟨tree, p.ip⟩ }, p.ip)

/-- The common end of the branches for connections from a honeypot to EXT. -/
def createToExt (g : Globals) (s : State μ) (i : ConnId) (c : Conn) (t : Target) (pkt : Pkt)
    (tree : PinTree) (k : PinKey) (vlanId : BitVec 12) :
    Except Fault (Option (State μ)) := do
  let (s, c, ip) ← acquireSnat g s c t tree k
  let extKey := snatReplyKey pkt ip
  let intKey := newKey pkt vlanId
  let s := insertInt s i intKey extKey
  return some (s.withConn i
    { c with destination := .ext, extKey := some extKey, intKey := some intKey })

/-- `create_conn` for a packet from the low-interaction honeypot: it may only go to EXT. -/
def createLih (g : Globals) (s : State μ) (i : ConnId) (c : Conn) (t : Target) (pkt : Pkt) :
    Except Fault (Option (State μ)) := do
  let front ← t.frontHandler.orFail .frontHandler
  if t.intraHandlers[pkt.packet.daddr]?.isSome then return none
  else if t.backHandlers.toList.any fun e => findHihDst pkt e.2 then return none
  else
    createToExt g s i { c with state := .control } t pkt .comm
      (commPinKey front pkt.packet.daddr) front.vlan.vid

/-- The INTRA pin of a connection to an exclusive INTRA handler: created, or taken once more unless
it stands for another target address. -/
def acquireIntra (s : State μ) (c : Conn) (h : Handler) (pkt : Pkt) :
    Except Fault (Option (State μ × Conn)) := do
  if h.exclusive then
    let k : PinKey :=
      { targetIp := pkt.packet.saddr, handlerIp := h.ip, vlanId := h.vlan.vid }
    match ← lookupPin s .intra k with
    | none =>
      let p : Pin := { ip := c.firstPktDstIp, count := 1 }
      return some (setPin s .intra k p, { c with pinKey := some k, pinIp := some ⟨.intra, p.ip⟩ })
    | some p =>
      if p.ip ≠ c.firstPktDstIp then return none
      else
        return some (setPin s .intra k { p with count := p.count + 1 },
          { c with pinKey := some k, pinIp := some ⟨.intra, p.ip⟩ })
  else return some (s, c)

/-- `create_conn` for a packet of a high-interaction honeypot to a configured INTRA address. -/
def createToIntra (s : State μ) (i : ConnId) (c : Conn) (h back : Handler) (pkt : Pkt) :
    Except Fault (Option (State μ)) := do
  match ← acquireIntra s c h pkt with
  | none => return none
  | some (s, c) =>
    let intraKey := dnatReplyKey pkt h.ip h.vlan.vid
    let intKey := newKey pkt back.vlan.vid
    let s := insertIntra s i intKey intraKey
    return some (s.withConn i
      { c with destination := .intra, intraKey := some intraKey, intKey := some intKey })

/-- An address on the same LAN as a handler with a netmask. -/
def onLan (h : Handler) (ip : IpAddr) : Bool :=
  match h.netmask with
  | some m => ip &&& m == h.ip &&& m
  | none => false

/-- `create_conn` for a packet from a high-interaction honeypot. A connection to an address of its
own LAN that no INTRA handler stands for is returned without being entered in any tree. -/
def createHih (g : Globals) (s : State μ) (i : ConnId) (c : Conn) (t : Target) (pkt : Pkt)
    (r : TargetSearch) : Except Fault (Option (State μ)) := do
  let back ← r.backHandler.orFail .hihSearch
  let front ← t.frontHandler.orFail .frontHandler
  let c := { c with
    state := .init
    hih := { c.hih with hihID := r.hihID, backHandler := some back } }
  match t.intraHandlers[pkt.packet.daddr]? with
  | some h => createToIntra s i { c with intraHandler := some h } h back pkt
  | none =>
    if onLan back pkt.packet.daddr then return some (s.withConn i { c with destination := .intra })
    else if pkt.packet.daddr = front.ip then return none
    else if t.backHandlers.toList.any fun e => findHihDst pkt e.2 then return none
    else if g.exclusiveHih = 1 then
      createToExt g s i c t pkt .target (targetPinKey back) back.vlan.vid
    else
      createToExt g s i c t pkt .comm (commPinKey front pkt.packet.daddr) back.vlan.vid

/-- `create_conn` for a packet from an INTRA host: it may only go back to a high-interaction
honeypot that holds a pin for it. The callback `find_hih_dst` does not fill in the handler it has
found, so `hih_search.back_handler` is read uninitialised. -/
def createIntra (s : State μ) (i : ConnId) (c : Conn) (t : Target) (pkt : Pkt) (r : TargetSearch) :
    Except Fault (Option (State μ)) := do
  let front ← t.frontHandler.orFail .frontHandler
  if t.intraHandlers[pkt.packet.daddr]?.isSome then return none
  else if pkt.packet.daddr = front.ip then return none
  else if t.backHandlers.toList.any fun e => findHihDst pkt e.2 then
    let back ← r.backHandler.orFail .hihSearch
    let intra ← r.intraHandler.orFail .hihSearch
    let k : PinKey := { targetIp := intra.ip, handlerIp := back.ip, vlanId := intra.vlan.vid }
    match ← lookupPin s .intra k with
    | none => return none
    | some p =>
      let s := setPin s .intra k { p with count := p.count + 1 }
      let intKey := snatReplyKey pkt p.ip
      let intraKey := newKey pkt back.vlan.vid
      let s := insertIntra s i intKey intraKey
      return some (s.withConn i
        { c with
          state := .proxy, destination := .hih, hih := { c.hih with backHandler := some back }
          pinKey := some k, pinIp := some ⟨.intra, p.ip⟩
          intKey := some intKey, intraKey := some intraKey })
  else return none

/-- Where a packet without a connection comes from: an interface that is a default route names its
target, and otherwise the targets are searched. -/
def identify (s : State μ) (pkt : Pkt) : Except Fault (Option TargetSearch) :=
  if pkt.origin = .ext then
    return s.ifTarget[pkt.inIface]?.map fun id => { target := id, origin := .ext }
  else findTargets pkt s.targets.toList

/-- The branches of `create_conn`. -/
def createAs (g : Globals) (s : State μ) (i : ConnId) (c : Conn) (t : Target) (pkt : Pkt)
    (r : TargetSearch) : Except Fault (Option (State μ)) :=
  match r.origin with
  | .ext => createExt s i c t pkt
  | .lih => createLih g s i c t pkt
  | .hih => createHih g s i c t pkt r
  | .intra => createIntra s i c t pkt r
  | .int => .ok none

/-- `create_conn`: the state afterwards, in which the counter may have advanced, and the new
connection with the origin given to the packet, or `none` when the packet is refused. -/
def createConn (g : Globals) (s : State μ) (pkt : Pkt) (now : ℤ) :
    Except Fault (State μ × Option (ConnId × Role)) := do
  if pkt.packet.protocol = IPPROTO_TCP ∧ pkt.packet.tcp.syn = false then return (s, none)
  else
    match ← identify s pkt with
    | none => return (s, none)
    | some r =>
      let t ← s.targets[r.target]?.orFail .target
      let s := { s with cId := s.cId + 1 }
      let i := s.cId
      let c := Conn.fresh pkt r.target r.origin now .invalid
      match ← createAs g s i c t pkt r with
      | some s' => return (s', some (i, r.origin))
      | none => return (s, none)

/-- `update_conn`. -/
def updateConn (c : Conn) (role : Role) (now : ℤ) : Conn :=
  { c with
    accessTime := now
    countDataPktFromIntruder :=
      if role = .ext then c.countDataPktFromIntruder + 1 else c.countDataPktFromIntruder }

/-- `init_conn`: the connection of a packet, looked up or created, and the packet's origin. -/
def initConn (g : Globals) (s : State μ) (pkt : Pkt) (now : ℤ) :
    Except Fault (State μ × Option (ConnId × Role)) := do
  match ← connLookup s pkt with
  | none => createConn g s pkt now
  | some (i, role) =>
    let c ← s.connAt i
    return (s.withConn i (updateConn c role now), some (i, role))

/-! ### Redirection and switching -/

/-- The target pin of a redirection with exclusive backends: created, or taken once more unless it
stands for another target address. -/
def acquireTarget (g : Globals) (s : State μ) (c : Conn) (h : Handler) :
    Except Fault (Option (State μ × Conn)) := do
  if g.exclusiveHih = 1 then
    let k := targetPinKey h
    match ← lookupPin s .target k with
    | some p =>
      if p.ip ≠ c.firstPktDstIp then return none
      else
        return some (setPin s .target k { p with count := p.count + 1 },
          { c with hih := { c.hih with targetPinKey := some k } })
    | none =>
      return some (setPin s .target k { ip := c.firstPktDstIp, count := 1 },
        { c with hih := { c.hih with targetPinKey := some k } })
  else return some (s, c)

/-- The key of a reply of the backend `h` on a redirected connection. -/
def redirectedKey (c : Conn) (h : Handler) : ConnKey where
  protocol := c.protocol
  srcIp := h.ip
  srcPort := c.firstPktDstPort
  dstIp := c.firstPktSrcIp
  dstPort := c.firstPktSrcPort
  vlanId := h.vlan.vid

/-- The connection structure once it is redirected to the backend `h`. -/
def Conn.redirectTo (c : Conn) (hihUse : HandlerId) (h : Handler) : Conn :=
  { c with
    state := .replay
    hih := { c.hih with
      hihID := hihUse, backHandler := some h, port := c.firstPktDstPort
      redirectedIntKey := some (redirectedKey c h) } }

/-- The packets `setup_redirection` sends: the reset of the low-interaction honeypot, and the
buffered packets of EXT up to the first answer of that honeypot, which is expected next. -/
def startReplay (g : Globals) (t : Target) (i : ConnId) (c : Conn) :
    Except Fault (Conn × List Event) := do
  let rst ← resetLih t i c
  let (c, evs, found) ← forwardingLoop g i c (c.buffer.drop c.replayId)
  match found with
  | some current =>
    let c := defineExpectedData c current
    return ({ c with replayId := c.replayId + 1 }, rst ++ evs)
  | none => return (c, rst ++ evs)

/-- `setup_redirection`: `none` when it returns `NOK`. Its exit for a backend without an address
cannot be taken, every handler having one. -/
def setupRedirection (g : Globals) (s : State μ) (t : Target) (i : ConnId) (c : Conn)
    (hihUse : HandlerId) : Except Fault (Option (State μ × Conn × List Event)) := do
  if hihUse = 0 then return none
  else
    let h ← t.backHandlers[hihUse]?.orFail .backHandler
    match ← acquireTarget g s c h with
    | none => return none
    | some (s, c) =>
      let s := { s with extTree2 := s.extTree2.insert (redirectedKey c h) i }
      let (c, evs) ← startReplay g t i (c.redirectTo hihUse h)
      return some (s, c, evs)

/-- `switch_conn_to_intra`. -/
def switchConnToIntra (s : State μ) (i : ConnId) (c : Conn) (h : Handler) :
    Except Fault (State μ × Conn) := do
  let intraKey : ConnKey :=
    { protocol := c.protocol, srcIp := h.ip, srcPort := c.firstPktDstPort
      dstIp := c.firstPktSrcIp, dstPort := c.firstPktSrcPort, vlanId := h.vlan.vid }
  let intKey ← c.intKey.orFail .connKey
  let extKey ← c.extKey.orFail .connKey
  let s := { s with intTree1 := s.intTree1.erase intKey, intTree2 := s.intTree2.erase extKey }
  return (insertIntra s i intKey intraKey,
    { c with intraHandler := some h, intraKey := some intraKey })

/-! ### Removal -/

/-- Give back the pin a connection holds through `pin_key`, looked for in a given tree. -/
def releaseConnPin (s : State μ) (tree : PinTree) (c : Conn) : Except Fault (State μ) :=
  match c.pinKey with
  | some k => releasePin s tree k k
  | none => .ok s

/-- The first part of `remove_conn`: the trees and the pin tree are chosen by the initiator and the
destination the connection has now. -/
def deregister (s : State μ) (c : Conn) : Except Fault (State μ) := do
  match c.initiator, c.destination with
  | .ext, _ =>
    let extKey ← c.extKey.orFail .connKey
    let intKey ← c.intKey.orFail .connKey
    let s := { s with extTree1 := s.extTree1.erase extKey, extTree2 := s.extTree2.erase intKey }
    let s := match c.hih.redirectedIntKey with
      | some k => { s with extTree2 := s.extTree2.erase k }
      | none => s
    releaseConnPin s .comm c
  | .lih, .ext | .hih, .ext =>
    let extKey ← c.extKey.orFail .connKey
    let intKey ← c.intKey.orFail .connKey
    releaseConnPin
      { s with intTree2 := s.intTree2.erase extKey, intTree1 := s.intTree1.erase intKey } .comm c
  | .intra, _ | .hih, .intra =>
    let intKey ← c.intKey.orFail .connKey
    let intraKey ← c.intraKey.orFail .connKey
    releaseConnPin
      { s with
        intraTree1 := s.intraTree1.erase intKey, intraTree2 := s.intraTree2.erase intraKey }
      .intra c
  | _, _ => return s

/-- The second part of `remove_conn`: the target pin. Its entry is looked up under
`hih.target_pin_key`, but removed under `pin_key`. -/
def releaseTargetPin (s : State μ) (c : Conn) : Except Fault (State μ) :=
  match c.hih.targetPinKey, c.pinKey with
  | some k, some k' => releasePin s .target k k'
  | some _, none => .error .connKey
  | none, _ => .ok s

/-- `remove_conn`: leave the trees, give back the pins and free the connection. -/
def removeConn (s : State μ) (i : ConnId) : Except Fault (State μ) := do
  let c ← s.connAt i
  let s ← deregister s c
  let s ← releaseTargetPin s c
  return { s with conns := s.conns.erase i }

/-- `expire_conn` on the entries of one tree: the connections that are to be removed. -/
def expired (s : State μ) (now delay : ℤ) : List (ConnKey × ConnId) → Except Fault (List ConnId)
  | [] => return []
  | (_, i) :: es => do
    let c ← s.connAt i
    let is ← expired s now delay es
    return if delay < now - c.accessTime ∨ c.state = .invalid then i :: is else is

/-- Remove the connections of a list one after the other. -/
def removeAll (s : State μ) : List ConnId → Except Fault (State μ)
  | [] => return s
  | i :: is => do
    let s ← removeConn s i
    removeAll s is

/-- One sweep of `clean`. -/
def clean (s : State μ) (now delay : ℤ) : Except Fault (State μ) := do
  let e ← expired s now delay s.extTree1.toList
  let i ← expired s now delay s.intTree2.toList
  let n ← expired s now delay s.intraTree1.toList
  removeAll s (e ++ i ++ n)

end Honeybrid
