import Mathlib.Algebra.Group.Nat.Defs
import Mathlib.Data.Int.Notation
import Honeybrid.Lib.Runs
import Honeybrid.Lib.KeyedTree

/-!
# The data model of honeybrid

The enumerations of `types.h`, the structures of `structs.h` and the global tables of `globals.h`.

Addresses and ports are the words the C code loads from a frame on a little-endian machine, so
network byte order shows as a byte reversal (`ntohs`, `ntohl`). Pointers to interfaces, targets
and connections are numbers into the tables that own them; a null pointer is `none`, and following
one is a `Fault`. Handlers never change once they are registered, so they are held by value.

What only the log reads (statistics, timestamps, the connection number, the decision rule text) is
left out, and so are the locks: packets are processed one at a time.

## Main definitions

* `Role`, `ConnStatus`, `Decision`, `ModResult`: the enumerations.
* `VlanTci`, `ConnKey`, `PinKey`: the bit-field and the two lookup keys, with the orders
  `connKeyCmp` and `pincmp` of their trees.
* `Rule`, `Handler`, `Target`: decision rules, honeypots and targets.
* `Frame`, `Pkt`: a frame by its header fields, and the packet structure around it.
* `Conn`, `Pin`: a tracked connection and a pin.
* `Globals`, `State`: the settings, and everything a packet can change.
* `Fault`, `Event`: how an execution goes wrong, and what it shows to the outside.
-/

namespace Honeybrid

/-! ### Enumerations and words -/

/-- `role_t`: where a packet or a connection comes from or goes to. -/
inductive Role
  | ext | int | lih | hih | intra
  deriving DecidableEq, Repr

/-- `conn_status_t`. -/
inductive ConnStatus
  | invalid | init | decision | replay | forward | proxy | drop | control
  deriving DecidableEq, Repr

/-- `status_t`. -/
inductive Status
  | nok | ok
  deriving DecidableEq, Repr

/-- `decision_t`: the verdict of a rule. -/
inductive Decision
  | noRule | defer | reject | accept | drop
  deriving DecidableEq, Repr

/-- `mod_result_t`: the result of one module. -/
inductive ModResult
  | defer | reject | accept
  deriving DecidableEq, Repr

/-- An IPv4 address, as the word `ip->saddr`. -/
abbrev IpAddr := BitVec 32

/-- A TCP or UDP port, as the word `tcp->source`. -/
abbrev Port := BitVec 16

/-- An Ethernet address. -/
abbrev MacAddr := BitVec 48

/-- A `struct interface *`. -/
abbrev IfaceId := ℕ

/-- A `struct target *`, named by its `targetID`. -/
abbrev TargetId := ℕ

/-- The key of a backend in `back_handlers`. -/
abbrev HandlerId := ℕ

/-- A `struct conn_struct *`, named by the value of `c_id` at its allocation. -/
abbrev ConnId := ℕ

/-- The byte reversal of a 16-bit word. -/
def ntohs (w : BitVec 16) : BitVec 16 :=
  w.extractLsb' 0 8 ++ w.extractLsb' 8 8

/-- The byte reversal of a 32-bit word. -/
def ntohl (w : BitVec 32) : BitVec 32 :=
  w.extractLsb' 0 8 ++ w.extractLsb' 8 8 ++ w.extractLsb' 16 8 ++ w.extractLsb' 24 8

/-- The protocol number of TCP. -/
def IPPROTO_TCP : BitVec 8 := 6

/-- The protocol number of UDP. -/
def IPPROTO_UDP : BitVec 8 := 17

/-- `struct vlan_tci`: the bit-fields `pcp:3`, `dei:1`, `vid:12` of the little-endian word `i`. -/
structure VlanTci where
  i : BitVec 16
  deriving DecidableEq, Repr

/-- The bit-field `vid`: the upper twelve bits of the word. -/
def VlanTci.vid (t : VlanTci) : BitVec 12 :=
  t.i.extractLsb' 4 12

/-! ### Lookup keys -/

/-- `struct conn_key`. -/
structure ConnKey where
  protocol : BitVec 8
  srcIp : IpAddr
  srcPort : Port
  dstIp : IpAddr
  dstPort : Port
  vlanId : BitVec 12 := 0
  deriving DecidableEq, Repr

/-- The packed structure read as one number, `conn_key.key`. -/
def ConnKey.key (k : ConnKey) : ℕ :=
  k.protocol.toNat + 2 ^ 8 * (k.srcIp.toNat + 2 ^ 32 * (k.srcPort.toNat + 2 ^ 16 *
    (k.dstIp.toNat + 2 ^ 32 * (k.dstPort.toNat + 2 ^ 16 * k.vlanId.toNat))))

/-- `struct pin_key`. -/
structure PinKey where
  targetIp : IpAddr := 0
  handlerIp : IpAddr
  vlanId : BitVec 12
  deriving DecidableEq, Repr

/-- The packed structure read as one number, `pin_key.key`. -/
def PinKey.key (k : PinKey) : ℕ :=
  k.targetIp.toNat + 2 ^ 32 * (k.handlerIp.toNat + 2 ^ 32 * k.vlanId.toNat)

theorem ConnKey.key_injective : Function.Injective ConnKey.key := by
  rintro ⟨p, s, sp, d, dp, v⟩ ⟨p', s', sp', d', dp', v'⟩ h
  simp only [ConnKey.key] at h
  have := p.isLt; have := p'.isLt; have := s.isLt; have := s'.isLt; have := sp.isLt
  have := sp'.isLt; have := d.isLt; have := d'.isLt; have := dp.isLt; have := dp'.isLt
  simp only [ConnKey.mk.injEq, ← BitVec.toNat_inj]
  omega

theorem PinKey.key_injective : Function.Injective PinKey.key := by
  rintro ⟨t, h, v⟩ ⟨t', h', v'⟩ he
  simp only [PinKey.key] at he
  have := t.isLt; have := t'.isLt; have := h.isLt; have := h'.isLt
  simp only [PinKey.mk.injEq, ← BitVec.toNat_inj]
  omega

/-- `conn_key_cmp`: the larger key first. -/
def connKeyCmp : ConnKey → ConnKey → Ordering :=
  descOn ConnKey.key

/-- `pincmp`: the larger key first. -/
def pincmp : PinKey → PinKey → Ordering :=
  descOn PinKey.key

/-- `intcmp`: the larger number first, read from the low 32 bits. -/
def intcmp : ℕ → ℕ → Ordering :=
  descOn (· % 2 ^ 32)

/-- `addr_cmp` of libdnet on IPv4 addresses: the order of their bytes. -/
def addrCmp : IpAddr → IpAddr → Ordering :=
  compareOn fun a => (ntohl a).toNat

instance : Std.TransCmp connKeyCmp := inferInstanceAs (Std.TransCmp (descOn _))

instance : Std.LawfulEqCmp connKeyCmp := lawfulEqCmp_descOn ConnKey.key_injective

instance : Std.TransCmp pincmp := inferInstanceAs (Std.TransCmp (descOn _))

instance : Std.LawfulEqCmp pincmp := lawfulEqCmp_descOn PinKey.key_injective

instance : Std.TransCmp intcmp := inferInstanceAs (Std.TransCmp (descOn _))

instance : Std.TransCmp addrCmp := inferInstanceAs (Std.TransCmp (compareOn _))

/-! ### Rules, handlers and targets -/

/-- The entries of `module_definitions`. -/
inductive ModuleFn
  | source | sourceTime | random | yesno | counter | vmi | control | backpickRandom | dnsControl
  | hash
  deriving DecidableEq, Repr

/-- The host the module `dns_control` switches queries to: its configuration entries `interface`,
`ip`, `mac` and `vlan_id`, the interface being `none` when no link has that name. -/
structure DnsServer where
  iface : Option IfaceId
  ip : IpAddr
  mac : MacAddr
  vlan : VlanTci
  deriving DecidableEq, Repr

/-- A configured module: its name, its function and, for `dns_control`, the configured server, or
`none` when an entry is missing. -/
structure ModuleDef where
  name : String
  function : ModuleFn
  dnsServer : Option DnsServer := none
  deriving DecidableEq, Repr

/-- A pointer to `struct node`: the null pointer, or a module with its two branches. -/
inductive Rule
  | null
  | node (module : ModuleDef) (trueBranch falseBranch : Rule)
  deriving DecidableEq, Repr

/-- `struct handler`: a honeypot. Every handler is configured with an address and a MAC address;
only `dns_control` can leave its interface unset. -/
structure Handler where
  id : HandlerId := 0
  mac : MacAddr
  ip : IpAddr
  netmask : Option IpAddr := none
  vlan : VlanTci := ⟨0⟩
  iface : Option IfaceId
  rule : Rule := .null
  exclusive : Bool := false
  intraTargetIps : List IpAddr := []
  deriving DecidableEq, Repr

/-- `struct target`. -/
structure Target where
  defaultRoute : Option IfaceId := none
  defaultRouteIp : Option IpAddr := none
  defaultRouteMac : MacAddr := 0
  frontHandler : Option Handler := none
  backHandlers : Std.TreeMap HandlerId Handler intcmp := ∅
  backHandlerCount : ℕ := 0
  backPicker : Rule := .null
  intraHandlers : Std.TreeMap IpAddr Handler addrCmp := ∅
  intraHandlersList : List Handler := []
  controlRule : Rule := .null
  intraRule : Rule := .null

/-- The part of `struct interface` that stays fixed while the program runs. -/
structure Interface where
  mac : MacAddr
  ip : Option IpAddr := none
  deriving DecidableEq, Repr

/-! ### Frames and packets -/

/-- The TCP header after its ports: numbers in host byte order, the flags, and the value of the
timestamp option as `get_tcp_timestamps` reads it. -/
structure TcpHdr where
  seq : BitVec 32 := 0
  ackSeq : BitVec 32 := 0
  doff : BitVec 4 := 5
  syn : Bool := false
  ack : Bool := false
  fin : Bool := false
  rst : Bool := false
  ts : Option (BitVec 32) := none
  deriving DecidableEq, Repr

/-- A captured frame by its header fields: Ethernet, an optional 802.1Q tag, IPv4, and the ports
at the start of the TCP or UDP header. The fields of `tcp` mean something for TCP only. -/
structure Frame where
  dhost : MacAddr
  shost : MacAddr
  vlan : Option VlanTci := none
  ihl : BitVec 4 := 5
  totLen : BitVec 16
  protocol : BitVec 8
  saddr : IpAddr
  daddr : IpAddr
  source : Port
  dest : Port
  tcp : TcpHdr := {}
  payload : List (BitVec 8) := []
  deriving DecidableEq, Repr

/-- `pkt_vlan_id`: zero for an untagged frame. -/
def Frame.vlanId (f : Frame) : BitVec 12 :=
  match f.vlan with
  | none => 0
  | some t => t.vid

/-- The test by which the lookups match a frame against a handler's VLAN. -/
def Frame.onVlan (f : Frame) (v : VlanTci) : Bool :=
  match f.vlan with
  | none => v.vid == 0
  | some t => v.vid == t.vid

@[simp] theorem Frame.onVlan_iff (f : Frame) (v : VlanTci) :
    f.onVlan v = true ↔ v.vid = f.vlanId := by
  cases h : f.vlan <;> simp [Frame.onVlan, Frame.vlanId, h]

/-- What `pcap_loop` hands over: the interface, `header->len`, `header->caplen` and the frame. -/
structure RawPcap where
  iface : IfaceId
  len : ℕ
  caplen : ℕ
  frame : Frame
  deriving DecidableEq, Repr

/-- `struct pkt_struct`. The headers in `packet` are rewritten on the way out; `original` keeps
them as captured. -/
structure Pkt where
  packet : Frame
  original : Frame
  fragmented : Bool := false
  broadcast : Bool := false
  origin : Role
  destination : Role := .ext
  data : BitVec 32 := 0
  size : ℕ
  de : ℕ := 0
  inIface : IfaceId
  deriving DecidableEq, Repr

/-! ### Connections and pins -/

/-- `struct expected_data_struct`; `tcpTs` is `none` where the source has `-1`. -/
structure ExpectedData where
  ipProto : BitVec 8 := 0
  tcpSeq : BitVec 32 := 0
  tcpAckSeq : BitVec 32 := 0
  tcpTs : Option (BitVec 32) := some 0
  payload : List (BitVec 8) := []
  deriving DecidableEq, Repr

/-- `replay_problem_t`, one flag per bit. -/
structure ReplayProblem where
  unexpectedProtocol : Bool := false
  unexpectedPayload : Bool := false
  unexpectedTcpAck : Bool := false
  unexpectedTcpSeq : Bool := false
  unexpectedTcpTs : Bool := false
  expectedTcpTs : Bool := false
  tcpTsOutOfSync : Bool := false
  deriving DecidableEq, Repr

/-- The three pin trees. -/
inductive PinTree
  | comm | target | intra
  deriving DecidableEq, Repr

/-- `struct pin`. A pin whose count has reached zero has been freed. -/
structure Pin where
  ip : IpAddr
  count : ℕ
  deriving DecidableEq, Repr

/-- `conn->pin_ip`, a pointer into a pin: the tree that owns the pin and the address read there,
which never changes. -/
structure PinPtr where
  tree : PinTree
  ip : IpAddr
  deriving DecidableEq, Repr

/-- `struct hih_struct`. -/
structure Hih where
  hihID : HandlerId := 0
  backHandler : Option Handler := none
  port : Port := 0
  lihSynSeq : BitVec 32 := 0
  delta : BitVec 32 := 0
  redirectedIntKey : Option ConnKey := none
  targetPinKey : Option PinKey := none
  deriving DecidableEq, Repr

/-- `struct conn_struct`. -/
structure Conn where
  extKey : Option ConnKey := none
  intKey : Option ConnKey := none
  intraKey : Option ConnKey := none
  pinKey : Option PinKey := none
  protocol : BitVec 8
  accessTime : ℤ
  tcpTsDiff : ℤ := 0
  state : ConnStatus
  replayId : ℕ := 0
  countDataPktFromIntruder : ℕ := 0
  buffer : List Pkt := []
  expectedData : ExpectedData := {}
  initiator : Role
  destination : Role
  firstPktSrcMac : MacAddr
  firstPktDstMac : MacAddr
  firstPktSrcIp : IpAddr
  firstPktDstIp : IpAddr
  firstPktSrcPort : Port
  firstPktDstPort : Port
  hih : Hih := {}
  intraHandler : Option Handler := none
  target : TargetId
  pinIp : Option PinPtr := none
  replayProblem : ReplayProblem := {}
  deriving DecidableEq, Repr

/-! ### The whole program -/

/-- The settings and the links, fixed while packets are processed. -/
structure Globals where
  maxPacketBuffer : ℕ
  denyHihInit : ℤ := 0
  resetExt : ℤ := 0
  exclusiveHih : ℤ := 0
  broadcastAllowed : Bool := false
  links : IfaceId → Interface

/-- Everything a packet can change: the targets, which target an interface is the default route
of, the live connections, the six connection trees, the three pin trees, the connection counter
and the memory `μ` of the decision modules. -/
structure State (μ : Type) where
  targets : Std.TreeMap TargetId Target intcmp := ∅
  ifTarget : Std.TreeMap IfaceId TargetId := ∅
  conns : Std.TreeMap ConnId Conn := ∅
  extTree1 : Std.TreeMap ConnKey ConnId connKeyCmp := ∅
  extTree2 : Std.TreeMap ConnKey ConnId connKeyCmp := ∅
  intTree1 : Std.TreeMap ConnKey ConnId connKeyCmp := ∅
  intTree2 : Std.TreeMap ConnKey ConnId connKeyCmp := ∅
  intraTree1 : Std.TreeMap ConnKey ConnId connKeyCmp := ∅
  intraTree2 : Std.TreeMap ConnKey ConnId connKeyCmp := ∅
  commPinTree : Std.TreeMap PinKey Pin pincmp := ∅
  targetPinTree : Std.TreeMap PinKey Pin pincmp := ∅
  intraPinTree : Std.TreeMap PinKey Pin pincmp := ∅
  cId : ℕ := 0
  mod : μ

/-- The tree behind a name. -/
def State.pinTree {μ : Type} (s : State μ) : PinTree → Std.TreeMap PinKey Pin pincmp
  | .comm => s.commPinTree
  | .target => s.targetPinTree
  | .intra => s.intraPinTree

/-- The state with one of the pin trees replaced. -/
def State.setPinTree {μ : Type} (s : State μ) (t : Std.TreeMap PinKey Pin pincmp) :
    PinTree → State μ
  | .comm => { s with commPinTree := t }
  | .target => { s with targetPinTree := t }
  | .intra => { s with intraPinTree := t }

/-- Undefined behaviour: the pointer that was followed although it was null, uninitialised or
freed. -/
inductive Fault
  | frontHandler | defaultRoute | defaultRouteIp | backHandler | hihSearch | iface | target | conn
  | connKey | pin | bufferEnd
  deriving DecidableEq, Repr

/-- The connection behind a pointer; it may have been freed. -/
def State.connAt {μ : Type} (s : State μ) (i : ConnId) : Except Fault Conn :=
  s.conns[i]?.orFail .conn

/-- `conn->target`. -/
def State.targetOf {μ : Type} (s : State μ) (c : Conn) : Except Fault Target :=
  s.targets[c.target]?.orFail .target

/-- The functions that inject a frame. -/
inductive Sender
  | proxyExt2int | proxyInt2ext | proxyHih2intra | proxyIntra2hih | forwardExt2hih | forwardHih2ext
  | replyReset
  deriving DecidableEq, Repr

/-- The rules `DE_process_packet` evaluates. -/
inductive RuleName
  | front | backPicker | back (hihID : HandlerId) | control | intra
  deriving DecidableEq, Repr

/-- An injected frame: by which function, for which connection, as it stood then, on account of
which packet, and on which interface. -/
structure Emission where
  sender : Sender
  id : ConnId
  conn : Conn
  pkt : Pkt
  out : IfaceId
  frame : Frame
  deriving DecidableEq, Repr

/-- What happens while a packet is processed: it is attributed to a connection, a rule is
evaluated on it, frames are injected, or it is answered as too long. -/
inductive Event
  | received (id : ConnId) (pkt : Pkt)
  | evaluated (id : ConnId) (rule : RuleName) (result : Decision)
  | emitted (e : Emission)
  | fragNeeded (pkt : Pkt)
  deriving DecidableEq, Repr

end Honeybrid
