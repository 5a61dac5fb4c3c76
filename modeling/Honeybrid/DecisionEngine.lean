import Honeybrid.Connections

/-!
# The decision engine

The functions of `decision_engine.c` that evaluate a rule on a packet and act on its verdict, and
the module `dns_control`, the only one that touches connections.

The other modules are a parameter: a module reads the packet, its connection and the target, may
suggest a backend, and has a memory `μ` of its own that lasts between packets. Any behaviour of
the configured modules, time and randomness included, is such a function.

## Main definitions

* `Modules`: the behaviour of the modules other than `dns_control`.
* `modDnsControl`, `runModule`.
* `decide`, `getDecision`, `getDecisionBackends`: evaluating rules.
* `evaluate`, `act`, `deProcessPacket`: the two halves of `DE_process_packet`, and the whole.
-/

namespace Honeybrid

variable {μ : Type}

/-! ### Modules -/

/-- `struct mod_args`, with what a module reads through its packet pointer. -/
structure ModArgs where
  pkt : Pkt
  conn : Conn
  target : Target
  backendTest : HandlerId
  backendUse : HandlerId

/-- What a module returns: its result, and `backend_use` as it leaves it. -/
structure ModOut where
  result : ModResult
  backendUse : HandlerId

/-- The behaviour of the modules other than `dns_control`. -/
abbrev Modules (μ : Type) := ModuleDef → ModArgs → μ → ModOut × μ

/-- The state and the connection a packet is being processed for; the connection is written back
when the packet is done. -/
structure Work (μ : Type) where
  st : State μ
  conn : Conn

/-- The test of `mod_dns_control`: a query on port 53 with a complete header, no response flag, at
least one question and operation code 0, the only one below 6 once its bytes are swapped. -/
def isDnsQuery (pkt : Pkt) : Bool :=
  let byte (n : ℕ) := pkt.packet.payload.getD n 0
  ntohs pkt.packet.dest == 53 && 12 ≤ pkt.data.toNat &&
    (byte 2).extractLsb' 7 1 == 0 && !(byte 4 == 0 && byte 5 == 0) &&
    (byte 2).extractLsb' 3 4 == 0

/-- `add_intra_handler`: the target and the handler afterwards. A handler without an interface is
not added, nor is one for an address that has a handler. -/
def addIntraHandler (t : Target) (ip : IpAddr) (h : Handler) : Target × Handler :=
  if h.iface.isNone ∨ t.intraHandlers[ip]?.isSome then (t, h)
  else
    let h := { h with intraTargetIps := h.intraTargetIps ++ [ip] }
    ({ t with
        intraHandlersList := t.intraHandlersList ++ [h]
        intraHandlers := t.intraHandlers.insert ip h }, h)

/-- The handler `mod_dns_control` switches a connection to: the one the target has for the address,
or the configured server, which is added to the target. -/
def dnsHandler (t : Target) (ip : IpAddr) (d : DnsServer) : Target × Handler :=
  match t.intraHandlers[ip]? with
  | some h => (t, h)
  | none => addIntraHandler t ip { mac := d.mac, ip := d.ip, vlan := d.vlan, iface := d.iface }

/-- `mod_dns_control`: a DNS query is switched to the configured server. The module accepts in any
case. -/
def modDnsControl (i : ConnId) (m : ModuleDef) (pkt : Pkt) (w : Work μ) :
    Except Fault (Work μ) := do
  if isDnsQuery pkt then
    match m.dnsServer with
    | none => return w
    | some d =>
      let t ← w.st.targetOf w.conn
      let (t, h) := dnsHandler t pkt.packet.daddr d
      let (s, c) ← switchConnToIntra { w.st with targets := w.st.targets.insert w.conn.target t } i
        { w.conn with state := .proxy, destination := .intra } h
      return ⟨s, c⟩
  else return w

/-- `run_module`. -/
def runModule (mods : Modules μ) (i : ConnId) (pkt : Pkt) (m : ModuleDef)
    (backendTest backendUse : HandlerId) (w : Work μ) : Except Fault (ModOut × Work μ) := do
  if m.function = .dnsControl then
    let w ← modDnsControl i m pkt w
    return (⟨.accept, backendUse⟩, w)
  else
    let t ← w.st.targetOf w.conn
    let (o, mem) := mods m ⟨pkt, w.conn, t, backendTest, backendUse⟩ w.st.mod
    return (o, { w with st := { w.st with mod := mem } })

/-! ### Rules -/

/-- `struct decision_holder`. -/
structure DecisionHolder where
  backendTest : HandlerId := 0
  backendUse : HandlerId := 0
  result : Decision := .noRule

variable (mods : Modules μ) (i : ConnId) (pkt : Pkt)

/-- The loop of `decide` at a node, with the value of `args.backend_use` so far. -/
def DecisionHolder.decide :
    Rule → HandlerId → DecisionHolder → Work μ → Except Fault (DecisionHolder × Work μ)
  | .null, _, d, w => .ok (d, w)
  | .node m trueBranch falseBranch, use, d, w => do
    let (o, w) ← runModule mods i pkt m d.backendTest use w
    match o.result with
    | .accept =>
      let d := if o.backendUse ≠ 0 then { d with backendUse := o.backendUse } else d
      if trueBranch = .null then return ({ d with result := .accept }, w)
      else decide trueBranch o.backendUse d w
    | .defer => return ({ d with result := .defer }, w)
    | .reject =>
      if falseBranch = .null then return ({ d with result := .reject }, w)
      else decide falseBranch o.backendUse d w

/-- `get_decision`: without a rule the holder is left as it is. -/
def getDecision (name : RuleName) (rule : Rule) (d : DecisionHolder) (w : Work μ) :
    Except Fault (DecisionHolder × Work μ × List Event) := do
  if rule = .null then return (d, w, [])
  else
    let (d, w) ← d.decide mods i pkt rule 0 w
    return (d, w, [.evaluated i name d.result])

/-- `g_tree_foreach(back_handlers, get_decision_backend, ...)`: the first backend to accept is
taken. The callback reads the low 32 bits of the key. -/
def getDecisionBackends :
    List (HandlerId × Handler) → DecisionHolder → Work μ →
      Except Fault (DecisionHolder × Work μ × List Event)
  | [], d, w => .ok (d, w, [])
  | (key, h) :: rest, d, w => do
    let key := key % 2 ^ 32
    let (d, w, ev) ← getDecision mods i pkt (.back key) h.rule { d with backendTest := key } w
    if d.result = .accept then return ({ d with backendUse := key }, w, ev)
    else
      let (d, w, evs) ← getDecisionBackends rest d w
      return (d, w, ev ++ evs)

/-! ### `DE_process_packet` -/

/-- The back-picking rule, and the rule of the backend it has picked. -/
def evaluatePicker (t : Target) (w : Work μ) :
    Except Fault (DecisionHolder × Work μ × List Event) := do
  let (d, w, ev) ← getDecision mods i pkt .backPicker t.backPicker {} w
  if d.result = .accept ∧ d.backendUse ≠ 0 then
    let h ← t.backHandlers[d.backendUse]?.orFail .backHandler
    let (d, w, ev') ← getDecision mods i pkt (.back d.backendUse) h.rule d w
    return (d, w, ev ++ ev')
  else return (d, w, ev)

/-- The first half of `DE_process_packet`: the verdict of the rule that is in charge in the state
of the connection. -/
def evaluate (w : Work μ) : Except Fault (DecisionHolder × Work μ × List Event) := do
  let t ← w.st.targetOf w.conn
  match w.conn.state with
  | .init =>
    let front ← t.frontHandler.orFail .frontHandler
    let (d, w, ev) ← getDecision mods i pkt .front front.rule {} w
    return (if d.result = .defer then { d with result := .reject } else d, w, ev)
  | .decision =>
    if t.backPicker ≠ .null then evaluatePicker mods i pkt t w
    else getDecisionBackends mods i pkt t.backHandlers.toList {} w
  | .control =>
    match w.conn.destination with
    | .ext => getDecision mods i pkt .control t.controlRule {} w
    | .intra =>
      let rule := match w.conn.intraHandler with
        | some h => h.rule
        | none => t.intraRule
      let (d, w, ev) ← getDecision mods i pkt .intra rule {} w
      return (if d.result = .defer ∨ d.result = .noRule then { d with result := .drop } else d,
        w, ev)
    | _ => return ({}, w, [])
  | _ => return ({}, w, [])

/-- `switch_state`. -/
def Conn.switchState (c : Conn) (state : ConnStatus) : Conn :=
  { c with state }

/-- The second half of `DE_process_packet`: the state of the connection after the verdict, and
whether the packet is to be sent on. -/
def act (g : Globals) (d : DecisionHolder) (w : Work μ) :
    Except Fault (Status × Work μ × List Event) := do
  let c := w.conn
  let t ← w.st.targetOf c
  match d.result with
  | .noRule =>
    match c.state with
    | .control => return (.ok, { w with conn := c.switchState .proxy }, [])
    | .init =>
      if t.backHandlerCount = 0 then return (.ok, { w with conn := c.switchState .proxy }, [])
      else return (.ok, { w with conn := c.switchState .decision }, [])
    | _ => return (.ok, w, [])
  | .defer => return (.ok, w, [])
  | .accept =>
    match c.state with
    | .init =>
      if t.backHandlerCount = 0 ∧ t.backPicker = .null then
        return (.ok, { w with conn := c.switchState .proxy }, [])
      else return (.ok, { w with conn := c.switchState .decision }, [])
    | .decision =>
      match ← setupRedirection g w.st t i c d.backendUse with
      | none => return (.nok, w, [])
      | some (s, c, ev) => return (.nok, ⟨s, c⟩, ev)
    | .control => return (.ok, w, [])
    | _ => return (.nok, w, [])
  | .reject =>
    match c.state with
    | .decision => return (.nok, { w with conn := c.switchState .proxy }, [])
    | _ => return (.nok, { w with conn := c.switchState .drop }, [])
  | .drop => return (.nok, { w with conn := c.switchState .drop }, [])

/-- `DE_process_packet`: `OK` when the packet is to be sent on. -/
def deProcessPacket (g : Globals) (w : Work μ) : Except Fault (Status × Work μ × List Event) := do
  let (d, w, ev) ← evaluate mods i pkt w
  let (status, w, ev') ← act i g d w
  return (status, w, ev ++ ev')

end Honeybrid
