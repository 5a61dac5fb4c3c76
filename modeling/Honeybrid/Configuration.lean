import Honeybrid.Management
import Honeybrid.Rules
import Honeybrid.Engine

/-!
# Reading the configuration

The actions of `config_rules.y` and the start of `main`. A configuration file is taken as the
derivation the grammar finds for it: blocks, and the entries of a target block, with addresses and
numbers as the lexer and `addr_pton` deliver them. An action that calls `yyerror` or `errx` ends the
program.

The settings are copied out of the table `config` by `init_variables`, which `main` calls before the
parser has filled that table.

## Main definitions

* `ConfigValue`, `TargetEntry`, `Block`: configuration files.
* `Setup`: the tables the parser fills.
* `TargetEntry.action`, `Block.action`, `initParser`: the actions.
* `initVariables`, `Setup.main`: the start of the program.
-/

namespace Honeybrid

/-! ### Configuration files -/

/-- A value of the table `config`: a number, or the text of a word, an expression or an address. -/
inductive ConfigValue
  | number (n : ℤ)
  | text (s : String)
  deriving DecidableEq, Repr

/-- What an entry of a target block says of a honeypot: the link, the address, `hw`, `netmask` and
`vlan`. -/
structure Honeypot where
  link : String
  ip : IpAddr
  mac : MacAddr
  netmask : Option IpAddr := none
  vlan : ℕ := 0
  deriving DecidableEq, Repr

/-- The productions of `rule`. -/
inductive TargetEntry
  | frontend (h : Honeypot) (equation : Option Equation)
  | backpick (equation : Equation)
  | backend (h : Honeypot) (equation : Option Equation)
  | internal (ip : IpAddr) (h : Honeypot) (equation : Option Equation)
  | internet (equation : Equation)
  | intralan (equation : Equation)
  deriving DecidableEq, Repr

/-- The clause `default route via` of a target block. -/
structure DefaultRoute where
  link : String
  mac : MacAddr
  src : Option IpAddr := none
  deriving DecidableEq, Repr

/-- The blocks of a configuration file. -/
inductive Block
  | config (parameters : List (String × ConfigValue))
  | link (tag : String)
  | module (name : String) (settings : ModuleConfig)
  | target (route : Option DefaultRoute) (entries : List TargetEntry)

/-- What ends the program while the configuration is read. -/
inductive ConfigError
  /-- `Fatal error: missing parameter 'function' in module` -/
  | missingFunction (name : String)
  /-- `Target interface is not defined!` -/
  | targetInterface
  /-- `Front handler interface is undefined!` -/
  | frontInterface
  /-- `Back handler interface is undefined!` -/
  | backInterface
  /-- `Intra handler interface is undefined!` -/
  | intraInterface
  /-- `Backend needs a rule if no backend picking rule is defined!` -/
  | backendRule
  /-- An error while a rule is built. -/
  | rule (e : RuleError)
  deriving DecidableEq, Repr

/-! ### Settings -/

/-- The global variables that `init_variables` sets from the table `config`. -/
structure Settings where
  maxPacketBuffer : ℕ
  denyHihInit : ℤ
  resetExt : ℤ
  exclusiveHih : ℤ
  broadcastAllowed : Bool
  deriving DecidableEq, Repr

/-- The table `config`. -/
abbrev ConfigTable := String → Option ConfigValue

/-- The macro `ICONFIG`: the value is read as an `int`, and a missing one is `NOK`. What a text
shows to such a read is given by `textWord`. -/
def iconfig (textWord : String → ℤ) (config : ConfigTable) (parameter : String) : ℤ :=
  match config parameter with
  | some (.number n) => n
  | some (.text s) => textWord s
  | none => 0

/-- `ULLONG_MAX`. -/
def ULLONG_MAX : ℕ := 2 ^ 64 - 1

/-- The end of `init_variables`, which reads the settings. -/
def readSettings (textWord : String → ℤ) (config : ConfigTable) : Settings where
  maxPacketBuffer :=
    if 0 < iconfig textWord config "max_packet_buffer" then
      (iconfig textWord config "max_packet_buffer").toNat
    else ULLONG_MAX
  denyHihInit := iconfig textWord config "deny_hih_init"
  resetExt := iconfig textWord config "reset_ext"
  exclusiveHih := iconfig textWord config "exclusive_hih"
  broadcastAllowed := iconfig textWord config "broadcast_allowed" ≠ 0

/-- What `main` sets up before packets arrive. The interfaces are numbered in the order of their
blocks. -/
structure Setup where
  settings : Settings
  config : ConfigTable := fun _ => none
  modules : ModuleTable := fun _ => none
  links : String → Option IfaceId := fun _ => none
  linkCount : ℕ := 0
  targets : Std.TreeMap TargetId Target intcmp := ∅
  ifTarget : Std.TreeMap IfaceId TargetId := ∅
  targetCounter : ℕ := 0

/-- `init_variables`: the tables are created, and the settings are read from the new table. -/
def initVariables (textWord : String → ℤ) : Setup where
  settings := readSettings textWord fun _ => none

/-! ### Actions -/

/-- The rule behind a pointer into the heap of nodes, down to a given depth. -/
def Heap.toRule (h : Heap) : ℕ → Option NodePtr → Rule
  | 0, _ => .null
  | _ + 1, none => .null
  | n + 1, some p =>
    match h[p]? with
    | none => .null
    | some node =>
      .node node.module (Heap.toRule h n node.trueBranch) (Heap.toRule h n node.falseBranch)

/-- `DE_create_tree`, as the actions call it. -/
def createRule (table : ModuleTable) (equation : Option Equation) : Except ConfigError Rule :=
  match deCreateTree table equation [] with
  | .ok (root, heap) => .ok (heap.toRule (heap.length + 1) root)
  | .error e => .error (.rule e)

/-- `htons(vlan & BIT_MASK(0,11))`. -/
def vlanWord (vlan : ℕ) : VlanTci :=
  ⟨ntohs (BitVec.ofNat 16 (vlan % 2 ^ 12))⟩

/-- The handler of an entry, on an interface that is defined. -/
def Honeypot.handler (h : Honeypot) (links : String → Option IfaceId) (e : ConfigError) :
    Except ConfigError Handler := do
  let iface ← (links h.link).orFail e
  return { mac := h.mac, ip := h.ip, netmask := h.netmask, vlan := vlanWord h.vlan,
           iface := some iface }

variable (s : Setup)

/-- The action of an entry on the target that its block is building. A backend with a rule takes a
number before `add_back_handler` gives it the next one. -/
def TargetEntry.action (t : Target) : TargetEntry → Except ConfigError Target
  | .frontend h equation => do
    let front ← h.handler s.links .frontInterface
    let rule ← createRule s.modules equation
    return { t with frontHandler := some { front with rule } }
  | .backpick equation => do
    let rule ← createRule s.modules (some equation)
    return { t with backPicker := rule }
  | .backend h none => do
    if t.backPicker = .null then .error .backendRule
    else
      let back ← h.handler s.links .backInterface
      return addBackHandler t back
  | .backend h (some equation) => do
    let back ← h.handler s.links .backInterface
    let rule ← createRule s.modules (some equation)
    return addBackHandler { t with backHandlerCount := t.backHandlerCount + 1 } { back with rule }
  | .internal ip h equation => do
    let intra ← h.handler s.links .intraInterface
    let rule ← createRule s.modules equation
    return (addIntraHandler t ip { intra with rule, exclusive := true }).1
  | .internet equation => do
    let rule ← createRule s.modules (some equation)
    return { t with controlRule := rule }
  | .intralan equation => do
    let rule ← createRule s.modules (some equation)
    return { t with intraRule := rule }

/-- The actions of a list of entries, from the first to the last. -/
def targetActions : List TargetEntry → Target → Except ConfigError Target
  | [], t => .ok t
  | e :: es, t => do
    let t ← e.action s t
    targetActions es t

/-- The call of `add_target` for the target of a block. -/
def Setup.addTarget (t : Target) : Setup :=
  { s with
    targets := (Honeybrid.addTarget s.targets s.targetCounter t).1
    targetCounter := s.targetCounter + 1 }

/-- The action of a block. With a default route, the interface is led to the new target. -/
def Block.action : Block → Except ConfigError Setup
  | .config parameters =>
    .ok { s with
      config := parameters.foldl (fun config p => Function.update config p.1 (some p.2)) s.config }
  | .link tag =>
    .ok { s with
      links := Function.update s.links tag (some s.linkCount)
      linkCount := s.linkCount + 1 }
  | .module name settings =>
    if settings.function.isNone then .error (.missingFunction name)
    else .ok { s with modules := Function.update s.modules name (some settings) }
  | .target none entries => do
    let t ← targetActions s entries {}
    return s.addTarget t
  | .target (some route) entries => do
    let t ← targetActions s entries {}
    let iface ← (s.links route.link).orFail .targetInterface
    let s := s.addTarget
      { t with
        defaultRoute := some iface
        defaultRouteIp := route.src
        defaultRouteMac := route.mac }
    return { s with ifTarget := s.ifTarget.insert iface s.targetCounter }

/-- `init_parser`: the actions of the blocks of a file. -/
def initParser : List Block → Setup → Except ConfigError Setup
  | [], s => .ok s
  | b :: bs, s => do
    let s ← b.action s
    initParser bs s

/-- The start of `main`: `init_variables`, and then `init_parser`. -/
def Setup.main (textWord : String → ℤ) (file : List Block) : Except ConfigError Setup :=
  initParser file (initVariables textWord)

/-- The settings and the interfaces, once `init_pcap` has asked the system for the addresses of the
interfaces. -/
def Setup.globals (links : IfaceId → Interface) : Globals where
  maxPacketBuffer := s.settings.maxPacketBuffer
  denyHihInit := s.settings.denyHihInit
  resetExt := s.settings.resetExt
  exclusiveHih := s.settings.exclusiveHih
  broadcastAllowed := s.settings.broadcastAllowed
  links

/-- The state in which packets start to arrive. -/
def Setup.start {μ : Type} (mem : μ) : State μ :=
  boot s.targets s.ifTarget mem

end Honeybrid
