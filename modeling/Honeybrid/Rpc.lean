import Honeybrid.IntraTables

/-!
# The answers of the RPC server

The functions `rpc_add_backend` and `rpc_add_intra`. Both read their parameters one position after
the other into a new handler, leave at the first one that is refused, and then register the handler.
The answer that is built from its number is dropped: the function goes on into its error exit,
releases the handler and returns zero. The loop of `rpc_add_intra` ends before the position of the
address, so that the handler is entered under the null address, if anything.

The accessors of the XML-RPC library, `addr_pton` and the splitting of an equation are parameters.

## Main definitions

* `RpcContext`: the parameters, and the tables the functions look into.
* `RpcContext.readParam`, `RpcContext.readIntraParam`: the positions.
* `RpcContext.rpcAddBackend`, `RpcContext.rpcAddIntra`: the functions.
* `RpcContext.BackendAnswered`, `RpcContext.IntraAnswered`: the answer agrees with the tables.
* `RpcContext.Accepted`: the parameters pass every check.

## Main results

* `rpc_answered_iff`: the answers agree with the tables exactly when the call is refused.
-/

namespace Honeybrid

/-- An address as `addr_pton` stores it, read as an IP address and as a hardware address. -/
structure Addr where
  ip : IpAddr
  mac : MacAddr
  deriving DecidableEq, Repr

/-- The accessors of a value, `addr_pton`, an equation as it is split, where the empty text has no
parts, and the tables `links` and `module`. -/
structure RpcContext (ν : Type) where
  readI8 : ν → ℤ
  readString : ν → String
  readInt : ν → ℤ
  addrPton : String → Option Addr
  splitEquation : String → Option Equation
  links : String → Option IfaceId
  modules : ModuleTable

/-- What ends the program: a rule cannot be built, or the null address is compared. -/
inductive RpcFault
  | rule (e : ConfigError)
  | emptyRule
  | nullAddress
  deriving DecidableEq, Repr

/-- The table `targets`. -/
abbrev TargetTable :=
  Std.TreeMap TargetId TargetTables intcmp

/-- The variables of the functions: the target, the new handler and the address. -/
structure Draft where
  targetID : TargetId := 0
  handler : Handler := { mac := 0, ip := 0, iface := none }
  targetIp : Option IpAddr := none
  deriving DecidableEq, Repr

/-- An `int64_t` as a number of the tables. -/
def tableNumber (n : ℤ) : ℕ :=
  (BitVec.ofInt 64 n).toNat

namespace RpcContext

variable {ν : Type} (c : RpcContext ν) (T : TargetTable)

/-! ### Parameters -/

/-- The address of a parameter. -/
def readAddr (v : ν) : Option Addr :=
  c.addrPton (c.readString v)

/-- The VLAN of a parameter. -/
def readVlan (v : ν) : VlanTci :=
  vlanWord (BitVec.ofInt 12 (c.readInt v)).toNat

/-- The rule of a parameter. -/
def readRule (v : ν) : Except RpcFault Rule :=
  match c.splitEquation (c.readString v) with
  | none => .error .emptyRule
  | some equation =>
    match createRule c.modules (some equation) with
    | .ok rule => .ok rule
    | .error e => .error (.rule e)

/-- The positions that both functions have; a refused parameter leaves the loop. -/
def readParam (i : ℕ) (v : ν) (d : Draft) : Except RpcFault (Option Draft) :=
  match i with
  | 0 =>
    let targetID := tableNumber (c.readI8 v)
    .ok (if T[targetID]?.isSome then some { d with targetID } else none)
  | 1 => .ok <| (c.links (c.readString v)).map fun iface =>
      { d with handler := { d.handler with iface := some iface } }
  | 2 => .ok <| (c.readAddr v).map fun a => { d with handler := { d.handler with ip := a.ip } }
  | 3 => .ok <| (c.readAddr v).map fun a => { d with handler := { d.handler with mac := a.mac } }
  | 4 => .ok <| (c.readAddr v).map fun a =>
      { d with handler := { d.handler with netmask := some a.ip } }
  | 5 => .ok (some { d with handler := { d.handler with vlan := c.readVlan v } })
  | 6 => do
    let rule ← c.readRule v
    return some { d with handler := { d.handler with rule } }
  | 7 =>
    .ok (some (if c.readInt v > 0 then { d with handler := { d.handler with exclusive := true } }
      else d))
  | _ => .ok (some d)

/-- The positions of `rpc_add_intra`. -/
def readIntraParam (i : ℕ) (v : ν) (d : Draft) : Except RpcFault (Option Draft) :=
  match i with
  | 8 => .ok <| (c.readAddr v).map fun a => { d with targetIp := some a.ip }
  | i => c.readParam T i v d

/-- The loop over the positions. -/
def readParams (read : ℕ → ν → Draft → Except RpcFault (Option Draft)) :
    ℕ → List ν → Draft → Except RpcFault (Option Draft)
  | _, [], d => .ok (some d)
  | i, v :: vs, d => do
    match ← read i v d with
    | none => return none
    | some d => readParams read (i + 1) vs d

/-! ### Functions -/

/-- `rpc_add_backend`: the table and the answer. -/
def rpcAddBackend (params : List ν) : Except RpcFault (TargetTable × ℤ) := do
  if params.length ≠ 7 then return (T, 0)
  match ← readParams (c.readParam T) 0 params {} with
  | none => return (T, 0)
  | some d =>
    match T[d.targetID]? with
    | none => return (T, 0)
    | some t =>
      -- the value built from the number is not returned
      return (T.insert d.targetID { t with target := addBackHandler t.target d.handler }, 0)

/-- `rpc_add_intra`: the table and the answer. -/
def rpcAddIntra (params : List ν) : Except RpcFault (TargetTable × ℤ) := do
  if params.length ≠ 8 then return (T, 0)
  match ← readParams (c.readIntraParam T) 0 params {} with
  | none => return (T, 0)
  | some d =>
    match T[d.targetID]? with
    | none => return (T, 0)
    | some t =>
      match t.addIntra d.targetIp d.handler with
      | .error _ => .error .nullAddress
      | .ok (t, _) => return (T.insert d.targetID t, 0)

/-! ### Answers -/

/-- The handler has the interface, the addresses, the VLAN and the rule that are given. -/
structure Given (params : List ν) (h : Handler) : Prop where
  iface : ∃ v, params[1]? = some v ∧ h.iface = c.links (c.readString v)
  ip : ∃ v a, params[2]? = some v ∧ c.readAddr v = some a ∧ h.ip = a.ip
  mac : ∃ v a, params[3]? = some v ∧ c.readAddr v = some a ∧ h.mac = a.mac
  netmask : ∃ v a, params[4]? = some v ∧ c.readAddr v = some a ∧ h.netmask = some a.ip
  vlan : ∃ v, params[5]? = some v ∧ h.vlan = c.readVlan v
  rule : ∃ v, params[6]? = some v ∧ c.readRule v = .ok h.rule

/-- The target that is named has a new backend with a number, as it is given. -/
def NewBackend (T' : TargetTable) (params : List ν) (id : ℤ) : Prop :=
  ∃ v t t' h, params[0]? = some v ∧ T[tableNumber (c.readI8 v)]? = some t ∧
    T'[tableNumber (c.readI8 v)]? = some t' ∧ (h.id : ℤ) = id ∧
    t'.target.backHandlers[h.id]? = some h ∧ t.target.backHandlers[h.id]? ≠ some h ∧
    c.Given params h

/-- The target that is named has a new INTRA handler with a number, as it is given and under the
address that is given. -/
def NewIntra (T' : TargetTable) (params : List ν) (id : ℤ) : Prop :=
  ∃ v w t t' h a, params[0]? = some v ∧ T[tableNumber (c.readI8 v)]? = some t ∧
    T'[tableNumber (c.readI8 v)]? = some t' ∧ params[8]? = some w ∧ c.readAddr w = some a ∧
    (h.id : ℤ) = id ∧ t'.value (some a.ip) = some h ∧ t.value (some a.ip) ≠ some h ∧
    c.Given params h

/-- The answer is not zero exactly when there is a new handler of that number, and zero exactly when
the tables are unchanged. -/
def Answered (call : Except RpcFault (TargetTable × ℤ)) (added : TargetTable → ℤ → Prop) : Prop :=
  ∃ T' id, call = .ok (T', id) ∧ (id ≠ 0 ↔ added T' id) ∧ (id = 0 ↔ T' = T)

/-- `rpc_add_backend` answers with the number of the new backend, or with zero. -/
def BackendAnswered (params : List ν) : Prop :=
  Answered T (c.rpcAddBackend T params) fun T' id => c.NewBackend T T' params id

/-- `rpc_add_intra` answers with the number of the new handler, or with zero. -/
def IntraAnswered (params : List ν) : Prop :=
  Answered T (c.rpcAddIntra T params) fun T' id => c.NewIntra T T' params id

/-- The target and the link exist, and the addresses are legal. -/
def Accepted : List ν → Prop
  | v₀ :: v₁ :: v₂ :: v₃ :: v₄ :: _ =>
    T[tableNumber (c.readI8 v₀)]?.isSome ∧ (c.links (c.readString v₁)).isSome ∧
      (c.readAddr v₂).isSome ∧ (c.readAddr v₃).isSome ∧ (c.readAddr v₄).isSome
  | _ => False

/-! ### Refused calls -/

variable {c T} {read : ℕ → ν → Draft → Except RpcFault (Option Draft)} {d : Draft}
  {vs params : List ν}

theorem readParams_cons_some {i : ℕ} {v : ν} {d' : Draft} (h : read i v d = .ok (some d')) :
    readParams read i (v :: vs) d = readParams read (i + 1) vs d' := by
  rw [readParams, h]
  rfl

theorem readParams_cons_none {i : ℕ} {v : ν} (h : read i v d = .ok none) :
    readParams read i (v :: vs) d = .ok none := by
  rw [readParams, h]
  rfl

/-- The first five positions: if all are accepted, the target is found and the handler has an
interface when the sixth one is read; otherwise the loop is left. -/
theorem readParams_checks (v₀ v₁ v₂ v₃ v₄ : ν) (vs : List ν)
    (hread : ∀ i < 5, read i = c.readParam T i) :
    (c.Accepted T (v₀ :: v₁ :: v₂ :: v₃ :: v₄ :: vs) →
      ∃ d : Draft, d.targetID = tableNumber (c.readI8 v₀) ∧ d.handler.iface ≠ none ∧
        d.targetIp = none ∧
        readParams read 0 (v₀ :: v₁ :: v₂ :: v₃ :: v₄ :: vs) {} = readParams read 5 vs d) ∧
    (¬c.Accepted T (v₀ :: v₁ :: v₂ :: v₃ :: v₄ :: vs) →
      readParams read 0 (v₀ :: v₁ :: v₂ :: v₃ :: v₄ :: vs) {} = .ok none) := by
  simp only [Accepted]
  -- the cases follow the loop: a position that is refused leaves the later ones unread
  by_cases h₀ : T[tableNumber (c.readI8 v₀)]?.isSome = true
  swap
  · refine ⟨fun h => absurd h.1 h₀, fun _ => readParams_cons_none ?_⟩
    simp [hread, readParam, h₀]
  have hd₀ : read 0 v₀ {} = .ok (some { targetID := tableNumber (c.readI8 v₀) }) := by
    simp [hread, readParam, h₀]
  rw [readParams_cons_some hd₀]
  cases h₁ : c.links (c.readString v₁) with
  | none =>
    refine ⟨fun h => absurd h.2.1 nofun, fun _ => readParams_cons_none ?_⟩
    simp [hread, readParam, h₁]
  | some iface =>
    rw [readParams_cons_some (by rw [hread 1 (by decide), readParam, h₁]; rfl)]
    cases h₂ : c.readAddr v₂ with
    | none =>
      refine ⟨fun h => absurd h.2.2.1 nofun, fun _ => readParams_cons_none ?_⟩
      simp [hread, readParam, h₂]
    | some ip =>
      rw [readParams_cons_some (by rw [hread 2 (by decide), readParam, h₂]; rfl)]
      cases h₃ : c.readAddr v₃ with
      | none =>
        refine ⟨fun h => absurd h.2.2.2.1 nofun, fun _ => readParams_cons_none ?_⟩
        simp [hread, readParam, h₃]
      | some mac =>
        rw [readParams_cons_some (by rw [hread 3 (by decide), readParam, h₃]; rfl)]
        cases h₄ : c.readAddr v₄ with
        | none =>
          refine ⟨fun h => absurd h.2.2.2.2 nofun, fun _ => readParams_cons_none ?_⟩
          simp [hread, readParam, h₄]
        | some netmask =>
          rw [readParams_cons_some (by rw [hread 4 (by decide), readParam, h₄]; rfl)]
          refine ⟨fun _ => ⟨_, rfl, ?_, rfl, rfl⟩, fun h => absurd ⟨h₀, rfl, rfl, rfl, rfl⟩ h⟩
          exact nofun

/-- The other positions are not refused, and leave the target and the interface alone. -/
theorem readParam_rest {i : ℕ} {v : ν} {r : Option Draft} (hi : 5 ≤ i)
    (h : c.readParam T i v d = .ok r) :
    ∃ d' : Draft, r = some d' ∧ d'.targetID = d.targetID ∧
      d'.handler.iface = d.handler.iface ∧ d'.targetIp = d.targetIp := by
  match i with
  | 0 | 1 | 2 | 3 | 4 => omega
  | 5 =>
    cases h
    exact ⟨_, rfl, rfl, rfl, rfl⟩
  | 6 =>
    obtain ⟨rule, -, h⟩ := Except.bind_eq_ok.mp h
    cases h
    exact ⟨_, rfl, rfl, rfl, rfl⟩
  | 7 =>
    cases h
    refine ⟨_, rfl, ?_⟩
    split_ifs
    · exact ⟨rfl, rfl, rfl⟩
    · exact ⟨rfl, rfl, rfl⟩
  | i + 8 =>
    cases h
    exact ⟨_, rfl, rfl, rfl, rfl⟩

theorem readParams_rest {i : ℕ} {r : Option Draft} (hi : 5 ≤ i)
    (hread : ∀ j < i + vs.length, read j = c.readParam T j)
    (h : readParams read i vs d = .ok r) :
    ∃ d' : Draft, r = some d' ∧ d'.targetID = d.targetID ∧
      d'.handler.iface = d.handler.iface ∧ d'.targetIp = d.targetIp := by
  induction vs generalizing i d with
  | nil =>
    cases h
    exact ⟨d, rfl, rfl, rfl, rfl⟩
  | cons v vs ih =>
    obtain ⟨r₁, hr₁, h⟩ := Except.bind_eq_ok.mp h
    rw [hread i (by simp)] at hr₁
    obtain ⟨d₁, rfl, htarget, hiface, hip⟩ := readParam_rest hi hr₁
    obtain ⟨d', hr, htarget', hiface', hip'⟩ :=
      ih (Nat.le_succ_of_le hi) (fun j hj => hread j (by simp only [List.length_cons]; omega)) h
    exact ⟨d', hr, htarget'.trans htarget, hiface'.trans hiface, hip'.trans hip⟩

/-- **The parameters.** A list with enough parameters, none of them beyond the common positions, is
refused, or stops the program, or yields a handler with an interface for a target that exists, and
no address. -/
theorem readParams_cases (read : ℕ → ν → Draft → Except RpcFault (Option Draft))
    (hlen : 5 ≤ params.length)
    (hread : ∀ j < params.length, read j = c.readParam T j) :
    (¬c.Accepted T params ∧ readParams read 0 params {} = .ok none) ∨
    (c.Accepted T params ∧ ((∃ e, readParams read 0 params {} = .error e) ∨
      ∃ (d : Draft) (t : TargetTables), readParams read 0 params {} = .ok (some d) ∧
        T[d.targetID]? = some t ∧ d.handler.iface ≠ none ∧ d.targetIp = none)) := by
  match params, hlen, hread with
  | v₀ :: v₁ :: v₂ :: v₃ :: v₄ :: vs, hlen, hread =>
    obtain ⟨hacc, hrej⟩ := readParams_checks v₀ v₁ v₂ v₃ v₄ vs fun i hi =>
      hread i (Nat.lt_of_lt_of_le hi hlen)
    by_cases h : c.Accepted T (v₀ :: v₁ :: v₂ :: v₃ :: v₄ :: vs)
    · refine .inr ⟨h, ?_⟩
      obtain ⟨d, htarget, hiface, hip, heq⟩ := hacc h
      obtain ⟨t, ht⟩ := Option.isSome_iff_exists.mp h.1
      rw [heq]
      cases hrest : readParams read 5 vs d with
      | error e => exact .inl ⟨e, rfl⟩
      | ok r =>
        obtain ⟨d', rfl, htarget', hiface', hip'⟩ := readParams_rest (Nat.le_refl 5)
          (fun j hj => hread j (by simp only [List.length_cons]; omega)) hrest
        refine .inr ⟨d', t, rfl, ?_, ?_, hip'.trans hip⟩
        · rw [htarget', htarget]
          exact ht
        · rw [hiface']
          exact hiface
    · exact .inl ⟨h, hrej h⟩

/-! ### Agreement -/

variable {call : Except RpcFault (TargetTable × ℤ)} {added : TargetTable → ℤ → Prop}

/-- A call that answers zero and leaves the table alone. -/
theorem answered_refused (hcall : call = .ok (T, 0)) (hadded : ¬added T 0) :
    Answered T call added :=
  ⟨T, 0, hcall, iff_of_false (fun h => h rfl) hadded, iff_of_true rfl rfl⟩

/-- A call that answers zero and changes the table, or ends the program. -/
theorem not_answered (hcall : ∀ r, call = .ok r → r.2 = 0 ∧ r.1 ≠ T) : ¬Answered T call added := by
  rintro ⟨T', id, hok, -, hzero⟩
  obtain ⟨hid, hne⟩ := hcall _ hok
  exact hne (hzero.mp hid)

theorem not_newBackend : ¬c.NewBackend T T params 0 := by
  rintro ⟨v, t, t', h, -, ht, ht', -, hback, hold, -⟩
  rw [ht] at ht'
  cases ht'
  exact hold hback

theorem not_newIntra : ¬c.NewIntra T T params 0 := by
  rintro ⟨v, w, t, t', h, a, -, ht, ht', -, -, -, hval, hold, -⟩
  rw [ht] at ht'
  cases ht'
  exact hold hval

/-- A target is changed. -/
theorem insert_ne {targetID : TargetId} {t t' : TargetTables} (ht : T[targetID]? = some t)
    (hne : t' ≠ t) : T.insert targetID t' ≠ T := by
  intro heq
  have hsame := congrArg (·[targetID]?) heq
  simp only [Std.TreeMap.getElem?_insert_self, ht, Option.some.injEq] at hsame
  exact hne hsame

/-- The answer of `rpc_add_backend` agrees with the tables exactly when the call is refused. -/
theorem backendAnswered_iff (params : List ν) :
    c.BackendAnswered T params ↔ ¬(params.length = 7 ∧ c.Accepted T params) := by
  by_cases hlen : params.length = 7
  swap
  · refine iff_of_true (answered_refused ?_ not_newBackend) fun h => hlen h.1
    rw [rpcAddBackend, if_pos hlen]
    rfl
  have hlen₅ : 5 ≤ params.length := by omega
  obtain ⟨hrej, hread⟩ | ⟨hacc, hread⟩ :=
    readParams_cases (c.readParam T) hlen₅ fun _ _ => rfl
  · refine iff_of_true (answered_refused ?_ not_newBackend) fun h => hrej h.2
    rw [rpcAddBackend, if_neg (not_not.mpr hlen), hread]
    rfl
  · refine iff_of_false (not_answered fun r hr => ?_) fun h => h ⟨hlen, hacc⟩
    rw [rpcAddBackend, if_neg (not_not.mpr hlen)] at hr
    obtain ⟨e, hread⟩ | ⟨d, t, hread, ht, -, -⟩ := hread
    · rw [hread] at hr
      cases hr
    · rw [hread, Except.ok_bind] at hr
      simp only [ht] at hr
      cases hr
      refine ⟨rfl, insert_ne ht fun heq => ?_⟩
      -- the counter has advanced
      have hcount := congrArg (·.target.backHandlerCount) heq
      simp [addBackHandler] at hcount

/-- An addition without an address, if the program goes on, lengthens the list. -/
theorem addIntra_changes {t : TargetTables} {h : Handler} {r : TargetTables × Status}
    (hiface : h.iface ≠ none) (hadd : t.addIntra none h = .ok r) : r.1 ≠ t := by
  cases hnull : t.null with
  | some x => simp [TargetTables.addIntra, TargetTables.lookup, hnull, hiface] at hadd
  | none =>
    rw [addIntra_null hnull, if_neg (by simpa using hiface)] at hadd
    split_ifs at hadd
    cases hadd
    intro heq
    have hlen := congrArg (·.target.intraHandlersList.length) heq
    simp at hlen

/-- The answer of `rpc_add_intra` agrees with the tables exactly when the call is refused. -/
theorem intraAnswered_iff (params : List ν) :
    c.IntraAnswered T params ↔ ¬(params.length = 8 ∧ c.Accepted T params) := by
  by_cases hlen : params.length = 8
  swap
  · refine iff_of_true (answered_refused ?_ not_newIntra) fun h => hlen h.1
    rw [rpcAddIntra, if_pos hlen]
    rfl
  have hlen₅ : 5 ≤ params.length := by omega
  obtain ⟨hrej, hread⟩ | ⟨hacc, hread⟩ :=
    readParams_cases (c.readIntraParam T) hlen₅ fun j hj => by
      funext v d
      rw [readIntraParam]
      omega
  · refine iff_of_true (answered_refused ?_ not_newIntra) fun h => hrej h.2
    rw [rpcAddIntra, if_neg (not_not.mpr hlen), hread]
    rfl
  · refine iff_of_false (not_answered fun r hr => ?_) fun h => h ⟨hlen, hacc⟩
    rw [rpcAddIntra, if_neg (not_not.mpr hlen)] at hr
    obtain ⟨e, hread⟩ | ⟨d, t, hread, ht, hiface, hip⟩ := hread
    · rw [hread] at hr
      cases hr
    · rw [hread, Except.ok_bind] at hr
      simp only [ht, hip] at hr
      cases hadd : t.addIntra none d.handler with
      | error e =>
        rw [hadd] at hr
        cases hr
      | ok r' =>
        rw [hadd] at hr
        cases hr
        exact ⟨rfl, insert_ne ht (addIntra_changes hiface hadd)⟩

end RpcContext

/-- **Answers.** Whatever the parameters and the tables, the answers of `rpc_add_backend` and
`rpc_add_intra` agree with the tables exactly when the call is refused: the number of parameters is
not the one that the function asks for, the target or the link does not exist, or an address is not
legal. -/
theorem rpc_answered_iff {ν : Type} (c : RpcContext ν) (T : TargetTable) (params : List ν) :
    (c.BackendAnswered T params ↔ ¬(params.length = 7 ∧ c.Accepted T params)) ∧
      (c.IntraAnswered T params ↔ ¬(params.length = 8 ∧ c.Accepted T params)) :=
  ⟨RpcContext.backendAnswered_iff params, RpcContext.intraAnswered_iff params⟩

namespace Sample

/-- A value of the XML-RPC library. -/
inductive RpcValue
  | int (n : ℤ)
  | string (s : String)

/-- One link, one module, and three addresses in their bytes. -/
def rpcContext : RpcContext RpcValue where
  readI8 v := match v with | .int n => n | .string _ => 0
  readString v := match v with | .int _ => "" | .string s => s
  readInt v := match v with | .int n => n | .string _ => 0
  addrPton s :=
    if s = "10.0.0.20" then some ⟨0x1400000a, 0x1400000a⟩
    else if s = "00:00:00:00:00:03" then some ⟨0, 0x030000000000⟩
    else if s = "255.255.255.0" then some ⟨0x00ffffff, 0x00ffffff⟩
    else none
  splitEquation s := if s = "yes" then some { first := { first := "yes" } } else none
  links s := if s = "internal" then some 2 else none
  modules s := if s = "yes" then some { function := some "yesno" } else none

/-- A table with one target, which has a rule for the choice of a backend. -/
def rpcTable : TargetTable :=
  (∅ : TargetTable).insert 1 { target := { backPicker := Sample.rule } }

/-- The parameters of a call that adds a backend. -/
def rpcBackend : List RpcValue :=
  [.int 1, .string "internal", .string "10.0.0.20", .string "00:00:00:00:00:03",
    .string "255.255.255.0", .int 0, .string "yes"]

end Sample

/-- **A backend that is registered.** The target has a new backend with the number one, and the
answer is zero. -/
theorem registered_answered_zero :
    ((Sample.rpcContext.rpcAddBackend Sample.rpcTable Sample.rpcBackend).passes fun r =>
      r.2 = 0 && (r.1[1]?.any fun t => t.target.backHandlers[1]?.isSome)) = true ∧
    ¬Sample.rpcContext.BackendAnswered Sample.rpcTable Sample.rpcBackend := by
  refine ⟨by decide +kernel, fun h => ?_⟩
  refine (RpcContext.backendAnswered_iff _).mp h ⟨rfl, ?_, rfl, rfl, rfl, rfl⟩
  decide +kernel

end Honeybrid
