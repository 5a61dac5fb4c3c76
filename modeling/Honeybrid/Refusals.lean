import Honeybrid.Lib.Exits
import Honeybrid.Engine

/-!
# Connections that are refused

`create_conn` takes pins and inserts into the trees on its way, and has a `goto done` for every
packet it does not serve. `createProc` is the function with its reads, writes and exits in the order
of the source: an exit keeps what has been written before it. It computes what `createConn`
computes, and a packet that it refuses has changed nothing but the counter.

## Main definitions

* `createProc`: `create_conn` as a procedure.
* `Advanced`: the state with another value of the counter.

## Main results

* `createProc_eq`: the procedure and `createConn` agree.
* `createProc_refused`: a refused packet leaves no trace.
-/

namespace Honeybrid

variable {μ : Type}

/-! ### The function in its own order -/

/-- A piece of `create_conn`. -/
abbrev Piece (μ α : Type) := Procedure (State μ) Fault α

/-- Follow a pointer. -/
def follow {α : Type} (o : Option α) (e : Fault) : Piece μ α :=
  .read fun _ => o.orFail e

/-- `g_tree_lookup` in a pin tree. -/
def searchPin (tree : PinTree) (k : PinKey) : Piece μ (Option Pin) :=
  .read fun s => lookupPin s tree k

/-- A write to a pin: a new one, or `pin->count++`. -/
def writePin (tree : PinTree) (k : PinKey) (p : Pin) : Piece μ Unit :=
  .write fun s => setPin s tree k p

/-- The branch of `create_conn` for a packet from EXT. Each of the branches returns the structure it
has filled in. -/
def extProc (i : ConnId) (c : Conn) (t : Target) (pkt : Pkt) : Piece μ Conn := do
  let front ← follow t.frontHandler .frontHandler
  let extKey := newKey pkt 0
  let intKey := dnatReplyKey pkt front.ip front.vlan.vid
  let pinKey := commPinKey front pkt.packet.daddr
  .write fun s => insertExt s i extKey intKey
  match ← searchPin .comm pinKey with
  | none => writePin .comm pinKey { ip := pkt.packet.daddr, count := 1 }
  | some p => writePin .comm pinKey { p with count := p.count + 1 }
  return { c with
    state := .init, destination := .lih, extKey := some extKey, intKey := some intKey
    pinKey := some pinKey }

/-- The part that the branches for connections to EXT have in common. -/
def toExtProc (g : Globals) (i : ConnId) (c : Conn) (t : Target) (pkt : Pkt) (tree : PinTree)
    (k : PinKey) (vlanId : BitVec 12) : Piece μ Conn := do
  match ← searchPin tree k with
  | none =>
    let out ← follow t.defaultRoute .defaultRoute
    let ip ← follow (g.links out).ip .defaultRouteIp
    .write fun s => insertInt s i (newKey pkt vlanId) (snatReplyKey pkt ip)
    return { c with
      destination := .ext
      extKey := some (snatReplyKey pkt ip)
      intKey := some (newKey pkt vlanId) }
  | some p =>
    writePin tree k { p with count := p.count + 1 }
    .write fun s => insertInt s i (newKey pkt vlanId) (snatReplyKey pkt p.ip)
    return { c with
      pinKey := some k, pinIp := some ⟨tree, p.ip⟩
      destination := .ext, extKey := some (snatReplyKey pkt p.ip)
      intKey := some (newKey pkt vlanId) }

/-- The branch of `create_conn` for a packet from the low-interaction honeypot. -/
def lihProc (g : Globals) (i : ConnId) (c : Conn) (t : Target) (pkt : Pkt) : Piece μ Conn := do
  let front ← follow t.frontHandler .frontHandler
  if t.intraHandlers[pkt.packet.daddr]?.isSome then .giveUp
  else if t.backHandlers.toList.any fun e => findHihDst pkt e.2 then .giveUp
  else
    toExtProc g i { c with state := .control } t pkt .comm
      (commPinKey front pkt.packet.daddr) front.vlan.vid

/-- The INTRA pin of a connection to an exclusive INTRA handler. -/
def pinIntraProc (c : Conn) (h : Handler) (pkt : Pkt) : Piece μ Conn := do
  if h.exclusive then
    let k : PinKey := { targetIp := pkt.packet.saddr, handlerIp := h.ip, vlanId := h.vlan.vid }
    match ← searchPin .intra k with
    | none =>
      writePin .intra k { ip := c.firstPktDstIp, count := 1 }
      return { c with pinKey := some k, pinIp := some ⟨.intra, c.firstPktDstIp⟩ }
    | some p =>
      if p.ip ≠ c.firstPktDstIp then .giveUp
      else
        writePin .intra k { p with count := p.count + 1 }
        return { c with pinKey := some k, pinIp := some ⟨.intra, p.ip⟩ }
  else return c

/-- The part of `create_conn` for connections to a configured INTRA address. -/
def toIntraProc (i : ConnId) (c : Conn) (h back : Handler) (pkt : Pkt) : Piece μ Conn := do
  let c ← pinIntraProc c h pkt
  .write fun s =>
    insertIntra s i (newKey pkt back.vlan.vid) (dnatReplyKey pkt h.ip h.vlan.vid)
  return { c with
    destination := .intra, intraKey := some (dnatReplyKey pkt h.ip h.vlan.vid)
    intKey := some (newKey pkt back.vlan.vid) }

/-- The branch of `create_conn` for a packet from a high-interaction honeypot. -/
def hihProc (g : Globals) (i : ConnId) (c : Conn) (t : Target) (pkt : Pkt) (r : TargetSearch) :
    Piece μ Conn := do
  let back ← follow r.backHandler .hihSearch
  let front ← follow t.frontHandler .frontHandler
  let c := { c with
    state := .init
    hih := { c.hih with hihID := r.hihID, backHandler := some back } }
  match t.intraHandlers[pkt.packet.daddr]? with
  | some h => toIntraProc i { c with intraHandler := some h } h back pkt
  | none =>
    if onLan back pkt.packet.daddr then return { c with destination := .intra }
    else if pkt.packet.daddr = front.ip then .giveUp
    else if t.backHandlers.toList.any fun e => findHihDst pkt e.2 then .giveUp
    else if g.exclusiveHih = 1 then
      toExtProc g i c t pkt .target (targetPinKey back) back.vlan.vid
    else
      toExtProc g i c t pkt .comm (commPinKey front pkt.packet.daddr) back.vlan.vid

/-- The branch of `create_conn` for a packet from an INTRA host. -/
def intraProc (i : ConnId) (c : Conn) (t : Target) (pkt : Pkt) (r : TargetSearch) :
    Piece μ Conn := do
  let front ← follow t.frontHandler .frontHandler
  if t.intraHandlers[pkt.packet.daddr]?.isSome then .giveUp
  else if pkt.packet.daddr = front.ip then .giveUp
  else if t.backHandlers.toList.any fun e => findHihDst pkt e.2 then
    let back ← follow r.backHandler .hihSearch
    let intra ← follow r.intraHandler .hihSearch
    let k : PinKey := { targetIp := intra.ip, handlerIp := back.ip, vlanId := intra.vlan.vid }
    match ← searchPin .intra k with
    | none => .giveUp
    | some p =>
      writePin .intra k { p with count := p.count + 1 }
      .write fun s => insertIntra s i (snatReplyKey pkt p.ip) (newKey pkt back.vlan.vid)
      return { c with
        state := .proxy, destination := .hih, hih := { c.hih with backHandler := some back }
        pinKey := some k, pinIp := some ⟨.intra, p.ip⟩
        intKey := some (snatReplyKey pkt p.ip), intraKey := some (newKey pkt back.vlan.vid) }
  else .giveUp

/-- The branches of `create_conn`. -/
def branchProc (g : Globals) (i : ConnId) (c : Conn) (t : Target) (pkt : Pkt) (r : TargetSearch) :
    Piece μ Conn :=
  match r.origin with
  | .ext => extProc i c t pkt
  | .lih => lihProc g i c t pkt
  | .hih => hihProc g i c t pkt r
  | .intra => intraProc i c t pkt r
  | .int => .giveUp

/-- `create_conn` with its reads, writes and exits in the order of the source. -/
def createProc (g : Globals) (pkt : Pkt) (now : ℤ) : Piece μ (ConnId × Role) := do
  if pkt.packet.protocol = IPPROTO_TCP ∧ pkt.packet.tcp.syn = false then .giveUp
  else
    match ← Procedure.read fun s => identify s pkt with
    | none => .giveUp
    | some r =>
      let t ← Procedure.read fun s => s.targets[r.target]?.orFail .target
      .write fun s => { s with cId := s.cId + 1 }
      let i ← Procedure.read fun s => .ok s.cId
      let c ← branchProc g i (Conn.fresh pkt r.target r.origin now .invalid) t pkt r
      .write fun s => s.withConn i c
      return (i, r.origin)

variable {g : Globals} {s s' : State μ} {i : ConnId} {c : Conn} {t : Target} {pkt : Pkt}
  {tree : PinTree} {k : PinKey} {r : TargetSearch} {now : ℤ}

/-! ### Agreement with `createConn` -/

/-- A branch run to its end: the connection structure becomes live. -/
def Piece.settle (p : Piece μ Conn) (i : ConnId) (s : State μ) :
    Except Fault (Option (State μ)) := do
  match ← p s with
  | (s', some c) => return some (s'.withConn i c)
  | (_, none) => return none

theorem settle_read_bind {α : Type} (x : State μ → Except Fault α) (f : α → Piece μ Conn) :
    Piece.settle (Procedure.read x >>= f) i s = x s >>= fun a => (f a).settle i s := by
  simp only [Piece.settle, Procedure.read_bind_apply]
  cases x s with
  | error e => rfl
  | ok a => rfl

theorem settle_write_bind (x : State μ → State μ) (f : Unit → Piece μ Conn) :
    Piece.settle (Procedure.write x >>= f) i s = (f ()).settle i (x s) :=
  rfl

theorem settle_pure : Piece.settle (pure c) i s = .ok (some (s.withConn i c)) :=
  rfl

theorem extProc_settle : (extProc i c t pkt).settle i s = createExt s i c t pkt := by
  rw [extProc, createExt, follow, settle_read_bind]
  congr 1
  funext front
  rw [settle_write_bind, searchPin, settle_read_bind]
  congr 1
  funext o
  cases o with
  | none => rfl
  | some p => rfl

theorem toExtProc_settle {vlanId : BitVec 12} :
    (toExtProc g i c t pkt tree k vlanId).settle i s = createToExt g s i c t pkt tree k vlanId := by
  rw [toExtProc, createToExt, acquireSnat, searchPin, settle_read_bind, bind_assoc]
  congr 1
  funext o
  cases o with
  | none =>
    simp only [follow, settle_read_bind, settle_write_bind, settle_pure, bind_assoc]
    rfl
  | some p => rfl

theorem lihProc_settle : (lihProc g i c t pkt).settle i s = createLih g s i c t pkt := by
  rw [lihProc, createLih, follow, settle_read_bind]
  congr 1
  funext front
  split_ifs
  · rfl
  · rfl
  · exact toExtProc_settle

theorem toIntraProc_settle {h back : Handler} :
    (toIntraProc i c h back pkt).settle i s = createToIntra s i c h back pkt := by
  rw [toIntraProc, createToIntra, pinIntraProc, acquireIntra]
  by_cases hx : h.exclusive = true
  · simp only [hx, if_true, searchPin, bind_assoc, settle_read_bind]
    congr 1
    funext o
    cases o with
    | none => rfl
    | some p =>
      by_cases hp : p.ip ≠ c.firstPktDstIp
      · simp only [if_pos hp]
        rfl
      · simp only [if_neg hp]
        rfl
  · simp only [hx]
    rfl

theorem hihProc_settle : (hihProc g i c t pkt r).settle i s = createHih g s i c t pkt r := by
  rw [hihProc, createHih, follow, settle_read_bind]
  congr 1
  funext back
  rw [follow, settle_read_bind]
  congr 1
  funext front
  cases t.intraHandlers[pkt.packet.daddr]? with
  | some h => exact toIntraProc_settle
  | none =>
    simp only
    split_ifs
    · rfl
    · rfl
    · rfl
    · exact toExtProc_settle
    · exact toExtProc_settle

theorem intraProc_settle : (intraProc i c t pkt r).settle i s = createIntra s i c t pkt r := by
  rw [intraProc, createIntra, follow, settle_read_bind]
  congr 1
  funext front
  split_ifs
  · rfl
  · rfl
  · rw [follow, settle_read_bind]
    congr 1
    funext back
    rw [follow, settle_read_bind]
    congr 1
    funext intra
    simp only [searchPin, settle_read_bind]
    congr 1
    funext o
    cases o with
    | none => rfl
    | some p => rfl
  · rfl

theorem branchProc_settle : (branchProc g i c t pkt r).settle i s = createAs g s i c t pkt r := by
  rw [branchProc, createAs]
  cases r.origin with
  | ext => exact extProc_settle
  | lih => exact lihProc_settle
  | hih => exact hihProc_settle
  | intra => exact intraProc_settle
  | int => rfl

/-! ### Exits come before writes -/

/-- The state has not changed. -/
def Untouched (s s' : State μ) : Prop :=
  s' = s

/-- Nothing but the counter has changed. -/
def Advanced (s s' : State μ) : Prop :=
  s' = { s with cId := s'.cId } ∧ s.cId ≤ s'.cId

theorem Untouched.trans (s₁ s₂ s₃ : State μ) (h : Untouched s₁ s₂) (h' : Untouched s₂ s₃) :
    Untouched s₁ s₃ :=
  Eq.trans h' h

theorem Advanced.refl (s : State μ) : Advanced s s :=
  ⟨rfl, Nat.le_refl _⟩

theorem Advanced.trans (s₁ s₂ s₃ : State μ) (h : Advanced s₁ s₂) (h' : Advanced s₂ s₃) :
    Advanced s₁ s₃ := by
  refine ⟨?_, Nat.le_trans h.2 h'.2⟩
  rw [h'.1, h.1]

/-- Following a pointer is a read. -/
theorem spares_follow {α β : Type} {o : Option α} {e : Fault} {f : α → Piece μ β}
    (hf : ∀ a, (f a).Spares Untouched) : (follow o e >>= f).Spares Untouched :=
  .bind_within (Procedure.within_read _ fun _ => rfl) hf Untouched.trans

theorem spares_searchPin {β : Type} {f : Option Pin → Piece μ β}
    (hf : ∀ o, (f o).Spares Untouched) : (searchPin tree k >>= f).Spares Untouched :=
  .bind_within (Procedure.within_read _ fun _ => rfl) hf Untouched.trans

theorem returns_follow {α : Type} (o : Option α) (e : Fault) : (follow o e : Piece μ α).Returns :=
  Procedure.returns_read _

theorem returns_writePin {p : Pin} : (writePin tree k p : Piece μ Unit).Returns :=
  Procedure.returns_write _

/-- From EXT there is no exit. -/
theorem extProc_returns : (extProc i c t pkt : Piece μ Conn).Returns := by
  refine (returns_follow _ _).bind fun front => (Procedure.returns_write _).bind fun _ =>
    (Procedure.returns_read _).bind fun o => ?_
  cases o with
  | none => exact returns_writePin.bind fun _ => Procedure.returns_pure _
  | some p => exact returns_writePin.bind fun _ => Procedure.returns_pure _

/-- Once the connection is known to go to EXT there is no exit. -/
theorem toExtProc_returns {vlanId : BitVec 12} :
    (toExtProc g i c t pkt tree k vlanId : Piece μ Conn).Returns := by
  refine (Procedure.returns_read _).bind fun o => ?_
  cases o with
  | none =>
    exact (returns_follow _ _).bind fun out => (returns_follow _ _).bind fun ip =>
      (Procedure.returns_write _).bind fun _ => Procedure.returns_pure _
  | some p =>
    exact returns_writePin.bind fun _ => (Procedure.returns_write _).bind fun _ =>
      Procedure.returns_pure _

theorem lihProc_spares : (lihProc g i c t pkt : Piece μ Conn).Spares Untouched := by
  refine spares_follow fun front => ?_
  split_ifs
  · exact Procedure.spares_giveUp fun _ => rfl
  · exact Procedure.spares_giveUp fun _ => rfl
  · exact toExtProc_returns.spares

/-- The exit for a handler that is pinned to another address comes before the pin is taken. -/
theorem pinIntraProc_spares {h : Handler} :
    (pinIntraProc c h pkt : Piece μ Conn).Spares Untouched := by
  unfold pinIntraProc
  split_ifs with hx
  · refine spares_searchPin fun o => ?_
    cases o with
    | none => exact (returns_writePin.bind fun _ => Procedure.returns_pure _).spares
    | some p =>
      by_cases hp : p.ip ≠ c.firstPktDstIp
      · simp only [if_pos hp]
        exact Procedure.spares_giveUp fun _ => rfl
      · simp only [if_neg hp]
        exact (returns_writePin.bind fun _ => Procedure.returns_pure _).spares
  · exact (Procedure.returns_pure _).spares

theorem toIntraProc_spares {h back : Handler} :
    (toIntraProc i c h back pkt : Piece μ Conn).Spares Untouched :=
  pinIntraProc_spares.bind_returns fun _ =>
    (Procedure.returns_write _).bind fun _ => Procedure.returns_pure _

theorem hihProc_spares : (hihProc g i c t pkt r : Piece μ Conn).Spares Untouched := by
  refine spares_follow fun back => spares_follow fun front => ?_
  cases t.intraHandlers[pkt.packet.daddr]? with
  | some h => exact toIntraProc_spares
  | none =>
    simp only
    split_ifs
    · exact (Procedure.returns_pure _).spares
    · exact Procedure.spares_giveUp fun _ => rfl
    · exact Procedure.spares_giveUp fun _ => rfl
    · exact toExtProc_returns.spares
    · exact toExtProc_returns.spares

theorem intraProc_spares : (intraProc i c t pkt r : Piece μ Conn).Spares Untouched := by
  refine spares_follow fun front => ?_
  split_ifs
  · exact Procedure.spares_giveUp fun _ => rfl
  · exact Procedure.spares_giveUp fun _ => rfl
  · refine spares_follow fun back => spares_follow fun intra => spares_searchPin fun o => ?_
    cases o with
    | none => exact Procedure.spares_giveUp fun _ => rfl
    | some p =>
      exact (returns_writePin.bind fun _ => (Procedure.returns_write _).bind fun _ =>
        Procedure.returns_pure _).spares
  · exact Procedure.spares_giveUp fun _ => rfl

theorem branchProc_spares : (branchProc g i c t pkt r : Piece μ Conn).Spares Untouched := by
  unfold branchProc
  split
  · exact extProc_returns.spares
  · exact lihProc_spares
  · exact hihProc_spares
  · exact intraProc_spares
  · exact Procedure.spares_giveUp fun _ => rfl

/-! ### The whole function -/

/-- **The two models agree.** `create_conn` in the order of the source computes what `createConn`
computes. -/
theorem createProc_eq : createProc g pkt now s = createConn g s pkt now := by
  unfold createProc createConn
  split_ifs with hsyn
  · rfl
  rw [Procedure.read_bind_apply]
  congr 1
  funext o
  cases o with
  | none => rfl
  | some r =>
    simp only [Procedure.read_bind_apply, Procedure.write_bind_apply, Except.ok_bind]
    congr 1
    funext t
    rw [← branchProc_settle, Piece.settle, Procedure.bind_apply]
    rcases hb : branchProc g (s.cId + 1) (Conn.fresh pkt r.target r.origin now .invalid) t pkt r
        { s with cId := s.cId + 1 } with e | ⟨s', _ | c⟩
    · rfl
    · cases branchProc_spares _ _ hb
      rfl
    · rfl

/-- **A refused packet leaves no trace.** Whenever `create_conn` returns `NOK`, the trees, the pins
and the handlers of all targets are what they were; at most the counter has advanced. -/
theorem createProc_refused (h : createProc g pkt now s = .ok (s', none)) :
    s' = { s with cId := s'.cId } ∧ s.cId ≤ s'.cId := by
  have hspares : (createProc g pkt now : Piece μ (ConnId × Role)).Spares Advanced := by
    unfold createProc
    split_ifs with hsyn
    · exact Procedure.spares_giveUp Advanced.refl
    refine .bind_within (Procedure.within_read _ Advanced.refl) (fun o => ?_) Advanced.trans
    cases o with
    | none => exact Procedure.spares_giveUp Advanced.refl
    | some r =>
      refine .bind_within (Procedure.within_read _ Advanced.refl) (fun t => ?_) Advanced.trans
      refine .bind_within (Procedure.within_write fun s => ⟨rfl, Nat.le_succ _⟩) (fun _ => ?_)
        Advanced.trans
      refine .bind_within (Procedure.within_read _ Advanced.refl) (fun i => ?_) Advanced.trans
      refine .bind_returns (fun s₁ s₂ hb => ?_) fun c =>
        (Procedure.returns_write _).bind fun _ => Procedure.returns_pure _
      rw [branchProc_spares s₁ s₂ hb]
      exact Advanced.refl s₁
  exact hspares s s' h

/-- A packet of the low-interaction honeypot to an INTRA address is refused after an attack; the pin
and the connection of the attacker stay as they are. -/
theorem createProc_refused_lih : ∃ tr s s',
    Machine.Reaches (step (Sample.modules .accept) Sample.globals) Sample.start tr s ∧
      s.commPinTree.size = 1 ∧ s.extTree2.size = 2 ∧
      createProc Sample.globals (Sample.packet .int (Sample.udp 1 10 5 40 7)) 0 s = .ok (s', none) ∧
      s' = { s with cId := s'.cId } ∧ s.cId ≤ s'.cId := by
  obtain ⟨tr, s, hrun, htest⟩ :=
    Machine.exists_reaches (step (Sample.modules .accept) Sample.globals)
    Sample.start Sample.attack
    (fun r => r.1.commPinTree.size == 1 && r.1.extTree2.size == 2 &&
      (createProc Sample.globals (Sample.packet .int (Sample.udp 1 10 5 40 7)) 0 r.1).passes
        fun q => q.2.isNone)
    (by decide +kernel)
  simp only [Bool.and_eq_true, beq_iff_eq] at htest
  obtain ⟨⟨hpins, htree⟩, hnok⟩ := htest
  obtain ⟨⟨s', o⟩, hcreate, ho⟩ := Except.passes_iff.mp hnok
  cases Option.isNone_iff_eq_none.mp ho
  exact ⟨tr, s, s', hrun, hpins, htree, hcreate, createProc_refused hcreate⟩

end Honeybrid
