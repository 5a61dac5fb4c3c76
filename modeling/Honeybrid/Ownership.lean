import Honeybrid.BackendIds
import Honeybrid.Lib.Accounts

/-!
# Who releases handlers and targets

An inventory of the objects behind the tables: targets and handlers are known by their addresses,
and the calls of `free_handler` and `free_target` are recorded in the order in which they are made.
The tree `targets` and the trees `back_handlers` release their values when these are removed or
replaced, or when the tree is destroyed; the functions of `management.c` release what they have
removed once more, and the RPC server releases what it has just registered.

## Main definitions

* `TargetObj`, `Inventory`: the objects and the tables that hold them.
* `TargetObj.Shows`: an object and a target have the same tables.
* `OwnerOp`, `OwnerOp.apply`: the operations, with the calls they make.
* `ReleasedOnce`: no object is released twice, and none that is still held.
* `OwnerOp.Harmless`: the operation removes nothing, and registers nothing for the RPC server.

## Main results

* `TargetObj.Shows.addBack`, `TargetObj.Shows.removeBack`, `TargetObj.Shows.addIntra`,
  `TargetObj.Shows.removeIntra`: the tables of the inventory are those of `management.c`.
* `releasedOnce_iff`: objects are released once exactly as long as all operations are harmless.
-/

namespace Honeybrid

/-! ### Objects -/

/-- The address of an object. -/
abbrev Ptr := ℕ

/-- The objects that are released. -/
inductive Obj
  | target (p : Ptr)
  | handler (p : Ptr)
  deriving DecidableEq, Repr

/-- The address of an object. -/
def Obj.ptr : Obj → Ptr
  | .target p | .handler p => p

/-- A `struct target`: its address, and the addresses in its tables. The null address is a key that
`rpc_add_intra` enters. -/
structure TargetObj where
  ptr : Ptr
  front : Option Ptr := none
  backHandlerCount : ℕ := 0
  backHandlers : List (HandlerId × Ptr) := []
  intraHandlers : List (Option IpAddr × Ptr) := []
  intraHandlersList : List Ptr := []
  deriving DecidableEq, Repr

namespace TargetObj

variable (o : TargetObj)

/-- The entry of `back_handlers` for a number. -/
def findBack (hihID : HandlerId) : Option Ptr :=
  (o.backHandlers.find? fun e => intcmp hihID e.1 == .eq).map Prod.snd

/-- The entry of `intra_handlers` for an address. -/
def findIntra (ip : IpAddr) : Option Ptr :=
  (o.intraHandlers.find? fun e => e.1.any fun a => addrCmp ip a == .eq).map Prod.snd

/-- The entries of `back_handlers` for a number, and the other ones. -/
def backAt (hihID : HandlerId) : List (HandlerId × Ptr) :=
  o.backHandlers.filter fun e => intcmp hihID e.1 == .eq

/-- The entries of `back_handlers` for the other numbers. -/
def backBut (hihID : HandlerId) : List (HandlerId × Ptr) :=
  o.backHandlers.filter fun e => !(intcmp hihID e.1 == .eq)

/-- `add_back_handler`. -/
def addBack (p : Ptr) : TargetObj :=
  let id := o.backHandlerCount + 1
  { o with backHandlerCount := id, backHandlers := (id, p) :: o.backBut id }

/-- The removal by `remove_back_handler`. -/
def removeBack (hihID : HandlerId) : TargetObj :=
  { o with backHandlers := o.backBut hihID }

/-- The insertions of `add_intra_handler`. -/
def addIntra (ip : Option IpAddr) (p : Ptr) : TargetObj :=
  { o with
    intraHandlers := (ip, p) :: o.intraHandlers
    intraHandlersList := o.intraHandlersList ++ [p] }

/-- What `free_target` releases, in its order. -/
def owned : List Obj :=
  .target o.ptr ::
    (o.front.toList ++ o.backHandlers.map Prod.snd ++ o.intraHandlersList).map .handler

/-- The target and the handlers that it points to. -/
def held : List Obj :=
  o.owned ++ o.intraHandlers.map fun e => .handler e.2

end TargetObj

/-- How a function is handed a target: the one that is being built, which is in no table yet, or one
of the table `targets`. -/
inductive TargetRef
  | building
  | number (targetID : TargetId)
  deriving DecidableEq, Repr

/-- The targets with their numbers in the table `targets`, where those that are being built have
none; the next address and the calls so far. The program halts when it follows a null address, and
after the last destruction. -/
structure Inventory where
  targets : List (Option TargetId × TargetObj) := []
  targetCounter : ℕ := 0
  next : Ptr := 1
  released : List Obj := []
  halted : Bool := false
  deriving DecidableEq, Repr

/-- Change the first element with a property. -/
def alterFirst {α : Type} (p : α → Bool) (f : α → α) : List α → List α
  | [] => []
  | a :: as => if p a then f a :: as else a :: alterFirst p f as

namespace Inventory

variable (L : Inventory)

/-- The target is the one that the reference names. -/
def isAt : TargetRef → Option TargetId × TargetObj → Bool
  | .building, e => e.1.isNone
  | .number targetID, e => e.1.any fun id => intcmp targetID id == .eq

/-- The target that a function is handed; `g_tree_lookup(targets, ...)` for a number. -/
def find (r : TargetRef) : Option (Option TargetId × TargetObj) :=
  L.targets.find? (isAt r)

/-- The inventory after a function that has changed one target, taken addresses up to `next` and
made some calls. -/
def alter (r : TargetRef) (f : TargetObj → TargetObj) (next : Ptr) (calls : List Obj) : Inventory :=
  { L with
    targets := alterFirst (isAt r) (fun e => (e.1, f e.2)) L.targets
    next
    released := L.released ++ calls }

/-- The inventory after some calls that change no table. -/
def call (next : Ptr) (calls : List Obj) : Inventory :=
  { L with next, released := L.released ++ calls }

/-- The objects that the targets own. -/
def owned : List Obj :=
  L.targets.flatMap fun e => e.2.owned

/-- The objects that the tables of the targets lead to. -/
def held : List Obj :=
  L.targets.flatMap fun e => e.2.held

end Inventory

/-! ### Operations -/

/-- The operations. A target is built with or without a front handler, and then added. A handler may
be incomplete, and the RPC server may have refused the parameters. -/
inductive OwnerOp
  | newTarget (front : Bool)
  | addTarget
  | addBackHandler (r : TargetRef)
  | addIntraHandler (r : TargetRef) (complete : Bool) (ip : IpAddr)
  | rpcAddBackend (accepted : Bool) (targetID : TargetId)
  | rpcAddIntra (accepted : Bool) (targetID : TargetId)
  | removeTarget (targetID : TargetId)
  | removeBackHandler (r : TargetRef) (backendID : HandlerId)
  | removeIntraHandler (r : TargetRef) (intraID : HandlerId)
  | destroyTargets
  deriving DecidableEq, Repr

namespace OwnerOp

/-- The operations while the program runs. -/
def run (L : Inventory) : OwnerOp → Inventory
  | .newTarget front =>
    let o : TargetObj := { ptr := L.next, front := if front then some (L.next + 1) else none }
    { L with next := L.next + 2, targets := (none, o) :: L.targets }
  | .addTarget =>
    let id := L.targetCounter + 1
    match L.find .building with
    | none => L
    | some _ =>
      if (L.find (.number id)).isSome then { L with targetCounter := id }
      else
        { L with
          targetCounter := id
          targets := alterFirst (Inventory.isAt .building) (fun e => (some id, e.2)) L.targets }
  | .addBackHandler r =>
    match L.find r with
    | none => L.call (L.next + 1) []
    | some (_, o) =>
      -- an entry whose place is taken is released
      L.alter r (·.addBack L.next) (L.next + 1)
        ((o.backAt (o.backHandlerCount + 1)).map fun e => .handler e.2)
  | .addIntraHandler r complete ip =>
    match L.find r with
    | none => L.call (L.next + 1) []
    | some (_, o) =>
      if !complete then L.call (L.next + 1) []
      else if o.intraHandlers.any fun e => e.1.isNone then { L with halted := true }
      else if (o.findIntra ip).isSome then L.call (L.next + 1) []
      else L.alter r (·.addIntra (some ip) L.next) (L.next + 1) []
  | .rpcAddBackend accepted targetID =>
    match L.find (.number targetID) with
    | none => L.call (L.next + 1) [.handler L.next]
    | some (_, o) =>
      if accepted then
        L.alter (.number targetID) (·.addBack L.next) (L.next + 1)
          ((o.backAt (o.backHandlerCount + 1)).map (fun e => .handler e.2) ++ [.handler L.next])
      else L.call (L.next + 1) [.handler L.next]
  | .rpcAddIntra accepted targetID =>
    match L.find (.number targetID) with
    | none => L.call (L.next + 1) [.handler L.next]
    | some (_, o) =>
      if accepted then
        -- the null address is compared with the keys that are there
        if o.intraHandlers = [] then
          L.alter (.number targetID) (·.addIntra none L.next) (L.next + 1) [.handler L.next]
        else { L with halted := true }
      else L.call (L.next + 1) [.handler L.next]
  | .removeTarget targetID =>
    match L.find (.number targetID) with
    | none => L
    | some (_, o) =>
      -- the tree releases the target, and the function releases it once more
      { L with
        targets := L.targets.eraseP (Inventory.isAt (.number targetID))
        released := L.released ++ (o.owned ++ o.owned) }
  | .removeBackHandler r backendID =>
    match L.find r with
    | none => L
    | some (_, o) =>
      match o.findBack backendID with
      | none => L
      | some p =>
        L.alter r (·.removeBack backendID) L.next
          ((o.backAt backendID).map (fun e => .handler e.2) ++ [.handler p])
  | .removeIntraHandler r intraID =>
    match L.find r with
    | none => L
    | some (_, o) =>
      -- the handlers have the number zero, and none of them is taken out of a table
      match o.intraHandlersList with
      | [] => L
      | p :: _ =>
        if intraID = 0 then
          if o.intraHandlers.any fun e => e.1.isNone then { L with halted := true }
          else L.call L.next [.handler p]
        else L
  | .destroyTargets =>
    { L with
      targets := L.targets.filter fun e => !e.1.isSome
      released := L.released ++ (L.targets.filter fun e => e.1.isSome).flatMap fun e => e.2.owned
      halted := true }

/-- The inventory after an operation. -/
def apply (L : Inventory) (op : OwnerOp) : Inventory :=
  if L.halted then L else op.run L

/-- The operation finds nothing to remove, and registers nothing for the RPC server. -/
def Harmless (L : Inventory) : OwnerOp → Prop
  | .rpcAddBackend accepted targetID => accepted = false ∨ L.find (.number targetID) = none
  | .rpcAddIntra accepted targetID =>
    accepted = false ∨ ∀ e, L.find (.number targetID) = some e → e.2.intraHandlers ≠ []
  | .removeTarget targetID => L.find (.number targetID) = none
  | .removeBackHandler r backendID => ∀ e, L.find r = some e → e.2.findBack backendID = none
  | .removeIntraHandler r intraID =>
    intraID = 0 → ∀ e, L.find r = some e → e.2.intraHandlersList = [] ∨
      (e.2.intraHandlers.any fun x => x.1.isNone) = true
  | _ => True

end OwnerOp

/-- Each object has been released at most once, and none is still held. -/
structure ReleasedOnce (L : Inventory) : Prop where
  once : L.released.Nodup
  unheld : ∀ x ∈ L.released, x ∉ L.held

/-! ### Transfers -/

variable {L : Inventory} {o : TargetObj} {e : Option TargetId × TargetObj} {r : TargetRef}
  {f : TargetObj → TargetObj} {gone fresh kept calls : List Obj} {n : Ptr}

/-- What the inventory owns and has released. -/
def Inventory.account (L : Inventory) : Account Obj where
  owned := L.owned
  released := L.released
  next := L.next

/-- The target lists the handlers that it finds by address. -/
def TargetObj.Listed (o : TargetObj) : Prop :=
  ∀ x ∈ o.intraHandlers, x.2 ∈ o.intraHandlersList

/-- The account is valid, and the targets list the handlers that they find by address. -/
structure Inventory.Valid (L : Inventory) : Prop where
  account : L.account.Valid Obj.ptr
  listed : ∀ e ∈ L.targets, e.2.Listed

/-- Then everything that is held is owned. -/
theorem Inventory.Valid.held_iff (h : L.Valid) {x : Obj} : x ∈ L.held ↔ x ∈ L.owned := by
  simp only [Inventory.held, Inventory.owned, List.mem_flatMap, TargetObj.held, List.mem_append]
  refine exists_congr fun e => and_congr_right fun he => or_iff_left_of_imp fun hx => ?_
  obtain ⟨y, hy, rfl⟩ := List.mem_map.mp hx
  have hlist := h.listed e he y hy
  simp only [TargetObj.owned, List.mem_cons, List.mem_map, List.mem_append]
  exact .inr ⟨y.2, .inr hlist, rfl⟩

theorem Inventory.Valid.once_iff (h : L.Valid) : ReleasedOnce L ↔ L.account.Once := by
  constructor
  · exact fun hr => ⟨hr.once, fun x hx hown => hr.unheld x hx (h.held_iff.mpr hown)⟩
  · exact fun hr => ⟨hr.nodup, fun x hx hheld => hr.unowned x hx (h.held_iff.mp hheld)⟩

/-- The first element with a property, and what is around it. -/
theorem alterFirst_split {α : Type} {p : α → Bool} {g : α → α} {l : List α} {a : α}
    (h : l.find? p = some a) :
    ∃ l₁ l₂, l = l₁ ++ a :: l₂ ∧ alterFirst p g l = l₁ ++ g a :: l₂ ∧ l.eraseP p = l₁ ++ l₂ := by
  induction l with
  | nil => cases h
  | cons b l ih =>
    by_cases hb : p b = true
    · rw [List.find?_cons_of_pos hb] at h
      cases h
      exact ⟨[], l, rfl, by rw [alterFirst, if_pos hb]; rfl, List.eraseP_cons_of_pos hb⟩
    · rw [List.find?_cons_of_neg hb] at h
      obtain ⟨l₁, l₂, hl, halter, herase⟩ := ih h
      refine ⟨b :: l₁, l₂, by rw [hl]; rfl, ?_, ?_⟩
      · rw [alterFirst, if_neg hb, halter]
        rfl
      · rw [List.eraseP_cons_of_neg hb, herase]
        rfl

/-- The objects of one target, and those of the other ones. -/
theorem owned_split (l₁ l₂ : List (Option TargetId × TargetObj)) (e : Option TargetId × TargetObj) :
    ((l₁ ++ e :: l₂).flatMap fun e => e.2.owned).Perm
      (e.2.owned ++ (l₁ ++ l₂).flatMap fun e => e.2.owned) := by
  rw [List.flatMap_append, List.flatMap_cons, List.flatMap_append]
  exact List.perm_append_comm_assoc _ _ _

/-- A function that changes one target. -/
theorem transfer_alter (hfind : L.find r = some e) (gone fresh kept : List Obj)
    (hgone : e.2.owned.Perm (gone ++ kept)) (hfresh : (f e.2).owned.Perm (fresh ++ kept))
    (hnext : L.next ≤ n) (hnodup : fresh.Nodup) (hge : ∀ x ∈ fresh, L.next ≤ x.ptr)
    (hlt : ∀ x ∈ fresh, x.ptr < n) (hcalls : ∀ x ∈ calls, x.ptr < n) (hsub : gone ⊆ calls) :
    Account.Transfer Obj.ptr L.account (L.alter r f n calls).account gone fresh calls := by
  obtain ⟨l₁, l₂, hl, halter, -⟩ := alterFirst_split (g := fun e => (e.1, f e.2)) hfind
  refine ⟨⟨kept ++ (l₁ ++ l₂).flatMap fun e => e.2.owned, ?_, ?_⟩, rfl, hnext, hnodup, hge, hlt,
    hcalls, hsub⟩
  · rw [← List.append_assoc]
    refine List.Perm.trans ?_ (hgone.append_right _)
    rw [Inventory.account, Inventory.owned, hl]
    exact owned_split l₁ l₂ e
  · rw [← List.append_assoc]
    refine List.Perm.trans ?_ (hfresh.append_right _)
    simp only [Inventory.account, Inventory.owned, Inventory.alter, halter]
    exact owned_split l₁ l₂ (e.1, f e.2)

/-- Calls for objects that are in no table. -/
theorem transfer_call (hnext : L.next ≤ n) (hcalls : ∀ x ∈ calls, x.ptr < n) :
    Account.Transfer Obj.ptr L.account (L.call n calls).account [] [] calls :=
  ⟨⟨L.owned, List.Perm.refl _, List.Perm.refl _⟩, rfl, hnext, List.nodup_nil, by simp, by simp,
    hcalls, List.nil_subset _⟩

/-- One entry is changed into another one that lists its handlers. -/
theorem listed_alterFirst (hL : L.Valid) (hfind : L.find r = some e)
    {g : Option TargetId × TargetObj → Option TargetId × TargetObj}
    (hg : e.2.Listed → (g e).2.Listed) :
    ∀ e' ∈ alterFirst (Inventory.isAt r) g L.targets, e'.2.Listed := by
  obtain ⟨l₁, l₂, hl, halter, -⟩ := alterFirst_split (g := g) hfind
  have hold := hL.listed
  intro e' he'
  simp only [halter, List.mem_append, List.mem_cons] at he'
  simp only [hl, List.mem_append, List.mem_cons] at hold
  obtain he' | rfl | he' := he'
  · exact hold e' (.inl he')
  · exact hg (hold e (.inr (.inl rfl)))
  · exact hold e' (.inr (.inr he'))

/-! ### One target -/

theorem backHandlers_perm (o : TargetObj) (id : HandlerId) :
    o.backHandlers.Perm (o.backAt id ++ o.backBut id) :=
  (List.filter_append_perm _ _).symm

/-- The objects of a target, apart from the backends with a number. -/
def TargetObj.ownedBut (o : TargetObj) (id : HandlerId) : List Obj :=
  .target o.ptr ::
    (o.front.toList ++ (o.backBut id).map Prod.snd ++ o.intraHandlersList).map .handler

theorem owned_backAt (o : TargetObj) (id : HandlerId) :
    o.owned.Perm ((o.backAt id).map (fun e => Obj.handler e.2) ++ o.ownedBut id) := by
  have hback := ((backHandlers_perm o id).map Prod.snd).map Obj.handler
  refine List.perm_iff_count.mpr fun x => ?_
  have hcount := List.perm_iff_count.mp hback x
  simp only [List.map_append, List.count_append, List.map_map, Function.comp_def] at hcount
  simp only [TargetObj.owned, TargetObj.ownedBut, List.map_append, List.count_append,
    List.count_cons, List.map_map, Function.comp_def]
  omega

theorem owned_addBack (o : TargetObj) (p : Ptr) :
    (o.addBack p).owned.Perm ([.handler p] ++ o.ownedBut (o.backHandlerCount + 1)) := by
  refine List.perm_iff_count.mpr fun x => ?_
  simp only [TargetObj.owned, TargetObj.addBack, TargetObj.ownedBut, List.map_append, List.map_cons,
    List.count_append, List.count_cons, List.count_nil]
  omega

theorem owned_removeBack (o : TargetObj) (id : HandlerId) :
    (o.removeBack id).owned = o.ownedBut id :=
  rfl

theorem owned_addIntra (o : TargetObj) (ip : Option IpAddr) (p : Ptr) :
    (o.addIntra ip p).owned.Perm ([.handler p] ++ o.owned) := by
  refine List.perm_iff_count.mpr fun x => ?_
  simp only [TargetObj.owned, TargetObj.addIntra, List.map_append, List.map_cons, List.map_nil,
    List.count_append, List.count_cons, List.count_nil]
  omega

theorem findBack_cases (o : TargetObj) (id : HandlerId) :
    (o.findBack id = none ∧ o.backAt id = []) ∨
      ∃ p, o.findBack id = some p ∧ .handler p ∈ (o.backAt id).map fun e => Obj.handler e.2 := by
  unfold TargetObj.findBack TargetObj.backAt
  cases h : o.backHandlers.find? fun e => intcmp id e.1 == .eq with
  | none => exact .inl ⟨rfl, List.filter_eq_nil_iff.mpr (List.find?_eq_none.mp h)⟩
  | some e =>
    have hid := List.find?_some h
    have hmem := List.mem_of_find?_eq_some h
    exact .inr ⟨e.2, rfl, List.mem_map.mpr ⟨e, List.mem_filter.mpr ⟨hmem, hid⟩, rfl⟩⟩

/-! ### The tables -/

theorem findBack_eq_none {id : HandlerId} :
    o.findBack id = none ↔ ∀ e ∈ o.backHandlers, intcmp id e.1 ≠ .eq := by
  simp [TargetObj.findBack]

theorem findIntra_eq_none {ip : IpAddr} :
    o.findIntra ip = none ↔ ∀ e ∈ o.intraHandlers, ∀ a, e.1 = some a → addrCmp ip a ≠ .eq := by
  simp only [TargetObj.findIntra, Option.map_eq_none_iff, List.find?_eq_none]
  refine forall_congr' fun e => imp_congr_right fun _ => ?_
  cases e.1 with
  | none => simp
  | some a => simp

/-- The object has the tables of the target: the same counter, the same numbers and addresses that
are taken, and as many INTRA handlers, all of which have the number zero. -/
structure TargetObj.Shows (o : TargetObj) (t : Target) : Prop where
  count : o.backHandlerCount = t.backHandlerCount
  back : ∀ id : HandlerId, o.findBack id = none ↔ t.backHandlers[id]? = none
  intra : ∀ ip, o.findIntra ip = none ↔ t.intraHandlers[ip]? = none
  listed : o.intraHandlersList.length = t.intraHandlersList.length
  unnumbered : ∀ h ∈ t.intraHandlersList, h.id = 0

namespace TargetObj.Shows

variable {t : Target} (h : o.Shows t)

include h

theorem addBack (p : Ptr) (back : Handler) : (o.addBack p).Shows (addBackHandler t back) where
  count := by simp [TargetObj.addBack, addBackHandler, h.count]
  back id := by
    simp only [addBackHandler, Std.TreeMap.getElem?_insert, ← h.count]
    rw [findBack_eq_none]
    simp only [TargetObj.addBack, TargetObj.backBut, List.mem_cons, List.mem_filter]
    by_cases hid : intcmp (o.backHandlerCount + 1) id = .eq
    · have hid' := Std.OrientedCmp.eq_symm hid
      simp [hid, hid']
    · rw [if_neg hid, ← h.back id, findBack_eq_none]
      have hid' : intcmp id (o.backHandlerCount + 1) ≠ .eq := fun h =>
        hid (Std.OrientedCmp.eq_symm h)
      constructor
      · intro hall e he heq
        -- an entry that is found is not the one that is replaced
        refine hall e (.inr ⟨he, ?_⟩) heq
        have hne : intcmp (o.backHandlerCount + 1) e.1 ≠ .eq := fun h =>
          hid (Std.TransCmp.eq_trans h (Std.OrientedCmp.eq_symm heq))
        simpa using hne
      · rintro hall e (rfl | ⟨he, -⟩)
        · exact hid'
        · exact hall e he
  intra := h.intra
  listed := h.listed
  unnumbered := h.unnumbered

theorem removeBack (id : HandlerId) : (o.removeBack id).Shows (removeBackHandler t id).1 := by
  by_cases hid : t.backHandlers[id]? = none
  · rw [removeBackHandler_none hid]
    have hall := findBack_eq_none.mp ((h.back id).mpr hid)
    have hsame : o.backBut id = o.backHandlers := by
      refine List.filter_eq_self.mpr fun e he => ?_
      simpa using hall e he
    refine ⟨h.count, fun id' => ?_, h.intra, h.listed, h.unnumbered⟩
    rw [← h.back id', findBack_eq_none, findBack_eq_none, TargetObj.removeBack, hsame]
  · rw [removeBackHandler_some hid]
    refine ⟨h.count, fun id' => ?_, h.intra, h.listed, h.unnumbered⟩
    rw [Std.TreeMap.getElem?_erase, findBack_eq_none]
    simp only [TargetObj.removeBack, TargetObj.backBut, List.mem_filter]
    by_cases hid' : intcmp id id' = .eq
    · rw [if_pos hid']
      refine iff_of_true (fun e he heq => ?_) rfl
      have hgone := Std.TransCmp.eq_trans hid' heq
      simp [hgone] at he
    · rw [if_neg hid', ← h.back id', findBack_eq_none]
      refine ⟨fun hall e he heq => ?_, fun hall e he => hall e he.1⟩
      have hne : intcmp id e.1 ≠ .eq := fun h =>
        hid' (Std.TransCmp.eq_trans h (Std.OrientedCmp.eq_symm heq))
      exact hall e ⟨he, by simpa using hne⟩ heq

theorem addIntra (p : Ptr) {ip : IpAddr} {intra : Handler} (hiface : intra.iface.isSome)
    (hid : intra.id = 0) (hfree : o.findIntra ip = none) :
    (o.addIntra (some ip) p).Shows (addIntraHandler t ip intra).1 := by
  have hnone := (h.intra ip).mp hfree
  have hif : ¬(intra.iface.isNone = true ∨ t.intraHandlers[ip]?.isSome = true) := by
    simpa [hnone] using Option.isSome_iff_ne_none.mp hiface
  rw [addIntraHandler, if_neg hif]
  refine ⟨h.count, h.back, fun a => ?_, by simp [TargetObj.addIntra, h.listed], fun x hx => ?_⟩
  · rw [Std.TreeMap.getElem?_insert, findIntra_eq_none]
    simp only [TargetObj.addIntra, List.mem_cons]
    by_cases ha : addrCmp ip a = .eq
    · have ha' := Std.OrientedCmp.eq_symm ha
      rw [if_pos ha]
      refine iff_of_false (fun hall => hall _ (.inl rfl) ip rfl ha') (by simp)
    · rw [if_neg ha, ← h.intra a, findIntra_eq_none]
      refine ⟨fun hall e he => hall e (.inr he), ?_⟩
      rintro hall e (rfl | he) b hb
      · cases hb
        exact fun h => ha (Std.OrientedCmp.eq_symm h)
      · exact hall e he b hb
  · obtain hx | hx := List.mem_append.mp hx
    · exact h.unnumbered x hx
    · rw [List.mem_singleton.mp hx]
      exact hid

/-- A removal finds the first INTRA handler, for the number zero, and leaves the tables alone. -/
theorem removeIntra (id : HandlerId) :
    o.Shows (removeIntraHandler t id).1 ∧
      ((t.intraHandlersList.find? fun x => x.id = id) ≠ none ↔
        id = 0 ∧ o.intraHandlersList ≠ []) := by
  have hfind : (t.intraHandlersList.find? fun x => x.id = id) ≠ none ↔
      id = 0 ∧ o.intraHandlersList ≠ [] := by
    rw [← List.length_pos_iff, h.listed, List.length_pos_iff_exists_mem, Ne, List.find?_eq_none]
    push Not
    constructor
    · rintro ⟨x, hx, hid⟩
      have heq := of_decide_eq_true hid
      exact ⟨heq.symm.trans (h.unnumbered x hx), x, hx⟩
    · rintro ⟨rfl, x, hx⟩
      exact ⟨x, hx, by simp [h.unnumbered x hx]⟩
  rw [removeIntraHandler_of_zero h.unnumbered]
  exact ⟨h, hfind⟩

end TargetObj.Shows

/-! ### Operations on the account -/

/-- What an operation does to the account, and whether its calls are harmless: they are for what is
given up, or for a new object that is in no table; or else some object is released twice, or is
still held. -/
structure Books (L L' : Inventory) (harmless : Prop) (gone fresh calls : List Obj) : Prop where
  transfer : Account.Transfer Obj.ptr L.account L'.account gone fresh calls
  listed : ∀ e ∈ L'.targets, e.2.Listed
  good : harmless → calls.Nodup ∧ ∀ x ∈ calls, x ∈ gone ∨ (L.next ≤ x.ptr ∧ x ∉ fresh)
  bad : ¬harmless → ¬calls.Nodup ∨ ∃ x ∈ calls, x ∈ L'.owned

theorem Books.valid {L' : Inventory} {harmless : Prop} (h : Books L L' harmless gone fresh calls)
    (hL : L.Valid) : L'.Valid :=
  ⟨h.transfer.valid hL.account, h.listed⟩

/-- The objects that are given up are released once if the calls are for them. -/
theorem nodup_gone {A B : Account Obj} (hA : A.Valid Obj.ptr)
    (h : Account.Transfer Obj.ptr A B gone fresh calls) : gone.Nodup := by
  obtain ⟨kept, hperm, -⟩ := h.owned
  exact (List.nodup_append'.mp (hperm.nodup_iff.mp hA.nodup)).1

theorem Books.once_iff {L' : Inventory} {harmless : Prop}
    (h : Books L L' harmless gone fresh calls) (hL : L.Valid) :
    ReleasedOnce L' ↔ ReleasedOnce L ∧ harmless := by
  rw [hL.once_iff, (h.valid hL).once_iff]
  constructor
  · intro hone
    refine ⟨h.transfer.once_before hone, ?_⟩
    by_contra hharm
    obtain hdup | ⟨x, hx, hown⟩ := h.bad hharm
    · exact h.transfer.not_once_of_dup hdup hone
    · exact h.transfer.not_once_of_owned hx hown hone
  · rintro ⟨hone, hharm⟩
    obtain ⟨hnodup, hfrom⟩ := h.good hharm
    exact h.transfer.once hL.account hone hnodup hfrom

/-- Nothing changes but the counters. -/
theorem books_idle {L' : Inventory} (hL : L.Valid) (htargets : L'.targets = L.targets)
    (hreleased : L'.released = L.released) (hnext : L.next ≤ L'.next) :
    Books L L' True [] [] [] := by
  refine ⟨⟨⟨L.owned, .refl _, ?_⟩, ?_, hnext, List.nodup_nil, by simp, by simp, by simp,
    List.nil_subset _⟩, ?_, by simp, fun h => absurd trivial h⟩
  · rw [Inventory.account, Inventory.owned, htargets]
    exact .refl _
  · rw [Inventory.account, hreleased]
    exact (List.append_nil _).symm
  · rw [htargets]
    exact hL.listed

theorem Books.congr {L' : Inventory} {p q : Prop} (h : Books L L' p gone fresh calls)
    (hpq : p ↔ q) : Books L L' q gone fresh calls :=
  ⟨h.transfer, h.listed, fun hq => h.good (hpq.mpr hq), fun hq => h.bad fun hp => hq (hpq.mp hp)⟩

/-- The object that takes the next address. -/
theorem next_handler {x : Obj} (hx : x = .handler L.next) :
    L.next ≤ x.ptr ∧ x.ptr < L.next + 1 := by
  rw [hx]
  exact ⟨Nat.le_refl _, Nat.lt_succ_self _⟩

/-- The release of a new handler that was not registered. -/
theorem books_refused (hL : L.Valid) :
    Books L (L.call (L.next + 1) [.handler L.next]) True [] [] [.handler L.next] := by
  refine ⟨transfer_call (Nat.le_succ _) fun x hx => ?_, hL.listed,
    fun _ => ⟨List.nodup_singleton _, fun x hx => .inr ⟨?_, List.not_mem_nil⟩⟩,
    fun h => absurd trivial h⟩
  · exact (next_handler (List.mem_singleton.mp hx)).2
  · exact (next_handler (List.mem_singleton.mp hx)).1

/-- The rank of the objects of a target. -/
theorem lt_next (hL : L.Valid) (hfind : L.find r = some e) {x : Obj} (hx : x ∈ e.2.owned) :
    x.ptr < L.next := by
  refine hL.account.owned_lt x (List.mem_flatMap.mpr ⟨e, ?_, hx⟩)
  exact List.mem_of_find?_eq_some hfind

theorem mem_alter_owned (hfind : L.find r = some e) {x : Obj} (hx : x ∈ (f e.2).owned) :
    x ∈ (L.alter r f n calls).owned := by
  obtain ⟨l₁, l₂, -, halter, -⟩ := alterFirst_split (g := fun e => (e.1, f e.2)) hfind
  simp only [Inventory.owned, Inventory.alter, halter, List.mem_flatMap, List.mem_append,
    List.mem_cons]
  exact ⟨(e.1, f e.2), .inr (.inl rfl), hx⟩

/-- A handler is registered as a backend, and what stood in its place is released; `extra` are the
calls after that. -/
theorem transfer_addBack (hL : L.Valid) (hfind : L.find r = some e) (extra : List Obj)
    (hextra : ∀ x ∈ extra, x = .handler L.next) :
    Account.Transfer Obj.ptr L.account
      (L.alter r (·.addBack L.next) (L.next + 1)
        ((e.2.backAt (e.2.backHandlerCount + 1)).map (fun e => .handler e.2) ++ extra)).account
      ((e.2.backAt (e.2.backHandlerCount + 1)).map fun e => .handler e.2) [.handler L.next]
      ((e.2.backAt (e.2.backHandlerCount + 1)).map (fun e => .handler e.2) ++ extra) := by
  have hold := owned_backAt e.2 (e.2.backHandlerCount + 1)
  refine transfer_alter hfind _ _ _ hold (owned_addBack e.2 L.next) (Nat.le_succ _)
    (List.nodup_singleton _) (fun x hx => (next_handler (List.mem_singleton.mp hx)).1)
    (fun x hx => (next_handler (List.mem_singleton.mp hx)).2) (fun x hx => ?_)
    (List.subset_append_left _ _)
  obtain hx | hx := List.mem_append.mp hx
  · have hown := hold.mem_iff.mpr (List.mem_append_left _ hx)
    exact Nat.lt_succ_of_lt (lt_next hL hfind hown)
  · exact (next_handler (hextra x hx)).2

theorem transfer_addIntra (hfind : L.find r = some e) {ip : Option IpAddr}
    (extra : List Obj) (hextra : ∀ x ∈ extra, x = .handler L.next) :
    Account.Transfer Obj.ptr L.account
      (L.alter r (·.addIntra ip L.next) (L.next + 1) extra).account [] [.handler L.next]
      extra := by
  exact transfer_alter hfind [] _ e.2.owned (.refl _) (owned_addIntra e.2 ip L.next)
    (Nat.le_succ _) (List.nodup_singleton _)
    (fun x hx => (next_handler (List.mem_singleton.mp hx)).1)
    (fun x hx => (next_handler (List.mem_singleton.mp hx)).2)
    (fun x hx => (next_handler (hextra x hx)).2) (List.nil_subset _)

theorem TargetObj.Listed.addIntra (ip : Option IpAddr) (p : Ptr) (h : o.Listed) :
    (o.addIntra ip p).Listed := by
  intro x hx
  obtain rfl | hx := List.mem_cons.mp hx
  · exact List.mem_append_right _ (List.mem_singleton_self _)
  · exact List.mem_append_left _ (h x hx)

/-! ### Operations one by one -/

/-- The step is some transfer with its calls. -/
def Booked (L L' : Inventory) (harmless : Prop) : Prop :=
  ∃ gone fresh calls, Books L L' harmless gone fresh calls

section Books

variable (hL : L.Valid)

include hL

theorem booked_idle {L' : Inventory} {harmless : Prop} (htargets : L'.targets = L.targets)
    (hreleased : L'.released = L.released) (hnext : L.next ≤ L'.next) (hharm : harmless) :
    Booked L L' harmless :=
  ⟨_, _, _, (books_idle hL htargets hreleased hnext).congr (iff_of_true trivial hharm)⟩

theorem booked_refused {harmless : Prop} (hharm : harmless) :
    Booked L (L.call (L.next + 1) [.handler L.next]) harmless :=
  ⟨_, _, _, (books_refused hL).congr (iff_of_true trivial hharm)⟩

theorem booked_newTarget (front : Bool) : Booked L ((OwnerOp.newTarget front).run L) True := by
  -- the target and its front handler are new
  refine ⟨[], .target L.next :: if front then [.handler (L.next + 1)] else [], [],
    ⟨⟨L.owned, .refl _, ?_⟩, (List.append_nil _).symm, Nat.le_add_right _ 2, ?_, ?_, ?_, by simp,
      List.nil_subset _⟩, ?_, by simp, fun h => absurd trivial h⟩
  · cases front with
    | true => exact .refl _
    | false => exact .refl _
  · cases front with
    | true => simp
    | false => simp
  · cases front with
    | true => simp [Obj.ptr, Inventory.account]
    | false => simp [Obj.ptr, Inventory.account]
  · cases front with
    | true => simp [Obj.ptr, Inventory.account, OwnerOp.run]
    | false => simp [Obj.ptr, Inventory.account, OwnerOp.run]
  · intro e he
    obtain rfl | he := List.mem_cons.mp he
    · exact nofun
    · exact hL.listed e he

theorem booked_addTarget : Booked L (OwnerOp.addTarget.run L) True := by
  cases hfind : L.find .building with
  | none =>
    simp only [OwnerOp.run, hfind]
    exact booked_idle hL rfl rfl (Nat.le_refl _) trivial
  | some e =>
    simp only [OwnerOp.run, hfind]
    split_ifs
    · exact booked_idle hL rfl rfl (Nat.le_refl _) trivial
    · obtain ⟨l₁, l₂, hl, halter, -⟩ :=
        alterFirst_split (g := fun e => (some (L.targetCounter + 1), e.2)) hfind
      refine ⟨[], [], [], ⟨⟨L.owned, .refl _, ?_⟩, (List.append_nil _).symm, Nat.le_refl _,
        List.nodup_nil, by simp, by simp, by simp, List.nil_subset _⟩, ?_, by simp,
        fun h => absurd trivial h⟩
      · simp only [Inventory.account, Inventory.owned, halter, List.nil_append]
        rw [hl, List.flatMap_append, List.flatMap_append, List.flatMap_cons, List.flatMap_cons]
      · exact listed_alterFirst hL hfind fun h => h

theorem booked_addBackHandler (r : TargetRef) :
    Booked L ((OwnerOp.addBackHandler r).run L) True := by
  cases hfind : L.find r with
  | none =>
    simp only [OwnerOp.run, hfind]
    exact booked_idle hL rfl (List.append_nil _) (Nat.le_succ _) trivial
  | some e =>
    simp only [OwnerOp.run, hfind]
    have htr := transfer_addBack hL hfind [] (by simp)
    rw [List.append_nil] at htr
    refine ⟨_, _, _, htr, listed_alterFirst hL hfind fun h => h, fun _ => ⟨?_, fun x => .inl⟩,
      fun h => absurd trivial h⟩
    exact nodup_gone hL.account htr

theorem booked_rpcAddBackend (accepted : Bool) (targetID : TargetId) :
    Booked L ((OwnerOp.rpcAddBackend accepted targetID).run L)
      ((OwnerOp.rpcAddBackend accepted targetID).Harmless L) := by
  cases hfind : L.find (.number targetID) with
  | none =>
    simp only [OwnerOp.run, OwnerOp.Harmless, hfind]
    exact booked_refused hL (.inr trivial)
  | some e =>
    cases accepted with
    | false =>
      simp only [OwnerOp.run, OwnerOp.Harmless, hfind]
      exact booked_refused hL (.inl trivial)
    | true =>
      simp only [OwnerOp.run, OwnerOp.Harmless, hfind, if_true]
      have htr := transfer_addBack hL hfind [.handler L.next] (by simp)
      refine ⟨_, _, _, htr, listed_alterFirst hL hfind fun h => h, fun h => by simp at h,
        fun _ => .inr ?_⟩
      -- the new handler is released, and is in the table
      refine ⟨.handler L.next, List.mem_append_right _ (List.mem_singleton_self _), ?_⟩
      refine mem_alter_owned hfind ((owned_addBack e.2 L.next).mem_iff.mpr ?_)
      exact List.mem_append_left _ (List.mem_singleton_self _)

theorem booked_addIntraHandler (r : TargetRef) (complete : Bool) (ip : IpAddr) :
    Booked L ((OwnerOp.addIntraHandler r complete ip).run L) True := by
  cases hfind : L.find r with
  | none =>
    simp only [OwnerOp.run, hfind]
    exact booked_idle hL rfl (List.append_nil _) (Nat.le_succ _) trivial
  | some e =>
    simp only [OwnerOp.run, hfind]
    split_ifs
    · exact booked_idle hL rfl (List.append_nil _) (Nat.le_succ _) trivial
    · exact booked_idle hL rfl rfl (Nat.le_refl _) trivial
    · exact booked_idle hL rfl (List.append_nil _) (Nat.le_succ _) trivial
    · refine ⟨_, _, _, transfer_addIntra hfind [] (by simp), ?_, by simp, fun h => absurd trivial h⟩
      exact listed_alterFirst hL hfind (.addIntra _ _)

theorem booked_rpcAddIntra (accepted : Bool) (targetID : TargetId) :
    Booked L ((OwnerOp.rpcAddIntra accepted targetID).run L)
      ((OwnerOp.rpcAddIntra accepted targetID).Harmless L) := by
  cases hfind : L.find (.number targetID) with
  | none =>
    simp only [OwnerOp.run, OwnerOp.Harmless, hfind]
    exact booked_refused hL (.inr fun e he => by cases he)
  | some e =>
    cases accepted with
    | false =>
      simp only [OwnerOp.run, OwnerOp.Harmless, hfind]
      exact booked_refused hL (.inl trivial)
    | true =>
      simp only [OwnerOp.run, OwnerOp.Harmless, hfind, if_true]
      split_ifs with hempty
      · refine ⟨_, _, _, transfer_addIntra hfind [.handler L.next] (by simp),
          listed_alterFirst hL hfind (.addIntra _ _), fun h => ?_, fun _ => .inr ?_⟩
        · simp [hempty] at h
        · refine ⟨.handler L.next, List.mem_singleton_self _, ?_⟩
          refine mem_alter_owned hfind ((owned_addIntra e.2 none L.next).mem_iff.mpr ?_)
          exact List.mem_append_left _ (List.mem_singleton_self _)
      · exact booked_idle hL rfl rfl (Nat.le_refl _) (by simp [hempty])

theorem booked_removeTarget (targetID : TargetId) :
    Booked L ((OwnerOp.removeTarget targetID).run L)
      ((OwnerOp.removeTarget targetID).Harmless L) := by
  cases hfind : L.find (.number targetID) with
  | none =>
    simp only [OwnerOp.run, OwnerOp.Harmless, hfind]
    exact booked_idle hL rfl rfl (Nat.le_refl _) trivial
  | some e =>
    simp only [OwnerOp.run, OwnerOp.Harmless, hfind]
    obtain ⟨l₁, l₂, hl, -, herase⟩ := alterFirst_split (g := id) hfind
    refine ⟨e.2.owned, [], e.2.owned ++ e.2.owned, ⟨⟨(l₁ ++ l₂).flatMap fun e => e.2.owned, ?_, ?_⟩,
      rfl, Nat.le_refl _, List.nodup_nil, by simp, by simp, ?_, List.subset_append_left _ _⟩, ?_,
      fun h => (by simp at h), fun _ => .inl ?_⟩
    · rw [Inventory.account, Inventory.owned, hl]
      exact owned_split l₁ l₂ e
    · simp only [Inventory.account, Inventory.owned, herase, List.nil_append]
      exact .refl _
    · intro x hx
      exact lt_next hL hfind ((List.mem_append.mp hx).elim id id)
    · intro e' he'
      refine hL.listed e' ?_
      exact List.mem_of_mem_eraseP he'
    · intro hdup
      have hmem : Obj.target e.2.ptr ∈ e.2.owned := List.mem_cons_self
      exact (List.nodup_append'.mp hdup).2.2 hmem hmem

theorem booked_removeBackHandler (r : TargetRef) (backendID : HandlerId) :
    Booked L ((OwnerOp.removeBackHandler r backendID).run L)
      ((OwnerOp.removeBackHandler r backendID).Harmless L) := by
  cases hfind : L.find r with
  | none =>
    simp only [OwnerOp.run, OwnerOp.Harmless, hfind]
    exact booked_idle hL rfl rfl (Nat.le_refl _) fun e he => by cases he
  | some e =>
    obtain ⟨hnone, -⟩ | ⟨p, hp, hmem⟩ := findBack_cases e.2 backendID
    · simp only [OwnerOp.run, OwnerOp.Harmless, hfind, hnone]
      refine booked_idle hL rfl rfl (Nat.le_refl _) fun e' he' => ?_
      cases he'
      exact hnone
    · simp only [OwnerOp.run, OwnerOp.Harmless, hfind, hp]
      have hold := owned_backAt e.2 backendID
      refine ⟨_, _, _, transfer_alter hfind _ [] _ hold ?_ (Nat.le_refl _) List.nodup_nil
        (by simp) (by simp) ?_ (List.subset_append_left _ _), listed_alterFirst hL hfind fun h => h,
        fun h => ?_, fun _ => .inl ?_⟩
      · rw [owned_removeBack]
        exact .refl _
      · intro x hx
        have hx' : x ∈ (e.2.backAt backendID).map fun e => Obj.handler e.2 := by
          obtain hx | hx := List.mem_append.mp hx
          · exact hx
          · rw [List.mem_singleton.mp hx]
            exact hmem
        exact lt_next hL hfind (hold.mem_iff.mpr (List.mem_append_left _ hx'))
      · have hnone := h e rfl
        rw [hp] at hnone
        cases hnone
      · intro hdup
        exact (List.nodup_append'.mp hdup).2.2 hmem (List.mem_singleton_self _)

theorem booked_removeIntraHandler (r : TargetRef) (intraID : HandlerId) :
    Booked L ((OwnerOp.removeIntraHandler r intraID).run L)
      ((OwnerOp.removeIntraHandler r intraID).Harmless L) := by
  cases hfind : L.find r with
  | none =>
    simp only [OwnerOp.run, OwnerOp.Harmless, hfind]
    exact booked_idle hL rfl rfl (Nat.le_refl _) fun _ e he => by cases he
  | some e =>
    cases hlist : e.2.intraHandlersList with
    | nil =>
      simp only [OwnerOp.run, OwnerOp.Harmless, hfind, hlist]
      refine booked_idle hL rfl rfl (Nat.le_refl _) fun _ e' he' => ?_
      cases he'
      exact .inl hlist
    | cons p ps =>
      simp only [OwnerOp.run, OwnerOp.Harmless, hfind, hlist]
      split_ifs with hid hnull
      · refine booked_idle hL rfl rfl (Nat.le_refl _) fun _ e' he' => ?_
        cases he'
        exact .inr hnull
      · have hown : Obj.handler p ∈ e.2.owned := by
          simp [TargetObj.owned, hlist]
        refine ⟨_, _, _, transfer_call (Nat.le_refl _) ?_, hL.listed, fun h => ?_, fun _ => .inr ?_⟩
        · intro x hx
          rw [List.mem_singleton.mp hx]
          exact lt_next hL hfind hown
        · obtain hnil | hany := h hid e rfl
          · rw [hlist] at hnil
            cases hnil
          · exact absurd hany hnull
        · refine ⟨_, List.mem_singleton_self _, List.mem_flatMap.mpr ⟨e, ?_, hown⟩⟩
          exact List.mem_of_find?_eq_some hfind
      · exact booked_idle hL rfl rfl (Nat.le_refl _) fun h => absurd h hid

theorem booked_destroyTargets : Booked L (OwnerOp.destroyTargets.run L) True := by
  have hsplit : L.owned.Perm
      (((L.targets.filter fun e => e.1.isSome).flatMap fun e => e.2.owned) ++
        (L.targets.filter fun e => !e.1.isSome).flatMap fun e => e.2.owned) := by
    rw [← List.flatMap_append]
    exact ((List.filter_append_perm (fun e => e.1.isSome) L.targets).flatMap_right _).symm
  refine ⟨_, [], _, ⟨⟨_, hsplit, .refl _⟩, rfl, Nat.le_refl _, List.nodup_nil, by simp, by simp,
      fun x hx => ?_, List.Subset.refl _⟩, fun e he => ?_, fun _ => ⟨?_, fun x => .inl⟩,
    fun h => absurd trivial h⟩
  · exact hL.account.owned_lt x (hsplit.mem_iff.mpr (List.mem_append_left _ hx))
  · exact hL.listed e (List.mem_of_mem_filter he)
  · exact (List.nodup_append'.mp (hsplit.nodup_iff.mp hL.account.nodup)).1

/-- **Operations.** Each operation is a transfer, and its calls are harmless exactly when it is. -/
theorem booked_run (op : OwnerOp) : Booked L (op.run L) (op.Harmless L) := by
  cases op with
  | newTarget front => exact booked_newTarget hL front
  | addTarget => exact booked_addTarget hL
  | addBackHandler r => exact booked_addBackHandler hL r
  | addIntraHandler r complete ip => exact booked_addIntraHandler hL r complete ip
  | rpcAddBackend accepted targetID => exact booked_rpcAddBackend hL accepted targetID
  | rpcAddIntra accepted targetID => exact booked_rpcAddIntra hL accepted targetID
  | removeTarget targetID => exact booked_removeTarget hL targetID
  | removeBackHandler r backendID => exact booked_removeBackHandler hL r backendID
  | removeIntraHandler r intraID => exact booked_removeIntraHandler hL r intraID
  | destroyTargets => exact booked_destroyTargets hL

end Books

/-! ### Histories -/

/-- **Releases.** After a history every object has been released at most once, and none is still
held, exactly when every operation that met a running program was harmless: no removal found what it
was to remove, and the RPC server registered nothing. -/
theorem releasedOnce_iff (ops : List OwnerOp) :
    ReleasedOnce (History.after OwnerOp.apply {} ops) ↔
      History.Throughout OwnerOp.apply (fun L op => L.halted = true ∨ op.Harmless L) {} ops := by
  have hstart : ({} : Inventory).Valid :=
    ⟨⟨List.nodup_nil, by simp [Inventory.account, Inventory.owned], by simp [Inventory.account]⟩,
      by simp⟩
  refine (History.iff_throughout (P := ReleasedOnce) (I := Inventory.Valid) hstart
    (fun L op hL => ?_) (fun L op hL => ?_)).trans (and_iff_right ⟨List.nodup_nil, by simp⟩)
  · unfold OwnerOp.apply
    split_ifs
    · exact hL
    · obtain ⟨gone, fresh, calls, hb⟩ := booked_run hL op
      exact hb.valid hL
  · unfold OwnerOp.apply
    split_ifs with hhalted
    · simp [hhalted]
    · obtain ⟨gone, fresh, calls, hb⟩ := booked_run hL op
      rw [hb.once_iff hL, or_iff_right hhalted]

/-- A target with one backend, which is then removed. -/
def Sample.backendRemoved : List OwnerOp :=
  [.newTarget true, .addTarget, .addBackHandler (.number 1), .removeBackHandler (.number 1) 1]

/-- A backend that is removed is released twice. -/
theorem removed_backend_released_twice :
    (History.after OwnerOp.apply {} Sample.backendRemoved).released = [.handler 3, .handler 3] ∧
      ¬ReleasedOnce (History.after OwnerOp.apply {} Sample.backendRemoved) := by
  have hreleased : (History.after OwnerOp.apply {} Sample.backendRemoved).released =
      [.handler 3, .handler 3] := by
    decide +kernel
  refine ⟨hreleased, fun h => ?_⟩
  have hnodup := h.once
  rw [hreleased] at hnodup
  simp at hnodup

end Honeybrid
