import Honeybrid.DecisionEngine
import Mathlib.Data.List.Basic

/-!
# Managing targets and handlers

The functions of `management.c`, which the configuration and the RPC server call, as far as they
change the tables. What they release is another matter, and has a module of its own. Numbers are
read as unsigned, so that a negative argument is a large number.

## Main definitions

* `addBackHandler`, `removeBackHandler`: the backends of a target. `add_intra_handler` stands with
  the module that calls it.
* `removeIntraHandler`: the INTRA handlers of a target.
* `addTarget`, `removeTarget`: the targets.
-/

namespace Honeybrid

variable {μ : Type}

/-! ### Backends -/

/-- `add_back_handler`. The counter of the target gives the handler its number. -/
def addBackHandler (t : Target) (h : Handler) : Target :=
  let id := t.backHandlerCount + 1
  { t with backHandlerCount := id, backHandlers := t.backHandlers.insert id { h with id } }

/-- `remove_back_handler`. The counter stays. -/
def removeBackHandler (t : Target) (backendID : HandlerId) : Target × Status :=
  if t.backHandlers[backendID]?.isSome then
    ({ t with backHandlers := t.backHandlers.erase backendID }, .ok)
  else (t, .nok)

/-! ### INTRA handlers -/

/-- `ADDR_TYPE_IP` of `libdnet`. -/
def ADDR_TYPE_IP : ℕ := 2

/-- `IP_ADDR_BITS` of `libdnet`. -/
def IP_ADDR_BITS : ℕ := 32

/-- A `struct handler` read as a `struct addr`: type, bits and address lie over the bytes of its
`ID`. -/
def Handler.asAddr (h : Handler) : Option IpAddr :=
  if h.id % 2 ^ 16 = ADDR_TYPE_IP ∧ h.id / 2 ^ 16 % 2 ^ 16 = IP_ADDR_BITS then
    some (BitVec.ofNat 32 (h.id / 2 ^ 32))
  else none

/-- `g_tree_remove(intra_handlers, loop->data)`: the key that is looked for is the handler
itself. -/
def removeAsAddr (h : Handler) (m : Std.TreeMap IpAddr Handler addrCmp) :
    Std.TreeMap IpAddr Handler addrCmp :=
  match h.asAddr with
  | some a => m.erase a
  | none => m

/-- `remove_intra_handler`. The handler stays in the list, and the result is `NOK` in any case. -/
def removeIntraHandler (t : Target) (intraID : HandlerId) : Target × Status :=
  match t.intraHandlersList.find? fun h => h.id = intraID with
  | some h =>
    ({ t with
        intraHandlers := h.intraTargetIps.foldl (fun m _ => removeAsAddr h m) t.intraHandlers },
      .nok)
  | none => (t, .nok)

theorem removeIntraHandler_status (t : Target) (intraID : HandlerId) :
    (removeIntraHandler t intraID).2 = .nok := by
  unfold removeIntraHandler
  split
  · rfl
  · rfl

/-- A handler without a number is no address. -/
theorem removeAsAddr_of_zero {h : Handler} (hzero : h.id = 0)
    (m : Std.TreeMap IpAddr Handler addrCmp) : removeAsAddr h m = m := by
  simp [removeAsAddr, Handler.asAddr, hzero, ADDR_TYPE_IP]

/-- INTRA handlers are not given numbers, and a removal then leaves the tables alone. -/
theorem removeIntraHandler_of_zero {t : Target} (hzero : ∀ h ∈ t.intraHandlersList, h.id = 0)
    (intraID : HandlerId) : removeIntraHandler t intraID = (t, .nok) := by
  unfold removeIntraHandler
  split
  next h hh =>
    have hid := hzero h (List.mem_of_find?_eq_some hh)
    have hfold : h.intraTargetIps.foldl (fun m _ => removeAsAddr h m) t.intraHandlers =
        t.intraHandlers := by
      simp only [removeAsAddr_of_zero hid, List.foldl_fixed]
    rw [hfold]
  next => rfl

/-! ### Targets -/

/-- `add_target` with the table `targets` and the counter, which has advanced in any case: the
target is entered under the next number unless that is taken. -/
def addTarget (targets : Std.TreeMap TargetId Target intcmp) (targetCounter : ℕ) (t : Target) :
    Std.TreeMap TargetId Target intcmp × Status :=
  if targets[targetCounter + 1]?.isSome then (targets, .nok)
  else (targets.insert (targetCounter + 1) t, .ok)

/-- `remove_target`. The interface whose default route it was has no target any more. -/
def removeTarget (s : State μ) (targetID : TargetId) : State μ × Status :=
  match s.targets[targetID]? with
  | none => (s, .nok)
  | some t =>
    let ifTarget := match t.defaultRoute with
      | some iface => s.ifTarget.erase iface
      | none => s.ifTarget
    ({ s with targets := s.targets.erase targetID, ifTarget }, .ok)

end Honeybrid
