import Honeybrid.Configuration
import Honeybrid.Lib.Histories

/-!
# The tables of the INTRA handlers

A target keeps its INTRA handlers in a list, and finds them by the addresses they stand for in the
tree `intra_handlers`; each handler lists its addresses. `add_intra_handler` enters a handler in all
three places. `rpc_add_intra` calls it with the null address, and releases the handler afterwards;
`remove_intra_handler` looks for the handler itself among the addresses, and takes nothing out.

The null address cannot be compared: a search that meets it ends the program.

## Main definitions

* `TargetTables`: a target with the entry of `intra_handlers` under the null address.
* `TargetTables.addIntra`, `TargetTables.removeIntra`: the functions of `management.c`.
* `TargetTables.Agree`: the list, the tree and the addresses of the handlers agree.
* `TargetTables.RemovesIntra`: a removal does what it is for.
* `IntraOp`, `IntraOp.Correct`, `IntraOp.Inert`: the operations.

## Main results

* `TargetTables.Agree.addIntra`: a new handler keeps the tables in agreement.
* `intraTables_iff`: the histories in which the tables agree and every removal removes.
-/

namespace Honeybrid

/-! ### Tables -/

/-- A target with the handler that its tree `intra_handlers` has under the null address, if any. -/
structure TargetTables where
  target : Target := {}
  null : Option Handler := none

/-- Two addresses are compared, and one of them is null. -/
inductive NullAddress
  | compared
  deriving DecidableEq, Repr

namespace TargetTables

variable (t : TargetTables)

/-- The values of `intra_handlers`. -/
def value : Option IpAddr → Option Handler
  | some a => t.target.intraHandlers[a]?
  | none => t.null

/-- `g_tree_lookup(intra_handlers, ...)`. -/
def lookup (ip : Option IpAddr) : Except NullAddress (Option Handler) :=
  if t.null.isSome ∨ ip = none ∧ t.target.intraHandlers.isEmpty = false then .error .compared
  else .ok (t.value ip)

/-- `add_intra_handler`. The list of addresses of the handler under the null address is left out:
its only caller has released the handler when it returns. -/
def addIntra (ip : Option IpAddr) (h : Handler) : Except NullAddress (TargetTables × Status) := do
  if h.iface.isNone then return (t, .nok)
  match ← t.lookup ip with
  | some _ => return (t, .nok)
  | none =>
    match ip with
    | some ip => return ({ t with target := (addIntraHandler t.target ip h).1 }, .ok)
    | none =>
      let target := { t.target with intraHandlersList := t.target.intraHandlersList ++ [h] }
      return ({ target, null := some h }, .ok)

/-- `remove_intra_handler`, where the handler that is found is compared with the keys. -/
def removeIntra (intraID : HandlerId) : Except NullAddress (TargetTables × Status) :=
  if (t.target.intraHandlersList.any fun h => h.id = intraID) = true ∧ t.null.isSome then
    .error .compared
  else
    let r := removeIntraHandler t.target intraID
    .ok ({ t with target := r.1 }, r.2)

/-! ### Agreement -/

/-- The tables agree: a handler is listed exactly when it is the value of some key, and it is the
value of a key exactly when this is one of its addresses. -/
structure Agree : Prop where
  listed : ∀ h, h ∈ t.target.intraHandlersList ↔ ∃ k, t.value k = some h
  mapped : ∀ k h, t.value k = some h ↔
    h ∈ t.target.intraHandlersList ∧ ∃ a ∈ h.intraTargetIps, k = some a

/-- A removal of a handler that is present returns `OK` and takes it out of the list and the tree,
and nothing else. -/
def RemovesIntra (intraID : HandlerId) : Prop :=
  ∀ h, (t.target.intraHandlersList.find? fun h => h.id = intraID) = some h →
    ∃ t', t.removeIntra intraID = .ok (t', .ok) ∧
      (∀ x, x ∈ t'.target.intraHandlersList ↔ x ∈ t.target.intraHandlersList ∧ x ≠ h) ∧
      ∀ k x, t'.value k = some x ↔ t.value k = some x ∧ x ≠ h

end TargetTables

variable {t t' : TargetTables} {ip : IpAddr} {h : Handler} {st : Status}

theorem ntohl_ntohl (w : BitVec 32) : ntohl (ntohl w) = w := by
  refine BitVec.eq_of_getLsbD_eq fun i hi => ?_
  -- one case for each byte
  obtain h | h | h | h : i < 8 ∨ (8 ≤ i ∧ i < 16) ∨ (16 ≤ i ∧ i < 24) ∨ 24 ≤ i := by omega
  all_goals
    simp only [ntohl, BitVec.getLsbD_append, BitVec.getLsbD_extractLsb']
    grind

instance : Std.LawfulEqCmp addrCmp where
  compare_self := by simp [addrCmp, compareOn]
  eq_of_compare h := by
    have heq := congrArg ntohl (BitVec.eq_of_toNat_eq (Nat.compare_eq_eq.mp h))
    rwa [ntohl_ntohl, ntohl_ntohl] at heq

theorem TargetTables.agree_empty : ({} : TargetTables).Agree := by
  have hnone (k : Option IpAddr) (x : Handler) : ({} : TargetTables).value k ≠ some x := by
    cases k with
    | none => exact nofun
    | some a =>
      rw [TargetTables.value, Std.TreeMap.getElem?_emptyc]
      exact nofun
  refine ⟨fun x => ⟨nofun, fun ⟨k, hk⟩ => absurd hk (hnone k x)⟩, fun k x => ?_⟩
  exact ⟨fun hk => absurd hk (hnone k x), nofun⟩

theorem TargetTables.Agree.null (h : t.Agree) : t.null = none := by
  by_contra hne
  obtain ⟨x, hx⟩ := Option.ne_none_iff_exists'.mp hne
  obtain ⟨-, a, -, ha⟩ := (h.mapped none x).mp hx
  cases ha

/-- The tables after a handler has been added under an address that was free. -/
theorem addIntra_cases (hadd : t.addIntra (some ip) h = .ok (t', st)) :
    t' = t ∨ t.value (some ip) = none ∧ t'.null = t.null ∧
      t'.target.intraHandlersList = t.target.intraHandlersList ++
        [{ h with intraTargetIps := h.intraTargetIps ++ [ip] }] ∧
      ∀ a, t'.value (some a) =
        if ip = a then some { h with intraTargetIps := h.intraTargetIps ++ [ip] }
        else t.value (some a) := by
  unfold TargetTables.addIntra TargetTables.lookup at hadd
  split_ifs at hadd with hiface hnull
  · cases hadd
    exact .inl rfl
  · cases hadd
  · cases hval : t.value (some ip) with
    | some x =>
      simp only [hval, Except.ok_bind] at hadd
      cases hadd
      exact .inl rfl
    | none =>
      simp only [hval, Except.ok_bind] at hadd
      cases hadd
      have hfree : ¬(h.iface.isNone = true ∨ t.target.intraHandlers[ip]?.isSome = true) := by
        have hlook : t.target.intraHandlers[ip]? = none := hval
        simpa [hlook] using hiface
      simp only [addIntraHandler, if_neg hfree]
      refine .inr ⟨trivial, trivial, trivial, fun a => ?_⟩
      exact Std.TreeMap.lookup_insert

/-- The tables with one more handler, which has one address, under a key that was free. -/
structure TargetTables.Extends (t' t : TargetTables) (ip : IpAddr) (h : Handler) : Prop where
  free : t.value (some ip) = none
  addresses : h.intraTargetIps = [ip]
  list : t'.target.intraHandlersList = t.target.intraHandlersList ++ [h]
  value : ∀ k, t'.value k = if k = some ip then some h else t.value k

theorem TargetTables.Extends.mapped (hext : t'.Extends t ip h) (ht : t.Agree) (k : Option IpAddr)
    (x : Handler) : t'.value k = some x ↔
      x ∈ t'.target.intraHandlersList ∧ ∃ a ∈ x.intraTargetIps, k = some a := by
  rw [hext.value k, hext.list, List.mem_append, List.mem_singleton]
  split_ifs with hk
  · rw [Option.some.injEq]
    constructor
    · rintro rfl
      exact ⟨.inr rfl, ip, by simp [hext.addresses], hk⟩
    · rintro ⟨hx | hx, hown⟩
      · -- no handler of the list has the new address
        have hback := (ht.mapped k x).mpr ⟨hx, hown⟩
        rw [hk, hext.free] at hback
        cases hback
      · exact hx.symm
  · rw [ht.mapped k x]
    refine and_congr_left fun ⟨a, ha, heq⟩ => (or_iff_left ?_).symm
    rintro rfl
    rw [hext.addresses] at ha
    rw [List.mem_singleton.mp ha] at heq
    exact hk heq

theorem TargetTables.Extends.agree (hext : t'.Extends t ip h) (ht : t.Agree) : t'.Agree := by
  refine ⟨fun x => ⟨fun hx => ?_, fun ⟨k, hk⟩ => ((hext.mapped ht k x).mp hk).1⟩, hext.mapped ht⟩
  rw [hext.list, List.mem_append, List.mem_singleton] at hx
  obtain hx | rfl := hx
  · obtain ⟨k, hk⟩ := (ht.listed x).mp hx
    have hne : k ≠ some ip := by
      rintro rfl
      rw [hext.free] at hk
      cases hk
    exact ⟨k, by rw [hext.value k, if_neg hne, hk]⟩
  · exact ⟨some ip, by rw [hext.value, if_pos rfl]⟩

/-- **Additions.** A handler that has no addresses yet keeps the tables in agreement. -/
theorem TargetTables.Agree.addIntra (ht : t.Agree) (hnew : h.intraTargetIps = [])
    (hadd : t.addIntra (some ip) h = .ok (t', st)) : t'.Agree := by
  obtain rfl | ⟨hfree, hnull, hlist, hval⟩ := addIntra_cases hadd
  · exact ht
  rw [hnew, List.nil_append] at hlist hval
  have hext : t'.Extends t ip { h with intraTargetIps := [ip] } := by
    refine ⟨hfree, rfl, hlist, fun k => ?_⟩
    cases k with
    | none =>
      rw [if_neg nofun]
      exact hnull
    | some a =>
      rw [hval a]
      simp only [Option.some.injEq, eq_comm]
  exact hext.agree ht

/-! ### Operations -/

/-- A handler as it is made, without a number and without addresses. -/
abbrev NewHandler :=
  { h : Handler // h.id = 0 ∧ h.intraTargetIps = [] }

/-- The operations: additions by the configuration and by `mod_dns_control`, which name an address,
and by `rpc_add_intra`, which has none; and removals. -/
inductive IntraOp
  | add (ip : IpAddr) (h : NewHandler)
  | rpcAdd (h : NewHandler)
  | remove (intraID : HandlerId)

namespace IntraOp

/-- The call of an operation. -/
def run (t : TargetTables) : IntraOp → Except NullAddress (TargetTables × Status)
  | .add ip h => t.addIntra (some ip) h
  | .rpcAdd h => t.addIntra none h
  | .remove intraID => t.removeIntra intraID

/-- The tables after an operation, as long as the program runs. -/
def apply (s : Option TargetTables) (op : IntraOp) : Option TargetTables :=
  s.bind fun t => (op.run t).toOption.map Prod.fst

/-- The operation leaves the tables in agreement, and removes what it is to remove. -/
def Correct (s : Option TargetTables) (op : IntraOp) : Prop :=
  ∀ t ∈ s, (∀ r, op.run t = .ok r → r.1.Agree) ∧
    ∀ intraID, op = .remove intraID → t.RemovesIntra intraID

/-- The operation is not a removal of a handler that is listed, nor an addition without an address
to an empty tree. -/
def Inert (s : Option TargetTables) : IntraOp → Prop
  | .add _ _ => True
  | .rpcAdd h => ∀ t ∈ s, h.1.iface = none ∨ t.target.intraHandlers.isEmpty = false
  | .remove intraID => ∀ t ∈ s, ∀ h ∈ t.target.intraHandlersList, h.id ≠ intraID

/-- On tables without a null address, an addition is that of `management.c`. -/
theorem apply_add (t : Target) (ip : IpAddr) (h : NewHandler) :
    apply (some { target := t }) (.add ip h) =
      some { target := (addIntraHandler t ip h.1).1 } := by
  have hlook : ({ target := t } : TargetTables).lookup (some ip) = .ok t.intraHandlers[ip]? := by
    simp [TargetTables.lookup, TargetTables.value]
  by_cases hiface : h.1.iface.isNone = true
  · simp [apply, run, TargetTables.addIntra, addIntraHandler, hiface, pure, Except.pure,
      Except.toOption]
  · cases hval : t.intraHandlers[ip]? with
    | some x =>
      simp [apply, run, TargetTables.addIntra, addIntraHandler, hiface, hlook, hval, pure,
        Except.pure, Except.toOption]
    | none =>
      simp [apply, run, TargetTables.addIntra, hiface, hlook, hval, pure, Except.pure,
        Except.toOption]

/-- The grammar adds INTRA handlers by one of the operations. -/
theorem action_internal {s : Setup} {t t' : Target} {ip : IpAddr} {honeypot : Honeypot}
    {equation : Option Equation}
    (hact : (TargetEntry.internal ip honeypot equation).action s t = .ok t') :
    ∃ h, apply (some { target := t }) (.add ip h) = some { target := t' } := by
  obtain ⟨intra, hintra, hact⟩ := Except.bind_eq_ok.mp hact
  obtain ⟨rule, -, hact⟩ := Except.bind_eq_ok.mp hact
  obtain ⟨iface, -, hintra⟩ := Except.bind_eq_ok.mp hintra
  cases hintra
  cases hact
  exact ⟨⟨_, rfl, rfl⟩, apply_add t ip _⟩

/-- So does `mod_dns_control`. -/
theorem dnsHandler_apply (t : Target) (ip : IpAddr) (d : DnsServer) :
    apply (some { target := t })
        (.add ip ⟨{ mac := d.mac, ip := d.ip, vlan := d.vlan, iface := d.iface }, rfl, rfl⟩) =
      some { target := (dnsHandler t ip d).1 } := by
  rw [apply_add, dnsHandler]
  cases hval : t.intraHandlers[ip]? with
  | some x => simp [addIntraHandler, hval]
  | none => rfl

end IntraOp

/-- A removal never returns `OK`. -/
theorem removeIntra_status {intraID : HandlerId} (hrem : t.removeIntra intraID = .ok (t', st)) :
    st = .nok := by
  unfold TargetTables.removeIntra at hrem
  split_ifs at hrem
  cases hrem
  exact removeIntraHandler_status t.target intraID

/-- A removal that finds no handler. -/
theorem removeIntra_absent {intraID : HandlerId}
    (habsent : ∀ h ∈ t.target.intraHandlersList, h.id ≠ intraID) :
    t.removeIntra intraID = .ok (t, .nok) := by
  have hfind : (t.target.intraHandlersList.find? fun h => h.id = intraID) = none := by
    simpa using habsent
  have hany : ¬((t.target.intraHandlersList.any fun h => h.id = intraID) = true ∧
      t.null.isSome = true) := by
    rintro ⟨hany, -⟩
    obtain ⟨h, hh, hid⟩ := List.any_eq_true.mp hany
    exact habsent h hh (of_decide_eq_true hid)
  rw [TargetTables.removeIntra, if_neg hany, removeIntraHandler, hfind]

/-- An addition without an address: it is refused, ends the program, or enters the handler under the
null address. -/
theorem addIntra_null (hnull : t.null = none) :
    t.addIntra none h =
      if h.iface.isNone then .ok (t, .nok)
      else if t.target.intraHandlers.isEmpty = false then .error .compared
      else
        .ok ({ target :=
                { t.target with intraHandlersList := t.target.intraHandlersList ++ [h] }
               null := some h }, .ok) := by
  unfold TargetTables.addIntra TargetTables.lookup
  simp only [hnull, TargetTables.value, Option.isSome_none, Bool.false_eq_true, false_or, true_and]
  split_ifs
  · rfl
  · rfl
  · rfl

namespace IntraOp

variable {s : Option TargetTables}

/-- An addition without an address to an empty tree is not correct: the handler is entered, and the
null address is not one of its addresses. -/
theorem correct_rpcAdd_iff (hs : ∀ t ∈ s, t.Agree) (h : NewHandler) :
    (IntraOp.rpcAdd h).Correct s ↔ (IntraOp.rpcAdd h).Inert s := by
  have hrun (t) (ht : t ∈ s) := addIntra_null (h := h.1) (hs t ht).null
  constructor
  · intro hcorrect t ht
    by_contra hinert
    obtain ⟨hiface, hempty⟩ := not_or.mp hinert
    have hentered := hrun t ht
    rw [if_neg (by simpa using hiface), if_neg hempty] at hentered
    have hnull := ((hcorrect t ht).1 _ hentered).null
    cases hnull
  · intro hinert t ht
    refine ⟨fun r hr => ?_, fun id hid => by cases hid⟩
    rw [run, hrun t ht] at hr
    split_ifs at hr with hiface hempty
    · cases hr
      exact hs t ht
    · obtain hnone | hfull := hinert t ht
      · exact absurd (Option.isNone_iff_eq_none.mpr hnone) hiface
      · exact absurd hfull hempty

/-- A removal of a handler that is listed is not correct. -/
theorem correct_remove_iff (hs : ∀ t ∈ s, t.Agree) (intraID : HandlerId) :
    (IntraOp.remove intraID).Correct s ↔ (IntraOp.remove intraID).Inert s := by
  constructor
  · intro hcorrect t ht h hh hid
    have hfound : (t.target.intraHandlersList.find? fun h => h.id = intraID).isSome :=
      List.find?_isSome.mpr ⟨h, hh, decide_eq_true hid⟩
    obtain ⟨x, hx⟩ := Option.isSome_iff_exists.mp hfound
    obtain ⟨t', hrem, -⟩ := (hcorrect t ht).2 intraID rfl x hx
    cases removeIntra_status hrem
  · intro hinert t ht
    have habsent := hinert t ht
    refine ⟨fun r hr => ?_, fun id hid x hx => ?_⟩
    · rw [run, removeIntra_absent habsent] at hr
      cases hr
      exact hs t ht
    · cases hid
      have hid' := List.find?_some hx
      exact absurd (of_decide_eq_true hid') (habsent x (List.mem_of_find?_eq_some hx))

/-- An operation on tables that agree is correct exactly when it is inert. -/
theorem correct_iff (op : IntraOp) (hs : ∀ t ∈ s, t.Agree) : op.Correct s ↔ op.Inert s := by
  cases op with
  | add ip h =>
    refine iff_of_true (fun t ht => ⟨fun r hr => ?_, fun id hid => by cases hid⟩) trivial
    exact (hs t ht).addIntra h.2.2 hr
  | rpcAdd h => exact correct_rpcAdd_iff hs h
  | remove intraID => exact correct_remove_iff hs intraID

/-- Correct operations keep the tables in agreement. -/
theorem agree_apply {op : IntraOp} (h : op.Correct s) :
    ∀ t ∈ op.apply s, t.Agree := by
  intro t' ht'
  obtain ⟨t, ht, hmap⟩ := Option.bind_eq_some_iff.mp ht'
  obtain ⟨r, hr, rfl⟩ := Option.map_eq_some_iff.mp hmap
  refine (h t ht).1 r ?_
  cases hrun : op.run t with
  | ok r' =>
    rw [hrun] at hr
    cases hr
    rfl
  | error e =>
    rw [hrun] at hr
    cases hr

end IntraOp

/-- **The tables of the INTRA handlers.** Along a history of operations on a target, the tables
agree after every operation and every removal of a handler that is present removes it, exactly when
there is no such removal, and no addition without an address to an empty tree. -/
theorem intraTables_iff (ops : List IntraOp) :
    History.Throughout IntraOp.apply IntraOp.Correct (some {}) ops ↔
      History.Throughout IntraOp.apply IntraOp.Inert (some {}) ops := by
  refine History.throughout_congr (I := fun s => ∀ t ∈ s, t.Agree) (fun t ht => ?_)
    (fun s op hs hinert => IntraOp.agree_apply ((op.correct_iff hs).mpr hinert))
    fun s op hs => op.correct_iff hs
  cases ht
  exact TargetTables.agree_empty

/-- The INTRA host of the example, before it is added. -/
def Sample.newIntra : NewHandler :=
  ⟨Sample.intra, rfl, rfl⟩

/-- **A handler that is not removed.** The only INTRA handler of a target has the number zero, and
is to be removed: the function returns `NOK`, and the handler stays where it was. -/
theorem intra_not_removed :
    (∃ t, History.after IntraOp.apply (some {}) [.add 40 Sample.newIntra] = some t ∧
      (t.target.intraHandlersList.find? fun h => h.id = 0).isSome ∧
      t.removeIntra 0 = .ok (t, .nok)) ∧
    ¬History.Throughout IntraOp.apply IntraOp.Correct (some {})
      [.add 40 Sample.newIntra, .remove 0] := by
  obtain ⟨t, ht⟩ : ∃ t, IntraOp.apply (some {}) (.add 40 Sample.newIntra) = some t :=
    Option.isSome_iff_exists.mp (by decide +kernel)
  have htest : (IntraOp.apply (some {}) (.add 40 Sample.newIntra)).any fun t =>
      (t.target.intraHandlersList.find? fun h => h.id = 0).isSome &&
        (t.target.intraHandlersList.all fun h => h.id = 0) && t.null.isNone := by
    decide +kernel
  rw [ht] at htest
  simp only [Option.any_some, Bool.and_eq_true, List.all_eq_true, decide_eq_true_eq] at htest
  obtain ⟨⟨hfind, hzero⟩, hnull⟩ := htest
  have hrem : t.removeIntra 0 = .ok (t, .nok) := by
    rw [TargetTables.removeIntra, if_neg (by simp [Option.isNone_iff_eq_none.mp hnull]),
      removeIntraHandler_of_zero hzero]
  refine ⟨⟨t, ht, hfind, hrem⟩, fun ⟨_, hcorrect, _⟩ => ?_⟩
  obtain ⟨h, hh⟩ := Option.isSome_iff_exists.mp hfind
  obtain ⟨t', hok, -⟩ := (hcorrect t ht).2 0 rfl h hh
  rw [hrem] at hok
  cases hok

end Honeybrid
