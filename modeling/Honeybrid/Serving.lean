import Honeybrid.Denial
import Honeybrid.IntraHosts
import Honeybrid.Registration
import Honeybrid.Lib.Faults

/-!
# Configurations that can be served

The grammar lets a target go without a front handler, without a default route and without an address
on its interface, and a module may pick a backend that the target does not have. The code reads all
four without a test. With all of them present, one read of a missing part is left: `create_conn`
follows a backend that its search has not filled in when an INTRA host opens a connection to a
backend. No other packet and no sweep of any run reads a part that is missing.

## Main definitions

* `Fault.absent`: the reads of a part of a target that is not there.
* `Equipped`: a target has a front handler, a default route and an address on it.
* `PicksExisting`: the modules pick the backends a target has.
* `ConnectsBack`: the frame of a step is one by which an INTRA host opens a connection to a backend.

## Main results

* `handle_avoids`, `assign_avoids`: a packet that does not connect back reads nothing that is
  missing.
* `step_connectsBack`: one that connects back does.
* `served`: so the steps of a run that read a missing part are the ones that connect back.
-/

namespace Honeybrid

variable {μ : Type} {mods : Modules μ} {g : Globals} {s s' s₁ : State μ} {i : ConnId} {pkt : Pkt}
  {w w' : Work μ} {tr : List Event} {c : Conn} {t : Target} {now : ℤ}

/-- The reads of a front handler, a default route, its address or a backend that is not there. The
backend may be one that a target does not have, or one that a search has not filled in. -/
def Fault.absent : Fault → Bool
  | .frontHandler | .defaultRoute | .defaultRouteIp | .backHandler | .hihSearch => true
  | _ => false

/-- The target has a front handler, and a default route on an interface with an address. -/
structure Equipped (g : Globals) (t : Target) : Prop where
  front : t.frontHandler ≠ none
  route : t.defaultRoute ≠ none
  address : ∀ out, t.defaultRoute = some out → (g.links out).ip ≠ none

/-- All targets of a state are equipped. -/
def State.Equipped (g : Globals) (s : State μ) : Prop :=
  ∀ (id : TargetId) (t : Target), s.targets[id]? = some t → Honeybrid.Equipped g t

/-- No backend has been picked, or one that the target has. -/
def Target.Picks (t : Target) (hihID : HandlerId) : Prop :=
  hihID = 0 ∨ t.backHandlers[hihID]? ≠ none

/-- The modules leave in `backend_use` the number of a backend that the target has, or none. -/
def PicksExisting (mods : Modules μ) (targets : Std.TreeMap TargetId Target intcmp) : Prop :=
  ∀ (id : TargetId) (t : Target), targets[id]? = some t →
    ∀ (m : ModuleDef) (a : ModArgs) (mem : μ), a.target.fixed = t.fixed → t.Picks a.backendUse →
      t.Picks (mods m a mem).1.backendUse

/-- The packet goes to a backend of the target, and neither to an INTRA handler nor to the front
handler. -/
def Target.toBackend (t : Target) (pkt : Pkt) : Bool :=
  t.intraHandlers[pkt.packet.daddr]?.isNone ∧
    (t.frontHandler.all fun front => pkt.packet.daddr ≠ front.ip) ∧
    t.backHandlers.toList.any fun e => findHihDst pkt e.2

/-- By the frame of the step, a datagram or a SYN that belongs to no connection, an INTRA host opens
one to a backend of its target. -/
def ConnectsBack (g : Globals) (s : State μ) : Input → Prop
  | .packet raw _ => ∃ pkt r t, Opens g s raw pkt ∧
      ¬(pkt.packet.protocol = IPPROTO_TCP ∧ pkt.packet.tcp.syn = false) ∧
      identify s pkt = .ok (some r) ∧ r.origin = .intra ∧ s.targets[r.target]? = some t ∧
      t.toBackend pkt = true
  | .sweep .. => False

/-! ### Attribution of packets -/

theorem findTarget_avoids {id : TargetId} (ht : Equipped g t) :
    (findTarget pkt id t).Avoids Fault.absent := by
  refine .bind (Except.avoids_orFail fun h => absurd h ht.front) fun front _ => ?_
  refine .ite (fun _ => Except.avoids_ok _) fun _ => ?_
  split
  · exact Except.avoids_ok _
  · split <;> exact Except.avoids_ok _

theorem findTargets_avoids {ts : List (TargetId × Target)} (hts : ∀ e ∈ ts, Equipped g e.2) :
    (findTargets pkt ts).Avoids Fault.absent := by
  induction ts with
  | nil => exact Except.avoids_ok _
  | cons e ts ih =>
    refine .bind (findTarget_avoids (hts e List.mem_cons_self)) fun r _ => ?_
    cases r with
    | some r => exact Except.avoids_ok _
    | none => exact ih fun e he => hts e (List.mem_cons_of_mem _ he)

theorem targetOf_avoids : (s.targetOf c).Avoids Fault.absent :=
  Except.avoids_orFail fun _ => rfl

theorem connAt_avoids : (s.connAt i).Avoids Fault.absent :=
  Except.avoids_orFail fun _ => rfl

theorem State.Equipped.targetOf (hs : s.Equipped g) (h : s.targetOf c = .ok t) :
    Honeybrid.Equipped g t :=
  hs c.target t (Option.orFail_eq_ok.mp h)

theorem originOf_avoids (hs : s.Equipped g) : (originOf s pkt i).Avoids Fault.absent := by
  refine .bind connAt_avoids fun c _ => .bind targetOf_avoids fun t ht => ?_
  refine .bind (Except.avoids_orFail fun h => absurd h (hs.targetOf ht).front) fun front _ => ?_
  exact Except.avoids_ok _

theorem connLookup_avoids (hs : s.Equipped g) : (connLookup s pkt).Avoids Fault.absent := by
  refine .ite (fun _ => ?_) fun _ => ?_
  · split
    · exact .bind connAt_avoids fun _ _ => Except.avoids_ok _
    · exact .bind connAt_avoids fun _ _ => Except.avoids_ok _
    · exact Except.avoids_ok _
  · split
    · exact .bind (originOf_avoids hs) fun _ _ => Except.avoids_ok _
    · exact .bind (originOf_avoids hs) fun _ _ => Except.avoids_ok _
    · exact .bind (originOf_avoids hs) fun _ _ => Except.avoids_ok _
    · exact .bind connAt_avoids fun _ _ => Except.avoids_ok _
    · exact Except.avoids_ok _

theorem lookupPin_avoids {tree : PinTree} {k : PinKey} :
    (lookupPin s tree k).Avoids Fault.absent := by
  unfold lookupPin
  split
  · exact Except.avoids_ok _
  · exact .ite (fun _ => Except.avoids_error rfl) fun _ => Except.avoids_ok _

theorem createExt_avoids (ht : Equipped g t) : (createExt s i c t pkt).Avoids Fault.absent := by
  refine .bind (Except.avoids_orFail fun h => absurd h ht.front) fun front _ => ?_
  refine .bind lookupPin_avoids fun p _ => ?_
  cases p <;> exact Except.avoids_ok _

theorem acquireSnat_avoids (ht : Equipped g t) {tree : PinTree} {k : PinKey} :
    (acquireSnat g s c t tree k).Avoids Fault.absent := by
  refine .bind lookupPin_avoids fun p _ => ?_
  cases p with
  | some p => exact Except.avoids_ok _
  | none =>
    refine .bind (Except.avoids_orFail fun h => absurd h ht.route) fun out hout => ?_
    have haddr := ht.address out (Option.orFail_eq_ok.mp hout)
    exact .bind (Except.avoids_orFail fun h => absurd h haddr) fun _ _ => Except.avoids_ok _

theorem createToExt_avoids (ht : Equipped g t) {tree : PinTree} {k : PinKey} {vlanId : BitVec 12} :
    (createToExt g s i c t pkt tree k vlanId).Avoids Fault.absent :=
  .bind (acquireSnat_avoids ht) fun _ _ => Except.avoids_ok _

theorem createLih_avoids (ht : Equipped g t) : (createLih g s i c t pkt).Avoids Fault.absent := by
  refine .bind (Except.avoids_orFail fun h => absurd h ht.front) fun front _ => ?_
  refine .ite (fun _ => Except.avoids_ok _) fun _ => .ite (fun _ => Except.avoids_ok _) fun _ => ?_
  exact createToExt_avoids ht

theorem acquireIntra_avoids {h : Handler} : (acquireIntra s c h pkt).Avoids Fault.absent := by
  refine .ite (fun _ => .bind lookupPin_avoids fun p _ => ?_) fun _ => Except.avoids_ok _
  cases p with
  | none => exact Except.avoids_ok _
  | some p => exact .ite (fun _ => Except.avoids_ok _) fun _ => Except.avoids_ok _

theorem createToIntra_avoids {h back : Handler} :
    (createToIntra s i c h back pkt).Avoids Fault.absent := by
  refine .bind acquireIntra_avoids fun r _ => ?_
  cases r <;> exact Except.avoids_ok _

theorem createHih_avoids (ht : Equipped g t) {r : TargetSearch} (hr : r.backHandler ≠ none) :
    (createHih g s i c t pkt r).Avoids Fault.absent := by
  refine .bind (Except.avoids_orFail fun h => absurd h hr) fun back _ => ?_
  refine .bind (Except.avoids_orFail fun h => absurd h ht.front) fun front _ => ?_
  simp only
  split
  · exact createToIntra_avoids
  · refine .ite (fun _ => Except.avoids_ok _) fun _ =>
      .ite (fun _ => Except.avoids_ok _) fun _ => ?_
    refine .ite (fun _ => Except.avoids_ok _) fun _ => ?_
    exact .ite (fun _ => createToExt_avoids ht) fun _ => createToExt_avoids ht

theorem createIntra_avoids (ht : Equipped g t) {r : TargetSearch}
    (hback : t.toBackend pkt = false) :
    (createIntra s i c t pkt r).Avoids Fault.absent := by
  refine .bind (Except.avoids_orFail fun h => absurd h ht.front) fun front hfront => ?_
  refine .ite (fun _ => Except.avoids_ok _) fun hi =>
    .ite (fun _ => Except.avoids_ok _) fun hf => ?_
  refine .ite (fun hany => ?_) fun _ => Except.avoids_ok _
  -- the packet would go to a backend
  have hto : t.toBackend pkt = true := by
    refine decide_eq_true ⟨?_, ?_, hany⟩
    · simpa using hi
    · rw [Option.orFail_eq_ok.mp hfront]
      simpa using hf
  rw [hback] at hto
  cases hto

/-- A honeypot that is recognised is so by its backend. -/
theorem backHandler_of_identify {r : TargetSearch} (hid : identify s pkt = .ok (some r))
    (hr : r.origin = .hih) : r.backHandler ≠ none := by
  obtain ⟨-, ho, -⟩ | ⟨-, t', -, hf⟩ := identify_cases hid
  · rw [hr] at ho
    cases ho
  · obtain ⟨-, front, -, ⟨ho, -⟩ | ⟨-, -, hihID, back, -, hback, -⟩ | ⟨ho, -⟩⟩ :=
      findTarget_cases hf
    · rw [hr] at ho
      cases ho
    · rw [hback]
      exact Option.some_ne_none back
    · rw [hr] at ho
      cases ho

theorem createAs_avoids {s₀ : State μ} (ht : Equipped g t) {r : TargetSearch}
    (hid : identify s₀ pkt = .ok (some r)) (hback : r.origin = .intra → t.toBackend pkt = false) :
    (createAs g s i c t pkt r).Avoids Fault.absent := by
  unfold createAs
  split
  · exact createExt_avoids ht
  · exact createLih_avoids ht
  · rename_i hr
    exact createHih_avoids ht (backHandler_of_identify hid hr)
  · rename_i hr
    exact createIntra_avoids ht (hback hr)
  · exact Except.avoids_ok _

theorem identify_avoids (hs : s.Equipped g) : (identify s pkt).Avoids Fault.absent := by
  refine .ite (fun _ => Except.avoids_ok _) fun _ => findTargets_avoids (g := g) fun e he => ?_
  exact hs e.1 e.2 (Std.TreeMap.mem_toList_iff_getKey?_eq_some_and_getElem?_eq_some.mp he).2

theorem createConn_avoids (hs : s.Equipped g)
    (hback : ¬(pkt.packet.protocol = IPPROTO_TCP ∧ pkt.packet.tcp.syn = false) →
      ∀ (r : TargetSearch) (t : Target), identify s pkt = .ok (some r) → r.origin = .intra →
        s.targets[r.target]? = some t → t.toBackend pkt = false) :
    (createConn g s pkt now).Avoids Fault.absent := by
  refine .ite (fun _ => Except.avoids_ok _) fun hsyn => .bind (identify_avoids hs) fun r hid => ?_
  cases r with
  | none => exact Except.avoids_ok _
  | some r =>
    refine .bind (Except.avoids_orFail fun _ => rfl) fun t ht => ?_
    replace ht := Option.orFail_eq_ok.mp ht
    refine .bind (createAs_avoids (hs r.target t ht) hid fun hr => ?_) fun r _ => ?_
    · exact hback hsyn r t hid hr ht
    · cases r <;> exact Except.avoids_ok _

theorem assign_avoids {raw : RawPcap} (hs : s.Equipped g)
    (hback : ¬ConnectsBack g s (.packet raw now)) :
    (assign g s raw now).Avoids Fault.absent := by
  unfold assign
  split
  · exact Except.avoids_ok _
  · rename_i pkt hcap
    refine .ite (fun _ => Except.avoids_ok _) fun hwhole => ?_
    refine .bind (.bind (connLookup_avoids hs) fun r hlook => ?_) fun _ _ => Except.avoids_ok _
    cases r with
    | none =>
      refine createConn_avoids hs fun hsyn r t hid hr ht => ?_
      by_contra hto
      rw [Bool.not_eq_false] at hto
      exact hback ⟨pkt, r, t, ⟨hcap, hwhole, hlook⟩, hsyn, hid, hr, ht, hto⟩
    | some r => exact .bind connAt_avoids fun _ _ => Except.avoids_ok _

/-- A packet that connects back follows a backend that the search has not filled in. -/
theorem createConn_toBackend {r : TargetSearch} {front : Handler}
    (hid : identify s pkt = .ok (some r)) (hr : r.origin = .intra)
    (ht : s.targets[r.target]? = some t) (hf : t.frontHandler = some front)
    (hsyn : ¬(pkt.packet.protocol = IPPROTO_TCP ∧ pkt.packet.tcp.syn = false))
    (hto : t.toBackend pkt = true) : createConn g s pkt now = .error .hihSearch := by
  obtain ⟨hi, hfront, hany⟩ := of_decide_eq_true hto
  rw [createConn_intra hid hr ht hf hsyn hany, if_neg]
  rintro (h | h)
  · rw [Option.isNone_iff_eq_none.mp hi] at h
    cases h
  · simp [hf, h] at hfront

theorem step_connectsBack {inp : Input} (hs : s.Equipped g) (hback : ConnectsBack g s inp) :
    step mods g s inp = .error .hihSearch := by
  cases inp with
  | sweep now delay => exact hback.elim
  | packet raw now =>
    obtain ⟨pkt, r, t, ⟨hcap, hwhole, hlook⟩, hsyn, hid, hr, ht, hto⟩ := hback
    obtain ⟨front, hf⟩ := Option.ne_none_iff_exists'.mp (hs r.target t ht).front
    have hassign : assign g s raw now = .error .hihSearch := by
      simp only [assign, hcap, if_neg hwhole, initConn, hlook, Except.ok_bind,
        createConn_toBackend hid hr ht hf hsyn hto, Except.error_bind]
    simp only [step, receive, hassign, Except.error_bind]

/-! ### Rules -/

theorem Target.Picks.of_fixed {t' : Target} {n : HandlerId} (hfix : t'.fixed = t.fixed)
    (h : t.Picks n) : t'.Picks n := by
  have hback := congrArg Target.backHandlers hfix
  change t'.backHandlers = t.backHandlers at hback
  rw [Target.Picks, hback]
  exact h

theorem modDnsControl_avoids {m : ModuleDef} : (modDnsControl i m pkt w).Avoids Fault.absent := by
  refine .ite (fun _ => ?_) fun _ => Except.avoids_ok _
  split
  · exact Except.avoids_ok _
  · refine .bind targetOf_avoids fun t _ => .bind ?_ fun _ _ => Except.avoids_ok _
    refine .bind (Except.avoids_orFail fun _ => rfl) fun _ _ => ?_
    exact .bind (Except.avoids_orFail fun _ => rfl) fun _ _ => Except.avoids_ok _

theorem runModule_avoids {m : ModuleDef} {test use : HandlerId} :
    (runModule mods i pkt m test use w).Avoids Fault.absent := by
  refine .ite (fun _ => ?_) fun _ => ?_
  · exact .bind modDnsControl_avoids fun _ _ => Except.avoids_ok _
  · exact .bind targetOf_avoids fun _ _ => Except.avoids_ok _

theorem decide_avoids {rule : Rule} {use : HandlerId} {d : DecisionHolder} :
    (d.decide mods i pkt rule use w).Avoids Fault.absent := by
  induction rule generalizing use d w with
  | null => exact Except.avoids_ok _
  | node m tb fb iht ihf =>
    refine .bind runModule_avoids fun r _ => ?_
    simp only
    split
    · exact .ite (fun _ => Except.avoids_ok _) fun _ => iht
    · exact Except.avoids_ok _
    · exact .ite (fun _ => Except.avoids_ok _) fun _ => ihf

theorem getDecision_avoids {name : RuleName} {rule : Rule} {d : DecisionHolder} :
    (getDecision mods i pkt name rule d w).Avoids Fault.absent :=
  .ite (fun _ => Except.avoids_ok _) fun _ => .bind decide_avoids fun _ _ => Except.avoids_ok _

theorem getDecisionBackends_avoids {hs : List (HandlerId × Handler)} {d : DecisionHolder} :
    (getDecisionBackends mods i pkt hs d w).Avoids Fault.absent := by
  induction hs generalizing d w with
  | nil => exact Except.avoids_ok _
  | cons e rest ih =>
    refine .bind getDecision_avoids fun r _ => ?_
    exact .ite (fun _ => Except.avoids_ok _) fun _ => .bind ih fun _ _ => Except.avoids_ok _

section Picks

variable {d d' : DecisionHolder} {rule : Rule} {use : HandlerId} {ev : List Event}

/-- The connection is on a target with the fixed part of `t`, for which the modules pick existing
backends. -/
structure Chooses (mods : Modules μ) (t : Target) (w : Work μ) : Prop where
  on : w.st.targets[w.conn.target]?.map Target.fixed = some t.fixed
  picks : ∀ (m : ModuleDef) (a : ModArgs) (mem : μ), a.target.fixed = t.fixed →
    t.Picks a.backendUse → t.Picks (mods m a mem).1.backendUse

theorem Chooses.run {b : Bool} (h : Chooses mods t w) (hrun : RuleRun i b w w') :
    Chooses mods t w' := by
  refine ⟨?_, h.picks⟩
  rw [hrun.framed.targets, Conn.target_of_flow hrun.flow]
  exact h.on

theorem Chooses.target {t' : Target} (h : Chooses mods t w) (ht' : w.st.targetOf w.conn = .ok t') :
    t'.fixed = t.fixed := by
  have hon := h.on
  rw [Option.orFail_eq_ok.mp ht'] at hon
  exact Option.some.inj hon

theorem Chooses.of_fixed {t' : Target} (h : Chooses mods t w) (hfix : t'.fixed = t.fixed) :
    Chooses mods t' w := by
  refine ⟨hfix ▸ h.on, fun m a mem ha hu => ?_⟩
  exact (h.picks m a mem (ha.trans hfix) (hu.of_fixed hfix.symm)).of_fixed hfix

theorem runModule_picks {m : ModuleDef} {test : HandlerId} {o : ModOut} (hw : Chooses mods t w)
    (hu : t.Picks use) (h : runModule mods i pkt m test use w = .ok (o, w')) :
    t.Picks o.backendUse := by
  simp only [runModule] at h
  split_ifs at h
  · obtain ⟨w₁, -, h⟩ := Except.bind_eq_ok.mp h
    cases h
    exact hu
  · obtain ⟨t', ht', h⟩ := Except.bind_eq_ok.mp h
    cases h
    exact hw.picks m ⟨pkt, w.conn, t', test, use⟩ w.st.mod (hw.target ht') hu

/-- A rule leaves the number of an existing backend. -/
theorem decide_picks (hw : Chooses mods t w) (hu : t.Picks use) (hd : t.Picks d.backendUse)
    (h : d.decide mods i pkt rule use w = .ok (d', w')) : t.Picks d'.backendUse := by
  induction rule generalizing use d w with
  | null =>
    cases h
    exact hd
  | node m tb fb iht ihf =>
    obtain ⟨⟨o, w₁⟩, hm, h⟩ := Except.bind_eq_ok.mp h
    have hw₁ := hw.run (runModule_run hm)
    have ho := runModule_picks hw hu hm
    simp only at h
    cases hres : o.result with
    | accept =>
      rw [hres] at h
      simp only at h
      split_ifs at h
      · cases h
        exact ho
      · cases h
        exact hd
      · exact iht hw₁ ho ho h
      · exact iht hw₁ ho hd h
    | defer =>
      rw [hres] at h
      cases h
      exact hd
    | reject =>
      rw [hres] at h
      simp only at h
      split_ifs at h
      · cases h
        exact hd
      · exact ihf hw₁ ho hd h

theorem getDecision_picks {name : RuleName} (hw : Chooses mods t w) (hd : t.Picks d.backendUse)
    (h : getDecision mods i pkt name rule d w = .ok (d', w', ev)) : t.Picks d'.backendUse := by
  simp only [getDecision] at h
  split_ifs at h
  · cases h
    exact hd
  · obtain ⟨⟨d₁, w₁⟩, hdec, h⟩ := Except.bind_eq_ok.mp h
    cases h
    exact decide_picks hw (.inl rfl) hd hdec

theorem getDecisionBackends_picks {hs : List (HandlerId × Handler)} (hw : Chooses mods t w)
    (hmem : ∀ e ∈ hs, e ∈ t.backHandlers.toList) (hd : t.Picks d.backendUse)
    (h : getDecisionBackends mods i pkt hs d w = .ok (d', w', ev)) : t.Picks d'.backendUse := by
  induction hs generalizing d w ev with
  | nil =>
    cases h
    exact hd
  | cons e rest ih =>
    simp only [getDecisionBackends] at h
    obtain ⟨⟨d₁, w₁, ev₁⟩, hdec, h⟩ := Except.bind_eq_ok.mp h
    simp only at h
    split_ifs at h
    · cases h
      -- the low 32 bits of a key name the same entry
      have hcmp : intcmp (e.1 % 2 ^ 32) e.1 = .eq := by
        simp [intcmp, descOn, compareOn]
      have he := (Std.TreeMap.mem_toList_iff_getKey?_eq_some_and_getElem?_eq_some.mp
        (hmem e List.mem_cons_self)).2
      right
      rw [Std.TreeMap.getElem?_congr hcmp, he]
      exact Option.some_ne_none _
    · obtain ⟨⟨d₂, w₂, ev₂⟩, hrest, h⟩ := Except.bind_eq_ok.mp h
      cases h
      have hw₁ := hw.run (getDecision_run (b := true) (fun _ => rfl) hdec)
      have hd₁ := getDecision_picks (d := { d with backendTest := e.1 % 2 ^ 32 }) hw hd hdec
      exact ih hw₁ (fun e he => hmem e (List.mem_cons_of_mem _ he)) hd₁ hrest

theorem evaluatePicker_picks (hw : Chooses mods t w)
    (h : evaluatePicker mods i pkt t w = .ok (d', w', ev)) : t.Picks d'.backendUse := by
  obtain ⟨⟨d₁, w₁, ev₁⟩, hd, h⟩ := Except.bind_eq_ok.mp h
  have hd₁ := getDecision_picks (d := {}) hw (.inl rfl) hd
  simp only at h
  split_ifs at h
  · obtain ⟨back, -, h⟩ := Except.bind_eq_ok.mp h
    obtain ⟨⟨d₂, w₂, ev₂⟩, hd₂, h⟩ := Except.bind_eq_ok.mp h
    cases h
    exact getDecision_picks (hw.run (getDecision_run (b := true) (fun _ => rfl) hd)) hd₁ hd₂
  · cases h
    exact hd₁

theorem evaluatePicker_avoids (hw : Chooses mods t w) :
    (evaluatePicker mods i pkt t w).Avoids Fault.absent := by
  refine .bind getDecision_avoids fun r hr => ?_
  have hpick := getDecision_picks (d := {}) hw (.inl rfl) hr
  refine .ite (fun hacc => ?_) fun _ => Except.avoids_ok _
  refine .bind (Except.avoids_orFail fun h => absurd h (hpick.resolve_left hacc.2)) fun _ _ => ?_
  exact .bind getDecision_avoids fun _ _ => Except.avoids_ok _

/-- The verdict of the rule in charge names an existing backend. -/
theorem evaluate_picks (hw : Chooses mods t w)
    (h : evaluate mods i pkt w = .ok (d', w', ev)) : t.Picks d'.backendUse := by
  obtain ⟨t', ht', h⟩ := Except.bind_eq_ok.mp h
  have hfix := hw.target ht'
  have hw' := hw.of_fixed hfix
  have hback {rule : Rule} {name : RuleName} {d₁ : DecisionHolder} {w₁ : Work μ}
      {ev₁ : List Event} (hd : getDecision mods i pkt name rule {} w = .ok (d₁, w₁, ev₁)) :
      t.Picks d₁.backendUse :=
    getDecision_picks (d := {}) hw (.inl rfl) hd
  split at h
  · obtain ⟨front, -, h⟩ := Except.bind_eq_ok.mp h
    obtain ⟨⟨d₁, w₁, ev₁⟩, hd, h⟩ := Except.bind_eq_ok.mp h
    have hd₁ := hback hd
    simp only [Except.pure_eq_ok, Except.ok.injEq, Prod.mk.injEq] at h
    rw [← h.1]
    split_ifs <;> exact hd₁
  · split_ifs at h
    · exact (evaluatePicker_picks hw' h).of_fixed hfix.symm
    · exact (getDecisionBackends_picks hw' (fun _ he => he) (.inl rfl) h).of_fixed hfix.symm
  · split at h
    · exact hback h
    · obtain ⟨⟨d₁, w₁, ev₁⟩, hd, h⟩ := Except.bind_eq_ok.mp h
      have hd₁ := hback hd
      simp only [Except.pure_eq_ok, Except.ok.injEq, Prod.mk.injEq] at h
      rw [← h.1]
      split_ifs <;> exact hd₁
    · cases h
      exact .inl rfl
  · cases h
    exact .inl rfl

theorem evaluate_avoids (hs : w.st.Equipped g) (hw : Chooses mods t w) :
    (evaluate mods i pkt w).Avoids Fault.absent := by
  refine .bind targetOf_avoids fun t' ht' => ?_
  have hfix := hw.target ht'
  have hw' := hw.of_fixed hfix
  split
  · refine .bind (Except.avoids_orFail fun h => absurd h (hs.targetOf ht').front) fun _ _ => ?_
    exact .bind getDecision_avoids fun _ _ => Except.avoids_ok _
  · exact .ite (fun _ => evaluatePicker_avoids hw') fun _ => getDecisionBackends_avoids
  · split
    · exact getDecision_avoids
    · exact .bind getDecision_avoids fun _ _ => Except.avoids_ok _
    · exact Except.avoids_ok _
  · exact Except.avoids_ok _

end Picks

/-! ### Frames -/

theorem proxyInt2ext_avoids (ht : Equipped g t) :
    (proxyInt2ext g t i c pkt).Avoids Fault.absent := by
  refine .bind (Except.avoids_orFail fun h => absurd h ht.route) fun out hout => ?_
  have haddr := ht.address out (Option.orFail_eq_ok.mp hout)
  refine .bind (.ite (fun _ => Except.avoids_ok _) fun _ => ?_) fun _ _ => Except.avoids_ok _
  split
  · exact Except.avoids_ok _
  · exact Except.avoids_orFail fun h => absurd h haddr

/-- A connection that a high-interaction honeypot has opened knows its backend. -/
def Conn.Backed (c : Conn) : Prop :=
  c.initiator = .hih → c.hih.backHandler ≠ none

theorem proxyExt2int_avoids (ht : Equipped g t) (hc : c.Backed) :
    (proxyExt2int g t i c pkt).Avoids Fault.absent := by
  have hiface {h : Handler} {f : IfaceId → Except Fault (Pkt × List Event)}
      (hf : ∀ out, (f out).Avoids Fault.absent) :
      (h.iface.orFail .iface >>= f).Avoids Fault.absent :=
    .bind (Except.avoids_orFail fun _ => rfl) fun out _ => hf out
  unfold proxyExt2int
  split
  · refine .bind (Except.avoids_orFail fun h => absurd h ht.front) fun h _ => hiface fun _ => ?_
    exact Except.avoids_ok _
  · refine .bind (Except.avoids_orFail fun h => absurd h ht.front) fun h _ => hiface fun _ => ?_
    exact Except.avoids_ok _
  · rename_i hini
    refine .bind (Except.avoids_orFail fun h => absurd h (hc hini)) fun h _ => hiface fun _ => ?_
    exact Except.avoids_ok _
  · exact Except.avoids_ok _

theorem proxyHih2intra_avoids : (proxyHih2intra g i c pkt).Avoids Fault.absent := by
  unfold proxyHih2intra
  split
  · exact .bind (Except.avoids_orFail fun _ => rfl) fun _ _ => Except.avoids_ok _
  · exact Except.avoids_ok _

theorem proxyIntra2hih_avoids : (proxyIntra2hih g i c pkt).Avoids Fault.absent := by
  unfold proxyIntra2hih
  split
  · exact .bind (Except.avoids_orFail fun _ => rfl) fun _ _ => Except.avoids_ok _
  · exact Except.avoids_ok _

theorem forwardExt2hih_avoids : (forwardExt2hih g i c pkt).Avoids Fault.absent := by
  unfold forwardExt2hih
  split
  · exact .bind (Except.avoids_orFail fun _ => rfl) fun _ _ => Except.avoids_ok _
  · exact Except.avoids_ok _

theorem forwardHih2ext_avoids : (forwardHih2ext t i c pkt).Avoids Fault.absent := by
  unfold forwardHih2ext
  split <;> exact Except.avoids_ok _

theorem forwardingLoop_avoids {pkts : List Pkt} :
    (forwardingLoop g i c pkts).Avoids Fault.absent := by
  induction pkts generalizing c with
  | nil => exact Except.avoids_ok _
  | cons current rest ih =>
    refine .ite (fun _ => ?_) fun _ => Except.avoids_ok _
    exact .bind forwardExt2hih_avoids fun _ _ => .bind ih fun _ _ => Except.avoids_ok _

theorem replayPkt_avoids : (replayPkt g i c pkt).Avoids Fault.absent :=
  .ite (fun _ => .bind forwardExt2hih_avoids fun _ _ => Except.avoids_ok _)
    fun _ => Except.avoids_ok _

theorem replayLoop_avoids {de : ℕ} {rest : List Pkt} :
    (replayLoop g i c de pkt rest).Avoids Fault.absent := by
  induction rest generalizing c de pkt with
  | nil =>
    unfold replayLoop
    exact .ite (fun _ => .bind replayPkt_avoids fun _ _ => Except.avoids_ok _)
      fun _ => Except.avoids_ok _
  | cons next rest ih =>
    unfold replayLoop
    refine .ite (fun _ => .bind replayPkt_avoids fun _ _ => ?_) fun _ => Except.avoids_ok _
    exact .bind ih fun _ _ => Except.avoids_ok _

theorem replay_avoids : (replay g i c pkt).Avoids Fault.absent := by
  refine .ite (fun _ => Except.avoids_ok _) fun _ => ?_
  split
  · exact Except.avoids_ok _
  · split
    · exact Except.avoids_error rfl
    · exact replayLoop_avoids

theorem setupRedirection_avoids {use : HandlerId} (ht : Equipped g t) (hpick : t.Picks use) :
    (setupRedirection g s t i c use).Avoids Fault.absent := by
  have hacq {h : Handler} : (acquireTarget g s c h).Avoids Fault.absent := by
    refine .ite (fun _ => .bind lookupPin_avoids fun p _ => ?_) fun _ => Except.avoids_ok _
    cases p with
    | some p => exact .ite (fun _ => Except.avoids_ok _) fun _ => Except.avoids_ok _
    | none => exact Except.avoids_ok _
  have hreset {c : Conn} : (resetLih t i c).Avoids Fault.absent := by
    refine .ite (fun _ => Except.avoids_ok _) fun _ => ?_
    split
    · refine .ite (fun _ => ?_) fun _ => Except.avoids_ok _
      exact .bind (Except.avoids_orFail fun h => absurd h ht.front) fun _ _ => Except.avoids_ok _
    · exact Except.avoids_ok _
  refine .ite (fun _ => Except.avoids_ok _) fun huse => ?_
  refine .bind (Except.avoids_orFail fun h => absurd h (hpick.resolve_left huse)) fun h _ => ?_
  refine .bind hacq fun r _ => ?_
  cases r with
  | none => exact Except.avoids_ok _
  | some r =>
    refine .bind (.bind hreset fun rst _ => .bind forwardingLoop_avoids fun r _ => ?_)
      fun _ _ => Except.avoids_ok _
    obtain ⟨c', evs, found⟩ := r
    cases found <;> exact Except.avoids_ok _

/-! ### `DE_process_packet` -/

theorem act_avoids {d : DecisionHolder} (hs : w.st.Equipped g)
    (hpick : ∀ t, w.st.targets[w.conn.target]? = some t → t.Picks d.backendUse) :
    (act i g d w).Avoids Fault.absent := by
  refine .bind targetOf_avoids fun t ht => ?_
  have hredir := setupRedirection_avoids (s := w.st) (i := i) (c := w.conn) (hs.targetOf ht)
    (hpick t (Option.orFail_eq_ok.mp ht))
  cases d.result with
  | noRule =>
    simp only
    split
    · exact Except.avoids_ok _
    · exact .ite (fun _ => Except.avoids_ok _) fun _ => Except.avoids_ok _
    · exact Except.avoids_ok _
  | defer => exact Except.avoids_ok _
  | accept =>
    simp only
    split
    · exact .ite (fun _ => Except.avoids_ok _) fun _ => Except.avoids_ok _
    · refine .bind hredir fun r _ => ?_
      cases r <;> exact Except.avoids_ok _
    · exact Except.avoids_ok _
    · exact Except.avoids_ok _
  | reject =>
    simp only
    split <;> exact Except.avoids_ok _
  | drop => exact Except.avoids_ok _

/-- The targets of the state are equipped, and the modules pick the backends they have. -/
structure Provided (mods : Modules μ) (g : Globals) (s : State μ) : Prop where
  equipped : s.Equipped g
  picks : PicksExisting mods s.targets

theorem Equipped.of_fixed {t' : Target} (hfix : t'.fixed = t.fixed) (h : Equipped g t) :
    Equipped g t' := by
  have hfront := congrArg Target.frontHandler hfix
  have hroute := congrArg Target.defaultRoute hfix
  change t'.frontHandler = t.frontHandler at hfront
  change t'.defaultRoute = t.defaultRoute at hroute
  exact ⟨hfront ▸ h.front, hroute ▸ h.route, hroute ▸ h.address⟩

theorem Provided.of_fixed (h : Provided mods g s)
    (hfix : ∀ id : TargetId, s'.targets[id]?.map Target.fixed = s.targets[id]?.map Target.fixed) :
    Provided mods g s' := by
  have hold (id : TargetId) (t' : Target) (ht' : s'.targets[id]? = some t') :
      ∃ t, s.targets[id]? = some t ∧ t'.fixed = t.fixed := by
    have hid := hfix id
    rw [ht'] at hid
    obtain ⟨t, ht, heq⟩ := Option.map_eq_some_iff.mp hid.symm
    exact ⟨t, ht, heq.symm⟩
  refine ⟨fun id t' ht' => ?_, fun id t' ht' m a mem ha hu => ?_⟩
  · obtain ⟨t, ht, heq⟩ := hold id t' ht'
    exact (h.equipped id t ht).of_fixed heq
  · obtain ⟨t, ht, heq⟩ := hold id t' ht'
    exact (h.picks id t ht m a mem (ha.trans heq) (hu.of_fixed heq.symm)).of_fixed heq

theorem Provided.chooses (h : Provided mods g w.st) (ht : w.st.targets[w.conn.target]? = some t) :
    Chooses mods t w :=
  ⟨by rw [ht]; rfl, h.picks _ t ht⟩

theorem deProcessPacket_avoids (h : Provided mods g w.st) :
    (deProcessPacket mods i pkt g w).Avoids Fault.absent := by
  cases ht : w.st.targets[w.conn.target]? with
  | none =>
    have htarget : w.st.targetOf w.conn = .error .target := by rw [State.targetOf, ht]; rfl
    rw [deProcessPacket, evaluate, htarget]
    exact Except.avoids_error rfl
  | some t =>
    have hw := h.chooses ht
    refine .bind (evaluate_avoids h.equipped hw) fun r hr => ?_
    obtain ⟨d, w₁, ev⟩ := r
    have hrun := evaluate_run hr
    refine .bind (act_avoids (h.of_fixed hrun.framed.targets).equipped fun t₁ ht₁ => ?_)
      fun _ _ => Except.avoids_ok _
    refine (evaluate_picks hw hr).of_fixed ((hw.run hrun).target ?_)
    rw [State.targetOf, ht₁]
    rfl

/-! ### The dispatch -/

theorem Conn.Backed.rule {b : Bool} (hc : w.conn.Backed) (hrun : RuleRun i b w w') :
    w'.conn.Backed := by
  obtain heq | ⟨h, k, heq⟩ := hrun.conn_cases
  · rw [heq]
    exact hc
  · rw [heq]
    exact hc

theorem deProcessPacket_backed {status : Status} {ev : List Event} (hc : w.conn.Backed)
    (h : deProcessPacket mods i pkt g w = .ok (status, w', ev)) : w'.conn.Backed := by
  obtain ⟨d, w₁, ev₁, ev₂, t, he, -, ha, -⟩ := deProcessPacket_cases h
  have hc₁ := hc.rule (evaluate_run he)
  cases ha with
  | redirect hd hs hr =>
    obtain ⟨h, key, rid, ed, -, -, rfl⟩ := setupRedirection_conn hr
    intro _ hnone
    cases hnone
  | _ => exact hc₁

theorem proxyHih_avoids (hs : w.st.Equipped g) : (proxyHih g i pkt w).Avoids Fault.absent := by
  unfold proxyHih
  split
  · refine .bind targetOf_avoids fun t ht => ?_
    exact .bind (proxyInt2ext_avoids (hs.targetOf ht)) fun _ _ => Except.avoids_ok _
  · exact .bind proxyHih2intra_avoids fun _ _ => Except.avoids_ok _
  · exact Except.avoids_ok _

/-- What `DE_process_packet` leaves behind is still provided with everything. -/
theorem Provided.process {status : Status} {ev : List Event} (h : Provided mods g w.st)
    (hd : deProcessPacket mods i pkt g w = .ok (status, w', ev)) : Provided mods g w'.st :=
  h.of_fixed (deProcessPacket_framed hd).1.targets

theorem dispatchLih_avoids (h : Provided mods g w.st) :
    (dispatchLih mods g i pkt w).Avoids Fault.absent := by
  have hrelay : (relayLih g i pkt w).Avoids Fault.absent := by
    refine .bind targetOf_avoids fun t ht => ?_
    exact .bind (proxyInt2ext_avoids (h.equipped.targetOf ht)) fun _ _ => Except.avoids_ok _
  have hreset : (resetAtWrongState i pkt w).Avoids Fault.absent := by
    refine .ite (fun _ => .bind targetOf_avoids fun t ht => ?_) fun _ => Except.avoids_ok _
    exact .bind (Except.avoids_orFail fun hn => absurd hn (h.equipped.targetOf ht).front)
      fun _ _ => Except.avoids_ok _
  unfold dispatchLih
  split
  · exact hrelay
  · exact hrelay
  · refine .bind targetOf_avoids fun t ht => ?_
    exact .bind (proxyInt2ext_avoids (h.equipped.targetOf ht)) fun _ _ => Except.avoids_ok _
  · refine .bind (deProcessPacket_avoids h) fun r hr => ?_
    obtain ⟨status, w₁, ev⟩ := r
    refine .bind targetOf_avoids fun t ht => ?_
    have ht₁ := (Provided.process (w := { w with conn := noteLihSyn pkt w.conn })
      h hr).equipped.targetOf ht
    cases status with
    | ok => exact .bind (proxyInt2ext_avoids ht₁) fun _ _ => Except.avoids_ok _
    | nok => exact Except.avoids_ok _
  · exact hreset

theorem openHih_avoids (hdeny : g.denyHihInit = 0) (h : Provided mods g w.st) :
    (openHih mods g i pkt w).Avoids Fault.absent := by
  refine .ite (fun hd => absurd hd (by simp [hdeny])) fun _ => ?_
  refine .bind (deProcessPacket_avoids h) fun r hr => ?_
  obtain ⟨status, w₁, ev⟩ := r
  have h₁ := Provided.process (w := { w with conn := w.conn.switchState .control }) h hr
  cases status with
  | ok => exact .bind (proxyHih_avoids h₁.equipped) fun _ _ => Except.avoids_ok _
  | nok => exact Except.avoids_ok _

theorem dispatchHih_avoids (hdeny : g.denyHihInit = 0) (h : Provided mods g w.st) :
    (dispatchHih mods g i pkt w).Avoids Fault.absent := by
  unfold dispatchHih
  split
  · exact .bind replay_avoids fun _ _ => Except.avoids_ok _
  · exact .bind targetOf_avoids fun _ _ => .bind forwardHih2ext_avoids
      fun _ _ => Except.avoids_ok _
  · exact .bind (proxyHih_avoids h.equipped) fun _ _ => Except.avoids_ok _
  · refine .bind (deProcessPacket_avoids h) fun r hr => ?_
    obtain ⟨status, w₁, ev⟩ := r
    cases status with
    | ok =>
      refine .bind targetOf_avoids fun t ht => ?_
      exact .bind (proxyInt2ext_avoids ((h.process hr).equipped.targetOf ht))
        fun _ _ => Except.avoids_ok _
    | nok => exact Except.avoids_ok _
  · exact openHih_avoids hdeny h

theorem dispatchIntra_avoids : (dispatchIntra g i pkt w).Avoids Fault.absent := by
  unfold dispatchIntra
  split
  · exact .bind proxyIntra2hih_avoids fun _ _ => Except.avoids_ok _
  · exact Except.avoids_ok _

theorem dispatchExt_avoids (h : Provided mods g w.st) (hc : w.conn.Backed) :
    (dispatchExt mods g i pkt w).Avoids Fault.absent := by
  have hdecide : (decideExt mods g i pkt w).Avoids Fault.absent := by
    refine .bind (deProcessPacket_avoids h) fun r hr => ?_
    obtain ⟨status, w₁, ev⟩ := r
    refine .bind targetOf_avoids fun t ht => ?_
    have ht₁ := (h.process hr).equipped.targetOf ht
    cases status with
    | ok =>
      exact .bind (proxyExt2int_avoids ht₁ (deProcessPacket_backed hc hr))
        fun _ _ => Except.avoids_ok _
    | nok => exact Except.avoids_ok _
  have hrelay : (relayExt g i pkt w).Avoids Fault.absent := by
    refine .bind targetOf_avoids fun t ht => ?_
    exact .bind (proxyExt2int_avoids (h.equipped.targetOf ht) hc) fun _ _ => Except.avoids_ok _
  unfold dispatchExt
  split
  · exact hdecide
  · exact hdecide
  · exact .bind forwardExt2hih_avoids fun _ _ => Except.avoids_ok _
  · exact hrelay
  · exact hrelay
  · exact Except.avoids_ok _

theorem handle_avoids (hdeny : g.denyHihInit = 0) (h : Provided mods g w.st) (hc : w.conn.Backed) :
    (handle mods g i pkt w).Avoids Fault.absent := by
  refine .ite (fun _ => ?_) fun _ => ?_
  · exact .ite (fun _ => .bind targetOf_avoids fun _ _ => Except.avoids_ok _)
      fun _ => Except.avoids_ok _
  · split
    · exact dispatchLih_avoids h
    · exact dispatchHih_avoids hdeny h
    · exact dispatchIntra_avoids
    · exact dispatchExt_avoids h hc

/-! ### Sweeps -/

theorem releasePin_avoids {tree : PinTree} {k k' : PinKey} :
    (releasePin s tree k k').Avoids Fault.absent := by
  refine .bind lookupPin_avoids fun p _ => ?_
  cases p with
  | none => exact Except.avoids_ok _
  | some p => exact .ite (fun _ => Except.avoids_ok _) fun _ => Except.avoids_ok _

theorem removeConn_avoids : (removeConn s i).Avoids Fault.absent := by
  have hkey {o : Option ConnKey} {f : ConnKey → Except Fault (State μ)}
      (hf : ∀ k, (f k).Avoids Fault.absent) : (o.orFail .connKey >>= f).Avoids Fault.absent :=
    .bind (Except.avoids_orFail fun _ => rfl) fun k _ => hf k
  have hpin {s : State μ} {tree : PinTree} {c : Conn} :
      (releaseConnPin s tree c).Avoids Fault.absent := by
    unfold releaseConnPin
    split
    · exact releasePin_avoids
    · exact Except.avoids_ok _
  have htarget {s : State μ} {c : Conn} : (releaseTargetPin s c).Avoids Fault.absent := by
    unfold releaseTargetPin
    split
    · exact releasePin_avoids
    · exact Except.avoids_error rfl
    · exact Except.avoids_ok _
  have hderegister {c : Conn} : (deregister s c).Avoids Fault.absent := by
    unfold deregister
    split
    · exact hkey fun _ => hkey fun _ => hpin
    · exact hkey fun _ => hkey fun _ => hpin
    · exact hkey fun _ => hkey fun _ => hpin
    · exact hkey fun _ => hkey fun _ => hpin
    · exact hkey fun _ => hkey fun _ => hpin
    · exact Except.avoids_ok _
  exact .bind connAt_avoids fun _ _ => .bind hderegister fun _ _ =>
    .bind htarget fun _ _ => Except.avoids_ok _

theorem clean_avoids {delay : ℤ} : (clean s now delay).Avoids Fault.absent := by
  have hexpired {es : List (ConnKey × ConnId)} : (expired s now delay es).Avoids Fault.absent := by
    induction es with
    | nil => exact Except.avoids_ok _
    | cons e es ih => exact .bind connAt_avoids fun _ _ => .bind ih fun _ _ => Except.avoids_ok _
  have hremove {is : List ConnId} {s : State μ} : (removeAll s is).Avoids Fault.absent := by
    induction is generalizing s with
    | nil => exact Except.avoids_ok _
    | cons i is ih => exact .bind removeConn_avoids fun _ _ => ih
  exact .bind hexpired fun _ _ => .bind hexpired fun _ _ => .bind hexpired fun _ _ => hremove

/-! ### Runs -/

section Runs

variable {targets : Std.TreeMap TargetId Target intcmp} {ifTarget : Std.TreeMap IfaceId TargetId}
  {mem : μ} {ok : State μ → Input → Prop}

theorem Alike.backed {c' : Conn} (h : Alike c c') (hc : c.Backed) : c'.Backed := by
  rw [Alike] at h
  rw [h]
  exact hc

theorem Creates.backed {r : TargetSearch} {role : Role}
    (h : Creates g s i t pkt r now role c s') : c.Backed := by
  obtain ⟨hini, -⟩ := h.start
  intro hhih
  rw [hini] at hhih
  cases h with
  | ext hfront hpin hc => cases hhih
  | lih hfront hpin hc => cases hhih
  | hih hfront hback hpin hc =>
    subst hc
    obtain ⟨-, rfl, -⟩ | ⟨p, -, -, rfl⟩ := acquireSnat_cases hpin
    · exact Option.some_ne_none _
    · exact Option.some_ne_none _
  | hihIntra hback hh hpin hc =>
    subst hc
    obtain ⟨-, rfl⟩ | ⟨k, p, ip, -, rfl⟩ := acquireIntra_cases hpin
    · exact Option.some_ne_none _
    · exact Option.some_ne_none _
  | hihLan hback hh hlan hc =>
    subst hc
    exact Option.some_ne_none _

theorem Effect.backed (h : Effect mods g i pkt w w') (hc : w.conn.Backed) : w'.conn.Backed := by
  have hsub := (alike_submitted pkt w.conn).backed hc
  cases h with
  | same ha => exact ha.backed hc
  | ruled hs he ha => exact ha.backed (Conn.Backed.rule hsub (evaluate_run he))
  | redirected hs he hdec ht hr ha =>
    obtain ⟨h', key, rid, ed, -, -, rfl⟩ := setupRedirection_conn hr
    refine ha.backed fun _ hnone => ?_
    cases hnone

/-- In every run, a connection that a high-interaction honeypot has opened knows its backend. -/
theorem tracked_backed (hrun : Machine.Run (step mods g) ok (boot targets ifTarget mem) tr s) :
    Tracked targets ifTarget (fun _ _ c => c.Backed) tr s := by
  refine connInvariant _ ?_ hrun
  intro tr s hT raw now s₁ i pkt c w ev _ _ hatt hh
  refine (handle_effect hh).backed ?_
  cases hatt with
  | @found pkt₀ c hcap hpkt hlook hc hs => exact hT.holds i c hc
  | created hcap hpkt hlook hid ht hi hcr => exact hcr.backed

theorem step_avoids {inp : Input} (hdeny : g.denyHihInit = 0) (h : Provided mods g s)
    (hback : ∀ (i : ConnId) (c : Conn), s.conns[i]? = some c → c.Backed)
    (hnot : ¬ConnectsBack g s inp) : (step mods g s inp).Avoids Fault.absent := by
  cases inp with
  | sweep now delay => exact .bind clean_avoids fun _ _ => Except.avoids_ok _
  | packet raw now =>
    refine .bind (assign_avoids h.equipped hnot) fun r ha => ?_
    obtain ⟨s₁, o⟩ := r
    obtain ⟨rfl, -⟩ | ⟨i, pkt, c, rfl, hc, hatt⟩ := assign_cases ha
    · exact Except.avoids_ok _
    · refine .bind connAt_avoids fun c' hc' => ?_
      cases hc.symm.trans (Option.orFail_eq_ok.mp hc')
      have hbacked : c.Backed := by
        cases hatt with
        | @found pkt₀ c hcap hpkt hlook hc₀ hs => exact hback i c hc₀
        | created hcap hpkt hlook hid ht hi hcr => exact hcr.backed
      have h₁ : Provided mods g s₁ := h.of_fixed fun id => by rw [hatt.frame.1]
      exact .bind (handle_avoids hdeny h₁ hbacked) fun _ _ => Except.avoids_ok _

end Runs

/-- **Configurations that can be served.** Let every target of a configuration have a front handler
and a default route on an interface with an address, and let the modules pick the backends a target
has. Then the packets of a run that read a missing part are those by which an INTRA host opens a
connection to a backend, and no sweep reads one. -/
theorem served {textWord : String → ℤ} {file : List Block} {setup : Setup}
    (links : IfaceId → Interface) (mem : μ) (hmain : Setup.main textWord file = .ok setup)
    (hequipped : ∀ (id : TargetId) (t : Target), setup.targets[id]? = some t →
      Equipped (setup.globals links) t)
    (hpicks : PicksExisting mods setup.targets) (tr : List Event) (s : State μ)
    (hrun : Machine.Reaches (step mods (setup.globals links)) (setup.start mem) tr s)
    (inp : Input) :
    (step mods (setup.globals links) s inp).Avoids Fault.absent ↔
      ¬ConnectsBack (setup.globals links) s inp := by
  have hstart : Provided mods (setup.globals links) (setup.start mem) := ⟨hequipped, hpicks⟩
  have hT := tracked_backed hrun
  have hs := hstart.of_fixed hT.fixed
  refine ⟨fun havoids hback => ?_, step_avoids (main_denyHihInit _ hmain) hs hT.holds⟩
  have hbad := havoids _ (step_connectsBack hs.equipped hback)
  cases hbad

namespace Sample

/-- The isolated LAN of `honeybrid.conf`: neither a default route nor a front handler. -/
def isolatedLan : List Block :=
  [.link "honeynet2", .module "counter" { function := some "counter" },
    .target none
      [.backend { link := "honeynet2", ip := 101, mac := 8, vlan := 2 }
        (some ⟨⟨"counter", []⟩, []⟩),
       .internal 102 { link := "honeynet2", ip := 101, mac := 8, vlan := 3 } none,
       .internal 103 { link := "honeynet2", ip := 101, mac := 8, vlan := 4 } none]]

/-- A packet of its honeypot to the first internal address. -/
def lanPacket : Input :=
  let raw := udp 0 101 4000 102 80
  .packet { raw with
    len := 64, caplen := 64, frame := { raw.frame with vlan := some (vlanWord 2) } } 0

/-- The test for `Equipped`. -/
def equipped (g : Globals) (t : Target) : Bool :=
  t.frontHandler.isSome && t.defaultRoute.any fun out => (g.links out).ip.isSome

/-- The frame of the step belongs to a connection. -/
def belongs (s : State Unit) : Input → Bool
  | .packet raw _ => (capture s raw).any fun pkt => (connLookup s pkt).passes Option.isSome
  | .sweep .. => false

theorem not_connectsBack {g : Globals} {s : State Unit} {inp : Input} (h : belongs s inp = true) :
    ¬ConnectsBack g s inp := by
  cases inp with
  | sweep now delay => cases h
  | packet raw now =>
    rintro ⟨pkt, r, t, ⟨hcap, -, hlook⟩, -⟩
    simp [belongs, hcap, hlook, Except.passes] at h

theorem equipped_iff {g : Globals} {t : Target} (h : equipped g t = true) : Equipped g t := by
  obtain ⟨hfront, hroute⟩ := Bool.and_eq_true_iff.mp h
  obtain ⟨out, hout, haddr⟩ := (Option.any_eq_true ..).mp hroute
  refine ⟨Option.isSome_iff_ne_none.mp hfront, hout ▸ Option.some_ne_none out, fun out' hout' => ?_⟩
  cases hout.symm.trans hout'
  exact Option.isSome_iff_ne_none.mp haddr

end Sample

/-- An attack on the target of a configuration with a frontend and a default route. -/
theorem served_attack : ∃ setup, Setup.main (fun _ => 0) (Sample.denying []) = .ok setup ∧
    ∃ tr s, Machine.Reaches (step (Sample.modules .accept) (setup.globals Sample.globals.links))
        (setup.start ()) tr s ∧ (s.conns[1]?.any fun c => c.state == .replay) = true ∧
      (step (Sample.modules .accept) (setup.globals Sample.globals.links) s
        Sample.answer).Avoids Fault.absent := by
  have hex : (Setup.main (fun _ => 0) (Sample.denying [])).passes fun setup =>
      (setup.targets.toList.all fun e =>
        Sample.equipped (setup.globals Sample.globals.links) e.2) &&
        (Machine.exec (step (Sample.modules .accept) (setup.globals Sample.globals.links))
          (setup.start ()) Sample.attack).passes
            fun r => (r.1.conns[1]?.any fun c => c.state == .replay) &&
              Sample.belongs r.1 Sample.answer := by
    decide +kernel
  obtain ⟨setup, hmain, hexec⟩ := Except.passes_iff.mp hex
  obtain ⟨hall, hexec⟩ := Bool.and_eq_true_iff.mp hexec
  obtain ⟨tr, s, hrun, htest⟩ := Machine.exists_reaches _ _ _ _ hexec
  obtain ⟨htest, hbelongs⟩ := Bool.and_eq_true_iff.mp htest
  refine ⟨setup, hmain, tr, s, hrun, htest, ?_⟩
  refine (served Sample.globals.links () hmain (fun id t ht => ?_) (fun id t ht m a mem ha hu => hu)
    tr s hrun Sample.answer).mpr ?_
  · obtain ⟨k, -, hmem⟩ :=
      Std.TreeMap.getElem?_eq_some_iff_exists_compare_eq_eq_and_mem_toList.mp ht
    exact Sample.equipped_iff (List.all_eq_true.mp hall (k, t) hmem)
  · exact Sample.not_connectsBack hbelongs

/-- **The isolated LAN cannot be served.** The grammar accepts it, and the first packet of its
honeypot follows the front handler that it does not have. -/
theorem isolatedLan_not_served : ∃ setup, Setup.main (fun _ => 0) Sample.isolatedLan = .ok setup ∧
    step (Sample.modules .accept) (setup.globals Sample.globals.links) (setup.start ())
      Sample.lanPacket = .error .frontHandler := by
  have hex : (Setup.main (fun _ => 0) Sample.isolatedLan).passes fun setup =>
      match step (Sample.modules .accept) (setup.globals Sample.globals.links) (setup.start ())
        Sample.lanPacket with
      | .error e => e == .frontHandler
      | .ok _ => false := by
    decide +kernel
  obtain ⟨setup, hmain, htest⟩ := Except.passes_iff.mp hex
  refine ⟨setup, hmain, ?_⟩
  cases hstep : step (Sample.modules .accept) (setup.globals Sample.globals.links) (setup.start ())
      Sample.lanPacket with
  | error e =>
    rw [hstep] at htest
    rw [beq_iff_eq.mp htest]
  | ok r =>
    rw [hstep] at htest
    cases htest

end Honeybrid
