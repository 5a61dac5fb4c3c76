import Honeybrid.Serving
import Honeybrid.BackendIds

/-!
# References of connections under management

A connection keeps pointers to its target, its backend and its INTRA host. The RPC server removes
targets and backends while packets are processed, and does not look at the connections. It releases
twice what it removes, and it releases the backends and INTRA handlers that it has just registered.
The pointers stay good along the runs in which the RPC server finds nothing to remove and no target
to register a handler with, and in which the servers of `dns_control` are on interfaces that exist:
`add_intra_handler` refuses the others, and the module switches the connection all the same.

## Main definitions

* `Command`, `manage`: the steps of the program and the operations of the RPC server.
* `Refers`: the pointers of a connection lead into the tables.
* `Spared`: an operation of the RPC server finds nothing that it would release wrongly.

## Main results

* `Anchored.step`, `Anchored.manage`: packets, sweeps and operations keep the pointers good.
* `corrupt_of_not_spared`: an operation that is not spared leaves released memory behind.
* `references_kept`: the pointers are good in every interleaving of spared operations.
-/

namespace Honeybrid

variable {μ : Type} {mods : Modules μ} {g : Globals} {s s' s₁ : State μ} {i : ConnId} {pkt : Pkt}
  {w w' : Work μ} {tr out ev : List Event} {c c' : Conn} {t : Target} {inp : Input} {now : ℤ}

/-! ### Operations -/

/-- The program with the counter of targets. Its memory is corrupt once an object has been released
that is still in a table, or for the second time. -/
structure Managed (μ : Type) where
  st : State μ
  targetCounter : ℕ
  corrupt : Bool := false

/-- A step of the program, or an operation of the RPC server with parameters that can be read. A
target may come with its default route: the interface, the address of the router, and the source
address. An INTRA handler comes without the address it stands for, which `rpc_add_intra` does not
read. -/
inductive Command
  | engine (inp : Input)
  | addTarget (route : Option (IfaceId × MacAddr × IpAddr))
  | removeTarget (targetID : TargetId)
  | addBackend (targetID : TargetId) (h : Handler)
  | removeBackend (targetID : TargetId) (backendID : HandlerId)
  | addIntra (targetID : TargetId) (h : Handler)
  | removeIntra (targetID : TargetId) (intraID : HandlerId)

/-- What ends the program: a step follows a bad pointer, an interface is left with a target that has
been freed, an address that was not passed on is compared with another one, or the program goes on
with corrupt memory. -/
inductive ManageFault
  | engine (f : Fault)
  | freedTarget
  | nullAddress
  | corrupt
  deriving DecidableEq, Repr

/-- The target behind a number is changed, if there is one. -/
def State.updateTarget (s : State μ) (targetID : TargetId) (f : Target → Target) : State μ :=
  match s.targets[targetID]? with
  | some t => { s with targets := s.targets.insert targetID (f t) }
  | none => s

/-- The call of `add_target` by `rpc_add_target`. An interface is the default route of one target.
When the next number is taken, the interface is left with a target that has been freed. -/
def rpcAddTarget (m : Managed μ) (route : Option (IfaceId × MacAddr × IpAddr)) :
    Except ManageFault (Managed μ) :=
  match route with
  | none =>
    .ok { m with
          st := { m.st with targets := (addTarget m.st.targets m.targetCounter {}).1 }
          targetCounter := m.targetCounter + 1 }
  | some (iface, mac, src) =>
    if m.st.ifTarget[iface]?.isSome then .ok m
    else
      match addTarget m.st.targets m.targetCounter
        { defaultRoute := some iface, defaultRouteIp := some src, defaultRouteMac := mac } with
      | (targets, .ok) =>
        .ok { m with
              st := { m.st with
                targets, ifTarget := m.st.ifTarget.insert iface (m.targetCounter + 1) }
              targetCounter := m.targetCounter + 1 }
      | (_, .nok) => .error .freedTarget

/-- The call of `add_intra_handler` by the RPC server. Without an address the handler is listed, and
entered under the null address, if the tree is empty; the search in another tree compares the null
address. Then the handler is released. -/
def rpcAddIntra (m : Managed μ) (targetID : TargetId) (h : Handler) :
    Except ManageFault (Managed μ) :=
  match m.st.targets[targetID]? with
  | none => .ok m
  | some t =>
    if t.intraHandlers.isEmpty then
      .ok { m with
            st := m.st.updateTarget targetID fun t =>
              { t with intraHandlersList := t.intraHandlersList ++ [h] }
            corrupt := true }
    else .error .nullAddress

variable (mods g) in
/-- The steps and the operations. The RPC server ignores the numbers zero when it removes. What it
removes is released by its table and by the function of `management.c`, and a backend that it has
registered is released by `rpc_add_backend`. -/
def manage (m : Managed μ) (cmd : Command) : Except ManageFault (Managed μ × List Event) :=
  if m.corrupt then .error .corrupt
  else
    match cmd with
    | .engine inp =>
      match step mods g m.st inp with
      | .ok (st, out) => .ok ({ m with st }, out)
      | .error f => .error (.engine f)
    | .addTarget route => do
      let m ← rpcAddTarget m route
      return (m, [])
    | .removeTarget targetID =>
      if targetID = 0 then .ok (m, [])
      else
        let (st, status) := removeTarget m.st targetID
        .ok ({ m with st, corrupt := status == .ok }, [])
    | .addBackend targetID h =>
      .ok ({ m with
              st := m.st.updateTarget targetID fun t => addBackHandler t h
              corrupt := m.st.targets[targetID]?.isSome }, [])
    | .removeBackend targetID backendID =>
      if targetID = 0 ∨ backendID = 0 then .ok (m, [])
      else
        .ok ({ m with
                st := m.st.updateTarget targetID fun t => (removeBackHandler t backendID).1
                corrupt := m.st.targets[targetID]?.any fun t =>
                  (removeBackHandler t backendID).2 == .ok }, [])
    | .addIntra targetID h => do
      let m ← rpcAddIntra m targetID h
      return (m, [])
    | .removeIntra targetID intraID =>
      if targetID = 0 ∨ intraID = 0 then .ok (m, [])
      else
        .ok ({ m with
                st := m.st.updateTarget targetID fun t => (removeIntraHandler t intraID).1
                corrupt := m.st.targets[targetID]?.any fun t =>
                  t.intraHandlersList.any fun h => h.id == intraID }, [])

/-! ### References -/

/-- The pointers of the connection lead to a target of the table, to a backend of this target and to
one of its INTRA handlers. -/
def Refers (s : State μ) (c : Conn) : Prop :=
  ∃ t, s.targets[c.target]? = some t ∧
    (∀ h, c.hih.backHandler = some h → ∃ hihID : HandlerId, t.backHandlers[hihID]? = some h) ∧
    ∀ h, c.intraHandler = some h → h ∈ t.intraHandlersList

/-- The INTRA handlers that a target finds by address are in its list. -/
def Target.Listed (t : Target) : Prop :=
  ∀ (ip : IpAddr) (h : Handler), t.intraHandlers[ip]? = some h → h ∈ t.intraHandlersList

/-- The pointers of all connections are good, and the targets list their INTRA handlers. -/
structure Anchored (s : State μ) : Prop where
  listed : ∀ (id : TargetId) (t : Target), s.targets[id]? = some t → t.Listed
  refers : ∀ (i : ConnId) (c : Conn), s.conns[i]? = some c → Refers s c

/-- The servers of the modules `dns_control` in the rule are on interfaces that exist. -/
def Rule.dnsKnown : Rule → Bool
  | .null => true
  | .node m trueBranch falseBranch =>
    (m.function != .dnsControl || m.dnsServer.all fun d => d.iface.isSome) &&
      trueBranch.dnsKnown && falseBranch.dnsKnown

/-- The rules of a target and its handlers. -/
def Target.rules (t : Target) : List Rule :=
  t.decisionRules ++ t.controlRule :: t.intraRule :: t.intraHandlersList.map Handler.rule

/-- The servers of `dns_control` in the rules of all targets are on interfaces that exist. -/
def State.DnsKnown (s : State μ) : Prop :=
  ∀ (id : TargetId) (t : Target), s.targets[id]? = some t → ∀ r ∈ t.rules, r.dnsKnown = true

/-- The operation of the RPC server finds nothing to remove, no target to register a handler with,
and a number for the target it adds; and a step finds the servers of `dns_control` on interfaces
that exist. -/
def Spared (m : Managed μ) : Command → Prop
  | .engine _ => m.st.DnsKnown
  | .addTarget route => ∀ iface mac src, route = some (iface, mac, src) →
      m.st.ifTarget[iface]? = none → m.st.targets[m.targetCounter + 1]? = none
  | .removeTarget targetID => targetID ≠ 0 → m.st.targets[targetID]? = none
  | .addBackend targetID _ | .addIntra targetID _ => m.st.targets[targetID]? = none
  | .removeBackend targetID backendID => ¬(targetID = 0 ∨ backendID = 0) →
      ∀ t, m.st.targets[targetID]? = some t → t.backHandlers[backendID]? = none
  | .removeIntra targetID intraID => ¬(targetID = 0 ∨ intraID = 0) →
      ∀ t, m.st.targets[targetID]? = some t → ∀ h ∈ t.intraHandlersList, h.id ≠ intraID

/-! ### Rules -/

/-- The tables of `s'` have the backends and at least the INTRA handlers of those of `s`. -/
def Grows (s s' : State μ) : Prop :=
  ∀ (id : TargetId) (t : Target), s.targets[id]? = some t →
    ∃ t', s'.targets[id]? = some t' ∧ t'.backHandlers = t.backHandlers ∧
      t.intraHandlersList ⊆ t'.intraHandlersList

theorem Grows.of_eq (h : s'.targets = s.targets) : Grows s s' :=
  fun id t ht => ⟨t, by rw [h, ht], rfl, List.Subset.refl _⟩

theorem Grows.trans (h : Grows s s₁) (h' : Grows s₁ s') : Grows s s' := by
  intro id t ht
  obtain ⟨t₁, ht₁, hb₁, hl₁⟩ := h id t ht
  obtain ⟨t', ht', hb', hl'⟩ := h' id t₁ ht₁
  exact ⟨t', ht', hb'.trans hb₁, fun _ hx => hl' (hl₁ hx)⟩

theorem Refers.mono (h : Refers s c) (hg : Grows s s') : Refers s' c := by
  obtain ⟨t, ht, hb, hi⟩ := h
  obtain ⟨t', ht', hb', hl⟩ := hg _ t ht
  exact ⟨t', ht', fun h hh => hb' ▸ hb h hh, fun h hh => hl (hi h hh)⟩

/-- The pointers of a connection, and the number of its target. -/
theorem Refers.congr (h : Refers s c) (ht : c'.target = c.target)
    (hb : c'.hih.backHandler = c.hih.backHandler) (hi : c'.intraHandler = c.intraHandler) :
    Refers s c' := by
  unfold Refers
  rw [ht, hb, hi]
  exact h

theorem Alike.refers (ha : Alike c c') (h : Refers s c) : Refers s c' := by
  rw [Alike] at ha
  rw [ha]
  exact h.congr rfl rfl rfl

/-- An INTRA handler that is added is listed. -/
theorem Target.Listed.addIntra (ht : t.Listed) (ip : IpAddr) (h : Handler) :
    (addIntraHandler t ip h).1.Listed := by
  unfold addIntraHandler
  split_ifs with hrefused
  · exact ht
  · intro ip' h' hlook
    simp only [Std.TreeMap.getElem?_insert] at hlook
    split_ifs at hlook
    · cases hlook
      exact List.mem_append_right _ (List.mem_singleton_self _)
    · exact List.mem_append_left _ (ht ip' h' hlook)

theorem addIntraHandler_grows (t : Target) (ip : IpAddr) (h : Handler) :
    (addIntraHandler t ip h).1.backHandlers = t.backHandlers ∧
      t.intraHandlersList ⊆ (addIntraHandler t ip h).1.intraHandlersList := by
  unfold addIntraHandler
  split_ifs
  · exact ⟨rfl, List.Subset.refl _⟩
  · exact ⟨rfl, fun _ => List.mem_append_left _⟩

/-- A handler on an interface that exists is listed once `mod_dns_control` has looked for it. -/
theorem dnsHandler_mem (ht : t.Listed) {ip : IpAddr} {d : DnsServer} (hd : d.iface.isSome = true) :
    (dnsHandler t ip d).2 ∈ (dnsHandler t ip d).1.intraHandlersList := by
  unfold dnsHandler
  split
  · rename_i h hlook
    exact ht ip h hlook
  · rename_i hlook
    have hadd : ¬(d.iface.isNone = true ∨ t.intraHandlers[ip]?.isSome = true) := by
      simp [hlook, Option.isSome_iff_ne_none.mp hd]
    simp only [addIntraHandler, if_neg hadd]
    exact List.mem_append_right _ (List.mem_singleton_self _)

theorem dnsHandler_listed (ht : t.Listed) (ip : IpAddr) (d : DnsServer) :
    (dnsHandler t ip d).1.Listed := by
  unfold dnsHandler
  split
  · exact ht
  · exact ht.addIntra ip _

theorem dnsHandler_grows (t : Target) (ip : IpAddr) (d : DnsServer) :
    (dnsHandler t ip d).1.backHandlers = t.backHandlers ∧
      t.intraHandlersList ⊆ (dnsHandler t ip d).1.intraHandlersList := by
  unfold dnsHandler
  split
  · exact ⟨rfl, List.Subset.refl _⟩
  · exact addIntraHandler_grows t ip _

/-- The targets that list their INTRA handlers, and the connection with good pointers, while its
packet is processed. -/
structure Holds (w : Work μ) : Prop where
  listed : ∀ (id : TargetId) (t : Target), w.st.targets[id]? = some t → t.Listed
  refers : Refers w.st w.conn

/-- A change of one target that lets it grow. -/
theorem grows_insert {id : TargetId} {t t' : Target} (ht : s.targets[id]? = some t)
    (hb : t'.backHandlers = t.backHandlers) (hl : t.intraHandlersList ⊆ t'.intraHandlersList) :
    Grows s { s with targets := s.targets.insert id t' } := by
  intro id₀ t₀ ht₀
  simp only [Std.TreeMap.getElem?_insert]
  split_ifs with hid
  · rw [← Std.TreeMap.getElem?_congr hid, ht] at ht₀
    cases ht₀
    exact ⟨t', rfl, hb, hl⟩
  · exact ⟨t₀, ht₀, rfl, List.Subset.refl _⟩

theorem grows_step {b : Bool} (h : RuleStep i b w w') : Grows w.st w'.st := by
  cases h with
  | mem m => exact .of_eq rfl
  | dns hb ht hs =>
    obtain ⟨hback, hlist⟩ := dnsHandler_grows _ _ _
    refine (grows_insert ht hback hlist).trans (.of_eq ?_)
    obtain ⟨k, -, hs⟩ := Except.bind_eq_ok.mp hs
    obtain ⟨k', -, hs⟩ := Except.bind_eq_ok.mp hs
    cases hs
    rfl

theorem RuleRun.grows {b : Bool} (h : RuleRun i b w w') : Grows w.st w'.st := by
  induction h with
  | refl => exact .of_eq rfl
  | tail _ hstep ih => exact ih.trans (grows_step hstep)

theorem modDnsControl_holds {m : ModuleDef} (hw : Holds w)
    (hm : ∀ d, m.dnsServer = some d → d.iface.isSome = true)
    (h : modDnsControl i m pkt w = .ok w') : Holds w' := by
  simp only [modDnsControl] at h
  split_ifs at h
  · split at h
    · cases h
      exact hw
    · rename_i d hd
      obtain ⟨t, ht, h⟩ := Except.bind_eq_ok.mp h
      obtain ⟨⟨s, c⟩, hs, h⟩ := Except.bind_eq_ok.mp h
      cases h
      obtain ⟨intKey, -, hs⟩ := Except.bind_eq_ok.mp hs
      obtain ⟨extKey, -, hs⟩ := Except.bind_eq_ok.mp hs
      cases hs
      have ht := Option.orFail_eq_ok.mp ht
      have hlisted := hw.listed _ t ht
      refine ⟨fun id t' ht' => ?_, ?_⟩
      · simp only [insertIntra, Std.TreeMap.getElem?_insert] at ht'
        split_ifs at ht'
        · cases ht'
          exact dnsHandler_listed hlisted _ d
        · exact hw.listed id t' ht'
      · obtain ⟨t₀, ht₀, hback, -⟩ := hw.refers
        cases ht.symm.trans ht₀
        refine ⟨(dnsHandler t pkt.packet.daddr d).1, by simp [insertIntra], fun h hh => ?_,
          fun h hh => ?_⟩
        · rw [(dnsHandler_grows t pkt.packet.daddr d).1]
          exact hback h hh
        · cases hh
          exact dnsHandler_mem hlisted (hm d hd)
  · cases h
    exact hw

theorem Holds.mem (hw : Holds w) (mem : μ) : Holds { w with st := { w.st with mod := mem } } :=
  ⟨hw.listed, hw.refers⟩

theorem runModule_holds {m : ModuleDef} {test use : HandlerId} {o : ModOut} (hw : Holds w)
    (hm : m.function = .dnsControl → ∀ d, m.dnsServer = some d → d.iface.isSome = true)
    (h : runModule mods i pkt m test use w = .ok (o, w')) : Holds w' := by
  simp only [runModule] at h
  split_ifs at h with hf
  · obtain ⟨w₁, hdns, h⟩ := Except.bind_eq_ok.mp h
    cases h
    exact modDnsControl_holds hw (hm hf) hdns
  · obtain ⟨t, -, h⟩ := Except.bind_eq_ok.mp h
    cases h
    exact hw.mem _

theorem dnsKnown_node {m : ModuleDef} {tb fb : Rule} (h : (Rule.node m tb fb).dnsKnown = true) :
    (m.function = .dnsControl → ∀ d, m.dnsServer = some d → d.iface.isSome = true) ∧
      tb.dnsKnown = true ∧ fb.dnsKnown = true := by
  simp only [Rule.dnsKnown, Bool.and_eq_true, Bool.or_eq_true, bne_iff_ne] at h
  obtain ⟨⟨hm, htb⟩, hfb⟩ := h
  refine ⟨fun hf d hd => ?_, htb, hfb⟩
  have hall := hm.resolve_left (not_not.mpr hf)
  rw [hd] at hall
  exact hall

/-- A rule keeps the pointers good. -/
theorem decide_holds {rule : Rule} {use : HandlerId} {d d' : DecisionHolder} (hw : Holds w)
    (hr : rule.dnsKnown = true) (h : d.decide mods i pkt rule use w = .ok (d', w')) : Holds w' := by
  induction rule generalizing use d w with
  | null =>
    cases h
    exact hw
  | node m tb fb iht ihf =>
    obtain ⟨hm, htb, hfb⟩ := dnsKnown_node hr
    obtain ⟨⟨o, w₁⟩, hmod, h⟩ := Except.bind_eq_ok.mp h
    have hw₁ := runModule_holds hw hm hmod
    simp only at h
    cases hres : o.result with
    | accept =>
      rw [hres] at h
      simp only at h
      split_ifs at h
      · cases h
        exact hw₁
      · cases h
        exact hw₁
      · exact iht hw₁ htb h
      · exact iht hw₁ htb h
    | defer =>
      rw [hres] at h
      cases h
      exact hw₁
    | reject =>
      rw [hres] at h
      simp only at h
      split_ifs at h
      · cases h
        exact hw₁
      · exact ihf hw₁ hfb h

section Evaluation

variable {d d' : DecisionHolder} {rule : Rule}

theorem getDecision_holds {name : RuleName} (hw : Holds w) (hr : rule.dnsKnown = true)
    (h : getDecision mods i pkt name rule d w = .ok (d', w', ev)) : Holds w' := by
  simp only [getDecision] at h
  split_ifs at h
  · cases h
    exact hw
  · obtain ⟨⟨d₁, w₁⟩, hdec, h⟩ := Except.bind_eq_ok.mp h
    cases h
    exact decide_holds hw hr hdec

theorem getDecisionBackends_holds {hs : List (HandlerId × Handler)} (hw : Holds w)
    (hr : ∀ e ∈ hs, e.2.rule.dnsKnown = true)
    (h : getDecisionBackends mods i pkt hs d w = .ok (d', w', ev)) : Holds w' := by
  induction hs generalizing d w ev with
  | nil =>
    cases h
    exact hw
  | cons e rest ih =>
    obtain ⟨⟨d₁, w₁, ev₁⟩, hdec, h⟩ := Except.bind_eq_ok.mp h
    have hw₁ := getDecision_holds hw (hr e List.mem_cons_self) hdec
    simp only at h
    split_ifs at h
    · cases h
      exact hw₁
    · obtain ⟨⟨d₂, w₂, ev₂⟩, hrest, h⟩ := Except.bind_eq_ok.mp h
      cases h
      exact ih hw₁ (fun e he => hr e (List.mem_cons_of_mem _ he)) hrest

theorem mem_rules_back {hihID : HandlerId} {back : Handler}
    (h : t.backHandlers[hihID]? = some back) : back.rule ∈ t.rules := by
  obtain ⟨k, -, hmem⟩ :=
    Std.TreeMap.getElem?_eq_some_iff_exists_compare_eq_eq_and_mem_toList.mp h
  simp only [Target.rules, Target.decisionRules, List.mem_append, List.mem_cons, List.mem_map]
  exact .inl (.inr (.inr ⟨(k, back), hmem, rfl⟩))

theorem evaluate_holds (hw : Holds w) (hdns : w.st.DnsKnown)
    (h : evaluate mods i pkt w = .ok (d', w', ev)) : Holds w' := by
  obtain ⟨t, ht, h⟩ := Except.bind_eq_ok.mp h
  have ht := Option.orFail_eq_ok.mp ht
  have hknown := hdns _ t ht
  split at h
  · obtain ⟨front, hf, h⟩ := Except.bind_eq_ok.mp h
    obtain ⟨⟨d₁, w₁, ev₁⟩, hd, h⟩ := Except.bind_eq_ok.mp h
    have hw₁ := getDecision_holds hw
      (hknown front.rule
        (by simp [Target.rules, Target.decisionRules, Option.orFail_eq_ok.mp hf])) hd
    simp only [Except.pure_eq_ok, Except.ok.injEq, Prod.mk.injEq] at h
    rwa [← h.2.1]
  · split_ifs at h
    · obtain ⟨⟨d₁, w₁, ev₁⟩, hd, h⟩ := Except.bind_eq_ok.mp h
      have hw₁ := getDecision_holds hw
        (hknown t.backPicker (by simp [Target.rules, Target.decisionRules])) hd
      simp only at h
      split_ifs at h
      · obtain ⟨back, hb, h⟩ := Except.bind_eq_ok.mp h
        obtain ⟨⟨d₂, w₂, ev₂⟩, hd₂, h⟩ := Except.bind_eq_ok.mp h
        cases h
        exact getDecision_holds hw₁
          (hknown _ (mem_rules_back (Option.orFail_eq_ok.mp hb))) hd₂
      · cases h
        exact hw₁
    · refine getDecisionBackends_holds hw (fun e he => hknown _ ?_) h
      have hback := (Std.TreeMap.mem_toList_iff_getKey?_eq_some_and_getElem?_eq_some.mp he).2
      exact mem_rules_back hback
  · split at h
    · exact getDecision_holds hw (hknown _ (by simp [Target.rules])) h
    · obtain ⟨⟨d₁, w₁, ev₁⟩, hd, h⟩ := Except.bind_eq_ok.mp h
      simp only [Except.pure_eq_ok, Except.ok.injEq, Prod.mk.injEq] at h
      rw [← h.2.1]
      refine getDecision_holds hw (hknown _ ?_) hd
      cases hi : w.conn.intraHandler with
      | none => simp [Target.rules]
      | some intra =>
        obtain ⟨t₀, ht₀, -, hlist⟩ := hw.refers
        cases ht.symm.trans ht₀
        have hmem := hlist intra hi
        simp only [Target.rules, List.mem_append, List.mem_cons, List.mem_map]
        exact .inr (.inr (.inr ⟨intra, hmem, rfl⟩))
    · cases h
      exact hw
  · cases h
    exact hw

end Evaluation

/-! ### Packets -/

theorem setupRedirection_targets {use : HandlerId}
    (hr : setupRedirection g s t i c use = .ok (some (s', c', ev))) : s'.targets = s.targets := by
  obtain ⟨h, s₁, c₁, -, -, ha, rfl, -⟩ := setupRedirection_cases hr
  obtain ⟨-, ⟨-, rfl, -⟩ | ⟨-, p, htake, -⟩⟩ := acquireTarget_cases ha
  · rfl
  · exact htake.kept.targets

/-- The dispatch of a packet keeps the pointers good, and the tables grow. -/
theorem Effect.holds (h : Effect mods g i pkt w w') (hw : Holds w) (hdns : w.st.DnsKnown) :
    Holds w' ∧ Grows w.st w'.st := by
  have hsub : Holds ⟨w.st, w.conn.submitted pkt⟩ :=
    ⟨hw.listed, (alike_submitted pkt w.conn).refers hw.refers⟩
  cases h with
  | same ha => exact ⟨⟨hw.listed, ha.refers hw.refers⟩, .of_eq rfl⟩
  | ruled hs he ha =>
    have hw₁ := evaluate_holds hsub hdns he
    exact ⟨⟨hw₁.listed, ha.refers hw₁.refers⟩, (evaluate_run he).grows⟩
  | @redirected d w₁ ev ev' t s₂ c₂ c hs he hdec ht hr ha =>
    have hw₁ := evaluate_holds hsub hdns he
    have htargets := setupRedirection_targets hr
    refine ⟨⟨fun id t ht => hw₁.listed id t (htargets ▸ ht), ha.refers ?_⟩,
      (evaluate_run he).grows.trans (.of_eq htargets)⟩
    obtain ⟨back, key, rid, ed, hback, -, rfl⟩ := setupRedirection_conn hr
    obtain ⟨t₀, ht₀, -, hintra⟩ := hw₁.refers
    cases ht.symm.trans ht₀
    refine ⟨t, htargets ▸ ht, fun h hh => ?_, hintra⟩
    cases hh
    exact ⟨d.backendUse, hback⟩

/-- A connection is created with good pointers. -/
theorem Creates.refers {r : TargetSearch} {role : Role} (hlisted : t.Listed)
    (ht : s.targets[r.target]? = some t)
    (hsearch : role = .hih → ∀ back, r.backHandler = some back → ∃ hihID : HandlerId,
      t.backHandlers[hihID]? = some back)
    (h : Creates g s i t pkt r now role c s') : Refers s c := by
  cases h with
  | ext hfront hpin hc =>
    subst hc
    exact ⟨t, ht, fun h hh => (by cases hh), fun h hh => (by cases hh)⟩
  | lih hfront hpin hc =>
    subst hc
    obtain ⟨-, rfl, -⟩ | ⟨p, -, -, rfl⟩ := acquireSnat_cases hpin
    · exact ⟨t, ht, fun h hh => (by cases hh), fun h hh => (by cases hh)⟩
    · exact ⟨t, ht, fun h hh => (by cases hh), fun h hh => (by cases hh)⟩
  | hih hfront hback hpin hc =>
    subst hc
    obtain ⟨-, rfl, -⟩ | ⟨p, -, -, rfl⟩ := acquireSnat_cases hpin
    · exact ⟨t, ht, fun h hh => (by cases hh; exact hsearch rfl _ hback), fun h hh => (by cases hh)⟩
    · exact ⟨t, ht, fun h hh => (by cases hh; exact hsearch rfl _ hback), fun h hh => (by cases hh)⟩
  | hihIntra hback hh hpin hc =>
    have hintra := hlisted _ _ hh
    subst hc
    obtain ⟨-, rfl⟩ | ⟨k, p, ip, -, rfl⟩ := acquireIntra_cases hpin
    · exact ⟨t, ht, fun h hh => (by cases hh; exact hsearch rfl _ hback),
        fun h hh => (by cases hh; exact hintra)⟩
    · exact ⟨t, ht, fun h hh => (by cases hh; exact hsearch rfl _ hback),
        fun h hh => (by cases hh; exact hintra)⟩
  | hihLan hback hh hlan hc =>
    subst hc
    exact ⟨t, ht, fun h hh => (by cases hh; exact hsearch rfl _ hback), fun h hh => (by cases hh)⟩

theorem Attributed.refers {raw : RawPcap} (hs : Anchored s)
    (h : Attributed g s raw now s₁ i pkt c) : Refers s c := by
  cases h with
  | @found pkt₀ c hcap hpkt hlook hc hs₁ => exact (hs.refers i c hc).congr rfl rfl rfl
  | @created pkt₀ r t c hcap hpkt hlook hid ht hi hcr =>
    have hrefers : Refers { s with cId := s.cId + 1 } c := by
      refine hcr.refers (hs.listed _ t ht) ht fun hhih back hback => ?_
      obtain ⟨-, ho, -⟩ | ⟨-, t', ht', hf⟩ := identify_cases hid
      · rw [ho] at hhih
        cases hhih
      · cases ht.symm.trans ht'
        obtain ⟨-, front, -, ⟨ho, -⟩ | ⟨-, -, hihID, back', hb, hr, -⟩ | ⟨-, hnone⟩⟩ :=
          findTarget_cases hf
        · rw [ho] at hhih
          cases hhih
        · cases hr.symm.trans hback
          exact ⟨hihID, hb⟩
        · rw [hnone] at hback
          cases hback
    exact hrefers

/-- A packet or a sweep keeps the pointers good, and the tables grow. -/
theorem Anchored.step (hs : Anchored s) (hdns : s.DnsKnown)
    (h : Honeybrid.step mods g s inp = .ok (s', out)) : Anchored s' ∧ Grows s s' := by
  obtain ⟨hq, -⟩ | ⟨raw, now, s₁, i, pkt, c, w, ev, rfl, -, -, hatt, hh, rfl, -⟩ := step_cases h
  · refine ⟨⟨fun id t ht => hs.listed id t (hq.targets ▸ ht), fun i c hc => ?_⟩, .of_eq hq.targets⟩
    exact (hs.refers i c (hq.conns i c hc)).mono (.of_eq hq.targets)
  · have htargets := hatt.frame.1
    have hdns₁ : s₁.DnsKnown := fun id t ht => hdns id t (htargets ▸ ht)
    have hw₀ : Holds ⟨s₁, c⟩ :=
      ⟨fun id t ht => hs.listed id t (htargets ▸ ht), (hatt.refers hs).mono (.of_eq htargets)⟩
    obtain ⟨hw, hgrows⟩ := (handle_effect hh).holds hw₀ hdns₁
    have hgrows' : Grows s (w.st.withConn i w.conn) :=
      (Grows.of_eq htargets).trans (hgrows.trans (.of_eq rfl))
    refine ⟨⟨hw.listed, fun j c' hc' => ?_⟩, hgrows'⟩
    by_cases hij : i = j
    · subst hij
      rw [withConn_conns, Std.TreeMap.lookup_insert, if_pos rfl] at hc'
      cases hc'
      exact hw.refers.mono (.of_eq rfl)
    · rw [hatt.other (handle_cases hh) hij] at hc'
      exact (hs.refers j c' hc').mono hgrows'

/-! ### Management -/

/-- What `add_target` does to the table. -/
theorem addTarget_lookup {targets : Std.TreeMap TargetId Target intcmp} {n : ℕ} {t : Target}
    {id : TargetId} :
    (∀ t', targets[id]? = some t' → (addTarget targets n t).1[id]? = some t') ∧
      ∀ t', (addTarget targets n t).1[id]? = some t' → t' = t ∨ targets[id]? = some t' := by
  unfold addTarget
  split_ifs with htaken
  · exact ⟨fun _ ht' => ht', fun _ => .inr⟩
  · simp only [Std.TreeMap.getElem?_insert]
    split_ifs with hid
    · refine ⟨fun t' ht' => ?_, fun t' ht' => .inl (Option.some.inj ht').symm⟩
      rw [Std.TreeMap.getElem?_congr hid, ht'] at htaken
      exact absurd rfl htaken
    · exact ⟨fun _ ht' => ht', fun _ => .inr⟩

theorem Anchored.addTarget (hs : Anchored s) {n : ℕ} {t : Target} (ht : t.intraHandlers = ∅)
    (htargets : s'.targets = (addTarget s.targets n t).1) (hconns : s'.conns = s.conns) :
    Anchored s' ∧ Grows s s' := by
  have hgrows : Grows s s' := fun id t' ht' =>
    ⟨t', by rw [htargets]; exact addTarget_lookup.1 t' ht', rfl, List.Subset.refl _⟩
  refine ⟨⟨fun id t' ht' => ?_, fun i c hc => (hs.refers i c (hconns ▸ hc)).mono hgrows⟩, hgrows⟩
  rw [htargets] at ht'
  obtain rfl | ht' := addTarget_lookup.2 t' ht'
  · intro ip h hlook
    simp [ht] at hlook
  · exact hs.listed id t' ht'

theorem Anchored.rpcAddTarget {m m' : Managed μ} {route : Option (IfaceId × MacAddr × IpAddr)}
    (hs : Anchored m.st) (h : rpcAddTarget m route = .ok m') :
    (Anchored m'.st ∧ Grows m.st m'.st) ∧ m'.corrupt = m.corrupt := by
  cases route with
  | none =>
    cases h
    exact ⟨hs.addTarget rfl rfl rfl, rfl⟩
  | some route =>
    simp only [Honeybrid.rpcAddTarget] at h
    split_ifs at h
    · cases h
      exact ⟨⟨hs, .of_eq rfl⟩, rfl⟩
    · split at h
      · rename_i targets htargets
        cases h
        exact ⟨hs.addTarget rfl (congrArg Prod.fst htargets).symm rfl, rfl⟩
      · cases h

theorem State.updateTarget_none {targetID : TargetId} {f : Target → Target}
    (h : s.targets[targetID]? = none) : s.updateTarget targetID f = s := by
  simp [State.updateTarget, h]

/-- A target that is written back as it is. -/
theorem Anchored.update {targetID : TargetId} {f : Target → Target} (hs : Anchored s)
    (hf : ∀ t, s.targets[targetID]? = some t → f t = t) :
    Anchored (s.updateTarget targetID f) ∧ Grows s (s.updateTarget targetID f) := by
  cases ht : s.targets[targetID]? with
  | none =>
    rw [State.updateTarget_none ht]
    exact ⟨hs, .of_eq rfl⟩
  | some t =>
    have hupd : s.updateTarget targetID f = { s with targets := s.targets.insert targetID t } := by
      simp [State.updateTarget, ht, hf t ht]
    have hgrows := grows_insert ht rfl (List.Subset.refl t.intraHandlersList)
    rw [hupd]
    refine ⟨⟨fun id t' ht' => ?_, fun i c hc => (hs.refers i c hc).mono hgrows⟩, hgrows⟩
    simp only [Std.TreeMap.getElem?_insert] at ht'
    split_ifs at ht'
    · cases ht'
      exact hs.listed _ t ht
    · exact hs.listed id t' ht'

theorem removeIntraHandler_absent {intraID : HandlerId}
    (h : ∀ x ∈ t.intraHandlersList, x.id ≠ intraID) : (removeIntraHandler t intraID).1 = t := by
  have hnone : (t.intraHandlersList.find? fun x => x.id = intraID) = none := by
    simpa [List.find?_eq_none] using h
  simp [removeIntraHandler, hnone]

/-- **Steps and operations.** A step, and an operation that finds nothing to release wrongly, keeps
the pointers of the connections good, and the tables grow. -/
theorem Anchored.manage {m m' : Managed μ} {cmd : Command} (hs : Anchored m.st)
    (hspared : Spared m cmd) (h : manage mods g m cmd = .ok (m', out)) :
    (Anchored m'.st ∧ Grows m.st m'.st) ∧ m'.corrupt = false := by
  simp only [Honeybrid.manage] at h
  split_ifs at h with hcorrupt
  rw [Bool.not_eq_true] at hcorrupt
  have hsame : (Anchored m.st ∧ Grows m.st m.st) ∧ m.corrupt = false :=
    ⟨⟨hs, .of_eq rfl⟩, hcorrupt⟩
  cases cmd with
  | engine inp =>
    simp only at h
    split at h
    · rename_i st out' hstep
      cases h
      exact ⟨hs.step hspared hstep, hcorrupt⟩
    · cases h
  | addTarget route =>
    obtain ⟨m₁, hadd, h⟩ := Except.bind_eq_ok.mp h
    cases h
    obtain ⟨hm, hc⟩ := hs.rpcAddTarget hadd
    exact ⟨hm, hc.trans hcorrupt⟩
  | removeTarget targetID =>
    simp only at h
    split_ifs at h with hid
    · cases h
      exact hsame
    · simp only [removeTarget, hspared hid] at h
      cases h
      exact ⟨⟨hs, .of_eq rfl⟩, rfl⟩
  | addBackend targetID back =>
    have hnone : m.st.targets[targetID]? = none := hspared
    simp only [State.updateTarget_none hnone, hnone] at h
    cases h
    exact ⟨⟨hs, .of_eq rfl⟩, rfl⟩
  | removeBackend targetID backendID =>
    simp only at h
    split_ifs at h with hid
    · cases h
      exact hsame
    · cases h
      -- no backend is found
      have hnone (t : Target) (ht : m.st.targets[targetID]? = some t) :
          removeBackHandler t backendID = (t, .nok) := removeBackHandler_none (hspared hid t ht)
      refine ⟨hs.update fun t ht => by rw [hnone t ht], ?_⟩
      cases ht : m.st.targets[targetID]? with
      | none => rfl
      | some t =>
        rw [Option.any_some, hnone t ht]
        rfl
  | addIntra targetID intra =>
    have hnone : m.st.targets[targetID]? = none := hspared
    simp only [rpcAddIntra, hnone, Except.ok_bind] at h
    cases h
    exact hsame
  | removeIntra targetID intraID =>
    simp only at h
    split_ifs at h with hid
    · cases h
      exact hsame
    · cases h
      refine ⟨hs.update fun t ht => ?_, ?_⟩
      · exact removeIntraHandler_absent (hspared hid t ht)
      · cases ht : m.st.targets[targetID]? with
        | none => rfl
        | some t => simpa using hspared hid t ht

/-- **Operations that are not spared** leave an object behind that has been released while a table
leads to it, or twice. -/
theorem corrupt_of_not_spared {m m' : Managed μ} {cmd : Command} (hcmd : ∀ inp, cmd ≠ .engine inp)
    (hspared : ¬Spared m cmd) (h : manage mods g m cmd = .ok (m', out)) : m'.corrupt = true := by
  simp only [Honeybrid.manage] at h
  split_ifs at h
  cases cmd with
  | engine inp => exact absurd rfl (hcmd inp)
  | addTarget route =>
    obtain ⟨m₁, hadd, -⟩ := Except.bind_eq_ok.mp h
    simp only [Spared] at hspared
    push Not at hspared
    obtain ⟨iface, mac, src, rfl, hfree, htaken⟩ := hspared
    simp [rpcAddTarget, hfree, addTarget, Option.isSome_iff_ne_none.mpr htaken] at hadd
  | removeTarget targetID =>
    simp only [Spared] at hspared
    push Not at hspared
    obtain ⟨hid, hsome⟩ := hspared
    obtain ⟨t, ht⟩ := Option.ne_none_iff_exists'.mp hsome
    simp only [if_neg hid, removeTarget, ht] at h
    cases h
    rfl
  | addBackend targetID back =>
    cases h
    exact Option.isSome_iff_ne_none.mpr hspared
  | removeBackend targetID backendID =>
    simp only [Spared] at hspared
    push Not at hspared
    obtain ⟨hid, t, ht, hsome⟩ := hspared
    simp only [if_neg (not_or.mpr hid)] at h
    cases h
    rw [Option.any_eq_true]
    exact ⟨t, ht, by rw [removeBackHandler_some hsome]; rfl⟩
  | addIntra targetID intra =>
    obtain ⟨t, ht⟩ := Option.ne_none_iff_exists'.mp hspared
    obtain ⟨m₁, hadd, h⟩ := Except.bind_eq_ok.mp h
    simp only [rpcAddIntra, ht] at hadd
    split_ifs at hadd
    cases hadd
    cases h
    rfl
  | removeIntra targetID intraID =>
    simp only [Spared] at hspared
    push Not at hspared
    obtain ⟨hid, t, ht, h', hmem, hid'⟩ := hspared
    simp only [if_neg (not_or.mpr hid)] at h
    cases h
    rw [Option.any_eq_true]
    exact ⟨t, ht, List.any_eq_true.mpr ⟨h', hmem, beq_iff_eq.mpr hid'⟩⟩

/-! ### Configurations -/

section Configurations

variable {setup setup' : Setup} {textWord : String → ℤ} {file : List Block}

/-- All targets of a configuration list their INTRA handlers. -/
def Setup.Listed (setup : Setup) : Prop :=
  ∀ (id : TargetId) (t : Target), setup.targets[id]? = some t → t.Listed

theorem TargetEntry.action_listed {t t' : Target} {e : TargetEntry} (ht : t.Listed)
    (h : e.action setup t = .ok t') : t'.Listed := by
  cases e with
  | frontend hp equation =>
    obtain ⟨front, -, h⟩ := Except.bind_eq_ok.mp h
    obtain ⟨rule, -, h⟩ := Except.bind_eq_ok.mp h
    cases h
    exact ht
  | backpick equation =>
    obtain ⟨rule, -, h⟩ := Except.bind_eq_ok.mp h
    cases h
    exact ht
  | backend hp equation =>
    obtain ⟨back, rfl⟩ := action_backend h
    split_ifs <;> exact ht
  | internal ip hp equation =>
    obtain ⟨intra, -, h⟩ := Except.bind_eq_ok.mp h
    obtain ⟨rule, -, h⟩ := Except.bind_eq_ok.mp h
    cases h
    exact ht.addIntra ip _
  | internet equation =>
    obtain ⟨rule, -, h⟩ := Except.bind_eq_ok.mp h
    cases h
    exact ht
  | intralan equation =>
    obtain ⟨rule, -, h⟩ := Except.bind_eq_ok.mp h
    cases h
    exact ht

theorem targetActions_listed {t t' : Target} {es : List TargetEntry} (ht : t.Listed)
    (h : targetActions setup es t = .ok t') : t'.Listed := by
  induction es generalizing t with
  | nil =>
    cases h
    exact ht
  | cons e es ih =>
    obtain ⟨t₁, he, h⟩ := Except.bind_eq_ok.mp h
    exact ih (TargetEntry.action_listed ht he) h

theorem Block.action_listed {b : Block} (hs : setup.Listed) (h : b.action setup = .ok setup') :
    setup'.Listed := by
  have hempty : ({} : Target).Listed := fun ip h hlook => by simp at hlook
  have hadd {t : Target} (ht : t.Listed) : (setup.addTarget t).Listed := by
    intro id t' ht'
    obtain rfl | ht' := addTarget_lookup.2 t' ht'
    · exact ht
    · exact hs id t' ht'
  cases b with
  | config parameters =>
    cases h
    exact hs
  | link tag =>
    cases h
    exact hs
  | module name settings =>
    simp only [Block.action] at h
    split_ifs at h
    cases h
    exact hs
  | target route entries =>
    cases route with
    | none =>
      obtain ⟨t, ht, h⟩ := Except.bind_eq_ok.mp h
      cases h
      exact hadd (targetActions_listed hempty ht)
    | some route =>
      obtain ⟨t, ht, h⟩ := Except.bind_eq_ok.mp h
      obtain ⟨iface, -, h⟩ := Except.bind_eq_ok.mp h
      cases h
      have hlisted := targetActions_listed hempty ht
      refine hadd (t := { t with
        defaultRoute := some iface, defaultRouteIp := route.src, defaultRouteMac := route.mac }) ?_
      exact hlisted

theorem initParser_listed (hs : setup.Listed) (h : initParser file setup = .ok setup') :
    setup'.Listed := by
  induction file generalizing setup with
  | nil =>
    cases h
    exact hs
  | cons b bs ih =>
    obtain ⟨s₁, hb, h⟩ := Except.bind_eq_ok.mp h
    exact ih (Block.action_listed hs hb) h

/-- The program once the configuration has been read. -/
def Setup.managed (setup : Setup) (mem : μ) : Managed μ where
  st := setup.start mem
  targetCounter := setup.targetCounter

/-- **References of connections.** Let the operations of an interleaving find nothing that the RPC
server would release wrongly, and let the servers of `dns_control` be on interfaces that exist. Then
in every state reached the memory is not corrupt, the target of every connection is in the table,
its backend is one of this target, and its INTRA host is in the list of this target; and no further
step or operation of the kind removes a target or a handler. -/
theorem references_kept (links : IfaceId → Interface) (mem : μ)
    (hmain : Setup.main textWord file = .ok setup) (tr : List Event) (m : Managed μ)
    (hrun : Machine.Run (manage mods (setup.globals links)) Spared (setup.managed mem) tr m) :
    m.corrupt = false ∧ (∀ (i : ConnId) (c : Conn), m.st.conns[i]? = some c → Refers m.st c) ∧
      ∀ cmd m' out, Spared m cmd → manage mods (setup.globals links) m cmd = .ok (m', out) →
        Grows m.st m'.st := by
  have hstart : Anchored (setup.managed mem).st := by
    refine ⟨initParser_listed (fun id t ht => ?_) hmain, fun i c hc => ?_⟩
    · simp [initVariables] at ht
    · simp [Setup.managed, Setup.start, boot] at hc
  obtain ⟨hinv, hcorrupt⟩ : Anchored m.st ∧ m.corrupt = false := by
    refine hrun.invariant (fun m => Anchored m.st ∧ m.corrupt = false) ⟨hstart, rfl⟩ ?_
    rintro m₁ cmd m₂ out ⟨hs, -⟩ hspared hstep
    obtain ⟨⟨hs', -⟩, hc⟩ := hs.manage hspared hstep
    exact ⟨hs', hc⟩
  exact ⟨hcorrupt, hinv.refers, fun cmd m' out hspared hstep => (hinv.manage hspared hstep).1.2⟩

end Configurations

namespace Sample

/-- A test for `Spared`. -/
def spares (m : Managed Unit) : Command → Bool
  | .engine _ => m.st.targets.toList.all fun e => e.2.rules.all Rule.dnsKnown
  | .addTarget _ => m.st.targets[m.targetCounter + 1]?.isNone
  | .removeTarget targetID | .addBackend targetID _ | .addIntra targetID _ =>
    m.st.targets[targetID]?.isNone
  | .removeBackend targetID backendID =>
    m.st.targets[targetID]?.all fun t => t.backHandlers[backendID]?.isNone
  | .removeIntra targetID intraID =>
    m.st.targets[targetID]?.all fun t => t.intraHandlersList.all fun h => h.id != intraID

theorem spared_of_spares {m : Managed Unit} {cmd : Command} (h : spares m cmd = true) :
    Spared m cmd := by
  cases cmd with
  | engine inp =>
    intro id t ht r hr
    obtain ⟨k, -, hmem⟩ :=
      Std.TreeMap.getElem?_eq_some_iff_exists_compare_eq_eq_and_mem_toList.mp ht
    exact List.all_eq_true.mp (List.all_eq_true.mp h (k, t) hmem) r hr
  | addTarget route => exact fun _ _ _ _ _ => Option.isNone_iff_eq_none.mp h
  | removeTarget targetID => exact fun _ => Option.isNone_iff_eq_none.mp h
  | addBackend targetID back => exact Option.isNone_iff_eq_none.mp h
  | addIntra targetID intra => exact Option.isNone_iff_eq_none.mp h
  | removeBackend targetID backendID =>
    intro _ t ht
    simp only [spares, ht, Option.all_some] at h
    exact Option.isNone_iff_eq_none.mp h
  | removeIntra targetID intraID =>
    intro _ t ht x hx
    simp only [spares, ht, Option.all_some] at h
    exact bne_iff_ne.mp (List.all_eq_true.mp h x hx)

/-- The connection with the number 1, with a property. -/
def hasConn (p : State Unit → Conn → Bool) (m : Managed Unit) : Bool :=
  m.st.conns[1]?.any (p m.st)

/-- An attack, before whose last packet a target is added, and calls for targets and handlers that
do not exist are refused. -/
def quietManagement : List Command :=
  attack.map .engine ++
    [.addTarget none, .addBackend 7 hih, .removeBackend 1 9, .addIntra 7 intra, .removeIntra 1 4,
      .removeTarget 7, .engine answer]

end Sample

/-- A target is added while a connection is redirected. -/
theorem references_kept_redirected : ∃ setup,
    Setup.main (fun _ => 0) (Sample.denying []) = .ok setup ∧ ∃ tr m c,
      Machine.Run (manage (Sample.modules .accept) (setup.globals Sample.globals.links)) Spared
        (setup.managed ()) tr m ∧
      m.st.conns[1]? = some c ∧ c.hih.backHandler ≠ none ∧ Refers m.st c := by
  have hex : (Setup.main (fun _ => 0) (Sample.denying [])).passes fun setup =>
      ((Machine.exec (manage (Sample.modules .accept) (setup.globals Sample.globals.links))
        (setup.managed ()) Sample.quietManagement).passes fun r =>
          Sample.hasConn (fun _ c => c.hih.backHandler.isSome) r.1) &&
      Machine.checks (manage (Sample.modules .accept) (setup.globals Sample.globals.links))
        Sample.spares (setup.managed ()) Sample.quietManagement := by
    decide +kernel
  obtain ⟨setup, hmain, hexec⟩ := Except.passes_iff.mp hex
  obtain ⟨tr, m, hrun, htest⟩ := Machine.exists_run _ _ _ _
    (fun _ _ => Sample.spared_of_spares) hexec
  obtain ⟨c, hc, hback⟩ := (Option.any_eq_true ..).mp htest
  exact ⟨setup, hmain, tr, m, c, hrun, hc, Option.isSome_iff_ne_none.mp hback,
    (references_kept Sample.globals.links () hmain tr m hrun).2.1 1 c hc⟩

/-- **Targets are removed under their connections.** After the first packet of an attack the RPC
server removes the target. The connection stays, with a pointer to it. -/
theorem removed_target_referenced : ∃ setup,
    Setup.main (fun _ => 0) (Sample.denying []) = .ok setup ∧ ∃ tr m c,
      Machine.Reaches (manage (Sample.modules .accept) (setup.globals Sample.globals.links))
        (setup.managed ()) tr m ∧ m.st.conns[1]? = some c ∧ ¬Refers m.st c := by
  have hex : (Setup.main (fun _ => 0) (Sample.denying [])).passes fun setup =>
      (Machine.exec (manage (Sample.modules .accept) (setup.globals Sample.globals.links))
        (setup.managed ())
        ((Sample.attack.take 1).map .engine ++ [.removeTarget 1])).passes fun r =>
          Sample.hasConn (fun s c => s.targets[c.target]?.isNone) r.1 := by
    decide +kernel
  obtain ⟨setup, hmain, hexec⟩ := Except.passes_iff.mp hex
  obtain ⟨tr, m, hrun, htest⟩ := Machine.exists_reaches _ _ _ _ hexec
  obtain ⟨c, hc, hnone⟩ := (Option.any_eq_true ..).mp htest
  refine ⟨setup, hmain, tr, m, c, hrun, hc, fun hr => ?_⟩
  obtain ⟨t, ht, -⟩ := hr
  rw [Option.isNone_iff_eq_none.mp hnone] at ht
  cases ht

end Honeybrid
