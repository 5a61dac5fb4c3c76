import Honeybrid.Dispatch

/-!
# Executions of the program

A step of the program processes one packet of one connection, or touches no connection except by
removing it. From this follows the rule by which properties of single connections are proved about
all runs: it is enough to look at the packet that creates a connection, and at every later packet
of it.

## Main definitions

* `Kept`: the part of the state that a removal leaves alone.
* `Erased`: the entries of the trees that a removal takes out.
* `eventsOf i tr`: the events of a trace that are about the connection `i`.
* `Tracked`: what every run keeps, together with a property of its connections.

## Main results

* `deregister_cases`, `releasePin_cases`: what a removal does to the trees and the pins.
* `removeConn_cases`, `clean_quiet`: what a removal does to the table of connections.
* `assign_cases`, `step_cases`: what a step does.
* `connInvariant`: the rule for properties of single connections and their events.
-/

namespace Honeybrid

variable {μ : Type} {mods : Modules μ} {g : Globals} {s s' s₁ : State μ} {i : ConnId} {pkt : Pkt}
  {w : Work μ} {out tr : List Event} {c : Conn} {raw : RawPcap} {now : ℤ}

/-! ### Removal -/

/-- `s'` has the targets, the default routes, the connections and the counter of `s`. -/
structure Kept (s s' : State μ) : Prop where
  targets : s'.targets = s.targets
  ifTarget : s'.ifTarget = s.ifTarget
  conns : s'.conns = s.conns
  cId : s'.cId = s.cId

theorem Kept.refl (s : State μ) : Kept s s :=
  ⟨rfl, rfl, rfl, rfl⟩

theorem Kept.trans {s₁ s₂ s₃ : State μ} (h : Kept s₁ s₂) (h' : Kept s₂ s₃) : Kept s₁ s₃ :=
  ⟨h'.targets.trans h.targets, h'.ifTarget.trans h.ifTarget, h'.conns.trans h.conns,
    h'.cId.trans h.cId⟩

theorem kept_setPinTree (s : State μ) (t : Std.TreeMap PinKey Pin pincmp) (tree : PinTree) :
    Kept s (s.setPinTree t tree) := by
  cases tree <;> exact ⟨rfl, rfl, rfl, rfl⟩

theorem Takes.kept {tree : PinTree} {k : PinKey} {p : Pin} (h : Takes s tree k p s') :
    Kept s s' := by
  rw [h.eq]
  exact kept_setPinTree s _ tree

/-- Without a pin nothing is given back; the last reference removes the entry under `k'`. -/
theorem releasePin_cases {tree : PinTree} {k k' : PinKey} (h : releasePin s tree k k' = .ok s') :
    ((s.pinTree tree)[k]? = none ∧ s' = s) ∨
    ∃ p s₁, (s.pinTree tree)[k]? = some p ∧ p.count ≠ 0 ∧
      s₁ = setPin s tree k { p with count := p.count - 1 } ∧
      (p.count - 1 = 0 ∧ s' = s₁.setPinTree ((s₁.pinTree tree).erase k') tree ∨
        p.count - 1 ≠ 0 ∧ s' = s₁) := by
  simp only [releasePin] at h
  obtain ⟨o, ho, h⟩ := Except.bind_eq_ok.mp h
  cases o with
  | none =>
    cases h
    exact .inl ⟨lookupPin_none_iff.mp ho, rfl⟩
  | some p =>
    obtain ⟨hp, hcount⟩ := lookupPin_some_iff.mp ho
    refine .inr ⟨p, _, hp, hcount, rfl, ?_⟩
    simp only at h
    split_ifs at h with hzero
    · cases h
      exact .inl ⟨hzero, rfl⟩
    · cases h
      exact .inr ⟨hzero, rfl⟩

theorem releaseConnPin_cases {tree : PinTree} (h : releaseConnPin s tree c = .ok s') :
    (c.pinKey = none ∧ s' = s) ∨ ∃ k, c.pinKey = some k ∧ releasePin s tree k k = .ok s' := by
  unfold releaseConnPin at h
  split at h
  · exact .inr ⟨_, by assumption, h⟩
  · cases h
    exact .inl ⟨by assumption, rfl⟩

theorem releaseTargetPin_cases (h : releaseTargetPin s c = .ok s') :
    (c.hih.targetPinKey = none ∧ s' = s) ∨
    ∃ k k', c.hih.targetPinKey = some k ∧ c.pinKey = some k' ∧
      releasePin s .target k k' = .ok s' := by
  unfold releaseTargetPin at h
  split at h
  · exact .inr ⟨_, _, by assumption, by assumption, h⟩
  · cases h
  · cases h
    exact .inl ⟨by assumption, rfl⟩

theorem releasePin_kept {tree : PinTree} {k k' : PinKey} (h : releasePin s tree k k' = .ok s') :
    Kept s s' := by
  obtain ⟨-, rfl⟩ | ⟨p, s₁, -, -, rfl, ⟨-, rfl⟩ | ⟨-, rfl⟩⟩ := releasePin_cases h
  · exact Kept.refl s'
  · exact (kept_setPinTree s _ tree).trans (kept_setPinTree _ _ tree)
  · exact kept_setPinTree s _ tree

theorem releaseConnPin_kept {tree : PinTree} (h : releaseConnPin s tree c = .ok s') :
    Kept s s' := by
  obtain ⟨-, rfl⟩ | ⟨k, -, h⟩ := releaseConnPin_cases h
  · exact Kept.refl s'
  · exact releasePin_kept h

theorem releaseTargetPin_kept (h : releaseTargetPin s c = .ok s') : Kept s s' := by
  obtain ⟨-, rfl⟩ | ⟨k, k', -, -, h⟩ := releaseTargetPin_cases h
  · exact Kept.refl s'
  · exact releasePin_kept h

/-- The tree in which `remove_conn` looks for the pin of a connection. -/
def Conn.releaseTree (c : Conn) : Option PinTree :=
  match c.initiator, c.destination with
  | .ext, _ | .lih, .ext | .hih, .ext => some .comm
  | .intra, _ | .hih, .intra => some .intra
  | _, _ => none

/-- What `remove_conn` takes out of the trees, by the initiator and the destination. -/
inductive Erased (c : Conn) (s : State μ) : State μ → Prop
  | ext {ek ik : ConnKey} (hini : c.initiator = .ext) (hek : c.extKey = some ek)
      (hik : c.intKey = some ik) :
      Erased c s (match c.hih.redirectedIntKey with
        | some k => { s with
            extTree1 := s.extTree1.erase ek, extTree2 := (s.extTree2.erase ik).erase k }
        | none => { s with extTree1 := s.extTree1.erase ek, extTree2 := s.extTree2.erase ik })
  | int {ek ik : ConnKey} (hini : c.initiator = .lih ∨ c.initiator = .hih)
      (hdest : c.destination = .ext) (hek : c.extKey = some ek) (hik : c.intKey = some ik) :
      Erased c s { s with intTree2 := s.intTree2.erase ek, intTree1 := s.intTree1.erase ik }
  | intra {ik k : ConnKey}
      (hini : c.initiator = .intra ∨ c.initiator = .hih ∧ c.destination = .intra)
      (hik : c.intKey = some ik) (hk : c.intraKey = some k) :
      Erased c s { s with intraTree1 := s.intraTree1.erase ik, intraTree2 := s.intraTree2.erase k }
  | nothing (h : c.releaseTree = none) : Erased c s s

/-- **Deregistration.** The first part of `remove_conn` takes keys of the connection out of the
trees, and gives back its pin in the tree it derives from the initiator and the destination. -/
theorem deregister_cases (h : deregister s c = .ok s') :
    ∃ s₁, Erased c s s₁ ∧ (c.releaseTree = none ∧ s' = s₁ ∨
      ∃ tree, c.releaseTree = some tree ∧ releaseConnPin s₁ tree c = .ok s') := by
  unfold deregister at h
  split at h
  · rename_i hini
    obtain ⟨ek, hek, h⟩ := Except.bind_eq_ok.mp h
    obtain ⟨ik, hik, h⟩ := Except.bind_eq_ok.mp h
    exact ⟨_, .ext hini (Option.orFail_eq_ok.mp hek) (Option.orFail_eq_ok.mp hik),
      .inr ⟨.comm, by simp [Conn.releaseTree, hini], h⟩⟩
  · rename_i hini hdest
    obtain ⟨ek, hek, h⟩ := Except.bind_eq_ok.mp h
    obtain ⟨ik, hik, h⟩ := Except.bind_eq_ok.mp h
    exact ⟨_, .int (.inl hini) hdest (Option.orFail_eq_ok.mp hek) (Option.orFail_eq_ok.mp hik),
      .inr ⟨.comm, by simp [Conn.releaseTree, hini, hdest], h⟩⟩
  · rename_i hini hdest
    obtain ⟨ek, hek, h⟩ := Except.bind_eq_ok.mp h
    obtain ⟨ik, hik, h⟩ := Except.bind_eq_ok.mp h
    exact ⟨_, .int (.inr hini) hdest (Option.orFail_eq_ok.mp hek) (Option.orFail_eq_ok.mp hik),
      .inr ⟨.comm, by simp [Conn.releaseTree, hini, hdest], h⟩⟩
  · rename_i hini
    obtain ⟨ik, hik, h⟩ := Except.bind_eq_ok.mp h
    obtain ⟨k, hk, h⟩ := Except.bind_eq_ok.mp h
    exact ⟨_, .intra (.inl hini) (Option.orFail_eq_ok.mp hik) (Option.orFail_eq_ok.mp hk),
      .inr ⟨.intra, by simp [Conn.releaseTree, hini], h⟩⟩
  · rename_i hini hdest
    obtain ⟨ik, hik, h⟩ := Except.bind_eq_ok.mp h
    obtain ⟨k, hk, h⟩ := Except.bind_eq_ok.mp h
    exact ⟨_, .intra (.inr ⟨hini, hdest⟩) (Option.orFail_eq_ok.mp hik) (Option.orFail_eq_ok.mp hk),
      .inr ⟨.intra, by simp [Conn.releaseTree, hini, hdest], h⟩⟩
  · cases h
    have hnone : c.releaseTree = none := by
      unfold Conn.releaseTree
      split <;> simp_all
    exact ⟨_, .nothing hnone, .inl ⟨hnone, rfl⟩⟩

theorem Erased.kept (h : Erased c s s') : Kept s s' := by
  cases h with
  | ext => split <;> exact ⟨rfl, rfl, rfl, rfl⟩
  | int => exact ⟨rfl, rfl, rfl, rfl⟩
  | intra => exact ⟨rfl, rfl, rfl, rfl⟩
  | nothing => exact Kept.refl s

theorem deregister_kept (h : deregister s c = .ok s') : Kept s s' := by
  obtain ⟨s₁, he, ⟨-, rfl⟩ | ⟨tree, -, hrel⟩⟩ := deregister_cases h
  · exact he.kept
  · exact he.kept.trans (releaseConnPin_kept hrel)

theorem removeConn_cases (h : removeConn s i = .ok s') :
    ∃ c s₁ s₂, s.conns[i]? = some c ∧ deregister s c = .ok s₁ ∧ releaseTargetPin s₁ c = .ok s₂ ∧
      s' = { s₂ with conns := s₂.conns.erase i } := by
  simp only [removeConn] at h
  obtain ⟨c, hc, h⟩ := Except.bind_eq_ok.mp h
  obtain ⟨s₁, hd, h⟩ := Except.bind_eq_ok.mp h
  obtain ⟨s₂, hr, h⟩ := Except.bind_eq_ok.mp h
  cases h
  exact ⟨c, s₁, s₂, Option.orFail_eq_ok.mp hc, hd, hr, rfl⟩

/-- The step touches no connection, except by removing it. -/
structure Quiet (s s' : State μ) : Prop where
  targets : s'.targets = s.targets
  ifTarget : s'.ifTarget = s.ifTarget
  conns : ∀ (j : ConnId) (c : Conn), s'.conns[j]? = some c → s.conns[j]? = some c
  cId : s.cId ≤ s'.cId

theorem Quiet.refl (s : State μ) : Quiet s s :=
  ⟨rfl, rfl, fun _ _ => id, Nat.le_refl _⟩

theorem Quiet.trans {s₁ s₂ s₃ : State μ} (h : Quiet s₁ s₂) (h' : Quiet s₂ s₃) : Quiet s₁ s₃ :=
  ⟨h'.targets.trans h.targets, h'.ifTarget.trans h.ifTarget,
    fun j c hj => h.conns j c (h'.conns j c hj), Nat.le_trans h.cId h'.cId⟩

theorem removeConn_quiet (h : removeConn s i = .ok s') : Quiet s s' := by
  obtain ⟨c, s₁, s₂, -, hd, hr, rfl⟩ := removeConn_cases h
  have hk := (deregister_kept hd).trans (releaseTargetPin_kept hr)
  refine ⟨hk.targets, hk.ifTarget, fun j c hj => ?_, Nat.le_of_eq hk.cId.symm⟩
  rw [Std.TreeMap.lookup_erase, hk.conns] at hj
  split_ifs at hj
  exact hj

/-- The rule for relations between the states before and after a list of removals. -/
theorem removeAll_induction {R : State μ → State μ → Prop} {is : List ConnId} (hrefl : ∀ s, R s s)
    (hstep : ∀ s i s₁ s₂, removeConn s i = .ok s₁ → R s₁ s₂ → R s s₂)
    (h : removeAll s is = .ok s') : R s s' := by
  induction is generalizing s with
  | nil =>
    cases h
    exact hrefl _
  | cons i is ih =>
    simp only [removeAll] at h
    obtain ⟨s₁, hr, h⟩ := Except.bind_eq_ok.mp h
    exact hstep s i s₁ s' hr (ih h)

theorem removeAll_quiet {is : List ConnId} (h : removeAll s is = .ok s') : Quiet s s' :=
  removeAll_induction Quiet.refl (fun _ _ _ _ hr hq => (removeConn_quiet hr).trans hq) h

theorem clean_quiet {delay : ℤ} (h : clean s now delay = .ok s') : Quiet s s' := by
  simp only [clean] at h
  obtain ⟨e, -, h⟩ := Except.bind_eq_ok.mp h
  obtain ⟨i, -, h⟩ := Except.bind_eq_ok.mp h
  obtain ⟨n, -, h⟩ := Except.bind_eq_ok.mp h
  exact removeAll_quiet h

/-! ### Packets -/

/-- A packet as `init_pkt` makes it. -/
theorem capture_cases (h : capture s raw = some pkt) :
    pkt.packet = raw.frame ∧ pkt.original = raw.frame ∧ pkt.inIface = raw.iface ∧ pkt.de = 0 ∧
      (pkt.packet.protocol = IPPROTO_TCP ∨ pkt.packet.protocol = IPPROTO_UDP) ∧
      (pkt.origin = .ext → pkt.packet.vlan = none) := by
  simp only [capture, Option.ite_none_left_eq_some, processPacket, initPkt] at h
  obtain ⟨hvlan, -, -, -, h⟩ := h
  -- a packet of EXT comes from an uplink, where tagged frames are skipped
  have hext : (if s.ifTarget[raw.iface]?.isSome then Role.ext else .int) = .ext →
      raw.frame.vlan = none := by
    intro ho
    by_contra hv
    refine hvlan ⟨Option.isSome_iff_ne_none.mpr hv, ?_⟩
    by_contra hn
    rw [if_neg hn] at ho
    cases ho
  by_cases htcp : raw.frame.protocol = IPPROTO_TCP
  · rw [if_pos htcp] at h
    simp only [Option.ite_none_left_eq_some, Option.some.injEq] at h
    obtain ⟨-, -, -, rfl⟩ := h
    exact ⟨rfl, rfl, rfl, rfl, .inl htcp, hext⟩
  · rw [if_neg htcp] at h
    simp only [Option.ite_none_right_eq_some, Option.some.injEq] at h
    obtain ⟨hudp, rfl⟩ := h
    exact ⟨rfl, rfl, rfl, rfl, .inr hudp, hext⟩

/-- A packet comes from EXT if its interface is the default route of a target. -/
theorem capture_origin (h : capture s raw = some pkt) :
    pkt.origin = .ext ↔ s.ifTarget[pkt.inIface]? ≠ none := by
  have horig : pkt.inIface = raw.iface ∧
      pkt.origin = if s.ifTarget[raw.iface]?.isSome then .ext else .int := by
    simp only [capture, Option.ite_none_left_eq_some, processPacket, initPkt] at h
    obtain ⟨-, -, -, -, h⟩ := h
    by_cases htcp : raw.frame.protocol = IPPROTO_TCP
    · rw [if_pos htcp] at h
      simp only [Option.ite_none_left_eq_some, Option.some.injEq] at h
      obtain ⟨-, -, -, rfl⟩ := h
      exact ⟨rfl, rfl⟩
    · rw [if_neg htcp] at h
      simp only [Option.ite_none_right_eq_some, Option.some.injEq] at h
      obtain ⟨-, rfl⟩ := h
      exact ⟨rfl, rfl⟩
  rw [horig.2, horig.1, ← Option.isSome_iff_ne_none]
  split_ifs with hif <;> simp [hif]

theorem capture_congr (h : s'.ifTarget = s.ifTarget) (raw : RawPcap) :
    capture s' raw = capture s raw := by
  simp only [capture, processPacket, initPkt, h]

/-! ### Steps -/

/-- What a creation leaves alone. -/
theorem Creates.frame {t : Target} {r : TargetSearch} {role : Role}
    (h : Creates g s i t pkt r now role c s') :
    s'.targets = s.targets ∧ s'.ifTarget = s.ifTarget ∧ s'.cId = s.cId ∧
      s'.conns = s.conns.insert i c := by
  have hsnat {c₀ c₁ : Conn} {tree : PinTree} {k : PinKey} {s₁ : State μ} {ip : IpAddr}
      (ha : acquireSnat g s c₀ t tree k = .ok (s₁, c₁, ip)) : Kept s s₁ := by
    obtain ⟨rfl, -⟩ | ⟨p, htake, -⟩ := acquireSnat_cases ha
    · exact Kept.refl s₁
    · exact htake.kept
  cases h with
  | ext hfront hpin hc =>
    have hk := hpin.kept
    exact ⟨hk.targets, hk.ifTarget, hk.cId, congrArg (·.insert i c) hk.conns⟩
  | lih hfront hpin hc =>
    have hk := hsnat hpin
    exact ⟨hk.targets, hk.ifTarget, hk.cId, congrArg (·.insert i c) hk.conns⟩
  | hih hfront hback hpin hc =>
    have hk := hsnat hpin
    exact ⟨hk.targets, hk.ifTarget, hk.cId, congrArg (·.insert i c) hk.conns⟩
  | @hihIntra back h s₁ c₁ c hback hh hpin hc =>
    have hk : Kept s s₁ := by
      obtain ⟨rfl, -⟩ | ⟨k, p, ip, htake, -⟩ := acquireIntra_cases hpin
      · exact Kept.refl s₁
      · exact htake.kept
    exact ⟨hk.targets, hk.ifTarget, hk.cId, congrArg (·.insert i c) hk.conns⟩
  | hihLan hback hh hlan hc => exact ⟨rfl, rfl, rfl, rfl⟩

/-- A packet is attributed to a connection that exists, or to one that it creates. -/
inductive Attributed (g : Globals) (s : State μ) (raw : RawPcap) (now : ℤ) (s₁ : State μ)
    (i : ConnId) (pkt : Pkt) : Conn → Prop
  | found {pkt₀ : Pkt} {c : Conn} (hcap : capture s raw = some pkt₀)
      (hpkt : pkt = { pkt₀ with origin := pkt.origin })
      (hlook : connLookup s pkt₀ = .ok (some (i, pkt.origin))) (hc : s.conns[i]? = some c)
      (hs : s₁ = s.withConn i (updateConn c pkt.origin now)) :
      Attributed g s raw now s₁ i pkt (updateConn c pkt.origin now)
  | created {pkt₀ : Pkt} {r : TargetSearch} {t : Target} {c : Conn}
      (hcap : capture s raw = some pkt₀) (hpkt : pkt = { pkt₀ with origin := r.origin })
      (hlook : connLookup s pkt₀ = .ok none) (hid : identify s pkt₀ = .ok (some r))
      (ht : s.targets[r.target]? = some t) (hi : i = s.cId + 1)
      (hcr : Creates g { s with cId := s.cId + 1 } i t pkt₀ r now r.origin c s₁) :
      Attributed g s raw now s₁ i pkt c

theorem assign_cases {o : Option (ConnId × Pkt)} (h : assign g s raw now = .ok (s₁, o)) :
    (o = none ∧ Quiet s s₁) ∨
    (∃ i pkt c, o = some (i, pkt) ∧ s₁.conns[i]? = some c ∧
      Attributed g s raw now s₁ i pkt c) := by
  unfold assign at h
  split at h
  · cases h
    exact .inl ⟨rfl, Quiet.refl s⟩
  · rename_i pkt₀ hcap
    split at h
    · cases h
      exact .inl ⟨rfl, Quiet.refl s⟩
    · obtain ⟨⟨s₂, found⟩, hinit, h⟩ := Except.bind_eq_ok.mp h
      cases h
      obtain ⟨i, role, c, hl, hc, rfl, rfl⟩ | ⟨-, rfl, rfl | rfl⟩ |
        ⟨hl, r, t, c, hid, ht, rfl, hcr⟩ := initConn_cases hinit
      · refine .inr ⟨i, { pkt₀ with origin := role }, _, rfl, ?_,
          .found hcap rfl hl hc rfl⟩
        simp
      · exact .inl ⟨rfl, Quiet.refl _⟩
      · exact .inl ⟨rfl, rfl, rfl, fun _ _ => id, Nat.le_succ _⟩
      · refine .inr ⟨_, { pkt₀ with origin := r.origin }, c, rfl, ?_,
          .created hcap rfl hl hid ht rfl hcr⟩
        rw [hcr.frame.2.2.2, Std.TreeMap.lookup_insert, if_pos rfl]

/-- **Steps.** A step processes one packet of one connection, or touches no connection except by
removing it. -/
theorem step_cases {inp : Input} (h : step mods g s inp = .ok (s', out)) :
    (Quiet s s' ∧ ∀ x ∈ out, x.id? = none) ∨
    (∃ raw now s₁ i pkt c w ev, inp = .packet raw now ∧ s₁.conns[i]? = some c ∧
      assign g s raw now = .ok (s₁, some (i, pkt)) ∧ Attributed g s raw now s₁ i pkt c ∧
      handle mods g i pkt ⟨s₁, c⟩ = .ok (w, ev) ∧ s' = w.st.withConn i w.conn ∧
      out = .received i pkt :: ev) := by
  cases inp with
  | sweep now delay =>
    obtain ⟨s₁, hc, h⟩ := Except.bind_eq_ok.mp h
    cases h
    exact .inl ⟨clean_quiet hc, by simp⟩
  | packet raw now =>
    simp only [step, receive] at h
    obtain ⟨⟨s₁, o⟩, ha, h⟩ := Except.bind_eq_ok.mp h
    obtain ⟨rfl, hq⟩ | ⟨i, pkt, c, rfl, hc, hatt⟩ := assign_cases ha
    · cases h
      refine .inl ⟨hq, ?_⟩
      unfold fragNeeded
      split
      · split_ifs
        · simp [Event.id?]
        · simp
      · simp
    · obtain ⟨c', hc', h⟩ := Except.bind_eq_ok.mp h
      obtain rfl : c = c' := Option.some.inj (hc.symm.trans (Option.orFail_eq_ok.mp hc'))
      obtain ⟨⟨w, ev⟩, hh, h⟩ := Except.bind_eq_ok.mp h
      cases h
      exact .inr ⟨raw, now, s₁, i, pkt, c, w, ev, rfl, hc, ha, hatt, hh, rfl, rfl⟩

theorem Attributed.frame (h : Attributed g s raw now s₁ i pkt c) :
    s₁.targets = s.targets ∧ s₁.ifTarget = s.ifTarget ∧ s.cId ≤ s₁.cId ∧
      s₁.conns = s.conns.insert i c := by
  cases h with
  | found hcap hpkt hlook hc hs =>
    subst hs
    exact ⟨rfl, rfl, Nat.le_refl _, rfl⟩
  | created hcap hpkt hlook hid ht hi hcr =>
    obtain ⟨h₁, h₂, h₃, h₄⟩ := hcr.frame
    exact ⟨h₁, h₂, h₃ ▸ Nat.le_succ _, h₄⟩

/-- A packet leaves the other connections alone. -/
theorem Attributed.other {ev : List Event} {j : ConnId} (h : Attributed g s raw now s₁ i pkt c)
    (hh : Handles mods g i pkt ⟨s₁, c⟩ w ev) (hne : i ≠ j) :
    (w.st.withConn i w.conn).conns[j]? = s.conns[j]? := by
  rw [withConn_conns, Std.TreeMap.lookup_insert_of_ne hne, hh.framed.1.conns, h.frame.2.2.2,
    Std.TreeMap.lookup_insert_of_ne hne]

/-- The events of a packet are about its connection. -/
theorem Handles.about_received {ev : List Event} {w₀ : Work μ} (h : Handles mods g i pkt w₀ w ev) :
    About i (.received i pkt :: ev) := by
  intro x hx
  obtain rfl | hx := List.mem_cons.mp hx
  · rfl
  · exact h.about x hx

/-- A test of the connection a packet is attributed to, with the number of the connection and the
packet. -/
def checkPacket (g : Globals) (test : ConnId → Pkt → Conn → Bool) (s : State μ) : Input → Bool
  | .packet raw now =>
    match assign g s raw now with
    | .ok (s₁, some (i, pkt)) => s₁.conns[i]?.all (test i pkt)
    | _ => true
  | .sweep .. => true

theorem checkPacket_packet {test : ConnId → Pkt → Conn → Bool}
    (h : checkPacket g test s (.packet raw now) = true)
    (ha : assign g s raw now = .ok (s₁, some (i, pkt))) (hc : s₁.conns[i]? = some c) :
    test i pkt c = true := by
  simpa [checkPacket, ha, hc] using h

/-! ### Properties of single connections -/

/-- The events of a trace that are about the connection `i`. -/
def eventsOf (i : ConnId) (tr : List Event) : List Event :=
  tr.filter fun x => x.id? = some i

theorem eventsOf_append (i : ConnId) (tr tr' : List Event) :
    eventsOf i (tr ++ tr') = eventsOf i tr ++ eventsOf i tr' :=
  List.filter_append ..

theorem About.eventsOf {ev : List Event} (h : About i ev) : eventsOf i ev = ev :=
  List.filter_eq_self.mpr fun x hx => by simp [h x hx]

theorem About.eventsOf_of_ne {ev : List Event} {j : ConnId} (h : About i ev) (hj : i ≠ j) :
    Honeybrid.eventsOf j ev = [] :=
  List.filter_eq_nil_iff.mpr fun x hx => by simp [h x hx, hj]

/-- What holds along every run: the targets keep their fixed part and the default routes stay, the
numbers of connections are used once, and the property `P` of a connection and its events. -/
structure Tracked (targets : Std.TreeMap TargetId Target intcmp)
    (ifTarget : Std.TreeMap IfaceId TargetId) (P : ConnId → List Event → Conn → Prop)
    (tr : List Event) (s : State μ) : Prop where
  fixed : ∀ id : TargetId, s.targets[id]?.map Target.fixed = targets[id]?.map Target.fixed
  ifTarget : s.ifTarget = ifTarget
  fresh : ∀ (j : ConnId) (c : Conn), s.conns[j]? = some c → j ≤ s.cId
  past : ∀ x ∈ tr, ∀ j, x.id? = some j → j ≤ s.cId
  holds : ∀ (j : ConnId) (c : Conn), s.conns[j]? = some c → P j (eventsOf j tr) c

section Rule

variable {targets : Std.TreeMap TargetId Target intcmp} {ifTarget : Std.TreeMap IfaceId TargetId}
  {P : ConnId → List Event → Conn → Prop} {mem : μ} {ok : State μ → Input → Prop}

/-- A new connection has no events yet. -/
theorem Tracked.eventsOf_new (hT : Tracked targets ifTarget P tr s) (hi : i = s.cId + 1) :
    eventsOf i tr = [] := by
  refine List.filter_eq_nil_iff.mpr fun x hx => ?_
  simp only [decide_eq_true_eq]
  intro h
  have hle := hT.past x hx i h
  rw [hi] at hle
  exact Nat.not_succ_le_self _ hle

/-- A target is, up to its INTRA handlers, as it was configured. -/
theorem Tracked.target {id : TargetId} {t : Target} (hT : Tracked targets ifTarget P tr s)
    (ht : s.targets[id]? = some t) : ∃ t', targets[id]? = some t' ∧ t.fixed = t'.fixed := by
  have hfix := hT.fixed id
  rw [ht, Option.map_some, eq_comm, Option.map_eq_some_iff] at hfix
  obtain ⟨t', ht', h⟩ := hfix
  exact ⟨t', ht', h.symm⟩

theorem Tracked.boot : Tracked targets ifTarget P [] (boot targets ifTarget mem) where
  fixed := fun _ => rfl
  ifTarget := rfl
  fresh := by simp [Honeybrid.boot]
  past := by simp
  holds := by simp [Honeybrid.boot]

/-- A step that processes no packet keeps what is tracked. -/
theorem Tracked.quiet (hT : Tracked targets ifTarget P tr s) (hq : Quiet s s')
    (hout : ∀ x ∈ out, x.id? = none) : Tracked targets ifTarget P (tr ++ out) s' := by
  refine ⟨?_, hq.ifTarget.trans hT.ifTarget, fun j c hj => ?_, fun x hx j hj => ?_,
    fun j c hj => ?_⟩
  · intro id
    rw [hq.targets, hT.fixed]
  · exact Nat.le_trans (hT.fresh j c (hq.conns j c hj)) hq.cId
  · obtain hx | hx := List.mem_append.mp hx
    · exact Nat.le_trans (hT.past x hx j hj) hq.cId
    · rw [hout x hx] at hj
      cases hj
  · have hnone : eventsOf j out = [] :=
      List.filter_eq_nil_iff.mpr fun x hx => by simp [hout x hx]
    rw [eventsOf_append, hnone, List.append_nil]
    exact hT.holds j c (hq.conns j c hj)

/-- Processing a packet of the connection `i` keeps what is tracked, if the property holds of this
connection afterwards. -/
theorem Tracked.packet {ev : List Event} (hT : Tracked targets ifTarget P tr s)
    (hatt : Attributed g s raw now s₁ i pkt c) (hh : handle mods g i pkt ⟨s₁, c⟩ = .ok (w, ev))
    (hP : P i (eventsOf i tr ++ .received i pkt :: ev) w.conn) :
    Tracked targets ifTarget P (tr ++ .received i pkt :: ev) (w.st.withConn i w.conn) := by
  obtain ⟨htar, hif, hle, -⟩ := hatt.frame
  have hH := handle_cases hh
  obtain ⟨hf, -⟩ := hH.framed
  have habout := hH.about_received
  have hcid : s.cId ≤ w.st.cId := Nat.le_trans hle (Nat.le_of_eq hf.cId.symm)
  have hi : i ≤ w.st.cId := by
    cases hatt with
    | found hcap hpkt hlook hc hs => exact Nat.le_trans (hT.fresh i _ hc) hcid
    | created hcap hpkt hlook hid ht hi hcr =>
      rw [hf.cId, hcr.frame.2.2.1]
      exact Nat.le_of_eq hi
  -- the connections other than `i` are as before the packet
  have hother (j : ConnId) (cj : Conn) (hne : i ≠ j)
      (hj : (w.st.withConn i w.conn).conns[j]? = some cj) : s.conns[j]? = some cj := by
    rwa [hatt.other hH hne] at hj
  refine ⟨fun id => ?_, ?_, fun j cj hj => ?_, fun x hx j hj => ?_, fun j cj hj => ?_⟩
  · rw [withConn_targets, hf.targets, htar, hT.fixed]
  · rw [withConn_ifTarget, hf.ifTarget, hif, hT.ifTarget]
  · by_cases hij : i = j
    · exact hij ▸ hi
    · exact Nat.le_trans (hT.fresh j cj (hother j cj hij hj)) hcid
  · obtain hx | hx := List.mem_append.mp hx
    · exact Nat.le_trans (hT.past x hx j hj) hcid
    · rw [habout x hx, Option.some.injEq] at hj
      exact hj ▸ hi
  · by_cases hij : i = j
    · subst hij
      rw [withConn_conns, Std.TreeMap.lookup_insert, if_pos rfl, Option.some.injEq] at hj
      rw [eventsOf_append, habout.eventsOf, ← hj]
      exact hP
    · rw [eventsOf_append, habout.eventsOf_of_ne hij, List.append_nil]
      exact hT.holds j cj (hother j cj hij hj)

/-- **Properties of single connections.** A property of a connection and its events holds along
every run if every packet that is attributed to a connection leaves it true of that connection. In
the proof of this, what is known of all runs may be used of the run so far. -/
theorem connInvariant_run (P : ConnId → List Event → Conn → Prop)
    (hP : ∀ {tr : List Event} {s : State μ},
      Machine.Run (step mods g) ok (boot targets ifTarget mem) tr s →
      Tracked targets ifTarget P tr s →
      ∀ {raw : RawPcap} {now : ℤ} {s₁ : State μ} {i : ConnId} {pkt : Pkt} {c : Conn} {w : Work μ}
        {ev : List Event}, ok s (.packet raw now) →
        assign g s raw now = .ok (s₁, some (i, pkt)) → Attributed g s raw now s₁ i pkt c →
        handle mods g i pkt ⟨s₁, c⟩ = .ok (w, ev) →
        P i (eventsOf i tr ++ .received i pkt :: ev) w.conn)
    (hrun : Machine.Run (step mods g) ok (boot targets ifTarget mem) tr s) :
    Tracked targets ifTarget P tr s := by
  induction hrun with
  | start => exact Tracked.boot
  | snoc hrun hok hstep hT =>
    obtain ⟨hq, hout⟩ | ⟨raw, now, s₁, i, pkt, c, w, ev, rfl, -, ha, hatt, hh, rfl, rfl⟩ :=
      step_cases hstep
    · exact hT.quiet hq hout
    · exact hT.packet hatt hh (hP hrun hT hok ha hatt hh)

theorem connInvariant (P : ConnId → List Event → Conn → Prop)
    (hP : ∀ {tr : List Event} {s : State μ}, Tracked targets ifTarget P tr s →
      ∀ {raw : RawPcap} {now : ℤ} {s₁ : State μ} {i : ConnId} {pkt : Pkt} {c : Conn} {w : Work μ}
        {ev : List Event}, ok s (.packet raw now) →
        assign g s raw now = .ok (s₁, some (i, pkt)) → Attributed g s raw now s₁ i pkt c →
        handle mods g i pkt ⟨s₁, c⟩ = .ok (w, ev) →
        P i (eventsOf i tr ++ .received i pkt :: ev) w.conn)
    (hrun : Machine.Run (step mods g) ok (boot targets ifTarget mem) tr s) :
    Tracked targets ifTarget P tr s :=
  connInvariant_run P (fun _ => hP) hrun

end Rule

end Honeybrid
