import Honeybrid.Connections

/-!
# What the creation of a connection can do

`create_conn` has one branch for each origin of the first packet, and each branch several exits.
This file says once what every exit leaves behind: `Creates` has a constructor for each of them,
with the connection and the state as they are then. `initConn_cases` adds the branch of
`init_conn` that only updates a connection which was found.

## Main definitions

* `Takes s tree k p s'`: `s'` is `s` with one more reference to the pin `k`, which is now `p`.
* `Creates`: the exits of `create_conn` that create a connection.

## Main results

* `acquireSnat_cases`, `acquireIntra_cases`: how the pins of a new connection are taken.
* `createConn_cases`, `initConn_cases`: every successful execution is an exit of `Creates`, or an
  update, or leaves the tables alone.
* `identify_cases`: which target a packet without a connection belongs to.
* `connLookup_cases`: the tree in which a connection is found.
-/

namespace Honeybrid

variable {μ : Type} {g : Globals} {s s' : State μ} {i : ConnId} {c : Conn} {t : Target} {pkt : Pkt}
  {tree : PinTree} {k : PinKey} {r : TargetSearch} {now : ℤ}

/-! ### Fields after an update -/

section Fields

variable (s) (i c tree k) (p : Pin) (ek ik : ConnKey)

@[simp] theorem withConn_conns : (s.withConn i c).conns = s.conns.insert i c := rfl
@[simp] theorem withConn_targets : (s.withConn i c).targets = s.targets := rfl
@[simp] theorem withConn_ifTarget : (s.withConn i c).ifTarget = s.ifTarget := rfl
@[simp] theorem withConn_extTree1 : (s.withConn i c).extTree1 = s.extTree1 := rfl
@[simp] theorem withConn_extTree2 : (s.withConn i c).extTree2 = s.extTree2 := rfl
@[simp] theorem withConn_intTree1 : (s.withConn i c).intTree1 = s.intTree1 := rfl
@[simp] theorem withConn_intTree2 : (s.withConn i c).intTree2 = s.intTree2 := rfl
@[simp] theorem withConn_intraTree1 : (s.withConn i c).intraTree1 = s.intraTree1 := rfl
@[simp] theorem withConn_intraTree2 : (s.withConn i c).intraTree2 = s.intraTree2 := rfl
@[simp] theorem withConn_cId : (s.withConn i c).cId = s.cId := rfl
@[simp] theorem withConn_pinTree : (s.withConn i c).pinTree tree = s.pinTree tree := by
  cases tree <;> rfl

@[simp] theorem setPin_conns : (setPin s tree k p).conns = s.conns := by cases tree <;> rfl
@[simp] theorem setPin_targets : (setPin s tree k p).targets = s.targets := by cases tree <;> rfl
@[simp] theorem setPin_ifTarget : (setPin s tree k p).ifTarget = s.ifTarget := by cases tree <;> rfl
@[simp] theorem setPin_extTree1 : (setPin s tree k p).extTree1 = s.extTree1 := by cases tree <;> rfl
@[simp] theorem setPin_extTree2 : (setPin s tree k p).extTree2 = s.extTree2 := by cases tree <;> rfl
@[simp] theorem setPin_intTree1 : (setPin s tree k p).intTree1 = s.intTree1 := by cases tree <;> rfl
@[simp] theorem setPin_intTree2 : (setPin s tree k p).intTree2 = s.intTree2 := by cases tree <;> rfl
@[simp] theorem setPin_intraTree1 : (setPin s tree k p).intraTree1 = s.intraTree1 := by
  cases tree <;> rfl
@[simp] theorem setPin_intraTree2 : (setPin s tree k p).intraTree2 = s.intraTree2 := by
  cases tree <;> rfl
@[simp] theorem setPin_cId : (setPin s tree k p).cId = s.cId := by cases tree <;> rfl

theorem pinTree_setPin (tree' : PinTree) :
    (setPin s tree k p).pinTree tree' =
      if tree = tree' then (s.pinTree tree).insert k p else s.pinTree tree' := by
  cases tree <;> cases tree' <;> rfl

@[simp] theorem insertExt_pinTree : (insertExt s i ek ik).pinTree tree = s.pinTree tree := by
  cases tree <;> rfl

@[simp] theorem insertInt_pinTree : (insertInt s i ek ik).pinTree tree = s.pinTree tree := by
  cases tree <;> rfl

@[simp] theorem insertIntra_pinTree : (insertIntra s i ek ik).pinTree tree = s.pinTree tree := by
  cases tree <;> rfl

end Fields

/-! ### Taking pins -/

@[simp] theorem lookupPin_none_iff :
    lookupPin s tree k = .ok none ↔ (s.pinTree tree)[k]? = none := by
  unfold lookupPin
  split
  · simp_all
  · split <;> simp_all

@[simp] theorem lookupPin_some_iff {p : Pin} :
    lookupPin s tree k = .ok (some p) ↔ (s.pinTree tree)[k]? = some p ∧ p.count ≠ 0 := by
  unfold lookupPin
  split
  · simp_all
  · rename_i q hq
    split
    · rename_i h0
      simp only [reduceCtorEq, hq, Option.some.injEq, false_iff, not_and, Decidable.not_not]
      rintro rfl
      exact h0
    · rename_i h0
      simp only [Except.pure_eq_ok, Except.ok.injEq, Option.some.injEq, hq]
      constructor
      · rintro rfl
        exact ⟨rfl, h0⟩
      · exact And.left

/-- `s'` is `s` with one more reference to the pin `k` of a tree, which is now `p`. -/
def Takes (s : State μ) (tree : PinTree) (k : PinKey) (p : Pin) (s' : State μ) : Prop :=
  s' = setPin s tree k p ∧
    ((s.pinTree tree)[k]? = none ∧ p.count = 1 ∨
      ∃ q, (s.pinTree tree)[k]? = some q ∧ q.count ≠ 0 ∧ p = { q with count := q.count + 1 })

theorem Takes.eq {p : Pin} (h : Takes s tree k p s') : s' = setPin s tree k p :=
  h.1

/-- A new connection to EXT keeps the default source address, or takes a pin. -/
theorem acquireSnat_cases {s₁ : State μ} {c₁ : Conn} {ip : IpAddr}
    (h : acquireSnat g s c t tree k = .ok (s₁, c₁, ip)) :
    (s₁ = s ∧ c₁ = c ∧ (s.pinTree tree)[k]? = none ∧
      ∃ out, t.defaultRoute = some out ∧ (g.links out).ip = some ip) ∨
    (∃ p, Takes s tree k p s₁ ∧ p.ip = ip ∧
      c₁ = { c with pinKey := some k, pinIp := some ⟨tree, ip⟩ }) := by
  simp only [acquireSnat] at h
  obtain ⟨o, ho, h⟩ := Except.bind_eq_ok.mp h
  cases o with
  | none =>
    obtain ⟨out, hout, h⟩ := Except.bind_eq_ok.mp h
    obtain ⟨ip', hip, h⟩ := Except.bind_eq_ok.mp h
    simp only [Except.pure_eq_ok, Except.ok.injEq, Prod.mk.injEq] at h
    obtain ⟨rfl, rfl, rfl⟩ := h
    exact .inl ⟨rfl, rfl, lookupPin_none_iff.mp ho, out, Option.orFail_eq_ok.mp hout,
      Option.orFail_eq_ok.mp hip⟩
  | some p =>
    simp only [Except.pure_eq_ok, Except.ok.injEq, Prod.mk.injEq] at h
    obtain ⟨rfl, rfl, rfl⟩ := h
    obtain ⟨hp, hc⟩ := lookupPin_some_iff.mp ho
    exact .inr ⟨{ p with count := p.count + 1 }, ⟨rfl, .inr ⟨p, hp, hc, rfl⟩⟩, rfl, rfl⟩

/-- A new connection to an INTRA handler takes a pin exactly when the handler is exclusive. -/
theorem acquireIntra_cases {h : Handler} {s₁ : State μ} {c₁ : Conn}
    (ha : acquireIntra s c h pkt = .ok (some (s₁, c₁))) :
    (s₁ = s ∧ c₁ = c) ∨
    (∃ k p ip, Takes s .intra k p s₁ ∧
      c₁ = { c with pinKey := some k, pinIp := some ⟨.intra, ip⟩ }) := by
  simp only [acquireIntra] at ha
  split at ha
  · obtain ⟨o, ho, ha⟩ := Except.bind_eq_ok.mp ha
    cases o with
    | none =>
      simp only [Except.pure_eq_ok, Except.ok.injEq, Option.some.injEq, Prod.mk.injEq] at ha
      obtain ⟨rfl, rfl⟩ := ha
      exact .inr ⟨_, _, _, ⟨rfl, .inl ⟨lookupPin_none_iff.mp ho, rfl⟩⟩, rfl⟩
    | some p =>
      simp only at ha
      split at ha
      · cases ha
      · simp only [Except.pure_eq_ok, Except.ok.injEq, Option.some.injEq, Prod.mk.injEq] at ha
        obtain ⟨rfl, rfl⟩ := ha
        obtain ⟨hp, hc⟩ := lookupPin_some_iff.mp ho
        exact .inr ⟨_, _, _, ⟨rfl, .inr ⟨p, hp, hc, rfl⟩⟩, rfl⟩
  · simp only [Except.pure_eq_ok, Except.ok.injEq, Option.some.injEq, Prod.mk.injEq] at ha
    exact .inl ⟨ha.1.symm, ha.2.symm⟩

/-- The two states have the same connection trees. -/
structure SameTrees (s s' : State μ) : Prop where
  extTree1 : s'.extTree1 = s.extTree1
  extTree2 : s'.extTree2 = s.extTree2
  intTree1 : s'.intTree1 = s.intTree1
  intTree2 : s'.intTree2 = s.intTree2
  intraTree1 : s'.intraTree1 = s.intraTree1
  intraTree2 : s'.intraTree2 = s.intraTree2

theorem SameTrees.refl (s : State μ) : SameTrees s s :=
  ⟨rfl, rfl, rfl, rfl, rfl, rfl⟩

theorem SameTrees.trans {s₁ s₂ s₃ : State μ} (h : SameTrees s₁ s₂) (h' : SameTrees s₂ s₃) :
    SameTrees s₁ s₃ :=
  ⟨h'.extTree1.trans h.extTree1, h'.extTree2.trans h.extTree2, h'.intTree1.trans h.intTree1,
    h'.intTree2.trans h.intTree2, h'.intraTree1.trans h.intraTree1,
    h'.intraTree2.trans h.intraTree2⟩

theorem sameTrees_setPinTree (s : State μ) (t : Std.TreeMap PinKey Pin pincmp) (tree : PinTree) :
    SameTrees s (s.setPinTree t tree) := by
  cases tree <;> exact ⟨rfl, rfl, rfl, rfl, rfl, rfl⟩

theorem Takes.sameTrees {p : Pin} (h : Takes s tree k p s') : SameTrees s s' := by
  rw [h.eq]
  exact sameTrees_setPinTree s _ tree

theorem acquireSnat_sameTrees {s₁ : State μ} {c₁ : Conn} {ip : IpAddr}
    (h : acquireSnat g s c t tree k = .ok (s₁, c₁, ip)) : SameTrees s s₁ := by
  obtain ⟨rfl, -⟩ | ⟨p, htake, -⟩ := acquireSnat_cases h
  · exact SameTrees.refl s₁
  · exact htake.sameTrees

theorem acquireIntra_sameTrees {h : Handler} {s₁ : State μ} {c₁ : Conn}
    (ha : acquireIntra s c h pkt = .ok (some (s₁, c₁))) : SameTrees s s₁ := by
  obtain ⟨rfl, -⟩ | ⟨k, p, ip, htake, -⟩ := acquireIntra_cases ha
  · exact SameTrees.refl s₁
  · exact htake.sameTrees

/-! ### The exits of `create_conn` -/

/-- The pin tree and the key a connection from a backend to EXT looks for its source address. -/
def hihSnatPin (g : Globals) (front back : Handler) (daddr : IpAddr) : PinTree × PinKey :=
  if g.exclusiveHih = 1 then (.target, targetPinKey back) else (.comm, commPinKey front daddr)

/-- The connection structure of a packet from a backend, before its destination is known. -/
def hihFresh (pkt : Pkt) (r : TargetSearch) (back : Handler) (now : ℤ) : Conn :=
  { Conn.fresh pkt r.target .hih now .init with
    hih := { hihID := r.hihID, backHandler := some back } }

/-- The checks a packet of a honeypot to EXT must pass: it is addressed neither to an INTRA handler
nor to a backend. -/
def leaves (t : Target) (pkt : Pkt) : Bool :=
  t.intraHandlers[pkt.packet.daddr]?.isNone ∧
    ¬t.backHandlers.toList.any fun e => findHihDst pkt e.2

/-- The exits of `create_conn` that create a connection `c`, with the state they leave. -/
inductive Creates (g : Globals) (s : State μ) (i : ConnId) (t : Target) (pkt : Pkt)
    (r : TargetSearch) (now : ℤ) : Role → Conn → State μ → Prop
  | ext {front : Handler} {p : Pin} {s₁ : State μ} {c : Conn}
      (hfront : t.frontHandler = some front)
      (hpin : Takes
        (insertExt s i (newKey pkt 0) (dnatReplyKey pkt front.ip front.vlan.vid))
        .comm (commPinKey front pkt.packet.daddr) p s₁)
      (hc : c = { Conn.fresh pkt r.target .ext now .init with
        destination := .lih, extKey := some (newKey pkt 0)
        intKey := some (dnatReplyKey pkt front.ip front.vlan.vid)
        pinKey := some (commPinKey front pkt.packet.daddr) })
      (hnew : (s.pinTree .comm)[commPinKey front pkt.packet.daddr]? = none →
        p.ip = pkt.packet.daddr) :
      Creates g s i t pkt r now .ext c (s₁.withConn i c)
  | lih {front : Handler} {s₁ : State μ} {c₁ c : Conn} {ip : IpAddr}
      (hfront : t.frontHandler = some front)
      (hpin : acquireSnat g s (Conn.fresh pkt r.target .lih now .control) t .comm
        (commPinKey front pkt.packet.daddr) = .ok (s₁, c₁, ip))
      (hc : c = { c₁ with
        destination := .ext, extKey := some (snatReplyKey pkt ip)
        intKey := some (newKey pkt front.vlan.vid) })
      (hout : leaves t pkt = true) :
      Creates g s i t pkt r now .lih c
        ((insertInt s₁ i (newKey pkt front.vlan.vid) (snatReplyKey pkt ip)).withConn i c)
  | hih {front back : Handler} {s₁ : State μ} {c₁ c : Conn} {ip : IpAddr}
      (hfront : t.frontHandler = some front) (hback : r.backHandler = some back)
      (hpin : acquireSnat g s (hihFresh pkt r back now) t
        (hihSnatPin g front back pkt.packet.daddr).1
        (hihSnatPin g front back pkt.packet.daddr).2 = .ok (s₁, c₁, ip))
      (hc : c = { c₁ with
        destination := .ext, extKey := some (snatReplyKey pkt ip)
        intKey := some (newKey pkt back.vlan.vid) })
      (hout : leaves t pkt = true) (hlan : onLan back pkt.packet.daddr = false)
      (hne : pkt.packet.daddr ≠ front.ip) :
      Creates g s i t pkt r now .hih c
        ((insertInt s₁ i (newKey pkt back.vlan.vid) (snatReplyKey pkt ip)).withConn i c)
  | hihIntra {back h : Handler} {s₁ : State μ} {c₁ c : Conn}
      (hback : r.backHandler = some back) (hh : t.intraHandlers[pkt.packet.daddr]? = some h)
      (hpin : acquireIntra s { hihFresh pkt r back now with intraHandler := some h } h pkt =
        .ok (some (s₁, c₁)))
      (hc : c = { c₁ with
        destination := .intra, intraKey := some (dnatReplyKey pkt h.ip h.vlan.vid)
        intKey := some (newKey pkt back.vlan.vid) }) :
      Creates g s i t pkt r now .hih c
        ((insertIntra s₁ i (newKey pkt back.vlan.vid) (dnatReplyKey pkt h.ip h.vlan.vid)).withConn i
          c)
  | hihLan {back : Handler} {c : Conn} (hback : r.backHandler = some back)
      (hh : t.intraHandlers[pkt.packet.daddr]? = none) (hlan : onLan back pkt.packet.daddr = true)
      (hc : c = { hihFresh pkt r back now with destination := .intra }) :
      Creates g s i t pkt r now .hih c (s.withConn i c)

theorem createExt_cases
    (h : createExt s i (Conn.fresh pkt r.target .ext now .invalid) t pkt = .ok (some s')) :
    ∃ c, Creates g s i t pkt r now .ext c s' := by
  simp only [createExt] at h
  obtain ⟨front, hf, h⟩ := Except.bind_eq_ok.mp h
  obtain ⟨o, ho, h⟩ := Except.bind_eq_ok.mp h
  have hfront := Option.orFail_eq_ok.mp hf
  cases o with
  | none =>
    simp only [Except.pure_eq_ok, Except.ok_bind, Except.ok.injEq, Option.some.injEq] at h
    subst h
    exact ⟨_, .ext hfront ⟨rfl, .inl ⟨lookupPin_none_iff.mp ho, rfl⟩⟩ rfl fun _ => rfl⟩
  | some p =>
    simp only [Except.pure_eq_ok, Except.ok_bind, Except.ok.injEq, Option.some.injEq] at h
    subst h
    obtain ⟨hp, hc⟩ := lookupPin_some_iff.mp ho
    refine ⟨_, .ext hfront ⟨rfl, .inr ⟨p, hp, hc, rfl⟩⟩ rfl fun hnone => ?_⟩
    rw [insertExt_pinTree, hnone] at hp
    cases hp

theorem createToExt_cases {vlanId : BitVec 12}
    (h : createToExt g s i c t pkt tree k vlanId = .ok (some s')) :
    ∃ s₁ c₁ ip, acquireSnat g s c t tree k = .ok (s₁, c₁, ip) ∧
      s' = (insertInt s₁ i (newKey pkt vlanId) (snatReplyKey pkt ip)).withConn i
        { c₁ with
          destination := .ext, extKey := some (snatReplyKey pkt ip)
          intKey := some (newKey pkt vlanId) } := by
  simp only [createToExt] at h
  obtain ⟨⟨s₁, c₁, ip⟩, ha, h⟩ := Except.bind_eq_ok.mp h
  simp only [Except.pure_eq_ok, Except.ok.injEq, Option.some.injEq] at h
  exact ⟨s₁, c₁, ip, ha, h.symm⟩

theorem createLih_cases
    (h : createLih g s i (Conn.fresh pkt r.target .lih now .invalid) t pkt = .ok (some s')) :
    ∃ c, Creates g s i t pkt r now .lih c s' := by
  simp only [createLih] at h
  obtain ⟨front, hf, h⟩ := Except.bind_eq_ok.mp h
  split_ifs at h with hintra hhih
  · cases h
  · cases h
  · obtain ⟨s₁, c₁, ip, ha, rfl⟩ := createToExt_cases h
    refine ⟨_, .lih (Option.orFail_eq_ok.mp hf) ha rfl (decide_eq_true ⟨?_, hhih⟩)⟩
    simpa using hintra

theorem createToIntra_cases {h back : Handler}
    (hc : createToIntra s i c h back pkt = .ok (some s')) :
    ∃ s₁ c₁, acquireIntra s c h pkt = .ok (some (s₁, c₁)) ∧
      s' = (insertIntra s₁ i (newKey pkt back.vlan.vid)
          (dnatReplyKey pkt h.ip h.vlan.vid)).withConn i
        { c₁ with
          destination := .intra, intraKey := some (dnatReplyKey pkt h.ip h.vlan.vid)
          intKey := some (newKey pkt back.vlan.vid) } := by
  simp only [createToIntra] at hc
  obtain ⟨o, ha, hc⟩ := Except.bind_eq_ok.mp hc
  cases o with
  | none => cases hc
  | some x =>
    simp only [Except.pure_eq_ok, Except.ok.injEq, Option.some.injEq] at hc
    exact ⟨x.1, x.2, ha, hc.symm⟩

theorem createHih_cases
    (h : createHih g s i (Conn.fresh pkt r.target .hih now .invalid) t pkt r = .ok (some s')) :
    ∃ c, Creates g s i t pkt r now .hih c s' := by
  simp only [createHih] at h
  obtain ⟨back, hb, h⟩ := Except.bind_eq_ok.mp h
  obtain ⟨front, hf, h⟩ := Except.bind_eq_ok.mp h
  have hback := Option.orFail_eq_ok.mp hb
  have hfront := Option.orFail_eq_ok.mp hf
  split at h
  · rename_i hh
    obtain ⟨s₁, c₁, ha, rfl⟩ := createToIntra_cases h
    exact ⟨_, .hihIntra hback hh ha rfl⟩
  · rename_i hh
    split_ifs at h with hlan h₁ h₂ hex
    · simp only [Except.pure_eq_ok, Except.ok.injEq, Option.some.injEq] at h
      subst h
      exact ⟨_, .hihLan hback hh hlan rfl⟩
    · cases h
    · cases h
    · obtain ⟨s₁, c₁, ip, ha, rfl⟩ := createToExt_cases h
      exact ⟨_, .hih hfront hback (by rw [hihSnatPin, if_pos hex]; exact ha) rfl
        (decide_eq_true ⟨by simp [hh], h₂⟩) (by simpa using hlan) h₁⟩
    · obtain ⟨s₁, c₁, ip, ha, rfl⟩ := createToExt_cases h
      exact ⟨_, .hih hfront hback (by rw [hihSnatPin, if_neg hex]; exact ha) rfl
        (decide_eq_true ⟨by simp [hh], h₂⟩) (by simpa using hlan) h₁⟩

theorem findTarget_cases {id : TargetId} (h : findTarget pkt id t = .ok (some r)) :
    r.target = id ∧ ∃ front, t.frontHandler = some front ∧
      ((r.origin = .lih ∧ pkt.packet.saddr = front.ip) ∨
      (r.origin = .hih ∧ pkt.packet.saddr ≠ front.ip ∧
        ∃ (hihID : HandlerId) (back : Handler),
          t.backHandlers[hihID]? = some back ∧ r.backHandler = some back ∧
          findHihSrc pkt back = true) ∨
      (r.origin = .intra ∧ r.backHandler = none)) := by
  simp only [findTarget] at h
  obtain ⟨front, hf, h⟩ := Except.bind_eq_ok.mp h
  split_ifs at h with hlih
  · simp only [Except.pure_eq_ok, Except.ok.injEq, Option.some.injEq] at h
    subst h
    exact ⟨rfl, front, Option.orFail_eq_ok.mp hf, .inl ⟨rfl, hlih⟩⟩
  · split at h
    · rename_i hihID back hfind
      simp only [Except.pure_eq_ok, Except.ok.injEq, Option.some.injEq] at h
      subst h
      have hmem := List.mem_of_find?_eq_some hfind
      have hsrc := List.find?_some hfind
      exact ⟨rfl, front, Option.orFail_eq_ok.mp hf, .inr (.inl ⟨rfl, hlih, hihID, back,
        (Std.TreeMap.mem_toList_iff_getKey?_eq_some_and_getElem?_eq_some.mp hmem).2, rfl, hsrc⟩)⟩
    · split at h
      · simp only [Except.pure_eq_ok, Except.ok.injEq, Option.some.injEq] at h
        subst h
        exact ⟨rfl, front, Option.orFail_eq_ok.mp hf, .inr (.inr ⟨rfl, rfl⟩)⟩
      · cases h

/-- An internal packet is recognised by one of the targets. -/
theorem findTargets_cases {ts : List (TargetId × Target)} (h : findTargets pkt ts = .ok (some r)) :
    ∃ t, (r.target, t) ∈ ts ∧ findTarget pkt r.target t = .ok (some r) := by
  induction ts with
  | nil => cases h
  | cons e ts ih =>
    obtain ⟨id, t⟩ := e
    simp only [findTargets] at h
    obtain ⟨o, ho, h⟩ := Except.bind_eq_ok.mp h
    cases o with
    | none =>
      obtain ⟨t', hmem, ht'⟩ := ih h
      exact ⟨t', List.mem_cons_of_mem _ hmem, ht'⟩
    | some r' =>
      simp only [Except.pure_eq_ok, Except.ok.injEq, Option.some.injEq] at h
      subst h
      obtain ⟨rfl, -⟩ := findTarget_cases ho
      exact ⟨t, List.mem_cons_self .., ho⟩

/-- The target a packet without a connection belongs to: the one the interface is the default
route of, or one that recognises the sender. -/
theorem identify_cases (h : identify s pkt = .ok (some r)) :
    (pkt.origin = .ext ∧ r.origin = .ext ∧ s.ifTarget[pkt.inIface]? = some r.target) ∨
    (pkt.origin ≠ .ext ∧ ∃ t, s.targets[r.target]? = some t ∧
      findTarget pkt r.target t = .ok (some r)) := by
  simp only [identify] at h
  split_ifs at h with ho
  · simp only [Except.pure_eq_ok, Except.ok.injEq, Option.map_eq_some_iff] at h
    obtain ⟨id, hid, rfl⟩ := h
    exact .inl ⟨ho, rfl, hid⟩
  · obtain ⟨t, hmem, ht⟩ := findTargets_cases h
    exact .inr ⟨ho, t,
      (Std.TreeMap.mem_toList_iff_getKey?_eq_some_and_getElem?_eq_some.mp hmem).2, ht⟩

/-- A packet comes from EXT if its connection does. -/
theorem origin_ext_iff {r : TargetSearch} (hid : identify s pkt = .ok (some r)) :
    pkt.origin = .ext ↔ r.origin = .ext := by
  obtain ⟨h₁, h₂, -⟩ | ⟨h₁, t', -, hf⟩ := identify_cases hid
  · simp [h₁, h₂]
  · obtain ⟨-, front, -, ⟨h₂, -⟩ | ⟨h₂, -⟩ | ⟨h₂, -⟩⟩ := findTarget_cases hf <;> simp [h₁, h₂]

/-- A backend that is recognised is the source of the packet. -/
theorem findHihSrc_of_backHandler {back : Handler} (hid : identify s pkt = .ok (some r))
    (hrole : r.origin = .hih) (hback : r.backHandler = some back) : findHihSrc pkt back = true := by
  obtain ⟨-, ho, -⟩ | ⟨-, t, -, hf⟩ := identify_cases hid
  · rw [hrole] at ho
    cases ho
  · obtain ⟨-, front, -, ⟨ho, -⟩ | ⟨-, -, hihID, back', -, hb, hsrc⟩ | ⟨ho, -⟩⟩ :=
      findTarget_cases hf
    · rw [hrole] at ho
      cases ho
    · obtain rfl := Option.some.inj (hback.symm.trans hb)
      exact hsrc
    · rw [hrole] at ho
      cases ho

/-- The branch for INTRA hosts creates nothing: the backend it reads was never filled in. -/
theorem createIntra_ne_some (hr : r.backHandler = none) :
    createIntra s i c t pkt r ≠ .ok (some s') := by
  intro h
  simp only [createIntra] at h
  obtain ⟨front, -, h⟩ := Except.bind_eq_ok.mp h
  split_ifs at h
  · cases h
  · cases h
  · simp [hr] at h
  · cases h

theorem createAs_cases {s₀ : State μ} (hid : identify s₀ pkt = .ok (some r))
    (h : createAs g s i (Conn.fresh pkt r.target r.origin now .invalid) t pkt r = .ok (some s')) :
    ∃ c, Creates g s i t pkt r now r.origin c s' := by
  simp only [createAs] at h
  cases horig : r.origin with
  | ext =>
    rw [horig] at h
    exact createExt_cases h
  | lih =>
    rw [horig] at h
    exact createLih_cases h
  | hih =>
    rw [horig] at h
    exact createHih_cases h
  | int =>
    rw [horig] at h
    cases h
  | intra =>
    rw [horig] at h
    refine absurd h (createIntra_ne_some ?_)
    obtain ⟨-, he, -⟩ | ⟨-, t', -, hf⟩ := identify_cases hid
    · rw [horig] at he
      cases he
    · obtain ⟨-, front, -, ⟨he, -⟩ | ⟨he, -⟩ | ⟨-, hn⟩⟩ := findTarget_cases hf
      · rw [horig] at he
        cases he
      · rw [horig] at he
        cases he
      · exact hn

/-- **Creation.** `create_conn` either creates a connection through one of the exits of `Creates`,
or leaves everything but the counter alone. -/
theorem createConn_cases {o : Option (ConnId × Role)} (h : createConn g s pkt now = .ok (s', o)) :
    (o = none ∧ (s' = s ∨ s' = { s with cId := s.cId + 1 })) ∨
    (∃ r t c, identify s pkt = .ok (some r) ∧ s.targets[r.target]? = some t ∧
      o = some (s.cId + 1, r.origin) ∧
      Creates g { s with cId := s.cId + 1 } (s.cId + 1) t pkt r now r.origin c s') := by
  simp only [createConn] at h
  split_ifs at h with hsyn
  · simp only [Except.pure_eq_ok, Except.ok.injEq, Prod.mk.injEq] at h
    exact .inl ⟨h.2.symm, .inl h.1.symm⟩
  obtain ⟨o', hid, h⟩ := Except.bind_eq_ok.mp h
  cases o' with
  | none =>
    simp only [Except.pure_eq_ok, Except.ok.injEq, Prod.mk.injEq] at h
    exact .inl ⟨h.2.symm, .inl h.1.symm⟩
  | some r =>
    obtain ⟨t, ht, h⟩ := Except.bind_eq_ok.mp h
    obtain ⟨created, hcr, h⟩ := Except.bind_eq_ok.mp h
    cases created with
    | none =>
      simp only [Except.pure_eq_ok, Except.ok.injEq, Prod.mk.injEq] at h
      exact .inl ⟨h.2.symm, .inr h.1.symm⟩
    | some s₁ =>
      simp only [Except.pure_eq_ok, Except.ok.injEq, Prod.mk.injEq] at h
      obtain ⟨rfl, rfl⟩ := h
      obtain ⟨c, hc⟩ := createAs_cases hid hcr
      exact .inr ⟨r, t, c, hid, Option.orFail_eq_ok.mp ht, rfl, hc⟩

/-- A connection over TCP is opened by a SYN. -/
theorem createConn_syn {x : ConnId × Role} (h : createConn g s pkt now = .ok (s', some x)) :
    ¬(pkt.packet.protocol = IPPROTO_TCP ∧ pkt.packet.tcp.syn = false) := by
  intro hsyn
  rw [createConn, if_pos hsyn] at h
  cases h

/-- **Attribution.** `init_conn` updates a connection that was found, creates one, or leaves
everything but the counter alone. -/
theorem initConn_cases {o : Option (ConnId × Role)} (h : initConn g s pkt now = .ok (s', o)) :
    (∃ i role c, connLookup s pkt = .ok (some (i, role)) ∧ s.conns[i]? = some c ∧
      o = some (i, role) ∧ s' = s.withConn i (updateConn c role now)) ∨
    (connLookup s pkt = .ok none ∧ o = none ∧ (s' = s ∨ s' = { s with cId := s.cId + 1 })) ∨
    (connLookup s pkt = .ok none ∧ ∃ r t c, identify s pkt = .ok (some r) ∧
      s.targets[r.target]? = some t ∧ o = some (s.cId + 1, r.origin) ∧
      Creates g { s with cId := s.cId + 1 } (s.cId + 1) t pkt r now r.origin c s') := by
  simp only [initConn] at h
  obtain ⟨found, hl, h⟩ := Except.bind_eq_ok.mp h
  cases found with
  | none =>
    obtain ⟨ho, hs⟩ | ⟨r, t, c, hid, ht, ho, hc⟩ := createConn_cases h
    · exact .inr (.inl ⟨hl, ho, hs⟩)
    · exact .inr (.inr ⟨hl, r, t, c, hid, ht, ho, hc⟩)
  | some x =>
    obtain ⟨c, hc, h⟩ := Except.bind_eq_ok.mp h
    simp only [Except.pure_eq_ok, Except.ok.injEq, Prod.mk.injEq] at h
    exact .inl ⟨x.1, x.2, c, hl, Option.orFail_eq_ok.mp hc, h.2.symm, h.1.symm⟩

/-- What a creation makes of the initiator, the state and the destination. -/
theorem Creates.start {r : TargetSearch} {role : Role} {now : ℤ}
    (h : Creates g s i t pkt r now role c s') :
    c.initiator = role ∧ c.target = r.target ∧
      ((role = .ext ∧ c.state = .init ∧ c.destination = .lih) ∨
      (role = .lih ∧ c.state = .control ∧ c.destination = .ext) ∨
      (role = .hih ∧ c.state = .init ∧ (c.destination = .ext ∨ c.destination = .intra))) := by
  cases h with
  | ext hfront hpin hc =>
    subst hc
    exact ⟨rfl, rfl, .inl ⟨rfl, rfl, rfl⟩⟩
  | lih hfront hpin hc =>
    subst hc
    obtain ⟨-, rfl, -⟩ | ⟨p, -, -, rfl⟩ := acquireSnat_cases hpin
    · exact ⟨rfl, rfl, .inr (.inl ⟨rfl, rfl, rfl⟩)⟩
    · exact ⟨rfl, rfl, .inr (.inl ⟨rfl, rfl, rfl⟩)⟩
  | hih hfront hback hpin hc =>
    subst hc
    obtain ⟨-, rfl, -⟩ | ⟨p, -, -, rfl⟩ := acquireSnat_cases hpin
    · exact ⟨rfl, rfl, .inr (.inr ⟨rfl, rfl, .inl rfl⟩)⟩
    · exact ⟨rfl, rfl, .inr (.inr ⟨rfl, rfl, .inl rfl⟩)⟩
  | hihIntra hback hh hpin hc =>
    subst hc
    obtain ⟨-, rfl⟩ | ⟨k, p, ip, -, rfl⟩ := acquireIntra_cases hpin
    · exact ⟨rfl, rfl, .inr (.inr ⟨rfl, rfl, .inr rfl⟩)⟩
    · exact ⟨rfl, rfl, .inr (.inr ⟨rfl, rfl, .inr rfl⟩)⟩
  | hihLan hback hh hlan hc =>
    subst hc
    exact ⟨rfl, rfl, .inr (.inr ⟨rfl, rfl, .inr rfl⟩)⟩

/-! ### Lookup -/

theorem originOf_cases {role : Role} (h : originOf s pkt i = .ok role) :
    ∃ c t front, s.conns[i]? = some c ∧ s.targets[c.target]? = some t ∧
      t.frontHandler = some front ∧ role = classify front pkt := by
  simp only [originOf] at h
  obtain ⟨c, hc, h⟩ := Except.bind_eq_ok.mp h
  obtain ⟨t, ht, h⟩ := Except.bind_eq_ok.mp h
  obtain ⟨front, hf, h⟩ := Except.bind_eq_ok.mp h
  cases h
  exact ⟨c, t, front, Option.orFail_eq_ok.mp hc, Option.orFail_eq_ok.mp ht,
    Option.orFail_eq_ok.mp hf, rfl⟩

/-- A packet of EXT is found in two trees, and an internal one in four; the last of them gives it
the origin INTRA. -/
theorem connLookup_cases {role : Role} (h : connLookup s pkt = .ok (some (i, role))) :
    (pkt.origin = .ext ∧ role = .ext ∧
      (s.extTree1[pkt.connKey]? = some i ∨ s.intTree2[pkt.connKey]? = some i)) ∨
    (pkt.origin ≠ .ext ∧ (role = .lih ∨ role = .hih) ∧
      (s.extTree2[pkt.connKey]? = some i ∨ s.intTree1[pkt.connKey]? = some i ∨
        s.intraTree1[pkt.connKey]? = some i)) ∨
    (pkt.origin ≠ .ext ∧ role = .intra ∧ s.intraTree2[pkt.connKey]? = some i) := by
  -- a connection that is found is the one the tree leads to
  have hat {j : ConnId} {r : Role} (h : (do let _ ← s.connAt j; return some (j, r)) =
      (.ok (some (i, role)) : Except Fault _)) : j = i ∧ role = r := by
    obtain ⟨c, -, h⟩ := Except.bind_eq_ok.mp h
    cases h
    exact ⟨rfl, rfl⟩
  have horig {j : ConnId} (h : (do let r ← originOf s pkt j; return some (j, r)) =
      (.ok (some (i, role)) : Except Fault _)) : j = i ∧ (role = .lih ∨ role = .hih) := by
    obtain ⟨r, hr, h⟩ := Except.bind_eq_ok.mp h
    cases h
    obtain ⟨c, t, front, -, -, -, rfl⟩ := originOf_cases hr
    refine ⟨rfl, ?_⟩
    unfold classify
    split_ifs <;> simp
  unfold connLookup at h
  simp only at h
  by_cases ho : pkt.origin = .ext
  · rw [if_pos ho] at h
    split at h
    · obtain ⟨rfl, hr⟩ := hat h
      exact .inl ⟨ho, hr, .inl (by assumption)⟩
    · obtain ⟨rfl, hr⟩ := hat h
      exact .inl ⟨ho, hr, .inr (by assumption)⟩
    · cases h
  · rw [if_neg ho] at h
    split at h
    · obtain ⟨rfl, hr⟩ := horig h
      exact .inr (.inl ⟨ho, hr, .inl (by assumption)⟩)
    · obtain ⟨rfl, hr⟩ := horig h
      exact .inr (.inl ⟨ho, hr, .inr (.inl (by assumption))⟩)
    · obtain ⟨rfl, hr⟩ := horig h
      exact .inr (.inl ⟨ho, hr, .inr (.inr (by assumption))⟩)
    · obtain ⟨rfl, hr⟩ := hat h
      exact .inr (.inr ⟨ho, hr, by assumption⟩)
    · cases h

/-- The origin `conn_lookup` gives to a packet. -/
theorem connLookup_origin {role : Role} (h : connLookup s pkt = .ok (some (i, role))) :
    (pkt.origin = .ext ∧ role = .ext) ∨
    (pkt.origin ≠ .ext ∧ (role = .lih ∨ role = .hih ∨ role = .intra)) := by
  obtain ⟨ho, hr, -⟩ | ⟨ho, hr | hr, -⟩ | ⟨ho, hr, -⟩ := connLookup_cases h
  · exact .inl ⟨ho, hr⟩
  · exact .inr ⟨ho, .inl hr⟩
  · exact .inr ⟨ho, .inr (.inl hr)⟩
  · exact .inr ⟨ho, .inr (.inr hr)⟩

theorem originOf_eq {front : Handler} (hc : s.conns[i]? = some c)
    (ht : s.targets[c.target]? = some t) (hf : t.frontHandler = some front) :
    originOf s pkt i = .ok (classify front pkt) := by
  simp [originOf, State.connAt, State.targetOf, hc, ht, hf]

/-- A packet of EXT belongs to a connection from EXT, or to one to EXT. -/
theorem connLookup_ext (ho : pkt.origin = .ext)
    (h : s.extTree1[pkt.connKey]? = some i ∨
      s.extTree1[pkt.connKey]? = none ∧ s.intTree2[pkt.connKey]? = some i)
    (hc : s.conns[i]? = some c) : connLookup s pkt = .ok (some (i, .ext)) := by
  unfold connLookup
  simp only
  rw [if_pos ho]
  obtain h | ⟨h₁, h₂⟩ := h
  · simp [h, State.connAt, hc]
  · simp [h₁, h₂, State.connAt, hc]

/-- An internal packet is looked for in three trees, and classified by its target. -/
theorem connLookup_int {front : Handler} (ho : pkt.origin ≠ .ext)
    (h : s.extTree2[pkt.connKey]? = some i ∨ s.extTree2[pkt.connKey]? = none ∧
      (s.intTree1[pkt.connKey]? = some i ∨
        s.intTree1[pkt.connKey]? = none ∧ s.intraTree1[pkt.connKey]? = some i))
    (hc : s.conns[i]? = some c) (ht : s.targets[c.target]? = some t)
    (hf : t.frontHandler = some front) : connLookup s pkt = .ok (some (i, classify front pkt)) := by
  have horig : originOf s pkt i = .ok (classify front pkt) := originOf_eq hc ht hf
  unfold connLookup
  simp only
  rw [if_neg ho]
  obtain h | ⟨h₁, h | ⟨h₂, h₃⟩⟩ := h
  · simp [h, horig]
  · simp [h₁, h, horig]
  · simp [h₁, h₂, h₃, horig]

/-- A packet that belongs to no connection is in none of the trees it is looked for in. -/
theorem connLookup_eq_none (h : connLookup s pkt = .ok none) :
    (pkt.origin = .ext → s.extTree1[pkt.connKey]? = none ∧ s.intTree2[pkt.connKey]? = none) ∧
    (pkt.origin ≠ .ext → s.extTree2[pkt.connKey]? = none ∧ s.intTree1[pkt.connKey]? = none ∧
      s.intraTree1[pkt.connKey]? = none ∧ s.intraTree2[pkt.connKey]? = none) := by
  unfold connLookup at h
  simp only at h
  refine ⟨fun ho => ?_, fun ho => ?_⟩
  · rw [if_pos ho] at h
    split at h
    · obtain ⟨c, -, h⟩ := Except.bind_eq_ok.mp h
      cases h
    · obtain ⟨c, -, h⟩ := Except.bind_eq_ok.mp h
      cases h
    · exact ⟨by assumption, by assumption⟩
  · rw [if_neg ho] at h
    split at h
    · obtain ⟨c, -, h⟩ := Except.bind_eq_ok.mp h
      cases h
    · obtain ⟨c, -, h⟩ := Except.bind_eq_ok.mp h
      cases h
    · obtain ⟨c, -, h⟩ := Except.bind_eq_ok.mp h
      cases h
    · obtain ⟨c, -, h⟩ := Except.bind_eq_ok.mp h
      cases h
    · exact ⟨by assumption, by assumption, by assumption, by assumption⟩

end Honeybrid
