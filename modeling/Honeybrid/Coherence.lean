import Honeybrid.Executions

/-!
# Creation and lookup agree

`create_conn` recognises the sender of a packet by `find_target` and builds the keys of the new
connection from the handler it has found; `conn_lookup` builds its key from the packet and
classifies the sender anew. This file shows that the packet that has created a connection is found
by the keys of that connection, with the same origin, right after the creation and after the packet
has been handled.

A connection of a high-interaction honeypot to an undefined address of its own LAN is an exception:
it is handed to the decision engine without being entered in any tree. Nothing is said about a
packet with the address of the low-interaction honeypot that does not come from its interface and
VLAN, since `find_target` compares the address only.

## Main definitions

* `Entered s pkt i`: the trees lead from the key of the packet to the connection `i`.
* `OnUndefinedLan`, `FromFront`: the conditions on a packet.

## Main results

* `Creates.entered`: the packet that creates a connection is entered.
* `Handles.entered`: handling it keeps it entered.
* `createConn_of_onUndefinedLan`: the exception gets a connection that is in no tree.
* `coherent`: the theorem.
-/

namespace Honeybrid

variable {μ : Type} {mods : Modules μ} {g : Globals} {s s' s₁ : State μ} {i : ConnId}
  {pkt q : Pkt} {c : Conn} {t : Target} {w w' : Work μ} {ev tr : List Event} {raw : RawPcap}
  {now : ℤ} {r : TargetSearch} {role : Role} {b : Bool}

/-- The trees lead from the key of the packet to the connection `i`. -/
structure Entered (s : State μ) (pkt : Pkt) (i : ConnId) : Prop where
  ext : pkt.origin = .ext → s.extTree1[pkt.connKey]? = some i
  int : pkt.origin ≠ .ext → s.extTree2[pkt.connKey]? = none ∧
    (s.intTree1[pkt.connKey]? = some i ∨
      s.intTree1[pkt.connKey]? = none ∧ s.intraTree1[pkt.connKey]? = some i)

/-- A packet of a high-interaction honeypot to an address of its LAN that no INTRA handler stands
for. -/
def OnUndefinedLan (s : State μ) (pkt : Pkt) : Prop :=
  ∃ r t back, identify s pkt = .ok (some r) ∧ s.targets[r.target]? = some t ∧
    r.backHandler = some back ∧ t.intraHandlers[pkt.packet.daddr]? = none ∧
    onLan back pkt.packet.daddr = true

/-- A packet that is recognised by the address of a low-interaction honeypot comes from the
interface and the VLAN of this honeypot. -/
def FromFront (s : State μ) (pkt : Pkt) : Prop :=
  ∀ r t front, identify s pkt = .ok (some r) → r.origin = .lih → s.targets[r.target]? = some t →
    t.frontHandler = some front →
    front.iface = some pkt.inIface ∧ front.vlan.vid = pkt.packet.vlanId

/-! ### Creation -/

theorem newKey_eq {vlanId : BitVec 12} (h : vlanId = pkt.packet.vlanId) :
    newKey pkt vlanId = pkt.connKey := by
  rw [newKey, Pkt.connKey, h]

/-- A backend is recognised by its VLAN as well. -/
theorem vlan_of_backHandler {back : Handler} (hid : identify s pkt = .ok (some r))
    (hrole : r.origin = .hih) (hback : r.backHandler = some back) :
    back.vlan.vid = pkt.packet.vlanId := by
  have hsrc := findHihSrc_of_backHandler hid hrole hback
  simp only [findHihSrc, Frame.onVlan_iff, decide_eq_true_eq] at hsrc
  exact hsrc.2.2

/-- The packet that creates a connection is entered under the key of this connection. -/
theorem Creates.entered (hnone : connLookup s pkt = .ok none)
    (hid : identify s pkt = .ok (some r)) (ht : s.targets[r.target]? = some t)
    (hvlan : pkt.origin = .ext → pkt.packet.vlan = none) (hlan : ¬OnUndefinedLan s pkt)
    (hfrom : FromFront s pkt)
    (h : Creates g { s with cId := i } i t pkt r now r.origin c s') :
    Entered s' pkt i ∧ (pkt.origin ≠ .ext → c.intKey = some pkt.connKey) := by
  obtain ⟨hext, hint⟩ := connLookup_eq_none hnone
  have horig := origin_ext_iff hid
  generalize hrole : r.origin = role at h
  cases h with
  | ext hfront hpin hc =>
    have ho := horig.mpr hrole
    have hkey : newKey pkt 0 = pkt.connKey := newKey_eq (by simp [Frame.vlanId, hvlan ho])
    refine ⟨⟨fun _ => ?_, fun h => absurd ho h⟩, fun h => absurd ho h⟩
    rw [withConn_extTree1, hpin.sameTrees.extTree1, insertExt, hkey]
    simp
  | lih hfront hpin hc =>
    have ho : pkt.origin ≠ .ext := fun h => by simp [hrole] at horig; exact horig h
    obtain ⟨-, hvid⟩ := hfrom r t _ hid hrole ht hfront
    have hs := acquireSnat_sameTrees hpin
    obtain ⟨h₁, h₂, h₃, -⟩ := hint ho
    rw [newKey_eq hvid] at hc ⊢
    refine ⟨⟨fun h => absurd h ho, fun _ => ⟨?_, .inl ?_⟩⟩, fun _ => by rw [hc]⟩
    · rw [withConn_extTree2, insertInt, hs.extTree2]
      exact h₁
    · simp [insertInt]
  | hih hfront hback hpin hc =>
    have ho : pkt.origin ≠ .ext := fun h => by simp [hrole] at horig; exact horig h
    have hs := acquireSnat_sameTrees hpin
    obtain ⟨h₁, h₂, h₃, -⟩ := hint ho
    rw [newKey_eq (vlan_of_backHandler hid hrole hback)] at hc ⊢
    refine ⟨⟨fun h => absurd h ho, fun _ => ⟨?_, .inl ?_⟩⟩, fun _ => by rw [hc]⟩
    · rw [withConn_extTree2, insertInt, hs.extTree2]
      exact h₁
    · simp [insertInt]
  | hihIntra hback hh hpin hc =>
    have ho : pkt.origin ≠ .ext := fun h => by simp [hrole] at horig; exact horig h
    have hs := acquireIntra_sameTrees hpin
    obtain ⟨h₁, h₂, h₃, -⟩ := hint ho
    rw [newKey_eq (vlan_of_backHandler hid hrole hback)] at hc ⊢
    refine ⟨⟨fun h => absurd h ho, fun _ => ⟨?_, .inr ⟨?_, ?_⟩⟩⟩, fun _ => by rw [hc]⟩
    · rw [withConn_extTree2, insertIntra, hs.extTree2]
      exact h₁
    · rw [withConn_intTree1, insertIntra, hs.intTree1]
      exact h₂
    · simp [insertIntra]
  | hihLan hback hh hlan' hc => exact absurd ⟨r, t, _, hid, ht, hback, hh, hlan'⟩ hlan

/-- Only a high-interaction honeypot is recognised with a backend. -/
theorem hih_of_backHandler {back : Handler} (hid : identify s pkt = .ok (some r))
    (ht : s.targets[r.target]? = some t) (hback : r.backHandler = some back) :
    r.origin = .hih ∧ ∃ front, t.frontHandler = some front := by
  by_cases ho : pkt.origin = .ext
  · simp only [identify, if_pos ho, Except.pure_eq_ok, Except.ok.injEq, Option.map_eq_some_iff]
      at hid
    obtain ⟨id, -, rfl⟩ := hid
    cases hback
  obtain ⟨hext, -⟩ | ⟨-, t', ht', hfind⟩ := identify_cases hid
  · exact absurd hext ho
  obtain rfl := Option.some.inj (ht.symm.trans ht')
  generalize r.target = id at hfind
  simp only [findTarget] at hfind
  obtain ⟨front, hfront, hfind⟩ := Except.bind_eq_ok.mp hfind
  have hfront := Option.orFail_eq_ok.mp hfront
  split_ifs at hfind
  · cases hfind
    cases hback
  · split at hfind
    · cases hfind
      exact ⟨rfl, front, hfront⟩
    · split at hfind
      · cases hfind
        cases hback
      · cases hfind

/-- A packet of a high-interaction honeypot to an undefined address of its LAN gets a connection,
and this is not entered in any tree. -/
theorem createConn_of_onUndefinedLan (g : Globals) (now : ℤ) (hlan : OnUndefinedLan s pkt)
    (hsyn : ¬(pkt.packet.protocol = IPPROTO_TCP ∧ pkt.packet.tcp.syn = false)) :
    ∃ c, createConn g s pkt now =
        .ok ({ s with cId := s.cId + 1 }.withConn (s.cId + 1) c, some (s.cId + 1, .hih)) ∧
      c.state = .init ∧ c.destination = .intra ∧
      c.extKey = none ∧ c.intKey = none ∧ c.intraKey = none := by
  obtain ⟨r, t, back, hid, ht, hback, hnone, hon⟩ := hlan
  obtain ⟨horigin, front, hfront⟩ := hih_of_backHandler hid ht hback
  refine ⟨{ hihFresh pkt r back now with destination := .intra }, ?_, rfl, rfl, rfl, rfl, rfl⟩
  rw [createConn, if_neg hsyn, hid]
  simp only [Except.ok_bind, ht, Option.orFail_some, createAs, horigin, createHih, hback, hfront,
    hnone, hon, if_true, Except.pure_eq_ok]
  rfl

/-- The target of a new connection has a front handler: the creation has read it, or the search. -/
theorem Creates.frontHandler (hid : identify s pkt = .ok (some r))
    (ht : s.targets[r.target]? = some t)
    (h : Creates g { s with cId := i } i t pkt r now r.origin c s') :
    ∃ front, t.frontHandler = some front := by
  obtain ⟨-, ho, -⟩ | ⟨-, t', ht', hfind⟩ := identify_cases hid
  · rw [ho] at h
    cases h with
    | ext hfront hpin hc => exact ⟨_, hfront⟩
  · obtain rfl : t = t' := Option.some.inj (ht.symm.trans ht')
    obtain ⟨-, front, hf, -⟩ := findTarget_cases hfind
    exact ⟨front, hf⟩

/-! ### Handling -/

/-- A rule keeps the packet entered: `dns_control` moves its connection from one tree to another. -/
theorem RuleRun.entered (h : RuleRun i b w w') (he : Entered w.st pkt i)
    (hk : pkt.origin ≠ .ext → w.conn.intKey = some pkt.connKey) :
    Entered w'.st pkt i ∧ (pkt.origin ≠ .ext → w'.conn.intKey = some pkt.connKey) := by
  induction h with
  | refl => exact ⟨he, hk⟩
  | tail _ hstep ih =>
    obtain ⟨ih, ihk⟩ := ih
    cases hstep with
    | mem m => exact ⟨⟨ih.ext, ih.int⟩, ihk⟩
    | dns hb ht hs =>
      obtain ⟨intKey, extKey, intraKey, hi, -, rfl, rfl⟩ := switchConnToIntra_cases hs
      refine ⟨⟨ih.ext, fun ho => ⟨(ih.int ho).1, .inr ?_⟩⟩, ihk⟩
      obtain rfl : intKey = pkt.connKey := Option.some.inj (hi.symm.trans (ihk ho))
      simp [insertIntra]

/-- Before DECISION a verdict leaves the trees alone. -/
theorem deProcessPacket_entered {status : Status} (hs : w.conn.state ≠ .decision)
    (h : deProcessPacket mods i q g w = .ok (status, w', ev)) (he : Entered w.st pkt i)
    (hk : pkt.origin ≠ .ext → w.conn.intKey = some pkt.connKey) : Entered w'.st pkt i := by
  obtain ⟨d, w₁, ev₁, ev₂, t, hev, -, ha, -⟩ := deProcessPacket_cases h
  have hrun := evaluate_run hev
  obtain ⟨he₁, -⟩ := hrun.entered he hk
  cases ha with
  | redirect hd hs₁ hr =>
    obtain hc | ⟨h', k, hc⟩ := hrun.conn_cases
    · rw [hc] at hs₁
      exact absurd hs₁ hs
    · rw [hc] at hs₁
      cases hs₁
  | _ => exact he₁

/-- The first packet of a connection stays entered while it is handled. -/
theorem Handles.entered (h : Handles mods g i q w w' ev) (hs : w.conn.state ≠ .decision)
    (he : Entered w.st pkt i) (hk : pkt.origin ≠ .ext → w.conn.intKey = some pkt.connKey) :
    Entered w'.st pkt i := by
  have hsyn : (noteLihSyn q w.conn).state = w.conn.state ∧
      (noteLihSyn q w.conn).intKey = w.conn.intKey := by
    obtain ⟨n, h⟩ := noteLihSyn_conn q w.conn
    rw [h]
    exact ⟨rfl, rfl⟩
  have hopen : (w.conn.switchState .control).state ≠ .decision := ConnStatus.noConfusion
  cases h with
  | lihControlOk ho hs' hd ht hp =>
    have he' := deProcessPacket_entered (hsyn.1.trans_ne hs) hd he fun ho => hsyn.2.trans (hk ho)
    exact he'
  | lihControlNok ho hs' hd ht =>
    have he' := deProcessPacket_entered (hsyn.1.trans_ne hs) hd he fun ho => hsyn.2.trans (hk ho)
    exact he'
  | hihControlOk ho hs' hd ht hp => exact deProcessPacket_entered hs hd he hk
  | hihControlNok ho hs' hd => exact deProcessPacket_entered hs hd he hk
  | hihInitOk ho hs' hd hp => exact deProcessPacket_entered hopen hd he hk
  | hihInitNok ho hs' hd => exact deProcessPacket_entered hopen hd he hk
  | extEarlyOk ho hs' hd ht hp =>
    have he' := deProcessPacket_entered hs hd he hk
    exact he'
  | extEarlyNok ho hs' hd ht =>
    have he' := deProcessPacket_entered hs hd he hk
    exact he'
  | _ => exact he

theorem Entered.withConn (h : Entered s pkt i) : Entered (s.withConn i c) pkt i :=
  ⟨h.ext, h.int⟩

/-! ### Lookup -/

/-- A packet that is entered is found, and classified by the front handler of its connection's
target. -/
theorem Entered.connLookup (he : Entered s pkt i) (hc : s.conns[i]? = some c)
    (ht : s.targets[c.target]? = some t) {front : Handler} (hf : t.frontHandler = some front) :
    Honeybrid.connLookup s pkt =
      .ok (some (i, if pkt.origin = .ext then .ext else classify front pkt)) := by
  by_cases ho : pkt.origin = .ext
  · rw [if_pos ho]
    exact connLookup_ext ho (.inl (he.ext ho)) hc
  · rw [if_neg ho]
    exact connLookup_int ho (.inr (he.int ho)) hc ht hf

/-- `conn_lookup` classifies a packet as `find_target` does. -/
theorem origin_eq_classify {front : Handler} (hid : identify s pkt = .ok (some r))
    (hne : r.origin ≠ .intra) (ht : s.targets[r.target]? = some t)
    (hf : t.frontHandler = some front) (hfrom : FromFront s pkt) :
    r.origin = if pkt.origin = .ext then .ext else classify front pkt := by
  obtain ⟨ho, hr, -⟩ | ⟨ho, t', ht', hfind⟩ := identify_cases hid
  · rw [if_pos ho, hr]
  · obtain rfl : t = t' := Option.some.inj (ht.symm.trans ht')
    rw [if_neg ho, classify]
    obtain ⟨-, front', hf', ⟨hr, hip⟩ | ⟨hr, hip, -⟩ | ⟨hr, -⟩⟩ := findTarget_cases hfind
    · obtain rfl : front = front' := Option.some.inj (hf.symm.trans hf')
      obtain ⟨hiface, hvid⟩ := hfrom r t front hid hr ht hf
      rw [hr, if_pos ⟨hiface, hip, (Frame.onVlan_iff ..).mpr hvid⟩]
    · obtain rfl : front = front' := Option.some.inj (hf.symm.trans hf')
      rw [hr, if_neg fun h => hip h.2.1]
    · exact absurd hr hne

/-- The captured frame becomes the packet `pkt`, which is resolved to the connection `i` with the
origin `role`. -/
def Resolves (s : State μ) (raw : RawPcap) (pkt : Pkt) (i : ConnId) (role : Role) : Prop :=
  capture s raw = some pkt ∧ connLookup s pkt = .ok (some (i, role))

/-- **Creation and lookup agree.** When a packet belongs to no connection and creates one, the same
frame on the same interface is resolved to this connection with the origin that the creation has
assigned: right after the creation, and after the packet has been handled. This is so unless a
high-interaction honeypot addresses an undefined host of its LAN; a packet that is recognised by
the address of the low-interaction honeypot must come from there. -/
theorem coherent (hcap : capture s raw = some pkt) (hlook : connLookup s pkt = .ok none)
    (hcr : createConn g s pkt now = .ok (s₁, some (i, role))) (hlan : ¬OnUndefinedLan s pkt)
    (hfrom : FromFront s pkt) :
    Resolves s₁ raw pkt i role ∧
      ∀ (mods : Modules μ) c w ev, s₁.conns[i]? = some c →
        handle mods g i { pkt with origin := role } ⟨s₁, c⟩ = .ok (w, ev) →
        Resolves (w.st.withConn i w.conn) raw pkt i role := by
  obtain ⟨ho, -⟩ | ⟨r, t, c, hid, ht, ho, hc⟩ := createConn_cases hcr
  · cases ho
  simp only [Option.some.injEq, Prod.mk.injEq] at ho
  obtain ⟨rfl, rfl⟩ := ho
  obtain ⟨-, -, -, -, -, hvlan⟩ := capture_cases hcap
  obtain ⟨he, hk⟩ := hc.entered hlook hid ht hvlan hlan hfrom
  obtain ⟨-, htar, hstart⟩ := hc.start
  obtain ⟨hts, hif, -, hconns⟩ := hc.frame
  have hget : s₁.conns[s.cId + 1]? = some c := by rw [hconns, Std.TreeMap.lookup_insert, if_pos rfl]
  have hne : r.origin ≠ .intra := by
    rintro h
    simp [h] at hstart
  obtain ⟨front, hf⟩ := hc.frontHandler hid ht
  have hrole := origin_eq_classify hid hne ht hf hfrom
  refine ⟨⟨(capture_congr hif raw).trans hcap, ?_⟩, fun mods c' w ev hc' hh => ?_⟩
  · rw [he.connLookup hget (by rw [hts, htar]; exact ht) hf, ← hrole]
  · obtain rfl : c = c' := Option.some.inj (hget.symm.trans hc')
    have hH := handle_cases hh
    obtain ⟨hfr, hflow⟩ := hH.framed
    have he' : Entered w.st pkt (s.cId + 1) := by
      refine hH.entered ?_ he hk
      obtain ⟨-, h, -⟩ | ⟨-, h, -⟩ | ⟨-, h, -⟩ := hstart <;> simp [h]
    -- the target has kept its front handler
    have hfix : w.st.targets[w.conn.target]?.map Target.fixed = some t.fixed := by
      rw [hfr.targets, Conn.target_of_flow hflow, htar, hts, ht, Option.map_some]
    obtain ⟨t', ht', hfix⟩ := Option.map_eq_some_iff.mp hfix
    have hf' : t'.frontHandler = some front := (congrArg Target.frontHandler hfix).trans hf
    have hlook' := (he'.withConn (c := w.conn)).connLookup (by simp) ht' hf'
    rw [← hrole] at hlook'
    exact ⟨(capture_congr (hfr.ifTarget.trans hif) raw).trans hcap, hlook'⟩

namespace Sample

/-- A packet of the low-interaction honeypot to the outside. -/
def outbound : Pkt :=
  { packet .int (udp 1 10 80 50 1000) with data := 18 }

/-- The packet comes from its honeypot: what the search finds has no backend, and the interface and
the VLAN are those of the front handler. -/
theorem outbound_identified :
    ((identify start outbound).passes fun o => o.all fun r => r.backHandler.isNone ∧
      start.targets[r.target]?.all fun t => t.frontHandler.all fun front =>
        front.iface = some outbound.inIface ∧ front.vlan.vid = outbound.packet.vlanId) = true := by
  decide +kernel

theorem outbound_fromFront : ¬OnUndefinedLan start outbound ∧ FromFront start outbound := by
  obtain ⟨o, hid, hp⟩ := Except.passes_iff.mp outbound_identified
  refine ⟨?_, fun r t front hr hl ht hf => ?_⟩
  · rintro ⟨r, t, back, hr, ht, hback, -⟩
    obtain rfl := Except.ok.inj (hid.symm.trans hr)
    simp [hback] at hp
  · obtain rfl := Except.ok.inj (hid.symm.trans hr)
    simp only [Option.all_some, ht, hf, decide_eq_true_eq] at hp
    exact hp.2

end Sample

/-- The first packet of a connection from the low-interaction honeypot is found again. -/
theorem coherent_lih :
    ∃ s₁, capture Sample.start (Sample.udp 1 10 80 50 1000) = some Sample.outbound ∧
      connLookup Sample.start Sample.outbound = .ok none ∧
      createConn Sample.globals Sample.start Sample.outbound 0 = .ok (s₁, some (1, .lih)) ∧
      Resolves s₁ (Sample.udp 1 10 80 50 1000) Sample.outbound 1 .lih := by
  have hcap : capture Sample.start (Sample.udp 1 10 80 50 1000) = some Sample.outbound := by
    decide +kernel
  have hlook : connLookup Sample.start Sample.outbound = .ok none :=
    Except.eq_ok_of_passes (by decide +kernel)
  have h : ((createConn Sample.globals Sample.start Sample.outbound 0).passes
      (·.2 = some (1, .lih))) = true := by
    decide +kernel
  obtain ⟨⟨s₁, o⟩, hcr, ho⟩ := Except.passes_iff.mp h
  obtain rfl : o = some (1, .lih) := of_decide_eq_true ho
  obtain ⟨hlan, hfrom⟩ := Sample.outbound_fromFront
  exact ⟨s₁, hcap, hlook, hcr, (coherent hcap hlook hcr hlan hfrom).1⟩

namespace Sample

/-- The configuration in which the backend has a netmask. -/
def lan : State Unit :=
  boot ((∅ : Std.TreeMap TargetId Target intcmp).insert 1
    { target with
      backHandlers := (∅ : Std.TreeMap HandlerId Handler intcmp).insert 1
        { hih with netmask := some 0xfffffff0 } }) ifTarget ()

/-- A packet of the backend to an undefined host of its LAN. -/
def astray : Pkt :=
  { packet .int (udp 2 20 1000 21 80) with data := 18 }

end Sample

/-- A backend addresses an undefined host of its LAN: `create_conn` returns a connection that no
tree knows, and the next such packet creates another one. -/
theorem coherent_broken :
    capture Sample.lan (Sample.udp 2 20 1000 21 80) = some Sample.astray ∧
      connLookup Sample.lan Sample.astray = .ok none ∧
      ∃ s₁ s₂, createConn Sample.globals Sample.lan Sample.astray 0 = .ok (s₁, some (1, .hih)) ∧
        connLookup s₁ Sample.astray = .ok none ∧
        createConn Sample.globals s₁ Sample.astray 0 = .ok (s₂, some (2, .hih)) := by
  refine ⟨by decide +kernel, Except.eq_ok_of_passes (by decide +kernel), ?_⟩
  have h : ((createConn Sample.globals Sample.lan Sample.astray 0).passes fun r =>
      r.2 = some (1, .hih) ∧ (connLookup r.1 Sample.astray).passes (· = none) ∧
      (createConn Sample.globals r.1 Sample.astray 0).passes (·.2 = some (2, .hih))) = true := by
    decide +kernel
  obtain ⟨⟨s₁, o⟩, hcr, hp⟩ := Except.passes_iff.mp h
  obtain ⟨rfl, hlook, hagain⟩ := of_decide_eq_true hp
  obtain ⟨⟨s₂, o'⟩, hcr', ho'⟩ := Except.passes_iff.mp hagain
  obtain rfl : o' = some (2, .hih) := of_decide_eq_true ho'
  exact ⟨s₁, s₂, hcr, Except.eq_ok_of_passes hlook, hcr'⟩

end Honeybrid
