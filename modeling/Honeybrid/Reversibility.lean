import Honeybrid.Tables

/-!
# Replies find their way back

The keys of a connection are written when it is created or redirected, and the headers of its
packets are rewritten when they are sent; the two are computed independently. This file shows that
they agree: the reply to a frame that was sent for a connection is resolved to this connection, and
what the engine sends for the reply goes from the address the sender of the original packet had
addressed back to this sender.

The connection is considered alone in the trees: it is created in a state without connections, and
only worked on and redirected afterwards. Pins are arbitrary.

## Main definitions

* `NoConns`, `Alone`: no connection is in the trees, or one under its keys.
* `Binding`, `Keyed`: a binding of the translation, and a connection with the keys of a binding.
* `Sole`: a connection that is alone in the trees, with its target.
* `Passes`: packets of a party are sent on whatever the rules say.
* `Relays`: a frame that is sent for a packet the engine has just received.
* `Reverses`: a captured frame that answers another one.

## Main results

* `created_sole`, `Operates.sole`: creation from empty trees, work and redirection.
* `Handles.relays_back`: what the engine sends for a packet of the connection.
* `Sole.sent`: the packets that are always sent.
* `reversible`: the theorem.
-/

namespace Honeybrid

variable {μ : Type} {mods : Modules μ} {g : Globals} {s s' s₀ s₁ : State μ} {i : ConnId}
  {c c' : Conn} {t : Target} {pkt p q : Pkt} {e e' : Emission} {ev tr : List Event} {op : Op}
  {w w' w₁ : Work μ} {raw : RawPcap} {role : Role} {now : ℤ}

/-! ### A connection alone in the trees -/

/-- No connection is in the trees. -/
structure NoConns (s : State μ) : Prop where
  ext1 : ∀ k : ConnKey, s.extTree1[k]? = none
  ext2 : ∀ k : ConnKey, s.extTree2[k]? = none
  int1 : ∀ k : ConnKey, s.intTree1[k]? = none
  int2 : ∀ k : ConnKey, s.intTree2[k]? = none
  intra1 : ∀ k : ConnKey, s.intraTree1[k]? = none
  intra2 : ∀ k : ConnKey, s.intraTree2[k]? = none

/-- The connection `i` is alone in the trees, under the keys of `c`. -/
structure Alone (s : State μ) (i : ConnId) (c : Conn) : Prop where
  ext1 : ∀ k : ConnKey, s.extTree1[k]? =
    if c.initiator = .ext ∧ c.extKey = some k then some i else none
  ext2 : ∀ k : ConnKey, s.extTree2[k]? =
    if c.initiator = .ext ∧ (c.intKey = some k ∨ c.hih.redirectedIntKey = some k) then some i
    else none
  int1 : ∀ k : ConnKey, s.intTree1[k]? =
    if c.initiator ≠ .ext ∧ c.intKey = some k then some i else none
  int2 : ∀ k : ConnKey, s.intTree2[k]? =
    if c.initiator ≠ .ext ∧ c.extKey = some k then some i else none
  intra1 : ∀ k : ConnKey, s.intraTree1[k]? = none
  intra2 : ∀ k : ConnKey, s.intraTree2[k]? = none

/-- A binding of the translation: a host outside, and the address and port it sees. The honeypot
behind this address uses the same port. -/
structure Binding where
  protocol : BitVec 8
  remoteIp : IpAddr
  remotePort : Port
  publicIp : IpAddr
  port : Port

/-- The key of a packet from the host outside. -/
def Binding.outerKey (b : Binding) : ConnKey where
  protocol := b.protocol
  srcIp := b.remoteIp
  srcPort := b.remotePort
  dstIp := b.publicIp
  dstPort := b.port

/-- The key of a packet from the honeypot `h`. -/
def Binding.innerKey (b : Binding) (h : Handler) : ConnKey where
  protocol := b.protocol
  srcIp := h.ip
  srcPort := b.port
  dstIp := b.remoteIp
  dstPort := b.remotePort
  vlanId := h.vlan.vid

/-- The binding of a connection from EXT: its first packet. -/
def Conn.binding (c : Conn) : Binding where
  protocol := c.protocol
  remoteIp := c.firstPktSrcIp
  remotePort := c.firstPktSrcPort
  publicIp := c.firstPktDstIp
  port := c.firstPktDstPort

variable {b : Binding}

/-- The keys of a connection and its translation are those of the binding `b`. -/
structure Keyed (g : Globals) (t : Target) (c : Conn) (b : Binding) : Prop where
  front : ∃ front, t.frontHandler = some front
  outer : c.extKey = some b.outerKey
  inner : ∃ h, receiver t c = some h ∧ c.intKey = some (b.innerKey h)
  back : ∀ k, c.hih.redirectedIntKey = some k → c.initiator = .ext ∧ c.hih.port = b.port ∧
    ∃ h, c.hih.backHandler = some h ∧ k = b.innerKey h
  snat : ∀ out, t.defaultRoute = some out → snatIp g c out = .ok b.publicIp
  first : c.initiator = .ext → c.binding = b
  forward : c.state = .forward → c.hih.redirectedIntKey ≠ none

/-- The connection `i` of the target `t` is alone in the trees. -/
structure Sole (g : Globals) (s : State μ) (i : ConnId) (c : Conn) (t : Target) (b : Binding) :
    Prop where
  conn : s.conns[i]? = some c
  target : s.targets[c.target]? = some t
  alone : Alone s i c
  keyed : Keyed g t c b

/-- A packet from the host outside. -/
def Binding.Outer (b : Binding) (p : Pkt) : Prop :=
  p.connKey = b.outerKey

/-- A packet from the honeypot `h`, on any VLAN. -/
structure Binding.Inner (b : Binding) (h : Handler) (p : Pkt) : Prop where
  protocol : p.packet.protocol = b.protocol
  saddr : p.packet.saddr = h.ip
  source : p.packet.source = b.port
  daddr : p.packet.daddr = b.remoteIp
  dest : p.packet.dest = b.remotePort

/-- The trees after the creation of a connection from EXT. -/
theorem NoConns.insertExt {ek ik : ConnKey} (hnone : NoConns s)
    (htrees : SameTrees (insertExt s i ek ik) s') (hini : c.initiator = .ext)
    (hek : c.extKey = some ek) (hik : c.intKey = some ik) (hnew : c.hih.redirectedIntKey = none) :
    Alone (s'.withConn i c) i c where
  ext1 k := by
    rw [withConn_extTree1, htrees.extTree1, Honeybrid.insertExt, Std.TreeMap.lookup_insert,
      hnone.ext1]
    simp [hini, hek]
  ext2 k := by
    rw [withConn_extTree2, htrees.extTree2, Honeybrid.insertExt, Std.TreeMap.lookup_insert,
      hnone.ext2]
    simp [hini, hik, hnew]
  int1 k := by
    rw [withConn_intTree1, htrees.intTree1, if_neg (by simp [hini])]
    exact hnone.int1 k
  int2 k := by
    rw [withConn_intTree2, htrees.intTree2, if_neg (by simp [hini])]
    exact hnone.int2 k
  intra1 k := by
    rw [withConn_intraTree1, htrees.intraTree1]
    exact hnone.intra1 k
  intra2 k := by
    rw [withConn_intraTree2, htrees.intraTree2]
    exact hnone.intra2 k

/-- The trees after the creation of a connection to EXT. -/
theorem NoConns.insertInt {ek ik : ConnKey} (hnone : NoConns s) (htrees : SameTrees s s')
    (hini : c.initiator ≠ .ext) (hek : c.extKey = some ek) (hik : c.intKey = some ik) :
    Alone ((insertInt s' i ik ek).withConn i c) i c where
  ext1 k := by
    rw [withConn_extTree1, Honeybrid.insertInt, htrees.extTree1, if_neg (by simp [hini])]
    exact hnone.ext1 k
  ext2 k := by
    rw [withConn_extTree2, Honeybrid.insertInt, htrees.extTree2, if_neg (by simp [hini])]
    exact hnone.ext2 k
  int1 k := by
    rw [withConn_intTree1, Honeybrid.insertInt, Std.TreeMap.lookup_insert, htrees.intTree1,
      hnone.int1]
    simp [hini, hik]
  int2 k := by
    rw [withConn_intTree2, Honeybrid.insertInt, Std.TreeMap.lookup_insert, htrees.intTree2,
      hnone.int2]
    simp [hini, hek]
  intra1 k := by
    rw [withConn_intraTree1, Honeybrid.insertInt, htrees.intraTree1]
    exact hnone.intra1 k
  intra2 k := by
    rw [withConn_intraTree2, Honeybrid.insertInt, htrees.intraTree2]
    exact hnone.intra2 k

/-- The address `create_conn` has built the key of the replies with is the one the translation
shows. -/
theorem acquireSnat_snatIp {tree : PinTree} {k : PinKey} {c₁ : Conn} {ip : IpAddr}
    (hpin : c.pinIp = none) (h : acquireSnat g s c t tree k = .ok (s₁, c₁, ip)) :
    ∃ pinKey pinIp, c₁ = { c with pinKey, pinIp } ∧
      ∀ (d : Conn) (out : IfaceId), d.pinIp = pinIp → d.initiator ≠ .ext →
        t.defaultRoute = some out → snatIp g d out = .ok ip := by
  obtain ⟨-, rfl, -, out, hout, hip⟩ | ⟨p, -, rfl, rfl⟩ := acquireSnat_cases h
  · refine ⟨c₁.pinKey, none, by rw [← hpin], fun d out' hd hini hout' => ?_⟩
    obtain rfl : out = out' := Option.some.inj (hout.symm.trans hout')
    simp [snatIp, hini, hd, hip]
  · exact ⟨some k, some ⟨tree, p.ip⟩, rfl, fun d out hd hini _ => by simp [snatIp, hini, hd]⟩

/-- The sender of a packet from inside is the handler it was recognised by. -/
theorem saddr_of_identify {r : TargetSearch} (hid : identify s pkt = .ok (some r))
    (ht : s.targets[r.target]? = some t) :
    (r.origin = .lih → ∀ front, t.frontHandler = some front → pkt.packet.saddr = front.ip) ∧
    (r.origin = .hih → ∀ back, r.backHandler = some back → pkt.packet.saddr = back.ip) := by
  obtain ⟨-, ho, -⟩ | ⟨-, t', ht', hf⟩ := identify_cases hid
  · simp [ho]
  · obtain rfl : t = t' := Option.some.inj (ht.symm.trans ht')
    obtain ⟨-, front, hfront, ⟨ho, hip⟩ | ⟨ho, -, hihID, back, -, hback, hsrc⟩ | ⟨ho, -⟩⟩ :=
      findTarget_cases hf
    · simp [ho, hfront, hip]
    · simp only [findHihSrc, decide_eq_true_eq] at hsrc
      simp [ho, hback, hsrc.2.1]
    · simp [ho]

/-- The keys of a new connection, and the packet that has created it. -/
theorem Creates.keyed {r : TargetSearch} (hid : identify s₀ pkt = .ok (some r))
    (ht : s₀.targets[r.target]? = some t) (hrole : r.origin = role)
    (hvlan : pkt.origin = .ext → pkt.packet.vlan = none)
    (h : Creates g s i t pkt r now role c s') (hd : role = .ext ∨ c.destination = .ext) :
    ∃ b, Keyed g t c b ∧
      (role = .ext ∧ b.Outer pkt ∨ role ≠ .ext ∧ ∃ h, receiver t c = some h ∧ b.Inner h pkt) := by
  obtain ⟨hlih, hhih⟩ := saddr_of_identify hid ht
  cases h with
  | @ext front p s₁ c hfront hpin hc =>
    subst hc
    refine ⟨⟨pkt.packet.protocol, pkt.packet.saddr, pkt.packet.source, pkt.packet.daddr,
      pkt.packet.dest⟩, ⟨⟨_, hfront⟩, rfl, ⟨front, hfront, rfl⟩, ?_, fun _ _ => rfl,
      fun _ => rfl, ?_⟩, .inl ⟨rfl, ?_⟩⟩
    · simp [Conn.fresh]
    · simp [Conn.fresh]
    have ho : pkt.origin = .ext := (origin_ext_iff hid).mpr hrole
    rw [Binding.Outer, Pkt.connKey, Frame.vlanId, hvlan ho]
    rfl
  | @lih front s₁ c₁ c ip hfront hpin hc =>
    obtain ⟨pinKey, pinIp, rfl, hsnat⟩ := acquireSnat_snatIp rfl hpin
    subst hc
    have hip := hlih hrole front hfront
    refine ⟨⟨pkt.packet.protocol, pkt.packet.daddr, pkt.packet.dest, ip, pkt.packet.source⟩,
      ⟨⟨_, hfront⟩, rfl, ⟨front, hfront, ?_⟩, ?_, fun out hout => hsnat _ out rfl ?_ hout, ?_, ?_⟩,
      .inr ⟨by simp, front, hfront, rfl, hip, rfl, rfl, rfl⟩⟩
    · simp [newKey, Binding.innerKey, hip]
    all_goals simp [Conn.fresh]
  | @hih front back s₁ c₁ c ip hfront hback hpin hc =>
    obtain ⟨pinKey, pinIp, rfl, hsnat⟩ := acquireSnat_snatIp rfl hpin
    subst hc
    have hip := hhih hrole back hback
    refine ⟨⟨pkt.packet.protocol, pkt.packet.daddr, pkt.packet.dest, ip, pkt.packet.source⟩,
      ⟨⟨_, hfront⟩, rfl, ⟨back, rfl, ?_⟩, ?_, fun out hout => hsnat _ out rfl ?_ hout, ?_, ?_⟩,
      .inr ⟨by simp, back, rfl, rfl, hip, rfl, rfl, rfl⟩⟩
    · simp [newKey, Binding.innerKey, hip]
    all_goals simp [hihFresh, Conn.fresh]
  | hihIntra hback hh hpin hc =>
    subst hc
    obtain h | h := hd <;> cases h
  | hihLan hback hh hlan hc =>
    subst hc
    obtain h | h := hd <;> cases h

/-- A new connection is alone in the trees if there was none before it. -/
theorem Creates.alone {r : TargetSearch} (hnone : NoConns s)
    (h : Creates g s i t pkt r now role c s') (hd : role = .ext ∨ c.destination = .ext) :
    Alone s' i c := by
  cases h with
  | ext hfront hpin hc =>
    subst hc
    exact hnone.insertExt hpin.sameTrees rfl rfl rfl rfl
  | lih hfront hpin hc =>
    obtain ⟨pinKey, pinIp, rfl, -⟩ := acquireSnat_snatIp rfl hpin
    subst hc
    exact hnone.insertInt (acquireSnat_sameTrees hpin) (by simp [Conn.fresh]) rfl rfl
  | hih hfront hback hpin hc =>
    obtain ⟨pinKey, pinIp, rfl, -⟩ := acquireSnat_snatIp rfl hpin
    subst hc
    exact hnone.insertInt (acquireSnat_sameTrees hpin) (by simp [hihFresh, Conn.fresh]) rfl rfl
  | hihIntra hback hh hpin hc =>
    subst hc
    obtain h | h := hd <;> cases h
  | hihLan hback hh hlan hc =>
    subst hc
    obtain h | h := hd <;> cases h

/-- The creation of a connection in a state without connections. -/
theorem created_sole (hnone : NoConns s) (hvlan : pkt.origin = .ext → pkt.packet.vlan = none)
    (hcr : createConn g s pkt now = .ok (s', some (i, role))) (hc : s'.conns[i]? = some c)
    (hd : role = .ext ∨ c.destination = .ext) :
    ∃ t b, Sole g s' i c t b ∧
      (role = .ext ∧ b.Outer pkt ∨ role ≠ .ext ∧ ∃ h, receiver t c = some h ∧ b.Inner h pkt) := by
  obtain ⟨ho, -⟩ | ⟨r, t, c', hid, ht, ho, h⟩ := createConn_cases hcr
  · cases ho
  simp only [Option.some.injEq, Prod.mk.injEq] at ho
  obtain ⟨rfl, rfl⟩ := ho
  obtain ⟨-, htar, -⟩ := h.start
  obtain ⟨htars, -, -, hconns⟩ := h.frame
  rw [hconns, Std.TreeMap.lookup_insert, if_pos rfl, Option.some.injEq] at hc
  subst hc
  have hnone' : NoConns { s with cId := s.cId + 1 } :=
    ⟨hnone.ext1, hnone.ext2, hnone.int1, hnone.int2, hnone.intra1, hnone.intra2⟩
  obtain ⟨b, hkeyed, hpkt⟩ := h.keyed hid ht rfl hvlan hd
  refine ⟨t, b, ⟨?_, ?_, h.alone hnone' hd, hkeyed⟩, hpkt⟩
  · rw [hconns, Std.TreeMap.lookup_insert, if_pos rfl]
  · rw [htars, htar]
    exact ht

/-! ### Work and redirection -/

/-- The operations on the connection `i` that leave it in place. -/
def Op.keeps (i : ConnId) : Op → Prop
  | .work j _ => j = i
  | .redirect j _ => j = i
  | _ => False

/-- `c'` is a later version of the connection `c`: a honeypot that holds it stays. -/
structure Continues (c c' : Conn) : Prop where
  flow : c'.flow = c.flow
  pinIp : c'.pinIp = c.pinIp
  back : c.initiator ≠ .ext ∨ c.hih.redirectedIntKey ≠ none →
    c'.hih.backHandler = c.hih.backHandler ∧ c'.hih.redirectedIntKey = c.hih.redirectedIntKey

theorem Continues.refl (c : Conn) : Continues c c :=
  ⟨rfl, rfl, fun _ => ⟨rfl, rfl⟩⟩

theorem Continues.trans {c₁ c₂ c₃ : Conn} (h : Continues c₁ c₂) (h' : Continues c₂ c₃) :
    Continues c₁ c₃ := by
  refine ⟨h'.flow.trans h.flow, h'.pinIp.trans h.pinIp, fun hb => ?_⟩
  obtain ⟨h₁, h₂⟩ := h.back hb
  obtain ⟨h₁', h₂'⟩ := h'.back (by rwa [h₂, Conn.initiator_of_flow h.flow])
  exact ⟨h₁'.trans h₁, h₂'.trans h₂⟩

theorem Keyed.worked {d : Conn} (h : Keyed g t c b)
    (hs : d.state.redirected = true → c.hih.redirectedIntKey ≠ none) :
    Keyed g t (c.worked d) b := by
  refine ⟨h.front, h.outer, h.inner, h.back, h.snat, h.first, fun hf => hs ?_⟩
  have hf' : d.state = .forward := hf
  rw [hf']
  rfl

theorem Sole.worked {d : Conn} (h : Sole g s i c t b)
    (hs : d.state.redirected = true → c.hih.redirectedIntKey ≠ none) :
    Sole g (s.withConn i (c.worked d)) i (c.worked d) t b where
  conn := by simp
  target := h.target
  alone := ⟨h.alone.ext1, h.alone.ext2, h.alone.int1, h.alone.int2, h.alone.intra1, h.alone.intra2⟩
  keyed := h.keyed.worked hs

/-- A redirection enters the key of the backend's replies. -/
theorem Alone.redirected {use : HandlerId} (h : Alone s i c) (hini : c.initiator = .ext)
    (hnew : c.hih.redirectedIntKey = none)
    (hr : setupRedirection g s t i c use = .ok (some (s', c', ev))) :
    Alone (s'.withConn i c') i c' := by
  obtain ⟨h', -, hkey, htrees⟩ := setupRedirection_trees hr
  obtain ⟨h'', key, rid, ed, -, -, rfl⟩ := setupRedirection_conn hr
  refine ⟨fun k => ?_, fun k => ?_, fun k => ?_, fun k => ?_, fun k => ?_, fun k => ?_⟩
  · rw [withConn_extTree1, htrees.extTree1]
    exact h.ext1 k
  · -- the key of the front handler's replies stays
    rw [withConn_extTree2, htrees.extTree2, Std.TreeMap.lookup_insert, h.ext2, hkey, hnew]
    by_cases hk : redirectedKey c h' = k
    · simp [hini, hk]
    · simp [hini, hk]
  · rw [withConn_intTree1, htrees.intTree1]
    exact h.int1 k
  · rw [withConn_intTree2, htrees.intTree2]
    exact h.int2 k
  · rw [withConn_intraTree1, htrees.intraTree1]
    exact h.intra1 k
  · rw [withConn_intraTree2, htrees.intraTree2]
    exact h.intra2 k

theorem Sole.redirected {use : HandlerId} (h : Sole g s i c t b) (hini : c.initiator = .ext)
    (hnew : c.hih.redirectedIntKey = none)
    (hr : setupRedirection g s t i c use = .ok (some (s', c', ev))) :
    Sole g (s'.withConn i c') i c' t b := by
  have hk := setupRedirection_kept hr
  have halone := h.alone.redirected hini hnew hr
  obtain ⟨h', key, rid, ed, -, -, rfl⟩ := setupRedirection_conn hr
  refine ⟨by simp, ?_, halone, h.keyed.front, h.keyed.outer, ?_, ?_, ?_, h.keyed.first, nofun⟩
  · rw [withConn_targets, hk.targets]
    exact h.target
  · simpa [receiver, hini] using h.keyed.inner
  · intro k hk
    cases hk
    have hb := h.keyed.first hini
    subst hb
    exact ⟨hini, rfl, h', rfl, rfl⟩
  · simpa [snatIp, hini] using h.keyed.snat

theorem Operates.sole (h : Operates g s op s') (hk : op.keeps i) (hS : Sole g s i c t b) :
    ∃ c', Sole g s' i c' t b ∧ Continues c c' ∧ s'.ifTarget = s.ifTarget := by
  cases h with
  | idle => exact ⟨c, hS, Continues.refl c, rfl⟩
  | refused => cases hk
  | create => cases hk
  | @work j c₁ d hc hs =>
    obtain rfl : j = i := hk
    obtain rfl : c = c₁ := Option.some.inj (hS.conn.symm.trans hc)
    exact ⟨c.worked d, hS.worked hs, ⟨rfl, rfl, fun _ => ⟨rfl, rfl⟩⟩, rfl⟩
  | @redirect j use c₁ c' t' s' ev hc ht hini hnew hr =>
    obtain rfl : j = i := hk
    obtain rfl : c = c₁ := Option.some.inj (hS.conn.symm.trans hc)
    obtain rfl : t = t' := Option.some.inj (hS.target.symm.trans ht)
    refine ⟨c', hS.redirected hini hnew hr, ?_, (setupRedirection_kept hr).ifTarget⟩
    obtain ⟨h', key, rid, ed, -, -, rfl⟩ := setupRedirection_conn hr
    exact ⟨rfl, rfl, fun hb => by simp [hini, hnew] at hb⟩
  | switch => cases hk
  | remove => cases hk

/-- The connection stays alone in the trees while it is worked on and redirected. -/
theorem Sole.run (hS : Sole g s i c t b)
    (hrun : Machine.Run (operate g) (fun _ op => op.keeps i) s tr s') :
    ∃ c', Sole g s' i c' t b ∧ Continues c c' ∧ s'.ifTarget = s.ifTarget := by
  refine hrun.invariant (fun s' => ∃ c', Sole g s' i c' t b ∧ Continues c c' ∧
    s'.ifTarget = s.ifTarget) ⟨c, hS, Continues.refl c, rfl⟩ ?_
  rintro s₁ op s₂ out ⟨c₁, hS₁, hcont, hif⟩ hk hop
  obtain ⟨c₂, hS₂, hcont', hif'⟩ := (operate_cases hop).sole hk hS₁
  exact ⟨c₂, hS₂, hcont.trans hcont', hif'.trans hif⟩

/-! ### Lookup -/

/-- A packet of EXT belongs to the connection by its external key. -/
theorem Sole.lookup_ext_iff (hS : Sole g s i c t b) (ho : q.origin = .ext) :
    connLookup s q = .ok (some (i, role)) ↔ c.extKey = some q.connKey ∧ role = .ext := by
  constructor
  · intro hl
    have hrole : role = .ext := by simpa [ho] using connLookup_origin hl
    refine ⟨?_, hrole⟩
    by_contra hk
    have h₁ : s.extTree1[q.connKey]? = none := by simp [hS.alone.ext1, hk]
    have h₂ : s.intTree2[q.connKey]? = none := by simp [hS.alone.int2, hk]
    simp [connLookup, ho, h₁, h₂] at hl
  · rintro ⟨hk, rfl⟩
    refine connLookup_ext ho ?_ hS.conn
    by_cases hini : c.initiator = .ext
    · exact .inl (by simp [hS.alone.ext1, hini, hk])
    · exact .inr ⟨by simp [hS.alone.ext1, hini], by simp [hS.alone.int2, hini, hk]⟩

/-- A packet from inside belongs to the connection by its internal key, or by the key it was given
on its redirection. -/
theorem Sole.key_of_lookup (hS : Sole g s i c t b) (ho : q.origin ≠ .ext)
    (hl : connLookup s q = .ok (some (i, role))) :
    c.intKey = some q.connKey ∨ c.initiator = .ext ∧ c.hih.redirectedIntKey = some q.connKey := by
  by_contra hk
  obtain ⟨hk₁, hk₂⟩ := not_or.mp hk
  have h₁ : s.extTree2[q.connKey]? = none := by
    rw [hS.alone.ext2, if_neg]
    rintro ⟨hini, h | h⟩
    · exact hk₁ h
    · exact hk₂ ⟨hini, h⟩
  have h₂ : s.intTree1[q.connKey]? = none := by simp [hS.alone.int1, hk₁]
  simp [connLookup, ho, h₁, h₂, hS.alone.intra1, hS.alone.intra2] at hl

theorem Sole.lookup_int {front : Handler} (hS : Sole g s i c t b) (ho : q.origin ≠ .ext)
    (hf : t.frontHandler = some front)
    (hk : c.intKey = some q.connKey ∨
      c.initiator = .ext ∧ c.hih.redirectedIntKey = some q.connKey) :
    connLookup s q = .ok (some (i, classify front q)) := by
  refine connLookup_int ho ?_ hS.conn hS.target hf
  by_cases hini : c.initiator = .ext
  · refine .inl ?_
    rw [hS.alone.ext2, if_pos ⟨hini, hk.imp id And.right⟩]
  · have hk' : c.intKey = some q.connKey := hk.resolve_right fun h => hini h.1
    exact .inr ⟨by simp [hS.alone.ext2, hini], .inl (by simp [hS.alone.int1, hini, hk'])⟩

/-! ### What the engine sends -/

/-- The connection has the same parties in `w` and `w₁`: the same flow, pinned address, backend and
port, and its target the same fixed part. -/
structure SameParties (w w₁ : Work μ) : Prop where
  framed : Framed w.st w₁.st
  flow : w₁.conn.flow = w.conn.flow
  pinIp : w₁.conn.pinIp = w.conn.pinIp
  back : w₁.conn.hih.backHandler = w.conn.hih.backHandler
  port : w₁.conn.hih.port = w.conn.hih.port

theorem SameParties.refl (w : Work μ) : SameParties w w :=
  ⟨Framed.refl _, rfl, rfl, rfl, rfl⟩

theorem SameParties.noteLihSyn (w : Work μ) (q : Pkt) :
    SameParties w { w with conn := noteLihSyn q w.conn } := by
  obtain ⟨n, hn⟩ := noteLihSyn_conn q w.conn
  rw [hn]
  exact ⟨Framed.refl _, rfl, rfl, rfl, rfl⟩

/-- A packet that the rules let pass leaves the parties alone: a redirection does not let it
pass. -/
theorem deProcessPacket_parties (h : deProcessPacket mods i q g w = .ok (.ok, w₁, ev))
    (hw : SameParties w' w) : SameParties w' w₁ := by
  have hframed := deProcessPacket_framed h
  obtain ⟨d, w₂, ev₁, ev₂, t, he, -, ha, -⟩ := deProcessPacket_cases h
  have hconn : w₁.conn.pinIp = w.conn.pinIp ∧ w₁.conn.hih = w.conn.hih := by
    have hrun : w₂.conn.pinIp = w.conn.pinIp ∧ w₂.conn.hih = w.conn.hih := by
      obtain hc | ⟨h', k, hc⟩ := (evaluate_run he).conn_cases
      · rw [hc]
        exact ⟨rfl, rfl⟩
      · rw [hc]
        exact ⟨rfl, rfl⟩
    cases ha <;> exact hrun
  obtain ⟨hpin, hhih⟩ := hconn
  exact ⟨hw.framed.trans hframed.1, hframed.2.trans hw.flow, hpin.trans hw.pinIp,
    (congrArg Hih.backHandler hhih).trans hw.back, (congrArg Hih.port hhih).trans hw.port⟩

/-- What the engine sends for a packet through one of these functions. -/
theorem Handles.relays_back (h : Handles mods g i q w w' ev) (he : .emitted e ∈ ev)
    (hs : e.sender.carries = true) :
    ∃ w₁ t q' ev₁, SameParties w w₁ ∧ w₁.st.targets[w₁.conn.target]? = some t ∧
      .emitted e ∈ ev₁ ∧
      ((q.origin = .lih ∨ q.origin = .hih) ∧
        Honeybrid.proxyInt2ext g t i w₁.conn q = .ok (q', ev₁) ∨
      q.origin = .hih ∧ w.conn.state = .forward ∧ forwardHih2ext t i w₁.conn q = .ok (q', ev₁) ∨
      (q.origin = .ext ∨ q.origin = .int) ∧ proxyExt2int g t i w₁.conn q = .ok (q', ev₁)) := by
  cases h.relayed he hs with
  | early ho hst ht hp he' =>
    exact ⟨_, _, _, _, SameParties.noteLihSyn w q, by rw [noteLihSyn_target]; exact ht, he',
      .inl ⟨.inl ho, hp⟩⟩
  | proxied ho hst ht hp he' =>
    exact ⟨w, _, _, _, SameParties.refl w, ht, he', .inl ⟨ho.imp_right And.left, hp⟩⟩
  | controlled ho hst hd ht hp he' hev =>
    have hw : SameParties w { w with conn := Honeybrid.controlled q w.conn } := by
      unfold Honeybrid.controlled
      split_ifs
      · exact SameParties.noteLihSyn w q
      · exact SameParties.refl w
    exact ⟨_, _, _, _, deProcessPacket_parties hd hw, ht, he', .inl ⟨ho, hp⟩⟩
  | opened ho hst hd hdest ht hp he' hev =>
    have hw : SameParties w { w with conn := w.conn.switchState .control } :=
      ⟨Framed.refl _, rfl, rfl, rfl, rfl⟩
    exact ⟨_, _, _, _, deProcessPacket_parties hd hw, ht, he', .inl ⟨.inr ho, hp⟩⟩
  | forwarded ho hst ht hf he' =>
    exact ⟨w, _, _, _, SameParties.refl w, ht, he', .inr (.inl ⟨ho, hst, hf⟩)⟩
  | ruled ho hd ht hp he' =>
    exact ⟨_, _, _, _, deProcessPacket_parties hd (SameParties.refl w), ht, he',
      .inr (.inr ⟨ho, hp⟩)⟩
  | inward ho ht hp he' =>
    exact ⟨w, _, _, _, SameParties.refl w, ht, he', .inr (.inr ⟨ho, hp⟩)⟩

theorem SameParties.receiver_eq {t₁ : Target} (h : SameParties w w₁)
    (ht : w.st.targets[w.conn.target]? = some t) (ht₁ : w₁.st.targets[w₁.conn.target]? = some t₁) :
    receiver t₁ w₁.conn = receiver t w.conn ∧ t₁.defaultRoute = t.defaultRoute := by
  have hfix : t.fixed = t₁.fixed := by
    have hf := h.framed.targets w₁.conn.target
    rw [ht₁, Conn.target_of_flow h.flow, ht, Option.map_some, Option.map_some] at hf
    exact (Option.some.inj hf).symm
  refine ⟨?_, (congrArg Target.defaultRoute hfix).symm⟩
  rw [receiver, receiver, Conn.initiator_of_flow h.flow, h.back]
  rw [show t₁.frontHandler = t.frontHandler from (congrArg Target.frontHandler hfix).symm]

theorem SameParties.snatIp_eq (h : SameParties w w₁) (out : IfaceId) :
    snatIp g w₁.conn out = snatIp g w.conn out := by
  have hdst : w₁.conn.firstPktDstIp = w.conn.firstPktDstIp := congrArg Flow.dstIp h.flow
  rw [snatIp, snatIp, Conn.initiator_of_flow h.flow, h.pinIp, hdst]

/-- A packet of EXT is sent to the honeypot of its connection. -/
theorem Sole.answer_outer (hS : Sole g s i c t b) (ho : q.origin = .ext) (hq : b.Outer q)
    (h : Handles mods g i q ⟨s, c⟩ w ev) (he : .emitted e ∈ ev) (hs : e.sender.carries = true) :
    ∃ h, receiver t c = some h ∧
      Carries e.frame b.protocol b.remoteIp b.remotePort h.ip b.port := by
  obtain ⟨w₁, t₁, q', ev₁, hparties, ht₁, he₁, ⟨ho', -⟩ | ⟨ho', -⟩ | ⟨-, hp⟩⟩ := h.relays_back he hs
  · simp [ho] at ho'
  · simp [ho] at ho'
  · obtain ⟨hd, hrecv, -, -, hcar⟩ := proxyExt2int_frame ho hp he₁
    rw [(hparties.receiver_eq hS.target ht₁).1] at hrecv
    obtain ⟨hproto, hsip, hsp, -, hdp, -⟩ := ConnKey.mk.inj hq
    exact ⟨hd, hrecv, hcar.protocol.trans hproto, hcar.saddr.trans hsip, hcar.source.trans hsp,
      hcar.daddr, hcar.dest.trans hdp⟩

/-- A packet of a honeypot of the connection is sent to the host outside. -/
theorem Sole.answer_inner {hd : Handler} (hS : Sole g s i c t b)
    (ho : q.origin = .lih ∨ q.origin = .hih) (hq : b.Inner hd q)
    (h : Handles mods g i q ⟨s, c⟩ w ev) (he : .emitted e ∈ ev) (hs : e.sender.carries = true) :
    Carries e.frame b.protocol b.publicIp b.port b.remoteIp b.remotePort := by
  have hext : q.origin ≠ .ext := by obtain h | h := ho <;> simp [h]
  obtain ⟨w₁, t₁, q', ev₁, hparties, ht₁, he₁, ⟨-, hp⟩ | ⟨-, hfwd, hf⟩ | ⟨ho', -⟩⟩ :=
    h.relays_back he hs
  · obtain ⟨ip, hout, hip, -, hcar⟩ := proxyInt2ext_frame hext hp he₁
    rw [(hparties.receiver_eq hS.target ht₁).2] at hout
    rw [hparties.snatIp_eq, hS.keyed.snat e.out hout] at hip
    cases hip
    exact ⟨hcar.protocol.trans hq.protocol, hcar.saddr, hcar.source.trans hq.source,
      hcar.daddr.trans hq.daddr, hcar.dest.trans hq.dest⟩
  · obtain ⟨-, hcar⟩ := forwardHih2ext_frame hf he₁
    obtain ⟨k, hk⟩ := Option.ne_none_iff_exists'.mp (hS.keyed.forward hfwd)
    obtain ⟨hini, hport, -⟩ := hS.keyed.back k hk
    have hdst : w₁.conn.firstPktDstIp = b.publicIp :=
      (congrArg Flow.dstIp hparties.flow).trans (congrArg Binding.publicIp (hS.keyed.first hini))
    exact ⟨hcar.protocol.trans hq.protocol, hcar.saddr.trans hdst,
      hcar.source.trans (hparties.port.trans hport), hcar.daddr.trans hq.daddr,
      hcar.dest.trans hq.dest⟩
  · obtain h | h := ho <;> simp [h] at ho'

/-! ### What is always sent -/

/-- A packet of the party is sent on whatever the rules say: the state lets it pass, and there is a
way to EXT or to the honeypot. -/
def Passes (t : Target) (c : Conn) : Role → Prop
  | .ext => (c.state = .proxy ∨ c.state = .control) ∧
      ∃ h out, receiver t c = some h ∧ h.iface = some out
  | .lih => (c.state = .init ∨ c.state = .decision ∨ c.state = .proxy) ∧
      ∃ out, t.defaultRoute = some out
  | .hih => (c.state = .forward ∨ c.state = .proxy ∧ c.destination = .ext) ∧
      ∃ out, t.defaultRoute = some out
  | _ => False

theorem noteLihSyn_snatIp (pkt : Pkt) (c : Conn) (out : IfaceId) :
    snatIp g (noteLihSyn pkt c) out = snatIp g c out := by
  obtain ⟨n, hn⟩ := noteLihSyn_conn pkt c
  rw [hn]
  rfl

/-- The engine sends a packet that passes. -/
theorem Sole.sent {party : Role} (hS : Sole g s i c t b) (ho : q.origin = party)
    (hpass : Passes t c party) (mods : Modules μ) :
    ∃ w ev e, handle mods g i q ⟨s, c⟩ = .ok (w, ev) ∧ .emitted e ∈ ev ∧
      e.sender.carries = true := by
  have htar : s.targetOf c = .ok t := Option.orFail_eq_ok.mpr hS.target
  cases party with
  | ext =>
    obtain ⟨hst, h, out, hrecv, hout⟩ := hpass
    obtain ⟨pkt', e, hp, hsend, -⟩ := proxyExt2int_emits g i q hrecv hout
    have hrelay : relayExt g i q ⟨s, c⟩ = .ok (⟨s, c⟩, [.emitted e]) := by
      simp [relayExt, htar, hp]
    refine ⟨⟨s, c⟩, [.emitted e], e, ?_, List.mem_singleton_self _, by rw [hsend]; rfl⟩
    obtain hs | hs := hst <;> simpa [handle, ho, hs, dispatchExt] using hrelay
  | lih =>
    obtain ⟨hst, out, hroute⟩ := hpass
    obtain hs | hs : (c.state = .init ∨ c.state = .decision) ∨ c.state = .proxy := or_assoc.mpr hst
    · have hip := (noteLihSyn_snatIp q c out).trans (hS.keyed.snat out hroute)
      obtain ⟨pkt', e, hp, hsend, -⟩ := proxyInt2ext_emits i q hroute hip
      have htar' : s.targetOf (noteLihSyn q c) = .ok t := by
        rw [State.targetOf, noteLihSyn_target]
        exact htar
      have hrelay : relayLih g i q ⟨s, c⟩ =
          .ok (⟨s, keepPkt g t (noteLihSyn q c) pkt'⟩, [.emitted e]) := by
        simp [relayLih, htar', hp]
      refine ⟨⟨s, keepPkt g t (noteLihSyn q c) pkt'⟩, [.emitted e], e, ?_,
        List.mem_singleton_self _, by rw [hsend]; rfl⟩
      obtain hs | hs := hs <;> simpa [handle, ho, hs, dispatchLih] using hrelay
    · obtain ⟨pkt', e, hp, hsend, -⟩ := proxyInt2ext_emits i q hroute (hS.keyed.snat out hroute)
      refine ⟨⟨s, c⟩, [.emitted e], e, ?_, List.mem_singleton_self _, by rw [hsend]; rfl⟩
      simp [handle, ho, hs, dispatchLih, htar, hp]
  | hih =>
    obtain ⟨hst, out, hroute⟩ := hpass
    obtain hs | ⟨hs, hdest⟩ := hst
    · obtain ⟨pkt', e, hp, hsend, -⟩ := forwardHih2ext_emits i c q hroute
      refine ⟨⟨s, c⟩, [.emitted e], e, ?_, List.mem_singleton_self _, by rw [hsend]; rfl⟩
      simp [handle, ho, hs, dispatchHih, htar, hp]
    · obtain ⟨pkt', e, hp, hsend, -⟩ := proxyInt2ext_emits i q hroute (hS.keyed.snat out hroute)
      refine ⟨⟨s, c⟩, [.emitted e], e, ?_, List.mem_singleton_self _, by rw [hsend]; rfl⟩
      simp [handle, ho, hs, dispatchHih, proxyHih, hdest, htar, hp]
  | int => exact hpass.elim
  | intra => exact hpass.elim

/-! ### Replies -/

/-- A frame that is sent for a packet of the connection that was just received, and the party it is
sent to. On a connection from EXT, the engine proxies packets of the low-interaction honeypot only:
those of a backend are forwarded. -/
inductive Relays (g : Globals) (s : State μ) (i : ConnId) (c : Conn) (p : Pkt) (e : Emission) :
    Role → Prop
  | proxyExt2int {t : Target} {p' : Pkt} {ev : List Event} (ho : p.origin = .ext)
      (ht : s.targets[c.target]? = some t) (h : proxyExt2int g t i c p = .ok (p', ev))
      (he : .emitted e ∈ ev) : Relays g s i c p e (if c.initiator = .hih then .hih else .lih)
  | forwardExt2hih {p' : Pkt} {ev : List Event} (ho : p.origin = .ext)
      (hred : c.hih.redirectedIntKey ≠ none) (h : forwardExt2hih g i c p = .ok (p', ev))
      (he : .emitted e ∈ ev) : Relays g s i c p e .hih
  | proxyInt2ext {t : Target} {p' : Pkt} {ev : List Event} (ho : p.origin ≠ .ext)
      (hlih : c.initiator = .ext → p.origin = .lih) (ht : s.targets[c.target]? = some t)
      (h : proxyInt2ext g t i c p = .ok (p', ev)) (he : .emitted e ∈ ev) :
      Relays g s i c p e .ext

/-- The captured frame answers the frame `e`: its addresses and ports are exchanged, and it comes
from the interface `e` was sent on, with the VLAN tag of `e`. -/
structure Reverses (e : Emission) (raw : RawPcap) : Prop where
  iface : raw.iface = e.out
  vlan : raw.frame.vlan = e.frame.vlan
  carries : Carries raw.frame e.frame.protocol e.frame.daddr e.frame.dest e.frame.saddr
    e.frame.source

/-- The interfaces of the honeypots that a connection uses are no default routes, the default route
of its target is one, and the honeypots differ in address or interface. -/
structure Wired (s : State μ) (t : Target) (c : Conn) : Prop where
  front : ∀ front out, t.frontHandler = some front → front.iface = some out →
    s.ifTarget[out]? = none
  back : ∀ h out, c.hih.backHandler = some h → h.iface = some out → s.ifTarget[out]? = none
  route : ∀ out, t.defaultRoute = some out → s.ifTarget[out]? ≠ none
  apart : ∀ front h, t.frontHandler = some front → c.hih.backHandler = some h →
    front.ip ≠ h.ip ∨ front.iface ≠ h.iface

/-- A packet of EXT comes from the host outside. -/
theorem Sole.outer (hS : Sole g s i c t b) (hl : connLookup s p = .ok (some (i, .ext))) :
    b.Outer p := by
  have ho : p.origin = .ext := by simpa using connLookup_origin hl
  obtain ⟨hk, -⟩ := (hS.lookup_ext_iff ho).mp hl
  exact (Option.some.inj (hS.keyed.outer.symm.trans hk)).symm

theorem inner_of_key {h : Handler} (hk : p.connKey = b.innerKey h) : b.Inner h p := by
  obtain ⟨hproto, hsip, hsp, hdip, hdp, -⟩ := ConnKey.mk.inj hk
  exact ⟨hproto, hsip, hsp, hdip, hdp⟩

/-- A packet from inside, and on a connection from EXT from the low-interaction honeypot, comes from
the honeypot that the connection is proxied to. -/
theorem Sole.inner (hS : Sole g s i c t b) (ho : role ≠ .ext)
    (hlih : c.initiator = .ext → role = .lih) (hl : connLookup s p = .ok (some (i, role))) :
    ∃ h, receiver t c = some h ∧ b.Inner h p := by
  have ho' : p.origin ≠ .ext := by
    obtain ⟨-, h⟩ | ⟨h, -⟩ := connLookup_origin hl
    · exact absurd h ho
    · exact h
  obtain ⟨h, hrecv, hint⟩ := hS.keyed.inner
  refine ⟨h, hrecv, ?_⟩
  obtain hk | ⟨hini, hk⟩ := hS.key_of_lookup ho' hl
  · exact inner_of_key (Option.some.inj (hk.symm.trans hint))
  · -- the key is that of the backend, but the packet is classified by the address of the front
    -- handler
    obtain ⟨front, hf⟩ := hS.keyed.front
    obtain ⟨-, -, back, -, hback⟩ := hS.keyed.back _ hk
    have hin := inner_of_key hback
    rw [hS.lookup_int ho' hf (.inr ⟨hini, hk⟩), hlih hini] at hl
    have hcl : classify front p = .lih := by simpa using hl
    obtain rfl : h = front := by simpa [receiver, hini, hf, eq_comm] using hrecv
    have hsaddr : p.packet.saddr = h.ip := by
      unfold classify at hcl
      split_ifs at hcl with hc
      exact hc.2.1
    exact ⟨hin.protocol, hsaddr, hin.source, hin.daddr, hin.dest⟩

theorem Continues.receiver (h : Continues c c') :
    Honeybrid.receiver t c' = Honeybrid.receiver t c := by
  have hini := Conn.initiator_of_flow h.flow
  unfold Honeybrid.receiver
  rw [hini]
  cases hi : c.initiator with
  | hih => exact (h.back (.inl (by simp [hi]))).1
  | _ => rfl

/-- The reply to a frame for the honeypot `h` has the key of a packet from this honeypot. -/
theorem Reverses.innerKey {h : Handler} (hrev : Reverses e raw) (hcap : capture s raw = some q)
    (hcar : Carries e.frame b.protocol b.remoteIp b.remotePort h.ip b.port)
    (hv : e.frame.vlanId = h.vlan.vid) : q.connKey = b.innerKey h := by
  obtain ⟨hq, -⟩ := capture_cases hcap
  have hc := hrev.carries
  have hvlan : raw.frame.vlanId = h.vlan.vid := by rw [Frame.vlanId, hrev.vlan]; exact hv
  rw [Pkt.connKey, Binding.innerKey, hq, hvlan, hc.protocol, hc.saddr, hc.source, hc.daddr, hc.dest,
    hcar.protocol, hcar.saddr, hcar.source, hcar.daddr, hcar.dest]

/-- The reply to an untagged frame for the host outside has the key of a packet from this host. -/
theorem Reverses.outerKey (hrev : Reverses e raw) (hcap : capture s raw = some q)
    (hcar : Carries e.frame b.protocol b.publicIp b.port b.remoteIp b.remotePort)
    (hv : e.frame.vlan = none) : b.Outer q := by
  obtain ⟨hq, -⟩ := capture_cases hcap
  have hc := hrev.carries
  have hvlan : raw.frame.vlanId = 0 := by rw [Frame.vlanId, hrev.vlan, hv]
  rw [Binding.Outer, Pkt.connKey, Binding.outerKey, hq, hvlan, hc.protocol, hc.saddr, hc.source,
    hc.daddr, hc.dest, hcar.protocol, hcar.saddr, hcar.source, hcar.daddr, hcar.dest]

/-- The reply to a frame for the front handler is one of the low-interaction honeypot. -/
theorem classify_front {front : Handler} (hiface : front.iface = some q.inIface)
    (hk : q.connKey = b.innerKey front) : classify front q = .lih := by
  obtain ⟨-, hsip, -, -, -, hv⟩ := ConnKey.mk.inj hk
  rw [classify, if_pos ⟨hiface, hsip, (Frame.onVlan_iff ..).mpr hv.symm⟩]

/-- The reply to a frame for a backend that differs from the front handler is one of the
high-interaction honeypot. -/
theorem classify_back {front h : Handler} (hiface : h.iface = some q.inIface)
    (hapart : front.ip ≠ h.ip ∨ front.iface ≠ h.iface) (hk : q.connKey = b.innerKey h) :
    classify front q = .hih := by
  obtain ⟨-, hsip, -⟩ := ConnKey.mk.inj hk
  rw [classify, if_neg]
  rintro ⟨hf, hip, -⟩
  obtain hne | hne := hapart
  · exact hne (hip.symm.trans hsip)
  · exact hne (hf.trans hiface.symm)

/-- The reply to a frame for a honeypot of the connection is found, and sent to the host outside. -/
theorem Sole.reply_inner {front h : Handler} (hS : Sole g s i c t b)
    (hf : t.frontHandler = some front) (hrev : Reverses e raw) (hcap : capture s raw = some q)
    (hcar : Carries e.frame b.protocol b.remoteIp b.remotePort h.ip b.port)
    (hv : e.frame.vlanId = h.vlan.vid) (hif : s.ifTarget[e.out]? = none)
    (hkey : c.intKey = some (b.innerKey h) ∨
      c.initiator = .ext ∧ c.hih.redirectedIntKey = some (b.innerKey h)) :
    q.connKey = b.innerKey h ∧ q.inIface = e.out ∧
      connLookup s q = .ok (some (i, classify front q)) ∧
      ∀ (mods : Modules μ) w ev e',
        Handles mods g i { q with origin := classify front q } ⟨s, c⟩ w ev →
        .emitted e' ∈ ev → e'.sender.carries = true →
        Carries e'.frame b.protocol b.publicIp b.port b.remoteIp b.remotePort := by
  obtain ⟨-, -, hiface, -⟩ := capture_cases hcap
  have hin : q.inIface = e.out := hiface.trans hrev.iface
  have hk := hrev.innerKey hcap hcar hv
  have ho : q.origin ≠ .ext := by
    rw [Ne, capture_origin hcap, hin, hif]
    simp
  refine ⟨hk, hin, hS.lookup_int ho hf (by rwa [hk]), fun mods w ev e' hh he' hs' => ?_⟩
  have hrole : classify front q = .lih ∨ classify front q = .hih := by
    unfold classify
    split_ifs <;> simp
  exact hS.answer_inner (q := { q with origin := classify front q }) hrole (inner_of_key hk) hh he'
    hs'

theorem Binding.Outer.carries {ip : IpAddr} {port : Port} {f : Frame} (hp : b.Outer p)
    (hcar : Carries f p.packet.protocol p.packet.saddr p.packet.source ip port) :
    Carries f b.protocol b.remoteIp b.remotePort ip port := by
  obtain ⟨hproto, hsip, hsp, -, -, -⟩ := ConnKey.mk.inj hp
  exact ⟨hcar.protocol.trans hproto, hcar.saddr.trans hsip, hcar.source.trans hsp, hcar.daddr,
    hcar.dest⟩

/-- What answers a packet from the host outside, in terms of this packet. -/
theorem Binding.Outer.answered {f : Frame} (hp : b.Outer p)
    (hcar : Carries f b.protocol b.publicIp b.port b.remoteIp b.remotePort) :
    Carries f p.packet.protocol p.packet.daddr p.packet.dest p.packet.saddr p.packet.source := by
  obtain ⟨hproto, hsip, hsp, hdip, hdp, -⟩ := ConnKey.mk.inj hp
  exact ⟨hcar.protocol.trans hproto.symm, hcar.saddr.trans hdip.symm, hcar.source.trans hdp.symm,
    hcar.daddr.trans hsip.symm, hcar.dest.trans hsp.symm⟩

/-- The receiver of what `proxy_ext2int` sends: the interface of a honeypot is no default route, and
the origin of its replies is the party the frame was sent to. -/
theorem Wired.receiver {front h : Handler} (hW : Wired s t c) (hf : t.frontHandler = some front)
    (hrecv : Honeybrid.receiver t c = some h) (hout : h.iface = some q.inIface)
    (hk : q.connKey = b.innerKey h) :
    classify front q = if c.initiator = .hih then .hih else .lih := by
  unfold Honeybrid.receiver at hrecv
  split at hrecv
  · rename_i hini
    obtain rfl := Option.some.inj (hf.symm.trans hrecv)
    rw [classify_front hout hk, if_neg (by simp [hini])]
  · rename_i hini
    obtain rfl := Option.some.inj (hf.symm.trans hrecv)
    rw [classify_front hout hk, if_neg (by simp [hini])]
  · rename_i hini
    rw [classify_back hout (hW.apart _ _ hf hrecv) hk, if_pos hini]
  · cases hrecv

theorem Wired.receiver_iface {h : Handler} {out : IfaceId} (hW : Wired s t c)
    (hrecv : Honeybrid.receiver t c = some h) (hout : h.iface = some out) :
    s.ifTarget[out]? = none := by
  unfold Honeybrid.receiver at hrecv
  split at hrecv
  · exact hW.front h out hrecv hout
  · exact hW.front h out hrecv hout
  · exact hW.back h out hrecv hout
  · cases hrecv

/-- What the engine sends for the packet `q` between EXT and the honeypots answers the packet
`p`. -/
def Answers (g : Globals) (s : State μ) (i : ConnId) (c : Conn) (q p : Pkt) : Prop :=
  ∀ (mods : Modules μ) w ev e, handle mods g i q ⟨s, c⟩ = .ok (w, ev) → .emitted e ∈ ev →
    e.sender.carries = true →
    Carries e.frame p.packet.protocol p.packet.daddr p.packet.dest p.packet.saddr p.packet.source

/-- The engine sends the packet `q` on between EXT and the honeypots, and this answers the packet
`p`. -/
def AnswerSent (g : Globals) (s : State μ) (i : ConnId) (c : Conn) (q p : Pkt) : Prop :=
  ∀ mods : Modules μ, ∃ w ev e, handle mods g i q ⟨s, c⟩ = .ok (w, ev) ∧ .emitted e ∈ ev ∧
    e.sender.carries = true ∧
    Carries e.frame p.packet.protocol p.packet.daddr p.packet.dest p.packet.saddr p.packet.source

theorem Answers.answered (h : Answers g s i c q p)
    (hsent : ∀ mods : Modules μ, ∃ w ev e, handle mods g i q ⟨s, c⟩ = .ok (w, ev) ∧
      .emitted e ∈ ev ∧ e.sender.carries = true) : AnswerSent g s i c q p := by
  intro mods
  obtain ⟨w, ev, e, hh, he, hs⟩ := hsent mods
  exact ⟨w, ev, e, hh, he, hs, h mods w ev e hh he hs⟩

section Reply

variable {h : Handler} {p' : Pkt}

/-- The reply to what `proxy_ext2int` has sent. -/
theorem Sole.reply_proxyExt2int (hS : Sole g s i c t b) (hS' : Sole g s' i c' t b)
    (hcont : Continues c c') (hif : s'.ifTarget = s.ifTarget) (hW : Wired s t c)
    (ho : p.origin = .ext) (hout : b.Outer p) (hp : proxyExt2int g t i c p = .ok (p', ev))
    (he : .emitted e ∈ ev) (hrev : Reverses e raw) (hcap : capture s' raw = some q) :
    connLookup s' q = .ok (some (i, if c.initiator = .hih then .hih else .lih)) ∧
      Answers g s' i c' { q with origin := if c.initiator = .hih then .hih else .lih } p := by
  obtain ⟨front, hf⟩ := hS.keyed.front
  obtain ⟨h, hrecv, hiface, hv, hcar⟩ := proxyExt2int_frame ho hp he
  have hport : p.packet.dest = b.port := (ConnKey.mk.inj hout).2.2.2.2.1
  have hkey : c'.intKey = some (b.innerKey h) := by
    obtain ⟨h', hrecv', hint⟩ := hS'.keyed.inner
    rw [hcont.receiver, hrecv] at hrecv'
    exact Option.some.inj hrecv' ▸ hint
  obtain ⟨hk, hin, hlook, hans⟩ := hS'.reply_inner hf hrev hcap (hport ▸ hout.carries hcar) hv
    (by rw [hif]; exact hW.receiver_iface hrecv hiface) (.inl hkey)
  rw [← hin] at hiface
  rw [hW.receiver hf hrecv hiface hk] at hlook hans
  exact ⟨hlook, fun mods w ev e' hh he' hs' =>
    hout.answered (hans mods w ev e' (handle_cases hh) he' hs')⟩

/-- The reply to what `forward_ext2hih` has sent on a redirected connection. -/
theorem Sole.reply_forwardExt2hih (hS : Sole g s i c t b) (hS' : Sole g s' i c' t b)
    (hcont : Continues c c') (hif : s'.ifTarget = s.ifTarget) (hW : Wired s t c)
    (hout : b.Outer p) (hred : c.hih.redirectedIntKey ≠ none)
    (hp : forwardExt2hih g i c p = .ok (p', ev)) (he : .emitted e ∈ ev) (hrev : Reverses e raw)
    (hcap : capture s' raw = some q) :
    connLookup s' q = .ok (some (i, .hih)) ∧ Answers g s' i c' { q with origin := .hih } p := by
  obtain ⟨front, hf⟩ := hS.keyed.front
  obtain ⟨k, hk⟩ := Option.ne_none_iff_exists'.mp hred
  obtain ⟨hini, hport, h, hback, rfl⟩ := hS.keyed.back k hk
  obtain ⟨h', hback', hiface, hv, hcar⟩ :=
    forwardExt2hih_frame (ConnKey.mk.inj hout).2.2.2.2.2 hp he
  obtain rfl : h = h' := Option.some.inj (hback.symm.trans hback')
  have hkey : c'.initiator = .ext ∧ c'.hih.redirectedIntKey = some (b.innerKey h) :=
    ⟨(Conn.initiator_of_flow hcont.flow).trans hini, (hcont.back (.inr hred)).2.trans hk⟩
  obtain ⟨hkey, hin, hlook, hans⟩ := hS'.reply_inner hf hrev hcap (hport ▸ hout.carries hcar) hv
    (by rw [hif]; exact hW.back h e.out hback hiface) (.inr hkey)
  rw [← hin] at hiface
  rw [classify_back hiface (hW.apart front h hf hback) hkey] at hlook hans
  exact ⟨hlook, fun mods w ev e' hh he' hs' =>
    hout.answered (hans mods w ev e' (handle_cases hh) he' hs')⟩

/-- The reply to what `proxy_int2ext` has sent. -/
theorem Sole.reply_proxyInt2ext (hS : Sole g s i c t b) (hS' : Sole g s' i c' t b)
    (hcont : Continues c c') (hif : s'.ifTarget = s.ifTarget) (hW : Wired s t c)
    (ho : p.origin ≠ .ext) (hrecv : receiver t c = some h) (hin : b.Inner h p)
    (hp : proxyInt2ext g t i c p = .ok (p', ev)) (he : .emitted e ∈ ev) (hrev : Reverses e raw)
    (hcap : capture s' raw = some q) :
    connLookup s' q = .ok (some (i, .ext)) ∧ Answers g s' i c' { q with origin := .ext } p := by
  obtain ⟨ip, hroute, hip, hv, hcar⟩ := proxyInt2ext_frame ho hp he
  rw [hS.keyed.snat e.out hroute] at hip
  cases hip
  have hout : b.Outer q := hrev.outerKey hcap ⟨hcar.protocol.trans hin.protocol, hcar.saddr,
    hcar.source.trans hin.source, hcar.daddr.trans hin.daddr, hcar.dest.trans hin.dest⟩ hv
  obtain ⟨-, -, hiface, -⟩ := capture_cases hcap
  have hoq : q.origin = .ext := by
    rw [capture_origin hcap, hiface, hrev.iface, hif]
    exact hW.route e.out hroute
  have hkey : c'.extKey = some q.connKey := hS'.keyed.outer.trans (congrArg some hout.symm)
  refine ⟨(hS'.lookup_ext_iff hoq).mpr ⟨hkey, rfl⟩, fun mods w ev e' hh he' hs' => ?_⟩
  obtain ⟨h', hrecv', hcar'⟩ :=
    hS'.answer_outer (q := { q with origin := .ext }) rfl hout (handle_cases hh) he' hs'
  rw [hcont.receiver, hrecv] at hrecv'
  obtain rfl := Option.some.inj hrecv'
  exact ⟨hcar'.protocol.trans hin.protocol.symm, hcar'.saddr.trans hin.daddr.symm,
    hcar'.source.trans hin.dest.symm, hcar'.daddr.trans hin.saddr.symm,
    hcar'.dest.trans hin.source.symm⟩

end Reply

/-- **Replies find their way back.** A connection is created in a state without connections, from
EXT or from a honeypot to EXT, and then worked on and redirected. A frame `e` is sent to a party for
a packet `p` of the connection. Then a frame that answers `e` is resolved to the connection with
this party as its origin, also after further work or a redirection, and whatever the engine sends
for it between EXT and the honeypots goes from the address and port `p` was sent to, to the address
and port `p` was sent from. If the connection lets the packets of the party pass, it is sent. -/
theorem reversible {raw₀ : RawPcap} {role₀ party : Role} {c₁ : Conn} {tr' : List Event}
    (hnone : NoConns s₀) (hcap₀ : capture s₀ raw₀ = some pkt)
    (hcr : createConn g s₀ pkt now = .ok (s₁, some (i, role₀))) (hc₁ : s₁.conns[i]? = some c₁)
    (hd : role₀ = .ext ∨ c₁.destination = .ext)
    (hrun : Machine.Run (operate g) (fun _ op => op.keeps i) s₁ tr s)
    (hc : s.conns[i]? = some c) (hwired : ∀ t, s.targets[c.target]? = some t → Wired s t c)
    (hp : p = pkt ∧ role = role₀ ∨ connLookup s p = .ok (some (i, role)))
    (hsent : Relays g s i c { p with origin := role } e party)
    (hrun' : Machine.Run (operate g) (fun _ op => op.keeps i) s tr' s')
    (hc' : s'.conns[i]? = some c') (hrev : Reverses e raw) (hcap : capture s' raw = some q) :
    connLookup s' q = .ok (some (i, party)) ∧
      Answers g s' i c' { q with origin := party } p ∧
      ∀ t, s'.targets[c'.target]? = some t → Passes t c' party →
        AnswerSent g s' i c' { q with origin := party } p := by
  obtain ⟨-, -, -, -, -, hvlan⟩ := capture_cases hcap₀
  obtain ⟨t, b, hS₁, hfirst⟩ := created_sole hnone hvlan hcr hc₁ hd
  obtain ⟨c₂, hS, hcont₁, -⟩ := hS₁.run hrun
  obtain rfl : c = c₂ := Option.some.inj (hc.symm.trans hS.conn)
  obtain ⟨c₃, hS', hcont, hif⟩ := hS.run hrun'
  obtain rfl : c' = c₃ := Option.some.inj (hc'.symm.trans hS'.conn)
  have hW := hwired t hS.target
  -- the packet comes from the host outside or from the honeypot
  have hout : role = .ext → b.Outer p := by
    rintro rfl
    obtain ⟨rfl, rfl⟩ | hl := hp
    · obtain ⟨-, ho⟩ | ⟨hne, -⟩ := hfirst
      · exact ho
      · exact absurd rfl hne
    · exact hS.outer hl
  have hin : role ≠ .ext → (c.initiator = .ext → role = .lih) →
      ∃ h, receiver t c = some h ∧ b.Inner h p := by
    intro ho hlih
    obtain ⟨rfl, rfl⟩ | hl := hp
    · obtain ⟨he, -⟩ | ⟨-, h₁, hrecv₁, hin₁⟩ := hfirst
      · exact absurd he ho
      · exact ⟨h₁, hcont₁.receiver.trans hrecv₁, hin₁⟩
    · exact hS.inner ho hlih hl
  suffices hback : connLookup s' q = .ok (some (i, party)) ∧
      Answers g s' i c' { q with origin := party } p by
    refine ⟨hback.1, hback.2, fun t' ht' hpass => hback.2.answered fun mods => ?_⟩
    obtain rfl := Option.some.inj (hS'.target.symm.trans ht')
    exact hS'.sent (q := { q with origin := party }) rfl hpass mods
  cases hsent with
  | proxyExt2int ho ht h he =>
    obtain rfl := Option.some.inj (hS.target.symm.trans ht)
    exact hS.reply_proxyExt2int (p := { p with origin := role }) hS' hcont hif hW ho (hout ho) h he
      hrev hcap
  | forwardExt2hih ho hred h he =>
    exact hS.reply_forwardExt2hih (p := { p with origin := role }) hS' hcont hif hW (hout ho) hred h
      he hrev hcap
  | proxyInt2ext ho hlih ht h he =>
    obtain rfl := Option.some.inj (hS.target.symm.trans ht)
    obtain ⟨h', hrecv, hinner⟩ := hin ho hlih
    have hinner' : b.Inner h' { p with origin := role } :=
      ⟨hinner.protocol, hinner.saddr, hinner.source, hinner.daddr, hinner.dest⟩
    exact hS.reply_proxyInt2ext (p := { p with origin := role }) hS' hcont hif hW ho hrecv hinner' h
      he hrev hcap

theorem noConns_boot {targets : Std.TreeMap TargetId Target intcmp}
    {ifTarget : Std.TreeMap IfaceId TargetId} {mem : μ} : NoConns (boot targets ifTarget mem) :=
  ⟨fun _ => rfl, fun _ => rfl, fun _ => rfl, fun _ => rfl, fun _ => rfl, fun _ => rfl⟩

namespace Sample

/-- The first packet of the attacker, as it is captured. -/
def opening : Pkt :=
  { packet .ext (udp 0 50 1000 9 80) with data := 18 }

/-- The connection 1 is redirected to the backend, and what is sent for the packet `opening` goes
there. -/
def forwards (r : State Unit × List Event) : Bool :=
  r.1.conns[1]?.any fun c =>
    c.target = 1 ∧ c.hih.backHandler = some hih ∧ c.hih.redirectedIntKey.isSome ∧
    r.1.targets[1]?.any (fun t => t.frontHandler = some lih ∧ t.defaultRoute = some 0) ∧
    r.1.ifTarget[0]?.isSome ∧ r.1.ifTarget[1]?.isNone ∧ r.1.ifTarget[2]?.isNone ∧
    (capture r.1 (udp 2 20 80 50 1000)).isSome ∧
    (forwardExt2hih globals 1 c opening).passes fun x => x.2.any fun
      | .emitted e => e.out = 2 ∧ e.frame.vlan = none ∧ e.frame.protocol = IPPROTO_UDP ∧
          e.frame.saddr = 50 ∧ e.frame.source = 1000 ∧ e.frame.daddr = 20 ∧ e.frame.dest = 80
      | _ => false

/-- The attacker's connection is created and redirected. -/
theorem redirects :
    ((createConn globals start opening 0).passes fun r => r.2 = some (1, .ext) ∧
      r.1.conns[1]?.isSome ∧
        ((Machine.exec (operate globals) r.1 [.redirect 1 1]).passes forwards &&
        Machine.checks (operate globals) (fun _ op => op = .redirect 1 1) r.1
          [.redirect 1 1])) = true := by
  decide +kernel

theorem wired {s : State Unit} {c : Conn} {t₁ : Target} (htar : c.target = 1)
    (hback : c.hih.backHandler = some hih) (ht₁ : s.targets[(1 : TargetId)]? = some t₁)
    (hf : t₁.frontHandler = some lih ∧ t₁.defaultRoute = some 0)
    (h₀ : s.ifTarget[(0 : IfaceId)]?.isSome = true) (h₁ : s.ifTarget[(1 : IfaceId)]?.isNone = true)
    (h₂ : s.ifTarget[(2 : IfaceId)]?.isNone = true) :
    ∀ t, s.targets[c.target]? = some t → Wired s t c := by
  intro t ht
  rw [htar, ht₁, Option.some.injEq] at ht
  subst ht
  refine ⟨fun front out hfr hout => ?_, fun h out hh hout => ?_, fun out hout => ?_,
    fun front h hfr hh => ?_⟩
  · obtain rfl := Option.some.inj (hf.1.symm.trans hfr)
    obtain rfl := Option.some.inj hout
    exact Option.isNone_iff_eq_none.mp h₁
  · obtain rfl := Option.some.inj (hback.symm.trans hh)
    obtain rfl := Option.some.inj hout
    exact Option.isNone_iff_eq_none.mp h₂
  · obtain rfl := Option.some.inj (hf.2.symm.trans hout)
    exact Option.isSome_iff_ne_none.mp h₀
  · obtain rfl := Option.some.inj (hf.1.symm.trans hfr)
    obtain rfl := Option.some.inj (hback.symm.trans hh)
    exact .inl (by decide)

end Sample

/-- Work on a connection of which only the state changes. -/
theorem operate_forward (hc : s.conns[i]? = some c) (hred : c.hih.redirectedIntKey ≠ none) :
    operate g s (.work i { c with state := .forward }) =
      .ok (s.withConn i { c with state := .forward }, []) := by
  simp [operate, State.connAt, hc, hred, Conn.worked]

/-- The answer of the backend to a packet that was forwarded to it is found, and when the replay is
over it is sent to the attacker, from the address he had sent the packet to. -/
theorem reversible_forward :
    ∃ s₁ tr s c e s' c' q,
      createConn Sample.globals Sample.start Sample.opening 0 = .ok (s₁, some (1, .ext)) ∧
      Machine.Run (operate Sample.globals) (fun _ op => op.keeps 1) s₁ tr s ∧
      s.conns[1]? = some c ∧ Relays Sample.globals s 1 c Sample.opening e .hih ∧
      Reverses e (Sample.udp 2 20 80 50 1000) ∧
      Machine.Run (operate Sample.globals) (fun _ op => op.keeps 1) s [] s' ∧
      s'.conns[1]? = some c' ∧ c'.state = .forward ∧
      capture s' (Sample.udp 2 20 80 50 1000) = some q ∧
      connLookup s' q = .ok (some (1, .hih)) ∧
      ∃ w ev e', handle (Sample.modules .accept) Sample.globals 1 { q with origin := .hih }
          ⟨s', c'⟩ = .ok (w, ev) ∧ .emitted e' ∈ ev ∧
        Carries e'.frame IPPROTO_UDP 9 80 50 1000 := by
  obtain ⟨⟨s₁, o⟩, hcr, hp⟩ := Except.passes_iff.mp Sample.redirects
  obtain ⟨ho, hc₁, hrun⟩ := of_decide_eq_true hp
  obtain rfl : o = some (1, .ext) := ho
  obtain ⟨c₁, hc₁⟩ := Option.isSome_iff_exists.mp hc₁
  obtain ⟨tr, s, hrun, hf⟩ : ∃ tr s, Machine.Run (operate Sample.globals)
      (fun _ op => op.keeps 1) s₁ tr s ∧ Sample.forwards (s, tr) = true :=
    Machine.exists_run (operate Sample.globals) s₁ [.redirect 1 1] Sample.forwards
      (by simp [Op.keeps]) hrun
  obtain ⟨c, hc, hf⟩ := (Option.any_eq_true ..).mp hf
  obtain ⟨htar, hback, hred, ht, h₀, h₁, h₂, hq, hfwd⟩ := of_decide_eq_true hf
  obtain ⟨t, ht, hfr⟩ := (Option.any_eq_true ..).mp ht
  obtain ⟨q, hq⟩ := Option.isSome_iff_exists.mp hq
  obtain ⟨⟨p', ev⟩, hfwd, hev⟩ := Except.passes_iff.mp hfwd
  obtain ⟨x, hx, hev⟩ := List.any_eq_true.mp hev
  obtain ⟨e, rfl, hout, hvlan, hproto, hsip, hsp, hdip, hdp⟩ : ∃ e, x = .emitted e ∧ e.out = 2 ∧
      e.frame.vlan = none ∧ e.frame.protocol = IPPROTO_UDP ∧ e.frame.saddr = 50 ∧
      e.frame.source = 1000 ∧ e.frame.daddr = 20 ∧ e.frame.dest = 80 := by
    cases x with
    | emitted e => exact ⟨e, rfl, of_decide_eq_true hev⟩
    | received | evaluated | fragNeeded => cases hev
  have hsent : Relays Sample.globals s 1 c { Sample.opening with origin := .ext } e .hih :=
    .forwardExt2hih rfl (Option.isSome_iff_ne_none.mp hred) hfwd hx
  have hrev : Reverses e (Sample.udp 2 20 80 50 1000) :=
    ⟨hout.symm, hvlan.symm, hproto.symm, hdip.symm, hdp.symm, hsip.symm, hsp.symm⟩
  have hcap : capture Sample.start (Sample.udp 0 50 1000 9 80) = some Sample.opening := by
    decide +kernel
  have hred' : c.hih.redirectedIntKey ≠ none := Option.isSome_iff_ne_none.mp hred
  set c' : Conn := { c with state := .forward }
  have hrun' : Machine.Run (operate Sample.globals) (fun _ op => op.keeps 1) s []
      (s.withConn 1 c') :=
    .snoc .start (show (Op.work 1 c').keeps 1 from rfl) (operate_forward hc hred')
  have hc' : (s.withConn 1 c').conns[1]? = some c' := by simp
  have ht' : (s.withConn 1 c').targets[c'.target]? = some t := by
    rw [show c'.target = 1 from htar]
    exact ht
  obtain ⟨hlook, -, hans⟩ := reversible noConns_boot hcap hcr hc₁ (.inl rfl) hrun hc
    (Sample.wired htar hback ht (of_decide_eq_true hfr) h₀ h₁ h₂) (.inl ⟨rfl, rfl⟩) hsent hrun' hc'
    hrev (q := q) hq
  obtain ⟨w, ev', e', hh, he', -, hcar⟩ :=
    hans t ht' ⟨.inl rfl, 0, (of_decide_eq_true hfr).2⟩ (Sample.modules .accept)
  exact ⟨s₁, tr, s, c, e, s.withConn 1 c', c', q, hcr, hrun, hc, hsent, hrev, hrun', hc', rfl, hq,
    hlook, w, ev', e', hh, he', hcar⟩

end Honeybrid
