import Honeybrid.Tables

/-!
# Replies and their connections

The reply to a translated packet is looked up by the translated addresses: `ext_tree2` leads from
the packets of a honeypot to the connections from EXT, and `int_tree2` from the packets of EXT to
the connections of the honeypots. The address that was translated away is not part of these keys, so
two connections can have the same reply key, and then the later one replaces the earlier one.

This file shows that nothing else goes wrong. What is left of two connections from EXT are their
ends there, the port they ask for and the honeypots that answer; what is left of two connections to
EXT are their ends and the address the honeypot is shown under. As long as no connection is created
or redirected that has these in common with a live one, every live connection is found under its
reply keys, in every order of creations, redirections, work and removals.

## Main definitions

* `openingKey`: the reply key of the connection a packet would create.
* `NoClash`: an operation that enters no reply key of another live connection.
* `Conn.AnsweredFrom`, `Conn.ShownAs`: what is left of a connection on its reply side.
* `Distinct`: an operation that has none of this in common with another live connection.
* `Owned`: the reply keys of a connection lead to it.

## Main results

* `Operates.replies`: operations without a clash keep the reply keys in place.
* `Operates.translated`: the reply keys are made of the ends of the connection, its honeypots and
  its public address, and of nothing else.
* `noClash_of_distinct`: so distinct operations do not clash.
* `no_cross_talk`: the theorem.
* `no_cross_talk_broken`: two connections with the same reply key.
-/

namespace Honeybrid

variable {μ : Type} {g : Globals} {s s' : State μ} {i : ConnId} {c c' : Conn} {t : Target}
  {op : Op} {tr : List Event} {k : ConnKey}
  {targets : Std.TreeMap TargetId Target intcmp} {ifTarget : Std.TreeMap IfaceId TargetId} {mem : μ}

/-! ### Clashes -/

/-- The address under which a new connection of a honeypot is shown to EXT: that of its pin, or that
of the default route. -/
def publicIp (g : Globals) (s : State μ) (t : Target) (tree : PinTree) (k : PinKey) :
    Option IpAddr :=
  match (s.pinTree tree)[k]? with
  | some p => some p.ip
  | none => t.defaultRoute.bind fun out => (g.links out).ip

/-- The reply key of the connection between EXT and a honeypot that a packet would create, if it
would create one. -/
def openingKey (g : Globals) (s : State μ) (pkt : Pkt) (r : TargetSearch) (t : Target) :
    Option ConnKey :=
  if pkt.packet.protocol = IPPROTO_TCP ∧ pkt.packet.tcp.syn = false then none
  else
    match r.origin with
    | .ext => t.frontHandler.map fun front => dnatReplyKey pkt front.ip front.vlan.vid
    | .lih => do
      let front ← t.frontHandler
      let ip ← publicIp g s t .comm (commPinKey front pkt.packet.daddr)
      if leaves t pkt then some (snatReplyKey pkt ip) else none
    | .hih => do
      let front ← t.frontHandler
      let back ← r.backHandler
      let pin := hihSnatPin g front back pkt.packet.daddr
      let ip ← publicIp g s t pin.1 pin.2
      if leaves t pkt ∧ onLan back pkt.packet.daddr = false ∧ pkt.packet.daddr ≠ front.ip then
        some (snatReplyKey pkt ip)
      else none
    | _ => none

/-- The operation enters no reply key of another live connection. Switches to INTRA hosts are left
out. -/
def NoClash (g : Globals) (s : State μ) : Op → Prop
  | .create pkt _ => ∀ r t k, identify s pkt = .ok (some r) → s.targets[r.target]? = some t →
      openingKey g s pkt r t = some k → ∀ (j : ConnId) (d : Conn), s.conns[j]? = some d →
        (r.origin = .ext → ¬d.InnerReply k) ∧ (r.origin ≠ .ext → ¬d.OuterReply k)
  | .redirect i use => ∀ c t h, s.conns[i]? = some c → c.initiator = .ext →
      s.targets[c.target]? = some t → t.backHandlers[use]? = some h → use ≠ 0 →
        ¬PinnedElsewhere g s h c.firstPktDstIp → ∀ (j : ConnId) (d : Conn), s.conns[j]? = some d →
          j ≠ i → ¬d.InnerReply (redirectedKey c h)
  | .switch _ _ => False
  | .work _ _ | .remove _ => True

/-- The address a connection to EXT is given is its public address. -/
theorem acquireSnat_publicIp {tree : PinTree} {k : PinKey} {s₁ : State μ} {c₁ : Conn} {ip : IpAddr}
    (h : acquireSnat g s c t tree k = .ok (s₁, c₁, ip)) : publicIp g s t tree k = some ip := by
  simp only [acquireSnat] at h
  obtain ⟨o, ho, h⟩ := Except.bind_eq_ok.mp h
  cases o with
  | none =>
    obtain ⟨out, hout, h⟩ := Except.bind_eq_ok.mp h
    obtain ⟨ip', hip, h⟩ := Except.bind_eq_ok.mp h
    cases h
    simp [publicIp, lookupPin_none_iff.mp ho, Option.orFail_eq_ok.mp hout,
      Option.orFail_eq_ok.mp hip]
  | some p =>
    cases h
    simp [publicIp, (lookupPin_some_iff.mp ho).1]

/-! ### Reply keys -/

/-- The keys of every live connection lead to it. -/
structure Replies (s : State μ) : Prop where
  inner : ∀ (i : ConnId) (c : Conn) (k : ConnKey), s.conns[i]? = some c → c.InnerReply k →
    s.extTree2[k]? = some i
  outer : ∀ (i : ConnId) (c : Conn) (k : ConnKey), s.conns[i]? = some c → c.OuterReply k →
    s.intTree2[k]? = some i
  keys : ∀ (i : ConnId) (c : Conn), s.conns[i]? = some c →
    (c.initiator = .ext → ∃ k, c.intKey = some k) ∧
    (c.initiator = .lih ∨ c.initiator = .hih → c.destination = .ext → ∃ k, c.extKey = some k)

theorem replies_boot : Replies (boot targets ifTarget mem) := by
  refine ⟨?_, ?_, ?_⟩ <;> simp [boot]

/-- A connection is written under its number, and no entry of another connection is touched. -/
theorem Replies.set (h : Replies s) (hconns : s'.conns = s.conns.insert i c)
    (hinner : ∀ (j : ConnId) (d : Conn) (k : ConnKey), j ≠ i → s.conns[j]? = some d →
      d.InnerReply k → s'.extTree2[k]? = s.extTree2[k]?)
    (houter : ∀ (j : ConnId) (d : Conn) (k : ConnKey), j ≠ i → s.conns[j]? = some d →
      d.OuterReply k → s'.intTree2[k]? = s.intTree2[k]?)
    (hin : ∀ k, c.InnerReply k → s'.extTree2[k]? = some i)
    (hout : ∀ k, c.OuterReply k → s'.intTree2[k]? = some i)
    (hkeys : (c.initiator = .ext → ∃ k, c.intKey = some k) ∧
      (c.initiator = .lih ∨ c.initiator = .hih → c.destination = .ext →
        ∃ k, c.extKey = some k)) : Replies s' := by
  -- the connection that was written, or another one as before
  have hcases {j : ConnId} {d : Conn} (hj : s'.conns[j]? = some d) :
      (j = i ∧ d = c) ∨ (j ≠ i ∧ s.conns[j]? = some d) := by
    rw [hconns, Std.TreeMap.lookup_insert] at hj
    split_ifs at hj with hij
    · exact .inl ⟨hij.symm, (Option.some.inj hj).symm⟩
    · exact .inr ⟨fun he => hij he.symm, hj⟩
  refine ⟨fun j d k hj hk => ?_, fun j d k hj hk => ?_, fun j d hj => ?_⟩
  · obtain ⟨rfl, rfl⟩ | ⟨hne, hj⟩ := hcases hj
    · exact hin k hk
    · rw [hinner j d k hne hj hk]
      exact h.inner j d k hj hk
  · obtain ⟨rfl, rfl⟩ | ⟨hne, hj⟩ := hcases hj
    · exact hout k hk
    · rw [houter j d k hne hj hk]
      exact h.outer j d k hj hk
  · obtain ⟨rfl, rfl⟩ | ⟨hne, hj⟩ := hcases hj
    · exact hkeys
    · exact h.keys j d hj

/-- A connection that is removed takes its own keys along. -/
theorem Replies.remove (h : Replies s) (hr : removeConn s i = .ok s') : Replies s' := by
  obtain ⟨c, hc, hconns, hinner, houter⟩ := removeConn_replies hr
  have hcases {j : ConnId} {d : Conn} (hj : s'.conns[j]? = some d) :
      j ≠ i ∧ s.conns[j]? = some d := by
    rw [hconns, Std.TreeMap.lookup_erase] at hj
    split_ifs at hj with hij
    exact ⟨fun he => hij he.symm, hj⟩
  refine ⟨fun j d k hj hk => ?_, fun j d k hj hk => ?_, fun j d hj => h.keys j d (hcases hj).2⟩
  · obtain ⟨hne, hj⟩ := hcases hj
    have hown := h.inner j d k hj hk
    rw [hinner k ?_]
    · exact hown
    · intro hk'
      rw [h.inner i c k hc hk', Option.some.injEq] at hown
      exact hne hown.symm
  · obtain ⟨hne, hj⟩ := hcases hj
    have hown := h.outer j d k hj hk
    rw [houter k ?_]
    · exact hown
    · intro hk'
      rw [h.outer i c k hc hk', Option.some.injEq] at hown
      exact hne hown.symm

/-- A connection from EXT is written, and a reply key entered that is free. -/
theorem Replies.enterInner (h : Replies s) (hconns : s'.conns = s.conns.insert i c)
    (hext2 : s'.extTree2 = s.extTree2.insert k i) (hint2 : s'.intTree2 = s.intTree2)
    (hini : c.initiator = .ext) (hkey : ∃ k, c.intKey = some k)
    (hfree : ∀ (j : ConnId) (d : Conn), j ≠ i → s.conns[j]? = some d → ¬d.InnerReply k)
    (hown : ∀ k', c.InnerReply k' → k' = k ∨ s.extTree2[k']? = some i) : Replies s' := by
  refine h.set hconns (fun j d k' hne hj hk => ?_) (fun _ _ _ _ _ _ => by rw [hint2])
    (fun k' hk => ?_) (fun k' hk => ?_) ⟨fun _ => hkey, by simp [hini]⟩
  · rw [hext2]
    refine Std.TreeMap.lookup_insert_of_ne fun he => hfree j d hne hj ?_
    exact he ▸ hk
  · rw [hext2, Std.TreeMap.lookup_insert]
    split_ifs with hkk
    · rfl
    · exact (hown k' hk).resolve_left fun he => hkk he.symm
  · obtain ⟨hi, -⟩ := hk
    simp [hini] at hi

/-- A new connection to EXT is written, and a reply key entered that is free. -/
theorem Replies.enterOuter (h : Replies s) (hconns : s'.conns = s.conns.insert i c)
    (hext2 : s'.extTree2 = s.extTree2) (hint2 : s'.intTree2 = s.intTree2.insert k i)
    (hini : c.initiator ≠ .ext) (hkey : c.extKey = some k)
    (hfree : ∀ (j : ConnId) (d : Conn), j ≠ i → s.conns[j]? = some d → ¬d.OuterReply k) :
    Replies s' := by
  refine h.set hconns (fun _ _ _ _ _ _ => by rw [hext2]) (fun j d k' hne hj hk => ?_)
    (fun k' hk => absurd hk.1 hini) (fun k' hk => ?_)
    ⟨fun hi => absurd hi hini, fun _ _ => ⟨k, hkey⟩⟩
  · rw [hint2]
    refine Std.TreeMap.lookup_insert_of_ne fun he => hfree j d hne hj ?_
    exact he ▸ hk
  · obtain ⟨-, -, hk⟩ := hk
    rw [hint2, Std.TreeMap.lookup_insert, if_pos (Option.some.inj (hkey.symm.trans hk))]

/-- A connection without reply keys is written. -/
theorem Replies.enterNone (h : Replies s) (hconns : s'.conns = s.conns.insert i c)
    (hext2 : s'.extTree2 = s.extTree2) (hint2 : s'.intTree2 = s.intTree2)
    (hini : c.initiator ≠ .ext) (hdest : c.destination ≠ .ext) : Replies s' :=
  h.set hconns (fun _ _ _ _ _ _ => by rw [hext2]) (fun _ _ _ _ _ _ => by rw [hint2])
    (fun _ hk => absurd hk.1 hini) (fun _ hk => absurd hk.2.1 hdest)
    ⟨fun hi => absurd hi hini, fun _ hd => absurd hd hdest⟩

theorem publicIp_cId (n : ℕ) (tree : PinTree) (k : PinKey) :
    publicIp g { s with cId := n } t tree k = publicIp g s t tree k := by
  cases tree <;> rfl

/-- The reply key of a new connection to EXT is the one foreseen. -/
theorem Creates.openingKey_eq {pkt : Pkt} {r : TargetSearch} {now : ℤ}
    (hcr : Creates g { s with cId := i } i t pkt r now r.origin c s')
    (hsyn : ¬(pkt.packet.protocol = IPPROTO_TCP ∧ pkt.packet.tcp.syn = false))
    (hdest : c.destination = .ext) : openingKey g s pkt r t = c.extKey := by
  generalize hrole : r.origin = role at hcr
  cases hcr with
  | ext hfront hpin hc => simp [hc] at hdest
  | lih hfront hpin hc hout =>
    have hip := (publicIp_cId i ..).symm.trans (acquireSnat_publicIp hpin)
    rw [openingKey, if_neg hsyn, hrole, hc]
    simp [hfront, hip, hout]
  | hih hfront hback hpin hc hout hlan hne =>
    have hip := (publicIp_cId i ..).symm.trans (acquireSnat_publicIp hpin)
    rw [openingKey, if_neg hsyn, hrole, hc]
    simp [hfront, hback, hip, hout, hlan, hne]
  | hihIntra hback hh hpin hc => simp [hc] at hdest
  | hihLan hback hh hlan hc => simp [hc] at hdest

/-- What a creation that does not clash enters. -/
theorem Creates.replies {pkt : Pkt} {r : TargetSearch} {now : ℤ} (h : Replies s)
    (hid : identify s pkt = .ok (some r)) (ht : s.targets[r.target]? = some t)
    (hcr : Creates g { s with cId := i } i t pkt r now r.origin c s')
    (hsyn : ¬(pkt.packet.protocol = IPPROTO_TCP ∧ pkt.packet.tcp.syn = false))
    (hok : NoClash g s (.create pkt now)) : Replies s' := by
  obtain ⟨-, -, -, hconns⟩ := hcr.frame
  obtain ⟨hini, -⟩ := hcr.start
  have hfree {k : ConnKey} (hk : openingKey g s pkt r t = some k) := hok r t k hid ht hk
  have hopening := hcr.openingKey_eq hsyn
  generalize hrole : r.origin = role at hcr hini
  cases hcr with
  | @ext front p s₁ c hfront hpin hc =>
    have htrees := hpin.sameTrees
    have hkey : openingKey g s pkt r t = some (dnatReplyKey pkt front.ip front.vlan.vid) := by
      rw [openingKey, if_neg hsyn, hrole, hfront]
      rfl
    refine h.enterInner hconns htrees.extTree2 htrees.intTree2 hini (by rw [hc]; exact ⟨_, rfl⟩)
      (fun j d _ hj => (hfree hkey j d hj).1 hrole) fun k' hk => .inl ?_
    obtain ⟨-, hk | hk⟩ := hk
    · rw [hc] at hk
      exact (Option.some.inj hk).symm
    · rw [hc] at hk
      cases hk
  | @lih front s₁ c₁ c ip hfront hpin hc hout =>
    have htrees := acquireSnat_sameTrees hpin
    have hkey : openingKey g s pkt r t = some (snatReplyKey pkt ip) := by
      rw [hopening (by rw [hc]), hc]
    have hint2 : s₁.intTree2.insert (snatReplyKey pkt ip) i =
        s.intTree2.insert (snatReplyKey pkt ip) i := by rw [htrees.intTree2]
    exact h.enterOuter hconns htrees.extTree2 hint2 (by simp [hini]) (by rw [hc])
      fun j d _ hj => (hfree hkey j d hj).2 (by simp [hrole])
  | @hih front back s₁ c₁ c ip hfront hback hpin hc hout hlan hne =>
    have htrees := acquireSnat_sameTrees hpin
    have hkey : openingKey g s pkt r t = some (snatReplyKey pkt ip) := by
      rw [hopening (by rw [hc]), hc]
    have hint2 : s₁.intTree2.insert (snatReplyKey pkt ip) i =
        s.intTree2.insert (snatReplyKey pkt ip) i := by rw [htrees.intTree2]
    exact h.enterOuter hconns htrees.extTree2 hint2 (by simp [hini]) (by rw [hc])
      fun j d _ hj => (hfree hkey j d hj).2 (by simp [hrole])
  | hihIntra hback hh hpin hc =>
    have htrees := acquireIntra_sameTrees hpin
    exact h.enterNone hconns htrees.extTree2 htrees.intTree2 (by simp [hini]) (by simp [hc])
  | hihLan hback hh hlan hc => exact h.enterNone hconns rfl rfl (by simp [hini]) (by simp [hc])

/-- **Operations without a clash** keep the reply keys in place. -/
theorem Operates.replies (h : Replies s) (hop : Operates g s op s') (hok : NoClash g s op) :
    Replies s' := by
  cases hop with
  | idle => exact h
  | refused => exact ⟨h.inner, h.outer, h.keys⟩
  | create hid ht hcr hsyn => exact hcr.replies h hid ht hsyn hok
  | @work i c d hc hs =>
    exact h.set rfl (fun _ _ _ _ _ _ => rfl) (fun _ _ _ _ _ _ => rfl)
      (fun k hk => h.inner i c k hc hk) (fun k hk => h.outer i c k hc hk) (h.keys i c hc)
  | @redirect i use c c' t s₁ ev hc ht hini hnew hr =>
    obtain ⟨hb, hback, hkey, htrees⟩ := setupRedirection_trees hr
    have hfree := hok c t hb hc hini ht hback
    obtain ⟨h', s₂, c₂, huse, hback', ha, -⟩ := setupRedirection_cases hr
    obtain rfl : hb = h' := Option.some.inj (hback.symm.trans hback')
    have hkept := setupRedirection_kept hr
    obtain ⟨hini', hint⟩ : c'.initiator = .ext ∧ c'.intKey = c.intKey := by
      obtain ⟨h'', key, rid, ed, -, -, rfl⟩ := setupRedirection_conn hr
      exact ⟨hini, rfl⟩
    have hconns : (s₁.withConn i c').conns = s.conns.insert i c' := by
      rw [withConn_conns, hkept.conns]
    refine h.enterInner hconns htrees.extTree2 htrees.intTree2 hini'
      (hint ▸ (h.keys i c hc).1 hini)
      (fun j d hne hj => hfree huse (acquireTarget_cases ha).1 j d hj hne) fun k' hk => ?_
    obtain ⟨-, hk | hk⟩ := hk
    · exact .inr (h.inner i c k' hc ⟨hini, .inl (hint ▸ hk)⟩)
    · rw [hkey] at hk
      exact .inl (Option.some.inj hk).symm
  | switch hc hs => exact hok.elim
  | remove hr => exact h.remove hr

/-! ### What is left of a connection -/

/-- What is left of the addresses and ports of a connection when the address of the honeypot is
translated: its protocol, the end in EXT, and the port of the honeypot. -/
@[ext]
structure Endpoints where
  protocol : BitVec 8
  remoteIp : IpAddr
  remotePort : Port
  port : Port
  deriving DecidableEq, Repr

/-- The ends of a packet that opens a connection from or to EXT. -/
def Pkt.ends (pkt : Pkt) (origin : Role) : Endpoints :=
  if origin = .ext then
    ⟨pkt.packet.protocol, pkt.packet.saddr, pkt.packet.source, pkt.packet.dest⟩
  else ⟨pkt.packet.protocol, pkt.packet.daddr, pkt.packet.dest, pkt.packet.source⟩

/-- The ends of a connection, taken from its first packet. -/
def Conn.ends (c : Conn) : Endpoints :=
  if c.initiator = .ext then ⟨c.protocol, c.firstPktSrcIp, c.firstPktSrcPort, c.firstPktDstPort⟩
  else ⟨c.protocol, c.firstPktDstIp, c.firstPktDstPort, c.firstPktSrcPort⟩

/-- The key of a packet by which the honeypot `h` answers to EXT. -/
def Endpoints.innerKey (e : Endpoints) (h : Handler) : ConnKey where
  protocol := e.protocol
  srcIp := h.ip
  srcPort := e.port
  dstIp := e.remoteIp
  dstPort := e.remotePort
  vlanId := h.vlan.vid

/-- The key of a packet by which EXT answers to a honeypot that is shown as `ip`. -/
def Endpoints.outerKey (e : Endpoints) (ip : IpAddr) : ConnKey where
  protocol := e.protocol
  srcIp := e.remoteIp
  srcPort := e.remotePort
  dstIp := ip
  dstPort := e.port

/-- The honeypots that answer on a connection from EXT: the front handler of its target and, once it
is redirected, its backend. -/
def Conn.answerers (s : State μ) (d : Conn) : List Handler :=
  (s.targets[d.target]?.bind Target.frontHandler).toList ++ d.hih.backHandler.toList

/-- The address under which the honeypot of a connection is shown to EXT: that of its pin, or that
of the default route of its target. -/
def Conn.shownIp (g : Globals) (s : State μ) (d : Conn) : Option IpAddr :=
  match d.pinIp with
  | some p => some p.ip
  | none => s.targets[d.target]?.bind fun t => t.defaultRoute.bind fun out => (g.links out).ip

/-- The connection comes from EXT with the ends `e`, and a honeypot with the address and the VLAN of
`h` answers on it. -/
def Conn.AnsweredFrom (s : State μ) (d : Conn) (e : Endpoints) (h : Handler) : Prop :=
  d.initiator = .ext ∧ d.ends = e ∧ ∃ h' ∈ d.answerers s, h'.ip = h.ip ∧ h'.vlan.vid = h.vlan.vid

/-- The connection goes from a honeypot to EXT with the ends `e`, and is shown there as `ip`. -/
def Conn.ShownAs (g : Globals) (s : State μ) (d : Conn) (e : Endpoints) (ip : IpAddr) : Prop :=
  (d.initiator = .lih ∨ d.initiator = .hih) ∧ d.destination = .ext ∧ d.ends = e ∧
    d.shownIp g s = some ip

/-- The address under which a packet of a honeypot would be shown to EXT, if it may go there. -/
def showsAs (g : Globals) (s : State μ) (pkt : Pkt) (r : TargetSearch) (t : Target) :
    Option IpAddr := do
  let front ← t.frontHandler
  match r.origin with
  | .lih =>
    if leaves t pkt then publicIp g s t .comm (commPinKey front pkt.packet.daddr) else none
  | .hih => do
    let back ← r.backHandler
    let pin := hihSnatPin g front back pkt.packet.daddr
    if leaves t pkt ∧ onLan back pkt.packet.daddr = false ∧ pkt.packet.daddr ≠ front.ip then
      publicIp g s t pin.1 pin.2
    else none
  | _ => none

/-- The operation does not bring together what only the translated address told apart. A packet of
EXT opens no connection with the ends of a live one on which a honeypot with the address and the
VLAN of its front handler answers; a packet of a honeypot opens none with the ends of a live one
that is shown under the same address; no connection is redirected to a backend with whose address
and VLAN a honeypot answers on another one with the same ends. Switches to INTRA are left out. -/
def Distinct (g : Globals) (s : State μ) : Op → Prop
  | .create pkt _ => ¬(pkt.packet.protocol = IPPROTO_TCP ∧ pkt.packet.tcp.syn = false) →
      ∀ (r : TargetSearch) (t : Target), identify s pkt = .ok (some r) →
        s.targets[r.target]? = some t → ∀ (j : ConnId) (d : Conn), s.conns[j]? = some d →
          (∀ front, r.origin = .ext → t.frontHandler = some front →
            ¬d.AnsweredFrom s (pkt.ends .ext) front) ∧
          ∀ ip, showsAs g s pkt r t = some ip → ¬d.ShownAs g s (pkt.ends r.origin) ip
  | .redirect i use => ∀ c t h, s.conns[i]? = some c → c.initiator = .ext →
      s.targets[c.target]? = some t → t.backHandlers[use]? = some h → use ≠ 0 →
        ¬PinnedElsewhere g s h c.firstPktDstIp → ∀ (j : ConnId) (d : Conn), s.conns[j]? = some d →
          j ≠ i → ¬d.AnsweredFrom s c.ends h
  | .switch _ _ => False
  | .work _ _ | .remove _ => True

/-- The reply keys of a connection are made of what is left of it. -/
structure Conn.Translated (g : Globals) (s : State μ) (c : Conn) : Prop where
  int : c.initiator = .ext → ∀ k, c.intKey = some k →
    ∃ h, s.targets[c.target]?.bind Target.frontHandler = some h ∧ k = c.ends.innerKey h
  redirected : c.initiator = .ext → ∀ k, c.hih.redirectedIntKey = some k →
    ∃ h, c.hih.backHandler = some h ∧ k = c.ends.innerKey h
  ext : c.initiator = .lih ∨ c.initiator = .hih → c.destination = .ext → ∀ k, c.extKey = some k →
    ∃ ip, c.shownIp g s = some ip ∧ k = c.ends.outerKey ip

theorem Conn.Translated.answeredFrom {h : Handler} {e : Endpoints} (hT : c.Translated g s)
    (hk : c.InnerReply (e.innerKey h)) : c.AnsweredFrom s e h := by
  obtain ⟨hini, hk⟩ := hk
  have hans : ∃ h' ∈ c.answerers s, e.innerKey h = c.ends.innerKey h' := by
    obtain hk | hk := hk
    · obtain ⟨h', hf, heq⟩ := hT.int hini _ hk
      exact ⟨h', by simp [Conn.answerers, hf], heq⟩
    · obtain ⟨h', hb, heq⟩ := hT.redirected hini _ hk
      exact ⟨h', by simp [Conn.answerers, hb], heq⟩
  obtain ⟨h', hmem, heq⟩ := hans
  simp only [Endpoints.innerKey, ConnKey.mk.injEq] at heq
  obtain ⟨hproto, hip, hport, hremote, hrport, hvlan⟩ := heq
  exact ⟨hini, Endpoints.ext hproto.symm hremote.symm hrport.symm hport.symm, h', hmem, hip.symm,
    hvlan.symm⟩

theorem Conn.Translated.shownAs {e : Endpoints} {ip : IpAddr} (hT : c.Translated g s)
    (hk : c.OuterReply (e.outerKey ip)) : c.ShownAs g s e ip := by
  obtain ⟨hini, hdest, hk⟩ := hk
  obtain ⟨ip', hip', heq⟩ := hT.ext hini hdest _ hk
  simp only [Endpoints.outerKey, ConnKey.mk.injEq] at heq
  obtain ⟨hproto, hremote, hrport, hip, hport, -⟩ := heq
  exact ⟨hini, hdest, Endpoints.ext hproto.symm hremote.symm hrport.symm hport.symm, hip ▸ hip'⟩

/-- The reply key of a new connection to EXT is made of the ends of the packet. -/
theorem openingKey_showsAs {pkt : Pkt} {r : TargetSearch} (hr : r.origin ≠ .ext)
    (hk : openingKey g s pkt r t = some k) :
    ∃ ip, showsAs g s pkt r t = some ip ∧ k = (pkt.ends r.origin).outerKey ip := by
  have hends (ip : IpAddr) : snatReplyKey pkt ip = (pkt.ends r.origin).outerKey ip := by
    rw [Pkt.ends, if_neg hr]
    rfl
  have hsyn : ¬(pkt.packet.protocol = IPPROTO_TCP ∧ pkt.packet.tcp.syn = false) := by
    intro hsyn
    rw [openingKey, if_pos hsyn] at hk
    cases hk
  rw [openingKey, if_neg hsyn] at hk
  unfold showsAs
  cases hrole : r.origin with
  | ext => exact absurd hrole hr
  | lih =>
    rw [hrole] at hk
    obtain ⟨front, hf, hk⟩ := Option.bind_eq_some_iff.mp hk
    obtain ⟨ip, hip, hk⟩ := Option.bind_eq_some_iff.mp hk
    split_ifs at hk with hout
    cases hk
    exact ⟨ip, by simp [hf, hout, hip], hrole ▸ hends ip⟩
  | hih =>
    rw [hrole] at hk
    obtain ⟨front, hf, hk⟩ := Option.bind_eq_some_iff.mp hk
    obtain ⟨back, hb, hk⟩ := Option.bind_eq_some_iff.mp hk
    obtain ⟨ip, hip, hk⟩ := Option.bind_eq_some_iff.mp hk
    split_ifs at hk with hout
    cases hk
    exact ⟨ip, by simp [hf, hb, hout, hip], hrole ▸ hends ip⟩
  | int => simp [hrole] at hk
  | intra => simp [hrole] at hk

theorem redirectedKey_ends (h : Handler) (hini : c.initiator = .ext) :
    redirectedKey c h = c.ends.innerKey h := by
  rw [Conn.ends, if_pos hini]
  rfl

/-- **Distinct operations** do not clash. -/
theorem noClash_of_distinct
    (hT : ∀ (j : ConnId) (d : Conn), s.conns[j]? = some d → d.Translated g s)
    (hok : Distinct g s op) : NoClash g s op := by
  cases op with
  | create pkt now =>
    intro r t k hid ht hk j d hd
    have hsyn : ¬(pkt.packet.protocol = IPPROTO_TCP ∧ pkt.packet.tcp.syn = false) := by
      intro hsyn
      rw [openingKey, if_pos hsyn] at hk
      cases hk
    obtain ⟨hinner, houter⟩ := hok hsyn r t hid ht j d hd
    refine ⟨fun hr hreply => ?_, fun hr hreply => ?_⟩
    · rw [openingKey, if_neg hsyn, hr] at hk
      obtain ⟨front, hf, rfl⟩ := Option.map_eq_some_iff.mp hk
      exact hinner front hr hf ((hT j d hd).answeredFrom hreply)
    · obtain ⟨ip, hip, rfl⟩ := openingKey_showsAs hr hk
      exact houter ip hip ((hT j d hd).shownAs hreply)
  | redirect i use =>
    intro c t h hc hini ht hh huse hpin j d hd hne hreply
    rw [redirectedKey_ends h hini] at hreply
    exact hok c t h hc hini ht hh huse hpin j d hd hne ((hT j d hd).answeredFrom hreply)
  | switch i h => exact hok
  | work i d => trivial
  | remove i => trivial

/-- A connection is translated by its target, its backend and its pin only. -/
theorem Conn.Translated.of_targets (hT : c.Translated g s) (h : s'.targets = s.targets) :
    c.Translated g s' := by
  obtain ⟨hint, hred, hext⟩ := hT
  refine ⟨h ▸ hint, hred, fun hini hdest k hk => ?_⟩
  obtain ⟨ip, hip, heq⟩ := hext hini hdest k hk
  exact ⟨ip, by rw [← hip, Conn.shownIp, Conn.shownIp, h], heq⟩

/-- A new connection to EXT is shown under the address it is given. -/
theorem acquireSnat_shownIp {tree : PinTree} {k : PinKey} {s₁ : State μ} {c₁ : Conn} {ip : IpAddr}
    (h : acquireSnat g s c t tree k = .ok (s₁, c₁, ip)) (ht : s.targets[c.target]? = some t)
    (hpin : c.pinIp = none) : c₁.shownIp g s = some ip ∧ c₁.ends = c.ends ∧
      c₁.initiator = c.initiator ∧ c₁.hih = c.hih := by
  obtain ⟨rfl, rfl, -, out, hout, hip⟩ | ⟨p, -, -, rfl⟩ := acquireSnat_cases h
  · exact ⟨by simp [Conn.shownIp, hpin, ht, hout, hip], rfl, rfl, rfl⟩
  · exact ⟨rfl, rfl, rfl, rfl⟩

/-- A connection that does not come from EXT is translated if its key there is. -/
theorem Conn.Translated.outward (hini : c.initiator ≠ .ext)
    (h : c.destination = .ext → ∀ k, c.extKey = some k →
      ∃ ip, c.shownIp g s = some ip ∧ k = c.ends.outerKey ip) : c.Translated g s :=
  ⟨fun hi => absurd hi hini, fun hi => absurd hi hini, fun _ => h⟩

/-- The first packet of a new connection gives it its ends. -/
theorem Creates.translated {pkt : Pkt} {r : TargetSearch} {now : ℤ} {role : Role}
    (ht : s.targets[r.target]? = some t)
    (hcr : Creates g { s with cId := i } i t pkt r now role c s') : c.Translated g s := by
  obtain ⟨hini, htarget, -⟩ := hcr.start
  cases hcr with
  | @ext front p s₁ c hfront hpin hc =>
    subst hc
    refine ⟨fun _ k hk => ⟨front, ?_, (Option.some.inj hk).symm⟩, fun _ k hk => ?_, fun h => ?_⟩
    · rw [htarget, ht]
      exact hfront
    · cases hk
    · obtain h | h := h <;> cases h
  | @lih front s₁ c₁ c ip hfront hpin hc =>
    obtain ⟨hip, hends, hini₁, -⟩ := acquireSnat_shownIp hpin ht rfl
    have hne : c₁.initiator ≠ .ext := by simp [hini₁, Conn.fresh]
    subst hc
    refine .outward hne fun _ k hk => ⟨ip, hip, ?_⟩
    rw [← Option.some.inj hk]
    exact congrArg (·.outerKey ip) hends.symm
  | @hih front back s₁ c₁ c ip hfront hback hpin hc =>
    obtain ⟨hip, hends, hini₁, -⟩ := acquireSnat_shownIp hpin ht rfl
    have hne : c₁.initiator ≠ .ext := by simp [hini₁, hihFresh, Conn.fresh]
    subst hc
    refine .outward hne fun _ k hk => ⟨ip, hip, ?_⟩
    rw [← Option.some.inj hk]
    exact congrArg (·.outerKey ip) hends.symm
  | hihIntra hback hh hpin hc => exact .outward (by simp [hini]) fun hdest => by simp [hc] at hdest
  | hihLan hback hh hlan hc => exact .outward (by simp [hini]) fun hdest => by simp [hc] at hdest

/-- Every operation but a switch keeps the connections translated. -/
theorem Operates.translated
    (hT : ∀ (j : ConnId) (d : Conn), s.conns[j]? = some d → d.Translated g s)
    (hop : Operates g s op s') (hok : NoClash g s op) (j : ConnId) (d : Conn)
    (hd : s'.conns[j]? = some d) : d.Translated g s' := by
  -- a connection is written under its number, and the others stay
  have hset {i : ConnId} {c : Conn} (htargets : s'.targets = s.targets)
      (hconns : s'.conns = s.conns.insert i c) (hc : c.Translated g s) : d.Translated g s' := by
    refine Conn.Translated.of_targets ?_ htargets
    rw [hconns, Std.TreeMap.lookup_insert] at hd
    split_ifs at hd
    · cases hd
      exact hc
    · exact hT j d hd
  cases hop with
  | idle => exact hT j d hd
  | refused => exact (hT j d hd).of_targets rfl
  | create hid ht hcr hsyn =>
    obtain ⟨htargets, -, -, hconns⟩ := hcr.frame
    exact hset htargets hconns (hcr.translated ht)
  | @work i c d' hc hs =>
    obtain ⟨hint, hred, hext⟩ := hT i c hc
    exact hset rfl rfl ⟨hint, hred, hext⟩
  | @redirect i use c c' t s₁ ev hc ht hini hnew hr =>
    have hkept := setupRedirection_kept hr
    obtain ⟨h, key, rid, ed, -, -, rfl⟩ := setupRedirection_conn hr
    refine hset hkept.targets (by rw [withConn_conns, hkept.conns]) ?_
    obtain ⟨hint, -, hext⟩ := hT i c hc
    refine ⟨hint, fun _ k hk => ⟨h, rfl, ?_⟩, hext⟩
    rw [← Option.some.inj hk]
    exact redirectedKey_ends h hini
  | switch hc hs => exact hok.elim
  | remove hr =>
    have hq := removeConn_quiet hr
    exact (hT j d (hq.conns j d hd)).of_targets hq.targets

/-- The reply keys of the connection `c` lead to its number `i`. -/
structure Owned (s : State μ) (i : ConnId) (c : Conn) : Prop where
  int : c.initiator = .ext → ∃ k, c.intKey = some k ∧ s.extTree2[k]? = some i
  redirected : c.initiator = .ext → ∀ k, c.hih.redirectedIntKey = some k → s.extTree2[k]? = some i
  ext : c.initiator = .lih ∨ c.initiator = .hih → c.destination = .ext →
    ∃ k, c.extKey = some k ∧ s.intTree2[k]? = some i

/-- **No cross-talk.** In every order of creations, redirections, work and removals that brings no
two connections together which only the translated address told apart, every live connection is
found under its reply keys, and two live connections have no reply key in common. -/
theorem no_cross_talk
    (hrun : Machine.Run (operate g) (Distinct g) (boot targets ifTarget mem) tr s)
    (hc : s.conns[i]? = some c) :
    Owned s i c ∧ ∀ (j : ConnId) (d : Conn) (k : ConnKey), s.conns[j]? = some d → j ≠ i →
      ¬(c.InnerReply k ∧ d.InnerReply k) ∧ ¬(c.OuterReply k ∧ d.OuterReply k) := by
  obtain ⟨hR, -⟩ : Replies s ∧ ∀ (j : ConnId) (d : Conn), s.conns[j]? = some d →
      d.Translated g s := by
    refine hrun.invariant (fun s => Replies s ∧ ∀ (j : ConnId) (d : Conn), s.conns[j]? = some d →
      d.Translated g s) ⟨replies_boot, fun j d hd => by simp [boot] at hd⟩ ?_
    rintro s₁ op s₂ out ⟨hR, hT⟩ hok hop
    have hclash := noClash_of_distinct hT hok
    exact ⟨(operate_cases hop).replies hR hclash, (operate_cases hop).translated hT hclash⟩
  refine ⟨⟨fun hini => ?_, fun hini k hk => hR.inner i c k hc ⟨hini, .inr hk⟩,
    fun hini hdest => ?_⟩, fun j d k hd hne => ⟨?_, ?_⟩⟩
  · obtain ⟨k, hk⟩ := (hR.keys i c hc).1 hini
    exact ⟨k, hk, hR.inner i c k hc ⟨hini, .inl hk⟩⟩
  · obtain ⟨k, hk⟩ := (hR.keys i c hc).2 hini hdest
    exact ⟨k, hk, hR.outer i c k hc ⟨hini, hdest, hk⟩⟩
  · rintro ⟨hk, hk'⟩
    have hown := hR.inner i c k hc hk
    rw [hR.inner j d k hd hk', Option.some.injEq] at hown
    exact hne hown
  · rintro ⟨hk, hk'⟩
    have hown := hR.outer i c k hc hk
    rw [hR.outer j d k hd hk', Option.some.injEq] at hown
    exact hne hown

/-! ### Runs -/

instance (s : State μ) (d : Conn) (e : Endpoints) (h : Handler) :
    Decidable (d.AnsweredFrom s e h) :=
  inferInstanceAs (Decidable (_ ∧ _))

instance (s : State μ) (d : Conn) (e : Endpoints) (ip : IpAddr) : Decidable (d.ShownAs g s e ip) :=
  inferInstanceAs (Decidable (_ ∧ _))

/-- A test for distinct creations. -/
def distinct (g : Globals) (s : State μ) : Op → Bool
  | .create pkt _ =>
    match identify s pkt with
    | .ok (some r) => s.targets[r.target]?.all fun t => s.conns.toList.all fun e =>
        (t.frontHandler.all fun front => ¬e.2.AnsweredFrom s (pkt.ends .ext) front) ∧
          (showsAs g s pkt r t).all fun ip => ¬e.2.ShownAs g s (pkt.ends r.origin) ip
    | _ => true
  | _ => false

theorem distinct_of_test (h : distinct g s op = true) : Distinct g s op := by
  cases op with
  | create pkt now =>
    intro _ r t hid ht j d hd
    simp only [distinct, hid, ht, Option.all_some, List.all_eq_true] at h
    obtain ⟨hinner, houter⟩ :=
      of_decide_eq_true (h (j, d) (Std.TreeMap.mem_toList_iff_getElem?_eq_some.mpr hd))
    refine ⟨fun front _ hf => ?_, fun ip hip => ?_⟩
    · rw [hf] at hinner
      exact of_decide_eq_true hinner
    · rw [hip] at houter
      exact of_decide_eq_true houter
  | work | redirect | switch | remove => cases h

namespace Sample

/-- A packet of the attacker 50 from the given port to the given address. -/
def visit (source : Port) (daddr : IpAddr) : Pkt :=
  packet .ext (udp 0 50 source daddr 80)

end Sample

/-- Two connections of one attacker from different ports. -/
theorem no_cross_talk_ports :
    ∃ tr s c, Machine.Run (operate Sample.globals) (Distinct Sample.globals) Sample.start tr s ∧
      s.conns[1]? = some c ∧ s.conns[2]?.isSome ∧ Owned s 1 c := by
  have htest (s : State Unit) (op : Op) (h : distinct Sample.globals s op = true) :
      Distinct Sample.globals s op := distinct_of_test h
  obtain ⟨tr, s, hrun, hp⟩ := Machine.exists_run (operate Sample.globals) Sample.start
    [.create (Sample.visit 1000 9) 0, .create (Sample.visit 1001 9) 0]
    (fun r => r.1.conns[1]?.isSome ∧ r.1.conns[2]?.isSome) htest (by decide +kernel)
  obtain ⟨h₁, h₂⟩ := of_decide_eq_true hp
  obtain ⟨c, hc⟩ := Option.isSome_iff_exists.mp h₁
  exact ⟨tr, s, c, hrun, hc, h₂, (no_cross_talk hrun hc).1⟩

/-- One attacker visits two addresses of a target from the same port: the replies on the first
connection lead to the second one. -/
theorem no_cross_talk_broken :
    ∃ tr s c k, Machine.Reaches (operate Sample.globals) Sample.start tr s ∧
      s.conns[1]? = some c ∧ c.initiator = .ext ∧ c.intKey = some k ∧ s.extTree2[k]? = some 2 := by
  obtain ⟨tr, s, hrun, hp⟩ := Machine.exists_reaches (operate Sample.globals) Sample.start
    [.create (Sample.visit 1000 9) 0, .create (Sample.visit 1000 8) 0]
    (fun r => r.1.conns[1]?.any fun c => c.initiator = .ext ∧
      c.intKey.any fun k => r.1.extTree2[k]? = some 2) (by decide +kernel)
  obtain ⟨c, hc, hp⟩ := (Option.any_eq_true ..).mp hp
  obtain ⟨hini, hk⟩ := of_decide_eq_true hp
  obtain ⟨k, hk, htree⟩ := (Option.any_eq_true ..).mp hk
  exact ⟨tr, s, c, k, hrun, hc, hini, hk, of_decide_eq_true htree⟩

end Honeybrid
