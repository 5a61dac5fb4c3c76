import Honeybrid.Effects

/-!
# INTRA hosts

What a high-interaction honeypot and an INTRA host can say to each other. An INTRA host opens no
connection: `create_conn` reads the backend it is addressed to from a search record that
`find_hih_dst` does not fill in. Its replies reach the honeypot only on connections in PROXY, and an
accepting rule leaves the connection in CONTROL.

## Main definitions

* `Contacted`: a backend has a live connection to an exclusive INTRA host.
* `OpensBack`: the host opens a connection back to the backend.

## Main results

* `createConn_intra`: `create_conn` on a packet of an INTRA host that is addressed to a backend.
* `opens_back_iff`: when an INTRA host is served as its pins say.
* `hih_hasBackend`: a connection opened by a backend keeps that backend.
* `intra_replies_iff`: when the replies of an INTRA host are delivered.
-/

namespace Honeybrid

variable {μ : Type} {mods : Modules μ} {g : Globals} {s s₁ : State μ} {i : ConnId} {pkt : Pkt}
  {r : TargetSearch} {t : Target} {c : Conn} {front back : Handler} {now : ℤ} {raw : RawPcap}
  {tr : List Event} {targets : Std.TreeMap TargetId Target intcmp}
  {ifTarget : Std.TreeMap IfaceId TargetId} {mem : μ}

/-! ### Connections of INTRA hosts -/

/-- The backend has a live connection to the INTRA host, which is exclusive and which it contacted
as `ip`. -/
def Contacted (s : State μ) (back : Handler) (intra : Option Handler) (ip : IpAddr) : Prop :=
  ∃ (j : ConnId) (c : Conn) (h : Handler), s.conns[j]? = some c ∧ c.initiator = .hih ∧
    c.destination = .intra ∧ c.hih.backHandler = some back ∧ c.intraHandler = some h ∧
    intra = some h ∧ h.exclusive = true ∧ c.firstPktDstIp = ip

/-- The packet is attributed to the connection `j` with the given origin, and sent on. -/
def Delivers (mods : Modules μ) (g : Globals) (s : State μ) (j : ConnId) (c : Conn) (q : Pkt)
    (role : Role) : Prop :=
  connLookup s q = .ok (some (j, role)) ∧
    ∃ w ev e, handle mods g j { q with origin := role } ⟨s, c⟩ = .ok (w, ev) ∧ .emitted e ∈ ev

/-- The key of a reply of the backend to a packet whose source is translated to `ip`. -/
def backReplyKey (pkt : Pkt) (back : Handler) (ip : IpAddr) : ConnKey :=
  { snatReplyKey pkt ip with vlanId := back.vlan.vid }

/-- The packet of an INTRA host opens a connection to the backend, translated to `ip`, and the
packets of that connection are delivered in both directions. -/
def OpensBack (mods : Modules μ) (g : Globals) (s : State μ) (pkt : Pkt) (now : ℤ) (back : Handler)
    (ip : IpAddr) : Prop :=
  ∃ s' j c, createConn g s pkt now = .ok (s', some (j, .intra)) ∧ s'.conns[j]? = some c ∧
    c.destination = .hih ∧ c.hih.backHandler = some back ∧ c.pinIp.map PinPtr.ip = some ip ∧
    (∀ q : Pkt, q.origin = .int → q.connKey = pkt.connKey → Delivers mods g s' j c q .intra) ∧
    ∀ q : Pkt, q.origin = .int → q.connKey = backReplyKey pkt back ip →
      Delivers mods g s' j c q .hih

/-- A packet of an INTRA host to a backend is refused when its address belongs to an INTRA handler
or to the front handler as well; otherwise an uninitialised pointer is followed. -/
theorem createConn_intra (hid : identify s pkt = .ok (some r)) (hr : r.origin = .intra)
    (ht : s.targets[r.target]? = some t) (hf : t.frontHandler = some front)
    (hsyn : ¬(pkt.packet.protocol = IPPROTO_TCP ∧ pkt.packet.tcp.syn = false))
    (hback : t.backHandlers.toList.any (fun e => findHihDst pkt e.2) = true) :
    createConn g s pkt now =
      if t.intraHandlers[pkt.packet.daddr]?.isSome ∨ pkt.packet.daddr = front.ip then
        .ok ({ s with cId := s.cId + 1 }, none)
      else .error .hihSearch := by
  -- the search has stopped at the INTRA handler, without a backend
  have hnone : r.backHandler = none := by
    obtain ⟨-, h, -⟩ | ⟨-, t', -, hfind⟩ := identify_cases hid
    · rw [hr] at h
      cases h
    · obtain ⟨-, _, -, ⟨h, -⟩ | ⟨h, -⟩ | ⟨-, h⟩⟩ := findTarget_cases hfind
      · rw [hr] at h
        cases h
      · rw [hr] at h
        cases h
      · exact h
  rw [createConn, if_neg hsyn, hid]
  simp only [Except.ok_bind, ht, Option.orFail_some, createAs, hr, createIntra, hf, hback, if_true,
    hnone, Option.orFail_none, Except.error_bind]
  by_cases hi : t.intraHandlers[pkt.packet.daddr]?.isSome = true
  · simp [hi]
  · by_cases hd : pkt.packet.daddr = front.ip
    · simp [hd]
    · simp [hi, hd]

/-- **Connecting back.** On a packet of an INTRA host to a backend, `create_conn` does what the pins
ask for exactly when the backend has no live connection to that host and the packet is refused by
one of the checks that come before the search for the backend. -/
theorem opens_back_iff (mods : Modules μ) (hid : identify s pkt = .ok (some r))
    (hr : r.origin = .intra)
    (ht : s.targets[r.target]? = some t) (hf : t.frontHandler = some front)
    (hsyn : ¬(pkt.packet.protocol = IPPROTO_TCP ∧ pkt.packet.tcp.syn = false))
    {id : HandlerId} (hback : t.backHandlers[id]? = some back) (hip : back.ip = pkt.packet.daddr) :
    ((∀ ip, Contacted s back r.intraHandler ip → OpensBack mods g s pkt now back ip) ∧
      ((¬∃ ip, Contacted s back r.intraHandler ip) →
        ∃ s', createConn g s pkt now = .ok (s', none))) ↔
    (¬∃ ip, Contacted s back r.intraHandler ip) ∧
      (t.intraHandlers[pkt.packet.daddr]?.isSome = true ∨ pkt.packet.daddr = front.ip) := by
  have hany : t.backHandlers.toList.any (fun e => findHihDst pkt e.2) = true := by
    obtain ⟨k, -, hk⟩ :=
      Std.TreeMap.getElem?_eq_some_iff_exists_compare_eq_eq_and_mem_toList.mp hback
    exact List.any_eq_true.mpr ⟨(k, back), hk, decide_eq_true hip⟩
  have hcreate : createConn g s pkt now = _ := createConn_intra hid hr ht hf hsyn hany
  constructor
  · rintro ⟨hopen, hrefuse⟩
    have hnot : ¬∃ ip, Contacted s back r.intraHandler ip := by
      rintro ⟨ip, hcon⟩
      obtain ⟨s', j, c, hok, -⟩ := hopen ip hcon
      rw [hcreate] at hok
      split_ifs at hok
      cases hok
    refine ⟨hnot, ?_⟩
    obtain ⟨s', hok⟩ := hrefuse hnot
    rw [hcreate] at hok
    split_ifs at hok with hcheck
    exact hcheck
  · rintro ⟨hnot, hcheck⟩
    refine ⟨fun ip hcon => absurd ⟨ip, hcon⟩ hnot, fun _ => ⟨{ s with cId := s.cId + 1 }, ?_⟩⟩
    rw [hcreate, if_pos hcheck]

namespace Sample

/-- The INTRA host is exclusive, and stands for another address too. -/
def pinnedTarget (other : IpAddr) : Target :=
  { target with
    intraHandlers := ((∅ : Std.TreeMap IpAddr Handler addrCmp).insert 40
      { intra with exclusive := true }).insert other { intra with exclusive := true } }

/-- The program before its first packet, with that target. -/
def pinnedStart (other : IpAddr) : State Unit :=
  boot ((∅ : Std.TreeMap TargetId Target intcmp).insert 1 (pinnedTarget other)) Sample.ifTarget ()

/-- A packet of the INTRA host to the high-interaction honeypot. -/
def backward : Pkt :=
  packet .int (udp 3 30 2000 20 2000)

/-- What the search of the targets finds for the packet. -/
def recognised : TargetSearch where
  target := 1
  origin := .intra
  intraHandler := some { intra with exclusive := true }

end Sample

/-- An INTRA host that stands for the address of the honeypot itself is refused. -/
theorem opens_back_refused :
    ∃ s', createConn Sample.globals (Sample.pinnedStart 20) Sample.backward 0 = .ok (s', none) := by
  have hid : identify (Sample.pinnedStart 20) Sample.backward = .ok (some Sample.recognised) := by
    rfl
  have ht : (Sample.pinnedStart 20).targets[Sample.recognised.target]? =
      some (Sample.pinnedTarget 20) := by
    rfl
  have hf : (Sample.pinnedTarget 20).frontHandler = some Sample.lih := by
    rfl
  have hb : (Sample.pinnedTarget 20).backHandlers[1]? = some Sample.hih := by
    rfl
  have hnot : ¬∃ ip, Contacted (Sample.pinnedStart 20) Sample.hih Sample.recognised.intraHandler
      ip := by
    rintro ⟨ip, j, c, h, hc, -⟩
    simp [Sample.pinnedStart, boot] at hc
  exact ((opens_back_iff (Sample.modules .accept) hid rfl ht hf (by decide) hb rfl).mpr
    ⟨hnot, .inl rfl⟩).2 hnot

/-- **No way back.** The high-interaction honeypot has a connection to the INTRA host, and the first
packet of that host to the honeypot makes `create_conn` follow an uninitialised pointer. -/
theorem opens_back_broken :
    ∃ tr s, Machine.Reaches (step (Sample.modules .accept) Sample.globals) (Sample.pinnedStart 41)
        tr s ∧
      identify s Sample.backward = .ok (some Sample.recognised) ∧
      Contacted s Sample.hih Sample.recognised.intraHandler 40 ∧
      ∀ r, createConn Sample.globals s Sample.backward 0 ≠ .ok r := by
  obtain ⟨tr, s, hrun, hp⟩ := Machine.exists_reaches
    (step (Sample.modules .accept) Sample.globals) (Sample.pinnedStart 41)
    [.packet (Sample.udp 2 20 1000 40 80) 0]
    (fun r => identify r.1 Sample.backward = .ok (some Sample.recognised) ∧
      (r.1.conns[1]?.any fun c => c.initiator = .hih ∧ c.destination = .intra ∧
        c.hih.backHandler = some Sample.hih ∧ c.intraHandler = Sample.recognised.intraHandler ∧
        c.firstPktDstIp = 40) ∧
      (createConn Sample.globals r.1 Sample.backward 0).passes (fun _ => true) = false)
    (by decide +kernel)
  obtain ⟨hid, hc, hfail⟩ := of_decide_eq_true hp
  obtain ⟨c, hc, hcon⟩ := (Option.any_eq_true ..).mp hc
  obtain ⟨hini, hdest, hback, hintra, hip⟩ := of_decide_eq_true hcon
  refine ⟨tr, s, hrun, hid, ⟨1, c, _, hc, hini, hdest, hback, hintra, rfl, rfl, hip⟩, ?_⟩
  intro r hr
  rw [hr] at hfail
  cases hfail

/-! ### Replies of INTRA hosts -/

/-- A packet of a backend comes from the interface of that backend. -/
theorem iface_of_backHandler (hid : identify s pkt = .ok (some r)) (hrole : r.origin = .hih)
    (hback : r.backHandler = some back) : back.iface = some pkt.inIface := by
  have hsrc := findHihSrc_of_backHandler hid hrole hback
  simp only [findHihSrc, decide_eq_true_eq] at hsrc
  exact hsrc.1

/-- A new connection of a backend has that backend. -/
theorem Creates.hasBackend {s' : State μ} (h : Creates g s₁ i t pkt r now r.origin c s')
    (hid : identify s pkt = .ok (some r)) (hini : c.initiator = .hih) : c.hasBackend := by
  have hr : r.origin = .hih := h.start.1.symm.trans hini
  rw [hr] at h
  cases h with
  | hih hfront hback hpin hc =>
    refine ⟨_, _, ?_, iface_of_backHandler hid hr hback⟩
    subst hc
    obtain ⟨-, rfl, -⟩ | ⟨p, -, -, rfl⟩ := acquireSnat_cases hpin <;> rfl
  | hihIntra hback hh hpin hc =>
    refine ⟨_, _, ?_, iface_of_backHandler hid hr hback⟩
    subst hc
    obtain ⟨-, rfl⟩ | ⟨k, p, ip, -, rfl⟩ := acquireIntra_cases hpin <;> rfl
  | hihLan hback hh hlan hc =>
    refine ⟨_, _, ?_, iface_of_backHandler hid hr hback⟩
    subst hc
    rfl

theorem Alike.hasBackend {c' : Conn} (h : Alike c c') (hb : c.hasBackend) : c'.hasBackend := by
  obtain ⟨back, out, hback, hout⟩ := hb
  refine ⟨back, out, ?_, hout⟩
  rw [h]
  exact hback

/-- The rules leave the backend of a connection alone. -/
theorem evaluate_hasBackend {d : DecisionHolder} {w w₁ : Work μ} {ev : List Event}
    (he : evaluate mods i pkt w = .ok (d, w₁, ev)) (hb : w.conn.hasBackend) :
    w₁.conn.hasBackend := by
  obtain hc | ⟨h, k, hc⟩ := (evaluate_run he).conn_cases
  · rw [hc]
    exact hb
  · rw [hc]
    exact hb

/-- **Backends of connections.** In every run, a connection opened by a high-interaction honeypot
has that honeypot as its backend, and its interface is known. -/
theorem hih_hasBackend {ok : State μ → Input → Prop}
    (hrun : Machine.Run (step mods g) ok (boot targets ifTarget mem) tr s)
    (hc : s.conns[i]? = some c) (hini : c.initiator = .hih) : c.hasBackend := by
  have htr : Tracked targets ifTarget (fun _ _ c => c.initiator = .hih → c.hasBackend) tr s := by
    refine connInvariant_run _ ?_ hrun
    intro tr s hrun hT raw now s₁ i pkt c w ev _ _ hatt hh hini
    have hH := handle_cases hh
    have hini' : c.initiator = .hih := (Conn.initiator_of_flow hH.framed.2).symm.trans hini
    have hb : c.hasBackend := by
      cases hatt with
      | @found pkt₀ c hcap hpkt hlook hc hs => exact hT.holds i c hc hini'
      | created hcap hpkt hlook hid ht hi hcr => exact hcr.hasBackend hid hini'
    cases handle_effect hh with
    | same hc => exact hc.hasBackend hb
    | ruled hs he hc =>
      exact hc.hasBackend (evaluate_hasBackend he ((alike_submitted pkt c).hasBackend hb))
    | redirected hs he hdec ht hr hc =>
      -- only connections from EXT are redirected
      have hdec' : c.state = .decision := (evaluate_decision (w := ⟨s₁, c⟩) he hdec).2
      cases hatt with
      | @found pkt₀ c hcap hpkt hlook hc hs =>
        have hext : c.initiator = .ext := (redirected_once hrun hc).2 hdec'
        have hini' : c.initiator = .hih := hini'
        rw [hini'] at hext
        cases hext
      | created hcap hpkt hlook hid ht hi hcr =>
        obtain ⟨-, -, ⟨-, h, -⟩ | ⟨-, h, -⟩ | ⟨-, h, -⟩⟩ := hcr.start
        all_goals
          rw [h] at hdec'
          cases hdec'
  exact htr.holds i c hc hini

/-- The source address of a reply of the INTRA host on the connection `c`. -/
def Conn.replySource (c : Conn) : IpAddr :=
  match c.pinIp with
  | some p => p.ip
  | none => c.firstPktDstIp

/-- A reply is sent to the honeypot of the connection with the source address `ip`. -/
def Emission.isReply (e : Emission) (i : ConnId) (c : Conn) (pkt : Pkt) (ip : IpAddr) : Prop :=
  e.sender = .proxyIntra2hih ∧ e.id = i ∧ e.pkt.original = pkt.original ∧ e.frame.saddr = ip ∧
    ∃ h, c.hih.backHandler = some h ∧ h.iface = some e.out

theorem natVlan_saddr (v : VlanTci) (pkt : Pkt) :
    (natVlan v pkt).packet.saddr = pkt.packet.saddr := by
  unfold natVlan
  split_ifs <;> rfl

/-- `proxy_intra2hih` sends the packet to the backend, from the pinned address if there is one. -/
theorem proxyIntra2hih_reply (g : Globals) (i : ConnId) (hb : c.hasBackend)
    (ho : pkt.origin = .intra) :
    ∃ pkt' e, proxyIntra2hih g i c pkt = .ok (pkt', [.emitted e]) ∧
      e.isReply i c pkt c.replySource := by
  obtain ⟨h, out, hback, hout⟩ := hb
  let sent : Pkt := nat g
    { srcIp := c.replySource, dstMac := c.firstPktSrcMac, dstVlan := h.vlan } out
    { pkt with destination := .hih }
  have hrew : Rewritten pkt sent := Rewritten.nat ⟨rfl, rfl, rfl, rfl, rfl, rfl⟩
  refine ⟨sent, ⟨.proxyIntra2hih, i, c, sent, out, sent.packet⟩, ?_, rfl, rfl, hrew.original, ?_, h,
    hback, hout⟩
  · rw [proxyIntra2hih]
    simp only [hback, hout, Option.orFail_some, Except.ok_bind]
    rfl
  · simp only [sent, nat, ho]
    rw [natVlan_saddr]

/-- A packet of an INTRA host is sent on in PROXY, and dropped otherwise. -/
theorem handle_intra {w : Work μ} (ho : pkt.origin = .intra) :
    handle mods g i pkt w = if w.conn.state = .proxy then
        (proxyIntra2hih g i w.conn pkt).map fun r => (w, r.2)
      else .ok (w, []) := by
  unfold handle
  split_ifs with href hs hs
  · obtain ⟨-, h⟩ | h := href
    · rw [ho] at h
      cases h
    · rw [hs] at h
      cases h
  · simp [refuse, ho]
  · simp only [ho, dispatchIntra, hs]
    rfl
  · simp only [ho, dispatchIntra]

/-- A packet of an INTRA host belongs to a connection that exists. -/
theorem Attributed.intra (h : Attributed g s raw now s₁ i pkt c) (ho : pkt.origin = .intra) :
    ∃ c₀, s.conns[i]? = some c₀ ∧ s₁ = s.withConn i (updateConn c₀ .intra now) := by
  cases h with
  | found hcap hpkt hlook hc hs => exact ⟨_, hc, by rw [hs, ho]⟩
  | created hcap hpkt hlook hid ht hi hcr =>
    rw [hpkt] at ho
    obtain ⟨-, -, ⟨h, -⟩ | ⟨h, -⟩ | ⟨h, -⟩⟩ := hcr.start
    all_goals
      rw [h] at ho
      cases ho

/-- **Replies of INTRA hosts.** In every run, a packet of the INTRA host on a connection that a
high-interaction honeypot has opened to it is delivered to the honeypot, from the address that the
honeypot contacted, exactly when the connection is in PROXY and is not pinned to another address. -/
theorem intra_replies_iff {ok : State μ → Input → Prop}
    (hrun : Machine.Run (step mods g) ok (boot targets ifTarget mem) tr s)
    (hc : s.conns[i]? = some c) (hini : c.initiator = .hih)
    (ha : assign g s raw now = .ok (s₁, some (i, pkt))) (ho : pkt.origin = .intra) :
    (∃ s' out e, step mods g s (.packet raw now) = .ok (s', out) ∧ .emitted e ∈ out ∧
        e.isReply i c pkt c.firstPktDstIp) ↔
      c.state = .proxy ∧ ∀ p, c.pinIp = some p → p.ip = c.firstPktDstIp := by
  have hb := hih_hasBackend hrun hc hini
  obtain ⟨hnone, -⟩ | ⟨i', pkt', c', hsome, -, hatt⟩ := assign_cases ha
  · cases hnone
  cases hsome
  obtain ⟨c₀, hc₀, rfl⟩ := hatt.intra ho
  obtain rfl : c = c₀ := Option.some.inj (hc.symm.trans hc₀)
  -- the packet is sent on from the pinned address, or dropped
  obtain ⟨sent, e, hproxy, hreply⟩ :=
    proxyIntra2hih_reply (c := updateConn c .intra now) g i hb ho
  have hstep : step mods g s (.packet raw now) =
      .ok ((s.withConn i (updateConn c .intra now)).withConn i (updateConn c .intra now),
        .received i pkt :: if c.state = .proxy then [.emitted e] else []) := by
    simp only [step, receive, ha, Except.ok_bind, State.connAt, withConn_conns,
      Std.TreeMap.lookup_insert, if_true, Option.orFail_some, handle_intra ho, hproxy]
    by_cases hs : c.state = .proxy
    · simp [updateConn, hs, Except.map]
    · simp [updateConn, hs]
  have hsource : c.replySource = c.firstPktDstIp ↔
      ∀ p, c.pinIp = some p → p.ip = c.firstPktDstIp := by
    unfold Conn.replySource
    cases c.pinIp <;> simp
  rw [hstep]
  constructor
  · rintro ⟨s', out, e', hok, he', hr'⟩
    cases hok
    split_ifs at he' with hs
    · refine ⟨hs, hsource.mp ?_⟩
      simp only [List.mem_cons, reduceCtorEq, Event.emitted.injEq, List.not_mem_nil, or_false,
        false_or] at he'
      subst he'
      exact hreply.2.2.2.1.symm.trans hr'.2.2.2.1
    · simp at he'
  · rintro ⟨hs, hp⟩
    refine ⟨_, _, e, rfl, ?_, ?_⟩
    · simp [hs]
    · rw [← hsource.mpr hp]
      exact hreply

/-- The reply to a DNS query of the honeypot that was switched to an INTRA host. -/
theorem intra_replies_dns :
    ∃ tr s c, Machine.Reaches (step (Sample.modules .accept) Sample.globals) Sample.dnsStart tr s ∧
      s.conns[1]? = some c ∧ c.firstPktDstIp = 60 ∧ ∃ pkt s' out e,
        step (Sample.modules .accept) Sample.globals s
          (.packet (Sample.udp 3 30 0x3500 20 1000) 0) = .ok (s', out) ∧ .emitted e ∈ out ∧
        e.isReply 1 c pkt c.firstPktDstIp := by
  obtain ⟨tr, s, hrun, hp⟩ := Machine.exists_reaches
    (step (Sample.modules .accept) Sample.globals) Sample.dnsStart
    [.packet (Sample.query 2 20 60) 0]
    (fun r => (r.1.conns[1]?.any fun c => c.initiator = .hih ∧ c.firstPktDstIp = 60 ∧
        c.state = .proxy ∧ c.pinIp = none) ∧
      (assign Sample.globals r.1 (Sample.udp 3 30 0x3500 20 1000) 0).passes fun x =>
        x.2.any fun y => y.1 = 1 ∧ y.2.origin = .intra)
    (by decide +kernel)
  obtain ⟨hc, ha⟩ := of_decide_eq_true hp
  obtain ⟨c, hc, htest⟩ := (Option.any_eq_true ..).mp hc
  obtain ⟨hini, hip, hs, hpin⟩ := of_decide_eq_true htest
  obtain ⟨⟨s₁, o⟩, ha, ho⟩ := Except.passes_iff.mp ha
  obtain ⟨⟨j, pkt⟩, rfl, hpkt⟩ := (Option.any_eq_true ..).mp ho
  obtain ⟨rfl, ho⟩ := of_decide_eq_true hpkt
  have hreply := (intra_replies_iff hrun hc hini ha ho).mpr ⟨hs, by simp [hpin]⟩
  exact ⟨tr, s, c, hrun, hc, hip, pkt, hreply⟩

/-- The reply of the INTRA host to a packet of the honeypot. -/
def Sample.reply : Pkt :=
  { packet .intra (udp 3 30 80 20 1000) with data := 18 }

/-- **A reply that is lost.** The honeypot contacts an INTRA host whose rule accepts. The reply of
the host is attributed to the connection, and nothing is sent. -/
theorem intra_replies_broken :
    ∃ tr s c s₁ pkt s', Machine.Reaches (step (Sample.modules .accept) Sample.globals) Sample.start
        tr s ∧
      .evaluated 1 .intra .accept ∈ tr ∧ s.conns[1]? = some c ∧ c.initiator = .hih ∧
      c.destination = .intra ∧
      assign Sample.globals s (Sample.udp 3 30 80 20 1000) 0 = .ok (s₁, some (1, pkt)) ∧
      pkt.origin = .intra ∧
      step (Sample.modules .accept) Sample.globals s (.packet (Sample.udp 3 30 80 20 1000) 0) =
        .ok (s', [.received 1 pkt]) := by
  obtain ⟨tr, s, hrun, hp⟩ := Machine.exists_reaches
    (step (Sample.modules .accept) Sample.globals) Sample.start
    [.packet (Sample.udp 2 20 1000 40 80) 0]
    (fun r => .evaluated 1 .intra .accept ∈ r.2 ∧
      (r.1.conns[1]?.any fun c => c.initiator = .hih ∧ c.destination = .intra) ∧
      ((assign Sample.globals r.1 (Sample.udp 3 30 80 20 1000) 0).passes fun x =>
        x.2.any fun y => y.1 = 1 ∧ y.2 = Sample.reply) ∧
      (step (Sample.modules .accept) Sample.globals r.1
        (.packet (Sample.udp 3 30 80 20 1000) 0)).passes fun x =>
          x.2 = [.received 1 Sample.reply])
    (by decide +kernel)
  obtain ⟨heval, hc, ha, hstep⟩ := of_decide_eq_true hp
  obtain ⟨c, hc, htest⟩ := (Option.any_eq_true ..).mp hc
  obtain ⟨hini, hdest⟩ := of_decide_eq_true htest
  obtain ⟨⟨s₁, o⟩, ha, ho⟩ := Except.passes_iff.mp ha
  obtain ⟨⟨j, pkt⟩, rfl, hpkt⟩ := (Option.any_eq_true ..).mp ho
  obtain ⟨rfl, rfl⟩ := of_decide_eq_true hpkt
  obtain ⟨⟨s', out⟩, hstep, hout⟩ := Except.passes_iff.mp hstep
  obtain rfl := of_decide_eq_true hout
  exact ⟨tr, s, c, s₁, _, s', hrun, heval, hc, hini, hdest, ha, rfl, hstep⟩

end Honeybrid
