import Honeybrid.Configuration
import Honeybrid.Reversibility
import Honeybrid.Effects
import Honeybrid.Integrity

/-!
# The source address of a default route

A target block may name the address that the honeypots show to EXT: `default route via L hw M src
A`. The grammar stores it in `default_route_ip`, and without `src` it stores the address the
interface has at that time, which is none. Neither `create_conn` nor `proxy_int2ext` reads this
field: both take the address that the system gives the interface.

## Main definitions

* `Routes`: a target block of a file, with its number, its clause and its interface.
* `Conn.Outbound`: a connection of a honeypot to EXT without a pin.
* `UsesSource`: the packets and the reply keys of such connections have a given address.

## Main results

* `Routes.target`: what the grammar makes of the block.
* `source_iff`: the configured address is used exactly if it is the address of the interface.
-/

namespace Honeybrid

/-! ### The configured address -/

/-- The target `id` comes from a block of the file with the clause `route`, and `out` is the
interface it names. A target whose number is taken is not entered. -/
def Routes (textWord : String → ℤ) (file : List Block) (id : TargetId) (route : DefaultRoute)
    (out : IfaceId) : Prop :=
  ∃ (before after : List Block) (entries : List TargetEntry) (s : Setup),
    file = before ++ .target (some route) entries :: after ∧ Setup.main textWord before = .ok s ∧
      s.links route.link = some out ∧ id = s.targetCounter + 1 ∧ s.targets[id]? = none

section Config

variable {s s' : Setup} {b : Block} {file file' : List Block} {textWord : String → ℤ} {t : Target}
  {id : TargetId}

/-- A block keeps the targets there are. -/
theorem Block.action_targets (h : b.action s = .ok s') (ht : s.targets[id]? = some t) :
    s'.targets[id]? = some t := by
  cases b with
  | config parameters =>
    cases h
    exact ht
  | link tag =>
    cases h
    exact ht
  | module name settings =>
    simp only [Block.action] at h
    split_ifs at h
    cases h
    exact ht
  | target route entries =>
    cases route with
    | none =>
      obtain ⟨t', -, h⟩ := Except.bind_eq_ok.mp h
      cases h
      exact addTarget_lookup.1 t ht
    | some route =>
      obtain ⟨t', -, h⟩ := Except.bind_eq_ok.mp h
      obtain ⟨iface, -, h⟩ := Except.bind_eq_ok.mp h
      cases h
      exact addTarget_lookup.1 t ht

theorem initParser_targets (h : initParser file s = .ok s') (ht : s.targets[id]? = some t) :
    s'.targets[id]? = some t := by
  induction file generalizing s with
  | nil =>
    cases h
    exact ht
  | cons b bs ih =>
    obtain ⟨s₁, hb, h⟩ := Except.bind_eq_ok.mp h
    exact ih h (Block.action_targets hb ht)

theorem initParser_append :
    initParser (file ++ file') s = initParser file s >>= initParser file' := by
  induction file generalizing s with
  | nil => rfl
  | cons b bs ih =>
    show (b.action s >>= fun s => initParser (bs ++ file') s) = _
    simp only [ih]
    exact (bind_assoc ..).symm

/-- The target that the grammar makes of a block with a default route. -/
theorem Routes.target {route : DefaultRoute} {out : IfaceId}
    (hr : Routes textWord file id route out)
    (h : Setup.main textWord file = .ok s) :
    ∃ t, s.targets[id]? = some t ∧ t.defaultRoute = some out ∧ t.defaultRouteIp = route.src := by
  obtain ⟨before, after, entries, s₀, rfl, h₀, hlink, rfl, hfree⟩ := hr
  rw [Setup.main, initParser_append] at h
  obtain ⟨s₁, h₁, h⟩ := Except.bind_eq_ok.mp h
  cases h₀.symm.trans h₁
  obtain ⟨s₂, h₂, h⟩ := Except.bind_eq_ok.mp h
  obtain ⟨t, -, h₂⟩ := Except.bind_eq_ok.mp h₂
  obtain ⟨iface, hiface, h₂⟩ := Except.bind_eq_ok.mp h₂
  cases hlink.symm.trans (Option.orFail_eq_ok.mp hiface)
  cases h₂
  refine ⟨{ t with
    defaultRoute := some out, defaultRouteIp := route.src, defaultRouteMac := route.mac },
    initParser_targets h ?_, rfl, rfl⟩
  show (addTarget s₀.targets s₀.targetCounter _).1[s₀.targetCounter + 1]? = _
  rw [addTarget, hfree, if_neg (by simp)]
  exact Std.TreeMap.getElem?_insert_self

end Config

/-! ### The address in use -/

/-- A connection of a honeypot to EXT that has no pin. -/
structure Conn.Outbound (c : Conn) : Prop where
  initiator : c.initiator = .lih ∨ c.initiator = .hih
  destination : c.destination = .ext
  pinIp : c.pinIp = none

variable {μ : Type}

/-- The connections of the target `id` to EXT without a pin have the address `A`: the packets that
are sent for them have it as their source, the keys of the replies have it as their destination, and
a connection that is opened next is entered under such a key, where the replies to `A` find it. -/
structure UsesSource (g : Globals) (id : TargetId) (A : IpAddr) (tr : List Event) (s : State μ) :
    Prop where
  sent : ∀ e, .emitted e ∈ tr → e.sender = .proxyInt2ext → e.conn.target = id →
    e.conn.Outbound → e.frame.saddr = A
  key : ∀ (i : ConnId) (c : Conn), s.conns[i]? = some c → c.target = id → c.Outbound →
    ∃ k, c.extKey = some k ∧ k.dstIp = A
  opened : ∀ (pkt : Pkt) (now : ℤ) (s' : State μ) (i : ConnId) (role : Role) (c : Conn),
    createConn g s pkt now = .ok (s', some (i, role)) → s'.conns[i]? = some c → c.target = id →
    c.Outbound → c.extKey = some (snatReplyKey pkt A) ∧ s'.intTree2[snatReplyKey pkt A]? = some i ∧
      ∀ q : Pkt, q.origin = .ext → q.connKey = snatReplyKey pkt A →
        s'.extTree1[q.connKey]? = none → connLookup s' q = .ok (some (i, .ext))

/-- The target has no such connection. -/
structure Idle (g : Globals) (id : TargetId) (tr : List Event) (s : State μ) : Prop where
  sent : ∀ e, .emitted e ∈ tr → e.sender = .proxyInt2ext → e.conn.target = id → ¬e.conn.Outbound
  conns : ∀ (i : ConnId) (c : Conn), s.conns[i]? = some c → c.target = id → ¬c.Outbound
  opened : ∀ (pkt : Pkt) (now : ℤ) (s' : State μ) (i : ConnId) (role : Role) (c : Conn),
    createConn g s pkt now = .ok (s', some (i, role)) → s'.conns[i]? = some c → c.target = id →
    ¬c.Outbound

/-- The address that the system gives the interface of the target's default route. -/
def Target.linkIp (g : Globals) (t : Target) : Option IpAddr :=
  t.defaultRoute.bind fun out => (g.links out).ip

section Runs

variable {mods : Modules μ} {g : Globals} {s s' s₁ : State μ} {i : ConnId} {c c' : Conn}
  {t t' : Target} {pkt : Pkt} {r : TargetSearch} {role : Role} {now : ℤ} {tr ev : List Event}
  {e : Emission} {w w' : Work μ} {targets : Std.TreeMap TargetId Target intcmp}
  {ifTarget : Std.TreeMap IfaceId TargetId} {mem : μ}

theorem linkIp_of_fixed (h : t.fixed = t'.fixed) : t.linkIp g = t'.linkIp g := by
  show t.fixed.linkIp g = t'.fixed.linkIp g
  rw [h]

/-- The address of a new connection without a pin is that of the interface. -/
theorem acquireSnat_linkIp {tree : PinTree} {k : PinKey} {ip : IpAddr}
    (h : acquireSnat g s c t tree k = .ok (s₁, c', ip)) (hpin : c'.pinIp = none) :
    t.linkIp g = some ip := by
  obtain ⟨-, -, -, out, hout, hip⟩ | ⟨p, -, -, rfl⟩ := acquireSnat_cases h
  · rw [Target.linkIp, hout]
    exact hip
  · cases hpin

/-- The key under which a new connection to EXT expects its replies. -/
theorem Creates.replyKey (h : Creates g s i t pkt r now role c s') (hc : c.Outbound) :
    ∃ ip, t.linkIp g = some ip ∧ c.extKey = some (snatReplyKey pkt ip) ∧
      s'.intTree2[snatReplyKey pkt ip]? = some i := by
  cases h with
  | ext hfront hpin hcn =>
    subst hcn
    obtain h | h := hc.initiator <;> cases h
  | lih hfront hpin hcn =>
    subst hcn
    refine ⟨_, acquireSnat_linkIp hpin hc.pinIp, rfl, ?_⟩
    rw [withConn_intTree2]
    exact Std.TreeMap.getElem?_insert_self
  | hih hfront hback hpin hcn =>
    subst hcn
    refine ⟨_, acquireSnat_linkIp hpin hc.pinIp, rfl, ?_⟩
    rw [withConn_intTree2]
    exact Std.TreeMap.getElem?_insert_self
  | hihIntra hback hh hpin hcn =>
    subst hcn
    cases hc.destination
  | hihLan hback hh hlan hcn =>
    subst hcn
    cases hc.destination

theorem Alike.outbound (h : Alike c c') (hc : c'.Outbound) :
    c.Outbound ∧ c'.extKey = c.extKey ∧ c'.target = c.target := by
  rw [h] at hc ⊢
  exact ⟨⟨hc.initiator, hc.destination, hc.pinIp⟩, rfl, rfl⟩

/-- A connection to EXT was one before its last packet, with the same key. -/
theorem handle_outbound (h : handle mods g i pkt ⟨s, c⟩ = .ok (w, ev)) (hc : w.conn.Outbound) :
    c.Outbound ∧ w.conn.extKey = c.extKey ∧ w.conn.target = c.target := by
  -- the rules switch a connection to an INTRA host, or leave it alone
  have hrules {d : DecisionHolder} {w₁ : Work μ} {ev₁ : List Event}
      (he : evaluate mods i pkt ⟨s, c.submitted pkt⟩ = .ok (d, w₁, ev₁)) (hc : w₁.conn.Outbound) :
      c.Outbound ∧ w₁.conn.extKey = c.extKey ∧ w₁.conn.target = c.target := by
    obtain hcn | ⟨h, k, hcn⟩ := (evaluate_run he).conn_cases
    · rw [hcn] at hc ⊢
      exact (alike_submitted pkt c).outbound hc
    · rw [hcn] at hc
      cases hc.destination
  cases handle_effect h with
  | same hcn => exact hcn.outbound hc
  | ruled hs he hcn =>
    obtain ⟨hc₁, hkey₁, htar₁⟩ := hcn.outbound hc
    obtain ⟨hc₀, hkey, htar⟩ := hrules he hc₁
    exact ⟨hc₀, hkey₁.trans hkey, htar₁.trans htar⟩
  | redirected hs he hdec ht hr hcn =>
    obtain ⟨hc₂, hkey₂, htar₂⟩ := hcn.outbound hc
    obtain ⟨h', key, rid, ed, -, -, rfl⟩ := setupRedirection_conn hr
    obtain ⟨hc₀, hkey, htar⟩ := hrules he ⟨hc₂.initiator, hc₂.destination, hc₂.pinIp⟩
    exact ⟨hc₀, hkey₂.trans hkey, htar₂.trans htar⟩

/-- What is sent to EXT for a connection without a pin has the address of the interface. -/
theorem Handles.linkIp (h : Handles mods g i pkt w w' ev) (he : .emitted e ∈ ev)
    (hs : e.sender = .proxyInt2ext) (hc : e.conn.Outbound) :
    ∃ t, w.st.targets[e.conn.target]?.map Target.fixed = some (Target.fixed t) ∧
      t.linkIp g = some e.frame.saddr := by
  obtain ⟨w₁, t, q', ev₁, hparties, ht, he₁, hcases⟩ :=
    h.relays_back he (by rw [hs]; rfl)
  obtain ⟨ho, hp⟩ | ⟨-, -, hf⟩ | ⟨-, hp⟩ := hcases
  · obtain ⟨-, -, hcn, -⟩ := proxyInt2ext_emitted hp he₁
    have ho' : pkt.origin ≠ .ext := by
      obtain ho | ho := ho <;> simp [ho]
    obtain ⟨ip, hout, hip, -, hcar⟩ := proxyInt2ext_frame ho' hp he₁
    rw [hcn] at hc ⊢
    refine ⟨t, ?_, ?_⟩
    · rw [← hparties.framed.targets, ht, Option.map_some]
    · have hini : w₁.conn.initiator ≠ .ext := by
        obtain h | h := hc.initiator <;> simp [h]
      rw [snatIp, if_neg hini, hc.pinIp] at hip
      rw [Target.linkIp, hout, hcar.saddr]
      exact Option.orFail_eq_ok.mp hip
  · rw [(forwardHih2ext_emitted hf he₁).1] at hs
    cases hs
  · rw [proxyExt2int_emitted hp he₁] at hs
    cases hs

variable {ok : State μ → Input → Prop} {id : TargetId}

/-- In every run, the connections of a target to EXT without a pin have keys with the address of the
interface. -/
theorem tracked_linkIp (hrun : Machine.Run (step mods g) ok (boot targets ifTarget mem) tr s)
    (ht : targets[id]? = some t) :
    Tracked targets ifTarget (fun _ _ c => c.target = id → c.Outbound →
      ∃ k, c.extKey = some k ∧ t.linkIp g = some k.dstIp) tr s := by
  refine connInvariant _ ?_ hrun
  intro tr s hT raw now s₁ i pkt c w ev _ _ hatt hh hid hout
  obtain ⟨hout₀, hkey, htar⟩ := handle_outbound hh hout
  rw [hkey]
  cases hatt with
  | @found pkt₀ c hcap hpkt hlook hc hs =>
    exact hT.holds i c hc (htar.symm.trans hid) ⟨hout₀.initiator, hout₀.destination, hout₀.pinIp⟩
  | @created pkt₀ r t₁ c hcap hpkt hlook hident ht₁ hi hcr =>
    obtain ⟨ip, hip, hext, -⟩ := hcr.replyKey hout₀
    have htar₁ : r.target = id := hcr.start.2.1.symm.trans (htar.symm.trans hid)
    rw [htar₁] at ht₁
    obtain ⟨t', ht', hfix⟩ := hT.target ht₁
    cases ht.symm.trans ht'
    exact ⟨_, hext, (linkIp_of_fixed hfix).symm.trans hip⟩

/-- In every run, what is sent for them has this address as its source. -/
theorem sent_linkIp (hrun : Machine.Run (step mods g) ok (boot targets ifTarget mem) tr s)
    (ht : targets[id]? = some t) :
    ∀ e, .emitted e ∈ tr → e.sender = .proxyInt2ext → e.conn.target = id → e.conn.Outbound →
      t.linkIp g = some e.frame.saddr := by
  induction hrun with
  | start =>
    intro e he
    cases he
  | @snoc tr s inp s' out hrun hok hstep ih =>
    intro e he hs hid hc
    obtain he | he := List.mem_append.mp he
    · exact ih e he hs hid hc
    obtain ⟨-, hout⟩ | ⟨raw, now, s₁, i, pkt, c, w, ev, rfl, -, -, hatt, hh, rfl, rfl⟩ :=
      step_cases hstep
    · cases hout _ he
    have he' : .emitted e ∈ ev := by simpa using he
    obtain ⟨t₁, ht₁, hip⟩ := (handle_cases hh).linkIp he' hs hc
    have hT := tracked_linkIp hrun ht
    rw [hid, hatt.frame.1, hT.fixed, ht, Option.map_some] at ht₁
    rw [← hip]
    exact linkIp_of_fixed (Option.some.inj ht₁)

/-- The next connection of the target is entered under such a key. -/
theorem opened_linkIp (hrun : Machine.Run (step mods g) ok (boot targets ifTarget mem) tr s)
    (ht : targets[id]? = some t) (hcr : createConn g s pkt now = .ok (s', some (i, role)))
    (hc : s'.conns[i]? = some c) (hid : c.target = id) (hout : c.Outbound) :
    ∃ ip, t.linkIp g = some ip ∧ c.extKey = some (snatReplyKey pkt ip) ∧
      s'.intTree2[snatReplyKey pkt ip]? = some i := by
  obtain ⟨ho, -⟩ | ⟨r, t₁, c', hident, ht₁, ho, h⟩ := createConn_cases hcr
  · cases ho
  simp only [Option.some.injEq, Prod.mk.injEq] at ho
  obtain ⟨rfl, rfl⟩ := ho
  rw [h.frame.2.2.2, Std.TreeMap.lookup_insert, if_pos rfl, Option.some.injEq] at hc
  subst hc
  obtain ⟨ip, hip, hext, htree⟩ := h.replyKey hout
  have htar : r.target = id := h.start.2.1.symm.trans hid
  rw [htar] at ht₁
  obtain ⟨t', ht', hfix⟩ := (tracked_linkIp hrun ht).target ht₁
  cases ht.symm.trans ht'
  exact ⟨ip, (linkIp_of_fixed hfix).symm.trans hip, hext, htree⟩

/-- A reply is found under the key of its connection. -/
theorem connLookup_reply {q : Pkt} {k : ConnKey} (ho : q.origin = .ext) (hk : q.connKey = k)
    (h₁ : s.extTree1[q.connKey]? = none) (h₂ : s.intTree2[k]? = some i)
    (hc : s.conns[i]? = some c) :
    connLookup s q = .ok (some (i, .ext)) := by
  rw [hk] at h₁
  simp [connLookup, ho, hk, h₁, h₂, State.connAt, hc]

/-- If the interface of the default route has the address, it is used. -/
theorem usesSource_of_linkIp {A : IpAddr}
    (hrun : Machine.Run (step mods g) ok (boot targets ifTarget mem) tr s)
    (ht : targets[id]? = some t) (hip : t.linkIp g = some A) : UsesSource g id A tr s := by
  refine ⟨fun e he hs hid hc => ?_, fun i c hc hid hout => ?_,
    fun pkt now s' i role c hcr hc hid hout => ?_⟩
  · exact Option.some.inj ((sent_linkIp hrun ht e he hs hid hc).symm.trans hip)
  · obtain ⟨k, hk, hk'⟩ := (tracked_linkIp hrun ht).holds i c hc hid hout
    exact ⟨k, hk, Option.some.inj (hk'.symm.trans hip)⟩
  · obtain ⟨ip', hip', hext, htree⟩ := opened_linkIp hrun ht hcr hc hid hout
    cases hip.symm.trans hip'
    exact ⟨hext, htree, fun q ho hk hnone => connLookup_reply ho hk hnone htree hc⟩

/-- An address that is used is that of the interface, if there is a connection to use it. -/
theorem UsesSource.linkIp_or_idle {A : IpAddr} (h : UsesSource g id A tr s)
    (hrun : Machine.Run (step mods g) ok (boot targets ifTarget mem) tr s)
    (ht : targets[id]? = some t) : t.linkIp g = some A ∨ Idle g id tr s := by
  by_contra hno
  obtain ⟨hne, hidle⟩ := not_or.1 hno
  refine hidle ⟨fun e he hs hid hc => hne ?_, fun i c hc hid hout => hne ?_,
    fun pkt now s' i role c hcr hc hid hout => hne ?_⟩
  · rw [sent_linkIp hrun ht e he hs hid hc, h.sent e he hs hid hc]
  · obtain ⟨k, hk, hip⟩ := (tracked_linkIp hrun ht).holds i c hc hid hout
    obtain ⟨k', hk', hA'⟩ := h.key i c hc hid hout
    cases hk.symm.trans hk'
    rw [hip, hA']
  · obtain ⟨ip, hip, hext, -⟩ := opened_linkIp hrun ht hcr hc hid hout
    have hkey := Option.some.inj
      (hext.symm.trans (h.opened pkt now s' i role c hcr hc hid hout).1)
    rw [hip, show ip = A from congrArg ConnKey.dstIp hkey]

theorem Idle.usesSource {A : IpAddr} (h : Idle g id tr s) : UsesSource g id A tr s where
  sent e he hs hid hc := absurd hc (h.sent e he hs hid)
  key i c hc hid hout := absurd hout (h.conns i c hc hid)
  opened pkt now s' i role c hcr hc hid hout :=
    absurd hout (h.opened pkt now s' i role c hcr hc hid)

end Runs

/-- The address of `src`, or else that of the interface, is that of the interface if there is no
`src` or if it names this address. -/
theorem or_eq_some_iff {src ip : Option IpAddr} {A : IpAddr} (hA : src.or ip = some A) :
    (src = none ∨ src = ip) ↔ ip = some A := by
  cases src with
  | none =>
    rw [Option.none_or] at hA
    simp [hA]
  | some B =>
    rw [Option.some_or] at hA
    rw [hA]
    simp [eq_comm]

/-- **The source address.** Let the address `A` be configured for a target, with `src` or as the
address of the interface. In every run, the connections of the target to EXT without a pin use it
exactly if there is no `src`, or if `src` names the address of the interface anyway, or if there are
no such connections. -/
theorem source_iff {mods : Modules μ} {g : Globals} {textWord : String → ℤ} {file : List Block}
    {setup : Setup} {id : TargetId} {route : DefaultRoute} {out : IfaceId} {A : IpAddr} {mem : μ}
    {ok : State μ → Input → Prop} {tr : List Event} {s : State μ}
    (hmain : Setup.main textWord file = .ok setup) (hr : Routes textWord file id route out)
    (hA : route.src.or (g.links out).ip = some A)
    (hrun : Machine.Run (step mods g) ok (setup.start mem) tr s) :
    UsesSource g id A tr s ↔
      (route.src = none ∨ route.src = (g.links out).ip) ∨ Idle g id tr s := by
  obtain ⟨t, ht, hroute, -⟩ := hr.target hmain
  have hlink : t.linkIp g = (g.links out).ip := by rw [Target.linkIp, hroute, Option.bind_some]
  rw [or_eq_some_iff hA, ← hlink]
  constructor
  · intro h
    exact h.linkIp_or_idle hrun ht
  · rintro (hip | hidle)
    · exact usesSource_of_linkIp hrun ht hip
    · exact hidle.usesSource

namespace Sample

/-- The blocks of the links, and of the module that the targets use. -/
def links : List Block :=
  [.link "wan1", .link "honeynet1", .link "honeynet2",
    .module "random" { function := some "yesno" }]

/-- A target whose honeypots are to show the address `A`. -/
def sourced (A : IpAddr) : List Block :=
  links ++ [.target (some { link := "wan1", mac := 4, src := some A })
    [.frontend { link := "honeynet1", ip := 10, mac := 2 } none,
     .backend { link := "honeynet2", ip := 20, mac := 3 } (some ⟨⟨"random", []⟩, []⟩)]]

theorem routes_sourced (A : IpAddr) :
    Routes (fun _ => 0) (sourced A) 1 { link := "wan1", mac := 4, src := some A } 0 := by
  have hlinks : (Setup.main (fun _ => 0) links).passes fun s =>
      s.links "wan1" = some 0 ∧ s.targetCounter = 0 ∧ s.targets[1]? = none := by
    decide +kernel
  obtain ⟨s, hs, h⟩ := Except.passes_iff.mp hlinks
  obtain ⟨hlink, hcount, hfree⟩ := of_decide_eq_true h
  exact ⟨links, [], _, s, rfl, hs, hlink, by rw [hcount], hfree⟩

/-- The packet of the high-interaction honeypot is sent with the address 9 of the interface. -/
def sendsNine (r : State Unit × List Event) : Bool :=
  r.2.any fun
    | .emitted e => e.sender = .proxyInt2ext ∧ e.conn.target = 1 ∧ e.conn.initiator = .hih ∧
        e.conn.destination = .ext ∧ e.conn.pinIp = none ∧ e.frame.saddr = 9
    | _ => false

theorem sourced_run (A : IpAddr)
    (h : ((Setup.main (fun _ => 0) (sourced A)).passes fun setup =>
      (Machine.exec (step (modules .accept) globals) (setup.start ())
        [.packet (udp 2 20 4000 60 80) 0]).passes sendsNine) = true) :
    ∃ setup tr s e, Setup.main (fun _ => 0) (sourced A) = .ok setup ∧
      Machine.Reaches (step (modules .accept) globals) (setup.start ()) tr s ∧ .emitted e ∈ tr ∧
      e.sender = .proxyInt2ext ∧ e.conn.target = 1 ∧ e.conn.Outbound ∧ e.frame.saddr = 9 := by
  obtain ⟨setup, hmain, hexec⟩ := Except.passes_iff.mp h
  obtain ⟨tr, s, hrun, htest⟩ := Machine.exists_reaches _ _ _ _ hexec
  obtain ⟨x, hx, htest⟩ := List.any_eq_true.mp htest
  cases x with
  | emitted e =>
    obtain ⟨hs, hid, hini, hdest, hpin, hip⟩ := of_decide_eq_true htest
    exact ⟨setup, tr, s, e, hmain, hrun, hx, hs, hid, ⟨.inr hini, hdest, hpin⟩, hip⟩
  | received | evaluated | fragNeeded => cases htest

end Sample

/-- The address of the interface may be named as well. -/
theorem source_named : ∃ setup tr s e, Setup.main (fun _ => 0) (Sample.sourced 9) = .ok setup ∧
    Machine.Reaches (step (Sample.modules .accept) Sample.globals) (setup.start ()) tr s ∧
    .emitted e ∈ tr ∧ e.conn.Outbound ∧ UsesSource Sample.globals 1 9 tr s := by
  obtain ⟨setup, tr, s, e, hmain, hrun, he, -, -, hout, -⟩ :=
    Sample.sourced_run 9 (by decide +kernel)
  exact ⟨setup, tr, s, e, hmain, hrun, he, hout,
    (source_iff hmain (Sample.routes_sourced 9) rfl hrun).2 (.inl (.inr rfl))⟩

/-- Another address is not used. -/
theorem source_unused : ¬∀ (g : Globals) (file : List Block) (setup : Setup) (id : TargetId)
    (route : DefaultRoute) (out : IfaceId) (A : IpAddr) (tr : List Event) (s : State Unit),
    Setup.main (fun _ => 0) file = .ok setup → Routes (fun _ => 0) file id route out →
    route.src.or (g.links out).ip = some A →
    Machine.Reaches (step (Sample.modules .accept) g) (setup.start ()) tr s →
    UsesSource g id A tr s := by
  intro hall
  obtain ⟨setup, tr, s, e, hmain, hrun, he, hs, hid, hout, hip⟩ :=
    Sample.sourced_run 77 (by decide +kernel)
  have huses := hall _ _ setup 1 _ 0 77 tr s hmain (Sample.routes_sourced 77) rfl hrun
  rw [huses.sent e he hs hid hout] at hip
  exact absurd hip (by decide)

end Honeybrid
