import Honeybrid.Effects

/-!
# Impersonation

`comm_pin_tree` is to make a honeypot answer an attacker from the address that the attacker
contacted. A connection from EXT enters its pin under the address it goes to, and a connection to
EXT looks for a pin under the address it goes to, which is the address of the attacker. The two
agree only when an attacker contacts its own address.

## Main definitions

* `CommPinned`: every pin stands for the address in its key.
* `Attacked`: an external host has a live connection to an address of a target.
* `ShownAs`: the address from which a connection is shown to EXT.

## Main results

* `commPinned`: the pins of every run.
* `impersonates_iff`: when a honeypot shows the address that was attacked.
-/

namespace Honeybrid

variable {μ : Type} {mods : Modules μ} {g : Globals} {s s' s₁ : State μ} {i j : ConnId} {pkt : Pkt}
  {r : TargetSearch} {t : Target} {c : Conn} {front : Handler} {now : ℤ} {tree : PinTree}
  {k : PinKey} {tr : List Event} {targets : Std.TreeMap TargetId Target intcmp}
  {ifTarget : Std.TreeMap IfaceId TargetId} {mem : μ}

/-! ### The pins of front handlers -/

/-- Every pin in `comm_pin_tree` stands for the address in its key. -/
def CommPinned (s : State μ) : Prop :=
  ∀ (k : PinKey) (p : Pin), (s.pinTree .comm)[k]? = some p → p.ip = k.targetIp

theorem CommPinned.congr (h : CommPinned s) (hp : s'.pinTree .comm = s.pinTree .comm) :
    CommPinned s' := by
  intro k p hk
  rw [hp] at hk
  exact h k p hk

theorem CommPinned.setPin {p : Pin} (h : CommPinned s) (hp : tree = .comm → p.ip = k.targetIp) :
    CommPinned (setPin s tree k p) := by
  intro k' p' hk
  rw [pinTree_setPin] at hk
  split_ifs at hk with htree
  · subst htree
    rw [Std.TreeMap.lookup_insert] at hk
    split_ifs at hk with hkk
    · cases hk
      exact hkk ▸ hp rfl
    · exact h k' p' hk
  · exact h k' p' hk

/-- Another reference to a pin, or one less, leaves its address alone. -/
theorem CommPinned.count {p : Pin} {n : ℕ} (h : CommPinned s) (hp : (s.pinTree tree)[k]? = some p) :
    CommPinned (Honeybrid.setPin s tree k { p with count := n }) := by
  refine h.setPin fun htree => ?_
  subst htree
  exact h k p hp

theorem Takes.commPinned {p : Pin} (h : Takes s tree k p s') (hs : CommPinned s)
    (hnew : tree = .comm → (s.pinTree .comm)[k]? = none → p.ip = k.targetIp) : CommPinned s' := by
  obtain ⟨rfl, ⟨hnone, -⟩ | ⟨q, hq, -, rfl⟩⟩ := h
  · refine hs.setPin fun htree => ?_
    subst htree
    exact hnew rfl hnone
  · exact hs.count hq

theorem acquireSnat_commPinned {c₁ : Conn} {ip : IpAddr} (hs : CommPinned s)
    (h : acquireSnat g s c t tree k = .ok (s₁, c₁, ip)) : CommPinned s₁ := by
  simp only [acquireSnat] at h
  obtain ⟨o, ho, h⟩ := Except.bind_eq_ok.mp h
  cases o with
  | none =>
    obtain ⟨out, -, h⟩ := Except.bind_eq_ok.mp h
    obtain ⟨ip', -, h⟩ := Except.bind_eq_ok.mp h
    cases h
    exact hs
  | some p =>
    cases h
    exact hs.count (lookupPin_some_iff.mp ho).1

theorem Creates.commPinned {role : Role} (h : Creates g s i t pkt r now role c s')
    (hs : CommPinned s) : CommPinned s' := by
  cases h with
  | ext hfront hpin hc hnew =>
    refine CommPinned.congr (hpin.commPinned (hs.congr ?_) fun _ hnone => ?_) ?_
    · rw [insertExt_pinTree]
    · rw [insertExt_pinTree] at hnone
      exact hnew hnone
    · rw [withConn_pinTree]
  | lih hfront hpin hc => exact (acquireSnat_commPinned hs hpin).congr rfl
  | hih hfront hback hpin hc => exact (acquireSnat_commPinned hs hpin).congr rfl
  | hihIntra hback hh hpin hc =>
    obtain ⟨rfl, -⟩ | ⟨k, p, ip, htake, -⟩ := acquireIntra_cases hpin
    · exact hs.congr rfl
    · exact (htake.commPinned hs fun h => by cases h).congr rfl
  | hihLan hback hh hlan hc => exact hs.congr rfl

/-! ### Removal -/

theorem CommPinned.erase (hs : CommPinned s) :
    CommPinned (s.setPinTree ((s.pinTree tree).erase k) tree) := by
  cases tree with
  | comm =>
    intro k' p hk
    change (s.commPinTree.erase k)[k']? = some p at hk
    rw [Std.TreeMap.lookup_erase] at hk
    split_ifs at hk
    exact hs k' p hk
  | target => exact hs
  | intra => exact hs

theorem releasePin_commPinned {k' : PinKey} (hs : CommPinned s)
    (h : releasePin s tree k k' = .ok s') : CommPinned s' := by
  obtain ⟨-, rfl⟩ | ⟨p, s₁, hp, -, rfl, hlast⟩ := releasePin_cases h
  · exact hs
  · have hcount := hs.count (n := p.count - 1) hp
    obtain ⟨-, rfl⟩ | ⟨-, rfl⟩ := hlast
    · exact hcount.erase
    · exact hcount

theorem removeConn_commPinned (hs : CommPinned s) (h : removeConn s i = .ok s') :
    CommPinned s' := by
  obtain ⟨c, s₁, s₂, -, hd, hr, rfl⟩ := removeConn_cases h
  obtain ⟨s₀, he, hrel⟩ := deregister_cases hd
  have hs₀ : CommPinned s₀ := hs.congr (he.unlisted.pins .comm)
  have hs₁ : CommPinned s₁ := by
    obtain ⟨-, rfl⟩ | ⟨tree, -, hrel⟩ := hrel
    · exact hs₀
    · obtain ⟨-, rfl⟩ | ⟨k, -, hrel⟩ := releaseConnPin_cases hrel
      · exact hs₀
      · exact releasePin_commPinned hs₀ hrel
  have hs₂ : CommPinned s₂ := by
    obtain ⟨-, rfl⟩ | ⟨k, k', -, -, hr⟩ := releaseTargetPin_cases hr
    · exact hs₁
    · exact releasePin_commPinned hs₁ hr
  exact hs₂

theorem removeAll_commPinned {is : List ConnId} (hs : CommPinned s)
    (h : removeAll s is = .ok s') : CommPinned s' := by
  refine removeAll_induction (R := fun s s' => CommPinned s → CommPinned s') (fun _ => id) ?_ h hs
  intro s i s₁ s₂ hr ih hs
  exact ih (removeConn_commPinned hs hr)

/-! ### The pins of a run -/

/-- The rules leave the pins alone. -/
theorem RuleRun.pinTree {b : Bool} {w w' : Work μ} (h : RuleRun i b w w') (tree : PinTree) :
    w'.st.pinTree tree = w.st.pinTree tree := by
  induction h with
  | refl => rfl
  | tail _ hstep ih =>
    cases hstep with
    | mem m =>
      rw [← ih]
      cases tree <;> rfl
    | dns hb ht hs =>
      obtain ⟨ik, ek, k, -, -, rfl, -⟩ := switchConnToIntra_cases hs
      rw [← ih]
      cases tree <;> rfl

theorem Effect.commPinned {w w' : Work μ} (h : Effect mods g i pkt w w') (hs : CommPinned w.st) :
    CommPinned w'.st := by
  cases h with
  | same hc => exact hs
  | ruled hp he hc => exact hs.congr ((evaluate_run he).pinTree .comm)
  | redirected hp he hdec ht hr hc =>
    have hs₁ := hs.congr ((evaluate_run he).pinTree .comm)
    obtain ⟨h', s₂, c₂, -, -, ha, rfl, -⟩ := setupRedirection_cases hr
    obtain ⟨-, ⟨-, rfl, -⟩ | ⟨-, p, htake, -⟩⟩ := acquireTarget_cases ha
    · exact hs₁.congr rfl
    · exact (htake.commPinned hs₁ fun h => by cases h).congr rfl

/-- **Pins of a run.** In every run, a pin of a front handler stands for the address in its key. -/
theorem commPinned {ok : State μ → Input → Prop}
    (hrun : Machine.Run (step mods g) ok (boot targets ifTarget mem) tr s) : CommPinned s := by
  refine hrun.invariant CommPinned (fun k p hk => by simp [boot, State.pinTree] at hk) ?_
  intro s inp s' out hs _ hstep
  obtain ⟨is, hrem⟩ | hcnt | ⟨raw, now, s₁, i, pkt, c, w, -, -, hatt, heff, rfl⟩ :=
    step_effect hstep
  · exact removeAll_commPinned hs hrem
  · obtain rfl | rfl := hcnt
    · exact hs
    · exact hs
  · have hs₁ : CommPinned s₁ := by
      cases hatt with
      | found hcap hpkt hlook hc hs₁ =>
        subst hs₁
        exact hs
      | created hcap hpkt hlook hid ht hi hcr => exact hcr.commPinned hs
    exact heff.commPinned hs₁

/-! ### Impersonation -/

/-- The external host `source` has a live connection to the address `ip` of the target. -/
def Attacked (s : State μ) (target : TargetId) (source ip : IpAddr) : Prop :=
  ∃ (j : ConnId) (c : Conn), s.conns[j]? = some c ∧ c.initiator = .ext ∧ c.target = target ∧
    c.firstPktSrcIp = source ∧ c.firstPktDstIp = ip

/-- The connection is shown to EXT with the address `ip`: its packets are sent from it, and their
replies are expected at it. -/
def ShownAs (g : Globals) (t : Target) (c : Conn) (ip : IpAddr) : Prop :=
  c.extKey.map ConnKey.dstIp = some ip ∧
    ∀ out, t.defaultRoute = some out → snatIp g c out = .ok ip

/-- A new connection that looks for its address among the pins of the front handler. -/
theorem shownAs_iff {c₀ c₁ : Conn} {ip ip' : IpAddr} (hs : CommPinned s)
    (h : acquireSnat g s c₀ t .comm (commPinKey front pkt.packet.daddr) = .ok (s₁, c₁, ip))
    (hini : c₀.initiator ≠ .ext) (hpin : c₀.pinIp = none)
    (hc : c.extKey = some (snatReplyKey pkt ip) ∧ c.initiator = c₁.initiator ∧ c.pinIp = c₁.pinIp) :
    ShownAs g t c ip' ↔
      (((s.pinTree .comm)[commPinKey front pkt.packet.daddr]? ≠ none ∧ pkt.packet.daddr = ip') ∨
      ((s.pinTree .comm)[commPinKey front pkt.packet.daddr]? = none ∧
        ∃ out, t.defaultRoute = some out ∧ (g.links out).ip = some ip')) := by
  obtain ⟨hkey, hini', hpin'⟩ := hc
  -- the reply key decides the address
  have hip : ShownAs g t c ip' → ip = ip' := by
    rintro ⟨hk, -⟩
    rw [hkey] at hk
    exact Option.some.inj hk
  have hshown (hsnat : ∀ out, t.defaultRoute = some out → snatIp g c out = .ok ip) :
      ShownAs g t c ip :=
    ⟨by rw [hkey]; rfl, hsnat⟩
  simp only [acquireSnat] at h
  obtain ⟨o, ho, h⟩ := Except.bind_eq_ok.mp h
  cases o with
  | none =>
    obtain ⟨out, hout, h⟩ := Except.bind_eq_ok.mp h
    obtain ⟨ip₁, hip₁, h⟩ := Except.bind_eq_ok.mp h
    cases h
    have hnone := lookupPin_none_iff.mp ho
    have hout := Option.orFail_eq_ok.mp hout
    have hip₁ := Option.orFail_eq_ok.mp hip₁
    have hsnat : ShownAs g t c ip := hshown fun out' hout' => by
      obtain rfl : out = out' := Option.some.inj (hout.symm.trans hout')
      simp [snatIp, hini', hini, hpin', hpin, hip₁]
    constructor
    · intro hsh
      obtain rfl := hip hsh
      exact .inr ⟨hnone, out, hout, hip₁⟩
    · rintro (⟨hne, -⟩ | ⟨-, out', hout', hip'⟩)
      · exact absurd hnone hne
      · obtain rfl : out = out' := Option.some.inj (hout.symm.trans hout')
        obtain rfl : ip = ip' := Option.some.inj (hip₁.symm.trans hip')
        exact hsnat
  | some p =>
    cases h
    have hp := (lookupPin_some_iff.mp ho).1
    have hne : (s.pinTree .comm)[commPinKey front pkt.packet.daddr]? ≠ none := by simp [hp]
    have haddr : p.ip = pkt.packet.daddr := hs _ p hp
    have hsnat : ShownAs g t c p.ip := hshown fun out _ => by
      simp [snatIp, hini', hini, hpin']
    constructor
    · intro hsh
      exact .inl ⟨hne, haddr.symm.trans (hip hsh)⟩
    · rintro (⟨-, rfl⟩ | ⟨hnone, -⟩)
      · rw [← haddr]
        exact hsnat
      · exact absurd hnone hne

/-- **Impersonation.** A new connection of the low-interaction honeypot, or of a backend that is not
exclusive, to an external host is shown with the address that this host has contacted exactly when
that is the host's own address and is pinned, or when no pin has the address of the host and it is
the address of the default route. -/
theorem impersonates_iff {ok : State μ → Input → Prop}
    (hrun : Machine.Run (step mods g) ok (boot targets ifTarget mem) tr s)
    (hid : identify s pkt = .ok (some r))
    (hrole : r.origin = .lih ∨ r.origin = .hih ∧ g.exclusiveHih ≠ 1)
    (ht : s.targets[r.target]? = some t) (hf : t.frontHandler = some front)
    (hcr : createConn g s pkt now = .ok (s', some (j, r.origin)))
    (hc : s'.conns[j]? = some c) (hdest : c.destination = .ext) :
    ∀ ip, Attacked s r.target pkt.packet.daddr ip →
      (ShownAs g t c ip ↔
        (((s.pinTree .comm)[commPinKey front pkt.packet.daddr]? ≠ none ∧ pkt.packet.daddr = ip) ∨
        ((s.pinTree .comm)[commPinKey front pkt.packet.daddr]? = none ∧
          ∃ out, t.defaultRoute = some out ∧ (g.links out).ip = some ip))) := by
  intro ip _
  obtain ⟨h, -⟩ | ⟨r', t', c', hid', ht', hx, hcreates⟩ := createConn_cases hcr
  · cases h
  obtain rfl : r = r' := Option.some.inj (Except.ok.inj (hid.symm.trans hid'))
  obtain rfl : t = t' := Option.some.inj (ht.symm.trans ht')
  cases hx
  obtain rfl : c' = c := by
    rw [hcreates.frame.2.2.2, Std.TreeMap.lookup_insert, if_pos rfl] at hc
    exact Option.some.inj hc
  have hs := commPinned hrun
  have hs' : CommPinned { s with cId := s.cId + 1 } := hs
  clear hc
  generalize hro : r.origin = role at hcreates hrole
  cases hcreates with
  | ext => simp at hrole
  | lih hfront hpin hc =>
    obtain rfl := Option.some.inj (hf.symm.trans hfront)
    have hiff : ShownAs g t c' ip ↔ _ :=
      shownAs_iff hs' hpin (by simp [Conn.fresh]) rfl (by simp [hc])
    exact hiff
  | hih hfront hback hpin hc =>
    obtain rfl := Option.some.inj (hf.symm.trans hfront)
    have hex : g.exclusiveHih ≠ 1 := by simpa using hrole
    rw [hihSnatPin, if_neg hex] at hpin
    have hiff : ShownAs g t c' ip ↔ _ :=
      shownAs_iff hs' hpin (by simp [hihFresh, Conn.fresh]) rfl (by simp [hc])
    exact hiff
  | hihIntra hback hh hpin hc =>
    subst hc
    cases hdest
  | hihLan hback hh hlan hc =>
    subst hc
    cases hdest

namespace Sample

/-- The low-interaction honeypot contacts the host 50. -/
def callback : Pkt :=
  packet .int (udp 1 10 2000 50 25)

/-- The connection of `callback`. -/
def called (s : State Unit) (test : Conn → Bool) : Bool :=
  (createConn globals s callback 0).passes fun r =>
    r.2 = some (2, .lih) ∧ r.1.conns[2]?.any fun c => c.destination = .ext ∧ test c

theorem called_iff {s : State Unit} {test : Conn → Bool} (h : called s test = true) :
    ∃ s' c, createConn globals s callback 0 = .ok (s', some (2, .lih)) ∧ s'.conns[2]? = some c ∧
      c.destination = .ext ∧ test c = true := by
  obtain ⟨⟨s', o⟩, hcr, hp⟩ := Except.passes_iff.mp h
  obtain ⟨rfl, hc⟩ := of_decide_eq_true hp
  obtain ⟨c, hc, htest⟩ := (Option.any_eq_true ..).mp hc
  obtain ⟨hdest, htest⟩ := of_decide_eq_true htest
  exact ⟨s', c, hcr, hc, hdest, htest⟩

end Sample

/-- The attacker has contacted the address of the default route, and is called from it. -/
theorem impersonates_default :
    ∃ tr s s' t c,
      Machine.Reaches (step (Sample.modules .accept) Sample.globals) Sample.start tr s ∧
      Attacked s 1 50 9 ∧ createConn Sample.globals s Sample.callback 0 = .ok (s', some (2, .lih)) ∧
      s.targets[1]? = some t ∧ s'.conns[2]? = some c ∧ ShownAs Sample.globals t c 9 := by
  obtain ⟨tr, s, hrun, hp⟩ := Machine.exists_reaches
    (step (Sample.modules .accept) Sample.globals) Sample.start
    [.packet (Sample.udp 0 50 1000 9 80) 0]
    (fun r => (r.1.conns[1]?.any fun c => c.initiator = .ext ∧ c.target = 1 ∧
        c.firstPktSrcIp = 50 ∧ c.firstPktDstIp = 9) ∧
      (r.1.targets[1]?.any fun t => t.defaultRoute = some 0 ∧ t.frontHandler.any fun front =>
        (r.1.pinTree .comm)[commPinKey front 50]? = none) ∧
      ((identify r.1 Sample.callback).passes (· = some { target := 1, origin := .lih })) ∧
      Sample.called r.1 fun _ => true)
    (by decide +kernel)
  obtain ⟨hc, ht, hid, hcalled⟩ := of_decide_eq_true hp
  obtain ⟨c₁, hc₁, htest⟩ := (Option.any_eq_true ..).mp hc
  have hatt : Attacked s 1 50 9 := ⟨1, c₁, hc₁, of_decide_eq_true htest⟩
  obtain ⟨t, ht, htest⟩ := (Option.any_eq_true ..).mp ht
  obtain ⟨hroute, hfront⟩ := of_decide_eq_true htest
  obtain ⟨front, hfront, hpin⟩ := (Option.any_eq_true ..).mp hfront
  obtain ⟨s', c, hcr, hc, hdest, -⟩ := Sample.called_iff hcalled
  have hshown := (impersonates_iff hrun (Except.eq_ok_of_passes hid) (.inl rfl) ht hfront hcr hc
    hdest 9 hatt).mpr (.inr ⟨of_decide_eq_true hpin, 0, hroute, rfl⟩)
  exact ⟨tr, s, s', t, c, hrun, hatt, hcr, ht, hc, hshown⟩

/-- **A honeypot that gives itself away.** The attacker has contacted the address 8 and no other,
and is called from the address 9. -/
theorem impersonates_broken :
    ∃ tr s s' c, Machine.Reaches (step (Sample.modules .accept) Sample.globals) Sample.start tr s ∧
      Attacked s 1 50 8 ∧ (∀ ip, Attacked s 1 50 ip → ip = 8) ∧
      createConn Sample.globals s Sample.callback 0 = .ok (s', some (2, .lih)) ∧
      s'.conns[2]? = some c ∧ c.extKey.map ConnKey.dstIp = some 9 ∧
      snatIp Sample.globals c 0 = .ok 9 := by
  obtain ⟨tr, s, hrun, hp⟩ := Machine.exists_reaches
    (step (Sample.modules .accept) Sample.globals) Sample.start
    [.packet (Sample.udp 0 50 1000 8 80) 0]
    (fun r => (r.1.conns[1]?.any fun c => c.initiator = .ext ∧ c.target = 1 ∧
        c.firstPktSrcIp = 50 ∧ c.firstPktDstIp = 8) ∧
      (r.1.conns.toList.all fun x => x.2.firstPktDstIp = 8) ∧
      Sample.called r.1 fun c => c.extKey.map ConnKey.dstIp = some 9 ∧
        (snatIp Sample.globals c 0).passes (· = 9))
    (by decide +kernel)
  obtain ⟨hc, hall, hcalled⟩ := of_decide_eq_true hp
  obtain ⟨c₁, hc₁, htest⟩ := (Option.any_eq_true ..).mp hc
  obtain ⟨s', c, hcr, hc, -, htest'⟩ := Sample.called_iff hcalled
  obtain ⟨hkey, hsnat⟩ := of_decide_eq_true htest'
  refine ⟨tr, s, s', c, hrun, ⟨1, c₁, hc₁, of_decide_eq_true htest⟩, ?_, hcr, hc, hkey,
    Except.eq_ok_of_passes hsnat⟩
  rintro ip ⟨j, c', hc', -, -, -, rfl⟩
  have hmem := Std.TreeMap.mem_toList_iff_getElem?_eq_some.mpr hc'
  exact of_decide_eq_true (List.all_eq_true.mp hall _ hmem)

end Honeybrid
