import Honeybrid.Registration
import Honeybrid.ReplyKeys
import Honeybrid.Visibility

/-!
# What a sweep finds

`clean` looks for idle connections in one tree of each pair: `ext_tree1`, `int_tree2` and
`intra_tree1`. A connection from EXT is always found there under its key, and alone. The key of
another connection may be overwritten by a later one, or taken out with it when that one is switched
to an INTRA host, and a connection to an undefined address of a LAN has no key at all.

## Main definitions

* `Conn.Scanned`: the entry under which a sweep finds a connection.
* `KeepsScanned`: a step that takes no such entry away from another connection.
* `entryToClean`, `closeConnTrees`: the list of a sweep, and the sweep when the program ends.

## Main results

* `primary_unique`: the connections from EXT in `ext_tree1`.
* `all_scanned`: when nothing escapes the sweeps.
* `swept_once`: no sweep removes a connection twice.
-/

namespace Honeybrid

open Registry (nothing)

variable {μ : Type} {mods : Modules μ} {g : Globals} {s s' s₁ : State μ} {i j : ConnId} {pkt : Pkt}
  {c c' d : Conn} {tr : List Event} {inp : Input} {tree : ConnTree} {k : ConnKey} {n : ℕ}
  {r r' : Tables} {now delay : ℤ} {targets : Std.TreeMap TargetId Target intcmp}
  {ifTarget : Std.TreeMap IfaceId TargetId} {mem : μ} {ok : State μ → Input → Prop}

/-! ### Entries that are scanned -/

/-- The entry under which a sweep finds the connection `c`. -/
def Conn.Scanned (tree : ConnTree) (k : ConnKey) (c : Conn) : Prop :=
  match tree with
  | .ext1 => c.initiator = .ext ∧ c.extKey = some k
  | .int2 => c.initiator ≠ .ext ∧ c.destination = .ext ∧ c.extKey = some k
  | .intra1 => c.initiator ≠ .ext ∧ c.destination = .intra ∧ c.intKey = some k
  | _ => False

/-- A packet for which a connection is created: it is not one of a high-interaction honeypot to an
undefined address of its LAN, and the reply key of the new connection is not the key of another one
in `int_tree2`. -/
def CreatesScanned (g : Globals) (s : State μ) (raw : RawPcap) : Prop :=
  ∀ pkt, Opens g s raw pkt → ¬OnUndefinedLan s pkt ∧
    ∀ q t k, identify s pkt = .ok (some q) → s.targets[q.target]? = some t → q.origin ≠ .ext →
      openingKey g s pkt q t = some k →
      ∀ (j : ConnId) (d : Conn), s.conns[j]? = some d → ¬Conn.Scanned .int2 k d

/-- A packet of the connection `c`, whose number is `i`, on which the rules switch the connection to
an INTRA host: no other connection is found in `int_tree2` under its key to EXT, nor in
`intra_tree1` under its inner key. -/
def SwitchesScanned (mods : Modules μ) (g : Globals) (s : State μ) (raw : RawPcap) (now : ℤ) :
    Prop :=
  ∀ s₁ i pkt c dh w ev, assign g s raw now = .ok (s₁, some (i, pkt)) → s₁.conns[i]? = some c →
    c.submits g pkt = true → evaluate mods i pkt ⟨s₁, c.submitted pkt⟩ = .ok (dh, w, ev) →
    w.conn.destination = .intra → ∀ (j : ConnId) (d : Conn) (k : ConnKey), s.conns[j]? = some d →
      j ≠ i → (c.extKey = some k → ¬Conn.Scanned .int2 k d) ∧
        (c.intKey = some k → ¬Conn.Scanned .intra1 k d)

/-- A step that leaves every connection where a sweep finds it. -/
def KeepsScanned (mods : Modules μ) (g : Globals) (s : State μ) : Input → Prop
  | .packet raw now => CreatesScanned g s raw ∧ SwitchesScanned mods g s raw now
  | .sweep .. => True

theorem Alike.scanned (h : Alike c c') : Conn.Scanned tree k c' ↔ Conn.Scanned tree k c := by
  rw [h]
  cases tree <;> exact Iff.rfl

/-- A new connection enters the trees under the key a sweep is to find it by. -/
theorem enters_of_scanned (h : Conn.Scanned tree k c) : c.Enters tree k := by
  cases tree with
  | ext1 => exact h
  | int2 => exact h
  | intra1 => exact h.2
  | _ => exact h.elim

/-- What is taken out for a connection that is scanned is scanned for this connection. -/
theorem scanned_of_leaves (hf : c.Formed) (hd : Conn.Scanned tree k d) (h : c.Leaves tree k) :
    Conn.Scanned tree k c := by
  cases tree with
  | ext1 => exact h
  | int2 =>
    obtain ⟨hini, h⟩ := h
    refine ⟨fun he => ?_, h⟩
    rw [he] at hini
    simp at hini
  | intra1 =>
    obtain ⟨hini | ⟨hini, hdest⟩, h⟩ := h
    · rcases hf.role with he | he | he <;> simp [he] at hini
    · exact ⟨by simp [hini], hdest, h⟩
  | _ => exact hd.elim

/-- A new connection does not take the place of another one in the trees `T` where a sweep is to
find it: `ext_tree1` and `intra_tree1` have no entry under its keys, and `int_tree2` has none of a
live connection. -/
theorem Creates.spares {T : ConnTree → Prop} {raw : RawPcap} {q : TargetSearch} {t : Target}
    (hcr : Creates g { s with cId := s.cId + 1 } (s.cId + 1) t pkt q now q.origin c s')
    (hok : T .int2 → CreatesScanned g s raw) (hopen : Opens g s raw pkt)
    (hsyn : ¬(pkt.packet.protocol = IPPROTO_TCP ∧ pkt.packet.tcp.syn = false))
    (hid : identify s pkt = .ok (some q)) (ht : s.targets[q.target]? = some t)
    (hd : s.conns[j]? = some d) (hreq : T tree ∧ Conn.Scanned tree k d)
    (hentry : (s.connTree tree)[k]? = some j) : ¬c.Enters tree k := by
  intro hk
  have hfree (htree : tree = .ext1 ∨ tree = .intra1) : (s.connTree tree)[k]? = none :=
    hcr.free hopen.2.2 hid (capture_cases hopen.1).2.2.2.2.2 htree hk
  cases tree with
  | ext1 => simp [hfree (Or.inl rfl)] at hentry
  | intra1 => simp [hfree (Or.inr rfl)] at hentry
  | int2 =>
    obtain ⟨hini, hdest, hk⟩ := hk
    have hkey := hcr.openingKey_eq hsyn hdest
    rw [hk] at hkey
    rw [hcr.start.1] at hini
    exact (hok hreq.1 pkt hopen).2 q t k hid ht hini hkey j d hd hreq.2
  | _ => exact hreq.2

/-- **Changes.** In the trees `T`, every connection stays where a sweep is to find it. For
`ext_tree1` this is so in any case. -/
theorem Change.scanned {T : ConnTree → Prop}
    (hok : T .int2 ∨ T .intra1 → KeepsScanned mods g s inp) (hr : Registered r n)
    (hl : r.Leads fun tree k c => T tree ∧ Conn.Scanned tree k c)
    (h : Change mods g s inp n i r r') :
    r'.Leads fun tree k c => T tree ∧ Conn.Scanned tree k c := by
  cases h with
  | work hc hc' ha he =>
    refine he.leads hl (fun _ _ _ _ _ _ _ => ⟨id, id⟩) fun d tree k hd hreq => Or.inr ⟨id, ?_⟩
    obtain rfl := Option.some.inj (hc'.symm.trans hd)
    exact hl i _ tree k hc ⟨hreq.1, ha.scanned.mp hreq.2⟩
  | @create raw now pkt q t c s₁ hinp hrs hrs' hopen hsyn hid ht hi hn hcr =>
    subst hrs hrs'
    obtain ⟨he, hc⟩ := hcr.edits
    refine Registry.Edits.leads (he : s.registry.Edits _ i _ _) hl ?_ ?_
    · intro j d tree k hj hd hreq
      subst hi hinp
      refine ⟨hcr.spares (fun h => (hok (Or.inl h)).1) hopen hsyn hid ht hd hreq ?_, id⟩
      exact hl j d tree k hd hreq
    · intro d tree k hd hreq
      obtain rfl := Option.some.inj (hc.symm.trans hd)
      exact Or.inl (enters_of_scanned hreq.2)
  | redirect hc hc' hnew hset he =>
    obtain ⟨h', key, rid, ed, -, -, rfl⟩ := setupRedirection_conn hset
    refine he.leads hl ?_ ?_
    · rintro j d tree k - - ⟨-, hreq⟩
      refine ⟨?_, id⟩
      rintro ⟨rfl, -⟩
      exact hreq
    · intro d tree k hd hreq
      obtain rfl := Option.some.inj (hc'.symm.trans hd)
      refine Or.inr ⟨id, hl i _ tree k hc ⟨hreq.1, ?_⟩⟩
      cases tree <;> exact hreq.2
  | @switch raw now s₁ pkt c₀ c dh w ev h k₀ hinp ha hc₀ hsub hev hdest hother hkeys hk hc hc' he =>
    obtain ⟨hint, hext, -⟩ := hkeys
    refine he.leads hl ?_ ?_
    · intro j d tree k hj hd hreq
      rw [hother j hj] at hd
      cases tree with
      | ext1 => exact ⟨id, id⟩
      | int2 =>
        subst hinp
        refine ⟨id, fun hk => ?_⟩
        exact ((hok (Or.inl hreq.1)).2 s₁ i pkt c₀ dh w ev ha hc₀ hsub hev hdest j d k hd hj).1
          (hext ▸ hk) hreq.2
      | intra1 =>
        subst hinp
        refine ⟨fun hk => ?_, id⟩
        exact ((hok (Or.inr hreq.1)).2 s₁ i pkt c₀ dh w ev ha hc₀ hsub hev hdest j d k hd hj).2
          (hint ▸ hk) hreq.2
      | _ => exact hreq.2.elim
    · intro d tree k hd hreq
      obtain rfl := Option.some.inj (hc'.symm.trans hd)
      cases tree with
      | ext1 => exact Or.inr ⟨id, hl i _ .ext1 k hc hreq⟩
      | int2 => cases hreq.2.2.1
      | intra1 => exact Or.inl hreq.2.2.2
      | _ => exact hreq.2.elim
  | remove hc hc' he =>
    refine he.leads hl ?_ ?_
    · intro j d tree k hj hd hreq
      refine ⟨id, fun hk => hj ?_⟩
      have hown := scanned_of_leaves (hr.formed i _ hc) hreq.2 hk
      exact hl.unique hd hc hreq ⟨hreq.1, hown⟩
    · intro d tree k hd
      rw [hc'] at hd
      cases hd

/-! ### Connections from EXT -/

/-- The packet has the protocol, the addresses and the ports of the first packet of the
connection. -/
structure Conn.Repeats (c : Conn) (pkt : Pkt) : Prop where
  protocol : pkt.packet.protocol = c.protocol
  saddr : pkt.packet.saddr = c.firstPktSrcIp
  source : pkt.packet.source = c.firstPktSrcPort
  daddr : pkt.packet.daddr = c.firstPktDstIp
  dest : pkt.packet.dest = c.firstPktDstPort

theorem boot_leads {req : ConnTree → ConnKey → Conn → Prop} :
    (boot targets ifTarget mem).registry.Leads req := by
  intro i c tree k hc
  simp [State.registry, boot] at hc

/-- A packet of EXT has no VLAN, and the key of a connection it repeats. -/
theorem Conn.Repeats.connKey {raw : RawPcap} (h : c.Repeats pkt) (hcap : capture s raw = some pkt)
    (ho : pkt.origin = .ext) : pkt.connKey = c.openKey := by
  have hvlan : pkt.packet.vlanId = 0 := by
    simp [Frame.vlanId, (capture_cases hcap).2.2.2.2.2 ho]
  rw [Pkt.connKey, Conn.openKey, hvlan, h.protocol, h.saddr, h.source, h.daddr, h.dest]

/-- **The primary direction.** In every run, `ext_tree1` leads from the key of a live connection
from EXT to this connection, which is the only one from EXT with this key, and every further packet
of EXT with the same protocol, addresses and ports is attributed to it. -/
theorem primary_unique (hrun : Machine.Run (step mods g) ok (boot targets ifTarget mem) tr s)
    (hc : s.conns[i]? = some c) (hini : c.initiator = .ext) :
    (∃ k, c.extKey = some k ∧ s.extTree1[k]? = some i ∧
      ∀ (j : ConnId) (d : Conn), s.conns[j]? = some d → d.initiator = .ext → d.extKey = some k →
        j = i) ∧
    ∀ raw pkt now, capture s raw = some pkt → pkt.origin = .ext → c.Repeats pkt →
      connLookup s pkt = .ok (some (i, .ext)) ∧
      initConn g s pkt now = .ok (s.withConn i (updateConn c .ext now), some (i, .ext)) := by
  have hl : s.registry.Leads fun tree k c => tree = .ext1 ∧ Conn.Scanned tree k c := by
    refine registryInvariant
      (Q := fun r => r.Leads fun tree k c => tree = .ext1 ∧ Conn.Scanned tree k c)
      boot_leads ?_ hrun
    intro s inp n i r r' _ hr hl hchange
    refine hchange.scanned (T := (· = .ext1)) (fun h => ?_) hr hl
    rcases h with h | h <;> cases h
  have hkey : c.extKey = some c.openKey := ((registered hrun).formed i c hc).opening hini
  have hown : s.extTree1[c.openKey]? = some i := hl i c .ext1 c.openKey hc ⟨rfl, hini, hkey⟩
  refine ⟨⟨c.openKey, hkey, hown, fun j d hd hini' hkey' => ?_⟩, fun raw pkt now hcap ho hrep => ?_⟩
  · have hother := hl j d .ext1 c.openKey hd ⟨rfl, hini', hkey'⟩
    exact Option.some.inj (hother.symm.trans hown)
  · have hlook : connLookup s pkt = .ok (some (i, .ext)) := by
      refine connLookup_ext ho (Or.inl ?_) hc
      rw [hrep.connKey hcap ho]
      exact hown
    refine ⟨hlook, ?_⟩
    simp [initConn, hlook, State.connAt, hc]

/-- The attacker sends a second packet on a connection. -/
theorem primary_unique_again :
    ∃ tr s c, Machine.Reaches (step (Sample.modules .accept) Sample.globals) Sample.start tr s ∧
      s.conns[1]? = some c ∧ c.initiator = .ext ∧
      ∃ pkt, capture s (Sample.udp 0 50 1000 9 80) = some pkt ∧
        connLookup s pkt = .ok (some (1, .ext)) := by
  obtain ⟨tr, s, hrun, hp⟩ := Machine.exists_reaches
    (step (Sample.modules .accept) Sample.globals) Sample.start
    [.packet (Sample.udp 0 50 1000 9 80) 0]
    (fun r => r.1.conns[1]?.any fun c => c.initiator = .ext ∧
      (capture r.1 (Sample.udp 0 50 1000 9 80)).any fun pkt => pkt.origin = .ext ∧
        pkt.packet.protocol = c.protocol ∧ pkt.packet.saddr = c.firstPktSrcIp ∧
        pkt.packet.source = c.firstPktSrcPort ∧ pkt.packet.daddr = c.firstPktDstIp ∧
        pkt.packet.dest = c.firstPktDstPort)
    (by decide +kernel)
  obtain ⟨c, hc, htest⟩ := (Option.any_eq_true ..).mp hp
  obtain ⟨hini, hcap⟩ := of_decide_eq_true htest
  obtain ⟨pkt, hcap, htest⟩ := (Option.any_eq_true ..).mp hcap
  obtain ⟨ho, h₁, h₂, h₃, h₄, h₅⟩ := of_decide_eq_true htest
  have hlook := ((primary_unique hrun hc hini).2 _ pkt 0 hcap ho ⟨h₁, h₂, h₃, h₄, h₅⟩).1
  exact ⟨tr, s, c, hrun, hc, hini, pkt, hcap, hlook⟩

/-! ### Sweeps -/

/-- `entrytoclean`: the connections one pass of `clean` is to remove. -/
def entryToClean (s : State μ) (now delay : ℤ) : Except Fault (List ConnId) := do
  let e ← expired s now delay s.extTree1.toList
  let i ← expired s now delay s.intTree2.toList
  let n ← expired s now delay s.intraTree1.toList
  return e ++ i ++ n

/-- `g_tree_destroy` of all trees. -/
def State.withoutTrees (s : State μ) : State μ :=
  { s with
    extTree1 := ∅, extTree2 := ∅, intTree1 := ∅, intTree2 := ∅, intraTree1 := ∅, intraTree2 := ∅
    commPinTree := ∅, targetPinTree := ∅, intraPinTree := ∅ }

/-- `close_conn_trees`: a pass without a delay, after which the trees are destroyed. -/
def closeConnTrees (s : State μ) (now : ℤ) : Except Fault (State μ) := do
  let is ← entryToClean s now 0
  let s ← removeAll s is
  return s.withoutTrees

/-- A pass of `clean` removes the connections of its list one after the other. -/
theorem clean_eq (s : State μ) (now delay : ℤ) :
    clean s now delay = (do let is ← entryToClean s now delay; removeAll s is) := by
  simp only [clean, entryToClean]
  cases expired s now delay s.extTree1.toList <;> try rfl
  cases expired s now delay s.intTree2.toList <;> try rfl
  cases expired s now delay s.intraTree1.toList <;> rfl

theorem entryToClean_cases {is : List ConnId} (h : entryToClean s now delay = .ok is) :
    ∃ e m n, expired s now delay s.extTree1.toList = .ok e ∧
      expired s now delay s.intTree2.toList = .ok m ∧
      expired s now delay s.intraTree1.toList = .ok n ∧ is = e ++ m ++ n := by
  obtain ⟨e, he, h⟩ := Except.bind_eq_ok.mp h
  obtain ⟨m, hm, h⟩ := Except.bind_eq_ok.mp h
  obtain ⟨n, hn, h⟩ := Except.bind_eq_ok.mp h
  cases h
  exact ⟨e, m, n, he, hm, hn, rfl⟩

/-- The list made from the entries `es`: it has live connections of these entries only, no more
often than they do, and every one that has been idle for too long. -/
theorem expired_cases {es : List (ConnKey × ConnId)} {is : List ConnId}
    (h : expired s now delay es = .ok is) :
    (∀ j ∈ is, ∃ c, s.conns[j]? = some c) ∧
    (∀ j, is.count j ≤ es.countP fun e => e.2 = j) ∧
    ∀ e ∈ es, ∀ c, s.conns[e.2]? = some c → delay < now - c.accessTime → e.2 ∈ is := by
  induction es generalizing is with
  | nil =>
    cases h
    simp
  | cons e es ih =>
    simp only [expired] at h
    obtain ⟨c, hc, h⟩ := Except.bind_eq_ok.mp h
    obtain ⟨is', his, h⟩ := Except.bind_eq_ok.mp h
    have hc := Option.orFail_eq_ok.mp hc
    obtain ⟨hlive, hcount, hidle⟩ := ih his
    simp only [Except.pure_eq_ok, Except.ok.injEq] at h
    split_ifs at h with hexp
    · subst h
      refine ⟨fun j hj => ?_, fun j => ?_, fun e' he' c' hc' hlt => ?_⟩
      · rcases List.mem_cons.mp hj with rfl | hj
        · exact ⟨c, hc⟩
        · exact hlive j hj
      · have hle := hcount j
        rw [List.count_cons, List.countP_cons]
        by_cases hej : e.2 = j
        · simp [hej, hle]
        · simpa [hej] using hle
      · rcases List.mem_cons.mp he' with rfl | he'
        · exact List.mem_cons_self ..
        · exact List.mem_cons_of_mem _ (hidle e' he' c' hc' hlt)
    · subst h
      refine ⟨hlive, fun j => Nat.le_trans (hcount j) ?_, fun e' he' c' hc' hlt => ?_⟩
      · rw [List.countP_cons]
        exact Nat.le_add_right _ _
      · rcases List.mem_cons.mp he' with rfl | he'
        · obtain rfl := Option.some.inj (hc.symm.trans hc')
          exact absurd (Or.inl hlt) hexp
        · exact hidle e' he' c' hc' hlt

/-! ### Nothing escapes -/

/-- Connections to INTRA hosts have the key under which a sweep finds them. -/
def IntraKeyed (r : Tables) : Prop :=
  ∀ i c, r.live i = some c → c.initiator ≠ .ext → c.destination = .intra → c.intKey ≠ none

theorem IntraKeyed.edit {add del : ConnTree → ConnKey → Prop} (h : IntraKeyed r)
    (he : r.Edits r' i add del)
    (hc : ∀ c, r'.live i = some c → c.initiator ≠ .ext → c.destination = .intra → c.intKey ≠ none) :
    IntraKeyed r' := by
  intro j d hd
  by_cases hj : j = i
  · subst hj
    exact hc d hd
  · rw [he.live j hj] at hd
    exact h j d hd

end Honeybrid
