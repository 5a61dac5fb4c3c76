import Honeybrid.Effects
import Honeybrid.Coherence
import Honeybrid.Lib.Registry

/-!
# Connections in the trees

The six connection trees are indexes of the live connections. A connection enters two of them when
it is created, one key more when it is redirected, and moves to another pair when it is switched to
an INTRA host; `remove_conn` takes out the keys it finds by the initiator and the destination. This
file says what each of these does to the trees as a registry, and that every step of the program is
a sequence of such changes.

## Main definitions

* `ConnTree`, `State.registry`: the trees and the live connections.
* `Conn.Listed`: the entries of the trees that may lead to a connection.
* `Conn.Enters`, `Conn.Leaves`: the entries `create_conn` makes, and those `remove_conn` takes out.
* `Change`: one change of the registry during a step.

## Main results

* `Creates.edits`, `switchConnToIntra_edits`, `setupRedirection_edits`, `removeConn_edits`: the
  changes.
* `step_changes`: every step is a sequence of changes.
* `registered`: in every run, an entry that leads to a live connection is one of its own.
-/

namespace Honeybrid

open Registry (nothing)

variable {μ : Type} {mods : Modules μ} {g : Globals} {s s' s₁ : State μ} {i j : ConnId} {pkt : Pkt}
  {c c' : Conn} {w w' : Work μ} {ev tr : List Event} {inp : Input} {k : ConnKey}

/-! ### The registry -/

/-- The six connection trees. -/
inductive ConnTree
  | ext1 | ext2 | int1 | int2 | intra1 | intra2
  deriving DecidableEq, Repr

variable {tree : ConnTree}

/-- The tree behind a name. -/
def State.connTree (s : State μ) : ConnTree → Std.TreeMap ConnKey ConnId connKeyCmp
  | .ext1 => s.extTree1
  | .ext2 => s.extTree2
  | .int1 => s.intTree1
  | .int2 => s.intTree2
  | .intra1 => s.intraTree1
  | .intra2 => s.intraTree2

/-- Live connections and trees. -/
abbrev Tables := Registry ConnTree ConnKey ConnId Conn

/-- The live connections and the trees of a state, as a registry. -/
def State.registry (s : State μ) : Tables where
  live i := s.conns[i]?
  entry tree k := (s.connTree tree)[k]?

/-- The entries that may lead to a connection. A connection from EXT stays in its trees when it is
switched to an INTRA host, and the keys of earlier switches may remain in `intra_tree2`. -/
def Conn.Listed (tree : ConnTree) (k : ConnKey) (c : Conn) : Prop :=
  match tree with
  | .ext1 => c.initiator = .ext ∧ c.extKey = some k
  | .ext2 => c.initiator = .ext ∧ (c.intKey = some k ∨ c.hih.redirectedIntKey = some k)
  | .int1 => c.initiator ≠ .ext ∧ c.destination = .ext ∧ c.intKey = some k
  | .int2 => c.initiator ≠ .ext ∧ c.destination = .ext ∧ c.extKey = some k
  | .intra1 => c.destination = .intra ∧ c.intKey = some k
  | .intra2 => c.destination = .intra ∧ k.dstIp = c.firstPktSrcIp

/-- The entries `create_conn` makes for a connection. -/
def Conn.Enters (c : Conn) (tree : ConnTree) (k : ConnKey) : Prop :=
  match tree with
  | .intra2 => c.destination = .intra ∧ c.intraKey = some k
  | tree => Conn.Listed tree k c

/-- The entries `remove_conn` takes out for a connection. -/
def Conn.Leaves (c : Conn) (tree : ConnTree) (k : ConnKey) : Prop :=
  match tree with
  | .ext1 => c.initiator = .ext ∧ c.extKey = some k
  | .ext2 => c.initiator = .ext ∧ (c.intKey = some k ∨ c.hih.redirectedIntKey = some k)
  | .int1 => (c.initiator = .lih ∨ c.initiator = .hih) ∧ c.destination = .ext ∧ c.intKey = some k
  | .int2 => (c.initiator = .lih ∨ c.initiator = .hih) ∧ c.destination = .ext ∧ c.extKey = some k
  | .intra1 => (c.initiator = .intra ∨ c.initiator = .hih ∧ c.destination = .intra) ∧
      c.intKey = some k
  | .intra2 => (c.initiator = .intra ∨ c.initiator = .hih ∧ c.destination = .intra) ∧
      c.intraKey = some k

/-- The entries a switch to an INTRA host makes. -/
def Conn.Rejoins (c : Conn) (tree : ConnTree) (k : ConnKey) : Prop :=
  match tree with
  | .intra1 => c.intKey = some k
  | .intra2 => c.intraKey = some k
  | _ => False

/-- The entries a switch to an INTRA host takes out. -/
def Conn.Departs (c : Conn) (tree : ConnTree) (k : ConnKey) : Prop :=
  match tree with
  | .int1 => c.intKey = some k
  | .int2 => c.extKey = some k
  | _ => False

/-- The entry a redirection makes. -/
def Conn.Redirects (c : Conn) (tree : ConnTree) (k : ConnKey) : Prop :=
  tree = .ext2 ∧ c.hih.redirectedIntKey = some k

theorem SameTrees.connTree (h : SameTrees s s') (tree : ConnTree) :
    s'.connTree tree = s.connTree tree := by
  cases tree with
  | ext1 => exact h.extTree1
  | ext2 => exact h.extTree2
  | int1 => exact h.intTree1
  | int2 => exact h.intTree2
  | intra1 => exact h.intraTree1
  | intra2 => exact h.intraTree2

@[simp] theorem withConn_connTree : (s.withConn i c).connTree tree = s.connTree tree := by
  cases tree <;> rfl

@[simp] theorem registry_withConn : (s.withConn i c).registry.live i = some c := by
  simp [State.registry]

/-- The other connections stay, and the trees are as an edit of the entries of `i` leaves them. -/
theorem edits_of {add del : ConnTree → ConnKey → Prop}
    (hconns : ∀ j : ConnId, j ≠ i → s'.conns[j]? = s.conns[j]?)
    (h : ∀ tree k, (add tree k → (s'.connTree tree)[k]? = some i) ∧
      (¬add tree k → del tree k → (s'.connTree tree)[k]? = none) ∧
      (¬add tree k → ¬del tree k → (s'.connTree tree)[k]? = (s.connTree tree)[k]?)) :
    s.registry.Edits s'.registry i add del := by
  refine ⟨hconns, fun tree k => ?_⟩
  obtain ⟨hadd, hdel, hkept⟩ := h tree k
  split_ifs with ha hd
  · exact hadd ha
  · exact hdel ha hd
  · exact hkept ha hd

theorem edits_withConn {add del : ConnTree → ConnKey → Prop} (hconns : s'.conns = s.conns)
    (h : ∀ tree k, (add tree k → (s'.connTree tree)[k]? = some i) ∧
      (¬add tree k → del tree k → (s'.connTree tree)[k]? = none) ∧
      (¬add tree k → ¬del tree k → (s'.connTree tree)[k]? = (s.connTree tree)[k]?)) :
    s.registry.Edits (s'.withConn i c).registry i add del := by
  refine edits_of (fun j hj => ?_) fun tree k => ?_
  · rw [withConn_conns, hconns, Std.TreeMap.lookup_insert_of_ne (Ne.symm hj)]
  · rw [withConn_connTree]
    exact h tree k

/-! ### The changes -/

theorem edits_insertExt {ek ik : ConnKey} (htrees : SameTrees (insertExt s i ek ik) s₁)
    (hconns : s₁.conns = s.conns) (hini : c.initiator = .ext) (hdest : c.destination ≠ .intra)
    (hek : c.extKey = some ek) (hik : c.intKey = some ik) (hred : c.hih.redirectedIntKey = none) :
    s.registry.Edits (s₁.withConn i c).registry i c.Enters nothing := by
  refine edits_withConn hconns fun tree k => ?_
  rw [htrees.connTree]
  cases tree <;>
    simp +contextual [Conn.Enters, Conn.Listed, State.connTree, insertExt, nothing,
      Std.TreeMap.lookup_insert, hini, hdest, hek, hik, hred]

theorem edits_insertInt {ek ik : ConnKey} (htrees : SameTrees s s₁) (hconns : s₁.conns = s.conns)
    (hini : c.initiator ≠ .ext) (hdest : c.destination = .ext) (hek : c.extKey = some ek)
    (hik : c.intKey = some ik) :
    s.registry.Edits ((insertInt s₁ i ik ek).withConn i c).registry i c.Enters nothing := by
  have htrees' : SameTrees (insertInt s i ik ek) (insertInt s₁ i ik ek) :=
    ⟨htrees.extTree1, htrees.extTree2, congrArg (·.insert ik i) htrees.intTree1,
      congrArg (·.insert ek i) htrees.intTree2, htrees.intraTree1, htrees.intraTree2⟩
  refine edits_withConn hconns fun tree k => ?_
  rw [htrees'.connTree]
  cases tree <;>
    simp +contextual [Conn.Enters, Conn.Listed, State.connTree, insertInt, nothing,
      Std.TreeMap.lookup_insert, hini, hdest, hek, hik]

theorem edits_insertIntra {ik k : ConnKey} (htrees : SameTrees s s₁) (hconns : s₁.conns = s.conns)
    (hini : c.initiator ≠ .ext) (hdest : c.destination = .intra) (hik : c.intKey = some ik)
    (hk : c.intraKey = some k) :
    s.registry.Edits ((insertIntra s₁ i ik k).withConn i c).registry i c.Enters nothing := by
  have htrees' : SameTrees (insertIntra s i ik k) (insertIntra s₁ i ik k) :=
    ⟨htrees.extTree1, htrees.extTree2, htrees.intTree1, htrees.intTree2,
      congrArg (·.insert ik i) htrees.intraTree1, congrArg (·.insert k i) htrees.intraTree2⟩
  refine edits_withConn hconns fun tree k' => ?_
  rw [htrees'.connTree]
  cases tree <;>
    simp +contextual [Conn.Enters, Conn.Listed, State.connTree, insertIntra, nothing,
      Std.TreeMap.lookup_insert, hini, hdest, hik, hk]

/-- **Creation.** A new connection enters the trees under its keys; one to an undefined address of a
LAN has none. -/
theorem Creates.edits {t : Target} {r : TargetSearch} {role : Role} {now : ℤ}
    (h : Creates g s i t pkt r now role c s') :
    s.registry.Edits s'.registry i c.Enters nothing ∧ s'.registry.live i = some c := by
  have hsnat {c₀ c₁ : Conn} {tree : PinTree} {pk : PinKey} {s₁ : State μ} {ip : IpAddr}
      (ha : acquireSnat g s c₀ t tree pk = .ok (s₁, c₁, ip)) :
      s₁.conns = s.conns ∧ c₁.initiator = c₀.initiator := by
    obtain ⟨rfl, rfl, -⟩ | ⟨p, htake, -, rfl⟩ := acquireSnat_cases ha
    · exact ⟨rfl, rfl⟩
    · exact ⟨htake.kept.conns, rfl⟩
  cases h with
  | ext hfront hpin hc =>
    refine ⟨edits_insertExt hpin.sameTrees hpin.kept.conns ?_ ?_ ?_ ?_ ?_, registry_withConn⟩ <;>
      simp [hc, Conn.fresh]
  | lih hfront hpin hc =>
    obtain ⟨hconns, hini⟩ := hsnat hpin
    refine ⟨edits_insertInt (acquireSnat_sameTrees hpin) hconns ?_ ?_ ?_ ?_, registry_withConn⟩ <;>
      simp [hc, hini, Conn.fresh]
  | hih hfront hback hpin hc =>
    obtain ⟨hconns, hini⟩ := hsnat hpin
    refine ⟨edits_insertInt (acquireSnat_sameTrees hpin) hconns ?_ ?_ ?_ ?_, registry_withConn⟩ <;>
      simp [hc, hini, hihFresh, Conn.fresh]
  | @hihIntra back h s₁ c₁ c hback hh hpin hc =>
    have hkept : s₁.conns = s.conns ∧ c₁.initiator = .hih := by
      obtain ⟨rfl, rfl⟩ | ⟨pk, p, ip, htake, rfl⟩ := acquireIntra_cases hpin
      · exact ⟨rfl, rfl⟩
      · exact ⟨htake.kept.conns, rfl⟩
    refine ⟨edits_insertIntra (acquireIntra_sameTrees hpin) hkept.1 ?_ ?_ ?_ ?_,
      registry_withConn⟩ <;> simp [hc, hkept.2]
  | hihLan hback hh hlan hc =>
    refine ⟨edits_withConn rfl fun tree k => ?_, registry_withConn⟩
    cases tree <;> simp [hc, Conn.Enters, Conn.Listed, nothing, hihFresh, Conn.fresh]

/-- **Switches.** A connection that is switched to an INTRA host leaves the trees of connections to
EXT and enters those of INTRA connections. -/
theorem switchConnToIntra_edits (c₀ : Conn) {h : Handler}
    (hs : switchConnToIntra s i c h = .ok (s', c')) :
    (s.withConn i c₀).registry.Edits (s'.withConn i c').registry i c'.Rejoins c'.Departs := by
  obtain ⟨ik, ek, k, hik, hek, rfl, rfl⟩ := switchConnToIntra_cases hs
  refine edits_of (fun j hj => ?_) fun tree k' => ?_
  · have hne : i ≠ j := Ne.symm hj
    simp [insertIntra, Std.TreeMap.lookup_insert_of_ne hne]
  · rw [withConn_connTree, withConn_connTree]
    cases tree <;>
      simp +contextual [Conn.Rejoins, Conn.Departs, State.connTree, insertIntra,
        Std.TreeMap.lookup_insert, Std.TreeMap.lookup_erase, hik, hek]

/-- The reply key of a switched connection leads to the sender of its first packet. -/
theorem switchConnToIntra_reply {h : Handler} (hs : switchConnToIntra s i c h = .ok (s', c')) :
    ∀ k, c'.intraKey = some k → k.dstIp = c.firstPktSrcIp := by
  simp only [switchConnToIntra] at hs
  obtain ⟨ik, -, hs⟩ := Except.bind_eq_ok.mp hs
  obtain ⟨ek, -, hs⟩ := Except.bind_eq_ok.mp hs
  cases hs
  rintro k hk
  cases hk
  rfl

/-- **Redirections.** A redirected connection gets one key more in `ext_tree2`. -/
theorem setupRedirection_edits {c₀ : Conn} {t : Target} {use : HandlerId}
    (hr : setupRedirection g s t i c use = .ok (some (s', c', ev))) :
    (s.withConn i c₀).registry.Edits (s'.withConn i c').registry i c'.Redirects nothing := by
  obtain ⟨h, -, hkey, htrees⟩ := setupRedirection_trees hr
  have hconns := (setupRedirection_kept hr).conns
  refine edits_of (fun j hj => ?_) fun tree k => ?_
  · have hne : i ≠ j := Ne.symm hj
    simp [hconns, Std.TreeMap.lookup_insert_of_ne hne]
  · rw [withConn_connTree, withConn_connTree, htrees.connTree]
    cases tree <;>
      simp +contextual [Conn.Redirects, State.connTree, nothing, Std.TreeMap.lookup_insert, hkey]

/-- A connection whose entries are taken out has a tree for its pin. -/
theorem Conn.Leaves.releaseTree (h : c.Leaves tree k) : c.releaseTree ≠ none := by
  unfold Conn.releaseTree
  cases tree with
  | ext1 => simp [h.1]
  | ext2 => simp [h.1]
  | int1 => rcases h.1 with hini | hini <;> simp [hini, h.2.1]
  | int2 => rcases h.1 with hini | hini <;> simp [hini, h.2.1]
  | intra1 => rcases h.1 with hini | ⟨hini, hdest⟩ <;> simp [*]
  | intra2 => rcases h.1 with hini | ⟨hini, hdest⟩ <;> simp [*]

/-- `remove_conn` takes out the entries `Conn.Leaves`. -/
theorem Erased.leaves (h : Erased c s s') (tree : ConnTree) (k : ConnKey) :
    (c.Leaves tree k → (s'.connTree tree)[k]? = none) ∧
      (¬c.Leaves tree k → (s'.connTree tree)[k]? = (s.connTree tree)[k]?) := by
  cases h with
  | @ext ek ik hini hek hik =>
    cases hred : c.hih.redirectedIntKey with
    | none =>
      cases tree <;>
        simp +contextual [Conn.Leaves, State.connTree, Std.TreeMap.lookup_erase, hini, hek, hik,
          hred]
    | some k' =>
      cases tree with
      | ext2 =>
        simp only [Conn.Leaves, State.connTree, Std.TreeMap.lookup_erase, hini, hik, hred]
        by_cases h₁ : ik = k <;> by_cases h₂ : k' = k <;> simp [h₁, h₂]
      | _ =>
        simp +contextual [Conn.Leaves, State.connTree, Std.TreeMap.lookup_erase, hini, hek]
  | int hini hdest hek hik =>
    obtain hini | hini := hini <;> cases tree <;>
      simp +contextual [Conn.Leaves, State.connTree, Std.TreeMap.lookup_erase, hini, hdest, hek,
        hik]
  | intra hini hik hk =>
    obtain hini | ⟨hini, hdest⟩ := hini <;> cases tree <;>
      simp +contextual [Conn.Leaves, State.connTree, Std.TreeMap.lookup_erase, *]
  | nothing hnone =>
    exact ⟨fun hl => absurd hnone hl.releaseTree, fun _ => rfl⟩

theorem deregister_trees (h : deregister s c = .ok s') (tree : ConnTree) (k : ConnKey) :
    (c.Leaves tree k → (s'.connTree tree)[k]? = none) ∧
      (¬c.Leaves tree k → (s'.connTree tree)[k]? = (s.connTree tree)[k]?) := by
  obtain ⟨s₁, he, ⟨-, rfl⟩ | ⟨ptree, -, hrel⟩⟩ := deregister_cases h
  · exact he.leaves tree k
  · rw [(releaseConnPin_sameTrees hrel).connTree]
    exact he.leaves tree k

/-- **Removal.** A connection that is removed leaves the trees that `remove_conn` chooses. -/
theorem removeConn_edits (h : removeConn s i = .ok s') :
    ∃ c, s.conns[i]? = some c ∧ s'.conns[i]? = none ∧
      s.registry.Edits s'.registry i nothing c.Leaves := by
  obtain ⟨c, s₁, s₂, hc, hd, hr, rfl⟩ := removeConn_cases h
  have htrees := releaseTargetPin_sameTrees hr
  have hconns := ((deregister_kept hd).trans (releaseTargetPin_kept hr)).conns
  refine ⟨c, hc, by simp, edits_of (fun j hj => ?_) fun tree k => ?_⟩
  · rw [hconns, Std.TreeMap.lookup_erase_of_ne (Ne.symm hj)]
  · have htree : State.connTree { s₂ with conns := s₂.conns.erase i } tree = s₁.connTree tree := by
      rw [← htrees.connTree tree]
      cases tree <;> rfl
    obtain ⟨hout, hkept⟩ := deregister_trees hd tree k
    rw [htree]
    exact ⟨False.elim, fun _ => hout, fun _ => hkept⟩

/-- A new connection is found under no key that it enters in `ext_tree1` or `intra_tree1`: the
lookup of its first packet has failed there. -/
theorem Creates.free {t : Target} {r : TargetSearch} {now : ℤ} (hnone : connLookup s pkt = .ok none)
    (hid : identify s pkt = .ok (some r)) (hvlan : pkt.origin = .ext → pkt.packet.vlan = none)
    (h : Creates g { s with cId := i } i t pkt r now r.origin c s')
    (htree : tree = .ext1 ∨ tree = .intra1) (hk : c.Enters tree k) :
    (s.connTree tree)[k]? = none := by
  obtain ⟨hext, hint⟩ := connLookup_eq_none hnone
  have horig := origin_ext_iff hid
  obtain ⟨hini, -, hstart⟩ := h.start
  generalize hrole : r.origin = role at h hini hstart
  obtain rfl | rfl := htree
  · obtain ⟨hc, hk⟩ := hk
    rw [hini] at hc
    subst hc
    have ho := horig.mpr hrole
    have hkey : newKey pkt 0 = pkt.connKey := newKey_eq (by simp [Frame.vlanId, hvlan ho])
    cases h with
    | ext hfront hpin hc =>
      rw [hc, Option.some.injEq, hkey] at hk
      subst hk
      exact (hext ho).1
  · obtain ⟨hdest, hk⟩ := hk
    cases h with
    | ext hfront hpin hc => simp [hc] at hdest
    | lih hfront hpin hc => simp [hc] at hdest
    | hih hfront hback hpin hc => simp [hc] at hdest
    | hihIntra hback hh hpin hc =>
      have ho : pkt.origin ≠ .ext := fun ho => by simp [horig.mp ho] at hrole
      rw [hc, Option.some.injEq, newKey_eq (vlan_of_backHandler hid hrole hback)] at hk
      subst hk
      exact (hint ho).2.2.1
    | hihLan hback hh hlan hc => simp [hc, hihFresh, Conn.fresh] at hk

/-! ### Steps -/

/-- The frame is one for which `create_conn` is called. -/
def Opens (g : Globals) (s : State μ) (raw : RawPcap) (pkt : Pkt) : Prop :=
  capture s raw = some pkt ∧ ¬(pkt.fragmented ∨ addressed g pkt = false) ∧
    connLookup s pkt = .ok none

/-- Connections in DECISION come from EXT and have not been redirected. -/
def Undecided (s : State μ) : Prop :=
  ∀ (i : ConnId) (c : Conn), s.conns[i]? = some c → c.state = .decision →
    c.initiator = .ext ∧ c.hih.redirectedIntKey = none

/-- One change of the registry, about the connection `i`, during the step that takes `inp` in the
state `s` and leaves the counter at `n`. -/
inductive Change (mods : Modules μ) (g : Globals) (s : State μ) (inp : Input) (n : ℕ) (i : ConnId)
    (r r' : Tables) : Prop
  /-- Work that concerns no key. -/
  | work {c c' : Conn} (hc : r.live i = some c) (hc' : r'.live i = some c') (ha : Alike c c')
      (he : r.Edits r' i nothing nothing)
  /-- The packet creates a connection. -/
  | create {raw : RawPcap} {now : ℤ} {pkt : Pkt} {q : TargetSearch} {t : Target} {c : Conn}
      {s₁ : State μ} (hinp : inp = .packet raw now) (hr : r = s.registry) (hr' : r' = s₁.registry)
      (hopen : Opens g s raw pkt)
      (hsyn : ¬(pkt.packet.protocol = IPPROTO_TCP ∧ pkt.packet.tcp.syn = false))
      (hid : identify s pkt = .ok (some q)) (ht : s.targets[q.target]? = some t)
      (hi : i = s.cId + 1) (hn : i ≤ n)
      (hcr : Creates g { s with cId := s.cId + 1 } i t pkt q now q.origin c s₁)
  /-- The connection of the packet is redirected, for the first time. -/
  | redirect {s₁ s₂ : State μ} {t : Target} {c c' : Conn} {use : HandlerId} {ev : List Event}
      (hc : r.live i = some c) (hc' : r'.live i = some c')
      (hnew : Undecided s → c.initiator = .ext ∧ c.hih.redirectedIntKey = none)
      (hr : setupRedirection g s₁ t i c use = .ok (some (s₂, c', ev)))
      (he : r.Edits r' i c'.Redirects nothing)
  /-- The rules switch the connection of the packet to an INTRA host. -/
  | switch {raw : RawPcap} {now : ℤ} {s₁ : State μ} {pkt : Pkt} {c₀ c : Conn} {d : DecisionHolder}
      {w : Work μ} {ev : List Event} {h : Handler} {k : ConnKey} (hinp : inp = .packet raw now)
      (ha : assign g s raw now = .ok (s₁, some (i, pkt))) (hc₀ : s₁.conns[i]? = some c₀)
      (hsub : c₀.submits g pkt = true)
      (hev : evaluate mods i pkt ⟨s₁, c₀.submitted pkt⟩ = .ok (d, w, ev))
      (hdest : w.conn.destination = .intra) (hother : ∀ j, j ≠ i → r.live j = s.conns[j]?)
      (hkeys : c.intKey = c₀.intKey ∧ c.extKey = c₀.extKey ∧ c.intKey ≠ none)
      (hk : k.dstIp = c.firstPktSrcIp) (hc : r.live i = some c)
      (hc' : r'.live i = some (c.switched h k))
      (he : r.Edits r' i (c.switched h k).Rejoins (c.switched h k).Departs)
  /-- A connection is removed. -/
  | remove {c : Conn} (hc : r.live i = some c) (hc' : r'.live i = none)
      (he : r.Edits r' i nothing c.Leaves)

/-- The changes of a step. -/
abbrev Changes (mods : Modules μ) (g : Globals) (s : State μ) (inp : Input) (n : ℕ) :
    Tables → Tables → Prop :=
  Relation.ReflTransGen fun r r' => ∃ i, Change mods g s inp n i r r'

variable {n : ℕ}

theorem edits_write {c₀ : Conn} :
    (s.withConn i c₀).registry.Edits (s.withConn i c).registry i nothing nothing := by
  refine edits_of (fun j hj => ?_) fun tree k => ?_
  · have hne : i ≠ j := Ne.symm hj
    simp [Std.TreeMap.lookup_insert_of_ne hne]
  · rw [withConn_connTree, withConn_connTree]
    exact ⟨False.elim, fun _ => False.elim, fun _ _ => rfl⟩

/-- Work on a connection is one change. -/
theorem changes_write {c₀ : Conn} (ha : Alike c₀ c) :
    Changes mods g s₁ inp n (s.withConn i c₀).registry (s.withConn i c).registry :=
  .single ⟨i, .work registry_withConn registry_withConn ha edits_write⟩

theorem changes_removeAll {is : List ConnId} (h : removeAll s is = .ok s') :
    Changes mods g s₁ inp n s.registry s'.registry := by
  refine removeAll_induction
    (R := fun s s' : State μ => Changes mods g s₁ inp n s.registry s'.registry)
    (fun _ => .refl) ?_ h
  intro s i s₂ s₃ hr ih
  obtain ⟨c, hc, hc', he⟩ := removeConn_edits hr
  exact .head ⟨i, .remove hc hc' he⟩ ih

/-- Writing a connection that is there already changes nothing. -/
theorem registry_rewrite (hc : s.conns[i]? = some c) : (s.withConn i c).registry = s.registry := by
  have hlive (j : ConnId) : (s.withConn i c).conns[j]? = s.conns[j]? := by
    rw [withConn_conns, Std.TreeMap.lookup_insert]
    split_ifs with hij
    · rw [← hij, hc]
    · rfl
  have htree (tree : ConnTree) : (s.withConn i c).connTree tree = s.connTree tree :=
    withConn_connTree
  simp only [State.registry, hlive, htree]

/-- Rules that leave the connection where it goes leave the registry alone. -/
theorem RuleRun.registry_eq {b : Bool} (h : RuleRun i b w w') (hd : w'.conn.destination ≠ .intra) :
    (w'.st.withConn i w'.conn).registry = (w.st.withConn i w.conn).registry := by
  induction h with
  | refl => rfl
  | tail _ hstep ih =>
    cases hstep with
    | mem m => exact ih hd
    | dns hb ht hs =>
      obtain ⟨ik, ek, k, -, -, rfl, rfl⟩ := switchConnToIntra_cases hs
      exact absurd rfl hd

/-- The rules switch a connection any number of times. -/
theorem RuleRun.changes {raw : RawPcap} {now : ℤ} {c₀ : Conn} {d : DecisionHolder} {w₁ : Work μ}
    (hinp : inp = .packet raw now) (ha : assign g s raw now = .ok (s₁, some (i, pkt)))
    (hc₀ : s₁.conns[i]? = some c₀) (hsub : c₀.submits g pkt = true)
    (hconns : ∀ j : ConnId, j ≠ i → s₁.conns[j]? = s.conns[j]?)
    (hev : evaluate mods i pkt ⟨s₁, c₀.submitted pkt⟩ = .ok (d, w₁, ev))
    (hdest : w₁.conn.destination = .intra) (h : RuleRun i true ⟨s₁, c₀.submitted pkt⟩ w) :
    Changes mods g s inp n (s₁.withConn i (c₀.submitted pkt)).registry
      (w.st.withConn i w.conn).registry := by
  induction h with
  | refl => exact .refl
  | @tail w₂ w₃ hrun hstep ih =>
    cases hstep with
    | mem m => exact ih
    | @dns t e ip s₃ c₃ hb ht hs =>
      have hkeys : w₂.conn.intKey = c₀.intKey ∧ w₂.conn.extKey = c₀.extKey := by
        have hsub : (c₀.submitted pkt).intKey = c₀.intKey ∧
            (c₀.submitted pkt).extKey = c₀.extKey := by
          rw [alike_submitted pkt c₀]
          exact ⟨rfl, rfl⟩
        obtain hc | ⟨h', k', hc⟩ := RuleRun.conn_cases hrun
        · rw [hc]
          exact hsub
        · rw [hc]
          exact hsub
      have hreply := switchConnToIntra_reply hs
      have hedits := switchConnToIntra_edits w₂.conn hs
      obtain ⟨ik, ek, k, hik, -, -, rfl⟩ := switchConnToIntra_cases hs
      refine ih.tail ⟨i,
        .switch (c := w₂.conn) (h := (dnsHandler t ip e).2) (k := k) hinp ha hc₀ hsub
        hev hdest (fun j hj => ?_) ⟨hkeys.1, hkeys.2, ?_⟩ (hreply k rfl) registry_withConn
        registry_withConn hedits⟩
      · change (w₂.st.withConn i w₂.conn).conns[j]? = _
        rw [withConn_conns, Std.TreeMap.lookup_insert_of_ne (Ne.symm hj),
          (RuleRun.framed hrun).conns]
        exact hconns j hj
      · have hik' : w₂.conn.intKey = some ik := hik
        simp [hik']

/-- A frame that creates a connection. -/
theorem assign_opens {raw : RawPcap} {now : ℤ} {pkt₀ : Pkt}
    (ha : assign g s raw now = .ok (s₁, some (i, pkt))) (hcap : capture s raw = some pkt₀)
    (hlook : connLookup s pkt₀ = .ok none) :
    Opens g s raw pkt₀ ∧ ¬(pkt₀.packet.protocol = IPPROTO_TCP ∧ pkt₀.packet.tcp.syn = false) := by
  simp only [assign, hcap] at ha
  split_ifs at ha with hdrop
  · cases ha
  · obtain ⟨⟨s₂, found⟩, hinit, ha⟩ := Except.bind_eq_ok.mp ha
    simp only [initConn, hlook, Except.ok_bind] at hinit
    cases found with
    | none => cases ha
    | some x => exact ⟨⟨hcap, hdrop, hlook⟩, createConn_syn hinit⟩

theorem Attributed.changes {raw : RawPcap} {now : ℤ} (hn : s₁.cId ≤ n)
    (hinp : inp = .packet raw now)
    (ha : assign g s raw now = .ok (s₁, some (i, pkt))) (h : Attributed g s raw now s₁ i pkt c) :
    Changes mods g s inp n s.registry (s₁.withConn i c).registry := by
  cases h with
  | @found pkt₀ c hcap hpkt hlook hc hs =>
    subst hs
    have hwrite : Changes mods g s inp n (s.withConn i c).registry
        (s.withConn i (updateConn c pkt.origin now)).registry := changes_write rfl
    rw [registry_rewrite hc] at hwrite
    rw [registry_rewrite (by simp)]
    exact hwrite
  | created hcap hpkt hlook hid ht hi hcr =>
    have hnew : i ≤ n := by
      rw [hi]
      exact Nat.le_trans (Nat.le_of_eq hcr.frame.2.2.1.symm) hn
    obtain ⟨hopen, hsyn⟩ := assign_opens ha hcap hlook
    rw [registry_rewrite hcr.edits.2]
    exact .single ⟨i, .create hinp rfl rfl hopen hsyn hid ht hi hnew hcr⟩

/-- The tables are changed by what a packet does to its connection. -/
theorem Effect.changes {raw : RawPcap} {now : ℤ} (hinp : inp = .packet raw now)
    (ha : assign g s raw now = .ok (s₁, some (i, pkt))) (hc : s₁.conns[i]? = some c)
    (hconns : ∀ j : ConnId, j ≠ i → s₁.conns[j]? = s.conns[j]?)
    (hnew : Undecided s → c.state = .decision →
      c.initiator = .ext ∧ c.hih.redirectedIntKey = none)
    (h : Effect mods g i pkt ⟨s₁, c⟩ w) :
    Changes mods g s inp n (s₁.withConn i c).registry (w.st.withConn i w.conn).registry := by
  have hsubmit : Changes mods g s inp n (s₁.withConn i c).registry
      (s₁.withConn i (c.submitted pkt)).registry := changes_write (alike_submitted pkt c)
  have hrules {d : DecisionHolder} {w₁ : Work μ} {ev : List Event} (hs : c.submits g pkt = true)
      (he : evaluate mods i pkt ⟨s₁, c.submitted pkt⟩ = .ok (d, w₁, ev)) :
      Changes mods g s inp n (s₁.withConn i c).registry (w₁.st.withConn i w₁.conn).registry := by
    have hrun := evaluate_run he
    by_cases hdest : w₁.conn.destination = .intra
    · exact hsubmit.trans (RuleRun.changes hinp ha hc hs hconns he hdest hrun)
    · rw [RuleRun.registry_eq hrun hdest]
      exact hsubmit
  cases h with
  | same hc' => exact changes_write hc'
  | ruled hs he hc' => exact (hrules hs he).trans (changes_write hc')
  | @redirected d w₁ ev ev' t s₂ c₂ c₃ hs he hdec ht hr hc' =>
    obtain ⟨hw, hdec'⟩ := evaluate_decision he hdec
    have hnew' : Undecided s → w₁.conn.initiator = .ext ∧ w₁.conn.hih.redirectedIntKey = none := by
      rw [hw, alike_submitted pkt c]
      exact fun hs => hnew hs hdec'
    exact ((hrules hs he).tail ⟨i, .redirect registry_withConn registry_withConn hnew' hr
      (setupRedirection_edits hr)⟩).trans (changes_write hc')

theorem Effect.cId (h : Effect mods g i pkt w w') : w'.st.cId = w.st.cId := by
  cases h with
  | same hc => rfl
  | ruled hs he hc => exact (evaluate_run he).framed.cId
  | redirected hs he hdec ht hr hc =>
    exact (setupRedirection_kept hr).cId.trans (evaluate_run he).framed.cId

theorem Attributed.undecided {raw : RawPcap} {now : ℤ} (h : Attributed g s raw now s₁ i pkt c)
    (hu : Undecided s) (hs : c.state = .decision) :
    c.initiator = .ext ∧ c.hih.redirectedIntKey = none := by
  cases h with
  | @found pkt₀ c hcap hpkt hlook hc hs₁ => exact hu i c hc hs
  | created hcap hpkt hlook hid ht hi hcr =>
    obtain ⟨-, -, ⟨-, h, -⟩ | ⟨-, h, -⟩ | ⟨-, h, -⟩⟩ := hcr.start <;> simp [h] at hs

/-- **Steps.** Every step is a sequence of changes of the registry. -/
theorem step_changes {out : List Event} (hstep : step mods g s inp = .ok (s', out)) :
    s.cId ≤ s'.cId ∧ Changes mods g s inp s'.cId s.registry s'.registry := by
  obtain ⟨is, hrem⟩ | hcnt | ⟨raw, now, s₁, i, pkt, c, w, hinp, ha, hatt, heff, rfl⟩ :=
    step_effect hstep
  · exact ⟨(removeAll_quiet hrem).cId, changes_removeAll hrem⟩
  · obtain rfl | rfl := hcnt
    · exact ⟨Nat.le_refl _, .refl⟩
    · exact ⟨Nat.le_succ _, .refl⟩
  · obtain ⟨-, -, hle, hconns⟩ := hatt.frame
    have hc : s₁.conns[i]? = some c := by simp [hconns]
    have hother (j : ConnId) (hj : j ≠ i) : s₁.conns[j]? = s.conns[j]? := by
      rw [hconns, Std.TreeMap.lookup_insert_of_ne (Ne.symm hj)]
    have hcid : (w.st.withConn i w.conn).cId = s₁.cId := heff.cId
    refine ⟨Nat.le_trans hle (Nat.le_of_eq hcid.symm), ?_⟩
    exact (hatt.changes (Nat.le_of_eq hcid.symm) hinp ha).trans
      (heff.changes hinp ha hc hother hatt.undecided)

/-! ### Runs -/

/-- The key of a packet like the first one of the connection, without a VLAN. -/
def Conn.openKey (c : Conn) : ConnKey where
  protocol := c.protocol
  srcIp := c.firstPktSrcIp
  srcPort := c.firstPktSrcPort
  dstIp := c.firstPktDstIp
  dstPort := c.firstPktDstPort

/-- What is known of the parties and the keys of a connection. -/
structure Conn.Formed (c : Conn) : Prop where
  role : c.initiator = .ext ∨ c.initiator = .lih ∨ c.initiator = .hih
  outward : c.initiator ≠ .ext →
    c.destination = .ext ∧ c.extKey ≠ none ∨ c.destination = .intra
  opening : c.initiator = .ext → c.extKey = some c.openKey
  inner : c.initiator = .ext → ∀ k, c.intKey = some k ∨ c.hih.redirectedIntKey = some k →
    k.dstIp = c.firstPktSrcIp
  outer : c.initiator ≠ .ext → ∀ k, c.extKey = some k → k.srcIp = c.firstPktDstIp
  inside : c.initiator ≠ .ext → ∀ k, c.intKey = some k → k.dstIp = c.firstPktDstIp

/-- The registry of a run whose counter stands at `n`: numbers up to `n` are in use, and an entry
that leads to a live connection is one of its own. -/
structure Registered (r : Tables) (n : ℕ) : Prop where
  live : ∀ i c, r.live i = some c → i ≤ n
  within : r.Within (· ≤ n)
  formed : ∀ i c, r.live i = some c → c.Formed
  belongs : r.Belongs Conn.Listed

theorem Alike.formed (h : Alike c c') (hc : c.Formed) : c'.Formed := by
  rw [h]
  exact ⟨hc.role, hc.outward, hc.opening, hc.inner, hc.outer, hc.inside⟩

theorem Alike.listed (h : Alike c c') (hc : Conn.Listed tree k c) : Conn.Listed tree k c' := by
  rw [h]
  cases tree <;> exact hc

theorem Creates.formed {t : Target} {r : TargetSearch} {role : Role} {now : ℤ}
    (h : Creates g s i t pkt r now role c s') : c.Formed := by
  cases h with
  | ext hfront hpin hc =>
    refine ⟨?_, ?_, ?_, ?_, ?_, ?_⟩ <;> simp [hc, Conn.fresh, Conn.openKey, newKey, dnatReplyKey]
  | lih hfront hpin hc =>
    obtain ⟨-, rfl, -⟩ | ⟨p, -, -, rfl⟩ := acquireSnat_cases hpin <;>
      refine ⟨?_, ?_, ?_, ?_, ?_, ?_⟩ <;> simp [hc, Conn.fresh, newKey, snatReplyKey]
  | hih hfront hback hpin hc =>
    obtain ⟨-, rfl, -⟩ | ⟨p, -, -, rfl⟩ := acquireSnat_cases hpin <;>
      refine ⟨?_, ?_, ?_, ?_, ?_, ?_⟩ <;> simp [hc, hihFresh, Conn.fresh, newKey, snatReplyKey]
  | hihIntra hback hh hpin hc =>
    obtain ⟨-, rfl⟩ | ⟨pk, p, ip, -, rfl⟩ := acquireIntra_cases hpin <;>
      refine ⟨?_, ?_, ?_, ?_, ?_, ?_⟩ <;> simp [hc, hihFresh, Conn.fresh, newKey]
  | hihLan hback hh hlan hc =>
    refine ⟨?_, ?_, ?_, ?_, ?_, ?_⟩ <;> simp [hc, hihFresh, Conn.fresh]

/-- The keys a new connection enters are keys of its own. -/
theorem Creates.listed {t : Target} {r : TargetSearch} {role : Role} {now : ℤ}
    (h : Creates g s i t pkt r now role c s') (hk : c.Enters tree k) : Conn.Listed tree k c := by
  cases tree with
  | intra2 =>
    obtain ⟨hdest, hk⟩ := hk
    refine ⟨hdest, ?_⟩
    cases h with
    | hihIntra hback hh hpin hc =>
      subst hc
      cases hk
      obtain ⟨-, rfl⟩ | ⟨pk, p, ip, -, rfl⟩ := acquireIntra_cases hpin
      · rfl
      · rfl
    | ext hfront hpin hc => simp [hc] at hdest
    | lih hfront hpin hc => simp [hc] at hdest
    | hih hfront hback hpin hc => simp [hc] at hdest
    | hihLan hback hh hlan hc => simp [hc, hihFresh, Conn.fresh] at hk
  | _ => exact hk

variable {r r' : Tables}

theorem Registered.edit {add del : ConnTree → ConnKey → Prop} (hr : Registered r n)
    (he : r.Edits r' i add del) (hi : i ≤ n)
    (hc : ∀ c, r'.live i = some c → c.Formed ∧ (∀ tree k, add tree k → Conn.Listed tree k c) ∧
      ∀ tree k, r.entry tree k = some i → ¬del tree k → Conn.Listed tree k c) :
    Registered r' n := by
  refine ⟨fun j d hd => ?_, he.within hr.within (fun _ => id) hi, fun j d hd => ?_,
    he.belongs hr.belongs (fun c tree k hc' => (hc c hc').2.1 tree k)
      fun c tree k hc' => (hc c hc').2.2 tree k⟩
  · by_cases hj : j = i
    · rw [hj]
      exact hi
    · rw [he.live j hj] at hd
      exact hr.live j d hd
  · by_cases hj : j = i
    · subst hj
      exact (hc d hd).1
    · rw [he.live j hj] at hd
      exact hr.formed j d hd

/-- The connection a redirection leaves has the new key besides those it had. -/
theorem redirected_listed {t : Target} {use : HandlerId} (hini : c.initiator = .ext)
    (hnew : c.hih.redirectedIntKey = none) (hf : c.Formed)
    (hr : setupRedirection g s t i c use = .ok (some (s', c', ev))) :
    c'.Formed ∧ (∀ tree k, c'.Redirects tree k → Conn.Listed tree k c') ∧
      ∀ tree k, Conn.Listed tree k c → Conn.Listed tree k c' := by
  obtain ⟨h, key, rid, ed, -, -, rfl⟩ := setupRedirection_conn hr
  refine ⟨⟨hf.role, hf.outward, hf.opening, fun _ k hk => ?_, hf.outer, hf.inside⟩,
    fun tree k hk => ?_, fun tree k hk => ?_⟩
  · obtain hk | hk := hk
    · exact hf.inner hini k (.inl hk)
    · cases hk
      rfl
  · obtain ⟨rfl, hk⟩ := hk
    exact ⟨hini, .inr hk⟩
  · cases tree with
    | ext2 =>
      obtain ⟨-, hk | hk⟩ := hk
      · exact ⟨hini, .inl hk⟩
      · rw [hnew] at hk
        cases hk
    | _ => exact hk

/-- A switched connection has the new keys, and those it had outside the trees of connections to
EXT. -/
theorem switched_listed {h : Handler} {k₀ : ConnKey} (hf : c.Formed)
    (hk₀ : k₀.dstIp = c.firstPktSrcIp) :
    (c.switched h k₀).Formed ∧
      (∀ tree k, (c.switched h k₀).Rejoins tree k → Conn.Listed tree k (c.switched h k₀)) ∧
      ∀ tree k, Conn.Listed tree k c → ¬(c.switched h k₀).Departs tree k →
        Conn.Listed tree k (c.switched h k₀) := by
  refine ⟨⟨hf.role, fun _ => .inr rfl, hf.opening, hf.inner, hf.outer, hf.inside⟩,
    fun tree k hk => ?_, fun tree k hk hd => ?_⟩
  · cases tree with
    | intra1 => exact ⟨rfl, hk⟩
    | intra2 =>
      cases hk
      exact ⟨rfl, hk₀⟩
    | _ => exact hk.elim
  · cases tree with
    | ext1 => exact hk
    | ext2 => exact hk
    | int1 => exact absurd hk.2.2 hd
    | int2 => exact absurd hk.2.2 hd
    | intra1 => exact ⟨rfl, hk.2⟩
    | intra2 => exact ⟨rfl, hk.2⟩

theorem Change.registered (hs : Registered s.registry s.cId) (hu : Undecided s)
    (hr : Registered r n) (h : Change mods g s inp n i r r') : Registered r' n := by
  cases h with
  | work hc hc' ha he =>
    refine hr.edit he (hr.live i _ hc) fun d hd => ?_
    obtain rfl := Option.some.inj (hc'.symm.trans hd)
    exact ⟨ha.formed (hr.formed i _ hc), fun _ _ => False.elim,
      fun tree k hk _ => ha.listed (hr.belongs tree k i _ hk hc)⟩
  | create hinp hrs hrs' hopen hsyn hid ht hi hn hcr =>
    subst hrs hrs'
    obtain ⟨he, hc⟩ := hcr.edits
    refine hr.edit (he : s.registry.Edits _ i _ _) hn fun d hd => ?_
    obtain rfl := Option.some.inj (hc.symm.trans hd)
    refine ⟨hcr.formed, fun _ _ => hcr.listed, fun tree k hk _ => ?_⟩
    -- the number of a new connection is in no tree
    have hle := hs.within tree k i hk
    rw [hi] at hle
    exact absurd hle (Nat.not_succ_le_self _)
  | redirect hc hc' hnew hset he =>
    obtain ⟨hini, hred⟩ := hnew hu
    obtain ⟨hf, hadd, hold⟩ := redirected_listed hini hred (hr.formed i _ hc) hset
    refine hr.edit he (hr.live i _ hc) fun d hd => ?_
    obtain rfl := Option.some.inj (hc'.symm.trans hd)
    exact ⟨hf, hadd, fun tree k hk _ => hold tree k (hr.belongs tree k i _ hk hc)⟩
  | switch hinp ha hc₀ hsub hev hdest hother hkeys hk hc hc' he =>
    obtain ⟨hf, hadd, hold⟩ := switched_listed (hr.formed i _ hc) hk
    refine hr.edit he (hr.live i _ hc) fun d hd => ?_
    obtain rfl := Option.some.inj (hc'.symm.trans hd)
    exact ⟨hf, hadd, fun tree k hk => hold tree k (hr.belongs tree k i _ hk hc)⟩
  | remove hc hc' he =>
    refine hr.edit he (hr.live i _ hc) fun d hd => ?_
    rw [hc'] at hd
    cases hd

theorem Registered.mono {m : ℕ} (hr : Registered r n) (hle : n ≤ m) : Registered r m :=
  ⟨fun i c hc => Nat.le_trans (hr.live i c hc) hle,
    fun tree k i hk => Nat.le_trans (hr.within tree k i hk) hle, hr.formed, hr.belongs⟩

/-- What every change keeps, a sequence of changes keeps. -/
theorem Changes.keeps {Q : Tables → Prop} (hs : Registered s.registry s.cId) (hu : Undecided s)
    (hQ : ∀ i r r', Registered r n → Q r → Change mods g s inp n i r r' → Q r')
    (h : Changes mods g s inp n r r') (hr : Registered r n) (hq : Q r) :
    Registered r' n ∧ Q r' := by
  induction h with
  | refl => exact ⟨hr, hq⟩
  | tail _ hchange ih =>
    obtain ⟨i, hchange⟩ := hchange
    exact ⟨hchange.registered hs hu ih.1, hQ i _ _ ih.1 ih.2 hchange⟩

section Runs

variable {targets : Std.TreeMap TargetId Target intcmp} {ifTarget : Std.TreeMap IfaceId TargetId}
  {mem : μ} {ok : State μ → Input → Prop}

theorem undecided (hrun : Machine.Run (step mods g) ok (boot targets ifTarget mem) tr s) :
    Undecided s := by
  intro i c hc hs
  obtain ⟨honce, hini⟩ := redirected_once hrun hc
  rw [Conn.Once, hs, if_neg (by simp [ConnStatus.redirected])] at honce
  exact ⟨hini hs, honce.1⟩

/-- The registry before the first packet is empty. -/
theorem boot_entry (tree : ConnTree) (k : ConnKey) :
    (boot targets ifTarget mem).registry.entry tree k = none := by
  cases tree <;> rfl

/-- **The registry of a run.** In every run, an entry that leads to a live connection is one of its
own, and no number above the counter is in use. -/
theorem registered (hrun : Machine.Run (step mods g) ok (boot targets ifTarget mem) tr s) :
    Registered s.registry s.cId := by
  induction hrun with
  | start =>
    refine ⟨?_, fun tree k i hk => ?_, ?_, fun tree k i c hk => ?_⟩
    · simp [State.registry, boot]
    · simp [boot_entry] at hk
    · simp [State.registry, boot]
    · simp [boot_entry] at hk
  | snoc hrun hok hstep hr =>
    obtain ⟨hle, hchanges⟩ := step_changes hstep
    exact (Changes.keeps (Q := fun _ => True) hr (undecided hrun) (fun _ _ _ _ _ _ => trivial)
      hchanges (hr.mono hle) trivial).1

/-- **Invariants of the registry.** A property of the registry that every change keeps holds in
every run. -/
theorem registryInvariant {Q : Tables → Prop} (hboot : Q (boot targets ifTarget mem).registry)
    (hQ : ∀ {s : State μ} {inp : Input} {n : ℕ} {i : ConnId} {r r' : Tables}, ok s inp →
      Registered r n → Q r → Change mods g s inp n i r r' → Q r')
    (hrun : Machine.Run (step mods g) ok (boot targets ifTarget mem) tr s) : Q s.registry := by
  induction hrun with
  | start => exact hboot
  | snoc hrun hok hstep hq =>
    obtain ⟨hle, hchanges⟩ := step_changes hstep
    have hr := registered hrun
    exact (Changes.keeps hr (undecided hrun) (fun _ _ _ => hQ hok) hchanges (hr.mono hle) hq).2

end Runs

end Honeybrid
