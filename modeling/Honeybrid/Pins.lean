import Honeybrid.Tables

/-!
# Reference counts of the pins

A pin reserves an address for the connections that have acquired it, and its count says how many
they are. A connection from EXT takes a pin of `comm_pin_tree`, and one of `target_pin_tree` when it
is redirected to an exclusive backend; a connection of a honeypot takes the pin its source address
is translated by, or the one of an exclusive INTRA host. `remove_conn` gives them back, but it
derives the tree of `pin_key` from the initiator and the destination the connection has by then, it
removes the last reference to a target pin under `pin_key`, and it frees the key of an INTRA pin
with the connection that made it.

This file shows that the counts are right as long as no removal runs into these three slips, in
every order of creations, redirections, switches, work and removals.

## Main definitions

* `Conn.holds`: a connection has acquired a pin.
* `State.refs`, `State.holders`: the count of a pin and the number of connections that hold it.
* `GivesBack`: a removal that looks for the pins where they were taken from, and is not the one of
  the connection that made an INTRA pin.
* `operatePins`: the operations on the tables, with the key that an INTRA pin has in common with a
  connection.

## Main results

* `Operates.counted`: operations that give back what was taken keep the counts right.
* `Made.step`: they do not free the key of an INTRA pin.
* `pins_counted`: the theorem.
* `pins_counted_broken`: the pin of an exclusive backend that outlives its last holder.
-/

namespace Honeybrid

variable {μ : Type} {g : Globals} {s s' : State μ} {i : ConnId} {c c' : Conn} {op : Op}
  {tree tree' : PinTree} {k k' : PinKey} {tr : List Event}
  {targets : Std.TreeMap TargetId Target intcmp} {ifTarget : Std.TreeMap IfaceId TargetId} {mem : μ}

/-! ### Holders -/

/-- The tree from which a connection has taken the pin under `pin_key`: the one it points into, or,
for a connection from EXT, which keeps no pointer, that of the front handlers. -/
def Conn.pinOrigin (c : Conn) : PinTree :=
  match c.pinIp with
  | some p => p.tree
  | none => .comm

/-- The connection has acquired the pin `k` of a tree. -/
def Conn.holds (tree : PinTree) (k : PinKey) (c : Conn) : Bool :=
  (c.pinKey = some k ∧ c.pinOrigin = tree) ∨ (c.hih.targetPinKey = some k ∧ tree = .target)

/-- The count of a pin, and zero when there is none. -/
def State.refs (s : State μ) (tree : PinTree) (k : PinKey) : ℕ :=
  ((s.pinTree tree)[k]?.map Pin.count).getD 0

/-- The number of live connections that have acquired a pin. -/
def State.holders (s : State μ) (tree : PinTree) (k : PinKey) : ℕ :=
  s.conns.countVal (Conn.holds tree k)

/-- A live connection with a number below `i` holds the pin. -/
def State.heldBefore (s : State μ) (i : ConnId) (tree : PinTree) (k : PinKey) : Bool :=
  s.conns.toList.any fun e => e.1 < i ∧ e.2.holds tree k

/-- A removal that gives the pins back where they were taken: `pin_key` is looked for in its own
tree, the last reference to a target pin is removed under its own key, and an older connection holds
the pin of an INTRA host as well. -/
def GivesBack (s : State μ) : Op → Prop
  | .remove i => ∀ c ∈ s.conns[i]?,
      (c.pinKey = none ∨ c.releaseTree = some c.pinOrigin) ∧
      (∀ k ∈ c.hih.targetPinKey, c.pinKey = some k ∨ 1 < s.refs .target k) ∧
      (∀ k ∈ c.pinKey, c.pinOrigin = .intra → s.heldBefore i .intra k = true)
  | _ => True

instance : DecidablePred (GivesBack s)
  | .remove i => inferInstanceAs (Decidable (∀ c ∈ s.conns[i]?,
      (c.pinKey = none ∨ c.releaseTree = some c.pinOrigin) ∧
      (∀ k ∈ c.hih.targetPinKey, c.pinKey = some k ∨ 1 < s.refs .target k) ∧
      (∀ k ∈ c.pinKey, c.pinOrigin = .intra → s.heldBefore i .intra k = true)))
  | .create _ _ | .work _ _ | .redirect _ _ | .switch _ _ => .isTrue trivial

/-- A pin that is present has not been freed. -/
def State.Live (s : State μ) : Prop :=
  ∀ (tree : PinTree) (k : PinKey) (p : Pin), (s.pinTree tree)[k]? = some p → 0 < p.count

/-- Which pins a connection can hold: one from EXT takes `pin_key` in the tree of the front
handlers, and only one from EXT, once it is redirected, holds a target pin as well. -/
structure Conn.Pinning (c : Conn) : Prop where
  ext : c.initiator = .ext → c.pinIp = none
  other : c.initiator ≠ .ext → c.hih.targetPinKey = none
  once : c.hih.redirectedIntKey = none → c.hih.targetPinKey = none

/-- The invariant. -/
structure Counted (s : State μ) : Prop where
  counts : ∀ tree k, s.refs tree k = s.holders tree k
  live : s.Live
  pinning : ∀ (i : ConnId) (c : Conn), s.conns[i]? = some c → c.Pinning

theorem counted_boot : Counted (boot targets ifTarget mem) := by
  refine ⟨fun tree k => ?_, fun tree k p hp => ?_, fun i c hc => ?_⟩
  · cases tree <;> simp [State.refs, State.holders, State.pinTree, boot]
  · cases tree <;> simp [State.pinTree, boot] at hp
  · simp [boot] at hc

/-- A connection holds a pin in at most one of the two ways. -/
theorem Conn.Pinning.holds_eq (h : c.Pinning) :
    (if c.holds tree k then 1 else 0) = (if c.pinKey = some k ∧ c.pinOrigin = tree then 1 else 0) +
      if c.hih.targetPinKey = some k ∧ tree = .target then 1 else 0 := by
  by_cases htar : c.hih.targetPinKey = some k ∧ tree = .target
  · obtain ⟨hkey, rfl⟩ := htar
    have hini : c.initiator = .ext := by
      by_contra hne
      rw [h.other hne] at hkey
      cases hkey
    simp [Conn.holds, hkey, Conn.pinOrigin, h.ext hini]
  · simp [Conn.holds, htar]

/-! ### References -/

theorem refs_congr (h : ∀ tree, s'.pinTree tree = s.pinTree tree) :
    s'.refs tree k = s.refs tree k := by
  rw [State.refs, h, State.refs]

theorem State.Live.congr (hl : s.Live) (h : ∀ tree, s'.pinTree tree = s.pinTree tree) : s'.Live :=
  fun tree k p hp => hl tree k p (h tree ▸ hp)

theorem State.Live.refs_pos (hl : s.Live) :
    0 < s.refs tree k ↔ ((s.pinTree tree)[k]?).isSome := by
  cases hp : (s.pinTree tree)[k]? with
  | none => simp [State.refs, hp]
  | some p => simp [State.refs, hp, hl tree k p hp]

theorem lookup_setPin {p : Pin} : ((setPin s tree k p).pinTree tree')[k']? =
    if tree = tree' ∧ k = k' then some p else (s.pinTree tree')[k']? := by
  rw [pinTree_setPin]
  by_cases ht : tree = tree'
  · subst ht
    simp [Std.TreeMap.lookup_insert]
  · simp [ht]

theorem lookup_dropPin : ((s.setPinTree ((s.pinTree tree).erase k) tree).pinTree tree')[k']? =
    if tree = tree' ∧ k = k' then none else (s.pinTree tree')[k']? := by
  have hset : (s.setPinTree ((s.pinTree tree).erase k) tree).pinTree tree' =
      if tree = tree' then (s.pinTree tree).erase k else s.pinTree tree' := by
    cases tree <;> cases tree' <;> rfl
  rw [hset]
  by_cases ht : tree = tree'
  · subst ht
    simp [Std.TreeMap.lookup_erase]
  · simp [ht]

/-- A pin that is taken counts one more, and no other count changes. -/
theorem Takes.refs {p : Pin} (h : Takes s tree k p s') :
    s'.refs tree' k' = s.refs tree' k' + if tree = tree' ∧ k = k' then 1 else 0 := by
  obtain ⟨rfl, hp⟩ := h
  rw [State.refs, lookup_setPin]
  split_ifs with heq
  · obtain ⟨rfl, rfl⟩ := heq
    obtain ⟨hnone, hcount⟩ | ⟨q, hq, -, rfl⟩ := hp
    · simp [State.refs, hnone, hcount]
    · simp [State.refs, hq]
  · rfl

theorem Takes.live {p : Pin} (h : Takes s tree k p s') (hl : s.Live) : s'.Live := by
  obtain ⟨rfl, hp⟩ := h
  intro tree' k' p' hp'
  rw [lookup_setPin] at hp'
  split_ifs at hp' with heq
  · cases hp'
    obtain ⟨-, hcount⟩ | ⟨q, -, -, rfl⟩ := hp
    · omega
    · exact Nat.succ_pos _
  · exact hl tree' k' p' hp'

/-- `s'` is `s` with one reference less to a pin, which is gone when it was the last one. -/
structure Gives (s : State μ) (tree : PinTree) (k : PinKey) (s' : State μ) : Prop where
  refs : ∀ tree' k', s.refs tree' k' = s'.refs tree' k' + if tree = tree' ∧ k = k' then 1 else 0
  live : s.Live → s'.Live

/-- **Giving back.** A reference is given back properly if the entry that `remove_conn` removes with
the last reference is that of the pin. -/
theorem releasePin_gives (h : releasePin s tree k k' = .ok s') (hpos : 0 < s.refs tree k)
    (hlast : k' = k ∨ 1 < s.refs tree k) : Gives s tree k s' := by
  obtain ⟨hnone, -⟩ | ⟨p, s₁, hp, hcount, rfl, hcases⟩ := releasePin_cases h
  · simp [State.refs, hnone] at hpos
  · have hrefs : s.refs tree k = p.count := by simp [State.refs, hp]
    rw [hrefs] at hlast
    obtain ⟨hzero, rfl⟩ | ⟨hzero, rfl⟩ := hcases
    · obtain rfl : k' = k := hlast.resolve_right (by omega)
      refine ⟨fun tree₁ k₁ => ?_, fun hl tree₁ k₁ q hq => ?_⟩
      · rw [State.refs, State.refs, lookup_dropPin, lookup_setPin]
        split_ifs with heq
        · obtain ⟨rfl, rfl⟩ := heq
          simp only [hp, Option.map_some, Option.getD_some, Option.map_none, Option.getD_none]
          omega
        · rfl
      · rw [lookup_dropPin, lookup_setPin] at hq
        split_ifs at hq with heq
        exact hl tree₁ k₁ q hq
    · refine ⟨fun tree₁ k₁ => ?_, fun hl tree₁ k₁ q hq => ?_⟩
      · rw [State.refs, State.refs, lookup_setPin]
        split_ifs with heq
        · obtain ⟨rfl, rfl⟩ := heq
          simp only [hp, Option.map_some, Option.getD_some]
          omega
        · rfl
      · rw [lookup_setPin] at hq
        split_ifs at hq with heq
        · cases hq
          exact Nat.pos_of_ne_zero hzero
        · exact hl tree₁ k₁ q hq

/-! ### The invariant -/

/-- A pin is there if it is held. -/
theorem Counted.isSome_iff (h : Counted s) : ((s.pinTree tree)[k]?).isSome ↔
    ∃ (i : ConnId) (c : Conn), s.conns[i]? = some c ∧ c.holds tree k = true := by
  rw [← h.live.refs_pos, h.counts, State.holders, Std.TreeMap.countVal_pos]

/-- A connection of the table counts among the holders. -/
theorem Counted.refs_pos (h : Counted s) (hc : s.conns[i]? = some c) (hh : c.holds tree k = true) :
    0 < s.refs tree k := by
  rw [h.counts]
  exact Std.TreeMap.countVal_pos.mpr ⟨i, c, hc, hh⟩

/-- A new connection takes the pins it holds. -/
theorem Counted.enter (h : Counted s) (hnew : s.conns[i]? = none)
    (hconns : s'.conns = s.conns.insert i c) (hlive : s'.Live) (hpin : c.Pinning)
    (hrefs : ∀ tree k, s'.refs tree k = s.refs tree k + if c.holds tree k then 1 else 0) :
    Counted s' := by
  refine ⟨fun tree k => ?_, hlive, fun j d hj => ?_⟩
  · rw [hrefs, h.counts, State.holders, State.holders, hconns,
      Std.TreeMap.countVal_insert_of_none hnew]
  · rw [hconns, Std.TreeMap.lookup_insert] at hj
    split_ifs at hj
    · cases hj
      exact hpin
    · exact h.pinning j d hj

/-- A connection takes further pins. -/
theorem Counted.update (h : Counted s) (hc : s.conns[i]? = some c)
    (hconns : s'.conns = s.conns.insert i c') (hlive : s'.Live) (hpin : c'.Pinning)
    (hrefs : ∀ tree k, s'.refs tree k + (if c.holds tree k then 1 else 0) =
      s.refs tree k + if c'.holds tree k then 1 else 0) : Counted s' := by
  refine ⟨fun tree k => ?_, hlive, fun j d hj => ?_⟩
  · have hcount := h.counts tree k
    have hr := hrefs tree k
    rw [State.holders, Std.TreeMap.countVal_eq_erase_add hc] at hcount
    rw [State.holders, hconns, Std.TreeMap.countVal_insert]
    omega
  · rw [hconns, Std.TreeMap.lookup_insert] at hj
    split_ifs at hj
    · cases hj
      exact hpin
    · exact h.pinning j d hj

/-- Work that concerns no pins. -/
theorem Counted.same (h : Counted s) (hc : s.conns[i]? = some c)
    (hconns : s'.conns = s.conns.insert i c') (hpins : ∀ tree, s'.pinTree tree = s.pinTree tree)
    (hp : c.Pinning → c'.Pinning) (hh : ∀ tree k, c'.holds tree k = c.holds tree k) :
    Counted s' := by
  refine h.update hc hconns (h.live.congr hpins) (hp (h.pinning i c hc)) fun tree k => ?_
  rw [refs_congr hpins, hh]

/-- A connection that is removed has given back the pins it held. -/
theorem Counted.leave (h : Counted s) (hc : s.conns[i]? = some c)
    (hconns : s'.conns = s.conns.erase i) (hlive : s'.Live)
    (hrefs : ∀ tree k, s.refs tree k = s'.refs tree k + if c.holds tree k then 1 else 0) :
    Counted s' := by
  refine ⟨fun tree k => ?_, hlive, fun j d hj => ?_⟩
  · have hcount := h.counts tree k
    have hr := hrefs tree k
    rw [State.holders, Std.TreeMap.countVal_eq_erase_add hc] at hcount
    rw [State.holders, hconns]
    omega
  · rw [hconns, Std.TreeMap.lookup_erase] at hj
    split_ifs at hj
    exact h.pinning j d hj

/-- The pins of `s'` are those of `s` with the references of the new connection `c`. -/
structure Acquires (s : State μ) (c : Conn) (s' : State μ) : Prop where
  live : s.Live → s'.Live
  refs : ∀ tree k, s'.refs tree k = s.refs tree k + if c.holds tree k then 1 else 0

theorem acquires_none (hs : ∀ tree, s'.pinTree tree = s.pinTree tree) (hkey : c.pinKey = none)
    (htar : c.hih.targetPinKey = none) : Acquires s c s' := by
  refine ⟨fun hl => hl.congr hs, fun tree k => ?_⟩
  rw [refs_congr hs]
  simp [Conn.holds, hkey, htar]

theorem Takes.acquires {s₁ s₂ : State μ} {p : Pin} (h : Takes s₁ tree k p s₂)
    (hs : ∀ tree, s₁.pinTree tree = s.pinTree tree)
    (hs' : ∀ tree, s'.pinTree tree = s₂.pinTree tree)
    (hkey : c.pinKey = some k) (horigin : c.pinOrigin = tree) (htar : c.hih.targetPinKey = none) :
    Acquires s c s' := by
  refine ⟨fun hl => (h.live (hl.congr hs)).congr hs', fun tree' k' => ?_⟩
  rw [refs_congr hs', h.refs, refs_congr hs]
  simp only [Conn.holds, hkey, horigin, htar, Option.some.injEq, reduceCtorEq, false_and, or_false,
    decide_eq_true_eq]
  simp only [and_comm]

/-- A new connection holds no target pin, and a new connection from EXT no pointer to its pin. -/
theorem Creates.pinning {t : Target} {pkt : Pkt} {r : TargetSearch} {now : ℤ} {role : Role}
    (h : Creates g s i t pkt r now role c s') : c.Pinning := by
  cases h with
  | ext hfront hpin hc =>
    subst hc
    exact ⟨fun _ => rfl, fun _ => rfl, fun _ => rfl⟩
  | lih hfront hpin hc =>
    subst hc
    obtain ⟨-, rfl, -⟩ | ⟨p, -, -, rfl⟩ := acquireSnat_cases hpin
    · exact ⟨fun _ => rfl, fun _ => rfl, fun _ => rfl⟩
    · exact ⟨fun h => absurd h (by simp [Conn.fresh]), fun _ => rfl, fun _ => rfl⟩
  | hih hfront hback hpin hc =>
    subst hc
    obtain ⟨-, rfl, -⟩ | ⟨p, -, -, rfl⟩ := acquireSnat_cases hpin
    · exact ⟨fun _ => rfl, fun _ => rfl, fun _ => rfl⟩
    · exact ⟨fun h => absurd h (by simp [hihFresh, Conn.fresh]), fun _ => rfl, fun _ => rfl⟩
  | hihIntra hback hh hpin hc =>
    subst hc
    obtain ⟨-, rfl⟩ | ⟨k, p, ip, -, rfl⟩ := acquireIntra_cases hpin
    · exact ⟨fun _ => rfl, fun _ => rfl, fun _ => rfl⟩
    · exact ⟨fun h => absurd h (by simp [hihFresh, Conn.fresh]), fun _ => rfl, fun _ => rfl⟩
  | hihLan hback hh hlan hc =>
    subst hc
    exact ⟨fun _ => rfl, fun _ => rfl, fun _ => rfl⟩

/-- A new connection takes the pins it holds. -/
theorem Creates.acquires {t : Target} {pkt : Pkt} {r : TargetSearch} {now : ℤ} {role : Role}
    (h : Creates g s i t pkt r now role c s') : Acquires s c s' := by
  cases h with
  | ext hfront hpin hc =>
    subst hc
    exact hpin.acquires (fun _ => by simp) (fun _ => by simp) rfl rfl rfl
  | lih hfront hpin hc =>
    subst hc
    obtain ⟨rfl, rfl, -⟩ | ⟨p, htake, -, rfl⟩ := acquireSnat_cases hpin
    · exact acquires_none (fun _ => by simp) rfl rfl
    · exact htake.acquires (fun _ => rfl) (fun _ => by simp) rfl rfl rfl
  | hih hfront hback hpin hc =>
    subst hc
    obtain ⟨rfl, rfl, -⟩ | ⟨p, htake, -, rfl⟩ := acquireSnat_cases hpin
    · exact acquires_none (fun _ => by simp) rfl rfl
    · exact htake.acquires (fun _ => rfl) (fun _ => by simp) rfl rfl rfl
  | hihIntra hback hh hpin hc =>
    subst hc
    obtain ⟨rfl, rfl⟩ | ⟨k, p, ip, htake, rfl⟩ := acquireIntra_cases hpin
    · exact acquires_none (fun _ => by simp) rfl rfl
    · exact htake.acquires (fun _ => rfl) (fun _ => by simp) rfl rfl rfl
  | hihLan hback hh hlan hc =>
    subst hc
    exact acquires_none (fun _ => by simp) rfl rfl

/-- A redirection with exclusive backends takes the pin of the backend. -/
theorem setupRedirection_pins {t : Target} {use : HandlerId} {ev : List Event}
    (hini : c.initiator = .ext) (hp : c.Pinning) (hnew : c.hih.redirectedIntKey = none)
    (hr : setupRedirection g s t i c use = .ok (some (s', c', ev))) :
    c'.Pinning ∧ (s.Live → s'.Live) ∧ ∀ tree k,
      s'.refs tree k + (if c.holds tree k then 1 else 0) =
        s.refs tree k + if c'.holds tree k then 1 else 0 := by
  obtain ⟨h, s₁, c₁, -, -, ha, rfl, hs⟩ := setupRedirection_cases hr
  obtain ⟨rid, ed, rfl⟩ := startReplay_conn (c := c₁.redirectTo use h) (h := h) rfl hs
  have hpins (tree : PinTree) :
      State.pinTree { s₁ with extTree2 := s₁.extTree2.insert (redirectedKey c₁ h) i } tree =
        s₁.pinTree tree := by
    cases tree <;> rfl
  have hext := hp.ext hini
  obtain ⟨-, ⟨-, rfl, rfl⟩ | ⟨-, p, htake, rfl⟩⟩ := acquireTarget_cases ha
  · refine ⟨⟨fun _ => hext, fun hne => absurd hini hne, fun h => absurd h (Option.some_ne_none _)⟩,
      fun hl => hl.congr hpins, fun tree k => ?_⟩
    rw [refs_congr hpins]
    rfl
  · have hp' : Conn.Pinning { Conn.redirectTo { c with
        hih := { c.hih with targetPinKey := some (targetPinKey h) } } use h with
        replayId := rid, expectedData := ed } :=
      ⟨fun _ => hext, fun hne => absurd hini hne, fun h => absurd h (Option.some_ne_none _)⟩
    refine ⟨hp', fun hl => (htake.live hl).congr hpins, fun tree k => ?_⟩
    rw [refs_congr hpins, htake.refs, hp'.holds_eq, hp.holds_eq, hp.once hnew]
    have htar : (targetPinKey h = k ∧ tree = .target) ↔ (.target = tree ∧ targetPinKey h = k) := by
      rw [and_comm, eq_comm]
    simp only [Conn.redirectTo, Conn.pinOrigin, hext, Option.some.injEq, htar, reduceCtorEq,
      false_and, if_false]
    omega

/-- The first part of `remove_conn` gives back the pin under `pin_key`. -/
theorem deregister_pins (hinv : Counted s) (hc : s.conns[i]? = some c)
    (hown : c.pinKey = none ∨ c.releaseTree = some c.pinOrigin) (h : deregister s c = .ok s') :
    (s.Live → s'.Live) ∧ ∀ tree k, s.refs tree k =
      s'.refs tree k + if c.pinKey = some k ∧ c.pinOrigin = tree then 1 else 0 := by
  obtain ⟨s₁, he, hrel⟩ := deregister_cases h
  have hu := he.unlisted
  cases hkey : c.pinKey with
  | none =>
    obtain rfl : s' = s₁ := by
      obtain ⟨-, rfl⟩ | ⟨tree, -, hrel⟩ := hrel
      · rfl
      · simp only [releaseConnPin, hkey, Except.ok.injEq] at hrel
        exact hrel.symm
    refine ⟨fun hl => hl.congr hu.pins, fun tree k => ?_⟩
    simp [refs_congr hu.pins]
  | some k =>
    have htree : c.releaseTree = some c.pinOrigin := hown.resolve_left (by simp [hkey])
    obtain ⟨hnone, -⟩ | ⟨tree, htree', hrel⟩ := hrel
    · simp [htree] at hnone
    · obtain rfl : c.pinOrigin = tree := Option.some.inj (htree.symm.trans htree')
      have hpos : 0 < s.refs c.pinOrigin k :=
        hinv.refs_pos hc (by simp [Conn.holds, hkey])
      simp only [releaseConnPin, hkey] at hrel
      have hgive := releasePin_gives hrel (by rwa [refs_congr hu.pins]) (.inl rfl)
      refine ⟨fun hl => hgive.live (hl.congr hu.pins), fun tree' k' => ?_⟩
      rw [← refs_congr hu.pins, hgive.refs]
      simp only [Option.some.injEq, and_comm]

/-- The second part of `remove_conn` gives back the target pin. -/
theorem releaseTargetPin_pins (hpos : ∀ k ∈ c.hih.targetPinKey, 0 < s.refs .target k)
    (hlast : ∀ k ∈ c.hih.targetPinKey, c.pinKey = some k ∨ 1 < s.refs .target k)
    (h : releaseTargetPin s c = .ok s') :
    (s.Live → s'.Live) ∧ ∀ tree k, s.refs tree k =
      s'.refs tree k + if c.hih.targetPinKey = some k ∧ tree = .target then 1 else 0 := by
  obtain ⟨htar, rfl⟩ | ⟨k, k', htar, hkey, h⟩ := releaseTargetPin_cases h
  · simp [htar]
  · have hgive := releasePin_gives h (hpos k htar)
      ((hlast k htar).imp_left fun he => Option.some.inj (hkey.symm.trans he))
    refine ⟨hgive.live, fun tree' k₁ => ?_⟩
    rw [hgive.refs, htar]
    simp only [Option.some.injEq, and_comm, eq_comm]

/-- **Removal.** A removal that looks for the pins where they were taken from gives them back. -/
theorem removeConn_counted (hinv : Counted s) (hg : GivesBack s (.remove i))
    (h : removeConn s i = .ok s') : Counted s' := by
  obtain ⟨c, s₁, s₂, hc, hd, hr, rfl⟩ := removeConn_cases h
  obtain ⟨hown, hlast, -⟩ := hg c hc
  have hp := hinv.pinning i c hc
  have hkept := (deregister_kept hd).trans (releaseTargetPin_kept hr)
  obtain ⟨hlive₁, hrefs₁⟩ := deregister_pins hinv hc hown hd
  -- a target pin is held by a connection from EXT, whose other pin is in another tree
  have hsame (k : PinKey) (hk : k ∈ c.hih.targetPinKey) : s₁.refs .target k = s.refs .target k := by
    have hini : c.initiator = .ext := by
      by_contra hne
      rw [hp.other hne] at hk
      cases hk
    rw [hrefs₁, Conn.pinOrigin, hp.ext hini]
    simp
  obtain ⟨hlive₂, hrefs₂⟩ := releaseTargetPin_pins
    (fun k hk => by
      rw [hsame k hk]
      exact hinv.refs_pos hc (by simp [Conn.holds, Option.mem_def.mp hk]))
    (fun k hk => by
      rw [hsame k hk]
      exact hlast k hk) hr
  have hpins (tree : PinTree) :
      State.pinTree { s₂ with conns := s₂.conns.erase i } tree = s₂.pinTree tree := by
    cases tree <;> rfl
  refine hinv.leave hc (congrArg (·.erase i) hkept.conns)
    ((hlive₂ (hlive₁ hinv.live)).congr hpins) fun tree k => ?_
  rw [hp.holds_eq, refs_congr hpins, hrefs₁, hrefs₂]
  omega

/-- **Steps.** Operations that give back what was taken keep the counts right. -/
theorem Operates.counted (h : Operates g s op s') (hn : Numbered s) (hinv : Counted s)
    (hg : GivesBack s op) : Counted s' := by
  cases h with
  | idle => exact hinv
  | refused => exact ⟨hinv.counts, hinv.live, hinv.pinning⟩
  | create hid ht hcr =>
    obtain ⟨-, -, -, hconns⟩ := hcr.frame
    have ha := hcr.acquires
    have hinv' : Counted { s with cId := s.cId + 1 } := ⟨hinv.counts, hinv.live, hinv.pinning⟩
    exact hinv'.enter hn.new hconns (ha.live hinv.live) hcr.pinning ha.refs
  | work hc hs =>
    exact hinv.same hc rfl (fun _ => withConn_pinTree ..) (fun hp => ⟨hp.ext, hp.other, hp.once⟩)
      fun _ _ => rfl
  | redirect hc ht hini hnew hr =>
    obtain ⟨hp, hlive, hrefs⟩ := setupRedirection_pins hini (hinv.pinning _ _ hc) hnew hr
    have hk := setupRedirection_kept hr
    refine hinv.update hc ?_ ((hlive hinv.live).congr fun _ => withConn_pinTree ..) hp
      fun tree k => ?_
    · rw [withConn_conns, hk.conns]
    · rw [refs_congr fun _ => withConn_pinTree ..]
      exact hrefs tree k
  | @switch i h c c' s' hc hs =>
    have hconns : (s'.withConn i c').conns = s.conns.insert i c' := by
      rw [withConn_conns, (switchConnToIntra_kept hs).conns]
    obtain ⟨ik, ek, k, -, -, rfl, rfl⟩ := switchConnToIntra_cases hs
    refine hinv.same hc hconns (fun tree => ?_) (fun hp => ⟨hp.ext, hp.other, hp.once⟩)
      fun _ _ => rfl
    cases tree <;> rfl
  | remove hr => exact removeConn_counted hinv hg hr

/-! ### The keys of INTRA pins -/

/-- The tables and, for each pin of an exclusive INTRA host, the connection that made it. The key of
the pin is the `pin_key` of that connection: `create_conn` makes no copy of it. -/
structure KeyedPins (μ : Type) where
  st : State μ
  maker : Std.TreeMap PinKey ConnId pincmp

/-- The fault of an operation, or the key of a pin that is freed while it is in `intra_pin_tree` or
for the second time. -/
inductive PinFault
  | op (e : Fault)
  | keyFreed
  deriving DecidableEq, Repr

variable {x x' : KeyedPins μ}

/-- `free_conn` frees the key of an INTRA pin. If others hold the pin, the key is in its tree, and
otherwise `free_pin` has freed it. -/
def KeyedPins.frees (x : KeyedPins μ) : Op → Bool
  | .remove i => x.st.conns[i]?.any fun c =>
      c.pinOrigin = .intra ∧ c.pinKey.any fun k => x.maker[k]? = some i
  | _ => false

/-- The INTRA pin a connection holds. -/
def Conn.intraPin (c : Conn) : Option PinKey :=
  if c.pinOrigin = .intra then c.pinKey else none

/-- The makers after an operation that leads to the tables `s`: a new connection makes the pin it
holds if there was none. -/
def KeyedPins.makers (x : KeyedPins μ) (s : State μ) : Op → Std.TreeMap PinKey ConnId pincmp
  | .create _ _ =>
    match s.conns[s.cId]?.bind Conn.intraPin with
    | some k => if ((x.st.pinTree .intra)[k]?).isSome then x.maker else x.maker.insert k s.cId
    | none => x.maker
  | _ => x.maker

/-- The machine of the operations with the keys of INTRA pins. -/
def operatePins (g : Globals) (x : KeyedPins μ) (op : Op) :
    Except PinFault (KeyedPins μ × List Event) :=
  if x.frees op then .error .keyFreed
  else
    match operate g x.st op with
    | .error e => .error (.op e)
    | .ok (s, ev) => .ok (⟨s, x.makers s op⟩, ev)

theorem operatePins_cases {ev : List Event} (h : operatePins g x op = .ok (x', ev)) :
    Operates g x.st op x'.st ∧ x'.maker = x.makers x'.st op := by
  unfold operatePins at h
  split_ifs at h with hf
  split at h
  · cases h
  · rename_i s ev' hop
    cases h
    exact ⟨operate_cases hop, rfl⟩

/-- A pin of an INTRA host is held by its maker, the first connection that holds it. -/
def Made (conns : Std.TreeMap ConnId Conn) (maker : Std.TreeMap PinKey ConnId pincmp) : Prop :=
  ∀ (k : PinKey) (i : ConnId) (d : Conn), conns[i]? = some d → d.holds .intra k = true →
    ∃ j c, maker[k]? = some j ∧ conns[j]? = some c ∧ c.holds .intra k = true ∧ j ≤ i

theorem holds_intra : c.holds .intra k = true ↔ c.intraPin = some k := by
  by_cases h : c.pinOrigin = .intra <;> simp [Conn.holds, Conn.intraPin, h]

theorem heldBefore_iff : s.heldBefore i tree k = true ↔
    ∃ j c, s.conns[j]? = some c ∧ j < i ∧ c.holds tree k = true := by
  simp only [State.heldBefore, List.any_eq_true, Prod.exists,
    Std.TreeMap.mem_toList_iff_getElem?_eq_some, decide_eq_true_eq]

/-- **Keys of INTRA pins.** A removal that gives back what was taken does not free such a key. -/
theorem Made.not_frees (hm : Made x.st.conns x.maker) (hg : GivesBack x.st op) :
    x.frees op = false := by
  cases op with
  | remove i =>
    cases hc : x.st.conns[i]? with
    | none => simp [KeyedPins.frees, hc]
    | some c =>
      obtain ⟨-, -, hheld⟩ := hg c hc
      by_contra hf
      simp only [KeyedPins.frees, hc, Option.any_some, Bool.not_eq_false, decide_eq_true_eq,
        Option.any_eq_true] at hf
      obtain ⟨horigin, k, hk, hmaker⟩ := hf
      obtain ⟨j, d, hd, hlt, hholds⟩ := heldBefore_iff.mp (hheld k hk horigin)
      obtain ⟨j', -, hmaker', -, -, hle⟩ := hm k j d hd hholds
      rw [hmaker, Option.some.injEq] at hmaker'
      exact absurd hlt (Nat.not_lt.mpr (hmaker' ▸ hle))
  | _ => rfl

/-- A connection is written that holds the same pins as before. -/
theorem Made.same {conns : Std.TreeMap ConnId Conn} {maker : Std.TreeMap PinKey ConnId pincmp}
    (hm : Made conns maker) (hc : conns[i]? = some c)
    (hh : ∀ k, c'.holds .intra k = c.holds .intra k) : Made (conns.insert i c') maker := by
  -- every connection is there before and after, with the same pins
  have hback {j : ConnId} {d : Conn} {k : PinKey} (hj : (conns.insert i c')[j]? = some d)
      (hk : d.holds .intra k = true) : ∃ d', conns[j]? = some d' ∧ d'.holds .intra k = true := by
    rw [Std.TreeMap.lookup_insert] at hj
    split_ifs at hj with hij
    · cases hj
      exact ⟨c, hij ▸ hc, hh k ▸ hk⟩
    · exact ⟨d, hj, hk⟩
  intro k j d hj hk
  obtain ⟨d', hd', hk'⟩ := hback hj hk
  obtain ⟨j', e, hmaker, he, hke, hle⟩ := hm k j d' hd' hk'
  by_cases hij : i = j'
  · subst hij
    obtain rfl : c = e := Option.some.inj (hc.symm.trans he)
    exact ⟨i, c', hmaker, by simp, hh k ▸ hke, hle⟩
  · exact ⟨j', e, hmaker, by rw [Std.TreeMap.lookup_insert, if_neg hij, he], hke, hle⟩

/-- A new connection is the maker of the pin it holds, unless another one holds it already. -/
theorem Made.enter {conns : Std.TreeMap ConnId Conn}
    {maker maker' : Std.TreeMap PinKey ConnId pincmp}
    (hm : Made conns maker) (hnew : ∀ (j : ConnId) (d : Conn), conns[j]? = some d → j < i)
    (hfirst : ∀ k, c.holds .intra k = true →
      (∀ (j : ConnId) (d : Conn), conns[j]? = some d → d.holds .intra k = false) →
        maker'[k]? = some i)
    (hold : ∀ (k : PinKey) (j : ConnId) (d : Conn), conns[j]? = some d →
      d.holds .intra k = true → maker'[k]? = maker[k]?) : Made (conns.insert i c) maker' := by
  -- the maker of a pin that was held before
  have holder {k : PinKey} {j : ConnId} {d : Conn} (hj : conns[j]? = some d)
      (hk : d.holds .intra k = true) : ∃ j' e, maker'[k]? = some j' ∧
        (conns.insert i c)[j']? = some e ∧ e.holds .intra k = true ∧ j' ≤ j := by
    obtain ⟨j', e, hmaker, he, hke, hle⟩ := hm k j d hj hk
    have hne : i ≠ j' := (Nat.ne_of_lt (hnew j' e he)).symm
    exact ⟨j', e, hold k j d hj hk ▸ hmaker,
      by rw [Std.TreeMap.lookup_insert, if_neg hne, he], hke, hle⟩
  intro k j d hj hk
  rw [Std.TreeMap.lookup_insert] at hj
  split_ifs at hj with hij
  · subst hij
    cases hj
    by_cases hfree : ∀ (j : ConnId) (d : Conn), conns[j]? = some d → d.holds .intra k = false
    · exact ⟨i, c, hfirst k hk hfree, by simp, hk, Nat.le_refl _⟩
    · push Not at hfree
      obtain ⟨j, d, hd, hkd⟩ := hfree
      obtain ⟨j', e, hmaker, he, hke, hle⟩ := holder hd ((Bool.not_eq_false _).mp hkd)
      exact ⟨j', e, hmaker, he, hke, Nat.le_trans hle (Nat.le_of_lt (hnew j d hd))⟩
  · exact holder hj hk

/-- A connection that is removed leaves an older one behind that holds the same pin. -/
theorem Made.leave {conns : Std.TreeMap ConnId Conn} {maker : Std.TreeMap PinKey ConnId pincmp}
    (hm : Made conns maker) (hc : conns[i]? = some c)
    (hheld : ∀ k, c.holds .intra k = true →
      ∃ j d, conns[j]? = some d ∧ j < i ∧ d.holds .intra k = true) :
    Made (conns.erase i) maker := by
  intro k j d hj hk
  rw [Std.TreeMap.lookup_erase] at hj
  split_ifs at hj with hij
  obtain ⟨j', e, hmaker, he, hke, hle⟩ := hm k j d hj hk
  refine ⟨j', e, hmaker, ?_, hke, hle⟩
  rw [Std.TreeMap.lookup_erase, if_neg, he]
  rintro rfl
  -- the maker is the first that holds the pin
  obtain rfl : c = e := Option.some.inj (hc.symm.trans he)
  obtain ⟨m, d', hm', hlt, hk'⟩ := hheld k hke
  obtain ⟨j₁, -, hmaker₁, -, -, hle₁⟩ := hm k m d' hm' hk'
  rw [hmaker, Option.some.injEq] at hmaker₁
  exact absurd hlt (Nat.not_lt.mpr (hmaker₁ ▸ hle₁))

/-- The new connection makes the pin it holds if there was none. -/
theorem KeyedPins.makers_create (x : KeyedPins μ) (pkt : Pkt) (now : ℤ)
    (hconns : s'.conns = s.conns.insert i c) (hcid : s'.cId = i) (k : PinKey) :
    (x.makers s' (.create pkt now))[k]? =
      if c.intraPin = some k ∧ ((x.st.pinTree .intra)[k]?).isSome = false then some i
      else x.maker[k]? := by
  simp only [KeyedPins.makers, hconns, hcid, Std.TreeMap.lookup_insert, if_true, Option.bind_some]
  cases hpin : c.intraPin with
  | none => rw [if_neg (by rintro ⟨⟨⟩, -⟩)]
  | some k' =>
    dsimp only
    by_cases hk : k' = k
    · subst hk
      cases hsome : ((x.st.pinTree .intra)[k']?).isSome with
      | true => rw [if_pos rfl, if_neg (by rintro ⟨-, ⟨⟩⟩)]
      | false => rw [if_neg Bool.false_ne_true, if_pos ⟨rfl, rfl⟩, Std.TreeMap.lookup_insert,
          if_pos rfl]
    · have hne : ¬(some k' = some k ∧ ((x.st.pinTree .intra)[k]?).isSome = false) :=
        fun h => hk (Option.some.inj h.1)
      rw [if_neg hne]
      split_ifs
      · rfl
      · exact Std.TreeMap.lookup_insert_of_ne hk

/-- **Makers.** Operations that give back what was taken leave the makers of the pins in place. -/
theorem Made.step (hm : Made x.st.conns x.maker) (hn : Numbered x.st) (hinv : Counted x.st)
    (hg : GivesBack x.st op) (h : Operates g x.st op s') : Made s'.conns (x.makers s' op) := by
  -- no pin is made where the last connection holds one that is there
  have hkept (hpin : ∀ k, s'.conns[s'.cId]?.bind Conn.intraPin = some k →
      ((x.st.pinTree .intra)[k]?).isSome) : x.makers s' op = x.maker := by
    cases op with
    | create pkt now =>
      cases hk : s'.conns[s'.cId]?.bind Conn.intraPin with
      | none => simp [KeyedPins.makers, hk]
      | some k => simp [KeyedPins.makers, hk, hpin k hk]
    | _ => rfl
  cases h with
  | idle =>
    rw [hkept fun k hk => ?_]
    · exact hm
    · obtain ⟨c, hc, hk⟩ := Option.bind_eq_some_iff.mp hk
      exact hinv.isSome_iff.mpr ⟨_, c, hc, holds_intra.mpr hk⟩
  | refused =>
    rw [hkept fun k hk => ?_]
    · exact hm
    · obtain ⟨c, hc, -⟩ := Option.bind_eq_some_iff.mp hk
      exact absurd (hn.new.symm.trans hc) (by simp)
  | @create pkt now r t c s' hid ht hcr hsyn =>
    obtain ⟨-, -, hcid, hconns⟩ := hcr.frame
    have hmakers := x.makers_create pkt now hconns hcid
    rw [hconns]
    refine hm.enter (fun j d hd => Nat.lt_succ_of_le (hn j d hd)) (fun k hk hfree => ?_)
      fun k j d hd hk => ?_
    · refine (hmakers k).trans (if_pos ⟨holds_intra.mp hk, ?_⟩)
      by_contra hsome
      obtain ⟨j, d, hd, hkd⟩ := hinv.isSome_iff.mp ((Bool.not_eq_false _).mp hsome)
      rw [hfree j d hd] at hkd
      cases hkd
    · refine (hmakers k).trans (if_neg ?_)
      rintro ⟨-, habsent⟩
      rw [hinv.isSome_iff.mpr ⟨j, d, hd, hk⟩] at habsent
      cases habsent
  | work hc hs => exact hm.same hc fun _ => rfl
  | redirect hc ht hini hnew hr =>
    rw [withConn_conns, (setupRedirection_kept hr).conns]
    obtain ⟨h, key, rid, ed, -, -, rfl⟩ := setupRedirection_conn hr
    refine hm.same hc fun k => ?_
    simp [Conn.holds, Conn.pinOrigin]
  | switch hc hs =>
    rw [withConn_conns, (switchConnToIntra_kept hs).conns]
    obtain ⟨ik, ek, k, -, -, -, rfl⟩ := switchConnToIntra_cases hs
    exact hm.same hc fun _ => rfl
  | @remove i s' hr =>
    obtain ⟨c, hc, hconns, -⟩ := removeConn_replies hr
    rw [hconns]
    refine hm.leave hc fun k hk => ?_
    have hpin := holds_intra.mp hk
    unfold Conn.intraPin at hpin
    split_ifs at hpin with horigin
    exact heldBefore_iff.mp ((hg c hc).2.2 k hpin horigin)

/-- **Reference counts.** In every order of creations, redirections, switches, work and removals in
which each removal looks for the pins where they were taken from and leaves the makers of INTRA pins
alone, a pin is present exactly when a live connection has acquired it, its count is the number of
these connections, and no key of an INTRA pin is freed that is in use. -/
theorem pins_counted
    (hrun : Machine.Run (operatePins g) (fun x => GivesBack x.st)
      ⟨boot targets ifTarget mem, ∅⟩ tr x)
    (tree : PinTree) (k : PinKey) :
    (((x.st.pinTree tree)[k]?).isSome ↔
        ∃ (i : ConnId) (c : Conn), x.st.conns[i]? = some c ∧ c.holds tree k = true) ∧
      (∀ p, (x.st.pinTree tree)[k]? = some p → p.count = x.st.holders tree k) ∧
      ∀ op, GivesBack x.st op → operatePins g x op ≠ .error .keyFreed := by
  obtain ⟨-, hinv, hmade⟩ : Numbered x.st ∧ Counted x.st ∧ Made x.st.conns x.maker := by
    refine hrun.invariant (fun x => Numbered x.st ∧ Counted x.st ∧ Made x.st.conns x.maker)
      ⟨numbered_boot, counted_boot, fun k i d hd => by simp [boot] at hd⟩ ?_
    rintro x₁ op x₂ out ⟨hn, hinv, hmade⟩ hok hop
    obtain ⟨ho, hmaker⟩ := operatePins_cases hop
    exact ⟨ho.numbered hn, ho.counted hn hinv hok, hmaker ▸ hmade.step hn hinv hok ho⟩
  have hcount := hinv.counts tree k
  refine ⟨?_, fun p hp => ?_, fun op hok hfault => ?_⟩
  · exact hinv.isSome_iff
  · rw [← hcount]
    simp [State.refs, hp]
  · unfold operatePins at hfault
    rw [hmade.not_frees hok, if_neg (by decide)] at hfault
    split at hfault <;> cases hfault

namespace Sample

/-- Backends are exclusive. -/
def exclusive : Globals :=
  { globals with exclusiveHih := 1 }

end Sample

/-- Two connections share the pin of an exclusive backend, and one of them leaves. -/
theorem pins_counted_shared :
    ∃ tr x, Machine.Run (operatePins Sample.exclusive) (fun x => GivesBack x.st) ⟨Sample.start, ∅⟩
        tr x ∧
      ∃ p, (x.st.pinTree .target)[targetPinKey Sample.hih]? = some p ∧ p.count = 1 ∧
        p.count = x.st.holders .target (targetPinKey Sample.hih) := by
  obtain ⟨tr, x, hrun, hp⟩ := Machine.exists_run (operatePins Sample.exclusive) ⟨Sample.start, ∅⟩
    [.create Sample.request 0, .create (Sample.packet .ext (Sample.udp 0 51 1000 9 80)) 0,
      .redirect 1 1, .redirect 2 1, .remove 1]
    (fun r => (r.1.st.pinTree .target)[targetPinKey Sample.hih]?.any (·.count = 1))
    (fun x op h => of_decide_eq_true (p := GivesBack x.st op) h) (by decide +kernel)
  obtain ⟨p, hp, hcount⟩ := (Option.any_eq_true ..).mp hp
  exact ⟨tr, x, hrun, p, hp, of_decide_eq_true hcount,
    (pins_counted hrun .target (targetPinKey Sample.hih)).2.1 p hp⟩

/-- The only connection to an exclusive backend is removed: no connection is left, and the pin of
the backend, which has been freed, stays in its tree. -/
theorem pins_counted_broken :
    ∃ tr x, Machine.Reaches (operatePins Sample.exclusive) ⟨Sample.start, ∅⟩ tr x ∧
      (x.st.pinTree .target)[targetPinKey Sample.hih]? = some ⟨9, 0⟩ ∧
        x.st.conns.isEmpty = true := by
  obtain ⟨tr, x, hrun, hp⟩ := Machine.exists_reaches (operatePins Sample.exclusive)
    ⟨Sample.start, ∅⟩ [.create Sample.request 0, .redirect 1 1, .remove 1]
    (fun r => (r.1.st.pinTree .target)[targetPinKey Sample.hih]? = some ⟨9, 0⟩ ∧
      r.1.st.conns.isEmpty)
    (by decide +kernel)
  obtain ⟨hpin, hempty⟩ := of_decide_eq_true hp
  exact ⟨tr, x, hrun, hpin, hempty⟩

end Honeybrid
