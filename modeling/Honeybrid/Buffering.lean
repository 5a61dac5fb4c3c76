import Honeybrid.Lifecycle

/-!
# The buffer of a connection from EXT

While a connection from EXT is decided on, its packets are stored, in the order they arrive in and
as long as there is room. A redirection starts the replay of this buffer, and the packet that caused
it is stored behind what is being replayed.

## Main definitions

* `Gathered`: what is known of the buffer before a redirection.
* `Backed`: the connection is redirected to a backend of its target.

## Main results

* `Attributed.plain`: what is known of every packet.
* `Creates.gathered`, `Gathered.keep`: the buffer before a redirection.
* `Gathered.redirect`: the buffer and the cursor after it.
-/

namespace Honeybrid

variable {μ : Type} {mods : Modules μ} {g : Globals} {s s₁ s₂ : State μ} {i : ConnId}
  {pkt pkt' : Pkt} {c c' : Conn} {t t₁ : Target} {ev : List Event} {raw : RawPcap} {now : ℤ}
  {targets : Std.TreeMap TargetId Target intcmp}

/-! ### Packets -/

/-- A packet that is attributed to a connection carries TCP or UDP, and the flag `DE` is not set. -/
theorem Attributed.plain (h : Attributed g s raw now s₁ i pkt c) :
    pkt.de = 0 ∧ (pkt.packet.protocol = IPPROTO_TCP ∨ pkt.packet.protocol = IPPROTO_UDP) := by
  cases h with
  | found hcap hpkt hlook hc hs =>
    obtain ⟨-, -, -, hde, hproto, -⟩ := capture_cases hcap
    rw [hpkt]
    exact ⟨hde, hproto⟩
  | created hcap hpkt hlook hid ht hi hcr =>
    obtain ⟨-, -, -, hde, hproto, -⟩ := capture_cases hcap
    rw [hpkt]
    exact ⟨hde, hproto⟩

/-! ### Before a redirection -/

/-- The buffer and the cursor of a connection that has not been redirected. -/
structure Gathered (c : Conn) : Prop where
  replayId : c.replayId = 0
  expectedData : c.expectedData = {}
  stored : ∀ q ∈ c.buffer, q.stored

theorem Creates.gathered {r : TargetSearch} (h : Creates g s i t pkt r now .ext c s₁) :
    Gathered c ∧ c.buffer = [] := by
  cases h with
  | ext hfront hpin hc =>
    subst hc
    exact ⟨⟨rfl, rfl, by simp [Conn.fresh]⟩, rfl⟩

theorem Gathered.congr (h : Gathered c) (hs : SameReplay c c') : Gathered c' :=
  ⟨hs.replayId.trans h.replayId, hs.expectedData.trans h.expectedData, hs.buffer ▸ h.stored⟩

/-- Storing a packet when the target has backends and there is room. -/
theorem keepPkt_of_lt (ht : t.hasBackends = true) (hlt : c.buffer.length < g.maxPacketBuffer) :
    keepPkt g t c pkt = { c with buffer := c.buffer ++ [pkt] } := by
  rw [keepPkt, if_pos ht, storePkt, if_pos hlt]

theorem keepPkt_of_le (hle : g.maxPacketBuffer ≤ c.buffer.length) : keepPkt g t c pkt = c := by
  rw [keepPkt, storePkt, if_neg (Nat.not_lt.mpr hle), ite_self]

/-- A packet is stored, or the connection stays as it is. -/
theorem keepPkt_cases (g : Globals) (t : Target) (c : Conn) (pkt : Pkt) :
    keepPkt g t c pkt = c ∨ keepPkt g t c pkt = { c with buffer := c.buffer ++ [pkt] } := by
  by_cases ht : t.hasBackends = true
  · by_cases hlt : c.buffer.length < g.maxPacketBuffer
    · exact .inr (keepPkt_of_lt ht hlt)
    · exact .inl (keepPkt_of_le (Nat.le_of_not_lt hlt))
  · exact .inl (by rw [keepPkt, if_neg ht])

theorem Rewritten.stored (h : Rewritten pkt pkt') (ho : pkt.origin = .lih ∨ pkt.origin = .ext)
    (hde : pkt.de = 0) : pkt'.stored :=
  ⟨by rw [h.origin]; exact ho.symm, h.de.trans hde⟩

theorem Gathered.keep (h : Gathered c) (hpkt : pkt.stored) : Gathered (keepPkt g t c pkt) := by
  obtain hk | hk := keepPkt_cases g t c pkt
  · rw [hk]
    exact h
  · rw [hk]
    refine ⟨h.replayId, h.expectedData, fun q hq => ?_⟩
    obtain hq | hq := List.mem_append.mp hq
    · exact h.stored q hq
    · rw [List.mem_singleton.mp hq]
      exact hpkt

/-! ### Redirection -/

/-- The connection is redirected to a backend of its target. -/
def Backed (targets : Std.TreeMap TargetId Target intcmp) (c : Conn) : Prop :=
  ∃ (t : Target) (use : HandlerId) (h : Handler), targets[c.target]? = some t ∧
    t.backHandlers[use]? = some h ∧ c.hih.backHandler = some h

theorem Backed.of_replayOf (h : Backed targets c) (hr : ReplayOf c c') : Backed targets c' := by
  obtain ⟨_, _, _, _, _, rfl⟩ := hr
  exact h

theorem Backed.noteDelta (h : Backed targets c) : Backed targets (noteDelta pkt c) := by
  obtain ⟨d, hd⟩ := noteDelta_conn pkt c
  rw [hd]
  exact h

/-- Every backend of every target has an interface, as the configuration demands. -/
def BackendsWired (targets : Std.TreeMap TargetId Target intcmp) : Prop :=
  ∀ (id : TargetId) (t : Target), targets[id]? = some t →
    ∀ (use : HandlerId) (h : Handler), t.backHandlers[use]? = some h → h.iface.isSome = true

theorem backendsWired_sample : BackendsWired Sample.targets := by
  intro id t ht use h hh
  rw [Sample.targets, Std.TreeMap.getElem?_insert] at ht
  split_ifs at ht
  · obtain rfl := Option.some.inj ht
    rw [Sample.target, Std.TreeMap.getElem?_insert] at hh
    split_ifs at hh
    · obtain rfl := Option.some.inj hh
      rfl
    · simp at hh
  · simp at ht

theorem Backed.hasBackend (h : Backed targets c) (hif : BackendsWired targets) : c.hasBackend := by
  obtain ⟨t, use, h, ht, hh, hb⟩ := h
  obtain ⟨out, hout⟩ := Option.isSome_iff_exists.mp (hif _ t ht use h hh)
  exact ⟨h, out, hb, hout⟩

/-- The buffer and the cursor once the packet that caused the redirection has been handled. `trig`
is this packet, if there was room for it. -/
structure Redirected (targets : Std.TreeMap TargetId Target intcmp) (c c' : Conn) (trig : List Pkt)
    (ev : List Event) : Prop where
  state : c'.state = .replay
  backed : Backed targets c'
  buffer : c'.buffer = c.buffer ++ trig
  cursor : ((∀ q ∈ c.buffer, q.isExt = true) ∧ c'.expectedData = {} ∧
      ev.filterMap Event.delivered = c.buffer.map Pkt.original) ∨
    ∃ pre p post, (∀ q ∈ pre, q.isExt = true) ∧ Cursor c.hih.delta c' pre p (post ++ trig) ∧
      ev.filterMap Event.delivered = pre.map Pkt.original

/-- A redirection. -/
theorem Gathered.redirect {use : HandlerId} {ev₁ ev₂ : List Event} (hG : Gathered c)
    (ht₁ : targets[c.target]?.map Target.fixed = some t₁.fixed)
    (hr : setupRedirection g s₁ t₁ i c use = .ok (some (s₂, c', ev₂))) (hb : t.hasBackends = true)
    (hev : Silent ev₁) :
    Redirected targets c (keepPkt g t c' pkt)
      (if c.buffer.length < g.maxPacketBuffer then [pkt] else []) (ev₁ ++ ev₂) := by
  obtain ⟨h, key, rid, ed, hh, -, hc'⟩ := setupRedirection_conn hr
  obtain ⟨hbuf, hcases⟩ := setupRedirection_replay hG.replayId hG.stored hr
  have hkeep : keepPkt g t c' pkt = { c' with
      buffer := c'.buffer ++ if c.buffer.length < g.maxPacketBuffer then [pkt] else [] } := by
    split_ifs with hlt
    · exact keepPkt_of_lt hb (hbuf ▸ hlt)
    · rw [keepPkt_of_le (hbuf ▸ Nat.le_of_not_lt hlt), List.append_nil]
  have hsent : (ev₁ ++ ev₂).filterMap Event.delivered = ev₂.filterMap Event.delivered := by
    rw [List.filterMap_append, hev, List.nil_append]
  refine ⟨?_, ?_, ?_, ?_⟩
  · rw [hkeep, hc']
  · obtain ⟨t', ht', hfix⟩ := Option.map_eq_some_iff.mp ht₁
    have hbacks := congrArg Target.backHandlers hfix
    refine ⟨t', use, h, ?_, ?_, ?_⟩
    · rw [hkeep, hc']
      exact ht'
    · rw [← hh]
      exact congrArg (·[use]?) hbacks
    · rw [hkeep, hc']
  · rw [hkeep, hbuf]
  · rw [hsent, hkeep]
    obtain ⟨hall, hexp, hdel⟩ | ⟨pre, p, post, hpre, hcur, hdel⟩ := hcases
    · exact .inl ⟨hall, hexp.trans hG.expectedData, hdel⟩
    · refine .inr ⟨pre, p, post, hpre, ⟨?_, hcur.replayId, hcur.lih, hcur.expected⟩, hdel⟩
      simp [hcur.buffer]

end Honeybrid
