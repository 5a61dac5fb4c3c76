import Honeybrid.Dispatch

/-!
# The order of a replay

A redirection delivers the buffered packets of EXT to the high-interaction honeypot exactly once
and in order. Every packet of the low-interaction honeypot is a gate (`Lib.Gated`): what lies behind
it is released only by an answer that passes `test_expected` against the data defined from it.

## Main definitions

* `Pass`: an answer that was accepted, with the data it was compared with.
* `feed`: a sequence of packets of the high-interaction honeypot, handed to `replay` as `de_thread`
  does as long as the connection is in REPLAY.
* `Answered δ l as`: the answers `as` pass the gates `l` one by one, in order.

## Main results

* `Cursor.replay_progress`: the expected answer lets the replay go on to the next gate.
* `Cursor.feed_spec`: what a sequence of answers has delivered.
* `replay_in_order`: the same for the whole of a redirection.
-/

namespace Honeybrid

variable {μ : Type} {g : Globals} {s s' : State μ} {t : Target} {i : ConnId} {c c' : Conn}
  {p trigger : Pkt} {pre post ps : List Pkt} {δ : BitVec 32} {use : HandlerId} {ev : List Event}

/-- A packet of the buffer the replay waits at. -/
def Pkt.waits (p : Pkt) : Bool :=
  !p.isExt

@[simp] theorem Pkt.not_waits (p : Pkt) : (!p.waits) = p.isExt := by
  simp [Pkt.waits]

/-- An answer that passed `test_expected`: the packet, the data it was compared with, and the
offset of the sequence numbers by then. -/
structure Pass where
  answer : Pkt
  expected : ExpectedData
  delta : BitVec 32

/-- The packet passes `test_expected` against the data. -/
def Pass.genuine (a : Pass) : Prop :=
  ∃ c : Conn, c.expectedData = a.expected ∧ (testExpected c a.answer).2 = .ok

/-- Packets of the high-interaction honeypot are handed to `replay` while the connection is in
REPLAY; besides the events, the answers that passed are recorded. -/
def feed (g : Globals) (i : ConnId) : Conn → List Pkt → Except Fault (Conn × List Event × List Pass)
  | c, [] => .ok (c, [], [])
  | c, p :: ps =>
    if c.state = .replay then do
      let c := noteDelta p c
      let (c', ev) ← replay g i c p
      let (c', ev', passes) ← feed g i c' ps
      let passed := if (testExpected c p).2 = .ok then [⟨p, c.expectedData, c.hih.delta⟩] else []
      return (c', ev ++ ev', passed ++ passes)
    else .ok (c, [], [])

/-- The answers `as` pass the gates of a list one by one, in order: each is compared with the data
defined from its gate, with the offset known when the previous one passed. -/
def Answered : BitVec 32 → List Pkt → List Pass → Prop
  | _, _, [] => True
  | _, [], _ :: _ => False
  | δ, p :: ps, a :: as => DefinedFrom δ p a.expected ∧ Answered a.delta ps as

theorem Cursor.noteDelta {q : Pkt} (hc : Cursor δ c pre p post) :
    Cursor δ (noteDelta q c) pre p post := by
  obtain ⟨d, hd⟩ := noteDelta_conn q c
  rw [hd]
  exact ⟨hc.buffer, hc.replayId, hc.lih, hc.expected⟩

theorem Cursor.not_isExt (hc : Cursor δ c pre p post) : p.isExt = false := by
  simp [Pkt.isExt, hc.lih]

theorem Cursor.waits (hc : Cursor δ c pre p post) : p.waits = true := by
  simp [Pkt.waits, hc.not_isExt]

/-- A list that ends in a packet of EXT still does behind one of its other packets. -/
theorem getLast?_isExt_of_append {mid : List Pkt} {q x : Pkt}
    (h : (mid ++ q :: post).getLast? = some x) (hx : x.isExt = true) (hq : q.isExt = false) :
    post.getLast? = some x := by
  rw [List.getLast?_append, List.getLast?_cons] at h
  cases hp : post.getLast? with
  | none =>
    rw [hp] at h
    simp only [Option.getD_none, Option.some_or, Option.some.injEq] at h
    rw [h, hx] at hq
    cases hq
  | some y =>
    rw [hp] at h
    simpa using h

theorem filter_waits_of_isExt {mid : List Pkt} (h : ∀ x ∈ mid, x.isExt = true) :
    mid.filter Pkt.waits = [] :=
  List.filter_eq_nil_iff.mpr fun x hx => by simp [Pkt.waits, h x hx]

theorem countP_waits_of_isExt {mid : List Pkt} (h : ∀ x ∈ mid, x.isExt = true) :
    mid.countP Pkt.waits = 0 :=
  List.countP_eq_zero.mpr fun x hx => by simp [Pkt.waits, h x hx]

/-- What has been delivered and passed when packets of the high-interaction honeypot are fed to a
replay that waits at the packet `p` of the buffer, `sent` having been delivered before. -/
structure FeedSpec (δ : BitVec 32) (c : Conn) (pre : List Pkt) (p : Pkt) (post ps : List Pkt)
    (c' : Conn) (ev : List Event) (passes : List Pass) : Prop where
  released : (pre.filter Pkt.isExt).map Pkt.original ++ ev.filterMap Event.delivered =
    (c.buffer.released Pkt.waits (pre.countP Pkt.waits + passes.length)).map Pkt.original
  answered : Answered δ ((p :: post).filter Pkt.waits) passes
  distinct : (passes.map Pass.answer).Sublist ps
  genuine : ∀ a ∈ passes, a.genuine
  le : passes.length ≤ (p :: post).countP Pkt.waits
  forward : c'.state = .forward ↔ passes.length = (p :: post).countP Pkt.waits

/-- The packet has the protocol that is expected, and for TCP the sequence numbers; the timestamp
and the payload do not decide. -/
def Pkt.Meets (q : Pkt) (e : ExpectedData) : Prop :=
  q.packet.protocol = e.ipProto ∧ (e.ipProto = IPPROTO_TCP →
    (q.packet.tcp.syn = true ∨ q.packet.tcp.seq = e.tcpSeq) ∧ q.packet.tcp.ackSeq = e.tcpAckSeq)

theorem testExpected_ok_iff_meets {q : Pkt} :
    (testExpected c q).2 = .ok ↔ q.Meets c.expectedData := by
  unfold testExpected Pkt.Meets
  by_cases hproto : q.packet.protocol = c.expectedData.ipProto
  · rw [if_neg (not_not_intro hproto), and_iff_right hproto, ← hproto]
    by_cases htcp : q.packet.protocol = IPPROTO_TCP
    · rw [if_pos htcp, forall_prop_of_true htcp]
      by_cases hseq : q.packet.tcp.syn = false ∧ q.packet.tcp.seq ≠ c.expectedData.tcpSeq
      · rw [if_pos hseq]
        refine iff_of_false nofun fun h => ?_
        rcases h.1 with hsyn | heq
        · exact Bool.noConfusion (hsyn.symm.trans hseq.1)
        · exact hseq.2 heq
      · rw [if_neg hseq]
        have hfirst : q.packet.tcp.syn = true ∨ q.packet.tcp.seq = c.expectedData.tcpSeq := by
          rw [not_and_or, not_not, Bool.not_eq_false] at hseq
          exact hseq
        rw [and_iff_right hfirst]
        by_cases hack : q.packet.tcp.ackSeq = c.expectedData.tcpAckSeq
        · rw [if_neg (not_not_intro hack)]
          exact iff_of_true rfl hack
        · rw [if_pos hack]
          exact iff_of_false nofun hack
    · rw [if_neg htcp]
      exact iff_of_true rfl fun h => absurd h htcp
  · rw [if_pos hproto]
    exact iff_of_false nofun fun h => hproto h.1

/-- **Progress.** The expected answer lets the replay go on: the packets of EXT are sent up to the
next packet of the low-interaction honeypot, where the replay waits again, or up to the end of the
buffer, where it ends in FORWARD. -/
theorem Cursor.replay_progress {q : Pkt} (g : Globals) (i : ConnId) (hc : Cursor δ c pre p post)
    (hpost : post ≠ []) (hb : c.hasBackend) (hst : ∀ x ∈ c.buffer, x.stored) (hq : q.origin = .hih)
    (hmeets : q.Meets c.expectedData) :
    ∃ c' ev, replay g i c q = .ok (c', ev) ∧
      ((c'.state = .forward ∧ Deliveries i ev post) ∨
        ∃ mid x post', post = mid ++ x :: post' ∧ c'.state = c.state ∧
          Cursor c.hih.delta c' (pre ++ p :: mid) x post' ∧ Deliveries i ev mid) := by
  obtain ⟨⟨c', ev⟩, hr⟩ := hc.replay_ok g i q hpost hb hst
  have hok : (testExpected c q).2 = .ok := testExpected_ok_iff_meets.2 hmeets
  obtain ⟨hh, out, hback, -⟩ := hb
  refine ⟨c', ev, hr, ?_⟩
  obtain ⟨-, ⟨hnok, -⟩ | ⟨-, hend, -, -, hdel⟩ |
      ⟨-, hstate, mid, x, post', hsplit, -, hcur, hdel⟩⟩ :=
    hc.replay_cases hback hst hq hr
  · cases hok.symm.trans hnok
  · exact .inl ⟨hend, hdel⟩
  · exact .inr ⟨mid, x, post', hsplit, hstate, hcur, hdel⟩

theorem feed_cons {q : Pkt} {c₁ c₂ : Conn} {ev₁ ev₂ : List Event} {passes : List Pass}
    (hstate : c.state = .replay) (hr : replay g i (noteDelta q c) q = .ok (c₁, ev₁))
    (hf : feed g i c₁ ps = .ok (c₂, ev₂, passes)) :
    feed g i c (q :: ps) = .ok (c₂, ev₁ ++ ev₂,
      (if (testExpected (noteDelta q c) q).2 = .ok then
        [⟨q, (noteDelta q c).expectedData, (noteDelta q c).hih.delta⟩] else []) ++ passes) := by
  simp only [feed, hstate, if_true, hr, hf, Except.ok_bind, Except.pure_eq_ok]

theorem feed_of_ne (hstate : c.state ≠ .replay) : feed g i c ps = .ok (c, [], []) := by
  cases ps with
  | nil => rfl
  | cons q ps => rw [feed, if_neg hstate]

/-- A packet that is not the expected answer changes nothing. -/
theorem FeedSpec.skip {q : Pkt} {c₁ : Conn} {passes : List Pass} (hbuf : c₁.buffer = c.buffer)
    (h : FeedSpec δ c₁ pre p post ps c' ev passes) :
    FeedSpec δ c pre p post (q :: ps) c' ev passes where
  released := by rw [h.released, hbuf]
  answered := h.answered
  distinct := h.distinct.trans (List.sublist_cons_self q ps)
  genuine := h.genuine
  le := h.le
  forward := h.forward

/-- The answer to the last gate ends the replay. -/
theorem FeedSpec.finish {a : Pass} (hc : Cursor δ c pre p post) (hexp : a.expected = c.expectedData)
    (ha : a.genuine) (hall : ∀ y ∈ post, y.isExt = true) (hd : Deliveries i ev post)
    {c₂ : Conn} (hstate : c₂.state = .forward) :
    FeedSpec δ c pre p post (a.answer :: ps) c₂ ev [a] where
  released := by
    rw [List.released_eq_filter, hd.1, hc.buffer]
    · simp [hc.not_isExt, List.filter_eq_self.mpr hall]
    · simp [hc.buffer, hc.waits, countP_waits_of_isExt hall]
  answered := by
    rw [List.filter_cons_of_pos hc.waits, filter_waits_of_isExt hall]
    exact ⟨hexp ▸ hc.expected, by simp [Answered]⟩
  distinct := by simp
  genuine := by simpa using ha
  le := by simp [hc.waits]
  forward := by simp [hstate, hc.waits, countP_waits_of_isExt hall]

/-- The answer to a gate moves the replay on to the next one. -/
theorem FeedSpec.next {a : Pass} {mid : List Pkt} {q : Pkt} {post' : List Pkt} {c₁ c₂ : Conn}
    {ev₁ ev₂ : List Event} {passes : List Pass}
    (hc : Cursor δ c pre p post) (hexp : a.expected = c.expectedData) (ha : a.genuine)
    (hpost : post = mid ++ q :: post') (hmid : ∀ y ∈ mid, y.isExt = true)
    (hbuf : c₁.buffer = c.buffer) (hd : Deliveries i ev₁ mid)
    (h : FeedSpec a.delta c₁ (pre ++ p :: mid) q post' ps c₂ ev₂ passes) :
    FeedSpec δ c pre p post (a.answer :: ps) c₂ (ev₁ ++ ev₂) (a :: passes) := by
  have hcount : (p :: post).countP Pkt.waits = (q :: post').countP Pkt.waits + 1 := by
    rw [List.countP_cons_of_pos hc.waits, hpost, List.countP_append, countP_waits_of_isExt hmid,
      Nat.zero_add]
  have hpre : (pre ++ p :: mid).filter Pkt.isExt = pre.filter Pkt.isExt ++ mid := by
    simp [hc.not_isExt, List.filter_eq_self.mpr hmid]
  have hprec : (pre ++ p :: mid).countP Pkt.waits = pre.countP Pkt.waits + 1 := by
    simp [hc.waits, countP_waits_of_isExt hmid]
  refine ⟨?_, ?_, ?_, ?_, ?_, ?_⟩
  · have hrel := h.released
    rw [hpre, hprec, hbuf, List.map_append, List.append_assoc] at hrel
    rw [List.filterMap_append, hd.1, hrel, List.length_cons, Nat.add_assoc,
      Nat.add_comm 1 passes.length]
  · rw [List.filter_cons_of_pos hc.waits, hpost, List.filter_append, filter_waits_of_isExt hmid,
      List.nil_append]
    exact ⟨hexp ▸ hc.expected, h.answered⟩
  · exact h.distinct.cons_cons a.answer
  · simpa [ha] using h.genuine
  · simpa [hcount] using h.le
  · rw [h.forward, hcount, List.length_cons, Nat.add_right_cancel_iff]

/-- **Feeding a replay.** Whatever the high-interaction honeypot sends, the replay goes through the
buffer gate by gate and ends in FORWARD with the last packet. -/
theorem Cursor.feed_spec {x : Pkt} (g : Globals) (i : ConnId) (hc : Cursor δ c pre p post)
    (hstate : c.state = .replay)
    (hlast : post.getLast? = some x) (hx : x.isExt = true) (hb : c.hasBackend)
    (hst : ∀ q ∈ c.buffer, q.stored) (hps : ∀ q ∈ ps, q.origin = .hih) :
    ∃ c' ev passes, feed g i c ps = .ok (c', ev, passes) ∧
      FeedSpec δ c pre p post ps c' ev passes := by
  induction ps generalizing δ c pre p post with
  | nil =>
    refine ⟨c, [], [], rfl, ⟨?_, by simp [Answered], by simp, by simp, by simp, ?_⟩⟩
    · rw [hc.buffer, List.length_nil, Nat.add_zero, List.released_append_gate hc.waits]
      simp
    · simp [hstate, hc.waits]
  | cons q ps ih =>
    have hpost : post ≠ [] := by
      rintro rfl
      cases hlast
    obtain ⟨d, hd⟩ := noteDelta_conn q c
    have hc' : Cursor δ (Honeybrid.noteDelta q c) pre p post := hc.noteDelta
    have hb' : (Honeybrid.noteDelta q c).hasBackend := by
      rw [hd]
      exact hb
    have hst' : ∀ y ∈ (Honeybrid.noteDelta q c).buffer, y.stored := by
      rw [hd]
      exact hst
    obtain ⟨⟨c₁, ev₁⟩, hr⟩ := hc'.replay_ok g i q hpost hb' hst'
    obtain ⟨hh, out, hback, -⟩ := hb'
    have hqs : ∀ y ∈ ps, y.origin = .hih := fun y hy => hps y (List.mem_cons_of_mem _ hy)
    obtain ⟨⟨st, rid, ed, rp, diff, hc₁⟩, hcases⟩ :=
      hc'.replay_cases hback hst' (hps q (List.mem_cons_self ..)) hr
    have hbuf : c₁.buffer = c.buffer := by rw [hc₁, hd]
    have hb₁ : c₁.hasBackend := by
      rw [hc₁, hd]
      exact hb
    have hst₁ : ∀ y ∈ c₁.buffer, y.stored := by
      rw [hbuf]
      exact hst
    have hstate' : (Honeybrid.noteDelta q c).state = .replay := by
      rw [hd]
      exact hstate
    have hexp : (Honeybrid.noteDelta q c).expectedData = c.expectedData := by rw [hd]
    obtain ⟨hte, rfl, hs₁, hcur⟩ | ⟨hte, hs₁, -, hall, hdel⟩ |
      ⟨hte, hs₁, mid, y, post', hsplit, hmid, hcur, hdel⟩ := hcases
    · obtain ⟨c₂, ev₂, passes, hf, hspec⟩ := ih hcur (hs₁.trans hstate') hlast hb₁ hst₁ hqs
      refine ⟨c₂, _, _, feed_cons hstate hr hf, ?_⟩
      rw [if_neg (by simp [hte])]
      exact hspec.skip hbuf
    · have hf : feed g i c₁ ps = .ok (c₁, [], []) := feed_of_ne (by simp [hs₁])
      refine ⟨c₁, _, _, feed_cons hstate hr hf, ?_⟩
      rw [if_pos hte, List.append_nil, List.append_nil]
      exact FeedSpec.finish (a := ⟨q, _, _⟩) hc hexp ⟨_, rfl, hte⟩ hall hdel hs₁
    · have hlast' : post'.getLast? = some x :=
        getLast?_isExt_of_append (hsplit ▸ hlast) hx hcur.not_isExt
      obtain ⟨c₂, ev₂, passes, hf, hspec⟩ := ih hcur (hs₁.trans hstate') hlast' hb₁ hst₁ hqs
      refine ⟨c₂, _, _, feed_cons hstate hr hf, ?_⟩
      rw [if_pos hte]
      exact FeedSpec.next (a := ⟨q, _, _⟩) hc hexp ⟨_, rfl, hte⟩ hsplit hmid hbuf hdel hspec

/-- The replay of the buffer `l` is gated and in order: `ev` are the events so far, `passes` the
answers that passed among the packets `ps`, and `c` is the connection afterwards. -/
structure InOrder (l : List Pkt) (δ : BitVec 32) (ps : List Pkt) (c : Conn) (ev : List Event)
    (passes : List Pass) : Prop where
  /-- What was delivered is a prefix of the packets of EXT. -/
  sent : ev.filterMap Event.delivered <+: (l.filter Pkt.isExt).map Pkt.original
  /-- Once the packets of EXT before position `k` and one more have been delivered, all gates before
  that position have been passed. -/
  gated : ∀ k, (l.take k).countP Pkt.isExt < (ev.filterMap Event.delivered).length →
    (l.take k).countP Pkt.waits ≤ passes.length
  /-- The gates were passed in order, each against the data defined from it. -/
  answered : Answered δ (l.filter Pkt.waits) passes
  /-- They were passed by distinct packets. -/
  distinct : (passes.map Pass.answer).Sublist ps
  genuine : ∀ a ∈ passes, a.genuine
  /-- FORWARD is reached with the last packet. -/
  forward : c.state = .forward ↔
    ev.filterMap Event.delivered = (l.filter Pkt.isExt).map Pkt.original

/-- What is released of a list is all of it only when every gate is open. -/
theorem released_eq_filter_iff {l : List Pkt} {x : Pkt} {n : ℕ} (hlast : l.getLast? = some x)
    (hx : x.isExt = true) (hn : n ≤ l.countP Pkt.waits) :
    l.released Pkt.waits n = l.filter Pkt.isExt ↔ n = l.countP Pkt.waits := by
  constructor
  · intro h
    refine Nat.le_antisymm hn ?_
    obtain ⟨l', rfl⟩ : ∃ l', l = l' ++ [x] := by
      obtain ⟨l', hl'⟩ := List.getLast?_eq_some_iff.mp hlast
      exact ⟨l', hl'⟩
    have hgate : ((l' ++ [x]).take l'.length).countP Pkt.waits ≤ n :=
      List.countP_take_le_of_released (by simp [h, hx, List.countP_eq_length_filter])
    simpa [Pkt.waits, hx] using hgate
  · rintro rfl
    have hall : l.released Pkt.waits (l.countP Pkt.waits) = l.filter (!Pkt.waits ·) :=
      List.released_eq_filter (Nat.le_refl _)
    simpa using hall

/-- A replay that started at the first gate of a buffer is in order. -/
theorem FeedSpec.inOrder {x : Pkt} {passes : List Pass} {ev₁ ev₂ : List Event}
    (h : FeedSpec δ c pre p post ps c' ev₂ passes) (hbuf : c.buffer = pre ++ p :: post)
    (hpre : ∀ y ∈ pre, y.isExt = true) (hlast : post.getLast? = some x) (hx : x.isExt = true)
    (hsent : ev₁.filterMap Event.delivered = pre.map Pkt.original) :
    InOrder c.buffer δ ps c' (ev₁ ++ ev₂) passes := by
  have hcount : c.buffer.countP Pkt.waits = (p :: post).countP Pkt.waits := by
    rw [hbuf, List.countP_append, countP_waits_of_isExt hpre, Nat.zero_add]
  have hlast' : c.buffer.getLast? = some x := by
    rw [hbuf, List.getLast?_append, List.getLast?_cons, hlast]
    rfl
  have hrel : (ev₁ ++ ev₂).filterMap Event.delivered =
      (c.buffer.released Pkt.waits passes.length).map Pkt.original := by
    have h₁ := h.released
    rw [countP_waits_of_isExt hpre, Nat.zero_add, List.filter_eq_self.mpr hpre] at h₁
    rw [List.filterMap_append, hsent, h₁]
  have hiff := released_eq_filter_iff hlast' hx (hcount ▸ h.le)
  have hprefix : c.buffer.released Pkt.waits passes.length <+: c.buffer.filter Pkt.isExt := by
    have hp : c.buffer.released Pkt.waits passes.length <+: c.buffer.filter (!Pkt.waits ·) :=
      List.released_prefix
    simpa using hp
  refine ⟨?_, ?_, ?_, h.distinct, h.genuine, ?_⟩
  · rw [hrel]
    exact hprefix.map _
  · intro k hk
    rw [hrel, List.length_map] at hk
    refine List.countP_take_le_of_released ?_
    simpa using hk
  · rw [hbuf, List.filter_append, filter_waits_of_isExt hpre, List.nil_append]
    exact h.answered
  · rw [h.forward, ← hcount, ← hiff, hrel]
    constructor
    · exact fun he => congrArg _ he
    · intro he
      exact hprefix.eq_of_length (by simpa using congrArg List.length he)

/-- **The order of a replay.** A buffer with at least one packet of the low-interaction honeypot is
replayed after a redirection, the packet that caused it being appended. Whatever the
high-interaction honeypot sends, nothing fails, and the replay is gated and in order. -/
theorem replay_in_order {h : Handler} {s₁ : State μ} {c₁ : Conn} {ev₁ : List Event}
    (hid : c.replayId = 0) (hst : ∀ q ∈ c.buffer, q.stored) (hlih : ∃ q ∈ c.buffer, q.origin = .lih)
    (hh : t.backHandlers[use]? = some h) (hif : h.iface.isSome = true)
    (hset : setupRedirection g s t i c use = .ok (some (s₁, c₁, ev₁)))
    (htr : trigger.origin = .ext) (hde : trigger.de = 0) (hps : ∀ q ∈ ps, q.origin = .hih) :
    ∃ c₂ ev₂ passes,
      feed g i { c₁ with buffer := c₁.buffer ++ [trigger] } ps = .ok (c₂, ev₂, passes) ∧
      InOrder (c.buffer ++ [trigger]) c.hih.delta ps c₂ (ev₁ ++ ev₂) passes := by
  obtain ⟨h', key, rid, ed, hh', -, hc₁⟩ := setupRedirection_conn hset
  obtain rfl : h = h' := Option.some.inj (hh.symm.trans hh')
  obtain ⟨hbuf, ⟨hall, -⟩ | ⟨pre, q, post, hpre, hcur, hsent⟩⟩ :=
    setupRedirection_replay hid hst hset
  · obtain ⟨q, hq, hl⟩ := hlih
    have hqe := hall q hq
    simp [Pkt.isExt, hl] at hqe
  have hcur' := hcur.store trigger
  have htre : trigger.isExt = true := by simp [Pkt.isExt, htr]
  obtain ⟨out, hout⟩ := Option.isSome_iff_exists.mp hif
  have hst' : ∀ y ∈ c₁.buffer ++ [trigger], y.stored := by
    intro y hy
    obtain hy | hy := List.mem_append.mp hy
    · exact hst y (hbuf ▸ hy)
    · rw [List.mem_singleton.mp hy]
      exact ⟨.inl htr, hde⟩
  have hlast : (post ++ [trigger]).getLast? = some trigger := by simp
  obtain ⟨c₂, ev₂, passes, hf, hspec⟩ := hcur'.feed_spec g i (by rw [hc₁]) hlast htre
    ⟨h, out, by rw [hc₁], hout⟩ hst' hps
  exact ⟨c₂, ev₂, passes, hf, hbuf ▸ hspec.inOrder hcur'.buffer hpre hlast htre hsent⟩

/-- The backend sends the same answer twice. -/
def Sample.answers : List Pkt :=
  [packet .hih (udp 2 20 80 50 1000), packet .hih (udp 2 20 80 50 1000)]

/-- The first answer of the backend releases the packet that caused the redirection. -/
theorem replay_in_order_answered :
    ∃ s₁ c₁ ev₁, setupRedirection Sample.globals Sample.start Sample.target 1 Sample.buffered 1 =
        .ok (some (s₁, c₁, ev₁)) ∧
      ∃ c₂ ev₂ passes, feed Sample.globals 1 { c₁ with buffer := c₁.buffer ++ [Sample.request] }
          Sample.answers = .ok (c₂, ev₂, passes) ∧
        InOrder (Sample.buffered.buffer ++ [Sample.request]) 0 Sample.answers c₂ (ev₁ ++ ev₂)
          passes := by
  have hset : (setupRedirection Sample.globals Sample.start Sample.target 1 Sample.buffered
      1).passes Option.isSome = true := by decide +kernel
  obtain ⟨o, hset, ho⟩ := Except.passes_iff.mp hset
  obtain ⟨⟨s₁, c₁, ev₁⟩, rfl⟩ := Option.isSome_iff_exists.mp ho
  refine ⟨s₁, c₁, ev₁, hset, replay_in_order (h := Sample.hih) rfl ?_ ?_ rfl rfl hset rfl rfl ?_⟩
  · simp [Sample.buffered, Sample.request, Sample.packet, Pkt.stored]
  · simp [Sample.buffered, Sample.request, Sample.packet]
  · simp [Sample.answers, Sample.packet]

end Honeybrid
