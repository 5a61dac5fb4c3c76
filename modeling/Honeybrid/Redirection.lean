import Mathlib.Data.List.TakeWhile
import Honeybrid.Creation
import Honeybrid.Replay

/-!
# What a redirection can do

`setup_redirection` takes the target pin of an exclusive backend, enters the reply key of the
backend in `ext_tree2`, resets the low-interaction honeypot and starts the replay of the buffer. It
gives up when no backend is named, or when the backend is pinned to another target address.

## Main definitions

* `Resets i ev`: the events `ev` are resets sent for the connection `i`.
* `PinnedElsewhere`: an exclusive backend that serves another target address.

## Main results

* `acquireTarget_cases`, `startReplay_cases`, `setupRedirection_cases`: what is left behind.
* `setupRedirection_conn`, `setupRedirection_trees`: the connection and the trees after a
  redirection.
* `setupRedirection_replay`: where the replay starts.
* `setupRedirection_eq_none`: when the redirection is given up.
-/

namespace Honeybrid

variable {μ : Type} {g : Globals} {s s' : State μ} {t : Target} {i : ConnId} {c c' : Conn}
  {h : Handler} {use : HandlerId} {ev : List Event}

/-- The backend `h` is exclusive and pinned to an address other than `ip`. -/
def PinnedElsewhere (g : Globals) (s : State μ) (h : Handler) (ip : IpAddr) : Prop :=
  g.exclusiveHih = 1 ∧ ∃ p, (s.pinTree .target)[targetPinKey h]? = some p ∧ p.ip ≠ ip

/-- The pin of a redirection: none is taken, or the one of the backend. -/
theorem acquireTarget_cases {s₁ : State μ} {c₁ : Conn}
    (ha : acquireTarget g s c h = .ok (some (s₁, c₁))) :
    ¬PinnedElsewhere g s h c.firstPktDstIp ∧
    ((g.exclusiveHih ≠ 1 ∧ s₁ = s ∧ c₁ = c) ∨
    (g.exclusiveHih = 1 ∧ ∃ p, Takes s .target (targetPinKey h) p s₁ ∧
      c₁ = { c with hih := { c.hih with targetPinKey := some (targetPinKey h) } })) := by
  simp only [acquireTarget] at ha
  split_ifs at ha with hex
  · obtain ⟨o, ho, ha⟩ := Except.bind_eq_ok.mp ha
    cases o with
    | none =>
      simp only [Except.pure_eq_ok, Except.ok.injEq, Option.some.injEq, Prod.mk.injEq] at ha
      obtain ⟨rfl, rfl⟩ := ha
      have hnone := lookupPin_none_iff.mp ho
      refine ⟨?_, .inr ⟨hex, _, ⟨rfl, .inl ⟨hnone, rfl⟩⟩, rfl⟩⟩
      rintro ⟨-, p, hp, -⟩
      rw [hnone] at hp
      cases hp
    | some p =>
      obtain ⟨hp, hcount⟩ := lookupPin_some_iff.mp ho
      simp only at ha
      split_ifs at ha with hip
      · cases ha
      · simp only [Except.pure_eq_ok, Except.ok.injEq, Option.some.injEq, Prod.mk.injEq] at ha
        obtain ⟨rfl, rfl⟩ := ha
        refine ⟨?_, .inr ⟨hex, _, ⟨rfl, .inr ⟨p, hp, hcount, rfl⟩⟩, rfl⟩⟩
        rintro ⟨-, q, hq, hne⟩
        rw [hp, Option.some.injEq] at hq
        exact hip (hq ▸ hne)
  · simp only [Except.pure_eq_ok, Except.ok.injEq, Option.some.injEq, Prod.mk.injEq] at ha
    exact ⟨fun hpe => hex hpe.1, .inl ⟨hex, ha.1.symm, ha.2.symm⟩⟩

theorem acquireTarget_eq_none (ha : acquireTarget g s c h = .ok none) :
    PinnedElsewhere g s h c.firstPktDstIp := by
  simp only [acquireTarget] at ha
  split_ifs at ha with hex
  · obtain ⟨o, ho, ha⟩ := Except.bind_eq_ok.mp ha
    cases o with
    | none => cases ha
    | some p =>
      simp only at ha
      split_ifs at ha with hip
      · exact ⟨hex, p, (lookupPin_some_iff.mp ho).1, hip⟩
      · cases ha
  · cases ha

/-- The events are resets sent for the connection `i`. -/
def Resets (i : ConnId) (ev : List Event) : Prop :=
  ∀ x ∈ ev, ∃ e, x = .emitted e ∧ e.id = i ∧ e.sender = .replyReset

theorem Resets.nil : Resets i [] := by
  simp [Resets]

theorem resets_replyReset (i : ConnId) (c : Conn) (iface : Option IfaceId) (pkt : Pkt) :
    Resets i (replyReset i c iface pkt) := by
  cases iface <;> simp [Resets, replyReset]

theorem Resets.not_delivered (hr : Resets i ev) : ev.filterMap Event.delivered = [] := by
  refine List.filterMap_eq_nil_iff.mpr fun x hx => ?_
  obtain ⟨e, rfl, -, he⟩ := hr x hx
  simp [Event.delivered, he]

theorem resetLih_resets (hr : resetLih t i c = .ok ev) : Resets i ev := by
  unfold resetLih at hr
  split at hr
  · cases hr
    exact Resets.nil
  · split at hr
    · split at hr
      · obtain ⟨front, -, hr⟩ := Except.bind_eq_ok.mp hr
        cases hr
        exact resets_replyReset _ _ _ _
      · cases hr
        exact Resets.nil
    · cases hr
      exact Resets.nil

/-- The start of the replay delivers the packets of EXT at the head of what is left of the buffer,
and then expects the answer found behind them, if there is one. -/
theorem startReplay_cases (hb : c.hih.backHandler = some h)
    (hs : startReplay g t i c = .ok (c', ev)) :
    ∃ rst evs, ev = rst ++ evs ∧ Resets i rst ∧
      Deliveries i evs ((c.buffer.drop c.replayId).takeWhile Pkt.isExt) ∧
      (((∀ q ∈ c.buffer.drop c.replayId, q.isExt = true) ∧
        c' = { c with replayId := c.replayId + (c.buffer.drop c.replayId).length }) ∨
      ∃ pre q post, c.buffer.drop c.replayId = pre ++ q :: post ∧
        pre = (c.buffer.drop c.replayId).takeWhile Pkt.isExt ∧ q.isExt = false ∧
        c' = { defineExpectedData c q with replayId := c.replayId + pre.length + 1 }) := by
  simp only [startReplay] at hs
  obtain ⟨rst, hrst, hs⟩ := Except.bind_eq_ok.mp hs
  obtain ⟨⟨c₁, evs, found⟩, hloop, hs⟩ := Except.bind_eq_ok.mp hs
  obtain ⟨rfl, rfl, hd⟩ := forwardingLoop_cases hb hloop
  generalize c.buffer.drop c.replayId = l at *
  have hsplit : l.takeWhile Pkt.isExt ++ l.dropWhile Pkt.isExt = l :=
    List.takeWhile_append_dropWhile
  cases hdrop : l.dropWhile Pkt.isExt with
  | nil =>
    rw [hdrop] at hs
    cases hs
    rw [hdrop, List.append_nil] at hsplit
    refine ⟨rst, evs, rfl, resetLih_resets hrst, hd, .inl ⟨?_, by rw [hsplit]⟩⟩
    rw [← hsplit]
    exact fun q hq => List.all_eq_true.mp List.all_takeWhile q hq
  | cons q post =>
    rw [hdrop] at hs
    cases hs
    rw [hdrop] at hsplit
    refine ⟨rst, evs, rfl, resetLih_resets hrst, hd,
      .inr ⟨_, q, post, hsplit.symm, rfl, ?_, rfl⟩⟩
    have hne : l.dropWhile Pkt.isExt ≠ [] := by simp [hdrop]
    have hhead := List.head_dropWhile_not Pkt.isExt hne
    simpa only [hdrop, List.head_cons] using hhead

/-- The start of the replay moves the cursor and sets the expectation. -/
theorem startReplay_conn (hb : c.hih.backHandler = some h)
    (hs : startReplay g t i c = .ok (c', ev)) :
    ∃ replayId expectedData, c' = { c with replayId, expectedData } := by
  obtain ⟨-, -, -, -, -, ⟨-, rfl⟩ | ⟨pre, q, post, -, -, -, rfl⟩⟩ := startReplay_cases hb hs
  · exact ⟨_, _, rfl⟩
  · exact ⟨_, _, rfl⟩

/-- **Redirection.** What a successful `setup_redirection` leaves behind. -/
theorem setupRedirection_cases
    (hr : setupRedirection g s t i c use = .ok (some (s', c', ev))) :
    ∃ h s₁ c₁, use ≠ 0 ∧ t.backHandlers[use]? = some h ∧
      acquireTarget g s c h = .ok (some (s₁, c₁)) ∧
      s' = { s₁ with extTree2 := s₁.extTree2.insert (redirectedKey c₁ h) i } ∧
      startReplay g t i (c₁.redirectTo use h) = .ok (c', ev) := by
  simp only [setupRedirection] at hr
  split_ifs at hr with huse
  · cases hr
  · obtain ⟨h, hh, hr⟩ := Except.bind_eq_ok.mp hr
    obtain ⟨o, ho, hr⟩ := Except.bind_eq_ok.mp hr
    cases o with
    | none => cases hr
    | some x =>
      obtain ⟨⟨c₂, ev₂⟩, hs, hr⟩ := Except.bind_eq_ok.mp hr
      cases hr
      exact ⟨h, x.1, x.2, huse, Option.orFail_eq_ok.mp hh, ho, rfl, hs⟩

/-- The connection after a redirection to the backend `h`, up to the cursor and what is expected. -/
theorem setupRedirection_conn
    (hr : setupRedirection g s t i c use = .ok (some (s', c', ev))) :
    ∃ h key replayId expectedData, t.backHandlers[use]? = some h ∧
      (key = c.hih.targetPinKey ∨ key = some (targetPinKey h)) ∧
      c' = { c with
        state := .replay, replayId, expectedData
        hih := { c.hih with
          hihID := use, backHandler := some h, port := c.firstPktDstPort, targetPinKey := key
          redirectedIntKey := some (redirectedKey c h) } } := by
  obtain ⟨h, s₁, c₁, -, hh, ha, -, hs⟩ := setupRedirection_cases hr
  obtain ⟨rid, ed, rfl⟩ := startReplay_conn (c := c₁.redirectTo use h) (h := h) rfl hs
  obtain ⟨-, ⟨-, -, rfl⟩ | ⟨-, -, -, rfl⟩⟩ := acquireTarget_cases ha
  · exact ⟨h, _, rid, ed, hh, .inl rfl, rfl⟩
  · exact ⟨h, _, rid, ed, hh, .inr rfl, rfl⟩

/-- A redirection to the backend `h` enters one key in the trees: that of the backend's replies. -/
theorem setupRedirection_trees
    (hr : setupRedirection g s t i c use = .ok (some (s', c', ev))) :
    ∃ h, t.backHandlers[use]? = some h ∧ c'.hih.redirectedIntKey = some (redirectedKey c h) ∧
      SameTrees { s with extTree2 := s.extTree2.insert (redirectedKey c h) i } s' := by
  obtain ⟨h, s₁, c₁, -, hh, ha, rfl, -⟩ := setupRedirection_cases hr
  obtain ⟨h', key, rid, ed, hh', -, rfl⟩ := setupRedirection_conn hr
  obtain rfl : h = h' := Option.some.inj (hh.symm.trans hh')
  refine ⟨h, hh, rfl, ?_⟩
  obtain ⟨-, ⟨-, rfl, rfl⟩ | ⟨-, p, htake, rfl⟩⟩ := acquireTarget_cases ha
  · exact SameTrees.refl _
  · have hs := htake.sameTrees
    exact ⟨hs.extTree1, congrArg (·.insert (redirectedKey c h) i) hs.extTree2, hs.intTree1,
      hs.intTree2, hs.intraTree1, hs.intraTree2⟩

/-- **The start of a replay.** With a buffer as the engine stores it, the cursor is left at the
first packet of the low-interaction honeypot, what lies before it having been delivered. Without
such a packet the whole buffer is delivered and nothing is expected. -/
theorem setupRedirection_replay (hid : c.replayId = 0) (hst : ∀ q ∈ c.buffer, q.stored)
    (hr : setupRedirection g s t i c use = .ok (some (s', c', ev))) :
    c'.buffer = c.buffer ∧
    (((∀ q ∈ c.buffer, q.isExt = true) ∧ c'.expectedData = c.expectedData ∧
      ev.filterMap Event.delivered = c.buffer.map Pkt.original) ∨
    ∃ pre p post, (∀ q ∈ pre, q.isExt = true) ∧ Cursor c.hih.delta c' pre p post ∧
      ev.filterMap Event.delivered = pre.map Pkt.original) := by
  obtain ⟨h, s₁, c₁, -, -, ha, -, hstart⟩ := setupRedirection_cases hr
  -- taking the target pin touches neither the buffer nor the cursor
  have hc₁ : c₁.buffer = c.buffer ∧ c₁.replayId = 0 ∧ c₁.hih.delta = c.hih.delta ∧
      c₁.expectedData = c.expectedData := by
    obtain ⟨-, ⟨-, -, rfl⟩ | ⟨-, -, -, rfl⟩⟩ := acquireTarget_cases ha
    · exact ⟨rfl, hid, rfl, rfl⟩
    · exact ⟨rfl, hid, rfl, rfl⟩
  obtain ⟨hbuf, hid', hdelta, hexp⟩ := hc₁
  obtain ⟨rst, evs, rfl, hrst, hd, hcases⟩ := startReplay_cases
    (c := c₁.redirectTo use h) (h := h) rfl hstart
  have hbuf' : (c₁.redirectTo use h).buffer = c.buffer := hbuf
  have hid'' : (c₁.redirectTo use h).replayId = 0 := hid'
  simp only [hbuf', hid'', List.drop_zero, Nat.zero_add] at hd hcases
  rw [List.filterMap_append, hrst.not_delivered, List.nil_append, hd.1]
  have hpre : ∀ q ∈ c.buffer.takeWhile Pkt.isExt, q.isExt = true :=
    fun q hq => List.all_eq_true.mp List.all_takeWhile q hq
  obtain ⟨hall, rfl⟩ | ⟨pre, q, post, hsplit, rfl, hq, rfl⟩ := hcases
  · refine ⟨rfl, .inl ⟨hall, hexp, ?_⟩⟩
    rw [List.takeWhile_eq_self_iff.mpr hall]
  · refine ⟨hbuf, .inr ⟨_, q, post, hpre, ⟨?_, rfl, (hst q ?_).lih hq, ?_⟩, rfl⟩⟩
    · exact hbuf.trans hsplit
    · rw [hsplit]
      simp
    · exact hdelta ▸ definedFrom_defineExpectedData (c₁.redirectTo use h) q

/-- A packet that is stored behind the cursor. -/
theorem Cursor.store {δ : BitVec 32} {pre post : List Pkt} {p : Pkt} (hc : Cursor δ c pre p post)
    (x : Pkt) : Cursor δ { c with buffer := c.buffer ++ [x] } pre p (post ++ [x]) :=
  ⟨by simp [hc.buffer], hc.replayId, hc.lih, hc.expected⟩

/-- A redirection is given up when no backend is named or the backend is pinned to another
address. -/
theorem setupRedirection_eq_none (hr : setupRedirection g s t i c use = .ok none) :
    use = 0 ∨ ∃ h, t.backHandlers[use]? = some h ∧ PinnedElsewhere g s h c.firstPktDstIp := by
  simp only [setupRedirection] at hr
  split_ifs at hr with huse
  · exact .inl huse
  · obtain ⟨h, hh, hr⟩ := Except.bind_eq_ok.mp hr
    obtain ⟨o, ho, hr⟩ := Except.bind_eq_ok.mp hr
    cases o with
    | none => exact .inr ⟨h, Option.orFail_eq_ok.mp hh, acquireTarget_eq_none ho⟩
    | some x =>
      obtain ⟨⟨c₂, ev₂⟩, hs, hr⟩ := Except.bind_eq_ok.mp hr
      cases hr

end Honeybrid
