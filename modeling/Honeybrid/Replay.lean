import Honeybrid.Lib.Gated
import Honeybrid.Connections

/-!
# The replay of a buffer

When a connection is redirected, its buffer is gone through in order: packets of EXT are sent to
the high-interaction honeypot, and at every packet of the low-interaction honeypot the replay waits
until the other honeypot has given the answer expected there. The cursor `replay_id` is moved by
two loops, the one of `setup_redirection` and the one of `replay`; this file says what each of them
does to the cursor and what it delivers.

## Main definitions

* `DefinedFrom δ p e`: the expectation `e` was defined from the packet `p` with the offset `δ`.
* `Cursor c pre p post`: the replay waits at the packet `p` of the buffer.
* `Conn.hasBackend`: the connection has a backend, and it can be reached.

## Main results

* `forwardingLoop_cases`, `replayLoop_cases`: what the two loops do.
* `Cursor.replay_cases`: an answer leaves the cursor, moves it to the next packet of the
  low-interaction honeypot, or ends the replay.
* `Cursor.replay_ok`: the replay of a buffer never fails.
-/

namespace Honeybrid

variable {μ : Type} {g : Globals} {t : Target} {i : ConnId} {c c' : Conn} {pkt : Pkt}
  {l : List Pkt} {ev : List Event}

/-! ### Packets of the buffer -/

/-- A packet of EXT. -/
def Pkt.isExt (p : Pkt) : Bool :=
  p.origin = .ext

/-- What the engine stores: packets of EXT and of the low-interaction honeypot, without the
flag `DE`. -/
def Pkt.stored (p : Pkt) : Prop :=
  (p.origin = .ext ∨ p.origin = .lih) ∧ p.de = 0

theorem Pkt.stored.lih {p : Pkt} (h : p.stored) (hp : p.isExt = false) : p.origin = .lih := by
  obtain ⟨ho | ho, -⟩ := h
  · simp [Pkt.isExt, ho] at hp
  · exact ho

/-- The frame a packet delivered to the high-interaction honeypot was captured as. -/
def Event.delivered : Event → Option Frame
  | .emitted e => if e.sender = .forwardExt2hih then some e.pkt.original else none
  | _ => none

/-! ### Sending to the backend -/

/-- The connection has a backend whose interface is known. -/
def Conn.hasBackend (c : Conn) : Prop :=
  ∃ h out, c.hih.backHandler = some h ∧ h.iface = some out

theorem forwardExt2hih_cases {h : Handler} {p' : Pkt} (hb : c.hih.backHandler = some h)
    (hf : forwardExt2hih g i c pkt = .ok (p', ev)) :
    ∃ out, p'.original = pkt.original ∧ p'.origin = pkt.origin ∧
      ev = [inject i c .forwardExt2hih out p'] := by
  simp only [forwardExt2hih, hb] at hf
  obtain ⟨out, -, hf⟩ := Except.bind_eq_ok.mp hf
  simp only [Except.pure_eq_ok, Except.ok.injEq, Prod.mk.injEq] at hf
  obtain ⟨rfl, rfl⟩ := hf
  exact ⟨out, rfl, rfl, rfl⟩

theorem forwardExt2hih_ok (g : Globals) (i : ConnId) (pkt : Pkt) (hb : c.hasBackend) :
    ∃ r, forwardExt2hih g i c pkt = .ok r := by
  obtain ⟨h, out, hb, hout⟩ := hb
  simp [forwardExt2hih, hb, hout]

/-- The events are packets sent to the backend of the connection `i`. -/
def Sends (i : ConnId) (ev : List Event) : Prop :=
  ∀ x ∈ ev, ∃ e, x = .emitted e ∧ e.id = i ∧ e.sender = .forwardExt2hih

theorem Sends.nil : Sends i [] := by
  simp [Sends]

theorem Sends.append {ev₁ ev₂ : List Event} (h₁ : Sends i ev₁) (h₂ : Sends i ev₂) :
    Sends i (ev₁ ++ ev₂) := by
  intro x hx
  obtain hx | hx := List.mem_append.mp hx
  · exact h₁ x hx
  · exact h₂ x hx

theorem forwardExt2hih_sends {p' : Pkt} (hf : forwardExt2hih g i c pkt = .ok (p', ev)) :
    Sends i ev := by
  cases hb : c.hih.backHandler with
  | none =>
    simp only [forwardExt2hih, hb] at hf
    cases hf
    exact Sends.nil
  | some h =>
    obtain ⟨out, -, -, rfl⟩ := forwardExt2hih_cases hb hf
    simp [Sends, inject]

/-- The events by which the packets of a list are sent to the backend of the connection `i`. -/
def Deliveries (i : ConnId) (ev : List Event) (l : List Pkt) : Prop :=
  ev.filterMap Event.delivered = l.map Pkt.original ∧ Sends i ev

theorem Deliveries.sends (h : Deliveries i ev l) : Sends i ev :=
  h.2

theorem Deliveries.nil : Deliveries i [] [] :=
  ⟨rfl, Sends.nil⟩

theorem Deliveries.cons {l : List Pkt} {ev₁ ev₂ : List Event} {h : Handler} {p' : Pkt}
    (hb : c.hih.backHandler = some h) (hf : forwardExt2hih g i c pkt = .ok (p', ev₁))
    (hd : Deliveries i ev₂ l) : Deliveries i (ev₁ ++ ev₂) (pkt :: l) := by
  refine ⟨?_, (forwardExt2hih_sends hf).append hd.2⟩
  obtain ⟨out, ho, -, rfl⟩ := forwardExt2hih_cases hb hf
  simp [inject, Event.delivered, ho, hd.1]

/-! ### The loop of `setup_redirection` -/

/-- The forwarding loop sends the packets of EXT at the head of the list and returns what it has
found behind them. -/
theorem forwardingLoop_cases {h : Handler} {found : Option Pkt} (hb : c.hih.backHandler = some h)
    (hf : forwardingLoop g i c l = .ok (c', ev, found)) :
    c' = { c with replayId := c.replayId + (l.takeWhile Pkt.isExt).length } ∧
      found = (l.dropWhile Pkt.isExt).head? ∧ Deliveries i ev (l.takeWhile Pkt.isExt) := by
  induction l generalizing c c' ev found with
  | nil =>
    cases hf
    exact ⟨rfl, rfl, Deliveries.nil⟩
  | cons p l ih =>
    simp only [forwardingLoop] at hf
    split_ifs at hf with hp
    · obtain ⟨⟨p', ev₁⟩, hfwd, hf⟩ := Except.bind_eq_ok.mp hf
      obtain ⟨⟨c₁, ev₂, found₁⟩, hloop, hf⟩ := Except.bind_eq_ok.mp hf
      cases hf
      obtain ⟨rfl, rfl, hd⟩ := ih (c := { c with replayId := c.replayId + 1 }) hb hloop
      have hpe : p.isExt = true := by simp [Pkt.isExt, hp]
      rw [List.takeWhile_cons_of_pos hpe, List.dropWhile_cons_of_pos hpe]
      refine ⟨?_, rfl, Deliveries.cons hb hfwd hd⟩
      simp only [List.length_cons, Nat.add_assoc, Nat.add_comm 1]
    · cases hf
      have hpe : ¬p.isExt = true := by simp [Pkt.isExt, hp]
      rw [List.takeWhile_cons_of_neg hpe, List.dropWhile_cons_of_neg hpe]
      exact ⟨rfl, rfl, Deliveries.nil⟩

/-! ### The loop of `replay` -/

theorem replayLoop_last {p : Pkt} (hp : p.origin = .ext) :
    replayLoop g i c 0 p [] = do
      let r ← forwardExt2hih g i c p
      return ({ c with state := .forward }, r.2) := by
  unfold replayLoop
  rw [if_pos (.inl hp), replayPkt, if_pos hp]
  cases forwardExt2hih g i c p <;> rfl

theorem replayLoop_next {p q : Pkt} (hp : p.origin = .ext) :
    replayLoop g i c 0 p (q :: l) = do
      let r ← forwardExt2hih g i c p
      let r' ← replayLoop g i { c with replayId := c.replayId + 1 } q.de q l
      return (r'.1, r.2 ++ r'.2) := by
  conv_lhs => unfold replayLoop
  rw [if_pos (.inl hp), replayPkt, if_pos hp]
  cases forwardExt2hih g i c p <;> rfl

theorem replayLoop_stop {p : Pkt} (hp : p.origin ≠ .ext) :
    replayLoop g i c 0 p l =
      .ok ({ defineExpectedData c p with replayId := c.replayId + 1 }, []) := by
  unfold replayLoop
  rw [if_neg (by simp [hp])]
  rfl

/-- The loop of `replay` sends the packets of EXT at the head of the list. It ends in FORWARD when
there is nothing else, and otherwise expects the answer found behind them. -/
theorem replayLoop_cases {h : Handler} {p : Pkt} (hb : c.hih.backHandler = some h)
    (hde : ∀ q ∈ l, q.de = 0) (hr : replayLoop g i c 0 p l = .ok (c', ev)) :
    (c' = { c with state := .forward, replayId := c.replayId + l.length } ∧
      (∀ q ∈ p :: l, q.isExt = true) ∧ Deliveries i ev (p :: l)) ∨
    (∃ mid q post, p :: l = mid ++ q :: post ∧ (∀ x ∈ mid, x.isExt = true) ∧ q.isExt = false ∧
      c' = { defineExpectedData c q with replayId := c.replayId + mid.length + 1 } ∧
      Deliveries i ev mid) := by
  induction l generalizing c c' ev p with
  | nil =>
    by_cases hp : p.origin = .ext
    · rw [replayLoop_last hp] at hr
      obtain ⟨⟨p', ev₁⟩, hfwd, hr⟩ := Except.bind_eq_ok.mp hr
      cases hr
      refine .inl ⟨rfl, by simp [Pkt.isExt, hp], ?_⟩
      simpa using Deliveries.cons (l := []) hb hfwd Deliveries.nil
    · rw [replayLoop_stop hp] at hr
      cases hr
      exact .inr ⟨[], p, [], rfl, by simp, by simp [Pkt.isExt, hp], rfl, Deliveries.nil⟩
  | cons q l ih =>
    by_cases hp : p.origin = .ext
    · rw [replayLoop_next hp] at hr
      obtain ⟨⟨p', ev₁⟩, hfwd, hr⟩ := Except.bind_eq_ok.mp hr
      obtain ⟨⟨c₁, ev₂⟩, hloop, hr⟩ := Except.bind_eq_ok.mp hr
      cases hr
      have hpe : p.isExt = true := by simp [Pkt.isExt, hp]
      rw [hde q (List.mem_cons_self ..)] at hloop
      obtain ⟨rfl, hall, hd⟩ | ⟨mid, x, post, hl, hmid, hx, rfl, hd⟩ :=
        ih (c := { c with replayId := c.replayId + 1 }) hb
          (fun y hy => hde y (List.mem_cons_of_mem _ hy)) hloop
      · refine .inl ⟨?_, ?_, Deliveries.cons hb hfwd hd⟩
        · simp only [List.length_cons, Nat.add_assoc, Nat.add_comm 1]
        · simpa [hpe] using hall
      · refine .inr ⟨p :: mid, x, post, by rw [hl]; rfl, by simpa [hpe] using hmid, hx, ?_,
          Deliveries.cons hb hfwd hd⟩
        simp only [defineExpectedData, List.length_cons, Nat.add_assoc, Nat.add_comm 1]
    · rw [replayLoop_stop hp] at hr
      cases hr
      exact .inr ⟨[], p, q :: l, rfl, by simp, by simp [Pkt.isExt, hp], rfl, Deliveries.nil⟩

theorem replayLoop_ok {p : Pkt} (hb : c.hasBackend) (hde : ∀ q ∈ l, q.de = 0) :
    ∃ r, replayLoop g i c 0 p l = .ok r := by
  induction l generalizing c p with
  | nil =>
    by_cases hp : p.origin = .ext
    · obtain ⟨r, hr⟩ := forwardExt2hih_ok g i p hb
      rw [replayLoop_last hp, hr]
      exact ⟨_, rfl⟩
    · exact ⟨_, replayLoop_stop hp⟩
  | cons q l ih =>
    by_cases hp : p.origin = .ext
    · obtain ⟨r, hr⟩ := forwardExt2hih_ok g i p hb
      obtain ⟨r', hr'⟩ := ih (c := { c with replayId := c.replayId + 1 }) (p := q) hb
        fun y hy => hde y (List.mem_cons_of_mem _ hy)
      rw [replayLoop_next hp, hr, hde q (List.mem_cons_self ..), hr']
      exact ⟨_, rfl⟩
    · exact ⟨_, replayLoop_stop hp⟩

/-! ### The cursor -/

/-- The expectation `e` was defined from the packet `p`, with the offset `δ` between the sequence
numbers of the two honeypots. -/
def DefinedFrom (δ : BitVec 32) (p : Pkt) (e : ExpectedData) : Prop :=
  e.ipProto = p.packet.protocol ∧ e.payload = p.packet.payload ∧
    (p.packet.protocol = IPPROTO_TCP →
      e.tcpSeq = p.packet.tcp.seq - δ ∧ e.tcpAckSeq = p.packet.tcp.ackSeq ∧
        e.tcpTs = p.packet.tcp.ts)

theorem definedFrom_defineExpectedData (c : Conn) (p : Pkt) :
    DefinedFrom c.hih.delta p (defineExpectedData c p).expectedData := by
  unfold defineExpectedData
  split_ifs with hp
  · exact ⟨rfl, rfl, fun _ => ⟨rfl, rfl, rfl⟩⟩
  · exact ⟨rfl, rfl, fun h => absurd h hp⟩

/-- The replay waits at the packet `p` of the buffer, whose answer is expected. -/
structure Cursor (δ : BitVec 32) (c : Conn) (pre : List Pkt) (p : Pkt) (post : List Pkt) :
    Prop where
  buffer : c.buffer = pre ++ p :: post
  replayId : c.replayId = pre.length + 1
  lih : p.origin = .lih
  expected : DefinedFrom δ p c.expectedData

/-- `test_expected` records problems and nothing else. -/
theorem testExpected_conn (c : Conn) (pkt : Pkt) :
    ∃ rp diff, (testExpected c pkt).1 = { c with replayProblem := rp, tcpTsDiff := diff } := by
  have hts (c : Conn) (ts : Option (BitVec 32)) :
      ∃ rp diff, testTimestamps c ts = { c with replayProblem := rp, tcpTsDiff := diff } := by
    unfold testTimestamps
    split
    · exact ⟨_, _, rfl⟩
    · split_ifs
      · exact ⟨_, _, rfl⟩
      · exact ⟨_, _, rfl⟩
    · exact ⟨_, _, rfl⟩
    · exact ⟨_, _, rfl⟩
  have hpl (c : Conn) : ∃ rp, testPayload c pkt = { c with replayProblem := rp } := by
    unfold testPayload
    split_ifs
    · exact ⟨_, rfl⟩
    · exact ⟨_, rfl⟩
  unfold testExpected
  simp only
  split_ifs
  · exact ⟨_, _, rfl⟩
  · exact ⟨_, _, rfl⟩
  · exact ⟨_, _, rfl⟩
  · obtain ⟨rp, diff, h⟩ := hts c pkt.packet.tcp.ts
    obtain ⟨rp', h'⟩ := hpl (testTimestamps c pkt.packet.tcp.ts)
    exact ⟨rp', diff, by rw [h', h]⟩
  · obtain ⟨rp, h⟩ := hpl c
    exact ⟨rp, _, h⟩

/-- `c'` is `c` up to the fields the replay works with. -/
def ReplayOf (c c' : Conn) : Prop :=
  ∃ state replayId expectedData replayProblem tcpTsDiff,
    c' = { c with state, replayId, expectedData, replayProblem, tcpTsDiff }

theorem ReplayOf.refl (c : Conn) : ReplayOf c c :=
  ⟨_, _, _, _, _, rfl⟩

theorem ReplayOf.trans {c₁ c₂ c₃ : Conn} (h : ReplayOf c₁ c₂) (h' : ReplayOf c₂ c₃) :
    ReplayOf c₁ c₃ := by
  obtain ⟨_, _, _, _, _, rfl⟩ := h
  obtain ⟨_, _, _, _, _, rfl⟩ := h'
  exact ⟨_, _, _, _, _, rfl⟩

theorem replayPkt_sends {p : Pkt} (hr : replayPkt g i c p = .ok ev) : Sends i ev := by
  unfold replayPkt at hr
  split at hr
  · obtain ⟨r, hfwd, hr⟩ := Except.bind_eq_ok.mp hr
    cases hr
    exact forwardExt2hih_sends hfwd
  · cases hr
    exact Sends.nil

theorem replayLoop_frame {p : Pkt} {de : ℕ} (hr : replayLoop g i c de p l = .ok (c', ev)) :
    ReplayOf c c' ∧ (c'.state = c.state ∨ c'.state = .forward) ∧ Sends i ev := by
  induction l generalizing c c' ev p de with
  | nil =>
    unfold replayLoop at hr
    split at hr
    · obtain ⟨ev₁, hev, hr⟩ := Except.bind_eq_ok.mp hr
      cases hr
      exact ⟨⟨_, _, _, _, _, rfl⟩, .inr rfl, replayPkt_sends hev⟩
    · cases hr
      exact ⟨⟨_, _, _, _, _, rfl⟩, .inl rfl, Sends.nil⟩
  | cons q l ih =>
    unfold replayLoop at hr
    split at hr
    · obtain ⟨ev₁, hev, hr⟩ := Except.bind_eq_ok.mp hr
      obtain ⟨⟨c₁, ev₂⟩, hloop, hr⟩ := Except.bind_eq_ok.mp hr
      cases hr
      obtain ⟨hof, hst, hsend⟩ := ih hloop
      exact ⟨ReplayOf.trans ⟨_, _, _, _, _, rfl⟩ hof, hst, (replayPkt_sends hev).append hsend⟩
    · cases hr
      exact ⟨⟨_, _, _, _, _, rfl⟩, .inl rfl, Sends.nil⟩

/-- `replay` works with its own fields, keeps the state or moves to FORWARD, and sends to the
backend only. -/
theorem replay_frame (hr : replay g i c pkt = .ok (c', ev)) :
    ReplayOf c c' ∧ (c'.state = c.state ∨ c'.state = .forward) ∧ Sends i ev := by
  unfold replay at hr
  split at hr
  · cases hr
    exact ⟨ReplayOf.refl c, .inl rfl, Sends.nil⟩
  · obtain ⟨rp, diff, hte⟩ := testExpected_conn c pkt
    split at hr
    · rename_i c₁ heq
      rw [heq] at hte
      cases hr
      cases hte
      exact ⟨⟨_, _, _, _, _, rfl⟩, .inl rfl, Sends.nil⟩
    · rename_i c₁ heq
      rw [heq] at hte
      cases hte
      split at hr
      · cases hr
      · obtain ⟨hof, hst, hsend⟩ := replayLoop_frame hr
        exact ⟨ReplayOf.trans ⟨_, _, _, _, _, rfl⟩ hof, hst, hsend⟩

theorem Cursor.drop {δ : BitVec 32} {pre post : List Pkt} {p : Pkt} (hc : Cursor δ c pre p post) :
    c.buffer.drop c.replayId = post := by
  rw [hc.buffer, hc.replayId, List.drop_append, List.drop_eq_nil_of_le (Nat.le_succ _)]
  simp

/-- **Answers.** A packet of the high-interaction honeypot that is not the expected answer leaves
the cursor. The expected answer delivers the packets of EXT behind the cursor, up to the next
packet of the low-interaction honeypot, where the cursor stops, or to the end of the buffer. -/
theorem Cursor.replay_cases {δ : BitVec 32} {pre post : List Pkt} {p : Pkt} {h : Handler}
    (hc : Cursor δ c pre p post) (hb : c.hih.backHandler = some h)
    (hst : ∀ q ∈ c.buffer, q.stored) (hp : pkt.origin = .hih)
    (hr : replay g i c pkt = .ok (c', ev)) :
    ReplayOf c c' ∧
    (((testExpected c pkt).2 = .nok ∧ ev = [] ∧ c'.state = c.state ∧ Cursor δ c' pre p post) ∨
    ((testExpected c pkt).2 = .ok ∧ c'.state = .forward ∧ post ≠ [] ∧
      (∀ q ∈ post, q.isExt = true) ∧ Deliveries i ev post) ∨
    ((testExpected c pkt).2 = .ok ∧ c'.state = c.state ∧ ∃ mid q post', post = mid ++ q :: post' ∧
      (∀ x ∈ mid, x.isExt = true) ∧ Cursor c.hih.delta c' (pre ++ p :: mid) q post' ∧
      Deliveries i ev mid)) := by
  obtain ⟨rp, diff, hte⟩ := testExpected_conn c pkt
  have hpair : testExpected c pkt =
      ({ c with replayProblem := rp, tcpTsDiff := diff }, (testExpected c pkt).2) :=
    Prod.ext hte rfl
  unfold replay at hr
  rw [if_neg (by simp [hp]), hpair] at hr
  cases hres : (testExpected c pkt).2 with
  | nok =>
    rw [hres] at hr
    cases hr
    refine ⟨⟨_, _, _, _, _, rfl⟩, .inl ⟨rfl, rfl, rfl, ?_⟩⟩
    exact ⟨hc.buffer, hc.replayId, hc.lih, hc.expected⟩
  | ok =>
    rw [hres] at hr
    simp only [hc.drop] at hr
    cases post with
    | nil => cases hr
    | cons q post =>
      have hmem : ∀ x ∈ q :: post, x.stored := fun x hx => hst x (by
        rw [hc.buffer]
        exact List.mem_append_right _ (List.mem_cons_of_mem _ hx))
      simp only [(hmem q (List.mem_cons_self ..)).2] at hr
      obtain ⟨rfl, hall, hd⟩ | ⟨mid, x, post', hl, hmid, hx, rfl, hd⟩ :=
        replayLoop_cases (c := { c with replayProblem := rp, tcpTsDiff := diff }) hb
          (fun x hx => (hmem x (List.mem_cons_of_mem _ hx)).2) hr
      · exact ⟨⟨_, _, _, _, _, rfl⟩, .inr (.inl ⟨rfl, rfl, by simp, hall, hd⟩)⟩
      · refine ⟨⟨_, _, _, _, _, rfl⟩, .inr (.inr ⟨rfl, rfl, mid, x, post', hl, hmid, ?_, hd⟩)⟩
        refine ⟨?_, ?_, (hmem x ?_).lih hx, definedFrom_defineExpectedData _ x⟩
        · simp only [defineExpectedData]
          rw [hc.buffer, hl, List.append_assoc, List.cons_append]
        · simp only [hc.replayId, List.length_append, List.length_cons]
          omega
        · rw [hl]
          simp

/-- The replay of a buffer never reads behind its end while something is left behind the
cursor. -/
theorem Cursor.replay_ok {δ : BitVec 32} {pre post : List Pkt} {p : Pkt} (g : Globals) (i : ConnId)
    (pkt : Pkt) (hc : Cursor δ c pre p post) (hpost : post ≠ []) (hb : c.hasBackend)
    (hst : ∀ q ∈ c.buffer, q.stored) : ∃ r, replay g i c pkt = .ok r := by
  obtain ⟨rp, diff, hte⟩ := testExpected_conn c pkt
  have hpair : testExpected c pkt =
      ({ c with replayProblem := rp, tcpTsDiff := diff }, (testExpected c pkt).2) :=
    Prod.ext hte rfl
  unfold replay
  split_ifs
  · exact ⟨_, rfl⟩
  · rw [hpair]
    cases (testExpected c pkt).2 with
    | nok => exact ⟨_, rfl⟩
    | ok =>
      simp only [hc.drop]
      obtain ⟨q, post, rfl⟩ := List.exists_cons_of_ne_nil hpost
      have hmem : ∀ x ∈ q :: post, x.de = 0 := fun x hx => (hst x (by
        rw [hc.buffer]
        exact List.mem_append_right _ (List.mem_cons_of_mem _ hx))).2
      simp only [hmem q (List.mem_cons_self ..)]
      exact replayLoop_ok hb fun x hx => hmem x (List.mem_cons_of_mem _ hx)

end Honeybrid
