import Honeybrid.Buffering
import Honeybrid.Containment
import Honeybrid.ReplayOrder

/-!
# The cursor of a replay

While a connection is in REPLAY, `replay_id` is to stand just behind a packet of the low-interaction
honeypot whose answer is expected, with a packet of the buffer at the cursor itself. Nothing in
`setup_redirection` makes sure of this: without a packet of the low-interaction honeypot the loop
runs off the end of the buffer and nothing is expected, and a full buffer that ends in such a packet
leaves nothing behind it. Whenever a redirection finds a buffer of neither kind, the invariant holds
in every state that follows.

## Main definitions

* `Replayable`: the buffers a redirection can replay.
* `RedirectsReplayable`: the condition on a step.
* `Waiting`: the invariant of a connection in REPLAY.
* `AnswersAs`: a packet that answers as another one did.

## Main results

* `Life.sound`: the step lemma.
* `replay_cursor`: the theorem about runs.
-/

namespace Honeybrid

variable {μ : Type} {mods : Modules μ} {g : Globals} {s s₁ : State μ} {i : ConnId}
  {pkt p q : Pkt} {c c' : Conn} {w : Work μ} {tr ev : List Event} {raw : RawPcap} {now : ℤ}
  {δ : BitVec 32} {pre post : List Pkt} {targets : Std.TreeMap TargetId Target intcmp}
  {ifTarget : Std.TreeMap IfaceId TargetId} {mem : μ}

/-- A buffer that holds a packet of the low-interaction honeypot and either has room for one more
packet or ends in a packet of EXT. -/
def Replayable (g : Globals) (l : List Pkt) : Prop :=
  (∃ q ∈ l, q.origin = .lih) ∧
    (l.length < g.maxPacketBuffer ∨ ∃ x, l.getLast? = some x ∧ x.origin = .ext)

/-- If the step redirects a connection from EXT, its buffer can be replayed. -/
def RedirectsReplayable (mods : Modules μ) (g : Globals) (s : State μ) : Input → Prop
  | .packet raw now => ∀ s₁ i pkt c, assign g s raw now = .ok (s₁, some (i, pkt)) →
      s₁.conns[i]? = some c → c.initiator = .ext → pkt.origin = .ext →
      Redirects mods g i pkt ⟨s₁, c⟩ → Replayable g c.buffer
  | .sweep .. => True

/-- The invariant of a connection in REPLAY: the cursor stands behind a packet of the
low-interaction honeypot, and the buffer ends in a packet of EXT. -/
structure Waiting (targets : Std.TreeMap TargetId Target intcmp) (c : Conn) : Prop where
  backed : Backed targets c
  stored : ∀ q ∈ c.buffer, q.stored
  cursor : ∃ δ pre p post x, Cursor δ c pre p post ∧ post.getLast? = some x ∧ x.isExt = true

/-- The invariant of a connection from EXT. -/
structure Sound (targets : Std.TreeMap TargetId Target intcmp) (c : Conn) : Prop where
  gathered : c.state = .init ∨ c.state = .decision → Gathered c
  backends : c.state = .decision → ∃ t, targets[c.target]? = some t ∧ t.hasBackends = true
  waiting : c.state = .replay → Waiting targets c

theorem Cursor.congr (hc : Cursor δ c pre p post) (hs : SameReplay c c') :
    Cursor δ c' pre p post :=
  ⟨hs.buffer.trans hc.buffer, hs.replayId.trans hc.replayId, hc.lih, hs.expectedData ▸ hc.expected⟩

/-! ### Steps -/

/-- The target of a connection has backends. -/
theorem hasBackends_of_fixed {id : TargetId} {t t' : Target} (ht : targets[id]? = some t)
    (hb : t.hasBackends = true) (ht' : targets[id]?.map Target.fixed = some t'.fixed) :
    t'.hasBackends = true := by
  rw [ht, Option.map_some, Option.some.injEq] at ht'
  rw [← Target.hasBackends_of_fixed ht', hb]

/-- A redirection of a buffer that can be replayed. -/
theorem Redirected.waiting (hr : Redirected targets c c'
      (if c.buffer.length < g.maxPacketBuffer then [pkt] else []) ev)
    (hG : Gathered c) (hl : Replayable g c.buffer) (hpkt : pkt.stored) (ho : pkt.origin = .ext) :
    Waiting targets c' := by
  obtain ⟨⟨q, hq, hlih⟩, hlast⟩ := hl
  refine ⟨hr.backed, fun y hy => ?_, ?_⟩
  · rw [hr.buffer] at hy
    obtain hy | hy := List.mem_append.mp hy
    · exact hG.stored y hy
    · split_ifs at hy
      · rw [List.mem_singleton.mp hy]
        exact hpkt
      · cases hy
  · obtain ⟨hall, -⟩ | ⟨pre, p, post, hpre, hcur, -⟩ := hr.cursor
    · have hqe := hall q hq
      simp [Pkt.isExt, hlih] at hqe
    · by_cases hlt : c.buffer.length < g.maxPacketBuffer
      · rw [if_pos hlt] at hcur
        exact ⟨_, pre, p, _, pkt, hcur, by simp, by simp [Pkt.isExt, ho]⟩
      · obtain ⟨x, hx, hxo⟩ := hlast.resolve_left hlt
        have hbuf := hr.buffer
        rw [if_neg hlt, List.append_nil] at hcur hbuf
        refine ⟨_, pre, p, post, x, hcur, ?_, by simp [Pkt.isExt, hxo]⟩
        rw [← hbuf, hcur.buffer] at hx
        exact getLast?_isExt_of_append hx (by simp [Pkt.isExt, hxo]) hcur.not_isExt

/-- An answer of the high-interaction honeypot keeps the invariant, or ends the replay. -/
theorem Waiting.answer (hW : Waiting targets c) (ho : pkt.origin = .hih)
    (hr : replay g i (noteDelta pkt c) pkt = .ok (c', ev)) (hs : c'.state = .replay) :
    Waiting targets c' := by
  obtain ⟨δ, pre, p, post, x, hcur, hlast, hx⟩ := hW.cursor
  have hback : Backed targets (noteDelta pkt c) := hW.backed.noteDelta
  have hb : ∃ h, (noteDelta pkt c).hih.backHandler = some h := by
    obtain ⟨t, use, h, -, -, hb⟩ := hback
    exact ⟨h, hb⟩
  obtain ⟨h, hb⟩ := hb
  have hst : ∀ q ∈ (noteDelta pkt c).buffer, q.stored := by
    obtain ⟨d, hd⟩ := noteDelta_conn pkt c
    rw [hd]
    exact hW.stored
  obtain ⟨hof, hcases⟩ := (hcur.noteDelta (q := pkt)).replay_cases hb hst ho hr
  have hst' : ∀ q ∈ c'.buffer, q.stored := by
    obtain ⟨_, _, _, _, _, rfl⟩ := hof
    exact hst
  refine ⟨hback.of_replayOf hof, hst', ?_⟩
  obtain ⟨-, -, -, hcur'⟩ | ⟨-, hfwd, -⟩ | ⟨-, -, mid, y, post', hpost, -, hcur', -⟩ := hcases
  · exact ⟨δ, pre, p, post, x, hcur', hlast, hx⟩
  · rw [hs] at hfwd
    cases hfwd
  · refine ⟨_, _, y, post', x, hcur', ?_, hx⟩
    exact getLast?_isExt_of_append (hpost ▸ hlast) hx hcur'.not_isExt

/-- **Steps.** What a packet makes of a connection from EXT, if a redirection finds a buffer that
can be replayed. -/
theorem Life.sound (hS : Sound targets w.conn) (hde : pkt.de = 0)
    (htar : w.st.targets[w.conn.target]?.map Target.fixed =
      targets[w.conn.target]?.map Target.fixed)
    (hred : pkt.origin = .ext → Redirects mods g i pkt w → Replayable g w.conn.buffer)
    (hflow : c'.target = w.conn.target) (h : Life mods g i pkt w c' ev) : Sound targets c' := by
  cases h with
  | rest hs hev hext => exact hS
  | @early t c pkt' ev ho hs ht hc hnew hsame hpkt hev =>
    have hst : (keepPkt g t c pkt').state = c.state := (keepPkt_state ..).1
    refine ⟨fun _ => ((hS.gathered hs).congr hsame).keep (hpkt.stored ho hde), fun hdec => ?_,
      fun hr => ?_⟩
    · rw [hflow]
      rw [htar] at ht
      obtain hs | hs := hs
      · obtain ⟨t', ht', hfix⟩ := Option.map_eq_some_iff.mp ht
        exact ⟨t', ht', by rw [Target.hasBackends_of_fixed hfix, hnew hs (hst ▸ hdec)]⟩
      · exact hS.backends hs
    · rw [hst] at hr
      rcases hc with ⟨h, -⟩ | h | h <;> simp [h] at hr
  | away ho hs hc hev =>
    refine ⟨fun h => ?_, fun h => ?_, fun h => ?_⟩ <;> rcases hc with hc | hc <;> simp [hc] at h
  | @redirect s₁ s₂ t₁ t use c ev₁ ev₂ ho hs hred' ht₁ hr ht hev =>
    obtain ⟨t', ht', hb⟩ := hS.backends hs
    rw [htar] at ht₁ ht
    have hG := hS.gathered (.inr hs)
    have hR : Redirected targets w.conn (keepPkt g t c pkt) _ (ev₁ ++ ev₂) :=
      hG.redirect ht₁ hr (hasBackends_of_fixed ht' hb ht) hev
    have hst := hR.state
    exact ⟨by simp [hst], by simp [hst],
      fun _ => hR.waiting hG (hred ho hred') ⟨.inl ho, hde⟩ ho⟩
  | answer ho hs hr =>
    obtain ⟨-, hst, -⟩ := replay_frame hr
    obtain ⟨d, hd⟩ := noteDelta_conn pkt w.conn
    have hst' : c'.state = .replay ∨ c'.state = .forward := by
      rw [hd] at hst
      exact hst.imp_left fun h => h.trans hs
    refine ⟨fun h => ?_, fun h => ?_, (hS.waiting hs).answer ho hr⟩ <;>
      rcases hst' with hst' | hst' <;> simp [hst'] at h
  | forward ho hs hf => exact hS

/-! ### Answers -/

/-- The packet `q` answers as the packet `p` of the low-interaction honeypot did, with the offset
`δ` between the sequence numbers of the two honeypots. -/
def AnswersAs (δ : BitVec 32) (p q : Pkt) : Prop :=
  q.packet.protocol = p.packet.protocol ∧
    (p.packet.protocol = IPPROTO_TCP →
      (q.packet.tcp.syn = true ∨ q.packet.tcp.seq = p.packet.tcp.seq - δ) ∧
        q.packet.tcp.ackSeq = p.packet.tcp.ackSeq)

theorem Cursor.testExpected (hc : Cursor δ c pre p post) (hq : AnswersAs δ p q) :
    (testExpected c q).2 = .ok := by
  obtain ⟨hproto, -, htcp⟩ := hc.expected
  obtain ⟨hq, hans⟩ := hq
  unfold Honeybrid.testExpected
  simp only
  rw [if_neg (by rw [hproto, hq]; simp)]
  split_ifs with h₁ h₂ h₃
  · obtain ⟨hseq, -⟩ := hans (hq ▸ h₁)
    obtain ⟨hsyn, hne⟩ := h₂
    rw [(htcp (hq ▸ h₁)).1] at hne
    exact absurd (hseq.resolve_left (by simp [hsyn])) hne
  · rw [(htcp (hq ▸ h₁)).2.1] at h₃
    exact absurd (hans (hq ▸ h₁)).2 h₃
  · rfl
  · rfl

/-- What is promised of a connection in REPLAY: the packet before the cursor was sent by the
low-interaction honeypot and its answer is expected, the packet at the cursor exists, `replay` does
not fail, the expected answer moves it on, and once every packet of the low-interaction honeypot has
been answered the connection is in FORWARD. -/
structure Waits (g : Globals) (i : ConnId) (c : Conn) (δ : BitVec 32) (pre : List Pkt) (p : Pkt)
    (post : List Pkt) : Prop where
  buffer : c.buffer = pre ++ p :: post
  last : c.buffer[c.replayId - 1]? = some p
  lih : p.origin = .lih
  expected : DefinedFrom δ p c.expectedData
  next : ∃ q, c.buffer[c.replayId]? = some q
  safe : ∀ q, ∃ r, replay g i (noteDelta q c) q = .ok r
  moves : ∀ q, q.origin = .hih → AnswersAs δ p q → ∃ c' ev,
    replay g i (noteDelta q c) q = .ok (c', ev) ∧
      (c'.state = .forward ∨ c'.state = .replay ∧ c.replayId < c'.replayId)
  ends : ∀ ps, (∀ q ∈ ps, q.origin = .hih) → ∃ c' ev passes, feed g i c ps = .ok (c', ev, passes) ∧
    (c'.state = .forward ↔ passes.length = (p :: post).countP Pkt.waits)

theorem Waiting.waits (g : Globals) (i : ConnId) (hW : Waiting targets c)
    (hif : BackendsWired targets) (hs : c.state = .replay) :
    ∃ δ pre p post, Waits g i c δ pre p post := by
  obtain ⟨δ, pre, p, post, x, hcur, hlast, hx⟩ := hW.cursor
  have hpost : post ≠ [] := by
    rintro rfl
    cases hlast
  have hb (q : Pkt) : (noteDelta q c).hasBackend := hW.backed.noteDelta.hasBackend hif
  have hst (q : Pkt) : ∀ y ∈ (noteDelta q c).buffer, y.stored := by
    obtain ⟨d, hd⟩ := noteDelta_conn q c
    rw [hd]
    exact hW.stored
  have hsafe (q : Pkt) : ∃ r, replay g i (noteDelta q c) q = .ok r :=
    hcur.noteDelta.replay_ok g i q hpost (hb q) (hst q)
  refine ⟨δ, pre, p, post, hcur.buffer, ?_, hcur.lih, hcur.expected, ?_, hsafe, ?_, ?_⟩
  · rw [hcur.buffer, hcur.replayId]
    simp
  · obtain ⟨y, post', rfl⟩ := List.exists_cons_of_ne_nil hpost
    refine ⟨y, ?_⟩
    rw [hcur.buffer, hcur.replayId]
    simp
  · intro q hq hans
    obtain ⟨⟨c', ev⟩, hr⟩ := hsafe q
    obtain ⟨h, out, hback, -⟩ := hb q
    have hcur' : Cursor δ (noteDelta q c) pre p post := hcur.noteDelta
    obtain ⟨d, hd⟩ := noteDelta_conn q c
    obtain ⟨-, ⟨hnok, -⟩ | ⟨-, hfwd, -⟩ | ⟨-, hst', mid, y, post', -, -, hcur'', -⟩⟩ :=
      hcur'.replay_cases hback (hst q) hq hr
    · rw [hcur'.testExpected hans] at hnok
      cases hnok
    · exact ⟨c', ev, hr, .inl hfwd⟩
    · refine ⟨c', ev, hr, .inr ⟨?_, ?_⟩⟩
      · rw [hst', hd]
        exact hs
      · rw [hcur''.replayId, hcur.replayId, List.length_append, List.length_cons]
        omega
  · intro ps hps
    obtain ⟨c', ev, passes, hf, hspec⟩ :=
      hcur.feed_spec g i hs hlast hx (hW.backed.hasBackend hif) hW.stored hps
    exact ⟨c', ev, passes, hf, hspec.forward⟩

/-! ### Runs -/

theorem Sound.update (hS : Sound targets c) (role : Role) (now : ℤ) :
    Sound targets (updateConn c role now) where
  gathered h := (hS.gathered h).congr ⟨rfl, rfl, rfl⟩
  backends := hS.backends
  waiting h := by
    obtain ⟨hb, hst, δ, pre, p, post, x, hcur, hlast⟩ := hS.waiting h
    exact ⟨hb, hst, δ, pre, p, post, x, hcur.congr ⟨rfl, rfl, rfl⟩, hlast⟩

/-- A connection from EXT is as it should be before each of its packets. -/
theorem Attributed.sound
    (hT : Tracked targets ifTarget (fun _ _ c => c.initiator = .ext → Begun c ∧ Sound targets c)
      tr s)
    (hatt : Attributed g s raw now s₁ i pkt c) (hini : c.initiator = .ext) : Sound targets c := by
  cases hatt with
  | found hcap hpkt hlook hc hs => exact (hT.holds i _ hc hini).2.update _ _
  | created hcap hpkt hlook hid ht hi hcr =>
    obtain ⟨hr, -, ⟨ho, hst, -⟩ | ⟨h, -⟩ | ⟨h, -⟩⟩ := hcr.start
    · rw [ho] at hcr
      exact ⟨fun _ => hcr.gathered.1, by simp [hst], by simp [hst]⟩
    · rw [hini, h] at hr
      cases hr
    · rw [hini, h] at hr
      cases hr

theorem tracked_sound
    (hrun : Machine.Run (step mods g) (RedirectsReplayable mods g) (boot targets ifTarget mem) tr
      s) :
    Tracked targets ifTarget (fun _ _ c => c.initiator = .ext → Begun c ∧ Sound targets c)
      tr s := by
  refine connInvariant _ ?_ hrun
  intro tr s hT raw now s₁ i pkt c w ev hok ha hatt hh hini
  have hH := handle_cases hh
  have hflow := hH.framed.2
  have hini' : c.initiator = .ext := by rwa [Conn.initiator_of_flow hflow] at hini
  have hm := hatt.meets (fun _ _ _ h hini => (h hini).1) hT hini'
  have hlife := hH.life hm hatt.origin_ne_int
  have hc : s₁.conns[i]? = some c := by
    rw [hatt.frame.2.2.2, Std.TreeMap.lookup_insert, if_pos rfl]
  refine ⟨hlife.begun hm, hlife.sound (hatt.sound hT hini') hatt.plain.1 ?_
    (hok s₁ i pkt c ha hc hini') (Conn.target_of_flow hflow)⟩
  simp only
  rw [hatt.frame.1, hT.fixed]

/-- **The cursor of a replay.** In every run in which the redirections find buffers that can be
replayed, every connection in REPLAY waits for an answer as it should. -/
theorem replay_cursor (hif : BackendsWired targets)
    (hrun : Machine.Run (step mods g) (RedirectsReplayable mods g) (boot targets ifTarget mem) tr s)
    (hc : s.conns[i]? = some c) (hs : c.state = .replay) :
    ∃ δ pre p post, Waits g i c δ pre p post := by
  have hS := (tracked_sound hrun).holds i c hc (initiator_of_redirected hrun hc (.inl hs))
  exact (hS.2.waiting hs).waits g i hif hs

theorem Redirects.state (h : Redirects mods g i pkt w) : w.conn.state = .decision := by
  obtain ⟨d, w₁, ev₁, t, x, he, -, hs, -⟩ := h
  obtain hc | ⟨h', k, hc⟩ := (evaluate_run he).conn_cases
  · rwa [hc] at hs
  · simp [hc, Conn.switched] at hs

/-- A test for the packets that may redirect a connection: its buffer can be replayed. -/
def Sample.replayable (_ : ConnId) (pkt : Pkt) (c : Conn) : Bool :=
  c.state = .decision ∧ pkt.origin = .ext →
    (c.buffer.any (·.origin = .lih) ∧ c.buffer.length < Sample.globals.maxPacketBuffer)

theorem redirectsReplayable_sample (s : State Unit) (inp : Input)
    (h : checkPacket Sample.globals Sample.replayable s inp = true) :
    RedirectsReplayable (Sample.modules .accept) Sample.globals s inp := by
  cases inp with
  | sweep now delay => trivial
  | packet raw now =>
    intro s₁ i pkt c ha hc hini ho hred
    have htest := checkPacket_packet h ha hc
    simp only [Sample.replayable, decide_eq_true_eq] at htest
    obtain ⟨hlih, hlt⟩ := htest ⟨hred.state, ho⟩
    exact ⟨by simpa using hlih, .inl hlt⟩

/-- The attacker sends two packets around an answer of the low-interaction honeypot: the connection
is redirected, and waits. -/
theorem replay_cursor_answered :
    BackendsWired Sample.targets ∧ ∃ tr s c,
      Machine.Run (step (Sample.modules .accept) Sample.globals)
        (RedirectsReplayable (Sample.modules .accept) Sample.globals) Sample.start tr s ∧
      s.conns[1]? = some c ∧ c.state = .replay ∧
      ∃ δ pre p post, Waits Sample.globals 1 c δ pre p post := by
  refine ⟨backendsWired_sample, ?_⟩
  obtain ⟨tr, s, hrun, hp⟩ := Machine.exists_run (step (Sample.modules .accept) Sample.globals)
    Sample.start Sample.attack (fun r => r.1.conns[1]?.any (·.state = .replay))
    redirectsReplayable_sample (by decide +kernel)
  obtain ⟨c, hc, hs⟩ := (Option.any_eq_true ..).mp hp
  have hs' : c.state = .replay := by simpa using hs
  exact ⟨tr, s, c, hrun, hc, hs', replay_cursor backendsWired_sample hrun hc hs'⟩

/-- The attacker sends two packets before the low-interaction honeypot answers: the connection is
redirected and waits for the answer to a packet of the attacker. -/
theorem replay_cursor_broken :
    ∃ tr s c,
      Machine.Reaches (step (Sample.modules .accept) Sample.globals) Sample.start tr s ∧
      s.conns[1]? = some c ∧ c.state = .replay ∧
      ¬∃ δ pre p post, Waits Sample.globals 1 c δ pre p post := by
  obtain ⟨tr, s, hrun, hp⟩ := Machine.exists_reaches
    (step (Sample.modules .accept) Sample.globals) Sample.start
    [.packet (Sample.udp 0 50 1000 9 80) 0, .packet (Sample.udp 0 50 1000 9 80) 0]
    (fun r => r.1.conns[1]?.any fun c => c.state = .replay ∧
      c.buffer[c.replayId - 1]?.map Pkt.origin = some .ext) (by decide +kernel)
  obtain ⟨c, hc, hp⟩ := (Option.any_eq_true ..).mp hp
  obtain ⟨hs, hext⟩ := of_decide_eq_true hp
  refine ⟨tr, s, c, hrun, hc, hs, ?_⟩
  rintro ⟨δ, pre, p, post, hW⟩
  rw [hW.last, Option.map_some, hW.lih] at hext
  cases hext

end Honeybrid
