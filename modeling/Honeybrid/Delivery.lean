import Honeybrid.Buffering
import Honeybrid.Containment
import Honeybrid.ReplayOrder

/-!
# What a redirection delivers

Once a redirected connection has reached FORWARD, the high-interaction honeypot has been sent the
packets of the attacker in the order in which they arrived, all of them, provided that each was
taken in: a packet that arrives while the buffer is full is not stored, and one that arrives in
REPLAY is thrown away. The flag `DE`, by which `replay` would notice late packets, is never set.

## Main definitions

* `TakenIn`: the condition on a step.
* `Ledger`: what has arrived on a connection and what has been delivered.

## Main results

* `Life.ledger`: the step lemma.
* `nothing_lost`: the theorem about runs.
-/

namespace Honeybrid

variable {μ : Type} {mods : Modules μ} {g : Globals} {s s₁ : State μ} {i : ConnId}
  {pkt : Pkt} {c c' : Conn} {w : Work μ} {tr ev evs : List Event} {raw : RawPcap} {now : ℤ}
  {targets : Std.TreeMap TargetId Target intcmp} {ifTarget : Std.TreeMap IfaceId TargetId} {mem : μ}

/-- A packet of EXT on the connection `i` does not arrive in REPLAY, and while the connection is
decided on there is room for it in the buffer. -/
def TakenIn (g : Globals) (i : ConnId) (s : State μ) : Input → Prop
  | .packet raw now => ∀ s₁ pkt c, assign g s raw now = .ok (s₁, some (i, pkt)) →
      s₁.conns[i]? = some c → pkt.origin = .ext → c.state ≠ .replay ∧
      (c.state = .init ∨ c.state = .decision → c.buffer.length < g.maxPacketBuffer)
  | .sweep .. => True

/-- The packets of EXT in a list, as they were captured. -/
def extFrames (l : List Pkt) : List Frame :=
  (l.filter Pkt.isExt).map Pkt.original

@[simp] theorem extFrames_append (l l' : List Pkt) :
    extFrames (l ++ l') = extFrames l ++ extFrames l' := by
  simp [extFrames]

theorem extFrames_cons_of_not {p : Pkt} {l : List Pkt} (hp : p.isExt = false) :
    extFrames (p :: l) = extFrames l := by
  simp [extFrames, hp]

theorem extFrames_of_all {l : List Pkt} (h : ∀ q ∈ l, q.isExt = true) :
    extFrames l = l.map Pkt.original := by
  rw [extFrames, List.filter_eq_self.mpr h]

/-- What has arrived on a connection from EXT and what has been delivered, `evs` being its events:
before a redirection the buffer holds what has arrived, during the replay what lies before the
cursor has been delivered, and in FORWARD everything has. -/
structure Ledger (targets : Std.TreeMap TargetId Target intcmp) (evs : List Event) (c : Conn) :
    Prop where
  gathered : c.state = .init ∨ c.state = .decision → Gathered c ∧
    evs.filterMap Event.arrived = extFrames c.buffer ∧ evs.filterMap Event.delivered = []
  backends : c.state = .decision → ∃ t, targets[c.target]? = some t ∧ t.hasBackends = true
  replaying : c.state = .replay → Backed targets c ∧ (∀ q ∈ c.buffer, q.stored) ∧
    evs.filterMap Event.arrived = extFrames c.buffer ∧
    (c.expectedData.ipProto = 0 ∨ ∃ δ pre p post, Cursor δ c pre p post ∧
      evs.filterMap Event.delivered = extFrames pre)
  forwarded : c.state = .forward → Backed targets c ∧
    evs.filterMap Event.delivered = evs.filterMap Event.arrived

/-- Nothing is asked of a connection that is proxied or dropped. -/
theorem Ledger.over (hc : c.state = .proxy ∨ c.state = .drop) : Ledger targets evs c := by
  refine ⟨fun h => ?_, fun h => ?_, fun h => ?_, fun h => ?_⟩ <;>
    rcases hc with hc | hc <;> simp [hc] at h

theorem filterMap_delivered_received (evs ev : List Event) (i : ConnId) (pkt : Pkt) :
    (evs ++ .received i pkt :: ev).filterMap Event.delivered =
      evs.filterMap Event.delivered ++ ev.filterMap Event.delivered := by
  rw [List.filterMap_append, List.filterMap_cons_none rfl]

theorem filterMap_arrived_received (hev : ev.filterMap Event.arrived = []) :
    (evs ++ .received i pkt :: ev).filterMap Event.arrived =
      evs.filterMap Event.arrived ++ if pkt.origin = .ext then [pkt.original] else [] := by
  simp only [List.filterMap_append, List.filterMap_cons, Event.arrived, hev]
  split_ifs <;> rfl

/-- A packet of another protocol than the expected one changes nothing. -/
theorem replay_of_protocol_ne (hp : pkt.origin = .hih)
    (hne : pkt.packet.protocol ≠ c.expectedData.ipProto)
    (hr : replay g i c pkt = .ok (c', ev)) :
    ev = [] ∧ ∃ rp, c' = { c with replayProblem := rp } := by
  unfold replay testExpected at hr
  simp only [hp, ne_eq, not_true_eq_false, if_false, hne, not_false_eq_true, if_true] at hr
  cases hr
  exact ⟨rfl, _, rfl⟩

/-- What the target of a connection in DECISION has. -/
theorem Ledger.hasBackends {t : Target} (hL : Ledger targets evs c) (hs : c.state = .decision)
    (ht : targets[c.target]?.map Target.fixed = some t.fixed) : t.hasBackends = true := by
  obtain ⟨t', ht', hb⟩ := hL.backends hs
  rw [ht', Option.map_some, Option.some.injEq] at ht
  rw [← Target.hasBackends_of_fixed ht, hb]

/-- A packet is stored: if it comes from EXT, there is room for it. -/
theorem extFrames_keepPkt {t : Target} {pkt' : Pkt} (hpkt : Rewritten pkt pkt')
    (hb : t.hasBackends = true)
    (hroom : pkt.origin = .ext → c.buffer.length < g.maxPacketBuffer) :
    extFrames (keepPkt g t c pkt').buffer =
      extFrames c.buffer ++ if pkt.origin = .ext then [pkt.original] else [] := by
  by_cases ho : pkt.origin = .ext
  · have hext : pkt'.isExt = true := by simp [Pkt.isExt, hpkt.origin, ho]
    rw [keepPkt_of_lt hb (hroom ho), if_pos ho, extFrames_append]
    simp [extFrames, hext, hpkt.original]
  · have hext : pkt'.isExt = false := by simp [Pkt.isExt, hpkt.origin, ho]
    rw [if_neg ho, List.append_nil]
    obtain hk | hk := keepPkt_cases g t c pkt'
    · rw [hk]
    · rw [hk, extFrames_append, extFrames_cons_of_not hext]
      simp [extFrames]

/-- A packet of EXT or of the low-interaction honeypot while the connection is decided on. -/
theorem Ledger.early {t : Target} {pkt' : Pkt} {c₀ : Conn} (hL : Ledger targets evs c₀)
    (hs : c₀.state = .init ∨ c₀.state = .decision) (hsame : SameReplay c₀ c)
    (hc : c.state = .decision ∨ c.state = .proxy ∨ c.state = .drop)
    (hb : c.state = .decision → t.hasBackends = true)
    (ht : targets[c.target]?.map Target.fixed = some t.fixed)
    (ho : pkt.origin = .lih ∨ pkt.origin = .ext) (hde : pkt.de = 0) (hpkt : Rewritten pkt pkt')
    (hroom : pkt.origin = .ext → c₀.buffer.length < g.maxPacketBuffer)
    (hev : Silent ev) (harr : ev.filterMap Event.arrived = []) :
    Ledger targets (evs ++ .received i pkt :: ev) (keepPkt g t c pkt') := by
  have hst : (keepPkt g t c pkt').state = c.state := (keepPkt_state ..).1
  obtain hc | hc := hc
  · obtain ⟨hG, harr', hdel⟩ := hL.gathered hs
    refine ⟨fun _ => ⟨(hG.congr hsame).keep (hpkt.stored ho hde), ?_, ?_⟩, fun _ => ?_,
      by simp [hst, hc], by simp [hst, hc]⟩
    · rw [filterMap_arrived_received harr, harr', extFrames_keepPkt hpkt (hb hc), hsame.buffer]
      rw [hsame.buffer]
      exact hroom
    · rw [filterMap_delivered_received, hdel, hev, List.nil_append]
    · obtain ⟨t', ht', hfix⟩ := Option.map_eq_some_iff.mp ht
      obtain ⟨b, hk⟩ := keepPkt_conn g t c pkt'
      exact ⟨t', by rw [hk, ht'], by rw [Target.hasBackends_of_fixed hfix, hb hc]⟩
  · exact .over (by rw [hst]; exact hc)

/-- The packet of EXT on which the connection is redirected. -/
theorem Ledger.redirect (hL : Ledger targets evs c) (hs : c.state = .decision)
    (hR : Redirected targets c c' [pkt] ev) (ho : pkt.origin = .ext) (hde : pkt.de = 0)
    (harr : ev.filterMap Event.arrived = []) :
    Ledger targets (evs ++ .received i pkt :: ev) c' := by
  obtain ⟨hG, harr', hdel⟩ := hL.gathered (.inr hs)
  have hst := hR.state
  refine ⟨by simp [hst], by simp [hst], fun _ => ⟨hR.backed, fun q hq => ?_, ?_, ?_⟩,
    by simp [hst]⟩
  · rw [hR.buffer] at hq
    obtain hq | hq := List.mem_append.mp hq
    · exact hG.stored q hq
    · rw [List.mem_singleton.mp hq]
      exact ⟨.inl ho, hde⟩
  · rw [filterMap_arrived_received harr, harr', if_pos ho, hR.buffer, extFrames_append]
    simp [extFrames, Pkt.isExt, ho]
  · rw [filterMap_delivered_received, hdel, List.nil_append]
    obtain ⟨-, hexp, -⟩ | ⟨pre, p, post, hpre, hcur, hsent⟩ := hR.cursor
    · exact .inl (by rw [hexp])
    · exact .inr ⟨_, pre, p, _, hcur, by rw [hsent, extFrames_of_all hpre]⟩

/-- An answer of the high-interaction honeypot. -/
theorem Ledger.answer (hL : Ledger targets evs c) (hs : c.state = .replay) (ho : pkt.origin = .hih)
    (hproto : pkt.packet.protocol ≠ 0) (hr : replay g i (noteDelta pkt c) pkt = .ok (c', ev))
    (harr : ev.filterMap Event.arrived = []) :
    Ledger targets (evs ++ .received i pkt :: ev) c' := by
  obtain ⟨hback, hst, harr', hcases⟩ := hL.replaying hs
  obtain ⟨d, hd⟩ := noteDelta_conn pkt c
  have hback' : Backed targets (noteDelta pkt c) := hback.noteDelta
  have hst' : ∀ q ∈ (noteDelta pkt c).buffer, q.stored := by
    rw [hd]
    exact hst
  have hbuf : (noteDelta pkt c).buffer = c.buffer := by rw [hd]
  have hs' : (noteDelta pkt c).state = .replay := by rw [hd, hs]
  have harr'' : (evs ++ .received i pkt :: ev).filterMap Event.arrived = extFrames c.buffer := by
    rw [filterMap_arrived_received harr, harr', if_neg (by simp [ho]), List.append_nil]
  obtain hstuck | ⟨δ, pre, p, post, hcur, hdel⟩ := hcases
  · -- nothing is expected, so no answer is the expected one
    obtain ⟨rfl, rp, rfl⟩ := replay_of_protocol_ne ho (by rw [hd]; simpa [hstuck] using hproto) hr
    refine ⟨by simp [hs'], by simp [hs'], fun _ => ⟨hback', hst', ?_, .inl ?_⟩, by simp [hs']⟩
    · rw [harr'', hbuf]
    · simp [hd, hstuck]
  · have hcur' : Cursor δ (noteDelta pkt c) pre p post := hcur.noteDelta
    obtain ⟨t, use, h, -, -, hb⟩ := id hback'
    obtain ⟨hof, hcases⟩ := hcur'.replay_cases hb hst' ho hr
    have hback'' := hback'.of_replayOf hof
    have hbuf' : c'.buffer = c.buffer := by
      obtain ⟨_, _, _, _, _, rfl⟩ := hof
      exact hbuf
    obtain ⟨-, rfl, hst₁, hcur₁⟩ | ⟨-, hfwd, -, hall, hsent, -⟩ |
      ⟨-, hst₁, mid, q, post', hpost, hmid, hcur₁, hsent, -⟩ := hcases
    · rw [hs'] at hst₁
      refine ⟨by simp [hst₁], by simp [hst₁], fun _ => ⟨hback'', ?_, ?_, .inr ?_⟩, by simp [hst₁]⟩
      · rw [hbuf']
        exact hst
      · rw [harr'', hbuf']
      · exact ⟨δ, pre, p, post, hcur₁, by rw [filterMap_delivered_received, hdel]; simp⟩
    · refine ⟨by simp [hfwd], by simp [hfwd], by simp [hfwd], fun _ => ⟨hback'', ?_⟩⟩
      rw [filterMap_delivered_received, harr'', hdel, hsent, hcur.buffer, extFrames_append,
        extFrames_cons_of_not hcur.not_isExt, extFrames_of_all hall]
    · rw [hs'] at hst₁
      refine ⟨by simp [hst₁], by simp [hst₁], fun _ => ⟨hback'', ?_, ?_, .inr ?_⟩, by simp [hst₁]⟩
      · rw [hbuf']
        exact hst
      · rw [harr'', hbuf']
      · refine ⟨_, _, q, post', hcur₁, ?_⟩
        rw [filterMap_delivered_received, hdel, hsent, extFrames_append,
          extFrames_cons_of_not hcur.not_isExt, extFrames_of_all hmid]

/-- A packet of EXT after the replay. -/
theorem Ledger.forward {pkt' : Pkt} (hL : Ledger targets evs c) (hs : c.state = .forward)
    (ho : pkt.origin = .ext) (hf : forwardExt2hih g i c pkt = .ok (pkt', ev))
    (harr : ev.filterMap Event.arrived = []) :
    Ledger targets (evs ++ .received i pkt :: ev) c := by
  obtain ⟨hback, hdel⟩ := hL.forwarded hs
  obtain ⟨t, use, h, -, -, hb⟩ := id hback
  obtain ⟨out, horig, -, rfl⟩ := forwardExt2hih_cases hb hf
  refine ⟨by simp [hs], by simp [hs], by simp [hs], fun _ => ⟨hback, ?_⟩⟩
  rw [filterMap_delivered_received, filterMap_arrived_received harr, hdel, if_pos ho]
  simp [inject, Event.delivered, horig]

/-- **Steps.** What a packet makes of what has arrived and what has been delivered, if a packet of
EXT is taken in. -/
theorem Life.ledger (hL : Ledger targets evs w.conn) (hde : pkt.de = 0)
    (hproto : pkt.packet.protocol ≠ 0)
    (htar : w.st.targets[w.conn.target]?.map Target.fixed =
      targets[w.conn.target]?.map Target.fixed)
    (htaken : pkt.origin = .ext → w.conn.state ≠ .replay ∧
      (w.conn.state = .init ∨ w.conn.state = .decision →
        w.conn.buffer.length < g.maxPacketBuffer))
    (hflow : c'.target = w.conn.target) (harr : ev.filterMap Event.arrived = [])
    (h : Life mods g i pkt w c' ev) : Ledger targets (evs ++ .received i pkt :: ev) c' := by
  cases h with
  | rest hs hev hext =>
    by_cases ho : pkt.origin = .ext
    · exact .over ((hext ho).resolve_left (htaken ho).1)
    · have hsame : (evs ++ .received i pkt :: ev).filterMap Event.arrived =
            evs.filterMap Event.arrived ∧
          (evs ++ .received i pkt :: ev).filterMap Event.delivered =
            evs.filterMap Event.delivered := by
        rw [filterMap_arrived_received harr, filterMap_delivered_received, hev, if_neg ho]
        simp
      refine ⟨?_, hL.backends, ?_, ?_⟩
      · rw [hsame.1, hsame.2]
        exact hL.gathered
      · rw [hsame.1, hsame.2]
        exact hL.replaying
      · rw [hsame.1, hsame.2]
        exact hL.forwarded
  | @early t c pkt' ev ho hs ht hc hnew hsame hpkt hev =>
    have hc' : c.target = w.conn.target := by
      obtain ⟨b, hk⟩ := keepPkt_conn g t c pkt'
      rw [hk] at hflow
      exact hflow
    rw [htar] at ht
    refine hL.early hs hsame (hc.imp_left And.left) (fun hdec => ?_) (hc' ▸ ht) ho hde hpkt
      (fun h => (htaken h).2 hs) hev harr
    obtain hs | hs := hs
    · exact hnew hs hdec
    · exact hL.hasBackends hs ht
  | away ho hs hc hev => exact .over hc
  | @redirect s₁ s₂ t₁ t use c ev₁ ev₂ ho hs hred ht₁ hr ht hev =>
    rw [htar] at ht₁ ht
    have hR : Redirected targets w.conn (keepPkt g t c pkt) _ (ev₁ ++ ev₂) :=
      (hL.gathered (.inr hs)).1.redirect ht₁ hr (hL.hasBackends hs ht) hev
    rw [if_pos ((htaken ho).2 (.inr hs))] at hR
    exact hL.redirect hs hR ho hde harr
  | answer ho hs hr => exact hL.answer hs ho hproto hr harr
  | forward ho hs hf => exact hL.forward hs ho hf harr

/-! ### Runs -/

theorem Ledger.update (hL : Ledger targets evs c) (role : Role) (now : ℤ) :
    Ledger targets evs (updateConn c role now) where
  gathered h := ⟨(hL.gathered h).1.congr ⟨rfl, rfl, rfl⟩, (hL.gathered h).2⟩
  backends := hL.backends
  replaying h := by
    obtain ⟨hb, hst, harr, hstuck | ⟨δ, pre, p, post, hcur, hdel⟩⟩ := hL.replaying h
    · exact ⟨hb, hst, harr, .inl hstuck⟩
    · exact ⟨hb, hst, harr, .inr ⟨δ, pre, p, post,
        ⟨hcur.buffer, hcur.replayId, hcur.lih, hcur.expected⟩, hdel⟩⟩
  forwarded := hL.forwarded

theorem tracked_ledger
    (hrun : Machine.Run (step mods g) (TakenIn g i) (boot targets ifTarget mem) tr s) :
    Tracked targets ifTarget
      (fun j evs c => c.initiator = .ext → Begun c ∧ (j = i → Ledger targets evs c)) tr s := by
  refine connInvariant _ ?_ hrun
  intro tr s hT raw now s₁ j pkt c w ev hok ha hatt hh hini
  have hH := handle_cases hh
  have hflow := hH.framed.2
  have hini' : c.initiator = .ext := by rwa [Conn.initiator_of_flow hflow] at hini
  have hm := hatt.meets (fun _ _ _ h hini => (h hini).1) hT hini'
  have hlife := hH.life hm hatt.origin_ne_int
  refine ⟨hlife.begun hm, ?_⟩
  rintro rfl
  have hL : Ledger targets (eventsOf j tr) c := by
    cases hatt with
    | found hcap hpkt hlook hc hs => exact ((hT.holds j _ hc hini').2 rfl).update _ _
    | created hcap hpkt hlook hid ht hi hcr =>
      rw [hT.eventsOf_new hi]
      obtain ⟨hr, -, ⟨ho, hst, -⟩ | ⟨h, -⟩ | ⟨h, -⟩⟩ := hcr.start
      · rw [ho] at hcr
        refine ⟨fun _ => ⟨hcr.gathered.1, ?_, rfl⟩, by simp [hst], by simp [hst], by simp [hst]⟩
        rw [hcr.gathered.2]
        rfl
      · rw [hini', h] at hr
        cases hr
      · rw [hini', h] at hr
        cases hr
  have hc : s₁.conns[j]? = some c := by
    rw [hatt.frame.2.2.2, Std.TreeMap.lookup_insert, if_pos rfl]
  obtain ⟨hde, hproto⟩ := hatt.plain
  have hne : pkt.packet.protocol ≠ 0 := by
    obtain h | h := hproto <;> rw [h] <;> decide
  refine hlife.ledger hL hde hne ?_ (hok s₁ pkt c ha hc) (Conn.target_of_flow hflow)
    hH.filterMap_arrived
  simp only
  rw [hatt.frame.1, hT.fixed]

/-- **Nothing is lost.** In every run in which the packets of EXT on a connection are taken in, the
connection has delivered exactly what has arrived, in the same order, once it is in FORWARD. -/
theorem nothing_lost
    (hrun : Machine.Run (step mods g) (TakenIn g i) (boot targets ifTarget mem) tr s)
    (hc : s.conns[i]? = some c) (hs : c.state = .forward) :
    (eventsOf i tr).filterMap Event.delivered = (eventsOf i tr).filterMap Event.arrived := by
  have hini := initiator_of_redirected hrun hc (.inr hs)
  exact ((((tracked_ledger hrun).holds i c hc hini).2 rfl).forwarded hs).2

/-- A test for the packets of EXT: they are taken in. -/
def Sample.takenIn (_ : ConnId) (pkt : Pkt) (c : Conn) : Bool :=
  pkt.origin = .ext → c.state ≠ .replay ∧
    (c.state = .init ∨ c.state = .decision → c.buffer.length < Sample.globals.maxPacketBuffer)

theorem takenIn_sample (s : State Unit) (inp : Input)
    (h : checkPacket Sample.globals Sample.takenIn s inp = true) :
    TakenIn Sample.globals 1 s inp := by
  cases inp with
  | sweep now delay => trivial
  | packet raw now =>
    intro s₁ pkt c ha hc
    have htest := checkPacket_packet h ha hc
    simpa only [Sample.takenIn, decide_eq_true_eq] using htest

/-- The connection is redirected and the high-interaction honeypot answers: both packets of the
attacker have been delivered. -/
theorem nothing_lost_answered :
    ∃ tr s c,
      Machine.Run (step (Sample.modules .accept) Sample.globals) (TakenIn Sample.globals 1)
        Sample.start tr s ∧
      s.conns[1]? = some c ∧ c.state = .forward ∧
      ((eventsOf 1 tr).filterMap Event.arrived).length = 2 ∧
      (eventsOf 1 tr).filterMap Event.delivered = (eventsOf 1 tr).filterMap Event.arrived := by
  obtain ⟨tr, s, hrun, hp⟩ := Machine.exists_run (step (Sample.modules .accept) Sample.globals)
    Sample.start (Sample.attack ++ [Sample.answer])
    (fun r => r.1.conns[1]?.any (·.state = .forward) ∧
      ((eventsOf 1 r.2).filterMap Event.arrived).length = 2) takenIn_sample (by decide +kernel)
  obtain ⟨hp, hlen⟩ := of_decide_eq_true hp
  obtain ⟨c, hc, hs⟩ := (Option.any_eq_true ..).mp hp
  have hs' : c.state = .forward := by simpa using hs
  exact ⟨tr, s, c, hrun, hc, hs', hlen, nothing_lost hrun hc hs'⟩

/-- The attacker sends one more packet before the high-interaction honeypot answers: the connection
reaches FORWARD without it. -/
theorem nothing_lost_broken :
    ∃ tr s c,
      Machine.Reaches (step (Sample.modules .accept) Sample.globals) Sample.start tr s ∧
      s.conns[1]? = some c ∧ c.initiator = .ext ∧ c.state = .forward ∧
      (eventsOf 1 tr).filterMap Event.delivered ≠ (eventsOf 1 tr).filterMap Event.arrived := by
  obtain ⟨tr, s, hrun, hp⟩ := Machine.exists_reaches
    (step (Sample.modules .accept) Sample.globals) Sample.start
    (Sample.attack ++ [.packet (Sample.udp 0 50 1000 9 80) 0, Sample.answer])
    (fun r => r.1.conns[1]?.any (fun c => c.initiator = .ext ∧ c.state = .forward) ∧
      ((eventsOf 1 r.2).filterMap Event.delivered).length ≠
        ((eventsOf 1 r.2).filterMap Event.arrived).length) (by decide +kernel)
  obtain ⟨hp, hlen⟩ := of_decide_eq_true hp
  obtain ⟨c, hc, hs⟩ := (Option.any_eq_true ..).mp hp
  obtain ⟨hini, hs⟩ := of_decide_eq_true hs
  exact ⟨tr, s, c, hrun, hc, hini, hs, fun h => hlen (congrArg List.length h)⟩

end Honeybrid
