import Honeybrid.Buffering
import Honeybrid.Meetings
import Mathlib.Data.List.Forall2

/-!
# The memory of packets

`init_pkt` allocates a packet, and each branch of `de_thread` ends with `free_pkt` or with
`store_pkt`, which keeps the packet for a replay until `free_conn` frees the buffer. The result of
`store_pkt` is not looked at: a packet that finds the buffer full is never freed. Nor is a packet of
a high-interaction honeypot in PROXY whose connection leads neither to EXT nor to an INTRA host,
which no branch takes.

## Main definitions

* `Disposal`, `Meeting.disposal`: what `de_thread` does with the memory of a packet.
* `Meeting.keeps`: the packet gets to `store_pkt`.

## Main results

* `Handles.disposed`: what becomes of the buffer while a packet is handled.
* `packets_disposed`: the buffers of all connections, and the packets that are lost, in every run.
-/

namespace Honeybrid

/-- What becomes of the memory of a packet: it is freed, kept in the buffer of its connection, or
neither. -/
inductive Disposal
  | freed
  | stored
  | lost
  deriving DecidableEq

/-- The branch of `de_thread` ends with `store_pkt`, if there are backends. -/
def endsWithStore (origin : Role) (state : ConnStatus) : Bool :=
  match origin, state with
  | .lih, .init | .lih, .decision | .lih, .control => true
  | .ext, .init | .ext, .decision | .int, .init | .int, .decision => true
  | _, _ => false

/-- The packet gets to `store_pkt`. -/
def Meeting.keeps (targets : Std.TreeMap TargetId Target intcmp) (m : Meeting) : Bool :=
  endsWithStore m.pkt.origin m.conn.state && targets[m.conn.target]?.any Target.hasBackends

/-- No branch of `de_thread` takes the packet. -/
def Meeting.passedOver (m : Meeting) : Bool :=
  m.pkt.origin = .hih ∧ m.conn.state = .proxy ∧ m.conn.destination ≠ .ext ∧
    m.conn.destination ≠ .intra

/-- What `de_thread` does with the memory of a packet. -/
def Meeting.disposal (g : Globals) (targets : Std.TreeMap TargetId Target intcmp) (m : Meeting) :
    Disposal :=
  if m.keeps targets then
    if m.conn.buffer.length < g.maxPacketBuffer then .stored else .lost
  else if m.passedOver then .lost
  else .freed

/-- The packets of a connection that get to `store_pkt`. -/
def keptOf (targets : Std.TreeMap TargetId Target intcmp) (ms : List Meeting) : List Meeting :=
  ms.filter (Meeting.keeps targets)

/-- The buffer holds the first of the packets that get to `store_pkt`, as they were sent on. -/
def BufferOf (g : Globals) (targets : Std.TreeMap TargetId Target intcmp) (ms : List Meeting)
    (c : Conn) : Prop :=
  List.Forall₂ (fun m pkt => Rewritten m.pkt pkt) ((keptOf targets ms).take g.maxPacketBuffer)
    c.buffer

variable {μ : Type} {mods : Modules μ} {g : Globals} {s s' s₁ : State μ} {i : ConnId} {pkt : Pkt}
  {c c' : Conn} {raw : RawPcap} {now : ℤ} {w w' : Work μ} {ev : List Event} {ms : List Meeting}
  {m : Meeting} {log : List Meeting} {targets : Std.TreeMap TargetId Target intcmp}

/-! ### One packet -/

theorem keeps_eq {t : Target} {id : ConnId}
    (ht : targets[c.target]?.map Target.fixed = some t.fixed) :
    Meeting.keeps targets ⟨id, pkt, c⟩ = (endsWithStore pkt.origin c.state && t.hasBackends) := by
  obtain ⟨t', ht', hfix⟩ := Option.map_eq_some_iff.mp ht
  simp [Meeting.keeps, ht', Target.hasBackends_of_fixed hfix]

theorem deProcessPacket_buffer {status : Status}
    (h : deProcessPacket mods i pkt g w = .ok (status, w', ev)) :
    w'.conn.buffer = w.conn.buffer := by
  obtain ⟨d, w₁, ev₁, ev₂, t, he, -, ha, -⟩ := deProcessPacket_cases h
  have hrun := (evaluate_run he).sameReplay.buffer
  cases ha with
  | redirect hd hs hr =>
    obtain ⟨h, key, rid, ed, -, -, rfl⟩ := setupRedirection_conn hr
    exact hrun
  | _ => exact hrun

theorem noteLihSyn_buffer (pkt : Pkt) (c : Conn) : (noteLihSyn pkt c).buffer = c.buffer := by
  obtain ⟨b, h⟩ := noteLihSyn_conn pkt c
  rw [h]

/-- What becomes of the buffer: the packet is added to it, as it was sent on, or it stays. -/
def Buffers (g : Globals) (targets : Std.TreeMap TargetId Target intcmp) (m : Meeting) (c : Conn) :
    Prop :=
  (m.keeps targets = true ∧ m.conn.buffer.length < g.maxPacketBuffer ∧
      ∃ pkt, Rewritten m.pkt pkt ∧ c.buffer = m.conn.buffer ++ [pkt]) ∨
    ((m.keeps targets = false ∨ g.maxPacketBuffer ≤ m.conn.buffer.length) ∧
      c.buffer = m.conn.buffer)

/-- The end of a branch that stores its packet. -/
theorem buffers_keepPkt {t : Target} {pkt' : Pkt} {c₁ : Conn}
    (hs : endsWithStore pkt.origin c.state = true)
    (ht : targets[c.target]?.map Target.fixed = some t.fixed) (hpkt : Rewritten pkt pkt')
    (hc : c₁.buffer = c.buffer) : Buffers g targets ⟨i, pkt, c⟩ (keepPkt g t c₁ pkt') := by
  rw [Buffers, keeps_eq ht, hs, Bool.true_and]
  by_cases hb : t.hasBackends = true
  · by_cases hlt : c₁.buffer.length < g.maxPacketBuffer
    · rw [keepPkt_of_lt hb hlt]
      exact .inl ⟨hb, hc ▸ hlt, pkt', hpkt, by rw [hc]⟩
    · rw [keepPkt_of_le (Nat.le_of_not_lt hlt)]
      exact .inr ⟨.inr (hc ▸ Nat.le_of_not_lt hlt), hc⟩
  · rw [keepPkt, if_neg hb]
    exact .inr ⟨.inl (by simpa using hb), hc⟩

/-- A branch that does not store its packet. -/
theorem buffers_same (hs : endsWithStore pkt.origin c.state = false) (hc : c'.buffer = c.buffer) :
    Buffers g targets ⟨i, pkt, c⟩ c' :=
  .inr ⟨.inl (by simp [Meeting.keeps, hs]), hc⟩

/-- The memory of one packet. -/
theorem Handles.disposed (h : Handles mods g i pkt w w' ev)
    (hfix : ∀ id : TargetId, w.st.targets[id]?.map Target.fixed = targets[id]?.map Target.fixed) :
    Buffers g targets ⟨i, pkt, w.conn⟩ w'.conn := by
  have hlih (ho : pkt.origin = .lih) (hs : w.conn.state = .init ∨ w.conn.state = .decision ∨
      w.conn.state = .control) : endsWithStore pkt.origin w.conn.state = true := by
    rcases hs with hs | hs | hs <;> rw [ho, hs] <;> rfl
  have hext (ho : pkt.origin = .ext ∨ pkt.origin = .int)
      (hs : w.conn.state = .init ∨ w.conn.state = .decision) :
      endsWithStore pkt.origin w.conn.state = true := by
    rcases ho with ho | ho <;> rcases hs with hs | hs <;> rw [ho, hs] <;> rfl
  have hhih (ho : pkt.origin = .hih) : endsWithStore pkt.origin w.conn.state = false := by
    rw [ho]
    rfl
  -- the target after the rules is, up to its INTRA handlers, the one that was configured
  have htarget {w₁ : Work μ} {status : Status} {c₀ : Conn} {ev₁ : List Event} {t : Target}
      (hc₀ : c₀.target = w.conn.target)
      (hd : deProcessPacket mods i pkt g { w with conn := c₀ } = .ok (status, w₁, ev₁))
      (ht : w₁.st.targets[w₁.conn.target]? = some t) :
      targets[w.conn.target]?.map Target.fixed = some t.fixed := by
    rw [← hfix, ← hc₀]
    exact fixed_target (w := { w with conn := c₀ }) (deProcessPacket_framed hd).1
      (deProcessPacket_framed hd).2 ht
  cases h with
  | refused hs hev hext =>
    refine buffers_same ?_ rfl
    rcases hs with ⟨hs, ho⟩ | hs
    · rw [ho, hs]
      rfl
    · rw [hs]
      cases pkt.origin <;> rfl
  | lihEarly ho hs ht hp =>
    refine buffers_keepPkt (hlih ho (hs.imp_right .inl)) ?_ (proxyInt2ext_rewritten hp)
      (noteLihSyn_buffer pkt w.conn)
    rw [← hfix, ht]
    rfl
  | lihProxy ho hs ht hp => exact buffers_same (by rw [ho, hs]; rfl) rfl
  | lihControlOk ho hs hd ht hp =>
    exact buffers_keepPkt (hlih ho (.inr (.inr hs)))
      (htarget (noteLihSyn_target pkt w.conn) hd ht) (proxyInt2ext_rewritten hp)
      ((deProcessPacket_buffer hd).trans (noteLihSyn_buffer pkt w.conn))
  | lihControlNok ho hs hd ht =>
    exact buffers_keepPkt (hlih ho (.inr (.inr hs)))
      (htarget (noteLihSyn_target pkt w.conn) hd ht) (Rewritten.refl pkt)
      ((deProcessPacket_buffer hd).trans (noteLihSyn_buffer pkt w.conn))
  | lihOther ho hs hev =>
    exact buffers_same (by rcases hs with hs | hs | hs <;> rw [ho, hs] <;> rfl) rfl
  | hihReplay ho hs hr =>
    refine buffers_same (hhih ho) ?_
    obtain ⟨⟨_, _, _, _, _, rfl⟩, -⟩ := replay_frame hr
    obtain ⟨d, hd⟩ := noteDelta_conn pkt w.conn
    rw [hd]
  | hihForward ho hs ht hf => exact buffers_same (hhih ho) rfl
  | hihProxy ho hs hp => exact buffers_same (hhih ho) rfl
  | hihControlOk ho hs hd ht hp => exact buffers_same (hhih ho) (deProcessPacket_buffer hd)
  | hihControlNok ho hs hd => exact buffers_same (hhih ho) (deProcessPacket_buffer hd)
  | hihDeny ho hs hev => exact buffers_same (hhih ho) rfl
  | hihInitOk ho hs hd hp =>
    exact buffers_same (hhih ho) ((deProcessPacket_buffer hd).trans rfl)
  | hihInitNok ho hs hd => exact buffers_same (hhih ho) ((deProcessPacket_buffer hd).trans rfl)
  | intraProxy ho hs hp => exact buffers_same (by rw [ho]; rfl) rfl
  | intraOther ho => exact buffers_same (by rw [ho]; rfl) rfl
  | extEarlyOk ho hs hd ht hp =>
    exact buffers_keepPkt (hext ho hs) (htarget rfl hd ht) (proxyExt2int_rewritten hp)
      (deProcessPacket_buffer hd)
  | extEarlyNok ho hs hd ht =>
    exact buffers_keepPkt (hext ho hs) (htarget rfl hd ht) (Rewritten.refl pkt)
      (deProcessPacket_buffer hd)
  | extForward ho hs hf =>
    exact buffers_same (by rcases ho with ho | ho <;> rw [ho, hs] <;> rfl) rfl
  | extProxy ho hs ht hp =>
    exact buffers_same
      (by rcases ho with ho | ho <;> rcases hs with hs | hs <;> rw [ho, hs] <;> rfl) rfl
  | extOther ho hs =>
    exact buffers_same
      (by rcases ho with ho | ho <;> rcases hs with hs | hs <;> rw [ho, hs] <;> rfl) rfl

/-! ### Runs -/

theorem keptOf_concat (m : Meeting) : keptOf targets (ms ++ [m]) =
    if m.keeps targets then keptOf targets ms ++ [m] else keptOf targets ms := by
  rw [keptOf, List.filter_append]
  split_ifs with h
  · simp [keptOf, h]
  · simp [keptOf, h]

/-- The length of a buffer is the number of packets that got to `store_pkt`, up to the bound. -/
theorem BufferOf.length (h : BufferOf g targets ms c) :
    c.buffer.length = min g.maxPacketBuffer (keptOf targets ms).length := by
  rw [← h.length_eq, List.length_take]

theorem BufferOf.step (h : BufferOf g targets ms c) (hb : Buffers g targets ⟨i, pkt, c'⟩ w.conn)
    (hc : c'.buffer = c.buffer) : BufferOf g targets (ms ++ [⟨i, pkt, c'⟩]) w.conn := by
  have hlen := h.length
  rw [BufferOf, keptOf_concat]
  rcases hb with ⟨hkeep, hlt, pkt', hpkt, hbuf⟩ | ⟨hkeep | hfull, hbuf⟩
  · -- there is room, so that all packets before this one were stored
    have hroom : (keptOf targets ms).length < g.maxPacketBuffer := by
      have hlt' : c.buffer.length < g.maxPacketBuffer := hc ▸ hlt
      omega
    rw [if_pos hkeep, List.take_of_length_le (by simp; omega), hbuf]
    rw [BufferOf, List.take_of_length_le (by omega), ← hc] at h
    exact List.rel_append h (.cons hpkt .nil)
  · rw [if_neg (by simp [hkeep]), hbuf]
    show List.Forall₂ _ _ c'.buffer
    rw [hc]
    exact h
  · rw [hbuf]
    show List.Forall₂ _ _ c'.buffer
    have hall : g.maxPacketBuffer ≤ (keptOf targets ms).length := by
      have hfull' : g.maxPacketBuffer ≤ c.buffer.length := hc ▸ hfull
      omega
    rw [hc]
    split_ifs
    · rw [List.take_append_of_le_length hall]
      exact h
    · exact h

section Runs

variable {ifTarget : Std.TreeMap IfaceId TargetId} {mem : μ}

/-- A packet finds the buffer with those of its predecessors that came to `store_pkt` and found
room. -/
def FindsBuffer (g : Globals) (targets : Std.TreeMap TargetId Target intcmp) (before : List Meeting)
    (m : Meeting) : Prop :=
  m.conn.buffer.length = min g.maxPacketBuffer (keptOf targets (meetingsOf m.id before)).length

/-- What holds of the memory of the packets along every run. -/
structure MemorySound (g : Globals) (targets : Std.TreeMap TargetId Target intcmp)
    (log : List Meeting) (s : State μ) : Prop where
  fixed : ∀ id : TargetId, s.targets[id]?.map Target.fixed = targets[id]?.map Target.fixed
  followed : Followed (BufferOf g targets) log s
  finds : Machine.Correct (FindsBuffer g targets) log

theorem Creates.buffer {t : Target} {r : TargetSearch} {role : Role}
    (h : Creates g s i t pkt r now role c s₁) : c.buffer = [] := by
  cases h with
  | ext hfront hpin hc => exact hc ▸ rfl
  | lih hfront hpin hc =>
    subst hc
    obtain ⟨-, rfl, -⟩ | ⟨p, -, -, rfl⟩ := acquireSnat_cases hpin <;> rfl
  | hih hfront hback hpin hc =>
    subst hc
    obtain ⟨-, rfl, -⟩ | ⟨p, -, -, rfl⟩ := acquireSnat_cases hpin <;> rfl
  | hihIntra hback hh hpin hc =>
    subst hc
    obtain ⟨-, rfl⟩ | ⟨k, p, ip, -, rfl⟩ := acquireIntra_cases hpin <;> rfl
  | hihLan hback hh hlan hc => exact hc ▸ rfl

theorem MemorySound.packet (h : MemorySound g targets log s)
    (hatt : Attributed g s raw now s₁ i pkt c) (hh : handle mods g i pkt ⟨s₁, c⟩ = .ok (w, ev)) :
    MemorySound g targets (log ++ [⟨i, pkt, c⟩]) (w.st.withConn i w.conn) := by
  have hH := handle_cases hh
  have hfix (id : TargetId) : s₁.targets[id]?.map Target.fixed = targets[id]?.map Target.fixed := by
    rw [hatt.frame.1]
    exact h.fixed id
  have hb : Buffers g targets ⟨i, pkt, c⟩ w.conn := hH.disposed hfix
  have hbefore : ∃ c₀ : Conn, BufferOf g targets (meetingsOf i log) c₀ ∧ c.buffer = c₀.buffer := by
    cases hatt with
    | found hcap hpkt hlook hc₀ hs => exact ⟨_, h.followed.holds i _ hc₀, rfl⟩
    | created hcap hpkt hlook hid ht hi hcr =>
      rw [h.followed.meetingsOf_new hi]
      exact ⟨c, by simp [BufferOf, keptOf, hcr.buffer], rfl⟩
  obtain ⟨c₀, hbuf, hc⟩ := hbefore
  refine ⟨fun id => (hH.framed.1.targets id).trans (hfix id), h.followed.packet hatt hh ?_, ?_⟩
  · exact hbuf.step hb hc
  · refine Machine.correct_concat.mpr ⟨h.finds, ?_⟩
    show c.buffer.length = _
    rw [hc]
    exact hbuf.length

theorem memorySound_run
    (hrun : Machine.Logged (step mods g) (meeting g) (boot targets ifTarget mem) log s) :
    MemorySound g targets log s := by
  refine hrun.invariant (MemorySound g targets) ⟨fun _ => rfl, ?_, Machine.correct_nil⟩ ?_
  · exact ⟨by simp [boot], by simp, by simp [boot]⟩
  · intro log s inp s' out h hstep
    obtain ⟨hm, hq⟩ | ⟨raw, now, s₁, i, pkt, c, w, ev, hm, hatt, hh, rfl⟩ := meeting_cases hstep
    · rw [hm, List.append_nil]
      exact ⟨fun id => by rw [hq.targets, h.fixed], h.followed.quiet hq, h.finds⟩
    · rw [hm]
      exact h.packet hatt hh

/-- **The memory of packets.** In every run, the buffer of a connection that has not been removed
holds, in their order, the first `max_packet_buffer` of its packets that got to `store_pkt`, so that
these are the packets `free_conn` frees. A packet is lost exactly if that many packets of its
connection got there before it, or if no branch of `de_thread` takes it; otherwise it was freed, or
is one of those in the buffer. -/
theorem packets_disposed
    (hrun : Machine.Logged (step mods g) (meeting g) (boot targets ifTarget mem) log s) :
    (∀ (i : ConnId) (c : Conn), s.conns[i]? = some c →
      List.Forall₂ (fun m pkt => Rewritten m.pkt pkt)
        ((keptOf targets (meetingsOf i log)).take g.maxPacketBuffer) c.buffer) ∧
    ∀ before m after, log = before ++ m :: after →
      (m.disposal g targets = .lost ↔
        (m.keeps targets = true ∧
          g.maxPacketBuffer ≤ (keptOf targets (meetingsOf m.id before)).length) ∨
        (m.pkt.origin = .hih ∧ m.conn.state = .proxy ∧ m.conn.destination ≠ .ext ∧
          m.conn.destination ≠ .intra)) := by
  have hM := memorySound_run hrun
  refine ⟨hM.followed.holds, fun before m after hlog => ?_⟩
  have hlen : m.conn.buffer.length = _ := hM.finds before m after hlog
  have hpassed : m.passedOver = true ↔ m.pkt.origin = .hih ∧ m.conn.state = .proxy ∧
      m.conn.destination ≠ .ext ∧ m.conn.destination ≠ .intra := by
    simp [Meeting.passedOver]
  rw [← hpassed, Meeting.disposal]
  by_cases hkeep : m.keeps targets = true
  · -- a packet that is kept is not passed over
    have hnot : m.passedOver = false := by
      by_contra hp
      obtain ⟨ho, -⟩ := hpassed.mp (by simpa using hp)
      simp [Meeting.keeps, endsWithStore, ho] at hkeep
    rw [if_pos hkeep, hlen]
    by_cases hlt : min g.maxPacketBuffer (keptOf targets (meetingsOf m.id before)).length <
        g.maxPacketBuffer
    · rw [if_pos hlt]
      simp only [hkeep, hnot, reduceCtorEq, true_and, Bool.false_eq_true, or_false, false_iff]
      omega
    · rw [if_neg hlt]
      simp only [hkeep, hnot, true_and, Bool.false_eq_true, or_false, true_iff]
      omega
  · rw [if_neg hkeep]
    by_cases hp : m.passedOver = true
    · simp [hp]
    · simp [hp, hkeep]

end Runs

/-- With room for one packet, the answer of the low-interaction honeypot and the second packet of
the attacker are lost. -/
theorem packets_disposed_full :
    ∃ log s, Machine.Logged (step (Sample.modules .accept)
        { Sample.globals with maxPacketBuffer := 1 })
        (meeting { Sample.globals with maxPacketBuffer := 1 }) Sample.start log s ∧
      log.map (Meeting.disposal { Sample.globals with maxPacketBuffer := 1 } Sample.targets) =
        [.stored, .lost, .lost] ∧
      ∀ before m after, log = before ++ m :: after →
        (m.disposal { Sample.globals with maxPacketBuffer := 1 } Sample.targets = .lost ↔
          (m.keeps Sample.targets = true ∧
            1 ≤ (keptOf Sample.targets (meetingsOf m.id before)).length) ∨
          (m.pkt.origin = .hih ∧ m.conn.state = .proxy ∧ m.conn.destination ≠ .ext ∧
            m.conn.destination ≠ .intra)) := by
  have hrun : ((Machine.logOf (step (Sample.modules .accept)
      { Sample.globals with maxPacketBuffer := 1 })
      (meeting { Sample.globals with maxPacketBuffer := 1 }) Sample.start Sample.attack).passes
        fun r => decide (r.1.map (Meeting.disposal { Sample.globals with maxPacketBuffer := 1 }
          Sample.targets) = [.stored, .lost, .lost])) = true := by
    decide +kernel
  obtain ⟨⟨log, s⟩, hlog, hlost⟩ := Except.passes_iff.mp hrun
  have hlogged := Machine.logged_of_logOf hlog
  exact ⟨log, s, hlogged, of_decide_eq_true hlost, (packets_disposed hlogged).2⟩

end Honeybrid
