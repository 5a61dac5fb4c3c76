import Honeybrid.SeqNumbers
import Honeybrid.Redirection
import Honeybrid.ReplayOrder

/-!
# The stream offset of an answer

While a buffer is replayed, `test_expected` compares the packets of the high-interaction honeypot
with the answer of the low-interaction one. The acknowledgement is compared in every case. The
sequence number is compared with one that `define_expected_data` has computed with the offset known
at the time, and is not compared at all for a SYN, since the offset is only known after it. So a SYN
that is sent again passes for a later answer with the same acknowledgement; and a segment without
SYN passes at the wrong place of the stream if the offset has changed since the answer was expected.

## Main definitions

* `Misled`: the packets that pass at another place of the stream.

## Main results

* `testExpected_ok_iff`: the packets that pass the test.
* `offset_iff`: the packets that pass only at the place of the answer they are expected for.
-/

namespace Honeybrid

variable {μ : Type} {mods : Modules μ} {g : Globals} {s s₁ : State μ} {i : ConnId} {p q : Pkt}
  {c : Conn} {log : List Meeting} {raw : RawPcap} {now : ℤ} {δ l h : BitVec 32}
  {targets : Std.TreeMap TargetId Target intcmp} {ifTarget : Std.TreeMap IfaceId TargetId} {mem : μ}

/-- The packet passes for the answer `q`, which was expected with the offset `δ`, at another place
of the stream: a SYN, when `q` is not the SYN of the low-interaction honeypot, whose sequence number
is `l`; or a segment with the number that was computed, when the offset is another one by now. -/
def Misled (δ l : BitVec 32) (q : Pkt) (c : Conn) (p : Pkt) : Prop :=
  p.packet.protocol = IPPROTO_TCP ∧ p.packet.tcp.ackSeq = q.packet.tcp.ackSeq ∧
    (p.packet.tcp.syn = true ∧ q.packet.tcp.seq ≠ l ∨
      p.packet.tcp.syn = false ∧ p.packet.tcp.seq = q.packet.tcp.seq - δ ∧ c.hih.delta ≠ δ)

/-- The packets that pass the test for the answer `q` of a TCP connection. -/
theorem testExpected_ok_iff (hq : q.packet.protocol = IPPROTO_TCP)
    (hdef : DefinedFrom δ q c.expectedData) :
    (testExpected c p).2 = .ok ↔ p.packet.protocol = IPPROTO_TCP ∧
      (p.packet.tcp.syn = true ∨ p.packet.tcp.seq = q.packet.tcp.seq - δ) ∧
      p.packet.tcp.ackSeq = q.packet.tcp.ackSeq := by
  obtain ⟨hproto, -, htcp⟩ := hdef
  obtain ⟨hseq, hack, -⟩ := htcp hq
  rw [hq] at hproto
  rw [testExpected_ok_iff_meets, Pkt.Meets, hproto, hseq, hack, forall_prop_of_true rfl]

/-- The offset after a packet of the high-interaction honeypot has been noted. -/
theorem delta_noted (hC : Captured (meetingsOf i log) c) (ho : p.origin = .hih)
    (hs : c.state = .replay) (hl : lastSeq Meeting.lihSyn (meetingsOf i log) = some l)
    (hh : lastSeq Meeting.hihSyn (meetingsOf i log ++ [⟨i, p, c⟩]) = some h) :
    (p.isSyn = true ∧ h = p.packet.tcp.seq) ∨ (p.isSyn = false ∧ c.hih.delta = l - h) := by
  have hlih := hC.lih (by simp [hs]) (by simp [hs]) l hl
  rw [lastSeq_concat] at hh
  split_ifs at hh with hm
  · obtain ⟨-, hsyn, -⟩ : p.origin = .hih ∧ p.isSyn = true ∧ c.state = .replay := by
      simpa [Meeting.hihSyn] using hm
    exact .inl ⟨hsyn, (Option.some.inj hh).symm⟩
  · refine .inr ⟨by simpa [Meeting.hihSyn, ho, hs] using hm, ?_⟩
    rw [(hC.hih h hh).2, hlih]

/-- **The place of an answer.** Let a TCP connection in REPLAY wait for the answer `q` of the
low-interaction honeypot, and let `l` and `h` be the initial sequence numbers of the two honeypots.
A packet of the high-interaction honeypot that passes the test is at the offset of `q` and carries
its acknowledgement, exactly when it is not one of `Misled`. -/
theorem offset_iff
    (hrun : Machine.Logged (step mods g) (meeting g) (boot targets ifTarget mem) log s)
    (ha : assign g s raw now = .ok (s₁, some (i, p))) (hc : s₁.conns[i]? = some c)
    (ho : p.origin = .hih) (hs : c.state = .replay) (hq : q.packet.protocol = IPPROTO_TCP)
    (hdef : DefinedFrom δ q c.expectedData)
    (hl : lastSeq Meeting.lihSyn (meetingsOf i log) = some l)
    (hh : lastSeq Meeting.hihSyn (meetingsOf i log ++ [⟨i, p, c⟩]) = some h) :
    ((testExpected (noteDelta p c) p).2 = .ok →
        p.packet.tcp.seq - h = q.packet.tcp.seq - l ∧
          p.packet.tcp.ackSeq = q.packet.tcp.ackSeq) ↔
      ¬Misled δ l q c p := by
  have hdef' : DefinedFrom δ q (noteDelta p c).expectedData := by
    obtain ⟨d, hd⟩ := noteDelta_conn p c
    rw [hd]
    exact hdef
  have hnoted := delta_noted (captured_attributed hrun ha hc) ho hs hl hh
  rw [testExpected_ok_iff hq hdef', Misled]
  by_cases hp : p.packet.protocol = IPPROTO_TCP
  swap
  · simp [hp]
  by_cases hack : p.packet.tcp.ackSeq = q.packet.tcp.ackSeq
  swap
  · simp [hack]
  simp only [hp, hack, true_and, and_true]
  cases hsyn : p.packet.tcp.syn with
  | true =>
    -- the packet is at the beginning of the stream
    obtain ⟨-, rfl⟩ | ⟨hn, -⟩ := hnoted
    · simp only [true_or, true_implies, true_and, reduceCtorEq, false_and, or_false, not_not]
      constructor <;> intro heq <;> bv_omega
    · simp [Pkt.isSyn, hp, hsyn] at hn
  | false =>
    obtain ⟨hn, -⟩ | ⟨-, hdelta⟩ := hnoted
    · simp [Pkt.isSyn, hsyn] at hn
    · simp only [reduceCtorEq, false_or, false_and, true_and, not_and, not_not]
      refine forall_congr' fun hseq => ?_
      rw [hseq, hdelta]
      constructor <;> intro heq <;> bv_omega

namespace Sample

/-- A segment with data is accepted, another one is not decided on. -/
def onData : Modules Unit :=
  fun _ a mem => (⟨if a.pkt.packet.payload = [] then .defer else .accept, a.backendUse⟩, mem)

/-- A connection on which the low-interaction honeypot sends a greeting before the attacker sends
data. The data redirect the connection, and the backend answers the SYN. -/
def greeted : List Input :=
  [.packet (tcp (udp 0 50 1000 9 80) 100 0 true) 0,
    .packet (tcp (udp 1 10 80 50 1000) 700 101 true) 0,
    .packet (tcp (udp 0 50 1000 9 80) 101 701 false) 0,
    .packet (tcp (udp 1 10 80 50 1000) 701 101 false [1]) 0,
    .packet (tcp (udp 0 50 1000 9 80) 101 702 false [2]) 0,
    backendSyn]

/-- The greeting of the backend. -/
def backendGreeting : RawPcap :=
  tcp (udp 2 20 80 50 1000) 0xfffffffb 101 false [1]

/-- The SYN of the backend once more. -/
def backendSynAgain : RawPcap :=
  tcp (udp 2 20 80 50 1000) 0xfffffffa 101 true

end Sample

/-- The replay of `Sample.greeted` waits for the greeting when the packet `raw` of the backend
arrives and passes the test. -/
def awaitsGreeting (raw : RawPcap) : Except Fault Bool := do
  let r ← Machine.logOf (step Sample.onData Sample.globals) (meeting Sample.globals) Sample.start
    Sample.greeted
  let a ← assign Sample.globals r.2 raw 0
  let x ← a.2.orFail .conn
  let c ← a.1.connAt x.1
  let q ← c.buffer[3]?.orFail .bufferEnd
  return decide (x.2.origin = .hih ∧ c.state = .replay ∧ q.origin = .lih ∧
    q.packet.protocol = IPPROTO_TCP ∧ q.packet.tcp.seq = 701 ∧ q.packet.tcp.ackSeq = 101 ∧
    c.expectedData.ipProto = q.packet.protocol ∧ c.expectedData.payload = q.packet.payload ∧
    c.expectedData.tcpSeq = 0xfffffffb ∧ c.expectedData.tcpAckSeq = 101 ∧
    c.expectedData.tcpTs = q.packet.tcp.ts ∧ c.hih.delta = 706 ∧ x.2.packet = raw.frame ∧
    lastSeq Meeting.lihSyn (meetingsOf x.1 r.1) = some 700 ∧
    lastSeq Meeting.hihSyn (meetingsOf x.1 r.1 ++ [⟨x.1, x.2, c⟩]) = some 0xfffffffa ∧
    (testExpected (noteDelta x.2 c) x.2).2 = .ok)

theorem awaitsGreeting_cases {raw : RawPcap} (h : (awaitsGreeting raw).passes id = true) :
    ∃ log s s₁ i p c q, Machine.Logged (step Sample.onData Sample.globals)
        (meeting Sample.globals) Sample.start log s ∧
      assign Sample.globals s raw 0 = .ok (s₁, some (i, p)) ∧ s₁.conns[i]? = some c ∧
      p.origin = .hih ∧ p.packet = raw.frame ∧ c.state = .replay ∧ c.hih.delta = 706 ∧
      q ∈ c.buffer ∧ q.origin = .lih ∧ q.packet.protocol = IPPROTO_TCP ∧
      q.packet.tcp.seq = 701 ∧ DefinedFrom 706 q c.expectedData ∧
      lastSeq Meeting.lihSyn (meetingsOf i log) = some 700 ∧
      lastSeq Meeting.hihSyn (meetingsOf i log ++ [⟨i, p, c⟩]) = some 0xfffffffa ∧
      (testExpected (noteDelta p c) p).2 = .ok := by
  obtain ⟨d, hrun, hd⟩ := Except.passes_iff.mp h
  obtain ⟨⟨log, s⟩, hlog, hrun⟩ := Except.bind_eq_ok.mp hrun
  obtain ⟨⟨s₁, o⟩, ha, hrun⟩ := Except.bind_eq_ok.mp hrun
  obtain ⟨⟨i, p⟩, ho, hrun⟩ := Except.bind_eq_ok.mp hrun
  obtain ⟨c, hc, hrun⟩ := Except.bind_eq_ok.mp hrun
  obtain ⟨q, hq, hrun⟩ := Except.bind_eq_ok.mp hrun
  have ho := Option.orFail_eq_ok.mp ho
  simp only at ho
  have hd' := Except.ok.inj hrun
  subst ho hd'
  obtain ⟨hhih, hs, hqo, hqp, hqs, hqa, h₁, h₂, h₃, h₄, h₅, hδ, hp, hl, hh, hb⟩ :=
    of_decide_eq_true hd
  refine ⟨log, s, s₁, i, p, c, q, Machine.logged_of_logOf hlog, ha, Option.orFail_eq_ok.mp hc, hhih,
    hp, hs, hδ, List.mem_of_getElem? (Option.orFail_eq_ok.mp hq), hqo, hqp, hqs,
    ⟨h₁, h₂, fun _ => ⟨?_, h₄.trans hqa.symm, h₅⟩⟩, hl, hh, hb⟩
  rw [h₃, hqs]
  rfl

/-- The greeting of the backend is taken for the greeting that is expected. -/
theorem offset_greeting :
    ∃ log s s₁ i p c q, Machine.Logged (step Sample.onData Sample.globals)
        (meeting Sample.globals) Sample.start log s ∧
      assign Sample.globals s Sample.backendGreeting 0 = .ok (s₁, some (i, p)) ∧
      s₁.conns[i]? = some c ∧ q ∈ c.buffer ∧ q.origin = .lih ∧
      (testExpected (noteDelta p c) p).2 = .ok ∧
      p.packet.tcp.seq - 0xfffffffa = q.packet.tcp.seq - 700 ∧
      p.packet.tcp.ackSeq = q.packet.tcp.ackSeq := by
  have hrun : (awaitsGreeting Sample.backendGreeting).passes id = true := by decide +kernel
  obtain ⟨log, s, s₁, i, p, c, q, hlog, ha, hc, ho, hp, hs, hδ, hqb, hqo, hqp, -, hdef, hl, hh,
    hok⟩ := awaitsGreeting_cases hrun
  refine ⟨log, s, s₁, i, p, c, q, hlog, ha, hc, hqb, hqo, hok, ?_⟩
  refine (offset_iff hlog ha hc ho hs hqp hdef hl hh).mpr ?_ hok
  rintro ⟨-, -, ⟨hsyn, -⟩ | ⟨-, -, hne⟩⟩
  · rw [hp] at hsyn
    exact absurd hsyn (by decide)
  · exact hne hδ

/-- **A SYN that is sent again.** The replay waits for the greeting of the low-interaction honeypot,
at the offset 1. The SYN of the backend, which comes a second time, passes the test at the
offset 0. -/
theorem offset_broken :
    ∃ log s s₁ i p c q, Machine.Logged (step Sample.onData Sample.globals)
        (meeting Sample.globals) Sample.start log s ∧
      assign Sample.globals s Sample.backendSynAgain 0 = .ok (s₁, some (i, p)) ∧
      s₁.conns[i]? = some c ∧ p.origin = .hih ∧ c.state = .replay ∧ q ∈ c.buffer ∧
      q.origin = .lih ∧ q.packet.protocol = IPPROTO_TCP ∧ DefinedFrom 706 q c.expectedData ∧
      lastSeq Meeting.lihSyn (meetingsOf i log) = some 700 ∧
      lastSeq Meeting.hihSyn (meetingsOf i log ++ [⟨i, p, c⟩]) = some 0xfffffffa ∧
      (testExpected (noteDelta p c) p).2 = .ok ∧
      p.packet.tcp.seq - 0xfffffffa ≠ q.packet.tcp.seq - 700 := by
  have hrun : (awaitsGreeting Sample.backendSynAgain).passes id = true := by decide +kernel
  obtain ⟨log, s, s₁, i, p, c, q, hlog, ha, hc, ho, hp, hs, hδ, hqb, hqo, hqp, hqs, hdef, hl, hh,
    hok⟩ := awaitsGreeting_cases hrun
  refine ⟨log, s, s₁, i, p, c, q, hlog, ha, hc, ho, hs, hqb, hqo, hqp, hdef, hl, hh, hok, ?_⟩
  rw [hp, hqs]
  decide

end Honeybrid
