import Honeybrid.ReplayOffsets

/-!
# The reset of the low-interaction honeypot

When a connection is redirected, `reset_lih` ends it on the low-interaction honeypot. Its loop goes
through the whole buffer and remembers in `p` a packet of that honeypot; but `p` is only compared
with null, and the packet that is answered is the last one the loop has visited. When the buffer
ends with a packet of EXT, the reset is addressed to the attacker, on the interface of the honeypot.

## Main definitions

* `Conn.lastLih`: the last packet of the low-interaction honeypot in the buffer.
* `ResetOf f r`: the frame `r` is the RST that answers `f`.
* `SameReset f x`: the answer to `x` is that to `f`.

## Main results

* `resetOf_resetFrame_iff`: when the answer to one frame is that to another.
* `lih_reset_iff`: when the low-interaction honeypot is reset.
-/

namespace Honeybrid

variable {t : Target} {i : ConnId} {c : Conn} {q x : Pkt}

/-- The last packet of the low-interaction honeypot in the buffer. -/
def Conn.lastLih (c : Conn) : Option Pkt :=
  (c.buffer.filter (·.origin = .lih)).getLast?

/-- The sequence number after a segment: SYN and FIN count, and the bytes of the payload. -/
def Frame.nextSeq (f : Frame) : BitVec 32 :=
  f.tcp.seq + (if f.tcp.syn then 1 else 0) + (if f.tcp.fin then 1 else 0) +
    (f.totLen.setWidth 32 - f.ihl.setWidth 32 * 4 - f.tcp.doff.setWidth 32 * 4)

/-- The frame `r` is a RST that goes back to the sender of `f`, from its receiver, with the numbers
that `f` leads to. -/
structure ResetOf (f r : Frame) : Prop where
  dhost : r.dhost = f.shost
  shost : r.shost = f.dhost
  protocol : r.protocol = IPPROTO_TCP
  daddr : r.daddr = f.saddr
  saddr : r.saddr = f.daddr
  dest : r.dest = f.source
  source : r.source = f.dest
  rst : r.tcp.rst = true
  seq : r.tcp.seq = f.tcp.ackSeq
  ackSeq : r.tcp.ackSeq = f.nextSeq

/-- The RST that answers `x` is one that answers `f`: the addresses and ports are the same, `x`
acknowledges what `f` does, and leads to the same sequence number. -/
structure SameReset (f x : Frame) : Prop where
  shost : x.shost = f.shost
  dhost : x.dhost = f.dhost
  saddr : x.saddr = f.saddr
  daddr : x.daddr = f.daddr
  source : x.source = f.source
  dest : x.dest = f.dest
  ackSeq : (if x.tcp.ack then x.tcp.ackSeq else 0) = f.tcp.ackSeq
  nextSeq : x.nextSeq = f.nextSeq

theorem resetFrame_ackSeq (x : Frame) : (resetFrame x).tcp.ackSeq = x.nextSeq := by
  simp only [resetFrame, Frame.nextSeq, BitVec.sub_eq_add_neg, BitVec.add_assoc]

theorem resetOf_resetFrame_iff {f x : Frame} : ResetOf f (resetFrame x) ↔ SameReset f x :=
  ⟨fun h => ⟨h.dhost, h.shost, h.daddr, h.saddr, h.dest, h.source, h.seq,
      resetFrame_ackSeq x ▸ h.ackSeq⟩,
    fun h => ⟨h.shost, h.dhost, rfl, h.saddr, h.daddr, h.source, h.dest, rfl, h.ackSeq,
      (resetFrame_ackSeq x).trans h.nextSeq⟩⟩

/-- A segment with the flag ACK is answered by its own reset. -/
theorem sameReset_self_iff {f : Frame} : SameReset f f ↔ f.tcp.ack = true ∨ f.tcp.ackSeq = 0 := by
  constructor
  · intro h
    have hack := h.ackSeq
    split_ifs at hack with ha
    · exact .inl ha
    · exact .inr hack.symm
  · intro h
    refine ⟨rfl, rfl, rfl, rfl, rfl, rfl, ?_, rfl⟩
    split_ifs with ha
    · rfl
    · exact (h.resolve_left ha).symm

/-- With a packet of the low-interaction honeypot in the buffer, `reset_lih` answers the last packet
of the buffer. -/
theorem resetLih_eq (hp : c.protocol = IPPROTO_TCP) (hq : c.lastLih = some q)
    (hx : c.buffer.getLast? = some x) :
    resetLih t i c = do
      let h ← t.frontHandler.orFail .frontHandler
      return replyReset i c h.iface x := by
  have hany : c.buffer.any (·.origin = .lih) = true := by
    have hmem := List.mem_filter.mp (List.mem_of_getLast? hq)
    exact List.any_eq_true.mpr ⟨q, hmem⟩
  simp [resetLih, hp, hx, hany]

/-- **The reset.** Let the buffer of a TCP connection hold a packet of the low-interaction honeypot,
`q` being the last such packet and `x` the last packet of all. Then `reset_lih` sends the RST that
answers `q` on the interface of the front handler exactly when there is such an interface and the
answer to `x` is that to `q`. -/
theorem lih_reset_iff (hp : c.protocol = IPPROTO_TCP) (hq : c.lastLih = some q)
    (hx : c.buffer.getLast? = some x) :
    (∃ front e, t.frontHandler = some front ∧ front.iface = some e.out ∧
        resetLih t i c = .ok [.emitted e] ∧ ResetOf q.original e.frame) ↔
      (∃ front out, t.frontHandler = some front ∧ front.iface = some out) ∧
        SameReset q.original x.original := by
  rw [resetLih_eq hp hq hx]
  constructor
  · rintro ⟨front, e, hf, hout, hr, hreset⟩
    simp only [hf, Option.orFail_some, Except.ok_bind, replyReset, hout, Except.pure_eq_ok,
      Except.ok.injEq, List.cons.injEq, Event.emitted.injEq, and_true] at hr
    rw [← hr] at hreset
    exact ⟨⟨front, e.out, hf, hout⟩, resetOf_resetFrame_iff.mp hreset⟩
  · rintro ⟨⟨front, out, hf, hout⟩, hsame⟩
    refine ⟨front, { sender := .replyReset, id := i, conn := c, pkt := x, out
                     frame := resetFrame x.original }, hf, hout, ?_,
      resetOf_resetFrame_iff.mpr hsame⟩
    simp [hf, replyReset, hout]

namespace Sample

/-- A test of the connection after some packets of `greeted`, of the last packet of the
low-interaction honeypot in its buffer, and of the last packet of all. -/
def bufferAfter (n : ℕ) (check : Conn → Pkt → Pkt → Bool) : Except Fault Bool := do
  let r ← Machine.exec (step onData globals) start (greeted.take n)
  let c ← r.1.connAt 1
  let q ← c.lastLih.orFail .bufferEnd
  let x ← c.buffer.getLast?.orFail .bufferEnd
  return check c q x

theorem bufferAfter_cases {n : ℕ} {check : Conn → Pkt → Pkt → Bool}
    (h : (bufferAfter n check).passes id = true) :
    ∃ tr s c q x, Machine.Reaches (step onData globals) start tr s ∧ s.conns[1]? = some c ∧
      c.lastLih = some q ∧ c.buffer.getLast? = some x ∧ check c q x = true := by
  obtain ⟨d, hrun, hd⟩ := Except.passes_iff.mp h
  obtain ⟨⟨s, tr⟩, hr, hrun⟩ := Except.bind_eq_ok.mp hrun
  obtain ⟨c, hc, hrun⟩ := Except.bind_eq_ok.mp hrun
  obtain ⟨q, hq, hrun⟩ := Except.bind_eq_ok.mp hrun
  obtain ⟨x, hx, hrun⟩ := Except.bind_eq_ok.mp hrun
  cases hrun
  exact ⟨tr, s, c, q, x, Machine.reaches_of_exec hr, Option.orFail_eq_ok.mp hc,
    Option.orFail_eq_ok.mp hq, Option.orFail_eq_ok.mp hx, hd⟩

end Sample

/-- The buffer ends with the SYN of the low-interaction honeypot, which is reset. -/
theorem lih_reset_answer :
    ∃ tr s c q, Machine.Reaches (step Sample.onData Sample.globals) Sample.start tr s ∧
      s.conns[1]? = some c ∧ c.lastLih = some q ∧
      ∃ front e, Sample.target.frontHandler = some front ∧ front.iface = some e.out ∧
        resetLih Sample.target 1 c = .ok [.emitted e] ∧ ResetOf q.original e.frame := by
  have hrun : (Sample.bufferAfter 2 fun c q x =>
      c.protocol = IPPROTO_TCP ∧ x = q ∧ q.original.tcp.ack).passes id = true := by
    decide +kernel
  obtain ⟨tr, s, c, q, x, hr, hc, hq, hx, hcheck⟩ := Sample.bufferAfter_cases hrun
  obtain ⟨hp, rfl, hack⟩ := of_decide_eq_true hcheck
  refine ⟨tr, s, c, x, hr, hc, hq, (lih_reset_iff hp hq hx).mpr ⟨⟨Sample.lih, 1, rfl, rfl⟩, ?_⟩⟩
  exact sameReset_self_iff.mpr (.inl hack)

/-- **The attacker is reset.** The buffer ends with the acknowledgement of the attacker: the RST on
the interface of the low-interaction honeypot is addressed to the attacker. -/
theorem lih_reset_broken :
    ∃ tr s c q e, Machine.Reaches (step Sample.onData Sample.globals) Sample.start tr s ∧
      s.conns[1]? = some c ∧ c.protocol = IPPROTO_TCP ∧ c.lastLih = some q ∧
      resetLih Sample.target 1 c = .ok [.emitted e] ∧ e.frame.daddr = c.firstPktSrcIp ∧
      ¬ResetOf q.original e.frame := by
  have hrun : (Sample.bufferAfter 3 fun c q x =>
      c.protocol = IPPROTO_TCP ∧ x.original.saddr = c.firstPktSrcIp ∧
        q.original.saddr ≠ c.firstPktSrcIp).passes id = true := by
    decide +kernel
  obtain ⟨tr, s, c, q, x, hr, hc, hq, hx, hcheck⟩ := Sample.bufferAfter_cases hrun
  obtain ⟨hp, hsrc, hne⟩ := of_decide_eq_true hcheck
  refine ⟨tr, s, c, q, { sender := .replyReset, id := 1, conn := c, pkt := x, out := 1
                         frame := resetFrame x.original }, hr, hc, hp, hq, ?_, hsrc, ?_⟩
  · rw [resetLih_eq hp hq hx]
    rfl
  · intro hreset
    exact hne (hreset.daddr.symm.trans hsrc)

end Honeybrid
