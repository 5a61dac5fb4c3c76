import Honeybrid.Registration
import Honeybrid.Lib.Channels

/-!
# One queue for every connection

`pcap_cb` pushes a captured frame to the queue of one of the decision threads. `IP2QUEUEID` chooses
it before anything is looked up: by the last octet of the source address for a frame from an uplink,
and of the destination address for any other frame. All packets between EXT and a honeypot carry the
address of EXT there. Between a honeypot and an INTRA host no address is external: the packets of
the honeypot are queued by the address it has contacted, and the replies by its own.

## Main definitions

* `ip2queueid`, `pcapCb`: the queue of a frame.
* `Conn.queueIp`: the address that decides, for the packets of a connection.

## Main results

* `pcapCb_of_resolves`: the queue of a packet of a connection, in every run.
* `same_queue_iff`: when two packets of a connection are queued together.
-/

namespace Honeybrid

variable {μ : Type} {mods : Modules μ} {g : Globals} {s : State μ} {i : ConnId} {c : Conn}
  {pkt : Pkt}
  {raw : RawPcap} {role : Role} {tr : List Event} {threads : BitVec 32}

/-- The last octet of an address, which is the highest byte of the word that holds it. -/
def lastOctet (ip : IpAddr) : BitVec 32 :=
  (ip &&& 0xFF000000) >>> 24

/-- `IP2QUEUEID`. -/
def ip2queueid (threads : BitVec 32) (ifTarget : Std.TreeMap IfaceId TargetId) (raw : RawPcap) :
    BitVec 32 :=
  if ifTarget[raw.iface]?.isSome then lastOctet raw.frame.saddr % threads
  else lastOctet raw.frame.daddr % threads

/-- `pcap_cb`: the queue a frame is pushed to; a frame with a VLAN tag from an uplink is skipped. -/
def pcapCb (threads : BitVec 32) (ifTarget : Std.TreeMap IfaceId TargetId) (raw : RawPcap) :
    Option (BitVec 32) :=
  if raw.frame.vlan.isSome ∧ ifTarget[raw.iface]?.isSome then none
  else some (ip2queueid threads ifTarget raw)

/-- The address by which the packets of one side of a connection are queued. -/
def Conn.queueIp (c : Conn) (role : Role) : IpAddr :=
  if c.initiator = .ext ∨ role = .intra then c.firstPktSrcIp else c.firstPktDstIp

/-- The keys of a connection carry the address it is queued by: as the source in the trees that are
scanned for packets of EXT, and as the destination in the others. -/
theorem queueIp_of_listed {tree : ConnTree} {k : ConnKey} (hf : c.Formed)
    (h : Conn.Listed tree k c) :
    (tree = .ext1 ∨ tree = .int2 → k.srcIp = c.queueIp .ext) ∧
      (tree = .ext2 ∨ tree = .int1 ∨ tree = .intra1 →
        ∀ role, role ≠ .intra → k.dstIp = c.queueIp role) ∧
      (tree = .intra2 → k.dstIp = c.queueIp .intra) := by
  unfold Conn.queueIp
  cases tree with
  | ext1 =>
    obtain ⟨hini, hk⟩ := h
    rw [hf.opening hini] at hk
    cases hk
    simp [hini, Conn.openKey]
  | int2 =>
    obtain ⟨hini, -, hk⟩ := h
    simp [hini, hf.outer hini k hk]
  | ext2 =>
    obtain ⟨hini, hk⟩ := h
    simp [hini, hf.inner hini k hk]
  | int1 =>
    obtain ⟨hini, -, hk⟩ := h
    simp +contextual [hini, hf.inside hini k hk]
  | intra1 =>
    obtain ⟨-, hk⟩ := h
    by_cases hini : c.initiator = .ext
    · simp [hini, hf.inner hini k (.inl hk)]
    · simp +contextual [hini, hf.inside hini k hk]
  | intra2 => simp [h.2]

/-- Two frames are pushed to one queue, and however the threads are scheduled, its thread takes the
frames of this queue in the order of their arrival. -/
def QueuedTogether (threads : BitVec 32) (ifTarget : Std.TreeMap IfaceId TargetId)
    (raw raw' : RawPcap) : Prop :=
  ∃ q < threads, pcapCb threads ifTarget raw = some q ∧ pcapCb threads ifTarget raw' = some q ∧
    ∀ moved waiting, Machine.Reaches (Channels.move (pcapCb threads ifTarget)) (fun _ => [])
      moved waiting →
      Channels.takes q moved <+: Channels.arrivals (pcapCb threads ifTarget) q moved

theorem queuedTogether_iff {ifTarget : Std.TreeMap IfaceId TargetId} {raw' : RawPcap}
    (hthreads : 0 < threads) :
    QueuedTogether threads ifTarget raw raw' ↔
      ∃ q, pcapCb threads ifTarget raw = some q ∧ pcapCb threads ifTarget raw' = some q := by
  constructor
  · rintro ⟨q, -, h, h', -⟩
    exact ⟨q, h, h'⟩
  · rintro ⟨q, h, h'⟩
    refine ⟨q, ?_, h, h', fun moved waiting hmoves => Channels.takes_prefix hmoves q⟩
    have hq := h
    simp only [pcapCb, Option.ite_none_left_eq_some, Option.some.injEq, ip2queueid] at hq
    obtain ⟨-, rfl⟩ := hq
    split_ifs
    · exact BitVec.umod_lt _ hthreads
    · exact BitVec.umod_lt _ hthreads

section Runs

variable {targets : Std.TreeMap TargetId Target intcmp} {ifTarget : Std.TreeMap IfaceId TargetId}
  {mem : μ} {ok : State μ → Input → Prop}

/-- In every run, a packet of a connection is queued by the address of its side. -/
theorem pcapCb_of_resolves (threads : BitVec 32)
    (hrun : Machine.Run (step mods g) ok (boot targets ifTarget mem) tr s)
    (hc : s.conns[i]? = some c) (h : Resolves s raw pkt i role) :
    pcapCb threads s.ifTarget raw = some (lastOctet (c.queueIp role) % threads) := by
  obtain ⟨hcap, hlook⟩ := h
  obtain ⟨hpacket, -, hin, -⟩ := capture_cases hcap
  have horigin := capture_origin hcap
  rw [hin, ← Option.isSome_iff_ne_none] at horigin
  have hskip : ¬(raw.frame.vlan.isSome ∧ s.ifTarget[raw.iface]?.isSome) := by
    intro hvlan
    rw [capture, if_pos hvlan] at hcap
    cases hcap
  have hkey (tree : ConnTree) (hentry : (s.connTree tree)[pkt.connKey]? = some i) :=
    queueIp_of_listed ((registered hrun).formed i c hc)
      ((registered hrun).belongs tree _ i c hentry hc)
  have hqueue {ip ip' : IpAddr} (h : ip = ip') :
      some (lastOctet ip % threads) = some (lastOctet ip' % threads) := by rw [h]
  rw [pcapCb, if_neg hskip, ip2queueid, ← hpacket]
  obtain ⟨ho, rfl, he⟩ | ⟨ho, hr, he⟩ | ⟨ho, rfl, he⟩ := connLookup_cases hlook
  · rw [if_pos (horigin.mp ho)]
    rcases he with he | he
    · exact hqueue ((hkey .ext1 he).1 (.inl rfl))
    · exact hqueue ((hkey .int2 he).1 (.inr rfl))
  · have hne : role ≠ .intra := by rcases hr with rfl | rfl <;> simp
    rw [if_neg (mt horigin.mpr ho)]
    rcases he with he | he | he
    · exact hqueue ((hkey .ext2 he).2.1 (.inl rfl) role hne)
    · exact hqueue ((hkey .int1 he).2.1 (.inr (.inl rfl)) role hne)
    · exact hqueue ((hkey .intra1 he).2.1 (.inr (.inr rfl)) role hne)
  · rw [if_neg (mt horigin.mpr ho)]
    exact hqueue ((hkey .intra2 he).2.2 rfl)

/-- **One queue for every connection.** Two packets of a connection are queued together exactly when
the connection comes from EXT, or both or neither of them are from its INTRA host, or the octets of
the two addresses happen to agree. -/
theorem same_queue_iff {raw' : RawPcap} {pkt' : Pkt} {role' : Role} (hpos : 1 ≤ threads)
    (hrun : Machine.Run (step mods g) ok (boot targets ifTarget mem) tr s)
    (hc : s.conns[i]? = some c) (h : Resolves s raw pkt i role)
    (h' : Resolves s raw' pkt' i role') :
    QueuedTogether threads s.ifTarget raw raw' ↔
      c.initiator = .ext ∨ (role = .intra ↔ role' = .intra) ∨
        lastOctet c.firstPktSrcIp % threads = lastOctet c.firstPktDstIp % threads := by
  have hthreads : 0 < threads := by bv_omega
  have hsame : QueuedTogether threads s.ifTarget raw raw' ↔
      lastOctet (c.queueIp role) % threads = lastOctet (c.queueIp role') % threads := by
    rw [queuedTogether_iff hthreads, pcapCb_of_resolves threads hrun hc h,
      pcapCb_of_resolves threads hrun hc h']
    simp [eq_comm]
  rw [hsame]
  unfold Conn.queueIp
  by_cases hini : c.initiator = .ext
  · simp [hini]
  · by_cases hr : role = .intra <;> by_cases hr' : role' = .intra <;> simp [hini, hr, hr', eq_comm]

end Runs

/-- The test whether a frame is resolved to a connection. -/
def resolves (s : State μ) (raw : RawPcap) (i : ConnId) (role : Role) : Bool :=
  (capture s raw).any fun pkt => (connLookup s pkt).passes (· = some (i, role))

theorem resolves_iff : resolves s raw i role = true ↔ ∃ pkt, Resolves s raw pkt i role := by
  rw [resolves, Option.any_eq_true]
  refine exists_congr fun pkt => and_congr_right fun _ => ⟨Except.eq_ok_of_passes, fun h => ?_⟩
  exact Except.passes_iff.mpr ⟨_, h, by simp⟩

/-- The packets of the attacker and the answers of the low-interaction honeypot, with three
threads. -/
theorem same_queue_attack :
    ∃ tr s c pkt pkt',
      Machine.Reaches (step (Sample.modules .accept) Sample.globals) Sample.start tr s ∧
      s.conns[1]? = some c ∧ Resolves s (Sample.udp 0 50 1000 9 80) pkt 1 .ext ∧
      Resolves s (Sample.udp 1 10 80 50 1000) pkt' 1 .lih ∧
      QueuedTogether 3 s.ifTarget (Sample.udp 0 50 1000 9 80) (Sample.udp 1 10 80 50 1000) := by
  obtain ⟨tr, s, hrun, hp⟩ := Machine.exists_reaches
    (step (Sample.modules .accept) Sample.globals) Sample.start
    [.packet (Sample.udp 0 50 1000 9 80) 0]
    (fun r => (r.1.conns[1]?.any fun c => c.initiator = .ext) ∧
      resolves r.1 (Sample.udp 0 50 1000 9 80) 1 .ext ∧
      resolves r.1 (Sample.udp 1 10 80 50 1000) 1 .lih)
    (by decide +kernel)
  obtain ⟨hc, h, h'⟩ := of_decide_eq_true hp
  obtain ⟨c, hc, hini⟩ := (Option.any_eq_true ..).mp hc
  obtain ⟨pkt, h⟩ := resolves_iff.mp h
  obtain ⟨pkt', h'⟩ := resolves_iff.mp h'
  exact ⟨tr, s, c, pkt, pkt', hrun, hc, h, h',
    (same_queue_iff (by decide) hrun hc h h').mpr (.inl (of_decide_eq_true hini))⟩

namespace Sample

/-- The configuration in which the last octet of the backend's address is 1. -/
def odd : State Unit :=
  boot ((∅ : Std.TreeMap TargetId Target intcmp).insert 1
    { target with
      backHandlers := (∅ : Std.TreeMap HandlerId Handler intcmp).insert 1
        { hih with ip := 0x01000014 } }) ifTarget ()

/-- A packet of this backend to the INTRA host. -/
def call : RawPcap :=
  udp 2 0x01000014 1000 40 80

/-- The reply of the INTRA host. -/
def response : RawPcap :=
  udp 3 30 80 0x01000014 1000

end Sample

/-- **A connection in two queues.** A backend contacts an INTRA host. Its packets go to the first of
two queues and the replies to the second one, and the thread of the second queue may handle a reply
before the packet that has arrived earlier. -/
theorem same_queue_broken :
    ∃ tr s pkt pkt',
      Machine.Reaches (step (Sample.modules .accept) Sample.globals) Sample.odd tr s ∧
      Resolves s Sample.call pkt 1 .hih ∧ Resolves s Sample.response pkt' 1 .intra ∧
      pcapCb 2 s.ifTarget Sample.call = some 0 ∧ pcapCb 2 s.ifTarget Sample.response = some 1 ∧
      ¬QueuedTogether 2 s.ifTarget Sample.call Sample.response ∧
      ∃ waiting, Machine.Reaches (Channels.move (pcapCb 2 s.ifTarget)) (fun _ => [])
        [.arrived Sample.call, .arrived Sample.response, .taken 1 Sample.response,
          .taken 0 Sample.call] waiting := by
  obtain ⟨tr, s, hrun, hp⟩ := Machine.exists_reaches
    (step (Sample.modules .accept) Sample.globals) Sample.odd [.packet Sample.call 0]
    (fun r => resolves r.1 Sample.call 1 .hih ∧ resolves r.1 Sample.response 1 .intra ∧
      pcapCb 2 r.1.ifTarget Sample.call = some 0 ∧ pcapCb 2 r.1.ifTarget Sample.response = some 1 ∧
      (Machine.exec (Channels.move (pcapCb 2 r.1.ifTarget)) (fun _ => [])
        [.arrive Sample.call, .arrive Sample.response, .take 1, .take 0]).passes
          (·.2 = [.arrived Sample.call, .arrived Sample.response, .taken 1 Sample.response,
            .taken 0 Sample.call]))
    (by decide +kernel)
  obtain ⟨h, h', hq, hq', hmoves⟩ := of_decide_eq_true hp
  obtain ⟨pkt, h⟩ := resolves_iff.mp h
  obtain ⟨pkt', h'⟩ := resolves_iff.mp h'
  obtain ⟨⟨waiting, moved⟩, hmoves, hmoved⟩ := Except.passes_iff.mp hmoves
  obtain rfl := of_decide_eq_true hmoved
  refine ⟨tr, s, pkt, pkt', hrun, h, h', hq, hq', ?_, waiting, Machine.reaches_of_exec hmoves⟩
  rw [queuedTogether_iff (by decide), hq, hq']
  simp

end Honeybrid
