import Honeybrid.Meetings
import Honeybrid.ModuleSettings

/-!
# Counting packets of the attacker

`update_conn` counts the packets of EXT in `count_data_pkt_from_intruder`, and `mod_counter`
compares the field with its threshold. The packet that creates a connection takes the way through
`create_conn`, which leaves the field at zero, so that the count is one behind: the `k`-th packet of
EXT is submitted to the decision engine with the count `k - 1`.

## Main definitions

* `Conn.intruderCount`: the field, which has 32 bits.
* `extPackets ms`: the packets of EXT among those a connection has met.
* `Submits`: the next packet is one of EXT and goes to the decision engine.

## Main results

* `Handles.count`: the field is not written while a packet is handled.
* `intruderCount_of_run`: the count at every submission of every run.
-/

namespace Honeybrid

/-- `count_data_pkt_from_intruder`. -/
def Conn.intruderCount (c : Conn) : BitVec 32 :=
  BitVec.ofNat 32 c.countDataPktFromIntruder

/-- The packets of EXT among those a connection has met. -/
def extPackets (ms : List Meeting) : List Meeting :=
  ms.filter (·.pkt.origin = .ext)

/-- The next packet comes from EXT, on a connection that is not decided on yet. -/
structure Submits {μ : Type} (g : Globals) (s : State μ) (raw : RawPcap) (now : ℤ) (s₁ : State μ)
    (i : ConnId) (pkt : Pkt) (c : Conn) : Prop where
  assigned : assign g s raw now = .ok (s₁, some (i, pkt))
  conn : s₁.conns[i]? = some c
  origin : pkt.origin = .ext
  state : c.state = .init ∨ c.state = .decision

variable {μ : Type} {mods : Modules μ} {g : Globals} {s s' s₁ : State μ} {i : ConnId} {pkt : Pkt}
  {c : Conn} {raw : RawPcap} {now : ℤ} {log : List Meeting} {w w' : Work μ} {ev : List Event}

/-- A packet that is submitted goes to `DE_process_packet`. -/
theorem Submits.handle_eq (h : Submits g s raw now s₁ i pkt c) :
    handle mods g i pkt ⟨s₁, c⟩ = decideExt mods g i pkt ⟨s₁, c⟩ := by
  have hstate := h.state
  have hlive : ¬((c.state = .invalid ∧ pkt.origin = .ext) ∨ c.state = .drop) := by
    rcases hstate with hs | hs <;> simp [hs]
  rw [handle, if_neg hlive, h.origin]
  show dispatchExt mods g i pkt ⟨s₁, c⟩ = _
  rcases hstate with hs | hs <;> simp only [dispatchExt, hs]

/-! ### The field stays -/

theorem keepPkt_count (t : Target) (c : Conn) (pkt : Pkt) :
    (keepPkt g t c pkt).countDataPktFromIntruder = c.countDataPktFromIntruder := by
  obtain ⟨b, h⟩ := keepPkt_conn g t c pkt
  rw [h]

theorem noteLihSyn_count (pkt : Pkt) (c : Conn) :
    (noteLihSyn pkt c).countDataPktFromIntruder = c.countDataPktFromIntruder := by
  obtain ⟨b, h⟩ := noteLihSyn_conn pkt c
  rw [h]

theorem RuleRun.count {b : Bool} (h : RuleRun i b w w') :
    w'.conn.countDataPktFromIntruder = w.conn.countDataPktFromIntruder := by
  obtain hc | ⟨h', k, hc⟩ := h.conn_cases
  · rw [hc]
  · rw [hc]
    rfl

theorem Acts.count {t : Target} {d : DecisionHolder} {status : Status}
    (h : Acts g i t d w status w' ev) :
    w'.conn.countDataPktFromIntruder = w.conn.countDataPktFromIntruder := by
  cases h with
  | redirect hd hs hr =>
    obtain ⟨h, key, rid, ed, -, -, rfl⟩ := setupRedirection_conn hr
    rfl
  | _ => rfl

theorem deProcessPacket_count {status : Status}
    (h : deProcessPacket mods i pkt g w = .ok (status, w', ev)) :
    w'.conn.countDataPktFromIntruder = w.conn.countDataPktFromIntruder := by
  obtain ⟨d, w₁, ev₁, ev₂, t, he, -, ha, -⟩ := deProcessPacket_cases h
  exact ha.count.trans (evaluate_run he).count

/-- Handling a packet does not write the field. -/
theorem Handles.count (h : Handles mods g i pkt w w' ev) :
    w'.conn.countDataPktFromIntruder = w.conn.countDataPktFromIntruder := by
  cases h with
  | lihEarly ho hs ht hp => exact (keepPkt_count ..).trans (noteLihSyn_count ..)
  | lihControlOk ho hs hd ht hp =>
    exact (keepPkt_count ..).trans ((deProcessPacket_count hd).trans (noteLihSyn_count ..))
  | lihControlNok ho hs hd ht =>
    exact (keepPkt_count ..).trans ((deProcessPacket_count hd).trans (noteLihSyn_count ..))
  | hihReplay ho hs hr =>
    obtain ⟨⟨_, _, _, _, _, rfl⟩, -⟩ := replay_frame hr
    obtain ⟨d, hd⟩ := noteDelta_conn pkt w.conn
    rw [hd]
  | hihControlOk ho hs hd ht hp => exact deProcessPacket_count hd
  | hihControlNok ho hs hd => exact deProcessPacket_count hd
  | hihInitOk ho hs hd hp => exact (deProcessPacket_count hd).trans rfl
  | hihInitNok ho hs hd => exact (deProcessPacket_count hd).trans rfl
  | extEarlyOk ho hs hd ht hp => exact (keepPkt_count ..).trans (deProcessPacket_count hd)
  | extEarlyNok ho hs hd ht => exact (keepPkt_count ..).trans (deProcessPacket_count hd)
  | _ => rfl

/-! ### Runs -/

theorem extPackets_concat (ms : List Meeting) (m : Meeting) :
    (extPackets (ms ++ [m])).length =
      if m.pkt.origin = .ext then (extPackets ms).length + 1 else (extPackets ms).length := by
  rw [extPackets, List.filter_append]
  split_ifs with h
  · simp [h, extPackets]
  · simp [h, extPackets]

/-- The packet that has created the connection is not counted. -/
def PacketsCounted (ms : List Meeting) (c : Conn) : Prop :=
  c.initiator = .ext → (extPackets ms).length = c.countDataPktFromIntruder + 1

theorem PacketsCounted.step {ms : List Meeting} (h : PacketsCounted ms c)
    (hh : handle mods g i pkt ⟨s₁, updateConn c pkt.origin now⟩ = .ok (w, ev)) :
    PacketsCounted (ms ++ [⟨i, pkt, updateConn c pkt.origin now⟩]) w.conn := by
  have hH := handle_cases hh
  intro hini
  have hbefore := h ((Conn.initiator_of_flow hH.framed.2).symm.trans hini)
  rw [extPackets_concat, hH.count]
  show _ = (if pkt.origin = .ext then c.countDataPktFromIntruder + 1
    else c.countDataPktFromIntruder) + 1
  split_ifs <;> omega

theorem Creates.count {t : Target} {r : TargetSearch} {pkt₀ : Pkt}
    (h : Creates g s i t pkt₀ r now .ext c s₁) : c.countDataPktFromIntruder = 0 := by
  cases h with
  | ext hfront hpin hc =>
    rw [hc]
    rfl

theorem Creates.counted {t : Target} {r : TargetSearch} {pkt₀ : Pkt}
    (h : Creates g s i t pkt₀ r now r.origin c s₁) (ho : pkt.origin = r.origin)
    (hh : handle mods g i pkt ⟨s₁, c⟩ = .ok (w, ev)) : PacketsCounted [⟨i, pkt, c⟩] w.conn := by
  have hH := handle_cases hh
  intro hini
  have hrole : r.origin = .ext :=
    h.start.1.symm.trans ((Conn.initiator_of_flow hH.framed.2).symm.trans hini)
  have hone := extPackets_concat [] ⟨i, pkt, c⟩
  rw [if_pos (ho.trans hrole)] at hone
  rw [hrole] at h
  rw [hH.count, h.count]
  exact hone

section Runs

variable {targets : Std.TreeMap TargetId Target intcmp} {ifTarget : Std.TreeMap IfaceId TargetId}
  {mem : μ}

theorem counted_run
    (hrun : Machine.Logged (step mods g) (meeting g) (boot targets ifTarget mem) log s) :
    Followed PacketsCounted log s := by
  refine meetingInvariant PacketsCounted ?_ ?_ hrun
  · intro c c' l i pkt w s₁ ev now hC hc' hh
    subst hc'
    exact hC.step hh
  · intro c s s₁ t i pkt pkt₀ r now w ev hcr ho hh
    exact hcr.counted ho hh

/-- The count that a packet of EXT finds is the number of those before it. -/
theorem countDataPkt_of_run
    (hrun : Machine.Logged (step mods g) (meeting g) (boot targets ifTarget mem) log s)
    (hsub : Submits g s raw now s₁ i pkt c) (hini : c.initiator = .ext) :
    c.countDataPktFromIntruder = (extPackets (meetingsOf i log)).length := by
  have hF := counted_run hrun
  obtain ⟨hnone, -⟩ | ⟨i', pkt', c', heq, hc', hatt⟩ := assign_cases hsub.assigned
  · cases hnone
  · cases heq
    obtain rfl : c = c' := Option.some.inj (hsub.conn.symm.trans hc')
    cases hatt with
    | found hcap hpkt hlook hc₀ hs =>
      have hbefore := hF.holds i _ hc₀ hini
      rw [hbefore]
      exact if_pos hsub.origin
    | created hcap hpkt hlook hid ht hi hcr =>
      rw [hF.meetingsOf_new hi]
      have hrole := hcr.start.1.symm.trans hini
      rw [hrole] at hcr
      exact hcr.count

/-! ### What `mod_counter` sees -/

/-- The module `m` is `mod_counter` with the threshold `n`: `t` is the table of its settings, and
behind the entry `counter`, memory holds `bytes`. -/
structure Counter (mods : Modules μ) (m : ModuleDef) (t : ModSettings) (bytes : List (BitVec 8))
    (n : ℤ) : Prop where
  function : m.function = .counter
  threshold : Param.counter.value t bytes = some n
  result : ∀ a mem, (mods m a mem).1.result = modCounter t bytes a.conn.intruderCount

variable {m : ModuleDef} {t : ModSettings} {bytes : List (BitVec 8)} {n : ℤ}

/-- The verdict of a rule that consists of `mod_counter`. -/
theorem decide_counter {d d' : DecisionHolder} {use : HandlerId} (hm : Counter mods m t bytes n)
    (hd : d.decide mods i pkt (.node m .null .null) use w = .ok (d', w')) :
    d'.result = .accept ↔ n ≤ w.conn.intruderCount.toNat := by
  have hdns : m.function ≠ .dnsControl := by
    intro hdns
    rw [hm.function] at hdns
    cases hdns
  rw [DecisionHolder.decide, runModule, if_neg hdns] at hd
  obtain ⟨⟨o, w₁⟩, hrun, hd⟩ := Except.bind_eq_ok.mp hd
  obtain ⟨target, -, hrun⟩ := Except.bind_eq_ok.mp hrun
  cases hrun
  have hres := hm.result ⟨pkt, w.conn, target, d.backendTest, use⟩ w.st.mod
  simp only [modCounter, hm.threshold] at hres
  by_cases hle : n ≤ w.conn.intruderCount.toNat
  · rw [if_pos hle] at hres
    simp only [hres] at hd
    cases hd
    exact iff_of_true rfl hle
  · rw [if_neg hle] at hres
    simp only [hres] at hd
    cases hd
    refine iff_of_false (fun hverdict => ?_) hle
    cases hverdict

/-- **Packets of the attacker are counted one short.** In every run, when the `k`-th packet of EXT
of a connection from EXT is submitted to the decision engine, the count is `k - 1`, in 32 bits, and
never `k`. This is what a rule that consists of `mod_counter` compares with its threshold, at
whatever point of the evaluation. -/
theorem intruderCount_behind {k : ℕ}
    (hrun : Machine.Logged (step mods g) (meeting g) (boot targets ifTarget mem) log s)
    (hsub : Submits g s raw now s₁ i pkt c) (hini : c.initiator = .ext)
    (hk : k = (extPackets (meetingsOf i log)).length + 1) :
    handle mods g i pkt ⟨s₁, c⟩ = decideExt mods g i pkt ⟨s₁, c⟩ ∧
      c.intruderCount = BitVec.ofNat 32 (k - 1) ∧ c.intruderCount.toNat ≠ k ∧
        ∀ m t bytes n, Counter mods m t bytes n → ∀ b w, RuleRun i b ⟨s₁, c⟩ w → ∀ d d' use w',
          DecisionHolder.decide mods i pkt (.node m .null .null) use d w = .ok (d', w') →
            (d'.result = .accept ↔ n ≤ (BitVec.ofNat 32 (k - 1)).toNat) := by
  have hcount := countDataPkt_of_run hrun hsub hini
  have hbehind : c.intruderCount = BitVec.ofNat 32 (k - 1) := by
    rw [Conn.intruderCount, hcount, hk, Nat.add_sub_cancel]
  refine ⟨hsub.handle_eq, hbehind, fun heq => ?_, ?_⟩
  · rw [hbehind, BitVec.toNat_ofNat] at heq
    have hle := Nat.mod_le (k - 1) (2 ^ 32)
    omega
  · intro m t bytes n hm b w hw d d' use w' hd
    have hsame : w.conn.intruderCount = c.intruderCount :=
      congrArg (BitVec.ofNat 32) (RuleRun.count hw)
    rw [decide_counter hm hd, hsame, hbehind]

end Runs

/-! ### The first packets of a connection -/

namespace Sample

/-- `mod_counter`. -/
def counterModule : ModuleDef where
  name := "counter"
  function := .counter

/-- The settings of `mod_counter` with a threshold. -/
def threshold (n : String) : ModSettings :=
  Function.update (fun _ => none) "counter" (some (.text n))

/-- Every module is `mod_counter` with the threshold `n`. -/
def counting (n : String) : Modules Unit :=
  fun _ a mem => (⟨modCounter (threshold n) [] a.conn.intruderCount, a.backendUse⟩, mem)

/-- After the inputs `before`, the attacker sends a packet, which is the `k`-th one of its
connection and finds the given count. A rule that consists of `mod_counter` rejects it. -/
def rejectedCount (n : String) (before : List Input) (k : ℕ) (count : BitVec 32) :
    Except Fault Bool := do
  let r ← Machine.logOf (step (counting n) globals) (meeting globals) start before
  let a ← assign globals r.2 (udp 0 50 1000 9 80) 0
  let x ← a.2.orFail .conn
  let c ← a.1.connAt x.1
  let v ← DecisionHolder.decide (counting n) x.1 x.2 (.node counterModule .null .null) 0 {} ⟨a.1, c⟩
  return decide (x.2.origin = .ext ∧ (c.state = .init ∨ c.state = .decision) ∧ c.initiator = .ext ∧
    k = (extPackets (meetingsOf x.1 r.1)).length + 1 ∧ c.intruderCount = count ∧
    v.1.result = .reject)

end Sample

theorem rejectedCount_cases {n : String} {before : List Input} {k : ℕ} {count : BitVec 32}
    (h : (Sample.rejectedCount n before k count).passes id = true) :
    ∃ log s s₁ i pkt c, Machine.Logged (step (Sample.counting n) Sample.globals)
        (meeting Sample.globals) Sample.start log s ∧
      Submits Sample.globals s (Sample.udp 0 50 1000 9 80) 0 s₁ i pkt c ∧ c.initiator = .ext ∧
      k = (extPackets (meetingsOf i log)).length + 1 ∧ c.intruderCount = count ∧
      ∃ d w, DecisionHolder.decide (Sample.counting n) i pkt
        (.node Sample.counterModule .null .null)
        0 {} ⟨s₁, c⟩ = .ok (d, w) ∧ d.result = .reject := by
  obtain ⟨b, hrun, hb⟩ := Except.passes_iff.mp h
  obtain ⟨⟨log, s⟩, hlog, hrun⟩ := Except.bind_eq_ok.mp hrun
  obtain ⟨⟨s₁, o⟩, ha, hrun⟩ := Except.bind_eq_ok.mp hrun
  obtain ⟨⟨i, pkt⟩, ho, hrun⟩ := Except.bind_eq_ok.mp hrun
  obtain ⟨c, hc, hrun⟩ := Except.bind_eq_ok.mp hrun
  obtain ⟨⟨d, w⟩, hd, hrun⟩ := Except.bind_eq_ok.mp hrun
  have ho := Option.orFail_eq_ok.mp ho
  have hb' := Except.ok.inj hrun
  simp only at ho
  subst ho hb'
  obtain ⟨hext, hs, hini, hk, hcount, hv⟩ := of_decide_eq_true hb
  exact ⟨log, s, s₁, i, pkt, c, Machine.logged_of_logOf hlog,
    ⟨ha, Option.orFail_eq_ok.mp hc, hext, hs⟩, hini, hk, hcount, d, w, hd, hv⟩

/-- The second packet of EXT, behind an answer of the low-interaction honeypot, finds the count 1,
and is rejected by `mod_counter` with the threshold 2. -/
theorem intruderCount_second :
    ∃ log s s₁ i pkt c, Machine.Logged (step (Sample.counting "2") Sample.globals)
        (meeting Sample.globals) Sample.start log s ∧
      Submits Sample.globals s (Sample.udp 0 50 1000 9 80) 0 s₁ i pkt c ∧
      c.intruderCount.toNat ≠ 2 ∧ ∀ d d' use w',
        DecisionHolder.decide (Sample.counting "2") i pkt (.node Sample.counterModule .null .null)
          use d ⟨s₁, c⟩ = .ok (d', w') → (d'.result = .accept ↔ (2 : ℤ) ≤ (1 : ℕ)) := by
  have hrun : (Sample.rejectedCount "2" (Sample.attack.take 2) 2 1).passes id = true := by
    decide +kernel
  obtain ⟨log, s, s₁, i, pkt, c, hlog, hsub, hini, hk, -, -⟩ := rejectedCount_cases hrun
  obtain ⟨-, -, hne, hverdict⟩ := intruderCount_behind hlog hsub hini hk
  have hcounter : Counter (Sample.counting "2") Sample.counterModule (Sample.threshold "2") [] 2 :=
    ⟨rfl, by decide +kernel, fun _ _ => rfl⟩
  exact ⟨log, s, s₁, i, pkt, c, hlog, hsub, hne, fun d d' use w' =>
    hverdict _ _ _ _ hcounter false _ .refl d d' use w'⟩

/-- The first packet of a connection is submitted with the count 0, and is rejected by
`mod_counter` with the threshold 1. -/
theorem intruderCount_first :
    ∃ log s s₁ i pkt c, Machine.Logged (step (Sample.counting "1") Sample.globals)
        (meeting Sample.globals) Sample.start log s ∧
      Submits Sample.globals s (Sample.udp 0 50 1000 9 80) 0 s₁ i pkt c ∧ c.initiator = .ext ∧
      (extPackets (meetingsOf i log)).length + 1 = 1 ∧ c.intruderCount.toNat ≠ 1 ∧
      ∃ d w, DecisionHolder.decide (Sample.counting "1") i pkt
        (.node Sample.counterModule .null .null)
        0 {} ⟨s₁, c⟩ = .ok (d, w) ∧ d.result ≠ .accept := by
  have hrun : (Sample.rejectedCount "1" [] 1 0).passes id = true := by
    decide +kernel
  obtain ⟨log, s, s₁, i, pkt, c, hlog, hsub, hini, hk, hcount, d, w, hd, hv⟩ :=
    rejectedCount_cases hrun
  refine ⟨log, s, s₁, i, pkt, c, hlog, hsub, hini, hk.symm, ?_, d, w, hd, ?_⟩
  · rw [hcount]
    exact nofun
  · rw [hv]
    exact nofun

end Honeybrid
