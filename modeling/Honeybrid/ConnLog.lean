import Honeybrid.Meetings
import Honeybrid.Sweeps
import Mathlib.Algebra.GroupWithZero.Nat
import Mathlib.Data.BitVec
import Mathlib.Data.List.Induction

/-!
# Statistics and the connection log

`create_conn` and `update_conn` count the packets and the octets of a connection, in total and under
the state in which it receives them, where CONTROL is counted as PROXY. `connection_log` writes one
row for a connection when it is removed, with the total and, for each state the connection has
reached, what was counted under it; for DECISION the row shows the rules instead.

## Main definitions

* `Stats`, `statsOf`: the counters, and the counters after the packets a connection has met.
* `statusInfo`: the columns of a row.
* `Record`, `record`: the packets that connections meet, and the rows, in their order.

## Main results

* `Handles.stage_le`: a connection never goes back to a state with an earlier column.
* `rows_account`: one row for each connection, and what its columns add up to.
-/

namespace Honeybrid

/-! ### Counters -/

/-- `stat_packet`, `stat_byte`, `total_packet` and `total_byte`; all of them have 32 bits. -/
structure Stats where
  statPacket : ConnStatus → BitVec 32 := fun _ => 0
  statByte : ConnStatus → BitVec 32 := fun _ => 0
  totalPacket : BitVec 32 := 0
  totalByte : BitVec 32 := 0

/-- The state a packet is counted under. -/
def ConnStatus.statState : ConnStatus → ConnStatus
  | .control => .proxy
  | state => state

namespace Stats

/-- The counters after one more packet in the given state. -/
def add (st : Stats) (state : ConnStatus) (pkt : Pkt) : Stats where
  statPacket := Function.update st.statPacket state (st.statPacket state + 1)
  statByte := Function.update st.statByte state (st.statByte state + BitVec.ofNat 32 pkt.size)
  totalPacket := st.totalPacket + 1
  totalByte := st.totalByte + BitVec.ofNat 32 pkt.size

/-- `create_conn`: the first packet is counted under INIT, whatever the state of the connection. -/
def create (pkt : Pkt) : Stats where
  statPacket := Function.update (fun _ => 0) .init 1
  statByte := Function.update (fun _ => 0) .init (BitVec.ofNat 32 pkt.size)
  totalPacket := 1
  totalByte := BitVec.ofNat 32 pkt.size

/-- `update_conn`. -/
def update (st : Stats) (state : ConnStatus) (pkt : Pkt) : Stats :=
  st.add state.statState pkt

theorem create_eq (pkt : Pkt) : create pkt = ({} : Stats).add .init pkt := by
  simp [create, add]

/-- The packets under all the states. -/
def packets (st : Stats) : BitVec 32 :=
  st.statPacket .invalid + st.statPacket .init + st.statPacket .decision + st.statPacket .replay +
    st.statPacket .forward + st.statPacket .proxy + st.statPacket .drop + st.statPacket .control

theorem packets_add (st : Stats) (state : ConnStatus) (pkt : Pkt) :
    (st.add state pkt).packets = st.packets + 1 := by
  cases state <;> simp [packets, add] <;> ac_rfl

end Stats

/-- The counters of a connection after the packets it has met, the first of which created it. -/
def statsOf : List Meeting → Stats
  | [] => {}
  | m :: ms => ms.foldl (fun st m => st.update m.conn.state m.pkt) (.create m.pkt)

/-- The state under which each of the packets is counted. -/
def statStates : List Meeting → List ConnStatus
  | [] => []
  | _ :: ms => .init :: ms.map fun m => m.conn.state.statState

/-! ### Rows -/

/-- A column of a row: of a state that has not been reached, the counters, the counters with the
problems of the replay, or the rules that have decided. -/
inductive Column
  | blank
  | counts (packets bytes : BitVec 32)
  | failed (packets bytes : BitVec 32) (problem : ReplayProblem)
  | rules
  deriving DecidableEq

/-- The number of an enumerator of `conn_status_t`. -/
def ConnStatus.number : ConnStatus → ℕ
  | .invalid => 0
  | .init => 1
  | .decision => 2
  | .replay => 3
  | .forward => 4
  | .proxy => 5
  | .drop => 6
  | .control => 7

/-- `connection_log`: the column of the state `state`. -/
def statusInfo (c : Conn) (st : Stats) (state : ConnStatus) : Column :=
  if state.number ≤ c.state.number then
    if state = .replay ∧ c.replayProblem ≠ {} then
      .failed (st.statPacket state) (st.statByte state) c.replayProblem
    else if state = .decision then .rules
    else .counts (st.statPacket state) (st.statByte state)
  else .blank

/-- The packets a column shows. -/
def Column.packets : Column → BitVec 32
  | .counts packets _ => packets
  | .failed packets _ _ => packets
  | _ => 0

/-- The columns of a row, from INIT to PROXY. -/
def logColumns (c : Conn) (st : Stats) : List Column :=
  [ConnStatus.init, .decision, .replay, .forward, .proxy].map (statusInfo c st)

/-- What a row adds up to: the totals are those of the packets the connection has met, and the
columns show all of them, except those that were met in DECISION and in DROP. -/
structure RowAccounts (ms : List Meeting) (c : Conn) : Prop where
  packets : (statsOf ms).totalPacket = BitVec.ofNat 32 ms.length
  bytes : (statsOf ms).totalByte = BitVec.ofNat 32 (ms.map (·.pkt.size)).sum
  columns : (statsOf ms).totalPacket = ((logColumns c (statsOf ms)).map Column.packets).sum +
    (statsOf ms).statPacket .decision + (statsOf ms).statPacket .drop

variable {μ : Type} {mods : Modules μ} {g : Globals} {s s' s₁ : State μ} {i : ConnId} {pkt : Pkt}
  {c : Conn} {raw : RawPcap} {now : ℤ} {w w' : Work μ} {ev : List Event} {ms : List Meeting}
  {m : Meeting} {state : ConnStatus}

theorem statsOf_concat (h : ms ≠ []) (m : Meeting) :
    statsOf (ms ++ [m]) = (statsOf ms).update m.conn.state m.pkt := by
  cases ms with
  | nil => exact absurd rfl h
  | cons m₀ ms => simp [statsOf]

theorem statsOf_singleton (m : Meeting) : statsOf [m] = ({} : Stats).add .init m.pkt :=
  Stats.create_eq m.pkt

theorem statStates_concat (h : ms ≠ []) (m : Meeting) :
    statStates (ms ++ [m]) = statStates ms ++ [m.conn.state.statState] := by
  cases ms with
  | nil => exact absurd rfl h
  | cons m₀ ms => simp [statStates]

/-- **Counters by induction.** What holds of the counters of one packet, and of one more packet
under whatever state, holds of the counters of a connection that has met packets. -/
theorem statsOf_induction {Q : List Meeting → Stats → Prop}
    (hone : ∀ m, Q [m] (({} : Stats).add .init m.pkt))
    (hmore : ∀ ms m st, ms ≠ [] → Q ms st → Q (ms ++ [m]) (st.add m.conn.state.statState m.pkt))
    (h : ms ≠ []) : Q ms (statsOf ms) := by
  induction ms using List.reverseRecOn with
  | nil => exact absurd rfl h
  | append_singleton ms m ih =>
    by_cases hms : ms = []
    · subst hms
      rw [List.nil_append, statsOf_singleton]
      exact hone m
    · rw [statsOf_concat hms]
      exact hmore ms m _ hms (ih hms)

theorem totalPacket_statsOf (h : ms ≠ []) :
    (statsOf ms).totalPacket = BitVec.ofNat 32 ms.length ∧
      (statsOf ms).totalByte = BitVec.ofNat 32 (ms.map (·.pkt.size)).sum ∧
      (statsOf ms).packets = (statsOf ms).totalPacket := by
  refine statsOf_induction (Q := fun ms st => st.totalPacket = BitVec.ofNat 32 ms.length ∧
    st.totalByte = BitVec.ofNat 32 (ms.map (·.pkt.size)).sum ∧ st.packets = st.totalPacket) ?_ ?_ h
  · intro m
    refine ⟨rfl, ?_, ?_⟩
    · simp [Stats.add]
    · simp [Stats.packets, Stats.add]
  · rintro ms m st - ⟨hpackets, hbytes, hsum⟩
    refine ⟨?_, ?_, ?_⟩
    · simp [Stats.add, hpackets, BitVec.ofNat_add]
    · simp [Stats.add, hbytes, BitVec.ofNat_add]
    · rw [Stats.packets_add, hsum]
      rfl

theorem statPacket_of_not_mem (hms : ms ≠ []) (h : state ∉ statStates ms) :
    (statsOf ms).statPacket state = 0 := by
  revert h
  refine statsOf_induction (Q := fun ms st => state ∉ statStates ms → st.statPacket state = 0)
    ?_ ?_ hms
  · intro m hm
    simp [Stats.add, Function.update_of_ne (show state ≠ .init by simpa [statStates] using hm)]
  · intro ms m st hms ih hm
    rw [statStates_concat hms, List.mem_append, not_or, List.mem_singleton] at hm
    exact (Function.update_of_ne hm.2 ..).trans (ih hm.1)

/-! ### The order of the states -/

/-- The order in which a connection goes through its states. -/
def ConnStatus.stage : ConnStatus → ℕ
  | .invalid => 0
  | .init => 1
  | .decision => 2
  | .replay => 3
  | .forward => 4
  | .proxy => 5
  | .control => 5
  | .drop => 6

@[simp] theorem ConnStatus.stage_statState (state : ConnStatus) :
    state.statState.stage = state.stage := by
  cases state <;> rfl

theorem ConnStatus.stage_le_control (h : state ≠ .drop) :
    state.stage ≤ ConnStatus.control.stage := by
  cases state <;> simp_all [ConnStatus.stage]

theorem noteLihSyn_state (pkt : Pkt) (c : Conn) : (noteLihSyn pkt c).state = c.state := by
  obtain ⟨b, h⟩ := noteLihSyn_conn pkt c
  rw [h]

theorem RuleRun.stage_le {b : Bool} (h : RuleRun i b w w') (hw : w.conn.state.stage ≤ 5) :
    w.conn.state.stage ≤ w'.conn.state.stage := by
  obtain hc | ⟨h', k, hc⟩ := h.conn_cases
  · rw [hc]
  · rw [hc]
    exact hw

theorem Acts.stage_le {t : Target} {d : DecisionHolder} {status : Status}
    (h : Acts g i t d w status w' ev) : w.conn.state.stage ≤ w'.conn.state.stage := by
  have hdrop (state : ConnStatus) : state.stage ≤ ConnStatus.drop.stage := by
    cases state <;> decide
  cases h with
  | controlFree hd hs => simp [hs, Conn.switchState, ConnStatus.stage]
  | initFree hd hs =>
    rw [hs]
    simp only [Conn.switchState]
    split_ifs <;> decide
  | acceptInit hd hs =>
    rw [hs]
    simp only [Conn.switchState]
    split_ifs <;> decide
  | redirect hd hs hr =>
    obtain ⟨h, key, rid, ed, -, -, rfl⟩ := setupRedirection_conn hr
    simp [hs, ConnStatus.stage]
  | rejectDecision hd hs => simp [hs, Conn.switchState, ConnStatus.stage]
  | rejectOther hd hs => exact hdrop _
  | drop hd => exact hdrop _
  | _ => exact le_rfl

theorem deProcessPacket_stage {status : Status} (hw : w.conn.state.stage ≤ 5)
    (h : deProcessPacket mods i pkt g w = .ok (status, w', ev)) :
    w.conn.state.stage ≤ w'.conn.state.stage := by
  obtain ⟨d, w₁, ev₁, ev₂, t, he, -, ha, -⟩ := deProcessPacket_cases h
  exact ((evaluate_run he).stage_le hw).trans ha.stage_le

/-- **The order of the states.** A packet never takes its connection back to an earlier state. -/
theorem Handles.stage_le (h : Handles mods g i pkt w w' ev) :
    w.conn.state.stage ≤ w'.conn.state.stage := by
  cases h with
  | lihEarly ho hs ht hp => rw [(keepPkt_state ..).1, noteLihSyn_state]
  | lihControlOk ho hs hd ht hp =>
    have hle := deProcessPacket_stage (by simp [noteLihSyn_state, hs, ConnStatus.stage]) hd
    rw [noteLihSyn_state] at hle
    exact hle.trans (Nat.le_of_eq (congrArg _ (keepPkt_state ..).1.symm))
  | lihControlNok ho hs hd ht =>
    have hle := deProcessPacket_stage (by simp [noteLihSyn_state, hs, ConnStatus.stage]) hd
    rw [noteLihSyn_state] at hle
    exact hle.trans (Nat.le_of_eq (congrArg _ (keepPkt_state ..).1.symm))
  | hihReplay ho hs hr =>
    obtain ⟨-, hstate | hstate, -⟩ := replay_frame hr
    · obtain ⟨d, hd⟩ := noteDelta_conn pkt w.conn
      rw [hstate, hd]
    · simp [hstate, hs, ConnStatus.stage]
  | hihControlOk ho hs hd ht hp => exact deProcessPacket_stage (by rw [hs]; decide) hd
  | hihControlNok ho hs hd => exact deProcessPacket_stage (by rw [hs]; decide) hd
  | hihDeny ho hs hev =>
    rcases hs with hs | hs | hs <;> simp [hs, Conn.switchState, ConnStatus.stage]
  | hihInitOk ho hs hd hp =>
    exact (ConnStatus.stage_le_control (by rcases hs with hs | hs | hs <;> simp [hs])).trans
      (deProcessPacket_stage (by exact Nat.le_refl 5) hd)
  | hihInitNok ho hs hd =>
    exact (ConnStatus.stage_le_control (by rcases hs with hs | hs | hs <;> simp [hs])).trans
      (deProcessPacket_stage (by exact Nat.le_refl 5) hd)
  | extEarlyOk ho hs hd ht hp =>
    rw [(keepPkt_state ..).1]
    exact deProcessPacket_stage (by rcases hs with hs | hs <;> rw [hs] <;> decide) hd
  | extEarlyNok ho hs hd ht =>
    rw [(keepPkt_state ..).1]
    exact deProcessPacket_stage (by rcases hs with hs | hs <;> rw [hs] <;> decide) hd
  | _ => exact le_rfl

/-- Every packet was counted under a state that the connection has reached. -/
def Tallied (ms : List Meeting) (c : Conn) : Prop :=
  ms ≠ [] ∧ ∀ state ∈ statStates ms, 1 ≤ state.stage ∧ state.stage ≤ c.state.stage

theorem control_not_mem (ms : List Meeting) : ConnStatus.control ∉ statStates ms := by
  have hne (state : ConnStatus) : state.statState ≠ .control := by
    cases state <;> simp [ConnStatus.statState]
  cases ms with
  | nil => exact List.not_mem_nil
  | cons m ms => simp [statStates, hne]

theorem statusInfo_packets (c : Conn) (st : Stats) (state : ConnStatus) :
    (statusInfo c st state).packets =
      if state.number ≤ c.state.number ∧ state ≠ .decision then st.statPacket state else 0 := by
  unfold statusInfo
  by_cases hle : state.number ≤ c.state.number
  · rw [if_pos hle]
    by_cases hr : state = .replay ∧ c.replayProblem ≠ {}
    · rw [if_pos hr, if_pos ⟨hle, by simp [hr.1]⟩]
      rfl
    · by_cases hd : state = .decision
      · rw [if_neg hr, if_pos hd, if_neg (by simp [hd])]
        rfl
      · rw [if_neg hr, if_neg hd, if_pos ⟨hle, hd⟩]
        rfl
  · simp [hle, Column.packets]

/-- What is not shown has not been counted, except for DECISION and DROP. -/
theorem Tallied.account (h : Tallied ms c) : RowAccounts ms c := by
  obtain ⟨hms, hstage⟩ := h
  obtain ⟨hpackets, hbytes, hsum⟩ := totalPacket_statsOf hms
  refine ⟨hpackets, hbytes, ?_⟩
  have hzero (state : ConnStatus) (hs : state.stage = 0 ∨ c.state.stage < state.stage) :
      (statsOf ms).statPacket state = 0 := by
    refine statPacket_of_not_mem hms fun hmem => ?_
    obtain ⟨hpos, hle⟩ := hstage state hmem
    omega
  have hcontrol : (statsOf ms).statPacket .control = 0 :=
    statPacket_of_not_mem hms (control_not_mem ms)
  have hinvalid := hzero .invalid (.inl rfl)
  rw [← hsum, Stats.packets, hcontrol, hinvalid]
  simp only [logColumns, List.map_cons, List.map_nil, List.sum_cons, List.sum_nil,
    statusInfo_packets]
  cases hc : c.state <;> rw [hc] at hzero <;>
    simp [ConnStatus.number, hzero, ConnStatus.stage] <;> ac_rfl

theorem Tallied.step (h : Tallied ms c)
    (hh : handle mods g i pkt ⟨s₁, updateConn c pkt.origin now⟩ = .ok (w, ev)) :
    Tallied (ms ++ [⟨i, pkt, updateConn c pkt.origin now⟩]) w.conn := by
  obtain ⟨hms, hstage⟩ := h
  have hle : c.state.stage ≤ w.conn.state.stage := (handle_cases hh).stage_le
  -- the connection is past INIT, where its first packet was counted
  have hpos : 1 ≤ c.state.stage := by
    cases ms with
    | nil => exact absurd rfl hms
    | cons m ms => exact (hstage .init List.mem_cons_self).2
  refine ⟨by simp, fun state hs => ?_⟩
  rw [statStates_concat hms, List.mem_append, List.mem_singleton] at hs
  rcases hs with hs | rfl
  · exact ⟨(hstage state hs).1, (hstage state hs).2.trans hle⟩
  · rw [ConnStatus.stage_statState]
    exact ⟨hpos, hle⟩

theorem Creates.tallied {t : Target} {r : TargetSearch} {pkt₀ : Pkt}
    (h : Creates g s i t pkt₀ r now r.origin c s₁)
    (hh : handle mods g i pkt ⟨s₁, c⟩ = .ok (w, ev)) : Tallied [⟨i, pkt, c⟩] w.conn := by
  have hle : c.state.stage ≤ w.conn.state.stage := (handle_cases hh).stage_le
  have hpos : 1 ≤ c.state.stage := by
    obtain ⟨-, -, ⟨-, hs, -⟩ | ⟨-, hs, -⟩ | ⟨-, hs, -⟩⟩ := h.start <;> simp [hs, ConnStatus.stage]
  refine ⟨by simp, fun state hs => ?_⟩
  obtain rfl : state = .init := by simpa [statStates] using hs
  exact ⟨le_rfl, hpos.trans hle⟩

/-! ### The log of a run -/

/-- What happens to the statistics: a packet is met, or the row of a connection is written. -/
inductive LogEntry
  | met (m : Meeting)
  | row (i : ConnId) (c : Conn)

/-- The packet that is met. -/
def LogEntry.meeting? : LogEntry → Option Meeting
  | .met m => some m
  | .row .. => none

/-- The connection whose row is written. -/
def LogEntry.row? : LogEntry → Option (ConnId × Conn)
  | .met _ => none
  | .row i c => some (i, c)

/-- The entries of a step; `remove_conn` writes the row of each connection of a sweep. -/
def connLog (g : Globals) (s : State μ) : Input → List LogEntry
  | .packet raw now => (meeting g s (.packet raw now)).map .met
  | .sweep now delay =>
    match entryToClean s now delay with
    | .ok is => is.filterMap fun i => s.conns[i]?.map (.row i)
    | .error _ => []

/-- The packets that are met, in order. -/
def metIn (log : List LogEntry) : List Meeting :=
  log.filterMap LogEntry.meeting?

/-- The rows that are written, in order. -/
def rowsIn (log : List LogEntry) : List (ConnId × Conn) :=
  log.filterMap LogEntry.row?

theorem metIn_connLog (inp : Input) : metIn (connLog g s inp) = meeting g s inp := by
  cases inp with
  | packet raw now =>
    simp [connLog, metIn, List.filterMap_map, LogEntry.meeting?, Function.comp_def]
  | sweep now delay =>
    simp only [connLog, metIn, meeting]
    split
    · rw [List.filterMap_filterMap, List.filterMap_eq_nil_iff]
      intro i hi
      cases s.conns[i]? <;> rfl
    · rfl

theorem metIn_concat (g : Globals) (s : State μ) (inp : Input) (log : List LogEntry) :
    metIn (log ++ connLog g s inp) = metIn log ++ meeting g s inp := by
  rw [metIn, List.filterMap_append]
  exact congrArg _ (metIn_connLog inp)

/-- A packet writes no row. -/
theorem rowsIn_packet (g : Globals) (s : State μ) (raw : RawPcap) (now : ℤ) (log : List LogEntry) :
    rowsIn (log ++ connLog g s (.packet raw now)) = rowsIn log := by
  have hnone : ((meeting g s (.packet raw now)).map LogEntry.met).filterMap LogEntry.row? = [] := by
    rw [List.filterMap_map, List.filterMap_eq_nil_iff]
    exact fun _ _ => rfl
  rw [rowsIn, List.filterMap_append, connLog, hnone, List.append_nil]
  rfl

/-- The connections after a list of removals. -/
theorem removeAll_conns {is : List ConnId} (h : removeAll s is = .ok s') (j : ConnId) :
    is.Nodup ∧ (∀ i ∈ is, s.conns[i]?.isSome) ∧
      s'.conns[j]? = if j ∈ is then none else s.conns[j]? := by
  induction is generalizing s with
  | nil =>
    cases h
    simp
  | cons i is ih =>
    obtain ⟨s₁, hr, hrest⟩ := Except.bind_eq_ok.mp h
    obtain ⟨c, s₂, s₃, hc, hd, hrel, rfl⟩ := removeConn_cases hr
    have hk := (deregister_kept hd).trans (releaseTargetPin_kept hrel)
    obtain ⟨hnodup, hlive, hconns⟩ := ih hrest
    have hlook (k : ConnId) : ({ s₃ with conns := s₃.conns.erase i } : State μ).conns[k]? =
        if i = k then none else s.conns[k]? := by
      rw [Std.TreeMap.lookup_erase, hk.conns]
    refine ⟨List.nodup_cons.mpr ⟨fun hmem => ?_, hnodup⟩, ?_, ?_⟩
    · have hgone := hlive i hmem
      rw [hlook, if_pos rfl] at hgone
      cases hgone
    · intro k hk'
      rcases List.mem_cons.mp hk' with rfl | hk'
      · simp [hc]
      · have hsome := hlive k hk'
        rw [hlook] at hsome
        split_ifs at hsome
        · cases hsome
        · exact hsome
    · rw [hconns, hlook]
      simp only [List.mem_cons]
      by_cases hij : i = j
      · simp [hij]
      · simp [hij, Ne.symm hij]

/-- The connections whose rows are written in a sweep. -/
theorem rows_fst {is : List ConnId} (h : ∀ i ∈ is, s.conns[i]?.isSome) :
    (is.filterMap fun i => s.conns[i]?.map fun c => (i, c)).map Prod.fst = is := by
  induction is with
  | nil => rfl
  | cons i is ih =>
    obtain ⟨c, hc⟩ := Option.isSome_iff_exists.mp (h i List.mem_cons_self)
    rw [List.filterMap_cons_some (by rw [hc]; rfl), List.map_cons,
      ih fun j hj => h j (List.mem_cons_of_mem i hj)]

/-- The rows after a sweep. -/
theorem rowsIn_sweep {delay : ℤ} {is : List ConnId} (log : List LogEntry)
    (his : entryToClean s now delay = .ok is) :
    rowsIn (log ++ connLog g s (.sweep now delay)) =
      rowsIn log ++ is.filterMap fun i => s.conns[i]?.map fun c => (i, c) := by
  rw [rowsIn, List.filterMap_append, connLog, his, List.filterMap_filterMap]
  refine congrArg _ (congrArg (List.filterMap · is) (funext fun i => ?_))
  cases s.conns[i]? <;> rfl

section Runs

variable {targets : Std.TreeMap TargetId Target intcmp} {ifTarget : Std.TreeMap IfaceId TargetId}
  {mem : μ} {log : List LogEntry}

/-- The packets that are met in a run with its rows, and what was counted of them. -/
theorem tallied_run
    (hrun : Machine.Logged (step mods g) (connLog g) (boot targets ifTarget mem) log s) :
    Followed Tallied (metIn log) s := by
  have hmet := hrun.filterMap LogEntry.meeting? fun s inp => metIn_connLog (g := g) (s := s) inp
  refine meetingInvariant Tallied ?_ ?_ hmet
  · intro c c' l i pkt w s₁ ev now hT hc' hh
    subst hc'
    exact hT.step hh
  · intro c s s₁ t i pkt pkt₀ r now w ev hcr ho hh
    exact hcr.tallied hh

/-- What holds of the rows along every run: no connection has two, a connection with a row is gone,
one that is gone has a row, and the row counts its packets. -/
structure RowsSound (log : List LogEntry) (s : State μ) : Prop where
  nodup : ((rowsIn log).map Prod.fst).Nodup
  gone : ∀ r ∈ rowsIn log, r.1 ≤ s.cId ∧ s.conns[r.1]? = none
  kept : ∀ m ∈ metIn log, s.conns[m.id]?.isSome ∨ ∃ c, (m.id, c) ∈ rowsIn log
  tallied : ∀ r ∈ rowsIn log, Tallied (meetingsOf r.1 (metIn log)) r.2

theorem RowsSound.packet {out : List Event} (h : RowsSound log s)
    (hstep : step mods g s (.packet raw now) = .ok (s', out)) :
    RowsSound (log ++ connLog g s (.packet raw now)) s' := by
  have hrows := rowsIn_packet g s raw now log
  have hmet := metIn_concat g s (.packet raw now) log
  obtain ⟨⟨s₁, o⟩, ha, hstep⟩ := Except.bind_eq_ok.mp hstep
  cases o with
  | none =>
    cases hstep
    have hnone : meeting g s (.packet raw now) = [] := by simp [meeting, ha]
    rw [hnone, List.append_nil] at hmet
    have hconns : s'.conns = s.conns ∧ s.cId ≤ s'.cId := by
      rcases assign_none ha with rfl | rfl
      · exact ⟨rfl, le_rfl⟩
      · exact ⟨rfl, Nat.le_succ _⟩
    refine ⟨hrows ▸ h.nodup, ?_, ?_, ?_⟩
    · rw [hrows, hconns.1]
      exact fun r hr => ⟨(h.gone r hr).1.trans hconns.2, (h.gone r hr).2⟩
    · rw [hmet, hrows, hconns.1]
      exact h.kept
    · rw [hmet, hrows]
      exact h.tallied
  | some x =>
    obtain ⟨hnone, -⟩ | ⟨i, pkt, c, hx, hc, hatt⟩ := assign_cases ha
    · cases hnone
    cases hx
    obtain ⟨c', hc', hstep⟩ := Except.bind_eq_ok.mp hstep
    obtain rfl : c = c' := Option.some.inj (hc.symm.trans (Option.orFail_eq_ok.mp hc'))
    obtain ⟨⟨w, ev⟩, hh, hstep⟩ := Except.bind_eq_ok.mp hstep
    cases hstep
    rw [meeting_packet ha hc] at hmet
    have hH := handle_cases hh
    -- the packet belongs to a connection that is live, or new
    have hother (r : ConnId × Conn) (hr : r ∈ rowsIn log) : i ≠ r.1 := by
      obtain ⟨hle, hgone⟩ := h.gone r hr
      rintro rfl
      cases hatt with
      | found hcap hpkt hlook hc₀ hs =>
        rw [hgone] at hc₀
        cases hc₀
      | created hcap hpkt hlook hid ht hi hcr =>
        rw [hi] at hle
        exact Nat.not_succ_le_self _ hle
    have hcid : s.cId ≤ (w.st.withConn i w.conn).cId :=
      hatt.frame.2.2.1.trans (Nat.le_of_eq hH.framed.1.cId.symm)
    refine ⟨hrows ▸ h.nodup, fun r hr => ?_, fun m hm => ?_, fun r hr => ?_⟩
    · rw [hrows] at hr
      rw [hatt.other hH (hother r hr)]
      exact ⟨(h.gone r hr).1.trans hcid, (h.gone r hr).2⟩
    · rw [hrows]
      by_cases hi : i = m.id
      · exact .inl (by rw [← hi, withConn_conns, Std.TreeMap.lookup_insert, if_pos rfl]; rfl)
      · rw [hmet, List.mem_append, List.mem_singleton] at hm
        rcases hm with hm | rfl
        · rw [hatt.other hH hi]
          exact h.kept m hm
        · exact absurd rfl hi
    · rw [hrows] at hr
      rw [hmet, meetingsOf_concat, if_neg (hother r hr)]
      exact h.tallied r hr

theorem RowsSound.sweep {delay : ℤ} {out : List Event} (h : RowsSound log s)
    (hF : Followed Tallied (metIn log) s)
    (hstep : step mods g s (.sweep now delay) = .ok (s', out)) :
    RowsSound (log ++ connLog g s (.sweep now delay)) s' := by
  obtain ⟨s₁, hclean, hstep⟩ := Except.bind_eq_ok.mp hstep
  cases hstep
  rw [clean_eq] at hclean
  obtain ⟨is, his, hrem⟩ := Except.bind_eq_ok.mp hclean
  obtain ⟨hnodup, hlive, -⟩ := removeAll_conns hrem 0
  have hconns (j : ConnId) := (removeAll_conns hrem j).2.2
  have hmet : metIn (log ++ connLog g s (.sweep now delay)) = metIn log :=
    (metIn_concat g s (.sweep now delay) log).trans (List.append_nil _)
  have hrows := rowsIn_sweep (g := g) log his
  have hnew (r : ConnId × Conn) :
      r ∈ is.filterMap (fun i => s.conns[i]?.map fun c => (i, c)) ↔
        r.1 ∈ is ∧ s.conns[r.1]? = some r.2 := by
    rw [List.mem_filterMap]
    constructor
    · rintro ⟨i, hi, hr⟩
      obtain ⟨c, hc, rfl⟩ := Option.map_eq_some_iff.mp hr
      exact ⟨hi, hc⟩
    · rintro ⟨hi, hc⟩
      exact ⟨r.1, hi, by simp [hc]⟩
  refine ⟨?_, ?_, ?_, ?_⟩
  · rw [hrows, List.map_append, rows_fst hlive]
    refine List.nodup_append.mpr ⟨h.nodup, hnodup, ?_⟩
    rintro _ hi _ hi' rfl
    obtain ⟨r, hr, rfl⟩ := List.mem_map.mp hi
    have hsome := hlive r.1 hi'
    rw [(h.gone r hr).2] at hsome
    cases hsome
  · intro r hr
    rw [hrows, List.mem_append, hnew] at hr
    rw [hconns]
    have hle := (removeAll_quiet hrem).cId
    rcases hr with hr | ⟨hi, hc⟩
    · refine ⟨(h.gone r hr).1.trans hle, ?_⟩
      rw [(h.gone r hr).2, ite_self]
    · exact ⟨(hF.fresh r.1 r.2 hc).trans hle, if_pos hi⟩
  · intro m hm
    rw [hmet] at hm
    rw [hconns, hrows]
    by_cases hi : m.id ∈ is
    · obtain ⟨c, hc⟩ := Option.isSome_iff_exists.mp (hlive m.id hi)
      exact .inr ⟨c, List.mem_append_right _ ((hnew (m.id, c)).mpr ⟨hi, hc⟩)⟩
    · rw [if_neg hi]
      exact (h.kept m hm).imp_right fun ⟨c, hc⟩ => ⟨c, List.mem_append_left _ hc⟩
  · intro r hr
    rw [hmet]
    rw [hrows, List.mem_append, hnew] at hr
    rcases hr with hr | ⟨-, hc⟩
    · exact h.tallied r hr
    · exact hF.holds r.1 r.2 hc

theorem rowsSound_run
    (hrun : Machine.Logged (step mods g) (connLog g) (boot targets ifTarget mem) log s) :
    RowsSound log s := by
  induction hrun with
  | start => exact ⟨List.nodup_nil, by simp [rowsIn], by simp [metIn], by simp [rowsIn]⟩
  | @snoc log out s₁ s₂ inp hrun hstep ih =>
    cases inp with
    | packet raw now => exact ih.packet hstep
    | sweep now delay => exact ih.sweep (tallied_run hrun) hstep

/-- **One row for every connection.** In every run, a connection that has met packets has a row
exactly if it has been removed, and only one. The totals of the row are those of its packets, and
its columns show all of them, except those that were met in DECISION and in DROP. -/
theorem rows_account
    (hrun : Machine.Logged (step mods g) (connLog g) (boot targets ifTarget mem) log s) :
    ((rowsIn log).map Prod.fst).Nodup ∧
      (∀ m ∈ metIn log, m.id ∈ (rowsIn log).map Prod.fst ↔ s.conns[m.id]? = none) ∧
      ∀ r ∈ rowsIn log, RowAccounts (meetingsOf r.1 (metIn log)) r.2 := by
  have hR := rowsSound_run hrun
  refine ⟨hR.nodup, fun m hm => ⟨fun hrow => ?_, fun hgone => ?_⟩, fun r hr => ?_⟩
  · obtain ⟨r, hr, hid⟩ := List.mem_map.mp hrow
    rw [← hid]
    exact (hR.gone r hr).2
  · rcases hR.kept m hm with hlive | ⟨c, hc⟩
    · rw [hgone] at hlive
      cases hlive
    · exact List.mem_map.mpr ⟨(m.id, c), hc, rfl⟩
  · exact (hR.tallied r hr).account

end Runs

/-- The attacker sends two packets around an answer of the low-interaction honeypot, and the
connection is removed in REPLAY: its row shows the first packet under INIT, and the others were met
in DECISION. -/
theorem rows_account_attack :
    ∃ log s, Machine.Logged (step (Sample.modules .accept) Sample.globals) (connLog Sample.globals)
        Sample.start log s ∧
      ((rowsIn log).map Prod.fst = [1]) ∧
      ∀ r ∈ rowsIn log, RowAccounts (meetingsOf r.1 (metIn log)) r.2 := by
  have hrun : ((Machine.logOf (step (Sample.modules .accept) Sample.globals)
      (connLog Sample.globals) Sample.start (Sample.attack ++ [.sweep 200 120])).passes
        fun r => (rowsIn r.1).map Prod.fst == [1]) = true := by
    decide +kernel
  obtain ⟨⟨log, s⟩, hlog, hrows⟩ := Except.passes_iff.mp hrun
  have hlogged := Machine.logged_of_logOf hlog
  exact ⟨log, s, hlogged, eq_of_beq hrows, (rows_account hlogged).2.2⟩

end Honeybrid
