import Honeybrid.ConnLog
import Honeybrid.Lib.Draining
import Honeybrid.Queues

/-!
# The end of the program

When the captures have been broken off, `main` waits for their threads. `close_thread` then pushes a
last entry to the queue of each decision thread and waits for this thread, which handles what was
queued before. When all threads have stopped, `close_conn_trees` removes the connections that a
sweep without a delay finds, and destroys the trees. A connection that was accessed in the second in
which this happens is not idle, and is left without a row in the log.

## Main definitions

* `queueOf`: the decision thread of a frame.

## Main results

* `closeThread_drains`: however the threads are scheduled, `close_thread` returns, and then every
  frame has been handled.
* `exit_rows`: the connections from EXT that have a row when the program has ended.
-/

namespace Honeybrid

open Channels (takes arrivals)

/-! ### The decision threads -/

/-- The number of the decision thread that `pcap_cb` queues a frame for. -/
def queueOf (threads : BitVec 32) (ifTarget : Std.TreeMap IfaceId TargetId) (raw : RawPcap) :
    Option ℕ :=
  (pcapCb threads ifTarget raw).map BitVec.toNat

section Threads

variable {threads : BitVec 32} {ifTarget : Std.TreeMap IfaceId TargetId}

theorem queueOf_lt (hthreads : 0 < threads) (raw : RawPcap) (q : ℕ)
    (h : queueOf threads ifTarget raw = some q) : q < threads.toNat := by
  obtain ⟨w, hw, rfl⟩ := Option.map_eq_some_iff.1 h
  have htogether : QueuedTogether threads ifTarget raw raw :=
    (queuedTogether_iff hthreads).2 ⟨w, hw, hw⟩
  obtain ⟨v, hv, hq, -⟩ := htogether
  rw [hw] at hq
  cases hq
  exact hv

/-- **Every frame is handled.** However the captures, the decision threads and `close_thread` are
scheduled: when `close_thread` is through, every decision thread has stopped after it has taken all
frames of its queue in the order in which they were captured. Once the captures have stopped, the
threads come to a stop, and only then. -/
theorem closeThread_drains (hthreads : 0 < threads)
    {tr : List (Channels.Moved ℕ RawPcap)} {s : Draining.State RawPcap}
    (hrun : Machine.Reaches (Draining.step threads.toNat (queueOf threads ifTarget)) {} tr s) :
    (s.closer = .pushing threads.toNat → ∀ q < threads.toNat,
      s.running q = false ∧ takes q tr = arrivals (queueOf threads ifTarget) q tr) ∧
    (s.closer ≠ .waiting → Acc (Draining.Next threads.toNat (queueOf threads ifTarget)) s ∧
      ((∀ s', ¬Draining.Next threads.toNat (queueOf threads ifTarget) s' s) ↔
        s.closer = .pushing threads.toNat)) := by
  have hdrains := Draining.drains_of_run hrun
  exact ⟨fun hdone q hq => Draining.takes_of_closed hdrains hdone hq,
    fun hc => Draining.terminates hdrains (queueOf_lt hthreads) hc⟩

/-- Two threads: the second frame is taken after the captures have stopped, and the first one after
that. -/
theorem closeThread_drains_two : ∃ tr s,
    Machine.Reaches (Draining.step (2 : BitVec 32).toNat (queueOf 2 Sample.start.ifTarget)) {} tr
        s ∧
      takes 0 tr = [Sample.udp 0 50 1000 9 80] ∧
      takes 0 tr = arrivals (queueOf 2 Sample.start.ifTarget) 0 tr := by
  obtain ⟨tr, s, hrun, htest⟩ := Machine.exists_reaches
    (Draining.step (2 : BitVec 32).toNat (queueOf 2 Sample.start.ifTarget)) {}
    [.arrive (Sample.udp 0 50 1000 9 80), .arrive (Sample.udp 0 0x01000032 1000 9 80), .close,
      .take 1, .close, .take 0, .take 0, .close, .close, .take 1, .close]
    (fun r => decide (r.1.closer = .pushing 2) &&
      decide (takes 0 r.2 = [Sample.udp 0 50 1000 9 80])) (by decide +kernel)
  obtain ⟨hdone, htakes⟩ := Bool.and_eq_true_iff.1 htest
  have hdrained := (closeThread_drains (by decide) hrun).1 (of_decide_eq_true hdone) 0 (by decide)
  exact ⟨tr, s, hrun, of_decide_eq_true htakes, hdrained.2⟩

end Threads

/-! ### The last sweep -/

variable {μ : Type} {mods : Modules μ} {g : Globals} {s s' : State μ} {i : ConnId} {c : Conn}
  {now delay : ℤ} {targets : Std.TreeMap TargetId Target intcmp}
  {ifTarget : Std.TreeMap IfaceId TargetId} {mem : μ} {log : List LogEntry}

/-- A sweep lists idle connections only. -/
theorem idle_of_expired {es : List (ConnKey × ConnId)} {is : List ConnId}
    (h : expired s now delay es = .ok is) (hi : i ∈ is) :
    ∃ c, s.conns[i]? = some c ∧ (delay < now - c.accessTime ∨ c.state = .invalid) := by
  induction es generalizing is with
  | nil =>
    cases h
    cases hi
  | cons e es ih =>
    obtain ⟨c, hc, h⟩ := Except.bind_eq_ok.mp h
    obtain ⟨is', his, h⟩ := Except.bind_eq_ok.mp h
    simp only [Except.pure_eq_ok, Except.ok.injEq] at h
    split_ifs at h with hidle
    · subst h
      rcases List.mem_cons.mp hi with rfl | hi
      · exact ⟨c, Option.orFail_eq_ok.mp hc, hidle⟩
      · exact ih his hi
    · subst h
      exact ih his hi

theorem idle_of_entryToClean {is : List ConnId} (h : entryToClean s now delay = .ok is)
    (hi : i ∈ is) :
    ∃ c, s.conns[i]? = some c ∧ (delay < now - c.accessTime ∨ c.state = .invalid) := by
  obtain ⟨e, m, n, he, hm, hn, rfl⟩ := entryToClean_cases h
  rcases List.mem_append.mp hi with hi | hi
  · rcases List.mem_append.mp hi with hi | hi
    · exact idle_of_expired he hi
    · exact idle_of_expired hm hi
  · exact idle_of_expired hn hi

/-- In every run, a sweep lists a connection from EXT exactly if it has been idle for too long. -/
theorem mem_entryToClean_iff {is : List ConnId} {tr : List Event}
    (hrun : Machine.Reaches (step mods g) (boot targets ifTarget mem) tr s)
    (hclean : entryToClean s now delay = .ok is) (hc : s.conns[i]? = some c)
    (hini : c.initiator = .ext) : i ∈ is ↔ delay < now - c.accessTime := by
  constructor
  · intro hi
    obtain ⟨c', hc', hidle⟩ := idle_of_entryToClean hclean hi
    obtain rfl := Option.some.inj (hc.symm.trans hc')
    have hbegun := (tracked_begun hrun).holds i c hc hini
    rcases hidle with hidle | hinvalid
    · exact hidle
    · rw [Begun, hinvalid] at hbegun
      simp at hbegun
  · intro hidle
    obtain ⟨k, -, hk, -⟩ := (primary_unique hrun hc hini).1
    obtain ⟨e, m, n, he, -, -, rfl⟩ := entryToClean_cases hclean
    have hmem := Std.TreeMap.mem_toList_iff_getElem?_eq_some.mpr hk
    exact List.mem_append_left _ (List.mem_append_left _
      ((expired_cases he).2.2 _ hmem c hc hidle))

/-- **Rows at the end.** In every run, when `close_conn_trees` has returned, a connection from EXT
that was live has a row exactly if it was not accessed in the same second, and only then it has been
freed. No connection has two rows. -/
theorem exit_rows
    (hrun : Machine.Logged (step mods g) (connLog g) (boot targets ifTarget mem) log s)
    (hclose : closeConnTrees s now = .ok s') (hc : s.conns[i]? = some c)
    (hini : c.initiator = .ext) :
    ((rowsIn (log ++ connLog g s (.sweep now 0))).map Prod.fst).Nodup ∧
      (i ∈ (rowsIn (log ++ connLog g s (.sweep now 0))).map Prod.fst ↔ c.accessTime < now) ∧
      (s'.conns[i]? = none ↔ c.accessTime < now) := by
  obtain ⟨is, his, hclose⟩ := Except.bind_eq_ok.mp hclose
  obtain ⟨s₁, hrem, hclose⟩ := Except.bind_eq_ok.mp hclose
  cases hclose
  obtain ⟨tr, hreach⟩ := hrun.reaches
  have hlisted : i ∈ is ↔ c.accessTime < now := by
    rw [mem_entryToClean_iff hreach his hc hini]
    omega
  have hstep : step mods g s (.sweep now 0) = .ok (s₁, []) := by
    have hclean : clean s now 0 = .ok s₁ := by
      rw [clean_eq, his]
      exact hrem
    rw [step, hclean]
    rfl
  obtain ⟨-, hlive, hconns⟩ := removeAll_conns hrem i
  have hrows : (rowsIn (log ++ connLog g s (.sweep now 0))).map Prod.fst =
      (rowsIn log).map Prod.fst ++ is := by
    rw [rowsIn_sweep log his, List.map_append, rows_fst hlive]
  have hnew : i ∉ (rowsIn log).map Prod.fst := by
    intro hmem
    obtain ⟨r, hr, rfl⟩ := List.mem_map.mp hmem
    cases hc.symm.trans ((rowsSound_run hrun).gone r hr).2
  refine ⟨(rowsSound_run (hrun.snoc hstep)).nodup, ?_, ?_⟩
  · rw [hrows, List.mem_append, or_iff_right hnew, hlisted]
  · show s₁.conns[i]? = none ↔ _
    rw [hconns, hc, ← hlisted]
    simp

/-- The attack is over before the program ends: the connection has a row. -/
theorem exit_rows_attack :
    ∃ log s s', Machine.Logged (step (Sample.modules .accept) Sample.globals)
        (connLog Sample.globals) Sample.start log s ∧
      closeConnTrees s 200 = .ok s' ∧
      1 ∈ (rowsIn (log ++ connLog Sample.globals s (.sweep 200 0))).map Prod.fst := by
  have hrun : ((Machine.logOf (step (Sample.modules .accept) Sample.globals)
      (connLog Sample.globals) Sample.start Sample.attack).passes fun r =>
        (closeConnTrees r.2 200).passes fun _ =>
          r.2.conns[1]?.any fun c => c.initiator = .ext ∧ c.accessTime < 200) = true := by
    decide +kernel
  obtain ⟨⟨log, s⟩, hlog, htest⟩ := Except.passes_iff.mp hrun
  obtain ⟨s', hclose, htest⟩ := Except.passes_iff.mp htest
  obtain ⟨c, hc, htest⟩ := (Option.any_eq_true ..).mp htest
  obtain ⟨hini, hidle⟩ := of_decide_eq_true htest
  have hlogged := Machine.logged_of_logOf hlog
  exact ⟨log, s, s', hlogged, hclose, (exit_rows hlogged hclose hc hini).2.1.mpr hidle⟩

end Honeybrid
