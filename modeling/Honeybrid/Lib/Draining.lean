import Mathlib.Algebra.BigOperators.Group.Finset.Piecewise
import Honeybrid.Lib.Channels

/-!
# Queues that are closed

Items are pushed to the queues of consumers, as in `Channels`, until their sources stop. A closer
waits for the sources. Then it goes through the queues: it pushes a mark behind the items of a
queue, at which the consumer stops, and waits for this consumer before it turns to the next queue.

## Main definitions

* `Draining.step`: an arrival, a take, or a step of the closer.
* `Draining.State.Fits`: what a queue looks like while the closer is somewhere.

## Main results

* `Draining.takes_of_closed`: when the closer is through, all that has arrived has been taken.
* `Draining.terminates`: once the sources have stopped, every run ends, and only then.
-/

universe u

namespace Draining

open Channels (Moved arrivals takes)
open scoped BigOperators

variable {α : Type u}

/-- What waits in a queue: an item, or the mark at which its consumer stops. -/
inductive Entry (α : Type u)
  | item (a : α)
  | last
  deriving DecidableEq

/-- The item of an entry; the mark has none. -/
def Entry.item? : Entry α → Option α
  | item a => some a
  | last => none

/-- Where the closer is: it waits for the sources, or it is at a queue. -/
inductive Closer
  | waiting
  | pushing (q : ℕ)
  | joining (q : ℕ)
  deriving DecidableEq, Repr

/-- Where the closer is, what waits in each queue, and which consumers run. -/
structure State (α : Type u) where
  closer : Closer := .waiting
  queue : ℕ → List (Entry α) := fun _ => []
  running : ℕ → Bool := fun _ => true

/-- What can happen next. -/
inductive Input (α : Type u)
  | arrive (a : α)
  | take (q : ℕ)
  | close

/-- One queue is replaced. -/
def State.setQueue (s : State α) (q : ℕ) (es : List (Entry α)) : State α :=
  { s with queue := Function.update s.queue q es }

/-- One step, with `n` queues. Nothing can be taken from an empty queue, and a consumer cannot be
waited for before it has stopped. -/
def step (n : ℕ) (label : α → Option ℕ) (s : State α) :
    Input α → Except Unit (State α × List (Moved ℕ α))
  | .arrive a =>
    if s.closer = .waiting then
      match label a with
      | some q => .ok (s.setQueue q (s.queue q ++ [.item a]), [.arrived a])
      | none => .ok (s, [.arrived a])
    else .error ()
  | .take q =>
    if s.running q = true then
      match s.queue q with
      | [] => .error ()
      | .item a :: es => .ok (s.setQueue q es, [.taken q a])
      | .last :: es =>
        .ok ({ s.setQueue q es with running := Function.update s.running q false }, [])
    else .error ()
  | .close =>
    match s.closer with
    | .waiting => .ok ({ s with closer := .pushing 0 }, [])
    | .pushing q =>
      if q < n then .ok ({ s.setQueue q (s.queue q ++ [.last]) with closer := .joining q }, [])
      else .error ()
    | .joining q =>
      if s.running q = true then .error () else .ok ({ s with closer := .pushing (q + 1) }, [])

/-- What a step can do. -/
inductive Steps (n : ℕ) (label : α → Option ℕ) (s : State α) : State α → List (Moved ℕ α) → Prop
  | arrive {a : α} {q : ℕ} (hc : s.closer = .waiting) (hl : label a = some q) :
      Steps n label s (s.setQueue q (s.queue q ++ [.item a])) [.arrived a]
  | skip {a : α} (hc : s.closer = .waiting) (hl : label a = none) : Steps n label s s [.arrived a]
  | take {a : α} {q : ℕ} {es : List (Entry α)} (hr : s.running q = true)
      (hq : s.queue q = .item a :: es) : Steps n label s (s.setQueue q es) [.taken q a]
  | stop {q : ℕ} {es : List (Entry α)} (hr : s.running q = true) (hq : s.queue q = .last :: es) :
      Steps n label s { s.setQueue q es with running := Function.update s.running q false } []
  | begin (hc : s.closer = .waiting) : Steps n label s { s with closer := .pushing 0 } []
  | push {q : ℕ} (hc : s.closer = .pushing q) (hq : q < n) :
      Steps n label s { s.setQueue q (s.queue q ++ [.last]) with closer := .joining q } []
  | join {q : ℕ} (hc : s.closer = .joining q) (hr : s.running q = false) :
      Steps n label s { s with closer := .pushing (q + 1) } []

variable {n : ℕ} {label : α → Option ℕ} {s s' : State α} {i : Input α} {tr out : List (Moved ℕ α)}
  {q : ℕ}

theorem step_cases (h : step n label s i = .ok (s', out)) : Steps n label s s' out := by
  cases i with
  | arrive a =>
    rw [step] at h
    split_ifs at h with hc
    cases hl : label a with
    | some q =>
      rw [hl] at h
      cases h
      exact .arrive hc hl
    | none =>
      rw [hl] at h
      cases h
      exact .skip hc hl
  | take q =>
    rw [step] at h
    split_ifs at h with hr
    rcases hq : s.queue q with _ | ⟨_ | _, es⟩
    · rw [hq] at h
      cases h
    · rw [hq] at h
      cases h
      exact .take hr hq
    · rw [hq] at h
      cases h
      exact .stop hr hq
  | close =>
    rw [step] at h
    rcases hc : s.closer with _ | q | q
    · rw [hc] at h
      cases h
      exact .begin hc
    · simp only [hc] at h
      split_ifs at h with hq
      cases h
      exact .push hc hq
    · simp only [hc] at h
      split_ifs at h with hr
      cases h
      exact .join hc (Bool.eq_false_iff.2 hr)

/-! ### The queues -/

namespace State

@[simp] theorem setQueue_queue_self (s : State α) (q : ℕ) (es : List (Entry α)) :
    (s.setQueue q es).queue q = es :=
  Function.update_self ..

theorem setQueue_queue_of_ne {q' : ℕ} (h : q' ≠ q) (s : State α) (es : List (Entry α)) :
    (s.setQueue q es).queue q' = s.queue q' :=
  Function.update_of_ne h ..

/-- The consumer has stopped, and nothing is left. -/
def Closed (s : State α) (q : ℕ) : Prop :=
  s.running q = false ∧ s.queue q = []

/-- The consumer takes items, and there is no mark. -/
def Open (s : State α) (q : ℕ) : Prop :=
  s.running q = true ∧ ∃ xs : List α, s.queue q = xs.map .item

/-- The consumer takes items, and the mark stands behind them. -/
def Marked (s : State α) (q : ℕ) : Prop :=
  s.running q = true ∧ ∃ xs : List α, s.queue q = xs.map .item ++ [.last]

/-- What a queue looks like while the closer is somewhere. -/
def Fits (s : State α) (q : ℕ) : Closer → Prop
  | .waiting => s.Open q
  | .pushing k => (q < k → s.Closed q) ∧ (k ≤ q → s.Open q)
  | .joining k =>
    (q < k → s.Closed q) ∧ (q = k → s.Marked q ∨ s.Closed q) ∧ (k < q → s.Open q)

/-- The queue of a running consumer without a mark keeps its place, and one with a mark may be
closed. -/
theorem Fits.imp {c : Closer} (h : s.Fits q c) (hopen : s.Open q → s'.Open q)
    (hmarked : s.Marked q → s'.Marked q ∨ s'.Closed q) (hclosed : s.Closed q → s'.Closed q) :
    s'.Fits q c := by
  rcases c with _ | k | k
  · exact hopen h
  · exact ⟨fun hq => hclosed (h.1 hq), fun hq => hopen (h.2 hq)⟩
  · refine ⟨fun hq => hclosed (h.1 hq), fun hq => ?_, fun hq => hopen (h.2.2 hq)⟩
    rcases h.2.1 hq with hm | hc
    · exact hmarked hm
    · exact .inr (hclosed hc)

/-- A step at another queue. -/
theorem Fits.of_eq {c : Closer} (h : s.Fits q c) (hq : s'.queue q = s.queue q)
    (hr : s'.running q = s.running q) : s'.Fits q c := by
  refine h.imp (fun ho => ?_) (fun hm => .inl ?_) fun hc => ?_
  · exact ⟨hr.trans ho.1, ho.2.imp fun xs hxs => hq.trans hxs⟩
  · exact ⟨hr.trans hm.1, hm.2.imp fun xs hxs => hq.trans hxs⟩
  · exact ⟨hr.trans hc.1, hq.trans hc.2⟩

end State

/-- What holds along every run: of each queue, the items that were taken and those that wait are
those that have arrived, and it looks as the closer has left it. -/
structure Drains (n : ℕ) (label : α → Option ℕ) (tr : List (Moved ℕ α)) (s : State α) : Prop where
  fifo : ∀ q, takes q tr ++ (s.queue q).filterMap Entry.item? = arrivals label q tr
  fits : ∀ q, s.Fits q s.closer
  bound : ∀ k, s.closer = .pushing k → k ≤ n
  within : ∀ k, s.closer = .joining k → k < n

theorem Drains.start : Drains n label [] ({} : State α) where
  fifo q := rfl
  fits q := ⟨rfl, [], rfl⟩
  bound k h := by cases h
  within k h := by cases h

/-- The items of each queue, after a step. -/
theorem Steps.fifo (h : Steps n label s s' out) (q : ℕ) :
    takes q out ++ (s'.queue q).filterMap Entry.item? =
      (s.queue q).filterMap Entry.item? ++ arrivals label q out := by
  cases h with
  | @arrive a q' hc hl =>
    by_cases hq : q = q'
    · subst hq
      simp [takes, arrivals, hl, List.filterMap_append, Entry.item?]
    · rw [State.setQueue_queue_of_ne hq]
      simp [takes, arrivals, hl, Ne.symm hq]
  | skip hc hl => simp [takes, arrivals, hl]
  | @take a q' es hr hq' =>
    by_cases hq : q = q'
    · subst hq
      simp [takes, arrivals, hq', Entry.item?]
    · rw [State.setQueue_queue_of_ne hq]
      simp [takes, arrivals, Ne.symm hq]
  | @stop q' es hr hq' =>
    show [] ++ ((s.setQueue q' es).queue q).filterMap Entry.item? = _ ++ []
    by_cases hq : q = q'
    · subst hq
      rw [State.setQueue_queue_self, hq', List.append_nil, List.nil_append,
        List.filterMap_cons_none rfl]
    · rw [State.setQueue_queue_of_ne hq, List.append_nil, List.nil_append]
  | begin hc => simp [takes, arrivals]
  | @push q' hc hn =>
    show [] ++ ((s.setQueue q' _).queue q).filterMap Entry.item? = _ ++ []
    by_cases hq : q = q'
    · subst hq
      simp [Entry.item?]
    · rw [State.setQueue_queue_of_ne hq, List.append_nil, List.nil_append]
  | join hc hr => simp [takes, arrivals]

/-- An item is taken from the front. -/
theorem fits_take {a : α} {es : List (Entry α)} {c : Closer} (h : s.Fits q c)
    (hq : s.queue q = .item a :: es) : (s.setQueue q es).Fits q c := by
  refine h.imp ?_ ?_ ?_
  · rintro ⟨hr, xs, hxs⟩
    rcases xs with _ | ⟨x, xs⟩
    · cases hq.symm.trans hxs
    · refine ⟨hr, xs, ?_⟩
      rw [State.setQueue_queue_self]
      exact (List.cons.inj (hq.symm.trans hxs)).2
  · rintro ⟨hr, xs, hxs⟩
    rcases xs with _ | ⟨x, xs⟩
    · cases hq.symm.trans hxs
    · refine .inl ⟨hr, xs, ?_⟩
      rw [State.setQueue_queue_self]
      exact (List.cons.inj (hq.symm.trans hxs)).2
  · rintro ⟨-, hnil⟩
    cases hq.symm.trans hnil

/-- A consumer stops at the mark behind the last item. -/
theorem fits_stop {es : List (Entry α)} {c : Closer} (h : s.Fits q c)
    (hq : s.queue q = .last :: es) :
    State.Fits { s.setQueue q es with running := Function.update s.running q false } q c := by
  refine h.imp ?_ ?_ ?_
  · rintro ⟨-, xs, hxs⟩
    rcases xs with _ | ⟨x, xs⟩
    · cases hq.symm.trans hxs
    · cases hq.symm.trans hxs
  · rintro ⟨-, xs, hxs⟩
    rcases xs with _ | ⟨x, xs⟩
    · refine .inr ⟨Function.update_self .., ?_⟩
      show (s.setQueue q es).queue q = []
      rw [State.setQueue_queue_self]
      exact (List.cons.inj (hq.symm.trans hxs)).2
    · cases hq.symm.trans hxs
  · rintro ⟨-, hnil⟩
    cases hq.symm.trans hnil

theorem Steps.fits (h : Steps n label s s' out) (hs : ∀ q, s.Fits q s.closer) (q : ℕ) :
    s'.Fits q s'.closer := by
  cases h with
  | @arrive a q' hc hl =>
    by_cases hq : q = q'
    · subst hq
      have ho := hs q
      rw [hc] at ho
      obtain ⟨hr, xs, hxs⟩ : s.Open q := ho
      show State.Fits _ q s.closer
      rw [hc]
      refine ⟨hr, xs ++ [a], ?_⟩
      rw [State.setQueue_queue_self, hxs, List.map_append]
      rfl
    · exact (hs q).of_eq (State.setQueue_queue_of_ne hq ..) rfl
  | skip => exact hs q
  | @take a q' es hr hq' =>
    by_cases hq : q = q'
    · subst hq
      exact fits_take (hs q) hq'
    · exact (hs q).of_eq (State.setQueue_queue_of_ne hq ..) rfl
  | @stop q' es hr hq' =>
    by_cases hq : q = q'
    · subst hq
      exact fits_stop (hs q) hq'
    · exact (hs q).of_eq (State.setQueue_queue_of_ne hq ..) (Function.update_of_ne hq ..)
  | begin hc =>
    have ho := hs q
    rw [hc] at ho
    exact ⟨fun hq => absurd hq (Nat.not_lt_zero q), fun _ => ho⟩
  | @push q' hc hn =>
    have hp := hs q
    rw [hc] at hp
    by_cases hq : q = q'
    · subst hq
      obtain ⟨hr, xs, hxs⟩ := hp.2 le_rfl
      refine ⟨fun h => absurd h (lt_irrefl q), fun _ => .inl ⟨hr, xs, ?_⟩,
        fun h => absurd h (lt_irrefl q)⟩
      show (s.setQueue q _).queue q = _
      rw [State.setQueue_queue_self, hxs]
    · have hp' : State.Fits { s.setQueue q' (s.queue q' ++ [.last]) with closer := .joining q' } q
          (.pushing q') := hp.of_eq (State.setQueue_queue_of_ne hq ..) rfl
      exact ⟨hp'.1, fun h => absurd h hq, fun h => hp'.2 h.le⟩
  | @join q' hc hr =>
    have hj := hs q
    rw [hc] at hj
    refine ⟨fun h => ?_, hj.2.2⟩
    rcases Nat.lt_succ_iff_lt_or_eq.1 h with h | h
    · exact hj.1 h
    · rcases hj.2.1 h with hm | hclosed
      · subst h
        cases hm.1.symm.trans hr
      · exact hclosed

theorem Drains.next (h : Drains n label tr s) (hs : Steps n label s s' out) :
    Drains n label (tr ++ out) s' := by
  refine ⟨fun q => ?_, hs.fits h.fits, fun k hk => ?_, fun k hk => ?_⟩
  · calc takes q (tr ++ out) ++ (s'.queue q).filterMap Entry.item?
        = takes q tr ++ (takes q out ++ (s'.queue q).filterMap Entry.item?) := by simp [takes]
      _ = (takes q tr ++ (s.queue q).filterMap Entry.item?) ++ arrivals label q out := by
        rw [hs.fifo, List.append_assoc]
      _ = arrivals label q (tr ++ out) := by rw [h.fifo]; simp [arrivals]
  · cases hs with
    | arrive | skip | take | stop => exact h.bound k hk
    | begin hc =>
      cases hk
      exact Nat.zero_le n
    | push hc hn => cases hk
    | join hc hr =>
      cases hk
      exact h.within _ hc
  · cases hs with
    | arrive | skip | take | stop => exact h.within k hk
    | begin hc => cases hk
    | push hc hn =>
      cases hk
      exact hn
    | join hc hr => cases hk

theorem drains_of_run {ok : State α → Input α → Prop}
    (h : Machine.Run (step n label) ok {} tr s) : Drains n label tr s :=
  h.traceInvariant (Drains n label) .start fun _ _ _ _ _ hd _ hstep => hd.next (step_cases hstep)

/-- **Nothing is left.** When the closer is through, the consumer of every queue has stopped, and it
has taken what has arrived, in order. -/
theorem takes_of_closed (h : Drains n label tr s) (hdone : s.closer = .pushing n) (hq : q < n) :
    s.running q = false ∧ takes q tr = arrivals label q tr := by
  have hfits := h.fits q
  rw [hdone] at hfits
  obtain ⟨hr, hnil⟩ := hfits.1 hq
  have hfifo := h.fifo q
  rw [hnil, List.filterMap_nil, List.append_nil] at hfifo
  exact ⟨hr, hfifo⟩

/-! ### Termination -/

/-- A step from `s` to `s'`. -/
def Next (n : ℕ) (label : α → Option ℕ) (s' s : State α) : Prop :=
  ∃ i out, step n label s i = .ok (s', out)

/-- The steps that are left to the closer. -/
def Closer.rank (n : ℕ) : Closer → ℕ
  | waiting => 3 * n + 1
  | pushing q => 3 * (n - q)
  | joining q => 3 * (n - q) - 2

/-- The entries that wait in the first `n` queues. -/
def State.load (n : ℕ) (s : State α) : ℕ :=
  ∑ q ∈ Finset.range n, (s.queue q).length

theorem load_setQueue (hq : q < n) (es : List (Entry α)) :
    (s.setQueue q es).load n + (s.queue q).length = s.load n + es.length := by
  have hmem : q ∈ Finset.range n := Finset.mem_range.2 hq
  have hlength : (fun r => ((s.setQueue q es).queue r).length) =
      Function.update (fun r => (s.queue r).length) q es.length := by
    funext r
    exact (Function.apply_update (fun _ => List.length) s.queue q es r)
  rw [State.load, State.load, hlength, Finset.sum_update_of_mem hmem,
    ← Finset.add_sum_erase _ _ hmem, Finset.sdiff_singleton_eq_erase]
  omega

/-- An item that waits is in one of the queues that are closed. -/
theorem Drains.lt_of_take (h : Drains n label tr s) (hlabel : ∀ a q, label a = some q → q < n)
    {e : Entry α} {es : List (Entry α)} (hq : s.queue q = e :: es) : q < n := by
  by_contra hn
  have hnone : arrivals label q tr = [] := by
    rw [arrivals, List.filterMap_eq_nil_iff]
    rintro (a | ⟨q', a⟩) -
    · exact if_neg fun ha => hn (hlabel a q ha)
    · rfl
  have hopen : s.Open q := by
    have hfits := h.fits q
    rcases hc : s.closer with _ | k | k
    · rwa [hc] at hfits
    · rw [hc] at hfits
      exact hfits.2 ((h.bound k hc).trans (Nat.le_of_not_lt hn))
    · rw [hc] at hfits
      exact hfits.2.2 (lt_of_lt_of_le (h.within k hc) (Nat.le_of_not_lt hn))
  obtain ⟨-, xs, hxs⟩ := hopen
  have hfifo := h.fifo q
  rw [hnone, List.append_eq_nil_iff] at hfifo
  rcases xs with _ | ⟨x, xs⟩
  · cases hq.symm.trans hxs
  · rw [hxs] at hfifo
    cases hfifo.2

/-- Once the sources have stopped, each step brings the end nearer. -/
theorem Drains.rank_lt (h : Drains n label tr s) (hlabel : ∀ a q, label a = some q → q < n)
    (hc : s.closer ≠ .waiting) (hs : Steps n label s s' out) :
    s'.load n + s'.closer.rank n < s.load n + s.closer.rank n ∧ s'.closer ≠ .waiting := by
  cases hs with
  | arrive hw | skip hw | begin hw => exact absurd hw hc
  | @take a q es hr hq =>
    have hload : (s.setQueue q es).load n + _ = _ := load_setQueue (h.lt_of_take hlabel hq) es
    rw [hq, List.length_cons] at hload
    refine ⟨?_, hc⟩
    show _ + s.closer.rank n < _
    omega
  | @stop q es hr hq =>
    have hload : (s.setQueue q es).load n + _ = _ := load_setQueue (h.lt_of_take hlabel hq) es
    rw [hq, List.length_cons] at hload
    refine ⟨?_, hc⟩
    show (s.setQueue q es).load n + s.closer.rank n < _
    omega
  | @push q hp hq =>
    have hload : (s.setQueue q (s.queue q ++ [.last])).load n + _ = _ := load_setQueue hq _
    rw [List.length_append, List.length_singleton] at hload
    refine ⟨?_, by simp⟩
    rw [hp]
    show (s.setQueue q (s.queue q ++ [.last])).load n + (3 * (n - q) - 2) < _ + 3 * (n - q)
    omega
  | @join q hj hr =>
    have hq := h.within q hj
    refine ⟨?_, by simp⟩
    rw [hj]
    show s.load n + 3 * (n - (q + 1)) < _ + (3 * (n - q) - 2)
    omega

/-- Until the closer is through, someone can take a step. -/
theorem Drains.exists_next (h : Drains n label tr s) (hdone : s.closer ≠ .pushing n) :
    ∃ s', Next n label s' s := by
  rcases hc : s.closer with _ | k | k
  · exact ⟨_, .close, _, by rw [step, hc]⟩
  · have hk : k < n := lt_of_le_of_ne (h.bound k hc) fun heq => hdone (heq ▸ hc)
    exact ⟨_, .close, _, by rw [step, hc]; exact if_pos hk⟩
  · by_cases hr : s.running k = true
    · have hfits := h.fits k
      rw [hc] at hfits
      rcases hfits.2.1 rfl with ⟨-, xs, hxs⟩ | hclosed
      · rcases xs with _ | ⟨x, xs⟩
        · exact ⟨_, .take k, _, by rw [step, if_pos hr, hxs]; rfl⟩
        · exact ⟨_, .take k, _, by rw [step, if_pos hr, hxs]; rfl⟩
      · cases hr.symm.trans hclosed.1
    · exact ⟨_, .close, _, by rw [step, hc]; exact if_neg hr⟩

/-- **It comes to an end.** Once the sources have stopped, every run ends, and it ends when the
closer is through with all queues. -/
theorem terminates (h : Drains n label tr s) (hlabel : ∀ a q, label a = some q → q < n)
    (hc : s.closer ≠ .waiting) :
    Acc (Next n label) s ∧ ((∀ s', ¬Next n label s' s) ↔ s.closer = .pushing n) := by
  constructor
  · induction hrank : s.load n + s.closer.rank n using Nat.strongRecOn generalizing tr s with
    | ind m ih =>
      refine .intro s ?_
      rintro s' ⟨i, out, hstep⟩
      have hs := step_cases hstep
      obtain ⟨hlt, hc'⟩ := h.rank_lt hlabel hc hs
      exact ih _ (hrank ▸ hlt) (h.next hs) hc' rfl
  · constructor
    · intro hstuck
      by_contra hdone
      obtain ⟨s', hnext⟩ := h.exists_next hdone
      exact hstuck s' hnext
    · rintro hdone s' ⟨i, out, hstep⟩
      have hs := step_cases hstep
      cases hs with
      | arrive hw | skip hw | begin hw => exact hc hw
      | take hr hq | stop hr hq =>
        have hstopped := (takes_of_closed h hdone (h.lt_of_take hlabel hq)).1
        cases hr.symm.trans hstopped
      | push hp hq =>
        cases hdone.symm.trans hp
        exact lt_irrefl n hq
      | join hj hr => cases hdone.symm.trans hj

end Draining
