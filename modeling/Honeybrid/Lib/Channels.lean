import Honeybrid.Lib.Runs

/-!
# Items handed to queues

Items arrive one after another and are pushed to the queue their label names; every queue has a
consumer, which takes the items at its front whenever it likes. An item without a label is dropped.

## Main definitions

* `Channels.move`: an arrival, or a take. A consumer cannot take from an empty queue.
* `Channels.arrivals`, `Channels.takes`: the items of one queue, as they have arrived and as they
  have been taken.

## Main results

* `Channels.takes_append_waiting`: nothing is lost, and nothing is taken twice.
* `Channels.takes_prefix`: a consumer takes the items of its queue in the order of their arrival.
-/

universe u v

namespace Channels

variable {κ : Type u} {α : Type v} [DecidableEq κ]

/-- What can happen next. -/
inductive Move (κ : Type u) (α : Type v)
  | arrive (a : α)
  | take (q : κ)

/-- What has happened. -/
inductive Moved (κ : Type u) (α : Type v)
  | arrived (a : α)
  | taken (q : κ) (a : α)
  deriving DecidableEq

/-- One move, from the items that wait in the queues. -/
def move (label : α → Option κ) (waiting : κ → List α) :
    Move κ α → Except Unit ((κ → List α) × List (Moved κ α))
  | .arrive a =>
    match label a with
    | some q => .ok (Function.update waiting q (waiting q ++ [a]), [.arrived a])
    | none => .ok (waiting, [.arrived a])
  | .take q =>
    match waiting q with
    | a :: rest => .ok (Function.update waiting q rest, [.taken q a])
    | [] => .error ()

/-- The items of the queue `q` that have arrived. -/
def arrivals (label : α → Option κ) (q : κ) (tr : List (Moved κ α)) : List α :=
  tr.filterMap fun
    | .arrived a => if label a = some q then some a else none
    | .taken _ _ => none

/-- The items that have been taken from the queue `q`. -/
def takes (q : κ) (tr : List (Moved κ α)) : List α :=
  tr.filterMap fun
    | .arrived _ => none
    | .taken q' a => if q' = q then some a else none

variable {label : α → Option κ} {waiting waiting' : κ → List α} {m : Move κ α}
  {tr out : List (Moved κ α)} {ok : (κ → List α) → Move κ α → Prop}

/-- A move takes an item from the front, or adds one at the end. -/
theorem move_append (h : move label waiting m = .ok (waiting', out)) (q : κ) :
    takes q out ++ waiting' q = waiting q ++ arrivals label q out := by
  cases m with
  | arrive a =>
    unfold move at h
    cases hl : label a with
    | some q' =>
      simp only [hl, Except.ok.injEq, Prod.mk.injEq] at h
      obtain ⟨rfl, rfl⟩ := h
      by_cases hq : q' = q
      · subst hq
        simp [takes, arrivals, hl]
      · simp [takes, arrivals, hl, hq, Function.update_of_ne (Ne.symm hq)]
    | none =>
      simp only [hl, Except.ok.injEq, Prod.mk.injEq] at h
      obtain ⟨rfl, rfl⟩ := h
      simp [takes, arrivals, hl]
  | take q' =>
    unfold move at h
    cases hw : waiting q' with
    | cons a rest =>
      simp only [hw, Except.ok.injEq, Prod.mk.injEq] at h
      obtain ⟨rfl, rfl⟩ := h
      by_cases hq : q' = q
      · subst hq
        simp [takes, arrivals, hw]
      · simp [takes, arrivals, hq, Function.update_of_ne (Ne.symm hq)]
    | nil => simp [hw] at h

/-- What has been taken from a queue and what waits in it is what has arrived, in order. -/
theorem takes_append_waiting (h : Machine.Run (move label) ok (fun _ => []) tr waiting) (q : κ) :
    takes q tr ++ waiting q = arrivals label q tr := by
  refine h.traceInvariant (fun tr waiting => takes q tr ++ waiting q = arrivals label q tr) rfl ?_
  intro tr w m w' out ih _ hmove
  have happend := move_append hmove q
  calc takes q (tr ++ out) ++ w' q
      = takes q tr ++ (takes q out ++ w' q) := by simp [takes]
    _ = (takes q tr ++ w q) ++ arrivals label q out := by rw [happend, List.append_assoc]
    _ = arrivals label q (tr ++ out) := by rw [ih]; simp [arrivals]

/-- **First in, first out.** The items of a queue are taken in the order of their arrival. -/
theorem takes_prefix (h : Machine.Run (move label) ok (fun _ => []) tr waiting) (q : κ) :
    takes q tr <+: arrivals label q tr :=
  ⟨waiting q, takes_append_waiting h q⟩

end Channels
