import Honeybrid.BackupModules
import Honeybrid.Lib.Logs

/-!
# Rate limiting

`mod_control` is to accept the first `max_packet` packets of a source in each window, where a window
is renewed by the first packet that comes more than `expiration` seconds after its start. The module
looks at the duration of the record as the packet before has left it, so that the packet which ends
a window is still counted in it, and the window is renewed by the next one.

The clock is that of `g_get_current_time`, in seconds, as far as it fits into a `gint`.

## Main definitions

* `Window`, `windowAfter`: the windows that the documentation describes.
* `Limiter`, `controlStep`: the module, on the packets of all sources.
* `Limits`: every verdict is that of the window.
* `Prompt`: the packets that are judged rightly and leave the record right.

## Main results

* `Tracks.step`: a prompt packet keeps the records in step with the windows.
* `limits_of_prompt`: the verdicts of every run with prompt packets.
-/

namespace Honeybrid

/-! ### Windows -/

/-- A window of a source: its start, and the packets in it so far. -/
structure Window where
  start : ℤ
  count : ℤ
  deriving DecidableEq, Repr

/-- The window with another packet. -/
def Window.arrive (E now : ℤ) : Option Window → Window
  | none => ⟨now, 1⟩
  | some w => if E < now - w.start then ⟨now, 1⟩ else ⟨w.start, w.count + 1⟩

/-- A packet with its verdict. -/
structure Judged where
  now : ℤ
  src : IpAddr
  result : ModResult
  deriving DecidableEq, Repr

/-- The window of a source after some packets. -/
def windowAfter (E : ℤ) (src : IpAddr) (tr : List Judged) : Option Window :=
  tr.foldl (fun w a => if a.src = src then some (Window.arrive E a.now w) else w) none

/-- A packet is accepted if it is among the first `M` of its window, and rejected otherwise. -/
def Limits (E M : ℤ) : List Judged → Prop :=
  Machine.Correct fun before a =>
    a.result =
      if (Window.arrive E a.now (windowAfter E a.src before)).count ≤ M then .accept else .reject

/-! ### The module -/

/-- The key file of the module, and the time of the last packet. -/
structure Limiter where
  clock : ℤ := 0
  db : SourceDb := fun _ => none

/-- A packet, with what lies behind the entries of the table in memory. -/
structure Arrival where
  now : ℤ
  src : IpAddr
  mem : String → List (BitVec 8) := fun _ => []

/-- `mod_control` on a packet. -/
def controlStep (t : ModSettings) (s : Limiter) (a : Arrival) :
    Except Deferral (Limiter × List Judged) := do
  let (result, db) ← modControl t a.mem (BitVec.ofInt 32 a.now) a.src s.db
  return (⟨a.now, db⟩, [⟨a.now, a.src, result⟩])

/-- When a packet is judged rightly and leaves a record from which the next ones are. If the record
has not expired, the packet comes within its window, or is accepted in it all the same, and the
counter does not overflow. If it has, the packet before has ended the window, and this one comes
after the window that started with the packet before. -/
def Record.Prompt (r : Record) (E M now : ℤ) : Prop :=
  if r.duration.toInt ≤ E then
    (now - r.firstSeen.toInt ≤ E ∨ r.counter.toInt < M) ∧ r.counter.toInt < 2 ^ 31 - 1
  else E < now - (r.firstSeen.toInt + r.duration.toInt)

instance (r : Record) (E M now : ℤ) : Decidable (r.Prompt E M now) :=
  inferInstanceAs (Decidable (if r.duration.toInt ≤ E then
    (now - r.firstSeen.toInt ≤ E ∨ r.counter.toInt < M) ∧ r.counter.toInt < 2 ^ 31 - 1
  else E < now - (r.firstSeen.toInt + r.duration.toInt)))

/-- The clock of the packets does not go back, and fits into a `gint`. -/
def Clocked (s : Limiter) (a : Arrival) : Prop :=
  s.clock ≤ a.now ∧ a.now < 2 ^ 31

instance (s : Limiter) (a : Arrival) : Decidable (Clocked s a) :=
  inferInstanceAs (Decidable (_ ∧ _))

/-- The clock does not go back, and the record of the source is prompt. -/
structure Prompt (E M : ℤ) (s : Limiter) (a : Arrival) : Prop where
  clocked : Clocked s a
  record : ∀ r, s.db a.src = some r → r.Prompt E M a.now

/-! ### Records and windows -/

/-- The record of a source and its window: they agree until a packet ends the window, which starts
the next one, while the record has the packet in its duration. -/
inductive InStep (E clock : ℤ) : Option Record → Option Window → Prop
  | none : InStep E clock none none
  | open {r : Record} {w : Window} (hstart : w.start = r.firstSeen.toInt)
      (hcount : w.count = r.counter.toInt) (hpos : 0 ≤ r.firstSeen.toInt)
      (hage : 0 ≤ r.duration.toInt) (hlast : r.firstSeen.toInt + r.duration.toInt ≤ clock)
      (hlive : r.duration.toInt ≤ E) : InStep E clock (some r) (some w)
  | ended {r : Record} {w : Window} (hstart : w.start = r.firstSeen.toInt + r.duration.toInt)
      (hpos : 0 ≤ r.firstSeen.toInt) (hlast : w.start ≤ clock) (hend : E < r.duration.toInt) :
      InStep E clock (some r) (some w)

section

variable {t : ModSettings} {E M : ℤ} {s s' : Limiter} {a : Arrival} {out tr : List Judged}
  {o : Option Record} {w : Option Window} {r : Record} {now clock clock' : ℤ}

/-- The verdict of `mod_control`, and the record it leaves. -/
theorem controlStep_cases (hE : ∀ mem, Param.controlExpiration.valueD t mem 600 = E)
    (hM : ∀ mem, Param.maxPacket.valueD t mem 1000 = M) (h : controlStep t s a = .ok (s', out)) :
    ∃ r, (sight E (BitVec.ofInt 32 a.now) (s.db a.src)).2 = r ∧
      s' = ⟨a.now, Function.update s.db a.src (some r)⟩ ∧
      out = [⟨a.now, a.src, if M < r.counter.toInt then .reject else .accept⟩] := by
  rw [controlStep, modControl] at h
  obtain ⟨x, hx, h⟩ := Except.bind_eq_ok.mp h
  obtain ⟨-, -, hx⟩ := Except.bind_eq_ok.mp hx
  cases hx
  cases h
  rw [hE, hM]
  exact ⟨_, rfl, rfl, rfl⟩

theorem InStep.first (h₀ : 0 ≤ now) (h₁ : now < 2 ^ 31) (hE : 0 ≤ E) :
    InStep E now (some (.first (.ofInt 32 now))) (some ⟨now, 1⟩) := by
  have hnow := toInt_ofInt_now h₀ h₁
  refine .open hnow.symm rfl ?_ (le_refl _) ?_ hE
  · show 0 ≤ (BitVec.ofInt 32 now).toInt
    omega
  · show (BitVec.ofInt 32 now).toInt + 0 ≤ now
    omega

theorem InStep.mono (h : InStep E clock o w) (hclock : clock ≤ clock') : InStep E clock' o w := by
  induction h with
  | none => exact .none
  | «open» hstart hcount hpos hage hlast hlive =>
    exact .open hstart hcount hpos hage (hlast.trans hclock) hlive
  | ended hstart hpos hlast hend => exact .ended hstart hpos (hlast.trans hclock) hend

/-- A prompt packet keeps the record in step with the window, and the two agree on its verdict. -/
theorem InStep.step (h : InStep E clock o w) (hE : 0 ≤ E) (hM : 1 ≤ M) (h₀ : 0 ≤ clock)
    (hclock : clock ≤ now) (h₁ : now < 2 ^ 31) (hprompt : ∀ r, o = some r → r.Prompt E M now) :
    InStep E now (some (sight E (.ofInt 32 now) o).2) (some (Window.arrive E now w)) ∧
      ((sight E (.ofInt 32 now) o).2.counter.toInt ≤ M ↔ (Window.arrive E now w).count ≤ M) := by
  have hnow : 0 ≤ now := h₀.trans hclock
  induction h with
  | none => exact ⟨.first hnow h₁ hE, Iff.rfl⟩
  | @«open» r w hstart hcount hpos hage hlast hlive =>
    have hp := hprompt r rfl
    rw [Record.Prompt, if_pos hlive] at hp
    have hcounter : (r.again (.ofInt 32 now)).counter.toInt = r.counter.toInt + 1 :=
      toInt_add_one hp.2
    have hduration : (r.again (.ofInt 32 now)).duration.toInt = now - r.firstSeen.toInt :=
      toInt_now_sub hpos (by omega) h₁
    rw [sight, if_neg (by simpa [Record.expired] using hlive)]
    show InStep E now (some (r.again _)) _ ∧ ((r.again _).counter.toInt ≤ M ↔ _)
    by_cases hlate : E < now - w.start
    · -- the packet starts a window, and is the last one in the record of the window before
      rw [Window.arrive, if_pos hlate]
      refine ⟨.ended ?_ hpos (le_refl _) (by omega), ?_⟩
      · rw [hduration]
        show now = r.firstSeen.toInt + (now - r.firstSeen.toInt)
        omega
      · rw [hcounter]
        exact iff_of_true (by omega) hM
    · rw [Window.arrive, if_neg hlate]
      refine ⟨.open hstart ?_ hpos (by omega) ?_ (by omega), ?_⟩
      · rw [hcounter, hcount]
      · rw [hduration]
        show r.firstSeen.toInt + (now - r.firstSeen.toInt) ≤ now
        omega
      · rw [hcounter, hcount]
  | @ended r w hstart hpos hlast hend =>
    have hp := hprompt r rfl
    rw [Record.Prompt, if_neg (by omega), ← hstart] at hp
    rw [sight, if_pos (by simpa [Record.expired] using hend), Window.arrive, if_pos hp]
    exact ⟨.first hnow h₁ hE, Iff.rfl⟩

/-! ### Runs -/

theorem windowAfter_concat (src : IpAddr) (tr : List Judged) (j : Judged) :
    windowAfter E src (tr ++ [j]) =
      if j.src = src then some (Window.arrive E j.now (windowAfter E src tr))
      else windowAfter E src tr := by
  rw [windowAfter, List.foldl_append]
  rfl

/-- The verdicts so far are right, and the records are in step with the windows. -/
structure Tracks (E M : ℤ) (tr : List Judged) (s : Limiter) : Prop where
  limits : Limits E M tr
  records : ∀ src, InStep E s.clock (s.db src) (windowAfter E src tr)
  clock : 0 ≤ s.clock

theorem Tracks.start : Tracks E M [] {} where
  limits := Machine.correct_nil
  records _ := .none
  clock := le_refl _

theorem Tracks.step (h : Tracks E M tr s) (hE₀ : 0 ≤ E) (hM₁ : 1 ≤ M)
    (hE : ∀ mem, Param.controlExpiration.valueD t mem 600 = E)
    (hM : ∀ mem, Param.maxPacket.valueD t mem 1000 = M) (hprompt : Prompt E M s a)
    (hstep : controlStep t s a = .ok (s', out)) : Tracks E M (tr ++ out) s' := by
  obtain ⟨r, hr, rfl, rfl⟩ := controlStep_cases hE hM hstep
  obtain ⟨hin, hverdict⟩ := (h.records a.src).step hE₀ hM₁ h.clock hprompt.clocked.1
    hprompt.clocked.2 hprompt.record
  rw [hr] at hin hverdict
  refine ⟨Machine.correct_concat.2 ⟨h.limits, ?_⟩, ?_, h.clock.trans hprompt.clocked.1⟩
  · show (if M < r.counter.toInt then ModResult.reject else .accept) = _
    by_cases hmax : r.counter.toInt ≤ M
    · rw [if_neg (by omega), if_pos (hverdict.1 hmax)]
    · rw [if_pos (by omega), if_neg fun hcount => hmax (hverdict.2 hcount)]
  · intro src
    rw [windowAfter_concat]
    by_cases hsrc : a.src = src
    · subst hsrc
      rw [if_pos rfl]
      show InStep E a.now (Function.update s.db a.src (some r) a.src) _
      rw [Function.update_self]
      exact hin
    · rw [if_neg hsrc]
      show InStep E a.now (Function.update s.db a.src (some r) src) _
      rw [Function.update_of_ne (Ne.symm hsrc)]
      exact (h.records src).mono hprompt.clocked.1

end

/-- **Rate limiting.** In every run of prompt packets, of any sources, `mod_control` accepts the
first `M` packets of each window and rejects the others, and it does not defer. -/
theorem limits_of_prompt {t : ModSettings} {E M : ℤ} {tr : List Judged} {s : Limiter}
    (hb : t "backup" ≠ none) (hf : t "backup_file" ≠ none) (hE₀ : 0 ≤ E) (hM₁ : 1 ≤ M)
    (hE : ∀ mem, Param.controlExpiration.valueD t mem 600 = E)
    (hM : ∀ mem, Param.maxPacket.valueD t mem 1000 = M)
    (hrun : Machine.Run (controlStep t) (Prompt E M) {} tr s) :
    Limits E M tr ∧ ∀ a, ∃ s' j, controlStep t s a = .ok (s', [j]) := by
  have htracks : Tracks E M tr s :=
    hrun.traceInvariant (Tracks E M) .start fun _ _ _ _ _ h hprompt hstep =>
      h.step hE₀ hM₁ hE hM hprompt hstep
  refine ⟨htracks.limits, fun a => ?_⟩
  rw [controlStep, modControl, requireBackup_bind hb hf]
  exact ⟨_, _, rfl⟩

namespace Sample

/-- The table of a module `control` with a window of ten seconds. -/
def controlTable (max : String) : ModSettings
  | "backup" => some .keyFile
  | "backup_file" => some (.text "/etc/honeybrid/control.tb")
  | "expiration" => some (.text "10s")
  | "max_packet" => some (.text max)
  | _ => none

/-- The test for prompt packets. -/
def promptly (E M : ℤ) (s : Limiter) (a : Arrival) : Bool :=
  Clocked s a ∧ ∀ r ∈ s.db a.src, r.Prompt E M a.now

theorem prompt_of_promptly (E M : ℤ) (s : Limiter) (a : Arrival) (h : promptly E M s a = true) :
    Prompt E M s a := by
  obtain ⟨hclocked, hrecord⟩ := of_decide_eq_true h
  exact ⟨hclocked, hrecord⟩

end Sample

/-- A source sends three packets in a window of two, while another one sends a packet in each of
three windows. -/
theorem limits_two : ∃ tr s,
    Machine.Run (controlStep (Sample.controlTable "2p")) (Prompt 10 2) {} tr s ∧
      tr.map Judged.result = [.accept, .accept, .accept, .reject, .accept, .accept] ∧
      Limits 10 2 tr := by
  obtain ⟨tr, s, hrun, htr⟩ := Machine.exists_run (controlStep (Sample.controlTable "2p")) {}
    [⟨100, 1, fun _ => []⟩, ⟨100, 2, fun _ => []⟩, ⟨103, 1, fun _ => []⟩, ⟨110, 1, fun _ => []⟩,
      ⟨111, 2, fun _ => []⟩, ⟨130, 2, fun _ => []⟩]
    (fun r => r.2.map Judged.result = [.accept, .accept, .accept, .reject, .accept, .accept])
    (Sample.prompt_of_promptly 10 2) (by decide)
  exact ⟨tr, s, hrun, of_decide_eq_true htr, (limits_of_prompt (by decide) (by decide) (by decide)
    (by decide) (fun _ => rfl) (fun _ => rfl) hrun).1⟩

/-- The packet that comes eleven seconds after the first one of its source is rejected. -/
theorem limits_late : ¬∀ (t : ModSettings) (E M : ℤ) (tr : List Judged) (s : Limiter),
    t "backup" ≠ none → t "backup_file" ≠ none → 0 ≤ E → 1 ≤ M →
    (∀ mem, Param.controlExpiration.valueD t mem 600 = E) →
    (∀ mem, Param.maxPacket.valueD t mem 1000 = M) →
    Machine.Run (controlStep t) Clocked {} tr s → Limits E M tr := by
  intro hall
  obtain ⟨tr, s, hrun, htr⟩ := Machine.exists_run (controlStep (Sample.controlTable "1p")) {}
    [⟨100, 1, fun _ => []⟩, ⟨111, 1, fun _ => []⟩]
    (fun r => r.2 = [⟨100, 1, .accept⟩, ⟨111, 1, .reject⟩])
    (fun s a (h : decide (Clocked s a) = true) => of_decide_eq_true h) (by decide)
  have hlimits := hall (Sample.controlTable "1p") 10 1 tr s (by decide) (by decide) (by decide)
    (by decide) (fun _ => rfl) (fun _ => rfl) hrun
  rw [show tr = _ from of_decide_eq_true htr] at hlimits
  have hlast := hlimits [⟨100, 1, .accept⟩] ⟨111, 1, .reject⟩ [] rfl
  revert hlast
  decide

end Honeybrid
