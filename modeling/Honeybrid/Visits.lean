import Honeybrid.RateLimit

/-!
# Visits of a source

The modules `source`, `source_time` and `control` keep the same records of the sources they see. A
record starts over if its duration is longer than the expiration, and the duration is that of the
packets before: the packet which makes a visit too long is still part of it, and the next packet of
the source opens another one, however soon it comes.

## Main definitions

* `Visit`, `visitAfter`: the visits of the sources, as the packets before determine them.
* `OpensVisit`: the next packet of the source opens a visit.
* `Recorded`: a record and the visit it stands for.
* `sourceStep`, `sourceTimeStep`: the modules, on the packets of all sources.
* `NovelSource`: a source that has not been accepted, or not within a day before its last packet.

## Main results

* `correct_of_visits`: a module that decides by its records decides by the visits.
* `control_visits`, `sourceTime_visits`: the verdicts of two of the modules in every run.
* `source_novel`: the packets `mod_source` accepts are those of novel sources, and no two of one
  source lie within a day.
-/

namespace Honeybrid

/-! ### Visits -/

/-- A visit of a source: its first packet, its last one so far, and how many they are. -/
structure Visit where
  first : ℤ
  last : ℤ
  count : ℕ
  deriving DecidableEq, Repr

/-- The visit is too long to go on. -/
def OpensVisit (E : ℤ) (o : Option Visit) : Prop :=
  ∀ v, o = some v → E < v.last - v.first

theorem opens_none {E : ℤ} : OpensVisit E none := by
  intro v hv
  cases hv

theorem opens_some {E : ℤ} {v : Visit} : OpensVisit E (some v) ↔ E < v.last - v.first := by
  constructor
  · intro h
    exact h v rfl
  · intro h w hw
    cases hw
    exact h

instance (E : ℤ) (o : Option Visit) : Decidable (OpensVisit E o) :=
  match o with
  | none => .isTrue opens_none
  | some _ => decidable_of_iff _ opens_some.symm

/-- The visit a packet belongs to. -/
def Visit.arrive (E now : ℤ) : Option Visit → Visit
  | none => ⟨now, now, 1⟩
  | some v => if E < v.last - v.first then ⟨now, now, 1⟩ else ⟨v.first, now, v.count + 1⟩

/-- The visit of a source after some packets. -/
def visitAfter (E : ℤ) (src : IpAddr) (tr : List Judged) : Option Visit :=
  tr.foldl (fun v a => if a.src = src then some (Visit.arrive E a.now v) else v) none

theorem visitAfter_concat {E : ℤ} (src : IpAddr) (tr : List Judged) (j : Judged) :
    visitAfter E src (tr ++ [j]) =
      if j.src = src then some (Visit.arrive E j.now (visitAfter E src tr))
      else visitAfter E src tr := by
  rw [visitAfter, List.foldl_append]
  rfl

theorem Visit.arrive_count_le {E now : ℤ} {o : Option Visit} {n : ℕ}
    (h : ∀ v, o = some v → v.count ≤ n) : (Visit.arrive E now o).count ≤ n + 1 := by
  cases o with
  | none => exact Nat.le_add_left 1 n
  | some v =>
    rw [Visit.arrive]
    split
    · exact Nat.le_add_left 1 n
    · exact Nat.succ_le_succ (h v rfl)

/-- A visit has no more packets than there have been. -/
theorem count_visitAfter_le {E : ℤ} (src : IpAddr) (tr : List Judged) :
    ∀ v, visitAfter E src tr = some v → v.count ≤ tr.length := by
  induction tr using List.reverseRecOn with
  | nil =>
    intro v hv
    cases hv
  | append_singleton tr j ih =>
    intro v hv
    rw [visitAfter_concat] at hv
    rw [List.length_append, List.length_singleton]
    split at hv
    · cases hv
      exact Visit.arrive_count_le ih
    · exact (ih v hv).trans (Nat.le_succ _)

/-! ### Records -/

/-- What a record says of a visit. The counter is that of the visit as far as it fits. -/
inductive Recorded (clock : ℤ) : Option Record → Option Visit → Prop
  | unseen : Recorded clock none none
  | seen {r : Record} {v : Visit} (hfirst : r.firstSeen.toInt = v.first)
      (hlast : r.duration.toInt = v.last - v.first)
      (hcount : r.counter = BitVec.ofNat 32 v.count) (hpos : 0 ≤ v.first) (hle : v.first ≤ v.last)
      (hclock : v.last ≤ clock) : Recorded clock (some r) (some v)

section

variable {E : ℤ} {o : Option Record} {v : Option Visit} {r : Record} {now clock clock' : ℤ}

theorem Recorded.mono (h : Recorded clock o v) (hclock : clock ≤ clock') :
    Recorded clock' o v := by
  induction h with
  | unseen => exact .unseen
  | seen hfirst hlast hcount hpos hle hlate =>
    exact .seen hfirst hlast hcount hpos hle (hlate.trans hclock)

theorem Recorded.first (h₀ : 0 ≤ now) (h₁ : now < 2 ^ 31) :
    Recorded now (some (.first (.ofInt 32 now))) (some ⟨now, now, 1⟩) := by
  refine .seen (toInt_ofInt_now h₀ h₁) ?_ rfl h₀ (le_refl _) (le_refl _)
  show (0 : BitVec 32).toInt = now - now
  rw [sub_self]
  rfl

/-- A record has expired exactly if its visit is over. -/
theorem Recorded.updated_iff (h : Recorded clock o v) :
    (sight E (.ofInt 32 now) o).1 = .updated ↔ ¬OpensVisit E v := by
  induction h with
  | unseen => exact iff_of_false (fun h => by cases h) (fun h => h opens_none)
  | @seen r v hfirst hlast hcount hpos hle hlate =>
    rw [sight, opens_some, Record.expired, hlast]
    by_cases hexp : E < v.last - v.first
    · rw [if_pos (decide_eq_true hexp)]
      exact iff_of_false (fun h => by cases h) (fun h => h hexp)
    · rw [if_neg (by simpa using hexp)]
      exact iff_of_true rfl hexp

/-- A packet makes of the record what it makes of the visit. -/
theorem Recorded.step (h : Recorded clock o v) (h₀ : 0 ≤ clock) (hclock : clock ≤ now)
    (h₁ : now < 2 ^ 31) :
    Recorded now (some (sight E (.ofInt 32 now) o).2) (some (Visit.arrive E now v)) := by
  have hnow : 0 ≤ now := h₀.trans hclock
  induction h with
  | unseen => exact .first hnow h₁
  | @seen r v hfirst hlast hcount hpos hle hlate =>
    rw [sight, Visit.arrive, Record.expired, hlast]
    by_cases hexp : E < v.last - v.first
    · rw [if_pos (decide_eq_true hexp), if_pos hexp]
      exact .first hnow h₁
    · rw [if_neg (by simpa using hexp), if_neg hexp]
      refine .seen hfirst ?_ ?_ hpos (hle.trans (hlate.trans hclock)) (le_refl _)
      · rw [← hfirst]
        exact toInt_now_sub (hfirst.symm ▸ hpos)
          (hfirst.symm ▸ hle.trans (hlate.trans hclock)) h₁
      · show r.counter + 1 = BitVec.ofNat 32 (v.count + 1)
        rw [hcount, BitVec.ofNat_add]
        rfl

end

/-! ### Runs -/

/-- The records of all sources are those of their visits. -/
structure InVisits (E : ℤ) (tr : List Judged) (s : Limiter) : Prop where
  records : ∀ src, Recorded s.clock (s.db src) (visitAfter E src tr)
  clock : 0 ≤ s.clock

theorem InVisits.start {E : ℤ} : InVisits E [] {} where
  records _ := .unseen
  clock := le_refl _

/-- A module keeps records that expire after `E`, and decides by the record of the source. -/
def Keeps (act : Limiter → Arrival → Except Deferral (Limiter × List Judged)) (E : ℤ)
    (verdict : Option Record → ℤ → ModResult) : Prop :=
  ∀ s a s' out, act s a = .ok (s', out) →
    s' = ⟨a.now, Function.update s.db a.src (some (sight E (.ofInt 32 a.now) (s.db a.src)).2)⟩ ∧
      out = [⟨a.now, a.src, verdict (s.db a.src) a.now⟩]

section

variable {act : Limiter → Arrival → Except Deferral (Limiter × List Judged)} {E : ℤ}
  {verdict : Option Record → ℤ → ModResult} {ok : Limiter → Arrival → Prop}
  {tr out : List Judged} {s s' : Limiter} {a : Arrival}

theorem InVisits.step (h : InVisits E tr s) (hkeeps : Keeps act E verdict) (hclock : Clocked s a)
    (hstep : act s a = .ok (s', out)) : InVisits E (tr ++ out) s' := by
  obtain ⟨rfl, rfl⟩ := hkeeps _ _ _ _ hstep
  refine ⟨fun src => ?_, h.clock.trans hclock.1⟩
  rw [visitAfter_concat]
  by_cases hsrc : a.src = src
  · subst hsrc
    rw [if_pos rfl]
    show Recorded a.now (Function.update s.db a.src _ a.src) _
    rw [Function.update_self]
    exact (h.records a.src).step h.clock hclock.1 hclock.2
  · rw [if_neg hsrc]
    show Recorded a.now (Function.update s.db a.src _ src) _
    rw [Function.update_of_ne (Ne.symm hsrc)]
    exact (h.records src).mono hclock.1

/-- **Records and visits.** A module that decides by its records, and on a record as `spec` on the
visit, gives the verdicts of `spec` in every run. -/
theorem correct_of_visits (spec : Option Visit → ℤ → ModResult)
    (hkeeps : Keeps act E verdict)
    (hclock : ∀ s a, ok s a → Clocked s a)
    (hspec : ∀ tr s a, InVisits E tr s → ok s a →
      verdict (s.db a.src) a.now = spec (visitAfter E a.src tr) a.now)
    (hrun : Machine.Run act ok {} tr s) :
    Machine.Correct (fun before j => j.result = spec (visitAfter E j.src before) j.now) tr ∧
      InVisits E tr s := by
  refine hrun.traceInvariant (fun tr s => Machine.Correct (fun before j =>
    j.result = spec (visitAfter E j.src before) j.now) tr ∧ InVisits E tr s)
    ⟨Machine.correct_nil, .start⟩ ?_
  rintro tr s₁ i s₂ out ⟨hcorrect, hin⟩ hok hstep
  refine ⟨?_, hin.step hkeeps (hclock _ _ hok) hstep⟩
  obtain ⟨-, rfl⟩ := hkeeps _ _ _ _ hstep
  exact Machine.correct_concat.2 ⟨hcorrect, hspec tr s₁ i hin hok⟩

end

/-! ### The modules -/

/-- `mod_source` on a packet. -/
def sourceStep (t : ModSettings) (s : Limiter) (a : Arrival) :
    Except Deferral (Limiter × List Judged) := do
  let (result, db) ← modSource t (BitVec.ofInt 32 a.now) a.src s.db
  return (⟨a.now, db⟩, [⟨a.now, a.src, result⟩])

/-- `mod_source_time` on a packet. -/
def sourceTimeStep (t : ModSettings) (s : Limiter) (a : Arrival) :
    Except Deferral (Limiter × List Judged) := do
  let (result, db) ← modSourceTime t a.mem (BitVec.ofInt 32 a.now) a.src s.db
  return (⟨a.now, db⟩, [⟨a.now, a.src, result⟩])

/-- The time of a packet that does not open its visit is between the bounds. -/
def InTime (E allow deny : ℤ) (o : Option Visit) (now : ℤ) : Prop :=
  if OpensVisit E o then allow = 0
  else allow ≤ now - (Visit.arrive E now o).first ∧ now - (Visit.arrive E now o).first ≤ deny

instance (E allow deny : ℤ) (o : Option Visit) (now : ℤ) : Decidable (InTime E allow deny o now) :=
  inferInstanceAs (Decidable (if OpensVisit E o then allow = 0 else _ ∧ _))

section

variable {t : ModSettings} {E M allow deny : ℤ} {tr : List Judged} {s : Limiter}

theorem sourceStep_keeps : Keeps (sourceStep t) DAY fun o now =>
    if (sight DAY (.ofInt 32 now) o).1 = .updated then .reject else .accept := by
  intro s a s' out h
  rw [sourceStep, modSource] at h
  obtain ⟨x, hx, h⟩ := Except.bind_eq_ok.mp h
  obtain ⟨-, -, hx⟩ := Except.bind_eq_ok.mp hx
  cases hx
  cases h
  exact ⟨rfl, rfl⟩

theorem controlStep_keeps (hE : ∀ mem, Param.controlExpiration.valueD t mem 600 = E)
    (hM : ∀ mem, Param.maxPacket.valueD t mem 1000 = M) : Keeps (controlStep t) E fun o now =>
    if M < (sight E (.ofInt 32 now) o).2.counter.toInt then .reject else .accept := by
  intro s a s' out h
  obtain ⟨r, rfl, rfl, rfl⟩ := controlStep_cases hE hM h
  exact ⟨rfl, rfl⟩

/-- The test of `mod_source_time` on a record. -/
def timely (E allow deny : ℤ) (o : Option Record) (now : ℤ) : Bool :=
  if (sight E (.ofInt 32 now) o).1 = .updated then
    (BitVec.ofInt 32 now).toInt ≤
        ((sight E (.ofInt 32 now) o).2.firstSeen + BitVec.ofInt 32 deny).toInt ∧
      ((sight E (.ofInt 32 now) o).2.firstSeen + BitVec.ofInt 32 allow).toInt ≤
        (BitVec.ofInt 32 now).toInt
  else allow = 0

theorem sourceTimeStep_keeps (hE : ∀ mem, Param.sourceExpiration.valueD t mem DAY = E)
    (hdeny : ∀ mem, Param.denyAfter.valueD t mem 1200 = deny)
    (hallow : ∀ mem, Param.allowAfter.valueD t mem 0 = allow) :
    Keeps (sourceTimeStep t) E fun o now =>
      if timely E allow deny o now then .accept else .reject := by
  intro s a s' out h
  rw [sourceTimeStep, modSourceTime] at h
  obtain ⟨x, hx, h⟩ := Except.bind_eq_ok.mp h
  obtain ⟨-, -, hx⟩ := Except.bind_eq_ok.mp hx
  rw [hE, hdeny, hallow] at hx
  by_cases hm : deny ≤ allow
  · rw [if_pos hm] at hx
    cases hx
  · rw [if_neg hm] at hx
    cases hx
    cases h
    exact ⟨rfl, rfl⟩

theorem toInt_add_ofInt {first : BitVec 32} {d : ℤ} (hpos : 0 ≤ first.toInt)
    (h₀ : -2 ^ 31 ≤ d) (h₁ : first.toInt + d < 2 ^ 31) :
    (first + BitVec.ofInt 32 d).toInt = first.toInt + d := by
  rw [BitVec.toInt_add, BitVec.toInt_ofInt]
  simp only [Int.bmod]
  omega

/-- On the record of a visit, the test is that of the time in the visit. -/
theorem timely_iff {o : Option Record} {v : Option Visit} {clock now : ℤ}
    (h : Recorded clock o v) (h₀ : 0 ≤ clock) (hclock : clock ≤ now) (hle : allow < deny)
    (hallow : -2 ^ 31 ≤ allow) (hdeny : now + deny < 2 ^ 31) (h₁ : now < 2 ^ 31) :
    timely E allow deny o now = true ↔ InTime E allow deny v now := by
  rw [timely, InTime]
  by_cases hopens : OpensVisit E v
  · rw [if_neg fun hu => h.updated_iff.1 hu hopens, if_pos hopens, decide_eq_true_iff]
  · rw [if_pos (h.updated_iff.2 hopens), if_neg hopens, decide_eq_true_iff]
    have hstep := h.step (E := E) h₀ hclock h₁
    generalize (sight E (BitVec.ofInt 32 now) o).2 = r at hstep ⊢
    generalize Visit.arrive E now v = w at hstep ⊢
    cases hstep with
    | seen hfirst hlast hcount hpos hlast₀ hlate =>
      have hr : 0 ≤ r.firstSeen.toInt := by omega
      rw [toInt_ofInt_now (h₀.trans hclock) h₁, toInt_add_ofInt hr (by omega) (by omega),
        toInt_add_ofInt hr hallow (by omega), hfirst]
      omega

end

/-- **Rate limiting by visits.** In every run of fewer than `2 ^ 31` packets, of any sources,
`mod_control` accepts the first `M` packets of each visit and rejects the others. -/
theorem control_visits {t : ModSettings} {E M : ℤ} {tr : List Judged} {s : Limiter}
    (hE : ∀ mem, Param.controlExpiration.valueD t mem 600 = E)
    (hM : ∀ mem, Param.maxPacket.valueD t mem 1000 = M)
    (hrun : Machine.Run (controlStep t) Clocked {} tr s) (hlen : tr.length < 2 ^ 31) :
    Machine.Correct (fun before j => j.result =
      if (Visit.arrive E j.now (visitAfter E j.src before)).count ≤ M then .accept
      else .reject) tr := by
  obtain ⟨hcorrect, -⟩ := correct_of_visits
    (fun v now =>
      if M < (BitVec.ofNat 32 (Visit.arrive E now v).count).toInt then .reject else .accept)
    (controlStep_keeps hE hM) (fun _ _ h => h)
    (fun tr s a hin hclock => by
      have hstep := (hin.records a.src).step (E := E) hin.clock hclock.1 hclock.2
      generalize (sight E (BitVec.ofInt 32 a.now) (s.db a.src)).2 = r at hstep ⊢
      generalize Visit.arrive E a.now (visitAfter E a.src tr) = w at hstep ⊢
      cases hstep with
      | seen _ _ hcount _ _ _ => rw [hcount]) hrun
  intro before j after htr
  have hle : (Visit.arrive E j.now (visitAfter E j.src before)).count ≤ before.length + 1 :=
    Visit.arrive_count_le (count_visitAfter_le j.src before)
  have hfits : (BitVec.ofNat 32 (Visit.arrive E j.now (visitAfter E j.src before)).count).toInt =
      (Visit.arrive E j.now (visitAfter E j.src before)).count := by
    rw [htr, List.length_append, List.length_cons] at hlen
    rw [BitVec.toInt_eq_toNat_of_lt (by rw [BitVec.toNat_ofNat]; omega), BitVec.toNat_ofNat,
      Nat.mod_eq_of_lt (by omega)]
  rw [hcorrect before j after htr, hfits]
  by_cases hmax : ((Visit.arrive E j.now (visitAfter E j.src before)).count : ℤ) ≤ M
  · rw [if_neg (by omega), if_pos hmax]
  · rw [if_pos (by omega), if_neg hmax]

/-- A source sends three packets within a window of ten seconds, another one only one. -/
theorem control_visits_one : ∃ tr s,
    Machine.Run (controlStep (Sample.controlTable "1p")) Clocked {} tr s ∧
      tr.map Judged.result = [.accept, .accept, .reject, .accept] ∧
      Machine.Correct (fun before j => j.result =
        if (Visit.arrive 10 j.now (visitAfter 10 j.src before)).count ≤ (1 : ℤ) then .accept
        else .reject) tr := by
  obtain ⟨tr, s, hrun, htr⟩ := Machine.exists_run (controlStep (Sample.controlTable "1p")) {}
    [⟨100, 1, fun _ => []⟩, ⟨105, 2, fun _ => []⟩, ⟨111, 1, fun _ => []⟩, ⟨112, 1, fun _ => []⟩]
    (fun r => r.2.map Judged.result = [.accept, .accept, .reject, .accept])
    (fun s a (h : decide (Clocked s a) = true) => of_decide_eq_true h) (by decide)
  have hresults : tr.map Judged.result = [.accept, .accept, .reject, .accept] :=
    of_decide_eq_true htr
  have hlen : tr.length = 4 := by rw [← List.length_map (f := Judged.result), hresults]; rfl
  exact ⟨tr, s, hrun, hresults,
    control_visits (fun _ => rfl) (fun _ => rfl) hrun (by rw [hlen]; decide)⟩

/-- **Times of a visit.** In every run of packets, of any sources, `mod_source_time` accepts a
packet if it comes in the time of its visit. The packet that opens a visit is in time exactly if
nothing is denied at first. -/
theorem sourceTime_visits {t : ModSettings} {E allow deny : ℤ} {tr : List Judged} {s : Limiter}
    (hE : ∀ mem, Param.sourceExpiration.valueD t mem DAY = E)
    (hdeny : ∀ mem, Param.denyAfter.valueD t mem 1200 = deny)
    (hallow : ∀ mem, Param.allowAfter.valueD t mem 0 = allow) (hle : allow < deny)
    (hlow : -2 ^ 31 ≤ allow)
    (hrun : Machine.Run (sourceTimeStep t) (fun s a => Clocked s a ∧ a.now + deny < 2 ^ 31)
      {} tr s) :
    Machine.Correct (fun before j => j.result =
      if InTime E allow deny (visitAfter E j.src before) j.now then .accept else .reject) tr :=
  (correct_of_visits (fun v now => if InTime E allow deny v now then .accept else .reject)
    (sourceTimeStep_keeps hE hdeny hallow) (fun _ _ h => h.1)
    (fun _ _ _ hin hok => if_congr (timely_iff (hin.records _) hin.clock hok.1.1 hle hlow hok.2
      hok.1.2) rfl rfl) hrun).1

namespace Sample

/-- The table of a module `source` or `source_time`. -/
def sourceTable (allow deny : String) : ModSettings
  | "backup" => some .keyFile
  | "backup_file" => some (.text "/etc/honeybrid/source.tb")
  | "expiration" => some (.text "100s")
  | "allow_after" => some (.text allow)
  | "deny_after" => some (.text deny)
  | _ => none

end Sample

/-- A source is denied for twenty seconds, and allowed for thirty seconds then. -/
theorem sourceTime_visits_three : ∃ tr s,
    Machine.Run (sourceTimeStep (Sample.sourceTable "20s" "50s"))
      (fun s a => Clocked s a ∧ a.now + 50 < 2 ^ 31) {} tr s ∧
      tr.map Judged.result = [.reject, .reject, .accept, .reject] ∧
      Machine.Correct (fun before j => j.result =
        if InTime 100 20 50 (visitAfter 100 j.src before) j.now then .accept else .reject) tr := by
  obtain ⟨tr, s, hrun, htr⟩ := Machine.exists_run
    (sourceTimeStep (Sample.sourceTable "20s" "50s")) {}
    [⟨100, 1, fun _ => []⟩, ⟨115, 1, fun _ => []⟩, ⟨140, 1, fun _ => []⟩, ⟨160, 1, fun _ => []⟩]
    (fun r => r.2.map Judged.result = [.reject, .reject, .accept, .reject])
    (fun s a (h : decide (Clocked s a ∧ a.now + 50 < 2 ^ 31) = true) => of_decide_eq_true h)
    (by decide)
  exact ⟨tr, s, hrun, of_decide_eq_true htr, sourceTime_visits (fun _ => rfl) (fun _ => rfl)
    (fun _ => rfl) (by decide) (by decide) hrun⟩

/-! ### NovelSource sources -/

/-- The time of the last packet that passes a test. -/
def lastTime (p : Judged → Bool) (tr : List Judged) : Option ℤ :=
  ((tr.filter p).getLast?).map Judged.now

/-- A packet of the source. -/
def seenFrom (src : IpAddr) (j : Judged) : Bool :=
  j.src = src

/-- A packet of the source that was accepted. -/
def acceptedFrom (src : IpAddr) (j : Judged) : Bool :=
  j.src = src ∧ j.result = .accept

theorem seenFrom_iff {src : IpAddr} {j : Judged} : seenFrom src j = true ↔ j.src = src :=
  decide_eq_true_iff

theorem acceptedFrom_iff {src : IpAddr} {j : Judged} :
    acceptedFrom src j = true ↔ j.src = src ∧ j.result = .accept :=
  decide_eq_true_iff

/-- No packet of the source has been accepted, or the last one of them more than a day before the
last packet of the source. -/
def NovelSource (src : IpAddr) (tr : List Judged) : Prop :=
  ∀ l f, lastTime (seenFrom src) tr = some l → lastTime (acceptedFrom src) tr = some f →
    DAY < l - f

theorem lastTime_concat (p : Judged → Bool) (tr : List Judged) (j : Judged) :
    lastTime p (tr ++ [j]) = if p j then some j.now else lastTime p tr := by
  rw [lastTime, List.filter_append]
  cases hp : p j with
  | true =>
    rw [List.filter_cons_of_pos hp, List.filter_nil, List.getLast?_concat]
    rfl
  | false =>
    rw [List.filter_cons_of_neg (by rw [hp]; decide), List.filter_nil, List.append_nil]
    rfl

theorem exists_of_lastTime {p : Judged → Bool} {tr : List Judged} {l : ℤ}
    (h : lastTime p tr = some l) : ∃ j ∈ tr, j.now = l := by
  obtain ⟨j, hj, rfl⟩ := Option.map_eq_some_iff.1 h
  exact ⟨j, (List.mem_filter.1 (List.mem_of_getLast? hj)).1, rfl⟩

/-- The last packet that passes a test is no older than the others. -/
theorem le_lastTime {p : Judged → Bool} {tr : List Judged} {a : Judged}
    (hsorted : tr.Pairwise fun a b => a.now ≤ b.now) (ha : a ∈ tr) (hp : p a = true) :
    ∃ l, lastTime p tr = some l ∧ a.now ≤ l := by
  induction tr using List.reverseRecOn with
  | nil => cases ha
  | append_singleton tr j ih =>
    rw [List.pairwise_append] at hsorted
    obtain ⟨htr, -, hlast⟩ := hsorted
    rw [lastTime_concat]
    obtain ha | ha := List.mem_append.1 ha
    · by_cases hj : p j = true
      · exact ⟨j.now, if_pos hj, hlast a ha j (List.mem_singleton_self j)⟩
      · rw [if_neg hj]
        exact ih htr ha
    · cases List.mem_singleton.1 ha
      exact ⟨a.now, if_pos hp, le_refl _⟩

/-- The packets that open a visit are accepted, and no others. -/
def Opening (tr : List Judged) : Prop :=
  Machine.Correct (fun before j =>
    j.result = if OpensVisit DAY (visitAfter DAY j.src before) then .accept else .reject) tr

/-- The first packet of a visit is the last one that was accepted. -/
theorem Opening.visit {tr : List Judged} (h : Opening tr) (src : IpAddr) :
    (visitAfter DAY src tr).map Visit.first = lastTime (acceptedFrom src) tr ∧
      (visitAfter DAY src tr).map Visit.last = lastTime (seenFrom src) tr := by
  induction tr using List.reverseRecOn with
  | nil => exact ⟨rfl, rfl⟩
  | append_singleton tr j ih =>
    obtain ⟨htr, hj⟩ := Machine.correct_concat.1 h
    obtain ⟨hfirst, hlast⟩ := ih htr
    rw [visitAfter_concat, lastTime_concat, lastTime_concat]
    by_cases hsrc : j.src = src
    · subst hsrc
      rw [if_pos rfl, if_pos (seenFrom_iff.2 rfl)]
      refine ⟨?_, ?_⟩
      · cases hv : visitAfter DAY j.src tr with
        | none =>
          rw [hv, if_pos opens_none] at hj
          rw [if_pos (acceptedFrom_iff.2 ⟨rfl, hj⟩)]
          rfl
        | some v =>
          rw [hv] at hj hfirst
          rw [Visit.arrive]
          by_cases hexp : DAY < v.last - v.first
          · rw [if_pos (opens_some.2 hexp)] at hj
            rw [if_pos hexp, if_pos (acceptedFrom_iff.2 ⟨rfl, hj⟩)]
            rfl
          · rw [if_neg fun hopens => hexp (opens_some.1 hopens)] at hj
            rw [if_neg hexp, if_neg fun hacc => by cases hj.symm.trans (acceptedFrom_iff.1 hacc).2]
            exact hfirst
      · cases hv : visitAfter DAY j.src tr with
        | none => rfl
        | some v =>
          rw [Visit.arrive]
          split <;> rfl
    · rw [if_neg hsrc, if_neg fun hacc => hsrc (acceptedFrom_iff.1 hacc).1,
        if_neg fun hseen => hsrc (seenFrom_iff.1 hseen)]
      exact ⟨hfirst, hlast⟩

/-- A visit is opened by the packets of novel sources. -/
theorem Opening.opens_iff {tr : List Judged} (h : Opening tr) (src : IpAddr) :
    OpensVisit DAY (visitAfter DAY src tr) ↔ NovelSource src tr := by
  obtain ⟨hfirst, hlast⟩ := h.visit src
  rw [NovelSource, ← hfirst, ← hlast]
  constructor
  · rintro hopens l f hl hf
    obtain ⟨v, hv, rfl⟩ := Option.map_eq_some_iff.1 hl
    rw [hv] at hf
    cases hf
    exact hopens v hv
  · intro hnovel v hv
    exact hnovel v.last v.first (by rw [hv]; rfl) (by rw [hv]; rfl)

/-- Accepted packets of one source are more than a day apart. -/
theorem Opening.apart {tr : List Judged} (h : Opening tr)
    (hsorted : tr.Pairwise fun a b => a.now ≤ b.now) :
    tr.Pairwise fun a b =>
      a.src = b.src → a.result = .accept → b.result = .accept → DAY < b.now - a.now := by
  induction tr using List.reverseRecOn with
  | nil => exact .nil
  | append_singleton tr j ih =>
    obtain ⟨htr, hj⟩ := Machine.correct_concat.1 h
    obtain ⟨hsorted, -, hlate⟩ := List.pairwise_append.1 hsorted
    refine List.pairwise_append.2 ⟨ih htr hsorted, List.pairwise_singleton _ _, ?_⟩
    intro a ha b hb hsrc hacc hacc'
    cases List.mem_singleton.1 hb
    have hopens : OpensVisit DAY (visitAfter DAY j.src tr) := by
      by_contra hno
      rw [if_neg hno, hacc'] at hj
      cases hj
    obtain ⟨f, hf, haf⟩ := le_lastTime (p := acceptedFrom j.src) hsorted ha
      (acceptedFrom_iff.2 ⟨hsrc, hacc⟩)
    obtain ⟨l, hl, -⟩ := le_lastTime (p := seenFrom j.src) hsorted ha
      (seenFrom_iff.2 hsrc)
    have hday : DAY < l - f := (Opening.opens_iff htr j.src).1 hopens l f hl hf
    obtain ⟨c, hc, rfl⟩ := exists_of_lastTime hl
    have hcb : c.now ≤ j.now := hlate c hc j hb
    omega

/-- The times of a run do not go back. -/
theorem sorted_of_run {t : ModSettings} {tr : List Judged} {s : Limiter}
    (hrun : Machine.Run (sourceStep t) Clocked {} tr s) :
    tr.Pairwise fun a b => a.now ≤ b.now := by
  refine (hrun.traceInvariant (fun tr s => (tr.Pairwise fun a b => a.now ≤ b.now) ∧
    ∀ j ∈ tr, j.now ≤ s.clock) ⟨.nil, fun _ h => by cases h⟩ ?_).1
  rintro tr s₁ a s₂ out ⟨hsorted, hlate⟩ hclock hstep
  obtain ⟨rfl, rfl⟩ := sourceStep_keeps _ _ _ _ hstep
  refine ⟨List.pairwise_append.2 ⟨hsorted, List.pairwise_singleton _ _, ?_⟩, ?_⟩
  · intro b hb c hc
    cases List.mem_singleton.1 hc
    exact (hlate b hb).trans hclock.1
  · intro b hb
    obtain hb | hb := List.mem_append.1 hb
    · exact (hlate b hb).trans hclock.1
    · cases List.mem_singleton.1 hb
      exact le_refl _

/-- **Known sources.** In every run of packets, of any sources, `mod_source` accepts a packet
exactly if its source is novel, and two packets of one source that it accepts are more than a day
apart. -/
theorem source_novel {t : ModSettings} {tr : List Judged} {s : Limiter}
    (hrun : Machine.Run (sourceStep t) Clocked {} tr s) :
    Machine.Correct (fun before j => j.result = .accept ↔ NovelSource j.src before) tr ∧
      tr.Pairwise fun a b =>
        a.src = b.src → a.result = .accept → b.result = .accept → DAY < b.now - a.now := by
  obtain ⟨hopening, -⟩ := correct_of_visits
    (fun v _ => if OpensVisit DAY v then .accept else .reject) sourceStep_keeps (fun _ _ h => h)
    (fun tr s a hin _ => by
      by_cases hopens : OpensVisit DAY (visitAfter DAY a.src tr)
      · rw [if_neg fun hu => (hin.records a.src).updated_iff.1 hu hopens, if_pos hopens]
      · rw [if_pos ((hin.records a.src).updated_iff.2 hopens), if_neg hopens]) hrun
  refine ⟨?_, Opening.apart hopening (sorted_of_run hrun)⟩
  intro before j after htr
  have hbefore : Opening before := by
    intro x a y hx
    exact hopening x a (y ++ j :: after) (by rw [htr, hx, List.append_assoc]; rfl)
  rw [hopening before j after htr, ← hbefore.opens_iff j.src]
  by_cases hopens : OpensVisit DAY (visitAfter DAY j.src before)
  · rw [if_pos hopens]
    exact iff_of_true rfl hopens
  · rw [if_neg hopens]
    exact iff_of_false (fun h => by cases h) hopens

/-- A source comes back on the same day and on the days after. -/
theorem source_novel_days : ∃ tr s,
    Machine.Run (sourceStep (Sample.sourceTable "20s" "50s")) Clocked {} tr s ∧
      tr.map Judged.result = [.accept, .reject, .reject, .accept] ∧
      Machine.Correct (fun before j => j.result = .accept ↔ NovelSource j.src before) tr := by
  obtain ⟨tr, s, hrun, htr⟩ := Machine.exists_run (sourceStep (Sample.sourceTable "20s" "50s")) {}
    [⟨100, 1, fun _ => []⟩, ⟨200, 1, fun _ => []⟩, ⟨86501, 1, fun _ => []⟩,
      ⟨86502, 1, fun _ => []⟩]
    (fun r => r.2.map Judged.result = [.accept, .reject, .reject, .accept])
    (fun s a (h : decide (Clocked s a) = true) => of_decide_eq_true h) (by decide)
  exact ⟨tr, s, hrun, of_decide_eq_true htr, (source_novel hrun).1⟩

end Honeybrid
