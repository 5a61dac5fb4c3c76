import Honeybrid.Configuration
import Honeybrid.Lib.Histories
import Honeybrid.Lib.KeyClasses
import Mathlib.Order.Interval.Finset.Nat

/-!
# The numbers of the backends

The counter `back_handler_count` of a target gives backends their numbers, and is read as the number
of backends. A definition with a rule advances it twice, and a removal leaves it alone. The module
`backpick_random` takes the numbers of the backends for those from one up to the size of the table.

## Main definitions

* `BackendOp`: what the grammar and the management functions do to the backends of a target.
* `modBackpickRandom`: the module.
* `CountMatches`: the counter is the number of backends.
* `Consecutive`: the backends are numbered from one on.

## Main results

* `countMatches_iff`: the histories after which the counter is the number of backends.
* `consecutive_apply_iff`: which operations keep the numbers consecutive.
* `picked_exists`: the histories after which every pick is a backend.
-/

namespace Honeybrid

variable {t : Target}

/-! ### Operations -/

/-- A definition of a backend in a target block, with or without a rule, or a call of
`add_back_handler` or `remove_back_handler`. -/
inductive BackendOp
  | defineRuled (h : Handler)
  | define (h : Handler)
  | add (h : Handler)
  | remove (backendID : HandlerId)

/-- The target after an operation. -/
def BackendOp.apply (t : Target) : BackendOp → Target
  | .defineRuled h => addBackHandler { t with backHandlerCount := t.backHandlerCount + 1 } h
  | .define h | .add h => addBackHandler t h
  | .remove backendID => (removeBackHandler t backendID).1

/-- The grammar defines a backend by one of the operations. -/
theorem action_backend {s : Setup} {h : Honeypot} {equation : Option Equation} {t' : Target}
    (hact : (TargetEntry.backend h equation).action s t = .ok t') :
    ∃ back, t' = BackendOp.apply t
      (if equation.isSome then .defineRuled back else .define back) := by
  cases equation with
  | none =>
    simp only [TargetEntry.action] at hact
    split_ifs at hact
    obtain ⟨back, -, hact⟩ := Except.bind_eq_ok.mp hact
    cases hact
    exact ⟨back, rfl⟩
  | some equation =>
    obtain ⟨back, -, hact⟩ := Except.bind_eq_ok.mp hact
    obtain ⟨rule, -, hact⟩ := Except.bind_eq_ok.mp hact
    cases hact
    exact ⟨{ back with rule }, rfl⟩

/-- The target after a history of operations. -/
def Target.after (ops : List BackendOp) : Target :=
  History.after BackendOp.apply {} ops

/-! ### The counter -/

/-- The counter is the number of backends. -/
def CountMatches (t : Target) : Prop :=
  t.backHandlerCount = t.backHandlers.size

instance : DecidablePred CountMatches :=
  fun t => inferInstanceAs (Decidable (t.backHandlerCount = t.backHandlers.size))

/-- The operation enters a backend without a rule under a number that is free, or removes a number
that is not there. -/
def BackendOp.Counts (t : Target) : BackendOp → Prop
  | .defineRuled _ => False
  | .define _ | .add _ => t.backHandlers[t.backHandlerCount + 1]? = none
  | .remove backendID => t.backHandlers[backendID]? = none

theorem size_insert_of_none {m : Std.TreeMap HandlerId Handler intcmp} {n : HandlerId} {h : Handler}
    (hn : m[n]? = none) : (m.insert n h).size = m.size + 1 := by
  rw [Std.TreeMap.size_insert, if_neg]
  rw [Std.TreeMap.contains_eq_isSome_getElem?, hn]
  exact Bool.false_ne_true

theorem size_insert_of_some {m : Std.TreeMap HandlerId Handler intcmp} {n : HandlerId} {h : Handler}
    (hn : m[n]? ≠ none) : (m.insert n h).size = m.size := by
  rw [Std.TreeMap.size_insert, if_pos]
  exact Std.TreeMap.mem_iff_isSome_getElem?.mpr (Option.isSome_iff_ne_none.mpr hn)

theorem size_erase_of_some {m : Std.TreeMap HandlerId Handler intcmp} {n : HandlerId}
    (hn : m[n]? ≠ none) : (m.erase n).size = m.size - 1 ∧ 0 < m.size := by
  have hmem := Std.TreeMap.mem_iff_isSome_getElem?.mpr (Option.isSome_iff_ne_none.mpr hn)
  refine ⟨by rw [Std.TreeMap.size_erase, if_pos (Std.TreeMap.mem_iff_contains.mp hmem)], ?_⟩
  rw [Nat.pos_iff_ne_zero]
  intro h0
  have hempty := Std.TreeMap.isEmpty_eq_size_eq_zero.trans (decide_eq_true h0)
  exact Std.TreeMap.not_mem_of_isEmpty hempty hmem

theorem removeBackHandler_none {id : HandlerId} (h : t.backHandlers[id]? = none) :
    removeBackHandler t id = (t, .nok) := by
  simp [removeBackHandler, h]

theorem removeBackHandler_some {id : HandlerId} (h : t.backHandlers[id]? ≠ none) :
    removeBackHandler t id = ({ t with backHandlers := t.backHandlers.erase id }, .ok) := by
  simp [removeBackHandler, Option.isSome_iff_ne_none.mpr h]

/-- The table never has more entries than the counter says. -/
theorem size_le_count (op : BackendOp) (h : t.backHandlers.size ≤ t.backHandlerCount) :
    (op.apply t).backHandlers.size ≤ (op.apply t).backHandlerCount := by
  have hadd (back : Handler) (t : Target) (h : t.backHandlers.size ≤ t.backHandlerCount) :
      (addBackHandler t back).backHandlers.size ≤ (addBackHandler t back).backHandlerCount :=
    Std.TreeMap.size_insert_le.trans (Nat.succ_le_succ h)
  cases op with
  | defineRuled back => exact hadd back _ (h.trans (Nat.le_succ _))
  | define back => exact hadd back t h
  | add back => exact hadd back t h
  | remove id =>
    by_cases hid : t.backHandlers[id]? = none
    · rwa [BackendOp.apply, removeBackHandler_none hid]
    · rw [BackendOp.apply, removeBackHandler_some hid]
      exact Std.TreeMap.size_erase_le.trans h

/-- Which operations leave the counter as the number of backends. -/
theorem countMatches_apply_iff (op : BackendOp) (hle : t.backHandlers.size ≤ t.backHandlerCount) :
    CountMatches (op.apply t) ↔ CountMatches t ∧ op.Counts t := by
  have hadd (back : Handler) : CountMatches (addBackHandler t back) ↔
      CountMatches t ∧ t.backHandlers[t.backHandlerCount + 1]? = none := by
    by_cases hid : t.backHandlers[t.backHandlerCount + 1]? = none
    · simp only [CountMatches, addBackHandler, size_insert_of_none hid, hid, and_true]
      omega
    · simp only [CountMatches, addBackHandler, size_insert_of_some hid, hid, and_false, iff_false]
      omega
  cases op with
  | defineRuled back =>
    have hle' := Std.TreeMap.size_insert_le (t := t.backHandlers) (k := t.backHandlerCount + 1 + 1)
      (v := { back with id := t.backHandlerCount + 1 + 1 })
    simp only [BackendOp.apply, CountMatches, addBackHandler, BackendOp.Counts, and_false,
      iff_false]
    omega
  | define back => exact hadd back
  | add back => exact hadd back
  | remove id =>
    by_cases hid : t.backHandlers[id]? = none
    · rw [BackendOp.apply, removeBackHandler_none hid]
      exact ⟨fun h => ⟨h, hid⟩, And.left⟩
    · rw [BackendOp.apply, removeBackHandler_some hid]
      have hsize := size_erase_of_some hid
      simp only [CountMatches, BackendOp.Counts, hid, and_false, iff_false]
      omega

/-- **The counter.** After a history the counter is the number of backends exactly when no backend
was defined with a rule, none was removed, and no number was given out twice. -/
theorem countMatches_iff (ops : List BackendOp) :
    CountMatches (Target.after ops) ↔
      History.Throughout BackendOp.apply (fun t op => op.Counts t) {} ops := by
  refine (History.iff_throughout (P := CountMatches)
    (I := fun t => t.backHandlers.size ≤ t.backHandlerCount) (Nat.zero_le _)
    (fun t op => size_le_count op) fun t op => countMatches_apply_iff op).trans ?_
  exact and_iff_right rfl

/-- A backend that is defined with a rule is counted twice. -/
theorem ruled_not_counted : ¬CountMatches (Target.after [.defineRuled Sample.hih]) := by
  decide +kernel

/-! ### Numbers -/

/-- The backends are numbered from one on. -/
def Consecutive (t : Target) : Prop :=
  ∀ n : ℕ, 1 ≤ n → n ≤ t.backHandlers.size → t.backHandlers[n]? ≠ none

/-- A backend that is entered under this number continues the numbers, or takes the place of another
one. -/
def Target.Continues (t : Target) (n : ℕ) : Prop :=
  t.backHandlers[n]? ≠ none ∨ intcmp n (t.backHandlers.size + 1) = .eq

/-- The operation enters a backend under the next number, or removes the last one. -/
def BackendOp.InOrder (t : Target) : BackendOp → Prop
  | .defineRuled _ => t.Continues (t.backHandlerCount + 2)
  | .define _ | .add _ => t.Continues (t.backHandlerCount + 1)
  | .remove backendID =>
    t.backHandlers[backendID]? = none ∨ intcmp backendID t.backHandlers.size = .eq

theorem intcmp_eq_iff (a b : ℕ) : intcmp a b = .eq ↔ a % 2 ^ 32 = b % 2 ^ 32 := by
  rw [intcmp, descOn, compareOn, Nat.compare_eq_eq, eq_comm]

/-- The low 32 bits of the numbers of the backends. -/
def Target.numbers (t : Target) : Finset ℕ :=
  t.backHandlers.classes (· % 2 ^ 32)

theorem mem_numbers {n : ℕ} : n % 2 ^ 32 ∈ t.numbers ↔ t.backHandlers[n]? ≠ none :=
  Std.TreeMap.class_mem_classes (f := (· % 2 ^ 32)) intcmp_eq_iff

theorem card_numbers : t.numbers.card = t.backHandlers.size :=
  Std.TreeMap.card_classes intcmp_eq_iff

theorem size_le : t.backHandlers.size ≤ 2 ^ 32 := by
  have hsub : t.numbers ⊆ Finset.range (2 ^ 32) := by
    intro r hr
    obtain ⟨n, rfl, -⟩ := (Std.TreeMap.mem_classes intcmp_eq_iff).mp hr
    exact Finset.mem_range.mpr (Nat.mod_lt _ (by decide))
  have hcard := Finset.card_le_card hsub
  rwa [card_numbers, Finset.card_range] at hcard

/-- Consecutive numbers exhaust the table. -/
theorem Consecutive.exhaust (h : Consecutive t) {n : ℕ} (hn : t.backHandlers[n]? ≠ none) :
    ∃ k, 1 ≤ k ∧ k ≤ t.backHandlers.size ∧ n % 2 ^ 32 = k % 2 ^ 32 := by
  have hle : t.backHandlers.size ≤ 2 ^ 32 := size_le
  have hsub : (Finset.Icc 1 t.backHandlers.size).image (· % 2 ^ 32) ⊆ t.numbers := by
    intro r hr
    obtain ⟨k, hk, rfl⟩ := Finset.mem_image.mp hr
    obtain ⟨h1, hs⟩ := Finset.mem_Icc.mp hk
    exact mem_numbers.mpr (h k h1 hs)
  have hinj : Set.InjOn (· % 2 ^ 32) (Finset.Icc 1 t.backHandlers.size : Set ℕ) := by
    intro a ha b hb hab
    obtain ⟨ha1, ha2⟩ := Finset.mem_Icc.mp (Finset.mem_coe.mp ha)
    obtain ⟨hb1, hb2⟩ := Finset.mem_Icc.mp (Finset.mem_coe.mp hb)
    simp only at hab
    omega
  have heq : (Finset.Icc 1 t.backHandlers.size).image (· % 2 ^ 32) = t.numbers := by
    refine Finset.eq_of_subset_of_card_le hsub ?_
    rw [Finset.card_image_of_injOn hinj, card_numbers, Nat.card_Icc, Nat.add_sub_cancel]
  have hmem := mem_numbers.mpr hn
  rw [← heq] at hmem
  obtain ⟨k, hk, hkn⟩ := Finset.mem_image.mp hmem
  obtain ⟨h1, h2⟩ := Finset.mem_Icc.mp hk
  exact ⟨k, h1, h2, hkn.symm⟩

/-- A table without an entry for some number is not full. -/
theorem Consecutive.size_lt (h : Consecutive t) {n : ℕ} (hn : t.backHandlers[n]? = none) :
    t.backHandlers.size < 2 ^ 32 := by
  refine lt_of_le_of_ne size_le fun hfull => ?_
  -- the number, or `2 ^ 32` in the place of zero, is among the consecutive ones
  by_cases h0 : n % 2 ^ 32 = 0
  · refine h (2 ^ 32) (by decide) hfull.ge ?_
    rw [Std.TreeMap.getElem?_congr ((intcmp_eq_iff _ n).mpr (by omega)), hn]
  · refine h (n % 2 ^ 32) (by omega) (by omega) ?_
    rw [Std.TreeMap.getElem?_congr ((intcmp_eq_iff _ n).mpr (by omega)), hn]

/-- Entering a backend keeps the numbers consecutive when it continues them. -/
theorem consecutive_insert_iff (h : Consecutive t) {t' : Target} {n : ℕ} {back : Handler}
    (ht' : t'.backHandlers = t.backHandlers.insert n back) :
    Consecutive t' ↔ t.Continues n := by
  have hlook (k : ℕ) : t'.backHandlers[k]? =
      if n % 2 ^ 32 = k % 2 ^ 32 then some back else t.backHandlers[k]? := by
    rw [ht', Std.TreeMap.getElem?_insert]
    simp only [intcmp_eq_iff]
  by_cases hn : t.backHandlers[n]? = none
  · have hsize : t'.backHandlers.size = t.backHandlers.size + 1 := by
      rw [ht', size_insert_of_none hn]
    have hlt := h.size_lt hn
    rw [Target.Continues, intcmp_eq_iff]
    constructor
    · intro h'
      right
      have hlast := h' (t.backHandlers.size + 1) (by omega) (by omega)
      rw [hlook] at hlast
      split_ifs at hlast with heq
      · exact heq
      · obtain ⟨k, h1, h2, hk⟩ := h.exhaust hlast
        omega
    · rintro (hc | heq) k h1 h2
      · exact absurd hn hc
      · rw [hlook]
        split_ifs with hk
        · exact Option.some_ne_none back
        · refine h k h1 ?_
          by_contra hgt
          exact hk (by rw [heq]; congr 1; omega)
  · refine ⟨fun _ => .inl hn, fun _ k h1 h2 => ?_⟩
    rw [ht', size_insert_of_some hn] at h2
    rw [hlook]
    split_ifs
    · exact Option.some_ne_none back
    · exact h k h1 h2

/-- Removing a backend keeps the numbers consecutive when it is the last one. -/
theorem consecutive_erase_iff (h : Consecutive t) {t' : Target} {n : ℕ}
    (hn : t.backHandlers[n]? ≠ none) (ht' : t'.backHandlers = t.backHandlers.erase n) :
    Consecutive t' ↔ intcmp n t.backHandlers.size = .eq := by
  have hlook (k : ℕ) : t'.backHandlers[k]? =
      if n % 2 ^ 32 = k % 2 ^ 32 then none else t.backHandlers[k]? := by
    rw [ht', Std.TreeMap.getElem?_erase]
    simp only [intcmp_eq_iff]
  have hle : t.backHandlers.size ≤ 2 ^ 32 := size_le
  obtain ⟨hsize, hpos⟩ := size_erase_of_some hn
  rw [← ht'] at hsize
  rw [intcmp_eq_iff]
  constructor
  · intro h'
    obtain ⟨k, h1, h2, hk⟩ := h.exhaust hn
    by_contra hne
    have hlt : k ≤ t'.backHandlers.size := by
      by_contra hgt
      exact hne (by rw [hk]; congr 1; omega)
    refine h' k h1 hlt ?_
    rw [hlook, if_pos hk]
  · intro heq k h1 h2
    rw [hlook, if_neg (by omega)]
    exact h k h1 (by omega)

/-- Which operations keep the numbers consecutive. -/
theorem consecutive_apply_iff (op : BackendOp) (h : Consecutive t) :
    Consecutive (op.apply t) ↔ op.InOrder t := by
  cases op with
  | defineRuled back => exact consecutive_insert_iff h rfl
  | define back => exact consecutive_insert_iff h rfl
  | add back => exact consecutive_insert_iff h rfl
  | remove id =>
    by_cases hid : t.backHandlers[id]? = none
    · rw [BackendOp.apply, removeBackHandler_none hid]
      exact ⟨fun _ => .inl hid, fun _ => h⟩
    · rw [BackendOp.apply, removeBackHandler_some hid, consecutive_erase_iff h hid rfl,
        BackendOp.InOrder, or_iff_right hid]

/-! ### The module `backpick_random` -/

/-- `RAND_MAX`, as glibc has it. -/
def RAND_MAX : ℕ := 2147483647

/-- `mod_backpick_random`, with the value of `rand()`. The number of nodes is read as an `int`. -/
def modBackpickRandom (rand : ℕ) (a : ModArgs) : ModOut :=
  let nBackends := (BitVec.ofNat 32 a.target.backHandlers.size).toInt
  if nBackends ≤ 0 then ⟨.reject, a.backendUse⟩
  else ⟨.accept, rand % nBackends.toNat + 1⟩

/-- If the module accepts, it has picked a backend of the target. -/
def PicksBackend (a : ModArgs) : Prop :=
  ∀ rand ≤ RAND_MAX, (modBackpickRandom rand a).result = .accept →
    a.target.backHandlers[(modBackpickRandom rand a).backendUse]? ≠ none

/-- A number of nodes that is positive as an `int` is that `int`. -/
theorem toInt_ofNat_pos {n : ℕ} (hle : n ≤ 2 ^ 32) (h : 0 < (BitVec.ofNat 32 n).toInt) :
    (BitVec.ofNat 32 n).toInt = n := by
  rw [BitVec.toInt_eq_toNat_cond, BitVec.toNat_ofNat] at h ⊢
  split_ifs at h ⊢
  · omega
  · omega

theorem Consecutive.picks {a : ModArgs} (h : Consecutive a.target) : PicksBackend a := by
  intro rand _ hacc
  simp only [modBackpickRandom] at hacc ⊢
  split_ifs at hacc ⊢ with hn
  have hint := toInt_ofNat_pos size_le (not_le.mp hn)
  have hpos : 0 < a.target.backHandlers.size := by omega
  rw [hint, Int.toNat_natCast]
  exact h _ (Nat.le_add_left 1 _) (Nat.mod_lt rand hpos)

/-- As long as the number of backends is an `int`, the module asks for each of the numbers from one
on. -/
theorem PicksBackend.consecutive {a : ModArgs} (hsize : a.target.backHandlers.size ≤ RAND_MAX)
    (h : PicksBackend a) : Consecutive a.target := by
  intro k h1 hk
  have hint : (BitVec.ofNat 32 a.target.backHandlers.size).toInt = a.target.backHandlers.size := by
    simp only [RAND_MAX] at hsize
    rw [BitVec.toInt_eq_toNat_cond, BitVec.toNat_ofNat]
    split_ifs <;> omega
  have hout : modBackpickRandom (k - 1) a = ⟨.accept, k⟩ := by
    simp only [modBackpickRandom, hint]
    rw [if_neg (by omega), Int.toNat_natCast, Nat.mod_eq_of_lt (by omega), Nat.sub_add_cancel h1]
  have hpick := h (k - 1) (by omega)
  rw [hout] at hpick
  exact hpick rfl

/-- **The picked backend.** If every backend of a history was entered under the next number, and
only the last one was removed, then every pick of the module is a backend of the target; and the
first operation of another kind after such a history makes some pick miss, unless it makes the
number of backends too large for an `int`. -/
theorem picked_exists (ops : List BackendOp)
    (h : History.Throughout BackendOp.apply (fun t op => op.InOrder t) {} ops) :
    (∀ a : ModArgs, a.target = Target.after ops → PicksBackend a) ∧
    (∀ (op : BackendOp) (a : ModArgs), a.target = Target.after (ops ++ [op]) →
      a.target.backHandlers.size ≤ RAND_MAX → PicksBackend a → op.InOrder (Target.after ops)) := by
  have hcons : Consecutive (Target.after ops) := by
    refine History.invariant (P := Consecutive) (fun n h1 hn => ?_)
      (fun t op ht => (consecutive_apply_iff op ht).mpr) h
    have h0 : n ≤ 0 := hn
    omega
  refine ⟨fun a ha => ?_, fun op a ha hsize hpick => ?_⟩
  · exact Consecutive.picks (ha ▸ hcons)
  · have hcons' := hpick.consecutive hsize
    rw [ha, Target.after, History.after_concat] at hcons'
    exact (consecutive_apply_iff op hcons).mp hcons'

namespace Sample

/-- The arguments of the module for a packet of the attacker. -/
def pickArgs (t : Target) : ModArgs where
  pkt := request
  conn := buffered
  target := t
  backendTest := 0
  backendUse := 0

end Sample

/-- Three backends are entered and the last one is removed. -/
theorem picked_among_two :
    PicksBackend (Sample.pickArgs
      (Target.after [.add Sample.hih, .define Sample.hih, .add Sample.hih, .remove 3])) := by
  refine (picked_exists _ ?_).1 _ rfl
  refine ⟨.inr rfl, .inr rfl, .inr rfl, .inr rfl, trivial⟩

/-- Of one backend that is defined with a rule, the module picks the number one. The backend has the
number two. -/
theorem ruled_not_picked : ∃ rand ≤ RAND_MAX,
    (modBackpickRandom rand (Sample.pickArgs (Target.after [.defineRuled Sample.hih]))).result =
        .accept ∧
      (Target.after [.defineRuled Sample.hih]).backHandlers[(modBackpickRandom rand
        (Sample.pickArgs (Target.after [.defineRuled Sample.hih]))).backendUse]? = none := by
  refine ⟨0, Nat.zero_le _, ?_⟩
  decide +kernel

end Honeybrid
