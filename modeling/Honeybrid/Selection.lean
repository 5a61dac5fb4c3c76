import Honeybrid.Backends
import Honeybrid.Rules

/-!
# Selection of a backend

Without a back-picking rule, `DE_process_packet` visits the backends in the order of their tree, and
stops at the first one whose rule accepts. The decision holder is not cleared in between: a backend
without a rule leaves the result of the one before it, and a module may have suggested another
backend. Since the visit ends with the first result that accepts, a result that is left over is
never one of these, and the number that is handed over is written after all suggestions.

The number is read as the low 32 bits of the key. `intcmp` compares the same bits, so that it leads
to the backend it was read from.

## Main definitions

* `Declined`: backends that are visited one after the other, and none of them accepts.
* `Selected`: the visit of the backends up to the first one that accepts.
* `redirectWith`: the end of `DE_process_packet` with a backend.

## Main results

* `getDecisionBackends_selected`: what an accepted visit comes to.
* `selection_sound`: the backend that a connection in DECISION is redirected to.
-/

namespace Honeybrid

variable {μ : Type}

section

variable (mods : Modules μ) (i : ConnId) (pkt : Pkt)

/-- The backends are visited in turn, from one holder to the next, and none of them accepts. -/
inductive Declined : List (HandlerId × Handler) → DecisionHolder → Work μ → DecisionHolder →
    Work μ → List Event → Prop
  | nil (d : DecisionHolder) (w : Work μ) : Declined [] d w d w []
  | cons {key : HandlerId} {h : Handler} {rest : List (HandlerId × Handler)}
      {d d₁ d₂ : DecisionHolder} {w w₁ w₂ : Work μ} {ev evs : List Event}
      (hd : getDecision mods i pkt (.back (key % 2 ^ 32)) h.rule
        { d with backendTest := key % 2 ^ 32 } w = .ok (d₁, w₁, ev))
      (hne : d₁.result ≠ .accept) (hrest : Declined rest d₁ w₁ d₂ w₂ evs) :
      Declined ((key, h) :: rest) d w d₂ w₂ (ev ++ evs)

/-- The backends before `key` decline, its rule accepts, and this is the last evaluation. -/
structure Selected (pre : List (HandlerId × Handler)) (key : HandlerId) (h : Handler)
    (d : DecisionHolder) (w : Work μ) (d' : DecisionHolder) (w' : Work μ) (ev : List Event) :
    Prop where
  visit : ∃ d₁ w₁ ev₁ d₂, Declined mods i pkt pre d w d₁ w₁ ev₁ ∧
    DecisionHolder.decide mods i pkt h.rule 0 { d₁ with backendTest := key % 2 ^ 32 } w₁ =
      .ok (d₂, w') ∧
    d₂.result = .accept ∧ ev = ev₁ ++ [.evaluated i (.back (key % 2 ^ 32)) .accept]
  present : h.rule ≠ .null
  result : d'.result = .accept
  number : d'.backendUse = key % 2 ^ 32

end

variable {mods : Modules μ} {g : Globals} {i : ConnId} {pkt : Pkt} {w w' : Work μ}
  {d d' : DecisionHolder} {ev : List Event}

/-- A result that accepts comes from a rule, unless it was there before. -/
theorem getDecision_accept {name : RuleName} {rule : Rule}
    (h : getDecision mods i pkt name rule d w = .ok (d', w', ev)) (hd : d.result ≠ .accept)
    (hacc : d'.result = .accept) :
    rule ≠ .null ∧ d.decide mods i pkt rule 0 w = .ok (d', w') ∧
      ev = [.evaluated i name .accept] := by
  simp only [getDecision] at h
  split_ifs at h with hr
  · cases h
    exact absurd hacc hd
  · obtain ⟨⟨d₁, w₁⟩, hdec, h⟩ := Except.bind_eq_ok.mp h
    cases h
    exact ⟨hr, hdec, by rw [hacc]⟩

/-- **The visit of the backends.** If it ends with a result that accepts, then it has stopped at the
first backend whose rule accepts. -/
theorem getDecisionBackends_selected {hs : List (HandlerId × Handler)} (hd : d.result ≠ .accept)
    (h : getDecisionBackends mods i pkt hs d w = .ok (d', w', ev)) (hacc : d'.result = .accept) :
    ∃ pre key hdl post, hs = pre ++ (key, hdl) :: post ∧
      Selected mods i pkt pre key hdl d w d' w' ev := by
  induction hs generalizing d w ev with
  | nil =>
    cases h
    exact absurd hacc hd
  | cons e rest ih =>
    obtain ⟨key, hdl⟩ := e
    simp only [getDecisionBackends] at h
    obtain ⟨⟨d₁, w₁, ev₁⟩, hdec, h⟩ := Except.bind_eq_ok.mp h
    simp only at h
    split_ifs at h with hres
    · cases h
      obtain ⟨hr, hdecide, rfl⟩ := getDecision_accept hdec hd hres
      exact ⟨[], key, hdl, rest, rfl, ⟨_, _, _, _, .nil _ _, hdecide, hres, rfl⟩, hr, hres, rfl⟩
    · obtain ⟨⟨d₂, w₂, ev₂⟩, hrest, h⟩ := Except.bind_eq_ok.mp h
      cases h
      obtain ⟨pre, key', hdl', post, rfl, hsel⟩ := ih hres hrest
      obtain ⟨d₃, w₃, ev₃, d₄, hdecl, hdecide, hacc', rfl⟩ := hsel.visit
      refine ⟨(key, hdl) :: pre, key', hdl', post, rfl, ⟨?_, hsel.present, hacc, hsel.number⟩⟩
      exact ⟨d₃, w₃, _, d₄, .cons hdec hres hdecl, hdecide, hacc', (List.append_assoc ..).symm⟩

/-! ### The order of the tree -/

theorem intcmp_lt_iff (a b : ℕ) : intcmp a b = .lt ↔ b % 2 ^ 32 < a % 2 ^ 32 := by
  rw [intcmp, descOn, compareOn, Nat.compare_eq_lt]

/-- The backends around one of them in the order of the tree. -/
theorem order_of_toList {m : Std.TreeMap HandlerId Handler intcmp}
    {pre post : List (HandlerId × Handler)} {key : HandlerId} {h : Handler}
    (hsplit : m.toList = pre ++ (key, h) :: post) :
    (∀ e ∈ pre, key % 2 ^ 32 < e.1 % 2 ^ 32) ∧ ∀ e ∈ post, e.1 % 2 ^ 32 < key % 2 ^ 32 := by
  have hord := m.ordered_keys_toList
  rw [hsplit, List.pairwise_append, List.pairwise_cons] at hord
  obtain ⟨-, ⟨hpost, -⟩, hpre⟩ := hord
  refine ⟨fun e he => ?_, fun e he => ?_⟩
  · exact (intcmp_lt_iff _ _).mp (hpre e he (key, h) (List.mem_cons_self ..))
  · exact (intcmp_lt_iff _ _).mp (hpost e he)

/-- The low bits of a key lead to its entry. -/
theorem lookup_low {m : Std.TreeMap HandlerId Handler intcmp} {key : HandlerId} {h : Handler}
    (hmem : (key, h) ∈ m.toList) : m[key % 2 ^ 32]? = some h := by
  have hkey : m[key]? = some h := Std.TreeMap.mem_toList_iff_getKey?_eq_some_and_getElem?_eq_some.mp
    hmem |>.2
  rw [← hkey]
  refine Std.TreeMap.getElem?_congr ?_
  rw [intcmp, descOn, compareOn, Nat.compare_eq_eq, Nat.mod_mod]

/-! ### `DE_process_packet` -/

/-- The end of `DE_process_packet` for a connection in DECISION whose backend is chosen. -/
def redirectWith (g : Globals) (t : Target) (i : ConnId) (w : Work μ) (ev : List Event)
    (hihUse : HandlerId) : Except Fault (Status × Work μ × List Event) := do
  match ← setupRedirection g w.st t i w.conn hihUse with
  | none => return (.nok, w, ev)
  | some (s, c, ev') => return (.nok, ⟨s, c⟩, ev ++ ev')

/-- A rule that does not take the connection out of its state, other than PROXY, has changed the
memory of the modules only. -/
theorem RuleRun.mem_of_state {b : Bool} (h : RuleRun i b w w') (hs : w'.conn.state ≠ .proxy) :
    ∃ m, w' = { w with st := { w.st with mod := m } } := by
  induction h with
  | refl => exact ⟨w.st.mod, rfl⟩
  | tail _ hstep ih =>
    cases hstep with
    | mem m =>
      obtain ⟨m', rfl⟩ := ih hs
      exact ⟨m, rfl⟩
    | dns hb ht hsw =>
      obtain ⟨-, -, k, -, -, -, rfl⟩ := switchConnToIntra_cases hsw
      exact absurd rfl hs

theorem deProcessPacket_accept {t : Target} {w₁ : Work μ}
    (he : evaluate mods i pkt w = .ok (d, w₁, ev)) (hacc : d.result = .accept)
    (hs : w₁.conn.state = .decision) (ht : w₁.st.targets[w₁.conn.target]? = some t) :
    deProcessPacket mods i pkt g w = redirectWith g t i w₁ ev d.backendUse := by
  rw [deProcessPacket, he]
  simp only [Except.ok_bind, act, State.targetOf, ht, Option.orFail, hacc, hs, redirectWith]
  cases hr : setupRedirection g w₁.st t i w₁.conn d.backendUse with
  | error e => rfl
  | ok r =>
    cases r with
    | none => simp [Except.ok_bind]
    | some r => simp [Except.ok_bind]

/-- The verdict of a connection that the rules have switched away is not carried out. -/
theorem deProcessPacket_switched {t : Target} {w₁ : Work μ}
    (he : evaluate mods i pkt w = .ok (d, w₁, ev)) (hacc : d.result = .accept)
    (hs : w₁.conn.state = .proxy) (ht : w₁.st.targets[w₁.conn.target]? = some t) :
    deProcessPacket mods i pkt g w = .ok (.nok, w₁, ev) := by
  rw [deProcessPacket, he]
  simp [act, State.targetOf, ht, Option.orFail, hacc, hs]

/-- **Backend selection.** Let a connection in DECISION be without a back-picking rule, and let the
rules come to ACCEPT. Then the visit has stopped at the first backend in the order of the tree whose
rule accepts; the backends before it have the higher numbers. Its number leads to it in the tree,
and is the one that `setup_redirection` is called with, unless the rules have switched the
connection away, in which case it is not called. -/
theorem selection_sound {t : Target} {w₁ : Work μ} (hs : w.conn.state = .decision)
    (ht : w.st.targets[w.conn.target]? = some t) (hp : t.backPicker = .null)
    (he : evaluate mods i pkt w = .ok (d, w₁, ev)) (hacc : d.result = .accept) :
    ∃ pre key h post, t.backHandlers.toList = pre ++ (key, h) :: post ∧
      Selected mods i pkt pre key h {} w d w₁ ev ∧
      t.backHandlers[d.backendUse]? = some h ∧
      (∀ e ∈ pre, key % 2 ^ 32 < e.1 % 2 ^ 32) ∧ (∀ e ∈ post, e.1 % 2 ^ 32 < key % 2 ^ 32) ∧
      (w₁.conn.state = .decision ∧
          deProcessPacket mods i pkt g w = redirectWith g t i w₁ ev d.backendUse ∨
        w₁.conn.state = .proxy ∧ deProcessPacket mods i pkt g w = .ok (.nok, w₁, ev)) := by
  have hvisit : getDecisionBackends mods i pkt t.backHandlers.toList {} w = .ok (d, w₁, ev) := by
    simpa [evaluate, State.targetOf, ht, Option.orFail, hs, hp] using he
  obtain ⟨pre, key, h, post, hsplit, hsel⟩ :=
    getDecisionBackends_selected Decision.noConfusion hvisit hacc
  obtain ⟨hpre, hpost⟩ := order_of_toList hsplit
  have hmem : (key, h) ∈ t.backHandlers.toList := by simp [hsplit]
  refine ⟨pre, key, h, post, hsplit, hsel, by rw [hsel.number]; exact lookup_low hmem, hpre, hpost,
    ?_⟩
  have hrun := evaluate_run he
  obtain hc | ⟨hdl, k, hc⟩ := hrun.conn_cases
  · have hstate : w₁.conn.state = .decision := by rw [hc, hs]
    obtain ⟨m, rfl⟩ := hrun.mem_of_state (by rw [hstate]; decide)
    exact .inl ⟨hstate, deProcessPacket_accept he hacc hstate ht⟩
  · have hstate : w₁.conn.state = .proxy := by rw [hc]; rfl
    have htarget : w₁.conn.target = w.conn.target := by rw [hc]; rfl
    have hsome := hrun.framed.targets w₁.conn.target
    rw [htarget, ht] at hsome
    obtain ⟨t', ht', -⟩ := Option.map_eq_some_iff.mp hsome
    exact .inr ⟨hstate, deProcessPacket_switched he hacc hstate (htarget ▸ ht')⟩

/-- The module `a` accepts, the other one rejects, and both suggest the backend 7. -/
def Sample.suggesting : Modules Unit :=
  fun m _ mem => (⟨Sample.verdicts m, 7⟩, mem)

/-- The backend 2 is asked first and rejects, the backend 1 accepts. The connection is redirected to
it, whatever the modules suggest. -/
theorem selection_second : ∃ pre key h post,
    (Sample.pair "a" "b").backHandlers.toList = pre ++ (key, h) :: post ∧
      Selected Sample.suggesting 1 Sample.request pre key h {}
        (Sample.deciding (Sample.pair "a" "b")) ⟨1, 1, .accept⟩
        (Sample.deciding (Sample.pair "a" "b"))
        [.evaluated 1 (.back 2) .reject, .evaluated 1 (.back 1) .accept] ∧
      (Sample.pair "a" "b").backHandlers[1]? = some h := by
  have he : evaluate Sample.suggesting 1 Sample.request (Sample.deciding (Sample.pair "a" "b")) =
      .ok (⟨1, 1, .accept⟩, Sample.deciding (Sample.pair "a" "b"),
        [.evaluated 1 (.back 2) .reject, .evaluated 1 (.back 1) .accept]) := rfl
  obtain ⟨pre, key, h, post, hsplit, hsel, hlook, -⟩ :=
    selection_sound (g := Sample.globals) (t := Sample.pair "a" "b") rfl
      (by simp [Sample.deciding, Work.withTarget]) rfl he rfl
  exact ⟨pre, key, h, post, hsplit, hsel, hlook⟩

end Honeybrid
