import Honeybrid.Registration

/-!
# What a removal leaves in the trees

`remove_conn` chooses the trees it cleans by the initiator and the destination a connection has when
it is removed. The trees of connections from EXT and to EXT are left clean; the INTRA trees are
cleaned only for a high-interaction honeypot, and only under the last reply key. A connection of the
low-interaction honeypot or of EXT that `dns_control` has switched to an INTRA host stays in them
after it has been freed.

## Main results

* `forgotten`: a number that is in no tree after the removal is never in a tree again.
* `deregistered_iff`: when a removed connection is in no tree from then on.
-/

namespace Honeybrid

variable {μ : Type} {mods : Modules μ} {g : Globals} {s s' : State μ} {i j : ConnId} {c : Conn}
  {tr : List Event} {inp : Input} {n : ℕ} {r r' : Tables}
  {targets : Std.TreeMap TargetId Target intcmp} {ifTarget : Std.TreeMap IfaceId TargetId} {mem : μ}
  {ok : State μ → Input → Prop}

/-- A change edits the entries of a connection that is live, or new. -/
theorem Change.edits (h : Change mods g s inp n i r r') :
    ∃ add del, r.Edits r' i add del ∧ (r.live i ≠ none ∨ i = s.cId + 1) := by
  cases h with
  | work hc hc' ha he => exact ⟨_, _, he, Or.inl (by simp [hc])⟩
  | create hinp hrs hrs' hopen hsyn hid ht hi hn hcr =>
    subst hrs hrs'
    exact ⟨_, _, hcr.edits.1, Or.inr hi⟩
  | redirect hc hc' hnew hset he => exact ⟨_, _, he, Or.inl (by simp [hc])⟩
  | switch hinp ha hc₀ hsub hev hdest hother hkeys hk hc hc' he =>
    exact ⟨_, _, he, Or.inl (by simp [hc])⟩
  | remove hc hc' he => exact ⟨_, _, he, Or.inl (by simp [hc])⟩

/-- A number that has been given away and forgotten stays so during a step. -/
theorem Changes.forgets (hle : i ≤ s.cId) (h : Changes mods g s inp n r r') (hf : r.Forgets i) :
    r'.Forgets i := by
  induction h with
  | refl => exact hf
  | tail _ hchange ih =>
    obtain ⟨j, hchange⟩ := hchange
    obtain ⟨add, del, he, hj⟩ := hchange.edits
    refine he.forgets ih ?_
    rintro rfl
    rcases hj with hlive | hnew
    · exact hlive ih.1
    · rw [hnew] at hle
      exact Nat.not_succ_le_self _ hle

/-- **Forgotten numbers.** A number that is in no tree and has no connection is never in a tree
again, whatever the program does next. -/
theorem forgotten (hle : i ≤ s.cId) (hf : s.registry.Forgets i)
    (hrun : Machine.Run (step mods g) ok s tr s') : s'.registry.Forgets i := by
  suffices h : i ≤ s'.cId ∧ s'.registry.Forgets i from h.2
  refine hrun.invariant (fun s' => i ≤ s'.cId ∧ s'.registry.Forgets i) ⟨hle, hf⟩ ?_
  rintro s₁ inp s₂ out ⟨hle₁, hf₁⟩ - hstep
  obtain ⟨hmono, hchanges⟩ := step_changes hstep
  exact ⟨Nat.le_trans hle₁ hmono, hchanges.forgets hle₁ hf₁⟩

/-- Outside the INTRA trees a removal takes out every entry that leads to the connection. -/
theorem leaves_of_listed {tree : ConnTree} {k : ConnKey} (hf : c.Formed)
    (h : Conn.Listed tree k c)
    (hintra : tree = .intra1 ∨ tree = .intra2 →
      c.initiator = .hih ∧ (tree = .intra2 → c.intraKey = some k)) : c.Leaves tree k := by
  have hrole (hini : c.initiator ≠ .ext) : c.initiator = .lih ∨ c.initiator = .hih :=
    hf.role.resolve_left hini
  cases tree with
  | ext1 => exact h
  | ext2 => exact h
  | int1 => exact ⟨hrole h.1, h.2⟩
  | int2 => exact ⟨hrole h.1, h.2⟩
  | intra1 => exact ⟨Or.inr ⟨(hintra (Or.inl rfl)).1, h.1⟩, h.2⟩
  | intra2 =>
    obtain ⟨hini, hkey⟩ := hintra (Or.inr rfl)
    exact ⟨Or.inr ⟨hini, h.1⟩, hkey rfl⟩

/-- **Deregistration.** A connection that is removed is in no tree from then on exactly when it was
in the INTRA trees only as a connection of a high-interaction honeypot, and in `intra_tree2` only
under its last reply key. -/
theorem deregistered_iff (hrun : Machine.Run (step mods g) ok (boot targets ifTarget mem) tr s)
    (hc : s.conns[i]? = some c) (hr : removeConn s i = .ok s') :
    (∀ tr' s'', Machine.Reaches (step mods g) s' tr' s'' →
      ∀ tree (k : ConnKey), (s''.connTree tree)[k]? ≠ some i) ↔
    ∀ k : ConnKey, (s.intraTree1[k]? = some i → c.initiator = .hih) ∧
      (s.intraTree2[k]? = some i → c.initiator = .hih ∧ c.intraKey = some k) := by
  have hreg := registered hrun
  have hf := hreg.formed i c hc
  obtain ⟨c', hc', hgone, he⟩ := removeConn_edits hr
  obtain rfl : c = c' := Option.some.inj (hc.symm.trans hc')
  -- an entry that is not taken out is still there
  have hstays (tree : ConnTree) (k : ConnKey) (hk : (s.connTree tree)[k]? = some i)
      (hl : ¬c.Leaves tree k) : (s'.connTree tree)[k]? = some i := by
    have hkept := he.entry_of_kept (t := tree) (k := k) id hl
    exact hkept.trans hk
  have hintra {tree : ConnTree} {k : ConnKey} (htree : tree = .intra1 ∨ tree = .intra2)
      (hl : c.Leaves tree k) : c.initiator = .hih := by
    have hini : c.initiator = .intra ∨ c.initiator = .hih ∧ c.destination = .intra := by
      rcases htree with rfl | rfl
      · exact hl.1
      · exact hl.1
    rcases hini with hini | ⟨hini, -⟩
    · rcases hf.role with h | h | h <;> simp [h] at hini
    · exact hini
  constructor
  · intro h k
    have hnow := h [] s' .start
    have hleaves (tree : ConnTree) (hk : (s.connTree tree)[k]? = some i) : c.Leaves tree k := by
      by_contra hl
      exact hnow tree k (hstays tree k hk hl)
    refine ⟨fun hk => hintra (Or.inl rfl) (hleaves .intra1 hk), fun hk => ?_⟩
    have hl := hleaves .intra2 hk
    exact ⟨hintra (Or.inr rfl) hl, hl.2⟩
  · intro h tr' s'' hrun'
    have hforgets : s'.registry.Forgets i := by
      refine ⟨hgone, fun tree k hk => ?_⟩
      obtain ⟨hadd, -⟩ | ⟨hl, hk⟩ := he.entry_cases hk
      · exact hadd
      · refine hl (leaves_of_listed hf (hreg.belongs tree k i c hk hc) ?_)
        rintro (rfl | rfl)
        · exact ⟨(h k).1 hk, by simp⟩
        · exact ⟨((h k).2 hk).1, fun _ => ((h k).2 hk).2⟩
    have hle : i ≤ s'.cId := Nat.le_trans (hreg.live i c hc) (removeConn_quiet hr).cId
    exact (forgotten hle hforgets hrun').2

/-- A DNS query of a high-interaction honeypot, switched to an INTRA host: its connection leaves the
trees. -/
theorem deregistered_hih :
    ∃ tr s s', Machine.Reaches (step (Sample.modules .accept) Sample.globals) Sample.dnsStart tr s ∧
      (∃ k : ConnKey, s.intraTree1[k]? = some 1) ∧ removeConn s 1 = .ok s' ∧
      ∀ tree (k : ConnKey), (s'.connTree tree)[k]? ≠ some 1 := by
  obtain ⟨tr, s, hrun, hp⟩ := Machine.exists_reaches
    (step (Sample.modules .accept) Sample.globals) Sample.dnsStart
    [.packet (Sample.query 2 20 60) 0]
    (fun r => (r.1.conns[1]?.any fun c => c.initiator = .hih ∧
        r.1.intraTree2.toList.all fun e => c.intraKey = some e.1) ∧
      (r.1.intraTree1.toList.any fun e => e.2 = 1) ∧ (removeConn r.1 1).passes fun _ => true)
    (by decide +kernel)
  obtain ⟨hc, hin, hr⟩ := of_decide_eq_true hp
  obtain ⟨c, hc, htest⟩ := (Option.any_eq_true ..).mp hc
  obtain ⟨hini, hall⟩ := of_decide_eq_true htest
  obtain ⟨⟨k, j⟩, hmem, hj⟩ := List.any_eq_true.mp hin
  obtain rfl : j = 1 := of_decide_eq_true hj
  obtain ⟨s', hr, -⟩ := Except.passes_iff.mp hr
  have hclean := (deregistered_iff hrun hc hr).mpr fun k => by
    refine ⟨fun _ => hini, fun hk => ⟨hini, ?_⟩⟩
    have hmem := Std.TreeMap.mem_toList_iff_getElem?_eq_some.mpr hk
    exact of_decide_eq_true (List.all_eq_true.mp hall _ hmem)
  exact ⟨tr, s, s', hrun, ⟨k, Std.TreeMap.mem_toList_iff_getElem?_eq_some.mp hmem⟩, hr,
    hclean [] s' .start⟩

/-- **A freed connection in a tree.** A DNS query of the low-interaction honeypot is switched to an
INTRA host. Its connection is removed, and `intra_tree1` still leads to it. -/
theorem deregistered_broken :
    ∃ tr s c s',
      Machine.Reaches (step (Sample.modules .accept) Sample.globals) Sample.dnsStart tr s ∧
      s.conns[1]? = some c ∧ c.initiator = .lih ∧ removeConn s 1 = .ok s' ∧
      ∃ k : ConnKey, (s'.connTree .intra1)[k]? = some 1 := by
  obtain ⟨tr, s, hrun, hp⟩ := Machine.exists_reaches
    (step (Sample.modules .accept) Sample.globals) Sample.dnsStart
    [.packet (Sample.query 1 10 60) 0]
    (fun r => (r.1.conns[1]?.any fun c => c.initiator = .lih) ∧
      (removeConn r.1 1).passes fun s' => s'.intraTree1.toList.any fun e => e.2 = 1)
    (by decide +kernel)
  obtain ⟨hc, hr⟩ := of_decide_eq_true hp
  obtain ⟨c, hc, hini⟩ := (Option.any_eq_true ..).mp hc
  obtain ⟨s', hr, hin⟩ := Except.passes_iff.mp hr
  obtain ⟨⟨k, j⟩, hmem, hj⟩ := List.any_eq_true.mp hin
  obtain rfl : j = 1 := of_decide_eq_true hj
  exact ⟨tr, s, c, s', hrun, hc, of_decide_eq_true hini, hr, k,
    Std.TreeMap.mem_toList_iff_getElem?_eq_some.mp hmem⟩

end Honeybrid
