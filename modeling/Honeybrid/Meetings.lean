import Honeybrid.Lib.Logs
import Honeybrid.Executions

/-!
# The packets a connection meets

The log of a run notes every packet that is attributed to a connection, with the connection as the
packet finds it. Properties of a connection and of the packets it has met are proved about all runs
by looking at one packet at a time.

## Main definitions

* `Meeting`, `meeting`: a packet and the connection it finds, and the note taken of a step.
* `meetingsOf i log`: the packets the connection `i` has met.

## Main results

* `meetingInvariant`: the rule for properties of a connection and the packets it has met.
-/

namespace Honeybrid

/-- A packet that is attributed to a connection, and the connection as the packet finds it. -/
structure Meeting where
  id : ConnId
  pkt : Pkt
  conn : Conn
  deriving DecidableEq, Repr

/-- The note that is taken of a step. -/
def meeting {μ : Type} (g : Globals) (s : State μ) : Input → List Meeting
  | .packet raw now =>
    match assign g s raw now with
    | .ok (s₁, some (i, pkt)) => s₁.conns[i]?.toList.map fun c => ⟨i, pkt, c⟩
    | _ => []
  | .sweep .. => []

/-- The packets a connection has met. -/
def meetingsOf (i : ConnId) (log : List Meeting) : List Meeting :=
  log.filter (·.id = i)

variable {μ : Type} {mods : Modules μ} {g : Globals} {s s' s₁ : State μ} {i j : ConnId} {pkt : Pkt}
  {c : Conn} {raw : RawPcap} {now : ℤ} {log : List Meeting} {w : Work μ} {ev : List Event}

theorem meeting_packet (ha : assign g s raw now = .ok (s₁, some (i, pkt)))
    (hc : s₁.conns[i]? = some c) : meeting g s (.packet raw now) = [⟨i, pkt, c⟩] := by
  simp [meeting, ha, hc]

theorem meetingsOf_concat (m : Meeting) :
    meetingsOf i (log ++ [m]) = if m.id = i then meetingsOf i log ++ [m] else meetingsOf i log := by
  rw [meetingsOf, List.filter_append]
  split_ifs with h
  · simp [h, meetingsOf]
  · simp [h, meetingsOf]

/-- A step meets no packet and touches no connection except by removing it, or processes the packet
it meets. -/
theorem meeting_cases {inp : Input} {out : List Event} (h : step mods g s inp = .ok (s', out)) :
    (meeting g s inp = [] ∧ Quiet s s') ∨
    ∃ raw now s₁ i pkt c w ev, meeting g s inp = [⟨i, pkt, c⟩] ∧
      Attributed g s raw now s₁ i pkt c ∧ handle mods g i pkt ⟨s₁, c⟩ = .ok (w, ev) ∧
      s' = w.st.withConn i w.conn := by
  cases inp with
  | sweep now delay =>
    obtain ⟨s₁, hc, h⟩ := Except.bind_eq_ok.mp h
    cases h
    exact .inl ⟨rfl, clean_quiet hc⟩
  | packet raw now =>
    obtain ⟨⟨s₁, o⟩, ha, h⟩ := Except.bind_eq_ok.mp h
    obtain ⟨rfl, hq⟩ | ⟨i, pkt, c, rfl, hc, hatt⟩ := assign_cases ha
    · cases h
      exact .inl ⟨by simp [meeting, ha], hq⟩
    · obtain ⟨c', hc', h⟩ := Except.bind_eq_ok.mp h
      obtain rfl : c = c' := Option.some.inj (hc.symm.trans (Option.orFail_eq_ok.mp hc'))
      obtain ⟨⟨w, ev⟩, hh, h⟩ := Except.bind_eq_ok.mp h
      cases h
      exact .inr ⟨raw, now, s₁, i, pkt, c, w, ev, meeting_packet ha hc, hatt, hh, rfl⟩

/-- What holds along every run: numbers of connections are used once, and the property `P` of a
connection and the packets it has met. -/
structure Followed (P : List Meeting → Conn → Prop) (log : List Meeting) (s : State μ) : Prop where
  fresh : ∀ (j : ConnId) (c : Conn), s.conns[j]? = some c → j ≤ s.cId
  past : ∀ m ∈ log, m.id ≤ s.cId
  holds : ∀ (j : ConnId) (c : Conn), s.conns[j]? = some c → P (meetingsOf j log) c

variable {P : List Meeting → Conn → Prop}

theorem Followed.quiet (hF : Followed P log s) (hq : Quiet s s') : Followed P log s' where
  fresh := fun j c hj => Nat.le_trans (hF.fresh j c (hq.conns j c hj)) hq.cId
  past := fun m hm => Nat.le_trans (hF.past m hm) hq.cId
  holds := fun j c hj => hF.holds j c (hq.conns j c hj)

/-- A connection that is not there has met no packet if its number is new. -/
theorem Followed.meetingsOf_new (hF : Followed P log s) (hi : i = s.cId + 1) :
    meetingsOf i log = [] := by
  refine List.filter_eq_nil_iff.mpr fun m hm => ?_
  simp only [decide_eq_true_eq]
  rintro rfl
  have hle := hF.past m hm
  rw [hi] at hle
  exact Nat.not_succ_le_self _ hle

/-- A packet of the connection `i` keeps what is followed, if the property holds of this connection
afterwards. -/
theorem Followed.packet (hF : Followed P log s) (hatt : Attributed g s raw now s₁ i pkt c)
    (hh : handle mods g i pkt ⟨s₁, c⟩ = .ok (w, ev))
    (hP : P (meetingsOf i log ++ [⟨i, pkt, c⟩]) w.conn) :
    Followed P (log ++ [⟨i, pkt, c⟩]) (w.st.withConn i w.conn) := by
  obtain ⟨-, -, hle, -⟩ := hatt.frame
  have hH := handle_cases hh
  obtain ⟨hf, -⟩ := hH.framed
  have hcid : s.cId ≤ w.st.cId := Nat.le_trans hle (Nat.le_of_eq hf.cId.symm)
  have hi : i ≤ w.st.cId := by
    cases hatt with
    | found hcap hpkt hlook hc hs => exact Nat.le_trans (hF.fresh i _ hc) hcid
    | created hcap hpkt hlook hid ht hi hcr =>
      rw [hf.cId, hcr.frame.2.2.1]
      exact Nat.le_of_eq hi
  refine ⟨fun j cj hj => ?_, fun m hm => ?_, fun j cj hj => ?_⟩
  · by_cases hij : i = j
    · exact hij ▸ hi
    · rw [hatt.other hH hij] at hj
      exact Nat.le_trans (hF.fresh j cj hj) hcid
  · obtain hm | hm := List.mem_append.mp hm
    · exact Nat.le_trans (hF.past m hm) hcid
    · rw [List.mem_singleton.mp hm]
      exact hi
  · rw [meetingsOf_concat]
    split_ifs with hij
    · subst hij
      rw [withConn_conns, Std.TreeMap.lookup_insert, if_pos rfl, Option.some.injEq] at hj
      rw [← hj]
      exact hP
    · rw [hatt.other hH hij] at hj
      exact hF.holds j cj hj

/-- **Connections and the packets they meet.** A property of a connection and of the packets it has
met holds along every run if each packet leaves it true of its connection, whether the connection
was there before or is new. -/
theorem meetingInvariant {targets : Std.TreeMap TargetId Target intcmp}
    {ifTarget : Std.TreeMap IfaceId TargetId} {mem : μ} (P : List Meeting → Conn → Prop)
    (hfound : ∀ {c c' : Conn} {l : List Meeting} {i : ConnId} {pkt : Pkt} {w : Work μ}
      {s₁ : State μ} {ev : List Event} {now : ℤ}, P l c →
      c' = updateConn c pkt.origin now → handle mods g i pkt ⟨s₁, c'⟩ = .ok (w, ev) →
      P (l ++ [⟨i, pkt, c'⟩]) w.conn)
    (hcreated : ∀ {c : Conn} {s s₁ : State μ} {t : Target} {i : ConnId} {pkt pkt₀ : Pkt}
      {r : TargetSearch} {now : ℤ} {w : Work μ} {ev : List Event},
      Creates g s i t pkt₀ r now r.origin c s₁ → pkt.origin = r.origin →
      handle mods g i pkt ⟨s₁, c⟩ = .ok (w, ev) → P [⟨i, pkt, c⟩] w.conn)
    (hrun : Machine.Logged (step mods g) (meeting g) (boot targets ifTarget mem) log s) :
    Followed P log s := by
  refine hrun.invariant (Followed P) ⟨by simp [boot], by simp, by simp [boot]⟩ ?_
  intro log s inp s' out hF hstep
  obtain ⟨hm, hq⟩ | ⟨raw, now, s₁, i, pkt, c, w, ev, hm, hatt, hh, rfl⟩ := meeting_cases hstep
  · rw [hm, List.append_nil]
    exact hF.quiet hq
  · rw [hm]
    refine hF.packet hatt hh ?_
    cases hatt with
    | found hcap hpkt hlook hc₀ hs => exact hfound (hF.holds i _ hc₀) rfl hh
    | created hcap hpkt hlook hid ht hi hcr =>
      rw [hF.meetingsOf_new hi]
      exact hcreated hcr (by rw [hpkt]) hh

end Honeybrid
