import Honeybrid.Meetings
import Honeybrid.Lifecycle
import Honeybrid.Tables

/-!
# Sequence numbers of the two honeypots

A redirected TCP connection was opened with the low-interaction honeypot and goes on with another
one, whose sequence numbers start elsewhere. `de_thread` remembers the sequence number of the SYN of
the low-interaction honeypot until the connection is redirected, and computes `delta` from it on
each SYN of the high-interaction honeypot during the replay. The three places where the offset is
used add it, or subtract it by complement and increment.

## Main definitions

* `Meeting.lihSyn`, `Meeting.hihSyn`, `lastSeq`: the SYN segments the offset is computed from.
* `Captured`: the numbers a connection holds, after the packets it has met.
* `Translates c l h`: the connection carries sequence numbers over from `h` to `l` and back.
* `Conn.Hosted`: a redirected connection has a backend.

## Main results

* `Handles.sequenced`: what a packet does to the numbers.
* `captured_run`, `hosted_run`: the numbers and the backend in every run.
* `translation_exact`: the translation in every state after the two segments.
-/

namespace Honeybrid

variable {μ : Type} {mods : Modules μ} {g : Globals} {s s₁ : State μ} {i : ConnId} {pkt : Pkt}
  {w w' : Work μ} {ev : List Event} {c c' : Conn} {log l : List Meeting} {t : Target}

/-! ### What a packet does to the numbers -/

/-- The states in which the SYN of the low-interaction honeypot is remembered. -/
def ConnStatus.early : ConnStatus → Bool
  | .init | .decision | .control => true
  | _ => false

/-- What a packet does to the sequence numbers of a connection, and to its state. -/
structure Sequenced (pkt : Pkt) (c c' : Conn) : Prop where
  lih : c'.hih.lihSynSeq = if pkt.origin = .lih ∧ pkt.isSyn = true ∧ c.state.early = true then
    pkt.packet.tcp.seq else c.hih.lihSynSeq
  delta : c'.hih.delta = if pkt.origin = .hih ∧ pkt.isSyn = true ∧ c.state = .replay then
    c.hih.lihSynSeq - pkt.packet.tcp.seq else c.hih.delta
  state : (c.state.early = true ∧ c'.state ≠ .invalid) ∨
    (c.state.redirected = true ∧ c'.state.redirected = true) ∨
    (c'.state = c.state ∧ c.state.early = false)

theorem noteDelta_delta (pkt : Pkt) (c : Conn) :
    (noteDelta pkt c).hih.delta =
      if pkt.isSyn = true then c.hih.lihSynSeq - pkt.packet.tcp.seq else c.hih.delta := by
  unfold noteDelta
  split_ifs
  · rw [BitVec.sub_eq_add_neg, BitVec.neg_eq_not_add, BitVec.add_comm]
    rfl
  · rfl

/-- The rules leave the numbers alone, and lead from an early state to one that is not INVALID. -/
theorem deProcessPacket_numbers {status : Status} (hs : w.conn.state.early = true)
    (h : deProcessPacket mods i pkt g w = .ok (status, w', ev)) :
    w'.conn.hih.lihSynSeq = w.conn.hih.lihSynSeq ∧ w'.conn.hih.delta = w.conn.hih.delta ∧
      w'.conn.state ≠ .invalid := by
  obtain ⟨d, w₁, ev₁, ev₂, t, he, -, ha, -⟩ := deProcessPacket_cases h
  have hnum : w₁.conn.hih = w.conn.hih ∧ w₁.conn.state ≠ .invalid := by
    obtain hc | ⟨h', k, hc⟩ := (evaluate_run he).conn_cases
    · rw [hc]
      refine ⟨rfl, fun hi => ?_⟩
      rw [hi] at hs
      cases hs
    · rw [hc]
      exact ⟨rfl, by simp [Conn.switched]⟩
  obtain ⟨hhih, hvalid⟩ := hnum
  cases ha with
  | redirect hd hdec hr =>
    obtain ⟨h', key, rid, ed, -, -, rfl⟩ := setupRedirection_conn hr
    exact ⟨by simp [hhih], by simp [hhih], by simp⟩
  | controlFree | rejectDecision | rejectOther | drop =>
    simp [Conn.switchState, hhih]
  | initFree | acceptInit =>
    refine ⟨by simp [Conn.switchState, hhih], by simp [Conn.switchState, hhih], ?_⟩
    simp only [Conn.switchState]
    split_ifs <;> simp
  | _ => simp [hhih, hvalid]

/-- A packet that leaves the numbers and the state alone. -/
theorem Sequenced.same (hlih : pkt.origin = .lih → c.state.early = false)
    (hhih : pkt.origin = .hih → c.state ≠ .replay)
    (hstate : c.state.early = true → c.state ≠ .invalid) :
    Sequenced pkt c c where
  lih := by
    rw [if_neg]
    rintro ⟨ho, -, he⟩
    rw [hlih ho] at he
    cases he
  delta := by
    rw [if_neg]
    exact fun h => hhih h.1 h.2.2
  state := by
    cases he : c.state.early with
    | true => exact .inl ⟨rfl, hstate he⟩
    | false => exact .inr (.inr ⟨rfl, rfl⟩)

/-- A packet in an early state. -/
theorem Sequenced.ofEarly (hs : c.state.early = true)
    (hlih : c'.hih.lihSynSeq = if pkt.origin = .lih ∧ pkt.isSyn = true then pkt.packet.tcp.seq
      else c.hih.lihSynSeq)
    (hdelta : c'.hih.delta = c.hih.delta) (hstate : c'.state ≠ .invalid) : Sequenced pkt c c' where
  lih := by simp [hlih, hs]
  delta := by
    rw [hdelta, if_neg]
    rintro ⟨-, -, hr⟩
    rw [hr] at hs
    cases hs
  state := .inl ⟨hs, hstate⟩

theorem noteLihSyn_lihSynSeq (pkt : Pkt) (c : Conn) :
    (noteLihSyn pkt c).hih.lihSynSeq =
      if pkt.isSyn = true then pkt.packet.tcp.seq else c.hih.lihSynSeq := by
  unfold noteLihSyn
  split_ifs <;> rfl

theorem noteLihSyn_rest (pkt : Pkt) (c : Conn) :
    (noteLihSyn pkt c).hih.delta = c.hih.delta ∧ (noteLihSyn pkt c).state = c.state := by
  obtain ⟨n, h⟩ := noteLihSyn_conn pkt c
  rw [h]
  exact ⟨rfl, rfl⟩

/-- The packet of a low-interaction honeypot is submitted to the rules. -/
theorem Sequenced.ofLih {status : Status} (ho : pkt.origin = .lih) (hs : w.conn.state = .control)
    (hd : deProcessPacket mods i pkt g { w with conn := noteLihSyn pkt w.conn } =
      .ok (status, w', ev)) : Sequenced pkt w.conn w'.conn := by
  obtain ⟨hdelta, hstate⟩ := noteLihSyn_rest pkt w.conn
  obtain ⟨h₁, h₂, h₃⟩ := deProcessPacket_numbers
    (w := { w with conn := noteLihSyn pkt w.conn }) (by simp [hstate, hs, ConnStatus.early]) hd
  refine .ofEarly (by rw [hs]; rfl) ?_ (h₂.trans hdelta) h₃
  rw [h₁, noteLihSyn_lihSynSeq]
  simp [ho]

/-- The packet of another origin is submitted to the rules, the connection being taken to be in the
state `st`. -/
theorem Sequenced.ofOther {status : Status} {st : ConnStatus} (ho : pkt.origin ≠ .lih)
    (hs : w.conn.state.early = true) (hst : st.early = true)
    (hd : deProcessPacket mods i pkt g { w with conn := w.conn.switchState st } =
      .ok (status, w', ev)) : Sequenced pkt w.conn w'.conn := by
  obtain ⟨h₁, h₂, h₃⟩ := deProcessPacket_numbers
    (w := { w with conn := w.conn.switchState st }) hst hd
  exact .ofEarly hs (by rw [h₁]; simp [ho, Conn.switchState]) h₂ h₃

/-- Storing the packet makes no difference. -/
theorem Sequenced.keep (h : Sequenced pkt c c') (pkt' : Pkt) :
    Sequenced pkt c (keepPkt g t c' pkt') := by
  obtain ⟨b, hb⟩ := keepPkt_conn g t c' pkt'
  rw [hb]
  exact ⟨h.lih, h.delta, h.state⟩

/-- **Numbers.** What the dispatch of a packet does to the numbers of a connection. -/
theorem Handles.sequenced (hvalid : w.conn.state ≠ .invalid) (h : Handles mods g i pkt w w' ev) :
    Sequenced pkt w.conn w'.conn := by
  have hsame : w = { w with conn := w.conn.switchState w.conn.state } := rfl
  have hopen (hs : w.conn.state = .init ∨ w.conn.state = .decision ∨ w.conn.state = .invalid) :
      w.conn.state.early = true := by
    obtain hs | hs | hs := hs
    · rw [hs]; rfl
    · rw [hs]; rfl
    · exact absurd hs hvalid
  have hearly (hs : w.conn.state = .init ∨ w.conn.state = .decision) :
      w.conn.state.early = true := hopen (hs.imp_right .inl)
  have hext (ho : pkt.origin = .ext ∨ pkt.origin = .int) :
      pkt.origin ≠ .lih ∧ pkt.origin ≠ .hih := by
    obtain ho | ho := ho <;> simp [ho]
  cases h with
  | refused hs hev he =>
    have hs' := hs.resolve_left fun h => hvalid h.1
    exact .same (fun _ => by rw [hs']; rfl) (by simp [hs']) fun _ => hvalid
  | lihEarly ho hs ht hp =>
    obtain ⟨hdelta, hstate⟩ := noteLihSyn_rest pkt w.conn
    refine Sequenced.keep (.ofEarly (hearly hs) ?_ hdelta (hstate ▸ hvalid)) _
    rw [noteLihSyn_lihSynSeq]
    simp [ho]
  | lihProxy ho hs => exact .same (fun _ => by rw [hs]; rfl) (by simp [hs]) fun _ => hvalid
  | lihControlOk ho hs hd ht hp => exact .keep (.ofLih ho hs hd) _
  | lihControlNok ho hs hd ht => exact .keep (.ofLih ho hs hd) _
  | lihOther ho hs hev =>
    refine .same (fun _ => ?_) (by simp [ho]) fun _ => hvalid
    obtain hs | hs | hs := hs <;> rw [hs] <;> rfl
  | hihReplay ho hs hr =>
    obtain ⟨⟨_, _, _, _, _, hc⟩, hst, -⟩ := replay_frame hr
    obtain ⟨δ, hδ⟩ := noteDelta_conn pkt w.conn
    have hdelta := noteDelta_delta pkt w.conn
    refine ⟨?_, ?_, .inr (.inl ⟨by rw [hs]; rfl, ?_⟩)⟩
    · simp [hc, hδ, ho]
    · simp [hc, hdelta, ho, hs]
    · obtain hst | hst := hst
      · simp [hst, hδ, hs, ConnStatus.redirected]
      · simp [hst, ConnStatus.redirected]
  | hihForward ho hs ht hf => exact .same (by simp [ho]) (by simp [hs]) fun _ => hvalid
  | hihProxy ho hs hp => exact .same (by simp [ho]) (by simp [hs]) fun _ => hvalid
  | hihControlOk ho hs hd ht hp =>
    rw [hsame] at hd
    exact .ofOther (by simp [ho]) (by rw [hs]; rfl) (by rw [hs]; rfl) hd
  | hihControlNok ho hs hd =>
    rw [hsame] at hd
    exact .ofOther (by simp [ho]) (by rw [hs]; rfl) (by rw [hs]; rfl) hd
  | hihDeny ho hs hev =>
    exact .ofEarly (hopen hs) (by simp [ho, Conn.switchState]) rfl (by simp [Conn.switchState])
  | hihInitOk ho hs hd hp => exact .ofOther (by simp [ho]) (hopen hs) rfl hd
  | hihInitNok ho hs hd => exact .ofOther (by simp [ho]) (hopen hs) rfl hd
  | intraProxy ho hs hp => exact .same (by simp [ho]) (by simp [ho]) fun _ => hvalid
  | intraOther ho => exact .same (by simp [ho]) (by simp [ho]) fun _ => hvalid
  | extEarlyOk ho hs hd ht hp =>
    rw [hsame] at hd
    exact .keep (.ofOther (hext ho).1 (hearly hs) (hearly hs) hd) _
  | extEarlyNok ho hs hd ht =>
    rw [hsame] at hd
    exact .keep (.ofOther (hext ho).1 (hearly hs) (hearly hs) hd) _
  | extForward ho hs hf =>
    exact .same (fun h => absurd h (hext ho).1) (by simp [hs]) fun _ => hvalid
  | extProxy ho hs ht hp =>
    exact .same (fun h => absurd h (hext ho).1) (fun h => absurd h (hext ho).2) fun _ => hvalid
  | extOther ho hs =>
    exact .same (fun h => absurd h (hext ho).1) (fun h => absurd h (hext ho).2) fun _ => hvalid

/-! ### The segments the offset comes from -/

/-- A SYN of the low-interaction honeypot, before the connection is redirected. -/
def Meeting.lihSyn (m : Meeting) : Bool :=
  m.pkt.origin = .lih ∧ m.pkt.isSyn = true ∧ m.conn.state.redirected = false

/-- A SYN of the high-interaction honeypot during the replay. -/
def Meeting.hihSyn (m : Meeting) : Bool :=
  m.pkt.origin = .hih ∧ m.pkt.isSyn = true ∧ m.conn.state = .replay

/-- The sequence number of the last segment of a kind. -/
def lastSeq (p : Meeting → Bool) (l : List Meeting) : Option (BitVec 32) :=
  (l.filter p).getLast?.map fun m => m.pkt.packet.tcp.seq

theorem lastSeq_concat (p : Meeting → Bool) (l : List Meeting) (m : Meeting) :
    lastSeq p (l ++ [m]) = if p m = true then some m.pkt.packet.tcp.seq else lastSeq p l := by
  rw [lastSeq, List.filter_append]
  split_ifs with hp
  · simp [hp]
  · simp [hp, lastSeq]

/-- The numbers a connection holds, after the packets it has met. A connection in PROXY or DROP is
never redirected; its numbers are not used. -/
structure Captured (l : List Meeting) (c : Conn) : Prop where
  valid : c.state ≠ .invalid
  lih : c.state ≠ .proxy → c.state ≠ .drop → ∀ x, lastSeq Meeting.lihSyn l = some x →
    c.hih.lihSynSeq = x
  hih : ∀ x, lastSeq Meeting.hihSyn l = some x →
    c.state.redirected = true ∧ c.hih.delta = c.hih.lihSynSeq - x

theorem early_or (c : Conn) (hvalid : c.state ≠ .invalid) : c.state.early = true ∨
    c.state.redirected = true ∨ c.state = .proxy ∨ c.state = .drop := by
  cases hs : c.state <;> simp_all [ConnStatus.early, ConnStatus.redirected]

/-- A packet keeps the numbers. -/
theorem Captured.step (hC : Captured l c) (h : Sequenced pkt c c') :
    Captured (l ++ [⟨i, pkt, c⟩]) c' := by
  have hredirected (hr : c.state.redirected = true) :
      c.state.early = false ∧ c'.state.redirected = true := by
    have he : c.state.early = false := by
      cases hs : c.state <;> simp_all [ConnStatus.early, ConnStatus.redirected]
    obtain ⟨he', -⟩ | ⟨-, h'⟩ | ⟨h', -⟩ := h.state
    · simp [he] at he'
    · exact ⟨he, h'⟩
    · exact ⟨he, by rw [h', hr]⟩
  refine ⟨?_, fun hp hd x hx => ?_, fun x hx => ?_⟩
  · obtain ⟨-, h'⟩ | ⟨-, h'⟩ | ⟨h', -⟩ := h.state
    · exact h'
    · intro hi
      rw [hi] at h'
      cases h'
    · rw [h']
      exact hC.valid
  · have hlive : c.state ≠ .proxy ∧ c.state ≠ .drop := by
      obtain ⟨he, -⟩ | ⟨hr, -⟩ | ⟨h', -⟩ := h.state
      · constructor <;> intro hs <;> simp [hs, ConnStatus.early] at he
      · constructor <;> intro hs <;> simp [hs, ConnStatus.redirected] at hr
      · exact ⟨h' ▸ hp, h' ▸ hd⟩
    -- the segment is remembered exactly when it is one of those that count
    have hiff : Meeting.lihSyn ⟨i, pkt, c⟩ = true ↔
        pkt.origin = .lih ∧ pkt.isSyn = true ∧ c.state.early = true := by
      simp only [Meeting.lihSyn, decide_eq_true_eq]
      refine and_congr_right fun _ => and_congr_right fun _ => ⟨fun hr => ?_, fun he => ?_⟩
      · obtain he | hr' | hs | hs := early_or c hC.valid
        · exact he
        · simp [hr] at hr'
        · exact absurd hs hlive.1
        · exact absurd hs hlive.2
      · by_contra hr
        simp [(hredirected (by simpa using hr)).1] at he
    rw [lastSeq_concat] at hx
    rw [h.lih]
    split_ifs at hx with hm
    · rw [if_pos (hiff.mp hm)]
      exact Option.some.inj hx
    · rw [if_neg (mt hiff.mpr hm)]
      exact hC.lih hlive.1 hlive.2 x hx
  · rw [lastSeq_concat] at hx
    split_ifs at hx with hm
    · obtain ⟨ho, hsyn, hs⟩ : pkt.origin = .hih ∧ pkt.isSyn = true ∧ c.state = .replay := by
        simpa [Meeting.hihSyn] using hm
      refine ⟨(hredirected (by rw [hs]; rfl)).2, ?_⟩
      rw [h.delta, h.lih, if_pos ⟨ho, hsyn, hs⟩, if_neg (by simp [ho]), Option.some.inj hx]
    · obtain ⟨hr, hdelta⟩ := hC.hih x hx
      refine ⟨(hredirected hr).2, ?_⟩
      have hnot : ¬(pkt.origin = .hih ∧ pkt.isSyn = true ∧ c.state = .replay) := by
        simpa [Meeting.hihSyn] using hm
      rw [h.delta, h.lih, if_neg hnot, if_neg (by simp [(hredirected hr).1]), hdelta]

theorem Captured.update {role : Role} {now : ℤ} (hC : Captured l c) :
    Captured l (updateConn c role now) :=
  ⟨hC.valid, hC.lih, hC.hih⟩

theorem Creates.captured {pkt : Pkt} {r : TargetSearch} {now : ℤ} {role : Role} {s' : State μ}
    (h : Creates g s i t pkt r now role c s') : Captured [] c := by
  obtain ⟨-, -, hstart⟩ := h.start
  refine ⟨?_, fun _ _ _ hx => (nomatch hx), fun _ hx => nomatch hx⟩
  obtain ⟨-, hs, -⟩ | ⟨-, hs, -⟩ | ⟨-, hs, -⟩ := hstart <;> simp [hs]

section Runs

variable {targets : Std.TreeMap TargetId Target intcmp} {ifTarget : Std.TreeMap IfaceId TargetId}
  {mem : μ}

/-- **Numbers in a run.** -/
theorem captured_run
    (hrun : Machine.Logged (step mods g) (meeting g) (boot targets ifTarget mem) log s) :
    Followed Captured log s := by
  refine meetingInvariant Captured ?_ ?_ hrun
  · intro c c' l i pkt w s₁ ev now hC hc' hh
    subst hc'
    exact hC.update.step ((handle_cases hh).sequenced (w := ⟨s₁, _⟩) hC.valid)
  · intro c s s₁ t i pkt pkt₀ r now w ev hcr ho hh
    exact hcr.captured.step ((handle_cases hh).sequenced (w := ⟨s₁, c⟩) hcr.captured.valid)

/-- The numbers of a connection, as a packet finds it. -/
theorem captured_attributed {raw : RawPcap} {now : ℤ}
    (hrun : Machine.Logged (step mods g) (meeting g) (boot targets ifTarget mem) log s)
    (ha : assign g s raw now = .ok (s₁, some (i, pkt))) (hc : s₁.conns[i]? = some c) :
    Captured (meetingsOf i log) c := by
  have hF := captured_run hrun
  obtain ⟨hnone, -⟩ | ⟨i', pkt', c', heq, hc', hatt⟩ := assign_cases ha
  · cases hnone
  cases heq
  obtain rfl : c = c' := Option.some.inj (hc.symm.trans hc')
  cases hatt with
  | found hcap hpkt hlook hc₀ hs => exact (hF.holds i _ hc₀).update
  | created hcap hpkt hlook hid ht hi hcr =>
    rw [hF.meetingsOf_new hi]
    exact hcr.captured

end Runs

/-! ### The backend of a redirected connection -/

/-- A redirected connection has a backend. -/
def Conn.Hosted (c : Conn) : Prop :=
  c.state.redirected = true → ∃ back, c.hih.backHandler = some back

theorem hosted_of_state (h : c.state.redirected = false) : c.Hosted :=
  fun hr => absurd (h.symm.trans hr) Bool.false_ne_true

/-- A verdict that redirects a connection gives it a backend. -/
theorem deProcessPacket_hosted {status : Status} (hs : w.conn.state.redirected = false)
    (hd : deProcessPacket mods i pkt g w = .ok (status, w', ev)) : w'.conn.Hosted := by
  obtain ⟨d, w₁, ev₁, ev₂, t, he, -, ha, -⟩ := deProcessPacket_cases hd
  have hs₁ : w₁.conn.state.redirected = false := by
    obtain hc | ⟨h', k, hc⟩ := (evaluate_run he).conn_cases
    · rw [hc]
      exact hs
    · rw [hc]
      rfl
  cases ha with
  | redirect hd hdec hr =>
    obtain ⟨h', key, rid, ed, -, -, rfl⟩ := setupRedirection_conn hr
    exact fun _ => ⟨h', rfl⟩
  | initFree | acceptInit =>
    exact hosted_of_state (by simp only [Conn.switchState]; split_ifs <;> rfl)
  | controlFree | rejectDecision | rejectOther | drop => exact hosted_of_state rfl
  | _ => exact hosted_of_state hs₁

theorem Conn.Hosted.keep (h : c.Hosted) (pkt' : Pkt) : (keepPkt g t c pkt').Hosted := by
  obtain ⟨b, hb⟩ := keepPkt_conn g t c pkt'
  rw [hb]
  exact h

theorem Conn.Hosted.noteLihSyn (h : c.Hosted) : (noteLihSyn pkt c).Hosted := by
  obtain ⟨n, hn⟩ := noteLihSyn_conn pkt c
  rw [hn]
  exact h

/-- **Backends.** The dispatch of a packet leaves a redirected connection with a backend. -/
theorem Handles.hosted (hh : Handles mods g i pkt w w' ev) (h : w.conn.Hosted) :
    w'.conn.Hosted := by
  have hopen (hs : w.conn.state = .init ∨ w.conn.state = .decision ∨ w.conn.state = .invalid) :
      w.conn.state.redirected = false := by
    obtain hs | hs | hs := hs <;> rw [hs] <;> rfl
  have hsyn (hs : w.conn.state = .control) :
      (Honeybrid.noteLihSyn pkt w.conn).state.redirected = false := by
    rw [(noteLihSyn_rest pkt w.conn).2, hs]
    rfl
  cases hh with
  | lihEarly ho hs ht hp => exact .keep (.noteLihSyn h) _
  | lihControlOk ho hs hd ht hp => exact .keep (deProcessPacket_hosted (hsyn hs) hd) _
  | lihControlNok ho hs hd ht => exact .keep (deProcessPacket_hosted (hsyn hs) hd) _
  | hihReplay ho hs hr =>
    obtain ⟨⟨_, _, _, _, _, hc⟩, -, -⟩ := replay_frame hr
    obtain ⟨back, hback⟩ := h (by rw [hs]; rfl)
    obtain ⟨δ, hδ⟩ := noteDelta_conn pkt w.conn
    exact fun _ => ⟨back, by simp [hc, hδ, hback]⟩
  | hihControlOk ho hs hd ht hp => exact deProcessPacket_hosted (by rw [hs]; rfl) hd
  | hihControlNok ho hs hd => exact deProcessPacket_hosted (by rw [hs]; rfl) hd
  | hihDeny ho hs hev => exact hosted_of_state rfl
  | hihInitOk ho hs hd hp => exact deProcessPacket_hosted rfl hd
  | hihInitNok ho hs hd => exact deProcessPacket_hosted rfl hd
  | extEarlyOk ho hs hd ht hp =>
    exact .keep (deProcessPacket_hosted (hopen (hs.imp_right .inl)) hd) _
  | extEarlyNok ho hs hd ht =>
    exact .keep (deProcessPacket_hosted (hopen (hs.imp_right .inl)) hd) _
  | _ => exact h

/-- A new connection is not redirected. -/
theorem Creates.hosted {pkt : Pkt} {r : TargetSearch} {now : ℤ} {role : Role} {s' : State μ}
    (h : Creates g s i t pkt r now role c s') : c.Hosted := by
  refine hosted_of_state ?_
  obtain ⟨-, -, hstart⟩ := h.start
  obtain ⟨-, hs, -⟩ | ⟨-, hs, -⟩ | ⟨-, hs, -⟩ := hstart <;> rw [hs] <;> rfl

/-- In every run, a redirected connection has a backend. -/
theorem hosted_run {targets : Std.TreeMap TargetId Target intcmp}
    {ifTarget : Std.TreeMap IfaceId TargetId} {mem : μ}
    (hrun : Machine.Logged (step mods g) (meeting g) (boot targets ifTarget mem) log s) :
    Followed (fun _ c => c.Hosted) log s := by
  refine meetingInvariant (fun _ c => c.Hosted) ?_ ?_ hrun
  · intro c c' l i pkt w s₁ ev now hB hc' hh
    subst hc'
    exact (handle_cases hh).hosted (w := ⟨s₁, _⟩) hB
  · intro c s s₁ t i pkt pkt₀ r now w ev hcr ho hh
    exact (handle_cases hh).hosted (w := ⟨s₁, c⟩) hcr.hosted

/-! ### The translation -/

/-- The connection translates between the sequence numbers of a high-interaction honeypot, which
start at `h`, and those of the low-interaction one, which start at `l`: what is sent to EXT, if the
target has a default route, and what is sent to the backend. -/
structure Translates (c : Conn) (l h : BitVec 32) : Prop where
  hih2ext : ∀ t i pkt out, t.defaultRoute = some out → pkt.packet.protocol = IPPROTO_TCP →
    ∃ pkt' e, forwardHih2ext t i c pkt = .ok (pkt', [.emitted e]) ∧ e.out = out ∧
      e.frame = pkt'.packet ∧ pkt'.packet.tcp.seq = pkt.packet.tcp.seq - h + l
  ext2hih : ∃ back, c.hih.backHandler = some back ∧ ∀ g i pkt out, back.iface = some out →
    pkt.packet.protocol = IPPROTO_TCP → pkt.packet.tcp.ack = true →
    ∃ pkt' e, forwardExt2hih g i c pkt = .ok (pkt', [.emitted e]) ∧ e.out = out ∧
      e.frame = pkt'.packet ∧ pkt'.packet.tcp.ackSeq = pkt.packet.tcp.ackSeq - l + h
  expected : ∀ pkt, pkt.packet.protocol = IPPROTO_TCP →
    (defineExpectedData c pkt).expectedData.tcpSeq - h = pkt.packet.tcp.seq - l
  leftInverse : Function.LeftInverse (fun a : BitVec 32 => a - l + h) (fun x => x - h + l)
  rightInverse : Function.RightInverse (fun a : BitVec 32 => a - l + h) (fun x => x - h + l)

theorem forwardHih2ext_seq {pkt' : Pkt} {e : Emission}
    (hf : forwardHih2ext t i c pkt = .ok (pkt', ev)) (htcp : pkt.packet.protocol = IPPROTO_TCP)
    (he : .emitted e ∈ ev) : e.frame.tcp.seq = pkt.packet.tcp.seq + c.hih.delta := by
  -- the time stamps are in another field
  have hfix (h : TcpHdr) : (fixTcpTimestamps c h).seq = h.seq := by
    unfold fixTcpTimestamps
    split_ifs <;> rfl
  have hstrip (p : Pkt) : (stripVlan p).packet.tcp = p.packet.tcp ∧
      (stripVlan p).packet.protocol = p.packet.protocol := by
    unfold stripVlan
    split_ifs <;> exact ⟨rfl, rfl⟩
  unfold forwardHih2ext at hf
  split at hf
  · cases hf
    rw [inject, List.mem_singleton, Event.emitted.injEq] at he
    rw [he]
    simp only [(hstrip _).2, htcp, if_true, hfix, (hstrip _).1]
  · cases hf
    cases he

theorem forwardExt2hih_ackSeq {pkt' : Pkt} {e : Emission}
    (hf : forwardExt2hih g i c pkt = .ok (pkt', ev)) (htcp : pkt.packet.protocol = IPPROTO_TCP)
    (hack : pkt.packet.tcp.ack = true) (he : .emitted e ∈ ev) :
    e.frame.tcp.ackSeq = pkt.packet.tcp.ackSeq - c.hih.delta := by
  unfold forwardExt2hih at hf
  split at hf
  · obtain ⟨out, -, hf⟩ := Except.bind_eq_ok.mp hf
    cases hf
    rw [inject, List.mem_singleton, Event.emitted.injEq] at he
    rw [he]
    split_ifs <;> simp_all
  · cases hf
    cases he

theorem translates_of_delta {l h : BitVec 32} {back : Handler}
    (hback : c.hih.backHandler = some back)
    (hd : c.hih.delta = l - h) : Translates c l h where
  hih2ext := by
    intro t i pkt out hroute htcp
    obtain ⟨pkt', e, hf, -, hout, hframe⟩ := forwardHih2ext_emits i c pkt hroute
    refine ⟨pkt', e, hf, hout, hframe, ?_⟩
    rw [← hframe, forwardHih2ext_seq hf htcp List.mem_cons_self, hd]
    bv_omega
  ext2hih := by
    refine ⟨back, hback, fun g i pkt out hiface htcp hack => ?_⟩
    obtain ⟨pkt', e, hf, -, hout, hframe⟩ := forwardExt2hih_emits g i pkt hback hiface
    refine ⟨pkt', e, hf, hout, hframe, ?_⟩
    rw [← hframe, forwardExt2hih_ackSeq hf htcp hack List.mem_cons_self, hd]
    bv_omega
  expected := by
    intro pkt htcp
    rw [((definedFrom_defineExpectedData c pkt).2.2 htcp).1, hd]
    bv_omega
  leftInverse := by
    intro x
    show x - h + l - l + h = x
    bv_omega
  rightInverse := by
    intro a
    show a - l + h - h + l = a
    bv_omega

/-- **Translation of sequence numbers.** Let the last SYN of the low-interaction honeypot before the
redirection of a connection have the sequence number `l`, and let the last SYN of the
high-interaction honeypot during its replay have the sequence number `h`. Then the connection has a
backend, and translates between the two. -/
theorem translation_exact {targets : Std.TreeMap TargetId Target intcmp}
    {ifTarget : Std.TreeMap IfaceId TargetId} {mem : μ} {l h : BitVec 32}
    (hrun : Machine.Logged (step mods g) (meeting g) (boot targets ifTarget mem) log s)
    (hc : s.conns[i]? = some c) (hl : lastSeq Meeting.lihSyn (meetingsOf i log) = some l)
    (hh : lastSeq Meeting.hihSyn (meetingsOf i log) = some h) : Translates c l h := by
  have hC := (captured_run hrun).holds i c hc
  obtain ⟨hr, hdelta⟩ := hC.hih h hh
  have hlih := hC.lih (by rintro hs; simp [hs, ConnStatus.redirected] at hr)
    (by rintro hs; simp [hs, ConnStatus.redirected] at hr) l hl
  obtain ⟨back, hback⟩ := (hosted_run hrun).holds i c hc hr
  exact translates_of_delta hback (by rw [hdelta, hlih])

namespace Sample

/-- A TCP segment on the way of a UDP packet. -/
def tcp (raw : RawPcap) (seq ackSeq : BitVec 32) (syn : Bool) (payload : List (BitVec 8) := []) :
    RawPcap :=
  { raw with frame := { raw.frame with
      protocol := IPPROTO_TCP, totLen := BitVec.ofNat 16 (40 + payload.length), payload
      tcp := { seq, ackSeq, syn, ack := true } } }

/-- A TCP connection: the attacker and the low-interaction honeypot exchange their SYN, and the next
segment of the attacker redirects the connection. -/
def handshake : List Input :=
  [.packet (tcp (udp 0 50 1000 9 80) 100 0 true) 0,
    .packet (tcp (udp 1 10 80 50 1000) 700 101 true) 0,
    .packet (tcp (udp 0 50 1000 9 80) 101 701 false) 0]

/-- The SYN of the backend, with a sequence number close to wrapping around. -/
def backendSyn : Input :=
  .packet (tcp (udp 2 20 80 50 1000) 0xfffffffa 101 true) 0

/-- The segment that follows it. -/
def backendNext : Pkt :=
  packet .hih (tcp (udp 2 20 80 50 1000) 0xfffffffb 102 false)

end Sample

/-- A connection that was redirected from one honeypot to another: the next segment of the backend
is sent to the attacker, who sees 701. -/
theorem translation_handshake :
    ∃ log s c, Machine.Logged (step (Sample.modules .accept) Sample.globals)
        (meeting Sample.globals) Sample.start log s ∧ s.conns[1]? = some c ∧
      lastSeq Meeting.lihSyn (meetingsOf 1 log) = some 700 ∧
      lastSeq Meeting.hihSyn (meetingsOf 1 log) = some 0xfffffffa ∧
      Translates c 700 0xfffffffa ∧
      ∃ pkt' e, forwardHih2ext Sample.target 1 c Sample.backendNext = .ok (pkt', [.emitted e]) ∧
        e.out = 0 ∧ e.frame.tcp.seq = 701 := by
  have hrun : (do
      let r ← Machine.logOf (step (Sample.modules .accept) Sample.globals)
        (meeting Sample.globals) Sample.start (Sample.handshake ++ [Sample.backendSyn])
      let _ ← r.2.connAt 1
      return decide (lastSeq Meeting.lihSyn (meetingsOf 1 r.1) = some 700 ∧
        lastSeq Meeting.hihSyn (meetingsOf 1 r.1) = some 0xfffffffa) :
          Except Fault Bool).passes id = true := by
    decide +kernel
  obtain ⟨b, hrun, hb⟩ := Except.passes_iff.mp hrun
  obtain ⟨⟨log, s⟩, hlog, hrun⟩ := Except.bind_eq_ok.mp hrun
  obtain ⟨c, hc, hrun⟩ := Except.bind_eq_ok.mp hrun
  have hb' := Except.ok.inj hrun
  subst hb'
  obtain ⟨hl, hh⟩ : lastSeq Meeting.lihSyn (meetingsOf 1 log) = some 700 ∧
      lastSeq Meeting.hihSyn (meetingsOf 1 log) = some 0xfffffffa := by simpa using hb
  have hlogged := Machine.logged_of_logOf hlog
  have hconn := Option.orFail_eq_ok.mp hc
  have htrans := translation_exact hlogged hconn hl hh
  obtain ⟨pkt', e, hf, hout, hframe, hseq⟩ :=
    htrans.hih2ext Sample.target 1 Sample.backendNext 0 rfl rfl
  refine ⟨log, s, c, hlogged, hconn, hl, hh, htrans, pkt', e, hf, hout, ?_⟩
  rw [hframe, hseq]
  decide

end Honeybrid
