import Honeybrid.Emissions
import Honeybrid.Engine
import Honeybrid.Verdicts
import Honeybrid.Redirection

/-!
# What the dispatch of a packet can do

`de_thread` dispatches a packet by its origin and the state of its connection. `Handles` has one
constructor for each exit of this dispatch; every execution of `handle` is one of them. The frame
of the dispatch follows: it touches neither the table of connections nor the fixed part of the
targets, keeps the flow of the connection, and everything it shows is about that connection.

## Main definitions

* `Handles`: the exits of the dispatch.
* `Relayed`: the branches in which a packet is carried between EXT and a honeypot.
* `Event.id?`, `Event.arrived`: the connection an event is about, and the packets of EXT that
  arrive.

## Main results

* `handle_cases`: every execution of `handle` takes one of the exits.
* `Handles.framed`, `Handles.shown`: the frame of the dispatch.
* `Handles.relayed`: what is carried between EXT and a honeypot is sent in one of these branches.
-/

namespace Honeybrid

variable {μ : Type} {mods : Modules μ} {g : Globals} {i : ConnId} {pkt : Pkt} {w w' : Work μ}
  {ev : List Event} {t : Target} {c c' : Conn}

/-- The exits of the dispatch of a packet. -/
inductive Handles (mods : Modules μ) (g : Globals) (i : ConnId) (pkt : Pkt) (w : Work μ) :
    Work μ → List Event → Prop
  | refused {ev : List Event}
      (hs : (w.conn.state = .invalid ∧ pkt.origin = .ext) ∨ w.conn.state = .drop)
      (hev : Resets i ev)
      (hext : ∀ e, .emitted e ∈ ev → pkt.origin = .ext ∧ g.resetExt = 1 ∧ e.pkt = pkt ∧
        e.conn = w.conn ∧ e.frame = resetFrame pkt.original ∧
        ∃ t, w.st.targets[w.conn.target]? = some t ∧ t.defaultRoute = some e.out) :
      Handles mods g i pkt w w ev
  | lihEarly {t : Target} {pkt' : Pkt} {ev : List Event} (ho : pkt.origin = .lih)
      (hs : w.conn.state = .init ∨ w.conn.state = .decision)
      (ht : w.st.targets[w.conn.target]? = some t)
      (hp : proxyInt2ext g t i (noteLihSyn pkt w.conn) pkt = .ok (pkt', ev)) :
      Handles mods g i pkt w { w with conn := keepPkt g t (noteLihSyn pkt w.conn) pkt' } ev
  | lihProxy {t : Target} {pkt' : Pkt} {ev : List Event} (ho : pkt.origin = .lih)
      (hs : w.conn.state = .proxy) (ht : w.st.targets[w.conn.target]? = some t)
      (hp : proxyInt2ext g t i w.conn pkt = .ok (pkt', ev)) :
      Handles mods g i pkt w w ev
  | lihControlOk {w₁ : Work μ} {t : Target} {pkt' : Pkt} {ev₁ ev₂ : List Event}
      (ho : pkt.origin = .lih) (hs : w.conn.state = .control)
      (hd : deProcessPacket mods i pkt g { w with conn := noteLihSyn pkt w.conn } =
        .ok (.ok, w₁, ev₁))
      (ht : w₁.st.targets[w₁.conn.target]? = some t)
      (hp : proxyInt2ext g t i w₁.conn pkt = .ok (pkt', ev₂)) :
      Handles mods g i pkt w { w₁ with conn := keepPkt g t w₁.conn pkt' } (ev₁ ++ ev₂)
  | lihControlNok {w₁ : Work μ} {t : Target} {ev : List Event}
      (ho : pkt.origin = .lih) (hs : w.conn.state = .control)
      (hd : deProcessPacket mods i pkt g { w with conn := noteLihSyn pkt w.conn } =
        .ok (.nok, w₁, ev))
      (ht : w₁.st.targets[w₁.conn.target]? = some t) :
      Handles mods g i pkt w { w₁ with conn := keepPkt g t w₁.conn pkt } ev
  | lihOther {ev : List Event} (ho : pkt.origin = .lih)
      (hs : w.conn.state = .replay ∨ w.conn.state = .forward ∨ w.conn.state = .invalid)
      (hev : Resets i ev) : Handles mods g i pkt w w ev
  | hihReplay {c : Conn} {ev : List Event} (ho : pkt.origin = .hih) (hs : w.conn.state = .replay)
      (hr : replay g i (noteDelta pkt w.conn) pkt = .ok (c, ev)) :
      Handles mods g i pkt w { w with conn := c } ev
  | hihForward {t : Target} {pkt' : Pkt} {ev : List Event} (ho : pkt.origin = .hih)
      (hs : w.conn.state = .forward) (ht : w.st.targets[w.conn.target]? = some t)
      (hf : forwardHih2ext t i w.conn pkt = .ok (pkt', ev)) : Handles mods g i pkt w w ev
  | hihProxy {ev : List Event} (ho : pkt.origin = .hih) (hs : w.conn.state = .proxy)
      (hp : proxyHih g i pkt w = .ok ev) : Handles mods g i pkt w w ev
  | hihControlOk {w₁ : Work μ} {t : Target} {pkt' : Pkt} {ev₁ ev₂ : List Event}
      (ho : pkt.origin = .hih) (hs : w.conn.state = .control)
      (hd : deProcessPacket mods i pkt g w = .ok (.ok, w₁, ev₁))
      (ht : w₁.st.targets[w₁.conn.target]? = some t)
      (hp : proxyInt2ext g t i w₁.conn pkt = .ok (pkt', ev₂)) :
      Handles mods g i pkt w w₁ (ev₁ ++ ev₂)
  | hihControlNok {w₁ : Work μ} {ev : List Event} (ho : pkt.origin = .hih)
      (hs : w.conn.state = .control) (hd : deProcessPacket mods i pkt g w = .ok (.nok, w₁, ev)) :
      Handles mods g i pkt w w₁ ev
  | hihDeny {ev : List Event} (ho : pkt.origin = .hih)
      (hs : w.conn.state = .init ∨ w.conn.state = .decision ∨ w.conn.state = .invalid)
      (hev : Resets i ev) :
      Handles mods g i pkt w { w with conn := w.conn.switchState .drop } ev
  | hihInitOk {w₁ : Work μ} {ev₁ ev₂ : List Event} (ho : pkt.origin = .hih)
      (hs : w.conn.state = .init ∨ w.conn.state = .decision ∨ w.conn.state = .invalid)
      (hd : deProcessPacket mods i pkt g { w with conn := w.conn.switchState .control } =
        .ok (.ok, w₁, ev₁))
      (hp : proxyHih g i pkt w₁ = .ok ev₂) : Handles mods g i pkt w w₁ (ev₁ ++ ev₂)
  | hihInitNok {w₁ : Work μ} {ev : List Event} (ho : pkt.origin = .hih)
      (hs : w.conn.state = .init ∨ w.conn.state = .decision ∨ w.conn.state = .invalid)
      (hd : deProcessPacket mods i pkt g { w with conn := w.conn.switchState .control } =
        .ok (.nok, w₁, ev)) : Handles mods g i pkt w w₁ ev
  | intraProxy {pkt' : Pkt} {ev : List Event} (ho : pkt.origin = .intra)
      (hs : w.conn.state = .proxy) (hp : proxyIntra2hih g i w.conn pkt = .ok (pkt', ev)) :
      Handles mods g i pkt w w ev
  | intraOther (ho : pkt.origin = .intra) : Handles mods g i pkt w w []
  | extEarlyOk {w₁ : Work μ} {t : Target} {pkt' : Pkt} {ev₁ ev₂ : List Event}
      (ho : pkt.origin = .ext ∨ pkt.origin = .int)
      (hs : w.conn.state = .init ∨ w.conn.state = .decision)
      (hd : deProcessPacket mods i pkt g w = .ok (.ok, w₁, ev₁))
      (ht : w₁.st.targets[w₁.conn.target]? = some t)
      (hp : proxyExt2int g t i w₁.conn pkt = .ok (pkt', ev₂)) :
      Handles mods g i pkt w { w₁ with conn := keepPkt g t w₁.conn pkt' } (ev₁ ++ ev₂)
  | extEarlyNok {w₁ : Work μ} {t : Target} {ev : List Event}
      (ho : pkt.origin = .ext ∨ pkt.origin = .int)
      (hs : w.conn.state = .init ∨ w.conn.state = .decision)
      (hd : deProcessPacket mods i pkt g w = .ok (.nok, w₁, ev))
      (ht : w₁.st.targets[w₁.conn.target]? = some t) :
      Handles mods g i pkt w { w₁ with conn := keepPkt g t w₁.conn pkt } ev
  | extForward {pkt' : Pkt} {ev : List Event} (ho : pkt.origin = .ext ∨ pkt.origin = .int)
      (hs : w.conn.state = .forward) (hf : forwardExt2hih g i w.conn pkt = .ok (pkt', ev)) :
      Handles mods g i pkt w w ev
  | extProxy {t : Target} {pkt' : Pkt} {ev : List Event}
      (ho : pkt.origin = .ext ∨ pkt.origin = .int)
      (hs : w.conn.state = .proxy ∨ w.conn.state = .control)
      (ht : w.st.targets[w.conn.target]? = some t)
      (hp : proxyExt2int g t i w.conn pkt = .ok (pkt', ev)) : Handles mods g i pkt w w ev
  | extOther (ho : pkt.origin = .ext ∨ pkt.origin = .int)
      (hs : w.conn.state = .replay ∨ w.conn.state = .invalid) : Handles mods g i pkt w w []

theorem noteLihSyn_target (pkt : Pkt) (c : Conn) : (noteLihSyn pkt c).target = c.target := by
  unfold noteLihSyn
  split_ifs <;> rfl

theorem relayLih_cases (ho : pkt.origin = .lih)
    (hs : w.conn.state = .init ∨ w.conn.state = .decision)
    (h : relayLih g i pkt w = .ok (w', ev)) : Handles mods g i pkt w w' ev := by
  simp only [relayLih] at h
  obtain ⟨t, ht, h⟩ := Except.bind_eq_ok.mp h
  obtain ⟨⟨pkt', ev₁⟩, hp, h⟩ := Except.bind_eq_ok.mp h
  cases h
  have ht' := Option.orFail_eq_ok.mp ht
  rw [noteLihSyn_target] at ht'
  exact .lihEarly ho hs ht' hp

theorem resetAtWrongState_cases (ho : pkt.origin = .lih)
    (hs : w.conn.state = .replay ∨ w.conn.state = .forward ∨ w.conn.state = .invalid)
    (h : resetAtWrongState i pkt w = .ok (w', ev)) : Handles mods g i pkt w w' ev := by
  simp only [resetAtWrongState] at h
  split_ifs at h
  · obtain ⟨t, -, h⟩ := Except.bind_eq_ok.mp h
    obtain ⟨front, -, h⟩ := Except.bind_eq_ok.mp h
    cases h
    exact .lihOther ho hs (resets_replyReset _ _ _ _)
  · cases h
    exact .lihOther ho hs Resets.nil

theorem dispatchLih_cases (ho : pkt.origin = .lih) (hdrop : w.conn.state ≠ .drop)
    (h : dispatchLih mods g i pkt w = .ok (w', ev)) : Handles mods g i pkt w w' ev := by
  unfold dispatchLih at h
  cases hs : w.conn.state with
  | init =>
    rw [hs] at h
    exact relayLih_cases ho (.inl hs) h
  | decision =>
    rw [hs] at h
    exact relayLih_cases ho (.inr hs) h
  | proxy =>
    rw [hs] at h
    obtain ⟨t, ht, h⟩ := Except.bind_eq_ok.mp h
    obtain ⟨⟨pkt', ev₁⟩, hp, h⟩ := Except.bind_eq_ok.mp h
    cases h
    exact .lihProxy ho hs (Option.orFail_eq_ok.mp ht) hp
  | control =>
    rw [hs] at h
    obtain ⟨⟨status, w₁, ev₁⟩, hd, h⟩ := Except.bind_eq_ok.mp h
    obtain ⟨t, ht, h⟩ := Except.bind_eq_ok.mp h
    cases status with
    | ok =>
      obtain ⟨⟨pkt', ev₂⟩, hp, h⟩ := Except.bind_eq_ok.mp h
      cases h
      exact .lihControlOk ho hs hd (Option.orFail_eq_ok.mp ht) hp
    | nok =>
      cases h
      exact .lihControlNok ho hs hd (Option.orFail_eq_ok.mp ht)
  | drop => exact absurd hs hdrop
  | replay =>
    rw [hs] at h
    exact resetAtWrongState_cases ho (.inl hs) h
  | forward =>
    rw [hs] at h
    exact resetAtWrongState_cases ho (.inr (.inl hs)) h
  | invalid =>
    rw [hs] at h
    exact resetAtWrongState_cases ho (.inr (.inr hs)) h

theorem openHih_cases (ho : pkt.origin = .hih)
    (hs : w.conn.state = .init ∨ w.conn.state = .decision ∨ w.conn.state = .invalid)
    (h : openHih mods g i pkt w = .ok (w', ev)) : Handles mods g i pkt w w' ev := by
  simp only [openHih] at h
  split_ifs at h
  · obtain ⟨h', -, h⟩ := Except.bind_eq_ok.mp h
    cases h
    exact .hihDeny ho hs (resets_replyReset _ _ _ _)
  · cases h
    exact .hihDeny ho hs Resets.nil
  · obtain ⟨⟨status, w₁, ev₁⟩, hd, h⟩ := Except.bind_eq_ok.mp h
    cases status with
    | ok =>
      obtain ⟨ev₂, hp, h⟩ := Except.bind_eq_ok.mp h
      cases h
      exact .hihInitOk ho hs hd hp
    | nok =>
      cases h
      exact .hihInitNok ho hs hd

theorem dispatchHih_cases (ho : pkt.origin = .hih) (hdrop : w.conn.state ≠ .drop)
    (h : dispatchHih mods g i pkt w = .ok (w', ev)) : Handles mods g i pkt w w' ev := by
  unfold dispatchHih at h
  cases hs : w.conn.state with
  | replay =>
    rw [hs] at h
    obtain ⟨⟨c, ev₁⟩, hr, h⟩ := Except.bind_eq_ok.mp h
    cases h
    exact .hihReplay ho hs hr
  | forward =>
    rw [hs] at h
    obtain ⟨t, ht, h⟩ := Except.bind_eq_ok.mp h
    obtain ⟨⟨pkt', ev₁⟩, hf, h⟩ := Except.bind_eq_ok.mp h
    cases h
    exact .hihForward ho hs (Option.orFail_eq_ok.mp ht) hf
  | proxy =>
    rw [hs] at h
    obtain ⟨ev₁, hp, h⟩ := Except.bind_eq_ok.mp h
    cases h
    exact .hihProxy ho hs hp
  | control =>
    rw [hs] at h
    obtain ⟨⟨status, w₁, ev₁⟩, hd, h⟩ := Except.bind_eq_ok.mp h
    cases status with
    | ok =>
      obtain ⟨t, ht, h⟩ := Except.bind_eq_ok.mp h
      obtain ⟨⟨pkt', ev₂⟩, hp, h⟩ := Except.bind_eq_ok.mp h
      cases h
      exact .hihControlOk ho hs hd (Option.orFail_eq_ok.mp ht) hp
    | nok =>
      cases h
      exact .hihControlNok ho hs hd
  | drop => exact absurd hs hdrop
  | init =>
    rw [hs] at h
    exact openHih_cases ho (.inl hs) h
  | decision =>
    rw [hs] at h
    exact openHih_cases ho (.inr (.inl hs)) h
  | invalid =>
    rw [hs] at h
    exact openHih_cases ho (.inr (.inr hs)) h

theorem dispatchIntra_cases (ho : pkt.origin = .intra)
    (h : dispatchIntra g i pkt w = .ok (w', ev)) : Handles mods g i pkt w w' ev := by
  unfold dispatchIntra at h
  split at h
  · rename_i hs
    obtain ⟨⟨pkt', ev₁⟩, hp, h⟩ := Except.bind_eq_ok.mp h
    cases h
    exact .intraProxy ho hs hp
  · cases h
    exact .intraOther ho

theorem decideExt_cases (ho : pkt.origin = .ext ∨ pkt.origin = .int)
    (hs : w.conn.state = .init ∨ w.conn.state = .decision)
    (h : decideExt mods g i pkt w = .ok (w', ev)) : Handles mods g i pkt w w' ev := by
  simp only [decideExt] at h
  obtain ⟨⟨status, w₁, ev₁⟩, hd, h⟩ := Except.bind_eq_ok.mp h
  obtain ⟨t, ht, h⟩ := Except.bind_eq_ok.mp h
  cases status with
  | ok =>
    obtain ⟨⟨pkt', ev₂⟩, hp, h⟩ := Except.bind_eq_ok.mp h
    cases h
    exact .extEarlyOk ho hs hd (Option.orFail_eq_ok.mp ht) hp
  | nok =>
    cases h
    exact .extEarlyNok ho hs hd (Option.orFail_eq_ok.mp ht)

theorem relayExt_cases (ho : pkt.origin = .ext ∨ pkt.origin = .int)
    (hs : w.conn.state = .proxy ∨ w.conn.state = .control)
    (h : relayExt g i pkt w = .ok (w', ev)) : Handles mods g i pkt w w' ev := by
  simp only [relayExt] at h
  obtain ⟨t, ht, h⟩ := Except.bind_eq_ok.mp h
  obtain ⟨⟨pkt', ev₁⟩, hp, h⟩ := Except.bind_eq_ok.mp h
  cases h
  exact .extProxy ho hs (Option.orFail_eq_ok.mp ht) hp

theorem dispatchExt_cases (ho : pkt.origin = .ext ∨ pkt.origin = .int)
    (hdrop : w.conn.state ≠ .drop) (h : dispatchExt mods g i pkt w = .ok (w', ev)) :
    Handles mods g i pkt w w' ev := by
  unfold dispatchExt at h
  cases hs : w.conn.state with
  | init =>
    rw [hs] at h
    exact decideExt_cases ho (.inl hs) h
  | decision =>
    rw [hs] at h
    exact decideExt_cases ho (.inr hs) h
  | forward =>
    rw [hs] at h
    obtain ⟨⟨pkt', ev₁⟩, hf, h⟩ := Except.bind_eq_ok.mp h
    cases h
    exact .extForward ho hs hf
  | proxy =>
    rw [hs] at h
    exact relayExt_cases ho (.inl hs) h
  | control =>
    rw [hs] at h
    exact relayExt_cases ho (.inr hs) h
  | drop => exact absurd hs hdrop
  | replay =>
    rw [hs] at h
    cases h
    exact .extOther ho (.inl hs)
  | invalid =>
    rw [hs] at h
    cases h
    exact .extOther ho (.inr hs)

/-- **The dispatch.** Every execution of `handle` takes one of the exits `Handles`. -/
theorem handle_cases (h : handle mods g i pkt w = .ok (w', ev)) :
    Handles mods g i pkt w w' ev := by
  unfold handle at h
  split_ifs at h with href
  · simp only [refuse] at h
    split_ifs at h with hrst
    · obtain ⟨t, ht, h⟩ := Except.bind_eq_ok.mp h
      cases h
      refine .refused href (resets_replyReset _ _ _ _) fun e he => ?_
      cases hr : t.defaultRoute with
      | none =>
        rw [hr] at he
        cases he
      | some out =>
        simp only [hr, replyReset, List.mem_singleton, Event.emitted.injEq] at he
        subst he
        exact ⟨hrst.1, hrst.2.2, rfl, rfl, rfl, t, Option.orFail_eq_ok.mp ht, hr⟩
    · cases h
      exact .refused href Resets.nil (by simp)
  · have hdrop : w.conn.state ≠ .drop := fun hd => href (.inr hd)
    cases ho : pkt.origin with
    | lih =>
      rw [ho] at h
      exact dispatchLih_cases ho hdrop h
    | hih =>
      rw [ho] at h
      exact dispatchHih_cases ho hdrop h
    | intra =>
      rw [ho] at h
      exact dispatchIntra_cases ho h
    | ext =>
      rw [ho] at h
      exact dispatchExt_cases (.inl ho) hdrop h
    | int =>
      rw [ho] at h
      exact dispatchExt_cases (.inr ho) hdrop h

/-! ### The frame of the dispatch -/

theorem storePkt_cases (g : Globals) (c : Conn) (pkt : Pkt) :
    (c.buffer.length < g.maxPacketBuffer ∧
      storePkt g c pkt = { c with buffer := c.buffer ++ [pkt] })
    ∨ (g.maxPacketBuffer ≤ c.buffer.length ∧ storePkt g c pkt = c) := by
  unfold storePkt
  split_ifs with h
  · exact .inl ⟨h, rfl⟩
  · exact .inr ⟨Nat.le_of_not_lt h, rfl⟩

/-- Storing a packet changes the buffer only. -/
theorem keepPkt_conn (g : Globals) (t : Target) (c : Conn) (pkt : Pkt) :
    ∃ buffer, keepPkt g t c pkt = { c with buffer } := by
  unfold keepPkt
  split_ifs
  · obtain ⟨-, h⟩ | ⟨-, h⟩ := storePkt_cases g c pkt
    · exact ⟨_, h⟩
    · exact ⟨c.buffer, h⟩
  · exact ⟨c.buffer, rfl⟩

theorem noteLihSyn_conn (pkt : Pkt) (c : Conn) :
    ∃ lihSynSeq, noteLihSyn pkt c = { c with hih := { c.hih with lihSynSeq } } := by
  unfold noteLihSyn
  split_ifs
  · exact ⟨_, rfl⟩
  · exact ⟨c.hih.lihSynSeq, rfl⟩

theorem noteDelta_conn (pkt : Pkt) (c : Conn) :
    ∃ delta, noteDelta pkt c = { c with hih := { c.hih with delta } } := by
  unfold noteDelta
  split_ifs
  · exact ⟨_, rfl⟩
  · exact ⟨c.hih.delta, rfl⟩

theorem keepPkt_flow (g : Globals) (t : Target) (c : Conn) (pkt : Pkt) :
    (keepPkt g t c pkt).flow = c.flow := by
  obtain ⟨b, h⟩ := keepPkt_conn g t c pkt
  rw [h]
  rfl

theorem noteLihSyn_flow (pkt : Pkt) (c : Conn) : (noteLihSyn pkt c).flow = c.flow := by
  obtain ⟨b, h⟩ := noteLihSyn_conn pkt c
  rw [h]
  rfl

theorem RuleRun.flow {b : Bool} (h : RuleRun i b w w') : w'.conn.flow = w.conn.flow := by
  obtain hc | ⟨h', k, hc⟩ := h.conn_cases
  · rw [hc]
  · rw [hc]
    rfl

theorem framed_setPin (s : State μ) (tree : PinTree) (k : PinKey) (p : Pin) :
    Framed s (setPin s tree k p) :=
  ⟨setPin_conns s tree k p, setPin_cId s tree k p, setPin_ifTarget s tree k p,
    fun id => by rw [setPin_targets]⟩

/-- A verdict keeps the frame and the flow. -/
theorem Acts.framed {d : DecisionHolder} {status : Status} (h : Acts g i t d w status w' ev) :
    Framed w.st w'.st ∧ w'.conn.flow = w.conn.flow := by
  cases h with
  | redirect hd hs hr =>
    obtain ⟨h, key, rid, ed, -, -, rfl⟩ := setupRedirection_conn hr
    obtain ⟨h', s₁, c₁, -, -, ha, rfl, -⟩ := setupRedirection_cases hr
    refine ⟨?_, rfl⟩
    obtain ⟨-, ⟨-, rfl, -⟩ | ⟨-, p, htake, -⟩⟩ := acquireTarget_cases ha
    · exact ⟨rfl, rfl, rfl, fun _ => rfl⟩
    · rw [htake.eq]
      have hf := framed_setPin w.st .target (targetPinKey h') p
      exact ⟨hf.conns, hf.cId, hf.ifTarget, hf.targets⟩
  | _ => exact ⟨Framed.refl _, rfl⟩

theorem deProcessPacket_framed {status : Status}
    (h : deProcessPacket mods i pkt g w = .ok (status, w', ev)) :
    Framed w.st w'.st ∧ w'.conn.flow = w.conn.flow := by
  obtain ⟨d, w₁, ev₁, ev₂, t, he, -, ha, -⟩ := deProcessPacket_cases h
  have hrun := evaluate_run he
  exact ⟨hrun.framed.trans ha.framed.1, ha.framed.2.trans hrun.flow⟩

/-- The dispatch keeps the frame, and the connection stays about the same flow. -/
theorem Handles.framed (h : Handles mods g i pkt w w' ev) :
    Framed w.st w'.st ∧ w'.conn.flow = w.conn.flow := by
  cases h with
  | lihEarly ho hs ht hp =>
    exact ⟨Framed.refl _, (keepPkt_flow ..).trans (noteLihSyn_flow ..)⟩
  | lihControlOk ho hs hd ht hp =>
    have hf := deProcessPacket_framed hd
    exact ⟨hf.1, (keepPkt_flow ..).trans (hf.2.trans (noteLihSyn_flow ..))⟩
  | lihControlNok ho hs hd ht =>
    have hf := deProcessPacket_framed hd
    exact ⟨hf.1, (keepPkt_flow ..).trans (hf.2.trans (noteLihSyn_flow ..))⟩
  | hihReplay ho hs hr =>
    obtain ⟨⟨_, _, _, _, _, rfl⟩, -⟩ := replay_frame hr
    obtain ⟨d, hd⟩ := noteDelta_conn pkt w.conn
    rw [hd]
    exact ⟨Framed.refl _, rfl⟩
  | hihControlOk ho hs hd ht hp => exact deProcessPacket_framed hd
  | hihControlNok ho hs hd => exact deProcessPacket_framed hd
  | hihInitOk ho hs hd hp =>
    have hf := deProcessPacket_framed hd
    exact ⟨hf.1, hf.2⟩
  | hihInitNok ho hs hd =>
    have hf := deProcessPacket_framed hd
    exact ⟨hf.1, hf.2⟩
  | extEarlyOk ho hs hd ht hp =>
    have hf := deProcessPacket_framed hd
    exact ⟨hf.1, (keepPkt_flow ..).trans hf.2⟩
  | extEarlyNok ho hs hd ht =>
    have hf := deProcessPacket_framed hd
    exact ⟨hf.1, (keepPkt_flow ..).trans hf.2⟩
  | _ => exact ⟨Framed.refl _, rfl⟩

/-! ### Events -/

/-- The connection an event is about. -/
def Event.id? : Event → Option ConnId
  | .received i _ => some i
  | .evaluated i _ _ => some i
  | .emitted e => some e.id
  | .fragNeeded _ => none

/-- The captured frame of a packet of EXT that arrives. -/
def Event.arrived : Event → Option Frame
  | .received _ pkt => if pkt.origin = .ext then some pkt.original else none
  | _ => none

/-- All events are about the connection `i`. -/
def About (i : ConnId) (ev : List Event) : Prop :=
  ∀ x ∈ ev, x.id? = some i

/-- What is shown while a packet of the connection `i` is handled: it is about this connection, and
no packet arrives. -/
def Shown (i : ConnId) (ev : List Event) : Prop :=
  ∀ x ∈ ev, x.id? = some i ∧ x.arrived = none

theorem Shown.nil : Shown i [] := by
  simp [Shown]

theorem Shown.append {ev₁ ev₂ : List Event} (h₁ : Shown i ev₁) (h₂ : Shown i ev₂) :
    Shown i (ev₁ ++ ev₂) := by
  intro x hx
  obtain hx | hx := List.mem_append.mp hx
  · exact h₁ x hx
  · exact h₂ x hx

theorem shown_inject {sender : Sender} {out : IfaceId} {p : Pkt} :
    Shown i [inject i c sender out p] := by
  simp [Shown, inject, Event.id?, Event.arrived]

theorem Resets.shown (h : Resets i ev) : Shown i ev := by
  intro x hx
  obtain ⟨e, rfl, he, -⟩ := h x hx
  simp [Event.id?, Event.arrived, he]

theorem Sends.shown (h : Sends i ev) : Shown i ev := by
  intro x hx
  obtain ⟨e, rfl, he, -⟩ := h x hx
  simp [Event.id?, Event.arrived, he]

theorem deProcessPacket_shown {status : Status}
    (h : deProcessPacket mods i pkt g w = .ok (status, w', ev)) : Shown i ev := by
  obtain ⟨d, w₁, ev₁, ev₂, t, he, -, ha, rfl⟩ := deProcessPacket_cases h
  refine Shown.append ?_ ?_
  · intro x hx
    obtain ⟨name, r, rfl⟩ := evaluate_events he x hx
    exact ⟨rfl, rfl⟩
  · cases ha with
    | redirect hd hs hr =>
      obtain ⟨h, s₁, c₁, -, -, -, -, hstart⟩ := setupRedirection_cases hr
      obtain ⟨rst, evs, rfl, hrst, hdel, -⟩ := startReplay_cases (c := c₁.redirectTo d.backendUse h)
        (h := h) rfl hstart
      exact hrst.shown.append hdel.sends.shown
    | _ => exact Shown.nil

theorem proxyHih_shown (h : proxyHih g i pkt w = .ok ev) : Shown i ev := by
  unfold proxyHih at h
  split at h
  · obtain ⟨t, -, h⟩ := Except.bind_eq_ok.mp h
    obtain ⟨⟨pkt', ev₁⟩, hp, h⟩ := Except.bind_eq_ok.mp h
    cases h
    obtain ⟨out, ip, mac, -, -, -, rfl⟩ := proxyInt2ext_cases hp
    exact shown_inject
  · obtain ⟨⟨pkt', ev₁⟩, hp, h⟩ := Except.bind_eq_ok.mp h
    cases h
    obtain rfl | ⟨out, rfl⟩ := proxyHih2intra_cases hp
    · exact Shown.nil
    · exact shown_inject
  · cases h
    exact Shown.nil

theorem proxyInt2ext_shown {pkt' : Pkt} (h : proxyInt2ext g t i c pkt = .ok (pkt', ev)) :
    Shown i ev := by
  obtain ⟨out, ip, mac, -, -, -, rfl⟩ := proxyInt2ext_cases h
  exact shown_inject

theorem proxyExt2int_shown {pkt' : Pkt} (h : proxyExt2int g t i c pkt = .ok (pkt', ev)) :
    Shown i ev := by
  obtain ⟨-, rfl, -⟩ | ⟨hd, out, role, -, -, -, rfl⟩ := proxyExt2int_cases h
  · exact Shown.nil
  · exact shown_inject

/-- Everything the dispatch shows is about the connection of the packet, and no packet arrives. -/
theorem Handles.shown (h : Handles mods g i pkt w w' ev) : Shown i ev := by
  cases h with
  | refused hs hev hext => exact hev.shown
  | lihEarly ho hs ht hp => exact proxyInt2ext_shown hp
  | lihProxy ho hs ht hp => exact proxyInt2ext_shown hp
  | lihControlOk ho hs hd ht hp => exact (deProcessPacket_shown hd).append (proxyInt2ext_shown hp)
  | lihControlNok ho hs hd ht => exact deProcessPacket_shown hd
  | lihOther ho hs hev => exact hev.shown
  | hihReplay ho hs hr => exact (replay_frame hr).2.2.shown
  | hihForward ho hs ht hf =>
    obtain rfl | ⟨out, -, rfl, -⟩ := forwardHih2ext_cases hf
    · exact Shown.nil
    · exact shown_inject
  | hihProxy ho hs hp => exact proxyHih_shown hp
  | hihControlOk ho hs hd ht hp => exact (deProcessPacket_shown hd).append (proxyInt2ext_shown hp)
  | hihControlNok ho hs hd => exact deProcessPacket_shown hd
  | hihDeny ho hs hev => exact hev.shown
  | hihInitOk ho hs hd hp => exact (deProcessPacket_shown hd).append (proxyHih_shown hp)
  | hihInitNok ho hs hd => exact deProcessPacket_shown hd
  | intraProxy ho hs hp =>
    obtain rfl | ⟨out, rfl⟩ := proxyIntra2hih_cases hp
    · exact Shown.nil
    · exact shown_inject
  | intraOther ho => exact Shown.nil
  | extEarlyOk ho hs hd ht hp => exact (deProcessPacket_shown hd).append (proxyExt2int_shown hp)
  | extEarlyNok ho hs hd ht => exact deProcessPacket_shown hd
  | extForward ho hs hf => exact (forwardExt2hih_sends hf).shown
  | extProxy ho hs ht hp => exact proxyExt2int_shown hp
  | extOther ho hs => exact Shown.nil

theorem Handles.about (h : Handles mods g i pkt w w' ev) : About i ev :=
  fun x hx => (h.shown x hx).1

theorem Handles.filterMap_arrived (h : Handles mods g i pkt w w' ev) :
    ev.filterMap Event.arrived = [] :=
  List.filterMap_eq_nil_iff.mpr fun x hx => (h.shown x hx).2

/-! ### Senders -/

theorem Resets.sender (h : Resets i ev) {e : Emission} (he : .emitted e ∈ ev) :
    e.sender = .replyReset := by
  obtain ⟨e', heq, -, hs⟩ := h _ he
  cases heq
  exact hs

theorem Sends.sender (h : Sends i ev) {e : Emission} (he : .emitted e ∈ ev) :
    e.sender = .forwardExt2hih := by
  obtain ⟨e', heq, -, hs⟩ := h _ he
  cases heq
  exact hs

theorem evaluate_not_emitted {d : DecisionHolder} {e : Emission}
    (h : evaluate mods i pkt w = .ok (d, w', ev)) : .emitted e ∉ ev := by
  intro he
  obtain ⟨name, r, heq⟩ := evaluate_events h _ he
  cases heq

/-- All that `DE_process_packet` sends are the packets of a redirection. -/
theorem deProcessPacket_sender {status : Status} {e : Emission}
    (h : deProcessPacket mods i pkt g w = .ok (status, w', ev)) (he : .emitted e ∈ ev) :
    e.sender = .replyReset ∨ e.sender = .forwardExt2hih := by
  obtain ⟨d, w₁, ev₁, ev₂, t, hev, -, ha, rfl⟩ := deProcessPacket_cases h
  obtain he | he := List.mem_append.mp he
  · exact absurd he (evaluate_not_emitted hev)
  · cases ha with
    | redirect hd hs hr =>
      obtain ⟨h, s₁, c₁, -, -, -, -, hstart⟩ := setupRedirection_cases hr
      obtain ⟨rst, evs, rfl, hrst, hdel, -⟩ := startReplay_cases (c := c₁.redirectTo d.backendUse h)
        (h := h) rfl hstart
      obtain he | he := List.mem_append.mp he
      · exact .inl (hrst.sender he)
      · exact .inr (hdel.sends.sender he)
    | _ => simp at he

/-- The frame `proxy_int2ext` sends. -/
theorem proxyInt2ext_emitted {pkt' : Pkt} {e : Emission}
    (h : proxyInt2ext g t i c pkt = .ok (pkt', ev)) (he : .emitted e ∈ ev) :
    e.sender = .proxyInt2ext ∧ e.id = i ∧ e.conn = c ∧ e.pkt.origin = pkt.origin := by
  have hrw := proxyInt2ext_rewritten h
  obtain ⟨out, ip, mac, -, -, -, rfl⟩ := proxyInt2ext_cases h
  simp only [inject, List.mem_singleton, Event.emitted.injEq] at he
  subst he
  exact ⟨rfl, rfl, rfl, hrw.origin⟩

theorem proxyExt2int_emitted {pkt' : Pkt} {e : Emission}
    (h : proxyExt2int g t i c pkt = .ok (pkt', ev)) (he : .emitted e ∈ ev) :
    e.sender = .proxyExt2int := by
  obtain ⟨-, rfl, -⟩ | ⟨hd, out, role, -, -, -, rfl⟩ := proxyExt2int_cases h
  · cases he
  · simp only [inject, List.mem_singleton, Event.emitted.injEq] at he
    subst he
    rfl

theorem forwardHih2ext_emitted {pkt' : Pkt} {e : Emission}
    (h : forwardHih2ext t i c pkt = .ok (pkt', ev)) (he : .emitted e ∈ ev) :
    e.sender = .forwardHih2ext ∧ e.conn = c ∧ e.pkt.origin = pkt.origin := by
  obtain rfl | ⟨out, -, rfl, hpkt, -⟩ := forwardHih2ext_cases h
  · cases he
  · simp only [inject, List.mem_singleton, Event.emitted.injEq] at he
    subst he
    exact ⟨rfl, rfl, hpkt⟩

/-- What is sent for a packet of a high-interaction honeypot depends on the destination. -/
theorem proxyHih_emitted {e : Emission} (h : proxyHih g i pkt w = .ok ev) (he : .emitted e ∈ ev) :
    (w.conn.destination = .ext ∧ ∃ t pkt', w.st.targets[w.conn.target]? = some t ∧
      proxyInt2ext g t i w.conn pkt = .ok (pkt', ev)) ∨
    (w.conn.destination = .intra ∧ e.sender = .proxyHih2intra) := by
  unfold proxyHih at h
  split at h
  · rename_i hdest
    obtain ⟨t, ht, h⟩ := Except.bind_eq_ok.mp h
    obtain ⟨⟨pkt', ev₁⟩, hp, h⟩ := Except.bind_eq_ok.mp h
    cases h
    exact .inl ⟨hdest, t, pkt', Option.orFail_eq_ok.mp ht, hp⟩
  · rename_i hdest
    obtain ⟨⟨pkt', ev₁⟩, hp, h⟩ := Except.bind_eq_ok.mp h
    cases h
    obtain rfl | ⟨out, rfl⟩ := proxyHih2intra_cases hp
    · cases he
    · simp only [inject, List.mem_singleton, Event.emitted.injEq] at he
      subst he
      exact .inr ⟨hdest, rfl⟩
  · cases h
    cases he

/-- The connection a packet of a honeypot in CONTROL is controlled with. -/
def controlled (pkt : Pkt) (c : Conn) : Conn :=
  if pkt.origin = .lih then noteLihSyn pkt c else c

/-- The functions that carry a packet between EXT and the honeypots. -/
def Sender.carries : Sender → Bool
  | .proxyInt2ext | .forwardHih2ext | .proxyExt2int => true
  | _ => false

/-- The branches in which a packet is carried between EXT and a honeypot, with the call that has
caused the emission `e`. -/
inductive Relayed (mods : Modules μ) (g : Globals) (i : ConnId) (pkt : Pkt) (w : Work μ)
    (ev : List Event) (e : Emission) : Prop
  | early {t : Target} {pkt' : Pkt} (ho : pkt.origin = .lih)
      (hs : w.conn.state = .init ∨ w.conn.state = .decision)
      (ht : w.st.targets[w.conn.target]? = some t)
      (hp : proxyInt2ext g t i (noteLihSyn pkt w.conn) pkt = .ok (pkt', ev)) (he : .emitted e ∈ ev)
  | proxied {t : Target} {pkt' : Pkt}
      (ho : pkt.origin = .lih ∨ pkt.origin = .hih ∧ w.conn.destination = .ext)
      (hs : w.conn.state = .proxy) (ht : w.st.targets[w.conn.target]? = some t)
      (hp : proxyInt2ext g t i w.conn pkt = .ok (pkt', ev)) (he : .emitted e ∈ ev)
  | controlled {w₁ : Work μ} {t : Target} {pkt' : Pkt} {ev₁ ev₂ : List Event}
      (ho : pkt.origin = .lih ∨ pkt.origin = .hih) (hs : w.conn.state = .control)
      (hd : deProcessPacket mods i pkt g { w with conn := controlled pkt w.conn } =
        .ok (.ok, w₁, ev₁))
      (ht : w₁.st.targets[w₁.conn.target]? = some t)
      (hp : proxyInt2ext g t i w₁.conn pkt = .ok (pkt', ev₂)) (he : .emitted e ∈ ev₂)
      (hev : ev = ev₁ ++ ev₂)
  | opened {w₁ : Work μ} {t : Target} {pkt' : Pkt} {ev₁ ev₂ : List Event} (ho : pkt.origin = .hih)
      (hs : w.conn.state = .init ∨ w.conn.state = .decision ∨ w.conn.state = .invalid)
      (hd : deProcessPacket mods i pkt g { w with conn := w.conn.switchState .control } =
        .ok (.ok, w₁, ev₁))
      (hdest : w₁.conn.destination = .ext) (ht : w₁.st.targets[w₁.conn.target]? = some t)
      (hp : proxyInt2ext g t i w₁.conn pkt = .ok (pkt', ev₂)) (he : .emitted e ∈ ev₂)
      (hev : ev = ev₁ ++ ev₂)
  | forwarded {t : Target} {pkt' : Pkt} (ho : pkt.origin = .hih) (hs : w.conn.state = .forward)
      (ht : w.st.targets[w.conn.target]? = some t)
      (hf : forwardHih2ext t i w.conn pkt = .ok (pkt', ev)) (he : .emitted e ∈ ev)
  | ruled {w₁ : Work μ} {t : Target} {pkt' : Pkt} {ev₁ ev₂ : List Event}
      (ho : pkt.origin = .ext ∨ pkt.origin = .int)
      (hd : deProcessPacket mods i pkt g w = .ok (.ok, w₁, ev₁))
      (ht : w₁.st.targets[w₁.conn.target]? = some t)
      (hp : proxyExt2int g t i w₁.conn pkt = .ok (pkt', ev₂)) (he : .emitted e ∈ ev₂)
  | inward {t : Target} {pkt' : Pkt} (ho : pkt.origin = .ext ∨ pkt.origin = .int)
      (ht : w.st.targets[w.conn.target]? = some t)
      (hp : proxyExt2int g t i w.conn pkt = .ok (pkt', ev)) (he : .emitted e ∈ ev)

/-- What the engine carries between EXT and a honeypot it sends in one of these branches. -/
theorem Handles.relayed {e : Emission} (h : Handles mods g i pkt w w' ev) (he : .emitted e ∈ ev)
    (hc : e.sender.carries = true) : Relayed mods g i pkt w ev e := by
  have hreset (hr : Resets i ev) : False := by
    rw [hr.sender he] at hc
    cases hc
  have hsend (hr : Sends i ev) : False := by
    rw [hr.sender he] at hc
    cases hc
  have hintra (hs : e.sender = .proxyHih2intra) : False := by
    rw [hs] at hc
    cases hc
  -- what the rules send is not sent by these functions
  have hde {status : Status} {wa wb : Work μ} {ev₁ : List Event}
      (hd : deProcessPacket mods i pkt g wa = .ok (status, wb, ev₁)) : .emitted e ∉ ev₁ := by
    intro he
    obtain hs | hs := deProcessPacket_sender hd he
    · rw [hs] at hc
      cases hc
    · rw [hs] at hc
      cases hc
  cases h with
  | refused hs hev => exact (hreset hev).elim
  | lihEarly ho hs ht hp => exact .early ho hs ht hp he
  | lihProxy ho hs ht hp => exact .proxied (.inl ho) hs ht hp he
  | lihControlOk ho hs hd ht hp =>
    have he' := (List.mem_append.mp he).resolve_left (hde hd)
    refine .controlled (.inl ho) hs ?_ ht hp he' rfl
    rw [Honeybrid.controlled, if_pos ho]
    exact hd
  | lihControlNok ho hs hd ht => exact absurd he (hde hd)
  | lihOther ho hs hev => exact (hreset hev).elim
  | hihReplay ho hs hr => exact (hsend (replay_frame hr).2.2).elim
  | hihForward ho hs ht hf => exact .forwarded ho hs ht hf he
  | hihProxy ho hs hp =>
    obtain ⟨hdest, t, pkt', ht, hp'⟩ | ⟨-, hs'⟩ := proxyHih_emitted hp he
    · exact .proxied (.inr ⟨ho, hdest⟩) hs ht hp' he
    · exact (hintra hs').elim
  | hihControlOk ho hs hd ht hp =>
    have he' := (List.mem_append.mp he).resolve_left (hde hd)
    refine .controlled (.inr ho) hs ?_ ht hp he' rfl
    rw [Honeybrid.controlled, if_neg (by simp [ho])]
    exact hd
  | hihControlNok ho hs hd => exact absurd he (hde hd)
  | hihDeny ho hs hev => exact (hreset hev).elim
  | hihInitOk ho hs hd hp =>
    have he' := (List.mem_append.mp he).resolve_left (hde hd)
    obtain ⟨hdest, t, pkt', ht, hp'⟩ | ⟨-, hs'⟩ := proxyHih_emitted hp he'
    · exact .opened ho hs hd hdest ht hp' he' rfl
    · exact (hintra hs').elim
  | hihInitNok ho hs hd => exact absurd he (hde hd)
  | intraProxy ho hs hp =>
    obtain rfl | ⟨out, rfl⟩ := proxyIntra2hih_cases hp
    · cases he
    · simp only [inject, List.mem_singleton, Event.emitted.injEq] at he
      subst he
      cases hc
  | intraOther ho => cases he
  | extEarlyOk ho hs hd ht hp =>
    exact .ruled ho hd ht hp ((List.mem_append.mp he).resolve_left (hde hd))
  | extEarlyNok ho hs hd ht => exact absurd he (hde hd)
  | extForward ho hs hf => exact (hsend (forwardExt2hih_sends hf)).elim
  | extProxy ho hs ht hp => exact .inward ho ht hp he
  | extOther ho hs => cases he

/-- The branches in which `proxy_int2ext` is called: a packet of the low-interaction honeypot in
INIT or DECISION, a packet in PROXY, a packet in CONTROL, and the packet that opens a connection. -/
theorem Handles.proxyInt2ext {e : Emission} (h : Handles mods g i pkt w w' ev)
    (he : .emitted e ∈ ev) (hsender : e.sender = .proxyInt2ext) :
    e.pkt.origin = pkt.origin ∧
    ((pkt.origin = .lih ∧ (w.conn.state = .init ∨ w.conn.state = .decision) ∧
      e.conn = noteLihSyn pkt w.conn) ∨
    (w.conn.state = .proxy ∧ e.conn = w.conn ∧
      (pkt.origin = .lih ∨ pkt.origin = .hih ∧ w.conn.destination = .ext) ∧
      ∃ t, w.st.targets[w.conn.target]? = some t) ∨
    (w.conn.state = .control ∧ (pkt.origin = .lih ∨ pkt.origin = .hih) ∧ ∃ w₁ ev₁ ev₂,
      deProcessPacket mods i pkt g { w with conn := controlled pkt w.conn } = .ok (.ok, w₁, ev₁) ∧
        e.conn = w₁.conn ∧ ev = ev₁ ++ ev₂) ∨
    (pkt.origin = .hih ∧
      (w.conn.state = .init ∨ w.conn.state = .decision ∨ w.conn.state = .invalid) ∧ ∃ w₁ ev₁ ev₂,
      deProcessPacket mods i pkt g { w with conn := w.conn.switchState .control } =
        .ok (.ok, w₁, ev₁) ∧ e.conn = w₁.conn ∧ w₁.conn.destination = .ext ∧
          ev = ev₁ ++ ev₂)) := by
  cases h.relayed he (by rw [hsender]; rfl) with
  | early ho hs ht hp he' =>
    obtain ⟨-, -, hc, hpkt⟩ := proxyInt2ext_emitted hp he'
    exact ⟨hpkt, .inl ⟨ho, hs, hc⟩⟩
  | proxied ho hs ht hp he' =>
    obtain ⟨-, -, hc, hpkt⟩ := proxyInt2ext_emitted hp he'
    exact ⟨hpkt, .inr (.inl ⟨hs, hc, ho, _, ht⟩)⟩
  | controlled ho hs hd ht hp he' hev =>
    obtain ⟨-, -, hc, hpkt⟩ := proxyInt2ext_emitted hp he'
    exact ⟨hpkt, .inr (.inr (.inl ⟨hs, ho, _, _, _, hd, hc, hev⟩))⟩
  | opened ho hs hd hdest ht hp he' hev =>
    obtain ⟨-, -, hc, hpkt⟩ := proxyInt2ext_emitted hp he'
    exact ⟨hpkt, .inr (.inr (.inr ⟨ho, hs, _, _, _, hd, hc, hdest, hev⟩))⟩
  | forwarded ho hs ht hf he' =>
    rw [(forwardHih2ext_emitted hf he').1] at hsender
    cases hsender
  | ruled ho hd ht hp he' =>
    rw [proxyExt2int_emitted hp he'] at hsender
    cases hsender
  | inward ho ht hp he' =>
    rw [proxyExt2int_emitted hp he'] at hsender
    cases hsender

/-- What `proxy_int2ext` sends belongs to the flow of the connection. -/
theorem Handles.proxyInt2ext_flow {e : Emission} (h : Handles mods g i pkt w w' ev)
    (he : .emitted e ∈ ev) (hsender : e.sender = .proxyInt2ext) : e.conn.flow = w.conn.flow := by
  obtain ⟨-, -, hc⟩ | ⟨-, hc, -⟩ | ⟨-, -, w₁, ev₁, ev₂, hde, hc, -⟩ |
    ⟨-, -, w₁, ev₁, ev₂, hde, hc, -⟩ := (h.proxyInt2ext he hsender).2
  · rw [hc, noteLihSyn_flow]
  · rw [hc]
  · rw [hc, (deProcessPacket_framed hde).2, controlled]
    split_ifs
    · exact noteLihSyn_flow pkt w.conn
    · rfl
  · rw [hc]
    exact (deProcessPacket_framed hde).2

end Honeybrid
