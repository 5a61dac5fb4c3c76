import Honeybrid.Executions

/-!
# The life of a connection from EXT

A connection opened by the attacker is decided on in INIT and DECISION, while its packets are
exchanged with the low-interaction honeypot and stored. It is dropped, proxied for good, or
redirected: then the buffer is replayed, and in FORWARD the high-interaction honeypot has taken
over. `Life` describes what a packet does to such a connection; every execution of `handle` on one
is a step of it.

## Main definitions

* `Begun`: the states of a connection from EXT between two packets.
* `Life`: what a packet does to a connection from EXT.

## Main results

* `Handles.life`: the dispatch is described by `Life`.
* `Life.begun`, `Life.state`: the states a packet can lead to.
* `tracked_begun`: in every run, the connections from EXT are in one of the states `Begun`.
-/

namespace Honeybrid

variable {μ : Type} {mods : Modules μ} {g : Globals} {s s₁ : State μ} {i : ConnId} {pkt : Pkt}
  {w w' : Work μ} {tr ev : List Event} {c c' : Conn}
  {targets : Std.TreeMap TargetId Target intcmp} {ifTarget : Std.TreeMap IfaceId TargetId} {mem : μ}

/-- The states of a connection from EXT between two packets. While it is decided on, it goes to the
low-interaction honeypot. -/
def Begun (c : Conn) : Prop :=
  (c.state = .decision ∧ c.destination = .lih) ∨ c.state = .replay ∨ c.state = .forward ∨
    c.state = .proxy ∨ c.state = .drop

/-- The states in which a packet can find a connection from EXT; it is new in INIT. -/
def Meets (pkt : Pkt) (c : Conn) : Prop :=
  Begun c ∨ (c.state = .init ∧ pkt.origin = .ext ∧ c.destination = .lih)

/-- Nothing is delivered to the high-interaction honeypot. -/
def Silent (ev : List Event) : Prop :=
  ev.filterMap Event.delivered = []

/-- The two connections agree in what a replay works with. -/
structure SameReplay (c c' : Conn) : Prop where
  buffer : c'.buffer = c.buffer
  replayId : c'.replayId = c.replayId
  expectedData : c'.expectedData = c.expectedData

/-- The rules accept the packet in DECISION and name a backend the connection can be redirected
to. -/
def Redirects (mods : Modules μ) (g : Globals) (i : ConnId) (pkt : Pkt) (w : Work μ) : Prop :=
  ∃ d w₁ ev₁ t x, evaluate mods i pkt w = .ok (d, w₁, ev₁) ∧ d.result = .accept ∧
    w₁.conn.state = .decision ∧ w₁.st.targets[w₁.conn.target]? = some t ∧
    setupRedirection g w₁.st t i w₁.conn d.backendUse = .ok (some x)

/-- What a packet does to a connection from EXT: the connection afterwards and the events. -/
inductive Life (mods : Modules μ) (g : Globals) (i : ConnId) (pkt : Pkt) (w : Work μ) :
    Conn → List Event → Prop
  /-- Nothing changes. -/
  | rest {ev : List Event} (hs : w.conn.state ≠ .init) (hev : Silent ev)
      (hext : pkt.origin = .ext →
        w.conn.state = .replay ∨ w.conn.state = .proxy ∨ w.conn.state = .drop) :
      Life mods g i pkt w w.conn ev
  /-- A packet of EXT or of the low-interaction honeypot while the connection is decided on. -/
  | early {t : Target} {c : Conn} {pkt' : Pkt} {ev : List Event}
      (ho : pkt.origin = .lih ∨ pkt.origin = .ext)
      (hs : w.conn.state = .init ∨ w.conn.state = .decision)
      (ht : w.st.targets[w.conn.target]?.map Target.fixed = some t.fixed)
      (hc : (c.state = .decision ∧ c.destination = w.conn.destination) ∨ c.state = .proxy ∨
        c.state = .drop)
      (hnew : w.conn.state = .init → c.state = .decision → t.hasBackends = true)
      (hsame : SameReplay w.conn c) (hpkt : Rewritten pkt pkt') (hev : Silent ev) :
      Life mods g i pkt w (keepPkt g t c pkt') ev
  /-- A packet of the high-interaction honeypot before the connection is redirected. -/
  | away {c : Conn} {ev : List Event} (ho : pkt.origin = .hih) (hs : w.conn.state = .decision)
      (hc : c.state = .proxy ∨ c.state = .drop) (hev : Silent ev) : Life mods g i pkt w c ev
  /-- The packet of EXT on which the connection is redirected. -/
  | redirect {s₁ s₂ : State μ} {t₁ t : Target} {use : HandlerId} {c : Conn} {ev₁ ev₂ : List Event}
      (ho : pkt.origin = .ext) (hs : w.conn.state = .decision) (hred : Redirects mods g i pkt w)
      (ht₁ : w.st.targets[w.conn.target]?.map Target.fixed = some t₁.fixed)
      (hr : setupRedirection g s₁ t₁ i w.conn use = .ok (some (s₂, c, ev₂)))
      (ht : w.st.targets[w.conn.target]?.map Target.fixed = some t.fixed) (hev : Silent ev₁) :
      Life mods g i pkt w (keepPkt g t c pkt) (ev₁ ++ ev₂)
  /-- An answer of the high-interaction honeypot to the replay. -/
  | answer {c : Conn} {ev : List Event} (ho : pkt.origin = .hih) (hs : w.conn.state = .replay)
      (hr : replay g i (noteDelta pkt w.conn) pkt = .ok (c, ev)) : Life mods g i pkt w c ev
  /-- A packet of EXT after the replay. -/
  | forward {pkt' : Pkt} {ev : List Event} (ho : pkt.origin = .ext)
      (hs : w.conn.state = .forward) (hf : forwardExt2hih g i w.conn pkt = .ok (pkt', ev)) :
      Life mods g i pkt w w.conn ev

/-! ### Silence -/

theorem Silent.append {ev₁ ev₂ : List Event} (h₁ : Silent ev₁) (h₂ : Silent ev₂) :
    Silent (ev₁ ++ ev₂) := by
  rw [Silent, List.filterMap_append, h₁, h₂, List.append_nil]

theorem Resets.silent (h : Resets i ev) : Silent ev :=
  h.not_delivered

theorem evaluate_silent {d : DecisionHolder} (h : evaluate mods i pkt w = .ok (d, w', ev)) :
    Silent ev := by
  refine List.filterMap_eq_nil_iff.mpr fun x hx => ?_
  obtain ⟨name, r, rfl⟩ := evaluate_events h x hx
  rfl

theorem proxyInt2ext_silent {t : Target} {pkt' : Pkt}
    (h : proxyInt2ext g t i c pkt = .ok (pkt', ev)) : Silent ev := by
  obtain ⟨out, ip, mac, -, -, -, rfl⟩ := proxyInt2ext_cases h
  rfl

theorem proxyExt2int_silent {t : Target} {pkt' : Pkt}
    (h : proxyExt2int g t i c pkt = .ok (pkt', ev)) : Silent ev := by
  obtain ⟨-, rfl, -⟩ | ⟨hd, out, role, -, -, -, rfl⟩ := proxyExt2int_cases h
  · rfl
  · rfl

theorem proxyHih_silent (h : proxyHih g i pkt w = .ok ev) : Silent ev := by
  refine List.filterMap_eq_nil_iff.mpr fun x hx => ?_
  cases x with
  | emitted e =>
    obtain ⟨-, t, pkt', -, hp⟩ | ⟨-, hs⟩ := proxyHih_emitted h hx
    · simp [Event.delivered, (proxyInt2ext_emitted hp hx).1]
    · simp [Event.delivered, hs]
  | received | evaluated | fragNeeded => rfl

/-! ### The dispatch of a connection from EXT -/

/-- The target of a connection, after the rules have run. -/
theorem fixed_target {t : Target} (hf : Framed w.st w'.st) (hc : w'.conn.flow = w.conn.flow)
    (ht : w'.st.targets[w'.conn.target]? = some t) :
    w.st.targets[w.conn.target]?.map Target.fixed = some t.fixed := by
  rw [← hf.targets, ← Conn.target_of_flow hc, ht]
  rfl

theorem Target.hasBackends_of_fixed {t t' : Target} (h : t.fixed = t'.fixed) :
    t.hasBackends = t'.hasBackends := by
  have hb := congrArg Target.hasBackends h
  exact hb

/-- Switching a connection leaves alone what a replay works with. -/
theorem RuleRun.sameReplay {b : Bool} (h : RuleRun i b w w') : SameReplay w.conn w'.conn := by
  obtain hc | ⟨h', k, hc⟩ := h.conn_cases
  · rw [hc]
    exact ⟨rfl, rfl, rfl⟩
  · rw [hc]
    exact ⟨rfl, rfl, rfl⟩

/-- In INIT the verdict is never to defer. -/
theorem evaluate_init_ne_defer {d : DecisionHolder} (hs : w.conn.state = .init)
    (h : evaluate mods i pkt w = .ok (d, w', ev)) : d.result ≠ .defer := by
  simp only [evaluate, hs] at h
  obtain ⟨t, -, h⟩ := Except.bind_eq_ok.mp h
  obtain ⟨front, -, h⟩ := Except.bind_eq_ok.mp h
  obtain ⟨⟨d₁, w₁, ev₁⟩, -, h⟩ := Except.bind_eq_ok.mp h
  cases h
  split_ifs with hd
  · simp
  · exact hd

/-- A rule leaves a connection alone, or has switched it to PROXY. -/
theorem RuleRun.kept_or_proxy {b : Bool} (h : RuleRun i b w w') :
    w'.conn = w.conn ∨ w'.conn.state = .proxy := by
  obtain hc | ⟨h', k, hc⟩ := h.conn_cases
  · exact .inl hc
  · exact .inr (by rw [hc]; rfl)

/-- A connection that leaves INIT for PROXY or DECISION, the latter only if there are backends. -/
theorem SameReplay.leaveInit {t : Target} {c c₁ : Conn} {p : Prop} [Decidable p]
    (hsame : SameReplay c c₁) (hdest : c₁.destination = c.destination)
    (hp : ¬p → t.hasBackends = true) {c' : Conn}
    (hc : c' = c₁.switchState (if p then .proxy else .decision)) :
    ((c'.state = .decision ∧ c'.destination = c.destination) ∨ c'.state = .proxy ∨
        c'.state = .drop) ∧
      (c.state = .init → c'.state = .decision → t.hasBackends = true) ∧ SameReplay c c' := by
  subst hc
  refine ⟨?_, fun _ => ?_, ⟨hsame.buffer, hsame.replayId, hsame.expectedData⟩⟩
  · simp only [Conn.switchState]
    split_ifs
    · exact .inr (.inl rfl)
    · exact .inl ⟨rfl, hdest⟩
  · simp only [Conn.switchState]
    split_ifs with h
    · simp
    · exact fun _ => hp h

/-- The states after a verdict on a connection from EXT that was not redirected. -/
theorem Acts.early {t : Target} {d : DecisionHolder} {status : Status} {w₁ : Work μ}
    {ev₁ ev₂ : List Event} (hs : w.conn.state = .init ∨ w.conn.state = .decision)
    (he : evaluate mods i pkt w = .ok (d, w₁, ev₁)) (ha : Acts g i t d w₁ status w' ev₂) :
    (ev₂ = [] ∧ ((w'.conn.state = .decision ∧ w'.conn.destination = w.conn.destination) ∨
        w'.conn.state = .proxy ∨ w'.conn.state = .drop) ∧
      (w.conn.state = .init → w'.conn.state = .decision → t.hasBackends = true) ∧
      SameReplay w.conn w'.conn) ∨
    (status = .nok ∧ w.conn.state = .decision ∧ w₁.conn = w.conn ∧ d.result = .accept ∧
      setupRedirection g w₁.st t i w₁.conn d.backendUse = .ok (some (w'.st, w'.conn, ev₂))) := by
  have hrun := evaluate_run he
  have hsame := hrun.sameReplay
  have hst := hrun.kept_or_proxy
  have hdest : w₁.conn.state ≠ .proxy → w₁.conn.destination = w.conn.destination := by
    intro hne
    rw [hst.resolve_right hne]
  have hst' : w₁.conn.state = .init ∧ w.conn.state = .init ∨
      w₁.conn.state = .decision ∧ w.conn.state = .decision ∨ w₁.conn.state = .proxy := by
    obtain hc | hp := hst
    · obtain hs | hs := hs
      · exact .inl ⟨by rw [hc, hs], hs⟩
      · exact .inr (.inl ⟨by rw [hc, hs], hs⟩)
    · exact .inr (.inr hp)
  have hkeep (state : ConnStatus) : SameReplay w.conn (w₁.conn.switchState state) :=
    ⟨hsame.buffer, hsame.replayId, hsame.expectedData⟩
  cases ha with
  | controlFree hd hc =>
    obtain ⟨h, -⟩ | ⟨h, -⟩ | h := hst' <;> simp [h] at hc
  | initFree hd hc =>
    refine .inl ⟨rfl, hsame.leaveInit (hdest (by simp [hc])) (fun h => ?_) rfl⟩
    simp [Target.hasBackends, Nat.pos_of_ne_zero h]
  | otherFree hd hc hi =>
    refine .inl ⟨rfl, ?_, fun h₁ h₂ => ?_, hsame⟩
    · obtain ⟨h, -⟩ | ⟨h, -⟩ | h := hst'
      · exact absurd h hi
      · exact .inl ⟨h, hdest (by simp [h])⟩
      · exact .inr (.inl h)
    · obtain ⟨h, -⟩ | ⟨-, h⟩ | h := hst'
      · exact absurd h hi
      · simp [h] at h₁
      · simp [h] at h₂
  | defer hd =>
    refine .inl ⟨rfl, ?_, fun h₁ _ => absurd hd (evaluate_init_ne_defer h₁ he), hsame⟩
    obtain ⟨-, h⟩ | ⟨h, -⟩ | h := hst'
    · exact absurd hd (evaluate_init_ne_defer h he)
    · exact .inl ⟨h, hdest (by simp [h])⟩
    · exact .inr (.inl h)
  | acceptInit hd hc =>
    refine .inl ⟨rfl, hsame.leaveInit (hdest (by simp [hc])) (fun h => ?_) rfl⟩
    simp only [not_and_or, ← Nat.pos_iff_ne_zero] at h
    simpa [Target.hasBackends] using h
  | redirect hd hc hr =>
    obtain ⟨h, -⟩ | ⟨-, h⟩ | h := hst'
    · simp [h] at hc
    · refine .inr ⟨rfl, h, hst.resolve_right fun hp => ?_, hd, hr⟩
      simp [hp] at hc
    · simp [h] at hc
  | stay hd hc hr =>
    refine .inl ⟨rfl, .inl ⟨hc, hdest (by simp [hc])⟩, fun h₁ _ => ?_, hsame⟩
    obtain ⟨h, -⟩ | ⟨-, h⟩ | h := hst'
    · simp [h] at hc
    · simp [h] at h₁
    · simp [h] at hc
  | acceptControl hd hc =>
    obtain ⟨h, -⟩ | ⟨h, -⟩ | h := hst' <;> simp [h] at hc
  | acceptOther hd hi hc hn =>
    obtain ⟨h, -⟩ | ⟨h, -⟩ | h := hst'
    · exact absurd h hi
    · exact absurd h hc
    · exact .inl ⟨rfl, .inr (.inl h), fun _ h₂ => absurd h₂ hc, hsame⟩
  | rejectDecision hd hc =>
    exact .inl ⟨rfl, .inr (.inl rfl), by simp [Conn.switchState], hkeep _⟩
  | rejectOther hd hc => exact .inl ⟨rfl, .inr (.inr rfl), by simp [Conn.switchState], hkeep _⟩
  | drop hd => exact .inl ⟨rfl, .inr (.inr rfl), by simp [Conn.switchState], hkeep _⟩

/-- The rules on a packet of EXT in INIT or DECISION: the target and the connection after them, and
the life of the connection if the packet is kept as `pkt'`. -/
theorem deProcessPacket_life {t : Target} {status : Status} {pkt' : Pkt} {ev₂ : List Event}
    (ho : pkt.origin = .ext) (hs : w.conn.state = .init ∨ w.conn.state = .decision)
    (hd : deProcessPacket mods i pkt g w = .ok (status, w', ev))
    (ht : w'.st.targets[w'.conn.target]? = some t) (hpkt : Rewritten pkt pkt') (hev : Silent ev₂)
    (hnok : status = .nok → pkt' = pkt ∧ ev₂ = []) :
    Life mods g i pkt w (keepPkt g t w'.conn pkt') (ev ++ ev₂) := by
  have hfix := fixed_target (deProcessPacket_framed hd).1 (deProcessPacket_framed hd).2 ht
  obtain ⟨d, w₁, ev₁, ev₃, t', he, ht', ha, rfl⟩ := deProcessPacket_cases hd
  have hfix' := fixed_target (evaluate_run he).framed (evaluate_run he).flow ht'
  obtain ⟨rfl, hst, hnew, hsame⟩ | ⟨hstatus, hs', hw, hacc, hr⟩ := ha.early hs he
  · rw [hfix, Option.some.injEq] at hfix'
    refine .early (.inr ho) hs hfix hst (fun h₁ h₂ => ?_) hsame hpkt ?_
    · rw [Target.hasBackends_of_fixed hfix']
      exact hnew h₁ h₂
    · rw [List.append_nil]
      exact (evaluate_silent he).append hev
  · obtain ⟨rfl, rfl⟩ := hnok hstatus
    have hred : Redirects mods g i pkt' w :=
      ⟨d, w₁, ev₁, t', _, he, hacc, hw ▸ hs', ht', hr⟩
    rw [hw] at hr
    rw [List.append_nil]
    exact .redirect ho hs' hred hfix' hr hfix (evaluate_silent he)

/-- A connection from EXT on which a honeypot seems to open a connection is proxied for good. -/
theorem deProcessPacket_away {status : Status} (hs : w.conn.state = .control)
    (hd : w.conn.destination = .lih)
    (h : deProcessPacket mods i pkt g w = .ok (status, w', ev)) :
    w'.conn = w.conn.switchState .proxy ∧ ev = [] := by
  obtain ⟨d, w₁, ev₁, ev₂, t, he, -, ha, rfl⟩ := deProcessPacket_cases h
  simp only [evaluate, hs, hd] at he
  obtain ⟨t', -, he⟩ := Except.bind_eq_ok.mp he
  cases he
  cases ha with
  | controlFree hd' hc => exact ⟨rfl, rfl⟩
  | initFree hd' hc => simp [hs] at hc
  | otherFree hd' hc => exact absurd hs hc
  | _ => contradiction

/-- **The life of a connection from EXT.** The dispatch of its packets is described by `Life`. -/
theorem Handles.life (hm : Meets pkt w.conn) (hint : pkt.origin ≠ .int)
    (h : Handles mods g i pkt w w' ev) : Life mods g i pkt w w'.conn ev := by
  have hinit : w.conn.state = .init → pkt.origin = .ext ∧ w.conn.destination = .lih := by
    rcases hm with (⟨h, -⟩ | h | h | h | h) | ⟨h, ho, hd⟩ <;> simp [*]
  have hdec : w.conn.state = .decision → w.conn.destination = .lih := by
    rcases hm with (⟨h, hd⟩ | h | h | h | h) | ⟨h, ho, hd⟩ <;> simp [*]
  have hne : w.conn.state ≠ .control ∧ w.conn.state ≠ .invalid := by
    rcases hm with (⟨h, -⟩ | h | h | h | h) | ⟨h, -⟩ <;> simp [h]
  have hext (ho : pkt.origin = .ext ∨ pkt.origin = .int) : pkt.origin = .ext :=
    ho.resolve_right hint
  -- a packet of a honeypot cannot be the first one
  have hnotinit (ho : pkt.origin ≠ .ext) : w.conn.state ≠ .init := fun hs => ho (hinit hs).1
  obtain ⟨n, hn⟩ := noteLihSyn_conn pkt w.conn
  cases h with
  | refused hs hev he =>
    obtain ⟨hs, -⟩ | hs := hs
    · exact absurd hs hne.2
    · exact .rest (by simp [hs]) hev.silent fun _ => .inr (.inr hs)
  | lihEarly ho hs ht hp =>
    have hs' := hs.resolve_left (hnotinit (by simp [ho]))
    refine .early (.inl ho) hs (by rw [ht]; rfl) (.inl ?_) (by simp [hs']) ?_
      (proxyInt2ext_rewritten hp) (proxyInt2ext_silent hp)
    · rw [hn]
      exact ⟨hs', rfl⟩
    · rw [hn]
      exact ⟨rfl, rfl, rfl⟩
  | lihProxy ho hs ht hp => exact .rest (by simp [hs]) (proxyInt2ext_silent hp) (by simp [ho])
  | lihControlOk ho hs => exact absurd hs hne.1
  | lihControlNok ho hs => exact absurd hs hne.1
  | lihOther ho hs hev => exact .rest (hnotinit (by simp [ho])) hev.silent (by simp [ho])
  | hihReplay ho hs hr => exact .answer ho hs hr
  | hihForward ho hs ht hf =>
    refine .rest (by simp [hs]) ?_ (by simp [ho])
    obtain rfl | ⟨out, -, rfl, -⟩ := forwardHih2ext_cases hf
    · rfl
    · rfl
  | hihProxy ho hs hp => exact .rest (by simp [hs]) (proxyHih_silent hp) (by simp [ho])
  | hihControlOk ho hs => exact absurd hs hne.1
  | hihControlNok ho hs => exact absurd hs hne.1
  | hihDeny ho hs hev =>
    have hs' := (hs.resolve_left (hnotinit (by simp [ho]))).resolve_right hne.2
    exact .away ho hs' (.inr rfl) hev.silent
  | hihInitOk ho hs hd hp =>
    have hs' := (hs.resolve_left (hnotinit (by simp [ho]))).resolve_right hne.2
    obtain ⟨hc, rfl⟩ := deProcessPacket_away
      (w := { w with conn := w.conn.switchState .control }) rfl (hdec hs') hd
    exact .away ho hs' (.inl (by rw [hc]; rfl)) (proxyHih_silent hp)
  | hihInitNok ho hs hd =>
    have hs' := (hs.resolve_left (hnotinit (by simp [ho]))).resolve_right hne.2
    obtain ⟨hc, rfl⟩ := deProcessPacket_away
      (w := { w with conn := w.conn.switchState .control }) rfl (hdec hs') hd
    exact .away ho hs' (.inl (by rw [hc]; rfl)) rfl
  | intraProxy ho hs hp =>
    refine .rest (by simp [hs]) ?_ (by simp [ho])
    obtain rfl | ⟨out, rfl⟩ := proxyIntra2hih_cases hp
    · rfl
    · rfl
  | intraOther ho => exact .rest (hnotinit (by simp [ho])) rfl (by simp [ho])
  | extEarlyOk ho hs hd ht hp =>
    exact deProcessPacket_life (hext ho) hs hd ht (proxyExt2int_rewritten hp)
      (proxyExt2int_silent hp) (by simp)
  | extEarlyNok ho hs hd ht =>
    have hlife : Life mods g i pkt w _ (ev ++ []) :=
      deProcessPacket_life (hext ho) hs hd ht (Rewritten.refl pkt) rfl (by simp)
    rwa [List.append_nil] at hlife
  | extForward ho hs hf => exact .forward (hext ho) hs hf
  | extProxy ho hs ht hp =>
    have hs' := hs.resolve_right hne.1
    exact .rest (by simp [hs']) (proxyExt2int_silent hp) fun _ => .inr (.inl hs')
  | extOther ho hs =>
    have hs' := hs.resolve_right hne.2
    exact .rest (by simp [hs']) rfl fun _ => .inl hs'

theorem keepPkt_state (g : Globals) (t : Target) (c : Conn) (pkt : Pkt) :
    (keepPkt g t c pkt).state = c.state ∧ (keepPkt g t c pkt).destination = c.destination := by
  obtain ⟨b, h⟩ := keepPkt_conn g t c pkt
  rw [h]
  exact ⟨rfl, rfl⟩

/-- A redirected connection is in REPLAY. -/
theorem setupRedirection_state {t : Target} {use : HandlerId} {s₂ : State μ}
    (h : setupRedirection g s t i c use = .ok (some (s₂, c', ev))) : c'.state = .replay := by
  obtain ⟨h', key, rid, ed, -, -, rfl⟩ := setupRedirection_conn h
  rfl

/-- The state of a connection from EXT after a packet: a redirection leads from DECISION to REPLAY,
a replay to FORWARD, and FORWARD, PROXY and DROP are final. -/
theorem Life.state_cases (h : Life mods g i pkt w c' ev) :
    c'.state = w.conn.state ∨
    ((w.conn.state = .init ∨ w.conn.state = .decision) ∧
      (c'.state = .decision ∨ c'.state = .proxy ∨ c'.state = .drop ∨ c'.state = .replay)) ∨
    (w.conn.state = .replay ∧ c'.state = .forward) := by
  cases h with
  | rest => exact .inl rfl
  | early ho hs ht hc =>
    refine .inr (.inl ⟨hs, ?_⟩)
    rw [(keepPkt_state ..).1]
    obtain ⟨h, -⟩ | h | h := hc <;> simp [h]
  | away ho hs hc => exact .inr (.inl ⟨.inr hs, by obtain h | h := hc <;> simp [h]⟩)
  | redirect ho hs hred ht₁ hr =>
    refine .inr (.inl ⟨.inr hs, .inr (.inr (.inr ?_))⟩)
    rw [(keepPkt_state ..).1, setupRedirection_state hr]
  | answer ho hs hr =>
    obtain ⟨-, hst, -⟩ := replay_frame hr
    obtain ⟨d, hd⟩ := noteDelta_conn pkt w.conn
    obtain h | h := hst
    · left
      rw [h, hd]
    · exact .inr (.inr ⟨hs, h⟩)
  | forward => exact .inl rfl

theorem Life.begun (hm : Meets pkt w.conn) (h : Life mods g i pkt w c' ev) : Begun c' := by
  have hdest : w.conn.state = .init ∨ w.conn.state = .decision → w.conn.destination = .lih := by
    rcases hm with (⟨h, hd⟩ | h | h | h | h) | ⟨h, ho, hd⟩ <;> simp [*]
  cases h with
  | rest hs =>
    obtain hb | ⟨hi, -⟩ := hm
    · exact hb
    · exact absurd hi hs
  | early ho hs ht hc =>
    rw [Begun, (keepPkt_state ..).1, (keepPkt_state ..).2]
    obtain ⟨h, hd⟩ | h | h := hc
    · exact .inl ⟨h, hd.trans (hdest hs)⟩
    · simp [h]
    · simp [h]
  | away ho hs hc => obtain h | h := hc <;> simp [Begun, h]
  | redirect ho hs hred ht₁ hr =>
    rw [Begun, (keepPkt_state ..).1, setupRedirection_state hr]
    simp
  | answer ho hs hr =>
    obtain ⟨-, hst, -⟩ := replay_frame hr
    obtain ⟨d, hd⟩ := noteDelta_conn pkt w.conn
    obtain h | h := hst
    · rw [hd] at h
      exact .inr (.inl (h.trans hs))
    · exact .inr (.inr (.inl h))
  | forward ho hs => exact .inr (.inr (.inl hs))

/-! ### Runs -/

/-- A packet that is attributed to a connection has one of the four origins. -/
theorem Attributed.origin_ne_int {raw : RawPcap} {now : ℤ}
    (h : Attributed g s raw now s₁ i pkt c) : pkt.origin ≠ .int := by
  cases h with
  | found hcap hpkt hlook hc hs =>
    obtain ⟨-, h⟩ | ⟨-, h | h | h⟩ := connLookup_origin hlook
    · simp [h]
    · simp [h]
    · simp [h]
    · simp [h]
  | created hcap hpkt hlook hid ht hi hcr =>
    obtain ⟨-, -, ⟨h, -⟩ | ⟨h, -⟩ | ⟨h, -⟩⟩ := hcr.start
    · simp [hpkt, h]
    · simp [hpkt, h]
    · simp [hpkt, h]

/-- A packet of a connection from EXT finds it in one of the states `Meets`. -/
theorem Attributed.meets {raw : RawPcap} {now : ℤ}
    {P : ConnId → List Event → Conn → Prop} (hP : ∀ i tr c, P i tr c → c.initiator = .ext → Begun c)
    (hT : Tracked targets ifTarget P tr s) (hatt : Attributed g s raw now s₁ i pkt c)
    (hini : c.initiator = .ext) : Meets pkt c := by
  cases hatt with
  | found hcap hpkt hlook hc hs =>
    have hb := hP i _ _ (hT.holds i _ hc) hini
    exact .inl hb
  | created hcap hpkt hlook hid ht hi hcr =>
    obtain ⟨hr, -, ⟨h, hst, hd⟩ | ⟨h, -⟩ | ⟨h, -⟩⟩ := hcr.start
    · exact .inr ⟨hst, by rw [hpkt, ← h], hd⟩
    · rw [hini, h] at hr
      cases hr
    · rw [hini, h] at hr
      cases hr

/-- In every run, the connections from EXT are in one of the states `Begun`. -/
theorem tracked_begun {ok : State μ → Input → Prop}
    (hrun : Machine.Run (step mods g) ok (boot targets ifTarget mem) tr s) :
    Tracked targets ifTarget (fun _ _ c => c.initiator = .ext → Begun c) tr s := by
  refine connInvariant _ ?_ hrun
  intro tr s hT raw now s₁ i pkt c w ev _ _ hatt hh hini
  have hH := handle_cases hh
  have hini' : c.initiator = .ext := by rwa [Conn.initiator_of_flow hH.framed.2] at hini
  have hm := hatt.meets (fun _ _ _ h => h) hT hini'
  exact (hH.life hm hatt.origin_ne_int).begun hm

end Honeybrid
