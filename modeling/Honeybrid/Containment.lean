import Honeybrid.Executions

/-!
# Containment

What a honeypot opens may leave for EXT only if the connection goes there, and under the control
rule of the target: a packet is relayed by `proxy_int2ext` when the connection's destination is EXT
and the control rule is absent or was evaluated on that packet without rejecting it.

The dispatch does not keep to this. Two branches of `de_thread` relay to EXT without a look at the
destination: packets in CONTROL, of either honeypot, and packets of the low-interaction honeypot in
PROXY; their siblings for the other states check it. So the second packet of a connection to an
INTRA host that its rule has accepted is sent to EXT. The rule is kept in every run whose steps
stay out of these branches with a destination INTRA, and in which no control rule switches a
connection to INTRA by `dns_control` and then defers.

## Main definitions

* `Contained`: what containment says about the events of a step.
* `StaysInside`: the condition on a step.
* `Controlled`: the invariant of the connections opened by a honeypot.

## Main results

* `deProcessPacket_control`: the control of a packet by the rules.
* `containment`: the theorem about runs.
* `containment_broken`: a run that breaks containment.
-/

namespace Honeybrid

variable {μ : Type} {mods : Modules μ} {g : Globals} {s s' s₁ : State μ} {i : ConnId} {pkt : Pkt}
  {w w' w₁ : Work μ} {out tr ev : List Event} {c : Conn} {t : Target} {d : DecisionHolder}
  {targets : Std.TreeMap TargetId Target intcmp} {ifTarget : Std.TreeMap IfaceId TargetId} {mem : μ}

/-- A connection opened by a honeypot. -/
def Conn.fromInside (c : Conn) : Prop :=
  c.initiator = .lih ∨ c.initiator = .hih

/-- The frames that `proxy_int2ext` sends during a step, for connections opened by a honeypot, go to
EXT, under the control rule. -/
def Contained (s : State μ) (out : List Event) : Prop :=
  ∀ e, .emitted e ∈ out → e.sender = .proxyInt2ext → e.conn.fromInside →
    e.conn.destination = .ext ∧ ∃ t, s.targets[e.conn.target]? = some t ∧
      (t.controlRule = .null ∨ ∃ r, r ≠ .reject ∧ .evaluated e.id .control r ∈ out)

/-- The condition on a step: when it processes a packet of a honeypot, on a connection `c` opened by
a honeypot, then `c` does not go to INTRA, unless the packet comes from a high-interaction honeypot
and the state is not CONTROL; and a rule evaluated in CONTROL does not switch the connection and
then defer. -/
def StaysInside (mods : Modules μ) (g : Globals) (s : State μ) : Input → Prop
  | .packet raw now => ∀ s₁ i pkt c, assign g s raw now = .ok (s₁, some (i, pkt)) →
      s₁.conns[i]? = some c → c.fromInside → pkt.origin = .lih ∨ pkt.origin = .hih →
      (c.destination = .intra → c.state ≠ .control ∧ (c.state = .proxy → pkt.origin = .hih)) ∧
      (c.state = .control → ∀ d w ev,
        evaluate mods i pkt ⟨s₁, controlled pkt c⟩ = .ok (d, w, ev) → d.result = .defer →
          w.conn.state = .control)
  | .sweep .. => True

/-- The invariant of a connection opened by a honeypot, between two packets: it goes to EXT or to an
INTRA host, is past INIT, and is proxied to EXT only when there is no control rule. -/
structure Controlled (targets : Std.TreeMap TargetId Target intcmp) (c : Conn) : Prop where
  dest : c.destination = .ext ∨ c.destination = .intra
  state : c.state = .control ∨ c.state = .proxy ∨ c.state = .drop
  free : c.state = .proxy → c.destination = .ext →
    ∀ t, targets[c.target]? = some t → t.controlRule = .null

/-! ### The control of a packet -/

/-- In CONTROL, the rule of a connection to EXT is the control rule; the rule of a connection to an
INTRA host always gives a verdict other than to defer. -/
theorem evaluate_control (hs : w.conn.state = .control)
    (he : evaluate mods i pkt w = .ok (d, w₁, ev)) :
    ∃ t, w.st.targets[w.conn.target]? = some t ∧
      (w.conn.destination = .ext →
        (t.controlRule = .null ∧ d.result = .noRule ∧ w₁ = w) ∨
        (.evaluated i .control d.result ∈ ev ∧ d.result ≠ .noRule)) ∧
      (w.conn.destination = .intra → d.result ≠ .noRule ∧ d.result ≠ .defer) := by
  simp only [evaluate, hs] at he
  obtain ⟨t, ht, he⟩ := Except.bind_eq_ok.mp he
  refine ⟨t, Option.orFail_eq_ok.mp ht, fun hd => ?_, fun hd => ?_⟩
  · rw [hd] at he
    obtain ⟨hr, rfl, rfl, -⟩ | ⟨-, -, rfl, hres⟩ := getDecision_cases he
    · exact .inl ⟨hr, rfl, rfl⟩
    · refine .inr ⟨List.mem_singleton.mpr rfl, ?_⟩
      obtain h | h | h := hres <;> simp [h]
  · rw [hd] at he
    obtain ⟨⟨d₁, w₂, ev₁⟩, -, he⟩ := Except.bind_eq_ok.mp he
    simp only [Except.pure_eq_ok, Except.ok.injEq, Prod.mk.injEq] at he
    obtain ⟨rfl, -⟩ := he
    split_ifs with hres
    · simp
    · simpa [not_or, and_comm] using hres

/-- After `DE_process_packet` in CONTROL, the connection is controlled, proxied or dropped. -/
theorem deProcessPacket_control {status : Status} (hs : w.conn.state = .control)
    (hdest : w.conn.destination = .ext ∨ w.conn.destination = .intra)
    (h : deProcessPacket mods i pkt g w = .ok (status, w', ev)) :
    ∃ t, w.st.targets[w.conn.target]? = some t ∧
      (w'.conn.destination = .ext ∨ w'.conn.destination = .intra) ∧
      (w'.conn.state = .control ∨ w'.conn.state = .proxy ∨ w'.conn.state = .drop) ∧
      (w'.conn.state = .proxy → w'.conn.destination = .ext → t.controlRule = .null) := by
  obtain ⟨d, w₁, ev₁, ev₂, t', he, -, ha, rfl⟩ := deProcessPacket_cases h
  obtain ⟨t, ht, hext, hintra⟩ := evaluate_control hs he
  refine ⟨t, ht, ?_⟩
  obtain hc | ⟨hd, k, hc⟩ := (evaluate_run he).conn_cases
  · -- the rule has not switched the connection, so it is still in CONTROL
    have hs₁ : w₁.conn.state = .control := by rw [hc, hs]
    cases ha with
    | controlFree hd =>
      refine ⟨by simpa [Conn.switchState, hc] using hdest, .inr (.inl rfl), fun _ hd' => ?_⟩
      obtain ⟨hr, -⟩ | ⟨-, hne⟩ := hext (by simpa [Conn.switchState, hc] using hd')
      · exact hr
      · exact absurd hd hne
    | initFree hd hs' => simp [hs₁] at hs'
    | otherFree hd hne => exact absurd hs₁ hne
    | defer hd => exact ⟨hc ▸ hdest, .inl hs₁, by simp [hs₁]⟩
    | acceptInit hd hs' => simp [hs₁] at hs'
    | redirect hd hs' => simp [hs₁] at hs'
    | stay hd hs' => simp [hs₁] at hs'
    | acceptControl hd => exact ⟨hc ▸ hdest, .inl hs₁, by simp [hs₁]⟩
    | acceptOther hd hi hd' hne => exact absurd hs₁ hne
    | rejectDecision hd hs' => simp [hs₁] at hs'
    | rejectOther hd =>
      exact ⟨by simpa [Conn.switchState, hc] using hdest, .inr (.inr rfl),
        by simp [Conn.switchState]⟩
    | drop hd =>
      exact ⟨by simpa [Conn.switchState, hc] using hdest, .inr (.inr rfl),
        by simp [Conn.switchState]⟩
  · -- the connection was switched: it is proxied to an INTRA host, or dropped
    have hs₁ : w₁.conn.state = .proxy := by rw [hc]; rfl
    have hd₁ : w₁.conn.destination = .intra := by rw [hc]; rfl
    cases ha with
    | controlFree hd hs' => simp [hs₁] at hs'
    | initFree hd hs' => simp [hs₁] at hs'
    | acceptInit hd hs' => simp [hs₁] at hs'
    | redirect hd hs' => simp [hs₁] at hs'
    | stay hd hs' => simp [hs₁] at hs'
    | rejectDecision hd hs' => simp [hs₁] at hs'
    | rejectOther hd => exact ⟨.inr hd₁, .inr (.inr rfl), by simp [Conn.switchState]⟩
    | drop hd => exact ⟨.inr hd₁, .inr (.inr rfl), by simp [Conn.switchState]⟩
    | _ => exact ⟨.inr hd₁, .inr (.inl hs₁), by simp [hd₁]⟩

/-- A packet in CONTROL that is to be sent on, on a connection to EXT afterwards: there is no
control rule, or it was evaluated and did not reject. -/
theorem deProcessPacket_control_ok (hs : w.conn.state = .control)
    (h : deProcessPacket mods i pkt g w = .ok (.ok, w', ev)) (hd' : w'.conn.destination = .ext) :
    ∃ t, w.st.targets[w.conn.target]? = some t ∧
      (t.controlRule = .null ∨ ∃ r, r ≠ .reject ∧ .evaluated i .control r ∈ ev) := by
  obtain ⟨d, w₁, ev₁, ev₂, t', he, -, ha, rfl⟩ := deProcessPacket_cases h
  obtain ⟨t, ht, hext, hintra⟩ := evaluate_control hs he
  refine ⟨t, ht, ?_⟩
  have hwd : w₁.conn.destination = .ext := by cases ha <;> exact hd'
  have hreject : d.result ≠ .reject := by cases ha <;> simp_all
  have hd : w.conn.destination = .ext := by
    obtain hc | ⟨hd, k, hc⟩ := (evaluate_run he).conn_cases
    · rwa [hc] at hwd
    · rw [hc] at hwd
      cases hwd
  obtain ⟨hr, -⟩ | ⟨hmem, -⟩ := hext hd
  · exact .inl hr
  · exact .inr ⟨_, hreject, List.mem_append_left _ hmem⟩

/-- A packet in CONTROL that is to be sent on leaves the destination EXT alone, unless the rule
switched the connection and then deferred. -/
theorem deProcessPacket_control_dest (hs : w.conn.state = .control)
    (hdest : w.conn.destination = .ext)
    (hdefer : ∀ d w₁ ev₁, evaluate mods i pkt w = .ok (d, w₁, ev₁) → d.result = .defer →
      w₁.conn.state = .control)
    (h : deProcessPacket mods i pkt g w = .ok (.ok, w', ev)) : w'.conn.destination = .ext := by
  obtain ⟨d, w₁, ev₁, ev₂, t', he, -, ha, rfl⟩ := deProcessPacket_cases h
  obtain ⟨t, ht, hext, -⟩ := evaluate_control hs he
  obtain hc | ⟨hd, k, hc⟩ := (evaluate_run he).conn_cases
  · have hd₁ : w₁.conn.destination = .ext := by rw [hc, hdest]
    cases ha <;> exact hd₁
  · have hs₁ : w₁.conn.state = .proxy := by rw [hc]; rfl
    cases ha with
    | controlFree hd hs' => simp [hs₁] at hs'
    | initFree hd hs' => simp [hs₁] at hs'
    | acceptInit hd hs' => simp [hs₁] at hs'
    | acceptControl hd hs' => simp [hs₁] at hs'
    | defer hd =>
      have hs' := hdefer d w' ev₁ he hd
      simp [hs₁] at hs'
    | otherFree hd =>
      obtain ⟨-, -, rfl⟩ | ⟨-, hne⟩ := hext hdest
      · exact hdest
      · exact absurd hd hne

/-! ### The invariant -/

/-- A connection opened by a honeypot when a packet of it is dispatched: controlled, or new. -/
structure Ready (targets : Std.TreeMap TargetId Target intcmp) (pkt : Pkt) (c : Conn) : Prop where
  dest : c.destination = .ext ∨ c.destination = .intra
  state : (c.state = .control ∨ c.state = .proxy ∨ c.state = .drop) ∨
    (c.state = .init ∧ pkt.origin = .hih)
  free : c.state = .proxy → c.destination = .ext →
    ∀ t, targets[c.target]? = some t → t.controlRule = .null

theorem Controlled.ready {role : Role} {now : ℤ} (h : Controlled targets c) :
    Ready targets pkt (updateConn c role now) :=
  ⟨h.dest, .inl h.state, h.free⟩

theorem Controlled.keepPkt (h : Controlled targets c) :
    Controlled targets (keepPkt g t c pkt) := by
  obtain ⟨b, hb⟩ := keepPkt_conn g t c pkt
  rw [hb]
  exact ⟨h.dest, h.state, h.free⟩

/-- The control rule of a target is the one it was configured with. -/
theorem Tracked.controlRule {P : ConnId → List Event → Conn → Prop} {id : TargetId} {t' : Target}
    (hT : Tracked targets ifTarget P tr s) (ht : s.targets[id]? = some t)
    (ht' : targets[id]? = some t') : t.controlRule = t'.controlRule := by
  obtain ⟨t'', ht'', hfix⟩ := hT.target ht
  obtain rfl : t' = t'' := Option.some.inj (ht'.symm.trans ht'')
  have hrule := congrArg Target.controlRule hfix
  exact hrule

/-- A connection that is controlled by the rules stays so. -/
theorem controlled_of_deProcessPacket {status : Status} (hs : w.conn.state = .control)
    (hdest : w.conn.destination = .ext ∨ w.conn.destination = .intra)
    (hrule : ∀ t t', w.st.targets[w.conn.target]? = some t → targets[w.conn.target]? = some t' →
      t.controlRule = t'.controlRule)
    (h : deProcessPacket mods i pkt g w = .ok (status, w', ev)) : Controlled targets w'.conn := by
  obtain ⟨t, ht, hd, hst, hfree⟩ := deProcessPacket_control hs hdest h
  refine ⟨hd, hst, fun hp hx t' ht' => ?_⟩
  rw [Conn.target_of_flow (deProcessPacket_framed h).2] at ht'
  rw [← hrule t t' ht ht']
  exact hfree hp hx

/-- The dispatch keeps connections opened by a honeypot controlled. -/
theorem Handles.controlled (hR : Ready targets pkt w.conn)
    (hrule : ∀ t t', w.st.targets[w.conn.target]? = some t → targets[w.conn.target]? = some t' →
      t.controlRule = t'.controlRule)
    (h : Handles mods g i pkt w w' ev) : Controlled targets w'.conn := by
  have hsame (hs : w.conn.state = .control ∨ w.conn.state = .proxy ∨ w.conn.state = .drop) :
      Controlled targets w.conn := ⟨hR.dest, hs, hR.free⟩
  have hinit : w.conn.state = .init → pkt.origin = .hih := by
    rcases hR.state with (h | h | h) | ⟨h, ho⟩ <;> simp [*]
  have hlate : w.conn.state ≠ .decision ∧ w.conn.state ≠ .replay ∧ w.conn.state ≠ .forward ∧
      w.conn.state ≠ .invalid := by
    rcases hR.state with (h | h | h) | ⟨h, ho⟩ <;> simp [h]
  obtain ⟨n, hn⟩ := noteLihSyn_conn pkt w.conn
  cases h with
  | refused hs =>
    obtain ⟨h₁, -⟩ | h₁ := hs
    · exact absurd h₁ hlate.2.2.2
    · exact hsame (.inr (.inr h₁))
  | lihEarly ho hs =>
    obtain hs | hs := hs
    · rw [hinit hs] at ho
      cases ho
    · exact absurd hs hlate.1
  | lihProxy ho hs => exact hsame (.inr (.inl hs))
  | lihControlOk ho hs hd ht hp =>
    refine Controlled.keepPkt (controlled_of_deProcessPacket ?_ ?_ ?_ hd)
    · simpa [hn] using hs
    · simpa [hn] using hR.dest
    · simpa [hn] using hrule
  | lihControlNok ho hs hd ht =>
    refine Controlled.keepPkt (controlled_of_deProcessPacket ?_ ?_ ?_ hd)
    · simpa [hn] using hs
    · simpa [hn] using hR.dest
    · simpa [hn] using hrule
  | lihOther ho hs =>
    obtain hs | hs | hs := hs
    · exact absurd hs hlate.2.1
    · exact absurd hs hlate.2.2.1
    · exact absurd hs hlate.2.2.2
  | hihReplay ho hs => exact absurd hs hlate.2.1
  | hihForward ho hs => exact absurd hs hlate.2.2.1
  | hihProxy ho hs => exact hsame (.inr (.inl hs))
  | hihControlOk ho hs hd => exact controlled_of_deProcessPacket hs hR.dest hrule hd
  | hihControlNok ho hs hd => exact controlled_of_deProcessPacket hs hR.dest hrule hd
  | hihDeny ho hs => exact ⟨hR.dest, .inr (.inr rfl), by simp [Conn.switchState]⟩
  | hihInitOk ho hs hd =>
    exact controlled_of_deProcessPacket (w := { w with conn := w.conn.switchState .control }) rfl
      hR.dest hrule hd
  | hihInitNok ho hs hd =>
    exact controlled_of_deProcessPacket (w := { w with conn := w.conn.switchState .control }) rfl
      hR.dest hrule hd
  | intraProxy ho hs => exact hsame (.inr (.inl hs))
  | intraOther ho =>
    obtain hs | ⟨-, ho'⟩ := hR.state
    · exact hsame hs
    · rw [ho] at ho'
      cases ho'
  | extEarlyOk ho hs =>
    obtain hs | hs := hs
    · rw [hinit hs] at ho
      simp at ho
    · exact absurd hs hlate.1
  | extEarlyNok ho hs =>
    obtain hs | hs := hs
    · rw [hinit hs] at ho
      simp at ho
    · exact absurd hs hlate.1
  | extForward ho hs => exact absurd hs hlate.2.2.1
  | extProxy ho hs =>
    obtain hs | hs := hs
    · exact hsame (.inr (.inl hs))
    · exact hsame (.inl hs)
  | extOther ho hs =>
    obtain hs | hs := hs
    · exact absurd hs hlate.2.1
    · exact absurd hs hlate.2.2.2

/-- A packet that is attributed to a connection opened by a honeypot finds it ready. -/
theorem Attributed.ready {raw : RawPcap} {now : ℤ}
    (hT : Tracked targets ifTarget (fun _ _ c => c.fromInside → Controlled targets c) tr s)
    (hatt : Attributed g s raw now s₁ i pkt c) (hin : c.fromInside) : Ready targets pkt c := by
  cases hatt with
  | found hcap hpkt hlook hc hs => exact (hT.holds i _ hc hin).ready
  | created hcap hpkt hlook hid ht hi hcr =>
    obtain ⟨hini, -, ⟨hr, -⟩ | ⟨hr, hst, hd⟩ | ⟨hr, hst, hd⟩⟩ := hcr.start
    · rw [Conn.fromInside, hini, hr] at hin
      simp at hin
    · exact ⟨.inl hd, .inl (.inl hst), by simp [hst]⟩
    · exact ⟨hd, .inr ⟨hst, by rw [hpkt, ← hr]⟩, by simp [hst]⟩

/-- In every run, the connections opened by a honeypot are controlled. -/
theorem tracked_controlled {ok : State μ → Input → Prop}
    (hrun : Machine.Run (step mods g) ok (boot targets ifTarget mem) tr s) :
    Tracked targets ifTarget (fun _ _ c => c.fromInside → Controlled targets c) tr s := by
  refine connInvariant _ ?_ hrun
  intro tr s hT raw now s₁ i pkt c w ev _ _ hatt hh hin
  have hH := handle_cases hh
  have hflow := hH.framed.2
  have hin' : c.fromInside := by
    rwa [Conn.fromInside, Conn.initiator_of_flow hflow] at hin
  refine hH.controlled (hatt.ready hT hin') fun t t' ht ht' => ?_
  refine hT.controlRule ?_ ht'
  rw [← hatt.frame.1]
  exact ht

/-- In every run, connections are opened by EXT or by a honeypot. -/
theorem tracked_initiator {ok : State μ → Input → Prop}
    (hrun : Machine.Run (step mods g) ok (boot targets ifTarget mem) tr s) :
    Tracked targets ifTarget (fun _ _ c => c.initiator = .ext ∨ c.fromInside) tr s := by
  refine connInvariant _ ?_ hrun
  intro tr s hT raw now s₁ i pkt c w ev _ _ hatt hh
  have hflow := Conn.initiator_of_flow (handle_cases hh).framed.2
  rw [Conn.fromInside, hflow]
  cases hatt with
  | @found pkt₀ c hcap hpkt hlook hc hs => exact hT.holds i c hc
  | created hcap hpkt hlook hid ht hi hcr =>
    obtain ⟨hr, -, ⟨h, -⟩ | ⟨h, -⟩ | ⟨h, -⟩⟩ := hcr.start <;> simp [hr, h]

/-- Only connections from EXT are redirected. -/
theorem initiator_of_redirected {ok : State μ → Input → Prop}
    (hrun : Machine.Run (step mods g) ok (boot targets ifTarget mem) tr s)
    (hc : s.conns[i]? = some c) (hs : c.state = .replay ∨ c.state = .forward) :
    c.initiator = .ext := by
  obtain hini | hin := (tracked_initiator hrun).holds i c hc
  · exact hini
  · obtain h | h | h := ((tracked_controlled hrun).holds i c hc hin).state <;> simp [h] at hs

/-- What a packet of a connection that is proxied to EXT is relayed under. -/
theorem Ready.free_target {P : ConnId → List Event → Conn → Prop}
    (hT : Tracked targets ifTarget P tr s)
    (hR : Ready targets pkt c) (hs : c.state = .proxy) (hd : c.destination = .ext)
    (ht : s.targets[c.target]? = some t) : t.controlRule = .null := by
  obtain ⟨t', ht', -⟩ := hT.target ht
  rw [hT.controlRule ht ht']
  exact hR.free hs hd t' ht'

/-- A packet in CONTROL on a connection to EXT, sent on by the rules, is contained. -/
theorem contained_control {e : Emission} (hs : w.conn.state = .control)
    (hd : w₁.conn.destination = .ext)
    (hde : deProcessPacket mods i pkt g w = .ok (.ok, w₁, ev)) (he : e.conn = w₁.conn)
    (hid : e.id = i) (hsub : ∀ x ∈ ev, x ∈ out) (htar : w.st.targets = s.targets) :
    e.conn.destination = .ext ∧ ∃ t, s.targets[e.conn.target]? = some t ∧
      (t.controlRule = .null ∨ ∃ r, r ≠ .reject ∧ .evaluated e.id .control r ∈ out) := by
  obtain ⟨t, ht, hrule⟩ := deProcessPacket_control_ok hs hde hd
  have hflow := Conn.target_of_flow (deProcessPacket_framed hde).2
  refine ⟨by rw [he, hd], t, by rw [he, hflow, ← htar, ht], hrule.imp_right ?_⟩
  rintro ⟨r, hr, hmem⟩
  exact ⟨r, hr, hid ▸ hsub _ hmem⟩

/-- **Containment.** In every run whose steps stay inside, what `proxy_int2ext` sends for a
connection opened by a honeypot goes to EXT, under the control rule. -/
theorem containment {inp : Input}
    (hrun : Machine.Run (step mods g) (StaysInside mods g) (boot targets ifTarget mem) tr s)
    (hok : StaysInside mods g s inp) (hstep : step mods g s inp = .ok (s', out)) :
    Contained s out := by
  have hT := tracked_controlled hrun
  intro e he hsender hin
  obtain ⟨-, hout⟩ | ⟨raw, now, s₁, i, pkt, c, w, ev, rfl, hc, ha, hatt, hh, rfl, rfl⟩ :=
    step_cases hstep
  · cases hout _ he
  have he' : .emitted e ∈ ev := by simpa using he
  have hH := handle_cases hh
  have htar := hatt.frame.1
  have hid : e.id = i := Option.some.inj (hH.about _ he')
  have hflow : e.conn.flow = c.flow := hH.proxyInt2ext_flow he' hsender
  have hin' : c.fromInside := by rwa [Conn.fromInside, Conn.initiator_of_flow hflow] at hin
  have hR := hatt.ready hT hin'
  have hinside := hok s₁ i pkt c ha hc hin'
  obtain ⟨ho, hs, -⟩ | ⟨hs, hcn, ho, t, ht⟩ | ⟨hs, ho, w₁, ev₁, ev₂, hde, hcn, rfl⟩ |
    ⟨ho, hs, w₁, ev₁, ev₂, hde, hcn, hd, rfl⟩ := (hH.proxyInt2ext he' hsender).2
  · -- no connection opened by a honeypot waits in INIT or DECISION for the other honeypot
    simp only at hs
    obtain (h | h | h) | ⟨-, ho'⟩ := hR.state
    · simp [h] at hs
    · simp [h] at hs
    · simp [h] at hs
    · rw [ho] at ho'
      cases ho'
  · simp only at hs hcn ho ht
    have hd : c.destination = .ext := by
      obtain ho | ⟨-, hd⟩ := ho
      · refine hR.dest.resolve_right fun hd => ?_
        have := ((hinside (.inl ho)).1 hd).2 hs
        rw [ho] at this
        cases this
      · exact hd
    refine ⟨by rw [hcn, hd], t, by rw [hcn, ← htar, ht], .inl ?_⟩
    exact hR.free_target hT hs hd (by rw [← htar, ht])
  · simp only at hs hde
    have hs' : (controlled pkt c).state = .control ∧
        (controlled pkt c).destination = c.destination := by
      obtain ⟨n, hn⟩ := noteLihSyn_conn pkt c
      unfold controlled
      split_ifs
      · rw [hn]
        exact ⟨hs, rfl⟩
      · exact ⟨hs, rfl⟩
    have hd : c.destination = .ext :=
      hR.dest.resolve_right fun hd => ((hinside ho).1 hd).1 hs
    have hd₁ := deProcessPacket_control_dest (w := ⟨s₁, controlled pkt c⟩) hs'.1 (hs'.2.trans hd)
      ((hinside ho).2 hs) hde
    exact contained_control (w := ⟨s₁, controlled pkt c⟩) hs'.1 hd₁ hde hcn hid
      (fun x hx => List.mem_cons_of_mem _ (List.mem_append_left _ hx)) htar
  · exact contained_control (w := ⟨s₁, c.switchState .control⟩) rfl hd hde hcn hid
      (fun x hx => List.mem_cons_of_mem _ (List.mem_append_left _ hx)) htar

/-- The state and the destination of the connection that a packet finds or opens. -/
def found (g : Globals) (s : State μ) (raw : RawPcap) (now : ℤ) :
    Except Fault (Option (ConnStatus × Role)) := do
  let r ← assign g s raw now
  return r.2.bind fun x => r.1.conns[x.1]?.map fun c => (c.state, c.destination)

/-- A packet of a connection to EXT meets the condition, unless it is under control. -/
theorem staysInside_of_found {raw : RawPcap} {now : ℤ} {state : ConnStatus}
    (hfound : found g s raw now = .ok (some (state, .ext))) (hstate : state ≠ .control) :
    StaysInside mods g s (.packet raw now) := by
  intro s₁ i pkt c ha hc _ _
  rw [found, ha] at hfound
  simp only [Except.ok_bind, Option.bind_some, hc, Option.map_some, Except.pure_eq_ok,
    Except.ok.injEq, Option.some.injEq, Prod.mk.injEq] at hfound
  obtain ⟨rfl, hdest⟩ := hfound
  refine ⟨fun hintra => ?_, fun hcontrol => absurd hcontrol hstate⟩
  rw [hdest] at hintra
  cases hintra

/-- A frame that `proxy_int2ext` sends for a connection of a high-interaction honeypot. -/
def Event.leavesHih : Event → Bool
  | .emitted e => e.sender = .proxyInt2ext ∧ e.conn.initiator = .hih
  | _ => false

/-- A high-interaction honeypot that has opened a connection to EXT, without a control rule, sends
another packet. -/
theorem containment_open : ∃ tr s s' out,
    Machine.Run (step (Sample.modules .accept) Sample.globals)
      (StaysInside (Sample.modules .accept) Sample.globals) Sample.start tr s ∧ tr.length = 2 ∧
    StaysInside (Sample.modules .accept) Sample.globals s
      (.packet (Sample.udp 2 20 1000 50 80) 1) ∧
    step (Sample.modules .accept) Sample.globals s (.packet (Sample.udp 2 20 1000 50 80) 1) =
      .ok (s', out) ∧ out.any Event.leavesHih = true ∧ Contained s out := by
  have hruns : (do
      let r ← step (Sample.modules .accept) Sample.globals Sample.start
        (.packet (Sample.udp 2 20 1000 50 80) 0)
      let x ← found Sample.globals r.1 (Sample.udp 2 20 1000 50 80) 1
      let r' ← step (Sample.modules .accept) Sample.globals r.1
        (.packet (Sample.udp 2 20 1000 50 80) 1)
      return (r.2.length, x, r'.2.any Event.leavesHih) :
        Except Fault (ℕ × Option (ConnStatus × Role) × Bool)) =
      .ok (2, some (.proxy, .ext), true) := by
    rfl
  have hopen : found Sample.globals Sample.start (Sample.udp 2 20 1000 50 80) 0 =
      .ok (some (.init, .ext)) := by
    rfl
  have hfirst : StaysInside (Sample.modules .accept) Sample.globals Sample.start
      (.packet (Sample.udp 2 20 1000 50 80) 0) :=
    staysInside_of_found hopen (by decide)
  obtain ⟨⟨s, tr⟩, h₁, hruns⟩ := Except.bind_eq_ok.mp hruns
  obtain ⟨x, hx, hruns⟩ := Except.bind_eq_ok.mp hruns
  obtain ⟨⟨s', out⟩, h₂, hruns⟩ := Except.bind_eq_ok.mp hruns
  have hvalues := Except.ok.inj hruns
  simp only [Prod.mk.injEq] at hvalues
  obtain ⟨hlen, rfl, hsent⟩ := hvalues
  have hsecond : StaysInside (Sample.modules .accept) Sample.globals s
      (.packet (Sample.udp 2 20 1000 50 80) 1) :=
    staysInside_of_found hx (by decide)
  have hrun : Machine.Run (step (Sample.modules .accept) Sample.globals)
      (StaysInside (Sample.modules .accept) Sample.globals) Sample.start tr s := by
    simpa using Machine.Run.start.snoc hfirst h₁
  exact ⟨tr, s, s', out, hrun, hlen, hsecond, h₂, hsent, containment hrun hsecond h₂⟩

/-- A frame of a connection to an INTRA host that is sent to EXT. -/
def Event.leaks : Event → Bool
  | .emitted e =>
    e.sender = .proxyInt2ext ∧ e.conn.initiator = .hih ∧ e.conn.destination = .intra
  | _ => false

/-- A high-interaction honeypot sends two packets to an INTRA host whose rule accepts them: the
second one is sent to EXT. -/
theorem containment_broken :
    ∃ tr s s' out,
      Machine.Reaches (step (Sample.modules .accept) Sample.globals) Sample.start tr s ∧
      step (Sample.modules .accept) Sample.globals s (.packet (Sample.udp 2 20 1000 40 80) 0) =
        .ok (s', out) ∧ ¬Contained s out := by
  have hleak : (do
      let r ← step (Sample.modules .accept) Sample.globals Sample.start
        (.packet (Sample.udp 2 20 1000 40 80) 0)
      let r' ← step (Sample.modules .accept) Sample.globals r.1
        (.packet (Sample.udp 2 20 1000 40 80) 0)
      return r'.2.any Event.leaks : Except Fault Bool) = .ok true := by rfl
  obtain ⟨⟨s, tr⟩, h₁, hleak⟩ := Except.bind_eq_ok.mp hleak
  obtain ⟨⟨s', out⟩, h₂, hleak⟩ := Except.bind_eq_ok.mp hleak
  refine ⟨tr, s, s', out, by simpa using Machine.Run.start.snoc trivial h₁, h₂, fun hc => ?_⟩
  obtain ⟨x, hx, hl⟩ := List.any_eq_true.mp (Except.ok.inj hleak)
  cases x with
  | emitted e =>
    simp only [Event.leaks, Bool.decide_and, Bool.and_eq_true, decide_eq_true_eq] at hl
    obtain ⟨hs, hini, hdest⟩ := hl
    have hext := (hc e hx hs (.inr hini)).1
    rw [hdest] at hext
    cases hext
  | received | evaluated | fragNeeded => cases hl

end Honeybrid
