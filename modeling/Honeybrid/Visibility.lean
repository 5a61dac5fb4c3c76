import Honeybrid.Lifecycle

/-!
# One honeypot at a time

The attacker is never to see two hosts behind one connection. When `dns_control` is used in control
rules only, a connection from EXT shows packets of the high-interaction honeypot only in FORWARD,
and once it has been redirected no packet of the low-interaction honeypot any more. REPLAY is left
for FORWARD only, FORWARD, PROXY and DROP are final, and after DROP nothing is sent but a reset to
EXT, if `reset_ext` asks for it.

## Main definitions

* `DnsInControlOnly`: no rule that decides on connections from EXT uses `dns_control`.
* `Emission.toExt`: a packet of a honeypot is sent to EXT.
* `Onward`: what is still possible for a connection from EXT.

## Main results

* `Handles.dest_lih`: the destination of a connection from EXT stays the low-interaction honeypot.
* `Handles.visible`: which packets a connection from EXT shows, and when.
* `one_honeypot`: the theorem about runs.
-/

namespace Honeybrid

variable {μ : Type} {mods : Modules μ} {g : Globals} {s s' s₁ : State μ} {i : ConnId} {pkt : Pkt}
  {w w' : Work μ} {out tr tr' ev : List Event} {c c' : Conn} {t : Target}
  {targets : Std.TreeMap TargetId Target intcmp} {ifTarget : Std.TreeMap IfaceId TargetId} {mem : μ}

/-- The module `dns_control` is not used in the rules that decide on connections from EXT. -/
def DnsInControlOnly (targets : Std.TreeMap TargetId Target intcmp) : Prop :=
  ∀ (id : TargetId) (t : Target), targets[id]? = some t → ∀ r ∈ t.decisionRules, r.usesDns = false

/-- A packet of a honeypot is sent to EXT. -/
def Emission.toExt (e : Emission) : Prop :=
  e.sender = .proxyInt2ext ∨ e.sender = .forwardHih2ext

/-! ### The destination -/

theorem Acts.destination {d : DecisionHolder} {status : Status} (h : Acts g i t d w status w' ev) :
    w'.conn.destination = w.conn.destination := by
  cases h with
  | redirect hd hs hr =>
    obtain ⟨h', key, rid, ed, -, -, rfl⟩ := setupRedirection_conn hr
    rfl
  | _ => rfl

/-- Without `dns_control`, a decision leaves the destination alone. -/
theorem deProcessPacket_destination {status : Status}
    (hs : w.conn.state = .init ∨ w.conn.state = .decision)
    (hrules : ∀ t, w.st.targets[w.conn.target]? = some t →
      ∀ r ∈ t.decisionRules, r.usesDns = false)
    (h : deProcessPacket mods i pkt g w = .ok (status, w', ev)) :
    w'.conn.destination = w.conn.destination := by
  obtain ⟨d, w₁, ev₁, ev₂, t, he, -, ha, -⟩ := deProcessPacket_cases h
  have hrun : RuleRun i false w w₁ := by
    refine evaluate_run_of (fun t ht hor => ?_) he
    obtain hc | ⟨r, hr, hu⟩ := hor
    · obtain hs | hs := hs
      · simp [hs] at hc
      · simp [hs] at hc
    · simp [hrules t ht r hr] at hu
  obtain ⟨m, rfl⟩ := hrun.mem_only
  exact ha.destination

/-- A connection from EXT keeps going to the low-interaction honeypot. -/
theorem Handles.dest_lih (hm : Meets pkt w.conn) (hd : w.conn.destination = .lih)
    (hrules : ∀ t, w.st.targets[w.conn.target]? = some t →
      ∀ r ∈ t.decisionRules, r.usesDns = false)
    (h : Handles mods g i pkt w w' ev) : w'.conn.destination = .lih := by
  have hne : w.conn.state ≠ .control := by
    rcases hm with (⟨h, -⟩ | h | h | h | h) | ⟨h, -⟩ <;> simp [h]
  cases h with
  | lihEarly ho hs ht hp =>
    obtain ⟨n, hn⟩ := noteLihSyn_conn pkt w.conn
    rw [(keepPkt_state ..).2, hn]
    exact hd
  | lihControlOk ho hs => exact absurd hs hne
  | lihControlNok ho hs => exact absurd hs hne
  | hihReplay ho hs hr =>
    obtain ⟨⟨_, _, _, _, _, rfl⟩, -⟩ := replay_frame hr
    obtain ⟨d, hnd⟩ := noteDelta_conn pkt w.conn
    rw [hnd]
    exact hd
  | hihControlOk ho hs => exact absurd hs hne
  | hihControlNok ho hs => exact absurd hs hne
  | hihInitOk ho hs hde =>
    obtain ⟨hc, -⟩ := deProcessPacket_away
      (w := { w with conn := w.conn.switchState .control }) rfl hd hde
    rw [hc]
    exact hd
  | hihInitNok ho hs hde =>
    obtain ⟨hc, -⟩ := deProcessPacket_away
      (w := { w with conn := w.conn.switchState .control }) rfl hd hde
    rw [hc]
    exact hd
  | extEarlyOk ho hs hde ht hp =>
    rw [(keepPkt_state ..).2, deProcessPacket_destination hs hrules hde, hd]
  | extEarlyNok ho hs hde ht =>
    rw [(keepPkt_state ..).2, deProcessPacket_destination hs hrules hde, hd]
  | _ => exact hd

/-! ### What is shown -/

/-- In which branch `forward_hih2ext` is called. -/
theorem Handles.forwarded {e : Emission} (h : Handles mods g i pkt w w' ev)
    (he : .emitted e ∈ ev) (hsender : e.sender = .forwardHih2ext) :
    e.pkt.origin = pkt.origin ∧ e.conn = w.conn ∧ pkt.origin = .hih ∧ w.conn.state = .forward := by
  have hint {t : Target} {c : Conn} {pkt' : Pkt} {ev₁ : List Event}
      (hp : Honeybrid.proxyInt2ext g t i c pkt = .ok (pkt', ev₁)) : .emitted e ∉ ev₁ := by
    intro he
    simp [(proxyInt2ext_emitted hp he).1] at hsender
  have hext {t : Target} {c : Conn} {pkt' : Pkt} {ev₁ : List Event}
      (hp : proxyExt2int g t i c pkt = .ok (pkt', ev₁)) : .emitted e ∉ ev₁ := by
    intro he
    simp [proxyExt2int_emitted hp he] at hsender
  cases h.relayed he (by rw [hsender]; rfl) with
  | early ho hs ht hp he' => exact absurd he' (hint hp)
  | proxied ho hs ht hp he' => exact absurd he' (hint hp)
  | controlled ho hs hd ht hp he' => exact absurd he' (hint hp)
  | opened ho hs hd hdest ht hp he' => exact absurd he' (hint hp)
  | forwarded ho hs ht hf he' =>
    obtain ⟨-, hc, hpkt⟩ := forwardHih2ext_emitted hf he'
    exact ⟨hpkt, hc, ho, hs⟩
  | ruled ho hd ht hp he' => exact absurd he' (hext hp)
  | inward ho ht hp he' => exact absurd he' (hext hp)

/-- A packet of a honeypot is sent to EXT only from the low-interaction honeypot, before a
redirection, or from the high-interaction honeypot in FORWARD. -/
theorem Handles.visible {e : Emission} (hm : Meets pkt w.conn) (hd : w.conn.destination = .lih)
    (h : Handles mods g i pkt w w' ev) (he : .emitted e ∈ ev) (hext : e.toExt) :
    e.pkt.origin = pkt.origin ∧ e.conn.state = w.conn.state ∧
      ((pkt.origin = .lih ∧
        (w.conn.state = .init ∨ w.conn.state = .decision ∨ w.conn.state = .proxy)) ∨
      (pkt.origin = .hih ∧ w.conn.state = .forward)) := by
  have hne : w.conn.state ≠ .control := by
    rcases hm with (⟨h, -⟩ | h | h | h | h) | ⟨h, -⟩ <;> simp [h]
  obtain hsender | hsender := hext
  · obtain ⟨hpkt, ⟨ho, hs, hc⟩ | ⟨hs, hc, ho, -⟩ | ⟨hs, -⟩ |
      ⟨-, -, w₁, ev₁, ev₂, hde, -, hdest, -⟩⟩ := h.proxyInt2ext he hsender
    · obtain ⟨n, hn⟩ := noteLihSyn_conn pkt w.conn
      refine ⟨hpkt, by rw [hc, hn], .inl ⟨ho, ?_⟩⟩
      obtain hs | hs := hs <;> simp [hs]
    · obtain ho | ⟨-, hdest⟩ := ho
      · exact ⟨hpkt, by rw [hc], .inl ⟨ho, .inr (.inr hs)⟩⟩
      · rw [hd] at hdest
        cases hdest
    · exact absurd hs hne
    · -- the connection goes to the low-interaction honeypot, and the rules leave it so
      obtain ⟨hc, -⟩ := deProcessPacket_away
        (w := { w with conn := w.conn.switchState .control }) rfl hd hde
      rw [hc] at hdest
      simp [Conn.switchState, hd] at hdest
  · obtain ⟨hpkt, hc, ho, hs⟩ := h.forwarded he hsender
    exact ⟨hpkt, by rw [hc], .inr ⟨ho, hs⟩⟩

theorem Handles.toExt_flow {e : Emission} (h : Handles mods g i pkt w w' ev)
    (he : .emitted e ∈ ev) (hext : e.toExt) : e.conn.flow = w.conn.flow := by
  obtain hsender | hsender := hext
  · exact h.proxyInt2ext_flow he hsender
  · rw [(h.forwarded he hsender).2.1]

/-- On a dropped connection nothing is sent but a reset to EXT. -/
theorem Handles.dropped {e : Emission} (hs : w.conn.state = .drop)
    (h : Handles mods g i pkt w w' ev) (he : .emitted e ∈ ev) :
    e.sender = .replyReset ∧ e.pkt.origin = .ext ∧ g.resetExt = 1 ∧
      e.frame = resetFrame e.pkt.original ∧
      ∃ t, w.st.targets[w.conn.target]? = some t ∧ t.defaultRoute = some e.out := by
  cases h with
  | refused hr hev hext =>
    obtain ⟨ho, hrst, hpkt, -, hframe, t, ht, hout⟩ := hext e he
    exact ⟨hev.sender he, by rw [hpkt, ho], hrst, by rw [hframe, hpkt], t, ht, hout⟩
  | intraOther ho => cases he
  | _ => simp_all

/-! ### Runs -/

theorem Target.decisionRules_of_fixed {t t' : Target} (h : t.fixed = t'.fixed) :
    t.decisionRules = t'.decisionRules := by
  have hr := congrArg Target.decisionRules h
  exact hr

/-- A connection from EXT goes to the low-interaction honeypot. -/
def OnLih (c : Conn) : Prop :=
  c.initiator = .ext → Begun c ∧ c.destination = .lih

theorem Attributed.dest_lih {raw : RawPcap} {now : ℤ}
    (hT : Tracked targets ifTarget (fun _ _ c => OnLih c) tr s)
    (hatt : Attributed g s raw now s₁ i pkt c) (hini : c.initiator = .ext) :
    Meets pkt c ∧ c.destination = .lih := by
  refine ⟨hatt.meets (fun _ _ _ h hini => (h hini).1) hT hini, ?_⟩
  cases hatt with
  | found hcap hpkt hlook hc hs => exact (hT.holds i _ hc hini).2
  | created hcap hpkt hlook hid ht hi hcr =>
    obtain ⟨hr, -, ⟨-, -, hd⟩ | ⟨h, -⟩ | ⟨h, -⟩⟩ := hcr.start
    · exact hd
    · rw [hini, h] at hr
      cases hr
    · rw [hini, h] at hr
      cases hr

/-- The rules that decide on a packet do not use `dns_control`. -/
theorem DnsInControlOnly.rules {P : ConnId → List Event → Conn → Prop}
    (hdns : DnsInControlOnly targets) (hT : Tracked targets ifTarget P tr s)
    (hs : s₁.targets = s.targets) :
    ∀ t, s₁.targets[c.target]? = some t → ∀ r ∈ t.decisionRules, r.usesDns = false := by
  intro t ht r hr
  rw [hs] at ht
  obtain ⟨t', ht', hfix⟩ := hT.target ht
  rw [Target.decisionRules_of_fixed hfix] at hr
  exact hdns _ t' ht' r hr

theorem tracked_onLih {ok : State μ → Input → Prop} (hdns : DnsInControlOnly targets)
    (hrun : Machine.Run (step mods g) ok (boot targets ifTarget mem) tr s) :
    Tracked targets ifTarget (fun _ _ c => OnLih c) tr s := by
  refine connInvariant _ ?_ hrun
  intro tr s hT raw now s₁ i pkt c w ev _ _ hatt hh hini
  have hH := handle_cases hh
  have hini' : c.initiator = .ext := by rwa [Conn.initiator_of_flow hH.framed.2] at hini
  obtain ⟨hm, hd⟩ := hatt.dest_lih hT hini'
  exact ⟨(hH.life hm hatt.origin_ne_int).begun hm,
    hH.dest_lih hm hd (hdns.rules hT hatt.frame.1)⟩

/-- The states a connection from EXT can be in later on. -/
def ConnStatus.Later : ConnStatus → ConnStatus → Prop
  | .replay, st => st = .replay ∨ st = .forward
  | .forward, st => st = .forward
  | .proxy, st => st = .proxy
  | .drop, st => st = .drop
  | _, _ => True

theorem ConnStatus.Later.trans {a b d : ConnStatus} (h : a.Later b) (h' : b.Later d) :
    a.Later d := by
  cases a <;> simp only [ConnStatus.Later] at h ⊢
  · obtain rfl | rfl := h
    · exact h'
    · exact .inr h'
  · subst h
    exact h'
  · subst h
    exact h'
  · subst h
    exact h'

theorem Life.later (h : Life mods g i pkt w c' ev) : w.conn.state.Later c'.state := by
  obtain hs | ⟨hs | hs, -⟩ | ⟨hs, hs'⟩ := h.state_cases
  · rw [hs]
    cases w.conn.state <;> simp [ConnStatus.Later]
  · simp [hs, ConnStatus.Later]
  · simp [hs, ConnStatus.Later]
  · simp [hs, hs', ConnStatus.Later]

/-- What a run that starts with the connection `c` from EXT, of number `i`, can still do: `tr` are
its events and `s` is the state it leads to. -/
structure Onward (targets : Std.TreeMap TargetId Target intcmp) (g : Globals) (i : ConnId)
    (c : Conn) (tr : List Event) (s : State μ) : Prop where
  /-- REPLAY is left for FORWARD only, and FORWARD, PROXY and DROP are final. -/
  later : ∀ c', s.conns[i]? = some c' → c.state.Later c'.state
  /-- A redirected connection shows no packet of the low-interaction honeypot. -/
  hidden : c.state = .replay ∨ c.state = .forward →
    ∀ e, .emitted e ∈ tr → e.id = i → e.toExt → e.pkt.origin ≠ .lih
  /-- On a dropped connection nothing is sent but a reset to EXT, if so configured. -/
  dropped : c.state = .drop → ∀ e, .emitted e ∈ tr → e.id = i →
    e.sender = .replyReset ∧ e.pkt.origin = .ext ∧ g.resetExt = 1 ∧
      e.frame = resetFrame e.pkt.original ∧
      ∃ t, targets[c.target]? = some t ∧ t.defaultRoute = some e.out

/-- What is kept along a run that starts with the connection `c` of number `i`: the number is not
used again, and a connection with this number is the same flow. -/
structure Follows (targets : Std.TreeMap TargetId Target intcmp) (g : Globals) (i : ConnId)
    (c : Conn) (tr : List Event) (s : State μ) : Prop where
  used : i ≤ s.cId
  flow : ∀ c', s.conns[i]? = some c' → c'.flow = c.flow
  onward : Onward targets g i c tr s

theorem Follows.start (hi : i ≤ s.cId) (hc : s.conns[i]? = some c) :
    Follows targets g i c [] s := by
  have hsame {c' : Conn} (hc' : s.conns[i]? = some c') : c' = c :=
    Option.some.inj (hc'.symm.trans hc)
  refine ⟨hi, fun c' hc' => by rw [hsame hc'], ⟨fun c' hc' => ?_, by simp, by simp⟩⟩
  rw [hsame hc']
  cases c.state <;> simp [ConnStatus.Later]

/-- A step about other connections. -/
theorem Follows.other (hF : Follows targets g i c tr s) (hi : s.cId ≤ s'.cId)
    (hconns : ∀ c', s'.conns[i]? = some c' → s.conns[i]? = some c')
    (hout : ∀ e, .emitted e ∈ out → e.id ≠ i) : Follows targets g i c (tr ++ out) s' := by
  have hold {e : Emission} (he : .emitted e ∈ tr ++ out) (hid : e.id = i) : .emitted e ∈ tr :=
    (List.mem_append.mp he).resolve_right fun h => hout e h hid
  exact ⟨Nat.le_trans hF.used hi, fun c' hc' => hF.flow c' (hconns c' hc'),
    ⟨fun c' hc' => hF.onward.later c' (hconns c' hc'),
      fun hs e he hid => hF.onward.hidden hs e (hold he hid) hid,
      fun hs e he hid => hF.onward.dropped hs e (hold he hid) hid⟩⟩

/-- A packet of the connection itself. -/
theorem Follows.packet {c₀ : Conn} (hF : Follows targets g i c₀ tr s) (hm : Meets pkt c)
    (hd : c.destination = .lih) (hint : pkt.origin ≠ .int)
    (hi : s.cId ≤ s₁.cId) (hflow : c.flow = c₀.flow) (hlater : c₀.state.Later c.state)
    (htar : ∀ t, s₁.targets[c.target]? = some t →
      ∃ t', targets[c.target]? = some t' ∧ t.fixed = t'.fixed)
    (hH : Handles mods g i pkt ⟨s₁, c⟩ w ev) :
    Follows targets g i c₀ (tr ++ .received i pkt :: ev) (w.st.withConn i w.conn) := by
  have hnew {e : Emission} (he : .emitted e ∈ tr ++ .received i pkt :: ev) :
      .emitted e ∈ tr ∨ .emitted e ∈ ev := by
    simpa using he
  have hconn {c' : Conn} (hc' : (w.st.withConn i w.conn).conns[i]? = some c') : c' = w.conn := by
    rw [withConn_conns, Std.TreeMap.lookup_insert, if_pos rfl, Option.some.injEq] at hc'
    exact hc'.symm
  obtain ⟨hf, hflow'⟩ := hH.framed
  refine ⟨Nat.le_trans hF.used (Nat.le_trans hi (Nat.le_of_eq hf.cId.symm)), fun c' hc' => ?_,
    ⟨fun c' hc' => ?_, fun hs e he hid hext => ?_, fun hs e he hid => ?_⟩⟩
  · rw [hconn hc', hflow', hflow]
  · rw [hconn hc']
    exact hlater.trans (hH.life hm hint).later
  · obtain he | he := hnew he
    · exact hF.onward.hidden hs e he hid hext
    · obtain ⟨hpkt, -, ⟨-, hst⟩ | ⟨ho, -⟩⟩ := hH.visible hm hd he hext
      · -- a redirected connection is not in one of these states any more
        obtain hs | hs := hs <;> rw [hs] at hlater <;> simp only [ConnStatus.Later] at hlater hst
        · obtain h | h := hlater <;> simp [h] at hst
        · simp [hlater] at hst
      · rw [hpkt, ho]
        simp
  · obtain he | he := hnew he
    · exact hF.onward.dropped hs e he hid
    · rw [hs] at hlater
      have hdrop : c.state = .drop := hlater
      obtain ⟨h₁, h₂, h₃, h₄, t, ht, hout⟩ := hH.dropped hdrop he
      obtain ⟨t', ht', hfix⟩ := htar t ht
      refine ⟨h₁, h₂, h₃, h₄, t', ?_, ?_⟩
      · rw [← Conn.target_of_flow hflow, ht']
      · have hroute := congrArg Target.defaultRoute hfix
        exact hroute.symm.trans hout

/-- A run that goes on from a state with the connection `c` from EXT. -/
theorem follows (hdns : DnsInControlOnly targets)
    (hrun : Machine.Reaches (step mods g) (boot targets ifTarget mem) tr s)
    (hc : s.conns[i]? = some c) (hini : c.initiator = .ext)
    (hrun' : Machine.Reaches (step mods g) s tr' s') : Follows targets g i c tr' s' := by
  have hstart : Follows targets g i c [] s :=
    Follows.start ((tracked_onLih hdns hrun).fresh i c hc) hc
  suffices h : Machine.Reaches (step mods g) (boot targets ifTarget mem) (tr ++ tr') s' ∧
      Follows targets g i c tr' s' from h.2
  refine hrun'.traceInvariant (fun tr' s' =>
    Machine.Reaches (step mods g) (boot targets ifTarget mem) (tr ++ tr') s' ∧
      Follows targets g i c tr' s') ⟨by simpa using hrun, hstart⟩ ?_
  rintro tr₁ s₂ inp s₃ out ⟨hreach, hF⟩ - hstep
  refine ⟨List.append_assoc .. ▸ hreach.snoc trivial hstep, ?_⟩
  have hT := tracked_onLih hdns hreach
  obtain ⟨hq, hout⟩ | ⟨raw, now, s₁, j, pkt, c₁, w, ev, rfl, -, -, hatt, hh, rfl, rfl⟩ :=
    step_cases hstep
  · refine hF.other hq.cId (fun c' => hq.conns i c') fun e he _ => ?_
    cases hout _ he
  · have hH := handle_cases hh
    by_cases hij : j = i
    · subst hij
      cases hatt with
      | created hcap hpkt hlook hid ht hi hcr =>
        -- a new connection has a number of its own
        exact absurd (hi ▸ hF.used) (Nat.not_succ_le_self _)
      | @found pkt₀ c₂ hcap hpkt hlook hc₂ hs =>
        have hflow : (updateConn c₂ pkt.origin now).flow = c.flow := hF.flow c₂ hc₂
        have hini₁ : (updateConn c₂ pkt.origin now).initiator = .ext :=
          (Conn.initiator_of_flow hflow).trans hini
        have hatt := Attributed.found (g := g) hcap hpkt hlook hc₂ hs
        obtain ⟨hm, hd⟩ := hatt.dest_lih hT hini₁
        refine hF.packet hm hd hatt.origin_ne_int hatt.frame.2.2.1 hflow
          (hF.onward.later c₂ hc₂) (fun t ht => hT.target ?_) hH
        rw [← hatt.frame.1]
        exact ht
    · refine hF.other ?_ (fun c' hc' => ?_) fun e he hid => ?_
      · rw [withConn_cId, hH.framed.1.cId]
        exact hatt.frame.2.2.1
      · rwa [hatt.other hH hij] at hc'
      · have hj := hH.about_received _ he
        exact hij (Option.some.inj hj ▸ hid)

/-- **One honeypot at a time.** With `dns_control` in control rules only, a connection from EXT
shows packets of the high-interaction honeypot in FORWARD only, and from every state that is
reached with such a connection the program goes on as `Onward` says. -/
theorem one_honeypot (hdns : DnsInControlOnly targets)
    (hrun : Machine.Reaches (step mods g) (boot targets ifTarget mem) tr s) :
    (∀ e, .emitted e ∈ tr → e.conn.initiator = .ext → e.toExt → e.pkt.origin = .hih →
      e.conn.state = .forward) ∧
    ∀ (i : ConnId) (c : Conn), s.conns[i]? = some c → c.initiator = .ext →
      ∀ tr' s', Machine.Reaches (step mods g) s tr' s' → Onward targets g i c tr' s' := by
  refine ⟨?_, fun i c hc hini tr' s' hrun' => (follows hdns hrun hc hini hrun').onward⟩
  refine (hrun.traceInvariant (fun tr s =>
    Machine.Reaches (step mods g) (boot targets ifTarget mem) tr s ∧
      ∀ e, .emitted e ∈ tr → e.conn.initiator = .ext → e.toExt → e.pkt.origin = .hih →
        e.conn.state = .forward) ⟨.start, by simp⟩ ?_).2
  rintro tr s inp s' out ⟨hreach, hold⟩ - hstep
  refine ⟨hreach.snoc trivial hstep, fun e he hini hext ho => ?_⟩
  obtain he | he := List.mem_append.mp he
  · exact hold e he hini hext ho
  obtain ⟨-, hout⟩ | ⟨raw, now, s₁, j, pkt, c, w, ev, rfl, -, -, hatt, hh, rfl, rfl⟩ :=
    step_cases hstep
  · cases hout _ he
  · have hH := handle_cases hh
    have he' : .emitted e ∈ ev := by simpa using he
    have hini' : c.initiator = .ext :=
      (Conn.initiator_of_flow (hH.toExt_flow he' hext)).symm.trans hini
    obtain ⟨hm, hd⟩ := hatt.dest_lih (tracked_onLih hdns hreach) hini'
    obtain ⟨hpkt, hst, ⟨ho', -⟩ | ⟨-, hfwd⟩⟩ := hH.visible hm hd he' hext
    · rw [hpkt, ho'] at ho
      cases ho
    · rw [hst, hfwd]

theorem dnsInControlOnly_sample : DnsInControlOnly Sample.targets := by
  intro id t ht
  rw [Sample.targets, Std.TreeMap.getElem?_insert] at ht
  split_ifs at ht
  · obtain rfl := Option.some.inj ht
    have hall : (Sample.target.decisionRules.all fun r => !r.usesDns) = true := by decide +kernel
    intro r hr
    simpa using List.all_eq_true.mp hall r hr
  · simp at ht

/-- A packet of the high-interaction honeypot that is sent to EXT. -/
def Event.showsHih : Event → Bool
  | .emitted e =>
    e.sender = .forwardHih2ext ∧ e.pkt.origin = .hih ∧ e.conn.initiator = .ext
  | _ => false

/-- A connection that is redirected; in FORWARD a packet of the high-interaction honeypot is sent to
EXT. -/
theorem one_honeypot_forward :
    DnsInControlOnly Sample.targets ∧ ∃ tr s e,
      Machine.Reaches (step (Sample.modules .accept) Sample.globals) Sample.start tr s ∧
      .emitted e ∈ tr ∧ e.conn.initiator = .ext ∧ e.toExt ∧ e.pkt.origin = .hih ∧
      e.conn.state = .forward := by
  refine ⟨dnsInControlOnly_sample, ?_⟩
  obtain ⟨tr, s, hrun, hp⟩ := Machine.exists_reaches
    (step (Sample.modules .accept) Sample.globals) Sample.start
    (Sample.attack ++ [Sample.answer, Sample.answer]) (fun r => r.2.any Event.showsHih)
    (by decide +kernel)
  obtain ⟨x, hx, hshow⟩ := List.any_eq_true.mp hp
  cases x with
  | emitted e =>
    simp only [Event.showsHih, Bool.decide_and, Bool.and_eq_true, decide_eq_true_eq] at hshow
    obtain ⟨hs, ho, hini⟩ := hshow
    exact ⟨tr, s, e, hrun, hx, hini, .inr hs, ho,
      (one_honeypot dnsInControlOnly_sample hrun).1 e hx hini (.inr hs) ho⟩
  | received | evaluated | fragNeeded => cases hshow

end Honeybrid
