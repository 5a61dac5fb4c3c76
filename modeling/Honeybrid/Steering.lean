import Honeybrid.Registration
import Honeybrid.Lifecycle

/-!
# Packets of the honeypots while a connection is decided on

A connection from EXT is decided on in INIT and DECISION. `conn_lookup` takes an internal packet for
one of the low-interaction honeypot when interface, source address and VLAN are those of the front
handler, and for one of a high-interaction honeypot otherwise; the dispatch of the latter has a
catch-all for connections that a honeypot opens, which takes over a connection that is still decided
on.

## Main definitions

* `Handler.sent`: a frame comes from the interface, the address and the VLAN of a handler.
* `Unsteered`: a frame leaves the decision on a connection to the rules.

## Main results

* `unredirected_run`: a connection from EXT has no backend before it is redirected.
* `unsteered_iff`: the packets that leave the decision alone are those of EXT and those of the front
  handler.
-/

namespace Honeybrid

variable {μ : Type} {mods : Modules μ} {g : Globals} {s s' s₁ : State μ} {i : ConnId}
  {pkt pkt₀ : Pkt} {w w' : Work μ} {tr ev : List Event} {c c' : Conn} {t : Target}
  {raw : RawPcap} {now : ℤ} {role : Role} {front : Handler}
  {targets : Std.TreeMap TargetId Target intcmp} {ifTarget : Std.TreeMap IfaceId TargetId} {mem : μ}
  {ok : State μ → Input → Prop}

/-! ### The origin of an internal packet -/

/-- The frame comes from the interface, the address and the VLAN of the handler. -/
def Handler.sent (h : Handler) (raw : RawPcap) : Prop :=
  h.iface = some raw.iface ∧ raw.frame.saddr = h.ip ∧ raw.frame.onVlan h.vlan = true

theorem classify_eq_lih_iff (hcap : capture s raw = some pkt) :
    classify front pkt = .lih ↔ front.sent raw := by
  obtain ⟨hframe, -, hin, -⟩ := capture_cases hcap
  rw [classify, Handler.sent, hframe, hin]
  split_ifs with h
  · exact ⟨fun _ => h, fun _ => rfl⟩
  · exact ⟨fun hr => (by cases hr), fun hs => absurd hs h⟩

/-- An internal packet that is not found in the last tree is classified by the front handler. -/
theorem connLookup_classify (h : connLookup s pkt = .ok (some (i, role))) (ho : pkt.origin ≠ .ext)
    (hr : role ≠ .intra) :
    ∃ c t front, s.conns[i]? = some c ∧ s.targets[c.target]? = some t ∧
      t.frontHandler = some front ∧ role = classify front pkt := by
  have horig {j : ConnId} (h : (do let r ← originOf s pkt j; return some (j, r)) =
      (.ok (some (i, role)) : Except Fault _)) : originOf s pkt i = .ok role := by
    obtain ⟨r, hr, h⟩ := Except.bind_eq_ok.mp h
    cases h
    exact hr
  unfold connLookup at h
  simp only [if_neg ho] at h
  split at h
  · exact originOf_cases (horig h)
  · exact originOf_cases (horig h)
  · exact originOf_cases (horig h)
  · obtain ⟨c, -, h⟩ := Except.bind_eq_ok.mp h
    cases h
    exact absurd rfl hr
  · cases h

/-! ### Connections that are decided on -/

/-- A connection from EXT is given a backend by its redirection. -/
def Conn.Unbacked (c : Conn) : Prop :=
  c.initiator = .ext → c.hih.redirectedIntKey = none → c.hih.backHandler = none

theorem Alike.unbacked (h : Alike c c') (hc : c.Unbacked) : c'.Unbacked := by
  rw [Alike] at h
  rw [h]
  exact hc

theorem Creates.unbacked {r : TargetSearch} (h : Creates g s i t pkt r now role c s') :
    c.Unbacked := by
  obtain ⟨hini, -⟩ := h.start
  intro hext
  rw [hini] at hext
  cases h with
  | ext hfront hpin hc =>
    subst hc
    exact fun _ => rfl
  | _ => cases hext

theorem Effect.unbacked (h : Effect mods g i pkt w w') (hc : w.conn.Unbacked) :
    w'.conn.Unbacked := by
  -- the rules switch the connection, or leave it alone
  have hrun {d : DecisionHolder} {w₁ : Work μ} {ev : List Event}
      (he : evaluate mods i pkt ⟨w.st, w.conn.submitted pkt⟩ = .ok (d, w₁, ev)) :
      w₁.conn.Unbacked := by
    have hsub := (alike_submitted pkt w.conn).unbacked hc
    obtain heq | ⟨h', k, heq⟩ := (evaluate_run he).conn_cases
    · rw [heq]
      exact hsub
    · rw [heq]
      exact hsub
  cases h with
  | same ha => exact ha.unbacked hc
  | ruled hs he ha => exact ha.unbacked (hrun he)
  | redirected hs he hdec ht hr ha =>
    obtain ⟨h', key, rid, ed, -, -, rfl⟩ := setupRedirection_conn hr
    refine ha.unbacked fun _ hnone => ?_
    cases hnone

/-- In every run, a connection from EXT that has not been redirected has no backend. -/
theorem unbacked (hrun : Machine.Run (step mods g) ok (boot targets ifTarget mem) tr s)
    (hc : s.conns[i]? = some c) : c.Unbacked := by
  refine (connInvariant (fun _ _ c => c.Unbacked) ?_ hrun).holds i c hc
  intro tr s hT raw now s₁ i pkt c w ev _ _ hatt hh
  refine (handle_effect hh).unbacked ?_
  cases hatt with
  | @found pkt₀ c hcap hpkt hlook hc hs => exact hT.holds i c hc
  | created hcap hpkt hlook hid ht hi hcr => exact hcr.unbacked

/-- What is known of a connection from EXT that is decided on. -/
theorem deciding (hrun : Machine.Run (step mods g) ok (boot targets ifTarget mem) tr s)
    (hc : s.conns[i]? = some c) (hini : c.initiator = .ext)
    (hst : c.state = .init ∨ c.state = .decision) :
    c.state = .decision ∧ c.destination = .lih ∧ c.hih.backHandler = none := by
  obtain ⟨hdec, hdest⟩ | h | h | h | h := (tracked_begun hrun).holds i c hc hini
  · exact ⟨hdec, hdest, unbacked hrun hc hini (undecided hrun i c hc hdec).2⟩
  all_goals
    rw [h] at hst
    simp at hst

/-! ### The dispatch -/

/-- The frame `raw`, which is the packet `pkt` of the connection `i`, leaves the decision on this
connection to the rules: an internal packet changes its state in no way and does not use a backend
that is not set, and a change of its state is the verdict on a packet of EXT. -/
structure Unsteered (mods : Modules μ) (g : Globals) (s : State μ) (raw : RawPcap) (now : ℤ)
    (s₁ : State μ) (i : ConnId) (pkt : Pkt) (state : ConnStatus) : Prop where
  still : pkt.origin ≠ .ext → ∀ s' out, step mods g s (.packet raw now) = .ok (s', out) →
    ∃ c', s'.conns[i]? = some c' ∧ c'.state = state
  bound : pkt.origin ≠ .ext → step mods g s (.packet raw now) ≠ .error .backHandler
  decided : ∀ s' out c', step mods g s (.packet raw now) = .ok (s', out) →
    s'.conns[i]? = some c' → c'.state ≠ state →
    pkt.origin = .ext ∧ ∃ c status w ev, s₁.conns[i]? = some c ∧
      deProcessPacket mods i pkt g ⟨s₁, c⟩ = .ok (status, w, ev) ∧ c'.state = w.conn.state

/-- The processing of a frame that is attributed to a connection. -/
theorem step_packet (ha : assign g s raw now = .ok (s₁, some (i, pkt)))
    (hc : s₁.conns[i]? = some c) :
    step mods g s (.packet raw now) =
      (handle mods g i pkt ⟨s₁, c⟩).map fun r =>
        (r.1.st.withConn i r.1.conn, .received i pkt :: r.2) := by
  simp only [step, receive, ha, Except.ok_bind, State.connAt, hc, Option.orFail_some]
  cases handle mods g i pkt ⟨s₁, c⟩ with
  | error e => rfl
  | ok r => rfl

/-- What a successful step does with a frame that is attributed to a connection. -/
theorem step_packet_ok (ha : assign g s raw now = .ok (s₁, some (i, pkt)))
    (hc : s₁.conns[i]? = some c) {out : List Event}
    (h : step mods g s (.packet raw now) = .ok (s', out)) :
    ∃ w ev, handle mods g i pkt ⟨s₁, c⟩ = .ok (w, ev) ∧ s'.conns[i]? = some w.conn := by
  rw [step_packet ha hc] at h
  rcases hh : handle mods g i pkt ⟨s₁, c⟩ with e | ⟨w, ev⟩
  · rw [hh] at h
    cases h
  · rw [hh] at h
    cases h
    exact ⟨w, ev, rfl, by rw [withConn_conns, Std.TreeMap.lookup_insert, if_pos rfl]⟩

theorem step_packet_error {e : Fault} (ha : assign g s raw now = .ok (s₁, some (i, pkt)))
    (hc : s₁.conns[i]? = some c) :
    step mods g s (.packet raw now) = .error e ↔ handle mods g i pkt ⟨s₁, c⟩ = .error e := by
  rw [step_packet ha hc]
  cases handle mods g i pkt ⟨s₁, c⟩ with
  | error e' => simp [Except.map]
  | ok r => simp [Except.map]

variable (mods g i) in
/-- A packet of the front handler is relayed, and the connection keeps its state. -/
theorem relayLih_decides (ho : pkt.origin = .lih) (hs : w.conn.state = .decision)
    (hini : w.conn.initiator = .ext) :
    handle mods g i pkt w ≠ .error .backHandler ∧
      ∀ w' ev, handle mods g i pkt w = .ok (w', ev) → w'.conn.state = .decision := by
  have hhandle : handle mods g i pkt w = relayLih g i pkt w := by
    simp [handle, dispatchLih, ho, hs]
  obtain ⟨n, hn⟩ := noteLihSyn_conn pkt w.conn
  rw [hhandle, relayLih]
  simp only [hn, State.targetOf]
  cases w.st.targets[w.conn.target]? with
  | none => exact ⟨by simp, by simp⟩
  | some t =>
    cases hr : t.defaultRoute with
    | none => exact ⟨by simp [proxyInt2ext, hr], by simp [proxyInt2ext, hr]⟩
    | some out =>
      simp only [Option.orFail_some, Except.ok_bind, proxyInt2ext, hr, snatIp, hini, if_true]
      refine ⟨by simp, ?_⟩
      intro w' ev h
      cases h
      rw [(keepPkt_state ..).1]
      exact hs

variable (mods g i) in
/-- A packet that is taken for one of a high-interaction honeypot ends the decision, or uses the
backend the connection does not have. -/
theorem openHih_decides (ho : pkt.origin = .hih) (hs : w.conn.state = .decision)
    (hdest : w.conn.destination = .lih) (hback : w.conn.hih.backHandler = none)
    (ht : w.st.targets[w.conn.target]? = some t) :
    handle mods g i pkt w = .error .backHandler ∨
      ∃ w' ev, handle mods g i pkt w = .ok (w', ev) ∧ w'.conn.state ≠ .decision := by
  have hhandle : handle mods g i pkt w = openHih mods g i pkt w := by
    simp [handle, dispatchHih, ho, hs]
  rw [hhandle, openHih]
  by_cases hdeny : g.denyHihInit = 1
  · rw [if_pos hdeny]
    by_cases htcp : pkt.packet.protocol = IPPROTO_TCP
    · rw [if_pos htcp, hback]
      exact .inl rfl
    · rw [if_neg htcp]
      exact .inr ⟨_, _, rfl, by simp [Conn.switchState]⟩
  · rw [if_neg hdeny]
    right
    -- without a rule for this destination the connection is let through
    refine ⟨{ w with conn := w.conn.switchState .proxy }, [], ?_, by simp [Conn.switchState]⟩
    simp [deProcessPacket, evaluate, act, State.targetOf, Conn.switchState, ht, hdest, proxyHih]

/-- A packet of EXT changes the state of a connection that is decided on by the verdict of the
rules. -/
theorem decideExt_state (ho : pkt.origin = .ext) (hs : w.conn.state = .decision)
    (h : handle mods g i pkt w = .ok (w', ev)) :
    ∃ status w₁ ev₁, deProcessPacket mods i pkt g w = .ok (status, w₁, ev₁) ∧
      w'.conn.state = w₁.conn.state := by
  have hhandle : handle mods g i pkt w = decideExt mods g i pkt w := by
    simp [handle, dispatchExt, ho, hs]
  rw [hhandle, decideExt] at h
  obtain ⟨⟨status, w₁, ev₁⟩, hd, h⟩ := Except.bind_eq_ok.mp h
  obtain ⟨t, -, h⟩ := Except.bind_eq_ok.mp h
  refine ⟨status, w₁, ev₁, hd, ?_⟩
  cases status with
  | ok =>
    obtain ⟨⟨pkt', ev₂⟩, -, h⟩ := Except.bind_eq_ok.mp h
    cases h
    exact (keepPkt_state ..).1
  | nok =>
    cases h
    exact (keepPkt_state ..).1

/-- The three kinds of packets of a connection that is decided on. -/
theorem unsteered_ext (ha : assign g s raw now = .ok (s₁, some (i, pkt)))
    (hc : s₁.conns[i]? = some c) (ho : pkt.origin = .ext) (hs : c.state = .decision) :
    Unsteered mods g s raw now s₁ i pkt .decision := by
  refine ⟨fun h => absurd ho h, fun h => absurd ho h, fun s' out c' hs' hc' hne => ?_⟩
  obtain ⟨w, ev, hh, hw⟩ := step_packet_ok ha hc hs'
  cases hw.symm.trans hc'
  obtain ⟨status, w₁, ev₁, hd, hstate⟩ := decideExt_state ho hs hh
  exact ⟨ho, c, status, w₁, ev₁, hc, hd, hstate⟩

theorem unsteered_lih (ha : assign g s raw now = .ok (s₁, some (i, pkt)))
    (hc : s₁.conns[i]? = some c) (ho : pkt.origin = .lih) (hs : c.state = .decision)
    (hini : c.initiator = .ext) : Unsteered mods g s raw now s₁ i pkt .decision := by
  obtain ⟨hnofault, hkeep⟩ := relayLih_decides mods g i (w := ⟨s₁, c⟩) ho hs hini
  have hstill (s' : State μ) (out : List Event)
      (hs' : step mods g s (.packet raw now) = .ok (s', out)) :
      ∃ c', s'.conns[i]? = some c' ∧ c'.state = .decision := by
    obtain ⟨w, ev, hh, hw⟩ := step_packet_ok ha hc hs'
    exact ⟨w.conn, hw, hkeep w ev hh⟩
  refine ⟨fun _ => hstill, fun _ herr => ?_, fun s' out c' hs' hc' hne => ?_⟩
  · exact hnofault ((step_packet_error ha hc).mp herr)
  · obtain ⟨c'', hc'', hstate⟩ := hstill s' out hs'
    cases hc''.symm.trans hc'
    exact absurd hstate hne

theorem not_unsteered_hih (ha : assign g s raw now = .ok (s₁, some (i, pkt)))
    (hc : s₁.conns[i]? = some c) (ho : pkt.origin = .hih) (hs : c.state = .decision)
    (hdest : c.destination = .lih) (hback : c.hih.backHandler = none)
    (ht : s₁.targets[c.target]? = some t) :
    ¬Unsteered mods g s raw now s₁ i pkt .decision := by
  intro hu
  have hne : pkt.origin ≠ .ext := by simp [ho]
  obtain herr | ⟨w, ev, hh, hne'⟩ :=
    openHih_decides mods g i (w := ⟨s₁, c⟩) ho hs hdest hback ht
  · exact hu.bound hne ((step_packet_error ha hc).mpr herr)
  · obtain ⟨c', hc', hstate⟩ := hu.still hne _ _ (by rw [step_packet ha hc, hh]; rfl)
    rw [withConn_conns, Std.TreeMap.lookup_insert, if_pos rfl] at hc'
    cases hc'
    exact hne' hstate

/-! ### Runs -/

/-- A frame that is attributed to a connection that exists has been found by `conn_lookup`. -/
theorem assign_found (hrun : Machine.Run (step mods g) ok (boot targets ifTarget mem) tr s)
    (hc : s.conns[i]? = some c) (ha : assign g s raw now = .ok (s₁, some (i, pkt))) :
    ∃ pkt₀, capture s raw = some pkt₀ ∧ pkt = { pkt₀ with origin := pkt.origin } ∧
      connLookup s pkt₀ = .ok (some (i, pkt.origin)) ∧
      s₁ = s.withConn i (updateConn c pkt.origin now) := by
  obtain ⟨hnone, -⟩ | ⟨i', pkt', c', hx, -, hatt⟩ := assign_cases ha
  · cases hnone
  cases hx
  cases hatt with
  | @found pkt₀ c' hcap hpkt hlook hc' hs =>
    cases hc.symm.trans hc'
    exact ⟨pkt₀, hcap, hpkt, hlook, hs⟩
  | created hcap hpkt hlook hid ht hi hcr =>
    have hle := (registered hrun).live i c hc
    rw [hi] at hle
    exact absurd hle (Nat.not_succ_le_self _)

/-- A connection from EXT that is decided on is not found as an INTRA connection. -/
theorem deciding_origin (hrun : Machine.Run (step mods g) ok (boot targets ifTarget mem) tr s)
    (hc : s.conns[i]? = some c) (hdest : c.destination = .lih)
    (hlook : connLookup s pkt₀ = .ok (some (i, role))) : role ≠ .intra := by
  intro hr
  obtain ⟨-, h, -⟩ | ⟨-, h | h, -⟩ | ⟨-, -, hentry⟩ := connLookup_cases hlook
  · rw [hr] at h
    cases h
  · rw [hr] at h
    cases h
  · rw [hr] at h
    cases h
  · have hlisted : c.destination = .intra ∧ _ :=
      (registered hrun).belongs .intra2 pkt₀.connKey i c hentry hc
    rw [hdest] at hlisted
    cases hlisted.1

/-- **Who decides.** While a connection from EXT is decided on, a frame leaves the decision to the
rules exactly when it comes from EXT, or from the interface, the address and the VLAN of the front
handler. -/
theorem unsteered_iff (hrun : Machine.Reaches (step mods g) (boot targets ifTarget mem) tr s)
    (hc : s.conns[i]? = some c) (hini : c.initiator = .ext)
    (hst : c.state = .init ∨ c.state = .decision)
    (ha : assign g s raw now = .ok (s₁, some (i, pkt))) :
    Unsteered mods g s raw now s₁ i pkt c.state ↔
      s.ifTarget[raw.iface]? ≠ none ∨
        ∃ t front, s.targets[c.target]? = some t ∧ t.frontHandler = some front ∧
          front.sent raw := by
  obtain ⟨hdec, hdest, hback⟩ := deciding hrun hc hini hst
  obtain ⟨pkt₀, hcap, hpkt, hlook, rfl⟩ := assign_found hrun hc ha
  have hc₁ : (s.withConn i (updateConn c pkt.origin now)).conns[i]? =
      some (updateConn c pkt.origin now) := by
    rw [withConn_conns, Std.TreeMap.lookup_insert, if_pos rfl]
  have hext : pkt₀.origin = .ext ↔ s.ifTarget[raw.iface]? ≠ none := by
    rw [capture_origin hcap, (capture_cases hcap).2.2.1]
  rw [hdec]
  obtain ⟨ho₀, ho, -⟩ | ⟨ho₀, ho, -⟩ | ⟨-, ho, -⟩ := connLookup_cases hlook
  · exact ⟨fun _ => .inl (hext.mp ho₀), fun _ => unsteered_ext ha hc₁ ho hdec⟩
  · obtain ⟨c', t, front, hc', ht, hf, hrole⟩ :=
      connLookup_classify hlook ho₀ (deciding_origin hrun hc hdest hlook)
    cases hc.symm.trans hc'
    obtain ho | ho := ho
    · have hsent := (classify_eq_lih_iff hcap).mp (hrole.symm.trans ho)
      exact ⟨fun _ => .inr ⟨t, front, ht, hf, hsent⟩, fun _ => unsteered_lih ha hc₁ ho hdec hini⟩
    · refine ⟨fun hu => absurd hu (not_unsteered_hih ha hc₁ ho hdec hdest hback ht), ?_⟩
      rintro (h | ⟨t', front', ht', hf', hsent⟩)
      · exact absurd (hext.mpr h) ho₀
      · cases ht.symm.trans ht'
        cases hf.symm.trans hf'
        rw [(classify_eq_lih_iff hcap).mpr hsent, ho] at hrole
        cases hrole
  · exact absurd ho (deciding_origin hrun hc hdest hlook)

namespace Sample

/-- A packet from the interface of the high-interaction honeypot under the address of the other
one. -/
def forged : RawPcap :=
  udp 2 10 80 50 1000

/-- The first connection comes from EXT and is in DECISION, and the frame is a packet of it with the
given origin. -/
def meets (origin : Role) (raw : RawPcap) (s : State Unit) : Bool :=
  (s.conns[1]?.any fun c => c.initiator == .ext && c.state == .decision && c.target == 1) &&
    (assign globals s raw 0).passes fun r => r.2.any fun x => x.1 == 1 && x.2.origin == origin

theorem meets_iff {origin : Role} {raw : RawPcap} {s : State Unit} :
    meets origin raw s = true ↔
      (∃ c, s.conns[1]? = some c ∧ (c.initiator = .ext ∧ c.state = .decision) ∧ c.target = 1) ∧
      ∃ s₁ pkt, assign globals s raw 0 = .ok (s₁, some (1, pkt)) ∧ pkt.origin = origin := by
  simp only [meets, Bool.and_eq_true, Option.any_eq_true, beq_iff_eq, Except.passes_iff]
  refine and_congr Iff.rfl ⟨?_, ?_⟩
  · rintro ⟨⟨s₁, o⟩, ha, ⟨i, pkt⟩, ho, hi, horigin⟩
    cases ho
    cases hi
    exact ⟨s₁, pkt, ha, horigin⟩
  · rintro ⟨s₁, pkt, ha, horigin⟩
    exact ⟨(s₁, some (1, pkt)), ha, (1, pkt), rfl, rfl, horigin⟩

end Sample

/-- The answer of the low-interaction honeypot leaves the decision alone. -/
theorem unsteered_answer : ∃ tr s c s₁ pkt,
    Machine.Reaches (step (Sample.modules .accept) Sample.globals) Sample.start tr s ∧
      s.conns[1]? = some c ∧ c.initiator = .ext ∧ c.state = .decision ∧
      assign Sample.globals s (Sample.udp 1 10 80 50 1000) 0 = .ok (s₁, some (1, pkt)) ∧
      pkt.origin = .lih ∧
      Unsteered (Sample.modules .accept) Sample.globals s (Sample.udp 1 10 80 50 1000) 0 s₁ 1 pkt
        c.state := by
  obtain ⟨tr, s, hrun, htest⟩ :=
    Machine.exists_reaches (step (Sample.modules .accept) Sample.globals)
    Sample.start (Sample.attack.take 1)
    (fun r => Sample.meets .lih (Sample.udp 1 10 80 50 1000) r.1 &&
      r.1.targets[1]?.any fun t => t.frontHandler == some Sample.lih)
    (by decide +kernel)
  obtain ⟨hmeets, ht⟩ := Bool.and_eq_true_iff.mp htest
  obtain ⟨⟨c, hc, ⟨hini, hdec⟩, htarget⟩, s₁, pkt, ha, horigin⟩ := Sample.meets_iff.mp hmeets
  obtain ⟨t, ht, hf⟩ := (Option.any_eq_true ..).mp ht
  refine ⟨tr, s, c, s₁, pkt, hrun, hc, hini, hdec, ha, horigin, ?_⟩
  refine (unsteered_iff hrun hc hini (.inr hdec) ha).mpr (.inr ⟨t, Sample.lih, ?_, ?_, ?_⟩)
  · rw [htarget]
    exact ht
  · exact beq_iff_eq.mp hf
  · exact ⟨rfl, rfl, by decide⟩

/-- A forged packet ends the decision: the connection is proxied to the low-interaction honeypot for
good. -/
theorem forged_steers : ∃ tr s c s₁ pkt,
    Machine.Reaches (step (Sample.modules .accept) Sample.globals) Sample.start tr s ∧
      s.conns[1]? = some c ∧ c.initiator = .ext ∧ c.state = .decision ∧
      assign Sample.globals s Sample.forged 0 = .ok (s₁, some (1, pkt)) ∧ pkt.origin ≠ .ext ∧
      ¬Unsteered (Sample.modules .accept) Sample.globals s Sample.forged 0 s₁ 1 pkt c.state := by
  obtain ⟨tr, s, hrun, htest⟩ :=
    Machine.exists_reaches (step (Sample.modules .accept) Sample.globals)
    Sample.start (Sample.attack.take 1)
    (fun r => Sample.meets .hih Sample.forged r.1 &&
      (step (Sample.modules .accept) Sample.globals r.1 (.packet Sample.forged 0)).passes
        fun q => q.1.conns[1]?.any fun c => c.state == .proxy)
    (by decide +kernel)
  obtain ⟨hmeets, hstep⟩ := Bool.and_eq_true_iff.mp htest
  obtain ⟨⟨c, hc, ⟨hini, hdec⟩, -⟩, s₁, pkt, ha, horigin⟩ := Sample.meets_iff.mp hmeets
  obtain ⟨⟨s', out⟩, hstep, hproxy⟩ := Except.passes_iff.mp hstep
  obtain ⟨c', hc', hproxy⟩ := (Option.any_eq_true ..).mp hproxy
  have hne : pkt.origin ≠ .ext := by simp [horigin]
  refine ⟨tr, s, c, s₁, pkt, hrun, hc, hini, hdec, ha, hne, fun hu => ?_⟩
  obtain ⟨c'', hc'', hstate⟩ := hu.still hne s' out hstep
  cases hc'.symm.trans hc''
  rw [beq_iff_eq.mp hproxy, hdec] at hstate
  cases hstate

end Honeybrid
