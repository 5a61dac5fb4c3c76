import Honeybrid.Tables

/-!
# What a packet does to the tables

The dispatch of a packet changes the tables only through the rules, by a switch to an INTRA host,
and through a verdict in DECISION, by a redirection. This file cuts every execution of `handle` at
these two places.

## Main definitions

* `Alike`: two connections with the same keys, pins and handlers.
* `Conn.submits`, `Conn.submitted`: when a packet is submitted to the rules, and the connection as
  it is submitted.
* `Effect`: what the dispatch of a packet does to the tables and to the connection.

## Main results

* `handle_effect`: every execution of the dispatch has one of these effects.
* `step_effect`: the steps of the program by their effect.
-/

namespace Honeybrid

variable {μ : Type} {mods : Modules μ} {g : Globals} {i : ConnId} {pkt : Pkt} {w w' : Work μ}
  {ev : List Event} {c c' c'' : Conn}

/-- The connections agree in their keys, pins, handlers and first packet. -/
def Alike (c c' : Conn) : Prop :=
  c' = c.worked c'

theorem Alike.refl (c : Conn) : Alike c c :=
  rfl

theorem Alike.trans (h : Alike c c') (h' : Alike c' c'') : Alike c c'' := by
  rw [Alike] at h h'
  rw [Alike, h', h]
  rfl

theorem alike_keepPkt (g : Globals) (t : Target) (c : Conn) (pkt : Pkt) :
    Alike c (keepPkt g t c pkt) := by
  obtain ⟨b, h⟩ := keepPkt_conn g t c pkt
  rw [h]
  rfl

theorem alike_noteLihSyn (pkt : Pkt) (c : Conn) : Alike c (noteLihSyn pkt c) := by
  obtain ⟨n, h⟩ := noteLihSyn_conn pkt c
  rw [h]
  rfl

theorem ReplayOf.alike (h : ReplayOf c c') : Alike c c' := by
  obtain ⟨_, _, _, _, _, rfl⟩ := h
  rfl

/-- The packet is submitted to the rules: `de_thread` calls `DE_process_packet`. -/
def Conn.submits (g : Globals) (pkt : Pkt) (c : Conn) : Bool :=
  match pkt.origin, c.state with
  | .lih, .control | .hih, .control => true
  | .hih, .init | .hih, .decision | .hih, .invalid => g.denyHihInit ≠ 1
  | .ext, .init | .ext, .decision | .int, .init | .int, .decision => true
  | _, _ => false

/-- The connection as it is submitted to the rules with a packet. -/
def Conn.submitted (pkt : Pkt) (c : Conn) : Conn :=
  match pkt.origin with
  | .lih => noteLihSyn pkt c
  | .hih => c.switchState .control
  | _ => c

theorem alike_submitted (pkt : Pkt) (c : Conn) : Alike c (c.submitted pkt) := by
  unfold Conn.submitted
  split
  · exact alike_noteLihSyn pkt c
  · rfl
  · rfl

/-- What the dispatch of a packet does to the tables and to the connection. -/
inductive Effect (mods : Modules μ) (g : Globals) (i : ConnId) (pkt : Pkt) (w : Work μ) :
    Work μ → Prop
  /-- The rules are not asked, and the tables stay. -/
  | same {c : Conn} (hc : Alike w.conn c) : Effect mods g i pkt w ⟨w.st, c⟩
  /-- The rules are asked, and may switch the connection. -/
  | ruled {d : DecisionHolder} {w₁ : Work μ} {ev : List Event} {c : Conn}
      (hs : w.conn.submits g pkt = true)
      (he : evaluate mods i pkt ⟨w.st, w.conn.submitted pkt⟩ = .ok (d, w₁, ev))
      (hc : Alike w₁.conn c) : Effect mods g i pkt w ⟨w₁.st, c⟩
  /-- The rules are asked, and the connection is redirected. -/
  | redirected {d : DecisionHolder} {w₁ : Work μ} {ev ev' : List Event} {t : Target} {s₂ : State μ}
      {c₂ c : Conn} (hs : w.conn.submits g pkt = true)
      (he : evaluate mods i pkt ⟨w.st, w.conn.submitted pkt⟩ = .ok (d, w₁, ev))
      (hdec : w₁.conn.state = .decision) (ht : w₁.st.targets[w₁.conn.target]? = some t)
      (hr : setupRedirection g w₁.st t i w₁.conn d.backendUse = .ok (some (s₂, c₂, ev')))
      (hc : Alike c₂ c) : Effect mods g i pkt w ⟨s₂, c⟩

/-- A connection that the rules leave in DECISION was submitted in DECISION, and is left alone. -/
theorem evaluate_decision {d : DecisionHolder} {w₁ : Work μ}
    (he : evaluate mods i pkt ⟨w.st, w.conn.submitted pkt⟩ = .ok (d, w₁, ev))
    (hdec : w₁.conn.state = .decision) :
    w₁.conn = w.conn.submitted pkt ∧ w.conn.state = .decision := by
  obtain hc | ⟨h, k, hc⟩ := (evaluate_run he).conn_cases
  · refine ⟨hc, ?_⟩
    rw [hc] at hdec
    change (w.conn.submitted pkt).state = _ at hdec
    unfold Conn.submitted at hdec
    split at hdec
    · obtain ⟨n, hn⟩ := noteLihSyn_conn pkt w.conn
      rw [hn] at hdec
      exact hdec
    · cases hdec
    · exact hdec
  · rw [hc] at hdec
    cases hdec

/-- The effect of a packet on which the rules are asked. -/
theorem deProcessPacket_effect {status : Status} {w₁ : Work μ} (hs : w.conn.submits g pkt = true)
    (hd : deProcessPacket mods i pkt g ⟨w.st, w.conn.submitted pkt⟩ = .ok (status, w₁, ev))
    (hc : Alike w₁.conn c) : Effect mods g i pkt w ⟨w₁.st, c⟩ := by
  obtain ⟨d, w₂, ev₁, ev₂, t, he, ht, ha, -⟩ := deProcessPacket_cases hd
  have hstate {st : ConnStatus} (hw : w₁ = { w₂ with conn := w₂.conn.switchState st }) :
      Effect mods g i pkt w ⟨w₁.st, c⟩ := by
    subst hw
    have halike : Alike w₂.conn (w₂.conn.switchState st) := rfl
    have heff : Effect mods g i pkt w ⟨w₂.st, c⟩ := .ruled hs he (halike.trans hc)
    exact heff
  cases ha with
  | redirect hd hdec hr => exact .redirected hs he hdec ht hr hc
  | controlFree => exact hstate rfl
  | initFree => exact hstate rfl
  | acceptInit => exact hstate rfl
  | rejectDecision => exact hstate rfl
  | rejectOther => exact hstate rfl
  | drop => exact hstate rfl
  | _ => exact .ruled hs he hc

/-- The effect of a packet that does not open a connection which is denied. -/
theorem Handles.effect (hdeny : pkt.origin = .hih →
      w.conn.state = .init ∨ w.conn.state = .decision ∨ w.conn.state = .invalid →
      g.denyHihInit ≠ 1)
    (h : Handles mods g i pkt w w' ev) : Effect mods g i pkt w w' := by
  have hlih (ho : pkt.origin = .lih) : w.conn.submitted pkt = noteLihSyn pkt w.conn := by
    rw [Conn.submitted, ho]
  have hhih (ho : pkt.origin = .hih) : w.conn.submitted pkt = w.conn.switchState .control := by
    rw [Conn.submitted, ho]
  have hctl (ho : pkt.origin = .hih) (hs : w.conn.state = .control) :
      w = ⟨w.st, w.conn.submitted pkt⟩ := by
    rw [hhih ho, Conn.switchState, ← hs]
  have hext (ho : pkt.origin = .ext ∨ pkt.origin = .int) : w = ⟨w.st, w.conn.submitted pkt⟩ := by
    obtain ho | ho := ho <;> rw [Conn.submitted, ho]
  have hsubmits (ho : pkt.origin = .hih)
      (hs : w.conn.state = .init ∨ w.conn.state = .decision ∨ w.conn.state = .invalid) :
      w.conn.submits g pkt = true := by
    have hne := hdeny ho hs
    obtain hs | hs | hs := hs <;> simp [Conn.submits, ho, hs, hne]
  have hearly (ho : pkt.origin = .ext ∨ pkt.origin = .int)
      (hs : w.conn.state = .init ∨ w.conn.state = .decision) : w.conn.submits g pkt = true := by
    obtain ho | ho := ho <;> obtain hs | hs := hs <;> rw [Conn.submits, ho, hs]
  cases h with
  | lihEarly ho hs ht hp => exact .same ((alike_noteLihSyn pkt w.conn).trans (alike_keepPkt ..))
  | lihControlOk ho hs hd ht hp =>
    rw [← hlih ho] at hd
    exact deProcessPacket_effect (by rw [Conn.submits, ho, hs]) hd (alike_keepPkt ..)
  | lihControlNok ho hs hd ht =>
    rw [← hlih ho] at hd
    exact deProcessPacket_effect (by rw [Conn.submits, ho, hs]) hd (alike_keepPkt ..)
  | hihReplay ho hs hr =>
    obtain ⟨δ, hδ⟩ := noteDelta_conn pkt w.conn
    refine .same (Alike.trans ?_ (replay_frame hr).1.alike)
    rw [hδ]
    rfl
  | hihControlOk ho hs hd ht hp =>
    rw [hctl ho hs] at hd
    exact deProcessPacket_effect (by rw [Conn.submits, ho, hs]) hd (Alike.refl _)
  | hihControlNok ho hs hd =>
    rw [hctl ho hs] at hd
    exact deProcessPacket_effect (by rw [Conn.submits, ho, hs]) hd (Alike.refl _)
  | hihDeny ho hs hev => exact .same rfl
  | hihInitOk ho hs hd hp =>
    rw [← hhih ho] at hd
    exact deProcessPacket_effect (hsubmits ho hs) hd (Alike.refl _)
  | hihInitNok ho hs hd =>
    rw [← hhih ho] at hd
    exact deProcessPacket_effect (hsubmits ho hs) hd (Alike.refl _)
  | extEarlyOk ho hs hd ht hp =>
    rw [hext ho] at hd
    exact deProcessPacket_effect (hearly ho hs) hd (alike_keepPkt ..)
  | extEarlyNok ho hs hd ht =>
    rw [hext ho] at hd
    exact deProcessPacket_effect (hearly ho hs) hd (alike_keepPkt ..)
  | _ => exact .same (Alike.refl _)

/-- A high-interaction honeypot may not open connections: the packet is dropped. -/
theorem handle_denied (ho : pkt.origin = .hih)
    (hs : w.conn.state = .init ∨ w.conn.state = .decision ∨ w.conn.state = .invalid)
    (hdeny : g.denyHihInit = 1) (h : handle mods g i pkt w = .ok (w', ev)) :
    w' = { w with conn := w.conn.switchState .drop } := by
  have hopen : openHih mods g i pkt w = .ok (w', ev) := by
    obtain hs | hs | hs := hs <;> simpa [handle, dispatchHih, ho, hs] using h
  simp only [openHih, if_pos hdeny] at hopen
  split_ifs at hopen
  · obtain ⟨h', -, hopen⟩ := Except.bind_eq_ok.mp hopen
    cases hopen
    rfl
  · cases hopen
    rfl

/-- **Effects.** The dispatch of a packet has one of the effects `Effect`. -/
theorem handle_effect (h : handle mods g i pkt w = .ok (w', ev)) : Effect mods g i pkt w w' := by
  by_cases hdeny : pkt.origin = .hih ∧
      (w.conn.state = .init ∨ w.conn.state = .decision ∨ w.conn.state = .invalid) ∧
      g.denyHihInit = 1
  · obtain ⟨ho, hs, hdeny⟩ := hdeny
    rw [handle_denied ho hs hdeny h]
    exact .same rfl
  · exact (handle_cases h).effect fun ho hs hd => hdeny ⟨ho, hs, hd⟩

/-! ### Steps -/

/-- A frame that is attributed to no connection changes nothing but the counter. -/
theorem assign_none {s s₁ : State μ} {raw : RawPcap} {now : ℤ}
    (h : assign g s raw now = .ok (s₁, none)) : s₁ = s ∨ s₁ = { s with cId := s.cId + 1 } := by
  unfold assign at h
  split at h
  · cases h
    exact .inl rfl
  · split at h
    · cases h
      exact .inl rfl
    · obtain ⟨⟨s₂, found⟩, hinit, h⟩ := Except.bind_eq_ok.mp h
      simp only [Except.pure_eq_ok, Except.ok.injEq, Prod.mk.injEq, Option.map_eq_none_iff] at h
      obtain ⟨rfl, rfl⟩ := h
      obtain ⟨i, role, c, -, -, h, -⟩ | ⟨-, -, h⟩ | ⟨-, r, t, c, -, -, h, -⟩ := initConn_cases hinit
      · cases h
      · exact h
      · cases h

/-- **Steps by their effect.** A step removes connections, advances at most the counter, or
processes one packet of one connection. -/
theorem step_effect {s s' : State μ} {inp : Input} {out : List Event}
    (h : step mods g s inp = .ok (s', out)) :
    (∃ is, removeAll s is = .ok s') ∨ (s' = s ∨ s' = { s with cId := s.cId + 1 }) ∨
    (∃ raw now s₁ i pkt c w, inp = .packet raw now ∧
      assign g s raw now = .ok (s₁, some (i, pkt)) ∧ Attributed g s raw now s₁ i pkt c ∧
      Effect mods g i pkt ⟨s₁, c⟩ w ∧ s' = w.st.withConn i w.conn) := by
  cases inp with
  | sweep now delay =>
    obtain ⟨s₁, hclean, h⟩ := Except.bind_eq_ok.mp h
    cases h
    simp only [clean] at hclean
    obtain ⟨e, -, h⟩ := Except.bind_eq_ok.mp hclean
    obtain ⟨n, -, h⟩ := Except.bind_eq_ok.mp h
    obtain ⟨m, -, h⟩ := Except.bind_eq_ok.mp h
    exact .inl ⟨_, h⟩
  | packet raw now =>
    simp only [step, receive] at h
    obtain ⟨⟨s₁, o⟩, ha, h⟩ := Except.bind_eq_ok.mp h
    cases o with
    | none =>
      cases h
      exact .inr (.inl (assign_none ha))
    | some x =>
      obtain ⟨hnone, -⟩ | ⟨i, pkt, c, hx, hc, hatt⟩ := assign_cases ha
      · cases hnone
      cases hx
      obtain ⟨c', hc', h⟩ := Except.bind_eq_ok.mp h
      obtain rfl : c = c' := Option.some.inj (hc.symm.trans (Option.orFail_eq_ok.mp hc'))
      obtain ⟨⟨w, ev⟩, hh, h⟩ := Except.bind_eq_ok.mp h
      cases h
      exact .inr (.inr ⟨raw, now, s₁, i, pkt, c, w, rfl, ha, hatt, handle_effect hh, rfl⟩)

namespace Sample

/-- The control rule switches DNS queries to a host on interface 3. -/
def dnsRule : Rule :=
  .node
    { name := "dns", function := .dnsControl
      dnsServer := some { iface := some 3, ip := 30, mac := 4, vlan := ⟨0⟩ } } .null .null

/-- A target with that control rule. -/
def dnsTargets : Std.TreeMap TargetId Target intcmp :=
  (∅ : Std.TreeMap TargetId Target intcmp).insert 1 { target with controlRule := dnsRule }

/-- The program before its first packet, with that target. -/
def dnsStart : State Unit :=
  boot dnsTargets ifTarget ()

/-- A DNS query: port 53 in network byte order, and one question. -/
def query (iface : IfaceId) (saddr daddr : IpAddr) : RawPcap :=
  let raw := udp iface saddr 1000 daddr 0x3500
  { raw with frame := { raw.frame with payload := [0, 0, 0, 0, 0, 1, 0, 0, 0, 0, 0, 0] } }

end Sample

end Honeybrid
