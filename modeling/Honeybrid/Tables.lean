import Honeybrid.Containment

/-!
# Operations on the tables

What the engine does to the connection trees, the pin trees and the table of connections is a
sequence of five operations: `create_conn`, `setup_redirection`, `switch_conn_to_intra`,
`remove_conn`, and work on a connection that concerns neither its keys nor its pins. This file makes
a machine of them, whose runs take the operations in any order, and says once what each of them
leaves behind.

The machine redirects a connection only as the engine does, which evaluates the backends in DECISION
only: once, and only a connection from EXT. That the engine keeps to this is `redirected_once`.

## Main definitions

* `Conn.worked`: a connection after work that concerns neither keys nor pins.
* `Op`, `operate`: the operations and their machine.
* `Operates`: what an operation leaves behind.

## Main results

* `operate_cases`: every execution of `operate` is described by `Operates`.
* `Operates.numbered`: the numbers of connections are used once.
* `redirected_once`: in every run of the engine, a connection that is decided on has not been
  redirected, and comes from EXT if it is in DECISION.
-/

namespace Honeybrid

variable {μ : Type} {g : Globals} {s s' : State μ} {i : ConnId} {c c' : Conn} {ev : List Event}

/-- The connection `c` after work: keys, pins, handlers and the first packet stay, and the rest is
taken from `d`. -/
def Conn.worked (c d : Conn) : Conn :=
  { c with
    accessTime := d.accessTime, tcpTsDiff := d.tcpTsDiff, state := d.state, replayId := d.replayId
    countDataPktFromIntruder := d.countDataPktFromIntruder, buffer := d.buffer
    expectedData := d.expectedData, replayProblem := d.replayProblem
    hih := { c.hih with lihSynSeq := d.hih.lihSynSeq, delta := d.hih.delta } }

/-- The states of a redirected connection. -/
def ConnStatus.redirected : ConnStatus → Bool
  | .replay | .forward => true
  | _ => false

/-- The operations on the tables. -/
inductive Op
  | create (pkt : Pkt) (now : ℤ)
  | work (i : ConnId) (d : Conn)
  | redirect (i : ConnId) (use : HandlerId)
  | switch (i : ConnId) (h : Handler)
  | remove (i : ConnId)
  deriving DecidableEq, Repr

variable {op : Op}

/-- The machine of the operations. Work leads a connection to REPLAY or FORWARD only after its
redirection, and `dns_control` marks a connection before it switches it. -/
def operate (g : Globals) (s : State μ) : Op → Except Fault (State μ × List Event)
  | .create pkt now => do
    let (s, _) ← createConn g s pkt now
    return (s, [])
  | .work i d => do
    let c ← s.connAt i
    if d.state.redirected ∧ c.hih.redirectedIntKey = none then return (s, [])
    else return (s.withConn i (c.worked d), [])
  | .redirect i use => do
    let c ← s.connAt i
    let t ← s.targetOf c
    if c.initiator = .ext ∧ c.hih.redirectedIntKey = none then
      match ← setupRedirection g s t i c use with
      | some (s, c, ev) => return (s.withConn i c, ev)
      | none => return (s, [])
    else return (s, [])
  | .switch i h => do
    let c ← s.connAt i
    let (s, c) ← switchConnToIntra s i { c with state := .proxy, destination := .intra } h
    return (s.withConn i c, [])
  | .remove i => do
    let s ← removeConn s i
    return (s, [])

/-- What an operation leaves behind. -/
inductive Operates (g : Globals) (s : State μ) : Op → State μ → Prop
  | idle {op : Op} : Operates g s op s
  | refused {pkt : Pkt} {now : ℤ} : Operates g s (.create pkt now) { s with cId := s.cId + 1 }
  | create {pkt : Pkt} {now : ℤ} {r : TargetSearch} {t : Target} {c : Conn} {s' : State μ}
      (hid : identify s pkt = .ok (some r)) (ht : s.targets[r.target]? = some t)
      (hcr : Creates g { s with cId := s.cId + 1 } (s.cId + 1) t pkt r now r.origin c s')
      (hsyn : ¬(pkt.packet.protocol = IPPROTO_TCP ∧ pkt.packet.tcp.syn = false)) :
      Operates g s (.create pkt now) s'
  | work {i : ConnId} {c d : Conn} (hc : s.conns[i]? = some c)
      (hs : d.state.redirected = true → c.hih.redirectedIntKey ≠ none) :
      Operates g s (.work i d) (s.withConn i (c.worked d))
  | redirect {i : ConnId} {use : HandlerId} {c c' : Conn} {t : Target} {s' : State μ}
      {ev : List Event} (hc : s.conns[i]? = some c) (ht : s.targets[c.target]? = some t)
      (hini : c.initiator = .ext) (hnew : c.hih.redirectedIntKey = none)
      (hr : setupRedirection g s t i c use = .ok (some (s', c', ev))) :
      Operates g s (.redirect i use) (s'.withConn i c')
  | switch {i : ConnId} {h : Handler} {c c' : Conn} {s' : State μ} (hc : s.conns[i]? = some c)
      (hs : switchConnToIntra s i { c with state := .proxy, destination := .intra } h =
        .ok (s', c')) :
      Operates g s (.switch i h) (s'.withConn i c')
  | remove {i : ConnId} {s' : State μ} (hr : removeConn s i = .ok s') : Operates g s (.remove i) s'

/-- **Operations.** Every execution of `operate` is described by `Operates`. -/
theorem operate_cases (h : operate g s op = .ok (s', ev)) : Operates g s op s' := by
  cases op with
  | create pkt now =>
    obtain ⟨⟨s₁, o⟩, hcr, h⟩ := Except.bind_eq_ok.mp h
    cases h
    obtain ⟨-, rfl | rfl⟩ | ⟨r, t, c, hid, ht, rfl, hc⟩ := createConn_cases hcr
    · exact .idle
    · exact .refused
    · exact .create hid ht hc (createConn_syn hcr)
  | work i d =>
    obtain ⟨c, hc, h⟩ := Except.bind_eq_ok.mp h
    split_ifs at h with hs
    · cases h
      exact .idle
    · cases h
      exact .work (Option.orFail_eq_ok.mp hc) fun hd hn => hs ⟨hd, hn⟩
  | redirect i use =>
    obtain ⟨c, hc, h⟩ := Except.bind_eq_ok.mp h
    obtain ⟨t, ht, h⟩ := Except.bind_eq_ok.mp h
    split_ifs at h with hg
    · obtain ⟨o, hr, h⟩ := Except.bind_eq_ok.mp h
      cases o with
      | none =>
        cases h
        exact .idle
      | some x =>
        cases h
        exact .redirect (Option.orFail_eq_ok.mp hc) (Option.orFail_eq_ok.mp ht) hg.1 hg.2 hr
    · cases h
      exact .idle
  | switch i h' =>
    obtain ⟨c, hc, h⟩ := Except.bind_eq_ok.mp h
    obtain ⟨⟨s₁, c₁⟩, hs, h⟩ := Except.bind_eq_ok.mp h
    cases h
    exact .switch (Option.orFail_eq_ok.mp hc) hs
  | remove i =>
    obtain ⟨s₁, hr, h⟩ := Except.bind_eq_ok.mp h
    cases h
    exact .remove hr

/-! ### Numbers -/

theorem setupRedirection_kept {t : Target} {use : HandlerId}
    (h : setupRedirection g s t i c use = .ok (some (s', c', ev))) : Kept s s' := by
  obtain ⟨h', s₁, c₁, -, -, ha, rfl, -⟩ := setupRedirection_cases h
  obtain ⟨-, ⟨-, rfl, -⟩ | ⟨-, p, htake, -⟩⟩ := acquireTarget_cases ha
  · exact ⟨rfl, rfl, rfl, rfl⟩
  · have hk := htake.kept
    exact ⟨hk.targets, hk.ifTarget, hk.conns, hk.cId⟩

theorem switchConnToIntra_kept {h : Handler} (hs : switchConnToIntra s i c h = .ok (s', c')) :
    Kept s s' := by
  obtain ⟨ik, ek, k, -, -, rfl, -⟩ := switchConnToIntra_cases hs
  exact ⟨rfl, rfl, rfl, rfl⟩

/-- The numbers up to the counter are in use. -/
def Numbered (s : State μ) : Prop :=
  ∀ (j : ConnId) (c : Conn), s.conns[j]? = some c → j ≤ s.cId

theorem numbered_boot {targets : Std.TreeMap TargetId Target intcmp}
    {ifTarget : Std.TreeMap IfaceId TargetId} {mem : μ} : Numbered (boot targets ifTarget mem) := by
  intro j c hc
  simp [boot] at hc

/-- The number of a new connection is not in use. -/
theorem Numbered.new (h : Numbered s) : s.conns[s.cId + 1]? = none := by
  cases hc : s.conns[s.cId + 1]? with
  | none => rfl
  | some c => exact absurd (h _ c hc) (Nat.not_succ_le_self _)

theorem Numbered.withConn (h : Numbered s) (hi : i ≤ s.cId) : Numbered (s.withConn i c) := by
  intro j d hj
  rw [withConn_conns, Std.TreeMap.lookup_insert] at hj
  split_ifs at hj with hij
  · exact hij ▸ hi
  · exact h j d hj

theorem Kept.numbered (hk : Kept s s') (h : Numbered s) : Numbered s' := by
  intro j d hj
  rw [hk.conns] at hj
  rw [hk.cId]
  exact h j d hj

theorem Operates.numbered (h : Operates g s op s') (hn : Numbered s) : Numbered s' := by
  cases h with
  | idle => exact hn
  | refused => exact fun j d hj => Nat.le_succ_of_le (hn j d hj)
  | create hid ht hcr =>
    obtain ⟨-, -, hcid, hconns⟩ := hcr.frame
    intro j d hj
    rw [hconns, Std.TreeMap.lookup_insert] at hj
    rw [hcid]
    split_ifs at hj with hij
    · exact hij ▸ Nat.le_refl _
    · exact Nat.le_succ_of_le (hn j d hj)
  | work hc hs => exact hn.withConn (hn _ _ hc)
  | redirect hc ht hini hnew hr =>
    have hk := setupRedirection_kept hr
    exact (hk.numbered hn).withConn (hk.cId ▸ hn _ _ hc)
  | switch hc hs =>
    have hk := switchConnToIntra_kept hs
    exact (hk.numbered hn).withConn (hk.cId ▸ hn _ _ hc)
  | remove hr =>
    have hq := removeConn_quiet hr
    exact fun j d hj => Nat.le_trans (hn j d (hq.conns j d hj)) hq.cId

/-! ### Removal -/

/-- A key under which `ext_tree2` leads from a reply to the connection `c`. -/
def Conn.InnerReply (c : Conn) (k : ConnKey) : Prop :=
  c.initiator = .ext ∧ (c.intKey = some k ∨ c.hih.redirectedIntKey = some k)

/-- The key under which `int_tree2` leads from a reply to the connection `c`. -/
def Conn.OuterReply (c : Conn) (k : ConnKey) : Prop :=
  (c.initiator = .lih ∨ c.initiator = .hih) ∧ c.destination = .ext ∧ c.extKey = some k

/-- At most the reply keys of the connection `c` have left their trees; the pins stay. -/
structure Unlisted (c : Conn) (s s' : State μ) : Prop where
  kept : Kept s s'
  pins : ∀ tree, s'.pinTree tree = s.pinTree tree
  inner : ∀ k, ¬c.InnerReply k → s'.extTree2[k]? = s.extTree2[k]?
  outer : ∀ k, ¬c.OuterReply k → s'.intTree2[k]? = s.intTree2[k]?

theorem Erased.unlisted (h : Erased c s s') : Unlisted c s s' := by
  cases h with
  | @ext ek ik hini hek hik =>
    have hne {k : ConnKey} (hk : ¬c.InnerReply k) : ik ≠ k := fun he => hk ⟨hini, .inl (he ▸ hik)⟩
    split
    · rename_i k' hred
      refine ⟨⟨rfl, rfl, rfl, rfl⟩, by rintro (_ | _ | _) <;> rfl, fun k hk => ?_, fun _ _ => rfl⟩
      have hne' : k' ≠ k := fun he => hk ⟨hini, .inr (he ▸ hred)⟩
      exact (Std.TreeMap.lookup_erase_of_ne hne').trans (Std.TreeMap.lookup_erase_of_ne (hne hk))
    · exact ⟨⟨rfl, rfl, rfl, rfl⟩, by rintro (_ | _ | _) <;> rfl,
        fun k hk => Std.TreeMap.lookup_erase_of_ne (hne hk), fun _ _ => rfl⟩
  | int hini hdest hek hik =>
    refine ⟨⟨rfl, rfl, rfl, rfl⟩, by rintro (_ | _ | _) <;> rfl, fun _ _ => rfl, fun k hk => ?_⟩
    exact Std.TreeMap.lookup_erase_of_ne fun he => hk ⟨hini, hdest, he ▸ hek⟩
  | intra hini hik hk =>
    exact ⟨⟨rfl, rfl, rfl, rfl⟩, by rintro (_ | _ | _) <;> rfl, fun _ _ => rfl, fun _ _ => rfl⟩
  | nothing => exact ⟨Kept.refl s, fun _ => rfl, fun _ _ => rfl, fun _ _ => rfl⟩

theorem releasePin_sameTrees {tree : PinTree} {k k' : PinKey}
    (h : releasePin s tree k k' = .ok s') : SameTrees s s' := by
  obtain ⟨-, rfl⟩ | ⟨p, s₁, -, -, rfl, ⟨-, rfl⟩ | ⟨-, rfl⟩⟩ := releasePin_cases h
  · exact SameTrees.refl s'
  · exact (sameTrees_setPinTree s _ tree).trans (sameTrees_setPinTree _ _ tree)
  · exact sameTrees_setPinTree s _ tree

theorem releaseConnPin_sameTrees {tree : PinTree} (h : releaseConnPin s tree c = .ok s') :
    SameTrees s s' := by
  obtain ⟨-, rfl⟩ | ⟨k, -, h⟩ := releaseConnPin_cases h
  · exact SameTrees.refl s'
  · exact releasePin_sameTrees h

theorem releaseTargetPin_sameTrees (h : releaseTargetPin s c = .ok s') : SameTrees s s' := by
  obtain ⟨-, rfl⟩ | ⟨k, k', -, -, h⟩ := releaseTargetPin_cases h
  · exact SameTrees.refl s'
  · exact releasePin_sameTrees h

/-- The reply keys of the other connections stay when a connection is removed. -/
theorem removeConn_replies (h : removeConn s i = .ok s') :
    ∃ c, s.conns[i]? = some c ∧ s'.conns = s.conns.erase i ∧
      (∀ k, ¬c.InnerReply k → s'.extTree2[k]? = s.extTree2[k]?) ∧
      (∀ k, ¬c.OuterReply k → s'.intTree2[k]? = s.intTree2[k]?) := by
  obtain ⟨c, s₁, s₂, hc, hd, hr, rfl⟩ := removeConn_cases h
  obtain ⟨s₀, he, hrel⟩ := deregister_cases hd
  have hu := he.unlisted
  have hs : SameTrees s₀ s₁ := by
    obtain ⟨-, rfl⟩ | ⟨tree, -, hrel⟩ := hrel
    · exact SameTrees.refl _
    · exact releaseConnPin_sameTrees hrel
  have hs₂ := hs.trans (releaseTargetPin_sameTrees hr)
  have hk := (deregister_kept hd).trans (releaseTargetPin_kept hr)
  refine ⟨c, hc, congrArg (·.erase i) hk.conns, fun k hk => ?_, fun k hk => ?_⟩
  · rw [← hu.inner k hk, ← hs₂.extTree2]
  · rw [← hu.outer k hk, ← hs₂.intTree2]

/-! ### Redirections of the engine -/

/-- Keys and pins of a redirection belong to a connection in REPLAY or FORWARD. -/
def Conn.Once (c : Conn) : Prop :=
  if c.state.redirected then c.hih.redirectedIntKey ≠ none
  else c.hih.redirectedIntKey = none ∧ c.hih.targetPinKey = none

section Engine

variable {mods : Modules μ} {w w' : Work μ} {pkt : Pkt} {tr : List Event}
  {targets : Std.TreeMap TargetId Target intcmp} {ifTarget : Std.TreeMap IfaceId TargetId} {mem : μ}

theorem once_keepPkt {t : Target} (h : c.Once) : (keepPkt g t c pkt).Once := by
  obtain ⟨b, hb⟩ := keepPkt_conn g t c pkt
  rw [hb]
  exact h

theorem once_noteLihSyn (h : c.Once) : (noteLihSyn pkt c).Once := by
  obtain ⟨n, hn⟩ := noteLihSyn_conn pkt c
  rw [hn]
  exact h

/-- A connection that has not been redirected keeps this in a state without redirection. -/
theorem Conn.Once.switchState {st : ConnStatus} (h : c.Once) (hs : c.state.redirected = false)
    (hst : st.redirected = false) : (c.switchState st).Once := by
  rw [Conn.Once, if_neg (by simp [hs])] at h
  rw [Conn.Once, if_neg (by simpa [Conn.switchState] using hst)]
  exact h

/-- A verdict redirects a connection once. -/
theorem deProcessPacket_once {status : Status} (hs : w.conn.state.redirected = false)
    (h : w.conn.Once) (hd : deProcessPacket mods i pkt g w = .ok (status, w', ev)) :
    w'.conn.Once := by
  obtain ⟨d, w₁, ev₁, ev₂, t, he, -, ha, -⟩ := deProcessPacket_cases hd
  -- the rules switch a connection to PROXY, or leave it alone
  have hrun : w₁.conn.Once ∧ w₁.conn.state.redirected = false := by
    obtain hc | ⟨h', k, hc⟩ := (evaluate_run he).conn_cases
    · rw [hc]
      exact ⟨h, hs⟩
    · rw [hc]
      exact ⟨h.switchState hs rfl, rfl⟩
  obtain ⟨h₁, hs₁⟩ := hrun
  cases ha with
  | redirect hd hdec hr =>
    obtain ⟨h', key, rid, ed, -, -, rfl⟩ := setupRedirection_conn hr
    exact Option.some_ne_none _
  | controlFree => exact h₁.switchState hs₁ rfl
  | initFree => exact h₁.switchState hs₁ (by split_ifs <;> rfl)
  | acceptInit => exact h₁.switchState hs₁ (by split_ifs <;> rfl)
  | rejectDecision => exact h₁.switchState hs₁ rfl
  | rejectOther => exact h₁.switchState hs₁ rfl
  | drop => exact h₁.switchState hs₁ rfl
  | _ => exact h₁

theorem Handles.once (hh : Handles mods g i pkt w w' ev) (h : w.conn.Once) : w'.conn.Once := by
  have hopen (hs : w.conn.state = .init ∨ w.conn.state = .decision ∨ w.conn.state = .invalid) :
      w.conn.state.redirected = false := by
    obtain hs | hs | hs := hs <;> rw [hs] <;> rfl
  have hsyn (hs : w.conn.state = .control) :
      (noteLihSyn pkt w.conn).state.redirected = false := by
    obtain ⟨n, hn⟩ := noteLihSyn_conn pkt w.conn
    rw [hn, hs]
    rfl
  cases hh with
  | lihEarly ho hs ht hp => exact once_keepPkt (once_noteLihSyn h)
  | lihControlOk ho hs hd ht hp =>
    exact once_keepPkt (deProcessPacket_once (hsyn hs) (once_noteLihSyn h) hd)
  | lihControlNok ho hs hd ht =>
    exact once_keepPkt (deProcessPacket_once (hsyn hs) (once_noteLihSyn h) hd)
  | hihReplay ho hs hr =>
    obtain ⟨⟨st, _, _, _, _, rfl⟩, hst, -⟩ := replay_frame hr
    obtain ⟨δ, hδ⟩ := noteDelta_conn pkt w.conn
    rw [hδ] at hst ⊢
    have hred : st.redirected = true := by
      obtain rfl | rfl : st = w.conn.state ∨ st = .forward := hst
      · rw [hs]
        rfl
      · rfl
    rw [Conn.Once, if_pos (by rw [hs]; rfl)] at h
    rw [Conn.Once, if_pos hred]
    exact h
  | hihControlOk ho hs hd ht hp => exact deProcessPacket_once (by rw [hs]; rfl) h hd
  | hihControlNok ho hs hd => exact deProcessPacket_once (by rw [hs]; rfl) h hd
  | hihDeny ho hs hev => exact h.switchState (hopen hs) rfl
  | hihInitOk ho hs hd hp =>
    have hctl : (w.conn.switchState .control).Once := h.switchState (hopen hs) rfl
    exact deProcessPacket_once rfl hctl hd
  | hihInitNok ho hs hd =>
    have hctl : (w.conn.switchState .control).Once := h.switchState (hopen hs) rfl
    exact deProcessPacket_once rfl hctl hd
  | extEarlyOk ho hs hd ht hp =>
    exact once_keepPkt (deProcessPacket_once (hopen (hs.imp_right .inl)) h hd)
  | extEarlyNok ho hs hd ht =>
    exact once_keepPkt (deProcessPacket_once (hopen (hs.imp_right .inl)) h hd)
  | _ => exact h

/-- A new connection is not redirected. -/
theorem Creates.once {t : Target} {r : TargetSearch} {role : Role} {now : ℤ}
    (h : Creates g s i t pkt r now role c s') : c.Once := by
  cases h with
  | ext hfront hpin hc =>
    subst hc
    exact ⟨rfl, rfl⟩
  | lih hfront hpin hc =>
    subst hc
    obtain ⟨-, rfl, -⟩ | ⟨p, -, -, rfl⟩ := acquireSnat_cases hpin
    · exact ⟨rfl, rfl⟩
    · exact ⟨rfl, rfl⟩
  | hih hfront hback hpin hc =>
    subst hc
    obtain ⟨-, rfl, -⟩ | ⟨p, -, -, rfl⟩ := acquireSnat_cases hpin
    · exact ⟨rfl, rfl⟩
    · exact ⟨rfl, rfl⟩
  | hihIntra hback hh hpin hc =>
    subst hc
    obtain ⟨-, rfl⟩ | ⟨k, p, ip, -, rfl⟩ := acquireIntra_cases hpin
    · exact ⟨rfl, rfl⟩
    · exact ⟨rfl, rfl⟩
  | hihLan hback hh hlan hc =>
    subst hc
    exact ⟨rfl, rfl⟩

/-- **Redirections of the engine.** In every run, a connection has the key and the pin of a
redirection only in REPLAY and FORWARD, and only a connection from EXT is ever in DECISION. -/
theorem redirected_once {ok : State μ → Input → Prop}
    (hrun : Machine.Run (step mods g) ok (boot targets ifTarget mem) tr s)
    (hc : s.conns[i]? = some c) :
    c.Once ∧ (c.state = .decision → c.initiator = .ext) := by
  have honce : Tracked targets ifTarget (fun _ _ c => c.Once) tr s := by
    refine connInvariant _ ?_ hrun
    intro tr s hT raw now s₁ i pkt c w ev _ _ hatt hh
    refine (handle_cases hh).once ?_
    cases hatt with
    | @found pkt₀ c hcap hpkt hlook hc hs => exact hT.holds i c hc
    | created hcap hpkt hlook hid ht hi hcr => exact hcr.once
  refine ⟨honce.holds i c hc, fun hs => ?_⟩
  obtain hini | hin := (tracked_initiator hrun).holds i c hc
  · exact hini
  · obtain h | h | h := ((tracked_controlled hrun).holds i c hc hin).state <;> simp [h] at hs

end Engine

end Honeybrid
