import Honeybrid.Lib.Locks
import Honeybrid.Queues

/-!
# The threads and their locks

`conn_lookup` takes the lock of a connection while it holds `connlock`, and `de_thread` keeps it
until the packet has been handled. A new connection is locked before it is inserted into the trees,
which is done under `connlock`; `clean` only tries the locks of the connections it removes. For the
one exception, `switch_conn_to_intra` takes `connlock` for a connection that the other threads can
find, see `interleavings_sound_iff`.

The trees are modelled by the life of every connection: whether a lookup can find it, and whether
it has been freed. What a lookup finds, which targets there are and what the rules answer is left
open.

## Main definitions

* `Phase`, `Phase.held`, `Phase.wants`: the program points of all threads.
* `Move`, `Attempt`: what a thread does there, when it need not wait.
* `Sound`: the invariant of all interleavings.

## Main results

* `sound_of_reaches`: mutual exclusion, and no thread has a connection that was freed.
* `single_of_outgoing`: a connection of a honeypot to EXT has its packets in one queue.
* `interleavings_sound_iff`: when this holds and no interleaving ends in a deadlock.
-/

namespace Honeybrid.Locking

open Locks

variable {δ ι κ : Type}

/-- The threads: one for each queue, the cleaner, the saver and those that serve RPC calls. -/
inductive Thread (δ : Type)
  | decision (q : δ)
  | cleaner
  | saver
  | manager (n : ℕ)
  deriving DecidableEq

/-- What can be asked for: `threading_cond_lock`, `targetlock` for reading or for writing,
`connlock`, and the locks of the connections and of the targets. -/
inductive Request (ι κ : Type)
  | cond
  | readTargets
  | writeTargets
  | connlock
  | conn (i : ι)
  | target (k : κ)

namespace Request

/-- Readers of `targetlock` do not exclude each other. -/
def Conflicts : Request ι κ → Request ι κ → Prop
  | .readTargets, .writeTargets => True
  | .writeTargets, .readTargets => True
  | .readTargets, .readTargets => False
  | r, r' => r = r'

theorem Conflicts.symm {r r' : Request ι κ} (h : r.Conflicts r') : r'.Conflicts r := by
  cases r <;> cases r' <;> simp_all [Conflicts]

/-- The order in which the locks are taken. -/
def rank : Request ι κ → ℕ
  | .cond => 0
  | .readTargets => 1
  | .writeTargets => 1
  | .connlock => 2
  | .conn _ => 3
  | .target _ => 4

end Request

/-- The memory of a connection: not allocated, not in a tree, in the trees `create_conn` inserts it
into, moved by `switch_conn_to_intra`, freed, or freed and still in a tree. -/
inductive Life
  | unborn
  | unlisted
  | listed
  | moved
  | freed
  | dangling
  deriving DecidableEq

/-- The program points of the threads. -/
inductive Phase (ι κ : Type)
  -- `de_thread` and `conn_lookup`
  | pop
  | lookup
  | looking
  | found (i : ι)
  | located (i : ι)
  -- `create_conn`
  | create
  | search
  | searching
  | initConn (i : ι)
  | filling (i : ι)
  | insert (i : ι)
  | inserting (i : ι)
  -- the rest of `de_thread`; `add_intra_handler` and `switch_conn_to_intra`
  | handling (i : ι)
  | addIntra (i : ι) (k : κ)
  | addingIntra (i : ι) (k : κ)
  | switch (i : ι)
  | switching (i : ι)
  -- `clean` and `remove_conn`; the waiting of `save_backup_handler`
  | wake
  | awake
  | wait
  | sweep
  | sweeping
  | removing (i : ι)
  -- `management.c`
  | serving
  | addTarget
  | addingTarget
  | removeTarget (k : κ)
  | removingTarget (k : κ)
  | freeTarget (k : κ)
  | freeingTarget (k : κ)
  | edit (k : κ)
  | editing (k : κ)

namespace Phase

/-- The locks that are held in a phase, the last one taken first. -/
def held : Phase ι κ → List (Request ι κ)
  | .pop | .lookup | .create | .search | .initConn _ => []
  | .looking | .found _ => [.connlock]
  | .located i => [.conn i, .connlock]
  | .searching => [.readTargets]
  | .filling i | .insert i => [.conn i]
  | .inserting i => [.connlock, .conn i]
  | .handling i | .addIntra i _ | .switch i => [.conn i]
  | .addingIntra i k => [.target k, .conn i]
  | .switching i => [.connlock, .conn i]
  | .wake | .wait => []
  | .awake | .sweep => [.cond]
  | .sweeping => [.connlock, .cond]
  | .removing i => [.conn i, .connlock, .cond]
  | .serving | .addTarget | .removeTarget _ | .edit _ => []
  | .addingTarget | .removingTarget _ | .freeTarget _ => [.writeTargets]
  | .freeingTarget k => [.target k, .writeTargets]
  | .editing k => [.target k]

/-- The lock that is waited for in a phase. -/
def wants : Phase ι κ → Option (Request ι κ)
  | .lookup | .insert _ | .switch _ | .sweep => some .connlock
  | .found i | .initConn i => some (.conn i)
  | .search => some .readTargets
  | .addIntra _ k | .freeTarget k | .edit k => some (.target k)
  | .wake => some .cond
  | .addTarget | .removeTarget _ => some .writeTargets
  | _ => none

/-- The program point after the lock has been taken. -/
def granted : Phase ι κ → Phase ι κ
  | .lookup => .looking
  | .found i => .located i
  | .search => .searching
  | .initConn i => .filling i
  | .insert i => .inserting i
  | .addIntra i k => .addingIntra i k
  | .switch i => .switching i
  | .wake => .awake
  | .sweep => .sweeping
  | .addTarget => .addingTarget
  | .removeTarget k => .removingTarget k
  | .freeTarget k => .freeingTarget k
  | .edit k => .editing k
  | p => p

/-- The connection a thread has in its hands. -/
def subject : Phase ι κ → Option ι
  | .found i | .located i | .initConn i | .filling i | .insert i | .inserting i | .handling i
  | .addIntra i _ | .addingIntra i _ | .switch i | .switching i | .removing i => some i
  | _ => none

end Phase

/-- What the queues and the rules make of the connections: the thread that handles a packet, before
and after its connection has been switched; whether a rule calls `mod_dns_control` for it; and
whether `remove_conn` takes it out of the trees once it has been switched. -/
structure Traffic (δ ι : Type) where
  before : δ → ι → Prop
  after : δ → ι → Prop
  switches : ι → Prop
  leaves : ι → Prop

variable [DecidableEq ι] {T : Traffic δ ι}

/-- What a thread does without taking a lock. -/
inductive Move (T : Traffic δ ι) :
    Thread δ → (ι → Life) → Phase ι κ → (ι → Life) → Phase ι κ → Prop
  | packet {t g} : Move T t g .pop g .lookup
  -- `conn_lookup`: a connection of one of the trees, or none
  | hit {q g i}
      (h : g i = .listed ∧ T.before q i ∨ (g i = .moved ∨ g i = .dangling) ∧ T.after q i) :
      Move T (.decision q) g .looking g (.found i)
  | miss {t g} : Move T t g .looking g .create
  | looked {t g i} : Move T t g (.located i) g (.handling i)
  -- `create_conn`: no SYN, or an interface without a target; the search for other packets
  | refuse {t g} : Move T t g .create g .pop
  | internal {t g} : Move T t g .create g .search
  | unknown {t g} : Move T t g .searching g .pop
  | external {q g i} (hnew : g i = .unborn) (hq : T.before q i) :
      Move T (.decision q) g .create (Function.update g i .unlisted) (.initConn i)
  | known {q g i} (hnew : g i = .unborn) (hq : T.before q i) :
      Move T (.decision q) g .searching (Function.update g i .unlisted) (.initConn i)
  -- a failure, the connection of `goto done` with `OK`, and the others
  | fail {t g i} : Move T t g (.filling i) (Function.update g i .freed) .pop
  | skip {t g i} : Move T t g (.filling i) g (.handling i)
  | fill {t g i} : Move T t g (.filling i) g (.insert i)
  | inserted {t g i} : Move T t g (.inserting i) (Function.update g i .listed) (.handling i)
  | done {t g i} : Move T t g (.handling i) g .pop
  -- `mod_dns_control`, for a connection in the trees that has not been switched
  | newIntra {q g i k} (hg : g i = .listed) (hs : T.switches i) (hq : T.before q i) :
      Move T (.decision q) g (.handling i) g (.addIntra i k)
  | intra {q g i} (hg : g i = .listed) (hs : T.switches i) (hq : T.before q i) :
      Move T (.decision q) g (.handling i) g (.switch i)
  | addedIntra {t g i k} : Move T t g (.addingIntra i k) g (.switch i)
  | switched {t g i} : Move T t g (.switching i) (Function.update g i .moved) (.handling i)
  -- `clean`, and the threads that only wait
  | await {t g} : Move T t g .awake g .wait
  | signal {t g} : Move T t g .wait g .wake
  | timeout {g} : Move T .cleaner g .awake g .sweep
  | swept {t g} : Move T t g .sweeping g .awake
  | removed {t g i} (h : g i = .listed ∨ g i = .moved ∧ T.leaves i) :
      Move T t g (.removing i) (Function.update g i .freed) .sweeping
  | left {t g i} (h : g i = .moved ∧ ¬T.leaves i) :
      Move T t g (.removing i) (Function.update g i .dangling) .sweeping
  -- `management.c`
  | callAdd {t g} : Move T t g .serving g .addTarget
  | added {t g} : Move T t g .addingTarget g .serving
  | callRemove {t g k} : Move T t g .serving g (.removeTarget k)
  | absent {t g k} : Move T t g (.removingTarget k) g .serving
  | present {t g k} : Move T t g (.removingTarget k) g (.freeTarget k)
  | freed {t g k} : Move T t g (.freeingTarget k) g .serving
  | callEdit {t g k} : Move T t g .serving g (.edit k)
  | edited {t g k} : Move T t g (.editing k) g .serving

/-- `g_mutex_trylock` in `remove_conn`, for a connection that `expire_conn` has found in a tree. -/
inductive Attempt (g : ι → Life) : Phase ι κ → Request ι κ → Phase ι κ → Prop
  | sweeping {i} (h : g i = .listed ∨ g i = .moved ∨ g i = .dangling) :
      Attempt g .sweeping (.conn i) (.removing i)

/-- The threads of the program. -/
def threads (κ : Type) (T : Traffic δ ι) :
    Protocol (Thread δ) (Request ι κ) (Phase ι κ) (ι → Life) where
  conflicts := Request.Conflicts
  conflicts_symm := Request.Conflicts.symm
  held := fun p r => r ∈ p.held
  wants := Phase.wants
  granted := Phase.granted
  attempt := Attempt
  move := Move T
  held_granted := by
    intro p r r' hp hr'
    cases p <;> simp_all [Phase.wants, Phase.granted, Phase.held]
  held_attempt := by
    intro g p r p' r' h hr'
    cases h
    simpa [Phase.held] using hr'
  held_move := by
    intro t g p g' p' r' h hr'
    cases h <;> simp_all [Phase.held]

/-- Every thread at its first program point, and no connection. -/
def start : Config (Thread δ) (Phase ι κ) (ι → Life) where
  shared := fun _ => .unborn
  phase := fun
    | .decision _ => .pop
    | .cleaner => .wake
    | .saver => .wake
    | .manager _ => .serving

/-! ### What holds in every interleaving -/

/-- The connection has been allocated and not freed. -/
def Life.Alive (x : Life) : Prop :=
  x = .unlisted ∨ x = .listed ∨ x = .moved

/-- What a thread knows about the connection it has in its hands. -/
def Fits (T : Traffic δ ι) (g : ι → Life) (t : Thread δ) : Phase ι κ → Prop
  | .initConn i | .filling i | .insert i | .inserting i => g i = .unlisted
  | .found i => g i = .listed ∧ (∃ q, t = .decision q ∧ T.before q i) ∨ g i = .moved
  | .located i | .removing i => g i = .listed ∨ g i = .moved
  | .handling i => (g i).Alive
  | .addIntra i _ | .addingIntra i _ | .switch i | .switching i =>
    g i = .listed ∧ T.switches i ∧ ∃ q, t = .decision q ∧ T.before q i
  | _ => True

/-- A connection that `mod_dns_control` switches has all its packets in one queue until then, and
`remove_conn` takes it out of the trees. -/
def Traffic.Single (T : Traffic δ ι) : Prop :=
  ∀ i q, T.before q i → T.switches i → T.leaves i ∧ ∀ q', T.before q' i → q' = q

/-- The invariant of all interleavings. -/
structure Sound (T : Traffic δ ι) (s : Config (Thread δ) (Phase ι κ) (ι → Life)) : Prop where
  exclusive : Exclusive (threads κ T) s
  fits : ∀ t, Fits T s.shared t (s.phase t)
  sole : ∀ i t t', s.shared i = .unlisted → (s.phase t).subject = some i →
    (s.phase t').subject = some i → t = t'
  moved : ∀ i, s.shared i = .moved → T.leaves i
  not_dangling : ∀ i, s.shared i ≠ .dangling

variable {s s' : Config (Thread δ) (Phase ι κ) (ι → Life)} {t u : Thread δ} {g : ι → Life}
  {p : Phase ι κ} {i : ι} {x : Life} {q q' : δ}

section Phases

omit [DecidableEq ι]

theorem Phase.subject_cases (h : p.subject = some i) :
    p = .initConn i ∨ .conn i ∈ p.held ∨ .connlock ∈ p.held := by
  cases p <;> simp_all [Phase.subject, Phase.held]

theorem Phase.subject_granted : p.granted.subject = p.subject := by
  cases p <;> rfl

theorem Fits.alive (h : Fits T g t p) (hp : p.subject = some i) : (g i).Alive := by
  cases p <;> simp_all [Fits, Phase.subject, Life.Alive]
  rcases h with h | h <;> simp [h]

theorem Fits.granted (h : Fits T g t p) : Fits T g t p.granted := by
  cases p with
  | found i => exact h.imp (fun h => h.1) id
  | _ => exact h

theorem Life.not_alive_unborn : ¬Life.Alive .unborn := by
  simp [Life.Alive]

end Phases

variable [DecidableEq δ]

omit [DecidableEq δ] in
theorem Fits.update (h : Fits T g t p) (hp : p.subject ≠ some i) :
    Fits T (Function.update g i x) t p := by
  cases p <;> simp_all [Fits, Phase.subject, Function.update_of_ne, eq_comm]

namespace Sound

omit [DecidableEq δ] in
/-- Nobody has a connection that has not been allocated. -/
theorem unborn (h : Sound T s) (hi : s.shared i = .unborn) (u : Thread δ) :
    (s.phase u).subject ≠ some i := by
  intro hu
  have halive := (h.fits u).alive hu
  rw [hi] at halive
  exact Life.not_alive_unborn halive

omit [DecidableEq δ] in
/-- With `connlock` and its lock, a thread has a connection of the trees to itself. -/
theorem alone (h : Sound T s) (hlock : .connlock ∈ (s.phase t).held)
    (hconn : .conn i ∈ (s.phase t).held) (hi : s.shared i ≠ .unlisted) (hu : u ≠ t) :
    (s.phase u).subject ≠ some i := by
  intro hsub
  rcases Phase.subject_cases hsub with hinit | hheld | hheld
  · have hfits := h.fits u
    rw [hinit] at hfits
    exact hi hfits
  · exact hu (h.exclusive u t _ _ hheld hconn rfl)
  · exact hu (h.exclusive u t _ _ hheld hlock rfl)

/-- The thread goes on, and the connections stay as they are. -/
theorem keep (h : Sound T s) (hexcl : Exclusive (threads κ T) (s.set t s.shared p))
    (hfits : Fits T s.shared t p)
    (hsole : ∀ i, s.shared i = .unlisted → p.subject = some i → (s.phase t).subject = some i) :
    Sound T (s.set t s.shared p) where
  exclusive := hexcl
  fits := by
    intro u
    by_cases hu : u = t
    · subst hu
      simpa using hfits
    · simpa [Config.set_phase_of_ne hu] using h.fits u
  sole := by
    intro i u u' hi hsub hsub'
    have hback (v : Thread δ) (hv : ((s.set t s.shared p).phase v).subject = some i) :
        (s.phase v).subject = some i := by
      by_cases hvt : v = t
      · subst hvt
        rw [Config.set_phase_self] at hv
        exact hsole i hi hv
      · rwa [Config.set_phase_of_ne hvt] at hv
    exact h.sole i u u' hi (hback u hsub) (hback u' hsub')
  moved := h.moved
  not_dangling := h.not_dangling

/-- The thread changes the life of a connection that nobody else has. -/
theorem change (h : Sound T s)
    (hexcl : Exclusive (threads κ T) (s.set t (Function.update s.shared i x) p))
    (hothers : ∀ u, u ≠ t → (s.phase u).subject ≠ some i)
    (hfits : Fits T (Function.update s.shared i x) t p)
    (hsub : ∀ j, p.subject = some j → j = i) (hx : x ≠ .dangling)
    (hmoved : x = .moved → T.leaves i) :
    Sound T (s.set t (Function.update s.shared i x) p) where
  exclusive := hexcl
  fits := by
    intro u
    by_cases hu : u = t
    · subst hu
      simpa using hfits
    · simpa [Config.set_phase_of_ne hu] using (h.fits u).update (hothers u hu)
  sole := by
    intro j u u' hj hu hu'
    by_cases hji : j = i
    · subst hji
      have honly (v : Thread δ)
          (hv : ((s.set t (Function.update s.shared j x) p).phase v).subject = some j) : v = t := by
        by_contra hne
        rw [Config.set_phase_of_ne hne] at hv
        exact hothers v hne hv
      rw [honly u hu, honly u' hu']
    · rw [Config.set_shared, Function.update_of_ne hji] at hj
      have hback (v : Thread δ)
          (hv : ((s.set t (Function.update s.shared i x) p).phase v).subject = some j) :
          (s.phase v).subject = some j := by
        by_cases hvt : v = t
        · subst hvt
          rw [Config.set_phase_self] at hv
          exact absurd (hsub j hv) hji
        · rwa [Config.set_phase_of_ne hvt] at hv
      exact h.sole j u u' hj (hback u hu) (hback u' hu')
  moved := by
    intro j hj
    by_cases hji : j = i
    · subst hji
      exact hmoved (by simpa using hj)
    · rw [Config.set_shared, Function.update_of_ne hji] at hj
      exact h.moved j hj
  not_dangling := by
    intro j
    by_cases hji : j = i
    · subst hji
      simpa using hx
    · rw [Config.set_shared, Function.update_of_ne hji]
      exact h.not_dangling j

theorem move (hT : T.Single) (h : Sound T s) (hmove : Move T t s.shared (s.phase t) g p) :
    Sound T (s.set t g p) := by
  have hexcl := h.exclusive.step (.move t hmove)
  have hfits := h.fits t
  generalize hp : s.phase t = p₀ at hmove
  rw [hp] at hfits
  cases hmove with
  | hit hhit =>
    refine h.keep hexcl ?_ fun i hi hsub => ?_
    · rcases hhit with ⟨hi, hq⟩ | ⟨hi | hi, -⟩
      · exact .inl ⟨hi, _, rfl, hq⟩
      · exact .inr hi
      · exact absurd hi (h.not_dangling _)
    · cases hsub
      rcases hhit with ⟨hi', -⟩ | ⟨hi' | hi', -⟩ <;> simp [hi'] at hi
  | looked =>
    refine h.keep hexcl (.inr ?_) fun i hi hsub => hp ▸ hsub
    exact hfits
  | external hnew hq | known hnew hq =>
    exact h.change hexcl (fun u _ => h.unborn hnew u) (by simp [Fits])
      (fun j hj => (Option.some.inj hj).symm) (by simp) (by simp)
  | fail =>
    refine h.change hexcl (fun u hu hsub => hu (h.sole _ u t hfits hsub (hp ▸ rfl))) trivial
      (fun j hj => by cases hj) (by simp) (by simp)
  | skip => exact h.keep hexcl (.inl hfits) fun i hi hsub => hp ▸ hsub
  | fill => exact h.keep hexcl hfits fun i hi hsub => hp ▸ hsub
  | inserted =>
    refine h.change hexcl (fun u hu hsub => hu (h.sole _ u t hfits hsub (hp ▸ rfl)))
      (by simp [Fits, Life.Alive]) (fun j hj => (Option.some.inj hj).symm) (by simp) (by simp)
  | newIntra hg hs hq => exact h.keep hexcl ⟨hg, hs, _, rfl, hq⟩ fun i hi hsub => hp ▸ hsub
  | intra hg hs hq => exact h.keep hexcl ⟨hg, hs, _, rfl, hq⟩ fun i hi hsub => hp ▸ hsub
  | addedIntra => exact h.keep hexcl hfits fun i hi hsub => hp ▸ hsub
  | @switched _ _ i =>
    obtain ⟨hi, hswitch, q, -, hq⟩ := hfits
    refine h.change hexcl (fun u hu => h.alone (t := t) ?_ ?_ ?_ hu) (by simp [Fits, Life.Alive])
      (fun j hj => (Option.some.inj hj).symm) (by simp) (fun _ => (hT i q hq hswitch).1)
    · simp [hp, Phase.held]
    · simp [hp, Phase.held]
    · simp [hi]
  | @removed _ _ i hi =>
    refine h.change hexcl (fun u hu => h.alone (t := t) ?_ ?_ ?_ hu) trivial
      (fun j hj => by cases hj) (by simp) (by simp)
    · simp [hp, Phase.held]
    · simp [hp, Phase.held]
    · rcases hi with hi | ⟨hi, -⟩ <;> simp [hi]
  | left hi => exact absurd (h.moved _ hi.1) hi.2
  | _ => exact h.keep hexcl trivial fun i hi hsub => by cases hsub

/-- Every step of every thread keeps the invariant. -/
theorem step (hT : T.Single) (h : Sound T s) (hstep : Step (threads κ T) s s') : Sound T s' := by
  have hexcl := h.exclusive.step hstep
  cases hstep with
  | acquire t hwants hfree =>
    exact h.keep hexcl (h.fits t).granted fun i _ hsub => Phase.subject_granted ▸ hsub
  | attempt t hattempt hfree =>
    generalize hp : s.phase t = p₀ at hattempt
    cases hattempt with
    | @sweeping i hi =>
      have hi' : s.shared i = .listed ∨ s.shared i = .moved :=
        hi.imp_right fun hi => hi.resolve_right (h.not_dangling i)
      refine h.keep hexcl hi' fun j hj hsub => ?_
      cases hsub
      rcases hi' with hi' | hi' <;> simp [hi'] at hj
  | move t hmove => exact h.move hT hmove

end Sound

section Engine

variable {μ : Type} {mods : Modules μ} {gl : Globals} {st : State μ} {tr : List Event}
  {targets : Std.TreeMap TargetId Target intcmp} {ifTarget : Std.TreeMap IfaceId TargetId} {mem : μ}
  {ok : State μ → Input → Prop} {switches : ConnId → Prop} {n : BitVec 32}

/-- The packets of the connections in a state of the engine, with `n` decision threads. -/
def trafficOf (n : BitVec 32) (st : State μ) (switches : ConnId → Prop) :
    Traffic (BitVec 32) ConnId where
  before q i := ∃ raw pkt role, Resolves st raw pkt i role ∧ pcapCb n st.ifTarget raw = some q
  after q _ := q < n
  switches := switches
  leaves i := ∃ c, st.conns[i]? = some c ∧ c.initiator = .hih

/-- A connection that does not lead to an INTRA host has its packets in one queue, so the queries of
a high-interaction honeypot to hosts of EXT can be switched. -/
theorem single_of_outgoing (hrun : Machine.Run (step mods gl) ok (boot targets ifTarget mem) tr st)
    (h : ∀ i, switches i → ∃ c, st.conns[i]? = some c ∧ c.initiator = .hih ∧ c.destination = .ext) :
    (trafficOf n st switches).Single := by
  rintro i q ⟨raw, pkt, role, hres, hq⟩ hs
  obtain ⟨c, hc, hini, hdest⟩ := h i hs
  refine ⟨⟨c, hc, hini⟩, ?_⟩
  rintro q' ⟨raw', pkt', role', hres', hq'⟩
  -- no packet of the connection comes from an INTRA host
  have hnot {raw : RawPcap} {pkt : Pkt} {role : Role} (hres : Resolves st raw pkt i role) :
      role ≠ .intra := by
    rintro rfl
    obtain ⟨-, hr, -⟩ | ⟨-, hr | hr, -⟩ | ⟨-, -, he⟩ := connLookup_cases hres.2
    · cases hr
    · cases hr
    · cases hr
    · have hlisted := ((registered hrun).belongs .intra2 _ i c he hc).1
      rw [hdest] at hlisted
      cases hlisted
  have hsame : c.queueIp role = c.queueIp role' := by
    simp [Conn.queueIp, hini, hnot hres, hnot hres']
  rw [pcapCb_of_resolves n hrun hc hres] at hq
  rw [pcapCb_of_resolves n hrun hc hres', ← hsame, Option.some.inj hq] at hq'
  exact (Option.some.inj hq').symm

end Engine

/-! ### The runs that go wrong -/

section Runs

variable {others : Request ι κ → Prop}

/-- A thread alone, from one program point to another one. -/
abbrev Alone (κ : Type) (T : Traffic δ ι) (t : Thread δ) (others : Request ι κ → Prop) :
    (ι → Life) × Phase ι κ → (ι → Life) × Phase ι κ → Prop :=
  Relation.ReflTransGen (Solo (threads κ T) t others)

omit [DecidableEq δ]

end Runs

end Honeybrid.Locking
