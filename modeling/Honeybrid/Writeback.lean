import Honeybrid.Visits

/-!
# Writing the backups

A module that has decided enters its key file in the table `module_to_save`, under the path of its
backup. A thread wakes up once a minute, and when the program is shut down, and goes through the
table: it writes a file and then removes the entry; what could not be written stays in the table.
The decision threads have been joined before the thread is told to stop, so that it is to write what
they have left.

No lock is taken around the table. The accesses to it are steps of their own here, so that a module
may decide after its file was written and before its entry is removed.

## Main definitions

* `BackupModule`: a module with a key file, its path and what it does with a packet.
* `saveBackup`, `writeBackup`: the functions of the code.
* `Saving`, `savingStep`: the decision threads, the thread that saves, and the shutdown.
* `Apart`: no module decides while its entry is about to be removed.
* `Remembered`: the records of a module are in its file, or are still to be written.

## Main results

* `kept_iff_injective`: nothing is forgotten in any run exactly if no two modules have one path.
* `forgotten_of_written`: what happens to a decision that is not apart.
* `saved_at_exit`: after a shutdown, the files hold the records.
-/

namespace Honeybrid

/-- A module with a key file: the path of its backup, and its function on the records. -/
structure BackupModule (α D : Type) where
  file : String
  act : α → D → Except Deferral (ModResult × D)

/-- A module `source`. -/
def sourceBacked (t : ModSettings) (file : String) : BackupModule Arrival SourceDb :=
  ⟨file, fun a => modSource t (BitVec.ofInt 32 a.now) a.src⟩

/-- A module `source_time`. -/
def sourceTimeBacked (t : ModSettings) (file : String) : BackupModule Arrival SourceDb :=
  ⟨file, fun a => modSourceTime t a.mem (BitVec.ofInt 32 a.now) a.src⟩

/-! ### The table -/

variable {ι α D : Type}

/-- `save_backup`: enters the key file, or puts it in the place of the one with this path. -/
def saveBackup (data : ι) (filename : String) (toSave : List (String × ι)) :
    Bool × List (String × ι) :=
  match toSave.lookup filename with
  | none => (true, (filename, data) :: toSave)
  | some _ => (false, toSave.map fun e => if e.1 = filename then (filename, data) else e)

/-- `write_backup`: the file is given its new contents if it can be opened. -/
def writeBackup (writable : Bool) (filename : String) (data : D) (files : String → Option D) :
    Bool × (String → Option D) :=
  if writable then (true, Function.update files filename (some data)) else (false, files)

/-- `g_hash_table_foreach_steal` removes the entry that `write_backup` has written. -/
def stealEntry (filename : String) (toSave : List (String × ι)) : List (String × ι) :=
  toSave.filter fun e => e.1 ≠ filename

theorem lookup_eq_none {filename : String} {toSave : List (String × ι)}
    (h : toSave.lookup filename = none) {e : String × ι} (he : e ∈ toSave) : e.1 ≠ filename := by
  intro heq
  have hne := List.lookup_eq_none_iff.1 h e he
  rw [heq, bne_self_eq_false] at hne
  cases hne

theorem mem_of_lookup {filename : String} {toSave : List (String × ι)} {i : ι}
    (h : toSave.lookup filename = some i) : (filename, i) ∈ toSave := by
  induction toSave with
  | nil => cases h
  | cons e toSave ih =>
    by_cases heq : e.1 = filename
    · rw [List.lookup_cons, heq, beq_self_eq_true] at h
      cases h
      exact heq ▸ List.mem_cons_self
    · rw [List.lookup_cons, beq_false_of_ne (Ne.symm heq)] at h
      exact List.mem_cons_of_mem _ (ih h)

/-- The entries after a key file was entered. -/
theorem mem_saveBackup {data : ι} {filename : String} {toSave : List (String × ι)}
    {e : String × ι} : e ∈ (saveBackup data filename toSave).2 ↔
      e = (filename, data) ∨ (e ∈ toSave ∧ e.1 ≠ filename) := by
  rw [saveBackup]
  split
  · rename_i hnone
    rw [List.mem_cons]
    exact or_congr_right ⟨fun he => ⟨he, lookup_eq_none hnone he⟩, fun he => he.1⟩
  · rename_i i hsome
    rw [List.mem_map]
    constructor
    · rintro ⟨e', he', rfl⟩
      by_cases hfile : e'.1 = filename
      · exact .inl (if_pos hfile)
      · rw [if_neg hfile]
        exact .inr ⟨he', hfile⟩
    · rintro (rfl | ⟨he, hfile⟩)
      · exact ⟨(filename, i), mem_of_lookup hsome, if_pos rfl⟩
      · exact ⟨e, he, if_neg hfile⟩

@[simp]
theorem mem_stealEntry {filename : String} {toSave : List (String × ι)} {e : String × ι} :
    e ∈ stealEntry filename toSave ↔ e ∈ toSave ∧ e.1 ≠ filename := by
  rw [stealEntry, List.mem_filter, decide_eq_true_iff]

/-! ### Threads -/

/-- Where the thread of `save_backup_handler` is. -/
inductive Saver
  /-- At the test of the loop. -/
  | testing
  /-- In `g_cond_wait_until`. -/
  | waiting
  /-- In `g_hash_table_foreach_steal`, before an entry or behind the last one. -/
  | saving
  /-- Behind `write_backup`, which has written the file; the entry is still in the table. -/
  | written (filename : String)
  /-- It has left the loop. -/
  | done
  deriving DecidableEq, Repr

/-- The thread is in `g_hash_table_foreach_steal`. -/
def Saver.walking : Saver → Bool
  | .saving | .written _ => true
  | .testing | .waiting | .done => false

/-- The key files, `module_to_save`, the files, the thread that saves with the entries it has still
to come to, whether the decision threads run, and `threading`. -/
structure Saving (ι D : Type) where
  memory : ι → D
  toSave : List (String × ι) := []
  files : String → Option D
  saver : Saver := .testing
  todo : List String := []
  deciding : Bool := true
  threading : Bool := true

/-- What the threads do. -/
inductive SavingInput (ι α : Type)
  /-- A module is given a packet. -/
  | packet (i : ι) (a : α)
  /-- The decision threads are joined. -/
  | join
  /-- `threading = NOK` and the broadcast. -/
  | stop
  /-- The test of the loop. -/
  | test
  /-- The end of the wait, by the broadcast or the time. -/
  | wake
  /-- `write_backup` is called for an entry; `writable` says if the file can be opened. The order of
  the entries is that of the hash table. -/
  | write (filename : String) (writable : Bool)
  /-- The entry of the file that was written is removed. -/
  | steal
  /-- The end of the table. -/
  | finish

/-- Why an input has no step. -/
inductive SavingFault
  /-- The thread is somewhere else. -/
  | elsewhere
  /-- The table is given a new entry while `g_hash_table_foreach_steal` goes through it by index,
  which GLib does not allow. -/
  | grown
  deriving DecidableEq, Repr

variable [DecidableEq ι]

/-- A module has decided: its key file has new records, and is entered in the table. -/
def Saving.decided (s : Saving ι D) (file : String) (i : ι) (d : D) : Saving ι D where
  memory := Function.update s.memory i d
  toSave := (saveBackup i file s.toSave).2
  files := s.files
  saver := s.saver
  todo := s.todo
  deciding := s.deciding
  threading := s.threading

/-- A step of the threads. The outputs are the modules that have decided. -/
def savingStep (mods : ι → BackupModule α D) (s : Saving ι D) :
    SavingInput ι α → Except SavingFault (Saving ι D × List ι)
  | .packet i a =>
    if s.deciding then
      match (mods i).act a (s.memory i) with
      | .error _ => .ok (s, [])
      | .ok (_, d) =>
        if s.saver.walking && (saveBackup i (mods i).file s.toSave).1 then .error .grown
        else .ok (s.decided (mods i).file i d, [i])
    else .error .elsewhere
  | .join =>
    if s.deciding then .ok ({ s with deciding := false }, []) else .error .elsewhere
  | .stop =>
    if s.deciding = false ∧ s.threading then .ok ({ s with threading := false }, [])
    else .error .elsewhere
  | .test =>
    if s.saver = .testing then
      .ok ({ s with saver := if s.threading then .waiting else .done }, [])
    else .error .elsewhere
  | .wake =>
    if s.saver = .waiting then
      .ok ({ s with saver := .saving, todo := s.toSave.map Prod.fst }, [])
    else .error .elsewhere
  | .write filename writable =>
    if s.saver = .saving ∧ filename ∈ s.todo then
      match s.toSave.lookup filename with
      | none => .error .elsewhere
      | some i =>
        let (written, files) := writeBackup writable filename (s.memory i) s.files
        if written then .ok ({ s with files := files, saver := .written filename }, [])
        else .ok ({ s with todo := s.todo.filter (· ≠ filename) }, [])
    else .error .elsewhere
  | .steal =>
    match s.saver with
    | .written filename =>
      .ok ({ s with
        toSave := stealEntry filename s.toSave
        saver := .saving
        todo := s.todo.filter (· ≠ filename) }, [])
    | _ => .error .elsewhere
  | .finish =>
    if s.saver = .saving ∧ s.todo = [] then .ok ({ s with saver := .testing }, [])
    else .error .elsewhere

/-- What a step does. -/
inductive Saves (mods : ι → BackupModule α D) (s : Saving ι D) :
    SavingInput ι α → Saving ι D → List ι → Prop
  | defer {i : ι} {a : α} (hlive : s.deciding = true) : Saves mods s (.packet i a) s []
  | decide {i : ι} {a : α} {r : ModResult} {d : D} (hlive : s.deciding = true)
      (hact : (mods i).act a (s.memory i) = .ok (r, d))
      (hgrown : (s.saver.walking && (saveBackup i (mods i).file s.toSave).1) = false) :
      Saves mods s (.packet i a) (s.decided (mods i).file i d) [i]
  | join (hlive : s.deciding = true) : Saves mods s .join { s with deciding := false } []
  | stop (hlive : s.deciding = false) (hthreading : s.threading = true) :
      Saves mods s .stop { s with threading := false } []
  | loop (hsaver : s.saver = .testing) (hthreading : s.threading = true) :
      Saves mods s .test { s with saver := .waiting } []
  | leave (hsaver : s.saver = .testing) (hthreading : s.threading = false) :
      Saves mods s .test { s with saver := .done } []
  | wake (hsaver : s.saver = .waiting) :
      Saves mods s .wake { s with saver := .saving, todo := s.toSave.map Prod.fst } []
  | write {filename : String} {i : ι} (hsaver : s.saver = .saving)
      (hentry : (filename, i) ∈ s.toSave) :
      Saves mods s (.write filename true) { s with
        files := Function.update s.files filename (some (s.memory i))
        saver := .written filename } []
  | fail {filename : String} (hsaver : s.saver = .saving) :
      Saves mods s (.write filename false)
        { s with todo := s.todo.filter (· ≠ filename) } []
  | steal {filename : String} (hsaver : s.saver = .written filename) :
      Saves mods s .steal { s with
        toSave := stealEntry filename s.toSave
        saver := .saving
        todo := s.todo.filter (· ≠ filename) } []
  | finish (hsaver : s.saver = .saving) (htodo : s.todo = []) :
      Saves mods s .finish { s with saver := .testing } []

section

variable {mods : ι → BackupModule α D} {s s' : Saving ι D} {i : SavingInput ι α} {out tr : List ι}

theorem savingStep_cases (h : savingStep mods s i = .ok (s', out)) : Saves mods s i s' out := by
  cases i with
  | packet j a =>
    rw [savingStep] at h
    by_cases hlive : s.deciding = true
    · rw [if_pos hlive] at h
      cases hact : (mods j).act a (s.memory j) with
      | error e =>
        rw [hact] at h
        cases h
        exact .defer hlive
      | ok r =>
        simp only [hact] at h
        by_cases hgrown : (s.saver.walking && (saveBackup j (mods j).file s.toSave).1) = true
        · rw [if_pos hgrown] at h
          cases h
        · rw [if_neg hgrown] at h
          cases h
          exact .decide hlive hact (Bool.eq_false_of_not_eq_true hgrown)
    · rw [if_neg hlive] at h
      cases h
  | join =>
    rw [savingStep] at h
    split at h
    · rename_i hlive
      cases h
      exact .join hlive
    · cases h
  | stop =>
    rw [savingStep] at h
    split at h
    · rename_i hstop
      cases h
      exact .stop hstop.1 hstop.2
    · cases h
  | test =>
    rw [savingStep] at h
    by_cases hsaver : s.saver = .testing
    · rw [if_pos hsaver] at h
      by_cases hthreading : s.threading = true
      · rw [if_pos hthreading] at h
        cases h
        exact .loop hsaver hthreading
      · rw [if_neg hthreading] at h
        cases h
        exact .leave hsaver (Bool.eq_false_of_not_eq_true hthreading)
    · rw [if_neg hsaver] at h
      cases h
  | wake =>
    rw [savingStep] at h
    split at h
    · rename_i hsaver
      cases h
      exact .wake hsaver
    · cases h
  | write filename writable =>
    rw [savingStep] at h
    split at h
    · rename_i hsaver
      cases hentry : s.toSave.lookup filename with
      | none =>
        rw [hentry] at h
        cases h
      | some j =>
        rw [hentry] at h
        cases writable with
        | true =>
          cases h
          exact .write hsaver.1 (mem_of_lookup hentry)
        | false =>
          cases h
          exact .fail hsaver.1
    · cases h
  | steal =>
    rw [savingStep] at h
    split at h
    · rename_i filename hsaver
      cases h
      exact .steal hsaver
    · cases h
  | finish =>
    rw [savingStep] at h
    split at h
    · rename_i hend
      cases h
      exact .finish hend.1 hend.2
    · cases h

theorem savingStep_decide {j : ι} {a : α} {r : ModResult} {d : D} (hlive : s.deciding = true)
    (hact : (mods j).act a (s.memory j) = .ok (r, d)) (hsaver : s.saver.walking = false) :
    savingStep mods s (.packet j a) = .ok (s.decided (mods j).file j d, [j]) := by
  rw [savingStep, if_pos hlive, hact]
  show (if (s.saver.walking && _) = true then _ else _) = _
  rw [hsaver, Bool.false_and, if_neg Bool.false_ne_true]

/-! ### What is kept -/

/-- No module decides after its file was written and before its entry is removed. -/
def Apart (mods : ι → BackupModule α D) (s : Saving ι D) : SavingInput ι α → Prop
  | .packet i a => s.saver = .written (mods i).file → ((mods i).act a (s.memory i)).isOk = false
  | _ => True

instance (s : Saving ι D) (i : SavingInput ι α) : Decidable (Apart mods s i) :=
  match i with
  | .packet .. => inferInstanceAs (Decidable (_ → _))
  | .join | .stop | .test | .wake | .write .. | .steal | .finish => .isTrue trivial

/-- The records of the module are in its file, or its key file is in the table. -/
def Remembered (mods : ι → BackupModule α D) (s : Saving ι D) (i : ι) : Prop :=
  s.files (mods i).file = some (s.memory i) ∨ ((mods i).file, i) ∈ s.toSave

/-- What holds in every state: the entries have the paths of their modules, the file that was
written has the records of its module, and the records of the modules that have decided are kept. -/
structure AllKept (mods : ι → BackupModule α D) (tr : List ι) (s : Saving ι D) : Prop where
  own : ∀ e ∈ s.toSave, e.1 = (mods e.2).file
  written : ∀ i, s.saver = .written (mods i).file → s.files (mods i).file = some (s.memory i)
  kept : ∀ i ∈ tr, Remembered mods s i

theorem AllKept.decide (h : AllKept mods tr s) (hinj : Function.Injective fun i => (mods i).file)
    {j : ι} (hapart : s.saver ≠ .written (mods j).file) (d : D) :
    AllKept mods (tr ++ [j]) (s.decided (mods j).file j d) where
  own e he := by
    obtain rfl | ⟨he, -⟩ := mem_saveBackup.1 he
    · rfl
    · exact h.own e he
  written i hi := by
    have hij : i ≠ j := by
      rintro rfl
      exact hapart hi
    show s.files (mods i).file = some (Function.update s.memory j d i)
    rw [Function.update_of_ne hij]
    exact h.written i hi
  kept i hi := by
    by_cases hij : i = j
    · subst hij
      exact .inr (mem_saveBackup.2 (.inl rfl))
    · have hi : i ∈ tr := (List.mem_append.1 hi).resolve_right fun hi =>
        hij (List.mem_singleton.1 hi)
      obtain hfile | hentry := h.kept i hi
      · left
        show s.files (mods i).file = some (Function.update s.memory j d i)
        rw [Function.update_of_ne hij]
        exact hfile
      · exact .inr (mem_saveBackup.2 (.inr ⟨hentry, fun hfile => hij (hinj hfile)⟩))

theorem AllKept.write (h : AllKept mods tr s) (hinj : Function.Injective fun i => (mods i).file)
    {filename : String} {j : ι} (hentry : (filename, j) ∈ s.toSave) :
    AllKept mods tr { s with
      files := Function.update s.files filename (some (s.memory j))
      saver := .written filename } := by
  obtain rfl : filename = (mods j).file := h.own _ hentry
  refine ⟨h.own, ?_, ?_⟩
  · intro i hi
    obtain rfl : j = i := hinj (Saver.written.inj hi)
    exact Function.update_self ..
  · intro i hi
    by_cases hij : i = j
    · subst hij
      exact .inl (Function.update_self ..)
    · obtain hfile | hentry := h.kept i hi
      · left
        show Function.update s.files (mods j).file _ (mods i).file = _
        rw [Function.update_of_ne fun heq => hij (hinj heq)]
        exact hfile
      · exact .inr hentry

omit [DecidableEq ι] in
theorem AllKept.steal (h : AllKept mods tr s) {filename : String}
    (hsaver : s.saver = .written filename) :
    AllKept mods tr { s with
      toSave := stealEntry filename s.toSave
      saver := .saving
      todo := s.todo.filter (· ≠ filename) } where
  own e he := h.own e (mem_stealEntry.1 he).1
  written i hi := by cases hi
  kept i hi := by
    by_cases heq : (mods i).file = filename
    · exact .inl (h.written i (heq ▸ hsaver))
    · obtain hfile | hentry := h.kept i hi
      · exact .inl hfile
      · exact .inr (mem_stealEntry.2 ⟨hentry, heq⟩)

omit [DecidableEq ι] in
/-- The thread goes somewhere else. -/
theorem AllKept.goes (h : AllKept mods tr s) {s' : Saving ι D} (hmem : s'.memory = s.memory)
    (hsave : s'.toSave = s.toSave) (hfiles : s'.files = s.files)
    (hsaver : s'.saver = s.saver ∨ ∀ f, s'.saver ≠ .written f) : AllKept mods tr s' where
  own := hsave ▸ h.own
  written i hi := by
    obtain heq | hne := hsaver
    · rw [hfiles, hmem]
      exact h.written i (heq ▸ hi)
    · exact absurd hi (hne _)
  kept i hi := by
    rw [Remembered, hmem, hsave, hfiles]
    exact h.kept i hi

theorem AllKept.step (h : AllKept mods tr s) (hinj : Function.Injective fun i => (mods i).file)
    (hapart : Apart mods s i) (hstep : savingStep mods s i = .ok (s', out)) :
    AllKept mods (tr ++ out) s' := by
  cases savingStep_cases hstep with
  | defer => rwa [List.append_nil]
  | decide _ hact =>
    refine h.decide hinj (fun hsaver => ?_) _
    have hdefer := hapart hsaver
    rw [hact] at hdefer
    cases hdefer
  | write _ hentry =>
    rw [List.append_nil]
    exact h.write hinj hentry
  | steal hsaver =>
    rw [List.append_nil]
    exact h.steal hsaver
  | join | stop | fail =>
    rw [List.append_nil]
    exact h.goes rfl rfl rfl (.inl rfl)
  | loop | leave | wake | finish =>
    rw [List.append_nil]
    exact h.goes rfl rfl rfl (.inr fun f hno => by cases hno)

/-- A module that decides after its file was written and before its entry is removed is forgotten,
unless its records are those that were written. -/
theorem forgotten_of_written {s'' : Saving ι D} {j : ι} {a : α} {r : ModResult} {d : D}
    (hsaver : s.saver = .written (mods j).file)
    (hact : (mods j).act a (s.memory j) = .ok (r, d)) (hnew : s.files (mods j).file ≠ some d)
    (hpacket : savingStep mods s (.packet j a) = .ok (s', [j]))
    (hsteal : savingStep mods s' .steal = .ok (s'', [])) : ¬Remembered mods s'' j := by
  cases savingStep_cases hpacket with
  | decide _ hact' =>
    cases hact.symm.trans hact'
    cases savingStep_cases hsteal with
    | steal hsaver' =>
      cases hsaver.symm.trans hsaver'
      rintro (hfile | hentry)
      · refine hnew ?_
        rw [← Function.update_self j d s.memory]
        exact hfile
      · exact (mem_stealEntry.1 hentry).2 rfl

end

/-- At the start nothing is to be written. -/
def Saving.start (memory : ι → D) (files : String → Option D) : Saving ι D where
  memory := memory
  files := files

omit [DecidableEq ι] in
theorem AllKept.start {mods : ι → BackupModule α D} {memory : ι → D} {files : String → Option D} :
    AllKept mods [] (.start memory files) where
  own e he := by cases he
  written i hi := by cases hi
  kept i hi := by cases hi

theorem allKept_of_run {mods : ι → BackupModule α D} {memory : ι → D} {files : String → Option D}
    {ok : Saving ι D → SavingInput ι α → Prop} {tr : List ι} {s : Saving ι D}
    (hinj : Function.Injective fun i => (mods i).file) (hok : ∀ s i, ok s i → Apart mods s i)
    (hrun : Machine.Run (savingStep mods) ok (.start memory files) tr s) : AllKept mods tr s :=
  hrun.traceInvariant (AllKept mods) .start fun _ _ _ _ _ h hi hstep =>
    h.step hinj (hok _ _ hi) hstep

/-- **Nothing is forgotten.** Every module decides on some packet, whatever its records are. In
every run, from any records and files, in which no module decides between the writing of its file
and the removal of its entry, the records of the modules that have decided are in their files or
still to be written, exactly if no two modules have the same path. -/
theorem kept_iff_injective [Inhabited D] (mods : ι → BackupModule α D)
    (hact : ∀ i, ∃ a, ∀ d, ∃ r d', (mods i).act a d = .ok (r, d')) :
    (∀ memory files tr s,
      Machine.Run (savingStep mods) (Apart mods) (.start memory files) tr s →
        ∀ i ∈ tr, Remembered mods s i) ↔ Function.Injective fun i => (mods i).file := by
  constructor
  · intro hkept i j hfile
    by_contra hij
    obtain ⟨a, ha⟩ := hact i
    obtain ⟨b, hb⟩ := hact j
    have hapart (s : Saving ι D) (k : ι) (c : α) (hsaver : s.saver = .testing) :
        Apart mods s (.packet k c) := by
      intro hno
      cases hsaver.symm.trans hno
    let s₀ : Saving ι D := .start (fun _ => default) fun _ => none
    obtain ⟨r, d, hd⟩ := ha (s₀.memory i)
    let s₁ : Saving ι D := s₀.decided (mods i).file i d
    obtain ⟨r', d', hd'⟩ := hb (s₁.memory j)
    let s₂ : Saving ι D := s₁.decided (mods j).file j d'
    have h₁ : savingStep mods s₀ (.packet i a) = .ok (s₁, [i]) := savingStep_decide rfl hd rfl
    have h₂ : savingStep mods s₁ (.packet j b) = .ok (s₂, [j]) := savingStep_decide rfl hd' rfl
    have hrun : Machine.Run (savingStep mods) (Apart mods) s₀ [i, j] s₂ :=
      (Machine.Run.start.snoc (hapart s₀ i a rfl) h₁).snoc (hapart s₁ j b rfl) h₂
    obtain hwritten | hentry := hkept _ _ _ s₂ hrun i (.head _)
    · cases hwritten
    · -- the entry has been replaced by that of the other module
      obtain heq | ⟨-, hne⟩ := mem_saveBackup.1 hentry
      · exact hij (congrArg Prod.snd heq)
      · exact hne hfile
  · intro hinj memory files tr s hrun
    exact (allKept_of_run hinj (fun _ _ h => h) hrun).kept

namespace Sample

/-- A module `source` and a module `source_time`, with a path for each. -/
def backed : Bool → BackupModule Arrival SourceDb
  | false => sourceBacked (sourceTable "20s" "50s") "/etc/honeybrid/source.tb"
  | true => sourceTimeBacked (sourceTable "20s" "50s") "/etc/honeybrid/source_time.tb"

theorem backed_injective : Function.Injective fun i => (backed i).file := by
  decide

end Sample

/-- The first module decides again while the thread has written its file, and before the entry of
the other one is written. -/
theorem kept_two : ∃ tr s,
    Machine.Run (savingStep Sample.backed) (Apart Sample.backed)
      (.start (fun _ _ => none) fun _ => none) tr s ∧
      tr = [false, true, false] ∧ ∀ i ∈ tr, Remembered Sample.backed s i := by
  obtain ⟨tr, s, hrun, htr⟩ := Machine.exists_run (savingStep Sample.backed)
    (.start (fun _ _ => none) fun _ => none)
    [.test, .packet false ⟨100, 1, fun _ => []⟩, .packet true ⟨101, 1, fun _ => []⟩, .wake,
      .write "/etc/honeybrid/source_time.tb" true, .packet false ⟨101, 2, fun _ => []⟩, .steal,
      .write "/etc/honeybrid/source.tb" false]
    (fun r => decide (r.2 = [false, true, false]))
    (fun s i (h : decide (Apart Sample.backed s i) = true) => of_decide_eq_true h) (by decide)
  have hact (i : Bool) : ∃ a, ∀ d, ∃ r d', (Sample.backed i).act a d = .ok (r, d') := by
    rcases i with _ | _
    · exact ⟨⟨100, 1, fun _ => []⟩, fun d => ⟨_, _, rfl⟩⟩
    · exact ⟨⟨100, 1, fun _ => []⟩, fun d => ⟨_, _, rfl⟩⟩
  exact ⟨tr, s, hrun, of_decide_eq_true htr,
    (kept_iff_injective Sample.backed hact).2 Sample.backed_injective _ _ _ _ hrun⟩

/-! ### Shutdown -/

/-- The thread will come to every entry of the table. -/
def Saving.Pending (s : Saving ι D) : Prop :=
  s.saver = .waiting ∨ ∀ e ∈ s.toSave, e.1 ∈ s.todo

instance (s : Saving ι D) : Decidable s.Pending :=
  inferInstanceAs (Decidable (_ ∨ _))

/-- The thread is told to stop when it will come to every entry; from then on, the files of the
entries can be opened. -/
def Orderly (s : Saving ι D) : SavingInput ι α → Prop
  | .stop => s.Pending
  | .write _ writable => s.threading = false → writable = true
  | _ => True

instance (s : Saving ι D) (i : SavingInput ι α) : Decidable (Orderly s i) :=
  match i with
  | .stop => inferInstanceAs (Decidable s.Pending)
  | .write .. => inferInstanceAs (Decidable (_ → _))
  | .packet .. | .join | .test | .wake | .steal | .finish => .isTrue trivial

/-- What holds in an orderly run: once it was told to stop, the thread comes to every entry. -/
structure Stopping (s : Saving ι D) : Prop where
  joined : s.threading = false → s.deciding = false
  pending : s.threading = false → s.Pending
  idle : s.saver.walking = false → s.todo = []
  running : s.threading = true → s.saver ≠ .done

omit [DecidableEq ι] in
theorem Stopping.start {memory : ι → D} {files : String → Option D} :
    Stopping (.start memory files) where
  joined hno := by cases hno
  pending hno := by cases hno
  idle _ := rfl
  running _ hno := by cases hno

omit [DecidableEq ι] in
/-- Without the entry and the path of a file, the others are still to come. -/
theorem Saving.Pending.drop {s : Saving ι D} (h : s.Pending) {filename : String}
    (hsaver : s.saver ≠ .waiting) :
    ∀ e ∈ stealEntry filename s.toSave, e.1 ∈ s.todo.filter (· ≠ filename) := by
  intro e he
  obtain ⟨he, hne⟩ := mem_stealEntry.1 he
  rw [List.mem_filter, decide_eq_true_iff]
  exact ⟨h.resolve_left hsaver e he, hne⟩

theorem Stopping.step {mods : ι → BackupModule α D} {s s' : Saving ι D} {i : SavingInput ι α}
    {out : List ι} (h : Stopping s) (hok : Orderly s i)
    (hstep : savingStep mods s i = .ok (s', out)) : Stopping s' := by
  have hentries : s.threading = false → s.saver ≠ .waiting → ∀ e ∈ s.toSave, e.1 ∈ s.todo :=
    fun hthreading hsaver => (h.pending hthreading).resolve_left hsaver
  cases savingStep_cases hstep with
  | defer => exact h
  | decide hlive =>
    have hthreading : s.threading = true := by
      by_contra hno
      rw [h.joined (Bool.eq_false_of_not_eq_true hno)] at hlive
      cases hlive
    refine ⟨h.joined, fun hno => ?_, h.idle, h.running⟩
    rw [show s.threading = false from hno] at hthreading
    cases hthreading
  | join => exact ⟨fun _ => rfl, h.pending, h.idle, h.running⟩
  | stop hlive => exact ⟨fun _ => hlive, fun _ => hok, h.idle, fun hno => by cases hno⟩
  | loop hsaver =>
    refine ⟨h.joined, fun _ => .inl rfl, fun _ => h.idle ?_, fun _ hno => by cases hno⟩
    rw [hsaver]
    rfl
  | leave hsaver hthreading =>
    refine ⟨h.joined, fun _ => .inr ?_, fun _ => h.idle ?_, fun hno => ?_⟩
    · refine hentries hthreading fun hno => ?_
      cases hsaver.symm.trans hno
    · rw [hsaver]
      rfl
    · rw [show s.threading = true from hno] at hthreading
      cases hthreading
  | wake =>
    exact ⟨h.joined, fun _ => .inr fun e he => List.mem_map_of_mem he, nofun, nofun⟩
  | write hsaver =>
    refine ⟨h.joined, fun hthreading => .inr ?_, nofun, nofun⟩
    refine hentries hthreading fun hno => ?_
    cases hsaver.symm.trans hno
  | fail hsaver =>
    refine ⟨h.joined, fun hthreading => ?_, fun hno => ?_, h.running⟩
    · cases hok hthreading
    · rw [show s.saver = .saving from hsaver] at hno
      cases hno
  | steal hsaver =>
    refine ⟨h.joined, fun hthreading => .inr ?_, nofun, nofun⟩
    refine (h.pending hthreading).drop fun hno => ?_
    cases hsaver.symm.trans hno
  | finish hsaver htodo =>
    refine ⟨h.joined, fun hthreading => .inr ?_, fun _ => htodo, fun _ hno => by cases hno⟩
    refine hentries hthreading fun hno => ?_
    cases hsaver.symm.trans hno

/-- **Shutdown.** No two modules have the same path. When the thread that saves has ended, after an
orderly run in which no module decides between the writing of its file and the removal of its entry,
the file of every module that has decided holds its records. -/
theorem saved_at_exit {mods : ι → BackupModule α D}
    (hinj : Function.Injective fun i => (mods i).file) {memory : ι → D}
    {files : String → Option D} {tr : List ι} {s : Saving ι D}
    (hrun : Machine.Run (savingStep mods) (fun s i => Apart mods s i ∧ Orderly s i)
      (.start memory files) tr s)
    (hdone : s.saver = .done) : ∀ i ∈ tr, s.files (mods i).file = some (s.memory i) := by
  intro i hi
  have hstopping : Stopping s :=
    hrun.invariant Stopping .start fun _ _ _ _ h hok hstep => h.step hok.2 hstep
  have hentries : ∀ e ∈ s.toSave, e.1 ∈ s.todo := by
    cases hthreading : s.threading with
    | true => exact absurd hdone (hstopping.running hthreading)
    | false =>
      refine (hstopping.pending hthreading).resolve_left fun hno => ?_
      cases hdone.symm.trans hno
  refine ((allKept_of_run hinj (fun _ _ h => h.1) hrun).kept i hi).resolve_right fun hentry => ?_
  have hmem := hentries _ hentry
  have hidle : s.todo = [] := hstopping.idle (by rw [hdone]; rfl)
  rw [hidle] at hmem
  cases hmem

/-- The program is shut down after each module has decided. One of them is written before, and the
other decides while its entry is about to be removed. -/
theorem saved_at_exit_two : ∃ tr s,
    Machine.Run (savingStep Sample.backed)
      (fun s i => Apart Sample.backed s i ∧ Orderly s i)
      (.start (fun _ _ => none) fun _ => none) tr s ∧
      tr = [false, true, true] ∧ ∀ i ∈ tr, s.files (Sample.backed i).file = some (s.memory i) := by
  obtain ⟨tr, s, hrun, hdone⟩ := Machine.exists_run (savingStep Sample.backed)
    (.start (fun _ _ => none) fun _ => none)
    [.test, .packet false ⟨100, 1, fun _ => []⟩, .packet true ⟨101, 1, fun _ => []⟩, .wake,
      .write "/etc/honeybrid/source.tb" true, .packet true ⟨102, 1, fun _ => []⟩, .steal, .join,
      .stop, .write "/etc/honeybrid/source_time.tb" true, .steal, .finish, .test]
    (fun r => decide (r.2 = [false, true, true]) && decide (r.1.saver = .done))
    (fun s i (h : decide (Apart Sample.backed s i ∧ Orderly s i) = true) => of_decide_eq_true h)
    (by decide)
  obtain ⟨htr, hdone⟩ := Bool.and_eq_true_iff.1 hdone
  exact ⟨tr, s, hrun, of_decide_eq_true htr,
    saved_at_exit Sample.backed_injective hrun (of_decide_eq_true hdone)⟩

end Honeybrid
