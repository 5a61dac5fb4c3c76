import Honeybrid.Engine

/-!
# Building rules

The functions of `decision_engine.c` that turn the equation of a rule into a tree of nodes, on a
heap of `struct node`. The two operators are taken as split: an equation is its groups between the
ORs, and a group is its module names between the ANDs.

`DE_create_tree` leads the false branches of every group to the head of the next one, and moves its
own root variable along. It returns the head of the last group, so that `decide` never comes to the
groups before.

## Main definitions

* `Group`, `Equation`: an equation as `g_regex_split` cuts it.
* `getModule`, `lookupModule`: the module of a name.
* `deBuildSubtree`, `deCreateTree`: the nodes of a group and of an equation.
* `Heap.Reads`: the rule that a pointer stands for.
* `evalChain`, `evalGroups`: the meaning of an equation under an assignment of results.

## Main results

* `resolvesExactly_iff`: the names that are given the function of their own entry.
* `deCreateTree_reads`: the tree that is returned is the chain of the last group.
* `decide_chain`: `decide` on the chain of a group.
* `equation_iff`: the equations that are evaluated from left to right.
-/

namespace Honeybrid

/-! ### Equations -/

/-- A part of an equation between two ORs: the names between its ANDs. -/
structure Group where
  first : String
  rest : List String := []
  deriving DecidableEq, Repr

/-- An equation: the groups between its ORs. -/
structure Equation where
  first : Group
  rest : List Group := []
  deriving DecidableEq, Repr

/-- What stops the program while a rule is built. -/
inductive RuleError
  /-- `Module '%s' unknown!` -/
  | moduleUnknown (modname : String)
  /-- `Module function undefined!` -/
  | functionUndefined
  /-- `Module function pointer undefined!` -/
  | functionPointerUndefined
  /-- `No module could be found with the name: %s` -/
  | noModule (modname : String)
  deriving DecidableEq, Repr

/-! ### Modules by name -/

/-- `module_definitions`, as far as the optional libraries are present. -/
def moduleDefinitions : List (String × Option ModuleFn) :=
  [("invalid", none), ("source", some .source), ("source_time", some .sourceTime),
    ("random", some .random), ("yesno", some .yesno), ("counter", some .counter),
    ("vmi", some .vmi), ("control", some .control), ("backpick_random", some .backpickRandom),
    ("dns_control", some .dnsControl), ("hash", some .hash)]

/-- `get_module`: the first definition whose name the given one starts with. -/
def getModule (modname : String) : Except RuleError (Option ModuleFn) :=
  match moduleDefinitions.find? fun e => e.1.toList.isPrefixOf modname.toList with
  | some e => .ok e.2
  | none => .error (.noModule modname)

/-- A name resolves exactly: the function it is given is the one of the entry that has this name,
and it fails where no entry with a function has it. -/
def ResolvesExactly (modname : String) : Prop :=
  ∀ f, getModule modname = .ok (some f) ↔ (modname, some f) ∈ moduleDefinitions

section Names

variable {modname name : String} {f : ModuleFn} {fn : Option ModuleFn}

theorem getModule_eq_ok_iff : getModule modname = .ok fn ↔
    ∃ e, moduleDefinitions.find? (fun e => e.1.toList.isPrefixOf modname.toList) = some e ∧
      e.2 = fn := by
  rw [getModule]
  split
  · rename_i e he
    simp [he]
  · rename_i he
    simp [he]

/-- What is resolved is an entry whose name the given one starts with. -/
theorem getModule_entry (h : getModule modname = .ok fn) :
    ∃ name, (name, fn) ∈ moduleDefinitions ∧ name.toList <+: modname.toList := by
  obtain ⟨e, he, rfl⟩ := getModule_eq_ok_iff.mp h
  have hpre := List.find?_some he
  exact ⟨e.1, List.mem_of_find?_eq_some he, List.isPrefixOf_iff_prefix.mp hpre⟩

/-- A name that starts with the one of an entry with a function is given a function. -/
theorem getModule_of_entry (hmem : (name, some f) ∈ moduleDefinitions)
    (hpre : name.toList <+: modname.toList) : ∃ f', getModule modname = .ok (some f') := by
  -- the entry without a function is not in the way
  have hinvalid : ∀ e ∈ moduleDefinitions, ∀ e' ∈ moduleDefinitions, e.2 ≠ none → e'.2 = none →
      ¬e.1.toList <+: e'.1.toList ∧ ¬e'.1.toList <+: e.1.toList := by
    decide +kernel
  obtain ⟨e, he⟩ : ∃ e, moduleDefinitions.find?
      (fun e => e.1.toList.isPrefixOf modname.toList) = some e :=
    Option.isSome_iff_exists.mp (List.find?_isSome.mpr
      ⟨_, hmem, List.isPrefixOf_iff_prefix.mpr hpre⟩)
  have hget := getModule_eq_ok_iff.mpr ⟨e, he, rfl⟩
  match hfn : e.2 with
  | some f' => exact ⟨f', hfn ▸ hget⟩
  | none =>
    obtain ⟨hle, hge⟩ := hinvalid _ hmem e (List.mem_of_find?_eq_some he) nofun hfn
    have hpre' := List.find?_some he
    rcases List.prefix_or_prefix_of_prefix hpre (List.isPrefixOf_iff_prefix.mp hpre') with h | h
    · exact absurd h hle
    · exact absurd h hge

/-- **Names of modules.** A name resolves exactly if and only if no entry with a function has a name
that is a proper prefix of it: the entries are compared up to the length of their own names. -/
theorem resolvesExactly_iff (modname : String) : ResolvesExactly modname ↔
    ∀ name f, (name, some f) ∈ moduleDefinitions → name.toList <+: modname.toList →
      name = modname := by
  -- the names of the table that are given their own function start with no other one
  have htable : ∀ e ∈ moduleDefinitions, e.2 ≠ none → getModule e.1 = .ok e.2 →
      ∀ e' ∈ moduleDefinitions, e'.2 ≠ none → e'.1.toList <+: e.1.toList → e'.1 = e.1 := by
    decide +kernel
  have hunique : ∀ e ∈ moduleDefinitions, ∀ e' ∈ moduleDefinitions, e.1 = e'.1 → e.2 = e'.2 := by
    decide +kernel
  constructor
  · intro hexact name f hmem hpre
    obtain ⟨f', hget⟩ := getModule_of_entry hmem hpre
    exact htable _ ((hexact f').mp hget) nofun hget _ hmem nofun hpre
  · intro hproper f
    constructor
    · intro hget
      obtain ⟨name, hmem, hpre⟩ := getModule_entry hget
      exact hproper name f hmem hpre ▸ hmem
    · intro hmem
      obtain ⟨f', hget⟩ := getModule_of_entry hmem List.prefix_rfl
      obtain ⟨name, hmem', hpre⟩ := getModule_entry hget
      have heq : some f' = some f := hunique _ hmem' _ hmem (hproper name f' hmem' hpre)
      rw [hget, heq]

/-- The configuration names `source_time`, and gets the function of `source`. -/
theorem resolvesExactly_broken : getModule "source_time" = .ok (some .source) ∧
    ("source_time", some .sourceTime) ∈ moduleDefinitions ∧ ¬∀ s, ResolvesExactly s := by
  have hget : getModule "source_time" = .ok (some .source) := by
    decide +kernel
  have hmem : ("source_time", some .source) ∉ moduleDefinitions := by
    decide +kernel
  exact ⟨hget, by decide +kernel, fun h => hmem ((h "source_time" .source).mp hget)⟩

end Names

/-- The configuration of a module: its entry `function`, and the server of `dns_control`. -/
structure ModuleConfig where
  function : Option String
  dnsServer : Option DnsServer := none
  deriving DecidableEq, Repr

/-- The table `module`. -/
abbrev ModuleTable := String → Option ModuleConfig

/-- The module that a node is given for a name. -/
def lookupModule (table : ModuleTable) (modname : String) : Except RuleError ModuleDef :=
  match table modname with
  | none => .error (.moduleUnknown modname)
  | some config =>
    match config.function with
    | none => .error .functionUndefined
    | some function =>
      match getModule function with
      | .error e => .error e
      | .ok none => .error .functionPointerUndefined
      | .ok (some f) => .ok { name := modname, function := f, dnsServer := config.dnsServer }

/-! ### Nodes -/

/-- A `struct node *` that is not null: the place of the node in the heap. -/
abbrev NodePtr := ℕ

/-- `struct node`. -/
structure Node where
  module : ModuleDef
  trueBranch : Option NodePtr := none
  falseBranch : Option NodePtr := none
  deriving DecidableEq, Repr

/-- The nodes allocated so far. -/
abbrev Heap := List Node

/-- `DE_build_subtree`: the head of the chain of a group. Only the second name is passed on to the
recursive call. -/
def deBuildSubtree (table : ModuleTable) : Group → Heap → Except RuleError (NodePtr × Heap)
  | ⟨modname, []⟩, h => do
    let m ← lookupModule table modname
    return (h.length, h ++ [{ module := m }])
  | ⟨modname, next :: _⟩, h => do
    let (trueBranch, h) ← deBuildSubtree table ⟨next, []⟩ h
    let m ← lookupModule table modname
    return (h.length, h ++ [{ module := m, trueBranch := some trueBranch }])
termination_by g => g.rest.length

/-- The inner loop of `DE_create_tree`: the false branches along a chain are led to the head of the
next one. -/
def stitch (head : NodePtr) : ℕ → NodePtr → Heap → Heap
  | 0, _, h => h
  | n + 1, node, h =>
    match h[node]? with
    | none => h
    | some nd =>
      let h := h.set node { nd with falseBranch := some head }
      match nd.trueBranch with
      | none => h
      | some node => stitch head n node h

/-- The outer loop of `DE_create_tree`, with its variable `node`. -/
def deCreateTreeLoop (table : ModuleTable) :
    NodePtr → List Group → Heap → Except RuleError (NodePtr × Heap)
  | node, [], h => .ok (node, h)
  | node, g :: gs, h => do
    let (headsubgroup, h) ← deBuildSubtree table g h
    deCreateTreeLoop table headsubgroup gs (stitch headsubgroup h.length node h)

/-- `DE_create_tree`. -/
def deCreateTree (table : ModuleTable) (equation : Option Equation) (h : Heap) :
    Except RuleError (Option NodePtr × Heap) :=
  match equation with
  | none => .ok (none, h)
  | some e => do
    let (node, h) ← deBuildSubtree table e.first h
    let (node, h) ← deCreateTreeLoop table node e.rest h
    return (some node, h)

/-- The rule that a pointer into the heap stands for. -/
inductive Heap.Reads (h : Heap) : Option NodePtr → Rule → Prop
  | null : Heap.Reads h none .null
  | node {p : NodePtr} {nd : Node} {t f : Rule} (hp : h[p]? = some nd)
      (ht : Heap.Reads h nd.trueBranch t) (hf : Heap.Reads h nd.falseBranch f) :
      Heap.Reads h (some p) (.node nd.module t f)

/-! ### The meaning of an equation -/

/-- The modules of the chain that `DE_build_subtree` builds for a group. -/
def Group.modules (table : ModuleTable) (g : Group) : List ModuleDef :=
  ((g.first :: g.rest).take 2).filterMap fun modname => (lookupModule table modname).toOption

/-- The groups of an equation by their modules. -/
def Equation.groups (table : ModuleTable) (e : Equation) : List (List ModuleDef) :=
  (e.first :: e.rest).map (Group.modules table)

/-- An AND chain under an assignment of results: its result, and the modules that are asked. -/
def evalChain (res : ModuleDef → ModResult) : List ModuleDef → Decision × List ModuleDef
  | [] => (.accept, [])
  | m :: ms =>
    match res m with
    | .accept => ((evalChain res ms).1, m :: (evalChain res ms).2)
    | .defer => (.defer, [m])
    | .reject => (.reject, [m])

/-- The groups from left to right: a group that is rejected leads to the next one. -/
def evalGroups (res : ModuleDef → ModResult) : List (List ModuleDef) → Decision × List ModuleDef
  | [] => (.reject, [])
  | ms :: gs =>
    if (evalChain res ms).1 = .reject then
      ((evalGroups res gs).1, (evalChain res ms).2 ++ (evalGroups res gs).2)
    else evalChain res ms

/-- The rule of a chain. -/
def Rule.chain : List ModuleDef → Rule
  | [] => .null
  | m :: ms => .node m (Rule.chain ms) .null

variable {table : ModuleTable} {g : Group} {h h' : Heap} {p : NodePtr} {m : ModuleDef}
  {ms : List ModuleDef} {res : ModuleDef → ModResult}

/-! ### The nodes of an equation -/

/-- What a group adds to the heap: nodes behind the others, the head of its chain among them. -/
structure Built (table : ModuleTable) (g : Group) (h : Heap) (p : NodePtr) (h' : Heap) : Prop where
  frame : ∀ q < h.length, h'[q]? = h[q]?
  lower : h.length ≤ p
  upper : p < h'.length
  down : ∀ q nd r, h.length ≤ q → h'[q]? = some nd → nd.trueBranch = some r → r < q
  nonempty : g.modules table ≠ []
  reads : ∀ k : Heap, (∀ q, h.length ≤ q → q < h'.length → k[q]? = h'[q]?) →
    k.Reads (some p) (Rule.chain (g.modules table))

theorem built_single {name : String} (hb : deBuildSubtree table ⟨name, []⟩ h = .ok (p, h')) :
    Built table ⟨name, []⟩ h p h' := by
  rw [deBuildSubtree] at hb
  obtain ⟨m, hm, hb⟩ := Except.bind_eq_ok.mp hb
  cases hb
  have hmodules : Group.modules table ⟨name, []⟩ = [m] := by
    simp [Group.modules, hm, Except.toOption]
  refine ⟨fun q hq => List.getElem?_append_left hq, Nat.le_refl _, by simp, ?_,
    by simp [hmodules], ?_⟩
  · intro q nd r hq hnd hr
    rw [List.getElem?_append_right hq, List.getElem?_singleton] at hnd
    split_ifs at hnd
    cases hnd
    cases hr
  · intro k hk
    rw [hmodules]
    refine @Heap.Reads.node k _ { module := m } _ _ ?_ .null .null
    rw [hk _ (Nat.le_refl _) (by simp), List.getElem?_concat_length]

theorem deBuildSubtree_built (hb : deBuildSubtree table g h = .ok (p, h')) :
    Built table g h p h' := by
  obtain ⟨name, _ | ⟨next, rest⟩⟩ := g
  · exact built_single hb
  · rw [deBuildSubtree] at hb
    obtain ⟨⟨q, h₁⟩, hq, hb⟩ := Except.bind_eq_ok.mp hb
    obtain ⟨m, hm, hb⟩ := Except.bind_eq_ok.mp hb
    cases hb
    have hnext := built_single hq
    have hlen : h.length ≤ h₁.length := Nat.le_trans hnext.lower (Nat.le_of_lt hnext.upper)
    have hmodules : Group.modules table ⟨name, next :: rest⟩ =
        m :: Group.modules table ⟨next, []⟩ := by
      simp [Group.modules, hm, Except.toOption]
    refine ⟨fun r hr => ?_, hlen, by simp, ?_, by simp [hmodules], ?_⟩
    · rw [List.getElem?_append_left (Nat.lt_of_lt_of_le hr hlen)]
      exact hnext.frame r hr
    · intro r nd r' hr hnd hr'
      by_cases hlt : r < h₁.length
      · rw [List.getElem?_append_left hlt] at hnd
        exact hnext.down r nd r' hr hnd hr'
      · rw [List.getElem?_append_right (Nat.le_of_not_lt hlt), List.getElem?_singleton] at hnd
        split_ifs at hnd
        cases hnd
        cases hr'
        exact Nat.lt_of_lt_of_le hnext.upper (Nat.le_of_not_lt hlt)
    · intro k hk
      rw [hmodules]
      refine @Heap.Reads.node k _ { module := m, trueBranch := some q } _ _ ?_
        (hnext.reads k fun r hr hlt => ?_) .null
      · rw [hk _ hlen (by simp), List.getElem?_concat_length]
      · rw [hk r hr (by simp; omega), List.getElem?_append_left hlt]

/-- The true branches lead down in the heap. -/
def Heap.Down (h : Heap) : Prop :=
  ∀ (q : NodePtr) (nd : Node) (r : NodePtr), h[q]? = some nd → nd.trueBranch = some r → r < q

theorem Built.down_heap (hb : Built table g h p h') (hd : h.Down) : h'.Down := by
  intro q nd r hq hr
  by_cases hlt : q < h.length
  · exact hd q nd r (hb.frame q hlt ▸ hq) hr
  · exact hb.down q nd r (Nat.le_of_not_lt hlt) hq hr

/-- Leading false branches elsewhere leaves the true branches as they are. -/
theorem down_set {nd : Node} {f : Option NodePtr} (hd : h.Down) (hp : h[p]? = some nd) :
    Heap.Down (h.set p { nd with falseBranch := f }) := by
  intro q nd' r hq hr
  rw [List.getElem?_set] at hq
  split_ifs at hq with hpq hlt
  · cases hq
    exact hpq ▸ hd p nd r hp hr
  · exact hd q nd' r hq hr

/-- The loop over a chain writes only at and below its head, and no true branch. -/
theorem stitch_spec (head : NodePtr) (n : ℕ) (p : NodePtr) (hd : h.Down) :
    (stitch head n p h).Down ∧ ∀ q, p < q → (stitch head n p h)[q]? = h[q]? := by
  induction n generalizing p h with
  | zero => exact ⟨hd, fun q _ => rfl⟩
  | succ n ih =>
    rw [stitch]
    split
    · exact ⟨hd, fun q _ => rfl⟩
    · rename_i nd hnd
      have hset := down_set (f := some head) hd hnd
      have hne (q : ℕ) (hq : p < q) :
          (h.set p { nd with falseBranch := some head })[q]? = h[q]? := by
        rw [List.getElem?_set_ne (Nat.ne_of_lt hq)]
      split
      · exact ⟨hset, hne⟩
      · rename_i next hnext
        have hlt := hd p nd next hnd hnext
        obtain ⟨hdown, hframe⟩ := ih next hset
        exact ⟨hdown, fun q hq => (hframe q (Nat.lt_trans hlt hq)).trans (hne q hq)⟩

theorem Heap.Reads.lt {r : Rule} (hr : h.Reads (some p) r) : p < h.length := by
  cases hr with
  | node hp _ _ => exact (List.getElem?_eq_some_iff.mp hp).1

/-- The loop over the groups ends at the chain of the last one. -/
theorem deCreateTreeLoop_reads {gs : List Group} {q : NodePtr}
    (hl : deCreateTreeLoop table p gs h = .ok (q, h')) (hd : h.Down)
    (hr : h.Reads (some p) (Rule.chain (g.modules table))) :
    h'.Reads (some q) (Rule.chain ((gs.getLastD g).modules table)) := by
  induction gs generalizing g p h with
  | nil =>
    cases hl
    exact hr
  | cons g' gs ih =>
    obtain ⟨⟨head, h₁⟩, hbuild, hl⟩ := Except.bind_eq_ok.mp hl
    have hb := deBuildSubtree_built hbuild
    -- the false branches are written in the nodes that were there before
    obtain ⟨hdown, hframe⟩ := stitch_spec head h₁.length p (hb.down_heap hd)
    rw [List.getLastD_cons]
    exact ih hl hdown (hb.reads _ fun r hle _ => hframe r (Nat.lt_of_lt_of_le hr.lt hle))

/-- **The root of an equation.** The tree that `DE_create_tree` returns is the chain of the last
group. -/
theorem deCreateTree_reads {e : Equation} {root : Option NodePtr}
    (ht : deCreateTree table (some e) [] = .ok (root, h)) :
    h.Reads root (Rule.chain ((e.rest.getLastD e.first).modules table)) := by
  obtain ⟨⟨node, h₁⟩, hbuild, ht⟩ := Except.bind_eq_ok.mp ht
  obtain ⟨⟨node', h₂⟩, hloop, ht⟩ := Except.bind_eq_ok.mp ht
  cases ht
  have hb := deBuildSubtree_built hbuild
  refine deCreateTreeLoop_reads hloop (hb.down_heap ?_) (hb.reads _ fun r _ _ => rfl)
  intro q nd r hq
  cases hq

/-! ### Evaluating a chain -/

section Evaluation

variable {μ : Type} {mods : Modules μ} {i : ConnId} {pkt : Pkt} {P : Work μ → Prop} {w : Work μ}
  {d : DecisionHolder} {u : HandlerId}

/-- The modules that `decide` runs, in their order. -/
def modulesRun (mods : Modules μ) (i : ConnId) (pkt : Pkt) (test : HandlerId) :
    Rule → HandlerId → Work μ → List ModuleDef
  | .null, _, _ => []
  | .node m trueBranch falseBranch, use, w =>
    match runModule mods i pkt m test use w with
    | .error _ => [m]
    | .ok (o, w) =>
      match o.result with
      | .accept => m :: modulesRun mods i pkt test trueBranch o.backendUse w
      | .defer => [m]
      | .reject => m :: modulesRun mods i pkt test falseBranch o.backendUse w

/-- Where `P` holds, the module returns the result it is assigned, and `P` holds afterwards. -/
def Returns (mods : Modules μ) (i : ConnId) (pkt : Pkt) (P : Work μ → Prop)
    (res : ModuleDef → ModResult) (m : ModuleDef) : Prop :=
  ∀ test use w, P w → ∃ o w', runModule mods i pkt m test use w = .ok (o, w') ∧
    o.result = res m ∧ P w'

/-- `decide` on the chain of a group. -/
theorem decide_chain (hne : ms ≠ []) (hres : ∀ m ∈ ms, Returns mods i pkt P res m) (hw : P w) :
    ∃ d' w', d.decide mods i pkt (Rule.chain ms) u w = .ok (d', w') ∧
      (d'.result, modulesRun mods i pkt d.backendTest (Rule.chain ms) u w) =
        evalChain res ms := by
  induction ms generalizing d u w with
  | nil => exact absurd rfl hne
  | cons m ms ih =>
    obtain ⟨o, w₁, hrun, hr, hw₁⟩ := hres m (List.mem_cons_self ..) d.backendTest u w hw
    rw [Rule.chain, DecisionHolder.decide, modulesRun, evalChain, hrun]
    simp only [Except.ok_bind]
    cases hm : res m with
    | accept =>
      rw [hm] at hr
      simp only [hr]
      cases ms with
      | nil => simp [Rule.chain, modulesRun, evalChain]
      | cons m' ms =>
        have hchain : Rule.chain (m' :: ms) ≠ .null := Rule.noConfusion
        have htest : (if o.backendUse ≠ 0 then { d with backendUse := o.backendUse } else d :
            DecisionHolder).backendTest = d.backendTest := by
          split_ifs <;> rfl
        obtain ⟨d', w', hrun', heval⟩ := ih (d := if o.backendUse ≠ 0 then
            { d with backendUse := o.backendUse } else d) (u := o.backendUse)
          (List.cons_ne_nil _ _) (fun x hx => hres x (List.mem_cons_of_mem _ hx)) hw₁
        rw [htest] at heval
        refine ⟨d', w', ?_, ?_⟩
        · rw [if_neg hchain]
          exact hrun'
        · rw [← heval]
    | defer =>
      rw [hm] at hr
      simp [hr]
    | reject =>
      rw [hm] at hr
      simp [hr, modulesRun]

/-- What a chain asks decides its result. -/
theorem evalChain_asked (res : ModuleDef → ModResult) (ms : List ModuleDef) :
    evalChain res (evalChain res ms).2 = evalChain res ms := by
  induction ms with
  | nil => rfl
  | cons m ms ih =>
    cases hm : res m with
    | accept => simp [evalChain, hm, ih]
    | defer => simp [evalChain, hm]
    | reject => simp [evalChain, hm]

theorem evalChain_ne_nil (hne : ms ≠ []) : (evalChain res ms).2 ≠ [] := by
  cases ms with
  | nil => exact absurd rfl hne
  | cons m ms =>
    rw [evalChain]
    cases res m <;> simp

/-- No module is asked after one that rejects. -/
theorem evalChain_append_of_reject {l : List ModuleDef} (hr : (evalChain res ms).1 = .reject) :
    evalChain res (ms ++ l) = evalChain res ms := by
  induction ms with
  | nil => cases hr
  | cons m ms ih =>
    rw [List.cons_append, evalChain, evalChain]
    cases hm : res m with
    | accept =>
      rw [evalChain, hm] at hr
      rw [ih hr]
    | defer => rfl
    | reject => rfl

theorem evalGroups_ne_nil {gs : List (List ModuleDef)} (hne : gs ≠ []) (hgs : ∀ ms ∈ gs, ms ≠ []) :
    (evalGroups res gs).2 ≠ [] := by
  cases gs with
  | nil => exact absurd rfl hne
  | cons ms gs =>
    have hms : (evalChain res ms).2 ≠ [] := evalChain_ne_nil (hgs ms (List.mem_cons_self ..))
    rw [evalGroups]
    split_ifs
    · exact List.append_ne_nil_of_left_ne_nil hms _
    · exact hms

/-- The last group alone comes to the result of them all exactly when it is the only one, or when
the first one is not rejected and asks the same modules. -/
theorem evalGroups_eq_iff {gs : List (List ModuleDef)}
    (hgs : ∀ ms ∈ gs, ms ≠ []) :
    evalChain res (gs.getLastD ms) = evalGroups res (ms :: gs) ↔
      gs = [] ∨ (evalChain res ms).1 ≠ .reject ∧
        (evalChain res ms).2 = (evalChain res (gs.getLastD ms)).2 := by
  by_cases hnil : gs = []
  · subst hnil
    simp only [List.getLastD_nil, true_or, iff_true, evalGroups, List.append_nil]
    split_ifs with hr
    · rw [← hr]
    · rfl
  · rw [evalGroups]
    constructor
    · intro heq
      split_ifs at heq with hr
      · -- a module that rejects would be asked before others of one chain
        have hasked := congrArg Prod.snd heq
        have hlast := evalChain_asked res (gs.getLastD ms)
        rw [hasked, evalChain_append_of_reject (by rw [evalChain_asked]; exact hr),
          evalChain_asked] at hlast
        rw [← hlast] at hasked
        exact absurd (List.self_eq_append_right.mp hasked) (evalGroups_ne_nil hnil hgs)
      · exact .inr ⟨hr, congrArg Prod.snd heq.symm⟩
    · rintro (h | ⟨hr, hasked⟩)
      · exact absurd h hnil
      · rw [if_neg hr, ← evalChain_asked res (gs.getLastD ms), ← hasked, evalChain_asked]

theorem deCreateTreeLoop_nonempty {gs : List Group} {q : NodePtr}
    (hl : deCreateTreeLoop table p gs h = .ok (q, h')) : ∀ g ∈ gs, g.modules table ≠ [] := by
  induction gs generalizing p h with
  | nil => exact fun g hg => nomatch hg
  | cons g' gs ih =>
    obtain ⟨⟨head, h₁⟩, hbuild, hl⟩ := Except.bind_eq_ok.mp hl
    exact List.forall_mem_cons.mpr ⟨(deBuildSubtree_built hbuild).nonempty, ih hl⟩

theorem deCreateTree_nonempty {e : Equation} {root : Option NodePtr}
    (ht : deCreateTree table (some e) [] = .ok (root, h)) :
    ∀ ms ∈ e.groups table, ms ≠ [] := by
  obtain ⟨⟨node, h₁⟩, hbuild, ht⟩ := Except.bind_eq_ok.mp ht
  obtain ⟨⟨node', h₂⟩, hloop, -⟩ := Except.bind_eq_ok.mp ht
  refine List.forall_mem_map.mpr (List.forall_mem_cons.mpr ⟨?_, deCreateTreeLoop_nonempty hloop⟩)
  exact (deBuildSubtree_built hbuild).nonempty

/-- **Equations with OR.** Let the modules of an equation return the results they are assigned. On
the tree that `DE_create_tree` returns, `decide` evaluates the groups from left to right exactly
when there is only one group, or when the first group is not rejected and asks the same modules as
the last one. -/
theorem equation_iff {e : Equation} {root : Option NodePtr}
    (ht : deCreateTree table (some e) [] = .ok (root, h))
    (hres : ∀ ms ∈ e.groups table, ∀ m ∈ ms, Returns mods i pkt P res m) (hw : P w) :
    ∃ rule, h.Reads root rule ∧
      ((∃ d' w', d.decide mods i pkt rule 0 w = .ok (d', w') ∧
          (d'.result, modulesRun mods i pkt d.backendTest rule 0 w) =
            evalGroups res (e.groups table)) ↔
        e.rest = [] ∨ (evalChain res (e.first.modules table)).1 ≠ .reject ∧
          (evalChain res (e.first.modules table)).2 =
            (evalChain res ((e.rest.getLastD e.first).modules table)).2) := by
  refine ⟨_, deCreateTree_reads ht, ?_⟩
  have hne := deCreateTree_nonempty ht
  have hmem : (e.rest.getLastD e.first).modules table ∈ e.groups table :=
    List.mem_map_of_mem List.getLastD_mem_cons
  obtain ⟨d', w', hrun, heval⟩ := decide_chain (d := d) (u := 0) (hne _ hmem) (hres _ hmem) hw
  have hone : (∃ d₁ w₁, d.decide mods i pkt (Rule.chain ((e.rest.getLastD e.first).modules table)) 0
        w = .ok (d₁, w₁) ∧ (d₁.result, modulesRun mods i pkt d.backendTest
          (Rule.chain ((e.rest.getLastD e.first).modules table)) 0 w) =
            evalGroups res (e.groups table)) ↔
      evalChain res ((e.rest.getLastD e.first).modules table) =
        evalGroups res (e.groups table) := by
    rw [hrun, ← heval]
    constructor
    · rintro ⟨d₁, w₁, hok, h⟩
      cases hok
      exact h
    · exact fun h => ⟨d', w', rfl, h⟩
  rw [hone, Equation.groups, List.map_cons, ← List.getLastD_map (f := Group.modules table),
    evalGroups_eq_iff, List.map_eq_nil_iff]
  exact fun ms hms => hne ms (List.mem_cons_of_mem _ hms)

end Evaluation

namespace Sample

/-- Two modules. -/
def moduleTable : ModuleTable
  | "a" => some { function := some "yesno" }
  | "b" => some { function := some "yesno" }
  | _ => none

/-- A module by its name. -/
def moduleNamed (name : String) : ModuleDef where
  name := name
  function := .yesno

/-- The module `a` accepts, the other one rejects. -/
def verdicts (m : ModuleDef) : ModResult :=
  if m.name = "a" then .accept else .reject

/-- The modules with these results. -/
def byName : Modules Unit :=
  fun m a mem => (⟨verdicts m, a.backendUse⟩, mem)

/-- A connection on the target. -/
def work : Work Unit :=
  ⟨start, buffered⟩

end Sample

theorem returns_byName {i : ConnId} {pkt : Pkt} (hm : m.function ≠ .dnsControl) :
    Returns Sample.byName i pkt (fun w => w.st.targets[w.conn.target]?.isSome = true)
      Sample.verdicts m := by
  intro test use w hw
  obtain ⟨t, ht⟩ := Option.isSome_iff_exists.mp hw
  refine ⟨⟨Sample.verdicts m, use⟩, w, ?_, rfl, hw⟩
  simp [runModule, hm, State.targetOf, ht, Sample.byName]

/-- The equation `a AND b` has one group: `a` and `b` are asked, and the result is that of `b`. -/
theorem equation_single : ∃ root h rule,
    deCreateTree Sample.moduleTable (some ⟨⟨"a", ["b"]⟩, []⟩) [] = .ok (root, h) ∧
      h.Reads root rule ∧ ∃ d w,
        DecisionHolder.decide Sample.byName 1 Sample.request rule 0 {} Sample.work = .ok (d, w) ∧
          (d.result, modulesRun Sample.byName 1 Sample.request 0 rule 0 Sample.work) =
            (.reject, [Sample.moduleNamed "a", Sample.moduleNamed "b"]) := by
  have ht : deCreateTree Sample.moduleTable (some ⟨⟨"a", ["b"]⟩, []⟩) [] =
      .ok (some 1, [{ module := Sample.moduleNamed "b" },
        { module := Sample.moduleNamed "a", trueBranch := some 0 }]) := by
    decide +kernel
  have hmods : Equation.groups Sample.moduleTable ⟨⟨"a", ["b"]⟩, []⟩ =
      [[Sample.moduleNamed "a", Sample.moduleNamed "b"]] := by
    decide +kernel
  have hres : ∀ ms ∈ Equation.groups Sample.moduleTable ⟨⟨"a", ["b"]⟩, []⟩, ∀ m ∈ ms,
      Returns Sample.byName 1 Sample.request (fun w => w.st.targets[w.conn.target]?.isSome = true)
        Sample.verdicts m := by
    rw [hmods]
    intro ms hms m hm
    refine returns_byName ?_
    simp only [List.mem_singleton] at hms
    subst hms
    simp only [List.mem_cons, List.not_mem_nil, or_false] at hm
    obtain rfl | rfl := hm <;> decide
  obtain ⟨rule, hread, hiff⟩ := equation_iff (d := {}) (w := Sample.work) ht hres
    (by decide +kernel)
  rw [hmods] at hiff
  exact ⟨_, _, rule, ht, hread, hiff.mpr (.inl rfl)⟩

/-- **The first alternative is not asked.** In `a OR b` the module `a` accepts and `b` rejects. The
equation is to be accepted, and `decide` rejects, without having run `a`. -/
theorem equation_broken : ∃ root h rule,
    deCreateTree Sample.moduleTable (some ⟨⟨"a", []⟩, [⟨"b", []⟩]⟩) [] = .ok (root, h) ∧
      h.Reads root rule ∧
      (∃ d w, DecisionHolder.decide Sample.byName 1 Sample.request rule 0 {} Sample.work =
          .ok (d, w) ∧ (d.result, modulesRun Sample.byName 1 Sample.request 0 rule 0 Sample.work) =
            (.reject, [Sample.moduleNamed "b"])) ∧
      evalGroups Sample.verdicts
          (Equation.groups Sample.moduleTable ⟨⟨"a", []⟩, [⟨"b", []⟩]⟩) =
        (.accept, [Sample.moduleNamed "a"]) := by
  have ht : deCreateTree Sample.moduleTable (some ⟨⟨"a", []⟩, [⟨"b", []⟩]⟩) [] =
      .ok (some 1, [{ module := Sample.moduleNamed "a", falseBranch := some 1 },
        { module := Sample.moduleNamed "b" }]) := by
    decide +kernel
  have hread := @Heap.Reads.node [{ module := Sample.moduleNamed "a", falseBranch := some 1 },
    { module := Sample.moduleNamed "b" }] 1 { module := Sample.moduleNamed "b" } _ _ rfl .null .null
  refine ⟨_, _, _, ht, hread, ?_, by decide +kernel⟩
  exact ⟨{ result := .reject }, Sample.work, rfl, rfl⟩

end Honeybrid
