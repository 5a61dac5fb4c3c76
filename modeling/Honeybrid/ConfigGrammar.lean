import Honeybrid.Configuration
import Honeybrid.Lib.Grammars
import Honeybrid.Operators

/-!
# The grammar of the configuration language

The productions of `config_rules.y`, each with the value that its action makes. A production is a
relation between tokens and values; where its action ends the program, there is no value. The parser
that is built from them is given by readers, which take a production by its first tokens.

## Main definitions

* `Addresses`: what the library for addresses makes of texts.
* `Definition`: what a file consists of.
* `Defines`, `Entry` and the others: the productions.
* `definition`, `entry` and the others: the readers.

## Main results

* `reads_definition`: the reader of a definition finds the productions of `Defines`.
* `configuration_iff`: a list of tokens is accepted exactly if it is a list of definitions.
-/

namespace Honeybrid

open Grammars

/-! ### Values -/

/-- `addr_pton` for a text that stands for an address of the one kind or of the other, and
`addr_ntoa`. -/
structure Addresses where
  ip : String → Option IpAddr
  mac : String → Option MacAddr
  ntoa : IpAddr → String

/-- A line of a link block. -/
inductive LinkEntry
  | interface (name : String)
  | promisc (n : ℤ)
  | filter (x : List Char)
  deriving DecidableEq, Repr

/-- The productions of `configuration`. -/
inductive Definition
  | config (parameters : List (String × ConfigValue))
  | link (tag : String) (settings : List LinkEntry)
  | module (name : String) (settings : ModSettings)
  | target (route : Option DefaultRoute) (entries : List TargetEntry)

/-! ### Productions -/

/-- A list of lines in braces. -/
inductive Braces {α : Type} (L : Words Token α) : Words Token (List α)
  | mk {x : List Token} {as : List α} (h : Many L x as) : Braces L (.open :: (x ++ [.end])) as

/-- A token that `equation` takes. -/
inductive Item : Words Token (List Char)
  | mk {t : Token} {x : List Char} (h : t.item = some x) : Item [t] x

/-- `QUOTE equation QUOTE SEMICOLON` -/
inductive Quoted : Words Token (List Char)
  | mk {x : List Token} {xs : List (List Char)} (h : Many Item x xs) :
      Quoted (.quote :: (x ++ [.quote, .semicolon])) (xs.foldl appendItem [])

/-- An equation that `DE_create_tree` gets. -/
inductive Ruled : Words Token Equation
  | mk {x : List Token} {text : List Char} {e : Equation} (h : Quoted x text)
      (he : Equation.ofText text = some e) : Ruled x e

/-- The end of an entry for a handler. -/
inductive RuleClause : Words Token (Option Equation)
  | none : RuleClause [.semicolon] none
  | some {x : List Token} {e : Equation} (h : Ruled x e) : RuleClause x (some e)

/-- The productions of `vlan`, but for the empty one. -/
inductive VlanClause : Words Token ℕ
  | mk (n : BitVec 32) : VlanClause [.keyword .vlan, .number n] n.toNat

/-- The productions of `link_settings`. -/
inductive LinkLine : Words Token LinkEntry
  | interface (s : String) :
      LinkLine [.word "interface", .eq, .quote, .word s, .quote, .semicolon] (.interface s)
  | promisc (n : BitVec 32) :
      LinkLine [.word "promisc", .eq, .number n, .semicolon] (.promisc n.toInt)
  | filter {x : List Token} {text : List Char} (h : Quoted x text) :
      LinkLine (.keyword .filter :: .eq :: x) (.filter text)

/-- The productions of `module_settings`. -/
inductive ModuleLine : Words Token (String × Value)
  | mk {t : Token} {v : Value} (name : String) (h : t.value = some v) :
      ModuleLine [.word name, .eq, t, .semicolon] (name, v)

section Productions

variable (a : Addresses)

/-- The production `honeynet`: an expression that is a legal address. -/
inductive Honeynet : Words Token IpAddr
  | mk {s : String} {ip : IpAddr} (h : a.ip s = some ip) : Honeynet [.expr s] ip

/-- The production of a hardware address. -/
inductive Mac : Words Token MacAddr
  | mk {s : String} {mac : MacAddr} (h : a.mac s = some mac) : Mac [.keyword .hw, .expr s] mac

/-- The productions of `netmask`, but for the empty one. -/
inductive NetmaskClause : Words Token IpAddr
  | mk {x : List Token} {ip : IpAddr} (h : Honeynet a x ip) :
      NetmaskClause (.keyword .netmask :: x) ip

/-- The productions of `parameter`, with the semicolon. -/
inductive Parameter : Words Token (String × ConfigValue)
  | word (name s : String) : Parameter [.word name, .eq, .word s, .semicolon] (name, .text s)
  | expr (name s : String) : Parameter [.word name, .eq, .expr s, .semicolon] (name, .text s)
  | number (name : String) (n : BitVec 32) :
      Parameter [.word name, .eq, .number n, .semicolon] (name, .number n.toInt)
  | address {x : List Token} {ip : IpAddr} (name : String) (h : Honeynet a x ip) :
      Parameter (.word name :: .eq :: .quote :: (x ++ [.quote, .semicolon]))
        (name, .text (a.ntoa ip))

/-- A handler on a link: `honeynet mac netmask vlan` and what ends the entry. The last netmask and
the last VLAN count. -/
inductive Placed (link : String) : Words Token (Honeypot × Option Equation)
  | mk {x y z w v : List Token} {ip : IpAddr} {mac : MacAddr} {masks : List IpAddr}
      {vlans : List ℕ} {rule : Option Equation} (hip : Honeynet a x ip) (hmac : Mac a y mac)
      (hmasks : Many (NetmaskClause a) z masks) (hvlans : Many VlanClause w vlans)
      (hrule : RuleClause v rule) :
      Placed link (x ++ (y ++ (z ++ (w ++ v))))
        (⟨link, ip, mac, masks.getLast?, vlans.getLast?.getD 0⟩, rule)

/-- The productions of `rule`. -/
inductive Entry : Words Token TargetEntry
  | frontend {x : List Token} {link : String} {p : Honeypot × Option Equation}
      (h : Placed a link x p) :
      Entry (.keyword .frontend :: .quote :: .word link :: .quote :: x) (.frontend p.1 p.2)
  | backpick {x : List Token} {e : Equation} (h : Ruled x e) :
      Entry (.keyword .backpick :: x) (.backpick e)
  | backend {x : List Token} {link : String} {p : Honeypot × Option Equation}
      (h : Placed a link x p) :
      Entry (.keyword .backend :: .quote :: .word link :: .quote :: x) (.backend p.1 p.2)
  | internal {x y : List Token} {link : String} {ip : IpAddr} {p : Honeypot × Option Equation}
      (hip : Honeynet a y ip) (h : Placed a link x p) :
      Entry (.keyword .internal :: .quote :: .word link :: .quote :: (y ++ .keyword .with :: x))
        (.internal ip p.1 p.2)
  | internet {x : List Token} {e : Equation} (h : Ruled x e) :
      Entry (.keyword .internet :: x) (.internet e)
  | intralan {x : List Token} {e : Equation} (h : Ruled x e) :
      Entry (.keyword .intralan :: x) (.intralan e)

/-- What follows `mac` in a default route: an address or none, and the entries. -/
inductive RouteRest : Words Token (Option IpAddr × List TargetEntry)
  | plain {x : List Token} {es : List TargetEntry} (h : Braces (Entry a) x es) :
      RouteRest x (none, es)
  | source {x y : List Token} {ip : IpAddr} {es : List TargetEntry} (hip : Honeynet a y ip)
      (h : Braces (Entry a) x es) : RouteRest (.keyword .src :: (y ++ x)) (some ip, es)

/-- The productions of `config`, `link`, `module` and `target`. -/
inductive Defines : Words Token Definition
  | config {x : List Token} {ps : List (String × ConfigValue)} (h : Braces (Parameter a) x ps) :
      Defines (.keyword .config :: x) (.config ps)
  | link {x : List Token} {ls : List LinkEntry} (tag : String) (h : Braces LinkLine x ls) :
      Defines (.keyword .link :: .quote :: .word tag :: .quote :: x) (.link tag ls)
  | module {x : List Token} {ls : List (String × Value)} (name : String)
      (h : Braces ModuleLine x ls) :
      Defines (.keyword .module :: .quote :: .word name :: .quote :: x)
        (.module name (ls.foldl (fun t l => Function.update t l.1 (some l.2)) fun _ => none))
  | target {x : List Token} {es : List TargetEntry} (h : Braces (Entry a) x es) :
      Defines (.keyword .target :: x) (.target none es)
  | route {x y : List Token} {mac : MacAddr} {r : Option IpAddr × List TargetEntry}
      (link : String) (hmac : Mac a y mac) (h : RouteRest a x r) :
      Defines (.keyword .target :: .keyword .default :: .keyword .route :: .keyword .via ::
        .quote :: .word link :: .quote :: (y ++ x)) (.target (some ⟨link, mac, r.1⟩) r.2)

end Productions

/-! ### Readers -/

/-- The next token is `t`. -/
def isAt (t : Token) (ts : List Token) : Bool :=
  ts.head? = some t

/-- What `p` reads, any number of times, between braces. -/
def braces {α : Type} (p : Reader Token α) : Reader Token (List α)
  | .open :: ts =>
    (Reader.many (fun ts => !isAt .end ts) p ts).bind fun
      | (as, .end :: ts) => some (as, ts)
      | _ => none
  | _ => none

/-- A quoted expression that has the form of an equation. -/
def ruled (ts : List Token) : Option (Equation × List Token) :=
  (quotedEquation ts).bind fun r => (Equation.ofText r.1).map (·, r.2)

/-- The production `rule`: a semicolon, or an equation. -/
def ruleClause : Reader Token (Option Equation)
  | .semicolon :: ts => some (none, ts)
  | ts => (ruled ts).map fun r => (some r.1, r.2)

/-- The production `vlan`, but for the empty one. -/
def vlanClause : Reader Token ℕ
  | .keyword .vlan :: .number n :: ts => some (n.toNat, ts)
  | _ => none

/-- Another name before `=` ends the program. -/
def linkLine : Reader Token LinkEntry
  | .word name :: .eq :: .quote :: .word s :: .quote :: .semicolon :: ts =>
    if name = "interface" then some (.interface s, ts) else none
  | .word name :: .eq :: .number n :: .semicolon :: ts =>
    if name = "promisc" then some (.promisc n.toInt, ts) else none
  | .keyword .filter :: .eq :: ts => (quotedEquation ts).map fun r => (.filter r.1, r.2)
  | _ => none

/-- A line of a module: a name and its value. -/
def moduleLine : Reader Token (String × Value)
  | .word name :: .eq :: t :: .semicolon :: ts => t.value.map fun v => ((name, v), ts)
  | _ => none

section Readers

variable (a : Addresses)

/-- The production `honeynet`. An address that is not legal ends the program. -/
def honeynet : Reader Token IpAddr
  | .expr s :: ts => (a.ip s).map (·, ts)
  | _ => none

/-- A hardware address. -/
def mac : Reader Token MacAddr
  | .keyword .hw :: .expr s :: ts => (a.mac s).map (·, ts)
  | _ => none

/-- The production `netmask`, but for the empty one. -/
def netmaskClause : Reader Token IpAddr
  | .keyword .netmask :: ts => honeynet a ts
  | _ => none

/-- A line of `config`: a name and its value. An address is shown as `addr_ntoa` does. -/
def parameter : Reader Token (String × ConfigValue)
  | .word name :: .eq :: .word s :: .semicolon :: ts => some ((name, .text s), ts)
  | .word name :: .eq :: .expr s :: .semicolon :: ts => some ((name, .text s), ts)
  | .word name :: .eq :: .number n :: .semicolon :: ts => some ((name, .number n.toInt), ts)
  | .word name :: .eq :: .quote :: ts =>
    (honeynet a ts).bind fun
      | (ip, .quote :: .semicolon :: ts) => some ((name, .text (a.ntoa ip)), ts)
      | _ => none
  | _ => none

/-- What follows the name of the link for a honeypot: its addresses, and its rule. -/
def placed (link : String) (ts : List Token) : Option ((Honeypot × Option Equation) × List Token) :=
  (honeynet a ts).bind fun (ip, ts) =>
  (mac a ts).bind fun (mac, ts) =>
  (Reader.many (isAt (.keyword .netmask)) (netmaskClause a) ts).bind fun (masks, ts) =>
  (Reader.many (isAt (.keyword .vlan)) vlanClause ts).bind fun (vlans, ts) =>
  (ruleClause ts).map fun (rule, ts) =>
  ((⟨link, ip, mac, masks.getLast?, vlans.getLast?.getD 0⟩, rule), ts)

/-- The production for an entry of a target. -/
def entry : Reader Token TargetEntry
  | .keyword .frontend :: .quote :: .word link :: .quote :: ts =>
    (placed a link ts).map fun (p, ts) => (.frontend p.1 p.2, ts)
  | .keyword .backpick :: ts => (ruled ts).map fun (e, ts) => (.backpick e, ts)
  | .keyword .backend :: .quote :: .word link :: .quote :: ts =>
    (placed a link ts).map fun (p, ts) => (.backend p.1 p.2, ts)
  | .keyword .internal :: .quote :: .word link :: .quote :: ts =>
    (honeynet a ts).bind fun
      | (ip, .keyword .with :: ts) =>
        (placed a link ts).map fun (p, ts) => (.internal ip p.1 p.2, ts)
      | _ => none
  | .keyword .internet :: ts => (ruled ts).map fun (e, ts) => (.internet e, ts)
  | .keyword .intralan :: ts => (ruled ts).map fun (e, ts) => (.intralan e, ts)
  | _ => none

/-- What follows the hardware address of a default route: its `src`, and the entries. -/
def routeRest : Reader Token (Option IpAddr × List TargetEntry)
  | .keyword .src :: ts =>
    (honeynet a ts).bind fun (ip, ts) =>
    (braces (entry a) ts).map fun (es, ts) => ((some ip, es), ts)
  | ts => (braces (entry a) ts).map fun (es, ts) => ((none, es), ts)

/-- The production for a block of the file. -/
def definition : Reader Token Definition
  | .keyword .config :: ts => (braces (parameter a) ts).map fun (ps, ts) => (.config ps, ts)
  | .keyword .link :: .quote :: .word tag :: .quote :: ts =>
    (braces linkLine ts).map fun (ls, ts) => (.link tag ls, ts)
  | .keyword .module :: .quote :: .word name :: .quote :: ts =>
    (braces moduleLine ts).map fun (ls, ts) =>
      (.module name (ls.foldl (fun t l => Function.update t l.1 (some l.2)) fun _ => none), ts)
  | .keyword .target :: .keyword .default :: .keyword .route :: .keyword .via :: .quote ::
      .word link :: .quote :: ts =>
    (mac a ts).bind fun (mac, ts) =>
    (routeRest a ts).map fun (r, ts) => (.target (some ⟨link, mac, r.1⟩) r.2, ts)
  | .keyword .target :: ts => (braces (entry a) ts).map fun (es, ts) => (.target none es, ts)
  | _ => none

/-- The production `configuration`, up to the end of the file. -/
def configuration (ts : List Token) : Option (List Definition) :=
  (Reader.many (fun ts => !ts.isEmpty) (definition a) ts).map Prod.fst

end Readers

namespace Sample

/-- Two addresses that are legal. -/
def addresses : Addresses where
  ip s := if s = "10.0.0.11" then some 0x0a00000b else none
  mac s := if s = "01:02:03:04:05:07" then some 0x010203040507 else none
  ntoa _ := "10.0.0.11"

end Sample

example : entry Sample.addresses (lex
    "backend \"lan\" 10.0.0.11 hw 01:02:03:04:05:07 vlan 2 \"a and  b\";".toList) =
      some (.backend ⟨"lan", 0x0a00000b, 0x010203040507, none, 2⟩ (some ⟨⟨"a", ["b"]⟩, []⟩),
        []) := by
  decide +kernel

section Reads

variable {a : Addresses}

theorem reads_honeynet : Reads (honeynet a) (Honeynet a) := by
  intro ts ip rest
  constructor
  · intro h
    unfold honeynet at h
    split at h
    · rename_i s ts
      obtain ⟨ip', hip, heq⟩ := Option.map_eq_some_iff.1 h
      cases heq
      exact ⟨[.expr s], rfl, .mk hip⟩
    · cases h
  · rintro ⟨x, rfl, ⟨hip⟩⟩
    exact Option.map_eq_some_iff.2 ⟨ip, hip, rfl⟩

theorem reads_mac : Reads (mac a) (Mac a) := by
  intro ts m rest
  constructor
  · intro h
    unfold mac at h
    split at h
    · rename_i s ts
      obtain ⟨m', hm, heq⟩ := Option.map_eq_some_iff.1 h
      cases heq
      exact ⟨[.keyword .hw, .expr s], rfl, .mk hm⟩
    · cases h
  · rintro ⟨x, rfl, ⟨hm⟩⟩
    exact Option.map_eq_some_iff.2 ⟨m, hm, rfl⟩

theorem reads_vlanClause : Reads vlanClause VlanClause := by
  intro ts v rest
  constructor
  · intro h
    unfold vlanClause at h
    split at h
    · rename_i n ts
      cases h
      exact ⟨[.keyword .vlan, .number n], rfl, .mk n⟩
    · cases h
  · rintro ⟨x, rfl, ⟨n⟩⟩
    rfl

theorem reads_netmaskClause : Reads (netmaskClause a) (NetmaskClause a) := by
  intro ts ip rest
  constructor
  · intro h
    unfold netmaskClause at h
    split at h
    · rename_i ts
      obtain ⟨x, rfl, hx⟩ := (reads_honeynet ts ip rest).1 h
      exact ⟨.keyword .netmask :: x, rfl, .mk hx⟩
    · cases h
  · rintro ⟨x, rfl, ⟨hx⟩⟩
    exact (reads_honeynet _ ip rest).2 ⟨_, rfl, hx⟩

theorem reads_moduleLine : Reads moduleLine ModuleLine := by
  intro ts l rest
  constructor
  · intro h
    unfold moduleLine at h
    split at h
    · rename_i name t ts
      obtain ⟨v, hv, heq⟩ := Option.map_eq_some_iff.1 h
      cases heq
      exact ⟨[.word name, .eq, t, .semicolon], rfl, .mk name hv⟩
    · cases h
  · rintro ⟨x, rfl, ⟨name, hv⟩⟩
    exact Option.map_eq_some_iff.2 ⟨_, hv, rfl⟩

/-- The items up to the quote. -/
theorem items_iff {ts rest : List Token} {xs : List (List Char)} :
    items ts = some (xs, rest) ↔ ∃ x, ts = x ++ .quote :: rest ∧ Many Item x xs := by
  constructor
  · intro h
    induction ts generalizing xs with
    | nil => cases h
    | cons t ts ih =>
      rcases items_cons_inv h with ⟨rfl, rfl⟩ | ⟨y, ys, hy, hys, rfl⟩
      · cases h
        exact ⟨[], rfl, .nil⟩
      · obtain ⟨x, rfl, hx⟩ := ih hys
        exact ⟨t :: x, rfl, .cons (.mk hy) hx⟩
  · rintro ⟨x, rfl, hx⟩
    induction hx with
    | nil => rfl
    | cons hy _ ih =>
      obtain ⟨hitem⟩ := hy
      rw [List.append_assoc, List.singleton_append, items_cons hitem, ih]
      rfl

theorem reads_quotedEquation : Reads quotedEquation Quoted := by
  intro ts text rest
  constructor
  · intro h
    have hquote : ∃ us, ts = .quote :: us := by
      unfold quotedEquation at h
      split at h
      · exact ⟨_, rfl⟩
      · cases h
    obtain ⟨us, rfl⟩ := hquote
    rw [quotedEquation_iff, equation_eq] at h
    obtain ⟨⟨xs, vs⟩, hitems, heq⟩ := Option.map_eq_some_iff.1 h
    cases heq
    obtain ⟨x, rfl, hx⟩ := items_iff.1 hitems
    exact ⟨.quote :: (x ++ [.quote, .semicolon]), by simp, .mk hx⟩
  · rintro ⟨_, rfl, ⟨hx⟩⟩
    rename_i x xs
    have hitems : items (x ++ .quote :: .semicolon :: rest) = some (xs, .semicolon :: rest) :=
      items_iff.2 ⟨x, rfl, hx⟩
    rw [List.cons_append, List.append_assoc, quotedEquation_iff, equation_eq]
    exact Option.map_eq_some_iff.2 ⟨_, hitems, rfl⟩

theorem reads_ruled : Reads ruled Ruled := by
  intro ts e rest
  constructor
  · intro h
    obtain ⟨x, text, us, rfl, hx, h⟩ := reads_quotedEquation.bind_iff.1 h
    obtain ⟨e', he, heq⟩ := Option.map_eq_some_iff.1 h
    cases heq
    exact ⟨x, rfl, .mk hx he⟩
  · rintro ⟨_, rfl, ⟨hx, he⟩⟩
    exact reads_quotedEquation.bind_iff.2
      ⟨_, _, rest, rfl, hx, Option.map_eq_some_iff.2 ⟨e, he, rfl⟩⟩

theorem reads_ruleClause : Reads ruleClause RuleClause := by
  intro ts r rest
  constructor
  · intro h
    unfold ruleClause at h
    split at h
    · cases h
      exact ⟨[.semicolon], rfl, .none⟩
    · obtain ⟨⟨e, us⟩, he, heq⟩ := Option.map_eq_some_iff.1 h
      cases heq
      obtain ⟨x, hts, hx⟩ := (reads_ruled _ _ _).1 he
      exact ⟨x, hts, .some hx⟩
  · rintro ⟨_, rfl, hr⟩
    cases hr with
    | none => rfl
    | some hx =>
      have he := (reads_ruled _ _ rest).2 ⟨_, rfl, hx⟩
      obtain ⟨⟨-⟩, -⟩ := hx
      exact Option.map_eq_some_iff.2 ⟨_, he, rfl⟩

/-- The lines in braces do not start with the closing one. -/
theorem reads_braces {α : Type} {p : Reader Token α} {L : Words Token α} (hp : Reads p L)
    (hL : ∀ x a rest, L x a → x ≠ [] ∧ isAt .end (x ++ rest) = false) :
    Reads (braces p) (Braces L) := by
  have hmore : ∀ x a rest, L x a → x ≠ [] ∧ (!isAt .end (x ++ rest)) = true := by
    intro x a rest h
    rw [(hL x a rest h).2]
    exact ⟨(hL x a rest h).1, rfl⟩
  intro ts as rest
  constructor
  · intro h
    unfold braces at h
    split at h
    · obtain ⟨x, bs, us, rfl, -, hx, htail⟩ := (hp.many_bind_iff hmore).1 h
      clear h
      split at htail
      · rename_i heq
        cases heq
        cases htail
        exact ⟨.open :: (x ++ [.end]), by simp, .mk hx⟩
      · cases htail
    · cases h
  · rintro ⟨_, rfl, ⟨hx⟩⟩
    rename_i x
    rw [List.cons_append, List.append_assoc]
    exact (hp.many_bind_iff hmore).2 ⟨x, as, .end :: rest, rfl, rfl, hx, rfl⟩

theorem RuleClause.start {x rest : List Token} {r : Option Equation} (h : RuleClause x r)
    (k : Keyword) : isAt (.keyword k) (x ++ rest) = false := by
  cases h with
  | none => rfl
  | some h =>
    obtain ⟨⟨-⟩, -⟩ := h
    rfl

theorem reads_placed (link : String) : Reads (placed a link) (Placed a link) := by
  have hnetmask : ∀ x ip rest, NetmaskClause a x ip →
      x ≠ [] ∧ isAt (.keyword .netmask) (x ++ rest) = true := by
    rintro _ ip rest ⟨-⟩
    exact ⟨List.cons_ne_nil _ _, rfl⟩
  have hvlan : ∀ x n rest, VlanClause x n → x ≠ [] ∧ isAt (.keyword .vlan) (x ++ rest) = true := by
    rintro _ n rest ⟨-⟩
    exact ⟨List.cons_ne_nil _ _, rfl⟩
  intro ts p rest
  constructor
  · intro h
    obtain ⟨x, ip, us, rfl, hx, h⟩ := reads_honeynet.bind_iff.1 h
    obtain ⟨y, mac, us, rfl, hy, h⟩ := reads_mac.bind_iff.1 h
    obtain ⟨z, masks, us, rfl, -, hz, h⟩ := (reads_netmaskClause.many_bind_iff hnetmask).1 h
    obtain ⟨w, vlans, us, rfl, -, hw, h⟩ := (reads_vlanClause.many_bind_iff hvlan).1 h
    obtain ⟨⟨rule, us⟩, hrule, heq⟩ := Option.map_eq_some_iff.1 h
    cases heq
    obtain ⟨v, rfl, hv⟩ := (reads_ruleClause _ _ _).1 hrule
    exact ⟨x ++ (y ++ (z ++ (w ++ v))), by simp only [List.append_assoc], .mk hx hy hz hw hv⟩
  · rintro ⟨_, rfl, ⟨hx, hy, hz, hw, hv⟩⟩
    rename_i x y z w v ip mac masks vlans rule
    simp only [List.append_assoc]
    have hend : isAt (.keyword .netmask) (w ++ (v ++ rest)) = false := by
      refine hw.start (P := fun ts => isAt (.keyword .netmask) ts = false) ?_ (hv.start .netmask)
      rintro _ n rest ⟨-⟩
      rfl
    refine reads_honeynet.bind_iff.2 ⟨x, ip, _, rfl, hx, ?_⟩
    refine reads_mac.bind_iff.2 ⟨y, mac, _, rfl, hy, ?_⟩
    refine (reads_netmaskClause.many_bind_iff hnetmask).2 ⟨z, masks, _, rfl, hend, hz, ?_⟩
    refine (reads_vlanClause.many_bind_iff hvlan).2 ⟨w, vlans, _, rfl, hv.start .vlan, hw, ?_⟩
    exact Option.map_eq_some_iff.2 ⟨_, (reads_ruleClause _ _ rest).2 ⟨v, rfl, hv⟩, rfl⟩

theorem reads_linkLine : Reads linkLine LinkLine := by
  intro ts l rest
  constructor
  · intro h
    unfold linkLine at h
    split at h
    · rename_i name s ts
      obtain ⟨rfl, h⟩ := Option.ite_none_right_eq_some.1 h
      cases h
      exact ⟨[.word "interface", .eq, .quote, .word s, .quote, .semicolon], rfl, .interface s⟩
    · rename_i name n ts
      obtain ⟨rfl, h⟩ := Option.ite_none_right_eq_some.1 h
      cases h
      exact ⟨[.word "promisc", .eq, .number n, .semicolon], rfl, .promisc n⟩
    · obtain ⟨⟨text, us⟩, htext, heq⟩ := Option.map_eq_some_iff.1 h
      cases heq
      obtain ⟨x, rfl, hx⟩ := (reads_quotedEquation _ _ _).1 htext
      exact ⟨.keyword .filter :: .eq :: x, rfl, .filter hx⟩
    · cases h
  · rintro ⟨_, rfl, hl⟩
    cases hl with
    | interface s => rfl
    | promisc n => rfl
    | filter hx =>
      exact Option.map_eq_some_iff.2 ⟨_, (reads_quotedEquation _ _ rest).2 ⟨_, rfl, hx⟩, rfl⟩

theorem reads_parameter : Reads (parameter a) (Parameter a) := by
  intro ts p rest
  constructor
  · intro h
    unfold parameter at h
    split at h
    · rename_i name s ts
      cases h
      exact ⟨[.word name, .eq, .word s, .semicolon], rfl, .word name s⟩
    · rename_i name s ts
      cases h
      exact ⟨[.word name, .eq, .expr s, .semicolon], rfl, .expr name s⟩
    · rename_i name n ts
      cases h
      exact ⟨[.word name, .eq, .number n, .semicolon], rfl, .number name n⟩
    · rename_i name ts
      obtain ⟨x, ip, us, rfl, hx, htail⟩ := reads_honeynet.bind_iff.1 h
      clear h
      split at htail
      · rename_i heq
        cases heq
        cases htail
        exact ⟨.word name :: .eq :: .quote :: (x ++ [.quote, .semicolon]), by simp,
          .address name hx⟩
      · cases htail
    · cases h
  · rintro ⟨_, rfl, hp⟩
    cases hp with
    | word name s => rfl
    | expr name s => rfl
    | number name n => rfl
    | @address x ip name hx =>
      simp only [List.cons_append, List.append_assoc, List.nil_append]
      exact reads_honeynet.bind_iff.2 ⟨x, ip, .quote :: .semicolon :: rest, rfl, hx, rfl⟩

theorem reads_entry : Reads (entry a) (Entry a) := by
  intro ts e rest
  constructor
  · intro h
    unfold entry at h
    split at h
    · rename_i link ts
      obtain ⟨⟨p, us⟩, hp, heq⟩ := Option.map_eq_some_iff.1 h
      cases heq
      obtain ⟨x, rfl, hx⟩ := (reads_placed link _ _ _).1 hp
      exact ⟨.keyword .frontend :: .quote :: .word link :: .quote :: x, rfl, .frontend hx⟩
    · rename_i ts
      obtain ⟨⟨eq, us⟩, he, heq⟩ := Option.map_eq_some_iff.1 h
      cases heq
      obtain ⟨x, rfl, hx⟩ := (reads_ruled _ _ _).1 he
      exact ⟨.keyword .backpick :: x, rfl, .backpick hx⟩
    · rename_i link ts
      obtain ⟨⟨p, us⟩, hp, heq⟩ := Option.map_eq_some_iff.1 h
      cases heq
      obtain ⟨x, rfl, hx⟩ := (reads_placed link _ _ _).1 hp
      exact ⟨.keyword .backend :: .quote :: .word link :: .quote :: x, rfl, .backend hx⟩
    · rename_i link ts
      obtain ⟨y, ip, us, rfl, hy, htail⟩ := reads_honeynet.bind_iff.1 h
      clear h
      split at htail
      · rename_i heq
        cases heq
        obtain ⟨⟨p, vs⟩, hp, heq⟩ := Option.map_eq_some_iff.1 htail
        cases heq
        obtain ⟨x, rfl, hx⟩ := (reads_placed link _ _ _).1 hp
        exact ⟨.keyword .internal :: .quote :: .word link :: .quote :: (y ++ .keyword .with :: x),
          by simp, .internal hy hx⟩
      · cases htail
    · rename_i ts
      obtain ⟨⟨eq, us⟩, he, heq⟩ := Option.map_eq_some_iff.1 h
      cases heq
      obtain ⟨x, rfl, hx⟩ := (reads_ruled _ _ _).1 he
      exact ⟨.keyword .internet :: x, rfl, .internet hx⟩
    · rename_i ts
      obtain ⟨⟨eq, us⟩, he, heq⟩ := Option.map_eq_some_iff.1 h
      cases heq
      obtain ⟨x, rfl, hx⟩ := (reads_ruled _ _ _).1 he
      exact ⟨.keyword .intralan :: x, rfl, .intralan hx⟩
    · cases h
  · rintro ⟨_, rfl, he⟩
    cases he with
    | @frontend x link p hx =>
      exact Option.map_eq_some_iff.2 ⟨_, (reads_placed link _ _ rest).2 ⟨x, rfl, hx⟩, rfl⟩
    | @backpick x e hx =>
      exact Option.map_eq_some_iff.2 ⟨_, (reads_ruled _ _ rest).2 ⟨x, rfl, hx⟩, rfl⟩
    | @backend x link p hx =>
      exact Option.map_eq_some_iff.2 ⟨_, (reads_placed link _ _ rest).2 ⟨x, rfl, hx⟩, rfl⟩
    | @internal x y link ip p hy hx =>
      simp only [List.cons_append, List.append_assoc]
      refine reads_honeynet.bind_iff.2 ⟨y, ip, _, rfl, hy, ?_⟩
      exact Option.map_eq_some_iff.2 ⟨_, (reads_placed link _ _ rest).2 ⟨x, rfl, hx⟩, rfl⟩
    | @internet x e hx =>
      exact Option.map_eq_some_iff.2 ⟨_, (reads_ruled _ _ rest).2 ⟨x, rfl, hx⟩, rfl⟩
    | @intralan x e hx =>
      exact Option.map_eq_some_iff.2 ⟨_, (reads_ruled _ _ rest).2 ⟨x, rfl, hx⟩, rfl⟩

theorem reads_entries : Reads (braces (entry a)) (Braces (Entry a)) := by
  refine reads_braces reads_entry ?_
  rintro _ e rest ⟨-⟩ <;> exact ⟨List.cons_ne_nil _ _, rfl⟩

theorem reads_parameters : Reads (braces (parameter a)) (Braces (Parameter a)) := by
  refine reads_braces reads_parameter ?_
  rintro _ p rest ⟨-⟩ <;> exact ⟨List.cons_ne_nil _ _, rfl⟩

theorem reads_linkSettings : Reads (braces linkLine) (Braces LinkLine) := by
  refine reads_braces reads_linkLine ?_
  rintro _ l rest ⟨-⟩ <;> exact ⟨List.cons_ne_nil _ _, rfl⟩

theorem reads_moduleSettings : Reads (braces moduleLine) (Braces ModuleLine) := by
  refine reads_braces reads_moduleLine ?_
  rintro _ l rest ⟨-⟩
  exact ⟨List.cons_ne_nil _ _, rfl⟩

theorem reads_routeRest : Reads (routeRest a) (RouteRest a) := by
  intro ts r rest
  constructor
  · intro h
    unfold routeRest at h
    split at h
    · obtain ⟨y, ip, us, rfl, hy, h⟩ := reads_honeynet.bind_iff.1 h
      obtain ⟨⟨es, vs⟩, hes, heq⟩ := Option.map_eq_some_iff.1 h
      cases heq
      obtain ⟨x, rfl, hx⟩ := (reads_entries _ _ _).1 hes
      exact ⟨.keyword .src :: (y ++ x), by simp, .source hy hx⟩
    · obtain ⟨⟨es, vs⟩, hes, heq⟩ := Option.map_eq_some_iff.1 h
      cases heq
      obtain ⟨x, hts, hx⟩ := (reads_entries _ _ _).1 hes
      exact ⟨x, hts, .plain hx⟩
  · rintro ⟨_, rfl, hr⟩
    cases hr with
    | plain hx =>
      have hes := (reads_entries _ _ rest).2 ⟨_, rfl, hx⟩
      obtain ⟨-⟩ := hx
      exact Option.map_eq_some_iff.2 ⟨_, hes, rfl⟩
    | @source x y ip es hy hx =>
      rw [List.cons_append, List.append_assoc]
      refine reads_honeynet.bind_iff.2 ⟨y, ip, x ++ rest, rfl, hy, ?_⟩
      exact Option.map_eq_some_iff.2 ⟨_, (reads_entries _ _ rest).2 ⟨x, rfl, hx⟩, rfl⟩

/-- **Definitions.** -/
theorem reads_definition : Reads (definition a) (Defines a) := by
  intro ts d rest
  constructor
  · intro h
    unfold definition at h
    split at h
    · obtain ⟨⟨ps, us⟩, hps, heq⟩ := Option.map_eq_some_iff.1 h
      cases heq
      obtain ⟨x, rfl, hx⟩ := (reads_parameters _ _ _).1 hps
      exact ⟨.keyword .config :: x, rfl, .config hx⟩
    · rename_i tag ts
      obtain ⟨⟨ls, us⟩, hls, heq⟩ := Option.map_eq_some_iff.1 h
      cases heq
      obtain ⟨x, rfl, hx⟩ := (reads_linkSettings _ _ _).1 hls
      exact ⟨.keyword .link :: .quote :: .word tag :: .quote :: x, rfl, .link tag hx⟩
    · rename_i name ts
      obtain ⟨⟨ls, us⟩, hls, heq⟩ := Option.map_eq_some_iff.1 h
      cases heq
      obtain ⟨x, rfl, hx⟩ := (reads_moduleSettings _ _ _).1 hls
      exact ⟨.keyword .module :: .quote :: .word name :: .quote :: x, rfl, .module name hx⟩
    · rename_i link ts
      obtain ⟨y, mac, us, rfl, hy, h⟩ := reads_mac.bind_iff.1 h
      obtain ⟨⟨r, vs⟩, hr, heq⟩ := Option.map_eq_some_iff.1 h
      cases heq
      obtain ⟨x, rfl, hx⟩ := (reads_routeRest _ _ _).1 hr
      exact ⟨.keyword .target :: .keyword .default :: .keyword .route :: .keyword .via ::
        .quote :: .word link :: .quote :: (y ++ x), by simp, .route link hy hx⟩
    · obtain ⟨⟨es, us⟩, hes, heq⟩ := Option.map_eq_some_iff.1 h
      cases heq
      obtain ⟨x, rfl, hx⟩ := (reads_entries _ _ _).1 hes
      exact ⟨.keyword .target :: x, rfl, .target hx⟩
    · cases h
  · rintro ⟨_, rfl, hd⟩
    cases hd with
    | @config x ps hx =>
      exact Option.map_eq_some_iff.2 ⟨_, (reads_parameters _ _ rest).2 ⟨x, rfl, hx⟩, rfl⟩
    | @link x ls tag hx =>
      exact Option.map_eq_some_iff.2 ⟨_, (reads_linkSettings _ _ rest).2 ⟨x, rfl, hx⟩, rfl⟩
    | @module x ls name hx =>
      exact Option.map_eq_some_iff.2 ⟨_, (reads_moduleSettings _ _ rest).2 ⟨x, rfl, hx⟩, rfl⟩
    | @target x es hx =>
      have hes := (reads_entries _ _ rest).2 ⟨x, rfl, hx⟩
      obtain ⟨-⟩ := hx
      exact Option.map_eq_some_iff.2 ⟨_, hes, rfl⟩
    | @route x y mac r link hy hx =>
      simp only [List.cons_append, List.append_assoc]
      refine reads_mac.bind_iff.2 ⟨y, mac, x ++ rest, rfl, hy, ?_⟩
      exact Option.map_eq_some_iff.2 ⟨_, (reads_routeRest _ _ rest).2 ⟨x, rfl, hx⟩, rfl⟩

/-- **Files.** A list of tokens is accepted exactly if it is a list of definitions. -/
theorem configuration_iff {ts : List Token} {ds : List Definition} :
    configuration a ts = some ds ↔ Many (Defines a) ts ds := by
  have hstart : ∀ x d rest, Defines a x d → x ≠ [] ∧ (!(x ++ rest).isEmpty) = true := by
    rintro _ d rest ⟨-⟩ <;> exact ⟨List.cons_ne_nil _ _, rfl⟩
  rw [configuration, Option.map_eq_some_iff]
  constructor
  · rintro ⟨⟨as, us⟩, has, rfl⟩
    obtain ⟨hus, x, rfl, hx⟩ := (reads_definition.many_iff hstart).1 has
    rw [Bool.not_eq_false', List.isEmpty_iff] at hus
    rwa [hus, List.append_nil]
  · intro h
    exact ⟨(ds, []), (reads_definition.many_iff hstart).2 ⟨rfl, ts, (List.append_nil ts).symm, h⟩,
      rfl⟩

end Reads

end Honeybrid
