import Rill.Scope.Resolution
import Rill.Syntax.Mentions

/-!
# The rules of scopes

Declarations, mentions of names and returns stand at sites. A site is known by the scopes that
enclose it, each with the names that it has declared up to there, and by the variable whose first
value it is part of. Whether it breaks a rule, and which declaration a mention refers to, depends on
nothing else; so the rules are stated here for one site, without going over the program.
-/

namespace Rill

/-! ## Enclosing scopes -/

/-- What opens a scope. A loop has one for its variable, around the block that is its body. -/
inductive EnclosureKind
  | block
  | loop
  | routine (isInitializer : Bool)
  | classBody
deriving DecidableEq

/-- A scope around a site, with the names that it has declared before the site. -/
structure Enclosure where
  kind : EnclosureKind
  declared : List String

/-- The scopes around a site, innermost first. There are none at the level of the globals. -/
abbrev Enclosures := List Enclosure

namespace Enclosures

/-- The scopes behind the declaration of a name. The globals are no scope. -/
def declare (around : Enclosures) (name : String) : Enclosures :=
  match around with
  | [] => []
  | enclosure :: outer => ⟨enclosure.kind, enclosure.declared ++ [name]⟩ :: outer

/-- Whether the innermost scope has declared a name. -/
def declaresHere (around : Enclosures) (name : String) : Bool :=
  match around with
  | [] => false
  | enclosure :: _ => name ∈ enclosure.declared

/-- Whether a scope around a site is that of a class. -/
def inClass (around : Enclosures) : Bool := around.any (·.kind = .classBody)

/-- The innermost routine around a site, if there is one: whether it is an initializer. -/
def isInitializer? (around : Enclosures) : Option Bool :=
  around.findSome? fun enclosure =>
    match enclosure.kind with
    | .routine isInitializer => some isInitializer
    | _ => none

/-- How many scopes lie between a site and the innermost one that has declared a name. -/
def depth? (around : Enclosures) (name : String) : Option Nat :=
  around.findIdx? (name ∈ ·.declared)

end Enclosures

/-! ## Sites -/

/-- What the rules of scopes are about. -/
inductive Node
  | declaration (name : Ident)
  | mention (mention : Mention)
  | exit (line : Nat) (givesValue : Bool)

/-- A node among the scopes around it. -/
structure Site where
  node : Node
  around : Enclosures
  /-- The variable whose first value the node is part of. -/
  initialized : Option String

namespace Site

/-- The mention at a site. -/
def mention? (site : Site) : Option Mention :=
  match site.node with
  | .mention mention => some mention
  | _ => none

/-- The rule that a node breaks. None is broken by writing to a variable. -/
def brokenRule? (site : Site) : Option ScopeFault :=
  match site.node with
  | .declaration name =>
    if site.around.declaresHere name.name then some (.declaredTwice name.name) else none
  | .mention ⟨_, .read, name⟩ =>
    if site.around ≠ [] ∧ site.initialized = some name.name then
      some (.readInOwnInitializer name.name)
    else none
  | .mention ⟨_, .write, _⟩ => none
  | .mention ⟨_, .self, _⟩ => if site.around.inClass then none else some .selfOutsideClass
  | .exit _ givesValue =>
    match site.around.isInitializer? with
    | none => some .returnOutsideFunction
    | some isInitializer => if isInitializer ∧ givesValue then some .valueFromInitializer else none

/-- The line that a node stands on. -/
def line (site : Site) : Nat :=
  match site.node with
  | .declaration name => name.line
  | .mention mention => mention.name.line
  | .exit line _ => line

/-- What is wrong at a site. -/
def fault? (site : Site) : Option Diagnostic :=
  site.brokenRule?.map fun rule => ⟨site.line, .scope rule⟩

end Site

/-- The broken rules at sites. -/
def brokenRules (sites : List Site) : List Diagnostic := sites.filterMap Site.fault?

/-! ## The sites of a program -/

/-- The sites of mentions that stand together. -/
def mentionSites (around : Enclosures) (initialized : Option String) (mentions : List Mention) :
    List Site :=
  mentions.map fun mention => ⟨.mention mention, around, initialized⟩

/-- The sites of parameters. Each is declared behind those before it. -/
def paramSites (around : Enclosures) : List Ident → List Site
  | [] => []
  | name :: rest => ⟨.declaration name, around, none⟩ :: paramSites (around.declare name.name) rest

/-- The scopes behind parameters. -/
def Enclosures.declareParams (around : Enclosures) (params : List Ident) : Enclosures :=
  params.foldl (fun around name => around.declare name.name) around

/-- The scope of a loop. -/
def Enclosures.openLoop (around : Enclosures) (counter : Option LoopVar) : Enclosures :=
  match counter with
  | none => ⟨.loop, []⟩ :: around
  | some counter => ⟨.loop, [counter.name.name]⟩ :: around

/-- The sites in the declaration of a loop variable. -/
def LoopVar.sitesOption (around : Enclosures) : Option LoopVar → List Site
  | none => []
  | some counter =>
    ⟨.declaration counter.name, ⟨.loop, []⟩ :: around, none⟩ ::
      mentionSites (around.openLoop (some counter)) (some counter.name.name) counter.value.mentions

/-- The scopes behind a statement, which may be a declaration. -/
def Enclosures.behind (around : Enclosures) : Stmt → Enclosures
  | .declare name _ | .function ⟨name, _, _⟩ | .classDef name _ => around.declare name.name
  | .expression _ | .print _ | .block _ | .branch _ _ _ | .loop _ _ _ _ | .exit _ _ => around

namespace Stmt

mutual

/-- The sites in a statement. -/
def sites (around : Enclosures) : Stmt → List Site
  | expression value => mentionSites around none value.mentions
  | print value => mentionSites around none value.mentions
  | declare name initializer =>
    ⟨.declaration name, around, none⟩ ::
      mentionSites (around.declare name.name) (some name.name) (Expr.mentionsOption initializer)
  | block body => sitesAll (⟨.block, []⟩ :: around) body
  | function ⟨name, params, body⟩ =>
    let own : Enclosures := ⟨.routine false, []⟩ :: around.declare name.name
    ⟨.declaration name, around, none⟩ :: paramSites own params ++
      sitesAll (own.declareParams params) body
  | branch condition thenBody none =>
    mentionSites around none condition.mentions ++ sitesAll (⟨.block, []⟩ :: around) thenBody
  | branch condition thenBody (some elseBody) =>
    mentionSites around none condition.mentions ++ sitesAll (⟨.block, []⟩ :: around) thenBody ++
      sitesAll (⟨.block, []⟩ :: around) elseBody
  | loop counter condition increment body =>
    let own := around.openLoop counter
    LoopVar.sitesOption around counter ++ mentionSites own none (Expr.mentionsOption condition) ++
      mentionSites own none (Expr.mentionsOption increment) ++ sitesAll (⟨.block, []⟩ :: own) body
  | exit line value =>
    ⟨.exit line value.isSome, around, none⟩ ::
      mentionSites around none (Expr.mentionsOption value)
  | classDef name methods =>
    ⟨.declaration name, around, none⟩ ::
      sitesMethods (⟨.classBody, ["self"]⟩ :: around.declare name.name) methods

/-- The sites in statements that share a scope. Each sees the declarations in front of it. -/
def sitesAll (around : Enclosures) : List Stmt → List Site
  | [] => []
  | s :: rest => s.sites around ++ sitesAll (around.behind s) rest

/-- The sites in methods. -/
def sitesMethods (around : Enclosures) : List Routine → List Site
  | [] => []
  | ⟨name, params, body⟩ :: rest =>
    let own : Enclosures := ⟨.routine (name.name = initializerName), []⟩ :: around
    paramSites own params ++ sitesAll (own.declareParams params) body ++ sitesMethods around rest

end

end Stmt

/-- The sites in a program, whose statements no scope encloses. -/
def programSites (program : List Stmt) : List Site := Stmt.sitesAll [] program

/-! ## Every mention has its site -/

theorem brokenRules_append (first second : List Site) :
    brokenRules (first ++ second) = brokenRules first ++ brokenRules second :=
  List.filterMap_append

theorem brokenRules_cons (site : Site) (rest : List Site) :
    brokenRules (site :: rest) = site.fault?.toList ++ brokenRules rest := by
  rw [brokenRules, List.filterMap_cons]
  cases site.fault? <;> rfl

theorem filterMap_mention?_mentionSites (around : Enclosures) (initialized : Option String)
    (mentions : List Mention) :
    (mentionSites around initialized mentions).filterMap Site.mention? = mentions := by
  rw [mentionSites, List.filterMap_map]
  exact List.filterMap_some

theorem filterMap_mention?_paramSites (around : Enclosures) (params : List Ident) :
    (paramSites around params).filterMap Site.mention? = [] := by
  induction params generalizing around with
  | nil => rfl
  | cons name rest ih => exact ih _

theorem LoopVar.filterMap_mention?_sitesOption (around : Enclosures) (counter : Option LoopVar) :
    (LoopVar.sitesOption around counter).filterMap Site.mention? =
      LoopVar.mentionsOption counter := by
  cases counter with
  | none => rfl
  | some counter => exact filterMap_mention?_mentionSites _ _ _

namespace Stmt

mutual

theorem filterMap_mention?_sites : ∀ (around : Enclosures) (s : Stmt),
    (s.sites around).filterMap Site.mention? = s.mentions
  | _, .expression _ | _, .print _ | _, .declare _ _ | _, .exit _ _ =>
      filterMap_mention?_mentionSites _ _ _
  | _, .block body => filterMap_mention?_sitesAll _ body
  | around, .function ⟨name, params, body⟩ => by
      simp only [sites, mentions, List.cons_append, List.filterMap_cons, Site.mention?,
        List.filterMap_append, filterMap_mention?_paramSites, filterMap_mention?_sitesAll,
        List.nil_append]
  | around, .branch condition thenBody none => by
      simp only [sites, mentions, List.filterMap_append, filterMap_mention?_mentionSites,
        filterMap_mention?_sitesAll]
  | around, .branch condition thenBody (some elseBody) => by
      simp only [sites, mentions, List.filterMap_append, filterMap_mention?_mentionSites,
        filterMap_mention?_sitesAll]
  | around, .loop counter condition increment body => by
      simp only [sites, mentions, List.filterMap_append, filterMap_mention?_mentionSites,
        LoopVar.filterMap_mention?_sitesOption, filterMap_mention?_sitesAll]
  | around, .classDef name methods => filterMap_mention?_sitesMethods _ methods

theorem filterMap_mention?_sitesAll : ∀ (around : Enclosures) (body : List Stmt),
    (sitesAll around body).filterMap Site.mention? = mentionsAll body
  | _, [] => rfl
  | around, s :: rest => by
      rw [sitesAll, mentionsAll, List.filterMap_append, filterMap_mention?_sites around s,
        filterMap_mention?_sitesAll _ rest]

theorem filterMap_mention?_sitesMethods : ∀ (around : Enclosures) (methods : List Routine),
    (sitesMethods around methods).filterMap Site.mention? = mentionsMethods methods
  | _, [] => rfl
  | around, ⟨name, params, body⟩ :: rest => by
      simp only [sitesMethods, mentionsMethods, List.filterMap_append,
        filterMap_mention?_paramSites, filterMap_mention?_sitesAll,
        filterMap_mention?_sitesMethods around rest, List.nil_append]

end

end Stmt

end Rill
