import Rill.Proofs.Renaming.Scopes
import Rill.Proofs.Scope.Acceptance

/-!
# Code under other names

Code has a counterpart among the same scopes under other names: the two are akin, and resolution
finds the same in both. Counterparts of parts make up counterparts of the whole. Code that is bound
has one wherever its names are respelled in the way in which they are spelled among the scopes.
-/

namespace Rill

variable {ledger : Ledger} {Γ : Spellings} {scopes : Scopes} {x y : String} {ρ : String → String}
  {σ : Spelling}

theorem not_mem_append_iff {α : Type} {a : α} {former latter : List α} :
    a ∉ former ++ latter ↔ a ∉ former ∧ a ∉ latter := by
  rw [List.mem_append, not_or]

theorem not_mem_cons_iff {α : Type} {a b : α} {rest : List α} :
    a ∉ b :: rest ↔ a ≠ b ∧ a ∉ rest := by
  rw [List.mem_cons, not_or]

theorem not_mem_mentionNames_append {former latter : List Mention} :
    y ∉ mentionNames (former ++ latter) ↔ y ∉ mentionNames former ∧ y ∉ mentionNames latter := by
  rw [mentionNames_append, not_mem_append_iff]

theorem Stmt.not_mem_names_branch {condition : Expr} {thenBody elseBody : List Stmt} :
    y ∉ (Stmt.branch condition thenBody (some elseBody)).names ↔
      y ∉ mentionNames condition.mentions ∧ y ∉ namesAll thenBody ∧ y ∉ namesAll elseBody := by
  rw [names, not_mem_append_iff, not_mem_append_iff, and_assoc]

theorem Stmt.not_mem_names_loop {counter : Option LoopVar} {condition increment : Option Expr}
    {body : List Stmt} :
    y ∉ (Stmt.loop counter condition increment body).names ↔
      y ∉ namesOf (LoopVar.identsOption counter) ∧
        y ∉ mentionNames (LoopVar.mentionsOption counter) ∧
        y ∉ mentionNames (Expr.mentionsOption condition) ∧
        y ∉ mentionNames (Expr.mentionsOption increment) ∧ y ∉ namesAll body := by
  rw [names, not_mem_append_iff, not_mem_append_iff, not_mem_append_iff, not_mem_append_iff,
    and_assoc, and_assoc, and_assoc]

theorem ne_of_not_mem_mentionNames {id : Occurrence} {kind : MentionKind} {name : Ident}
    (unused : y ∉ mentionNames [⟨id, kind, name⟩]) : name.name ≠ y :=
  fun same => unused (List.mem_singleton.mpr same.symm)

/-- The same code on both sides. -/
abbrev Ledger.twice (ledger : Ledger) : Ledgers := ⟨ledger, ledger⟩

/-! ## Expressions -/

theorem Ledger.Binds.matches {id : Occurrence} {name : String}
    (binds : ledger.Binds scopes id name) : ledger.twice.Matches id id :=
  ⟨binds.lt_limit, binds.lt_limit, rfl⟩

/-- A mention is respelled in the way of the scope that it refers to. -/
theorem Spelled.spells (spelled : Spelled x y Γ scopes ρ) {id : Occurrence} {name : Ident}
    (ne : name.name ≠ y) (binds : ledger.Binds scopes id name.name) :
    (ledger.twice.spelling Γ id).Spells name (name.respell ρ) where
  name_eq := by
    rw [Ledgers.spelling, binds.getElem?_eq]
    exact (spelled.spell_eq name.name ne).symm
  line_eq := rfl

mutual

theorem Expr.akin_respell (spelled : Spelled x y Γ scopes ρ) : ∀ {e : Expr},
    e.Bound ledger scopes → y ∉ mentionNames e.mentions →
    Expr.Akin ledger.twice Γ e (e.respell ρ)
  | .literal value, _, _ => .literal value
  | .unary operator _ line, bound, unused =>
      .unary operator line (Expr.akin_respell spelled bound unused)
  | .binary _ operator _ line, bound, unused =>
      have both := not_mem_mentionNames_append.mp unused
      .binary operator line (Expr.akin_respell spelled bound.1 both.1)
        (Expr.akin_respell spelled bound.2 both.2)
  | .logical _ operator _, bound, unused =>
      have both := not_mem_mentionNames_append.mp unused
      .logical operator (Expr.akin_respell spelled bound.1 both.1)
        (Expr.akin_respell spelled bound.2 both.2)
  | .group _, bound, unused => .group (Expr.akin_respell spelled bound unused)
  | .var _ _, bound, unused =>
      .var bound.2.matches (spelled.spells (ne_of_not_mem_mentionNames unused) bound.2)
  | .assign _ _ _, bound, unused =>
      have both := not_mem_mentionNames_append.mp unused
      .assign bound.2.matches (spelled.spells (ne_of_not_mem_mentionNames both.2) bound.2)
        (Expr.akin_respell spelled bound.1 both.1)
  | .call _ _ line, bound, unused =>
      have both := not_mem_mentionNames_append.mp unused
      .call line (Expr.akin_respell spelled bound.1 both.1)
        (Expr.akinAll_respell spelled bound.2 both.2)
  | .get _ name, bound, unused => .get name (Expr.akin_respell spelled bound unused)
  | .set _ name _, bound, unused =>
      have both := not_mem_mentionNames_append.mp unused
      .set name (Expr.akin_respell spelled bound.1 both.1)
        (Expr.akin_respell spelled bound.2 both.2)
  | .selfRef _ line, bound, _ => .selfRef line (Ledger.Binds.matches bound)

theorem Expr.akinAll_respell (spelled : Spelled x y Γ scopes ρ) : ∀ {arguments : List Expr},
    Expr.BoundAll ledger scopes arguments → y ∉ mentionNames (Expr.mentionsAll arguments) →
    Expr.AkinAll ledger.twice Γ arguments (Expr.respellAll ρ arguments)
  | [], _, _ => .nil
  | _ :: _, bound, unused =>
      have both := not_mem_mentionNames_append.mp unused
      .cons (Expr.akin_respell spelled bound.1 both.1) (Expr.akinAll_respell spelled bound.2 both.2)

end

mutual

theorem Expr.findings_respell (spelled : Spelled x y Γ scopes ρ) (inClass : Bool) : ∀ {e : Expr},
    e.Bound ledger scopes → y ∉ mentionNames e.mentions →
    (e.respell ρ).findings (scopes.respell Γ) inClass = e.findings scopes inClass
  | .literal _, _, _ => rfl
  | .unary _ operand _, bound, unused =>
      Expr.findings_respell (e := operand) spelled inClass bound unused
  | .binary _ _ _ _, bound, unused | .logical _ _ _, bound, unused => by
      obtain ⟨unusedLeft, unusedRight⟩ := not_mem_mentionNames_append.mp unused
      rw [Expr.respell, Expr.findings, Expr.findings,
        Expr.findings_respell spelled inClass bound.1 unusedLeft,
        Expr.findings_respell spelled inClass bound.2 unusedRight]
  | .group inner, bound, unused => Expr.findings_respell (e := inner) spelled inClass bound unused
  | .var id name, bound, unused => by
      have ne := ne_of_not_mem_mentionNames unused
      have defined := spelled.isUndefinedHere_respell ne bound.1
      have found := spelled.ofMention_respell ne id
      rw [Expr.respell, Expr.findings, Expr.findings, Ident.respell, defined, found, bound.1]
      rfl
  | .assign id name _, bound, unused => by
      obtain ⟨unusedValue, unusedName⟩ := not_mem_mentionNames_append.mp unused
      have found := spelled.ofMention_respell (ne_of_not_mem_mentionNames unusedName) id
      rw [Expr.respell, Expr.findings, Expr.findings,
        Expr.findings_respell spelled inClass bound.1 unusedValue, Ident.respell, found]
  | .call _ _ _, bound, unused => by
      obtain ⟨unusedCallee, unusedArguments⟩ := not_mem_mentionNames_append.mp unused
      rw [Expr.respell, Expr.findings, Expr.findings,
        Expr.findings_respell spelled inClass bound.1 unusedCallee,
        Expr.findingsAll_respell spelled inClass bound.2 unusedArguments]
  | .get object _, bound, unused =>
      Expr.findings_respell (e := object) spelled inClass bound unused
  | .set _ _ _, bound, unused => by
      obtain ⟨unusedObject, unusedValue⟩ := not_mem_mentionNames_append.mp unused
      rw [Expr.respell, Expr.findings, Expr.findings,
        Expr.findings_respell spelled inClass bound.1 unusedObject,
        Expr.findings_respell spelled inClass bound.2 unusedValue]
  | .selfRef id line, _, unused => by
      have ne : "self" ≠ y := ne_of_not_mem_mentionNames unused
      have found := spelled.ofMention_respell ne id
      rw [spelled.self_eq ne.symm] at found
      rw [Expr.respell, Expr.findings, Expr.findings, found]

theorem Expr.findingsAll_respell (spelled : Spelled x y Γ scopes ρ) (inClass : Bool) :
    ∀ {arguments : List Expr}, Expr.BoundAll ledger scopes arguments →
    y ∉ mentionNames (Expr.mentionsAll arguments) →
    Expr.findingsAll (scopes.respell Γ) inClass (Expr.respellAll ρ arguments) =
      Expr.findingsAll scopes inClass arguments
  | [], _, _ => rfl
  | _ :: _, bound, unused => by
      obtain ⟨unusedFirst, unusedRest⟩ := not_mem_mentionNames_append.mp unused
      rw [Expr.respellAll, Expr.findingsAll, Expr.findingsAll,
        Expr.findings_respell spelled inClass bound.1 unusedFirst,
        Expr.findingsAll_respell spelled inClass bound.2 unusedRest]

end

/-- One expression stands for another among scopes under other names. -/
structure Expr.Counterpart (ledger : Ledger) (Γ : Spellings) (scopes : Scopes) (e e' : Expr) :
    Prop where
  akin : Expr.Akin ledger.twice Γ e e'
  findings_eq : ∀ inClass, e'.findings (scopes.respell Γ) inClass = e.findings scopes inClass

/-- One expression that may be absent stands for another. -/
structure Expr.CounterpartOption (ledger : Ledger) (Γ : Spellings) (scopes : Scopes)
    (value value' : Option Expr) : Prop where
  akin : Expr.AkinOption ledger.twice Γ value value'
  findings_eq : ∀ inClass, Expr.findingsOption (scopes.respell Γ) inClass value' =
    Expr.findingsOption scopes inClass value

theorem Expr.counterpart_respell (spelled : Spelled x y Γ scopes ρ) {e : Expr}
    (bound : e.Bound ledger scopes) (unused : y ∉ mentionNames e.mentions) :
    Expr.Counterpart ledger Γ scopes e (e.respell ρ) :=
  ⟨Expr.akin_respell spelled bound unused,
    fun inClass => Expr.findings_respell spelled inClass bound unused⟩

theorem Expr.counterpartOption_respell (spelled : Spelled x y Γ scopes ρ) {value : Option Expr}
    (bound : Expr.BoundOption ledger scopes value)
    (unused : y ∉ mentionNames (Expr.mentionsOption value)) :
    Expr.CounterpartOption ledger Γ scopes value (Expr.respellOption ρ value) := by
  cases value with
  | none => exact ⟨.none, fun _ => rfl⟩
  | some e =>
      obtain ⟨akin, findings_eq⟩ := Expr.counterpart_respell (e := e) spelled bound unused
      exact ⟨.some akin, findings_eq⟩

/-! ## Statements -/

/-- The findings in the parameters and the body of a routine among the scopes around it. -/
def resolveRoutine (place : Place) (scopes : Scopes) (routine : Routine) : List Finding :=
  (resolveParams ([] :: scopes) routine.params).2 ++
    Stmt.resolveAll place (paramScopes ([] :: scopes) routine.params) routine.body

/-- One statement stands for another among scopes under other names. -/
structure Stmt.Counterpart (ledger : Ledger) (Γ : Spellings) (scopes : Scopes) (s s' : Stmt) :
    Prop where
  akin : Stmt.Akin ledger.twice Γ s s'
  resolve_eq : ∀ place, s'.resolve place (scopes.respell Γ) =
    ((s.behind scopes).respell Γ, (s.resolve place scopes).2)

/-- Statements stand for others, one by one. -/
structure Stmt.CounterpartAll (ledger : Ledger) (Γ : Spellings) (scopes : Scopes)
    (body body' : List Stmt) : Prop where
  akin : Stmt.AkinAll ledger.twice Γ body body'
  resolve_eq : ∀ place, Stmt.resolveAll place (scopes.respell Γ) body' =
    Stmt.resolveAll place scopes body

/-- One routine stands for another. -/
structure RoutineOf.Counterpart (ledger : Ledger) (Γ : Spellings) (scopes : Scopes)
    (routine routine' : Routine) : Prop where
  akin : Stmt.AkinRoutine ledger.twice Γ routine routine'
  resolve_eq : ∀ place, resolveRoutine place (scopes.respell Γ) routine' =
    resolveRoutine place scopes routine

/-- Methods stand for others, one by one. -/
structure Stmt.CounterpartMethods (ledger : Ledger) (Γ : Spellings) (scopes : Scopes)
    (methods methods' : List Routine) : Prop where
  akin : Stmt.AkinMethods ledger.twice Γ methods methods'
  resolve_eq : Stmt.resolveMethods (scopes.respell Γ) methods' =
    Stmt.resolveMethods scopes methods

/-- One loop variable that may be absent stands for another, in the scope of the loop. -/
structure LoopVar.CounterpartOption (ledger : Ledger) (σ : Spelling) (Γ : Spellings)
    (scopes : Scopes) (counter counter' : Option LoopVar) : Prop where
  akin : Option.Rel (LoopVar.Akin ledger.twice (σ :: Γ)) counter counter'
  resolve_eq : ∀ inClass, resolveLoopVar (scopes.respell Γ) inClass counter' =
    ((counterScopes scopes counter).respell (σ :: Γ), (resolveLoopVar scopes inClass counter).2)

namespace Stmt

theorem resolve_function (place : Place) (scopes : Scopes) (routine : Routine) :
    (function routine).resolve place scopes =
      (scopes.mark routine.name.name .defined, Finding.ofDeclaration scopes routine.name ++
        resolveRoutine { place with routine := .routine }
          (scopes.mark routine.name.name .defined) routine) := by
  obtain ⟨name, params, body⟩ := routine
  rw [resolve]
  exact congrArg (Prod.mk _) (List.append_assoc ..)

theorem resolveMethods_cons (scopes : Scopes) (routine : Routine) (rest : List Routine) :
    resolveMethods scopes (routine :: rest) =
      resolveRoutine
          ⟨if routine.name.name = initializerName then .initializer else .routine, true⟩ scopes
          routine ++
        resolveMethods scopes rest := by
  obtain ⟨name, params, body⟩ := routine
  rw [resolveMethods]
  rfl

end Stmt

namespace Stmt.CounterpartAll

theorem nil : CounterpartAll ledger Γ scopes [] [] := ⟨.nil, fun _ => rfl⟩

theorem cons {s s' : Stmt} {rest rest' : List Stmt} (first : s.Counterpart ledger Γ scopes s')
    (others : CounterpartAll ledger Γ (s.behind scopes) rest rest') :
    CounterpartAll ledger Γ scopes (s :: rest) (s' :: rest') where
  akin := .cons first.akin others.akin
  resolve_eq place := by
    rw [resolveAll, first.resolve_eq, resolveAll]
    change _ ++ resolveAll place ((s.behind scopes).respell Γ) rest' =
      _ ++ resolveAll place (s.resolve place scopes).1 rest
    rw [others.resolve_eq, resolve_fst]

end Stmt.CounterpartAll

/-- Parameters are resolved alike under other names, if each is declared once. -/
theorem Spelled.resolveParams_eq {params params' : List Ident}
    (spelled : Spelled x y Γ scopes ρ) (spells : List.Forall₂ Γ.here.Spells params params')
    (distinct : ParamsDistinct scopes params) (unused : y ∉ namesOf params) :
    resolveParams (scopes.respell Γ) params' =
      ((paramScopes scopes params).respell Γ, (resolveParams scopes params).2) := by
  induction spells generalizing scopes ρ with
  | nil => rfl
  | @cons name name' rest rest' here _ ih =>
      obtain ⟨once, distinct⟩ := distinct
      obtain ⟨ne, unused⟩ := not_mem_cons_iff.mp unused
      have marked := spelled.mark (Ne.symm ne) .defined
      have others := ih marked distinct unused
      rw [spelled.mark_respell, ← here.name_eq] at others
      rw [resolveParams, others, resolveParams, spelled.ofDeclaration_respell here once]
      rfl

/-- A routine has a counterpart if its body has one behind the parameters. -/
theorem RoutineOf.Counterpart.mk_body {name : Ident} {params params' : List Ident}
    {body body' : List Stmt} (spelled : Spelled x y (σ :: Γ) ([] :: scopes) ρ)
    (spells : List.Forall₂ σ.Spells params params')
    (distinct : ParamsDistinct ([] :: scopes) params) (unused : y ∉ namesOf params)
    (inner : Stmt.CounterpartAll ledger (σ :: Γ) (paramScopes ([] :: scopes) params) body body') :
    RoutineOf.Counterpart ledger Γ scopes ⟨name, params, body⟩ ⟨name, params', body'⟩ where
  akin := .mk σ spells inner.akin
  resolve_eq place := by
    have own : resolveParams ([] :: scopes.respell Γ) params' = _ :=
      spelled.resolveParams_eq spells distinct unused
    rw [resolveRoutine, paramScopes, own, resolveRoutine, ← inner.resolve_eq]

namespace Stmt.CounterpartMethods

theorem nil : CounterpartMethods ledger Γ scopes [] [] := ⟨.nil, rfl⟩

theorem cons {routine routine' : Routine} {rest rest' : List Routine}
    (first : routine.Counterpart ledger Γ scopes routine')
    (others : CounterpartMethods ledger Γ scopes rest rest') :
    CounterpartMethods ledger Γ scopes (routine :: rest) (routine' :: rest') where
  akin := .cons first.akin others.akin
  resolve_eq := by
    rw [resolveMethods_cons, resolveMethods_cons, first.resolve_eq, others.resolve_eq,
      first.akin.name_eq]

end Stmt.CounterpartMethods

namespace Stmt.Counterpart

variable {value value' : Expr}

theorem expression (inner : value.Counterpart ledger Γ scopes value') :
    Counterpart ledger Γ scopes (.expression value) (.expression value') where
  akin := .expression inner.akin
  resolve_eq place := congrArg (Prod.mk _) (inner.findings_eq place.inClass)

theorem print (inner : value.Counterpart ledger Γ scopes value') :
    Counterpart ledger Γ scopes (.print value) (.print value') where
  akin := .print inner.akin
  resolve_eq place := congrArg (Prod.mk _) (inner.findings_eq place.inClass)

theorem exit (line : Nat) {value value' : Option Expr}
    (inner : Expr.CounterpartOption ledger Γ scopes value value') :
    Counterpart ledger Γ scopes (.exit line value) (.exit line value') where
  akin := .exit line inner.akin
  resolve_eq place := by
    have given : value'.isSome = value.isSome := by
      have akin := inner.akin
      cases akin <;> rfl
    rw [resolve, returnFindings, given, inner.findings_eq]
    rfl

theorem declare (spelled : Spelled x y Γ scopes ρ) {name name' : Ident} (new : name.name ≠ y)
    (spells : Γ.here.Spells name name') (once : scopes.declaresHere name.name = false)
    {initializer initializer' : Option Expr}
    (inner : Expr.CounterpartOption ledger Γ (scopes.mark name.name .declared) initializer
      initializer') :
    Counterpart ledger Γ scopes (.declare name initializer) (.declare name' initializer') where
  akin := .declare spells inner.akin
  resolve_eq place := by
    have marked := spelled.mark new .declared
    rw [resolve, spells.name_eq, ← spelled.mark_respell, ← marked.mark_respell,
      spelled.ofDeclaration_respell spells once, inner.findings_eq]
    rfl

theorem block {body body' : List Stmt}
    (inner : CounterpartAll ledger (σ :: Γ) ([] :: scopes) body body') :
    Counterpart ledger Γ scopes (.block body) (.block body') where
  akin := .block σ inner.akin
  resolve_eq place := congrArg (Prod.mk _) (inner.resolve_eq place)

theorem function (spelled : Spelled x y Γ scopes ρ) {routine routine' : Routine}
    (kept : Γ.here.spell routine.name.name = routine.name.name)
    (once : scopes.declaresHere routine.name.name = false)
    (inner : routine.Counterpart ledger Γ (scopes.mark routine.name.name .defined) routine') :
    Counterpart ledger Γ scopes (.function routine) (.function routine') where
  akin := .function kept inner.akin
  resolve_eq place := by
    have marked := spelled.mark_respell routine.name.name .defined
    rw [kept] at marked
    rw [resolve_function, ← inner.akin.name_eq, ← marked, inner.resolve_eq, resolve_function,
      spelled.ofDeclaration_respell ⟨kept.symm, rfl⟩ once]
    rfl

theorem branch {thenBody thenBody' : List Stmt}
    (condition : value.Counterpart ledger Γ scopes value')
    (inner : CounterpartAll ledger (σ :: Γ) ([] :: scopes) thenBody thenBody') :
    Counterpart ledger Γ scopes (.branch value thenBody none) (.branch value' thenBody' none) where
  akin := .branch σ condition.akin inner.akin .absent
  resolve_eq place := by
    have found : resolveAll place ([] :: scopes.respell Γ) thenBody' = _ := inner.resolve_eq place
    rw [resolve, condition.findings_eq, found]
    rfl

theorem branchElse {τ : Spelling} {thenBody thenBody' elseBody elseBody' : List Stmt}
    (condition : value.Counterpart ledger Γ scopes value')
    (inner : CounterpartAll ledger (σ :: Γ) ([] :: scopes) thenBody thenBody')
    (otherwise : CounterpartAll ledger (τ :: Γ) ([] :: scopes) elseBody elseBody') :
    Counterpart ledger Γ scopes (.branch value thenBody (some elseBody))
      (.branch value' thenBody' (some elseBody')) where
  akin := .branch σ condition.akin inner.akin (.present τ otherwise.akin)
  resolve_eq place := by
    have found : resolveAll place ([] :: scopes.respell Γ) thenBody' = _ := inner.resolve_eq place
    have found' : resolveAll place ([] :: scopes.respell Γ) elseBody' = _ :=
      otherwise.resolve_eq place
    rw [resolve, condition.findings_eq, found, found']
    rfl

theorem loop {τ : Spelling} {counter counter' : Option LoopVar}
    {condition condition' increment increment' : Option Expr} {body body' : List Stmt}
    (counts : LoopVar.CounterpartOption ledger σ Γ scopes counter counter')
    (tests : Expr.CounterpartOption ledger (σ :: Γ) (counterScopes scopes counter) condition
      condition')
    (steps : Expr.CounterpartOption ledger (σ :: Γ) (counterScopes scopes counter) increment
      increment')
    (inner : CounterpartAll ledger (τ :: σ :: Γ) ([] :: counterScopes scopes counter) body body') :
    Counterpart ledger Γ scopes (.loop counter condition increment body)
      (.loop counter' condition' increment' body') where
  akin := .loop σ τ counts.akin tests.akin steps.akin inner.akin
  resolve_eq place := by
    have found :
        resolveAll place ([] :: (counterScopes scopes counter).respell (σ :: Γ)) body' = _ :=
      inner.resolve_eq place
    rw [resolve, counts.resolve_eq]
    dsimp only
    rw [tests.findings_eq, steps.findings_eq, found, resolve, ← resolveLoopVar_fst]
    rfl

theorem classDef (spelled : Spelled x y Γ scopes ρ) {name : Ident} {methods methods' : List Routine}
    (kept : Γ.here.spell name.name = name.name) (once : scopes.declaresHere name.name = false)
    (inner : CounterpartMethods ledger (.same :: Γ)
      ([("self", .defined)] :: scopes.mark name.name .defined) methods methods') :
    Counterpart ledger Γ scopes (.classDef name methods) (.classDef name methods') where
  akin := .classDef kept inner.akin
  resolve_eq place := by
    have marked := spelled.mark_respell name.name .defined
    rw [kept] at marked
    have found : resolveMethods
        ([("self", .defined)] :: (scopes.mark name.name .defined).respell Γ) methods' = _ :=
      inner.resolve_eq
    rw [resolve, ← marked, found, spelled.ofDeclaration_respell ⟨kept.symm, rfl⟩ once]
    rfl

end Stmt.Counterpart

end Rill
