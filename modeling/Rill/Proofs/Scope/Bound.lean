import Rill.Proofs.Scope.Findings

/-!
# Code whose bindings are right

A ledger is the bindings of all code that there is, and the first number that no mention in it has.
Code is bound at some place if the ledger says of its mentions what their scopes say, and if it
keeps the rules that running it relies on: names are declared once in a scope, none is read in its
own first value, and only routines return. What resolution accepts is bound, and stays so when other
code is added to the ledger.
-/

namespace Rill

/-- The bindings of all code, and the least occurrence that no code has. -/
structure Ledger where
  bindings : Bindings
  limit : Occurrence

namespace Ledger

/-- The ledger says of a mention what the scopes around it say. -/
structure Binds (ledger : Ledger) (scopes : Scopes) (id : Occurrence) (name : String) : Prop where
  lt_limit : id < ledger.limit
  getElem?_eq : ledger.bindings[id]? = scopes.depth? name

/-- A ledger that says the same of all code in another one. -/
structure Extends (ledger other : Ledger) : Prop where
  limit_le : ledger.limit ≤ other.limit
  getElem?_eq : ∀ id < ledger.limit, other.bindings[id]? = ledger.bindings[id]?

theorem Extends.refl (ledger : Ledger) : ledger.Extends ledger :=
  ⟨Nat.le_refl _, fun _ _ => rfl⟩

theorem Extends.trans {first second third : Ledger} (former : first.Extends second)
    (latter : second.Extends third) : first.Extends third where
  limit_le := Nat.le_trans former.limit_le latter.limit_le
  getElem?_eq := by
    intro id below
    rw [latter.getElem?_eq id (Nat.lt_of_lt_of_le below former.limit_le),
      former.getElem?_eq id below]

theorem Binds.extend {ledger other : Ledger} {scopes : Scopes} {id : Occurrence} {name : String}
    (binds : ledger.Binds scopes id name) (extends_ : ledger.Extends other) :
    other.Binds scopes id name where
  lt_limit := Nat.lt_of_lt_of_le binds.lt_limit extends_.limit_le
  getElem?_eq := by
    rw [extends_.getElem?_eq id binds.lt_limit]
    exact binds.getElem?_eq

end Ledger

/-! ## Scopes without unfinished declarations -/

theorem Scope.status?_cons (scope : Scope) (name other : String) (status : Status) :
    Scope.status? ((name, status) :: scope) other =
      if other = name then some status else scope.status? other := by
  rw [Scope.status?, List.lookup_cons]
  by_cases same : other = name
  · rw [if_pos same, beq_iff_eq.mpr same]
  · rw [if_neg same, beq_eq_false_iff_ne.mpr same]
    rfl

namespace Scopes

variable {scopes : Scopes} {name : String}

/-- Every name that the innermost scope declares is defined. -/
def Settled (scopes : Scopes) : Prop := ∀ name, scopes.isUndefinedHere name = false

theorem settled_nil : Settled [] := fun _ => rfl

theorem settled_empty (outer : Scopes) : Settled ([] :: outer) := fun _ => rfl

theorem isUndefinedHere_cons {scope : Scope} {outer : Scopes} :
    Scopes.isUndefinedHere (scope :: outer) name = false ↔
      scope.status? name ≠ some .declared := by
  rw [Scopes.isUndefinedHere, decide_eq_false_iff_not]

theorem Settled.mark (settled : scopes.Settled) (name : String) :
    (scopes.mark name .defined).Settled := by
  intro other
  cases scopes with
  | nil => rfl
  | cons scope outer =>
      rw [Scopes.mark, isUndefinedHere_cons, Scope.status?_cons]
      split
      · simp
      · exact isUndefinedHere_cons.mp (settled other)

/-- Defining a name finishes its declaration. -/
theorem Settled.mark_mark (settled : scopes.Settled) (name : String) :
    ((scopes.mark name .declared).mark name .defined).Settled := by
  intro other
  cases scopes with
  | nil => rfl
  | cons scope outer =>
      rw [Scopes.mark, Scopes.mark, isUndefinedHere_cons, Scope.status?_cons, Scope.status?_cons]
      split
      · simp
      · exact isUndefinedHere_cons.mp (settled other)

end Scopes

/-! ## Bound code -/

namespace Expr

mutual

/-- An expression is bound among scopes. -/
def Bound (ledger : Ledger) (scopes : Scopes) : Expr → Prop
  | literal _ => True
  | unary _ operand _ => operand.Bound ledger scopes
  | binary left _ right _ => left.Bound ledger scopes ∧ right.Bound ledger scopes
  | logical left _ right => left.Bound ledger scopes ∧ right.Bound ledger scopes
  | group inner => inner.Bound ledger scopes
  | var id name => scopes.isUndefinedHere name.name = false ∧ ledger.Binds scopes id name.name
  | assign id name value => value.Bound ledger scopes ∧ ledger.Binds scopes id name.name
  | call callee arguments _ => callee.Bound ledger scopes ∧ BoundAll ledger scopes arguments
  | get object _ => object.Bound ledger scopes
  | set object _ value => object.Bound ledger scopes ∧ value.Bound ledger scopes
  | selfRef id _ => ledger.Binds scopes id "self"

/-- Expressions are bound among scopes. -/
def BoundAll (ledger : Ledger) (scopes : Scopes) : List Expr → Prop
  | [] => True
  | e :: rest => e.Bound ledger scopes ∧ BoundAll ledger scopes rest

end

/-- An expression that may be absent is bound among scopes. -/
def BoundOption (ledger : Ledger) (scopes : Scopes) : Option Expr → Prop
  | some e => e.Bound ledger scopes
  | none => True

end Expr

/-- The scopes behind the parameters of a routine. -/
def paramScopes (scopes : Scopes) (params : List Ident) : Scopes := (resolveParams scopes params).1

/-- No parameter is declared twice. -/
def ParamsDistinct (scopes : Scopes) : List Ident → Prop
  | [] => True
  | name :: rest =>
    scopes.declaresHere name.name = false ∧ ParamsDistinct (scopes.mark name.name .defined) rest

/-- The scopes behind the variable of a loop. -/
def counterScopes (scopes : Scopes) (counter : Option LoopVar) : Scopes :=
  (resolveLoopVar scopes false counter).1

/-- The variable of a loop is bound. It has its scope to itself. -/
def LoopVar.BoundOption (ledger : Ledger) (scopes : Scopes) : Option LoopVar → Prop
  | some counter => counter.name.name ≠ "self" ∧
      counter.value.Bound ledger (Scopes.mark counter.name.name .declared ([] :: scopes))
  | none => True

namespace Stmt

/-- The scopes behind a statement. -/
def behind (scopes : Scopes) (s : Stmt) : Scopes := (s.resolve ⟨.outside, false⟩ scopes).1

/-- Outside all scopes, declarations open none. -/
theorem behind_nil (s : Stmt) : s.behind [] = [] := by
  cases s with
  | branch _ _ elseBody => cases elseBody <;> rfl
  | _ => rfl

mutual

/-- A statement is bound among scopes, in a routine or outside of all. -/
def Bound (ledger : Ledger) (inRoutine : Bool) (scopes : Scopes) : Stmt → Prop
  | expression value => value.Bound ledger scopes
  | print value => value.Bound ledger scopes
  | declare name initializer => scopes.declaresHere name.name = false ∧ name.name ≠ "self" ∧
      Expr.BoundOption ledger (scopes.mark name.name .declared) initializer
  | block body => BoundAll ledger inRoutine ([] :: scopes) body
  | function ⟨name, params, body⟩ => scopes.declaresHere name.name = false ∧
      ParamsDistinct ([] :: scopes.mark name.name .defined) params ∧
      BoundAll ledger true (paramScopes ([] :: scopes.mark name.name .defined) params) body
  | branch condition thenBody elseBody => condition.Bound ledger scopes ∧
      BoundAll ledger inRoutine ([] :: scopes) thenBody ∧
      match elseBody with
      | none => True
      | some body => BoundAll ledger inRoutine ([] :: scopes) body
  | loop counter condition increment body => LoopVar.BoundOption ledger scopes counter ∧
      Expr.BoundOption ledger (counterScopes scopes counter) condition ∧
      Expr.BoundOption ledger (counterScopes scopes counter) increment ∧
      BoundAll ledger inRoutine ([] :: counterScopes scopes counter) body
  | exit _ value => inRoutine = true ∧ Expr.BoundOption ledger scopes value
  | classDef name methods => scopes.declaresHere name.name = false ∧
      BoundMethods ledger ([("self", .defined)] :: scopes.mark name.name .defined) methods

/-- Statements that share a scope are bound. -/
def BoundAll (ledger : Ledger) (inRoutine : Bool) (scopes : Scopes) : List Stmt → Prop
  | [] => True
  | s :: rest => s.Bound ledger inRoutine scopes ∧ BoundAll ledger inRoutine (s.behind scopes) rest

/-- Methods are bound, among scopes of which the innermost holds `self`. -/
def BoundMethods (ledger : Ledger) (scopes : Scopes) : List Routine → Prop
  | [] => True
  | ⟨_, params, body⟩ :: rest => ParamsDistinct ([] :: scopes) params ∧
      BoundAll ledger true (paramScopes ([] :: scopes) params) body ∧
      BoundMethods ledger scopes rest

end

end Stmt

/-- A routine is bound among the scopes around it. -/
def RoutineOf.Bound (ledger : Ledger) (scopes : Scopes) (r : Routine) : Prop :=
  ParamsDistinct ([] :: scopes) r.params ∧
    Stmt.BoundAll ledger true (paramScopes ([] :: scopes) r.params) r.body

theorem Stmt.bound_function {ledger : Ledger} {inRoutine : Bool} {scopes : Scopes} {r : Routine} :
    (Stmt.function r).Bound ledger inRoutine scopes ↔
      scopes.declaresHere r.name.name = false ∧
        r.Bound ledger (scopes.mark r.name.name .defined) := by
  obtain ⟨name, params, body⟩ := r
  rw [Stmt.Bound]
  rfl

theorem Stmt.bound_branch {ledger : Ledger} {inRoutine : Bool} {scopes : Scopes} {condition : Expr}
    {thenBody : List Stmt} {elseBody : Option (List Stmt)} :
    (Stmt.branch condition thenBody elseBody).Bound ledger inRoutine scopes ↔
      condition.Bound ledger scopes ∧ Stmt.BoundAll ledger inRoutine ([] :: scopes) thenBody ∧
        ∀ body, elseBody = some body → Stmt.BoundAll ledger inRoutine ([] :: scopes) body := by
  cases elseBody with
  | none => simp [Stmt.Bound]
  | some body => simp [Stmt.Bound]

theorem Stmt.boundMethods_cons {ledger : Ledger} {scopes : Scopes} {r : Routine}
    {rest : List Routine} :
    Stmt.BoundMethods ledger scopes (r :: rest) ↔
      r.Bound ledger scopes ∧ Stmt.BoundMethods ledger scopes rest := by
  obtain ⟨name, params, body⟩ := r
  rw [Stmt.BoundMethods]
  exact and_assoc.symm

/-! ## More code -/

variable {ledger other : Ledger}

mutual

theorem Expr.Bound.extend (extends_ : ledger.Extends other) : ∀ {e : Expr} {scopes : Scopes},
    e.Bound ledger scopes → e.Bound other scopes
  | .literal _, _, _ => trivial
  | .unary _ operand _, _, bound => Expr.Bound.extend extends_ (e := operand) bound
  | .binary _ _ _ _, _, bound | .logical _ _ _, _, bound =>
      ⟨Expr.Bound.extend extends_ bound.1, Expr.Bound.extend extends_ bound.2⟩
  | .group inner, _, bound => Expr.Bound.extend extends_ (e := inner) bound
  | .var _ _, _, bound => ⟨bound.1, bound.2.extend extends_⟩
  | .assign _ _ _, _, bound => ⟨Expr.Bound.extend extends_ bound.1, bound.2.extend extends_⟩
  | .call _ _ _, _, bound =>
      ⟨Expr.Bound.extend extends_ bound.1, Expr.BoundAll.extend extends_ bound.2⟩
  | .get object _, _, bound => Expr.Bound.extend extends_ (e := object) bound
  | .set _ _ _, _, bound => ⟨Expr.Bound.extend extends_ bound.1, Expr.Bound.extend extends_ bound.2⟩
  | .selfRef _ _, _, bound => Ledger.Binds.extend bound extends_

theorem Expr.BoundAll.extend (extends_ : ledger.Extends other) :
    ∀ {arguments : List Expr} {scopes : Scopes},
    Expr.BoundAll ledger scopes arguments → Expr.BoundAll other scopes arguments
  | [], _, _ => trivial
  | _ :: _, _, bound => ⟨Expr.Bound.extend extends_ bound.1, Expr.BoundAll.extend extends_ bound.2⟩

end

theorem Expr.BoundOption.extend (extends_ : ledger.Extends other) {value : Option Expr}
    {scopes : Scopes}
    (bound : Expr.BoundOption ledger scopes value) : Expr.BoundOption other scopes value := by
  cases value with
  | none => trivial
  | some e => exact Expr.Bound.extend extends_ bound

theorem LoopVar.BoundOption.extend (extends_ : ledger.Extends other) {counter : Option LoopVar}
    {scopes : Scopes}
    (bound : LoopVar.BoundOption ledger scopes counter) :
    LoopVar.BoundOption other scopes counter := by
  cases counter with
  | none => trivial
  | some counter => exact ⟨bound.1, Expr.Bound.extend extends_ bound.2⟩

mutual

theorem Stmt.Bound.extend (extends_ : ledger.Extends other) :
    ∀ {s : Stmt} {inRoutine : Bool} {scopes : Scopes},
    s.Bound ledger inRoutine scopes → s.Bound other inRoutine scopes
  | .expression _, _, _, bound => Expr.Bound.extend extends_ bound
  | .print _, _, _, bound => Expr.Bound.extend extends_ bound
  | .declare _ _, _, _, bound => ⟨bound.1, bound.2.1, Expr.BoundOption.extend extends_ bound.2.2⟩
  | .block _, _, _, bound => Stmt.BoundAll.extend extends_ bound
  | .function ⟨_, _, _⟩, _, _, bound =>
      ⟨bound.1, bound.2.1, Stmt.BoundAll.extend extends_ bound.2.2⟩
  | .branch _ _ none, _, _, bound =>
      ⟨Expr.Bound.extend extends_ bound.1, Stmt.BoundAll.extend extends_ bound.2.1, trivial⟩
  | .branch _ _ (some _), _, _, bound =>
      ⟨Expr.Bound.extend extends_ bound.1, Stmt.BoundAll.extend extends_ bound.2.1,
        Stmt.BoundAll.extend extends_ bound.2.2⟩
  | .loop _ _ _ _, _, _, bound =>
      ⟨LoopVar.BoundOption.extend extends_ bound.1, Expr.BoundOption.extend extends_ bound.2.1,
        Expr.BoundOption.extend extends_ bound.2.2.1, Stmt.BoundAll.extend extends_ bound.2.2.2⟩
  | .exit _ _, _, _, bound => ⟨bound.1, Expr.BoundOption.extend extends_ bound.2⟩
  | .classDef _ _, _, _, bound => ⟨bound.1, Stmt.BoundMethods.extend extends_ bound.2⟩

theorem Stmt.BoundAll.extend (extends_ : ledger.Extends other) :
    ∀ {body : List Stmt} {inRoutine : Bool} {scopes : Scopes},
    Stmt.BoundAll ledger inRoutine scopes body → Stmt.BoundAll other inRoutine scopes body
  | [], _, _, _ => trivial
  | _ :: _, _, _, bound =>
      ⟨Stmt.Bound.extend extends_ bound.1, Stmt.BoundAll.extend extends_ bound.2⟩

theorem Stmt.BoundMethods.extend (extends_ : ledger.Extends other) :
    ∀ {methods : List Routine} {scopes : Scopes},
    Stmt.BoundMethods ledger scopes methods → Stmt.BoundMethods other scopes methods
  | [], _, _ => trivial
  | ⟨_, _, _⟩ :: _, _, bound =>
      ⟨bound.1, Stmt.BoundAll.extend extends_ bound.2.1,
        Stmt.BoundMethods.extend extends_ bound.2.2⟩

end

theorem RoutineOf.Bound.extend (extends_ : ledger.Extends other) {r : Routine} {scopes : Scopes}
    (bound : r.Bound ledger scopes) : r.Bound other scopes :=
  ⟨bound.1, Stmt.BoundAll.extend extends_ bound.2⟩

/-! ## Numbers of bound code -/

/-- Mentions have numbers that the ledger knows. -/
def Ledger.Knows (ledger : Ledger) (mentions : List Mention) : Prop :=
  ∀ id ∈ mentionIds mentions, id < ledger.limit

theorem Ledger.knows_append {first second : List Mention} :
    ledger.Knows (first ++ second) ↔ ledger.Knows first ∧ ledger.Knows second := by
  unfold Ledger.Knows
  rw [mentionIds_append, List.forall_mem_append]

theorem Ledger.knows_nil : ledger.Knows [] := fun _ present => absurd present List.not_mem_nil

theorem Ledger.Binds.knows {scopes : Scopes} {id : Occurrence} {name : String}
    (binds : ledger.Binds scopes id name) (kind : MentionKind) (ident : Ident) :
    ledger.Knows [⟨id, kind, ident⟩] := by
  intro other present
  rw [List.mem_singleton.mp present]
  exact binds.lt_limit

mutual

theorem Expr.Bound.knows : ∀ {e : Expr} {scopes : Scopes}, e.Bound ledger scopes →
    ledger.Knows e.mentions
  | .literal _, _, _ => Ledger.knows_nil
  | .unary _ operand _, _, bound => Expr.Bound.knows (e := operand) bound
  | .binary _ _ _ _, _, bound | .logical _ _ _, _, bound =>
      Ledger.knows_append.mpr ⟨Expr.Bound.knows bound.1, Expr.Bound.knows bound.2⟩
  | .group inner, _, bound => Expr.Bound.knows (e := inner) bound
  | .var _ _, _, bound => bound.2.knows _ _
  | .assign _ _ _, _, bound =>
      Ledger.knows_append.mpr ⟨Expr.Bound.knows bound.1, bound.2.knows _ _⟩
  | .call _ _ _, _, bound =>
      Ledger.knows_append.mpr ⟨Expr.Bound.knows bound.1, Expr.BoundAll.knows bound.2⟩
  | .get object _, _, bound => Expr.Bound.knows (e := object) bound
  | .set _ _ _, _, bound =>
      Ledger.knows_append.mpr ⟨Expr.Bound.knows bound.1, Expr.Bound.knows bound.2⟩
  | .selfRef _ _, _, bound => Ledger.Binds.knows bound _ _

theorem Expr.BoundAll.knows : ∀ {arguments : List Expr} {scopes : Scopes},
    Expr.BoundAll ledger scopes arguments → ledger.Knows (Expr.mentionsAll arguments)
  | [], _, _ => Ledger.knows_nil
  | _ :: _, _, bound =>
      Ledger.knows_append.mpr ⟨Expr.Bound.knows bound.1, Expr.BoundAll.knows bound.2⟩

end

theorem Expr.BoundOption.knows {value : Option Expr} {scopes : Scopes}
    (bound : Expr.BoundOption ledger scopes value) :
    ledger.Knows (Expr.mentionsOption value) := by
  cases value with
  | none => exact Ledger.knows_nil
  | some e => exact Expr.Bound.knows bound

theorem LoopVar.BoundOption.knows {counter : Option LoopVar} {scopes : Scopes}
    (bound : LoopVar.BoundOption ledger scopes counter) :
    ledger.Knows (LoopVar.mentionsOption counter) := by
  cases counter with
  | none => exact Ledger.knows_nil
  | some counter => exact Expr.Bound.knows bound.2

mutual

theorem Stmt.Bound.knows : ∀ {s : Stmt} {inRoutine : Bool} {scopes : Scopes},
    s.Bound ledger inRoutine scopes → ledger.Knows s.mentions
  | .expression _, _, _, bound | .print _, _, _, bound => Expr.Bound.knows bound
  | .declare _ _, _, _, bound => Expr.BoundOption.knows bound.2.2
  | .block _, _, _, bound => Stmt.BoundAll.knows bound
  | .function ⟨_, _, _⟩, _, _, bound => Stmt.BoundAll.knows bound.2.2
  | .branch _ _ none, _, _, bound =>
      Ledger.knows_append.mpr ⟨Expr.Bound.knows bound.1, Stmt.BoundAll.knows bound.2.1⟩
  | .branch _ _ (some _), _, _, bound =>
      Ledger.knows_append.mpr ⟨Ledger.knows_append.mpr ⟨Expr.Bound.knows bound.1,
        Stmt.BoundAll.knows bound.2.1⟩, Stmt.BoundAll.knows bound.2.2⟩
  | .loop _ _ _ _, _, _, bound =>
      Ledger.knows_append.mpr ⟨Ledger.knows_append.mpr ⟨Ledger.knows_append.mpr
        ⟨LoopVar.BoundOption.knows bound.1, Expr.BoundOption.knows bound.2.1⟩,
        Expr.BoundOption.knows bound.2.2.1⟩, Stmt.BoundAll.knows bound.2.2.2⟩
  | .exit _ _, _, _, bound => Expr.BoundOption.knows bound.2
  | .classDef _ _, _, _, bound => Stmt.BoundMethods.knows bound.2

theorem Stmt.BoundAll.knows : ∀ {body : List Stmt} {inRoutine : Bool} {scopes : Scopes},
    Stmt.BoundAll ledger inRoutine scopes body → ledger.Knows (Stmt.mentionsAll body)
  | [], _, _, _ => Ledger.knows_nil
  | _ :: _, _, _, bound =>
      Ledger.knows_append.mpr ⟨Stmt.Bound.knows bound.1, Stmt.BoundAll.knows bound.2⟩

theorem Stmt.BoundMethods.knows : ∀ {methods : List Routine} {scopes : Scopes},
    Stmt.BoundMethods ledger scopes methods → ledger.Knows (Stmt.mentionsMethods methods)
  | [], _, _ => Ledger.knows_nil
  | ⟨_, _, _⟩ :: _, _, bound =>
      Ledger.knows_append.mpr ⟨Stmt.BoundAll.knows bound.2.1, Stmt.BoundMethods.knows bound.2.2⟩

end

end Rill
