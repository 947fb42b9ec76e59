import Rill.Proofs.Scope.Bound
import Mathlib.Data.List.Forall2

/-!
# Akin code

Two pieces of code are akin if nothing but the numbers of mentions and the spelling of local names
tells them apart. Every scope has a spelling of its own for the names declared in it. A mention has
the binding of its counterpart, and the name of its counterpart in the spelling of the scope that
the binding leads to. Globals, classes and functions, and all that stands behind a dot, are spelled
as they are.
-/

namespace Rill

/-! ## Spellings -/

/-- A way to spell names, which keeps different names apart and leaves `self` as it is. -/
structure Spelling where
  spell : String → String
  injective : ∀ {name other : String}, spell name = spell other → name = other
  self_eq : spell "self" = "self"

namespace Spelling

/-- Every name is spelled as it is. -/
def same : Spelling := ⟨id, fun equal => equal, rfl⟩

/-- A name is that of another one in some spelling, and stands on the same line. -/
structure Spells (ρ : Spelling) (name name' : Ident) : Prop where
  name_eq : name'.name = ρ.spell name.name
  line_eq : name'.line = name.line

theorem spells_same (name : Ident) : same.Spells name name := ⟨rfl, rfl⟩

end Spelling

/-- The spellings of the scopes around a place, innermost first. All others are as they are. -/
abbrev Spellings := List Spelling

namespace Spellings

/-- The spelling of the scope that a binding leads to. Without one, a name is global. -/
def bound (Γ : Spellings) : Option Nat → Spelling
  | some depth => Γ.getD depth .same
  | none => .same

/-- The spelling of the innermost scope. -/
def here (Γ : Spellings) : Spelling := Γ.getD 0 .same

theorem here_cons (ρ : Spelling) (Γ : Spellings) : here (ρ :: Γ) = ρ := rfl

theorem here_drop (Γ : Spellings) (depth : Nat) : here (Γ.drop depth) = Γ.bound (some depth) := by
  rw [here, bound, List.getD_eq_getElem?_getD, List.getD_eq_getElem?_getD, List.getElem?_drop,
    Nat.add_zero]

end Spellings

/-- The code of two machines. -/
structure Ledgers where
  first : Ledger
  second : Ledger

/-- Two mentions are known on their sides and have the same binding. -/
structure Ledgers.Matches (l : Ledgers) (id id' : Occurrence) : Prop where
  lt_limit : id < l.first.limit
  lt_limit' : id' < l.second.limit
  getElem?_eq : l.first.bindings[id]? = l.second.bindings[id']?

/-- How a name is spelled where a mention with some number refers to it. -/
def Ledgers.spelling (l : Ledgers) (Γ : Spellings) (id : Occurrence) : Spelling :=
  Γ.bound l.first.bindings[id]?

/-! ## Trees -/

variable (l : Ledgers)

mutual

/-- Two expressions are akin. -/
inductive Expr.Akin (Γ : Spellings) : Expr → Expr → Prop
  | literal (value : Literal) : Akin Γ (.literal value) (.literal value)
  | unary {operand operand' : Expr} (operator : UnaryOp) (line : Nat) : Akin Γ operand operand' →
      Akin Γ (.unary operator operand line) (.unary operator operand' line)
  | binary {left left' right right' : Expr} (operator : BinaryOp) (line : Nat) :
      Akin Γ left left' → Akin Γ right right' →
      Akin Γ (.binary left operator right line) (.binary left' operator right' line)
  | logical {left left' right right' : Expr} (operator : LogicalOp) :
      Akin Γ left left' → Akin Γ right right' →
      Akin Γ (.logical left operator right) (.logical left' operator right')
  | group {inner inner' : Expr} : Akin Γ inner inner' → Akin Γ (.group inner) (.group inner')
  | var {id id' : Occurrence} {name name' : Ident} : l.Matches id id' →
      (l.spelling Γ id).Spells name name' → Akin Γ (.var id name) (.var id' name')
  | assign {id id' : Occurrence} {name name' : Ident} {value value' : Expr} : l.Matches id id' →
      (l.spelling Γ id).Spells name name' → Akin Γ value value' →
      Akin Γ (.assign id name value) (.assign id' name' value')
  | call {callee callee' : Expr} {arguments arguments' : List Expr} (line : Nat) :
      Akin Γ callee callee' → AkinAll Γ arguments arguments' →
      Akin Γ (.call callee arguments line) (.call callee' arguments' line)
  | get {object object' : Expr} (name : Ident) : Akin Γ object object' →
      Akin Γ (.get object name) (.get object' name)
  | set {object object' value value' : Expr} (name : Ident) :
      Akin Γ object object' → Akin Γ value value' →
      Akin Γ (.set object name value) (.set object' name value')
  | selfRef {id id' : Occurrence} (line : Nat) : l.Matches id id' →
      Akin Γ (.selfRef id line) (.selfRef id' line)

/-- Expressions are akin, one by one. -/
inductive Expr.AkinAll (Γ : Spellings) : List Expr → List Expr → Prop
  | nil : AkinAll Γ [] []
  | cons {e e' : Expr} {rest rest' : List Expr} : Expr.Akin Γ e e' → AkinAll Γ rest rest' →
      AkinAll Γ (e :: rest) (e' :: rest')

end

/-- Two expressions that may be absent are akin. -/
abbrev Expr.AkinOption (Γ : Spellings) : Option Expr → Option Expr → Prop :=
  Option.Rel (Expr.Akin l Γ)

/-- Two variables of loops are akin. They have their scope to themselves. -/
structure LoopVar.Akin (Γ : Spellings) (counter counter' : LoopVar) : Prop where
  name : Γ.here.Spells counter.name counter'.name
  value : Expr.Akin l Γ counter.value counter'.value

mutual

/-- Two statements are akin. -/
inductive Stmt.Akin : Spellings → Stmt → Stmt → Prop
  | expression {Γ : Spellings} {value value' : Expr} : Expr.Akin l Γ value value' →
      Akin Γ (.expression value) (.expression value')
  | print {Γ : Spellings} {value value' : Expr} : Expr.Akin l Γ value value' →
      Akin Γ (.print value) (.print value')
  | declare {Γ : Spellings} {name name' : Ident} {initializer initializer' : Option Expr} :
      Γ.here.Spells name name' → Expr.AkinOption l Γ initializer initializer' →
      Akin Γ (.declare name initializer) (.declare name' initializer')
  | block {Γ : Spellings} {body body' : List Stmt} (ρ : Spelling) : AkinAll (ρ :: Γ) body body' →
      Akin Γ (.block body) (.block body')
  | function {Γ : Spellings} {routine routine' : Routine} :
      Γ.here.spell routine.name.name = routine.name.name → AkinRoutine Γ routine routine' →
      Akin Γ (.function routine) (.function routine')
  | branch {Γ : Spellings} {condition condition' : Expr} {thenBody thenBody' : List Stmt}
      {elseBody elseBody' : Option (List Stmt)} (ρ : Spelling) :
      Expr.Akin l Γ condition condition' → AkinAll (ρ :: Γ) thenBody thenBody' →
      AkinElse Γ elseBody elseBody' →
      Akin Γ (.branch condition thenBody elseBody) (.branch condition' thenBody' elseBody')
  | loop {Γ : Spellings} {counter counter' : Option LoopVar}
      {condition condition' increment increment' : Option Expr} {body body' : List Stmt}
      (ρ σ : Spelling) : Option.Rel (LoopVar.Akin l (ρ :: Γ)) counter counter' →
      Expr.AkinOption l (ρ :: Γ) condition condition' →
      Expr.AkinOption l (ρ :: Γ) increment increment' → AkinAll (σ :: ρ :: Γ) body body' →
      Akin Γ (.loop counter condition increment body) (.loop counter' condition' increment' body')
  | exit {Γ : Spellings} {value value' : Option Expr} (line : Nat) :
      Expr.AkinOption l Γ value value' → Akin Γ (.exit line value) (.exit line value')
  | classDef {Γ : Spellings} {methods methods' : List Routine} {name : Ident} :
      Γ.here.spell name.name = name.name → AkinMethods (.same :: Γ) methods methods' →
      Akin Γ (.classDef name methods) (.classDef name methods')

/-- Statements are akin, one by one. -/
inductive Stmt.AkinAll : Spellings → List Stmt → List Stmt → Prop
  | nil {Γ : Spellings} : AkinAll Γ [] []
  | cons {Γ : Spellings} {s s' : Stmt} {rest rest' : List Stmt} : Stmt.Akin Γ s s' →
      AkinAll Γ rest rest' → AkinAll Γ (s :: rest) (s' :: rest')

/-- What stands behind `else` is akin, or absent in both. -/
inductive Stmt.AkinElse : Spellings → Option (List Stmt) → Option (List Stmt) → Prop
  | absent {Γ : Spellings} : AkinElse Γ none none
  | present {Γ : Spellings} {body body' : List Stmt} (ρ : Spelling) :
      Stmt.AkinAll (ρ :: Γ) body body' → AkinElse Γ (some body) (some body')

/-- Methods are akin, one by one. -/
inductive Stmt.AkinMethods : Spellings → List Routine → List Routine → Prop
  | nil {Γ : Spellings} : AkinMethods Γ [] []
  | cons {Γ : Spellings} {routine routine' : Routine} {rest rest' : List Routine} :
      Stmt.AkinRoutine Γ routine routine' → AkinMethods Γ rest rest' →
      AkinMethods Γ (routine :: rest) (routine' :: rest')

/-- Two routines are akin. Parameters and body share one scope. -/
inductive Stmt.AkinRoutine : Spellings → Routine → Routine → Prop
  | mk {Γ : Spellings} {name : Ident} {params params' : List Ident} {body body' : List Stmt}
      (ρ : Spelling) : List.Forall₂ ρ.Spells params params' → Stmt.AkinAll (ρ :: Γ) body body' →
      AkinRoutine Γ ⟨name, params, body⟩ ⟨name, params', body'⟩

end

variable {l}

namespace Stmt.AkinRoutine

variable {Γ : Spellings} {routine routine' : Routine}

theorem name_eq (akin : Stmt.AkinRoutine l Γ routine routine') : routine.name = routine'.name := by
  cases akin
  rfl

/-- Parameters and body of the two are akin in one scope. -/
theorem parts (akin : Stmt.AkinRoutine l Γ routine routine') :
    ∃ ρ : Spelling, List.Forall₂ ρ.Spells routine.params routine'.params ∧
      Stmt.AkinAll l (ρ :: Γ) routine.body routine'.body := by
  cases akin with
  | mk ρ params body => exact ⟨ρ, params, body⟩

theorem length_eq (akin : Stmt.AkinRoutine l Γ routine routine') :
    routine.params.length = routine'.params.length := by
  obtain ⟨ρ, params, _⟩ := akin.parts
  exact params.length_eq

end Stmt.AkinRoutine

/-! ## More code -/

namespace Ledgers

/-- The code on both sides and more of it. -/
structure Extends (l k : Ledgers) : Prop where
  first : l.first.Extends k.first
  second : l.second.Extends k.second

variable {k : Ledgers} {Γ : Spellings} {id id' : Occurrence} {name name' : Ident}

theorem Matches.extend (matched : l.Matches id id') (extends_ : l.Extends k) :
    k.Matches id id' where
  lt_limit := Nat.lt_of_lt_of_le matched.lt_limit extends_.first.limit_le
  lt_limit' := Nat.lt_of_lt_of_le matched.lt_limit' extends_.second.limit_le
  getElem?_eq := by
    rw [extends_.first.getElem?_eq id matched.lt_limit,
      extends_.second.getElem?_eq id' matched.lt_limit', matched.getElem?_eq]

/-- A mention that is known goes on to be spelled as it was. -/
theorem Matches.spells_extend (matched : l.Matches id id') (extends_ : l.Extends k)
    (spells : (l.spelling Γ id).Spells name name') : (k.spelling Γ id).Spells name name' := by
  rw [spelling, extends_.first.getElem?_eq id matched.lt_limit]
  exact spells

end Ledgers

variable {k : Ledgers}

mutual

theorem Expr.Akin.extend (extends_ : l.Extends k) {Γ : Spellings} :
    ∀ {e e' : Expr}, Expr.Akin l Γ e e' → Expr.Akin k Γ e e'
  | _, _, .literal value => .literal value
  | _, _, .unary operator line operand => .unary operator line (operand.extend extends_)
  | _, _, .binary operator line left right =>
      .binary operator line (left.extend extends_) (right.extend extends_)
  | _, _, .logical operator left right =>
      .logical operator (left.extend extends_) (right.extend extends_)
  | _, _, .group inner => .group (inner.extend extends_)
  | _, _, .var matched spells =>
      .var (matched.extend extends_) (matched.spells_extend extends_ spells)
  | _, _, .assign matched spells value =>
      .assign (matched.extend extends_) (matched.spells_extend extends_ spells)
        (value.extend extends_)
  | _, _, .call line callee arguments =>
      .call line (callee.extend extends_) (arguments.extend extends_)
  | _, _, .get name object => .get name (object.extend extends_)
  | _, _, .set name object value => .set name (object.extend extends_) (value.extend extends_)
  | _, _, .selfRef line matched => .selfRef line (matched.extend extends_)

theorem Expr.AkinAll.extend (extends_ : l.Extends k) {Γ : Spellings} :
    ∀ {arguments arguments' : List Expr},
    Expr.AkinAll l Γ arguments arguments' → Expr.AkinAll k Γ arguments arguments'
  | _, _, .nil => .nil
  | _, _, .cons e rest => .cons (e.extend extends_) (rest.extend extends_)

end

theorem Expr.AkinOption.extend (extends_ : l.Extends k) {Γ : Spellings}
    {value value' : Option Expr} (akin : Expr.AkinOption l Γ value value') :
    Expr.AkinOption k Γ value value' := by
  cases akin with
  | some akin => exact .some (akin.extend extends_)
  | none => exact .none

theorem LoopVar.Akin.extend (extends_ : l.Extends k) {Γ : Spellings}
    {counter counter' : Option LoopVar} (akin : Option.Rel (LoopVar.Akin l Γ) counter counter') :
    Option.Rel (LoopVar.Akin k Γ) counter counter' := by
  cases akin with
  | some akin => exact .some ⟨akin.name, akin.value.extend extends_⟩
  | none => exact .none

mutual

theorem Stmt.Akin.extend (extends_ : l.Extends k) : ∀ {Γ : Spellings} {s s' : Stmt},
    Stmt.Akin l Γ s s' → Stmt.Akin k Γ s s'
  | _, _, _, .expression value => .expression (value.extend extends_)
  | _, _, _, .print value => .print (value.extend extends_)
  | _, _, _, .declare name initializer =>
      .declare name (Expr.AkinOption.extend extends_ initializer)
  | _, _, _, .block ρ body => .block ρ (body.extend extends_)
  | _, _, _, .function kept routine => .function kept (routine.extend extends_)
  | _, _, _, .branch ρ condition thenBody elseBody =>
      .branch ρ (condition.extend extends_) (thenBody.extend extends_) (elseBody.extend extends_)
  | _, _, _, .loop ρ σ counter condition increment body =>
      .loop ρ σ (LoopVar.Akin.extend extends_ counter) (Expr.AkinOption.extend extends_ condition)
        (Expr.AkinOption.extend extends_ increment) (body.extend extends_)
  | _, _, _, .exit line value => .exit line (Expr.AkinOption.extend extends_ value)
  | _, _, _, .classDef kept methods => .classDef kept (methods.extend extends_)

theorem Stmt.AkinAll.extend (extends_ : l.Extends k) : ∀ {Γ : Spellings} {body body' : List Stmt},
    Stmt.AkinAll l Γ body body' → Stmt.AkinAll k Γ body body'
  | _, _, _, .nil => .nil
  | _, _, _, .cons s rest => .cons (s.extend extends_) (rest.extend extends_)

theorem Stmt.AkinElse.extend (extends_ : l.Extends k) :
    ∀ {Γ : Spellings} {body body' : Option (List Stmt)},
    Stmt.AkinElse l Γ body body' → Stmt.AkinElse k Γ body body'
  | _, _, _, .absent => .absent
  | _, _, _, .present ρ body => .present ρ (body.extend extends_)

theorem Stmt.AkinMethods.extend (extends_ : l.Extends k) :
    ∀ {Γ : Spellings} {methods methods' : List Routine},
    Stmt.AkinMethods l Γ methods methods' → Stmt.AkinMethods k Γ methods methods'
  | _, _, _, .nil => .nil
  | _, _, _, .cons routine rest => .cons (routine.extend extends_) (rest.extend extends_)

theorem Stmt.AkinRoutine.extend (extends_ : l.Extends k) :
    ∀ {Γ : Spellings} {routine routine' : Routine},
    Stmt.AkinRoutine l Γ routine routine' → Stmt.AkinRoutine k Γ routine routine'
  | _, _, _, .mk ρ params body => .mk ρ params (body.extend extends_)

end

end Rill
