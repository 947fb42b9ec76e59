import Rill.Proofs.Syntax.Recast
import Rill.Syntax.Program

/-!
# Reading with other numbers

From what number on mentions are numbered has no influence on what is read: a parser that starts
with later numbers stops at the same places, with the same faults, and reads the same trees with
later numbers in them.
-/

namespace Rill

/-- All numbers are so much later. -/
def Recast.later (k : Nat) : Recast := ⟨(· + k), 0⟩

/-- The place with all numbers still to be given out. -/
def Cursor.later (k : Nat) (c : Cursor) : Cursor := { c with fresh := c.fresh + k }

namespace Parser

/-- Two answers are related, and the second one was given where numbers are so much later. -/
inductive AnswersLater {α β : Type} (k : Nat) (rel : α → β → Prop) :
    EStateM.Result Diagnostic Cursor α → EStateM.Result Diagnostic Cursor β → Prop
  | ok {a : α} {b : β} {c : Cursor} : rel a b → AnswersLater k rel (.ok a c) (.ok b (c.later k))
  | error (fault : Diagnostic) {c : Cursor} :
      AnswersLater k rel (.error fault c) (.error fault (c.later k))

/-- One parser reads with later numbers what the other one reads. -/
def Follows {α β : Type} (k : Nat) (rel : α → β → Prop) (p : Parser α) (q : Parser β) : Prop :=
  ∀ c, AnswersLater k rel (p c) (q (c.later k))

/-- A parser reads the same with later numbers: there are none in what it reads. -/
abbrev Unnumbered {α : Type} (k : Nat) (p : Parser α) : Prop := Follows k (· = ·) p p

namespace Follows

variable {α α' β β' : Type} {k : Nat} {rel : α → β → Prop} {between : α' → β' → Prop}
  {p : Parser α} {q : Parser β}

theorem pure {a : α} {b : β} (related : rel a b) :
    Follows k rel (Pure.pure a) (Pure.pure b) := fun _ => .ok related

theorem refuse (line : Nat) (fault : SyntaxFault) :
    Follows k rel (Parser.refuse line fault) (Parser.refuse line fault) := fun _ => .error _

theorem bind {x : Parser α'} {y : Parser β'} {f : α' → Parser α} {g : β' → Parser β}
    (first : Follows k between x y) (next : ∀ {a b}, between a b → Follows k rel (f a) (g b)) :
    Follows k rel (x >>= f) (y >>= g) := by
  intro c
  have started := first c
  change AnswersLater k rel (EStateM.bind x f c) (EStateM.bind y g (c.later k))
  unfold EStateM.bind
  revert started
  generalize x c = r
  generalize y (c.later k) = r'
  intro started
  cases started with
  | ok related => exact next related _
  | error fault => exact .error fault

/-- What is read without numbers is the same for what follows. -/
theorem bind_same {x : Parser α'} {f : α' → Parser α} {g : α' → Parser β}
    (first : Unnumbered k x) (next : ∀ a, Follows k rel (f a) (g a)) :
    Follows k rel (x >>= f) (x >>= g) := by
  refine bind first fun {a b} same => ?_
  subst same
  exact next a

theorem map {x : Parser α'} {y : Parser β'} {f : α' → α} {g : β' → β}
    (first : Follows k between x y) (related : ∀ {a b}, between a b → rel (f a) (g b)) :
    Follows k rel (f <$> x) (g <$> y) := by
  rw [map_eq_pure_bind, map_eq_pure_bind]
  exact bind first fun found => pure (related found)

theorem ite {condition : Prop} [Decidable condition] {p' : Parser α} {q' : Parser β}
    (yes : Follows k rel p q) (no : Follows k rel p' q') :
    Follows k rel (if condition then p else p') (if condition then q else q') := by
  split
  · exact yes
  · exact no

theorem mono {other : α → β → Prop} (follows : Follows k rel p q)
    (implies : ∀ {a b}, rel a b → other a b) : Follows k other p q := by
  intro c
  have answered := follows c
  revert answered
  generalize p c = r
  generalize q (c.later k) = r'
  intro answered
  cases answered with
  | ok related => exact .ok (implies related)
  | error fault => exact .error fault

/-! ## Tokens -/

theorem want (wanted : Wanted) : Follows k rel (want wanted) (want wanted) := fun _ => .error _

theorem overfull (listed : Listed) : Follows k rel (overfull listed) (overfull listed) :=
  fun _ => .error _

theorem peek? : Unnumbered k peek? := fun _ => .ok rfl

theorem skip : Unnumbered k skip := fun _ => .ok rfl

theorem skipNewlines : Unnumbered k skipNewlines := fun _ => .ok rfl

theorem freshOccurrence :
    Follows k (fun id id' => id' = id + k) freshOccurrence freshOccurrence := by
  intro c
  have numbered : Parser.freshOccurrence (c.later k) =
      .ok (c.fresh + k) (Cursor.later k { c with fresh := c.fresh + 1 }) := by
    unfold Cursor.later
    rw [Nat.add_right_comm]
    rfl
  rw [numbered]
  exact .ok rfl

theorem sees (kind : Kind) : Unnumbered k (sees kind) := by
  refine bind_same peek? fun next => ?_
  cases next <;> exact pure rfl

theorem accept? (kind : Kind) : Unnumbered k (accept? kind) := by
  refine bind_same peek? fun next => ?_
  cases next with
  | none => exact pure rfl
  | some t => exact ite (bind_same skip fun _ => pure rfl) (pure rfl)

theorem accept (kind : Kind) : Unnumbered k (accept kind) :=
  bind_same (accept? kind) fun _ => pure rfl

theorem expect (kind : Kind) (wanted : Wanted) : Unnumbered k (expect kind wanted) := by
  refine bind_same (accept? kind) fun found => ?_
  cases found with
  | none => exact want wanted
  | some t => exact pure rfl

theorem identifier (wanted : Wanted) : Unnumbered k (identifier wanted) :=
  bind_same (expect _ _) fun _ => pure rfl

theorem atBodyEnd : Unnumbered k atBodyEnd := by
  refine bind_same peek? fun next => ?_
  cases next <;> exact pure rfl

theorem atStatementEnd : Unnumbered k atStatementEnd := by
  refine bind_same peek? fun next => ?_
  cases next <;> exact pure rfl

theorem endStatement (what : LineEnd) : Unnumbered k (endStatement what) := by
  refine bind_same (accept _) fun newline => ite (pure rfl) ?_
  refine bind_same (accept _) fun semicolon => ite (pure rfl) ?_
  exact bind_same atBodyEnd fun ends => ite (pure rfl) (want _)

theorem argumentSeparator : Unnumbered k argumentSeparator := by
  refine bind_same skipNewlines fun _ => bind_same (accept _) fun comma => ?_
  exact ite (bind_same skipNewlines fun _ => pure rfl) (pure rfl)

theorem unaryOperator? : Unnumbered k unaryOperator? := by
  refine bind_same (accept? _) fun bang => ?_
  cases bang with
  | some t => exact pure rfl
  | none =>
      refine bind_same (accept? _) fun minus => ?_
      cases minus <;> exact pure rfl

theorem acceptElse : Unnumbered k acceptElse := by
  intro c
  have same : (c.later k).skipNewlines.upcoming = c.skipNewlines.upcoming := rfl
  unfold Parser.acceptElse
  simp only [Bind.bind, EStateM.bind, MonadState.get, getThe, MonadStateOf.get]
  delta EStateM.get
  dsimp only
  rw [same]
  cases c.skipNewlines.upcoming with
  | nil => exact .ok rfl
  | cons t rest =>
      dsimp only
      split
      · exact .ok rfl
      · exact .ok rfl

/-! ## Lists -/

variable {change : α → α} {item : Parser α}

theorem bodyItems (part : Follows k (fun a b => b = change a) item item) (bound : Nat) :
    Follows k (fun list list' => list' = list.map change) (bodyItems item bound)
      (bodyItems item bound) := by
  induction bound with
  | zero => exact pure rfl
  | succ bound ih =>
      refine bind_same skipNewlines fun _ => bind_same atBodyEnd fun ends => ite (pure rfl) ?_
      refine bind part fun {first _} same => ?_
      subst same
      refine bind ih fun {rest _} same => ?_
      subst same
      exact pure rfl

theorem separated (listed : Listed) {separator : Parser Bool}
    (part : Follows k (fun a b => b = change a) item item) (between : Unnumbered k separator)
    (room : Nat) :
    Follows k (fun list list' => list' = list.map change) (separated listed item separator room)
      (separated listed item separator room) := by
  induction room with
  | zero => exact overfull listed
  | succ room ih =>
      refine bind part fun {first _} same => ?_
      subst same
      refine bind_same between fun more => ite ?_ (pure rfl)
      refine bind ih fun {rest _} same => ?_
      subst same
      exact pure rfl

end Follows

/-! ## Expressions -/

/-- An expression is the other one with later numbers. -/
abbrev ExprLater (k : Nat) (e e' : Expr) : Prop := e' = e.recast (.later k)

/-- Two operators put expressions together in the same way. -/
def CombineAlike (k : Nat) (combine combine' : Expr → Expr → Expr) : Prop :=
  ∀ left right : Expr, ExprLater k (combine left right)
    (combine' (left.recast (.later k)) (right.recast (.later k)))

namespace Follows

variable {k : Nat}

theorem growLeft {operator? : Parser (Option (Expr → Expr → Expr))} {operand : Parser Expr}
    (operators : Follows k (Option.Rel (CombineAlike k)) operator? operator?)
    (operands : Follows k (ExprLater k) operand operand) (bound : Nat) (left : Expr) :
    Follows k (ExprLater k) (growLeft operator? operand bound left)
      (growLeft operator? operand bound (left.recast (.later k))) := by
  induction bound generalizing left with
  | zero => exact pure rfl
  | succ bound ih =>
      refine bind operators fun {found found'} alike => ?_
      cases alike with
      | none => exact pure rfl
      | @some combine combine' alike =>
          refine bind operands fun {right _} same => ?_
          subst same
          rw [alike left right]
          exact ih _

theorem leftAssociative {operator? : Parser (Option (Expr → Expr → Expr))} {operand : Parser Expr}
    (operators : Follows k (Option.Rel (CombineAlike k)) operator? operator?)
    (operands : Follows k (ExprLater k) operand operand) (bound : Nat) :
    Follows k (ExprLater k) (leftAssociative bound operator? operand)
      (leftAssociative bound operator? operand) := by
  refine bind operands fun {left _} same => ?_
  subst same
  exact growLeft operators operands bound left

theorem logicalOperator? (keyword : Keyword) (operator : LogicalOp) :
    Follows k (Option.Rel (CombineAlike k)) (logicalOperator? keyword operator)
      (logicalOperator? keyword operator) :=
  bind_same (accept _) fun _ => ite (pure (.some fun _ _ => rfl)) (pure .none)

theorem binaryOperator? (level : Level) :
    Follows k (Option.Rel (CombineAlike k)) (binaryOperator? level) (binaryOperator? level) := by
  refine bind_same peek? fun next => ?_
  cases next with
  | none => exact pure .none
  | some t =>
      dsimp only
      cases level.operator? t.kind with
      | none => exact pure .none
      | some operator => exact bind_same skip fun _ => pure (.some fun _ _ => rfl)

theorem binary {operand : Parser Expr} (operands : Follows k (ExprLater k) operand operand)
    (bound : Nat) (levels : List Level) :
    Follows k (ExprLater k) (binary bound operand levels) (binary bound operand levels) := by
  induction levels with
  | nil => exact operands
  | cons level tighter ih => exact leftAssociative (binaryOperator? level) ih bound

theorem unary {operand : Parser Expr} (operands : Follows k (ExprLater k) operand operand)
    (bound : Nat) : Follows k (ExprLater k) (unary operand bound) (unary operand bound) := by
  induction bound with
  | zero => exact operands
  | succ bound ih =>
      refine bind_same unaryOperator? fun sign => ?_
      cases sign with
      | none => exact operands
      | some found =>
          refine bind ih fun {inner _} same => ?_
          subst same
          exact pure rfl

section Expressions

variable {nested : Parser Expr} (exprs : Follows k (ExprLater k) nested nested)

include exprs

theorem finishCall (callee : Expr) :
    Follows k (ExprLater k) (finishCall nested callee)
      (finishCall nested (callee.recast (.later k))) := by
  have close {arguments arguments' : List Expr}
      (same : arguments' = arguments.map (Expr.recast (.later k))) :
      Follows k (ExprLater k)
        (do
          let close ← Parser.expect (.mark .rightParen) .argumentsEnd
          return Expr.call callee arguments close.line)
        (do
          let close ← Parser.expect (.mark .rightParen) .argumentsEnd
          return Expr.call (callee.recast (.later k)) arguments' close.line) := by
    rw [← Expr.recastAll_eq_map] at same
    subst same
    exact bind_same (expect _ _) fun _ => pure rfl
  have none : Follows k (fun list list' => list' = list.map (Expr.recast (.later k)))
      (Pure.pure []) (Pure.pure []) := pure rfl
  refine bind_same skipNewlines fun _ => bind_same (sees _) fun empty => ?_
  exact ite (bind none close) (bind (separated _ exprs argumentSeparator _) close)

theorem suffixes (bound : Nat) (subject : Expr) :
    Follows k (ExprLater k) (suffixes nested bound subject)
      (suffixes nested bound (subject.recast (.later k))) := by
  induction bound generalizing subject with
  | zero => exact pure rfl
  | succ bound ih =>
      refine bind_same (accept _) fun called => ite ?_ ?_
      · refine bind (finishCall exprs subject) fun {call _} same => ?_
        subst same
        exact ih call
      · refine bind_same (accept _) fun dotted => ite ?_ (pure rfl)
        exact bind_same (identifier _) fun name => ih (.get subject name)

theorem primary : Follows k (ExprLater k) (primary nested) (primary nested) := by
  refine bind_same peek? fun next => ?_
  cases next with
  | none => exact want _
  | some t =>
      dsimp only
      split
      iterate 5 exact bind_same skip fun _ => pure rfl
      iterate 2
        refine bind_same skip fun _ => bind freshOccurrence fun {id _} same => ?_
        subst same
        exact pure rfl
      · refine bind_same skip fun _ => bind_same skipNewlines fun _ => ?_
        refine bind exprs fun {inner _} same => ?_
        subst same
        exact bind_same skipNewlines fun _ => bind_same (expect _ _) fun _ => pure rfl
      · exact want _

theorem logicalOr (bound : Nat) :
    Follows k (ExprLater k) (logicalOr bound nested) (logicalOr bound nested) := by
  have calls : Follows k (ExprLater k) (call bound nested) (call bound nested) := by
    refine bind (primary exprs) fun {subject _} same => ?_
    subst same
    exact suffixes exprs bound subject
  refine leftAssociative (logicalOperator? _ _) ?_ bound
  refine leftAssociative (logicalOperator? _ _) ?_ bound
  exact binary (unary calls bound) bound levels

omit exprs in
theorem assignTo (line : Nat) (value target : Expr) :
    Follows k (ExprLater k) (assignTo line value target)
      (assignTo line (value.recast (.later k)) (target.recast (.later k))) := by
  cases target with
  | var id name =>
      refine bind freshOccurrence fun {id _} same => ?_
      subst same
      exact pure rfl
  | get object name => exact pure rfl
  | _ => exact refuse _ _

theorem assignment (bound : Nat) :
    Follows k (ExprLater k) (assignment bound nested) (assignment bound nested) := by
  refine bind (logicalOr exprs bound) fun {target _} same => ?_
  subst same
  refine bind_same (accept? _) fun equal => ?_
  cases equal with
  | none => exact pure rfl
  | some t =>
      refine bind exprs fun {value _} same => ?_
      subst same
      exact assignTo _ _ _

end Expressions

theorem expression (bound : Nat) :
    Follows k (ExprLater k) (expression bound) (expression bound) := by
  induction bound with
  | zero => exact want _
  | succ bound ih => exact assignment ih (bound + 1)

end Follows

/-! ## Statements -/

/-- A statement is the other one with later numbers. -/
abbrev StmtLater (k : Nat) (s s' : Stmt) : Prop := s' = s.recast (.later k)

/-- Statements are the other ones with later numbers. -/
abbrev BodyLater (k : Nat) (body body' : List Stmt) : Prop :=
  body' = Stmt.recastAll (.later k) body

/-- A routine is the other one with later numbers. -/
abbrev RoutineLater (k : Nat) (routine routine' : Routine) : Prop :=
  routine' = routine.recast (.later k)

namespace Follows

variable {k : Nat}

theorem parameters : Unnumbered k parameters := by
  have close (params : List Ident) : Unnumbered k (do
      let _ ← Parser.expect (.mark .rightParen) .parametersEnd
      return params) :=
    bind_same (expect _ _) fun _ => pure rfl
  have name : Follows k (fun a b => b = id a) (Parser.identifier .parameterName)
      (Parser.identifier .parameterName) := (identifier _).mono Eq.symm
  have listed := (separated .parameters name (accept (.mark .comma)) maximumListed).mono
    fun same => (same.trans (List.map_id _)).symm
  refine bind_same (sees _) fun empty => ite (bind_same (pure rfl) close) (bind_same listed close)

section Options

variable {α : Type} {change : α → α} {item : Parser α}

theorem absent : Follows k (fun a b => b = Option.map change a) (Pure.pure none) (Pure.pure none) :=
  pure rfl

theorem present (part : Follows k (fun a b => b = change a) item item) :
    Follows k (fun a b => b = Option.map change a) (some <$> item) (some <$> item) :=
  map part fun same => by rw [same, Option.map_some]

theorem optionalBefore (mark : Mark) (part : Follows k (fun a b => b = change a) item item) :
    Follows k (fun a b => b = Option.map change a) (optionalBefore mark item)
      (optionalBefore mark item) :=
  bind_same (sees _) fun _ => ite absent (present part)

end Options

section Statements

variable {expr : Parser Expr} {nested : Parser Stmt}
  (exprs : Follows k (ExprLater k) expr expr) (stmts : Follows k (StmtLater k) nested nested)

include stmts in
theorem block (bound : Nat) :
    Follows k (BodyLater k) (block bound nested) (block bound nested) := by
  refine bind (bodyItems stmts bound) fun {body _} same => ?_
  subst same
  exact bind_same (expect _ _) fun _ => pure (Stmt.recastAll_eq_map _ _).symm

include stmts in
theorem routine (kind : RoutineKind) (bound : Nat) :
    Follows k (RoutineLater k) (routine kind bound nested) (routine kind bound nested) := by
  refine bind_same (identifier _) fun name => bind_same (expect _ _) fun _ => ?_
  refine bind_same parameters fun params => bind_same (expect _ _) fun _ => ?_
  refine bind (block stmts bound) fun {body _} same => ?_
  subst same
  refine pure ?_
  rw [RoutineLater, RoutineOf.recast]
  exact congrArg (fun params => (⟨name, params, _⟩ : Routine)) (Ident.map_lower_zero params).symm

include stmts in
theorem classDefinition (bound : Nat) :
    Follows k (StmtLater k) (classDefinition bound nested) (classDefinition bound nested) := by
  have methods : Follows k (RoutineLater k) (method bound nested) (method bound nested) :=
    bind_same (expect _ _) fun _ => routine stmts .method bound
  refine bind_same (identifier _) fun name => bind_same (expect _ _) fun _ => ?_
  refine bind (bodyItems methods bound) fun {found _} same => ?_
  subst same
  refine bind_same (expect _ _) fun _ => pure ?_
  rw [← Stmt.recastMethods_eq_map]
  rfl

include exprs in
theorem variableDeclaration :
    Follows k (StmtLater k) (variableDeclaration expr) (variableDeclaration expr) := by
  have finish (name : Ident) {initializer initializer' : Option Expr}
      (same : initializer' = initializer.map (Expr.recast (.later k))) :
      Follows k (StmtLater k)
        (do
          Parser.endStatement .variableDeclaration
          return Stmt.declare name initializer)
        (do
          Parser.endStatement .variableDeclaration
          return Stmt.declare name initializer') := by
    subst same
    exact bind_same (endStatement _) fun _ => pure rfl
  refine bind_same (identifier _) fun name => bind_same (accept _) fun given => ?_
  exact ite (bind (present exprs) (finish name)) (bind absent (finish name))

include exprs in
theorem loopVar : Follows k (fun a b => b = LoopVar.recast (.later k) a) (loopVar expr)
    (loopVar expr) := by
  refine bind_same (accept _) fun declared => ite ?_ ?_
  · refine bind_same (identifier _) fun name => bind_same (expect _ _) fun _ => ?_
    refine bind exprs fun {value _} same => ?_
    subst same
    exact pure rfl
  · intro c
    have assigned : Follows k (fun a b => b = LoopVar.recast (.later k) a)
        (expr >>= loopVarOf c.line) (expr >>= loopVarOf c.line) := by
      refine bind exprs fun {value _} same => ?_
      subst same
      cases value with
      | assign id name value => exact pure rfl
      | _ => exact refuse _ _
    exact assigned c

include exprs stmts in
theorem loop (bound : Nat) :
    Follows k (StmtLater k) (loop bound expr nested) (loop bound expr nested) := by
  refine bind (optionalBefore _ (loopVar exprs)) fun {counter _} same => ?_
  subst same
  refine bind_same (expect _ _) fun _ => ?_
  refine bind (optionalBefore _ exprs) fun {condition _} same => ?_
  subst same
  refine bind_same (expect _ _) fun _ => ?_
  refine bind (optionalBefore _ exprs) fun {increment _} same => ?_
  subst same
  refine bind_same (expect _ _) fun _ => bind (block stmts bound) fun {body _} same => ?_
  subst same
  exact pure rfl

include stmts in
theorem elseBody (bound : Nat) :
    Follows k (BodyLater k) (elseBody bound nested) (elseBody bound nested) := by
  refine bind_same (sees _) fun chained => ite ?_ ?_
  · refine bind stmts fun {s _} same => ?_
    subst same
    exact pure rfl
  · exact bind_same (expect _ _) fun _ => block stmts bound

include exprs stmts in
theorem branch (bound : Nat) :
    Follows k (StmtLater k) (branch bound expr nested) (branch bound expr nested) := by
  refine bind exprs fun {condition _} same => ?_
  subst same
  refine bind_same (expect _ _) fun _ => bind (block stmts bound) fun {thenBody _} same => ?_
  subst same
  have finish {elseBody elseBody' : Option (List Stmt)}
      (same : elseBody' = elseBody.map (Stmt.recastAll (.later k))) :
      Follows k (StmtLater k) (Pure.pure (Stmt.branch condition thenBody elseBody))
        (Pure.pure (Stmt.branch (condition.recast (.later k))
          (Stmt.recastAll (.later k) thenBody) elseBody')) := by
    subst same
    exact pure (Stmt.recast_branch _ _ _ _).symm
  exact bind_same acceptElse fun found =>
    ite (bind (present (elseBody stmts bound)) finish) (bind absent finish)

include exprs in
theorem exit (line : Nat) : Follows k (StmtLater k) (exit line expr) (exit line expr) := by
  have finish {value value' : Option Expr}
      (same : value' = value.map (Expr.recast (.later k))) :
      Follows k (StmtLater k)
        (do
          Parser.endStatement .returnValue
          return Stmt.exit line value)
        (do
          Parser.endStatement .returnValue
          return Stmt.exit line value') := by
    subst same
    exact bind_same (endStatement _) fun _ => pure rfl
  exact bind_same atStatementEnd fun ends => ite (bind absent finish) (bind (present exprs) finish)

include exprs stmts in
theorem statement (bound : Nat) :
    Follows k (StmtLater k) (statement bound expr nested) (statement bound expr nested) := by
  have expressions : Follows k (StmtLater k) (expressionStatement expr)
      (expressionStatement expr) := by
    refine bind exprs fun {value _} same => ?_
    subst same
    exact bind_same (endStatement _) fun _ => pure rfl
  refine bind_same peek? fun next => ?_
  cases next with
  | none => exact expressions
  | some t =>
      dsimp only
      split
      · exact bind_same skip fun _ => classDefinition stmts bound
      · refine bind_same skip fun _ => map (routine stmts .function bound) fun same => ?_
        rw [same, StmtLater, Stmt.recast_function]
      · exact bind_same skip fun _ => variableDeclaration exprs
      · exact bind_same skip fun _ => loop exprs stmts bound
      · exact bind_same skip fun _ => branch exprs stmts bound
      · exact bind_same skip fun _ => exit exprs t.line
      · refine bind_same skip fun _ => map (block stmts bound) fun same => ?_
        rw [same]
        rfl
      · refine bind_same skip fun _ => bind exprs fun {value _} same => ?_
        subst same
        exact bind_same (endStatement _) fun _ => pure rfl
      · exact expressions

end Statements

theorem declaration (bound : Nat) :
    Follows k (StmtLater k) (declaration bound) (declaration bound) := by
  induction bound with
  | zero => exact want _
  | succ bound ih => exact statement (expression (bound + 1)) ih (bound + 1)

end Follows

end Parser

/-! ## Programs -/

/-- What has been read, with later numbers. -/
def Reading.later (k : Nat) (reading : Reading) : Reading :=
  ⟨Stmt.recastAll (.later k) reading.statements, reading.faults, reading.fresh + k⟩

theorem readProgram_later (k bound : Nat) (c : Cursor) :
    readProgram bound (c.later k) = (readProgram bound c).later k := by
  induction bound generalizing c with
  | zero => rfl
  | succ bound ih =>
      have skipped : (c.later k).skipNewlines = c.skipNewlines.later k := rfl
      have empty : (c.skipNewlines.later k).upcoming = c.skipNewlines.upcoming := rfl
      simp only [readProgram, skipped, empty]
      by_cases ends : c.skipNewlines.upcoming.isEmpty = true
      · rw [if_pos ends, if_pos ends]
        rfl
      · rw [if_neg ends, if_neg ends]
        have read := Parser.Follows.declaration (bound + 1) (k := k) c.skipNewlines
        revert read
        generalize Parser.declaration (bound + 1) c.skipNewlines = r
        generalize Parser.declaration (bound + 1) (c.skipNewlines.later k) = r'
        intro read
        cases read with
        | @ok s _ next same =>
            subst same
            dsimp only
            rw [ih]
            rfl
        | @error fault stopped =>
            dsimp only
            exact congrArg (Reading.addFault fault)
              (ih { stopped with upcoming := recover stopped.upcoming })

/-- Tokens have the same faults whatever number they start from, and the same trees but for it. -/
theorem parse_later (ts : List Token) (first k : Nat) :
    parse ts (first + k) =
      ((parse ts first).1.map (Stmt.recastAll (.later k)), (parse ts first).2 + k) := by
  have read : readTokens ts (first + k) = (readTokens ts first).later k :=
    readProgram_later k _ (Cursor.start ts first)
  rw [parse, parse, read]
  dsimp only [Reading.later]
  cases (readTokens ts first).faults <;> rfl

end Rill
