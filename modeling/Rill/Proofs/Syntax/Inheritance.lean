import Rill.Program

/-!
# What parsers inherit from their parts

Every parser is put together, in sequence, from a few parsers that look at the next token, move past
it, give out a number or refuse what they find. A property of these that sequences hand on is a
property of every parser; it is shown for all such properties at once.
-/

namespace Rill.Parser

/-- Looking for `else` succeeds in any case, and moves past tokens at most. -/
theorem acceptElse_apply (c : Cursor) :
    ∃ answer rest, acceptElse c = .ok answer { c with upcoming := rest } := by
  unfold acceptElse
  simp only [bind, EStateM.bind, get, getThe, MonadStateOf.get]
  delta EStateM.get
  dsimp only
  cases c.skipNewlines.upcoming with
  | nil => exact ⟨false, c.upcoming, rfl⟩
  | cons t rest =>
      dsimp only
      split
      · exact ⟨true, rest, rfl⟩
      · exact ⟨false, c.upcoming, rfl⟩

/-- A property of parsers that the smallest ones have and that sequences hand on. -/
structure Inherited (holds : ∀ {α : Type}, Parser α → Prop) : Prop where
  pure : ∀ {α : Type} (a : α), holds (Pure.pure a : Parser α)
  refuse : ∀ {α : Type} (line : Nat) (fault : SyntaxFault),
    holds (Parser.refuse line fault : Parser α)
  bind : ∀ {α β : Type} {p : Parser α} {f : α → Parser β}, holds p → (∀ a, holds (f a)) →
    holds (p >>= f)
  get : holds (MonadState.get : Parser Cursor)
  skip : holds Parser.skip
  skipNewlines : holds Parser.skipNewlines
  freshOccurrence : holds Parser.freshOccurrence
  acceptElse : holds Parser.acceptElse

namespace Inherited

variable {holds : ∀ {α : Type}, Parser α → Prop} (law : Inherited @holds) {α β : Type}

include law

theorem map {g : α → β} {p : Parser α} (part : holds p) : holds (g <$> p) := by
  rw [map_eq_pure_bind]
  exact law.bind part fun a => law.pure (g a)

omit law in
theorem ite {condition : Prop} [Decidable condition] {p q : Parser α} (yes : holds p)
    (no : holds q) : holds (if condition then p else q) := by
  split
  · exact yes
  · exact no

/-! ## The smallest parsers -/

theorem want (wanted : Wanted) : holds (want wanted : Parser α) :=
  law.bind law.get fun _ => law.refuse _ _

theorem overfull (listed : Listed) : holds (overfull listed : Parser α) :=
  law.bind law.get fun _ => law.refuse _ _

theorem peek? : holds peek? := law.bind law.get fun _ => law.pure _

theorem sees (kind : Kind) : holds (sees kind) := by
  refine law.bind law.peek? fun next => ?_
  cases next <;> exact law.pure _

theorem accept? (kind : Kind) : holds (accept? kind) := by
  refine law.bind law.peek? fun next => ?_
  cases next with
  | none => exact law.pure _
  | some t => exact ite (law.bind law.skip fun _ => law.pure _) (law.pure _)

theorem accept (kind : Kind) : holds (accept kind) :=
  law.bind (law.accept? kind) fun _ => law.pure _

theorem expect (kind : Kind) (wanted : Wanted) : holds (expect kind wanted) := by
  refine law.bind (law.accept? kind) fun found => ?_
  cases found with
  | none => exact law.want wanted
  | some t => exact law.pure _

theorem identifier (wanted : Wanted) : holds (identifier wanted) :=
  law.bind (law.expect _ _) fun _ => law.pure _

theorem atBodyEnd : holds atBodyEnd := by
  refine law.bind law.peek? fun next => ?_
  cases next <;> exact law.pure _

theorem atStatementEnd : holds atStatementEnd := by
  refine law.bind law.peek? fun next => ?_
  cases next <;> exact law.pure _

theorem endStatement (what : LineEnd) : holds (endStatement what) := by
  refine law.bind (law.accept _) fun newline => ite (law.pure _) ?_
  refine law.bind (law.accept _) fun semicolon => ite (law.pure _) ?_
  exact law.bind law.atBodyEnd fun ends => ite (law.pure _) (law.want _)

theorem bodyItems {item : Parser α} (part : holds item) (bound : Nat) :
    holds (bodyItems item bound) := by
  induction bound with
  | zero => exact law.pure _
  | succ bound ih =>
      refine law.bind law.skipNewlines fun _ => law.bind law.atBodyEnd fun ends => ?_
      refine ite (law.pure _) (law.bind part fun first => ?_)
      exact law.bind ih fun rest => law.pure _

theorem separated (listed : Listed) {item : Parser α} {separator : Parser Bool}
    (part : holds item) (between : holds separator) (room : Nat) :
    holds (separated listed item separator room) := by
  induction room with
  | zero => exact law.overfull listed
  | succ room ih =>
      refine law.bind part fun first => law.bind between fun more => ?_
      exact ite (law.bind ih fun rest => law.pure _) (law.pure _)

/-! ## Expressions -/

theorem leftAssociative {operator? : Parser (Option (Expr → Expr → Expr))}
    {operand : Parser Expr} (operators : holds operator?) (operands : holds operand)
    (bound : Nat) : holds (leftAssociative bound operator? operand) := by
  have grows (left : Expr) : holds (growLeft operator? operand bound left) := by
    induction bound generalizing left with
    | zero => exact law.pure _
    | succ bound ih =>
        refine law.bind operators fun found => ?_
        cases found with
        | none => exact law.pure _
        | some combine => exact law.bind operands fun right => ih _
  exact law.bind operands grows

theorem logicalOperator? (keyword : Keyword) (operator : LogicalOp) :
    holds (logicalOperator? keyword operator) :=
  law.bind (law.accept _) fun _ => ite (law.pure _) (law.pure _)

theorem binaryOperator? (level : Level) : holds (binaryOperator? level) := by
  refine law.bind law.peek? fun next => ?_
  cases next with
  | none => exact law.pure _
  | some t =>
      dsimp only
      cases level.operator? t.kind with
      | none => exact law.pure _
      | some operator => exact law.bind law.skip fun _ => law.pure _

theorem binary {operand : Parser Expr} (part : holds operand) (bound : Nat)
    (levels : List Level) : holds (binary bound operand levels) := by
  induction levels with
  | nil => exact part
  | cons level tighter ih => exact law.leftAssociative (law.binaryOperator? level) ih bound

theorem unaryOperator? : holds unaryOperator? := by
  refine law.bind (law.accept? _) fun bang => ?_
  cases bang with
  | some t => exact law.pure _
  | none =>
      refine law.bind (law.accept? _) fun minus => ?_
      cases minus <;> exact law.pure _

theorem unary {operand : Parser Expr} (part : holds operand) (bound : Nat) :
    holds (unary operand bound) := by
  induction bound with
  | zero => exact part
  | succ bound ih =>
      refine law.bind law.unaryOperator? fun sign => ?_
      cases sign with
      | none => exact part
      | some found => exact law.bind ih fun inner => law.pure _

theorem argumentSeparator : holds argumentSeparator := by
  refine law.bind law.skipNewlines fun _ => law.bind (law.accept _) fun comma => ?_
  exact ite (law.bind law.skipNewlines fun _ => law.pure _) (law.pure _)

section Expressions

variable {nested : Parser Expr} (part : holds nested)

include part

theorem finishCall (callee : Expr) : holds (finishCall nested callee) := by
  have close (arguments : List Expr) : holds (do
      let close ← Parser.expect (.mark .rightParen) .argumentsEnd
      return Expr.call callee arguments close.line) :=
    law.bind (law.expect _ _) fun _ => law.pure _
  refine law.bind law.skipNewlines fun _ => law.bind (law.sees _) fun empty => ?_
  refine ite (law.bind (law.pure _) close) (law.bind ?_ close)
  exact law.separated _ part law.argumentSeparator _

theorem suffixes (bound : Nat) (subject : Expr) :
    holds (suffixes nested bound subject) := by
  induction bound generalizing subject with
  | zero => exact law.pure _
  | succ bound ih =>
      refine law.bind (law.accept _) fun called => ite ?_ ?_
      · exact law.bind (law.finishCall part subject) ih
      · refine law.bind (law.accept _) fun dotted => ite ?_ (law.pure _)
        exact law.bind (law.identifier _) fun name => ih _

theorem primary : holds (primary nested) := by
  refine law.bind law.peek? fun next => ?_
  cases next with
  | none => exact law.want _
  | some t =>
      dsimp only
      split
      iterate 5 exact law.bind law.skip fun _ => law.pure _
      iterate 2 exact law.bind law.skip fun _ => law.bind law.freshOccurrence fun _ => law.pure _
      · refine law.bind law.skip fun _ => law.bind law.skipNewlines fun _ => ?_
        refine law.bind part fun inner => ?_
        exact law.bind law.skipNewlines fun _ => law.bind (law.expect _ _) fun _ => law.pure _
      · exact law.want _

theorem logicalOr (bound : Nat) : holds (logicalOr bound nested) := by
  have calls : holds (call bound nested) :=
    law.bind (law.primary part) (law.suffixes part bound)
  refine law.leftAssociative (law.logicalOperator? _ _) ?_ bound
  refine law.leftAssociative (law.logicalOperator? _ _) ?_ bound
  exact law.binary (law.unary calls bound) bound levels

omit part in
theorem assignTo (line : Nat) (value target : Expr) :
    holds (assignTo line value target) := by
  cases target with
  | var id name => exact law.bind law.freshOccurrence fun _ => law.pure _
  | get object name => exact law.pure _
  | _ => exact law.refuse _ _

theorem assignment (bound : Nat) : holds (assignment bound nested) := by
  refine law.bind (law.logicalOr part bound) fun target => ?_
  refine law.bind (law.accept? _) fun equal => ?_
  cases equal with
  | none => exact law.pure _
  | some t => exact law.bind part fun value => law.assignTo _ _ _

end Expressions

theorem expression (bound : Nat) : holds (expression bound) := by
  induction bound with
  | zero => exact law.want _
  | succ bound ih => exact law.assignment ih (bound + 1)

/-! ## Statements -/

theorem parameters : holds parameters := by
  have close (params : List Ident) : holds (do
      let _ ← Parser.expect (.mark .rightParen) .parametersEnd
      return params) :=
    law.bind (law.expect _ _) fun _ => law.pure _
  refine law.bind (law.sees _) fun empty => ite (law.bind (law.pure _) close) (law.bind ?_ close)
  exact law.separated _ (law.identifier _) (law.accept _) _

theorem optionalBefore (mark : Mark) {item : Parser α} (part : holds item) :
    holds (optionalBefore mark item) :=
  law.bind (law.sees _) fun _ => ite (law.pure _) (law.map part)

section Statements

variable {expr : Parser Expr} {nested : Parser Stmt} (exprs : holds expr) (stmts : holds nested)

include stmts in
theorem block (bound : Nat) : holds (block bound nested) :=
  law.bind (law.bodyItems stmts bound) fun _ => law.bind (law.expect _ _) fun _ => law.pure _

include stmts in
theorem routine (kind : RoutineKind) (bound : Nat) : holds (routine kind bound nested) := by
  refine law.bind (law.identifier _) fun name => law.bind (law.expect _ _) fun _ => ?_
  refine law.bind law.parameters fun params => law.bind (law.expect _ _) fun _ => ?_
  exact law.bind (law.block stmts bound) fun body => law.pure _

include stmts in
theorem classDefinition (bound : Nat) : holds (classDefinition bound nested) := by
  have methods : holds (method bound nested) :=
    law.bind (law.expect _ _) fun _ => law.routine stmts .method bound
  refine law.bind (law.identifier _) fun name => law.bind (law.expect _ _) fun _ => ?_
  refine law.bind (law.bodyItems methods bound) fun found => ?_
  exact law.bind (law.expect _ _) fun _ => law.pure _

include exprs in
theorem variableDeclaration : holds (variableDeclaration expr) := by
  have finish (name : Ident) (initializer : Option Expr) : holds (do
      Parser.endStatement .variableDeclaration
      return Stmt.declare name initializer) :=
    law.bind (law.endStatement _) fun _ => law.pure _
  refine law.bind (law.identifier _) fun name => law.bind (law.accept _) fun given => ?_
  exact ite (law.bind (law.map exprs) (finish name)) (law.bind (law.pure _) (finish name))

include exprs in
theorem loopVar : holds (loopVar expr) := by
  refine law.bind (law.accept _) fun declared => ite ?_ ?_
  · refine law.bind (law.identifier _) fun name => law.bind (law.expect _ _) fun _ => ?_
    exact law.bind exprs fun value => law.pure _
  · refine law.bind law.get fun c => law.bind exprs fun value => ?_
    cases value with
    | assign id name value => exact law.pure _
    | _ => exact law.refuse _ _

include exprs stmts in
theorem loop (bound : Nat) : holds (loop bound expr nested) := by
  refine law.bind (law.optionalBefore _ (law.loopVar exprs)) fun counter => ?_
  refine law.bind (law.expect _ _) fun _ => ?_
  refine law.bind (law.optionalBefore _ exprs) fun condition => ?_
  refine law.bind (law.expect _ _) fun _ => ?_
  refine law.bind (law.optionalBefore _ exprs) fun increment => ?_
  refine law.bind (law.expect _ _) fun _ => law.bind (law.block stmts bound) fun body => ?_
  exact law.pure _

include stmts in
theorem elseBody (bound : Nat) : holds (elseBody bound nested) := by
  refine law.bind (law.sees _) fun chained => ite (law.bind stmts fun _ => law.pure _) ?_
  exact law.bind (law.expect _ _) fun _ => law.block stmts bound

include exprs stmts in
theorem branch (bound : Nat) : holds (branch bound expr nested) := by
  refine law.bind exprs fun condition => law.bind (law.expect _ _) fun _ => ?_
  refine law.bind (law.block stmts bound) fun thenBody => law.bind law.acceptElse fun found => ?_
  exact ite (law.bind (law.map (law.elseBody stmts bound)) fun _ => law.pure _)
    (law.bind (law.pure _) fun _ => law.pure _)

include exprs in
theorem exit (line : Nat) : holds (exit line expr) := by
  refine law.bind law.atStatementEnd fun ends => ite ?_ ?_
  · exact law.bind (law.pure _) fun value => law.bind (law.endStatement _) fun _ => law.pure _
  · exact law.bind (law.map exprs) fun value => law.bind (law.endStatement _) fun _ => law.pure _

include exprs stmts in
theorem statement (bound : Nat) : holds (statement bound expr nested) := by
  have expressions : holds (expressionStatement expr) :=
    law.bind exprs fun value => law.bind (law.endStatement _) fun _ => law.pure _
  refine law.bind law.peek? fun next => ?_
  cases next with
  | none => exact expressions
  | some t =>
      dsimp only
      split
      · exact law.bind law.skip fun _ => law.classDefinition stmts bound
      · exact law.bind law.skip fun _ => law.map (law.routine stmts .function bound)
      · exact law.bind law.skip fun _ => law.variableDeclaration exprs
      · exact law.bind law.skip fun _ => law.loop exprs stmts bound
      · exact law.bind law.skip fun _ => law.branch exprs stmts bound
      · exact law.bind law.skip fun _ => law.exit exprs t.line
      · exact law.bind law.skip fun _ => law.map (law.block stmts bound)
      · exact law.bind law.skip fun _ =>
          law.bind exprs fun value => law.bind (law.endStatement _) fun _ => law.pure _
      · exact expressions

end Statements

theorem declaration (bound : Nat) : holds (declaration bound) := by
  induction bound with
  | zero => exact law.want _
  | succ bound ih => exact law.statement (law.expression (bound + 1)) ih (bound + 1)

end Inherited

end Rill.Parser
