import Rill.Syntax.Mentions

/-!
# Recast trees

Where a text stands among others decides how its mentions are numbered and on which lines it is
written, and nothing else about its tree. A recast renumbers the mentions of a tree and moves it
down.
-/

namespace Rill

/-- Other numbers for mentions, and how many lines further down. -/
structure Recast where
  ids : Occurrence → Occurrence
  lines : Nat

/-- The recast that leaves everything as it is. -/
def Recast.same : Recast := ⟨id, 0⟩

/-- Numbers go on in the same steps from some number on. -/
def Recast.StepsFrom (r : Recast) (first : Occurrence) : Prop :=
  ∀ id, first ≤ id → r.ids (id + 1) = r.ids id + 1

/-- Numbers that start somewhere else, for a text some lines further down. -/
def Recast.move (first start : Occurrence) (lines : Nat) : Recast :=
  ⟨fun id => id - first + start, lines⟩

theorem Recast.move_ids_self (first start : Occurrence) (lines : Nat) :
    (move first start lines).ids first = start := by
  dsimp only [move]
  rw [Nat.sub_self, Nat.zero_add]

theorem Recast.stepsFrom_move (first start : Occurrence) (lines : Nat) :
    (move first start lines).StepsFrom first := by
  intro id above
  dsimp only [move]
  rw [Nat.succ_sub above, Nat.succ_add]

theorem Recast.eq_of_move_ids_eq {first start lines i j : Nat} (above : first ≤ i)
    (above' : first ≤ j) (same : (move first start lines).ids i = (move first start lines).ids j) :
    i = j := by
  have shifted : i - first + start = j - first + start := same
  omega

/-- A name some lines further down. -/
def Ident.lower (lines : Nat) (name : Ident) : Ident := { name with line := name.line + lines }

@[simp] theorem Ident.lower_name (lines : Nat) (name : Ident) :
    (name.lower lines).name = name.name :=
  rfl

@[simp] theorem Ident.lower_zero (name : Ident) : name.lower 0 = name := rfl

namespace Expr

mutual

/-- An expression with other numbers, further down. -/
def recast (r : Recast) : Expr → Expr
  | literal value => literal value
  | unary operator operand line => unary operator (operand.recast r) (line + r.lines)
  | binary left operator right line =>
    binary (left.recast r) operator (right.recast r) (line + r.lines)
  | logical left operator right => logical (left.recast r) operator (right.recast r)
  | group inner => group (inner.recast r)
  | var id name => var (r.ids id) (name.lower r.lines)
  | assign id name value => assign (r.ids id) (name.lower r.lines) (value.recast r)
  | call callee arguments line =>
    call (callee.recast r) (recastAll r arguments) (line + r.lines)
  | get object name => get (object.recast r) (name.lower r.lines)
  | set object name value => set (object.recast r) (name.lower r.lines) (value.recast r)
  | selfRef id line => selfRef (r.ids id) (line + r.lines)

/-- Expressions with other numbers, further down. -/
def recastAll (r : Recast) : List Expr → List Expr
  | [] => []
  | e :: rest => e.recast r :: recastAll r rest

end

theorem length_recastAll (r : Recast) (arguments : List Expr) :
    (recastAll r arguments).length = arguments.length := by
  induction arguments with
  | nil => rfl
  | cons e rest ih => rw [recastAll, List.length_cons, List.length_cons, ih]

end Expr

/-- The variable of a loop with other numbers, further down. -/
def LoopVar.recast (r : Recast) (counter : LoopVar) : LoopVar :=
  ⟨counter.name.lower r.lines, counter.value.recast r⟩

namespace Stmt

mutual

/-- A statement with other numbers, further down. -/
def recast (r : Recast) : Stmt → Stmt
  | expression value => expression (value.recast r)
  | print value => print (value.recast r)
  | declare name initializer => declare (name.lower r.lines) (initializer.map (Expr.recast r))
  | block body => block (recastAll r body)
  | function ⟨name, params, body⟩ =>
    function ⟨name.lower r.lines, params.map (Ident.lower r.lines), recastAll r body⟩
  | branch condition thenBody none =>
    branch (condition.recast r) (recastAll r thenBody) none
  | branch condition thenBody (some elseBody) =>
    branch (condition.recast r) (recastAll r thenBody) (some (recastAll r elseBody))
  | loop counter condition increment body =>
    loop (counter.map (LoopVar.recast r)) (condition.map (Expr.recast r))
      (increment.map (Expr.recast r)) (recastAll r body)
  | exit line value => exit (line + r.lines) (value.map (Expr.recast r))
  | classDef name methods => classDef (name.lower r.lines) (recastMethods r methods)

/-- Statements with other numbers, further down. -/
def recastAll (r : Recast) : List Stmt → List Stmt
  | [] => []
  | s :: rest => s.recast r :: recastAll r rest

/-- Methods with other numbers, further down. -/
def recastMethods (r : Recast) : List Routine → List Routine
  | [] => []
  | ⟨name, params, body⟩ :: rest =>
    ⟨name.lower r.lines, params.map (Ident.lower r.lines), recastAll r body⟩ ::
      recastMethods r rest

end

end Stmt

/-- A routine with other numbers, further down. -/
def RoutineOf.recast (r : Recast) (routine : Routine) : Routine :=
  ⟨routine.name.lower r.lines, routine.params.map (Ident.lower r.lines),
    Stmt.recastAll r routine.body⟩

@[simp] theorem Stmt.recast_function (r : Recast) (routine : Routine) :
    (Stmt.function routine).recast r = .function (routine.recast r) := by
  obtain ⟨name, params, body⟩ := routine
  rw [Stmt.recast]
  rfl

@[simp] theorem Stmt.recastMethods_cons (r : Recast) (routine : Routine) (rest : List Routine) :
    Stmt.recastMethods r (routine :: rest) = routine.recast r :: Stmt.recastMethods r rest := by
  obtain ⟨name, params, body⟩ := routine
  rw [Stmt.recastMethods]
  rfl

@[simp] theorem Stmt.recast_branch (r : Recast) (condition : Expr) (thenBody : List Stmt)
    (elseBody : Option (List Stmt)) :
    (Stmt.branch condition thenBody elseBody).recast r =
      .branch (condition.recast r) (Stmt.recastAll r thenBody)
        (elseBody.map (Stmt.recastAll r)) := by
  cases elseBody <;> rfl

theorem Expr.recastAll_eq_map (r : Recast) (arguments : List Expr) :
    Expr.recastAll r arguments = arguments.map (Expr.recast r) := by
  induction arguments with
  | nil => rfl
  | cons e rest ih => rw [Expr.recastAll, ih, List.map_cons]

theorem Stmt.recastAll_eq_map (r : Recast) (body : List Stmt) :
    Stmt.recastAll r body = body.map (Stmt.recast r) := by
  induction body with
  | nil => rfl
  | cons s rest ih => rw [Stmt.recastAll, ih, List.map_cons]

theorem Stmt.recastMethods_eq_map (r : Recast) (methods : List Routine) :
    Stmt.recastMethods r methods = methods.map (RoutineOf.recast r) := by
  induction methods with
  | nil => rfl
  | cons routine rest ih => rw [Stmt.recastMethods_cons, ih, List.map_cons]

/-! ## Nothing changes -/

mutual

theorem Expr.recast_same : ∀ e : Expr, e.recast .same = e
  | .literal _ => rfl
  | .unary _ operand _ => by rw [Expr.recast, Expr.recast_same operand]; rfl
  | .binary left _ right _ => by
      rw [Expr.recast, Expr.recast_same left, Expr.recast_same right]
      rfl
  | .logical left _ right => by rw [Expr.recast, Expr.recast_same left, Expr.recast_same right]
  | .group inner => by rw [Expr.recast, Expr.recast_same inner]
  | .var _ _ => rfl
  | .assign _ _ value => by
      rw [Expr.recast, Expr.recast_same value]
      rfl
  | .call callee arguments _ => by
      rw [Expr.recast, Expr.recast_same callee, Expr.recastAll_same arguments]
      rfl
  | .get object _ => by
      rw [Expr.recast, Expr.recast_same object]
      rfl
  | .set object _ value => by
      rw [Expr.recast, Expr.recast_same object, Expr.recast_same value]
      rfl
  | .selfRef _ _ => rfl

theorem Expr.recastAll_same : ∀ arguments : List Expr, Expr.recastAll .same arguments = arguments
  | [] => rfl
  | e :: rest => by rw [Expr.recastAll, Expr.recast_same e, Expr.recastAll_same rest]

end

theorem Expr.map_recast_same (value : Option Expr) : value.map (Expr.recast .same) = value := by
  cases value with
  | none => rfl
  | some e => rw [Option.map_some, Expr.recast_same]

theorem LoopVar.map_recast_same (counter : Option LoopVar) :
    counter.map (LoopVar.recast .same) = counter := by
  cases counter with
  | none => rfl
  | some counter =>
      rw [Option.map_some, LoopVar.recast, Expr.recast_same]
      rfl

theorem Ident.map_lower_zero (names : List Ident) : names.map (Ident.lower 0) = names :=
  List.map_id names

mutual

theorem Stmt.recast_same : ∀ s : Stmt, s.recast .same = s
  | .expression value => by rw [Stmt.recast, Expr.recast_same]
  | .print value => by rw [Stmt.recast, Expr.recast_same]
  | .declare _ initializer => by
      rw [Stmt.recast, Expr.map_recast_same]
      rfl
  | .block body => by rw [Stmt.recast, Stmt.recastAll_same body]
  | .function ⟨name, params, body⟩ => by
      rw [Stmt.recast, Stmt.recastAll_same body]
      exact congrArg (fun params => Stmt.function ⟨name, params, body⟩)
        (Ident.map_lower_zero params)
  | .branch condition thenBody none => by
      rw [Stmt.recast, Expr.recast_same, Stmt.recastAll_same thenBody]
  | .branch condition thenBody (some elseBody) => by
      rw [Stmt.recast, Expr.recast_same, Stmt.recastAll_same thenBody, Stmt.recastAll_same elseBody]
  | .loop counter condition increment body => by
      rw [Stmt.recast, LoopVar.map_recast_same, Expr.map_recast_same, Expr.map_recast_same,
        Stmt.recastAll_same body]
  | .exit _ value => by
      rw [Stmt.recast, Expr.map_recast_same]
      rfl
  | .classDef _ methods => by
      rw [Stmt.recast, Stmt.recastMethods_same methods]
      rfl

theorem Stmt.recastAll_same : ∀ body : List Stmt, Stmt.recastAll .same body = body
  | [] => rfl
  | s :: rest => by rw [Stmt.recastAll, Stmt.recast_same s, Stmt.recastAll_same rest]

theorem Stmt.recastMethods_same : ∀ methods : List Routine,
    Stmt.recastMethods .same methods = methods
  | [] => rfl
  | ⟨name, params, body⟩ :: rest => by
      rw [Stmt.recastMethods, Stmt.recastAll_same body, Stmt.recastMethods_same rest]
      exact congrArg (fun params => (⟨name, params, body⟩ : Routine) :: rest)
        (Ident.map_lower_zero params)

end

theorem RoutineOf.recast_same (routine : Routine) : routine.recast .same = routine := by
  rw [RoutineOf.recast, Stmt.recastAll_same]
  exact congrArg (fun params => (⟨routine.name, params, routine.body⟩ : Routine))
    (Ident.map_lower_zero routine.params)

/-! ## One recast after another -/

/-- The recast that does what two recasts do one after the other. -/
def Recast.andThen (r s : Recast) : Recast := ⟨fun id => s.ids (r.ids id), r.lines + s.lines⟩

theorem Recast.move_andThen_move (first middle start lines more : Nat) :
    (move first middle lines).andThen (move middle start more) =
      move first start (lines + more) := by
  dsimp only [andThen, move]
  simp only [Nat.add_sub_cancel]

@[simp] theorem Ident.lower_lower (lines more : Nat) (name : Ident) :
    (name.lower lines).lower more = name.lower (lines + more) :=
  congrArg (Ident.mk name.name) (Nat.add_assoc ..)

theorem Ident.map_lower_map_lower (lines more : Nat) (names : List Ident) :
    (names.map (Ident.lower lines)).map (Ident.lower more) =
      names.map (Ident.lower (lines + more)) := by
  rw [List.map_map]
  exact List.map_congr_left fun name _ => name.lower_lower lines more

section AndThen

variable (r s : Recast)

mutual

theorem Expr.recast_recast : ∀ e : Expr, (e.recast r).recast s = e.recast (r.andThen s)
  | .literal _ => rfl
  | .unary _ operand line => by
      simp only [Expr.recast, Expr.recast_recast operand, Recast.andThen, Nat.add_assoc]
  | .binary left _ right line => by
      simp only [Expr.recast, Expr.recast_recast left, Expr.recast_recast right, Recast.andThen,
        Nat.add_assoc]
  | .logical left _ right => by
      simp only [Expr.recast, Expr.recast_recast left, Expr.recast_recast right]
  | .group inner => by simp only [Expr.recast, Expr.recast_recast inner]
  | .var _ name => by simp only [Expr.recast, Ident.lower_lower, Recast.andThen]
  | .assign _ name value => by
      simp only [Expr.recast, Expr.recast_recast value, Ident.lower_lower, Recast.andThen]
  | .call callee arguments line => by
      simp only [Expr.recast, Expr.recast_recast callee, Expr.recastAll_recastAll arguments,
        Recast.andThen, Nat.add_assoc]
  | .get object name => by
      simp only [Expr.recast, Expr.recast_recast object, Ident.lower_lower, Recast.andThen]
  | .set object name value => by
      simp only [Expr.recast, Expr.recast_recast object, Expr.recast_recast value,
        Ident.lower_lower, Recast.andThen]
  | .selfRef _ line => by simp only [Expr.recast, Recast.andThen, Nat.add_assoc]

theorem Expr.recastAll_recastAll : ∀ arguments : List Expr,
    Expr.recastAll s (Expr.recastAll r arguments) = Expr.recastAll (r.andThen s) arguments
  | [] => rfl
  | e :: rest => by
      simp only [Expr.recastAll, Expr.recast_recast e, Expr.recastAll_recastAll rest]

end

theorem Expr.map_recast_map_recast (value : Option Expr) :
    (value.map (Expr.recast r)).map (Expr.recast s) = value.map (Expr.recast (r.andThen s)) := by
  rw [Option.map_map]
  exact Option.map_congr fun e _ => e.recast_recast r s

theorem LoopVar.map_recast_map_recast (counter : Option LoopVar) :
    (counter.map (LoopVar.recast r)).map (LoopVar.recast s) =
      counter.map (LoopVar.recast (r.andThen s)) := by
  rw [Option.map_map]
  refine Option.map_congr fun counter _ => ?_
  simp only [Function.comp_apply, LoopVar.recast, Expr.recast_recast, Ident.lower_lower,
    Recast.andThen]

mutual

theorem Stmt.recast_recast : ∀ s' : Stmt, (s'.recast r).recast s = s'.recast (r.andThen s)
  | .expression value => by simp only [Stmt.recast, Expr.recast_recast]
  | .print value => by simp only [Stmt.recast, Expr.recast_recast]
  | .declare name initializer => by
      simp only [Stmt.recast, Expr.map_recast_map_recast, Ident.lower_lower, Recast.andThen]
  | .block body => by simp only [Stmt.recast, Stmt.recastAll_recastAll body]
  | .function ⟨name, params, body⟩ => by
      simp only [Stmt.recast, Stmt.recastAll_recastAll body, Ident.lower_lower,
        Ident.map_lower_map_lower, Recast.andThen]
  | .branch condition thenBody none => by
      simp only [Stmt.recast, Expr.recast_recast, Stmt.recastAll_recastAll thenBody]
  | .branch condition thenBody (some elseBody) => by
      simp only [Stmt.recast, Expr.recast_recast, Stmt.recastAll_recastAll thenBody,
        Stmt.recastAll_recastAll elseBody]
  | .loop counter condition increment body => by
      simp only [Stmt.recast, LoopVar.map_recast_map_recast, Expr.map_recast_map_recast,
        Stmt.recastAll_recastAll body]
  | .exit line value => by
      simp only [Stmt.recast, Expr.map_recast_map_recast, Recast.andThen, Nat.add_assoc]
  | .classDef name methods => by
      simp only [Stmt.recast, Stmt.recastMethods_recastMethods methods, Ident.lower_lower,
        Recast.andThen]

theorem Stmt.recastAll_recastAll : ∀ body : List Stmt,
    Stmt.recastAll s (Stmt.recastAll r body) = Stmt.recastAll (r.andThen s) body
  | [] => rfl
  | s' :: rest => by
      simp only [Stmt.recastAll, Stmt.recast_recast s', Stmt.recastAll_recastAll rest]

theorem Stmt.recastMethods_recastMethods : ∀ methods : List Routine,
    Stmt.recastMethods s (Stmt.recastMethods r methods) = Stmt.recastMethods (r.andThen s) methods
  | [] => rfl
  | ⟨name, params, body⟩ :: rest => by
      simp only [Stmt.recastMethods, Stmt.recastAll_recastAll body,
        Stmt.recastMethods_recastMethods rest, Ident.lower_lower, Ident.map_lower_map_lower,
        Recast.andThen]

end

end AndThen

end Rill
