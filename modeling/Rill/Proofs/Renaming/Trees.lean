import Rill.Proofs.Machine.Declarations
import Rill.Syntax.Mentions
import Mathlib.Data.List.Basic

/-!
# Renaming a local variable

A variable, a parameter or the variable of a loop that is declared in some scope gets another name,
and with it all that refers to it. What that is follows from the tree alone: the mentions of the
name from the declaration to the end of its scope, except where the name is declared again.
Variables that the statements of a program itself declare are globals and keep their names.
-/

namespace Rill

/-! ## Respelling -/

/-- Names are spelled as they are where they are declared. -/
def shadowing (ρ : String → String) (names : List String) (name : String) : String :=
  if name ∈ names then name else ρ name

/-- One name is spelled like another one. -/
def calling (x y name : String) : String := if name = x then y else name

theorem shadowing_id (names : List String) : shadowing id names = id := by
  funext name
  exact ite_self name

theorem shadowing_nil (ρ : String → String) : shadowing ρ [] = ρ := by
  funext name
  exact if_neg List.not_mem_nil

namespace Ident

/-- A name in other letters, on the same line. -/
def respell (ρ : String → String) (name : Ident) : Ident := ⟨ρ name.name, name.line⟩

theorem respell_id (name : Ident) : name.respell id = name := rfl

end Ident

namespace Expr

mutual

/-- Respells the variables that an expression mentions. -/
def respell (ρ : String → String) : Expr → Expr
  | literal value => literal value
  | unary operator operand line => unary operator (operand.respell ρ) line
  | binary left operator right line => binary (left.respell ρ) operator (right.respell ρ) line
  | logical left operator right => logical (left.respell ρ) operator (right.respell ρ)
  | group inner => group (inner.respell ρ)
  | var id name => var id (name.respell ρ)
  | assign id name value => assign id (name.respell ρ) (value.respell ρ)
  | call callee arguments line => call (callee.respell ρ) (respellAll ρ arguments) line
  | get object name => get (object.respell ρ) name
  | set object name value => set (object.respell ρ) name (value.respell ρ)
  | selfRef id line => selfRef id line

/-- Respells the variables that expressions mention. -/
def respellAll (ρ : String → String) : List Expr → List Expr
  | [] => []
  | e :: rest => e.respell ρ :: respellAll ρ rest

end

mutual

theorem respell_id : ∀ e : Expr, e.respell id = e
  | literal _ | selfRef _ _ | var _ _ => rfl
  | unary _ operand _ => by rw [respell, operand.respell_id]
  | binary left _ right _ | logical left _ right => by
      rw [respell, left.respell_id, right.respell_id]
  | group inner => by rw [respell, inner.respell_id]
  | assign _ name value => by rw [respell, name.respell_id, value.respell_id]
  | call callee arguments _ => by rw [respell, callee.respell_id, respellAll_id arguments]
  | get object _ => by rw [respell, object.respell_id]
  | set object _ value => by rw [respell, object.respell_id, value.respell_id]

theorem respellAll_id : ∀ arguments : List Expr, respellAll id arguments = arguments
  | [] => rfl
  | e :: rest => by rw [respellAll, e.respell_id, respellAll_id rest]

end

/-- Respells the variables that an expression mentions, if there is one. -/
def respellOption (ρ : String → String) (value : Option Expr) : Option Expr :=
  value.map (respell ρ)

theorem respellOption_id (value : Option Expr) : respellOption id value = value := by
  cases value with
  | none => rfl
  | some e => exact congrArg some e.respell_id

end Expr

namespace LoopVar

/-- The name of a loop variable that may be absent. -/
def identsOption : Option LoopVar → List Ident
  | some counter => [counter.name]
  | none => []

/-- Respells the variables that the first value of a loop variable mentions. -/
def respellOption (ρ : String → String) : Option LoopVar → Option LoopVar
  | some counter => some ⟨counter.name, counter.value.respell ρ⟩
  | none => none

theorem respellOption_id (counter : Option LoopVar) : respellOption id counter = counter := by
  cases counter with
  | none => rfl
  | some counter =>
      have same := counter.value.respell_id
      rw [respellOption, same]

end LoopVar

/-- The names among names with lines. -/
abbrev namesOf (idents : List Ident) : List String := idents.map Ident.name

namespace Stmt

mutual

/-- Respells the variables that a statement mentions and does not declare itself. -/
def respell (ρ : String → String) : Stmt → Stmt
  | expression value => expression (value.respell ρ)
  | print value => print (value.respell ρ)
  | declare name initializer =>
    declare name (Expr.respellOption (shadowing ρ [name.name]) initializer)
  | block body => block (respellAll ρ body)
  | function ⟨name, params, body⟩ =>
    function ⟨name, params, respellAll (shadowing (shadowing ρ [name.name]) (namesOf params)) body⟩
  | branch condition thenBody none =>
    branch (condition.respell ρ) (respellAll ρ thenBody) none
  | branch condition thenBody (some elseBody) =>
    branch (condition.respell ρ) (respellAll ρ thenBody) (some (respellAll ρ elseBody))
  | loop counter condition increment body =>
    let inner := shadowing ρ (namesOf (LoopVar.identsOption counter))
    loop (LoopVar.respellOption inner counter) (Expr.respellOption inner condition)
      (Expr.respellOption inner increment) (respellAll inner body)
  | exit line value => exit line (Expr.respellOption ρ value)
  | classDef name methods => classDef name (respellMethods (shadowing ρ [name.name]) methods)

/-- Respells the variables that statements mention before one of them declares the name. -/
def respellAll (ρ : String → String) : List Stmt → List Stmt
  | [] => []
  | s :: rest => s.respell ρ :: respellAll (shadowing ρ s.declared?.toList) rest

/-- Respells the variables that methods mention. -/
def respellMethods (ρ : String → String) : List Routine → List Routine
  | [] => []
  | ⟨name, params, body⟩ :: rest =>
    ⟨name, params, respellAll (shadowing ρ (namesOf params)) body⟩ :: respellMethods ρ rest

end

mutual

theorem respell_id : ∀ s : Stmt, s.respell id = s
  | expression value | print value => by rw [respell, value.respell_id]
  | declare _ initializer => by rw [respell, shadowing_id, Expr.respellOption_id]
  | block body => by rw [respell, respellAll_id body]
  | function ⟨_, _, body⟩ => by rw [respell, shadowing_id, shadowing_id, respellAll_id body]
  | branch condition thenBody none => by
      rw [respell, condition.respell_id, respellAll_id thenBody]
  | branch condition thenBody (some elseBody) => by
      rw [respell, condition.respell_id, respellAll_id thenBody, respellAll_id elseBody]
  | loop _ _ _ body => by
      rw [respell, shadowing_id, LoopVar.respellOption_id, Expr.respellOption_id,
        Expr.respellOption_id, respellAll_id body]
  | exit _ _ => by rw [respell, Expr.respellOption_id]
  | classDef _ methods => by rw [respell, shadowing_id, respellMethods_id methods]

theorem respellAll_id : ∀ body : List Stmt, respellAll id body = body
  | [] => rfl
  | s :: rest => by rw [respellAll, s.respell_id, shadowing_id, respellAll_id rest]

theorem respellMethods_id : ∀ methods : List Routine, respellMethods id methods = methods
  | [] => rfl
  | ⟨_, _, body⟩ :: rest => by
      rw [respellMethods, shadowing_id, respellAll_id body, respellMethods_id rest]

end

end Stmt

/-! ## Names in use -/

/-- The names in mentions. -/
def mentionNames (mentions : List Mention) : List String := mentions.map fun m => m.name.name

theorem mentionNames_append (former latter : List Mention) :
    mentionNames (former ++ latter) = mentionNames former ++ mentionNames latter :=
  List.map_append

namespace Stmt

mutual

/--
The names that a statement mentions, or gives to variables, parameters, functions and classes. What
stands behind a dot is no such name.
-/
def names : Stmt → List String
  | expression value | print value => mentionNames value.mentions
  | declare name initializer => name.name :: mentionNames (Expr.mentionsOption initializer)
  | block body => namesAll body
  | function ⟨name, params, body⟩ => name.name :: (namesOf params ++ namesAll body)
  | branch condition thenBody none => mentionNames condition.mentions ++ namesAll thenBody
  | branch condition thenBody (some elseBody) =>
    mentionNames condition.mentions ++ namesAll thenBody ++ namesAll elseBody
  | loop counter condition increment body =>
    namesOf (LoopVar.identsOption counter) ++ mentionNames (LoopVar.mentionsOption counter) ++
      mentionNames (Expr.mentionsOption condition) ++
      mentionNames (Expr.mentionsOption increment) ++ namesAll body
  | exit _ value => mentionNames (Expr.mentionsOption value)
  | classDef name methods => name.name :: namesMethods methods

/-- The names in statements. -/
def namesAll : List Stmt → List String
  | [] => []
  | s :: rest => s.names ++ namesAll rest

/-- The names in methods. -/
def namesMethods : List Routine → List String
  | [] => []
  | ⟨_, params, body⟩ :: rest => namesOf params ++ namesAll body ++ namesMethods rest

end

end Stmt

/-! ## Local variables -/

namespace Stmt

/-- The variable that a statement declares in the scope it stands in. -/
def ownVariable? : Stmt → Option Ident
  | declare name _ => some name
  | _ => none

mutual

/-- The variables and parameters that a statement declares in scopes of its own, in order. -/
def locals : Stmt → List Ident
  | block body => localsAll body
  | function ⟨_, params, body⟩ => params ++ localsAll body
  | branch _ thenBody none => localsAll thenBody
  | branch _ thenBody (some elseBody) => localsAll thenBody ++ localsAll elseBody
  | loop counter _ _ body => LoopVar.identsOption counter ++ localsAll body
  | classDef _ methods => localsMethods methods
  | expression _ | print _ | declare _ _ | exit _ _ => []

/-- The variables and parameters that statements declare, in their scope or in inner ones. -/
def localsAll : List Stmt → List Ident
  | [] => []
  | s :: rest => s.ownVariable?.toList ++ s.locals ++ localsAll rest

/-- The variables and parameters that methods declare. -/
def localsMethods : List Routine → List Ident
  | [] => []
  | ⟨_, params, body⟩ :: rest => params ++ localsAll body ++ localsMethods rest

end

end Stmt

/-- The variables, parameters and loop variables of a program that are not global. -/
def localsOf (program : List Stmt) : List Ident := program.flatMap Stmt.locals

section Renamed

variable (x y : String)

namespace Stmt

mutual

/-- One variable that a statement declares in a scope of its own is called `y` in place of `x`. -/
inductive Renamed : Stmt → Stmt → Prop
  | block {body body' : List Stmt} : RenamedAmong body body' → Renamed (.block body) (.block body')
  | function {routine routine' : Routine} : RenamedRoutine routine routine' →
      Renamed (.function routine) (.function routine')
  | thenBody (condition : Expr) {thenBody thenBody' : List Stmt}
      (elseBody : Option (List Stmt)) : RenamedAmong thenBody thenBody' →
      Renamed (.branch condition thenBody elseBody) (.branch condition thenBody' elseBody)
  | elseBody (condition : Expr) (thenBody : List Stmt) {elseBody elseBody' : List Stmt} :
      RenamedAmong elseBody elseBody' →
      Renamed (.branch condition thenBody (some elseBody))
        (.branch condition thenBody (some elseBody'))
  | counter (line : Nat) (value : Expr) (condition increment : Option Expr) (body : List Stmt) :
      Renamed (.loop (some ⟨⟨x, line⟩, value⟩) condition increment body)
        (.loop (some ⟨⟨y, line⟩, value.respell (calling x y)⟩)
          (Expr.respellOption (calling x y) condition) (Expr.respellOption (calling x y) increment)
          (respellAll (calling x y) body))
  | loopBody (counter : Option LoopVar) (condition increment : Option Expr)
      {body body' : List Stmt} : RenamedAmong body body' →
      Renamed (.loop counter condition increment body) (.loop counter condition increment body')
  | classDef (name : Ident) {methods methods' : List Routine} : RenamedMethods methods methods' →
      Renamed (.classDef name methods) (.classDef name methods')

/-- One variable that statements declare in their scope, or in others of their own, is renamed. -/
inductive RenamedAmong : List Stmt → List Stmt → Prop
  | declare (line : Nat) (initializer : Option Expr) (rest : List Stmt) :
      RenamedAmong (.declare ⟨x, line⟩ initializer :: rest)
        (.declare ⟨y, line⟩ (Expr.respellOption (calling x y) initializer) ::
          respellAll (calling x y) rest)
  | head {s s' : Stmt} (rest : List Stmt) : Renamed s s' → RenamedAmong (s :: rest) (s' :: rest)
  | tail (s : Stmt) {rest rest' : List Stmt} : RenamedAmong rest rest' →
      RenamedAmong (s :: rest) (s :: rest')

/-- One parameter or variable of a routine is renamed. -/
inductive RenamedRoutine : Routine → Routine → Prop
  | param (name : Ident) (before : List Ident) (line : Nat) (after : List Ident)
      (body : List Stmt) :
      RenamedRoutine ⟨name, before ++ ⟨x, line⟩ :: after, body⟩
        ⟨name, before ++ ⟨y, line⟩ :: after, respellAll (calling x y) body⟩
  | body (name : Ident) (params : List Ident) {body body' : List Stmt} :
      RenamedAmong body body' → RenamedRoutine ⟨name, params, body⟩ ⟨name, params, body'⟩

/-- One parameter or variable of methods is renamed. -/
inductive RenamedMethods : List Routine → List Routine → Prop
  | head {routine routine' : Routine} (rest : List Routine) : RenamedRoutine routine routine' →
      RenamedMethods (routine :: rest) (routine' :: rest)
  | tail (routine : Routine) {rest rest' : List Routine} : RenamedMethods rest rest' →
      RenamedMethods (routine :: rest) (routine :: rest')

end

end Stmt

/-- One local variable of a program is called `y` in place of `x`. -/
inductive RenamedLocally : List Stmt → List Stmt → Prop
  | head {s s' : Stmt} (rest : List Stmt) : Stmt.Renamed x y s s' →
      RenamedLocally (s :: rest) (s' :: rest)
  | tail (s : Stmt) {rest rest' : List Stmt} : RenamedLocally rest rest' →
      RenamedLocally (s :: rest) (s :: rest')

end Renamed

/-! ## Every local variable can be renamed -/

/-- An entry of two lists stands in one of them. -/
theorem getElem?_append_cases {α : Type} {former latter : List α} {i : Nat} {a : α}
    (present : (former ++ latter)[i]? = some a) :
    (former[i]? = some a ∧ ∀ b, (former ++ latter).set i b = former.set i b ++ latter) ∨
      ∃ j, latter[j]? = some a ∧ ∀ b, (former ++ latter).set i b = former ++ latter.set j b := by
  rw [List.getElem?_append] at present
  split at present
  · next inFormer => exact .inl ⟨present, fun b => List.set_append_left i b inFormer⟩
  · next past => exact .inr ⟨_, present, fun b => List.set_append_right i b (Nat.not_lt.mp past)⟩

/-- A list has something in front of an entry and something behind it. -/
theorem exists_around_of_getElem? {α : Type} {entries : List α} {i : Nat} {a : α}
    (present : entries[i]? = some a) : ∃ before after, entries = before ++ a :: after ∧
      ∀ b, entries.set i b = before ++ b :: after := by
  obtain ⟨inside, rfl⟩ := List.getElem?_eq_some_iff.mp present
  refine ⟨entries.take i, entries.drop (i + 1), ?_, ?_⟩
  · rw [List.getElem_cons_drop, List.take_append_drop]
  · intro b
    rw [List.set_eq_take_append_cons_drop, if_pos inside]

variable (ρ : String → String)

theorem LoopVar.identsOption_respellOption (counter : Option LoopVar) :
    identsOption (respellOption ρ counter) = identsOption counter := by
  cases counter <;> rfl

namespace Stmt

theorem ownVariable?_respell (s : Stmt) : (s.respell ρ).ownVariable? = s.ownVariable? := by
  cases s with
  | branch _ _ elseBody => cases elseBody <;> rfl
  | _ => rfl

mutual

/-- What is declared keeps its name when mentions are respelled. -/
theorem locals_respell : ∀ (ρ : String → String) (s : Stmt), (s.respell ρ).locals = s.locals
  | _, .expression _ | _, .print _ | _, .declare _ _ | _, .exit _ _ => rfl
  | ρ, .block body => by rw [respell, locals, locals, localsAll_respellAll ρ body]
  | ρ, .function ⟨_, _, body⟩ => by rw [respell, locals, locals, localsAll_respellAll _ body]
  | ρ, .branch _ thenBody none => by rw [respell, locals, locals, localsAll_respellAll ρ thenBody]
  | ρ, .branch _ thenBody (some elseBody) => by
      rw [respell, locals, locals, localsAll_respellAll ρ thenBody,
        localsAll_respellAll ρ elseBody]
  | ρ, .loop counter _ _ body => by
      rw [respell, locals, locals, LoopVar.identsOption_respellOption,
        localsAll_respellAll _ body]
  | ρ, .classDef _ methods => by
      rw [respell, locals, locals, localsMethods_respellMethods _ methods]

theorem localsAll_respellAll : ∀ (ρ : String → String) (body : List Stmt),
    localsAll (respellAll ρ body) = localsAll body
  | _, [] => rfl
  | ρ, s :: rest => by
      rw [respellAll, localsAll, localsAll, ownVariable?_respell, locals_respell ρ s,
        localsAll_respellAll _ rest]

theorem localsMethods_respellMethods : ∀ (ρ : String → String) (methods : List Routine),
    localsMethods (respellMethods ρ methods) = localsMethods methods
  | _, [] => rfl
  | ρ, ⟨_, _, body⟩ :: rest => by
      rw [respellMethods, localsMethods, localsMethods, localsAll_respellAll _ body,
        localsMethods_respellMethods ρ rest]

end

/-- The variables and parameters of a routine. -/
def localsRoutine (routine : Routine) : List Ident := routine.params ++ localsAll routine.body

theorem Renamed.ownVariable?_eq {x y : String} {s s' : Stmt} (renamed : Renamed x y s s') :
    s'.ownVariable? = s.ownVariable? := by
  cases renamed <;> rfl

variable {name : Ident} {i : Nat} (y : String)

/-- A parameter can be renamed, if every variable in the body can. -/
theorem exists_renamedRoutine {routine : Routine}
    (inBody : ∀ j, (localsAll routine.body)[j]? = some name → ∃ body',
      RenamedAmong name.name y routine.body body' ∧
        localsAll body' = (localsAll routine.body).set j ⟨y, name.line⟩)
    (present : (localsRoutine routine)[i]? = some name) :
    ∃ routine', RenamedRoutine name.name y routine routine' ∧
      localsRoutine routine' = (localsRoutine routine).set i ⟨y, name.line⟩ := by
  obtain ⟨title, params, body⟩ := routine
  rcases getElem?_append_cases present with ⟨isParam, set⟩ | ⟨j, present, set⟩
  · obtain ⟨before, after, rfl, replaced⟩ := exists_around_of_getElem? isParam
    refine ⟨_, .param title before name.line after body, ?_⟩
    rw [localsRoutine, localsRoutine, set, replaced, localsAll_respellAll]
  · obtain ⟨body', renamed, replaced⟩ := inBody j present
    refine ⟨_, .body title params renamed, ?_⟩
    rw [localsRoutine, localsRoutine, set, replaced]

mutual

theorem exists_renamed : ∀ {s : Stmt} {i : Nat}, s.locals[i]? = some name →
    ∃ s', Renamed name.name y s s' ∧ s'.locals = s.locals.set i ⟨y, name.line⟩
  | .block _, _, present => by
      obtain ⟨body', renamed, replaced⟩ := exists_renamedAmong present
      exact ⟨_, .block renamed, replaced⟩
  | .function ⟨title, params, body⟩, i, present => by
      have inRoutine : (localsRoutine ⟨title, params, body⟩)[i]? = some name := present
      obtain ⟨⟨_, _, _⟩, renamed, replaced⟩ :=
        exists_renamedRoutine y (fun _ inBody => exists_renamedAmong inBody) inRoutine
      exact ⟨_, .function renamed, replaced⟩
  | .branch condition _ none, _, present => by
      obtain ⟨body', renamed, replaced⟩ := exists_renamedAmong present
      exact ⟨_, .thenBody condition none renamed, replaced⟩
  | .branch condition thenBody (some elseBody), _, present => by
      rcases getElem?_append_cases present with ⟨present, set⟩ | ⟨_, present, set⟩
      · obtain ⟨body', renamed, replaced⟩ := exists_renamedAmong present
        refine ⟨_, .thenBody condition (some elseBody) renamed, ?_⟩
        rw [locals, locals, set, replaced]
      · obtain ⟨body', renamed, replaced⟩ := exists_renamedAmong present
        refine ⟨_, .elseBody condition thenBody renamed, ?_⟩
        rw [locals, locals, set, replaced]
  | .loop none condition increment _, _, present => by
      obtain ⟨body', renamed, replaced⟩ := exists_renamedAmong present
      exact ⟨_, .loopBody none condition increment renamed, replaced⟩
  | .loop (some ⟨counter, value⟩) condition increment body, 0, present => by
      obtain rfl : counter = name := Option.some.inj present
      refine ⟨_, .counter counter.line value condition increment body, ?_⟩
      rw [locals, locals, localsAll_respellAll]
      rfl
  | .loop (some counter) condition increment _, i + 1, present => by
      obtain ⟨body', renamed, replaced⟩ := exists_renamedAmong present
      refine ⟨_, .loopBody (some counter) condition increment renamed, ?_⟩
      rw [locals, locals, replaced]
      rfl
  | .classDef title _, _, present => by
      obtain ⟨methods', renamed, replaced⟩ := exists_renamedMethods present
      exact ⟨_, .classDef title renamed, replaced⟩
  | .expression _, _, present | .print _, _, present | .declare _ _, _, present
  | .exit _ _, _, present => by cases present

theorem exists_renamedAmong : ∀ {body : List Stmt} {i : Nat},
    (localsAll body)[i]? = some name →
    ∃ body', RenamedAmong name.name y body body' ∧
      localsAll body' = (localsAll body).set i ⟨y, name.line⟩
  | s :: rest, i, present => by
      rcases getElem?_append_cases present with ⟨present, set⟩ | ⟨j, present, set⟩
      · rcases getElem?_append_cases present with ⟨present, set'⟩ | ⟨j, present, set'⟩
        · cases s with
          | declare other initializer =>
              obtain ⟨inside, rfl⟩ := List.getElem?_eq_some_iff.mp present
              obtain rfl : i = 0 := Nat.lt_one_iff.mp inside
              refine ⟨_, .declare other.line initializer rest, ?_⟩
              rw [localsAll, localsAll, localsAll_respellAll]
              rfl
          | _ => cases present
        · obtain ⟨s', renamed, replaced⟩ := exists_renamed present
          refine ⟨_, .head rest renamed, ?_⟩
          rw [localsAll, localsAll, set, set', replaced, renamed.ownVariable?_eq]
      · obtain ⟨rest', renamed, replaced⟩ := exists_renamedAmong present
        refine ⟨_, .tail s renamed, ?_⟩
        rw [localsAll, localsAll, set, replaced]

theorem exists_renamedMethods : ∀ {methods : List Routine} {i : Nat},
    (localsMethods methods)[i]? = some name →
    ∃ methods', RenamedMethods name.name y methods methods' ∧
      localsMethods methods' = (localsMethods methods).set i ⟨y, name.line⟩
  | ⟨title, params, body⟩ :: rest, i, present => by
      rcases getElem?_append_cases present with ⟨present, set⟩ | ⟨j, present, set⟩
      · have inRoutine : (localsRoutine ⟨title, params, body⟩)[i]? = some name := present
        obtain ⟨⟨_, _, _⟩, renamed, replaced⟩ :=
          exists_renamedRoutine y (fun _ inBody => exists_renamedAmong inBody) inRoutine
        refine ⟨_, .head rest renamed, ?_⟩
        rw [localsMethods, localsMethods, set]
        exact congrArg (· ++ localsMethods rest) replaced
      · obtain ⟨rest', renamed, replaced⟩ := exists_renamedMethods present
        refine ⟨_, .tail _ renamed, ?_⟩
        rw [localsMethods, localsMethods, set, replaced]

end

end Stmt

/-- Every local variable of a program can be called something else. -/
theorem exists_renamedLocally {program : List Stmt} {name : Ident} {i : Nat} (y : String)
    (present : (localsOf program)[i]? = some name) :
    ∃ program', RenamedLocally name.name y program program' ∧
      localsOf program' = (localsOf program).set i ⟨y, name.line⟩ := by
  induction program generalizing i with
  | nil => cases present
  | cons s rest ih =>
      rw [localsOf, List.flatMap_cons] at present
      rcases getElem?_append_cases present with ⟨present, set⟩ | ⟨j, present, set⟩
      · obtain ⟨s', renamed, replaced⟩ := Stmt.exists_renamed y present
        refine ⟨_, .head rest renamed, ?_⟩
        rw [localsOf, localsOf, List.flatMap_cons, List.flatMap_cons, set, replaced]
      · obtain ⟨rest', renamed, replaced⟩ := ih present
        refine ⟨_, .tail s renamed, ?_⟩
        rw [localsOf, localsOf, List.flatMap_cons, List.flatMap_cons, set]
        exact congrArg (s.locals ++ ·) replaced

end Rill
