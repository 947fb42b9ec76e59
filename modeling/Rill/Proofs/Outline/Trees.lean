import Rill.Proofs.Outline.Forms
import Rill.Syntax.Outline

/-!
# The forms of trees

The outline of a tree is the text of a form: a word for a constant, a variable or `self`, and a list
for everything else, which begins with a word for what the tree is.
-/

namespace Rill

open Form (list word)

namespace Expr

mutual

/-- The form of an expression. -/
def form : Expr → Form
  | literal value => word value.outline
  | unary operator operand _ => list [word operator.symbol, operand.form]
  | binary left operator right _ => list [word operator.symbol, left.form, right.form]
  | logical left operator right => list [word operator.symbol, left.form, right.form]
  | group inner => list [word "group", inner.form]
  | var _ name => word name.name
  | assign _ name value => list [word "=", word name.name, value.form]
  | call callee arguments _ => list (word "call" :: callee.form :: formAll arguments)
  | get object name => list [word ".", object.form, word name.name]
  | set object name value => list [word ".=", object.form, word name.name, value.form]
  | selfRef _ _ => word "self"

/-- The forms of expressions. -/
def formAll : List Expr → List Form
  | [] => []
  | e :: rest => e.form :: formAll rest

end

/-- The form of an expression that may be absent. -/
def formOption : Option Expr → Form
  | some e => e.form
  | none => word "_"

mutual

theorem toList_outline : ∀ e : Expr, e.outline.toList = e.form.chars
  | literal _ | var _ _ | selfRef _ _ => rfl
  | unary operator operand _ => by
      simp [outline, form, operand.toList_outline]
  | binary left operator right _ => by
      simp [outline, form, left.toList_outline, right.toList_outline]
  | logical left operator right => by
      simp [outline, form, left.toList_outline, right.toList_outline]
  | group inner => by
      simp [outline, form, inner.toList_outline]
  | assign _ name value => by
      simp [outline, form, value.toList_outline]
  | call callee arguments _ => by
      simp [outline, form, callee.toList_outline, toList_outlineAll arguments]
  | get object name => by
      simp [outline, form, object.toList_outline]
  | set object name value => by
      simp [outline, form, object.toList_outline, value.toList_outline]

theorem toList_outlineAll : ∀ arguments : List Expr,
    (outlineAll arguments).toList = Form.behind ' ' (formAll arguments)
  | [] => rfl
  | e :: rest => by
      simp [outlineAll, formAll, e.toList_outline, toList_outlineAll rest]

end

theorem toList_outlineOption (value : Option Expr) :
    (outlineOption value).toList = (formOption value).chars := by
  cases value with
  | none => rfl
  | some e => exact e.toList_outline

end Expr

/-- The form of a loop variable that may be absent. -/
def LoopVar.formOption : Option LoopVar → Form
  | some counter => list [word "=", word counter.name.name, counter.value.form]
  | none => word "_"

theorem LoopVar.toList_outlineOption (counter : Option LoopVar) :
    (outlineOption counter).toList = (formOption counter).chars := by
  cases counter with
  | none => rfl
  | some counter =>
      simp [outlineOption, formOption, counter.value.toList_outline]

namespace Stmt

/-- The form of a routine, given those of its body. -/
def formRoutine (head : String) (name : Ident) (params : List Ident) (body : List Form) : Form :=
  list (word head :: word name.name :: list (params.map fun param => word param.name) :: body)

mutual

/-- The form of a statement. -/
def form : Stmt → Form
  | expression value => list [word "expr", value.form]
  | print value => list [word "print", value.form]
  | declare name none => list [word "let", word name.name]
  | declare name (some value) => list [word "let", word name.name, value.form]
  | block body => list (word "block" :: formAll body)
  | function ⟨name, params, body⟩ => formRoutine "fn" name params (formAll body)
  | branch condition thenBody none =>
    list [word "if", condition.form, list (word "then" :: formAll thenBody)]
  | branch condition thenBody (some elseBody) =>
    list [word "if", condition.form, list (word "then" :: formAll thenBody),
      list (word "else" :: formAll elseBody)]
  | loop counter condition increment body =>
    list [word "for", LoopVar.formOption counter, Expr.formOption condition,
      Expr.formOption increment, list (word "body" :: formAll body)]
  | exit _ none => list [word "return"]
  | exit _ (some value) => list [word "return", value.form]
  | classDef name methods => list (word "class" :: word name.name :: formMethods methods)

/-- The forms of statements. -/
def formAll : List Stmt → List Form
  | [] => []
  | s :: rest => s.form :: formAll rest

/-- The forms of methods. -/
def formMethods : List Routine → List Form
  | [] => []
  | ⟨name, params, body⟩ :: rest =>
    formRoutine "method" name params (formAll body) :: formMethods rest

end

theorem formAll_eq (statements : List Stmt) : formAll statements = statements.map form := by
  induction statements with
  | nil => rfl
  | cons s rest ih => rw [formAll, ih, List.map_cons]

theorem chars_params (params : List Ident) :
    (list (params.map fun param => word param.name)).chars =
      '(' :: ((" ".intercalate (params.map Ident.name)).toList ++ [')']) := by
  rw [Form.chars_list, String.toList_intercalate, List.map_map, List.map_map]
  rfl

theorem toList_outlineRoutine (head : String) (name : Ident) (params : List Ident) {text : String}
    {body : List Form} (same : text.toList = Form.behind ' ' body) :
    (outlineRoutine head name params text).toList = (formRoutine head name params body).chars := by
  simp [outlineRoutine, formRoutine, chars_params, same]

mutual

theorem toList_outline : ∀ s : Stmt, s.outline.toList = s.form.chars
  | expression value | print value => by
      simp [outline, form, value.toList_outline]
  | declare name none => by
      simp [outline, form]
  | declare name (some value) => by
      simp [outline, form, value.toList_outline]
  | block body => by
      simp [outline, form, toList_outlineAll body]
  | function ⟨name, params, body⟩ =>
      toList_outlineRoutine "fn" name params (toList_outlineAll body)
  | branch condition thenBody none => by
      simp [outline, form, condition.toList_outline, toList_outlineAll thenBody]
  | branch condition thenBody (some elseBody) => by
      simp [outline, form, condition.toList_outline, toList_outlineAll thenBody,
        toList_outlineAll elseBody]
  | loop counter condition increment body => by
      simp [outline, form, LoopVar.toList_outlineOption, Expr.toList_outlineOption,
        toList_outlineAll body]
  | exit _ none => by simp [outline, form]
  | exit _ (some value) => by
      simp [outline, form, value.toList_outline]
  | classDef name methods => by
      simp [outline, form, toList_outlineMethods methods]

theorem toList_outlineAll : ∀ statements : List Stmt,
    (outlineAll statements).toList = Form.behind ' ' (formAll statements)
  | [] => rfl
  | s :: rest => by
      simp [outlineAll, formAll, s.toList_outline, toList_outlineAll rest]

theorem toList_outlineMethods : ∀ methods : List Routine,
    (outlineMethods methods).toList = Form.behind ' ' (formMethods methods)
  | [] => rfl
  | ⟨name, params, body⟩ :: rest => by
      have routine := toList_outlineRoutine "method" name params (toList_outlineAll body)
      simp [outlineMethods, formMethods, routine, toList_outlineMethods rest]

end

end Stmt

/-- The outline of a program is the lines of the forms of its statements. -/
theorem toList_outlineProgram (program : List Stmt) :
    (outlineProgram program).toList =
      ['\n'].intercalate ((Stmt.formAll program).map Form.chars) := by
  rw [outlineProgram, String.toList_intercalate, Stmt.formAll_eq, List.map_map, List.map_map]
  congr 1
  exact List.map_congr_left fun s _ => s.toList_outline

end Rill
