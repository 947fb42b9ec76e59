import Rill.Proofs.Token.Listing

/-!
# Line feeds in outlines

An outline has the line feeds of the constants and names in it (`Stmt.breaks_outline`). In the tree
of a text that is parsed, only strings have any, since names and numbers are written without, and
these are the strings of the text (`texts_of_parseSource`).
-/

namespace Rill

/-! ## Constants and names as they are shown -/

/-- What an outline shows of a constant or a name. -/
def Atom.shown : Atom → String
  | .constant value => value.outline
  | .var text | .name text => text

/-- The line feeds of constants and names, as they are shown. -/
def breaksOf (atoms : List Atom) : Nat := breaksIn (atoms.map Atom.shown)

@[simp]
theorem breaksOf_nil : breaksOf [] = 0 := rfl

@[simp]
theorem breaksOf_cons (a : Atom) (rest : List Atom) :
    breaksOf (a :: rest) = a.shown.toList.count '\n' + breaksOf rest := by
  rw [breaksOf, List.map_cons, breaksIn_cons]
  rfl

@[simp]
theorem breaksOf_append (first second : List Atom) :
    breaksOf (first ++ second) = breaksOf first + breaksOf second := by
  rw [breaksOf, List.map_append, breaksIn_append]
  rfl

/-! ## Trees -/

theorem UnaryOp.breaks_symbol (operator : UnaryOp) : operator.symbol.toList.count '\n' = 0 := by
  cases operator <;> decide

theorem BinaryOp.breaks_symbol (operator : BinaryOp) : operator.symbol.toList.count '\n' = 0 := by
  cases operator <;> decide

theorem LogicalOp.breaks_symbol (operator : LogicalOp) :
    operator.symbol.toList.count '\n' = 0 := by
  cases operator <;> decide

namespace Expr

mutual

/-- An expression is shown with the line feeds of the constants and names in it. -/
theorem breaks_outline : ∀ e : Expr, e.outline.toList.count '\n' = breaksOf e.atoms
  | literal _ | var _ _ => rfl
  | selfRef _ _ => by simp [outline, atoms]
  | unary operator operand _ => by
      simp [outline, atoms, operand.breaks_outline, operator.breaks_symbol]
  | binary left operator right _ => by
      simp [outline, atoms, left.breaks_outline, right.breaks_outline, operator.breaks_symbol]
  | logical left operator right => by
      simp [outline, atoms, left.breaks_outline, right.breaks_outline, operator.breaks_symbol]
  | group inner => by
      simp [outline, atoms, inner.breaks_outline]
  | assign _ name value => by
      simp [outline, atoms, value.breaks_outline, Atom.shown]
  | call callee arguments _ => by
      simp [outline, atoms, callee.breaks_outline, breaks_outlineAll arguments]
  | get object name => by
      simp [outline, atoms, object.breaks_outline, Atom.shown]
  | set object name value => by
      simp [outline, atoms, object.breaks_outline, value.breaks_outline, Atom.shown]

theorem breaks_outlineAll : ∀ arguments : List Expr,
    (outlineAll arguments).toList.count '\n' = breaksOf (atomsAll arguments)
  | [] => rfl
  | e :: rest => by
      simp [outlineAll, atomsAll, e.breaks_outline, breaks_outlineAll rest]

end

theorem breaks_outlineOption (value : Option Expr) :
    (outlineOption value).toList.count '\n' = breaksOf (atomsOption value) := by
  cases value with
  | none => decide
  | some e => exact e.breaks_outline

end Expr

theorem LoopVar.breaks_outlineOption (counter : Option LoopVar) :
    (outlineOption counter).toList.count '\n' = breaksOf (atomsOption counter) := by
  cases counter with
  | none => decide
  | some counter => simp [outlineOption, atomsOption, counter.value.breaks_outline, Atom.shown]

theorem Ident.breaks_params (params : List Ident) :
    (" ".intercalate (params.map Ident.name)).toList.count '\n' = breaksOf (atoms params) := by
  have space : breaks " " = 0 := by decide
  have names : breaksIn (params.map Ident.name) = breaksOf (atoms params) := by
    rw [breaksOf, atoms, List.map_map]
    rfl
  have counted := breaks_intercalate " " (params.map Ident.name)
  rwa [space, Nat.mul_zero, Nat.zero_add, names] at counted

namespace Stmt

/-- A routine is shown with the line feeds of its names and of its body. -/
theorem breaks_outlineRoutine {head : String} (plain : head.toList.count '\n' = 0) (name : Ident)
    (params : List Ident) (text : String) :
    (outlineRoutine head name params text).toList.count '\n' =
      name.name.toList.count '\n' + (breaksOf (Ident.atoms params) + text.toList.count '\n') := by
  simp [outlineRoutine, plain, -String.toList_intercalate, Ident.breaks_params]

mutual

/-- A statement is shown with the line feeds of the constants and names in it. -/
theorem breaks_outline : ∀ s : Stmt, s.outline.toList.count '\n' = breaksOf s.atoms
  | expression value | print value => by
      simp [outline, atoms, value.breaks_outline]
  | declare name none => by
      simp [outline, atoms, Atom.shown, Expr.atomsOption]
  | declare name (some value) => by
      simp [outline, atoms, Atom.shown, Expr.atomsOption, value.breaks_outline]
  | block body => by
      simp [outline, atoms, breaks_outlineAll body]
  | function ⟨name, params, body⟩ => by
      simp [outline, atoms, Atom.shown, breaks_outlineRoutine, breaks_outlineAll body]
  | branch condition thenBody none => by
      simp [outline, atoms, condition.breaks_outline, breaks_outlineAll thenBody]
  | branch condition thenBody (some elseBody) => by
      simp [outline, atoms, condition.breaks_outline, breaks_outlineAll thenBody,
        breaks_outlineAll elseBody]
  | loop counter condition increment body => by
      simp [outline, atoms, LoopVar.breaks_outlineOption, Expr.breaks_outlineOption,
        breaks_outlineAll body]
  | exit _ none => by
      simp [outline, atoms, Expr.atomsOption]
  | exit _ (some value) => by
      simp [outline, atoms, Expr.atomsOption, value.breaks_outline]
  | classDef name methods => by
      simp [outline, atoms, Atom.shown, breaks_outlineMethods methods]

theorem breaks_outlineAll : ∀ statements : List Stmt,
    (outlineAll statements).toList.count '\n' = breaksOf (atomsAll statements)
  | [] => rfl
  | s :: rest => by
      simp [outlineAll, atomsAll, s.breaks_outline, breaks_outlineAll rest]

theorem breaks_outlineMethods : ∀ methods : List Routine,
    (outlineMethods methods).toList.count '\n' = breaksOf (atomsMethods methods)
  | [] => rfl
  | ⟨name, params, body⟩ :: rest => by
      simp [outlineMethods, atomsMethods, Atom.shown, breaks_outlineRoutine,
        breaks_outlineAll body, breaks_outlineMethods rest, Nat.add_assoc]

end

end Stmt

/-! ## Parsed programs -/

/-- The text that a constant denotes, if it is one. -/
def Atom.texts : Atom → List String
  | .constant (.string text) => [text]
  | _ => []

theorem Kind.texts_of_isAtom_eq_false {kind : Kind} (other : kind.isAtom = false) :
    kind.texts = [] := by
  cases kind with
  | string _ => cases other
  | mark | keyword | newline | identifier | number | endOfInput => rfl

theorem Grammar.texts_of_constant {kind : Kind} {value : Literal}
    (constant : constant? kind = some value) : kind.texts = (Atom.constant value).texts := by
  unfold constant? at constant
  split at constant <;> cases constant <;> rfl

theorem Token.texts_of_makes {t : Token} {a : Atom} (makes : t.Makes a) :
    t.kind.texts = a.texts := by
  cases a with
  | var | name =>
      rw [makes.1]
      rfl
  | constant value => exact Grammar.texts_of_constant makes

/-- Among tokens, the strings are those of the constants that the tokens stand for. -/
theorem texts_of_forall₂_makes {ts : List Token} {atoms : List Atom}
    (made : List.Forall₂ Token.Makes (ts.filter fun t => t.kind.isAtom) atoms) :
    (ts.flatMap fun t => t.kind.texts) = atoms.flatMap Atom.texts := by
  induction ts generalizing atoms with
  | nil =>
      cases made
      rfl
  | cons t rest ih =>
      rw [List.flatMap_cons]
      cases standing : t.kind.isAtom with
      | false =>
          rw [List.filter_cons_of_neg (by simp [standing])] at made
          rw [Kind.texts_of_isAtom_eq_false standing, ih made]
          rfl
      | true =>
          rw [List.filter_cons_of_pos (by simp [standing])] at made
          cases made with
          | cons makes others => rw [Token.texts_of_makes makes, ih others, List.flatMap_cons]

/-- The texts in the tree of a text are those of its strings, in the same order. -/
theorem texts_of_parseSource {source : String} {fresh last : Occurrence} {program : List Stmt}
    (parsed : parseSource source fresh = (.ok program, last)) :
    (Stmt.atomsAll program).flatMap Atom.texts = textsOf source := by
  obtain ⟨body, endLine, scanned, -, derives, -⟩ := program_of_parseSource parsed
  obtain ⟨read, same, made⟩ := derives.writes
  have whole : body = read := same.trans (List.append_nil read)
  rw [textsOf, ← eq_scannedTokens_of_tokens_eq_ok scanned, List.flatMap_append, whole,
    texts_of_forall₂_makes made]
  exact (List.append_nil _).symm

/-- Of what is written in a text, only strings are shown with line feeds. -/
theorem Atom.Written.breaks_shown {a : Atom} (written : a.Written) :
    breaks a.shown = breaksIn a.texts := by
  cases a with
  | var text | name text =>
      exact breaks_eq_zero_iff.mpr (Lexeme.lineFeed_not_mem written nofun nofun)
  | constant value =>
      cases value with
      | number value => exact value.breaks_treeText
      | string text => exact (Nat.add_zero _).symm
      | bool value => cases value <;> decide
      | nil => decide

theorem breaksOf_eq {atoms : List Atom} (written : ∀ a ∈ atoms, a.Written) :
    breaksOf atoms = breaksIn (atoms.flatMap Atom.texts) := by
  induction atoms with
  | nil => rfl
  | cons a rest ih =>
      obtain ⟨first, others⟩ := List.forall_mem_cons.mp written
      rw [breaksOf_cons, List.flatMap_cons, breaksIn_append, ih others, ← first.breaks_shown]
      rfl

end Rill
