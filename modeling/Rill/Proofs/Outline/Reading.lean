import Mathlib.Data.List.Forall2
import Rill.Proofs.Outline.Words

/-!
# Reading an outline back

An outline without texts, infinities and variables called like an absent part can be read in one
way. Which rule made an expression is seen from the first word of its form and from how many parts
follow it, and the parts of a statement from their places.
-/

namespace Rill

/-! ## Trees that are alike -/

/-- Two constants are the same, or numbers that are shown alike. -/
inductive Literal.Alike : Literal → Literal → Prop
  | number {value value' : Number} : value.treeText = value'.treeText →
      Alike (.number value) (.number value')
  | string (text : String) : Alike (.string text) (.string text)
  | bool (value : Bool) : Alike (.bool value) (.bool value)
  | nil : Alike .nil .nil

/-- Two names are the same, on whatever lines they stand. -/
def Ident.Alike (name name' : Ident) : Prop := name.name = name'.name

mutual

/-- Two expressions are the same but for the numbers of occurrences and the lines. -/
inductive Expr.Alike : Expr → Expr → Prop
  | literal {value value' : Literal} : value.Alike value' → Alike (.literal value) (.literal value')
  | unary {operand operand' : Expr} (operator : UnaryOp) (line line' : Nat) :
      Alike operand operand' →
      Alike (.unary operator operand line) (.unary operator operand' line')
  | binary {left left' right right' : Expr} (operator : BinaryOp) (line line' : Nat) :
      Alike left left' → Alike right right' →
      Alike (.binary left operator right line) (.binary left' operator right' line')
  | logical {left left' right right' : Expr} (operator : LogicalOp) :
      Alike left left' → Alike right right' →
      Alike (.logical left operator right) (.logical left' operator right')
  | group {inner inner' : Expr} : Alike inner inner' → Alike (.group inner) (.group inner')
  | var {name name' : Ident} (id id' : Occurrence) : name.Alike name' →
      Alike (.var id name) (.var id' name')
  | assign {name name' : Ident} {value value' : Expr} (id id' : Occurrence) :
      name.Alike name' → Alike value value' →
      Alike (.assign id name value) (.assign id' name' value')
  | call {callee callee' : Expr} {arguments arguments' : List Expr} (line line' : Nat) :
      Alike callee callee' → AlikeAll arguments arguments' →
      Alike (.call callee arguments line) (.call callee' arguments' line')
  | get {object object' : Expr} {name name' : Ident} : Alike object object' → name.Alike name' →
      Alike (.get object name) (.get object' name')
  | set {object object' value value' : Expr} {name name' : Ident} : Alike object object' →
      name.Alike name' → Alike value value' →
      Alike (.set object name value) (.set object' name' value')
  | selfRef (id id' : Occurrence) (line line' : Nat) : Alike (.selfRef id line) (.selfRef id' line')

/-- Expressions are alike, one by one. -/
inductive Expr.AlikeAll : List Expr → List Expr → Prop
  | nil : AlikeAll [] []
  | cons {e e' : Expr} {rest rest' : List Expr} : Expr.Alike e e' → AlikeAll rest rest' →
      AlikeAll (e :: rest) (e' :: rest')

end

/-- Two variables of loops are alike. -/
structure LoopVar.Alike (counter counter' : LoopVar) : Prop where
  name : counter.name.Alike counter'.name
  value : counter.value.Alike counter'.value

mutual

/-- Two statements are the same but for the numbers of occurrences and the lines. -/
inductive Stmt.Alike : Stmt → Stmt → Prop
  | expression {value value' : Expr} : value.Alike value' →
      Alike (.expression value) (.expression value')
  | print {value value' : Expr} : value.Alike value' → Alike (.print value) (.print value')
  | declare {name name' : Ident} {initializer initializer' : Option Expr} : name.Alike name' →
      Option.Rel Expr.Alike initializer initializer' →
      Alike (.declare name initializer) (.declare name' initializer')
  | block {body body' : List Stmt} : AlikeAll body body' → Alike (.block body) (.block body')
  | function {routine routine' : Routine} : AlikeRoutine routine routine' →
      Alike (.function routine) (.function routine')
  | branch {condition condition' : Expr} {thenBody thenBody' : List Stmt}
      {elseBody elseBody' : Option (List Stmt)} : condition.Alike condition' →
      AlikeAll thenBody thenBody' → AlikeElse elseBody elseBody' →
      Alike (.branch condition thenBody elseBody) (.branch condition' thenBody' elseBody')
  | loop {counter counter' : Option LoopVar}
      {condition condition' increment increment' : Option Expr} {body body' : List Stmt} :
      Option.Rel LoopVar.Alike counter counter' → Option.Rel Expr.Alike condition condition' →
      Option.Rel Expr.Alike increment increment' →
      AlikeAll body body' →
      Alike (.loop counter condition increment body) (.loop counter' condition' increment' body')
  | exit {value value' : Option Expr} (line line' : Nat) : Option.Rel Expr.Alike value value' →
      Alike (.exit line value) (.exit line' value')
  | classDef {name name' : Ident} {methods methods' : List Routine} : name.Alike name' →
      AlikeMethods methods methods' → Alike (.classDef name methods) (.classDef name' methods')

/-- Statements are alike, one by one. -/
inductive Stmt.AlikeAll : List Stmt → List Stmt → Prop
  | nil : AlikeAll [] []
  | cons {s s' : Stmt} {rest rest' : List Stmt} : Stmt.Alike s s' → AlikeAll rest rest' →
      AlikeAll (s :: rest) (s' :: rest')

/-- What stands behind `else` is alike, or absent in both. -/
inductive Stmt.AlikeElse : Option (List Stmt) → Option (List Stmt) → Prop
  | absent : AlikeElse none none
  | present {body body' : List Stmt} : Stmt.AlikeAll body body' →
      AlikeElse (some body) (some body')

/-- Methods are alike, one by one. -/
inductive Stmt.AlikeMethods : List Routine → List Routine → Prop
  | nil : AlikeMethods [] []
  | cons {routine routine' : Routine} {rest rest' : List Routine} :
      Stmt.AlikeRoutine routine routine' → AlikeMethods rest rest' →
      AlikeMethods (routine :: rest) (routine' :: rest')

/-- Two routines have alike names, parameters and bodies. -/
inductive Stmt.AlikeRoutine : Routine → Routine → Prop
  | mk {name name' : Ident} {params params' : List Ident} {body body' : List Stmt} :
      name.Alike name' → List.Forall₂ Ident.Alike params params' → Stmt.AlikeAll body body' →
      AlikeRoutine ⟨name, params, body⟩ ⟨name', params', body'⟩

end

open Form (list word)

/-! ## Rules -/

/-- The rule that made an expression. -/
inductive Rule
  | leaf | unary | binary | logical | group | assign | call | get | set
deriving DecidableEq

/-- The rule that is seen from the first word of a form and the number of other parts. -/
def Form.rule : Form → Rule
  | .list (.word head :: parts) =>
    if head = "group" then .group
    else if head = "=" then .assign
    else if head = "call" then .call
    else if head = "." then .get
    else if head = ".=" then .set
    else if head = "and" ∨ head = "or" then .logical
    else if parts.length = 1 then .unary
    else .binary
  | _ => .leaf

/-- The rule that made an expression. -/
def Expr.rule : Expr → Rule
  | .literal _ | .var _ _ | .selfRef _ _ => .leaf
  | .unary _ _ _ => .unary
  | .binary _ _ _ _ => .binary
  | .logical _ _ _ => .logical
  | .group _ => .group
  | .assign _ _ _ => .assign
  | .call _ _ _ => .call
  | .get _ _ => .get
  | .set _ _ _ => .set

theorem Expr.rule_form (e : Expr) : e.form.rule = e.rule := by
  cases e with
  | unary operator | binary _ operator | logical _ operator => cases operator <;> rfl
  | _ => rfl

theorem Expr.rule_eq {e e' : Expr} (same : e.form = e'.form) : e.rule = e'.rule := by
  rw [← e.rule_form, same, e'.rule_form]

theorem UnaryOp.symbol_inj {operator operator' : UnaryOp}
    (same : operator.symbol = operator'.symbol) : operator = operator' := by
  cases operator <;> cases operator' <;> first | rfl | exact absurd same (by decide)

theorem BinaryOp.symbol_inj {operator operator' : BinaryOp}
    (same : operator.symbol = operator'.symbol) : operator = operator' := by
  cases operator <;> cases operator' <;> first | rfl | exact absurd same (by decide)

theorem LogicalOp.symbol_inj {operator operator' : LogicalOp}
    (same : operator.symbol = operator'.symbol) : operator = operator' := by
  cases operator <;> cases operator' <;> first | rfl | exact absurd same (by decide)

/-! ## Words -/

namespace Literal

variable {value value' : Literal}

/-- A constant is shown as a reserved word, or begins with a digit. -/
theorem keyword_or_numeral (clear : (Atom.constant value).Clear) :
    (∃ keyword : Keyword, keyword ≠ .selfWord ∧ value.outline = keyword.text) ∨
      Numeral value.outline.toList := by
  cases value with
  | number value => exact .inr clear
  | string text => exact clear.elim
  | bool value =>
      cases value with
      | true => exact .inl ⟨.trueWord, nofun, rfl⟩
      | false => exact .inl ⟨.falseWord, nofun, rfl⟩
  | nil => exact .inl ⟨.nilWord, nofun, rfl⟩

theorem outline_ne_identifier (clear : (Atom.constant value).Clear) {name : String}
    (identifier : Lexeme .identifier name.toList) : value.outline ≠ name := by
  rintro rfl
  rcases keyword_or_numeral clear with ⟨keyword, -, same⟩ | numeral
  · exact identifier.ne_keyword keyword same
  · obtain ⟨c, rest, begins, digit⟩ := numeral.begins
    rw [begins] at identifier
    cases identifier with
    | identifier isWord _ =>
        obtain ⟨d, more, same, starts⟩ := isWord.starts
        rw [(List.cons.inj same).1, Piece.isDigit_of_startsWord starts] at digit
        cases digit

theorem outline_ne_self (clear : (Atom.constant value).Clear) : value.outline ≠ "self" := by
  intro same
  rcases keyword_or_numeral clear with ⟨keyword, other, shown⟩ | numeral
  · rw [shown] at same
    cases keyword <;> first | exact other rfl | exact absurd same (by decide)
  · exact numeral.ne_cons (by decide) _ (congrArg String.toList same)

theorem outline_ne_absent (clear : (Atom.constant value).Clear) : value.outline ≠ "_" := by
  intro same
  rcases keyword_or_numeral clear with ⟨keyword, -, shown⟩ | numeral
  · rw [shown] at same
    cases keyword <;> exact absurd same (by decide)
  · exact numeral.ne_cons (by decide) _ (congrArg String.toList same)

theorem alike_of_outline (clear : (Atom.constant value).Clear)
    (clear' : (Atom.constant value').Clear) (same : value.outline = value'.outline) :
    value.Alike value' := by
  have apart {n : Number} (numeral : Numeral n.treeText.toList) {c : Char}
      (letter : c.isDigit = false) {rest : List Char} {word : String}
      (begins : word.toList = c :: rest) : n.treeText ≠ word := by
    rintro rfl
    exact numeral.ne_cons letter rest begins
  cases value with
  | string => exact clear.elim
  | number n =>
      cases value' with
      | string => exact clear'.elim
      | number n' => exact .number same
      | bool b => cases b <;> exact absurd same (apart clear (by decide) rfl)
      | nil => exact absurd same (apart clear (by decide) rfl)
  | bool b =>
      cases value' with
      | string => exact clear'.elim
      | number n' => cases b <;> exact absurd same.symm (apart clear' (by decide) rfl)
      | bool b' =>
          cases b <;> cases b' <;> first | exact .bool _ | exact absurd same (by decide)
      | nil => cases b <;> exact absurd same (by decide)
  | nil =>
      cases value' with
      | string => exact clear'.elim
      | number n' => exact absurd same.symm (apart clear' (by decide) rfl)
      | bool b' => cases b' <;> exact absurd same (by decide)
      | nil => exact .nil

end Literal

/-! ## Expressions -/

namespace Expr

mutual

/-- Expressions of one form are alike. -/
theorem alike_of_form_eq : ∀ {e e' : Expr}, (∀ a ∈ e.atoms, a.Clear) → (∀ a ∈ e'.atoms, a.Clear) →
    e.form = e'.form → e.Alike e'
  | literal value, e', clear, clear', same => by
      have rules := rule_eq same
      have constant := clear _ List.mem_cons_self
      cases e' with
      | literal value' =>
          exact .literal (Literal.alike_of_outline constant (clear' _ List.mem_cons_self)
            (Form.word.inj same))
      | var id name' =>
          exact absurd (Form.word.inj same)
            (Literal.outline_ne_identifier constant (clear' _ List.mem_cons_self).1)
      | selfRef => exact absurd (Form.word.inj same) (Literal.outline_ne_self constant)
      | _ => cases rules
  | var id name, e', clear, clear', same => by
      have rules := rule_eq same
      have identifier := (clear _ List.mem_cons_self).1
      cases e' with
      | literal value' =>
          exact absurd (Form.word.inj same).symm
            (Literal.outline_ne_identifier (clear' _ List.mem_cons_self) identifier)
      | var id' name' => exact .var id id' (Form.word.inj same)
      | selfRef => exact absurd (Form.word.inj same) (identifier.ne_keyword .selfWord)
      | _ => cases rules
  | selfRef id line, e', _, clear', same => by
      have rules := rule_eq same
      cases e' with
      | literal value' =>
          exact absurd (Form.word.inj same).symm
            (Literal.outline_ne_self (clear' _ List.mem_cons_self))
      | var id' name' =>
          exact absurd (Form.word.inj same).symm
            ((clear' _ List.mem_cons_self).1.ne_keyword .selfWord)
      | selfRef => exact .selfRef ..
      | _ => cases rules
  | unary operator operand line, e', clear, clear', same => by
      have rules := rule_eq same
      cases e' with
      | unary operator' operand' line' =>
          simp only [form, Form.list.injEq, List.cons.injEq, Form.word.injEq, and_true] at same
          obtain rfl := UnaryOp.symbol_inj same.1
          exact .unary operator line line' (alike_of_form_eq clear clear' same.2)
      | _ => cases rules
  | binary left operator right line, e', clear, clear', same => by
      have rules := rule_eq same
      obtain ⟨inLeft, inRight⟩ := List.forall_mem_append.mp clear
      cases e' with
      | binary left' operator' right' line' =>
          simp only [form, Form.list.injEq, List.cons.injEq, Form.word.injEq, and_true] at same
          obtain ⟨symbols, lefts, rights⟩ := same
          obtain ⟨inLeft', inRight'⟩ := List.forall_mem_append.mp clear'
          obtain rfl := BinaryOp.symbol_inj symbols
          exact .binary operator line line' (alike_of_form_eq inLeft inLeft' lefts)
            (alike_of_form_eq inRight inRight' rights)
      | _ => cases rules
  | logical left operator right, e', clear, clear', same => by
      have rules := rule_eq same
      obtain ⟨inLeft, inRight⟩ := List.forall_mem_append.mp clear
      cases e' with
      | logical left' operator' right' =>
          simp only [form, Form.list.injEq, List.cons.injEq, Form.word.injEq, and_true] at same
          obtain ⟨symbols, lefts, rights⟩ := same
          obtain ⟨inLeft', inRight'⟩ := List.forall_mem_append.mp clear'
          obtain rfl := LogicalOp.symbol_inj symbols
          exact .logical operator (alike_of_form_eq inLeft inLeft' lefts)
            (alike_of_form_eq inRight inRight' rights)
      | _ => cases rules
  | group inner, e', clear, clear', same => by
      have rules := rule_eq same
      cases e' with
      | group inner' =>
          simp only [form, Form.list.injEq, List.cons.injEq, and_true, true_and] at same
          exact .group (alike_of_form_eq clear clear' same)
      | _ => cases rules
  | assign id name value, e', clear, clear', same => by
      have rules := rule_eq same
      obtain ⟨_, inValue⟩ := List.forall_mem_cons.mp clear
      cases e' with
      | assign id' name' value' =>
          simp only [form, Form.list.injEq, List.cons.injEq, Form.word.injEq, and_true,
            true_and] at same
          obtain ⟨_, inValue'⟩ := List.forall_mem_cons.mp clear'
          exact .assign id id' same.1 (alike_of_form_eq inValue inValue' same.2)
      | _ => cases rules
  | call callee arguments line, e', clear, clear', same => by
      have rules := rule_eq same
      obtain ⟨inCallee, inArguments⟩ := List.forall_mem_append.mp clear
      cases e' with
      | call callee' arguments' line' =>
          simp only [form, Form.list.injEq, List.cons.injEq, true_and] at same
          obtain ⟨inCallee', inArguments'⟩ := List.forall_mem_append.mp clear'
          exact .call line line' (alike_of_form_eq inCallee inCallee' same.1)
            (alikeAll_of_formAll_eq inArguments inArguments' same.2)
      | _ => cases rules
  | get object name, e', clear, clear', same => by
      have rules := rule_eq same
      obtain ⟨inObject, _⟩ := List.forall_mem_append.mp clear
      cases e' with
      | get object' name' =>
          simp only [form, Form.list.injEq, List.cons.injEq, Form.word.injEq, and_true,
            true_and] at same
          obtain ⟨inObject', _⟩ := List.forall_mem_append.mp clear'
          exact .get (alike_of_form_eq inObject inObject' same.1) same.2
      | _ => cases rules
  | set object name value, e', clear, clear', same => by
      have rules := rule_eq same
      obtain ⟨inObject, others⟩ := List.forall_mem_append.mp clear
      obtain ⟨_, inValue⟩ := List.forall_mem_cons.mp others
      cases e' with
      | set object' name' value' =>
          simp only [form, Form.list.injEq, List.cons.injEq, Form.word.injEq, and_true,
            true_and] at same
          obtain ⟨objects, names, values⟩ := same
          obtain ⟨inObject', others'⟩ := List.forall_mem_append.mp clear'
          obtain ⟨_, inValue'⟩ := List.forall_mem_cons.mp others'
          exact .set (alike_of_form_eq inObject inObject' objects) names
            (alike_of_form_eq inValue inValue' values)
      | _ => cases rules

theorem alikeAll_of_formAll_eq : ∀ {arguments arguments' : List Expr},
    (∀ a ∈ atomsAll arguments, a.Clear) → (∀ a ∈ atomsAll arguments', a.Clear) →
    formAll arguments = formAll arguments' → AlikeAll arguments arguments'
  | [], [], _, _, _ => .nil
  | [], _ :: _, _, _, same | _ :: _, [], _, _, same => nomatch same
  | e :: rest, e' :: rest', clear, clear', same => by
      obtain ⟨first, others⟩ := List.cons.inj same
      obtain ⟨inFirst, inRest⟩ := List.forall_mem_append.mp clear
      obtain ⟨inFirst', inRest'⟩ := List.forall_mem_append.mp clear'
      exact .cons (alike_of_form_eq inFirst inFirst' first)
        (alikeAll_of_formAll_eq inRest inRest' others)

end

/-- An expression is not shown like an absent one. -/
theorem form_ne_absent {e : Expr} (clear : ∀ a ∈ e.atoms, a.Clear) : e.form ≠ word "_" := by
  cases e with
  | literal value =>
      intro same
      exact Literal.outline_ne_absent (clear _ List.mem_cons_self) (Form.word.inj same)
  | var id name =>
      intro same
      exact (clear _ List.mem_cons_self).2 (Form.word.inj same)
  | selfRef id line => exact fun same => absurd (Form.word.inj same) (by decide)
  | _ => exact nofun

theorem alike_of_formOption_eq {value value' : Option Expr}
    (clear : ∀ a ∈ atomsOption value, a.Clear) (clear' : ∀ a ∈ atomsOption value', a.Clear)
    (same : formOption value = formOption value') : Option.Rel Expr.Alike value value' := by
  cases value with
  | none =>
      cases value' with
      | none => exact .none
      | some e' => exact absurd same.symm (form_ne_absent clear')
  | some e =>
      cases value' with
      | none => exact absurd same (form_ne_absent clear)
      | some e' => exact .some (alike_of_form_eq clear clear' same)

end Expr

theorem LoopVar.alike_of_formOption_eq {counter counter' : Option LoopVar}
    (clear : ∀ a ∈ atomsOption counter, a.Clear) (clear' : ∀ a ∈ atomsOption counter', a.Clear)
    (same : formOption counter = formOption counter') :
    Option.Rel LoopVar.Alike counter counter' := by
  cases counter with
  | none =>
      cases counter' with
      | none => exact .none
      | some counter' => cases same
  | some counter =>
      cases counter' with
      | none => cases same
      | some counter' =>
          simp only [formOption, Form.list.injEq, List.cons.injEq, Form.word.injEq, and_true,
            true_and] at same
          obtain ⟨_, inValue⟩ := List.forall_mem_cons.mp clear
          obtain ⟨_, inValue'⟩ := List.forall_mem_cons.mp clear'
          exact .some ⟨same.1, Expr.alike_of_form_eq inValue inValue' same.2⟩

/-! ## Statements -/

namespace Ident

theorem alike_of_forms_eq {params params' : List Ident}
    (same : params.map (fun param => word param.name) =
      params'.map fun param => word param.name) : List.Forall₂ Ident.Alike params params' := by
  induction params generalizing params' with
  | nil =>
      cases params' with
      | nil => exact .nil
      | cons param' rest' => cases same
  | cons param rest ih =>
      cases params' with
      | nil => cases same
      | cons param' rest' =>
          obtain ⟨first, others⟩ := List.cons.inj same
          exact .cons (Form.word.inj first) (ih others)

end Ident

/-- The first word of a form. -/
def Form.head? : Form → Option String
  | .list (.word head :: _) => some head
  | _ => none

namespace Stmt

/-- What the form of a statement begins with. -/
def head : Stmt → String
  | expression _ => "expr"
  | print _ => "print"
  | declare _ _ => "let"
  | block _ => "block"
  | function _ => "fn"
  | branch _ _ _ => "if"
  | loop _ _ _ _ => "for"
  | exit _ _ => "return"
  | classDef _ _ => "class"

theorem head?_form (s : Stmt) : s.form.head? = some s.head := by
  cases s with
  | declare name initializer => cases initializer <;> rfl
  | branch condition thenBody elseBody => cases elseBody <;> rfl
  | exit line value => cases value <;> rfl
  | _ => rfl

theorem head_eq {s s' : Stmt} (same : s.form = s'.form) : s.head = s'.head := by
  rw [← Option.some.injEq, ← s.head?_form, same, s'.head?_form]

mutual

/-- Statements of one form are alike. -/
theorem alike_of_form_eq : ∀ {s s' : Stmt}, (∀ a ∈ s.atoms, a.Clear) → (∀ a ∈ s'.atoms, a.Clear) →
    s.form = s'.form → s.Alike s'
  | expression value, s', clear, clear', same => by
      cases s' with
      | expression value' =>
          simp only [form, Form.list.injEq, List.cons.injEq, and_true, true_and] at same
          exact .expression (Expr.alike_of_form_eq clear clear' same)
      | _ => exact absurd (head_eq same) (by simp [head])
  | print value, s', clear, clear', same => by
      cases s' with
      | print value' =>
          simp only [form, Form.list.injEq, List.cons.injEq, and_true, true_and] at same
          exact .print (Expr.alike_of_form_eq clear clear' same)
      | _ => exact absurd (head_eq same) (by simp [head])
  | declare name none, s', _, _, same => by
      cases s' with
      | declare name' initializer' =>
          cases initializer' with
          | none =>
              simp only [form, Form.list.injEq, List.cons.injEq, Form.word.injEq, and_true,
                true_and] at same
              exact .declare same .none
          | some value' => simp [form] at same
      | _ => exact absurd (head_eq same) (by simp [head])
  | declare name (some value), s', clear, clear', same => by
      obtain ⟨_, inValue⟩ := List.forall_mem_cons.mp clear
      cases s' with
      | declare name' initializer' =>
          cases initializer' with
          | none => simp [form] at same
          | some value' =>
              simp only [form, Form.list.injEq, List.cons.injEq, Form.word.injEq, and_true,
                true_and] at same
              obtain ⟨_, inValue'⟩ := List.forall_mem_cons.mp clear'
              exact .declare same.1 (.some (Expr.alike_of_form_eq inValue inValue' same.2))
      | _ => exact absurd (head_eq same) (by simp [head])
  | block body, s', clear, clear', same => by
      cases s' with
      | block body' =>
          simp only [form, Form.list.injEq, List.cons.injEq, true_and] at same
          exact .block (alikeAll_of_formAll_eq clear clear' same)
      | _ => exact absurd (head_eq same) (by simp [head])
  | function ⟨name, params, body⟩, s', clear, clear', same => by
      obtain ⟨_, others⟩ := List.forall_mem_cons.mp clear
      obtain ⟨_, inBody⟩ := List.forall_mem_append.mp others
      cases s' with
      | function routine' =>
          obtain ⟨name', params', body'⟩ := routine'
          obtain ⟨_, others'⟩ := List.forall_mem_cons.mp clear'
          obtain ⟨_, inBody'⟩ := List.forall_mem_append.mp others'
          simp only [form, formRoutine, Form.list.injEq, List.cons.injEq, Form.word.injEq,
            true_and] at same
          obtain ⟨names, lists, bodies⟩ := same
          exact .function (.mk names (Ident.alike_of_forms_eq lists)
            (alikeAll_of_formAll_eq inBody inBody' bodies))
      | _ => exact absurd (head_eq same) (by simp [head])
  | branch condition thenBody none, s', clear, clear', same => by
      obtain ⟨inCondition, inThen⟩ := List.forall_mem_append.mp clear
      cases s' with
      | branch condition' thenBody' elseBody' =>
          cases elseBody' with
          | none =>
              simp only [form, Form.list.injEq, List.cons.injEq, and_true, true_and] at same
              obtain ⟨inCondition', inThen'⟩ := List.forall_mem_append.mp clear'
              exact .branch (Expr.alike_of_form_eq inCondition inCondition' same.1)
                (alikeAll_of_formAll_eq inThen inThen' same.2) .absent
          | some elseBody' => simp [form] at same
      | _ => exact absurd (head_eq same) (by simp [head])
  | branch condition thenBody (some elseBody), s', clear, clear', same => by
      obtain ⟨others, inElse⟩ := List.forall_mem_append.mp clear
      obtain ⟨inCondition, inThen⟩ := List.forall_mem_append.mp others
      cases s' with
      | branch condition' thenBody' elseBody' =>
          cases elseBody' with
          | none => simp [form] at same
          | some elseBody' =>
              simp only [form, Form.list.injEq, List.cons.injEq, and_true, true_and] at same
              obtain ⟨conditions, thens, elses⟩ := same
              obtain ⟨others', inElse'⟩ := List.forall_mem_append.mp clear'
              obtain ⟨inCondition', inThen'⟩ := List.forall_mem_append.mp others'
              exact .branch (Expr.alike_of_form_eq inCondition inCondition' conditions)
                (alikeAll_of_formAll_eq inThen inThen' thens)
                (.present (alikeAll_of_formAll_eq inElse inElse' elses))
      | _ => exact absurd (head_eq same) (by simp [head])
  | loop counter condition increment body, s', clear, clear', same => by
      obtain ⟨heading, inBody⟩ := List.forall_mem_append.mp clear
      obtain ⟨others, inIncrement⟩ := List.forall_mem_append.mp heading
      obtain ⟨inCounter, inCondition⟩ := List.forall_mem_append.mp others
      cases s' with
      | loop counter' condition' increment' body' =>
          simp only [form, Form.list.injEq, List.cons.injEq, and_true, true_and] at same
          obtain ⟨counters, conditions, increments, bodies⟩ := same
          obtain ⟨heading', inBody'⟩ := List.forall_mem_append.mp clear'
          obtain ⟨others', inIncrement'⟩ := List.forall_mem_append.mp heading'
          obtain ⟨inCounter', inCondition'⟩ := List.forall_mem_append.mp others'
          exact .loop (LoopVar.alike_of_formOption_eq inCounter inCounter' counters)
            (Expr.alike_of_formOption_eq inCondition inCondition' conditions)
            (Expr.alike_of_formOption_eq inIncrement inIncrement' increments)
            (alikeAll_of_formAll_eq inBody inBody' bodies)
      | _ => exact absurd (head_eq same) (by simp [head])
  | exit line none, s', _, _, same => by
      cases s' with
      | exit line' value' =>
          cases value' with
          | none => exact .exit line line' .none
          | some value' => simp [form] at same
      | _ => exact absurd (head_eq same) (by simp [head])
  | exit line (some value), s', clear, clear', same => by
      cases s' with
      | exit line' value' =>
          cases value' with
          | none => simp [form] at same
          | some value' =>
              simp only [form, Form.list.injEq, List.cons.injEq, and_true, true_and] at same
              exact .exit line line' (.some (Expr.alike_of_form_eq clear clear' same))
      | _ => exact absurd (head_eq same) (by simp [head])
  | classDef name methods, s', clear, clear', same => by
      obtain ⟨_, inMethods⟩ := List.forall_mem_cons.mp clear
      cases s' with
      | classDef name' methods' =>
          simp only [form, Form.list.injEq, List.cons.injEq, Form.word.injEq, true_and] at same
          obtain ⟨_, inMethods'⟩ := List.forall_mem_cons.mp clear'
          exact .classDef same.1 (alikeMethods_of_formMethods_eq inMethods inMethods' same.2)
      | _ => exact absurd (head_eq same) (by simp [head])

theorem alikeAll_of_formAll_eq : ∀ {body body' : List Stmt},
    (∀ a ∈ atomsAll body, a.Clear) → (∀ a ∈ atomsAll body', a.Clear) →
    formAll body = formAll body' → AlikeAll body body'
  | [], [], _, _, _ => .nil
  | [], _ :: _, _, _, same | _ :: _, [], _, _, same => nomatch same
  | s :: rest, s' :: rest', clear, clear', same => by
      obtain ⟨first, others⟩ := List.cons.inj same
      obtain ⟨inFirst, inRest⟩ := List.forall_mem_append.mp clear
      obtain ⟨inFirst', inRest'⟩ := List.forall_mem_append.mp clear'
      exact .cons (alike_of_form_eq inFirst inFirst' first)
        (alikeAll_of_formAll_eq inRest inRest' others)

theorem alikeMethods_of_formMethods_eq : ∀ {methods methods' : List Routine},
    (∀ a ∈ atomsMethods methods, a.Clear) → (∀ a ∈ atomsMethods methods', a.Clear) →
    formMethods methods = formMethods methods' → AlikeMethods methods methods'
  | [], [], _, _, _ => .nil
  | [], _ :: _, _, _, same | _ :: _, [], _, _, same => nomatch same
  | ⟨name, params, body⟩ :: rest, ⟨name', params', body'⟩ :: rest', clear, clear', same => by
      obtain ⟨first, others⟩ := List.cons.inj same
      obtain ⟨inFirst, inRest⟩ := List.forall_mem_append.mp clear
      obtain ⟨inFirst', inRest'⟩ := List.forall_mem_append.mp clear'
      obtain ⟨_, inParts⟩ := List.forall_mem_cons.mp inFirst
      obtain ⟨_, inBody⟩ := List.forall_mem_append.mp inParts
      obtain ⟨_, inParts'⟩ := List.forall_mem_cons.mp inFirst'
      obtain ⟨_, inBody'⟩ := List.forall_mem_append.mp inParts'
      simp only [formRoutine, Form.list.injEq, List.cons.injEq, Form.word.injEq, true_and] at first
      obtain ⟨names, lists, bodies⟩ := first
      exact .cons (.mk names (Ident.alike_of_forms_eq lists)
        (alikeAll_of_formAll_eq inBody inBody' bodies))
        (alikeMethods_of_formMethods_eq inRest inRest' others)

end

end Stmt

/-! ## Alike trees have one form -/

theorem Literal.Alike.outline_eq {value value' : Literal} (alike : value.Alike value') :
    value.outline = value'.outline := by
  cases alike with
  | number same => exact same
  | string | bool | nil => rfl

theorem Ident.Alike.word_eq {name name' : Ident} (alike : name.Alike name') :
    word name.name = word name'.name :=
  congrArg word alike

mutual

theorem Expr.Alike.form_eq : ∀ {e e' : Expr}, e.Alike e' → e.form = e'.form
  | _, _, .literal alike => congrArg word alike.outline_eq
  | _, _, .unary _ _ _ operand => by rw [Expr.form, Expr.form, operand.form_eq]
  | _, _, .binary _ _ _ left right => by
      rw [Expr.form, Expr.form, left.form_eq, right.form_eq]
  | _, _, .logical _ left right => by rw [Expr.form, Expr.form, left.form_eq, right.form_eq]
  | _, _, .group inner => by rw [Expr.form, Expr.form, inner.form_eq]
  | _, _, .var _ _ name => name.word_eq
  | _, _, .assign _ _ name value => by rw [Expr.form, Expr.form, name.word_eq, value.form_eq]
  | _, _, .call _ _ callee arguments => by
      rw [Expr.form, Expr.form, callee.form_eq, arguments.formAll_eq]
  | _, _, .get object name => by rw [Expr.form, Expr.form, object.form_eq, name.word_eq]
  | _, _, .set object name value => by
      rw [Expr.form, Expr.form, object.form_eq, name.word_eq, value.form_eq]
  | _, _, .selfRef _ _ _ _ => rfl

theorem Expr.AlikeAll.formAll_eq : ∀ {arguments arguments' : List Expr},
    Expr.AlikeAll arguments arguments' → Expr.formAll arguments = Expr.formAll arguments'
  | _, _, .nil => rfl
  | _, _, .cons e rest => by rw [Expr.formAll, Expr.formAll, e.form_eq, rest.formAll_eq]

end

theorem Expr.formOption_eq {value value' : Option Expr}
    (alike : Option.Rel Expr.Alike value value') : formOption value = formOption value' := by
  cases alike with
  | none => rfl
  | some alike => exact alike.form_eq

theorem LoopVar.formOption_eq {counter counter' : Option LoopVar}
    (alike : Option.Rel LoopVar.Alike counter counter') :
    formOption counter = formOption counter' := by
  cases alike with
  | none => rfl
  | some alike => rw [formOption, formOption, alike.name.word_eq, alike.value.form_eq]

theorem Ident.forms_eq {params params' : List Ident}
    (alike : List.Forall₂ Ident.Alike params params') :
    params.map (fun param => word param.name) = params'.map fun param => word param.name := by
  induction alike with
  | nil => rfl
  | cons first _ ih => rw [List.map_cons, List.map_cons, ih, first.word_eq]

namespace Stmt

mutual

theorem Alike.form_eq : ∀ {s s' : Stmt}, s.Alike s' → s.form = s'.form
  | _, _, .expression value | _, _, .print value => by rw [form, form, value.form_eq]
  | _, _, .declare name .none => by rw [form, form, name.word_eq]
  | _, _, .declare name (.some value) => by rw [form, form, name.word_eq, value.form_eq]
  | _, _, .block body => by rw [form, form, body.formAll_eq]
  | _, _, .function (.mk name params body) => by
      rw [form, form, formRoutine, formRoutine, name.word_eq, Ident.forms_eq params,
        body.formAll_eq]
  | _, _, .branch condition thenBody .absent => by
      rw [form, form, condition.form_eq, thenBody.formAll_eq]
  | _, _, .branch condition thenBody (.present elseBody) => by
      rw [form, form, condition.form_eq, thenBody.formAll_eq, elseBody.formAll_eq]
  | _, _, .loop counter condition increment body => by
      rw [form, form, LoopVar.formOption_eq counter, Expr.formOption_eq condition,
        Expr.formOption_eq increment, body.formAll_eq]
  | _, _, .exit _ _ .none => by rw [form, form]
  | _, _, .exit _ _ (.some value) => by rw [form, form, value.form_eq]
  | _, _, .classDef name methods => by rw [form, form, name.word_eq, methods.formMethods_eq]

theorem AlikeAll.formAll_eq : ∀ {body body' : List Stmt},
    AlikeAll body body' → formAll body = formAll body'
  | _, _, .nil => rfl
  | _, _, .cons s rest => by rw [formAll, formAll, s.form_eq, rest.formAll_eq]

theorem AlikeMethods.formMethods_eq : ∀ {methods methods' : List Routine},
    AlikeMethods methods methods' → formMethods methods = formMethods methods'
  | _, _, .nil => rfl
  | _, _, .cons (.mk name params body) rest => by
      rw [formMethods, formMethods, formRoutine, formRoutine, name.word_eq, Ident.forms_eq params,
        body.formAll_eq, rest.formMethods_eq]

end

end Stmt

/-! ## Programs -/

/--
The printed tree can be read in one way. If the texts of two programs are parsed, and neither tree
has a text, a number that reads as infinity or a variable called `_`, then their outlines are the
same if and only if the trees are: statement by statement the same but for the numbers of
occurrences and the lines, where numbers count as the same that are shown alike.
-/
theorem outline_read_one_way {source source' : String} {fresh fresh' last last' : Occurrence}
    {program program' : List Stmt} (parsed : parseSource source fresh = (.ok program, last))
    (parsed' : parseSource source' fresh' = (.ok program', last'))
    (unambiguous : ∀ a ∈ Stmt.atomsAll program, a.Unambiguous)
    (unambiguous' : ∀ a ∈ Stmt.atomsAll program', a.Unambiguous) :
    outlineProgram program = outlineProgram program' ↔ Stmt.AlikeAll program program' := by
  have clear : ∀ a ∈ Stmt.atomsAll program, a.Clear := fun a present =>
    (written_of_parseSource parsed a present).clear (unambiguous a present)
  have clear' : ∀ a ∈ Stmt.atomsAll program', a.Clear := fun a present =>
    (written_of_parseSource parsed' a present).clear (unambiguous' a present)
  rw [← String.toList_inj, toList_outlineProgram, toList_outlineProgram]
  constructor
  · intro lines
    have legible : ∀ part ∈ Stmt.formAll program, part.Legible := by
      cases Stmt.legibleAll program clear with
      | list legible => exact legible
    have legible' : ∀ part ∈ Stmt.formAll program', part.Legible := by
      cases Stmt.legibleAll program' clear' with
      | list legible => exact legible
    exact Stmt.alikeAll_of_formAll_eq clear clear' (Form.eq_of_lines_eq legible legible' lines)
  · intro alike
    rw [alike.formAll_eq]

/-- A program with other lines and other numbers of occurrences. -/
theorem outline_read_one_way_of_lines :
    let program : List Stmt :=
      [.expression (.call (.var 0 ⟨"f", 1⟩) [.unary .minus (.var 1 ⟨"a", 1⟩) 1] 1)]
    let program' : List Stmt :=
      [.expression (.call (.var 7 ⟨"f", 2⟩) [.unary .minus (.var 8 ⟨"a", 3⟩) 3] 3)]
    parseSource "f(-a)" 0 = (.ok program, 2) ∧ parseSource "\nf(\n-a)" 7 = (.ok program', 9) ∧
      outlineProgram program = "(expr (call f (- a)))" ∧ Stmt.AlikeAll program program' := by
  intro program program'
  have parsed : parseSource "f(-a)" 0 = (.ok program, 2) := by with_unfolding_all rfl
  have parsed' : parseSource "\nf(\n-a)" 7 = (.ok program', 9) := by with_unfolding_all rfl
  have unambiguous : ∀ a ∈ Stmt.atomsAll program, a.Unambiguous := by
    simp [program, Stmt.atomsAll, Stmt.atoms, Expr.atoms, Expr.atomsAll, Atom.Unambiguous]
  have unambiguous' : ∀ a ∈ Stmt.atomsAll program', a.Unambiguous := by
    simp [program', Stmt.atomsAll, Stmt.atoms, Expr.atoms, Expr.atomsAll, Atom.Unambiguous]
  have shown : outlineProgram program = "(expr (call f (- a)))" := by decide +kernel
  have same : outlineProgram program = outlineProgram program' := by decide +kernel
  exact ⟨parsed, parsed', shown,
    (outline_read_one_way parsed parsed' unambiguous unambiguous').mp same⟩

end Rill
