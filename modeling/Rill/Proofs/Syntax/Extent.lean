import Rill.Proofs.Syntax.Primitive

/-!
# How far phrases reach

A phrase ends at a later place of the same token sequence than it begins at, and it begins with one
of the tokens that its kind of phrase can begin with.
-/

namespace Rill

namespace Cursor

/-- A place is at another one or behind it. -/
structure Reaches (c c₁ : Cursor) : Prop where
  isSuffix : c₁.upcoming <:+ c.upcoming
  endLine_eq : c₁.endLine = c.endLine
  fresh_le : c.fresh ≤ c₁.fresh

/-- Some token stands between a place and another one behind it. -/
structure Passes (c c₁ : Cursor) : Prop where
  reaches : c.Reaches c₁
  length_lt : c₁.upcoming.length < c.upcoming.length

variable {c c₁ c₂ : Cursor} {t : Token} {kind : Kind}

theorem Reaches.refl (c : Cursor) : c.Reaches c := ⟨List.suffix_rfl, rfl, Nat.le_refl _⟩

theorem Reaches.trans (first : c.Reaches c₁) (second : c₁.Reaches c₂) : c.Reaches c₂ where
  isSuffix := second.isSuffix.trans first.isSuffix
  endLine_eq := second.endLine_eq.trans first.endLine_eq
  fresh_le := Nat.le_trans first.fresh_le second.fresh_le

theorem Reaches.length_le (reaches : c.Reaches c₁) :
    c₁.upcoming.length ≤ c.upcoming.length :=
  reaches.isSuffix.length_le

theorem reaches_numbered (c : Cursor) : c.Reaches c.numbered :=
  ⟨List.suffix_rfl, rfl, Nat.le_succ _⟩

theorem Passes.then (first : c.Passes c₁) (second : c₁.Reaches c₂) : c.Passes c₂ where
  reaches := first.reaches.trans second
  length_lt := Nat.lt_of_le_of_lt second.length_le first.length_lt

theorem Reaches.then (first : c.Reaches c₁) (second : c₁.Passes c₂) : c.Passes c₂ where
  reaches := first.trans second.reaches
  length_lt := Nat.lt_of_lt_of_le second.length_lt first.length_le

theorem Passes.trans (first : c.Passes c₁) (second : c₁.Passes c₂) : c.Passes c₂ :=
  first.then second.reaches

theorem Reads.passes (reads : c.Reads kind t c₁) : c.Passes c₁ where
  reaches :=
    { isSuffix := ⟨[t], reads.upcoming_eq.symm⟩
      endLine_eq := reads.endLine_eq
      fresh_le := Nat.le_of_eq reads.fresh_eq.symm }
  length_lt := by
    rw [reads.length_eq]
    exact Nat.lt_succ_self _

end Cursor

namespace Grammar

variable {c c₁ : Cursor}

theorem Newlines.reaches (breaks : Newlines c c₁) : c.Reaches c₁ := by
  induction breaks with
  | none => exact .refl _
  | more reads _ ih => exact reads.passes.reaches.trans ih

theorem Ending.reaches (ending : Ending c c₁) : c.Reaches c₁ := by
  cases ending with
  | newline reads => exact reads.passes.reaches
  | semicolon reads => exact reads.passes.reaches
  | beforeBrace => exact .refl _
  | beforeEnd => exact .refl _

theorem Perhaps.reaches {α : Type} {phrase : Cursor → α → Cursor → Prop} {a : Option α}
    (perhaps : Perhaps phrase c a c₁)
    (phrases : ∀ {a : α}, phrase c a c₁ → c.Reaches c₁) : c.Reaches c₁ := by
  cases perhaps with
  | absent => exact .refl _
  | present phrase => exact phrases phrase

mutual

theorem Expression.passes : ∀ {c c₁ : Cursor} {e : Expr}, Expression c e c₁ → c.Passes c₁
  | _, _, _, .value operands => operands.passes
  | _, _, _, .assign name equal value => by
      have named := name.passes.then (Cursor.reaches_numbered _)
      exact ((named.trans equal.passes).trans value.passes).then (Cursor.reaches_numbered _)
  | _, _, _, .set called dot name equal value => by
      have target := (called.passes.trans dot.passes).trans name.passes
      exact (target.trans equal.passes).trans value.passes

theorem Operands.passes : ∀ {n : Nat} {c c₁ : Cursor} {e : Expr},
    Operands n c e c₁ → c.Passes c₁
  | _, _, _, _, .chain _ first rest => first.passes.then rest.reaches
  | _, _, _, _, .signed operand => operand.passes

theorem Chained.reaches : ∀ {n : Nat} {left e : Expr} {c c₁ : Cursor},
    Chained n left c e c₁ → c.Reaches c₁
  | _, _, _, _, _, .done => .refl _
  | _, _, _, _, _, .more operator _ right rest =>
      ((operator.passes.trans right.passes).then rest.reaches).reaches

theorem Signed.passes : ∀ {c c₁ : Cursor} {e : Expr}, Signed c e c₁ → c.Passes c₁
  | _, _, _, .sign sign _ operand => sign.passes.trans operand.passes
  | _, _, _, .call called => called.passes

theorem Call.passes : ∀ {c c₁ : Cursor} {e : Expr}, Call c e c₁ → c.Passes c₁
  | _, _, _, .primary subject suffixed => subject.passes.then suffixed.reaches

theorem Suffixed.reaches : ∀ {subject e : Expr} {c c₁ : Cursor},
    Suffixed subject c e c₁ → c.Reaches c₁
  | _, _, _, _, .done => .refl _
  | _, _, _, _, .call opens listed closes rest => by
      have called := (opens.passes.then listed.reaches).trans closes.passes
      exact (called.then rest.reaches).reaches
  | _, _, _, _, .get dot name rest =>
      ((dot.passes.trans name.passes).then rest.reaches).reaches

theorem Primary.passes : ∀ {c c₁ : Cursor} {e : Expr}, Primary c e c₁ → c.Passes c₁
  | _, _, _, .constant reads _ => reads.passes
  | _, _, _, .selfRef reads => reads.passes.then (Cursor.reaches_numbered _)
  | _, _, _, .var reads => reads.passes.then (Cursor.reaches_numbered _)
  | _, _, _, .group opens before inner behind closes => by
      have opened := opens.passes.then before.reaches
      exact ((opened.trans inner.passes).then behind.reaches).trans closes.passes

theorem Arguments.reaches : ∀ {c c₁ : Cursor} {arguments : List Expr},
    Arguments c arguments c₁ → c.Reaches c₁
  | _, _, _, .none breaks => breaks.reaches
  | _, _, _, .some before list behind _ =>
      ((before.reaches.then list.passes).then behind.reaches).reaches

theorem ArgumentList.passes : ∀ {c c₁ : Cursor} {arguments : List Expr},
    ArgumentList c arguments c₁ → c.Passes c₁
  | _, _, _, .one first => first.passes
  | _, _, _, .more first before comma behind rest => by
      have separated := (first.passes.then before.reaches).trans comma.passes
      exact (separated.then behind.reaches).trans rest.passes

end

theorem Names.passes {names : List Ident} (list : Names c names c₁) : c.Passes c₁ := by
  induction list with
  | one name => exact name.passes
  | more name comma _ ih => exact (name.passes.trans comma.passes).trans ih

theorem Parameters.reaches {params : List Ident} (params : Parameters c params c₁) :
    c.Reaches c₁ := by
  cases params with
  | none => exact .refl _
  | some list _ => exact list.passes.reaches

theorem Counter.passes {counter : LoopVar} (counts : Counter c counter c₁) : c.Passes c₁ := by
  cases counts with
  | declared word name equal value =>
      exact ((word.passes.trans name.passes).trans equal.passes).trans value.passes
  | assigned name equal value =>
      exact (Expression.assign name equal value).passes

theorem Initializer.passes {value : Expr} (initializes : Initializer c value c₁) :
    c.Passes c₁ := by
  cases initializes with
  | equal equal value => exact equal.passes.trans value.passes

mutual

theorem Declaration.passes : ∀ {c c₁ : Cursor} {s : Stmt}, Declaration c s c₁ → c.Passes c₁
  | _, _, _, .classDef word name opens methods closes => by
      have named := (word.passes.trans name.passes).trans opens.passes
      exact (named.then methods.reaches).trans closes.passes
  | _, _, _, .function word routine => word.passes.trans routine.passes
  | _, _, _, .declare word name initializer ending => by
      have initialized := initializer.reaches fun present => present.passes.reaches
      exact ((word.passes.trans name.passes).then initialized).then ending.reaches
  | _, _, _, .loop word counter first condition second increment body => by
      have counted := word.passes.then (counter.reaches fun present => present.passes.reaches)
      have tested := condition.reaches fun present => present.passes.reaches
      have stepped := increment.reaches fun present => present.passes.reaches
      have upToIncrement := ((counted.trans first.passes).then tested).trans second.passes
      exact (upToIncrement.then stepped).trans body.passes
  | _, _, _, .branch conditional => conditional.passes
  | _, _, _, .exit word value ending => by
      have valued := value.reaches fun present => present.passes.reaches
      exact (word.passes.then valued).then ending.reaches
  | _, _, _, .block body => body.passes
  | _, _, _, .print word value ending => (word.passes.trans value.passes).then ending.reaches
  | _, _, _, .expression value ending => value.passes.then ending.reaches

theorem Conditional.passes : ∀ {c c₁ : Cursor} {s : Stmt}, Conditional c s c₁ → c.Passes c₁
  | _, _, _, .branch word condition body otherwise =>
      ((word.passes.trans condition.passes).trans body.passes).then otherwise.reaches

theorem Otherwise.reaches : ∀ {c c₁ : Cursor} {body : Option (List Stmt)},
    Otherwise c body c₁ → c.Reaches c₁
  | _, _, _, .absent => .refl _
  | _, _, _, .block breaks word body =>
      ((breaks.reaches.then word.passes).trans body.passes).reaches
  | _, _, _, .conditional breaks word conditional =>
      ((breaks.reaches.then word.passes).trans conditional.passes).reaches

theorem Block.passes : ∀ {c c₁ : Cursor} {body : List Stmt}, Block c body c₁ → c.Passes c₁
  | _, _, _, .braces opens body closes => (opens.passes.then body.reaches).trans closes.passes

theorem Body.reaches : ∀ {c c₁ : Cursor} {body : List Stmt}, Body c body c₁ → c.Reaches c₁
  | _, _, _, .done breaks => breaks.reaches
  | _, _, _, .more breaks first rest =>
      ((breaks.reaches.then first.passes).then rest.reaches).reaches

theorem Methods.reaches : ∀ {c c₁ : Cursor} {methods : List Routine},
    Methods c methods c₁ → c.Reaches c₁
  | _, _, _, .done breaks => breaks.reaches
  | _, _, _, .more breaks word routine rest => by
      have first := (breaks.reaches.then word.passes).trans routine.passes
      exact (first.then rest.reaches).reaches

theorem RoutineRest.passes : ∀ {c c₁ : Cursor} {routine : Routine},
    RoutineRest c routine c₁ → c.Passes c₁
  | _, _, _, .named name opens params closes body => by
      have opened := (name.passes.trans opens.passes).then params.reaches
      exact (opened.trans closes.passes).trans body.passes

end

/-! ## First tokens -/

/-- The kinds of token that an expression can begin with. -/
def startsExpression : Kind → Bool
  | .identifier | .mark .leftParen | .keyword .selfWord => true
  | kind => (constant? kind).isSome || (sign? kind).isSome

end Grammar

/-- A token stands at a place that an expression can begin with. -/
def Cursor.StartsExpression (c : Cursor) : Prop :=
  ∃ t c₁, c.Reads t.kind t c₁ ∧ Grammar.startsExpression t.kind = true

theorem Cursor.Reads.startsExpression {c c₁ : Cursor} {t : Token} {kind : Kind}
    (reads : c.Reads kind t c₁) (starts : Grammar.startsExpression kind = true) :
    c.StartsExpression := by
  refine ⟨t, c₁, reads.self, ?_⟩
  rw [reads.kind_eq]
  exact starts

/-- A place where an expression begins lacks every token that begins none. -/
theorem Cursor.StartsExpression.lacks {c : Cursor} {kind : Kind} (starts : c.StartsExpression)
    (other : Grammar.startsExpression kind = false) : c.Lacks kind := by
  obtain ⟨t, c₁, reads, start⟩ := starts
  refine reads.lacks ?_
  intro same
  rw [same, other] at start
  cases start

namespace Grammar

theorem startsExpression_of_constant? {kind : Kind} {value : Literal}
    (constant : constant? kind = some value) : startsExpression kind = true := by
  unfold startsExpression
  split <;> simp_all

theorem startsExpression_of_sign? {kind : Kind} {operator : UnaryOp}
    (sign : sign? kind = some operator) : startsExpression kind = true := by
  unfold startsExpression
  split <;> simp_all

theorem Primary.starts {c c₁ : Cursor} {e : Expr} (primary : Primary c e c₁) :
    c.StartsExpression := by
  cases primary with
  | constant reads constant => exact reads.startsExpression (startsExpression_of_constant? constant)
  | selfRef reads => exact reads.startsExpression rfl
  | var reads => exact reads.startsExpression rfl
  | group opens => exact opens.startsExpression rfl

theorem Call.starts {c c₁ : Cursor} {e : Expr} (called : Call c e c₁) : c.StartsExpression := by
  cases called with
  | primary subject _ => exact subject.starts

theorem Signed.starts {c c₁ : Cursor} {e : Expr} (operand : Signed c e c₁) :
    c.StartsExpression := by
  cases operand with
  | sign reads sign _ => exact reads.startsExpression (startsExpression_of_sign? sign)
  | call called => exact called.starts

theorem Operands.starts : ∀ {n : Nat} {c c₁ : Cursor} {e : Expr},
    Operands n c e c₁ → c.StartsExpression
  | _, _, _, _, .chain _ first _ => first.starts
  | _, _, _, _, .signed operand => operand.starts

theorem Expression.starts {c c₁ : Cursor} {e : Expr} (expression : Expression c e c₁) :
    c.StartsExpression := by
  cases expression with
  | value operands => exact operands.starts
  | assign name => exact name.startsExpression rfl
  | set called => exact called.starts

/-- A declaration that begins with `if` is a conditional. -/
theorem Declaration.conditional {c c₁ c₂ : Cursor} {s : Stmt} {t : Token}
    (declaration : Declaration c s c₁) (word : c.Reads (.keyword .ifWord) t c₂) :
    Conditional c s c₁ := by
  have begins {kind : Kind} {u : Token} {c₃ : Cursor} (other : c.Reads kind u c₃) :
      kind = .keyword .ifWord := by
    rw [← other.kind_eq, (other.unique word).1, word.kind_eq]
  cases declaration with
  | branch conditional => exact conditional
  | expression value _ =>
      exact absurd (value.starts.lacks rfl) word.not_lacks
  | classDef other => cases begins other
  | function other => cases begins other
  | declare other => cases begins other
  | loop other => cases begins other
  | exit other => cases begins other
  | print other => cases begins other
  | block body =>
      cases body with
      | braces other => cases begins other

end Grammar

end Rill
