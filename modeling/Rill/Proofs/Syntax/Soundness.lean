import Rill.Proofs.Syntax.Connectives
import Rill.Proofs.Syntax.Extent

/-!
# What is read is in the grammar

Every parser reads phrases of the grammar only, whatever bound it is given: where a bound is met,
the parser stops early, and what it has read up to there is a phrase all the same.
-/

namespace Rill.Parser

open Grammar

/-- A parser reads phrases of one kind only. -/
def Sound {α : Type} (p : Parser α) (phrase : Cursor → α → Cursor → Prop) : Prop :=
  ∀ ⦃c : Cursor⦄ ⦃a : α⦄ ⦃c₁ : Cursor⦄, p c = .ok a c₁ → phrase c a c₁

variable {bound n : Nat} {c c₁ : Cursor} {t : Token}

end Rill.Parser

/-! ## Trees that operators and suffixes do not make -/

namespace Rill.Grammar

variable {n : Nat} {c c₁ : Cursor} {e left subject object value : Expr} {id : Occurrence}
  {name : Ident}

/-- A tree that an operator makes. -/
def IsOperation : Expr → Prop
  | .unary _ _ _ | .binary _ _ _ _ | .logical _ _ _ => True
  | _ => False

/-- A tree that a suffix makes. -/
def IsSuffixed : Expr → Prop
  | .call _ _ _ | .get _ _ => True
  | _ => False

theorem isOperation_of_connective {t : Token} {combine : Expr → Expr → Expr} {right : Expr}
    (connective : connective? t = some (n, combine)) : IsOperation (combine left right) := by
  unfold connective? at connective
  split at connective <;> cases connective <;> exact trivial

theorem Chained.eq_of_not_isOperation : ∀ {n : Nat} {left e : Expr} {c c₁ : Cursor},
    Chained n left c e c₁ → ¬ IsOperation e → e = left ∧ c = c₁
  | _, _, _, _, _, .done, _ => ⟨rfl, rfl⟩
  | _, _, _, _, _, .more _ connective _ rest, plain => by
      obtain ⟨rfl, rfl⟩ := rest.eq_of_not_isOperation plain
      exact absurd (isOperation_of_connective connective) plain

/-- Operands that no operator makes are a call, or less. -/
theorem Operands.call_of_not_isOperation : ∀ {n : Nat} {e : Expr} {c c₁ : Cursor},
    Operands n c e c₁ → ¬ IsOperation e → Call c e c₁
  | _, _, _, _, .chain _ first rest, plain => by
      have same := rest.eq_of_not_isOperation plain
      have called := first.call_of_not_isOperation (same.1 ▸ plain)
      obtain ⟨rfl, rfl⟩ := same
      exact called
  | _, _, _, _, .signed (.call called), _ => called
  | _, _, _, _, .signed (.sign _ _ _), plain => absurd trivial plain

theorem Suffixed.eq_of_not_isSuffixed : ∀ {subject e : Expr} {c c₁ : Cursor},
    Suffixed subject c e c₁ → ¬ IsSuffixed e → subject = e ∧ c = c₁
  | _, _, _, _, .done, _ => ⟨rfl, rfl⟩
  | _, _, _, _, .call _ _ _ rest, bare => by
      obtain ⟨rfl, _⟩ := rest.eq_of_not_isSuffixed bare
      exact absurd trivial bare
  | _, _, _, _, .get _ _ rest, bare => by
      obtain ⟨rfl, _⟩ := rest.eq_of_not_isSuffixed bare
      exact absurd trivial bare

/-- The last suffix of a property is the property. -/
theorem Suffixed.last_of_get : ∀ {subject e : Expr} {c c₁ : Cursor},
    Suffixed subject c e c₁ → e = .get object name →
    (subject = .get object name ∧ c = c₁) ∨ ∃ c₂ dot c₃ t, Suffixed subject c object c₂ ∧
      c₂.Reads (.mark .dot) dot c₃ ∧ c₃.Reads .identifier t c₁ ∧ name = t.ident
  | _, _, _, _, .done, same => .inl ⟨same, rfl⟩
  | _, _, _, _, .call opens listed closes rest, same => by
      rcases rest.last_of_get same with ⟨other, _⟩ | ⟨c₂, dot, c₃, t, suffixed, dotted, named, rfl⟩
      · cases other
      · exact .inr ⟨c₂, dot, c₃, t, .call opens listed closes suffixed, dotted, named, rfl⟩
  | _, _, _, _, .get first second rest, same => by
      rcases rest.last_of_get same with ⟨this, rfl⟩ | ⟨c₂, dot, c₃, t, suffixed, dotted, named, rfl⟩
      · cases this
        exact .inr ⟨_, _, _, _, .done, first, second, rfl⟩
      · exact .inr ⟨c₂, dot, c₃, t, .get first second suffixed, dotted, named, rfl⟩

/-- Operands that are a variable are its name alone. -/
theorem Operands.var_inv (operands : Operands n c (.var id name) c₁) :
    ∃ t c₂, c.Reads .identifier t c₂ ∧ c₂.numbered = c₁ ∧ name = t.ident ∧ id = c₂.fresh := by
  cases operands.call_of_not_isOperation not_false with
  | primary subject suffixed =>
      obtain ⟨rfl, rfl⟩ := suffixed.eq_of_not_isSuffixed not_false
      cases subject with
      | var reads => exact ⟨_, _, reads, rfl, rfl, rfl⟩

/-- Operands are no assignment. -/
theorem Operands.not_assign (operands : Operands n c (.assign id name value) c₁) : False := by
  cases operands.call_of_not_isOperation not_false with
  | primary subject suffixed =>
      obtain ⟨rfl, rfl⟩ := suffixed.eq_of_not_isSuffixed not_false
      cases subject

/-- Operands that are a property are an object with a point and a name behind it. -/
theorem Operands.get_inv (operands : Operands n c (.get object name) c₁) :
    ∃ c₂ dot c₃ t, Call c object c₂ ∧ c₂.Reads (.mark .dot) dot c₃ ∧
      c₃.Reads .identifier t c₁ ∧ name = t.ident := by
  cases operands.call_of_not_isOperation not_false with
  | primary subject suffixed =>
      rcases suffixed.last_of_get rfl with ⟨rfl, rfl⟩ | ⟨c₂, dot, c₃, t, inner, dotted, named, rfl⟩
      · cases subject
      · exact ⟨c₂, dot, c₃, t, .primary subject inner, dotted, named, rfl⟩

end Rill.Grammar

/-! ## Expressions -/

namespace Rill.Parser

open Grammar

variable {bound n : Nat} {c c₁ : Cursor} {t : Token}

section Expressions

variable {operator? : Parser (Option (Expr → Expr → Expr))} {operand nested : Parser Expr}

theorem growLeft_sound (finds : Finds n operator?) (operands : Sound operand (Operands (n + 1))) :
    ∀ (bound : Nat) (left : Expr), Sound (growLeft operator? operand bound left) (Chained n left)
    := by
  intro bound
  induction bound with
  | zero =>
      intro left c e c₁ ran
      cases ran
      exact .done
  | succ bound ih =>
      intro left c e c₁ ran
      rw [growLeft, bind_eq_ok] at ran
      obtain ⟨answer, c₂, found, ran⟩ := ran
      rcases finds.cases found with ⟨t, combine, rfl, reads, connective⟩ | ⟨rfl, rfl⟩
      · obtain ⟨right, c₃, read, ran⟩ := bind_eq_ok.mp ran
        exact .more reads connective (operands read) (ih _ ran)
      · cases ran
        exact .done

theorem leftAssociative_sound (bound : Nat) (loose : n < tightest) (finds : Finds n operator?)
    (operands : Sound operand (Operands (n + 1))) :
    Sound (leftAssociative bound operator? operand) (Operands n) := by
  intro c e c₁ ran
  obtain ⟨first, c₂, read, ran⟩ := bind_eq_ok.mp ran
  exact .chain loose (operands read) (growLeft_sound finds operands bound first ran)

theorem binary_sound (bound : Nat) (operands : Sound operand (Operands tightest)) :
    Sound (binary bound operand levels) (Operands 2) := by
  have factors : Sound _ (Operands 5) :=
    leftAssociative_sound bound (by decide) (finds_level (i := 3) rfl) operands
  have terms : Sound _ (Operands 4) :=
    leftAssociative_sound bound (by decide) (finds_level (i := 2) rfl) factors
  have comparisons : Sound _ (Operands 3) :=
    leftAssociative_sound bound (by decide) (finds_level (i := 1) rfl) terms
  exact leftAssociative_sound bound (by decide) (finds_level (i := 0) rfl) comparisons

theorem unary_sound (operands : Sound operand Call) :
    ∀ bound : Nat, Sound (unary operand bound) Signed := by
  intro bound
  induction bound with
  | zero =>
      intro c e c₁ ran
      exact .call (operands ran)
  | succ bound ih =>
      intro c e c₁ ran
      rw [unary, bind_eq_ok] at ran
      obtain ⟨answer, c₂, found, ran⟩ := ran
      rcases c.readsSign_or_lacks with ⟨t, c₃, operator, reads, sign⟩ | lacks
      · rw [unaryOperator?_of_reads reads sign] at found
        cases found
        obtain ⟨inner, c₄, read, ran⟩ := bind_eq_ok.mp ran
        cases ran
        exact .sign reads sign (ih read)
      · rw [unaryOperator?_of_lacks lacks] at found
        cases found
        exact .call (operands ran)

theorem argumentSeparator_eq_ok {answer : Bool} :
    argumentSeparator c = .ok answer c₁ ↔
      (answer = true ∧ ∃ t c₂, c.skipNewlines.Reads (.mark .comma) t c₂ ∧ c₂.skipNewlines = c₁) ∨
      answer = false ∧ c.skipNewlines.Lacks (.mark .comma) ∧ c.skipNewlines = c₁ := by
  simp only [argumentSeparator, bind_eq_ok, accept_eq_ok]
  constructor
  · rintro ⟨_, _, skipped, _, c₂, ⟨rfl, t, reads⟩ | ⟨rfl, lacks, rfl⟩, ran⟩
    · cases skipped
      cases ran
      exact .inl ⟨rfl, t, c₂, reads, rfl⟩
    · cases skipped
      cases ran
      exact .inr ⟨rfl, lacks, rfl⟩
  · rintro (⟨rfl, t, c₂, reads, rfl⟩ | ⟨rfl, lacks, rfl⟩)
    · exact ⟨(), _, rfl, true, c₂, .inl ⟨rfl, t, reads⟩, rfl⟩
    · exact ⟨(), _, rfl, false, _, .inr ⟨rfl, lacks, rfl⟩, rfl⟩

/-- Arguments are read up to a token that is no comma, with the line breaks in front of it. -/
theorem separated_arguments_sound (nestedSound : Sound nested Expression) :
    ∀ room : Nat, Sound (separated .arguments nested argumentSeparator room)
      fun c arguments c₁ => arguments.length ≤ room ∧
        ∃ c₂, ArgumentList c arguments c₂ ∧ Newlines c₂ c₁ := by
  intro room
  induction room with
  | zero =>
      intro c arguments c₁ ran
      simp [separated] at ran
  | succ room ih =>
      intro c arguments c₁ ran
      rw [separated, bind_eq_ok] at ran
      obtain ⟨first, c₂, read, ran⟩ := ran
      obtain ⟨answer, c₃, separates, ran⟩ := bind_eq_ok.mp ran
      rcases argumentSeparator_eq_ok.mp separates with ⟨rfl, t, c₄, comma, rfl⟩ | ⟨rfl, _, rfl⟩
      · simp only [↓reduceIte] at ran
        obtain ⟨rest, c₅, listed, ran⟩ := bind_eq_ok.mp ran
        cases ran
        obtain ⟨short, c₆, list, breaks⟩ := ih listed
        exact ⟨Nat.succ_le_succ short, c₆,
          .more (nestedSound read) (.skip c₂) comma (.skip c₄) list, breaks⟩
      · cases ran
        exact ⟨Nat.succ_le_succ (Nat.zero_le _), c₂, .one (nestedSound read), .skip c₂⟩

theorem finishCall_sound {callee : Expr} (nestedSound : Sound nested Expression) :
    Sound (finishCall nested callee) fun c e c₁ => ∃ arguments c₂ closing,
      Arguments c arguments c₂ ∧ c₂.Reads (.mark .rightParen) closing c₁ ∧
        e = .call callee arguments closing.line := by
  intro c e c₁ ran
  simp only [finishCall, bind_eq_ok, skipNewlines_apply, sees_eq_ok] at ran
  obtain ⟨_, _, skipped, empty, _, ⟨rfl, seen⟩, ran⟩ := ran
  cases skipped
  cases empty with
  | true =>
      simp only [↓reduceIte, bind_eq_ok, expect_eq_ok] at ran
      obtain ⟨_, _, none, closing, c₃, reads, ran⟩ := ran
      cases none
      cases ran
      exact ⟨[], _, closing, .none (.skip c), reads, rfl⟩
  | false =>
      simp only [Bool.false_eq_true, ↓reduceIte, bind_eq_ok, expect_eq_ok] at ran
      obtain ⟨arguments, c₂, listed, closing, c₃, reads, ran⟩ := ran
      cases ran
      obtain ⟨short, c₄, list, breaks⟩ := separated_arguments_sound nestedSound _ listed
      exact ⟨arguments, c₂, closing, .some (.skip c) list breaks short, reads, rfl⟩

theorem suffixes_sound (nestedSound : Sound nested Expression) :
    ∀ (bound : Nat) (subject : Expr), Sound (suffixes nested bound subject) (Suffixed subject)
    := by
  intro bound
  induction bound with
  | zero =>
      intro subject c e c₁ ran
      cases ran
      exact .done
  | succ bound ih =>
      intro subject c e c₁ ran
      simp only [suffixes, bind_eq_ok, accept_eq_ok] at ran
      rcases ran with ⟨_, c₂, ⟨rfl, opening, reads⟩ | ⟨rfl, _, rfl⟩, ran⟩
      · simp only [↓reduceIte, bind_eq_ok] at ran
        obtain ⟨called, c₃, finished, ran⟩ := ran
        obtain ⟨arguments, c₄, closing, listed, closes, rfl⟩ :=
          finishCall_sound nestedSound finished
        exact .call reads listed closes (ih _ ran)
      · simp only [Bool.false_eq_true, ↓reduceIte, bind_eq_ok, accept_eq_ok] at ran
        rcases ran with ⟨_, c₂, ⟨rfl, dot, reads⟩ | ⟨rfl, _, rfl⟩, ran⟩
        · simp only [↓reduceIte, bind_eq_ok, identifier_eq_ok] at ran
          obtain ⟨_, c₃, ⟨name, named, rfl⟩, ran⟩ := ran
          exact .get reads named (ih _ ran)
        · cases ran
          exact .done

theorem primary_sound (nestedSound : Sound nested Expression) : Sound (primary nested) Primary := by
  intro c e c₁ ran
  rw [primary, bind_eq_ok] at ran
  obtain ⟨answer, c₂, peeked, ran⟩ := ran
  rcases c.isAtEnd_or_reads with ended | ⟨t, c₃, reads⟩
  · rw [peek?_of_isAtEnd ended] at peeked
    cases peeked
    simp at ran
  · rw [peek?_of_reads reads] at peeked
    cases peeked
    have skipped := skip_of_reads reads
    have constant {value : Literal} (is : constant? t.kind = some value)
        (ran : (do skip; return Expr.literal value : Parser Expr) c = .ok e c₁) :
        Primary c e c₁ := by
      simp only [bind_eq_ok, skipped] at ran
      obtain ⟨_, _, same, ran⟩ := ran
      cases same
      cases ran
      exact .constant reads is
    cases kind : t.kind with
    | number value => exact constant (by rw [kind]; rfl) (by simpa only [kind] using ran)
    | string text => exact constant (by rw [kind]; rfl) (by simpa only [kind] using ran)
    | keyword word =>
        cases word with
        | falseWord => exact constant (by rw [kind]; rfl) (by simpa only [kind] using ran)
        | trueWord => exact constant (by rw [kind]; rfl) (by simpa only [kind] using ran)
        | nilWord => exact constant (by rw [kind]; rfl) (by simpa only [kind] using ran)
        | selfWord =>
            simp only [kind, bind_eq_ok, skipped, freshOccurrence_apply] at ran
            obtain ⟨_, _, same, _, _, given, ran⟩ := ran
            cases same
            cases given
            cases ran
            exact .selfRef (kind ▸ reads)
        | _ => simp [kind] at ran
    | identifier =>
        simp only [kind, bind_eq_ok, skipped, freshOccurrence_apply] at ran
        obtain ⟨_, _, same, _, _, given, ran⟩ := ran
        cases same
        cases given
        cases ran
        exact .var (kind ▸ reads)
    | mark mark =>
        cases mark with
        | leftParen =>
            simp only [kind, bind_eq_ok, skipped, skipNewlines_apply, expect_eq_ok] at ran
            obtain ⟨_, _, same, _, _, before, inner, c₄, read, _, _, behind, closing, c₅, closes,
              ran⟩ := ran
            cases same
            cases before
            cases behind
            cases ran
            exact .group (kind ▸ reads) (.skip _) (nestedSound read) (.skip _) closes
        | _ => simp [kind] at ran
    | _ => simp [kind] at ran

theorem call_sound (nestedSound : Sound nested Expression) : Sound (call bound nested) Call := by
  intro c e c₁ ran
  obtain ⟨subject, c₂, read, ran⟩ := bind_eq_ok.mp ran
  exact .primary (primary_sound nestedSound read) (suffixes_sound nestedSound bound subject ran)

theorem logicalOr_sound (nestedSound : Sound nested Expression) :
    Sound (logicalOr bound nested) (Operands 0) := by
  have signed : Sound (unary (call bound nested) bound) (Operands tightest) := by
    intro c e c₁ ran
    exact .signed (unary_sound (call_sound nestedSound) bound ran)
  have conjunctions : Sound _ (Operands 1) :=
    leftAssociative_sound bound (by decide) finds_and (binary_sound bound signed)
  exact leftAssociative_sound bound (by decide) finds_or conjunctions

/-- An assignment is recognised by the tree of its left side, which tells what stands there. -/
theorem assignment_sound (nestedSound : Sound nested Expression) :
    Sound (assignment bound nested) Expression := by
  intro c e c₁ ran
  simp only [assignment, bind_eq_ok] at ran
  obtain ⟨target, c₂, read, answer, c₃, accepted, ran⟩ := ran
  have operands : Operands 0 c target c₂ := logicalOr_sound nestedSound read
  rcases accept?_eq_ok.mp accepted with ⟨equal, rfl, reads⟩ | ⟨rfl, _, rfl⟩
  · simp only [bind_eq_ok] at ran
    obtain ⟨value, c₄, assigned, ran⟩ := ran
    have expression : Expression c₃ value c₄ := nestedSound assigned
    cases target with
    | var id name =>
        obtain ⟨t, c₅, named, rfl, rfl, rfl⟩ := operands.var_inv
        cases ran
        exact .assign named reads expression
    | get object name =>
        obtain ⟨c₅, dot, c₆, t, called, dotted, named, rfl⟩ := operands.get_inv
        cases ran
        exact .set called dotted named reads expression
    | _ => simp [assignTo] at ran
  · cases ran
    exact .value operands

theorem expression_sound : ∀ bound : Nat, Sound (expression bound) Expression := by
  intro bound
  induction bound with
  | zero =>
      intro c e c₁ ran
      simp [expression] at ran
  | succ bound ih => exact assignment_sound ih

end Expressions

/-! ## Statements -/

section Statements

variable {α : Type} {expr : Parser Expr} {nested : Parser Stmt}

theorem bodyItems_sound {item : Parser α} {phrase : Cursor → α → Cursor → Prop}
    {items : Cursor → List α → Cursor → Prop} (itemSound : Sound item phrase)
    (done : ∀ {c c₁ : Cursor}, Newlines c c₁ → items c [] c₁)
    (more : ∀ {c c₁ c₂ c₃ : Cursor} {a : α} {rest : List α},
      Newlines c c₁ → phrase c₁ a c₂ → items c₂ rest c₃ → items c (a :: rest) c₃) :
    ∀ bound : Nat, Sound (bodyItems item bound) items := by
  intro bound
  induction bound with
  | zero =>
      intro c found c₁ ran
      cases ran
      exact done .none
  | succ bound ih =>
      intro c found c₁ ran
      simp only [bodyItems, bind_eq_ok, skipNewlines_apply, atBodyEnd_eq_ok] at ran
      obtain ⟨_, _, skipped, ended, _, ⟨rfl, _⟩, ran⟩ := ran
      cases skipped
      cases ended with
      | true =>
          cases ran
          exact done (.skip c)
      | false =>
          simp only [Bool.false_eq_true, ↓reduceIte, bind_eq_ok] at ran
          obtain ⟨first, c₂, read, rest, c₃, others, ran⟩ := ran
          cases ran
          exact more (.skip c) (itemSound read) (ih others)

theorem block_sound (nestedSound : Sound nested Declaration) :
    Sound (block bound nested) fun c body c₁ => ∃ c₂ closing,
      Body c body c₂ ∧ c₂.Reads (.mark .rightBrace) closing c₁ := by
  intro c body c₁ ran
  simp only [block, bind_eq_ok, expect_eq_ok] at ran
  obtain ⟨found, c₂, read, closing, c₃, closes, ran⟩ := ran
  cases ran
  exact ⟨c₂, closing, bodyItems_sound nestedSound .done .more bound read, closes⟩

theorem names_sound :
    ∀ room : Nat, Sound
      (separated .parameters (identifier .parameterName) (accept (.mark .comma)) room)
      fun c names c₁ => Names c names c₁ ∧ names.length ≤ room := by
  intro room
  induction room with
  | zero =>
      intro c names c₁ ran
      simp [separated] at ran
  | succ room ih =>
      intro c names c₁ ran
      simp only [separated, bind_eq_ok, identifier_eq_ok, accept_eq_ok] at ran
      rcases ran with ⟨_, c₂, ⟨t, named, rfl⟩, _, c₃, ⟨rfl, comma, separates⟩ | ⟨rfl, _, rfl⟩, ran⟩
      · simp only [↓reduceIte, bind_eq_ok] at ran
        obtain ⟨rest, c₄, others, ran⟩ := ran
        cases ran
        obtain ⟨list, short⟩ := ih others
        exact ⟨.more named separates list, Nat.succ_le_succ short⟩
      · cases ran
        exact ⟨.one named, Nat.succ_le_succ (Nat.zero_le _)⟩

theorem parameters_sound :
    Sound parameters fun c params c₁ => ∃ c₂ closing,
      Parameters c params c₂ ∧ c₂.Reads (.mark .rightParen) closing c₁ := by
  intro c params c₁ ran
  simp only [parameters, bind_eq_ok, sees_eq_ok] at ran
  obtain ⟨empty, _, ⟨rfl, _⟩, ran⟩ := ran
  cases empty with
  | true =>
      simp only [↓reduceIte, bind_eq_ok, expect_eq_ok] at ran
      obtain ⟨_, _, none, closing, c₃, closes, ran⟩ := ran
      cases none
      cases ran
      exact ⟨c, closing, .none, closes⟩
  | false =>
      simp only [Bool.false_eq_true, ↓reduceIte, bind_eq_ok, expect_eq_ok] at ran
      obtain ⟨names, c₂, listed, closing, c₃, closes, ran⟩ := ran
      cases ran
      obtain ⟨list, short⟩ := names_sound _ listed
      exact ⟨c₂, closing, .some list short, closes⟩

theorem routine_sound {kind : RoutineKind} (nestedSound : Sound nested Declaration) :
    Sound (routine kind bound nested) RoutineRest := by
  intro c r c₁ ran
  simp only [routine, bind_eq_ok, identifier_eq_ok, expect_eq_ok] at ran
  obtain ⟨_, c₂, ⟨name, named, rfl⟩, _, c₃, opens, params, c₄, listed, _, c₅, braced, body, c₆,
    read, ran⟩ := ran
  cases ran
  obtain ⟨c₇, _, parameters, closes⟩ := parameters_sound listed
  obtain ⟨c₈, _, statements, ends⟩ := block_sound nestedSound read
  exact .named named opens parameters closes (.braces braced statements ends)

theorem method_sound (nestedSound : Sound nested Declaration) :
    Sound (method bound nested) fun c r c₁ => ∃ word c₂,
      c.Reads (.keyword .fnWord) word c₂ ∧ RoutineRest c₂ r c₁ := by
  intro c r c₁ ran
  simp only [method, bind_eq_ok, expect_eq_ok] at ran
  obtain ⟨word, c₂, reads, ran⟩ := ran
  exact ⟨word, c₂, reads, routine_sound nestedSound ran⟩

theorem methods_sound (nestedSound : Sound nested Declaration) :
    Sound (bodyItems (method bound nested) bound) Methods := by
  refine bodyItems_sound (method_sound nestedSound) .done ?_ bound
  rintro c c₁ c₂ c₃ r rest breaks ⟨word, c₄, reads, phrase⟩ others
  exact .more breaks reads phrase others

theorem loopVar_sound (exprSound : Sound expr Expression) : Sound (loopVar expr) Counter := by
  intro c counter c₁ ran
  simp only [loopVar, bind_eq_ok, accept_eq_ok] at ran
  rcases ran with ⟨_, c₂, ⟨rfl, word, reads⟩ | ⟨rfl, _, rfl⟩, ran⟩
  · simp only [↓reduceIte, bind_eq_ok, identifier_eq_ok, expect_eq_ok] at ran
    obtain ⟨_, c₃, ⟨name, named, rfl⟩, equal, c₄, assigned, value, c₅, read, ran⟩ := ran
    cases ran
    exact .declared reads named assigned (exprSound read)
  · simp only [Bool.false_eq_true, ↓reduceIte, bind_eq_ok, get_apply] at ran
    obtain ⟨_, _, got, e, c₃, read, ran⟩ := ran
    cases got
    cases exprSound read with
    | assign named assigned value =>
        cases ran
        exact .assigned named assigned value
    | set => simp [loopVarOf] at ran
    | value operands =>
        cases e with
        | assign id name value => exact operands.not_assign.elim
        | _ => simp [loopVarOf] at ran

theorem optionalBefore_sound {mark : Mark} {item : Parser α} {phrase : Cursor → α → Cursor → Prop}
    (itemSound : Sound item phrase) : Sound (optionalBefore mark item) (Perhaps phrase) := by
  intro c found c₁ ran
  simp only [optionalBefore, bind_eq_ok, sees_eq_ok] at ran
  obtain ⟨absent, _, ⟨rfl, _⟩, ran⟩ := ran
  cases absent with
  | true =>
      cases ran
      exact .absent
  | false =>
      simp only [Bool.false_eq_true, ↓reduceIte, map_eq_ok] at ran
      obtain ⟨a, read, rfl⟩ := ran
      exact .present (itemSound read)

theorem block_sound_behind {opening : Token} {body : List Stmt} {c₂ : Cursor}
    (nestedSound : Sound nested Declaration) (opens : c.Reads (.mark .leftBrace) opening c₂)
    (ran : block bound nested c₂ = .ok body c₁) : Block c body c₁ := by
  obtain ⟨c₃, _, statements, closes⟩ := block_sound nestedSound ran
  exact .braces opens statements closes

theorem acceptElse_of_reads {c₂ : Cursor} (reads : c.skipNewlines.Reads (.keyword .elseWord) t c₂) :
    acceptElse c = .ok true c₂ := by
  refine bind_eq_ok.mpr ⟨c, c, get_apply c, ?_⟩
  obtain ⟨upcoming, endLine, fresh⟩ := c₂
  cases reads.endLine_eq
  cases reads.fresh_eq
  simp only [reads.upcoming_eq, reads.kind_eq, ↓reduceIte]
  rfl

theorem acceptElse_of_lacks (lacks : c.skipNewlines.Lacks (.keyword .elseWord)) :
    acceptElse c = .ok false c := by
  refine bind_eq_ok.mpr ⟨c, c, get_apply c, ?_⟩
  rcases c.skipNewlines.isAtEnd_or_reads with ended | ⟨t, c₁, reads⟩
  · simp only [show c.skipNewlines.upcoming = [] from ended, pure_apply]
  · have different : t.kind ≠ .keyword .elseWord := lacks t reads.mem_head?
    simp only [reads.upcoming_eq, different, ↓reduceIte, pure_apply]

/-- Line breaks are read for an `else` behind them, and for nothing else. -/
theorem acceptElse_eq_ok {answer : Bool} (ran : acceptElse c = .ok answer c₁) :
    (answer = true ∧ ∃ t, c.skipNewlines.Reads (.keyword .elseWord) t c₁) ∨
      answer = false ∧ c = c₁ := by
  rcases c.skipNewlines.reads_or_lacks (.keyword .elseWord) with ⟨t, c₂, reads⟩ | lacks
  · rw [acceptElse_of_reads reads] at ran
    cases ran
    exact .inl ⟨rfl, t, reads⟩
  · rw [acceptElse_of_lacks lacks] at ran
    cases ran
    exact .inr ⟨rfl, rfl⟩

theorem elseBody_sound (nestedSound : Sound nested Declaration) {word : Token} {c₂ : Cursor}
    {body : List Stmt} (reads : c.skipNewlines.Reads (.keyword .elseWord) word c₂)
    (ran : elseBody bound nested c₂ = .ok body c₁) : Otherwise c (some body) c₁ := by
  simp only [elseBody, bind_eq_ok, sees_eq_ok] at ran
  obtain ⟨chained, _, ⟨rfl, seen⟩, ran⟩ := ran
  cases chained with
  | true =>
      simp only [↓reduceIte, bind_eq_ok] at ran
      obtain ⟨s, c₃, read, ran⟩ := ran
      cases ran
      rcases c₂.reads_or_lacks (.keyword .ifWord) with ⟨t, c₃, word⟩ | lacks
      · exact .conditional (.skip c) reads ((nestedSound read).conditional word)
      · cases seen.mpr lacks
  | false =>
      simp only [Bool.false_eq_true, ↓reduceIte, bind_eq_ok, expect_eq_ok] at ran
      obtain ⟨_, c₃, opens, ran⟩ := ran
      exact .block (.skip c) reads (block_sound_behind nestedSound opens ran)

section Rules

variable {word : Token} {s : Stmt} {c₂ : Cursor}

theorem classDefinition_sound (nestedSound : Sound nested Declaration)
    (reads : c.Reads (.keyword .classWord) word c₂)
    (ran : classDefinition bound nested c₂ = .ok s c₁) : Declaration c s c₁ := by
  simp only [classDefinition, bind_eq_ok, identifier_eq_ok, expect_eq_ok] at ran
  obtain ⟨_, c₃, ⟨name, named, rfl⟩, _, c₄, opens, methods, c₅, read, _, c₆, closes, ran⟩ := ran
  cases ran
  exact .classDef reads named opens (methods_sound nestedSound read) closes

theorem variableDeclaration_sound (exprSound : Sound expr Expression)
    (reads : c.Reads (.keyword .letWord) word c₂)
    (ran : variableDeclaration expr c₂ = .ok s c₁) : Declaration c s c₁ := by
  simp only [variableDeclaration, bind_eq_ok, identifier_eq_ok, accept_eq_ok] at ran
  rcases ran with ⟨_, c₃, ⟨name, named, rfl⟩, _, c₄, ⟨rfl, equal, assigns⟩ | ⟨rfl, _, rfl⟩, ran⟩
  · simp only [↓reduceIte, bind_eq_ok, map_eq_ok, endStatement_eq_ok] at ran
    obtain ⟨_, c₅, ⟨value, read, rfl⟩, _, c₆, ending, ran⟩ := ran
    cases ran
    exact .declare reads named (.present (.equal assigns (exprSound read))) ending
  · simp only [Bool.false_eq_true, ↓reduceIte, bind_eq_ok, endStatement_eq_ok] at ran
    obtain ⟨_, _, none, _, c₅, ending, ran⟩ := ran
    cases none
    cases ran
    exact .declare reads named .absent ending

theorem loop_sound (exprSound : Sound expr Expression) (nestedSound : Sound nested Declaration)
    (reads : c.Reads (.keyword .forWord) word c₂)
    (ran : loop bound expr nested c₂ = .ok s c₁) : Declaration c s c₁ := by
  simp only [loop, bind_eq_ok, expect_eq_ok] at ran
  obtain ⟨counter, c₃, counts, _, c₄, first, condition, c₅, tests, _, c₆, second, increment, c₇,
    steps, _, c₈, opens, body, c₉, read, ran⟩ := ran
  cases ran
  exact .loop reads (optionalBefore_sound (loopVar_sound exprSound) counts) first
    (optionalBefore_sound exprSound tests) second (optionalBefore_sound exprSound steps)
    (block_sound_behind nestedSound opens read)

theorem branch_sound (exprSound : Sound expr Expression) (nestedSound : Sound nested Declaration)
    (reads : c.Reads (.keyword .ifWord) word c₂)
    (ran : branch bound expr nested c₂ = .ok s c₁) : Conditional c s c₁ := by
  simp only [branch, bind_eq_ok, expect_eq_ok] at ran
  obtain ⟨condition, c₃, tested, _, c₄, opens, body, c₅, read, _, c₆, follows, ran⟩ := ran
  have thenBody := block_sound_behind nestedSound opens read
  rcases acceptElse_eq_ok follows with ⟨rfl, t, elseWord⟩ | ⟨rfl, rfl⟩
  · simp only [↓reduceIte, bind_eq_ok, map_eq_ok] at ran
    obtain ⟨_, c₇, ⟨other, others, rfl⟩, ran⟩ := ran
    cases ran
    exact .branch reads (exprSound tested) thenBody (elseBody_sound nestedSound elseWord others)
  · simp only [Bool.false_eq_true, ↓reduceIte, bind_eq_ok] at ran
    obtain ⟨_, _, none, ran⟩ := ran
    cases none
    cases ran
    exact .branch reads (exprSound tested) thenBody .absent

theorem exit_sound (exprSound : Sound expr Expression)
    (reads : c.Reads (.keyword .returnWord) word c₂)
    (ran : exit word.line expr c₂ = .ok s c₁) : Declaration c s c₁ := by
  simp only [exit, bind_eq_ok] at ran
  obtain ⟨bare, c₃, peeked, ran⟩ := ran
  obtain rfl := atStatementEnd_eq_ok peeked
  cases bare with
  | true =>
      simp only [↓reduceIte, bind_eq_ok, endStatement_eq_ok] at ran
      obtain ⟨_, _, none, _, c₄, ending, ran⟩ := ran
      cases none
      cases ran
      exact .exit reads .absent ending
  | false =>
      simp only [Bool.false_eq_true, ↓reduceIte, bind_eq_ok, map_eq_ok, endStatement_eq_ok] at ran
      obtain ⟨_, c₄, ⟨value, read, rfl⟩, _, c₅, ending, ran⟩ := ran
      cases ran
      exact .exit reads (.present (exprSound read)) ending

theorem print_sound (exprSound : Sound expr Expression)
    (reads : c.Reads (.keyword .printWord) word c₂)
    (ran : print expr c₂ = .ok s c₁) : Declaration c s c₁ := by
  simp only [print, bind_eq_ok, endStatement_eq_ok] at ran
  obtain ⟨value, c₃, read, _, c₄, ending, ran⟩ := ran
  cases ran
  exact .print reads (exprSound read) ending

theorem expressionStatement_sound (exprSound : Sound expr Expression) :
    Sound (expressionStatement expr) Declaration := by
  intro c s c₁ ran
  simp only [expressionStatement, bind_eq_ok, endStatement_eq_ok] at ran
  obtain ⟨value, c₃, read, _, c₄, ending, ran⟩ := ran
  cases ran
  exact .expression (exprSound read) ending

end Rules

/-- The first token of a statement tells which rule reads the rest. -/
theorem statement_sound (exprSound : Sound expr Expression)
    (nestedSound : Sound nested Declaration) :
    Sound (statement bound expr nested) Declaration := by
  intro c s c₁ ran
  rw [statement, bind_eq_ok] at ran
  obtain ⟨answer, c₂, peeked, ran⟩ := ran
  rcases c.isAtEnd_or_reads with ended | ⟨t, c₃, reads⟩
  · rw [peek?_of_isAtEnd ended] at peeked
    cases peeked
    exact expressionStatement_sound exprSound ran
  · rw [peek?_of_reads reads] at peeked
    cases peeked
    have skipped := skip_of_reads reads
    cases kind : t.kind with
    | keyword word =>
        rw [kind] at reads
        cases word <;> simp only [kind, bind_eq_ok, skipped, map_eq_ok] at ran
        case classWord =>
            obtain ⟨_, _, same, ran⟩ := ran
            cases same
            exact classDefinition_sound nestedSound reads ran
        case fnWord =>
            obtain ⟨_, _, same, r, ran, rfl⟩ := ran
            cases same
            exact .function reads (routine_sound nestedSound ran)
        case letWord =>
            obtain ⟨_, _, same, ran⟩ := ran
            cases same
            exact variableDeclaration_sound exprSound reads ran
        case forWord =>
            obtain ⟨_, _, same, ran⟩ := ran
            cases same
            exact loop_sound exprSound nestedSound reads ran
        case ifWord =>
            obtain ⟨_, _, same, ran⟩ := ran
            cases same
            exact .branch (branch_sound exprSound nestedSound reads ran)
        case returnWord =>
            obtain ⟨_, _, same, ran⟩ := ran
            cases same
            exact exit_sound exprSound reads ran
        case printWord =>
            obtain ⟨_, _, same, ran⟩ := ran
            cases same
            exact print_sound exprSound reads ran
        all_goals exact expressionStatement_sound exprSound ran
    | mark mark =>
        rw [kind] at reads
        cases mark <;> simp only [kind, bind_eq_ok, skipped, map_eq_ok] at ran
        case leftBrace =>
            obtain ⟨_, _, same, body, ran, rfl⟩ := ran
            cases same
            exact .block (block_sound_behind nestedSound reads ran)
        all_goals exact expressionStatement_sound exprSound ran
    | _ => exact expressionStatement_sound exprSound (by simpa only [kind] using ran)

theorem declaration_sound : ∀ bound : Nat, Sound (declaration bound) Declaration := by
  intro bound
  induction bound with
  | zero =>
      intro c s c₁ ran
      simp [declaration] at ran
  | succ bound ih => exact statement_sound (expression_sound _) ih

end Statements

end Rill.Parser
