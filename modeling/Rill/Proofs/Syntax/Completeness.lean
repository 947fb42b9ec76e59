import Rill.Proofs.Syntax.Follow
import Rill.Proofs.Syntax.Soundness

/-!
# What is in the grammar is read

Every parser reads every phrase of its kind, if the phrase is followed by what can follow it and the
bound is no less than the number of tokens that are left. The bound of a nested phrase is one less,
and a token of the outer phrase stands in front of the nested one.
-/

namespace Rill.Parser

open Grammar

/-- A parser reads all phrases of a kind that are followed by something, among so many tokens. -/
def Complete {α : Type} (p : Parser α) (phrase : Cursor → α → Cursor → Prop)
    (follow : Cursor → Prop) (limit : Nat) : Prop :=
  ∀ ⦃c : Cursor⦄ ⦃a : α⦄ ⦃c₁ : Cursor⦄, phrase c a c₁ → follow c₁ →
    c.upcoming.length ≤ limit → p c = .ok a c₁

variable {bound limit n : Nat} {c c₁ c₂ : Cursor} {t : Token}

/-! ## Expressions -/

section Expressions

variable {operator? : Parser (Option (Expr → Expr → Expr))} {operand nested : Parser Expr}

theorem growLeft_complete (finds : Finds n operator?)
    (operands : Complete operand (Operands (n + 1)) (·.EndsOperands (n + 1)) limit) :
    ∀ {bound : Nat} {left e : Expr} {c c₁ : Cursor}, bound ≤ limit → Chained n left c e c₁ →
      c₁.EndsOperands n → c.upcoming.length ≤ bound →
      growLeft operator? operand bound left c = .ok e c₁ := by
  intro bound
  induction bound with
  | zero =>
      intro left e c c₁ _ chained _ within
      cases chained with
      | done => rfl
      | more reads _ _ _ =>
          rw [reads.length_eq] at within
          omega
  | succ bound ih =>
      intro left e c c₁ le chained ends within
      rw [growLeft, bind_eq_ok]
      cases chained with
      | done => exact ⟨none, c, finds.of_lacks (ends.lacksConnective (Nat.le_refl n)), rfl⟩
      | @more _ _ right _ _ c₂ c₃ _ _ _ reads connective right rest =>
          have shorter := reads.length_eq
          have behind := right.passes.length_lt
          have read : operand c₂ = .ok _ c₃ :=
            operands right (rest.endsOperands ends) (by omega)
          refine ⟨_, c₂, finds.of_reads reads connective, bind_eq_ok.mpr ⟨_, c₃, read, ?_⟩⟩
          exact ih (by omega) rest ends (by omega)

theorem leftAssociative_complete (loose : n < tightest) (finds : Finds n operator?)
    (operands : Complete operand (Operands (n + 1)) (·.EndsOperands (n + 1)) limit) :
    Complete (leftAssociative limit operator? operand) (Operands n) (·.EndsOperands n) limit := by
  intro c e c₁ phrase ends within
  cases phrase with
  | @chain _ _ c₂ _ _ _ _ first rest =>
      have behind := first.passes.length_lt
      have read : operand c = .ok _ c₂ := operands first (rest.endsOperands ends) within
      refine bind_eq_ok.mpr ⟨_, c₂, read, ?_⟩
      exact growLeft_complete finds operands (Nat.le_refl limit) rest ends (by omega)
  | signed => exact absurd loose (Nat.lt_irrefl _)

theorem binary_complete
    (operands : Complete operand (Operands tightest) (·.EndsOperands tightest) limit) :
    Complete (binary limit operand levels) (Operands 2) (·.EndsOperands 2) limit := by
  have factors : Complete _ (Operands 5) (·.EndsOperands 5) limit :=
    leftAssociative_complete (by decide) (finds_level (i := 3) rfl) operands
  have terms : Complete _ (Operands 4) (·.EndsOperands 4) limit :=
    leftAssociative_complete (by decide) (finds_level (i := 2) rfl) factors
  have comparisons : Complete _ (Operands 3) (·.EndsOperands 3) limit :=
    leftAssociative_complete (by decide) (finds_level (i := 1) rfl) terms
  exact leftAssociative_complete (by decide) (finds_level (i := 0) rfl) comparisons

theorem unary_complete (operands : Complete operand Call Cursor.EndsCall limit) :
    ∀ {bound : Nat}, bound ≤ limit → Complete (unary operand bound) Signed Cursor.EndsCall bound
    := by
  intro bound
  induction bound with
  | zero =>
      intro _ c e c₁ phrase ends within
      cases phrase with
      | sign reads _ _ =>
          rw [reads.length_eq] at within
          omega
      | call called => exact operands called ends (by omega)
  | succ bound ih =>
      intro le c e c₁ phrase ends within
      rw [unary, bind_eq_ok]
      cases phrase with
      | @sign _ c₂ _ _ _ _ reads sign inner =>
          have shorter := reads.length_eq
          have read : unary operand bound c₂ = .ok _ c₁ := ih (by omega) inner ends (by omega)
          refine ⟨_, c₂, unaryOperator?_of_reads reads sign, ?_⟩
          exact bind_eq_ok.mpr ⟨_, c₁, read, rfl⟩
      | call called =>
          exact ⟨none, c, unaryOperator?_of_lacks called.lacksSign, operands called ends (by omega)⟩

theorem separated_arguments_complete
    (nestedComplete : Complete nested Expression Cursor.EndsExpression limit) :
    ∀ {room : Nat} {c c₁ c₂ c₃ : Cursor} {arguments : List Expr}, ArgumentList c arguments c₁ →
      Newlines c₁ c₂ → c₂.Reads (.mark .rightParen) t c₃ → arguments.length ≤ room →
      c.upcoming.length ≤ limit →
      separated .arguments nested argumentSeparator room c = .ok arguments c₂ := by
  intro room
  induction room with
  | zero =>
      intro c c₁ c₂ c₃ arguments list _ _ short _
      cases list <;> exact absurd short (Nat.not_succ_le_zero _)
  | succ room ih =>
      intro c c₁ c₂ c₃ arguments list breaks closes short within
      rw [separated, bind_eq_ok]
      cases list with
      | one first =>
          have ends := breaks.endsExpression (closes.endsExpression rfl)
          refine ⟨_, c₁, nestedComplete first ends within, bind_eq_ok.mpr ⟨false, c₂, ?_, rfl⟩⟩
          rw [argumentSeparator_eq_ok, breaks.skipNewlines_eq (closes.lacks (by simp))]
          exact .inr ⟨rfl, closes.lacks (by simp), rfl⟩
      | @more _ c₄ c₅ c₆ c₇ _ comma _ rest first before separates behind others =>
          have ends := before.endsExpression (separates.endsExpression rfl)
          have passed := first.passes.length_lt
          have skipped := before.reaches.length_le
          have shorter := separates.length_eq
          have further := behind.reaches.length_le
          refine ⟨_, c₄, nestedComplete first ends within, bind_eq_ok.mpr ⟨true, c₇, ?_, ?_⟩⟩
          · rw [argumentSeparator_eq_ok, before.skipNewlines_eq (separates.lacks (by simp))]
            refine .inl ⟨rfl, comma, c₆, separates, ?_⟩
            cases others with
            | one next => exact behind.skipNewlines_eq_of_starts next.starts
            | more next => exact behind.skipNewlines_eq_of_starts next.starts
          · have read : separated .arguments nested argumentSeparator room c₇ = .ok rest c₂ :=
              ih others breaks closes (Nat.le_of_succ_le_succ short) (by omega)
            exact bind_eq_ok.mpr ⟨rest, c₂, read, rfl⟩

theorem finishCall_complete
    (nestedComplete : Complete nested Expression Cursor.EndsExpression limit)
    {callee : Expr} {arguments : List Expr} (listed : Arguments c arguments c₁)
    (closes : c₁.Reads (.mark .rightParen) t c₂) (within : c.upcoming.length ≤ limit) :
    finishCall nested callee c = .ok (.call callee arguments t.line) c₂ := by
  simp only [finishCall, bind_eq_ok]
  refine ⟨(), c.skipNewlines, rfl, ?_⟩
  cases listed with
  | none breaks =>
      rw [breaks.skipNewlines_eq (closes.lacks (by simp))]
      refine ⟨true, c₁, sees_of_reads closes, ?_⟩
      simp only [↓reduceIte, bind_eq_ok]
      exact ⟨[], c₁, rfl, t, c₂, expect_eq_ok.mpr closes, rfl⟩
  | @some _ c₃ c₄ _ _ before list behind short =>
      have starts : c₃.StartsExpression := by
        cases list with
        | one first => exact first.starts
        | more first => exact first.starts
      have skipped := before.reaches.length_le
      rw [before.skipNewlines_eq_of_starts starts]
      refine ⟨false, c₃, sees_of_lacks (starts.lacks rfl), ?_⟩
      simp only [Bool.false_eq_true, ↓reduceIte, bind_eq_ok]
      refine ⟨arguments, c₁, ?_, t, c₂, expect_eq_ok.mpr closes, rfl⟩
      exact separated_arguments_complete nestedComplete list behind closes short (by omega)

theorem suffixes_complete
    (nestedComplete : Complete nested Expression Cursor.EndsExpression limit) :
    ∀ {bound : Nat} {subject e : Expr} {c c₁ : Cursor}, bound ≤ limit + 1 →
      Suffixed subject c e c₁ → c₁.EndsCall → c.upcoming.length ≤ bound →
      suffixes nested bound subject c = .ok e c₁ := by
  intro bound
  induction bound with
  | zero =>
      intro subject e c c₁ _ suffixed _ within
      cases suffixed with
      | done => rfl
      | call opens | get opens =>
          rw [opens.length_eq] at within
          omega
  | succ bound ih =>
      intro subject e c c₁ le suffixed ends within
      rw [suffixes, bind_eq_ok]
      cases suffixed with
      | done =>
          refine ⟨false, c, accept_eq_ok.mpr (.inr ⟨rfl, ends.1, rfl⟩), ?_⟩
          exact bind_eq_ok.mpr ⟨false, c, accept_eq_ok.mpr (.inr ⟨rfl, ends.2, rfl⟩), rfl⟩
      | @call _ _ _ _ c₂ c₃ c₄ _ opening _ opens listed closes rest =>
          have shorter := opens.length_eq
          have skipped := listed.reaches.length_le
          have closed := closes.length_eq
          refine ⟨true, c₂, accept_eq_ok.mpr (.inl ⟨rfl, opening, opens⟩), ?_⟩
          refine bind_eq_ok.mpr ⟨_, c₄, finishCall_complete nestedComplete listed closes ?_, ?_⟩
          · omega
          · exact ih (by omega) rest ends (by omega)
      | @get _ _ _ c₂ c₃ _ dot name point named rest =>
          have shorter := point.length_eq
          have passed := named.length_eq
          have noCall : c.Lacks (.mark .leftParen) := point.lacks (by simp)
          refine ⟨false, c, accept_eq_ok.mpr (.inr ⟨rfl, noCall, rfl⟩), ?_⟩
          refine bind_eq_ok.mpr ⟨true, c₂, accept_eq_ok.mpr (.inl ⟨rfl, dot, point⟩), ?_⟩
          refine bind_eq_ok.mpr ⟨_, c₃, identifier_eq_ok.mpr ⟨name, named, rfl⟩, ?_⟩
          exact ih (by omega) rest ends (by omega)

theorem primary_complete (nestedComplete : Complete nested Expression Cursor.EndsExpression limit)
    {e : Expr} (phrase : Primary c e c₁) (within : c.upcoming.length ≤ limit + 1) :
    primary nested c = .ok e c₁ := by
  rw [primary, bind_eq_ok]
  cases phrase with
  | @constant _ _ t value reads constant =>
      refine ⟨some t, c, peek?_of_reads reads, ?_⟩
      have skipped :
          (do skip; return Expr.literal value : Parser Expr) c = .ok (.literal value) c₁ :=
        bind_eq_ok.mpr ⟨(), c₁, skip_of_reads reads, rfl⟩
      cases kind : t.kind with
      | keyword word =>
          rw [kind] at constant
          cases word <;> first
            | (cases constant; simpa only [kind] using skipped)
            | cases constant
      | number | string =>
          rw [kind] at constant
          cases constant
          simpa only [kind] using skipped
      | _ =>
          rw [kind] at constant
          cases constant
  | @selfRef _ c₂ t reads =>
      refine ⟨some t, c, peek?_of_reads reads, ?_⟩
      simp only [reads.kind_eq, bind_eq_ok]
      exact ⟨(), c₂, skip_of_reads reads, _, _, rfl, rfl⟩
  | @var _ c₂ t reads =>
      refine ⟨some t, c, peek?_of_reads reads, ?_⟩
      simp only [reads.kind_eq, bind_eq_ok]
      exact ⟨(), c₂, skip_of_reads reads, _, _, rfl, rfl⟩
  | @group _ c₂ c₃ c₄ c₅ _ opening closing inner opens before inside behind closes =>
      have shorter := opens.length_eq
      have skipped := before.reaches.length_le
      have ends := behind.endsExpression (closes.endsExpression rfl)
      refine ⟨some opening, c, peek?_of_reads opens, ?_⟩
      simp only [opens.kind_eq, bind_eq_ok, skipNewlines_apply, expect_eq_ok]
      refine ⟨(), c₂, skip_of_reads opens, (), c₃, ?_, inner, c₄, ?_, (), c₅, ?_, closing, c₁,
        closes, rfl⟩
      · rw [before.skipNewlines_eq_of_starts inside.starts]
      · exact nestedComplete inside ends (by omega)
      · rw [behind.skipNewlines_eq (closes.lacks (by simp))]

theorem call_complete (nestedComplete : Complete nested Expression Cursor.EndsExpression limit) :
    Complete (call (limit + 1) nested) Call Cursor.EndsCall (limit + 1) := by
  intro c e c₁ phrase ends within
  cases phrase with
  | @primary _ c₂ _ _ _ subject suffixed =>
      have behind := subject.passes.length_lt
      refine bind_eq_ok.mpr ⟨_, c₂, primary_complete nestedComplete subject within, ?_⟩
      exact suffixes_complete nestedComplete (Nat.le_refl _) suffixed ends (by omega)

theorem logicalOr_complete
    (nestedComplete : Complete nested Expression Cursor.EndsExpression limit) :
    Complete (logicalOr (limit + 1) nested) (Operands 0) (·.EndsOperands 0) (limit + 1) := by
  have signed : Complete (unary (call (limit + 1) nested) (limit + 1)) (Operands tightest)
      (·.EndsOperands tightest) (limit + 1) := by
    intro c e c₁ phrase ends within
    cases phrase with
    | chain loose => exact absurd loose (Nat.lt_irrefl _)
    | signed operand =>
        have calls := call_complete nestedComplete
        exact unary_complete calls (Nat.le_refl _) operand ends.endsCall within
  have conjunctions : Complete _ (Operands 1) (·.EndsOperands 1) (limit + 1) :=
    leftAssociative_complete (by decide) finds_and (binary_complete signed)
  exact leftAssociative_complete (by decide) finds_or conjunctions

/-- The left side of an assignment is read as an expression of its own first. -/
theorem assignment_complete
    (nestedComplete : Complete nested Expression Cursor.EndsExpression limit) :
    Complete (assignment (limit + 1) nested) Expression Cursor.EndsExpression (limit + 1) := by
  intro c e c₁ phrase ends within
  have operands := logicalOr_complete nestedComplete
  have endsTarget {c c₁ : Cursor} {t : Token} (equal : c.Reads (.mark .equal) t c₁) :
      c.EndsOperands 0 :=
    equal.endsOperands_of_not_connective (by simp) (by simp) (by
      unfold connective?
      rw [equal.kind_eq])
  simp only [assignment, bind_eq_ok]
  cases phrase with
  | value phrase =>
      exact ⟨e, c₁, operands phrase ends.endsOperands within, none, c₁,
        accept?_of_lacks ends.lacksEqual, rfl⟩
  | @assign _ c₂ c₃ c₄ name equal value named assigns assigned =>
      have shorter := named.length_eq
      have equalSign := assigns.length_eq
      have target : Operands 0 c (.var c₂.fresh name.ident) c₂.numbered :=
        .of_call (.primary (.var named) .done) tightest rfl
      refine ⟨_, _, operands target (endsTarget assigns) within, some equal, c₃,
        accept?_of_reads assigns, ?_⟩
      simp only [Cursor.numbered_upcoming] at equalSign
      have read : nested c₃ = .ok value c₄ := nestedComplete assigned ends.of_numbered (by omega)
      exact bind_eq_ok.mpr ⟨value, c₄, read, rfl⟩
  | @set _ c₂ c₃ c₄ c₅ _ dot name equal object value called point named assigns assigned =>
      have passed := called.passes.length_lt
      have shorter := point.length_eq
      have further := named.length_eq
      have equalSign := assigns.length_eq
      have target : Operands 0 c (.get object name.ident) c₄ :=
        .of_call (called.get point named) tightest rfl
      refine ⟨_, _, operands target (endsTarget assigns) within, some equal, c₅,
        accept?_of_reads assigns, ?_⟩
      have read : nested c₅ = .ok value c₁ := nestedComplete assigned ends (by omega)
      exact bind_eq_ok.mpr ⟨value, c₁, read, rfl⟩

theorem expression_complete :
    ∀ limit : Nat, Complete (expression limit) Expression Cursor.EndsExpression limit := by
  intro limit
  induction limit with
  | zero =>
      intro c e c₁ phrase _ within
      have passed := phrase.passes.length_lt
      omega
  | succ limit ih => exact assignment_complete ih

end Expressions

/-! ## Statements -/

section Statements

variable {α : Type} {expr : Parser Expr} {nested : Parser Stmt}

/-- The items of a body are read if each of them is, whatever they are. -/
theorem bodyItems_complete {item : Parser α} (phrase : Cursor → α → Cursor → Prop)
    (items : Cursor → List α → Cursor → Prop) (follow : Cursor → Prop)
    (split : ∀ {c c₁ : Cursor} {found : List α}, items c found c₁ →
      (found = [] ∧ Newlines c c₁) ∨ ∃ a rest c₂ c₃, found = a :: rest ∧ Newlines c c₂ ∧
        phrase c₂ a c₃ ∧ items c₃ rest c₁)
    (starts : ∀ {c c₁ : Cursor} {a : α}, phrase c a c₁ → c.Lacks .newline ∧ ¬ c.EndsBody)
    (passes : ∀ {c c₁ : Cursor} {a : α}, phrase c a c₁ → c.Passes c₁)
    (follows : ∀ {c c₁ : Cursor} {found : List α}, items c found c₁ → c₁.EndsBody → follow c)
    (complete : Complete item phrase follow limit) :
    ∀ {bound : Nat} {c c₁ : Cursor} {found : List α}, items c found c₁ → c₁.EndsBody →
      c.upcoming.length ≤ bound → c.upcoming.length ≤ limit →
      bodyItems item bound c = .ok found c₁ := by
  intro bound
  induction bound with
  | zero =>
      intro c c₁ found body _ within _
      rcases split body with ⟨rfl, breaks⟩ | ⟨a, rest, c₂, c₃, rfl, breaks, phrase, _⟩
      · cases breaks with
        | none => rfl
        | more reads =>
            rw [reads.length_eq] at within
            omega
      · have skipped := breaks.reaches.length_le
        have passed := (passes phrase).length_lt
        omega
  | succ bound ih =>
      intro c c₁ found body ends within small
      simp only [bodyItems, bind_eq_ok]
      refine ⟨(), c.skipNewlines, rfl, ?_⟩
      rcases split body with ⟨rfl, breaks⟩ | ⟨a, rest, c₂, c₃, rfl, breaks, phrase, others⟩
      · rw [breaks.skipNewlines_eq (ends.lacks (by simp))]
        exact ⟨true, c₁, atBodyEnd_eq_ok.mpr ⟨rfl, by simp [ends]⟩, rfl⟩
      · obtain ⟨noBreak, goesOn⟩ := starts phrase
        have skipped := breaks.reaches.length_le
        have passed := (passes phrase).length_lt
        rw [breaks.skipNewlines_eq noBreak]
        refine ⟨false, c₂, atBodyEnd_eq_ok.mpr ⟨rfl, by simp [goesOn]⟩, ?_⟩
        simp only [Bool.false_eq_true, ↓reduceIte, bind_eq_ok]
        have first : item c₂ = .ok a c₃ := complete phrase (follows others ends) (by omega)
        have behind : bodyItems item bound c₃ = .ok rest c₁ :=
          ih others ends (by omega) (by omega)
        exact ⟨a, c₃, first, rest, c₁, behind, rfl⟩

/-- Behind a statement, and behind line breaks, there is no `else`. -/
def LacksElse (c : Cursor) : Prop := c.skipNewlines.Lacks (.keyword .elseWord)

theorem body_complete (nestedComplete : Complete nested Declaration LacksElse limit)
    {body : List Stmt} (statements : Body c body c₁) (ends : c₁.EndsBody)
    (within : c.upcoming.length ≤ bound) (small : c.upcoming.length ≤ limit) :
    bodyItems nested bound c = .ok body c₁ := by
  refine bodyItems_complete Declaration Body LacksElse ?_ ?_ Declaration.passes Body.lacksElse
    nestedComplete statements ends within small
  · intro c c₁ found body
    cases body with
    | done breaks => exact .inl ⟨rfl, breaks⟩
    | more breaks first rest => exact .inr ⟨_, _, _, _, rfl, breaks, first, rest⟩
  · intro c c₁ s declaration
    exact ⟨declaration.starts.1, declaration.starts.2.2⟩

theorem block_complete (nestedComplete : Complete nested Declaration LacksElse limit)
    {body : List Stmt} {opening : Token} (opens : c.Reads (.mark .leftBrace) opening c₁)
    (braces : Block c body c₂) (within : c.upcoming.length ≤ limit + 1) :
    block (limit + 1) nested c₁ = .ok body c₂ := by
  cases braces with
  | @braces _ c₃ c₄ _ _ closing _ other statements closes =>
      obtain ⟨rfl, rfl⟩ := other.unique opens
      have shorter := opens.length_eq
      simp only [block, bind_eq_ok, expect_eq_ok]
      refine ⟨body, c₄, ?_, closing, c₂, closes, rfl⟩
      exact body_complete nestedComplete statements (.inr ⟨closing, c₂, closes⟩) (by omega)
        (by omega)

theorem Block.opens {body : List Stmt} (braces : Block c body c₁) :
    ∃ t c₂, c.Reads (.mark .leftBrace) t c₂ := by
  cases braces with
  | braces opens _ _ => exact ⟨_, _, opens⟩

theorem names_complete : ∀ {room : Nat} {c c₁ c₂ : Cursor} {names : List Ident},
    Names c names c₁ → c₁.Reads (.mark .rightParen) t c₂ → names.length ≤ room →
    separated .parameters (identifier .parameterName) (accept (.mark .comma)) room c =
      .ok names c₁ := by
  intro room
  induction room with
  | zero =>
      intro c c₁ c₂ names list _ short
      cases list <;> exact absurd short (Nat.not_succ_le_zero _)
  | succ room ih =>
      intro c c₁ c₂ names list closes short
      simp only [separated, bind_eq_ok]
      cases list with
      | @one _ _ name named =>
          have noComma : c₁.Lacks (.mark .comma) := closes.lacks (by simp)
          exact ⟨_, c₁, identifier_eq_ok.mpr ⟨name, named, rfl⟩, false, c₁,
            accept_eq_ok.mpr (.inr ⟨rfl, noComma, rfl⟩), rfl⟩
      | @more _ c₃ c₄ _ name comma rest named separates others =>
          have read := ih others closes (Nat.le_of_succ_le_succ short)
          exact ⟨_, c₃, identifier_eq_ok.mpr ⟨name, named, rfl⟩, true, c₄,
            accept_eq_ok.mpr (.inl ⟨rfl, comma, separates⟩), bind_eq_ok.mpr ⟨rest, c₁, read, rfl⟩⟩

theorem parameters_complete {params : List Ident} (listed : Parameters c params c₁)
    (closes : c₁.Reads (.mark .rightParen) t c₂) : parameters c = .ok params c₂ := by
  simp only [parameters, bind_eq_ok]
  cases listed with
  | none =>
      refine ⟨true, c, sees_of_reads closes, ?_⟩
      simp only [↓reduceIte, bind_eq_ok]
      exact ⟨[], c, rfl, t, c₂, expect_eq_ok.mpr closes, rfl⟩
  | some list short =>
      have noClose : c.Lacks (.mark .rightParen) := by
        cases list with
        | one named | more named => exact named.lacks (by simp)
      refine ⟨false, c, sees_of_lacks noClose, ?_⟩
      simp only [Bool.false_eq_true, ↓reduceIte, bind_eq_ok]
      exact ⟨params, c₁, names_complete list closes short, t, c₂, expect_eq_ok.mpr closes, rfl⟩

theorem routine_complete {kind : RoutineKind} {r : Routine}
    (nestedComplete : Complete nested Declaration LacksElse limit) (phrase : RoutineRest c r c₁)
    (within : c.upcoming.length ≤ limit) : routine kind (limit + 1) nested c = .ok r c₁ := by
  cases phrase with
  | @named _ c₂ c₃ c₄ c₅ _ name opening closing params body named opens listed closes braces =>
      have shorter := (named.passes.trans opens.passes).then listed.reaches
      have passed := (shorter.trans closes.passes).length_lt
      obtain ⟨brace, c₆, braced⟩ := Block.opens braces
      simp only [routine, bind_eq_ok, identifier_eq_ok, expect_eq_ok]
      refine ⟨_, c₂, ⟨name, named, rfl⟩, opening, c₃, opens, params, c₅,
        parameters_complete listed closes, brace, c₆, braced, body, c₁, ?_, rfl⟩
      exact block_complete nestedComplete braced braces (by omega)

theorem methods_complete (nestedComplete : Complete nested Declaration LacksElse limit)
    {methods : List Routine} (phrase : Methods c methods c₁) (ends : c₁.EndsBody)
    (within : c.upcoming.length ≤ limit) :
    bodyItems (method (limit + 1) nested) (limit + 1) c = .ok methods c₁ := by
  refine bodyItems_complete
    (fun c r c₁ => ∃ word c₂, c.Reads (.keyword .fnWord) word c₂ ∧ RoutineRest c₂ r c₁)
    Methods (fun _ => True) ?_ ?_ ?_ (fun _ _ => trivial) ?_ phrase ends (by omega) within
  · intro c c₁ found body
    cases body with
    | done breaks => exact .inl ⟨rfl, breaks⟩
    | more breaks word routine rest =>
        exact .inr ⟨_, _, _, _, rfl, breaks, ⟨_, _, word, routine⟩, rest⟩
  · rintro c c₁ r ⟨word, c₂, reads, _⟩
    refine ⟨reads.lacks (by simp), ?_⟩
    rw [reads.endsBody_iff, reads.kind_eq]
    simp
  · rintro c c₁ r ⟨word, c₂, reads, routine⟩
    exact reads.passes.trans routine.passes
  · rintro c r c₁ ⟨word, c₂, reads, routine⟩ _ within
    have shorter := reads.length_eq
    simp only [method, bind_eq_ok, expect_eq_ok]
    exact ⟨word, c₂, reads, routine_complete nestedComplete routine (by omega)⟩

theorem loopVar_complete (exprComplete : Complete expr Expression Cursor.EndsExpression limit)
    {counter : LoopVar} (counts : Counter c counter c₁) (ends : c₁.EndsExpression)
    (within : c.upcoming.length ≤ limit) : loopVar expr c = .ok counter c₁ := by
  simp only [loopVar, bind_eq_ok]
  cases counts with
  | @declared c₂ c₃ c₄ _ word name equal value reads named assigns assigned =>
      have shorter := ((reads.passes.trans named.passes).trans assigns.passes).length_lt
      refine ⟨true, c₂, accept_eq_ok.mpr (.inl ⟨rfl, word, reads⟩), ?_⟩
      simp only [↓reduceIte, bind_eq_ok, identifier_eq_ok, expect_eq_ok]
      exact ⟨_, c₃, ⟨name, named, rfl⟩, equal, c₄, assigns, value, c₁,
        exprComplete assigned ends (by omega), rfl⟩
  | @assigned c₂ c₃ c₄ name equal value named assigns assigned =>
      have noLet : c.Lacks (.keyword .letWord) := named.lacks (by simp)
      refine ⟨false, c, accept_eq_ok.mpr (.inr ⟨rfl, noLet, rfl⟩), ?_⟩
      simp only [Bool.false_eq_true, ↓reduceIte, bind_eq_ok]
      exact ⟨c, c, rfl, _, _, exprComplete (.assign named assigns assigned) ends within, rfl⟩

theorem optionalBefore_complete {mark : Mark} {item : Parser α}
    {phrase : Cursor → α → Cursor → Prop} {a : Option α} (perhaps : Perhaps phrase c a c₁)
    (reads : c₁.Reads (.mark mark) t c₂)
    (starts : ∀ {a : α}, phrase c a c₁ → c.Lacks (.mark mark))
    (complete : ∀ {a : α}, phrase c a c₁ → item c = .ok a c₁) :
    optionalBefore mark item c = .ok a c₁ := by
  simp only [optionalBefore, bind_eq_ok]
  cases perhaps with
  | absent => exact ⟨true, c, sees_of_reads reads, rfl⟩
  | present phrase =>
      refine ⟨false, c, sees_of_lacks (starts phrase), ?_⟩
      exact map_eq_ok.mpr ⟨_, complete phrase, rfl⟩

theorem elseBody_complete (nestedComplete : Complete nested Declaration LacksElse limit)
    {body : List Stmt}
    (phrase : Block c body c₁ ∨ ∃ s, Conditional c s c₁ ∧ body = [s])
    (follow : LacksElse c₁) (within : c.upcoming.length ≤ limit) :
    elseBody (limit + 1) nested c = .ok body c₁ := by
  simp only [elseBody, bind_eq_ok]
  rcases phrase with braces | ⟨s, conditional, rfl⟩
  · obtain ⟨brace, c₂, opens⟩ := Block.opens braces
    refine ⟨false, c, sees_of_lacks (opens.lacks (by simp)), ?_⟩
    simp only [Bool.false_eq_true, ↓reduceIte, bind_eq_ok]
    refine ⟨brace, c₂, expect_eq_ok.mpr opens, ?_⟩
    exact block_complete nestedComplete opens braces (by omega)
  · have read : nested c = .ok s c₁ := nestedComplete (.branch conditional) follow within
    cases conditional with
    | @branch _ c₂ _ _ _ word _ _ _ reads _ _ _ =>
        refine ⟨true, c, sees_of_reads reads, ?_⟩
        simp only [↓reduceIte, bind_eq_ok]
        exact ⟨_, c₁, read, rfl⟩

/-! ### Statements behind their first words -/

section Rules

variable {word : Token} {s : Stmt}

theorem branch_complete (exprComplete : Complete expr Expression Cursor.EndsExpression limit)
    (nestedComplete : Complete nested Declaration LacksElse limit)
    (reads : c.Reads (.keyword .ifWord) word c₂) (phrase : Conditional c s c₁)
    (follow : LacksElse c₁) (within : c.upcoming.length ≤ limit + 1) :
    branch (limit + 1) expr nested c₂ = .ok s c₁ := by
  cases phrase with
  | @branch _ _ c₃ c₄ _ word condition thenBody elseBody other tests braces otherwise =>
      obtain ⟨rfl, rfl⟩ := other.unique reads
      obtain ⟨brace, c₅, opens⟩ := Block.opens braces
      have shorter := reads.length_eq
      have passed := tests.passes.length_lt
      have read : block (limit + 1) nested c₅ = .ok thenBody c₄ :=
        block_complete nestedComplete opens braces (by omega)
      simp only [branch, bind_eq_ok, expect_eq_ok]
      refine ⟨condition, c₃, exprComplete tests (opens.endsExpression rfl) (by omega), brace, c₅,
        opens, thenBody, c₄, read, ?_⟩
      have behind := braces.passes.length_lt
      cases otherwise with
      | absent =>
          refine ⟨false, c₁, acceptElse_of_lacks follow, ?_⟩
          simp only [Bool.false_eq_true, ↓reduceIte, bind_eq_ok]
          exact ⟨none, c₁, rfl, rfl⟩
      | @block _ c₆ c₇ _ _ body breaks elseWord other =>
          have skipped := breaks.reaches.length_le
          have further := elseWord.length_eq
          rw [← breaks.skipNewlines_eq (elseWord.lacks (by simp))] at elseWord
          have others := elseBody_complete nestedComplete (.inl other) follow (by omega)
          refine ⟨true, c₇, acceptElse_of_reads elseWord, ?_⟩
          simp only [↓reduceIte, bind_eq_ok, map_eq_ok]
          exact ⟨some body, c₁, ⟨body, others, rfl⟩, rfl⟩
      | @conditional _ c₆ c₇ _ _ s breaks elseWord other =>
          have skipped := breaks.reaches.length_le
          have further := elseWord.length_eq
          rw [← breaks.skipNewlines_eq (elseWord.lacks (by simp))] at elseWord
          have others := elseBody_complete nestedComplete (.inr ⟨s, other, rfl⟩) follow (by omega)
          refine ⟨true, c₇, acceptElse_of_reads elseWord, ?_⟩
          simp only [↓reduceIte, bind_eq_ok, map_eq_ok]
          exact ⟨some [s], c₁, ⟨[s], others, rfl⟩, rfl⟩

theorem exit_complete (exprComplete : Complete expr Expression Cursor.EndsExpression limit)
    {value : Option Expr} (perhaps : Perhaps Expression c value c₁) (ending : Ending c₁ c₂)
    (within : c.upcoming.length ≤ limit) {line : Nat} :
    exit line expr c = .ok (.exit line value) c₂ := by
  simp only [exit, bind_eq_ok]
  cases perhaps with
  | absent =>
      refine ⟨true, c, ?_, ?_⟩
      · cases ending with
        | newline reads | semicolon reads | beforeBrace reads =>
            rw [atStatementEnd_of_reads reads]
            rfl
        | beforeEnd ended => exact atStatementEnd_of_isAtEnd ended
      · simp only [↓reduceIte, bind_eq_ok]
        exact ⟨none, c, rfl, (), c₂, endStatement_eq_ok.mpr ending, rfl⟩
  | @present _ value phrase =>
      obtain ⟨t, c₃, reads, starts⟩ := phrase.starts
      have goesOn : atStatementEnd c = .ok false c := by
        rw [atStatementEnd_of_reads reads]
        congr 1
        rw [decide_eq_false_iff_not]
        rintro (same | same | same) <;> simp [same, startsExpression, constant?, sign?] at starts
      have read : expr c = .ok value c₁ := exprComplete phrase ending.endsExpression within
      refine ⟨false, c, goesOn, ?_⟩
      simp only [Bool.false_eq_true, ↓reduceIte, bind_eq_ok, map_eq_ok]
      exact ⟨some value, c₁, ⟨value, read, rfl⟩, (), c₂, endStatement_eq_ok.mpr ending, rfl⟩

theorem variableDeclaration_complete
    (exprComplete : Complete expr Expression Cursor.EndsExpression limit) {name : Token}
    {initializer : Option Expr} {c₃ : Cursor} (named : c.Reads .identifier name c₁)
    (perhaps : Perhaps Initializer c₁ initializer c₂) (ending : Ending c₂ c₃)
    (within : c.upcoming.length ≤ limit) :
    variableDeclaration expr c = .ok (.declare name.ident initializer) c₃ := by
  have passed := named.length_eq
  simp only [variableDeclaration, bind_eq_ok]
  refine ⟨name.ident, c₁, identifier_eq_ok.mpr ⟨name, named, rfl⟩, ?_⟩
  cases perhaps with
  | absent =>
      have noEqual : c₁.Lacks (.mark .equal) := ending.endsExpression.lacksEqual
      refine ⟨false, c₁, accept_eq_ok.mpr (.inr ⟨rfl, noEqual, rfl⟩), ?_⟩
      simp only [Bool.false_eq_true, ↓reduceIte, bind_eq_ok]
      exact ⟨none, c₁, rfl, (), c₃, endStatement_eq_ok.mpr ending, rfl⟩
  | present initializes =>
      cases initializes with
      | @equal c₄ _ equal _ assigns assigned =>
          have further := assigns.length_eq
          have read : expr c₄ = .ok _ c₂ :=
            exprComplete assigned ending.endsExpression (by omega)
          refine ⟨true, c₄, accept_eq_ok.mpr (.inl ⟨rfl, equal, assigns⟩), ?_⟩
          simp only [↓reduceIte, bind_eq_ok, map_eq_ok]
          exact ⟨some _, c₂, ⟨_, read, rfl⟩, (), c₃, endStatement_eq_ok.mpr ending, rfl⟩

theorem loop_complete (exprComplete : Complete expr Expression Cursor.EndsExpression limit)
    (nestedComplete : Complete nested Declaration LacksElse limit) {first second : Token}
    {counter : Option LoopVar} {condition increment : Option Expr} {body : List Stmt}
    {c₃ c₄ c₅ c₆ : Cursor} (counts : Perhaps Counter c counter c₁)
    (firstMark : c₁.Reads (.mark .semicolon) first c₂) (tests : Perhaps Expression c₂ condition c₃)
    (secondMark : c₃.Reads (.mark .semicolon) second c₄)
    (steps : Perhaps Expression c₄ increment c₅) (braces : Block c₅ body c₆)
    (within : c.upcoming.length ≤ limit) :
    loop (limit + 1) expr nested c = .ok (.loop counter condition increment body) c₆ := by
  obtain ⟨brace, c₇, opens⟩ := Block.opens braces
  have counted := counts.reaches fun phrase => phrase.passes.reaches
  have tested := tests.reaches fun phrase => phrase.passes.reaches
  have stepped := steps.reaches fun phrase => phrase.passes.reaches
  have toCondition := counted.then firstMark.passes
  have toIncrement := (toCondition.then tested).trans secondMark.passes
  have toBody := toIncrement.then stepped
  have readCounter : optionalBefore .semicolon (loopVar expr) c = .ok counter c₁ := by
    refine optionalBefore_complete counts firstMark ?_ ?_
    · intro counter phrase
      cases phrase with
      | declared word => exact word.lacks (by simp)
      | assigned name => exact name.lacks (by simp)
    · intro counter phrase
      exact loopVar_complete exprComplete phrase (firstMark.endsExpression rfl) within
  have readCondition : optionalBefore .semicolon expr c₂ = .ok condition c₃ := by
    refine optionalBefore_complete tests secondMark (fun phrase => phrase.starts.lacks rfl) ?_
    intro value phrase
    have shorter := toCondition.length_lt
    exact exprComplete phrase (secondMark.endsExpression rfl) (by omega)
  have readIncrement : optionalBefore .leftBrace expr c₄ = .ok increment c₅ := by
    refine optionalBefore_complete steps opens (fun phrase => phrase.starts.lacks rfl) ?_
    intro value phrase
    have shorter := toIncrement.length_lt
    exact exprComplete phrase (opens.endsExpression rfl) (by omega)
  have readBody : block (limit + 1) nested c₇ = .ok body c₆ := by
    have shorter := toBody.length_lt
    exact block_complete nestedComplete opens braces (by omega)
  simp only [loop, bind_eq_ok, expect_eq_ok]
  exact ⟨counter, c₁, readCounter, first, c₂, firstMark, condition, c₃, readCondition, second, c₄,
    secondMark, increment, c₅, readIncrement, brace, c₇, opens, body, c₆, readBody, rfl⟩

theorem classDefinition_complete (nestedComplete : Complete nested Declaration LacksElse limit)
    {name opening closing : Token} {methods : List Routine} {c₃ c₄ : Cursor}
    (named : c.Reads .identifier name c₁) (opens : c₁.Reads (.mark .leftBrace) opening c₂)
    (phrase : Methods c₂ methods c₃) (closes : c₃.Reads (.mark .rightBrace) closing c₄)
    (within : c.upcoming.length ≤ limit) :
    classDefinition (limit + 1) nested c = .ok (.classDef name.ident methods) c₄ := by
  have shorter := (named.passes.trans opens.passes).length_lt
  have read : bodyItems (method (limit + 1) nested) (limit + 1) c₂ = .ok methods c₃ :=
    methods_complete nestedComplete phrase (.inr ⟨closing, c₄, closes⟩) (by omega)
  simp only [classDefinition, bind_eq_ok, identifier_eq_ok, expect_eq_ok]
  exact ⟨_, c₁, ⟨name, named, rfl⟩, opening, c₂, opens, methods, c₃, read, closing, c₄, closes, rfl⟩

end Rules

/-- What begins with no word or brace of its own is read as an expression. -/
theorem statement_of_startsExpression (starts : c.StartsExpression) :
    statement bound expr nested c = expressionStatement expr c := by
  obtain ⟨t, c₁, reads, start⟩ := starts
  rw [statement, bind_of_eq_ok (peek?_of_reads reads)]
  cases kind : t.kind with
  | keyword word =>
      rw [kind] at start
      cases word <;> first
        | (simp only [kind]; done)
        | cases start
  | mark mark =>
      rw [kind] at start
      cases mark <;> first
        | (simp only [kind]; done)
        | cases start
  | _ => simp only [kind]

theorem statement_complete
    (exprComplete : Complete expr Expression Cursor.EndsExpression (limit + 1))
    (nestedComplete : Complete nested Declaration LacksElse limit) :
    Complete (statement (limit + 1) expr nested) Declaration LacksElse (limit + 1) := by
  intro c s c₁ phrase follow within
  have inner : Complete expr Expression Cursor.EndsExpression limit := by
    intro c e c₁ phrase ends small
    exact exprComplete phrase ends (by omega)
  have behind {kind : Kind} {t : Token} {c₂ : Cursor} {next : Parser Stmt}
      (reads : c.Reads kind t c₂) (read : next c₂ = .ok s c₁) :
      (do skip; next : Parser Stmt) c = .ok s c₁ :=
    bind_eq_ok.mpr ⟨(), c₂, skip_of_reads reads, read⟩
  cases phrase with
  | @expression _ c₂ _ value valued ending =>
      have read : expr c = .ok value c₂ := exprComplete valued ending.endsExpression within
      rw [statement_of_startsExpression valued.starts, expressionStatement, bind_eq_ok]
      refine ⟨value, c₂, read, bind_eq_ok.mpr ⟨(), c₁, ?_, rfl⟩⟩
      exact endStatement_eq_ok.mpr ending
  | @classDef _ c₂ _ _ _ _ word _ _ _ _ reads named opens methods closes =>
      have shorter := reads.length_eq
      refine bind_eq_ok.mpr ⟨some word, c, peek?_of_reads reads, ?_⟩
      simp only [reads.kind_eq]
      refine behind reads ?_
      exact classDefinition_complete nestedComplete named opens methods closes (by omega)
  | @function _ c₂ _ word r reads phrase =>
      have shorter := reads.length_eq
      refine bind_eq_ok.mpr ⟨some word, c, peek?_of_reads reads, ?_⟩
      simp only [reads.kind_eq]
      refine behind reads (map_eq_ok.mpr ⟨r, ?_, rfl⟩)
      exact routine_complete nestedComplete phrase (by omega)
  | @declare _ c₂ _ _ _ word _ _ reads named initializer ending =>
      have shorter := reads.length_eq
      refine bind_eq_ok.mpr ⟨some word, c, peek?_of_reads reads, ?_⟩
      simp only [reads.kind_eq]
      refine behind reads ?_
      exact variableDeclaration_complete inner named initializer ending (by omega)
  | @loop _ c₂ _ _ _ _ _ _ word _ _ _ _ _ _ reads counts first tests second steps braces =>
      have shorter := reads.length_eq
      refine bind_eq_ok.mpr ⟨some word, c, peek?_of_reads reads, ?_⟩
      simp only [reads.kind_eq]
      refine behind reads ?_
      exact loop_complete inner nestedComplete counts first tests second steps braces (by omega)
  | branch phrase =>
      have opened : ∃ word c₂, c.Reads (.keyword .ifWord) word c₂ := by
        cases phrase with
        | branch reads => exact ⟨_, _, reads⟩
      obtain ⟨word, c₂, reads⟩ := opened
      refine bind_eq_ok.mpr ⟨some word, c, peek?_of_reads reads, ?_⟩
      simp only [reads.kind_eq]
      exact behind reads (branch_complete inner nestedComplete reads phrase follow within)
  | @exit _ c₂ _ _ word _ reads value ending =>
      have shorter := reads.length_eq
      refine bind_eq_ok.mpr ⟨some word, c, peek?_of_reads reads, ?_⟩
      simp only [reads.kind_eq]
      exact behind reads (exit_complete inner value ending (by omega))
  | @block _ _ body braces =>
      obtain ⟨opening, c₂, opens⟩ := Block.opens braces
      refine bind_eq_ok.mpr ⟨some opening, c, peek?_of_reads opens, ?_⟩
      simp only [opens.kind_eq]
      refine behind opens (map_eq_ok.mpr ⟨body, ?_, rfl⟩)
      exact block_complete nestedComplete opens braces within
  | @print _ c₂ c₃ _ word value reads valued ending =>
      have shorter := reads.length_eq
      have read : expr c₂ = .ok value c₃ := inner valued ending.endsExpression (by omega)
      refine bind_eq_ok.mpr ⟨some word, c, peek?_of_reads reads, ?_⟩
      simp only [reads.kind_eq]
      refine behind reads (bind_eq_ok.mpr ⟨value, c₃, read, bind_eq_ok.mpr ⟨(), c₁, ?_, rfl⟩⟩)
      exact endStatement_eq_ok.mpr ending

theorem declaration_complete :
    ∀ limit : Nat, Complete (declaration limit) Declaration LacksElse limit := by
  intro limit
  induction limit with
  | zero =>
      intro c s c₁ phrase _ within
      have passed := phrase.passes.length_lt
      omega
  | succ limit ih => exact statement_complete (expression_complete (limit + 1)) ih

end Statements

end Rill.Parser
