import Rill.Proofs.Syntax.Connectives
import Rill.Proofs.Syntax.Extent

/-!
# What stands behind phrases

A parser goes on as long as the next token lets it, so it stops where a phrase ends only if the
token there cannot go on with the phrase. In a program the token behind a phrase never can.
-/

namespace Rill

namespace Cursor

/-- No suffix stands here. -/
def EndsCall (c : Cursor) : Prop := c.Lacks (.mark .leftParen) ∧ c.Lacks (.mark .dot)

/-- Neither a suffix nor an operator of a strength, or of a greater one, stands here. -/
structure EndsOperands (strength : Nat) (c : Cursor) : Prop where
  endsCall : c.EndsCall
  lacksConnective {n : Nat} : strength ≤ n → c.LacksConnective n

/-- Nothing stands here that goes on with an expression. -/
structure EndsExpression (c : Cursor) : Prop where
  endsOperands : c.EndsOperands 0
  lacksEqual : c.Lacks (.mark .equal)

variable {c c₁ : Cursor} {t : Token} {kind : Kind} {n m : Nat}

theorem Reads.lacksConnective (reads : c.Reads kind t c₁)
    (other : ∀ combine, Grammar.connective? t ≠ some (n, combine)) : c.LacksConnective n := by
  intro u present
  rw [← reads.eq_of_mem_head? present]
  exact other

theorem IsAtEnd.lacksConnective (ended : c.IsAtEnd) : c.LacksConnective n := by
  intro t present
  rw [ended] at present
  exact absurd present (Option.not_mem_none t)

theorem EndsOperands.mono (ends : c.EndsOperands n) (le : n ≤ m) : c.EndsOperands m where
  endsCall := ends.endsCall
  lacksConnective further := ends.lacksConnective (Nat.le_trans le further)

/-- The place of an operator ends the operands that bind tighter. -/
theorem Reads.endsOperands {combine : Expr → Expr → Expr} (reads : c.Reads t.kind t c₁)
    (connective : Grammar.connective? t = some (n, combine)) : c.EndsOperands (n + 1) where
  endsCall := by
    constructor
    all_goals
      refine reads.lacks ?_
      intro same
      simp [Grammar.connective?, same] at connective
  lacksConnective := by
    intro m le
    refine reads.lacksConnective ?_
    intro other same
    rw [connective, Option.some.injEq, Prod.mk.injEq] at same
    omega

/-- What stands at a place does not depend on how many occurrences have been given out. -/
theorem EndsExpression.of_numbered (ends : c.numbered.EndsExpression) : c.EndsExpression where
  endsOperands :=
    { endsCall := ends.endsOperands.endsCall
      lacksConnective := ends.endsOperands.lacksConnective }
  lacksEqual := ends.lacksEqual

theorem IsAtEnd.endsExpression (ended : c.IsAtEnd) : c.EndsExpression where
  endsOperands :=
    { endsCall := ⟨ended.lacks, ended.lacks⟩
      lacksConnective := fun _ => ended.lacksConnective }
  lacksEqual := ended.lacks

/-- A mark that cannot go on with operands ends them. -/
theorem Reads.endsOperands_of_not_connective (reads : c.Reads kind t c₁)
    (call : kind ≠ .mark .leftParen) (property : kind ≠ .mark .dot)
    (connective : Grammar.connective? t = none) : c.EndsOperands n where
  endsCall := ⟨reads.lacks call, reads.lacks property⟩
  lacksConnective := by
    intro m _
    refine reads.lacksConnective ?_
    intro combine same
    rw [connective] at same
    cases same

/-- The kinds of token that can stand behind an expression. -/
def closesExpression : Kind → Bool
  | .newline | .mark .semicolon | .mark .comma | .mark .rightParen | .mark .rightBrace
  | .mark .leftBrace => true
  | _ => false

theorem Reads.endsExpression (reads : c.Reads kind t c₁) (closes : closesExpression kind = true) :
    c.EndsExpression := by
  have connective : Grammar.connective? t = none := by
    unfold closesExpression at closes
    unfold Grammar.connective?
    rw [← reads.kind_eq] at closes
    split at closes <;> simp_all
  constructor
  · refine reads.endsOperands_of_not_connective ?_ ?_ connective
    all_goals
      intro same
      rw [same] at closes
      cases closes
  · refine reads.lacks ?_
    intro same
    rw [same] at closes
    cases closes

end Cursor

namespace Grammar

variable {c c₁ c₂ : Cursor} {n m : Nat} {left e : Expr}

/--
A right operand is followed by what follows the chain it is in, or by an operator of the chain.
-/
theorem Chained.endsOperands (chained : Chained n left c e c₁) (ends : c₁.EndsOperands n) :
    c.EndsOperands (n + 1) := by
  cases chained with
  | done => exact ends.mono (Nat.le_succ n)
  | more reads connective _ _ => exact reads.endsOperands connective

theorem Newlines.endsExpression (breaks : Newlines c c₁) (ends : c₁.EndsExpression) :
    c.EndsExpression := by
  cases breaks with
  | none => exact ends
  | more reads _ => exact reads.endsExpression rfl

theorem Ending.endsExpression (ending : Ending c c₁) : c.EndsExpression := by
  cases ending with
  | newline reads => exact reads.endsExpression rfl
  | semicolon reads => exact reads.endsExpression rfl
  | beforeBrace reads => exact reads.endsExpression rfl
  | beforeEnd ended => exact Cursor.IsAtEnd.endsExpression ended

/-- An operator in front of an operand is no part of a call. -/
theorem Call.lacksSign (called : Call c e c₁) : c.LacksSign := by
  cases called with
  | primary subject _ =>
      cases subject with
      | constant reads constant =>
          refine reads.lacksSign ?_
          unfold constant? at constant
          unfold sign?
          split at constant <;> simp_all
      | selfRef reads => exact reads.self.lacksSign (by rw [reads.kind_eq]; rfl)
      | var reads => exact reads.self.lacksSign (by rw [reads.kind_eq]; rfl)
      | group reads => exact reads.self.lacksSign (by rw [reads.kind_eq]; rfl)

/-- What begins an expression is no line break, so line breaks in front of it end there. -/
theorem Newlines.skipNewlines_eq_of_starts (breaks : Newlines c c₁)
    (starts : c₁.StartsExpression) : c.skipNewlines = c₁ :=
  breaks.skipNewlines_eq (starts.lacks rfl)

/-- A call is operands without operators. -/
theorem Operands.of_call (called : Call c e c₁) (gap : Nat) (tighter : n + gap = tightest) :
    Operands n c e c₁ := by
  induction gap generalizing n with
  | zero =>
      rw [Nat.add_zero] at tighter
      rw [tighter]
      exact .signed (.call called)
  | succ gap ih =>
      have inner : Operands (n + 1) c e c₁ := ih (by omega)
      exact .chain (by omega) inner .done

theorem Suffixed.append_get {object : Expr} {c₃ : Cursor} {dot name : Token} :
    ∀ {subject : Expr} {c c₁ : Cursor}, Suffixed subject c object c₁ →
    c₁.Reads (.mark .dot) dot c₂ → c₂.Reads .identifier name c₃ →
    Suffixed subject c (.get object name.ident) c₃
  | _, _, _, .done, point, named => .get point named .done
  | _, _, _, .call opens listed closes rest, point, named =>
      .call opens listed closes (rest.append_get point named)
  | _, _, _, .get first second rest, point, named =>
      .get first second (rest.append_get point named)

/-- A property of a call is a call. -/
theorem Call.get {object : Expr} {c₃ : Cursor} {dot name : Token} (called : Call c object c₁)
    (point : c₁.Reads (.mark .dot) dot c₂) (named : c₂.Reads .identifier name c₃) :
    Call c (.get object name.ident) c₃ := by
  cases called with
  | primary subject suffixed => exact .primary subject (suffixed.append_get point named)

/-! ## Behind statements -/

/--
A declaration begins with a token that is neither a line break, nor `else`, nor a closing brace.
-/
theorem Declaration.starts {s : Stmt} (declaration : Declaration c s c₁) :
    c.Lacks .newline ∧ c.Lacks (.keyword .elseWord) ∧ ¬ c.EndsBody := by
  have reading {kind : Kind} {t : Token} {c₂ : Cursor} (reads : c.Reads kind t c₂)
      (line : kind ≠ .newline) (other : kind ≠ .keyword .elseWord)
      (close : kind ≠ .mark .rightBrace) :
      c.Lacks .newline ∧ c.Lacks (.keyword .elseWord) ∧ ¬ c.EndsBody := by
    refine ⟨reads.lacks line, reads.lacks other, ?_⟩
    rw [reads.endsBody_iff, reads.kind_eq]
    exact close
  cases declaration with
  | classDef word => exact reading word (by simp) (by simp) (by simp)
  | function word => exact reading word (by simp) (by simp) (by simp)
  | declare word => exact reading word (by simp) (by simp) (by simp)
  | loop word => exact reading word (by simp) (by simp) (by simp)
  | exit word => exact reading word (by simp) (by simp) (by simp)
  | print word => exact reading word (by simp) (by simp) (by simp)
  | branch conditional =>
      cases conditional with
      | branch word => exact reading word (by simp) (by simp) (by simp)
  | block body =>
      cases body with
      | braces opens => exact reading opens (by simp) (by simp) (by simp)
  | expression value _ =>
      obtain ⟨t, c₂, reads, starts⟩ := value.starts
      refine reading reads ?_ ?_ ?_
      all_goals
        intro same
        rw [same] at starts
        cases starts

/-- Behind a statement of a body, there is no `else`. -/
theorem Body.lacksElse {body : List Stmt} (statements : Body c body c₁) (ends : c₁.EndsBody) :
    c.skipNewlines.Lacks (.keyword .elseWord) := by
  cases statements with
  | done breaks =>
      rw [breaks.skipNewlines_eq (ends.lacks (by simp))]
      exact ends.lacks (by simp)
  | more breaks first _ =>
      rw [breaks.skipNewlines_eq first.starts.1]
      exact first.starts.2.1

end Grammar

end Rill
