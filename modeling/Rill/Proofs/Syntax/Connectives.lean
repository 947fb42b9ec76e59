import Rill.Proofs.Syntax.Primitive

/-!
# Operators and the parsers that find them

Each parser for operators between operands finds the connectives of one strength and no others, and
the parser for operators in front finds the signs.
-/

namespace Rill

theorem Mark.beq_eq_decide (a b : Mark) : (a == b) = decide (a = b) := rfl

namespace Cursor

/-- No operator of a strength stands here. -/
def LacksConnective (strength : Nat) (c : Cursor) : Prop :=
  ∀ t ∈ c.upcoming.head?, ∀ combine, Grammar.connective? t ≠ some (strength, combine)

/-- No operator stands here that goes in front of an operand. -/
def LacksSign (c : Cursor) : Prop := ∀ t ∈ c.upcoming.head?, Grammar.sign? t.kind = none

variable {c c₁ : Cursor} {t : Token} {kind : Kind} {n : Nat}

theorem Reads.mem_head? (reads : c.Reads kind t c₁) : t ∈ c.upcoming.head? := by
  simp [reads.upcoming_eq]

theorem Reads.eq_of_mem_head? {u : Token} (reads : c.Reads kind t c₁)
    (present : u ∈ c.upcoming.head?) : t = u := by
  simpa [reads.upcoming_eq] using present

theorem Reads.lacksSign (reads : c.Reads kind t c₁) (sign : Grammar.sign? t.kind = none) :
    c.LacksSign := by
  intro u present
  rw [← reads.eq_of_mem_head? present]
  exact sign

theorem IsAtEnd.lacksSign (ended : c.IsAtEnd) : c.LacksSign := by
  intro t present
  rw [ended] at present
  exact absurd present (Option.not_mem_none t)

/-- Either an operator of a strength stands at a place, or the place lacks it. -/
theorem readsConnective_or_lacks (strength : Nat) (c : Cursor) :
    (∃ t c₁ combine, c.Reads t.kind t c₁ ∧
      Grammar.connective? t = some (strength, combine)) ∨ c.LacksConnective strength := by
  by_cases found : ∃ t ∈ c.upcoming.head?, ∃ combine,
      Grammar.connective? t = some (strength, combine)
  · obtain ⟨t, present, combine, connective⟩ := found
    rcases c.isAtEnd_or_reads with ended | ⟨u, c₁, reads⟩
    · rw [ended] at present
      exact absurd present (Option.not_mem_none t)
    · cases reads.eq_of_mem_head? present
      exact .inl ⟨t, c₁, combine, reads, connective⟩
  · refine .inr ?_
    intro t present combine connective
    exact found ⟨t, present, combine, connective⟩

/-- Either an operator stands at a place that goes in front of an operand, or there is none. -/
theorem readsSign_or_lacks (c : Cursor) :
    (∃ t c₁ operator, c.Reads t.kind t c₁ ∧ Grammar.sign? t.kind = some operator) ∨
      c.LacksSign := by
  rcases c.isAtEnd_or_reads with ended | ⟨t, c₁, reads⟩
  · exact .inr ended.lacksSign
  · cases sign : Grammar.sign? t.kind with
    | none => exact .inr (reads.lacksSign sign)
    | some operator => exact .inl ⟨t, c₁, operator, reads, sign⟩

end Cursor

namespace Parser

open Grammar

variable {c c₁ : Cursor} {t : Token}

/-- A parser reads the operators of a strength, and reads nothing where there is none. -/
structure Finds (strength : Nat) (operator? : Parser (Option (Expr → Expr → Expr))) : Prop where
  of_reads {c c₁ : Cursor} {t : Token} {combine : Expr → Expr → Expr} :
    c.Reads t.kind t c₁ → connective? t = some (strength, combine) →
      operator? c = .ok (some combine) c₁
  of_lacks {c : Cursor} : c.LacksConnective strength → operator? c = .ok none c

/-- What a parser that finds operators answers tells what stands at the place. -/
theorem Finds.cases {strength : Nat} {operator? : Parser (Option (Expr → Expr → Expr))}
    {answer : Option (Expr → Expr → Expr)} (finds : Finds strength operator?)
    (ran : operator? c = .ok answer c₁) :
    (∃ t combine, answer = some combine ∧ c.Reads t.kind t c₁ ∧
      connective? t = some (strength, combine)) ∨ answer = none ∧ c = c₁ := by
  rcases c.readsConnective_or_lacks strength with ⟨t, c₂, combine, reads, connective⟩ | lacks
  · rw [finds.of_reads reads connective] at ran
    cases ran
    exact .inl ⟨t, combine, rfl, reads, connective⟩
  · rw [finds.of_lacks lacks] at ran
    cases ran
    exact .inr ⟨rfl, rfl⟩

/-- An operator that is written as a keyword alone is found by that keyword. -/
theorem finds_logicalOperator? {strength : Nat} {keyword : Keyword} {operator : LogicalOp}
    (only : ∀ t combine, connective? t = some (strength, combine) ↔
      t.kind = .keyword keyword ∧ combine = (.logical · operator ·)) :
    Finds strength (logicalOperator? keyword operator) where
  of_reads {c c₁ t combine} reads connective := by
    obtain ⟨same, rfl⟩ := (only t combine).mp connective
    exact bind_eq_ok.mpr ⟨true, c₁, accept_eq_ok.mpr (.inl ⟨rfl, t, same ▸ reads⟩), rfl⟩
  of_lacks {c} lacks := by
    have absent : c.Lacks (.keyword keyword) := by
      intro t present same
      exact lacks t present _ ((only t _).mpr ⟨same, rfl⟩)
    exact bind_eq_ok.mpr ⟨false, c, accept_eq_ok.mpr (.inr ⟨rfl, absent, rfl⟩), rfl⟩

/-- A level of operators that has the marks of one strength finds that strength. -/
theorem finds_binaryOperator? {strength : Nat} {level : Level}
    (only : ∀ t combine, connective? t = some (strength, combine) ↔
      ∃ operator, level.operator? t.kind = some operator ∧
        combine = (.binary · operator · t.line)) :
    Finds strength (binaryOperator? level) where
  of_reads {c c₁ t combine} reads connective := by
    obtain ⟨operator, found, rfl⟩ := (only t combine).mp connective
    refine bind_eq_ok.mpr ⟨some t, c, peek?_of_reads reads, ?_⟩
    simp only [found]
    exact bind_eq_ok.mpr ⟨(), c₁, skip_of_reads reads, rfl⟩
  of_lacks {c} lacks := by
    rcases c.isAtEnd_or_reads with ended | ⟨t, c₁, reads⟩
    · exact bind_eq_ok.mpr ⟨none, c, peek?_of_isAtEnd ended, rfl⟩
    · have absent : level.operator? t.kind = none := by
        rw [Option.eq_none_iff_forall_ne_some]
        intro operator found
        exact lacks t reads.mem_head? _ ((only t _).mpr ⟨operator, found, rfl⟩)
      refine bind_eq_ok.mpr ⟨some t, c, peek?_of_reads reads, ?_⟩
      simp only [absent, pure_apply]

theorem finds_or : Finds 0 (logicalOperator? .orWord .or) :=
  finds_logicalOperator? (by
    intro t combine
    unfold connective?
    split <;> simp_all [eq_comm])

theorem finds_and : Finds 1 (logicalOperator? .andWord .and) :=
  finds_logicalOperator? (by
    intro t combine
    unfold connective?
    split <;> simp_all [eq_comm])

/-- Each level of operators has the connectives of its own strength. -/
theorem finds_level {i : Nat} {level : Level} (listed : levels[i]? = some level) :
    Finds (i + 2) (binaryOperator? level) := by
  apply finds_binaryOperator?
  intro t combine
  obtain ⟨kind, lexeme, line⟩ := t
  match i with
  | 0 | 1 | 2 | 3 =>
      cases listed
      cases kind with
      | mark mark =>
            cases mark <;>
              simp [connective?, Level.operator?, List.lookup_cons, Mark.beq_eq_decide, eq_comm]
      | keyword word => cases word <;> simp [connective?, Level.operator?]
      | _ => simp [connective?, Level.operator?]
  | i + 4 => simp [levels] at listed

/-- An operator in front of an operand is read. -/
theorem unaryOperator?_of_reads {operator : UnaryOp} (reads : c.Reads t.kind t c₁)
    (sign : sign? t.kind = some operator) :
    unaryOperator? c = .ok (some (operator, t.line)) c₁ := by
  unfold sign? at sign
  split at sign
  · next bang =>
      cases sign
      exact bind_eq_ok.mpr ⟨some t, c₁, accept?_of_reads (bang ▸ reads), rfl⟩
  · next minus =>
      cases sign
      have absent : c.Lacks (.mark .bang) := reads.lacks (by rw [minus]; decide)
      refine bind_eq_ok.mpr ⟨none, c, accept?_of_lacks absent, ?_⟩
      exact bind_eq_ok.mpr ⟨some t, c₁, accept?_of_reads (minus ▸ reads), rfl⟩
  · cases sign

theorem unaryOperator?_of_lacks (lacks : c.LacksSign) : unaryOperator? c = .ok none c := by
  have noBang : c.Lacks (.mark .bang) := by
    intro t present same
    exact absurd (lacks t present) (by simp [same, sign?])
  have noMinus : c.Lacks (.mark .minus) := by
    intro t present same
    exact absurd (lacks t present) (by simp [same, sign?])
  refine bind_eq_ok.mpr ⟨none, c, accept?_of_lacks noBang, ?_⟩
  exact bind_eq_ok.mpr ⟨none, c, accept?_of_lacks noMinus, rfl⟩

end Parser

end Rill
