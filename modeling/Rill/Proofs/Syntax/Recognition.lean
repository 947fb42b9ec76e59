import Rill.Proofs.Syntax.Completeness
import Rill.Proofs.Token.Ending

/-!
# The parser is its grammar

`parse` accepts the tokens of a scan if and only if the grammar derives them, and its answer is the
one tree of the derivation.
-/

namespace Rill

open Grammar

variable {bound : Nat} {c c₁ : Cursor} {body : List Stmt}

/-! ## Turns of the reading -/

section Turns

variable {s : Stmt} {fault : Diagnostic} {next stopped : Cursor}

theorem readProgram_of_isAtEnd (ended : c.skipNewlines.IsAtEnd) :
    readProgram (bound + 1) c = ⟨[], [], c.fresh⟩ := by
  have empty : c.skipNewlines.upcoming.isEmpty = true := List.isEmpty_iff.mpr ended
  rw [readProgram, if_pos empty]
  rfl

theorem not_isEmpty_of_not_isAtEnd (goesOn : ¬ c.IsAtEnd) :
    ¬ c.upcoming.isEmpty = true := by
  rw [List.isEmpty_iff]
  exact goesOn

theorem readProgram_of_eq_ok (goesOn : ¬ c.skipNewlines.IsAtEnd)
    (read : Parser.declaration (bound + 1) c.skipNewlines = .ok s next) :
    readProgram (bound + 1) c = (readProgram bound next).addStatement s := by
  rw [readProgram, if_neg (not_isEmpty_of_not_isAtEnd goesOn), read]

theorem readProgram_of_eq_error (goesOn : ¬ c.skipNewlines.IsAtEnd)
    (read : Parser.declaration (bound + 1) c.skipNewlines = .error fault stopped) :
    readProgram (bound + 1) c =
      (readProgram bound { stopped with upcoming := recover stopped.upcoming }).addFault fault := by
  rw [readProgram, if_neg (not_isEmpty_of_not_isAtEnd goesOn), read]

end Turns

/-- A program that is read without a fault is in the grammar. -/
theorem body_of_readProgram (within : c.upcoming.length < bound)
    (faultless : (readProgram bound c).faults = []) :
    ∃ c₁, Body c (readProgram bound c).statements c₁ ∧ c₁.IsAtEnd ∧
      c₁.fresh = (readProgram bound c).fresh := by
  induction bound generalizing c with
  | zero => exact absurd within (Nat.not_lt_zero _)
  | succ bound ih =>
      by_cases ended : c.skipNewlines.IsAtEnd
      · rw [readProgram_of_isAtEnd ended]
        exact ⟨c.skipNewlines, .done (.skip c), ended, rfl⟩
      · have skipped := (Newlines.skip c).reaches.length_le
        cases ran : Parser.declaration (bound + 1) c.skipNewlines with
        | error fault stopped =>
            rw [readProgram_of_eq_error ended ran] at faultless
            exact absurd faultless (List.cons_ne_nil _ _)
        | ok s next =>
            rw [readProgram_of_eq_ok ended ran] at faultless ⊢
            have declaration : Declaration c.skipNewlines s next := Parser.declaration_sound _ ran
            have passed := declaration.passes.length_lt
            obtain ⟨c₁, rest, ended, fresh⟩ := ih (c := next) (by omega) faultless
            exact ⟨c₁, .more (.skip c) declaration rest, ended, fresh⟩

/-- A program that is in the grammar is read without a fault. -/
theorem readProgram_of_body (statements : Body c body c₁) (ended : c₁.IsAtEnd)
    (within : c.upcoming.length < bound) : readProgram bound c = ⟨body, [], c₁.fresh⟩ := by
  induction bound generalizing c body with
  | zero => exact absurd within (Nat.not_lt_zero _)
  | succ bound ih =>
      cases statements with
      | done breaks =>
          have skips := breaks.skipNewlines_eq ended.lacks
          rw [readProgram_of_isAtEnd (skips ▸ ended), ← skips]
          rfl
      | @more _ c₂ c₃ _ s rest breaks first others =>
          have skipped := breaks.reaches.length_le
          have passed := first.passes.length_lt
          have skips := breaks.skipNewlines_eq first.starts.1
          have goesOn : ¬ c₂.IsAtEnd := fun empty => first.starts.2.2 (.inl empty)
          have read : Parser.declaration (bound + 1) c₂ = .ok s c₃ :=
            Parser.declaration_complete _ first (others.lacksElse (.inl ended)) (by omega)
          rw [← skips] at goesOn read
          rw [readProgram_of_eq_ok goesOn read, ih others (by omega)]
          rfl

/-! ## Whole programs -/

/-- Tokens up to the end of the input are all tokens in front of it. -/
theorem Cursor.start_append {body : List Token} {ending : Token} (fresh : Occurrence)
    (inner : ∀ t ∈ body, t.kind ≠ .endOfInput) (last : ending.kind = .endOfInput) :
    Cursor.start (body ++ [ending]) fresh = ⟨body, ending.line, fresh⟩ := by
  have taken : (body ++ [ending]).takeWhile (fun t => decide (t.kind ≠ .endOfInput)) = body := by
    rw [List.takeWhile_append_of_pos (fun t present => decide_eq_true (inner t present))]
    simp [last]
  have found : (body ++ [ending]).find? (fun t => decide (t.kind = .endOfInput)) = some ending := by
    rw [List.find?_append, List.find?_eq_none.mpr (by simpa using inner)]
    simp [last]
  rw [Cursor.start, taken, found]
  rfl

/-- What is in front of the end of the input is fixed by the whole. -/
theorem derives_append_iff {body : List Token} {ending : Token} {first last : Occurrence}
    {statements : List Stmt} (isEnd : ending.kind = .endOfInput) :
    Derives (body ++ [ending]) first statements last ↔
      Grammar.Program ⟨body, ending.line, first⟩ statements ⟨[], ending.line, last⟩ := by
  constructor
  · rintro ⟨other, end', same, _, program⟩
    obtain ⟨rfl, rfl⟩ := List.append_inj' same rfl |>.imp id List.singleton_inj.mp
    exact program
  · intro program
    exact ⟨body, ending, rfl, isEnd, program⟩

/-- The parser answers with a tree if and only if the grammar derives the tree. -/
theorem parse_append_eq_ok {body : List Token} {ending : Token} {first last : Occurrence}
    {statements : List Stmt} (inner : ∀ t ∈ body, t.kind ≠ .endOfInput)
    (isEnd : ending.kind = .endOfInput) :
    parse (body ++ [ending]) first = (.ok statements, last) ↔
      Derives (body ++ [ending]) first statements last := by
  rw [derives_append_iff isEnd, parse, readTokens, Cursor.start_append first inner isEnd]
  dsimp only
  constructor
  · intro parsed
    split at parsed
    · next faultless =>
        obtain ⟨c₁, statements, ended, fresh⟩ := body_of_readProgram (by simp) faultless
        cases parsed
        obtain ⟨upcoming, endLine, fresh₁⟩ := c₁
        cases (show upcoming = [] from ended)
        cases (show endLine = ending.line from statements.reaches.endLine_eq)
        cases fresh
        exact ⟨statements, rfl⟩
    · cases parsed
  · rintro ⟨statements, _⟩
    rw [readProgram_of_body statements rfl (by simp)]

/--
The tokens of a scan are accepted if and only if the grammar derives a tree from them; the answer is
a tree that the grammar derives, and the grammar derives no other.
-/
theorem parse_eq_ok_iff_derives {source : String} {ts : List Token}
    (scanned : tokens source = .ok ts)
    (first : Occurrence) :
    ((∃ statements, (parse ts first).1 = .ok statements) ↔
        ∃ statements last, Derives ts first statements last) ∧
      (∀ statements last,
        parse ts first = (.ok statements, last) ↔ Derives ts first statements last) ∧
      ∀ statements statements' last last', Derives ts first statements last →
        Derives ts first statements' last' → statements = statements' ∧ last = last' := by
  obtain ⟨body, ending, rfl, isEnd, lawful⟩ := exists_of_tokens_eq_ok scanned
  have inner : ∀ t ∈ body, t.kind ≠ .endOfInput :=
    fun t present => (lawful t present).not_endOfInput
  have derived (statements : List Stmt) (last : Occurrence) :
      parse (body ++ [ending]) first = (.ok statements, last) ↔
        Derives (body ++ [ending]) first statements last := parse_append_eq_ok inner isEnd
  refine ⟨?_, derived, ?_⟩
  · constructor
    · rintro ⟨statements, parsed⟩
      refine ⟨statements, (parse (body ++ [ending]) first).2, (derived _ _).mp ?_⟩
      rw [← parsed]
    · rintro ⟨statements, last, derives⟩
      refine ⟨statements, ?_⟩
      rw [(derived statements last).mpr derives]
  · intro statements statements' last last' derives derives'
    have same := ((derived _ _).mpr derives).symm.trans ((derived _ _).mpr derives')
    cases same
    exact ⟨rfl, rfl⟩

/-- The property is the target of the assignment, and the operator belongs to the value. -/
theorem derives_assignment_of_property :
    ∃ ts, tokens "a.b = c or d" = .ok ts ∧ Derives ts 0
      [.expression (.set (.var 0 ⟨"a", 1⟩) ⟨"b", 1⟩
        (.logical (.var 1 ⟨"c", 1⟩) .or (.var 2 ⟨"d", 1⟩)))] 3 := by
  have scanned : tokens "a.b = c or d" = .ok
      [⟨.identifier, "a", 1⟩, ⟨.mark .dot, ".", 1⟩, ⟨.identifier, "b", 1⟩,
       ⟨.mark .equal, "=", 1⟩, ⟨.identifier, "c", 1⟩, ⟨.keyword .orWord, "or", 1⟩,
       ⟨.identifier, "d", 1⟩, ⟨.endOfInput, "", 1⟩] := by with_unfolding_all rfl
  exact ⟨_, scanned, ((parse_eq_ok_iff_derives scanned 0).2.1 _ _).mp rfl⟩

end Rill
