import Rill.Proofs.Compilation
import Rill.Proofs.Scope.Rules
import Rill.Proofs.Syntax.Inheritance

/-!
# Faults of one phase

A source text is refused by one of three phases: it is scanned, parsed and resolved, and the first
phase that finds faults reports those and no others. So the faults of a text are never none, and
they are all of one kind.
-/

namespace Rill

/-- The phases that a source text goes through before it is run. -/
inductive Phase
  | scanning
  | parsing
  | resolving
deriving DecidableEq

/-- The phase that finds a fault. -/
def Diagnostic.phase (fault : Diagnostic) : Phase :=
  match fault.cause with
  | .lexical _ => .scanning
  | .grammar _ => .parsing
  | .scope _ => .resolving

/-- Faults that a phase reports: there is one, and the phase has found all of them. -/
structure ReportedBy (phase : Phase) (faults : List Diagnostic) : Prop where
  ne_nil : faults ≠ []
  phase_eq : ∀ fault ∈ faults, fault.phase = phase

/-! ## Scanning -/

theorem phase_of_mem_itemsFrom {fault : Diagnostic} {line : Nat} {ps : List Piece}
    (present : .error fault ∈ itemsFrom line ps) : fault.phase = .scanning := by
  induction ps generalizing line with
  | nil => simp [itemsFrom] at present
  | cons p rest ih =>
      rw [itemsFrom, List.mem_append, Option.mem_toList] at present
      rcases present with here | there
      · unfold Piece.item? at here
        split at here <;> cases here
        rfl
      · exact ih there

theorem reportedBy_scanning {source : String} {faults : List Diagnostic}
    (refused : tokens source = .error faults) : ReportedBy .scanning faults := by
  unfold tokens at refused
  dsimp only at refused
  split at refused
  · cases refused
  · rename_i nonempty
    cases refused
    refine ⟨nonempty, ?_⟩
    intro fault present
    obtain ⟨item, scanned, same⟩ := List.mem_filterMap.mp present
    cases item with
    | ok t => cases same
    | error other =>
        cases same
        exact phase_of_mem_itemsFrom scanned

/-! ## Parsing -/

/-- A parser refuses tokens with faults of grammar. -/
def Parser.RefusesByGrammar {α : Type} (p : Parser α) : Prop :=
  ∀ c fault stopped, p c = .error fault stopped → fault.phase = .parsing

/-- Faults of grammar are all that parsers have, since their parts have no others. -/
theorem Parser.inherited_refusesByGrammar : Parser.Inherited @Parser.RefusesByGrammar where
  pure := by rintro _ _ _ _ _ ⟨⟩
  refuse := by
    rintro _ _ _ _ _ _ ⟨⟩
    rfl
  bind := by
    intro α β p f first next c fault stopped refused
    change EStateM.bind p f c = .error fault stopped at refused
    unfold EStateM.bind at refused
    cases ran : p c with
    | ok a c₁ =>
        rw [ran] at refused
        exact next a c₁ fault stopped refused
    | error other c₁ =>
        rw [ran] at refused
        cases refused
        exact first c fault stopped ran
  get := by rintro _ _ _ ⟨⟩
  skip := by rintro _ _ _ ⟨⟩
  skipNewlines := by rintro _ _ _ ⟨⟩
  freshOccurrence := by rintro _ _ _ ⟨⟩
  acceptElse := by
    intro c fault stopped refused
    obtain ⟨answer, rest, ran⟩ := Parser.acceptElse_apply c
    rw [ran] at refused
    cases refused

theorem phase_of_mem_readProgram {bound : Nat} {c : Cursor} {fault : Diagnostic}
    (present : fault ∈ (readProgram bound c).faults) : fault.phase = .parsing := by
  induction bound generalizing c with
  | zero => exact absurd present List.not_mem_nil
  | succ bound ih =>
      rw [readProgram] at present
      by_cases ended : c.skipNewlines.upcoming.isEmpty = true
      · rw [if_pos ended] at present
        exact absurd present List.not_mem_nil
      · rw [if_neg ended] at present
        cases read : Parser.declaration (bound + 1) c.skipNewlines with
        | ok s next =>
            rw [read] at present
            exact ih present
        | error other stopped =>
            rw [read] at present
            rcases List.mem_cons.mp present with rfl | later
            · exact Parser.inherited_refusesByGrammar.declaration _ _ _ _ read
            · exact ih later

theorem reportedBy_parsing {ts : List Token} {first next : Occurrence} {faults : List Diagnostic}
    (refused : parse ts first = (.error faults, next)) : ReportedBy .parsing faults := by
  unfold parse at refused
  dsimp only at refused
  split at refused
  · cases refused
  · rename_i nonempty
    cases refused
    exact ⟨nonempty, fun _ present => phase_of_mem_readProgram present⟩

/-! ## Resolving -/

theorem reportedBy_resolving {program : List Stmt} {faults : List Diagnostic}
    (refused : resolve program = .error faults) : ReportedBy .resolving faults := by
  obtain ⟨nonempty, rfl⟩ := resolve_eq_error.mp refused
  refine ⟨nonempty, ?_⟩
  intro fault present
  have broken := (faults_perm_brokenRules program).subset present
  obtain ⟨site, _, found⟩ := List.mem_filterMap.mp broken
  obtain ⟨rule, _, rfl⟩ := Option.map_eq_some_iff.mp found
  rfl

/-! ## Source texts -/

/-- A source text that is refused has faults of one phase. -/
theorem exists_reportedBy_of_compile {source : String} {first next : Occurrence}
    {faults : List Diagnostic} (refused : compile source first = (.error faults, next)) :
    ∃ phase, ReportedBy phase faults := by
  unfold compile parseSource at refused
  cases scanned : tokens source with
  | error lexical =>
      rw [scanned] at refused
      cases refused
      exact ⟨_, reportedBy_scanning scanned⟩
  | ok ts =>
      rw [scanned] at refused
      dsimp only at refused
      rcases parsed : parse ts first with ⟨read, fresh⟩
      rw [parsed] at refused
      cases read with
      | error grammatical =>
          cases refused
          exact ⟨_, reportedBy_parsing parsed⟩
      | ok statements =>
          dsimp only at refused
          cases resolved : resolve statements with
          | ok bindings =>
              rw [resolved] at refused
              cases refused
          | error broken =>
              rw [resolved] at refused
              cases refused
              exact ⟨_, reportedBy_resolving resolved⟩

end Rill
