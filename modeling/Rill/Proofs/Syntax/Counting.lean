import Rill.Proofs.Syntax.Inheritance

/-!
# Numbers that are given out

No parser takes back a number it has given out, whether it succeeds or not. So the numbers that a
source text leaves are never below those it was given, also when the text has faults.
-/

namespace Rill

/-- Where a parser stopped. -/
def Cursor.ofResult {α : Type} : EStateM.Result Diagnostic Cursor α → Cursor
  | .ok _ c => c
  | .error _ c => c

/-- A parser takes back no number. -/
def Parser.Counts {α : Type} (p : Parser α) : Prop :=
  ∀ c, c.fresh ≤ (Cursor.ofResult (p c)).fresh

/-- No parser takes back a number, since none of its parts does. -/
theorem Parser.inherited_counts : Parser.Inherited @Parser.Counts where
  pure _ c := Nat.le_refl c.fresh
  refuse _ _ c := Nat.le_refl c.fresh
  bind := by
    intro α β p f first next c
    have before := first c
    change c.fresh ≤ (Cursor.ofResult (EStateM.bind p f c)).fresh
    unfold EStateM.bind
    revert before
    generalize p c = r
    intro before
    cases r with
    | ok a c₁ => exact Nat.le_trans before (next a c₁)
    | error fault c₁ => exact before
  get c := Nat.le_refl c.fresh
  skip c := Nat.le_refl c.fresh
  skipNewlines c := Nat.le_refl c.fresh
  freshOccurrence c := Nat.le_succ c.fresh
  acceptElse := by
    intro c
    obtain ⟨answer, rest, ran⟩ := Parser.acceptElse_apply c
    rw [ran]
    exact Nat.le_refl c.fresh

/-! ## Programs -/

theorem fresh_le_readProgram (bound : Nat) (c : Cursor) :
    c.fresh ≤ (readProgram bound c).fresh := by
  induction bound generalizing c with
  | zero => exact Nat.le_refl _
  | succ bound ih =>
      rw [readProgram]
      by_cases ended : c.skipNewlines.upcoming.isEmpty = true
      · rw [if_pos ended]
        exact Nat.le_refl _
      · rw [if_neg ended]
        have counts := Parser.inherited_counts.declaration (bound + 1) c.skipNewlines
        cases read : Parser.declaration (bound + 1) c.skipNewlines with
        | ok s next =>
            rw [read] at counts
            exact Nat.le_trans counts (ih next)
        | error fault stopped =>
            rw [read] at counts
            exact Nat.le_trans counts (ih { stopped with upcoming := recover stopped.upcoming })

theorem fresh_le_parse (tokens : List Token) (first : Occurrence) :
    first ≤ (parse tokens first).2 := by
  have counts := fresh_le_readProgram ((Cursor.start tokens first).upcoming.length + 1)
    (Cursor.start tokens first)
  rw [parse]
  split <;> exact counts

/-- The numbers that a source text leaves are not below those it was given. -/
theorem fresh_le_compile (source : String) (first : Occurrence) :
    first ≤ (compile source first).2 := by
  have parsed : first ≤ (parseSource source first).2 := by
    unfold parseSource
    cases tokens source with
    | error faults => exact Nat.le_refl _
    | ok ts => exact fresh_le_parse ts first
  unfold compile
  revert parsed
  generalize parseSource source first = found
  intro parsed
  obtain ⟨read, next⟩ := found
  cases read with
  | error faults => exact parsed
  | ok statements =>
      dsimp only
      cases resolve statements <;> exact parsed

end Rill
