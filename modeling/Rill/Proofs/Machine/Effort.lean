import Rill.Proofs.Globals.Watching

/-!
# More effort

A run that does not spend its effort goes the same with more of it. So a program that ends or halts
otherwise has one outcome, whatever effort it was given.
-/

namespace Rill

namespace Run

variable {α : Type} {host : Hosting} {evaluate : Expr → Run Value} {execute : Stmt → Run Flow}

theorem GoesAs.trans {alarm : Halt} {x y z : Run α} (former : GoesAs alarm x y)
    (latter : GoesAs alarm y z) : GoesAs alarm x z := by
  intro m
  rcases former m with same | raised
  · rw [same]
    exact latter m
  · exact .inr raised

/-- A loop that comes to an end does so with more rounds at hand. -/
theorem repeatLoop_goesAs_succ (condition increment : Option Expr) (body : List Stmt)
    (effort : Nat) :
    GoesAs .spent (repeatLoop evaluate execute condition increment body effort)
      (repeatLoop evaluate execute condition increment body (effort + 1)) := by
  induction effort with
  | zero => exact fun m => .inr ⟨m, rfl⟩
  | succ effort ih =>
      refine .bind (.refl _) fun goesOn => .ite (.bind (.refl _) fun flow => ?_) (.refl _)
      cases flow with
      | exit value => exact .refl _
      | next => exact .bind (.refl _) fun _ => ih

/-- Only loops look at the effort that a statement is executed with. -/
theorem executeWith_goesAs_succ (effort : Nat) (s : Stmt) :
    GoesAs .spent (executeWith evaluate execute effort s)
      (executeWith evaluate execute (effort + 1) s) := by
  cases s with
  | loop counter condition increment body =>
      exact .inNewFrame (.bind (.refl _) fun _ => repeatLoop_goesAs_succ _ _ _ _)
  | _ => exact .refl _

/-- Expressions and statements go the same with more effort, unless they spend what they have. -/
theorem goesAs_succ (host : Hosting) (effort : Nat) :
    (∀ e, GoesAs .spent (Run.evaluate host effort e) (Run.evaluate host (effort + 1) e)) ∧
      ∀ s, GoesAs .spent (Run.execute host effort s) (Run.execute host (effort + 1) s) := by
  induction effort with
  | zero => exact ⟨fun _ m => .inr ⟨m, rfl⟩, fun _ m => .inr ⟨m, rfl⟩⟩
  | succ effort ih =>
      obtain ⟨evaluates, executes⟩ := ih
      exact ⟨evaluateWith_goesAs evaluates executes, fun s =>
        (executeWith_goesAs evaluates executes effort s).trans (executeWith_goesAs_succ effort s)⟩

theorem execute_goesAs {effort more : Nat} (le : effort ≤ more) (s : Stmt) :
    GoesAs .spent (Run.execute host effort s) (Run.execute host more s) := by
  induction le with
  | refl => exact .refl _
  | step _ ih => exact ih.trans ((goesAs_succ host _).2 s)

theorem runProgram_goesAs {effort more : Nat} (le : effort ≤ more) (program : List Stmt) :
    GoesAs .spent (runProgram host effort program) (runProgram host more program) := by
  intro m
  rw [← runAll_execute, ← runAll_execute]
  exact (runAll_goesAs (fun s => execute_goesAs le s) program m).imp_left And.left

/-- A program goes the same with more effort, unless it spends what it has. -/
theorem interpret_goesAs {effort more : Nat} (le : effort ≤ more) (program : List Stmt) :
    GoesAs .spent (interpret host effort program) (interpret host more program) := by
  intro m
  unfold interpret
  rcases runProgram_goesAs le program m with same | ⟨n, raised⟩
  · rw [same]
    exact .inl rfl
  · rw [raised]
    exact .inr ⟨n, rfl⟩

/-- However much effort a program is given, it has the one outcome or spends what it has. -/
theorem interpret_eq_or_spent {effort : Nat} {program : List Stmt} {m : Machine}
    (lasts : ∀ n, interpret host effort program m ≠ .error .spent n) (other : Nat) :
    interpret host other program m = interpret host effort program m ∨
      ∃ n, interpret host other program m = .error .spent n := by
  rcases Nat.le_total effort other with more | less
  · refine .inl ((interpret_goesAs more program m).resolve_right ?_).symm
    rintro ⟨n, raised⟩
    exact lasts n raised
  · exact interpret_goesAs less program m

end Run

end Rill
