import Rill.Proofs.Counterpart.Sessions

/-!
# Sessions do not notice each other

All that sessions have in common is the sequence of numbers for mentions. A session takes the next
number when a text is handed to it, wherever other sessions have left the sequence. So the numbers
that a session sees depend on the others; what it reports does not.
-/

namespace Rill

/-- A source text that is handed to a session, with what the clock shows while it runs. -/
structure Submission where
  source : String
  effort : Nat
  readings : Nat → Except String Number

/-- What can be told from outside of a session behind a source text. -/
structure Report where
  failure : Option Failure
  sink : Sink
  globals : String → Option Appearance

/-- What an outcome shows. -/
def Outcome.report (outcome : Outcome) : Report :=
  ⟨outcome.failure, outcome.session.machine.sink, outcome.session.machine.appearance?⟩

namespace Session

/-- Runs what is handed to a session. -/
def submit (session : Session) (fresh : Occurrence) (submission : Submission) : Outcome :=
  session.run (.withClock submission.readings) submission.effort submission.source fresh

/-- What a session reports of one source text after the other. -/
def reports (session : Session) (fresh : Occurrence) : List Submission → List Report
  | [] => []
  | submission :: rest =>
    let outcome := session.submit fresh submission
    outcome.report :: outcome.session.reports outcome.fresh rest

/-- What sessions report of source texts that are handed to them in turn, in whatever order. -/
def reportsInTurn {ι : Type} [DecidableEq ι] (sessions : ι → Session) (fresh : Occurrence) :
    List (ι × Submission) → List (ι × Report)
  | [] => []
  | (i, submission) :: rest =>
    let outcome := (sessions i).submit fresh submission
    (i, outcome.report) ::
      reportsInTurn (Function.update sessions i outcome.session) outcome.fresh rest

end Session

section Addressed

variable {ι α : Type} [DecidableEq ι]

/-- What concerns one session, of what concerns many. -/
def addressedTo (i : ι) (entries : List (ι × α)) : List α :=
  entries.filterMap fun entry => if entry.1 = i then some entry.2 else none

theorem addressedTo_cons_self (i : ι) (a : α) (rest : List (ι × α)) :
    addressedTo i ((i, a) :: rest) = a :: addressedTo i rest :=
  List.filterMap_cons_some (if_pos rfl)

theorem addressedTo_cons_of_ne {i j : ι} (other : j ≠ i) (a : α) (rest : List (ι × α)) :
    addressedTo i ((j, a) :: rest) = addressedTo i rest :=
  List.filterMap_cons_none (if_neg other)

end Addressed

variable {session alone : Session} {fresh aloneFresh first : Occurrence}

/-- A session among others, and the same session by itself. -/
structure Session.Besides (session alone : Session) (fresh aloneFresh : Occurrence) : Prop where
  reachable : ∃ low ≤ fresh, session.Reachable low
  between : ∃ (l : Ledgers) (p : Places), l.Between p session alone fresh aloneFresh

namespace Session.Besides

theorem start (sink : Sink) (fresh aloneFresh : Occurrence) :
    Session.Besides (.start sink) (.start sink) fresh aloneFresh :=
  ⟨⟨fresh, Nat.le_refl _, .start sink fresh⟩, _, _, .start sink fresh aloneFresh⟩

/-- Numbers that other sessions have used in between make no difference. -/
theorem later (besides : session.Besides alone fresh aloneFresh) (higher : fresh ≤ first) :
    session.Besides alone first aloneFresh := by
  obtain ⟨⟨low, le, reachable⟩, l, p, between⟩ := besides
  exact ⟨⟨low, Nat.le_trans le higher, reachable⟩, l, p, between.later higher (Nat.le_refl _)⟩

/-- Both report the same of a source text, and stay what they are to each other. -/
theorem submit (besides : session.Besides alone fresh aloneFresh) (submission : Submission) :
    let ran := session.submit fresh submission
    let ran' := alone.submit aloneFresh submission
    ran.report = ran'.report ∧ ran.session.Besides ran'.session ran.fresh ran'.fresh := by
  intro ran ran'
  obtain ⟨⟨low, le, reachable⟩, l, p, between⟩ := besides
  have together : ran.failure = ran'.failure ∧ ∃ k q,
      Ledgers.Between k q ran.session ran'.session ran.fresh ran'.fresh :=
    between.run reachable le (Nat.le_refl _) (Nat.le_refl _) _ _ _
  obtain ⟨failure, k, q, after⟩ := together
  have reached : ran.session.Reachable ran.fresh := reachable.run _ _ _ le
  refine ⟨?_, ⟨_, Nat.le_refl _, reached⟩, k, q, after⟩
  unfold Outcome.report
  rw [failure, after.sink_eq, after.appearance?_eq]

end Session.Besides

namespace Session

theorem fresh_le_submit (session : Session) (fresh : Occurrence) (submission : Submission) :
    fresh ≤ (session.submit fresh submission).fresh := by
  rw [submit, run_fresh]
  exact fresh_le_compile submission.source fresh

/-- By induction on the order: a session that is not asked only falls behind in numbers. -/
theorem addressedTo_reportsInTurn {ι : Type} [DecidableEq ι] {sessions : ι → Session} {i : ι}
    (schedule : List (ι × Submission)) (besides : (sessions i).Besides alone fresh aloneFresh) :
    addressedTo i (reportsInTurn sessions fresh schedule) =
      alone.reports aloneFresh (addressedTo i schedule) := by
  induction schedule generalizing sessions alone fresh aloneFresh with
  | nil => rfl
  | cons entry rest ih =>
      obtain ⟨j, submission⟩ := entry
      rw [reportsInTurn]
      by_cases own : j = i
      · subst own
        obtain ⟨same, after⟩ := besides.submit submission
        rw [addressedTo_cons_self, addressedTo_cons_self, reports, same]
        refine congrArg _ (ih ?_)
        rw [Function.update_self]
        exact after
      · rw [addressedTo_cons_of_ne own, addressedTo_cons_of_ne own]
        refine ih ?_
        rw [Function.update_of_ne (Ne.symm own)]
        exact besides.later (fresh_le_submit (sessions j) fresh submission)

/--
Sessions do not notice each other. Source texts are handed to new sessions in any order, and the
sequence of numbers starts anywhere. Behind each of its texts a session reports the failure, with
all diagnostics and messages, what has come out, and how its globals look, in print and in detail.
It reports what it would report if the other sessions did not exist and the numbers started at zero,
provided that the clock shows the same.
-/
theorem sessions_do_not_interfere {ι : Type} [DecidableEq ι] (sinks : ι → Sink)
    (schedule : List (ι × Submission)) (fresh : Occurrence) (i : ι) :
    addressedTo i (reportsInTurn (fun j => .start (sinks j)) fresh schedule) =
      (Session.start (sinks i)).reports 0 (addressedTo i schedule) :=
  addressedTo_reportsInTurn schedule (.start (sinks i) fresh 0)

end Session

end Rill
