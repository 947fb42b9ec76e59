import Rill.Program
import Rill.Proofs.Syntax.Naming
import Rill.Proofs.Syntax.Numbering
import Rill.Proofs.Syntax.Recognition

/-!
# Compiled programs

A source text that compiles is a program whose mentions are numbered between the number it was given
and the number it leaves, and which is bound when its bindings are added to those of earlier
programs.
-/

namespace Rill

/-- What is known of a program that was compiled between two numbers. -/
structure Program.Compiled (program : Program) (first next : Occurrence) : Prop where
  le : first ≤ next
  numbered : Numbered first next (mentionIds (Stmt.mentionsAll program.statements))
  resolved : resolve program.statements = .ok program.bindings
  ne_self : ∀ name ∈ Stmt.initializedAll program.statements, name ≠ "self"

variable {source : String} {program : Program} {statements : List Stmt} {first next : Nat}

/-- A source text is read as statements if and only if it is scanned and its tokens are parsed. -/
theorem parseSource_eq_ok :
    parseSource source first = (.ok statements, next) ↔
      ∃ ts, tokens source = .ok ts ∧ parse ts first = (.ok statements, next) := by
  unfold parseSource
  cases tokens source with
  | error faults => simp
  | ok ts => simp

/-- A source text compiles if and only if it is read as statements that resolution accepts. -/
theorem compile_eq_ok :
    compile source first = (.ok program, next) ↔
      parseSource source first = (.ok program.statements, next) ∧
        resolve program.statements = .ok program.bindings := by
  obtain ⟨statements, bindings⟩ := program
  unfold compile
  obtain ⟨read, fresh⟩ := parseSource source first
  cases read with
  | error faults => simp
  | ok found =>
      dsimp only
      cases resolved : resolve found with
      | error faults =>
          simp only [Prod.mk.injEq, reduceCtorEq, false_and, Except.ok.injEq, false_iff, not_and]
          rintro ⟨rfl, _⟩
          simp [resolved]
      | ok table =>
          simp only [Prod.mk.injEq, Except.ok.injEq, Program.mk.injEq]
          constructor
          · rintro ⟨⟨rfl, rfl⟩, rfl⟩
            exact ⟨⟨rfl, rfl⟩, resolved⟩
          · rintro ⟨⟨rfl, rfl⟩, other⟩
            rw [resolved] at other
            cases other
            exact ⟨⟨rfl, rfl⟩, rfl⟩

theorem compile_of_parse {ts : List Token} {bindings : Bindings} (scanned : tokens source = .ok ts)
    (parsed : parse ts first = (.ok statements, next))
    (resolved : resolve statements = .ok bindings) :
    compile source first = (.ok ⟨statements, bindings⟩, next) :=
  compile_eq_ok.mpr ⟨parseSource_eq_ok.mpr ⟨ts, scanned, parsed⟩, resolved⟩

/-- What is known of the statements of a source text. -/
theorem numbered_of_parseSource (read : parseSource source first = (.ok statements, next)) :
    first ≤ next ∧ Numbered first next (mentionIds (Stmt.mentionsAll statements)) ∧
      ∀ name ∈ Stmt.initializedAll statements, name ≠ "self" := by
  obtain ⟨ts, scanned, parsed⟩ := parseSource_eq_ok.mp read
  obtain ⟨body, ending, rfl, isEnd, lawful⟩ := exists_of_tokens_eq_ok scanned
  have derives : Grammar.Derives (body ++ [ending]) first statements next :=
    (parse_append_eq_ok (fun t present => (lawful t present).not_endOfInput) isEnd).mp parsed
  exact ⟨derives.numbered.1, derives.numbered.2, derives.ne_self lawful⟩

theorem Program.compiled_of_compile (compiled : compile source first = (.ok program, next)) :
    program.Compiled first next := by
  obtain ⟨read, resolved⟩ := compile_eq_ok.mp compiled
  obtain ⟨le, numbered, names⟩ := numbered_of_parseSource read
  exact ⟨le, numbered, resolved, names⟩

/-- Only numbers between the two are bound. -/
theorem Program.Compiled.within (compiled : program.Compiled first next) {id : Nat}
    {d : Nat} (bound : program.bindings[id]? = some d) : first ≤ id ∧ id < next :=
  compiled.numbered.within id
    (mem_mentionIds_of_resolve compiled.resolved compiled.numbered.nodup bound)

/-! ## Programs in a ledger -/

namespace Ledger

variable {ledger : Ledger}

/-- No number from the limit on has a binding. -/
def IsClosed (ledger : Ledger) : Prop := ∀ id, ledger.limit ≤ id → ledger.bindings[id]? = none

/-- The ledger with another program. -/
def add (ledger : Ledger) (program : Program) (next : Occurrence) : Ledger :=
  ⟨ledger.bindings ∪ program.bindings, next⟩

/-- From the limit on, only the program that was added has bindings. -/
theorem getElem?_add_of_le (closed : ledger.IsClosed) {id : Occurrence}
    (past : ledger.limit ≤ id) :
    (ledger.add program next).bindings[id]? = program.bindings[id]? := by
  rw [add, Std.TreeMap.getElem?_union, closed id past, Option.or_none]

variable (compiled : program.Compiled first next) (above : ledger.limit ≤ first)

include compiled above

/-- A program's own numbers are out of the range of earlier ones. -/
theorem getElem?_add_of_lt {id : Occurrence} (below : id < ledger.limit) :
    (ledger.add program next).bindings[id]? = ledger.bindings[id]? := by
  have absent : program.bindings[id]? = none := by
    rw [Option.eq_none_iff_forall_ne_some]
    intro d bound
    exact absurd (Nat.lt_of_lt_of_le below above) (Nat.not_lt.mpr (compiled.within bound).1)
  rw [add, Std.TreeMap.getElem?_union, absent, Option.none_or]

theorem extends_add : ledger.Extends (ledger.add program next) where
  limit_le := Nat.le_trans above compiled.le
  getElem?_eq _ below := getElem?_add_of_lt compiled above below

theorem isClosed_add (closed : ledger.IsClosed) : (ledger.add program next).IsClosed := by
  intro id past
  have pastLimit : ledger.limit ≤ id := Nat.le_trans (Nat.le_trans above compiled.le) past
  rw [getElem?_add_of_le closed pastLimit, Option.eq_none_iff_forall_ne_some]
  intro d bound
  exact absurd (compiled.within bound).2 (Nat.not_lt.mpr past)

/-- A program is bound by the ledger that it was added to. -/
theorem boundAll_add (closed : ledger.IsClosed) :
    Stmt.BoundAll (ledger.add program next) false [] program.statements := by
  refine boundAll_of_resolve compiled.resolved compiled.numbered.nodup compiled.ne_self ?_ ?_
  · intro id present
    exact (compiled.numbered.within id present).2
  · intro id present
    have pastLimit : ledger.limit ≤ id :=
      Nat.le_trans above (compiled.numbered.within id present).1
    exact getElem?_add_of_le closed pastLimit

end Ledger

end Rill
