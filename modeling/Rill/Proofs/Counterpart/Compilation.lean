import Rill.Proofs.Counterpart.Code
import Rill.Proofs.Joining.Compilation
import Rill.Proofs.Syntax.Renumbering

/-!
# One text under different numbers

A source text that is compiled twice has the same faults both times, or it comes out as akin code,
whatever number its mentions start from and whatever other code there is on either side.
-/

namespace Rill

/-! ## Faults -/

variable {source : String} {first next k : Nat}

theorem parseSource_later (source : String) (first k : Nat) :
    parseSource source (first + k) = ((parseSource source first).1.map (Stmt.recastAll (.later k)),
      (parseSource source first).2 + k) := by
  unfold parseSource
  cases tokens source with
  | error faults => rfl
  | ok ts => exact parse_later ts first k

theorem findingFaults_later (found : List Finding) :
    findingFaults (found.map (Finding.recast (.later k))) = findingFaults found := by
  induction found with
  | nil => rfl
  | cons finding rest ih =>
      cases finding with
      | fault fault => exact congrArg (fault :: ·) ih
      | depth id d => exact ih

theorem resolve_later_eq_error {statements : List Stmt} {faults : List Diagnostic} :
    resolve (Stmt.recastAll (.later k) statements) = .error faults ↔
      resolve statements = .error faults := by
  unfold resolve
  dsimp only
  rw [programFindings_recastAll, findingFaults_later]
  cases findingFaults (programFindings statements) with
  | nil => simp
  | cons fault rest => exact Iff.rfl

theorem compile_later_eq_error {faults : List Diagnostic} :
    (compile source (first + k)).1 = .error faults ↔ (compile source first).1 = .error faults := by
  unfold compile
  rw [parseSource_later]
  obtain ⟨read, next⟩ := parseSource source first
  cases read with
  | error others => exact Iff.rfl
  | ok statements =>
      have resolved := @resolve_later_eq_error k statements faults
      dsimp only [Except.map]
      revert resolved
      cases resolve statements <;> cases resolve (Stmt.recastAll (.later k) statements) <;> simp

/-- Whatever number its mentions start from, a text has the same faults. -/
theorem compile_eq_error_iff (source : String) (a b : Nat) {faults : List Diagnostic} :
    (compile source a).1 = .error faults ↔ (compile source b).1 = .error faults := by
  have fromZero (start : Nat) : (compile source start).1 = .error faults ↔
      (compile source 0).1 = .error faults := by
    have moved := @compile_later_eq_error source 0 start faults
    rwa [Nat.zero_add] at moved
  exact (fromZero a).trans (fromZero b).symm

/-! ## Trees -/

namespace Spellings

/-- Every name is spelled as it is, whatever it refers to. -/
def Plain (Γ : Spellings) : Prop := ∀ depth, Γ.bound depth = .same

theorem plain_nil : Plain [] := by
  intro depth
  cases depth <;> rfl

theorem Plain.cons {Γ : Spellings} (plain : Γ.Plain) : Plain (.same :: Γ) := by
  intro depth
  match depth with
  | none | some 0 => rfl
  | some (depth + 1) => exact plain (some depth)

theorem Plain.here_eq {Γ : Spellings} (plain : Γ.Plain) : Γ.here = .same := plain (some 0)

end Spellings

/-- Mentions have counterparts under their other numbers. -/
def Ledgers.Renumbers (l : Ledgers) (ids : Occurrence → Occurrence) (mentions : List Mention) :
    Prop :=
  ∀ id ∈ mentionIds mentions, l.Matches id (ids id)

theorem Ledgers.renumbers_append {l : Ledgers} {ids : Occurrence → Occurrence}
    {former latter : List Mention} :
    l.Renumbers ids (former ++ latter) ↔ l.Renumbers ids former ∧ l.Renumbers ids latter := by
  unfold Ledgers.Renumbers
  rw [mentionIds_append, List.forall_mem_append]

open Spellings Ledgers

variable {l : Ledgers} {ids : Occurrence → Occurrence}

theorem Spelling.Plain.spells {Γ : Spellings} (plain : Γ.Plain) (depth : Option Nat)
    (name : Ident) : (Γ.bound depth).Spells name name := by
  rw [plain]
  exact spells_same name

theorem Spelling.spellsAll_lower (params : List Ident) :
    List.Forall₂ Spelling.same.Spells params (params.map (Ident.lower 0)) := by
  induction params with
  | nil => exact .nil
  | cons name rest ih => exact .cons (spells_same name) ih

mutual

theorem Expr.akin_recast {Γ : Spellings} (plain : Γ.Plain) :
    ∀ {e : Expr}, l.Renumbers ids e.mentions → Expr.Akin l Γ e (e.recast ⟨ids, 0⟩)
  | .literal _, _ => .literal _
  | .unary operator _ line, renumbers => .unary operator line (Expr.akin_recast plain renumbers)
  | .binary _ operator _ line, renumbers =>
      .binary operator line (Expr.akin_recast plain (renumbers_append.mp renumbers).1)
        (Expr.akin_recast plain (renumbers_append.mp renumbers).2)
  | .logical _ operator _, renumbers =>
      .logical operator (Expr.akin_recast plain (renumbers_append.mp renumbers).1)
        (Expr.akin_recast plain (renumbers_append.mp renumbers).2)
  | .group _, renumbers => .group (Expr.akin_recast plain renumbers)
  | .var id name, renumbers =>
      .var (renumbers id (List.mem_singleton_self _)) (Spelling.Plain.spells plain _ name)
  | .assign id name _, renumbers =>
      .assign ((renumbers_append.mp renumbers).2 id (List.mem_singleton_self _))
        (Spelling.Plain.spells plain _ name)
        (Expr.akin_recast plain (renumbers_append.mp renumbers).1)
  | .call _ _ line, renumbers =>
      .call line (Expr.akin_recast plain (renumbers_append.mp renumbers).1)
        (Expr.akinAll_recast plain (renumbers_append.mp renumbers).2)
  | .get _ name, renumbers => .get name (Expr.akin_recast plain renumbers)
  | .set _ name _, renumbers =>
      .set name (Expr.akin_recast plain (renumbers_append.mp renumbers).1)
        (Expr.akin_recast plain (renumbers_append.mp renumbers).2)
  | .selfRef id line, renumbers => .selfRef line (renumbers id (List.mem_singleton_self _))

theorem Expr.akinAll_recast {Γ : Spellings} (plain : Γ.Plain) :
    ∀ {arguments : List Expr}, l.Renumbers ids (Expr.mentionsAll arguments) →
      Expr.AkinAll l Γ arguments (Expr.recastAll ⟨ids, 0⟩ arguments)
  | [], _ => .nil
  | _ :: _, renumbers => .cons (Expr.akin_recast plain (renumbers_append.mp renumbers).1)
      (Expr.akinAll_recast plain (renumbers_append.mp renumbers).2)

end

theorem Expr.akinOption_recast {Γ : Spellings} (plain : Γ.Plain) {value : Option Expr}
    (renumbers : l.Renumbers ids (Expr.mentionsOption value)) :
    Expr.AkinOption l Γ value (value.map (Expr.recast ⟨ids, 0⟩)) := by
  cases value with
  | none => exact .none
  | some e => exact .some (Expr.akin_recast plain renumbers)

theorem LoopVar.akin_recast {Γ : Spellings} (plain : Γ.Plain) {counter : Option LoopVar}
    (renumbers : l.Renumbers ids (LoopVar.mentionsOption counter)) :
    Option.Rel (LoopVar.Akin l Γ) counter (counter.map (LoopVar.recast ⟨ids, 0⟩)) := by
  cases counter with
  | none => exact .none
  | some counter =>
      exact .some ⟨Spelling.Plain.spells plain (some 0) counter.name,
        Expr.akin_recast plain renumbers⟩

mutual

theorem Stmt.akin_recast : ∀ {Γ : Spellings}, Γ.Plain → ∀ {s : Stmt},
    l.Renumbers ids s.mentions → Stmt.Akin l Γ s (s.recast ⟨ids, 0⟩)
  | _, plain, .expression _, renumbers => .expression (Expr.akin_recast plain renumbers)
  | _, plain, .print _, renumbers => .print (Expr.akin_recast plain renumbers)
  | _, plain, .declare name _, renumbers =>
      .declare (Spelling.Plain.spells plain (some 0) name) (Expr.akinOption_recast plain renumbers)
  | _, plain, .block _, renumbers => .block .same (Stmt.akinAll_recast plain.cons renumbers)
  | _, plain, .function ⟨name, params, body⟩, renumbers =>
      .function (by rw [plain.here_eq]; rfl) (Stmt.akinRoutine_recast plain renumbers)
  | _, plain, .branch _ _ none, renumbers =>
      .branch .same (Expr.akin_recast plain (renumbers_append.mp renumbers).1)
        (Stmt.akinAll_recast plain.cons (renumbers_append.mp renumbers).2) .absent
  | _, plain, .branch _ _ (some _), renumbers =>
      have front := (renumbers_append.mp renumbers).1
      .branch .same (Expr.akin_recast plain (renumbers_append.mp front).1)
        (Stmt.akinAll_recast plain.cons (renumbers_append.mp front).2)
        (.present .same (Stmt.akinAll_recast plain.cons (renumbers_append.mp renumbers).2))
  | _, plain, .loop _ _ _ _, renumbers =>
      have head := (renumbers_append.mp renumbers).1
      have front := (renumbers_append.mp head).1
      .loop .same .same (LoopVar.akin_recast plain.cons (renumbers_append.mp front).1)
        (Expr.akinOption_recast plain.cons (renumbers_append.mp front).2)
        (Expr.akinOption_recast plain.cons (renumbers_append.mp head).2)
        (Stmt.akinAll_recast plain.cons.cons (renumbers_append.mp renumbers).2)
  | _, plain, .exit line _, renumbers => .exit line (Expr.akinOption_recast plain renumbers)
  | _, plain, .classDef name _, renumbers =>
      .classDef (by rw [plain.here_eq]; rfl) (Stmt.akinMethods_recast plain.cons renumbers)

theorem Stmt.akinAll_recast : ∀ {Γ : Spellings}, Γ.Plain → ∀ {body : List Stmt},
    l.Renumbers ids (Stmt.mentionsAll body) →
      Stmt.AkinAll l Γ body (Stmt.recastAll ⟨ids, 0⟩ body)
  | _, _, [], _ => .nil
  | _, plain, _ :: _, renumbers => .cons (Stmt.akin_recast plain (renumbers_append.mp renumbers).1)
      (Stmt.akinAll_recast plain (renumbers_append.mp renumbers).2)

theorem Stmt.akinMethods_recast : ∀ {Γ : Spellings}, Γ.Plain → ∀ {methods : List Routine},
    l.Renumbers ids (Stmt.mentionsMethods methods) →
      Stmt.AkinMethods l Γ methods (Stmt.recastMethods ⟨ids, 0⟩ methods)
  | _, _, [], _ => .nil
  | _, plain, ⟨_, _, _⟩ :: _, renumbers =>
      .cons (Stmt.akinRoutine_recast plain (renumbers_append.mp renumbers).1)
        (Stmt.akinMethods_recast plain (renumbers_append.mp renumbers).2)

theorem Stmt.akinRoutine_recast : ∀ {Γ : Spellings}, Γ.Plain →
    ∀ {name : Ident} {params : List Ident} {body : List Stmt},
      l.Renumbers ids (Stmt.mentionsAll body) →
      Stmt.AkinRoutine l Γ ⟨name, params, body⟩
        ⟨name, params.map (Ident.lower 0), Stmt.recastAll ⟨ids, 0⟩ body⟩
  | _, plain, _, params, _, renumbers =>
      .mk .same (Spelling.spellsAll_lower params) (Stmt.akinAll_recast plain.cons renumbers)

end

/-! ## Programs -/

/--
A text that compiles also does under other numbers, and the two programs are akin when each of them
is added to other code.
-/
theorem exists_akin_of_compile {program : Program} {a a' : Nat}
    (compiled : compile source a = (.ok program, a')) (b : Nat) {former latter : Ledger}
    (above : former.limit ≤ a) (above' : latter.limit ≤ b) (closed : former.IsClosed)
    (closed' : latter.IsClosed) :
    ∃ program' b', compile source b = (.ok program', b') ∧
      Stmt.AkinAll ⟨former.add program a', latter.add program' b'⟩ [] program.statements
        program'.statements := by
  obtain ⟨program', compiled', statements, bindings⟩ := exists_compile_move compiled b
  refine ⟨program', _, compiled', ?_⟩
  rw [statements]
  have known := Program.compiled_of_compile compiled
  refine Stmt.akinAll_recast Spellings.plain_nil ?_
  intro id present
  obtain ⟨start, below⟩ := known.numbered.within id present
  have past : latter.limit ≤ id - a + b := Nat.le_trans above' (Nat.le_add_left _ _)
  refine ⟨below, Nat.add_lt_add_right (Nat.sub_lt_sub_right start below) b, ?_⟩
  calc (former.add program a').bindings[id]?
      = program.bindings[id]? := Ledger.getElem?_add_of_le closed (Nat.le_trans above start)
    _ = program'.bindings[(Recast.move a b 0).ids id]? := by
        apply Option.ext
        intro d
        rw [bindings]
        constructor
        · intro bound
          exact ⟨id, bound, rfl⟩
        · rintro ⟨i, bound, same⟩
          have equal : i = id :=
            Recast.eq_of_move_ids_eq (known.within bound).1 start same
          rw [← equal]
          exact bound
    _ = (latter.add program' (a' - a + b)).bindings[(Recast.move a b 0).ids id]? :=
        (Ledger.getElem?_add_of_le closed' past).symm

end Rill
