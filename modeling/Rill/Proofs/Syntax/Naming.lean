import Rill.Proofs.Scope.Acceptance
import Rill.Proofs.Syntax.Extent
import Rill.Proofs.Token.Ending

/-!
# Where names come from

The names that a program declares are written as identifiers in it, and an identifier is never a
reserved word. So nothing that is declared is called `self`.
-/

namespace Rill

theorem Stmt.mem_initialized_branch {condition : Expr} {thenBody : List Stmt}
    {elseBody : Option (List Stmt)} {name : String} :
    name ∈ (Stmt.branch condition thenBody elseBody).initialized ↔
      name ∈ Stmt.initializedAll thenBody ∨
        ∃ body, elseBody = some body ∧ name ∈ Stmt.initializedAll body := by
  cases elseBody with
  | none => simp [Stmt.initialized]
  | some body => simp [Stmt.initialized]

/-- A name is written as an identifier at a place or behind it. -/
def Cursor.Names (c : Cursor) (name : String) : Prop :=
  ∃ t ∈ c.upcoming, t.kind = .identifier ∧ t.lexeme = name

namespace Cursor

variable {c c₁ : Cursor} {t : Token} {name : String}

theorem Reaches.names (reaches : c.Reaches c₁) (names : c₁.Names name) : c.Names name := by
  obtain ⟨t, present, kind, lexeme⟩ := names
  exact ⟨t, reaches.isSuffix.subset present, kind, lexeme⟩

theorem Reads.names (reads : c.Reads .identifier t c₁) : c.Names t.ident.name := by
  refine ⟨t, ?_, reads.kind_eq, rfl⟩
  rw [reads.upcoming_eq]
  exact List.mem_cons_self ..

end Cursor

namespace Grammar

theorem Counter.names {c c₁ : Cursor} {counter : LoopVar} (counts : Counter c counter c₁) :
    c.Names counter.name.name := by
  cases counts with
  | declared word name _ _ => exact word.passes.reaches.names name.names
  | assigned name _ _ => exact name.names

theorem Perhaps.names_counter {c c₁ : Cursor} {counter : Option LoopVar} {name : String}
    (perhaps : Perhaps Counter c counter c₁)
    (present : name ∈ LoopVar.initializedOption counter) : c.Names name := by
  cases perhaps with
  | absent => cases present
  | present phrase =>
      rw [List.mem_singleton.mp present]
      exact phrase.names

theorem Names.names {c c₁ : Cursor} {params : List Ident} (list : Names c params c₁) :
    ∀ param ∈ params, c.Names param.name := by
  induction list with
  | one name =>
      intro param present
      rw [List.mem_singleton.mp present]
      exact name.names
  | more name comma _ ih =>
      have upToRest := name.passes.trans comma.passes
      intro param present
      rcases List.mem_cons.mp present with rfl | present
      · exact name.names
      · exact upToRest.reaches.names (ih param present)

theorem Parameters.names {c c₁ : Cursor} {params : List Ident} (list : Parameters c params c₁) :
    ∀ param ∈ params, c.Names param.name := by
  cases list with
  | none => exact fun _ present => absurd present List.not_mem_nil
  | some list _ => exact list.names

mutual

theorem Declaration.names : ∀ {c c₁ : Cursor} {s : Stmt},
    Declaration c s c₁ → ∀ name ∈ s.initialized, c.Names name
  | _, _, _, .classDef word name opens methods _ => by
      have head := (word.passes.trans name.passes).trans opens.passes
      intro name present
      exact head.reaches.names (methods.names name present)
  | _, _, _, .function word routine => by
      intro name present
      have inner := routine.names name present
      exact word.passes.reaches.names inner
  | _, _, _, .declare word name _ _ => by
      intro other present
      rw [List.mem_singleton.mp present]
      exact word.passes.reaches.names name.names
  | _, _, _, .loop word counter first condition second increment body => by
      have counted := counter.reaches fun phrase => phrase.passes.reaches
      have tested := condition.reaches fun phrase => phrase.passes.reaches
      have stepped := increment.reaches fun phrase => phrase.passes.reaches
      have upToCondition := (word.passes.then counted).trans first.passes
      have upToBody := ((upToCondition.then tested).trans second.passes).then stepped
      intro name present
      rcases List.mem_append.mp present with inCounter | inBody
      · exact word.passes.reaches.names (counter.names_counter inCounter)
      · exact upToBody.reaches.names (body.names name inBody)
  | _, _, _, .branch conditional => conditional.names
  | _, _, _, .exit _ _ _ => fun _ present => absurd present List.not_mem_nil
  | _, _, _, .block body => body.names
  | _, _, _, .print _ _ _ => fun _ present => absurd present List.not_mem_nil
  | _, _, _, .expression _ _ => fun _ present => absurd present List.not_mem_nil

theorem Conditional.names : ∀ {c c₁ : Cursor} {s : Stmt},
    Conditional c s c₁ → ∀ name ∈ s.initialized, c.Names name
  | _, _, _, .branch word condition body otherwise => by
      have upToBody := word.passes.trans condition.passes
      intro name present
      rcases Stmt.mem_initialized_branch.mp present with inThen | ⟨elseBody, chosen, inElse⟩
      · exact upToBody.reaches.names (body.names name inThen)
      · have behind := otherwise.names elseBody chosen name inElse
        exact (upToBody.trans body.passes).reaches.names behind

theorem Otherwise.names : ∀ {c c₁ : Cursor} {elseBody : Option (List Stmt)},
    Otherwise c elseBody c₁ → ∀ body, elseBody = some body →
    ∀ name ∈ Stmt.initializedAll body, c.Names name
  | _, _, _, .absent => by
      intro body chosen
      cases chosen
  | _, _, _, .block breaks word block => by
      rintro _ ⟨rfl⟩ name present
      exact (breaks.reaches.then word.passes).reaches.names (block.names name present)
  | _, _, _, .conditional breaks word conditional => by
      have inner := conditional.names
      rintro _ ⟨rfl⟩ name present
      rw [Stmt.initializedAll, Stmt.initializedAll, List.append_nil] at present
      exact (breaks.reaches.then word.passes).reaches.names (inner name present)

theorem Block.names : ∀ {c c₁ : Cursor} {body : List Stmt}, Block c body c₁ →
    ∀ name ∈ Stmt.initializedAll body, c.Names name
  | _, _, _, .braces opens body _ => fun name present =>
      opens.passes.reaches.names (body.names name present)

theorem Body.names : ∀ {c c₁ : Cursor} {body : List Stmt}, Body c body c₁ →
    ∀ name ∈ Stmt.initializedAll body, c.Names name
  | _, _, _, .done _ => fun _ present => absurd present List.not_mem_nil
  | _, _, _, .more breaks first rest => by
      intro name present
      rcases List.mem_append.mp present with inFirst | inRest
      · exact breaks.reaches.names (first.names name inFirst)
      · exact (breaks.reaches.then first.passes).reaches.names (rest.names name inRest)

theorem Methods.names : ∀ {c c₁ : Cursor} {methods : List Routine}, Methods c methods c₁ →
    ∀ name ∈ Stmt.initializedMethods methods, c.Names name
  | _, _, _, .done _ => fun _ present => absurd present List.not_mem_nil
  | _, _, _, .more breaks word routine rest => by
      have upToName := breaks.reaches.then word.passes
      intro name present
      rcases List.mem_append.mp present with inFirst | inRest
      · exact upToName.reaches.names (routine.names name inFirst)
      · exact (upToName.trans routine.passes).reaches.names (rest.names name inRest)

theorem RoutineRest.names : ∀ {c c₁ : Cursor} {routine : Routine}, RoutineRest c routine c₁ →
    ∀ name ∈ routine.params.map Ident.name ++ Stmt.initializedAll routine.body, c.Names name
  | _, _, _, .named name opens params closes body => by
      have upToParams := name.passes.trans opens.passes
      have upToBody := (upToParams.then params.reaches).trans closes.passes
      intro name present
      rcases List.mem_append.mp present with inParams | inBody
      · obtain ⟨param, listed, rfl⟩ := List.mem_map.mp inParams
        exact upToParams.reaches.names (params.names param listed)
      · exact upToBody.reaches.names (body.names name inBody)

end

end Grammar

/-- Nothing that a program gives a first value is called `self`. -/
theorem Grammar.Derives.ne_self {body : List Token} {ending : Token} {first last : Occurrence}
    {statements : List Stmt} (derives : Grammar.Derives (body ++ [ending]) first statements last)
    (lawful : ∀ t ∈ body, t.Lawful) : ∀ name ∈ Stmt.initializedAll statements, name ≠ "self" := by
  rintro name present rfl
  obtain ⟨other, ending', same, _, program, _⟩ := derives
  obtain ⟨rfl, _⟩ := List.append_inj' same rfl
  obtain ⟨t, inBody, identifier, lexeme⟩ := program.names _ present
  have free := (lawful t inBody).not_reserved identifier
  rw [lexeme] at free
  cases free

end Rill
