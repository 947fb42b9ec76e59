import Rill.Proofs.Renaming.Respelling

/-!
# Programs with a renamed variable

A program in which one local variable is renamed is a counterpart of the program. In the scope of
the variable the two names change places, and the code behind the declaration is respelled; around
it and in front of it the code stays as it is.
-/

namespace Rill

variable {ledger : Ledger} {Γ : Spellings} {scope : Scope} {outer scopes : Scopes} {x y : String}
  {ρ : String → String} {σ : Spelling} {old : x ≠ "self"} {new : y ≠ "self"}

/-! ## The scope of the variable -/

/-- A scope spells names as they are, or two change places and it does not declare the old one. -/
def Spelling.Suits (old : x ≠ "self") (new : y ≠ "self") (scope : Scope) (σ : Spelling) : Prop :=
  σ = .same ∨ σ = .exchange x y old new ∧ scope.status? x = none

theorem Spelling.Suits.mono {own : Scope} (suits : σ.Suits old new own)
    (fewer : own.status? x = none → scope.status? x = none) : σ.Suits old new scope :=
  suits.imp_right fun both => ⟨both.1, fewer both.2⟩

theorem Spelling.exchange_spell_eq {name : String} (other : name ≠ x) (ne : name ≠ y) :
    (exchange x y old new).spell name = name := by
  rw [exchange_spell_of_ne ne, calling, if_neg other]

theorem Spelling.exchange_spells (ne : x ≠ y) (line : Nat) :
    (exchange x y old new).Spells ⟨x, line⟩ ⟨y, line⟩ where
  name_eq := by rw [exchange_spell_of_ne ne, calling, if_pos rfl]
  line_eq := rfl

namespace Spelled

/-- The names of a scope may change places before one of them is declared. -/
theorem suits (spelled : Spelled x y (.same :: Γ) (scope :: outer) id)
    (suits : σ.Suits old new scope) : Spelled x y (σ :: Γ) (scope :: outer) id := by
  rcases suits with rfl | ⟨rfl, absent⟩
  · exact spelled
  obtain ⟨fits, spell_eq⟩ := spelled
  cases fits with
  | cons here others =>
      refine ⟨.cons ⟨Spelling.replaces_exchange, here.free⟩ others, fun name ne => ?_⟩
      have before := spell_eq name ne
      rw [Spellings.seen_cons] at before ⊢
      split
      · next declared =>
          have other : name ≠ x := by
            rintro rfl
            rw [Scope.declares, absent] at declared
            cases declared
          exact Spelling.exchange_spell_eq other ne
      · next passed =>
          rw [if_neg passed] at before
          exact before

/-- From its declaration on, the variable goes by its new name. -/
theorem call (spelled : Spelled x y (.exchange x y old new :: Γ) scopes ρ)
    (same : ∀ name ≠ x, ρ name = name) (ne : x ≠ y) (status : Status) :
    Spelled x y (.exchange x y old new :: Γ) (scopes.mark x status) (calling x y) := by
  refine (spelled.mark ne status).congr fun name other => ?_
  rw [Spellings.here_cons, Spelling.exchange_spell_of_ne other]
  split
  · rfl
  · next different => rw [same name different, calling, if_neg different]

/-- A variable that is renamed where it is declared. -/
theorem call_twice (spelled : Spelled x y (.exchange x y old new :: Γ) scopes id) (ne : x ≠ y) :
    Spelled x y (.exchange x y old new :: Γ) ((scopes.mark x .declared).mark x .defined)
      (calling x y) :=
  have called := spelled.call (fun _ _ => rfl) ne .declared
  called.call (fun _ different => if_neg different) ne .defined

end Spelled

/-! ## Declarations in the scope of the variable -/

namespace Scopes

theorem declaresHere_mark_self (name : String) (status : Status) (scope : Scope)
    (outer : Scopes) : (Scopes.mark name status (scope :: outer)).declaresHere name = true := by
  rw [mark, declaresHere, Scope.declares, Scope.status?_cons, if_pos rfl]
  rfl

theorem declaresHere_mark_of {name other : String} {status : Status}
    (declared : scopes.declaresHere name = true) :
    (scopes.mark other status).declaresHere name = true := by
  cases scopes with
  | nil => cases declared
  | cons scope outer =>
      rw [mark, declaresHere, Scope.declares, Scope.status?_cons]
      split
      · rfl
      · exact declared

end Scopes

namespace Stmt

variable {s : Stmt} {inRoutine : Bool} {name : String}

theorem Bound.once (bound : s.Bound ledger inRoutine scopes) (declares : s.declared? = some name) :
    scopes.declaresHere name = false := by
  cases s with
  | declare _ _ | classDef _ _ =>
      cases declares
      exact bound.1
  | function routine =>
      obtain ⟨_, _, _⟩ := routine
      cases declares
      exact bound.1
  | _ => cases declares

theorem mem_names_of_declared (declares : s.declared? = some name) : name ∈ s.names := by
  cases s with
  | declare _ _ | classDef _ _ =>
      cases declares
      exact List.mem_cons_self
  | function routine =>
      obtain ⟨_, _, _⟩ := routine
      cases declares
      exact List.mem_cons_self
  | _ => cases declares

theorem declaresHere_behind (s : Stmt) (declared : scopes.declaresHere name = true) :
    (s.behind scopes).declaresHere name = true := by
  cases s with
  | declare _ _ => exact Scopes.declaresHere_mark_of (Scopes.declaresHere_mark_of declared)
  | function _ | classDef _ _ => exact Scopes.declaresHere_mark_of declared
  | branch _ _ elseBody => cases elseBody <;> exact declared
  | _ => exact declared

/-- A statement keeps its name if it declares none that is exchanged. -/
theorem kept_exchange (unused : y ∉ s.names) (other : s.declared? ≠ some x) :
    s.Kept (.exchange x y old new) := by
  intro name declares
  refine Spelling.exchange_spell_eq ?_ ?_
  · rintro rfl
    exact other declares
  · rintro rfl
    exact unused (mem_names_of_declared declares)

/-- Where a name is declared, it is not declared again. -/
theorem keptAll_exchange {body : List Stmt} (bound : BoundAll ledger inRoutine scopes body)
    (unused : y ∉ namesAll body) (declared : scopes.declaresHere x = true) :
    ∀ s ∈ body, s.Kept (.exchange x y old new) := by
  induction body generalizing scopes with
  | nil => exact fun _ present => absurd present List.not_mem_nil
  | cons s rest ih =>
      obtain ⟨unusedFirst, unusedRest⟩ := not_mem_append_iff.mp unused
      refine List.forall_mem_cons.mpr ⟨kept_exchange unusedFirst ?_, ?_⟩
      · intro declares
        rw [bound.1.once declares] at declared
        cases declared
      · exact ih bound.2 unusedRest (s.declaresHere_behind declared)

/-- What is not declared behind a statement is not declared in front of it, nor by it. -/
theorem behind_cons (s : Stmt) (scope : Scope) (outer : Scopes) :
    ∃ own, s.behind (scope :: outer) = own :: outer ∧ ∀ name, own.status? name = none →
      scope.status? name = none ∧ s.declared? ≠ some name := by
  have marked {name : String} {status : Status} {own : Scope} {other : String}
      (absent : Scope.status? ((name, status) :: own) other = none) :
      own.status? other = none ∧ some name ≠ some other := by
    rw [Scope.status?_cons] at absent
    split at absent
    · cases absent
    · next different => exact ⟨absent, fun same => different (Option.some.inj same).symm⟩
  cases s with
  | declare _ _ =>
      refine ⟨_, rfl, fun other absent => ?_⟩
      obtain ⟨absent, different⟩ := marked absent
      exact ⟨(marked absent).1, different⟩
  | function _ | classDef _ _ => exact ⟨_, rfl, fun other absent => marked absent⟩
  | branch _ _ elseBody => cases elseBody <;> exact ⟨scope, rfl, fun _ absent => ⟨absent, nofun⟩⟩
  | _ => exact ⟨scope, rfl, fun _ absent => ⟨absent, nofun⟩⟩

end Stmt

/-! ## Parameters -/

/-- What is not declared behind parameters is none of them. -/
theorem paramScopes_cons (params : List Ident) (scope : Scope) (outer : Scopes) :
    ∃ own, paramScopes (scope :: outer) params = own :: outer ∧ ∀ name, own.status? name = none →
      name ∉ namesOf params := by
  suffices general : ∃ own, paramScopes (scope :: outer) params = own :: outer ∧
      ∀ name, own.status? name = none → scope.status? name = none ∧ name ∉ namesOf params by
    obtain ⟨own, same, absent⟩ := general
    exact ⟨own, same, fun name none => (absent name none).2⟩
  induction params generalizing scope with
  | nil => exact ⟨scope, rfl, fun name none => ⟨none, List.not_mem_nil⟩⟩
  | cons param rest ih =>
      obtain ⟨own, same, absent⟩ := ih ((param.name, .defined) :: scope)
      refine ⟨own, same, fun name none => ?_⟩
      obtain ⟨before, others⟩ := absent name none
      rw [Scope.status?_cons] at before
      split at before
      · cases before
      · next different => exact ⟨before, not_mem_cons_iff.mpr ⟨different, others⟩⟩

/-- Parameters declare their names. -/
theorem declaresHere_paramScopes {params : List Ident} {name : String}
    (present : name ∈ namesOf params) :
    (paramScopes (scope :: outer) params).declaresHere name = true := by
  obtain ⟨own, same, absent⟩ := paramScopes_cons params scope outer
  rw [same, Scopes.declaresHere, Scope.declares]
  cases declared : own.status? name with
  | some status => rfl
  | none => exact absurd present (absent name declared)

/-- Behind the declaration of a name, no parameter has the same one. -/
theorem ParamsDistinct.not_mem {params : List Ident} {name : String}
    (distinct : ParamsDistinct scopes params) (declared : scopes.declaresHere name = true) :
    name ∉ namesOf params := by
  induction params generalizing scopes with
  | nil => exact List.not_mem_nil
  | cons param rest ih =>
      obtain ⟨once, distinct⟩ := distinct
      refine not_mem_cons_iff.mpr ⟨?_, ih distinct (Scopes.declaresHere_mark_of declared)⟩
      rintro rfl
      rw [once] at declared
      cases declared

/-- Parameters that have none of the two names are spelled as they are. -/
theorem forall₂_spells_exchange {params : List Ident} (other : x ∉ namesOf params)
    (unused : y ∉ namesOf params) :
    List.Forall₂ (Spelling.exchange x y old new).Spells params params := by
  refine List.forall₂_same.mpr fun param present => ⟨?_, rfl⟩
  refine (Spelling.exchange_spell_eq ?_ ?_).symm
  · rintro rfl
    exact other (List.mem_map_of_mem present)
  · rintro rfl
    exact unused (List.mem_map_of_mem present)

/-- If one parameter has the old name, the others have neither of the two. -/
theorem forall₂_spells_renamed {before after : List Ident} {line : Nat}
    (distinct : ParamsDistinct (scope :: outer) (before ++ ⟨x, line⟩ :: after))
    (unused : y ∉ namesOf (before ++ ⟨x, line⟩ :: after)) :
    List.Forall₂ (Spelling.exchange x y old new).Spells (before ++ ⟨x, line⟩ :: after)
      (before ++ ⟨y, line⟩ :: after) := by
  induction before generalizing scope with
  | nil =>
      obtain ⟨ne, unused⟩ := not_mem_cons_iff.mp unused
      refine .cons (Spelling.exchange_spells (Ne.symm ne) line) (forall₂_spells_exchange ?_ unused)
      exact distinct.2.not_mem (Scopes.declaresHere_mark_self _ _ _ _)
  | cons param before ih =>
      obtain ⟨ne, unused⟩ := not_mem_cons_iff.mp unused
      refine .cons ⟨(Spelling.exchange_spell_eq ?_ (Ne.symm ne)).symm, rfl⟩ (ih distinct.2 unused)
      rintro rfl
      refine distinct.2.not_mem (Scopes.declaresHere_mark_self _ _ _ _) (List.mem_map.mpr ?_)
      exact ⟨_, List.mem_append_right _ List.mem_cons_self, rfl⟩

/-! ## Counterparts -/

/-- A routine as it is. -/
theorem RoutineOf.counterpart_self (new : y ≠ "self") (spelled : Spelled x y Γ scopes id)
    {routine : Routine} (bound : routine.Bound ledger scopes)
    (unusedParams : y ∉ namesOf routine.params) (unusedBody : y ∉ Stmt.namesAll routine.body) :
    routine.Counterpart ledger Γ scopes routine := by
  have inner := spelled.shadowParams unusedParams
  rw [shadowing_id] at inner
  exact .of_body spelled bound.1 unusedParams
    (Stmt.counterpartAll_self new inner bound.2 unusedBody fun s _ => s.kept_same)

/-- A parameter that is renamed. -/
theorem RoutineOf.counterpart_param (old : x ≠ "self") (new : y ≠ "self")
    (spelled : Spelled x y Γ scopes id) {name : Ident} {before after : List Ident} {line : Nat}
    {body : List Stmt}
    (bound : RoutineOf.Bound ledger scopes ⟨name, before ++ ⟨x, line⟩ :: after, body⟩)
    (unusedParams : y ∉ namesOf (before ++ ⟨x, line⟩ :: after))
    (unusedBody : y ∉ Stmt.namesAll body) :
    RoutineOf.Counterpart ledger Γ scopes ⟨name, before ++ ⟨x, line⟩ :: after, body⟩
      ⟨name, before ++ ⟨y, line⟩ :: after, Stmt.respellAll (calling x y) body⟩ := by
  obtain ⟨distinct, boundBody⟩ := bound
  have present : x ∈ namesOf (before ++ ⟨x, line⟩ :: after) :=
    List.mem_map.mpr ⟨⟨x, line⟩, List.mem_append_right _ List.mem_cons_self, rfl⟩
  have entered := spelled.enter (σ := .exchange x y old new) Spelling.replaces_exchange
  have inner : Spelled x y (.exchange x y old new :: Γ) _ (calling x y) :=
    (entered.behindParams unusedParams).congr fun other ne => by
      rw [Spellings.here_cons, Spelling.exchange_spell_of_ne ne]
      split
      · rfl
      · next absent =>
          have different : other ≠ x := by
            rintro rfl
            exact absent present
          rw [calling, if_neg different]
          rfl
  have kept : ∀ s ∈ body, s.Kept (.exchange x y old new) :=
    Stmt.keptAll_exchange boundBody unusedBody (declaresHere_paramScopes present)
  exact .mk_body entered (forall₂_spells_renamed distinct unusedParams) distinct unusedParams
    (Stmt.counterpartAll_respell new inner boundBody unusedBody kept)

/-- A routine in whose scope a variable may be renamed, if no parameter has its name. -/
theorem RoutineOf.Counterpart.of_suits (spelled : Spelled x y Γ scopes id)
    (suits : σ.Suits old new scope) {name : Ident} {params : List Ident} {body body' : List Stmt}
    (others : scope.status? x = none → x ∉ namesOf params)
    (distinct : ParamsDistinct ([] :: scopes) params) (unused : y ∉ namesOf params)
    (inner : Stmt.CounterpartAll ledger (σ :: Γ) (paramScopes ([] :: scopes) params) body body') :
    RoutineOf.Counterpart ledger Γ scopes ⟨name, params, body⟩ ⟨name, params, body'⟩ := by
  rcases suits with rfl | ⟨rfl, absent⟩
  · exact .of_body spelled distinct unused inner
  · exact .mk_body (spelled.enter Spelling.replaces_exchange)
      (forall₂_spells_exchange (others absent) unused) distinct unused inner

/-- A loop variable that is renamed. -/
theorem Stmt.Counterpart.loop_counter (old : x ≠ "self") (new : y ≠ "self")
    (spelled : Spelled x y Γ scopes id) {line : Nat} {value : Expr}
    {condition increment : Option Expr} {body : List Stmt} {inRoutine : Bool}
    (bound : (Stmt.loop (some ⟨⟨x, line⟩, value⟩) condition increment body).Bound ledger inRoutine
      scopes)
    (unused : y ∉ (Stmt.loop (some ⟨⟨x, line⟩, value⟩) condition increment body).names) :
    Stmt.Counterpart ledger Γ scopes (.loop (some ⟨⟨x, line⟩, value⟩) condition increment body)
      (.loop (some ⟨⟨y, line⟩, value.respell (calling x y)⟩)
        (Expr.respellOption (calling x y) condition) (Expr.respellOption (calling x y) increment)
        (Stmt.respellAll (calling x y) body)) := by
  obtain ⟨boundCounter, boundCondition, boundIncrement, boundBody⟩ := bound
  obtain ⟨unusedName, unusedValue, unusedCondition, unusedIncrement, unusedBody⟩ :=
    Stmt.not_mem_names_loop.mp unused
  have ne : x ≠ y := Ne.symm (not_mem_cons_iff.mp unusedName).1
  have entered := spelled.enter (σ := .exchange x y old new) Spelling.replaces_exchange
  have called := entered.call (fun _ _ => rfl) ne .declared
  have own : Spelled x y (.exchange x y old new :: Γ)
      (counterScopes scopes (some ⟨⟨x, line⟩, value⟩)) (calling x y) := entered.call_twice ne
  exact .loop
    (.some entered (Spelling.exchange_spells ne line)
      (Expr.counterpart_respell called boundCounter.2 unusedValue))
    (Expr.counterpartOption_respell own boundCondition unusedCondition)
    (Expr.counterpartOption_respell own boundIncrement unusedIncrement)
    (Stmt.counterpartAll_respell new (own.enter Spelling.replaces_same) boundBody unusedBody
      fun s _ => s.kept_same)

namespace Stmt

/-- What is declared in the scope of the variable before it keeps its name. -/
theorem kept_of_suits {s : Stmt} {own : Scope} (suits : σ.Suits old new own) (unused : y ∉ s.names)
    (others : own.status? x = none → s.declared? ≠ some x) : s.Kept σ := by
  rcases suits with rfl | ⟨rfl, absent⟩
  · exact s.kept_same
  · exact kept_exchange unused (others absent)

/-- Behind its declaration, and in its initializer, a variable goes by its new name. -/
theorem exists_counterpart_declare (old : x ≠ "self") (new : y ≠ "self") {line : Nat}
    {initializer : Option Expr} {rest : List Stmt} {inRoutine : Bool}
    (spelled : Spelled x y (.same :: Γ) (scope :: outer) id)
    (bound : BoundAll ledger inRoutine (scope :: outer) (.declare ⟨x, line⟩ initializer :: rest))
    (unused : y ∉ namesAll (.declare ⟨x, line⟩ initializer :: rest)) :
    ∃ σ, Spelling.Suits old new scope σ ∧
      CounterpartAll ledger (σ :: Γ) (scope :: outer) (.declare ⟨x, line⟩ initializer :: rest)
        (.declare ⟨y, line⟩ (Expr.respellOption (calling x y) initializer) ::
          respellAll (calling x y) rest) := by
  obtain ⟨⟨once, _, boundInitializer⟩, boundRest⟩ := bound
  obtain ⟨unusedFirst, unusedRest⟩ := not_mem_append_iff.mp unused
  obtain ⟨ne, unusedInitializer⟩ := not_mem_cons_iff.mp unusedFirst
  have absent : scope.status? x = none :=
    Option.not_isSome_iff_eq_none.mp (ne_true_of_eq_false once)
  have suits : Spelling.Suits old new scope (.exchange x y old new) := .inr ⟨rfl, absent⟩
  have exchanged := spelled.suits suits
  have kept : ∀ s ∈ rest, s.Kept (.exchange x y old new) :=
    keptAll_exchange boundRest unusedRest
      (Scopes.declaresHere_mark_of (Scopes.declaresHere_mark_self x _ scope outer))
  have spells : (Spelling.exchange x y old new).Spells ⟨x, line⟩ ⟨y, line⟩ :=
    Spelling.exchange_spells (Ne.symm ne) line
  have called := exchanged.call (fun _ _ => rfl) (Ne.symm ne) .declared
  refine ⟨_, suits, .cons ?_ ?_⟩
  · exact .declare exchanged (Ne.symm ne) spells once
      (Expr.counterpartOption_respell called boundInitializer unusedInitializer)
  · exact counterpartAll_respell new (exchanged.call_twice (Ne.symm ne)) boundRest unusedRest kept

mutual

/-- A statement in which a variable is renamed is a counterpart. -/
theorem Renamed.counterpart (old : x ≠ "self") (new : y ≠ "self") : ∀ {s s' : Stmt},
    Renamed x y s s' → ∀ {inRoutine : Bool} {Γ : Spellings} {scopes : Scopes},
    Γ.here = .same → Spelled x y Γ scopes id → s.Bound ledger inRoutine scopes → y ∉ s.names →
    s.Counterpart ledger Γ scopes s'
  | _, _, .block among, _, _, _, _, spelled, bound, unused => by
      have entered := spelled.enter (σ := .same) Spelling.replaces_same
      obtain ⟨σ, _, inner⟩ := among.exists_counterpart old new entered bound unused
      exact .block inner
  | .function routine, _, .function renamed, _, _, _, here, spelled, bound, unused => by
      obtain ⟨name, params, body⟩ := routine
      obtain ⟨once, boundRoutine⟩ := bound_function.mp bound
      obtain ⟨ne, unused⟩ := not_mem_cons_iff.mp unused
      obtain ⟨unusedParams, unusedBody⟩ := not_mem_append_iff.mp unused
      have kept := congrArg (Spelling.spell · name.name) here
      have around := spelled.shadow (Ne.symm ne) kept .defined
      rw [shadowing_id] at around
      exact .function spelled kept once
        (renamed.counterpart old new around boundRoutine unusedParams unusedBody)
  | _, _, .thenBody condition none among, _, _, _, _, spelled, bound, unused => by
      obtain ⟨unusedCondition, unusedThen⟩ := not_mem_append_iff.mp unused
      have entered := spelled.enter (σ := .same) Spelling.replaces_same
      obtain ⟨σ, _, inner⟩ := among.exists_counterpart old new entered bound.2.1 unusedThen
      exact .branch (Expr.counterpart_self spelled bound.1 unusedCondition) inner
  | _, _, .thenBody condition (some elseBody) among, _, _, _, _, spelled, bound, unused => by
      obtain ⟨unusedCondition, unusedThen, unusedElse⟩ := not_mem_names_branch.mp unused
      have entered := spelled.enter (σ := .same) Spelling.replaces_same
      obtain ⟨σ, _, inner⟩ := among.exists_counterpart old new entered bound.2.1 unusedThen
      exact .branchElse (Expr.counterpart_self spelled bound.1 unusedCondition) inner
        (counterpartAll_self new entered bound.2.2 unusedElse fun s _ => s.kept_same)
  | _, _, .elseBody condition thenBody among, _, _, _, _, spelled, bound, unused => by
      obtain ⟨unusedCondition, unusedThen, unusedElse⟩ := not_mem_names_branch.mp unused
      have entered := spelled.enter (σ := .same) Spelling.replaces_same
      obtain ⟨σ, _, inner⟩ := among.exists_counterpart old new entered bound.2.2 unusedElse
      exact .branchElse (Expr.counterpart_self spelled bound.1 unusedCondition)
        (counterpartAll_self new entered bound.2.1 unusedThen fun s _ => s.kept_same) inner
  | _, _, .counter line value condition increment body, _, _, _, _, spelled, bound, unused =>
      .loop_counter old new spelled bound unused
  | _, _, .loopBody counter condition increment among, _, _, _, _, spelled, bound, unused => by
      obtain ⟨boundCounter, boundCondition, boundIncrement, boundBody⟩ := bound
      obtain ⟨unusedName, unusedValue, unusedCondition, unusedIncrement, unusedBody⟩ :=
        not_mem_names_loop.mp unused
      have counts := loopVar_respell spelled boundCounter unusedName unusedValue
      have own := spelled.shadowCounter unusedName
      rw [shadowing_id] at own counts
      rw [LoopVar.respellOption_id] at counts
      have entered := own.enter (σ := .same) Spelling.replaces_same
      obtain ⟨σ, _, inner⟩ := among.exists_counterpart old new entered boundBody unusedBody
      exact .loop counts (Expr.counterpartOption_self own boundCondition unusedCondition)
        (Expr.counterpartOption_self own boundIncrement unusedIncrement) inner
  | _, _, .classDef name renamed, _, _, _, here, spelled, bound, unused => by
      obtain ⟨once, boundMethods⟩ := bound
      obtain ⟨ne, unused⟩ := not_mem_cons_iff.mp unused
      have kept := congrArg (Spelling.spell · name.name) here
      have around := spelled.shadow (Ne.symm ne) kept .defined
      rw [shadowing_id] at around
      exact .classDef spelled kept once
        (renamed.counterpart old new (around.enterClass new) boundMethods unused)

/-- Statements are counterparts in some spelling of their scope. -/
theorem RenamedAmong.exists_counterpart (old : x ≠ "self") (new : y ≠ "self") :
    ∀ {body body' : List Stmt}, RenamedAmong x y body body' →
    ∀ {inRoutine : Bool} {Γ : Spellings} {scope : Scope} {outer : Scopes},
    Spelled x y (.same :: Γ) (scope :: outer) id → BoundAll ledger inRoutine (scope :: outer) body →
    y ∉ namesAll body →
    ∃ σ, Spelling.Suits old new scope σ ∧
      CounterpartAll ledger (σ :: Γ) (scope :: outer) body body'
  | _, _, .declare _ _ _, _, _, _, _, spelled, bound, unused =>
      exists_counterpart_declare old new spelled bound unused
  | _, _, .head rest renamed, _, _, scope, outer, spelled, bound, unused => by
      obtain ⟨unusedFirst, unusedRest⟩ := not_mem_append_iff.mp unused
      have first := renamed.counterpart old new rfl spelled bound.1 unusedFirst
      have behind := spelled.behind unusedFirst (kept_same _)
      rw [shadowing_id] at behind
      exact ⟨.same, .inl rfl, .cons first
        (counterpartAll_self new behind bound.2 unusedRest fun s _ => s.kept_same)⟩
  | _, _, .tail s among, _, _, scope, outer, spelled, bound, unused => by
      obtain ⟨boundFirst, boundRest⟩ := bound
      obtain ⟨unusedFirst, unusedRest⟩ := not_mem_append_iff.mp unused
      have behind := spelled.behind unusedFirst (kept_same s)
      obtain ⟨own, same, absent⟩ := s.behind_cons scope outer
      rw [shadowing_id, same] at behind
      rw [same] at boundRest
      obtain ⟨σ, suits, others⟩ := among.exists_counterpart old new behind boundRest unusedRest
      have kept : s.Kept σ := kept_of_suits suits unusedFirst fun none => (absent x none).2
      have suits := suits.mono fun none => (absent x none).1
      rw [← same] at others
      exact ⟨σ, suits,
        .cons (counterpart_self new (spelled.suits suits) boundFirst unusedFirst kept) others⟩

theorem RenamedRoutine.counterpart (old : x ≠ "self") (new : y ≠ "self") :
    ∀ {routine routine' : Routine}, RenamedRoutine x y routine routine' →
    ∀ {Γ : Spellings} {scopes : Scopes}, Spelled x y Γ scopes id → routine.Bound ledger scopes →
    y ∉ namesOf routine.params → y ∉ namesAll routine.body →
    routine.Counterpart ledger Γ scopes routine'
  | _, _, .param name before line after body, _, _, spelled, bound, unusedParams, unusedBody =>
      RoutineOf.counterpart_param old new spelled bound unusedParams unusedBody
  | _, _, .body name params among, _, scopes, spelled, bound, unusedParams, unusedBody => by
      obtain ⟨distinct, boundBody⟩ := bound
      have inner := spelled.shadowParams unusedParams
      obtain ⟨own, same, absent⟩ := paramScopes_cons params [] scopes
      rw [shadowing_id, same] at inner
      rw [same] at boundBody
      obtain ⟨σ, suits, others⟩ := among.exists_counterpart old new inner boundBody unusedBody
      rw [← same] at others
      exact .of_suits spelled suits (fun none => absent x none) distinct unusedParams others

theorem RenamedMethods.counterpart (old : x ≠ "self") (new : y ≠ "self") :
    ∀ {methods methods' : List Routine}, RenamedMethods x y methods methods' →
    ∀ {Γ : Spellings} {scopes : Scopes}, Spelled x y Γ scopes id →
    BoundMethods ledger scopes methods → y ∉ namesMethods methods →
    CounterpartMethods ledger Γ scopes methods methods'
  | ⟨_, _, _⟩ :: _, _, .head rest renamed, _, _, spelled, bound, unused => by
      obtain ⟨boundRoutine, boundRest⟩ := boundMethods_cons.mp bound
      obtain ⟨unused, unusedRest⟩ := not_mem_append_iff.mp unused
      obtain ⟨unusedParams, unusedBody⟩ := not_mem_append_iff.mp unused
      exact .cons (renamed.counterpart old new spelled boundRoutine unusedParams unusedBody)
        (counterpartMethods_self new spelled boundRest unusedRest)
  | _, _, .tail ⟨_, _, _⟩ among, _, _, spelled, bound, unused => by
      obtain ⟨boundRoutine, boundRest⟩ := boundMethods_cons.mp bound
      obtain ⟨unused, unusedRest⟩ := not_mem_append_iff.mp unused
      obtain ⟨unusedParams, unusedBody⟩ := not_mem_append_iff.mp unused
      exact .cons (RoutineOf.counterpart_self new spelled boundRoutine unusedParams unusedBody)
        (among.counterpart old new spelled boundRest unusedRest)

end

end Stmt

/-- A program in which a local variable is renamed is a counterpart outside of all scopes. -/
theorem RenamedLocally.counterpart (old : x ≠ "self") (new : y ≠ "self")
    {program program' : List Stmt} (renamed : RenamedLocally x y program program')
    {inRoutine : Bool} (bound : Stmt.BoundAll ledger inRoutine [] program)
    (unused : y ∉ Stmt.namesAll program) :
    Stmt.CounterpartAll ledger [] [] program program' := by
  have outside : Spelled x y [] [] id := .nil
  induction renamed with
  | @head s s' rest renamed =>
      obtain ⟨unusedFirst, unusedRest⟩ := not_mem_append_iff.mp unused
      obtain ⟨boundFirst, boundRest⟩ := bound
      have first := renamed.counterpart old new rfl outside boundFirst unusedFirst
      rw [s.behind_nil] at boundRest
      refine .cons first ?_
      rw [s.behind_nil]
      exact Stmt.counterpartAll_self new outside boundRest unusedRest fun s _ => s.kept_same
  | tail s _ ih =>
      obtain ⟨unusedFirst, unusedRest⟩ := not_mem_append_iff.mp unused
      obtain ⟨boundFirst, boundRest⟩ := bound
      rw [s.behind_nil] at boundRest
      refine .cons (Stmt.counterpart_self new outside boundFirst unusedFirst s.kept_same) ?_
      rw [s.behind_nil]
      exact ih boundRest unusedRest

/-! ## The name of the variable -/

namespace Stmt

mutual

theorem Renamed.mem_initialized : ∀ {s s' : Stmt}, Renamed x y s s' → x ∈ s.initialized
  | _, _, .block among => among.mem_initialized
  | _, _, .function renamed => renamed.mem_initialized
  | _, _, .thenBody _ none among => among.mem_initialized
  | _, _, .thenBody _ (some _) among => List.mem_append_left _ among.mem_initialized
  | _, _, .elseBody _ _ among => List.mem_append_right _ among.mem_initialized
  | _, _, .counter _ _ _ _ _ => List.mem_append_left _ (List.mem_singleton_self x)
  | _, _, .loopBody _ _ _ among => List.mem_append_right _ among.mem_initialized
  | _, _, .classDef _ renamed => renamed.mem_initialized

theorem RenamedAmong.mem_initialized : ∀ {body body' : List Stmt},
    RenamedAmong x y body body' → x ∈ initializedAll body
  | _, _, .declare _ _ _ => List.mem_append_left _ (List.mem_singleton_self x)
  | _, _, .head _ renamed => List.mem_append_left _ renamed.mem_initialized
  | _, _, .tail _ among => List.mem_append_right _ among.mem_initialized

theorem RenamedRoutine.mem_initialized : ∀ {routine routine' : Routine},
    RenamedRoutine x y routine routine' →
    x ∈ routine.params.map Ident.name ++ initializedAll routine.body
  | _, _, .param _ before line after _ => by
      refine List.mem_append_left _ (List.mem_map.mpr ⟨⟨x, line⟩, ?_, rfl⟩)
      exact List.mem_append_right before List.mem_cons_self
  | _, _, .body _ _ among => List.mem_append_right _ among.mem_initialized

theorem RenamedMethods.mem_initialized : ∀ {methods methods' : List Routine},
    RenamedMethods x y methods methods' → x ∈ initializedMethods methods
  | _, _, .head _ renamed => List.mem_append_left _ renamed.mem_initialized
  | _, _, .tail _ among => List.mem_append_right _ among.mem_initialized

end

end Stmt

theorem RenamedLocally.mem_initialized {program program' : List Stmt}
    (renamed : RenamedLocally x y program program') : x ∈ Stmt.initializedAll program := by
  induction renamed with
  | head _ renamed => exact List.mem_append_left _ renamed.mem_initialized
  | tail _ _ ih => exact List.mem_append_right _ ih

end Rill
