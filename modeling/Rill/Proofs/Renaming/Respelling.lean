import Rill.Proofs.Renaming.Counterparts

/-!
# Renamed code has counterparts

Where names are spelled in some way among scopes, respelled code is a counterpart of the code as it
is. A program in which one local variable is renamed consists of code as it is, and, in the scope of
the variable, of respelled code; so it is a counterpart of the program.
-/

namespace Rill

variable {ledger : Ledger} {Γ : Spellings} {scopes : Scopes} {x y : String} {ρ : String → String}
  {σ : Spelling}

/-! ## Behind declarations -/

/-- A statement declares nothing that its scope spells in another way. -/
def Stmt.Kept (σ : Spelling) (s : Stmt) : Prop :=
  ∀ name, s.declared? = some name → σ.spell name = name

theorem Stmt.kept_same (s : Stmt) : s.Kept .same := fun _ _ => rfl

namespace Spelled

/-- Defining a variable behind its first value changes nothing in how names are spelled. -/
theorem shadow_twice (spelled : Spelled x y Γ scopes ρ) {name : String} (new : name ≠ y)
    (kept : Γ.here.spell name = name) :
    Spelled x y Γ ((scopes.mark name .declared).mark name .defined) (shadowing ρ [name]) := by
  refine ((spelled.shadow new kept .declared).shadow new kept .defined).congr fun other _ => ?_
  unfold shadowing
  by_cases same : other ∈ [name]
  · rw [if_pos same, if_pos same]
  · rw [if_neg same]

theorem behind (spelled : Spelled x y Γ scopes ρ) {s : Stmt} (unused : y ∉ s.names)
    (kept : s.Kept Γ.here) :
    Spelled x y Γ (s.behind scopes) (shadowing ρ s.declared?.toList) := by
  have new {name : String} (rest : List String) (unused : y ∉ name :: rest) : name ≠ y :=
    Ne.symm (not_mem_cons_iff.mp unused).1
  cases s with
  | declare name _ => exact spelled.shadow_twice (new _ unused) (kept _ rfl)
  | function routine => exact spelled.shadow (new _ unused) (kept _ rfl) .defined
  | classDef name _ => exact spelled.shadow (new _ unused) (kept _ rfl) .defined
  | branch _ _ elseBody =>
      cases elseBody <;> exact (shadowing_nil ρ).symm ▸ spelled
  | _ => exact (shadowing_nil ρ).symm ▸ spelled

theorem behindParams (spelled : Spelled x y Γ scopes ρ) {params : List Ident}
    (unused : y ∉ namesOf params) :
    Spelled x y Γ (paramScopes scopes params)
      fun other => if other ∈ namesOf params then Γ.here.spell other else ρ other := by
  induction params generalizing scopes ρ with
  | nil => exact spelled.congr fun other _ => (if_neg List.not_mem_nil).symm
  | cons name rest ih =>
      obtain ⟨ne, unused⟩ := not_mem_cons_iff.mp unused
      refine (ih (spelled.mark (Ne.symm ne) .defined) unused).congr fun other _ => ?_
      by_cases same : other = name.name
      · simp [same]
      · simp [same]

/-- The scopes in a routine, when it spells its parameters as they are. -/
theorem shadowParams (spelled : Spelled x y Γ scopes ρ) {params : List Ident}
    (unused : y ∉ namesOf params) :
    Spelled x y (.same :: Γ) (paramScopes ([] :: scopes) params)
      (shadowing ρ (namesOf params)) :=
  (spelled.enter Spelling.replaces_same).behindParams unused

/-- The scope of a loop, when it spells its variable as it is. -/
theorem shadowCounter (spelled : Spelled x y Γ scopes ρ) {counter : Option LoopVar}
    (unused : y ∉ namesOf (LoopVar.identsOption counter)) :
    Spelled x y (.same :: Γ) (counterScopes scopes counter)
      (shadowing ρ (namesOf (LoopVar.identsOption counter))) := by
  have entered := spelled.enter (σ := .same) Spelling.replaces_same
  cases counter with
  | none => exact (shadowing_nil ρ).symm ▸ entered
  | some counter => exact entered.shadow_twice (Ne.symm (not_mem_cons_iff.mp unused).1) rfl

end Spelled

/-! ## Parts of statements -/

/-- A loop variable has a counterpart if its first value has one. -/
theorem LoopVar.CounterpartOption.some (spelled : Spelled x y (σ :: Γ) ([] :: scopes) ρ)
    {name name' : Ident} (spells : σ.Spells name name') {value value' : Expr}
    (inner : value.Counterpart ledger (σ :: Γ) (Scopes.mark name.name .declared ([] :: scopes))
      value') :
    CounterpartOption ledger σ Γ scopes (some ⟨name, value⟩) (some ⟨name', value'⟩) where
  akin := .some ⟨spells, inner.akin⟩
  resolve_eq inClass := by
    have found := inner.findings_eq inClass
    rw [spelled.mark_respell, Spellings.here_cons, ← spells.name_eq] at found
    rw [resolveLoopVar]
    refine Prod.ext ?_ found
    dsimp only
    rw [spells.name_eq]
    rfl

/-- A routine with the same parameters has a counterpart if its body has one. -/
theorem RoutineOf.Counterpart.of_body (spelled : Spelled x y Γ scopes ρ) {name : Ident}
    {params : List Ident} {body body' : List Stmt} (distinct : ParamsDistinct ([] :: scopes) params)
    (unused : y ∉ namesOf params)
    (inner : Stmt.CounterpartAll ledger (.same :: Γ) (paramScopes ([] :: scopes) params) body
      body') :
    RoutineOf.Counterpart ledger Γ scopes ⟨name, params, body⟩ ⟨name, params, body'⟩ :=
  .mk_body (spelled.enter Spelling.replaces_same)
    (List.forall₂_same.mpr fun name _ => Spelling.spells_same name) distinct unused inner

/-! ## Respelled code -/

namespace Stmt

theorem loopVar_respell (spelled : Spelled x y Γ scopes ρ) {counter : Option LoopVar}
    (bound : LoopVar.BoundOption ledger scopes counter)
    (unused : y ∉ namesOf (LoopVar.identsOption counter))
    (unusedValue : y ∉ mentionNames (LoopVar.mentionsOption counter)) :
    LoopVar.CounterpartOption ledger .same Γ scopes counter
      (LoopVar.respellOption (shadowing ρ (namesOf (LoopVar.identsOption counter))) counter) := by
  have entered := spelled.enter (σ := .same) Spelling.replaces_same
  cases counter with
  | none => exact ⟨.none, fun _ => rfl⟩
  | some counter =>
      have new := Ne.symm (not_mem_cons_iff.mp unused).1
      exact .some entered (Spelling.spells_same counter.name)
        (Expr.counterpart_respell (entered.shadow new rfl .declared) bound.2 unusedValue)

mutual

theorem counterpart_respell (new : y ≠ "self") : ∀ {s : Stmt} {inRoutine : Bool}
    {Γ : Spellings} {scopes : Scopes} {ρ : String → String}, Spelled x y Γ scopes ρ →
    s.Bound ledger inRoutine scopes → y ∉ s.names → s.Kept Γ.here →
    s.Counterpart ledger Γ scopes (s.respell ρ)
  | .expression _, _, _, _, _, spelled, bound, unused, _ =>
      .expression (Expr.counterpart_respell spelled bound unused)
  | .print _, _, _, _, _, spelled, bound, unused, _ =>
      .print (Expr.counterpart_respell spelled bound unused)
  | .declare name _, _, _, _, _, spelled, bound, unused, kept => by
      obtain ⟨once, _, bound⟩ := bound
      obtain ⟨ne, unused⟩ := not_mem_cons_iff.mp unused
      have same := kept _ rfl
      have marked := spelled.shadow (Ne.symm ne) same .declared
      exact .declare spelled (Ne.symm ne) ⟨same.symm, rfl⟩ once
        (Expr.counterpartOption_respell marked bound unused)
  | .block _, _, _, _, _, spelled, bound, unused, _ =>
      .block (counterpartAll_respell new (spelled.enter Spelling.replaces_same) bound unused
        fun s _ => s.kept_same)
  | .function ⟨name, params, _⟩, _, _, _, _, spelled, bound, unused, kept => by
      obtain ⟨once, distinct, bound⟩ := bound
      obtain ⟨ne, unused⟩ := not_mem_cons_iff.mp unused
      obtain ⟨unusedParams, unusedBody⟩ := not_mem_append_iff.mp unused
      have around := spelled.shadow (Ne.symm ne) (kept _ rfl) .defined
      have inner := counterpartAll_respell new (around.shadowParams unusedParams) bound unusedBody
        fun s _ => s.kept_same
      exact .function spelled (kept _ rfl) once (.of_body around distinct unusedParams inner)
  | .branch _ _ none, _, _, _, _, spelled, bound, unused, _ => by
      obtain ⟨unusedCondition, unusedThen⟩ := not_mem_append_iff.mp unused
      exact .branch (Expr.counterpart_respell spelled bound.1 unusedCondition)
        (counterpartAll_respell new (spelled.enter Spelling.replaces_same) bound.2.1 unusedThen
          fun s _ => s.kept_same)
  | .branch _ _ (some _), _, _, _, _, spelled, bound, unused, _ => by
      obtain ⟨unusedCondition, unusedThen, unusedElse⟩ := not_mem_names_branch.mp unused
      have entered := spelled.enter (σ := .same) Spelling.replaces_same
      exact .branchElse (Expr.counterpart_respell spelled bound.1 unusedCondition)
        (counterpartAll_respell new entered bound.2.1 unusedThen fun s _ => s.kept_same)
        (counterpartAll_respell new entered bound.2.2 unusedElse fun s _ => s.kept_same)
  | .loop counter _ _ _, _, _, _, _, spelled, bound, unused, _ => by
      obtain ⟨boundCounter, boundCondition, boundIncrement, boundBody⟩ := bound
      obtain ⟨unusedName, unusedValue, unusedCondition, unusedIncrement, unusedBody⟩ :=
        not_mem_names_loop.mp unused
      have inner := spelled.shadowCounter unusedName
      exact .loop (loopVar_respell spelled boundCounter unusedName unusedValue)
        (Expr.counterpartOption_respell inner boundCondition unusedCondition)
        (Expr.counterpartOption_respell inner boundIncrement unusedIncrement)
        (counterpartAll_respell new (inner.enter Spelling.replaces_same) boundBody unusedBody
          fun s _ => s.kept_same)
  | .exit line _, _, _, _, _, spelled, bound, unused, _ =>
      .exit line (Expr.counterpartOption_respell spelled bound.2 unused)
  | .classDef name _, _, _, _, _, spelled, bound, unused, kept => by
      obtain ⟨once, bound⟩ := bound
      obtain ⟨ne, unused⟩ := not_mem_cons_iff.mp unused
      have around := spelled.shadow (Ne.symm ne) (kept _ rfl) .defined
      exact .classDef spelled (kept _ rfl) once
        (counterpartMethods_respell new (around.enterClass new) bound unused)

theorem counterpartAll_respell (new : y ≠ "self") : ∀ {body : List Stmt} {inRoutine : Bool}
    {Γ : Spellings} {scopes : Scopes} {ρ : String → String}, Spelled x y Γ scopes ρ →
    BoundAll ledger inRoutine scopes body → y ∉ namesAll body → (∀ s ∈ body, s.Kept Γ.here) →
    CounterpartAll ledger Γ scopes body (respellAll ρ body)
  | [], _, _, _, _, _, _, _, _ => .nil
  | _ :: _, _, _, _, _, spelled, bound, unused, kept => by
      obtain ⟨unusedFirst, unusedRest⟩ := not_mem_append_iff.mp unused
      obtain ⟨keptFirst, keptRest⟩ := List.forall_mem_cons.mp kept
      exact .cons (counterpart_respell new spelled bound.1 unusedFirst keptFirst)
        (counterpartAll_respell new (spelled.behind unusedFirst keptFirst) bound.2 unusedRest
          keptRest)

theorem counterpartMethods_respell (new : y ≠ "self") : ∀ {methods : List Routine}
    {Γ : Spellings} {scopes : Scopes} {ρ : String → String}, Spelled x y Γ scopes ρ →
    BoundMethods ledger scopes methods → y ∉ namesMethods methods →
    CounterpartMethods ledger Γ scopes methods (respellMethods ρ methods)
  | [], _, _, _, _, _, _ => .nil
  | ⟨_, params, _⟩ :: _, _, _, _, spelled, bound, unused => by
      obtain ⟨distinct, boundBody, boundRest⟩ := bound
      obtain ⟨unused, unusedRest⟩ := not_mem_append_iff.mp unused
      obtain ⟨unusedParams, unusedBody⟩ := not_mem_append_iff.mp unused
      have inner := counterpartAll_respell new (spelled.shadowParams unusedParams) boundBody
        unusedBody fun s _ => s.kept_same
      exact .cons (.of_body spelled distinct unusedParams inner)
        (counterpartMethods_respell new spelled boundRest unusedRest)

end

end Stmt

/-! ## Code as it is -/

theorem Expr.counterpart_self (spelled : Spelled x y Γ scopes id) {e : Expr}
    (bound : e.Bound ledger scopes) (unused : y ∉ mentionNames e.mentions) :
    Expr.Counterpart ledger Γ scopes e e := by
  have respelled := Expr.counterpart_respell spelled bound unused
  rwa [e.respell_id] at respelled

theorem Expr.counterpartOption_self (spelled : Spelled x y Γ scopes id) {value : Option Expr}
    (bound : Expr.BoundOption ledger scopes value)
    (unused : y ∉ mentionNames (Expr.mentionsOption value)) :
    Expr.CounterpartOption ledger Γ scopes value value := by
  have respelled := Expr.counterpartOption_respell spelled bound unused
  rwa [Expr.respellOption_id] at respelled

namespace Stmt

theorem counterpart_self (new : y ≠ "self") (spelled : Spelled x y Γ scopes id) {s : Stmt}
    {inRoutine : Bool} (bound : s.Bound ledger inRoutine scopes) (unused : y ∉ s.names)
    (kept : s.Kept Γ.here) : s.Counterpart ledger Γ scopes s := by
  have respelled := counterpart_respell new spelled bound unused kept
  rwa [s.respell_id] at respelled

theorem counterpartAll_self (new : y ≠ "self") (spelled : Spelled x y Γ scopes id)
    {body : List Stmt} {inRoutine : Bool} (bound : BoundAll ledger inRoutine scopes body)
    (unused : y ∉ namesAll body) (kept : ∀ s ∈ body, s.Kept Γ.here) :
    CounterpartAll ledger Γ scopes body body := by
  have respelled := counterpartAll_respell new spelled bound unused kept
  rwa [respellAll_id] at respelled

theorem counterpartMethods_self (new : y ≠ "self") (spelled : Spelled x y Γ scopes id)
    {methods : List Routine} (bound : BoundMethods ledger scopes methods)
    (unused : y ∉ namesMethods methods) :
    CounterpartMethods ledger Γ scopes methods methods := by
  have respelled := counterpartMethods_respell new spelled bound unused
  rwa [respellMethods_id] at respelled

end Stmt

end Rill
