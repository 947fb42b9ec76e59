import Rill.Proofs.Counterpart.Code
import Rill.Proofs.Renaming.Trees
import Mathlib.Logic.Equiv.Basic

/-!
# Scopes under other names

Some scopes call a name `x` by a name `y` that no scope declares. What is mentioned inside is then
found in the same scope as before under the name that it has there: no other scope gets in the way.
-/

namespace Rill

open Scopes (isUndefinedHere_cons)

variable {x y name : String}

/-! ## Spellings -/

namespace Spelling

/-- Apart from `y`, which is not in use, names are spelled as they are, or `x` is spelled `y`. -/
def Replaces (σ : Spelling) (x y : String) : Prop :=
  ∀ name ≠ y, σ.spell name = name ∨ name = x ∧ σ.spell name = y

theorem replaces_same : same.Replaces x y := fun _ _ => .inl rfl

/-- Two names change places. -/
def exchange (x y : String) (old : x ≠ "self") (new : y ≠ "self") : Spelling where
  spell := Equiv.swap x y
  injective equal := (Equiv.swap x y).injective equal
  self_eq := Equiv.swap_apply_of_ne_of_ne old.symm new.symm

theorem exchange_spell_of_ne {old : x ≠ "self"} {new : y ≠ "self"} (ne : name ≠ y) :
    (exchange x y old new).spell name = calling x y name := by
  unfold calling
  split
  · next same =>
      subst same
      exact Equiv.swap_apply_left name y
  · next other => exact Equiv.swap_apply_of_ne_of_ne other ne

theorem replaces_exchange {old : x ≠ "self"} {new : y ≠ "self"} :
    (exchange x y old new).Replaces x y := by
  intro name ne
  rw [exchange_spell_of_ne ne, calling]
  split
  · next same => exact .inr ⟨same, rfl⟩
  · exact .inl rfl

/-- Under two such spellings, different names do not come to be the same. -/
theorem Replaces.eq_of_spell_eq {σ τ : Spelling} {other : String} (first : σ.Replaces x y)
    (second : τ.Replaces x y) (ne : name ≠ y) (ne' : other ≠ y)
    (equal : σ.spell name = τ.spell other) : name = other := by
  rcases first name ne with kept | ⟨rfl, replaced⟩ <;>
    rcases second other ne' with kept' | ⟨rfl, replaced'⟩
  · rwa [kept, kept'] at equal
  · rw [kept, replaced'] at equal
    exact absurd equal ne
  · rw [replaced, kept'] at equal
    exact absurd equal.symm ne'
  · rfl

end Spelling

/-! ## Scopes -/

/-- The names of a scope in some spelling. -/
def Scope.respell (σ : Spelling) (scope : Scope) : Scope :=
  scope.map fun entry => (σ.spell entry.1, entry.2)

/-- The names of all scopes, each in the spelling of its scope. -/
def Scopes.respell (Γ : Spellings) (scopes : Scopes) : Scopes :=
  List.zipWith Scope.respell Γ scopes

namespace Scope

theorem status?_respell (σ : Spelling) (scope : Scope) (name : String) :
    Scope.status? (scope.respell σ) (σ.spell name) = scope.status? name := by
  induction scope with
  | nil => rfl
  | cons entry rest ih =>
      obtain ⟨other, status⟩ := entry
      have same : σ.spell name = σ.spell other ↔ name = other := ⟨σ.injective, congrArg _⟩
      change Scope.status? ((σ.spell other, status) :: Scope.respell σ rest) _ = _
      rw [status?_cons, status?_cons, ih]
      simp only [same]

/-- What a scope does not declare, it does not declare under any name that it is called by. -/
theorem status?_respell_eq_none {σ τ : Spelling} (first : σ.Replaces x y) (second : τ.Replaces x y)
    (ne : name ≠ y) : ∀ {scope : Scope}, scope.status? y = none → scope.status? name = none →
      Scope.status? (scope.respell σ) (τ.spell name) = none
  | [], _, _ => rfl
  | (other, status) :: rest, free, absent => by
      rw [status?_cons] at free absent
      split at free
      · cases free
      split at absent
      · cases absent
      next new different =>
      change Scope.status? ((σ.spell other, status) :: Scope.respell σ rest) _ = _
      rw [status?_cons, if_neg, status?_respell_eq_none first second ne free absent]
      intro equal
      exact different (second.eq_of_spell_eq first ne (Ne.symm new) equal)

end Scope

namespace Scopes

theorem depth?_cons (scope : Scope) (outer : Scopes) (name : String) :
    Scopes.depth? (scope :: outer) name =
      if scope.declares name then some 0 else (Scopes.depth? outer name).map (· + 1) :=
  List.findIdx?_cons

theorem depth?_mark_self (name : String) (status : Status) (scope : Scope) (outer : Scopes) :
    Scopes.depth? (Scopes.mark name status (scope :: outer)) name = some 0 := by
  rw [mark, depth?_cons, Scope.declares, Scope.status?_cons, if_pos rfl]
  rfl

theorem depth?_mark_of_ne {other : String} (ne : other ≠ name) (status : Status)
    (scopes : Scopes) : (scopes.mark name status).depth? other = scopes.depth? other := by
  cases scopes with
  | nil => rfl
  | cons scope outer =>
      rw [mark, depth?_cons, depth?_cons, Scope.declares, Scope.status?_cons, if_neg ne]
      rfl

end Scopes

namespace Spellings

/-- How a name is spelled that is mentioned among scopes. -/
def seen (Γ : Spellings) (scopes : Scopes) (name : String) : Spelling :=
  Γ.bound (scopes.depth? name)

theorem seen_cons (σ : Spelling) (Γ : Spellings) (scope : Scope) (outer : Scopes) (name : String) :
    seen (σ :: Γ) (scope :: outer) name =
      if scope.declares name then σ else Γ.seen outer name := by
  rw [seen, Scopes.depth?_cons]
  split
  · rfl
  · rw [seen]
    cases outer.depth? name <;> rfl

end Spellings

/-- A scope in a spelling does not declare the name that is not in use. -/
structure Scope.Fits (x y : String) (σ : Spelling) (scope : Scope) : Prop where
  replaces : σ.Replaces x y
  free : scope.status? y = none

/-- Scopes fit their spellings, and what is mentioned among them is spelled in some way. -/
structure Spelled (x y : String) (Γ : Spellings) (scopes : Scopes) (ρ : String → String) :
    Prop where
  fits : List.Forall₂ (Scope.Fits x y) Γ scopes
  spell_eq : ∀ name ≠ y, (Γ.seen scopes name).spell name = ρ name

namespace Spelled

variable {Γ : Spellings} {scopes : Scopes} {ρ : String → String}

theorem replaces_seen (fits : List.Forall₂ (Scope.Fits x y) Γ scopes) (name : String) :
    (Γ.seen scopes name).Replaces x y := by
  induction fits with
  | nil => exact Spelling.replaces_same
  | cons here _ ih =>
      rw [Spellings.seen_cons]
      split
      · exact here.replaces
      · exact ih

theorem nil : Spelled x y [] [] id := ⟨.nil, fun _ _ => rfl⟩

/-- Only the names in use matter. -/
theorem congr (spelled : Spelled x y Γ scopes ρ) {ρ' : String → String}
    (same : ∀ name ≠ y, ρ name = ρ' name) : Spelled x y Γ scopes ρ' :=
  ⟨spelled.fits, fun name ne => (spelled.spell_eq name ne).trans (same name ne)⟩

theorem enter (spelled : Spelled x y Γ scopes ρ) {σ : Spelling} (replaces : σ.Replaces x y) :
    Spelled x y (σ :: Γ) ([] :: scopes) ρ where
  fits := .cons ⟨replaces, rfl⟩ spelled.fits
  spell_eq name ne := by
    rw [Spellings.seen_cons]
    exact spelled.spell_eq name ne

/-- The scope of a class around its methods. -/
theorem enterClass (spelled : Spelled x y Γ scopes ρ) (new : y ≠ "self") :
    Spelled x y (.same :: Γ) ([("self", .defined)] :: scopes) ρ where
  fits := by
    refine .cons ⟨Spelling.replaces_same, ?_⟩ spelled.fits
    rw [Scope.status?_cons, if_neg new]
    rfl
  spell_eq name ne := by
    rw [Spellings.seen_cons, Scope.declares, Scope.status?_cons]
    by_cases isSelf : name = "self"
    · subst isSelf
      have kept := spelled.spell_eq "self" ne
      rw [Spelling.self_eq] at kept
      exact kept
    · rw [if_neg isSelf]
      exact spelled.spell_eq name ne

theorem mark (spelled : Spelled x y Γ scopes ρ) (new : name ≠ y) (status : Status) :
    Spelled x y Γ (scopes.mark name status)
      fun other => if other = name then Γ.here.spell other else ρ other := by
  obtain ⟨fits, spell_eq⟩ := spelled
  cases fits with
  | nil =>
      refine ⟨.nil, fun other ne => ?_⟩
      split
      · rfl
      · exact spell_eq other ne
  | @cons σ scope Γ outer here others =>
      refine ⟨.cons ⟨here.replaces, ?_⟩ others, fun other ne => ?_⟩
      · rw [Scope.status?_cons, if_neg (Ne.symm new)]
        exact here.free
      · split
        · next same =>
            subst same
            rw [Spellings.seen, Scopes.depth?_mark_self]
            rfl
        · next different =>
            rw [Spellings.seen, Scopes.depth?_mark_of_ne different]
            exact spell_eq other ne

/-- A name that its scope spells as it is hides an outer one of the same name. -/
theorem shadow (spelled : Spelled x y Γ scopes ρ) (new : name ≠ y)
    (kept : Γ.here.spell name = name) (status : Status) :
    Spelled x y Γ (scopes.mark name status) (shadowing ρ [name]) := by
  refine (spelled.mark new status).congr fun other _ => ?_
  unfold shadowing
  by_cases same : other = name
  · subst same
    simp [kept]
  · simp [same]

/-! ## What is found among scopes -/

/-- A mention finds the scope that it found before. -/
theorem depth?_respell (spelled : Spelled x y Γ scopes ρ) (ne : name ≠ y) :
    (scopes.respell Γ).depth? (ρ name) = scopes.depth? name := by
  obtain ⟨fits, spell_eq⟩ := spelled
  rw [← spell_eq name ne]
  clear spell_eq
  induction fits with
  | nil => rfl
  | @cons σ scope Γ outer here others ih =>
      rw [Spellings.seen_cons]
      change Scopes.depth? (scope.respell σ :: Scopes.respell Γ outer) _ = _
      rw [Scopes.depth?_cons, Scopes.depth?_cons, Scope.declares, Scope.declares]
      cases declared : scope.status? name with
      | some status =>
          rw [Option.isSome_some, if_pos rfl, if_pos rfl, Scope.status?_respell, declared]
          rfl
      | none =>
          have passed := Scope.status?_respell_eq_none here.replaces (replaces_seen others name) ne
            here.free declared
          rw [Option.isSome_none, if_neg Bool.false_ne_true, if_neg Bool.false_ne_true, passed, ih]
          rfl

theorem self_eq (spelled : Spelled x y Γ scopes ρ) (new : y ≠ "self") : ρ "self" = "self" := by
  rw [← spelled.spell_eq "self" new.symm, Spelling.self_eq]

theorem ofMention_respell (spelled : Spelled x y Γ scopes ρ) (ne : name ≠ y) (id : Occurrence) :
    Finding.ofMention (scopes.respell Γ) id (ρ name) = Finding.ofMention scopes id name := by
  rw [Finding.ofMention, spelled.depth?_respell ne, Finding.ofMention]

/-- A variable that is not part of its own first value is not so under its other name. -/
theorem isUndefinedHere_respell (spelled : Spelled x y Γ scopes ρ) (ne : name ≠ y)
    (defined : scopes.isUndefinedHere name = false) :
    (scopes.respell Γ).isUndefinedHere (ρ name) = false := by
  obtain ⟨fits, spell_eq⟩ := spelled
  rw [← spell_eq name ne]
  cases fits with
  | nil => rfl
  | @cons σ scope Γ outer here others =>
      rw [isUndefinedHere_cons] at defined
      change Scopes.isUndefinedHere (scope.respell σ :: Scopes.respell Γ outer) _ = _
      rw [isUndefinedHere_cons, Spellings.seen_cons, Scope.declares]
      cases declared : scope.status? name with
      | some status =>
          rw [Option.isSome_some, if_pos rfl, Scope.status?_respell]
          exact defined
      | none =>
          rw [Option.isSome_none, if_neg Bool.false_ne_true,
            Scope.status?_respell_eq_none here.replaces (replaces_seen others name) ne here.free
              declared]
          exact Option.some_ne_none _ ∘ Eq.symm

theorem declaresHere_respell (spelled : Spelled x y Γ scopes ρ) (name : String) :
    (scopes.respell Γ).declaresHere (Γ.here.spell name) = scopes.declaresHere name := by
  obtain ⟨fits, _⟩ := spelled
  cases fits with
  | nil => rfl
  | @cons σ scope Γ outer _ _ => exact congrArg Option.isSome (Scope.status?_respell σ scope name)

theorem mark_respell (spelled : Spelled x y Γ scopes ρ) (name : String) (status : Status) :
    (scopes.mark name status).respell Γ =
      (scopes.respell Γ).mark (Γ.here.spell name) status := by
  obtain ⟨fits, _⟩ := spelled
  cases fits <;> rfl

/-- A declaration that is the only one stays so under its other name. -/
theorem ofDeclaration_respell (spelled : Spelled x y Γ scopes ρ) {ident ident' : Ident}
    (spells : Γ.here.Spells ident ident') (once : scopes.declaresHere ident.name = false) :
    Finding.ofDeclaration (scopes.respell Γ) ident' = Finding.ofDeclaration scopes ident := by
  rw [Finding.ofDeclaration, spells.name_eq, spelled.declaresHere_respell, Finding.ofDeclaration,
    once]
  rfl

end Spelled

end Rill
