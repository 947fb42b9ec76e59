import Rill.Proofs.Lexical.Evaluation
import Rill.Proofs.Machine.Likeness
import Rill.Proofs.Scope.Bound

/-!
# Frames and locations

A world says how the frames of a machine and the locations of a store belong together: which
location the variable of a frame has, and which variables have had a value. Names in force fit a
stack of scopes in a frame if every name stands for the location of the variable that the scopes
lead to by counting frames outward. Worlds only grow: what fits goes on to fit, whatever frames gain
later on.
-/

namespace Rill.Lexical

/-- How the frames of a machine and the locations of a store belong together. -/
structure World where
  ledger : Ledger
  /-- How many frames there are. -/
  size : Nat
  parent : FrameId → Option FrameId
  /-- The location of the variable that a frame has under a name. -/
  place : FrameId → String → Option Location
  /-- The variable of a frame has had a value. -/
  Filled : FrameId → String → Prop

namespace World

/-- The frame so many frames outward. -/
def ancestor? (w : World) : (depth : Nat) → FrameId → Option FrameId
  | 0, frame => some frame
  | depth + 1, frame => (w.parent frame).bind (w.ancestor? depth)

/--
A world leads to another in which there may be more frames, more code and more values. Of the frames
that there are, only the one that is open may get more variables.
-/
structure LeadsTo (w : World) (opened : Option FrameId) (w' : World) : Prop where
  ledger : w.ledger.Extends w'.ledger
  size_le : w.size ≤ w'.size
  parent_eq : ∀ frame < w.size, w'.parent frame = w.parent frame
  place_eq_some : ∀ {frame name location}, w.place frame name = some location →
    w'.place frame name = some location
  filled : ∀ {frame name}, w.Filled frame name → w'.Filled frame name
  place_eq : ∀ frame < w.size, some frame ≠ opened → w'.place frame = w.place frame

namespace LeadsTo

variable {w w₁ w₂ : World} {opened : Option FrameId}

theorem refl (w : World) (opened : Option FrameId) : w.LeadsTo opened w where
  ledger := .refl _
  size_le := Nat.le_refl _
  parent_eq _ _ := rfl
  place_eq_some same := same
  filled had := had
  place_eq _ _ _ := rfl

theorem trans (former : w.LeadsTo opened w₁) (latter : w₁.LeadsTo opened w₂) :
    w.LeadsTo opened w₂ where
  ledger := former.ledger.trans latter.ledger
  size_le := Nat.le_trans former.size_le latter.size_le
  parent_eq frame old := by
    rw [latter.parent_eq frame (Nat.lt_of_lt_of_le old former.size_le), former.parent_eq frame old]
  place_eq_some same := latter.place_eq_some (former.place_eq_some same)
  filled had := latter.filled (former.filled had)
  place_eq frame old other := by
    rw [latter.place_eq frame (Nat.lt_of_lt_of_le old former.size_le) other,
      former.place_eq frame old other]

/-- It does no harm to have a frame open. -/
theorem weaken (leads : w.LeadsTo none w₁) (opened : Option FrameId) : w.LeadsTo opened w₁ where
  ledger := leads.ledger
  size_le := leads.size_le
  parent_eq := leads.parent_eq
  place_eq_some := leads.place_eq_some
  filled := leads.filled
  place_eq frame old _ := leads.place_eq frame old (by simp)

end LeadsTo

/-! ## Names in force -/

/-- What a name stands for, in force among scopes whose innermost belongs to a frame. -/
def StandsFor (w : World) (frame : FrameId) (scope : Scope) (name : String)
    (location outward : Option Location) : Prop :=
  match scope.status? name with
  | none => location = outward
  | some status => ∃ here, w.place frame name = some here ∧ location = some here ∧
      (status = .defined → w.Filled frame name)

/-- Names in force fit scopes, of which the innermost belongs to a frame. -/
def Fits (w : World) : (scopes : Scopes) → (frame : FrameId) → (env : Env) → Prop
  | [], frame, env => frame = Machine.globals ∧ 0 < w.size ∧ ∀ name : String, env[name]? = none
  | scope :: outer, frame, env => frame < w.size ∧ Scopes.Settled outer ∧ ∃ enclosing outside,
      w.parent frame = some enclosing ∧ w.Fits outer enclosing outside ∧
        ∀ name, w.StandsFor frame scope name env[name]? outside[name]?

/--
What code needs to see: names in force that fit, and no `self` that has yet to get its value.
-/
structure Sees (w : World) (scopes : Scopes) (frame : FrameId) (env : Env) : Prop where
  fits : w.Fits scopes frame env
  self_defined : scopes.isUndefinedHere "self" = false

variable {w w' : World} {opened : Option FrameId} {scopes outer : Scopes} {scope : Scope}
  {frame enclosing : FrameId} {env env' : Env} {name : String} {location : Location}

theorem StandsFor.mono {here outward : Option Location} (leads : w.LeadsTo opened w')
    (stands : w.StandsFor frame scope name here outward) :
    w'.StandsFor frame scope name here outward := by
  unfold StandsFor at *
  cases found : scope.status? name with
  | none =>
      rw [found] at stands
      exact stands
  | some status =>
      rw [found] at stands
      obtain ⟨location, placed, same, filled⟩ := stands
      exact ⟨location, leads.place_eq_some placed, same,
        fun defined => leads.filled (filled defined)⟩

namespace Fits

theorem lt_size (fits : w.Fits scopes frame env) : frame < w.size := by
  cases scopes with
  | nil =>
      obtain ⟨rfl, present, _⟩ := fits
      exact present
  | cons scope outer => exact fits.1

/-- What fits goes on to fit. -/
theorem mono (leads : w.LeadsTo opened w') (fits : w.Fits scopes frame env) :
    w'.Fits scopes frame env := by
  induction scopes generalizing frame env with
  | nil =>
      obtain ⟨rfl, present, absent⟩ := fits
      exact ⟨rfl, Nat.lt_of_lt_of_le present leads.size_le, absent⟩
  | cons scope outer ih =>
      obtain ⟨present, settled, enclosing, outside, parent, fitsOuter, stands⟩ := fits
      refine ⟨Nat.lt_of_lt_of_le present leads.size_le, settled, enclosing, outside, ?_,
        ih fitsOuter, fun name => (stands name).mono leads⟩
      rw [leads.parent_eq frame present, parent]

/-- A name that no scope declares is not in force. -/
theorem getElem?_eq_none (fits : w.Fits scopes frame env)
    (undeclared : scopes.depth? name = none) : env[name]? = none := by
  induction scopes generalizing frame env with
  | nil => exact fits.2.2 name
  | cons scope outer ih =>
      obtain ⟨_, _, enclosing, outside, _, fitsOuter, stands⟩ := fits
      rw [Scopes.depth?, List.findIdx?_cons] at undeclared
      cases found : scope.status? name with
      | some status =>
          rw [Scope.declares, found] at undeclared
          exact absurd undeclared (by simp)
      | none =>
          rw [Scope.declares, found] at undeclared
          have here := stands name
          unfold StandsFor at here
          rw [found] at here
          rw [here]
          exact ih fitsOuter (Option.map_eq_none_iff.mp undeclared)

/-- A name that a scope declares stands for the variable that its depth leads to. -/
theorem exists_owner {depth : Nat} (fits : w.Fits scopes frame env)
    (declared : scopes.depth? name = some depth) :
    ∃ owner location, w.ancestor? depth frame = some owner ∧ w.place owner name = some location ∧
      env[name]? = some location ∧
      (scopes.isUndefinedHere name = false → w.Filled owner name) := by
  induction scopes generalizing frame env depth with
  | nil => cases declared
  | cons scope outer ih =>
      obtain ⟨_, settled, enclosing, outside, parent, fitsOuter, stands⟩ := fits
      have here := stands name
      unfold StandsFor at here
      rw [Scopes.depth?, List.findIdx?_cons, Scope.declares] at declared
      cases found : scope.status? name with
      | some status =>
          rw [found] at here declared
          obtain ⟨location, placed, same, filled⟩ := here
          cases declared
          refine ⟨frame, location, rfl, placed, same, fun known => filled ?_⟩
          have finished := Scopes.isUndefinedHere_cons.mp known
          rw [found] at finished
          cases status with
          | declared => exact absurd rfl finished
          | defined => rfl
      | none =>
          rw [found] at here declared
          obtain ⟨outward, further, rfl⟩ := Option.map_eq_some_iff.mp declared
          obtain ⟨owner, location, reached, placed, same, filled⟩ := ih fitsOuter further
          refine ⟨owner, location, ?_, placed, here.trans same, fun _ => filled (settled name)⟩
          rw [ancestor?, parent]
          exact reached

/-- A name that the innermost scope declares has a variable in the frame itself. -/
theorem place_eq (fits : w.Fits (scope :: outer) frame env)
    (declared : (scope.status? name).isSome) :
    ∃ location, w.place frame name = some location ∧ env[name]? = some location := by
  obtain ⟨_, _, _, _, _, _, stands⟩ := fits
  have here := stands name
  unfold StandsFor at here
  cases found : scope.status? name with
  | none =>
      rw [found] at declared
      cases declared
  | some status =>
      rw [found] at here
      obtain ⟨location, placed, same, _⟩ := here
      exact ⟨location, placed, same⟩

/-- A name in the innermost scope may get a status that its variable bears out. -/
theorem mark {status : Status} (fits : w.Fits (scope :: outer) frame env)
    (placed : w.place frame name = some location)
    (filled : status = .defined → w.Filled frame name)
    (same : ∀ other : String, env'[other]? = if other = name then some location else env[other]?) :
    w.Fits (Scopes.mark name status (scope :: outer)) frame env' := by
  obtain ⟨present, settled, enclosing, outside, parent, fitsOuter, stands⟩ := fits
  refine ⟨present, settled, enclosing, outside, parent, fitsOuter, ?_⟩
  intro other
  have here := stands other
  unfold StandsFor at *
  rw [Scope.status?_cons, same other]
  by_cases equal : other = name
  · subst equal
    rw [if_pos rfl, if_pos rfl]
    exact ⟨location, placed, rfl, filled⟩
  · rw [if_neg equal, if_neg equal]
    exact here

end Fits

theorem Sees.mono (leads : w.LeadsTo opened w') (sees : w.Sees scopes frame env) :
    w'.Sees scopes frame env :=
  ⟨sees.fits.mono leads, sees.self_defined⟩

/-! ## How worlds grow -/

/-- The world with one more frame. -/
def addFrame (w : World) (enclosing : FrameId) : World :=
  { w with
    size := w.size + 1
    parent := fun frame => if frame = w.size then some enclosing else w.parent frame }

/-- The world in which a frame has a variable at a location. -/
def put (w : World) (frame : FrameId) (name : String) (location : Location) : World :=
  { w with
    place := fun other key =>
      if other = frame ∧ key = name then some location else w.place other key }

/-- The world in which the variable of a frame has had a value. -/
def fill (w : World) (frame : FrameId) (name : String) : World :=
  { w with Filled := fun other key => (other = frame ∧ key = name) ∨ w.Filled other key }

theorem place_put (w : World) (frame : FrameId) (name : String) (location : Location) :
    (w.put frame name location).place frame name = some location :=
  if_pos ⟨rfl, rfl⟩

theorem place_put_of_ne {other : FrameId} {key : String} (differs : ¬(other = frame ∧ key = name)) :
    (w.put frame name location).place other key = w.place other key :=
  if_neg differs

theorem leadsTo_addFrame (w : World) (enclosing : FrameId) :
    w.LeadsTo none (w.addFrame enclosing) where
  ledger := .refl _
  size_le := Nat.le_succ _
  parent_eq _ old := if_neg (Nat.ne_of_lt old)
  place_eq_some same := same
  filled had := had
  place_eq _ _ _ := rfl

theorem leadsTo_put (location : Location) (vacant : w.place frame name = none) :
    w.LeadsTo (some frame) (w.put frame name location) where
  ledger := .refl _
  size_le := Nat.le_refl _
  parent_eq _ _ := rfl
  place_eq_some := by
    intro other key found placed
    rw [place_put_of_ne]
    · exact placed
    · rintro ⟨rfl, rfl⟩
      rw [vacant] at placed
      cases placed
  filled had := had
  place_eq other _ closed := by
    funext key
    apply place_put_of_ne
    rintro ⟨rfl, _⟩
    exact closed rfl

theorem leadsTo_fill (w : World) (frame : FrameId) (name : String) :
    w.LeadsTo none (w.fill frame name) where
  ledger := .refl _
  size_le := Nat.le_refl _
  parent_eq _ _ := rfl
  place_eq_some same := same
  filled had := .inr had
  place_eq _ _ _ := rfl

theorem filled_fill (w : World) (frame : FrameId) (name : String) :
    (w.fill frame name).Filled frame name :=
  .inl ⟨rfl, rfl⟩

/-- A frame that was made on the way need not be open to start with. -/
theorem LeadsTo.close (leads : w.LeadsTo (some frame) w') (new : w.size ≤ frame) :
    w.LeadsTo none w' where
  ledger := leads.ledger
  size_le := leads.size_le
  parent_eq := leads.parent_eq
  place_eq_some := leads.place_eq_some
  filled := leads.filled
  place_eq other old _ := by
    refine leads.place_eq other old ?_
    intro same
    cases same
    exact absurd old (Nat.not_lt.mpr new)

/-- A new frame fits a new scope. -/
theorem Fits.enter (fits : w.Fits scopes frame env) (settled : scopes.Settled) :
    (w.addFrame frame).Fits ([] :: scopes) w.size env :=
  ⟨Nat.lt_succ_self _, settled, frame, env, if_pos rfl, fits.mono (w.leadsTo_addFrame frame),
    fun _ => rfl⟩

end World

end Rill.Lexical
