import Rill.Proofs.Machine.Lockstep
import Rill.Proofs.Machine.Variables
import Rill.Proofs.Relabelling.Machines

/-!
# Runs under other identities

A relabelling carries one part of a run to another one if, from machines that agree, the two give
relabelled answers or halt for the same reason, and leave machines that agree. Whatever reads or
changes a machine is carried to itself: nothing that is read of identities is more than whether two
are the same.
-/

namespace Rill

namespace Relabelling

variable {α α' β β' : Type}

/-- One part of a run, which knows identities before some one, is carried to another. -/
def Carries (π : Relabelling) (next : Identity) (related : Identity → α → β → Prop) (x : Run α)
    (y : Run β) : Prop :=
  ∀ m m' : Machine, next ≤ m.nextIdentity → π.Agree m m' →
    EndsAlike
      (fun a n b n' =>
        m.nextIdentity ≤ n.nextIdentity ∧ π.Agree n n' ∧ related n.nextIdentity a b)
      (fun halt n halt' n' => halt = halt' ∧ π.Agree n n') (x m) (y m')

namespace Carries

variable {π : Relabelling} {next later : Identity} {related : Identity → α → β → Prop}
  {between : Identity → α' → β' → Prop} {x : Run α} {y : Run β}

theorem mono (carries : π.Carries next related x y) (le : next ≤ later) :
    π.Carries later related x y :=
  fun m m' le' => carries m m' (Nat.le_trans le le')

theorem pure {a : α} {b : β} (alike : ∀ {later}, next ≤ later → related later a b) :
    π.Carries next related (Pure.pure a) (Pure.pure b) :=
  fun _ _ le agree => .ok ⟨Nat.le_refl _, agree, alike le⟩

theorem throw (halt : Halt) :
    π.Carries next related (MonadExcept.throw halt) (MonadExcept.throw halt) :=
  fun _ _ _ agree => .error ⟨rfl, agree⟩

theorem refuse (line : Nat) (cause : RuntimeCause) :
    π.Carries next related (Run.refuse line cause) (Run.refuse line cause) :=
  throw _

/-- What follows knows the identities that the first parts have given out. -/
theorem bind {x : Run α'} {y : Run β'} {f : α' → Run α} {g : β' → Run β}
    (first : π.Carries next between x y)
    (rest : ∀ {later a b}, next ≤ later → between later a b →
      π.Carries later related (f a) (g b)) :
    π.Carries next related (x >>= f) (y >>= g) := by
  intro m m' le agree
  refine EndsAlike.bind (first m m' le agree) ?_
  rintro a n b n' ⟨before, agree₁, alike⟩
  refine (rest (Nat.le_trans le before) alike n n' (Nat.le_refl _) agree₁).mono ?_ id
  rintro c k c' k' ⟨behind, agree₂, alike'⟩
  exact ⟨Nat.le_trans before behind, agree₂, alike'⟩

/-- Code that looks at the machine. -/
theorem read {f : Machine → Run α} {g : Machine → Run β}
    (each : ∀ {m m' : Machine}, next ≤ m.nextIdentity → π.Agree m m' →
      π.Carries m.nextIdentity related (f m) (g m')) :
    π.Carries next related (get >>= f) (get >>= g) :=
  fun m m' le agree => each le agree m m' (Nat.le_refl _) agree

theorem ite {condition : Prop} [Decidable condition] {x' : Run α} {y' : Run β}
    (yes : π.Carries next related x y) (no : π.Carries next related x' y') :
    π.Carries next related (if condition then x else x') (if condition then y else y') := by
  split
  · exact yes
  · exact no

/-- Another frame is current for a while in both runs. -/
theorem inFrame (frame : FrameId) (body : π.Carries next related x y) :
    π.Carries next related (Run.inFrame frame x) (Run.inFrame frame y) := by
  intro m m' le agree
  have ended := body { m with current := frame } _ le (agree.setCurrent frame)
  unfold Run.inFrame
  rw [← agree.current_eq]
  revert ended
  dsimp only
  generalize x { m with current := frame } = r
  generalize y { m' with current := frame } = r'
  intro ended
  cases ended with
  | ok ended =>
      obtain ⟨behind, agree₁, alike⟩ := ended
      exact .ok ⟨behind, agree₁.setCurrent m.current, alike⟩
  | error ended =>
      obtain ⟨same, agree₁⟩ := ended
      exact .error ⟨same, agree₁.setCurrent m.current⟩

end Carries

end Relabelling

namespace Run

open Relabelling

variable {α β : Type} {π : Relabelling} {next : Identity} {related : Identity → α → β → Prop}
  {v v' : Value}

/-- A value is handed on. -/
theorem return_carries (related : v.Relabelled π next v') :
    π.Carries next (Value.Relabelled π) (pure v) (pure v') :=
  .pure fun le => related.cover (π.covers_of_le le)

/-! ## Frames and variables -/

theorem newFrame_carries (enclosing : FrameId) :
    π.Carries next (fun _ => Eq) (newFrame enclosing) (newFrame enclosing) :=
  fun _ _ _ agree => .ok ⟨Nat.le_refl _, agree.addFrame enclosing, agree.nextId_eq⟩

theorem inNewFrame_carries {x : Run α} {y : Run β} (body : π.Carries next related x y) :
    π.Carries next related (inNewFrame x) (inNewFrame y) := by
  refine .read fun {m m'} le agree => ?_
  rw [← agree.current_eq]
  refine .bind (newFrame_carries m.current) ?_
  rintro later frame _ before rfl
  exact .inFrame frame (body.mono (Nat.le_trans le before))

/-- What is given out during a run is the same in both runs, and so has its own label. -/
theorem newIdentity_carries :
    π.Carries next (fun later i i' => i < later ∧ i' = π.label i) newIdentity newIdentity :=
  fun _ _ _ agree => .ok ⟨Nat.le_succ _, agree.newIdentity, Nat.lt_succ_self _,
    agree.nextIdentity_eq ▸ (π.label_of_le agree.limit_le).symm⟩

theorem countHostCall_carries : π.Carries next (fun _ => Eq) countHostCall countHostCall :=
  fun _ _ _ agree => .ok ⟨Nat.le_refl _, agree.countHostCall, agree.hostCalls_eq⟩

theorem defineIn_carries (frame : FrameId) (name : String) (related : v.Relabelled π next v') :
    π.Carries next (fun _ _ _ => True) (defineIn frame name v) (defineIn frame name v') :=
  fun _ _ le agree => .ok ⟨Nat.le_refl _,
    agree.define frame name (related.cover (π.covers_of_le le)), trivial⟩

theorem define_carries (name : String) (related : v.Relabelled π next v') :
    π.Carries next (fun _ _ _ => True) (define name v) (define name v') := by
  intro m m' le agree
  have after := agree.define m.current name (related.cover (π.covers_of_le le))
  have frames : m'.forest.define m.current name v' = m'.forest.define m'.current name v' := by
    rw [agree.current_eq]
  rw [frames] at after
  exact .ok ⟨Nat.le_refl _, after, trivial⟩

/-- A name is read where it is bound, or from the globals. -/
theorem lookUp_carries (id : Occurrence) (name : String) (line : Nat) :
    π.Carries next (Value.Relabelled π) (lookUp id name line) (lookUp id name line) := by
  intro m m' le agree
  have bound := agree.bindings_eq id
  cases found : m.bindings[id]? with
  | some depth =>
      rw [lookUp, get_bind, get_bind, ← bound, found, ← agree.current_eq]
      dsimp only
      rcases agree.getAt m.current depth name with
        ⟨value, value', here, here', alike⟩ | ⟨breach, broken, broken'⟩
      · rw [here, here']
        exact .ok ⟨Nat.le_refl _, agree, alike⟩
      · rw [broken, broken']
        exact .error ⟨rfl, agree⟩
  | none =>
      rw [found] at bound
      rcases optionRel_cases (agree.slots Machine.globals name) with
        ⟨value, value', here, here', alike⟩ | ⟨absent, absent'⟩
      · rw [lookUp_of_global found here, lookUp_of_global bound.symm here']
        exact .ok ⟨Nat.le_refl _, agree, alike⟩
      · rw [lookUp_of_undefined found absent, lookUp_of_undefined bound.symm absent']
        exact .error ⟨rfl, agree⟩

/-- A name is written where it is bound, or among the globals. -/
theorem assign_carries (id : Occurrence) (name : String) (related : v.Relabelled π next v')
    (line : Nat) :
    π.Carries next (fun _ _ _ => True) (assign id name v line) (assign id name v' line) := by
  intro m m' le agree
  have bound := agree.bindings_eq id
  cases found : m.bindings[id]? with
  | some depth =>
      rw [assign, assign, get_bind, get_bind, ← bound, found, ← agree.current_eq]
      dsimp only
      rw [← agree.ownerAt_eq]
      cases m.forest.ownerAt m.current depth with
      | error breach => exact .error ⟨rfl, agree⟩
      | ok owner => exact defineIn_carries owner name related m m' le agree
  | none =>
      rw [found] at bound
      rcases optionRel_cases (agree.slots Machine.globals name) with
        ⟨old, old', here, here', _⟩ | ⟨absent, absent'⟩
      · rw [assign_of_global found here, assign_of_global bound.symm here']
        exact defineIn_carries Machine.globals name related m m' le agree
      · rw [assign_of_undefined found absent, assign_of_undefined bound.symm absent']
        exact .error ⟨rfl, agree⟩

/-! ## Output -/

theorem write_carries (text : String) :
    π.Carries next (fun _ _ _ => True) (write text) (write text) := by
  intro m m' le agree
  rw [write, get_bind, get_bind, ← agree.sink_eq]
  obtain ⟨sink, fault⟩ := m.sink.write text
  cases fault with
  | none => exact .ok ⟨Nat.le_refl _, agree.setSink sink, trivial⟩
  | some fault => exact .error ⟨rfl, agree.setSink sink⟩

theorem print_carries (related : v.Relabelled π next v') :
    π.Carries next (fun _ _ _ => True) (print v) (print v') := by
  rw [print, print, related.text_eq]
  exact .bind (write_carries _) fun _ _ => write_carries "\n"

theorem flush_carries : π.Carries next (fun _ _ _ => True) flush flush := by
  refine .read fun {m m'} _ agree => ?_
  rw [← agree.sink_eq]
  cases m.sink.flush with
  | none => exact .pure fun _ => trivial
  | some fault => exact .throw _

/-! ## Instances -/

theorem newObject_carries {c c' : Class} (related : c.Relabelled π next c') :
    π.Carries next (Object.Relabelled π) (newObject c) (newObject c') := by
  refine .bind newIdentity_carries ?_
  rintro later identity _ before ⟨given, rfl⟩ m m' le agree
  have made := agree.setFields (Nat.lt_of_lt_of_le given le) tablesRelabelled_empty
  exact .ok ⟨Nat.le_refl _, made, Nat.lt_of_lt_of_le given le, rfl,
    related.cover (π.covers_of_le (Nat.le_trans before le))⟩

/-- A method that is bound to an instance is a function of its own in both runs. -/
theorem bind_carries {method method' : Closure} (methods : method.Relabelled π next method')
    {o o' : Object} (objects : o.Relabelled π next o') :
    π.Carries next (Closure.Relabelled π) (Run.bind method o) (Run.bind method' o') := by
  obtain ⟨_, rfl⟩ := methods
  refine .bind (newFrame_carries method.environment) ?_
  rintro first frame _ before rfl
  refine .bind (defineIn_carries frame "self" (.object (objects.cover (π.covers_of_le before)))) ?_
  rintro second _ _ _ _
  refine .bind newIdentity_carries ?_
  rintro third identity _ _ ⟨given, rfl⟩
  exact .pure fun le => ⟨Nat.lt_of_lt_of_le given le, rfl⟩

theorem getProperty_carries {o o' : Object} (objects : o.Relabelled π next o') (name : Ident) :
    π.Carries next (Value.Relabelled π) (getProperty o name) (getProperty o' name) := by
  refine .read fun {m m'} le agree => ?_
  have objects := objects.cover (π.covers_of_le le)
  rcases optionRel_cases (agree.fieldsOf objects name.name) with
    ⟨value, value', here, here', alike⟩ | ⟨absent, absent'⟩
  · rw [here, here']
    exact return_carries alike
  · rw [absent, absent']
    dsimp only
    rcases optionRel_cases (objects.cls.methods name.name) with
      ⟨method, method', found, found', alike⟩ | ⟨unknown, unknown'⟩
    · rw [found, found']
      exact .bind (bind_carries alike objects) fun _ bound => return_carries (.closure bound)
    · rw [unknown, unknown']
      exact .refuse _ _

theorem setProperty_carries {o o' : Object} (objects : o.Relabelled π next o') (name : String)
    (related : v.Relabelled π next v') :
    π.Carries next (fun _ _ _ => True) (setProperty o name v) (setProperty o' name v') := by
  intro m m' le agree
  have covers := π.covers_of_le le
  have objects := objects.cover covers
  have after := agree.setFields objects.lt
    ((agree.fieldsOf objects).insert name (related.cover covers))
  rw [← objects.identity_eq] at after
  exact .ok ⟨Nat.le_refl _, after, trivial⟩

end Run

end Rill
