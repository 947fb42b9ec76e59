import Rill.Proofs.Machine.Continuity

/-!
# Code without output

Everything that code does, except for printing, is the same whatever the sink is, and leaves the
sink as it was.
-/

namespace Rill

/-- The machine with another sink. -/
def Machine.withSink (m : Machine) (sink : Sink) : Machine := { m with sink := sink }

/-- The same outcome, except for the machine that is left. -/
def Run.leaving {α : Type} (change : Machine → Machine) :
    EStateM.Result Halt Machine α → EStateM.Result Halt Machine α
  | .ok a m => .ok a (change m)
  | .error halt m => .error halt (change m)

namespace Run

variable {α β : Type}

/-! ## Frames -/

section Ends

variable {x : Run α} {m n : Machine}

theorem inFrame_eq (frame : FrameId) (x : Run α) (m : Machine) :
    inFrame frame x m =
      leaving (fun n => { n with current := m.current }) (x { m with current := frame }) := by
  unfold inFrame
  cases x { m with current := frame } <;> rfl

end Ends

/-! ## Silent code -/

/-- A part of a run has nothing to do with the sink. -/
structure Silent (x : Run α) : Prop where
  apart : ∀ (m : Machine) (sink : Sink), x (m.withSink sink) = leaving (·.withSink sink) (x m)
  no_fault : ∀ (m : Machine) (fault : OutputFault) (n : Machine), x m ≠ .error (.output fault) n

namespace Silent

variable {x : Run α} {f : α → Run β}

theorem pure (a : α) : Silent (Pure.pure a : Run α) := ⟨fun _ _ => rfl, nofun⟩

theorem throw {halt : Halt} (other : ∀ fault, halt ≠ .output fault) :
    Silent (MonadExcept.throw halt : Run α) :=
  ⟨fun _ _ => rfl, fun _ fault _ halted => other fault (by injection halted)⟩

theorem of_change {change : Machine → α × Machine}
    (apart : ∀ (m : Machine) (sink : Sink), change (m.withSink sink) =
      ((change m).1, (change m).2.withSink sink)) :
    Silent (modifyGet change : Run α) where
  apart m sink := by
    change EStateM.modifyGet change _ = leaving _ (EStateM.modifyGet change m)
    unfold EStateM.modifyGet
    rw [apart m sink]
    rfl
  no_fault := nofun

theorem bind (first : x.Silent) (next : ∀ a, (f a).Silent) : (x >>= f).Silent where
  apart m sink := by
    have before := first.apart m sink
    cases ran : x m with
    | ok a n =>
        rw [ran] at before
        rw [bind_of_ok ran, bind_of_ok before]
        exact (next a).apart n sink
    | error halt n =>
        rw [ran] at before
        rw [bind_of_error ran, bind_of_error before]
        rfl
  no_fault m fault n halted := by
    cases ran : x m with
    | ok a k =>
        rw [bind_of_ok ran] at halted
        exact (next a).no_fault k fault n halted
    | error halt k =>
        rw [bind_of_error ran] at halted
        exact first.no_fault m fault k (ran.trans (by cases halted; rfl))

/-- Code that looks at the machine, but not at the sink. -/
theorem read {f : Machine → Run α} (apart : ∀ (m : Machine) (sink : Sink),
    f (m.withSink sink) = f m) (each : ∀ m, (f m).Silent) : (get >>= f).Silent where
  apart m sink := by
    rw [get_bind, get_bind, apart]
    exact (each m).apart m sink
  no_fault m := by
    rw [get_bind]
    exact (each m).no_fault m

theorem sink_eq (silent : x.Silent) (m : Machine) : (Machine.ofResult (x m)).sink = m.sink := by
  have same := silent.apart m m.sink
  change x m = _ at same
  rw [same]
  cases x m <;> rfl

end Silent

theorem refuse_silent (line : Nat) (cause : RuntimeCause) : (refuse line cause : Run α).Silent :=
  .throw nofun

theorem newFrame_silent (enclosing : FrameId) : (newFrame enclosing).Silent :=
  .of_change fun _ _ => rfl

theorem newIdentity_silent : newIdentity.Silent := .of_change fun _ _ => rfl

theorem countHostCall_silent : countHostCall.Silent := .of_change fun _ _ => rfl

theorem defineIn_silent (frame : FrameId) (name : String) (value : Value) :
    (defineIn frame name value).Silent :=
  .of_change fun _ _ => rfl

theorem define_silent (name : String) (value : Value) : (define name value).Silent :=
  .of_change fun _ _ => rfl

theorem lookUp_silent (id : Occurrence) (name : String) (line : Nat) :
    (lookUp id name line).Silent := by
  refine .read (fun _ _ => rfl) fun m => ?_
  split <;> split <;> first | exact .pure _ | exact .throw nofun

theorem assign_silent (id : Occurrence) (name : String) (value : Value) (line : Nat) :
    (assign id name value line).Silent := by
  refine .read (fun _ _ => rfl) fun m => ?_
  split <;> split <;> first | exact defineIn_silent _ _ _ | exact .throw nofun

theorem newObject_silent (c : Class) : (newObject c).Silent :=
  .bind newIdentity_silent fun _ => .bind (.of_change fun _ _ => rfl) fun _ => .pure _

theorem bind_silent (method : Closure) (o : Object) : (Run.bind method o).Silent :=
  .bind (newFrame_silent _) fun _ => .bind (defineIn_silent _ _ _) fun _ =>
    .bind newIdentity_silent fun _ => .pure _

theorem getProperty_silent (o : Object) (name : Ident) : (getProperty o name).Silent := by
  refine .read (fun _ _ => rfl) fun m => ?_
  split
  · exact .pure _
  · split
    · exact .bind (bind_silent _ _) fun _ => .pure _
    · exact refuse_silent _ _

theorem setProperty_silent (o : Object) (name : String) (value : Value) :
    (setProperty o name value).Silent :=
  .of_change fun _ _ => rfl

theorem bindParams_silent (frame : FrameId) (params : List Ident) (values : List Value) :
    (bindParams frame params values).Silent := by
  induction params generalizing values with
  | nil => exact .pure _
  | cons name names ih =>
      cases values with
      | nil => exact .pure _
      | cons value values => exact .bind (defineIn_silent _ _ _) fun _ => ih values

theorem callNative_silent (host : Hosting) (f : Native) (arguments : List Value) (line : Nat) :
    (callNative host f arguments line).Silent := by
  refine .bind countHostCall_silent fun call => ?_
  split
  · exact .pure _
  · exact refuse_silent _ _

theorem operate_silent (line : Nat) (result : Except OperandRule Value) :
    (operate line result).Silent := by
  cases result with
  | ok value => exact .pure _
  | error rule => exact refuse_silent _ _

theorem asObject_silent (line : Nat) (value : Value) : (asObject line value).Silent := by
  cases value with
  | object o => exact .pure _
  | _ => exact refuse_silent _ _

theorem makeMethods_silent (frame : FrameId) (methods : Table Closure)
    (routines : List Routine) : (makeMethods frame methods routines).Silent := by
  induction routines generalizing methods with
  | nil => exact .pure _
  | cons routine rest ih => exact .bind newIdentity_silent fun _ => ih _

end Run

end Rill
