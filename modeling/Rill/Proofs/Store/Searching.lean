import Mathlib.Order.Bounds.Defs
import Rill.Proofs.Store.Links

/-!
# Searching and going outward

A variable is found by searching outward from a frame, or in the frame a known number of frames
outward. In every forest that can be built, to search for a name is to go outward as far as the
nearest frame that has it, however far that is. So a value that is written is what is seen from
exactly those frames whose nearest frame with the name is the one it was written to.
-/

namespace Rill

namespace Forest

/-! ## The nearest frame with a name -/

section Nearest

variable (forest : Forest) (name : String) (frame : FrameId)

/-- The frame so many frames outward has a name. -/
def HasAt (depth : Nat) : Prop :=
  ∃ owner, forest.ancestor? depth frame = some owner ∧ (forest.slot? owner name).isSome

/-- The nearest frame that has a name is so many frames outward. -/
def Nearest (depth : Nat) : Prop := IsLeast {depth | forest.HasAt name frame depth} depth

/-- Going outward, a name is first met in some frame. -/
def Meets (owner : FrameId) : Prop :=
  ∃ depth, forest.Nearest name frame depth ∧ forest.ancestor? depth frame = some owner

variable {forest name frame} {depth : Nat} {outer owner : FrameId}

theorem hasAt_zero : forest.HasAt name frame 0 ↔ (forest.slot? frame name).isSome := by
  simp [HasAt, ancestor?]

theorem hasAt_succ (encloses : forest.enclosing? frame = some outer) :
    forest.HasAt name frame (depth + 1) ↔ forest.HasAt name outer depth := by
  simp [HasAt, ancestor?, encloses]

theorem not_hasAt_succ (ends : forest.enclosing? frame = none) :
    ¬ forest.HasAt name frame (depth + 1) := by
  simp [HasAt, ancestor?, ends]

theorem meets_self (here : (forest.slot? frame name).isSome) :
    forest.Meets name frame owner ↔ owner = frame := by
  constructor
  · rintro ⟨depth, nearest, reached⟩
    obtain rfl : depth = 0 := Nat.le_zero.mp (nearest.2 (hasAt_zero.mpr here))
    exact (Option.some.inj reached).symm
  · rintro rfl
    exact ⟨0, ⟨hasAt_zero.mpr here, fun _ _ => Nat.zero_le _⟩, rfl⟩

theorem nearest_succ (absent : ¬ (forest.slot? frame name).isSome)
    (encloses : forest.enclosing? frame = some outer) :
    forest.Nearest name frame (depth + 1) ↔ forest.Nearest name outer depth := by
  constructor
  · rintro ⟨has, least⟩
    refine ⟨(hasAt_succ encloses).mp has, fun other has' => ?_⟩
    exact Nat.le_of_succ_le_succ (least ((hasAt_succ encloses).mpr has'))
  · rintro ⟨has, least⟩
    refine ⟨(hasAt_succ encloses).mpr has, fun other has' => ?_⟩
    cases other with
    | zero => exact absurd (hasAt_zero.mp has') absent
    | succ other => exact Nat.succ_le_succ (least ((hasAt_succ encloses).mp has'))

theorem meets_outer (absent : ¬ (forest.slot? frame name).isSome)
    (encloses : forest.enclosing? frame = some outer) :
    forest.Meets name frame owner ↔ forest.Meets name outer owner := by
  constructor
  · rintro ⟨depth, nearest, reached⟩
    cases depth with
    | zero => exact absurd (hasAt_zero.mp nearest.1) absent
    | succ depth =>
        rw [ancestor?, encloses] at reached
        exact ⟨depth, (nearest_succ absent encloses).mp nearest, reached⟩
  · rintro ⟨depth, nearest, reached⟩
    refine ⟨depth + 1, (nearest_succ absent encloses).mpr nearest, ?_⟩
    rw [ancestor?, encloses]
    exact reached

theorem not_meets (absent : ¬ (forest.slot? frame name).isSome)
    (ends : forest.enclosing? frame = none) : ¬ forest.Meets name frame owner := by
  rintro ⟨depth, nearest, -⟩
  cases depth with
  | zero => exact absent (hasAt_zero.mp nearest.1)
  | succ depth => exact not_hasAt_succ ends nearest.1

end Nearest

/-! ## Searching -/

namespace Linked

variable {outermost : List FrameId} {forest : Forest} {name : String} {frame owner : FrameId}

/-- A search through more frames than were made before a frame finds what there is to be found. -/
theorem locateWithin_eq (linked : forest.Linked outermost) {frames : Nat}
    (enough : frame < frames) :
    forest.locateWithin name frames frame = forest.locate? name frame := by
  induction frame using Nat.strongRecOn generalizing frames with
  | ind frame ih =>
      obtain ⟨frames, rfl⟩ := Nat.exists_eq_add_one_of_ne_zero (Nat.ne_zero_of_lt enough)
      rw [locate?, locateWithin, locateWithin]
      cases encloses : forest.enclosing? frame with
      | none => rfl
      | some outer =>
          have less := linked.earlier encloses
          have further : outer < frames := Nat.lt_of_lt_of_le less (Nat.le_of_lt_succ enough)
          simp only [ih outer less further, ih outer less less]

/-- A search looks in a frame itself, and then goes on from the frame that encloses it. -/
theorem locate?_eq (linked : forest.Linked outermost) (name : String) (frame : FrameId) :
    forest.locate? name frame =
      if (forest.slot? frame name).isSome then some frame
      else (forest.enclosing? frame).bind (forest.locate? name) := by
  rw [locate?, locateWithin]
  cases encloses : forest.enclosing? frame with
  | none => rfl
  | some outer => simp only [Option.bind_some, linked.locateWithin_eq (linked.earlier encloses)]

/-- What is found by searching is the frame where the name is first met on the way outward. -/
theorem locate?_eq_some_iff (linked : forest.Linked outermost) :
    forest.locate? name frame = some owner ↔ forest.Meets name frame owner := by
  induction frame using Nat.strongRecOn with
  | ind frame ih =>
      rw [linked.locate?_eq]
      by_cases here : (forest.slot? frame name).isSome
      · rw [if_pos here, meets_self here, Option.some.injEq]
        exact eq_comm
      · rw [if_neg here]
        cases encloses : forest.enclosing? frame with
        | none => simpa using not_meets here encloses
        | some outer =>
            rw [Option.bind_some, meets_outer here encloses]
            exact ih outer (linked.earlier encloses)

theorem locate?_of_nearest (linked : forest.Linked outermost) {depth : Nat}
    (nearest : forest.Nearest name frame depth) :
    ∃ owner value, forest.ancestor? depth frame = some owner ∧
      forest.slot? owner name = some value ∧ forest.locate? name frame = some owner := by
  obtain ⟨owner, reached, has⟩ := nearest.1
  obtain ⟨value, found⟩ := Option.isSome_iff_exists.mp has
  exact ⟨owner, value, reached, found, linked.locate?_eq_some_iff.mpr ⟨depth, nearest, reached⟩⟩

theorem locate?_eq_none (linked : forest.Linked outermost)
    (nowhere : ¬ ∃ depth, forest.Nearest name frame depth) : forest.locate? name frame = none := by
  cases located : forest.locate? name frame with
  | none => rfl
  | some owner =>
      obtain ⟨depth, nearest, -⟩ := linked.locate?_eq_some_iff.mp located
      exact absurd ⟨depth, nearest⟩ nowhere

theorem get_eq_getAt (linked : forest.Linked outermost) {depth : Nat}
    (nearest : forest.Nearest name frame depth) (line : Nat) :
    ∃ value, forest.get frame name line = .ok value ∧
      forest.getAt frame depth name = .ok value := by
  obtain ⟨owner, value, reached, found, located⟩ := linked.locate?_of_nearest nearest
  exact ⟨value, by rw [get, located, Option.bind_some, found], getAt_of_ancestor? reached found⟩

theorem assign_of_meets (linked : forest.Linked outermost)
    (meets : forest.Meets name frame owner) (value : Value) (line : Nat) :
    forest.assign frame name value line = .ok (forest.define owner name value) := by
  rw [assign, Forest.owner, linked.locate?_eq_some_iff.mpr meets]
  rfl

/-! ## Writing and searching -/

variable {key : String} {other : FrameId}

/-- A name that is found elsewhere after a write was found there before. -/
theorem locate?_define (linked : forest.Linked outermost) (present : owner < forest.frames.size)
    {value : Value}
    (elsewhere :
      ¬ (key = name ∧ (forest.define owner name value).locate? name other = some owner)) :
    (forest.define owner name value).locate? key other = forest.locate? key other := by
  induction other using Nat.strongRecOn with
  | ind other ih =>
      have linked' := linked.define owner name value
      rw [linked'.locate?_eq] at elsewhere
      rw [linked'.locate?_eq, linked.locate?_eq, slot?_define _ _ _ _ present,
        enclosing?_define]
      rw [slot?_define _ _ _ _ present, enclosing?_define] at elsewhere
      by_cases there : other = owner ∧ key = name
      · simp [there] at elsewhere
      · rw [if_neg there]
        by_cases here : (forest.slot? other key).isSome
        · rw [if_pos here, if_pos here]
        · rw [if_neg here, if_neg here]
          cases encloses : forest.enclosing? other with
          | none => rfl
          | some outer =>
              refine ih outer (linked.earlier encloses) fun ⟨same, located⟩ => elsewhere ⟨same, ?_⟩
              subst same
              rw [if_neg there, if_neg here, encloses]
              exact located

/-- What is written is seen from every frame that first meets the name where it was written. -/
theorem get_define_of_meets (linked : forest.Linked outermost)
    (present : owner < forest.frames.size) {value : Value}
    (meets : (forest.define owner name value).Meets name other owner) (line : Nat) :
    (forest.define owner name value).get other name line = .ok value := by
  have located := (linked.define owner name value).locate?_eq_some_iff.mpr meets
  rw [get, located, Option.bind_some, slot?_define _ _ _ _ present, if_pos ⟨rfl, rfl⟩]

/-- Nothing else that is seen from anywhere changes by a write. -/
theorem get_define_of_not_meets (linked : forest.Linked outermost)
    (present : owner < forest.frames.size) {value : Value}
    (unseen : ¬ (key = name ∧ (forest.define owner name value).Meets name other owner))
    (line : Nat) :
    (forest.define owner name value).get other key line = forest.get other key line := by
  have elsewhere : ¬ (key = name ∧
      (forest.define owner name value).locate? name other = some owner) := by
    rwa [(linked.define owner name value).locate?_eq_some_iff]
  have same := linked.locate?_define present elsewhere
  rw [get, get, same]
  cases found : forest.locate? key other with
  | none => rfl
  | some place =>
      rw [Option.bind_some, Option.bind_some, slot?_define _ _ _ _ present, if_neg]
      rintro ⟨rfl, rfl⟩
      exact elsewhere ⟨rfl, same.trans found⟩

end Linked

/-! ## Forests that are built -/

/-- What a holder of frames can do with them. -/
inductive Access
  /-- Makes a frame that no other encloses. -/
  | new
  /-- Makes a frame inside another. -/
  | child (enclosing : FrameId)
  | define (frame : FrameId) (name : String) (value : Value)
  | get (frame : FrameId) (name : String) (line : Nat)
  | assign (frame : FrameId) (name : String) (value : Value) (line : Nat)
  | getAt (frame : FrameId) (depth : Nat) (name : String)
  | assignAt (frame : FrameId) (depth : Nat) (name : String) (value : Value)

namespace Access

/-- Hands on what is read. -/
def read {ε : Type} (halt : ε → Halt) : Except ε Value → EStateM Halt Forest (Option Value)
  | .ok value => return some value
  | .error fault => throw (halt fault)

/-- Goes on with the frames as they were written to. -/
def write {ε : Type} (halt : ε → Halt) : Except ε Forest → EStateM Halt Forest (Option Value)
  | .ok later => do
    set later
    return none
  | .error fault => throw (halt fault)

/-- What an access does to the frames, and the value that it reads. -/
def run (access : Access) : EStateM Halt Forest (Option Value) := do
  let forest ← MonadState.get
  match access with
  | .new => write .fault (.ok (forest.add none))
  | .child enclosing => write .fault (.ok (forest.add (some enclosing)))
  | .define frame name value => write .fault (.ok (forest.define frame name value))
  | .get frame name line => read .fault (forest.get frame name line)
  | .assign frame name value line => write .fault (forest.assign frame name value line)
  | .getAt frame depth name => read .breach (forest.getAt frame depth name)
  | .assignAt frame depth name value => write .breach (forest.assignAt frame depth name value)

/-- The frame that is enclosed or looked at is there: a holder can only have got hold of such. -/
def Allowed (forest : Forest) : Access → Prop
  | .new => True
  | .child frame | .define frame _ _ | .get frame _ _ | .assign frame _ _ _ | .getAt frame _ _
  | .assignAt frame _ _ _ => frame < forest.frames.size

/-- An access writes a value under a name. -/
def Writes (name : String) (value : Value) : Access → Prop
  | .define _ key written | .assign _ key written _ | .assignAt _ _ key written =>
    key = name ∧ written = value
  | .new | .child _ | .get _ _ _ | .getAt _ _ _ => False

/-- A write goes to the slot of a name in a frame, which may be new to the frame. -/
inductive WritesTo (forest : Forest) : Access → FrameId → String → Value → Prop
  | define (frame : FrameId) (name : String) (value : Value) :
      WritesTo forest (.define frame name value) frame name value
  | assign {frame owner : FrameId} {name : String} (value : Value) (line : Nat) :
      forest.Meets name frame owner →
      WritesTo forest (.assign frame name value line) owner name value
  | assignAt {frame owner : FrameId} {depth : Nat} (name : String) (value : Value) :
      forest.ancestor? depth frame = some owner →
      WritesTo forest (.assignAt frame depth name value) owner name value

end Access

/-- The state that is left, whether or not something went wrong. -/
def left {α : Type} : EStateM.Result Halt Forest α → Forest
  | .ok _ forest | .error _ forest => forest

/-- A forest comes from nothing by accesses, some of which may have failed. -/
inductive Built : Forest → Prop
  | empty : Built empty
  | step {forest : Forest} (access : Access) :
      Built forest → access.Allowed forest → Built (left (access.run forest))

/-! ## What accesses leave -/

namespace Access

variable {outermost : List FrameId} {forest later : Forest} {access : Access} {owner : FrameId}
  {name : String} {value : Value}

theorem left_read {ε : Type} (halt : ε → Halt) (reading : Except ε Value) (forest : Forest) :
    left (read halt reading forest) = forest := by
  cases reading <;> rfl

/-- Frames stay linked by all that is done with them. -/
theorem linked_run (linked : forest.Linked outermost) (allowed : access.Allowed forest) :
    ∃ outermost, (left (access.run forest)).Linked outermost := by
  cases access with
  | new => exact ⟨_, linked.add_none⟩
  | child enclosing => exact ⟨_, linked.add_some allowed⟩
  | define frame name value => exact ⟨_, linked.define frame name value⟩
  | get frame name line =>
      have same : left (run (.get frame name line) forest) = forest := left_read _ _ _
      exact ⟨outermost, by rwa [same]⟩
  | getAt frame depth name =>
      have same : left (run (.getAt frame depth name) forest) = forest := left_read _ _ _
      exact ⟨outermost, by rwa [same]⟩
  | assign frame name value line =>
      refine ⟨outermost, ?_⟩
      change (left (write .fault (forest.assign frame name value line) forest)).Linked outermost
      rw [Forest.assign]
      cases forest.owner frame name line with
      | error fault => exact linked
      | ok owner => exact linked.define owner name value
  | assignAt frame depth name value =>
      refine ⟨outermost, ?_⟩
      change (left (write .breach (forest.assignAt frame depth name value) forest)).Linked outermost
      rw [Forest.assignAt]
      cases forest.ownerAt frame depth with
      | error breach => exact linked
      | ok owner => exact linked.define owner name value

/-- An access that fails leaves the frames as they are. -/
theorem eq_of_run_eq_error {halt : Halt} (failed : access.run forest = .error halt later) :
    later = forest := by
  have of_read {ε : Type} {halts : ε → Halt} {reading : Except ε Value}
      (failed : read halts reading forest = .error halt later) : later = forest := by
    cases reading <;> cases failed
    rfl
  have of_write {ε : Type} {halts : ε → Halt} {writing : Except ε Forest}
      (failed : write halts writing forest = .error halt later) : later = forest := by
    cases writing <;> cases failed
    rfl
  cases access with
  | new | child | define => cases failed
  | get | getAt => exact of_read failed
  | assign | assignAt => exact of_write failed

/-- A write that succeeds gives the name a value in the frame that it goes to. -/
theorem exists_writesTo (linked : forest.Linked outermost) (writes : access.Writes name value)
    {read : Option Value} (ran : access.run forest = .ok read later) :
    ∃ owner, access.WritesTo forest owner name value ∧
      later = forest.define owner name value := by
  have of_write {ε : Type} {halts : ε → Halt} {writing : Except ε Forest}
      (ran : write halts writing forest = .ok read later) : writing = .ok later := by
    cases writing <;> cases ran
    rfl
  cases access with
  | define frame =>
      obtain ⟨rfl, rfl⟩ := writes
      cases ran
      exact ⟨frame, .define frame _ _, rfl⟩
  | assign frame _ _ line =>
      obtain ⟨rfl, rfl⟩ := writes
      have assigned : forest.assign frame _ _ line = .ok later := of_write ran
      rw [Forest.assign, Forest.owner] at assigned
      cases located : forest.locate? _ frame with
      | none => rw [located] at assigned; cases assigned
      | some owner =>
          rw [located] at assigned
          cases assigned
          exact ⟨owner, .assign _ line (linked.locate?_eq_some_iff.mp located), rfl⟩
  | assignAt frame depth =>
      obtain ⟨rfl, rfl⟩ := writes
      have assigned : forest.assignAt frame depth _ _ = .ok later := of_write ran
      rw [Forest.assignAt, Forest.ownerAt] at assigned
      cases reached : forest.ancestor? depth frame with
      | none => rw [reached] at assigned; cases assigned
      | some owner =>
          rw [reached] at assigned
          cases assigned
          exact ⟨owner, .assignAt _ _ reached, rfl⟩
  | new | child | get | getAt => exact writes.elim

/-- Where a write goes, there is a frame. -/
theorem owner_lt (linked : forest.Linked outermost) (allowed : access.Allowed forest)
    (writes : access.WritesTo forest owner name value) : owner < forest.frames.size := by
  have outward {frame : FrameId} {depth : Nat} (present : frame < forest.frames.size)
      (reached : forest.ancestor? depth frame = some owner) : owner < forest.frames.size :=
    Nat.lt_of_le_of_lt (Nat.le_of_add_right_le (linked.add_depth_le reached)) present
  cases writes with
  | define => exact allowed
  | assign _ _ meets =>
      obtain ⟨depth, -, reached⟩ := meets
      exact outward allowed reached
  | assignAt _ _ reached => exact outward allowed reached

end Access

theorem Built.exists_linked {forest : Forest} (built : forest.Built) :
    ∃ outermost, forest.Linked outermost := by
  induction built with
  | empty =>
      exact ⟨[], fun encloses => (nomatch encloses), fun there => absurd there (Nat.not_lt_zero _)⟩
  | step access _ allowed ih =>
      obtain ⟨outermost, linked⟩ := ih
      exact Access.linked_run linked allowed

/--
Searching and going outward agree. In every forest that can be built, to read or to assign to a name
by searching is to do so at the least depth at which the frames outward have it, and without such a
depth both fail and say which name is undefined. What a write that succeeds has written is seen from
exactly those frames from which the name is first met in the frame that was written to, even if the
name is new there, and nothing else that is seen from anywhere changes. What fails changes nothing.
-/
theorem searching_is_going_outward {forest : Forest} (built : forest.Built) (frame : FrameId)
    (name : String) (value : Value) (line : Nat) :
    (∀ depth, forest.Nearest name frame depth →
      (∃ found, forest.get frame name line = .ok found ∧
        forest.getAt frame depth name = .ok found) ∧
      ∃ later, forest.assign frame name value line = .ok later ∧
        forest.assignAt frame depth name value = .ok later) ∧
    ((¬ ∃ depth, forest.Nearest name frame depth) →
      forest.get frame name line = .error ⟨line, .undefinedVariable name⟩ ∧
      forest.assign frame name value line = .error ⟨line, .undefinedVariable name⟩) ∧
    (∀ access : Access, access.Allowed forest → access.Writes name value →
      ∀ read later, access.run forest = .ok read later →
        ∃ owner, access.WritesTo forest owner name value ∧
          ∀ other key line,
            (key = name ∧ later.Meets name other owner → later.get other key line = .ok value) ∧
            (¬ (key = name ∧ later.Meets name other owner) →
              later.get other key line = forest.get other key line)) ∧
    (∀ access : Access, ∀ halt later, access.run forest = .error halt later → later = forest) := by
  obtain ⟨outermost, linked⟩ := built.exists_linked
  refine ⟨?_, ?_, ?_, fun access halt later => Access.eq_of_run_eq_error⟩
  · intro depth nearest
    refine ⟨linked.get_eq_getAt nearest line, ?_⟩
    obtain ⟨owner, reached, -⟩ := nearest.1
    refine ⟨forest.define owner name value,
      linked.assign_of_meets ⟨depth, nearest, reached⟩ value line, ?_⟩
    rw [assignAt, ownerAt_of_ancestor? reached]
    rfl
  · intro nowhere
    have unlocated := linked.locate?_eq_none nowhere
    refine ⟨by rw [get, unlocated]; rfl, ?_⟩
    rw [assign, Forest.owner, unlocated]
    rfl
  · intro access allowed writes read later ran
    obtain ⟨owner, goes, rfl⟩ := Access.exists_writesTo linked writes ran
    have present := Access.owner_lt linked allowed goes
    refine ⟨owner, goes, fun other key line => ⟨?_, fun unseen => ?_⟩⟩
    · rintro ⟨rfl, meets⟩
      exact linked.get_define_of_meets present meets line
    · exact linked.get_define_of_not_meets present unseen line

/-- A name that is new to a frame shadows the one outward of it, from there inward. -/
theorem searching_is_going_outward_of_shadowing :
    let forest := (((empty.add none).define 0 "x" .nil).add (some 0)).add (some 1)
    let later := forest.define 1 "x" (.bool true)
    forest.Built ∧
      (∃ found, forest.get 2 "x" 7 = .ok found ∧ forest.getAt 2 2 "x" = .ok found) ∧
      Access.run (.assignAt 2 1 "x" (.bool true)) forest = .ok none later ∧
      later.get 2 "x" 7 = .ok (.bool true) ∧ later.get 0 "x" 7 = forest.get 0 "x" 7 := by
  intro forest later
  have built : forest.Built :=
    .step (.child 1) (.step (.child 0) (.step (.define 0 "x" .nil) (.step .new .empty trivial)
      (by decide +kernel : 0 < 1)) (by decide +kernel : 0 < 1)) (by decide +kernel : 1 < 2)
  have nearest : forest.Nearest "x" 2 2 := by
    refine ⟨⟨0, by decide +kernel, by decide +kernel⟩, ?_⟩
    rintro (_ | _ | depth) ⟨owner, reached, has⟩
    · cases reached
      exact absurd has (by decide +kernel)
    · have outer : some 1 = some owner := reached
      cases outer
      exact absurd has (by decide +kernel)
    · exact Nat.le_add_left 2 depth
  obtain ⟨agrees, -, seen, -⟩ := searching_is_going_outward built 2 "x" (.bool true) 7
  have ran : Access.run (.assignAt 2 1 "x" (.bool true)) forest = .ok none later := rfl
  obtain ⟨owner, goes, seen⟩ := seen (.assignAt 2 1 "x" (.bool true)) (by decide +kernel : 2 < 3)
    ⟨rfl, rfl⟩ _ _ ran
  have here : owner = 1 := by
    cases goes with
    | assignAt _ _ reached => exact (Option.some.inj reached).symm
  subst here
  have inward : later.Meets "x" 2 1 := by
    refine ⟨1, ⟨⟨1, by decide +kernel, by decide +kernel⟩, ?_⟩, by decide +kernel⟩
    rintro (_ | depth) ⟨owner, reached, has⟩
    · cases reached
      exact absurd has (by decide +kernel)
    · exact Nat.le_add_left 1 depth
  have outward : ¬ later.Meets "x" 0 1 := by
    rintro ⟨depth, -, reached⟩
    cases depth with
    | zero => exact absurd reached (by decide)
    | succ depth => cases (show none = some 1 from reached)
  exact ⟨built, (agrees 2 nearest).1, ran, (seen 2 "x" 7).1 ⟨rfl, inward⟩,
    (seen 0 "x" 7).2 fun both => outward both.2⟩

end Forest

end Rill
