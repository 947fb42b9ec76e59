import Rill.Proofs.Machine.Invariant
import Rill.Proofs.Scope.Bound

/-!
# Keeping a global

Code that stands inside so many scopes runs in a frame that is so many links away from the globals,
and mentions there are bound less far outward. So neither a declaration inside a scope nor an
assignment to a bound name comes to the globals, and what is known of a global lasts, as long as the
declarations among the globals and the assignments that are not bound respect it.
-/

namespace Rill

namespace Forest

variable {forest later : Forest} {frame outer : FrameId} {depth more : Nat}

theorem ancestor?_add (forest : Forest) (depth more : Nat) (frame : FrameId) :
    forest.ancestor? (depth + more) frame =
      (forest.ancestor? depth frame).bind (forest.ancestor? more) := by
  induction depth generalizing frame with
  | zero => rw [Nat.zero_add, ancestor?, Option.bind_some]
  | succ depth ih =>
      rw [Nat.succ_add, ancestor?, ancestor?, Option.bind_assoc]
      exact Option.bind_congr fun outer _ => ih outer

/-- From a frame that is not there, no frame that is there can be reached. -/
theorem lt_size_of_ancestor? (reached : forest.ancestor? depth frame = some outer)
    (present : outer < forest.frames.size) : frame < forest.frames.size := by
  cases depth with
  | zero =>
      cases reached
      exact present
  | succ depth =>
      obtain ⟨next, encloses, _⟩ := Option.bind_eq_some_iff.mp reached
      apply Nat.lt_of_not_le
      intro absent
      rw [enclosing?, Array.getElem?_eq_none absent] at encloses
      cases encloses

/-- Links last, so what is reached outward is reached later on. -/
theorem Grows.ancestor? (grows : forest.Grows later)
    (reached : forest.ancestor? depth frame = some outer) (present : outer < forest.frames.size) :
    later.ancestor? depth frame = some outer := by
  induction depth generalizing frame with
  | zero => exact reached
  | succ depth ih =>
      have here := lt_size_of_ancestor? reached present
      obtain ⟨next, encloses, reached⟩ := Option.bind_eq_some_iff.mp reached
      rw [Forest.ancestor?, grows.enclosing?_eq frame here, encloses]
      exact ih reached

end Forest

/-- One global, what is known of it, and all code that there is. -/
structure Keeping where
  ledger : Ledger
  name : String
  Kept : Option Value → Prop

namespace Keeping

variable {k : Keeping}

/-- A frame is so many links away from the globals. -/
structure Standing (h : Heap) (depth : Nat) (frame : FrameId) : Prop where
  present : Machine.globals < h.forest.frames.size
  reached : h.forest.ancestor? depth frame = some Machine.globals

/-- A mention is bound less far outward than the globals are. -/
structure Within (k : Keeping) (depth : Nat) (id : Occurrence) : Prop where
  lt_limit : id < k.ledger.limit
  lt_depth : ∀ {d : Nat}, k.ledger.bindings[id]? = some d → d < depth

/-- What is asked of code, and nothing yet of the heap. -/
def code (k : Keeping) : Invariant where
  bindings := k.ledger.bindings
  Holds _ := True
  Frame := Standing
  Object _ _ := True
  Mention := k.Within
  Declares name := name = k.name → ∀ v, k.Kept (some v)
  Assigns _ name := name = k.name → ∀ old v, k.Kept (some old) → k.Kept (some v)

/-- All functions stand where their mentions are bound, and what is known of the global holds. -/
structure Holds (k : Keeping) (h : Heap) : Prop where
  present : Machine.globals < h.forest.frames.size
  outermost : h.forest.enclosing? Machine.globals = none
  slots : ∀ {frame : FrameId} {name : String} {v : Value},
    h.forest.slot? frame name = some v → k.code.Admits h v
  fields : ∀ {identity : Identity} {name : String} {v : Value},
    (h.fieldsOf identity)[name]? = some v → k.code.Admits h v
  kept : k.Kept (h.forest.slot? Machine.globals k.name)

/-- The invariant of runs that keep a global. -/
def invariant (k : Keeping) : Invariant := { k.code with Holds := k.Holds }

/-! ## Changes of a heap -/

variable {h later : Heap} {depth d : Nat} {frame owner : FrameId} {name : String} {v : Value}

theorem Standing.mono (stands : Standing h depth frame) (grows : h.Grows later) :
    Standing later depth frame where
  present := Nat.lt_of_lt_of_le stands.present grows.forest.size_le
  reached := grows.forest.ancestor? stands.reached stands.present

theorem code_implies (k : Keeping) (grows : h.Grows later) :
    (k.code.parts h).Implies (k.code.parts later) :=
  Invariant.parts_implies_of (fun stands => Standing.mono stands grows) id

/-- A frame inside a scope is not that of the globals. -/
theorem Standing.ne_globals (stands : Standing h (depth + 1) frame)
    (outermost : h.forest.enclosing? Machine.globals = none) : frame ≠ Machine.globals := by
  rintro rfl
  have reached := stands.reached
  rw [Forest.ancestor?, outermost] at reached
  cases reached

/-- Less far outward than the globals, there is another frame inside a scope. -/
theorem Standing.outward (stands : Standing h depth frame) (less : d < depth)
    (reached : h.forest.ancestor? d frame = some owner) :
    Standing h (depth - d - 1 + 1) owner where
  present := stands.present
  reached := by
    have split : d + (depth - d - 1 + 1) = depth := by omega
    have whole := stands.reached
    rw [← split, Forest.ancestor?_add, reached, Option.bind_some] at whole
    exact whole

namespace Holds

theorem addFrame (holds : k.Holds h) (frame : FrameId) : k.Holds (h.addFrame frame) where
  present := Nat.lt_of_lt_of_le holds.present (h.grows_addFrame frame).forest.size_le
  outermost := by
    rw [(h.grows_addFrame frame).forest.enclosing?_eq _ holds.present]
    exact holds.outermost
  slots found := by
    rw [Heap.addFrame, Forest.slot?_add] at found
    exact (holds.slots found).imp (k.code_implies (h.grows_addFrame frame))
  fields found := (holds.fields found).imp (k.code_implies (h.grows_addFrame frame))
  kept := by
    rw [Heap.addFrame, Forest.slot?_add]
    exact holds.kept

theorem standing_addFrame (stands : Standing h depth frame) :
    Standing (h.addFrame frame) (depth + 1) h.forest.nextId where
  present := (stands.mono (h.grows_addFrame frame)).present
  reached := by
    rw [Forest.ancestor?, Heap.addFrame, Forest.enclosing?_add, Forest.nextId, if_pos rfl]
    exact (stands.mono (h.grows_addFrame frame)).reached

theorem skipIdentity (holds : k.Holds h) : k.Holds h.skipIdentity where
  present := holds.present
  outermost := holds.outermost
  slots found := (holds.slots found).imp (k.code_implies h.grows_skipIdentity)
  fields found := (holds.fields found).imp (k.code_implies h.grows_skipIdentity)
  kept := holds.kept

theorem setFields (holds : k.Holds h) {identity : Identity} {fields : Table Value}
    (made : ∀ (name : String) (v : Value), fields[name]? = some v → k.code.Admits h v) :
    k.Holds (h.setFields identity fields) where
  present := holds.present
  outermost := holds.outermost
  slots found := (holds.slots found).imp (k.code_implies (h.grows_setFields identity fields))
  fields found := by
    rw [Heap.fieldsOf_setFields] at found
    split at found
    · exact (made _ _ found).imp (k.code_implies (h.grows_setFields identity fields))
    · exact (holds.fields found).imp (k.code_implies (h.grows_setFields identity fields))
  kept := holds.kept

/-- A name in any frame may get a value, but for the global it must be one that is fine for it. -/
theorem define (holds : k.Holds h) (admits : k.code.Admits h v)
    (fine : frame = Machine.globals → name = k.name → k.Kept (some v)) :
    k.Holds (h.define frame name v) where
  present := Nat.lt_of_lt_of_le holds.present (h.grows_define frame name v).forest.size_le
  outermost := by
    rw [Heap.define, Forest.enclosing?_define]
    exact holds.outermost
  slots {other key u} found := by
    rw [Heap.define] at found
    have implies := k.code_implies (h.grows_define frame name v)
    by_cases present : frame < h.forest.frames.size
    · rw [Forest.slot?_define _ _ _ _ present] at found
      split at found
      · cases found
        exact admits.imp implies
      · exact (holds.slots found).imp implies
    · rw [Forest.slot?_define_of_absent _ _ _ _ _ (Nat.le_of_not_lt present)] at found
      exact (holds.slots found).imp implies
  fields found := (holds.fields found).imp (k.code_implies (h.grows_define frame name v))
  kept := by
    rw [Heap.define]
    by_cases present : frame < h.forest.frames.size
    · rw [Forest.slot?_define _ _ _ _ present]
      split
      · next here => exact fine here.1.symm here.2.symm
      · exact holds.kept
    · rw [Forest.slot?_define_of_absent _ _ _ _ _ (Nat.le_of_not_lt present)]
      exact holds.kept

end Holds

/-- No change of a heap loses what is known of the global. -/
theorem lawful (k : Keeping) : k.invariant.Lawful where
  frame_mono grows stands := Standing.mono stands grows
  object_mono _ _ := trivial
  addFrame holds stands := ⟨Holds.addFrame holds _, Holds.standing_addFrame stands⟩
  skipIdentity holds := Holds.skipIdentity holds
  newObject holds := by
    refine ⟨(Holds.skipIdentity holds).setFields ?_, trivial⟩
    intro name v found
    rw [Std.TreeMap.getElem?_emptyc] at found
    cases found
  define {h depth frame name v} holds stands declares admits := by
    refine Holds.define holds admits ?_
    rintro rfl same
    cases depth with
    | zero => exact declares rfl same v
    | succ depth => exact absurd rfl (Standing.ne_globals stands (Holds.outermost holds))
  assignBound holds stands within bound reached admits := by
    refine Holds.define holds admits fun same _ => ?_
    exact absurd same (Standing.ne_globals
      (Standing.outward stands (Within.lt_depth within bound) reached) (Holds.outermost holds))
  assignGlobal {h id name old v} holds _ assigns found admits := by
    refine Holds.define holds admits ?_
    rintro - rfl
    have kept := Holds.kept holds
    rw [found] at kept
    exact assigns rfl old v kept
  setField holds _ admits := by
    refine Holds.setFields holds ?_
    intro key u found
    rw [getElem?_insert_eq] at found
    split at found
    · cases found
      exact admits
    · exact Holds.fields holds found
  slot holds _ _ found := Holds.slots holds found
  global holds found := Holds.slots holds found
  field holds _ found := Holds.fields holds found

end Keeping

end Rill
