import Rill.Proofs.Machine.Invariant

/-!
# Cells of a heap

What can change in a heap are the variables of frames and the fields of instances. A frame points to
the frame that encloses it and to what the values of its variables hold on to, an instance to what
the values of its fields hold on to. A value holds on to the frame that a function was declared in,
to those of the methods of a class, and to an instance with the methods of its class.
-/

namespace Rill

/-- A part of a heap that can change: a frame with its variables, or an instance with its fields. -/
inductive Cell
  | frame (frame : FrameId)
  | object (identity : Identity)

/-- A class points to the frames that its methods were declared in. -/
def Class.PointsTo (c : Class) (cell : Cell) : Prop :=
  ∃ (name : String) (method : Closure),
    c.methods[name]? = some method ∧ cell = .frame method.environment

/-- The cells that a value holds on to. -/
def Value.PointsTo : Value → Cell → Prop
  | .number _, _ | .string _, _ | .bool _, _ | .nil, _ | .native _, _ => False
  | .closure c, cell => cell = .frame c.environment
  | .cls c, cell => c.PointsTo cell
  | .object o, cell => cell = .object o.identity ∨ o.cls.PointsTo cell

namespace Heap

/-- A cell points to another one. -/
inductive PointsTo (h : Heap) : Cell → Cell → Prop
  | outward {frame outer : FrameId} : h.forest.enclosing? frame = some outer →
      PointsTo h (.frame frame) (.frame outer)
  | slot {frame : FrameId} {name : String} {v : Value} {cell : Cell} :
      h.forest.slot? frame name = some v → v.PointsTo cell → PointsTo h (.frame frame) cell
  | field {identity : Identity} {name : String} {v : Value} {cell : Cell} :
      (h.fieldsOf identity)[name]? = some v → v.PointsTo cell → PointsTo h (.object identity) cell

/-- What can be reached from certain cells. -/
inductive Reaches (h : Heap) (roots : Cell → Prop) : Cell → Prop
  | root {cell : Cell} : roots cell → Reaches h roots cell
  | step {cell next : Cell} : Reaches h roots cell → h.PointsTo cell next → Reaches h roots next

/-- The cells that are there. -/
def Has (h : Heap) : Cell → Prop
  | .frame frame => frame < h.forest.frames.size
  | .object identity => identity < h.nextIdentity

variable {h : Heap} {cell next : Cell}

theorem Has.mono {later : Heap} (present : h.Has cell) (grows : h.Grows later) :
    later.Has cell := by
  cases cell with
  | frame frame => exact Nat.lt_of_lt_of_le present grows.forest.size_le
  | object identity => exact Nat.lt_of_lt_of_le present grows.nextIdentity_le

/-- What can be reached lies in every set that has the roots and what its cells point to. -/
theorem Reaches.closed {roots within : Cell → Prop} (reached : h.Reaches roots cell)
    (start : ∀ {cell}, roots cell → within cell)
    (closed : ∀ {cell next}, within cell → h.PointsTo cell next → within next) : within cell := by
  induction reached with
  | root here => exact start here
  | step _ points ih => exact closed ih points

theorem Reaches.mono {roots more : Cell → Prop} (reached : h.Reaches roots cell)
    (implies : ∀ {cell}, roots cell → more cell) : h.Reaches more cell :=
  reached.closed (fun here => .root (implies here)) .step

/-- A frame that is not there points nowhere. -/
theorem PointsTo.has_frame {frame : FrameId} (points : h.PointsTo (.frame frame) next) :
    h.Has (.frame frame) := by
  apply Nat.lt_of_not_le
  intro absent
  cases points with
  | outward encloses =>
      rw [Forest.enclosing?, Array.getElem?_eq_none absent] at encloses
      cases encloses
  | slot found _ =>
      rw [Forest.slot?_eq_none _ _ _ absent] at found
      cases found

/-! ## Changes -/

variable (h : Heap)

theorem getElem?_addFrame {frame : FrameId} (old : frame ≠ h.forest.nextId) (enclosing : FrameId) :
    (h.addFrame enclosing).forest.frames[frame]? = h.forest.frames[frame]? := by
  rw [Forest.nextId] at old
  rw [addFrame, Forest.add, Array.getElem?_push, if_neg old]

theorem getElem?_define {frame other : FrameId} (apart : frame ≠ other) (name : String)
    (v : Value) : (h.define frame name v).forest.frames[other]? = h.forest.frames[other]? := by
  rw [define, Forest.define, Array.getElem?_modify, if_neg apart]

theorem has_addFrame (enclosing : FrameId) :
    (h.addFrame enclosing).Has cell ↔ cell = .frame h.forest.nextId ∨ h.Has cell := by
  cases cell with
  | frame frame =>
      rw [Cell.frame.injEq, Has, Has, addFrame, Forest.size_add, Nat.lt_succ_iff_lt_or_eq, or_comm]
      rfl
  | object identity => simp [Has, addFrame]

theorem has_skipIdentity :
    h.skipIdentity.Has cell ↔ cell = .object h.nextIdentity ∨ h.Has cell := by
  cases cell with
  | frame frame => simp [Has, skipIdentity]
  | object identity =>
      rw [Cell.object.injEq, Has, Has, skipIdentity, Nat.lt_succ_iff_lt_or_eq, or_comm]

theorem has_define (frame : FrameId) (name : String) (v : Value) :
    (h.define frame name v).Has cell ↔ h.Has cell := by
  cases cell <;> simp [Has, define]

/-- A new frame points to the frame that it was made in, and all else points where it did. -/
theorem pointsTo_addFrame {enclosing : FrameId}
    (points : (h.addFrame enclosing).PointsTo cell next) :
    (cell = .frame h.forest.nextId ∧ next = .frame enclosing) ∨ h.PointsTo cell next := by
  cases points with
  | outward encloses =>
      rw [addFrame, Forest.enclosing?_add] at encloses
      split at encloses
      · next new =>
          cases encloses
          exact .inl ⟨congrArg Cell.frame new, rfl⟩
      · exact .inr (.outward encloses)
  | slot found points =>
      rw [addFrame, Forest.slot?_add] at found
      exact .inr (.slot found points)
  | field found points => exact .inr (.field found points)

/-- A variable adds what its value holds on to. -/
theorem pointsTo_define {frame : FrameId} {name : String} {v : Value}
    (points : (h.define frame name v).PointsTo cell next) :
    (cell = .frame frame ∧ v.PointsTo next) ∨ h.PointsTo cell next := by
  cases points with
  | outward encloses =>
      rw [define, Forest.enclosing?_define] at encloses
      exact .inr (.outward encloses)
  | slot found points =>
      rw [define] at found
      by_cases present : frame < h.forest.frames.size
      · rw [Forest.slot?_define _ _ _ _ present] at found
        split at found
        · next here =>
            cases found
            exact .inl ⟨congrArg Cell.frame here.1, points⟩
        · exact .inr (.slot found points)
      · rw [Forest.slot?_define_of_absent _ _ _ _ _ (Nat.le_of_not_lt present)] at found
        exact .inr (.slot found points)
  | field found points => exact .inr (.field found points)

/-- The fields of an instance are what it points to the values of. -/
theorem pointsTo_setFields {identity : Identity} {fields : Table Value}
    (points : (h.setFields identity fields).PointsTo cell next) :
    (cell = .object identity ∧ ∃ (name : String) (v : Value), fields[name]? = some v ∧
      v.PointsTo next) ∨ h.PointsTo cell next := by
  cases points with
  | outward encloses => exact .inr (.outward encloses)
  | slot found points => exact .inr (.slot found points)
  | field found points =>
      rw [fieldsOf_setFields] at found
      split at found
      · next here => exact .inl ⟨congrArg Cell.object here, _, _, found, points⟩
      · exact .inr (.field found points)

end Heap

/-! ## Values made of parts that point somewhere -/

/-- The parts that hold on to nothing but certain cells. -/
def Parts.within (cells : Cell → Prop) : Parts where
  closures c := cells (.frame c.environment)
  methods c := cells (.frame c.environment)
  objects identity := cells (.object identity)

theorem Class.madeOf_within_iff {cells : Cell → Prop} {c : Class} :
    c.MadeOf (.within cells) ↔ ∀ cell, c.PointsTo cell → cells cell := by
  constructor
  · rintro made cell ⟨name, method, found, rfl⟩
    exact made name method found
  · intro points name method found
    exact points _ ⟨name, method, found, rfl⟩

/-- A value is made of such parts exactly when it holds on to nothing but those cells. -/
theorem Value.madeOf_within_iff {cells : Cell → Prop} {v : Value} :
    v.MadeOf (.within cells) ↔ ∀ cell, v.PointsTo cell → cells cell := by
  cases v with
  | number _ | string _ | bool _ | nil | native _ => exact ⟨fun _ _ => False.elim, fun _ => trivial⟩
  | closure c => exact ⟨fun made cell points => points ▸ made, fun points => points _ rfl⟩
  | cls c => exact Class.madeOf_within_iff
  | object o =>
      constructor
      · rintro ⟨held, made⟩ cell (rfl | points)
        · exact held
        · exact Class.madeOf_within_iff.mp made cell points
      · intro points
        exact ⟨points _ (.inl rfl),
          Class.madeOf_within_iff.mpr fun cell at_ => points cell (.inr at_)⟩

end Rill
