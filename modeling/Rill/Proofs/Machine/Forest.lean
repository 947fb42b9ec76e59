import Rill.Machine.Forest

/-!
# What changes of frames leave

To make a frame adds one without variables and leaves all others; to define a name changes one
variable of one frame. The frames outward of a frame stay what they are.
-/

namespace Rill

/-- The value under a key in a table with one more entry. -/
theorem getElem?_insert_eq {α β : Type} [Ord α] [Std.TransOrd α] [Std.LawfulEqOrd α]
    [DecidableEq α] (table : Std.TreeMap α β) (key other : α) (value : β) :
    (table.insert key value)[other]? = if other = key then some value else table[other]? := by
  rw [Std.TreeMap.getElem?_insert]
  by_cases same : other = key
  · rw [if_pos same, if_pos (Std.LawfulEqOrd.compare_eq_iff_eq.mpr same.symm)]
  · rw [if_neg same, if_neg]
    intro equal
    exact same (Std.LawfulEqOrd.compare_eq_iff_eq.mp equal).symm

namespace Forest

variable (forest : Forest) (frame other : FrameId) (name : String) (value : Value)

/-! ## A new frame -/

@[simp]
theorem size_add (enclosing : Option FrameId) :
    (forest.add enclosing).frames.size = forest.frames.size + 1 :=
  Array.size_push _

theorem enclosing?_add (enclosing : Option FrameId) :
    (forest.add enclosing).enclosing? frame =
      if frame = forest.frames.size then enclosing else forest.enclosing? frame := by
  rw [enclosing?, add, Array.getElem?_push]
  split
  · rfl
  · rfl

theorem slot?_eq_none (absent : forest.frames.size ≤ frame) : forest.slot? frame name = none := by
  rw [slot?, Array.getElem?_eq_none absent]
  rfl

theorem slot?_add (enclosing : Option FrameId) :
    (forest.add enclosing).slot? frame name = forest.slot? frame name := by
  by_cases same : frame = forest.frames.size
  · rw [slot?_eq_none forest frame name (Nat.le_of_eq same.symm), slot?, add,
      Array.getElem?_push, if_pos same]
    exact Std.TreeMap.getElem?_emptyc
  · rw [slot?, add, Array.getElem?_push, if_neg same]
    rfl

/-! ## A name with a value -/

@[simp]
theorem size_define : (forest.define frame name value).frames.size = forest.frames.size :=
  Array.size_modify

@[simp]
theorem enclosing?_define :
    (forest.define frame name value).enclosing? other = forest.enclosing? other := by
  rw [enclosing?, enclosing?, define, Array.getElem?_modify]
  split
  · cases forest.frames[other]? with
    | none => rfl
    | some found => rfl
  · rfl

theorem slot?_define (present : frame < forest.frames.size) (other : FrameId) (key : String) :
    (forest.define frame name value).slot? other key =
      if other = frame ∧ key = name then some value else forest.slot? other key := by
  rw [slot?, define, Array.getElem?_modify]
  by_cases here : frame = other
  · subst here
    rw [if_pos rfl, slot?, Array.getElem?_eq_getElem present]
    change (Std.TreeMap.insert _ name value)[key]? = _
    rw [getElem?_insert_eq]
    by_cases same : key = name
    · rw [if_pos same, if_pos ⟨rfl, same⟩]
    · rw [if_neg same, if_neg (fun both => same both.2)]
      rfl
  · rw [if_neg here, if_neg (fun both => here both.1.symm)]
    rfl

/-- Where there is no frame, nothing is changed. -/
theorem slot?_define_of_absent (absent : forest.frames.size ≤ frame) (key : String) :
    (forest.define frame name value).slot? other key = forest.slot? other key := by
  rw [slot?, define, Array.getElem?_modify]
  by_cases here : frame = other
  · subst here
    rw [if_pos rfl, slot?, Array.getElem?_eq_none absent]
    rfl
  · rw [if_neg here]
    rfl

/-! ## The globals -/

variable {forest frame other name value}

theorem locate?_zero_of_some (found : forest.slot? 0 name = some value) :
    forest.locate? name 0 = some 0 := by
  rw [locate?, locateWithin, found, Option.isSome_some, if_pos rfl]

theorem locate?_zero_of_none (absent : forest.slot? 0 name = none) :
    forest.locate? name 0 = none := by
  rw [locate?, locateWithin, absent, Option.isSome_none, if_neg Bool.false_ne_true]
  cases forest.enclosing? 0 <;> rfl

theorem get_zero_of_some (found : forest.slot? 0 name = some value) (line : Nat) :
    forest.get 0 name line = .ok value := by
  rw [get, locate?_zero_of_some found, Option.bind_some, found]

theorem get_zero_of_none (absent : forest.slot? 0 name = none) (line : Nat) :
    forest.get 0 name line = .error ⟨line, .undefinedVariable name⟩ := by
  rw [get, locate?_zero_of_none absent]
  rfl

theorem owner_zero_of_some (found : forest.slot? 0 name = some value) (line : Nat) :
    forest.owner 0 name line = .ok 0 := by
  rw [owner, locate?_zero_of_some found]

theorem owner_zero_of_none (absent : forest.slot? 0 name = none) (line : Nat) :
    forest.owner 0 name line = .error ⟨line, .undefinedVariable name⟩ := by
  rw [owner, locate?_zero_of_none absent]

/-! ## A known number of frames outward -/

theorem ownerAt_of_ancestor? {depth : Nat} (reached : forest.ancestor? depth frame = some other) :
    forest.ownerAt frame depth = .ok other := by
  rw [ownerAt, reached]

theorem getAt_of_ancestor? {depth : Nat} (reached : forest.ancestor? depth frame = some other)
    (found : forest.slot? other name = some value) :
    forest.getAt frame depth name = .ok value := by
  simp only [getAt, ownerAt_of_ancestor? reached, bind, Except.bind, found]

theorem exists_of_getAt {depth : Nat} (got : forest.getAt frame depth name = .ok value) :
    ∃ owner, forest.ancestor? depth frame = some owner ∧ forest.slot? owner name = some value := by
  cases reached : forest.ancestor? depth frame with
  | none => simp [getAt, ownerAt, reached, bind, Except.bind] at got
  | some owner =>
      cases found : forest.slot? owner name with
      | none => simp [getAt, ownerAt, reached, bind, Except.bind, found] at got
      | some there =>
          rw [getAt_of_ancestor? reached found] at got
          cases got
          exact ⟨owner, rfl, found⟩

/-! ## What lasts -/

/-- One forest has become another: frames keep their links and their names. -/
structure Grows (forest later : Forest) : Prop where
  size_le : forest.frames.size ≤ later.frames.size
  enclosing?_eq : ∀ frame < forest.frames.size, later.enclosing? frame = forest.enclosing? frame
  slot?_isSome : ∀ {frame : FrameId} {name : String}, (forest.slot? frame name).isSome →
    (later.slot? frame name).isSome

namespace Grows

theorem refl (forest : Forest) : forest.Grows forest :=
  ⟨Nat.le_refl _, fun _ _ => rfl, id⟩

theorem trans {first second third : Forest} (former : first.Grows second)
    (latter : second.Grows third) : first.Grows third where
  size_le := Nat.le_trans former.size_le latter.size_le
  enclosing?_eq frame old := by
    rw [latter.enclosing?_eq frame (Nat.lt_of_lt_of_le old former.size_le),
      former.enclosing?_eq frame old]
  slot?_isSome had := latter.slot?_isSome (former.slot?_isSome had)

theorem add (forest : Forest) (enclosing : Option FrameId) :
    forest.Grows (forest.add enclosing) where
  size_le := by
    rw [size_add]
    exact Nat.le_succ _
  enclosing?_eq frame old := by rw [enclosing?_add, if_neg (Nat.ne_of_lt old)]
  slot?_isSome had := by
    rw [slot?_add]
    exact had

theorem define (forest : Forest) (frame : FrameId) (name : String) (value : Value) :
    forest.Grows (forest.define frame name value) where
  size_le := Nat.le_of_eq (size_define _ _ _ _).symm
  enclosing?_eq other _ := enclosing?_define _ _ _ _ _
  slot?_isSome := by
    intro other key had
    by_cases present : frame < forest.frames.size
    · rw [slot?_define _ _ _ _ present]
      split
      · rfl
      · exact had
    · rw [slot?_define_of_absent _ _ _ _ _ (Nat.le_of_not_lt present)]
      exact had

end Grows

end Forest

end Rill
