import Rill.Proofs.Store.Cells

/-!
# Territories

A territory is made of cells of a heap that point to no others, and of all cells that are made
later. A run that starts inside a territory stays inside: it finds no other cell, and changes none.
-/

namespace Rill

/-- Cells of a heap from which a run starts. -/
structure Territory where
  /-- The heap in front of the run. -/
  base : Heap
  /-- The cells of that heap that the run may come to. -/
  Inside : Cell → Prop
  /-- What is asked of the links between frames. -/
  Linked : Forest → Prop

namespace Territory

variable {T : Territory}

/-- What belongs to a territory in a later heap: the cells it has started with, and new ones. -/
def Owns (T : Territory) (h : Heap) (cell : Cell) : Prop :=
  T.Inside cell ∨ ¬ T.base.Has cell ∧ h.Has cell

/-- A later heap in which nothing has crossed the border of a territory. -/
structure Holds (T : Territory) (h : Heap) : Prop where
  closed : ∀ {cell next : Cell}, T.Owns h cell → h.PointsTo cell next → T.Owns h next
  grown : ∀ {cell : Cell}, T.base.Has cell → h.Has cell
  frames_eq : ∀ {frame : FrameId}, ¬ T.Owns h (.frame frame) →
    h.forest.frames[frame]? = T.base.forest.frames[frame]?
  fields_eq : ∀ {identity : Identity}, ¬ T.Owns h (.object identity) →
    h.fields[identity]? = T.base.fields[identity]?
  linked : T.Linked h.forest

/-- What a territory needs so that runs stay inside. -/
structure Sound (T : Territory) : Prop where
  globals : T.Inside (.frame Machine.globals)
  /-- Nothing is kept under identities that have not been given out. -/
  unborn : ∀ {identity : Identity}, T.base.nextIdentity ≤ identity →
    T.base.fields[identity]? = none
  linked_add : ∀ {h : Heap} {frame : FrameId}, T.Holds h → T.Owns h (.frame frame) →
    T.Linked (h.forest.add (some frame))
  linked_define : ∀ {forest : Forest} {frame : FrameId} {name : String} {v : Value},
    T.Linked forest → T.Linked (forest.define frame name v)

/-- In front of a run, nothing has crossed the border if no cell inside points across it. -/
theorem holds_base (linked : T.Linked T.base.forest)
    (closed : ∀ {cell next : Cell}, T.Inside cell → T.base.PointsTo cell next → T.Inside next) :
    T.Holds T.base where
  closed := by
    rintro cell next (inside | ⟨absent, present⟩) points
    · exact .inl (closed inside points)
    · exact absurd present absent
  grown := id
  frames_eq _ := rfl
  fields_eq _ := rfl
  linked := linked

theorem Owns.mono {h h' : Heap} {cell : Cell} (owned : T.Owns h cell)
    (grows : h.Has cell → h'.Has cell) : T.Owns h' cell :=
  owned.imp_right fun ⟨new, present⟩ => ⟨new, grows present⟩

/-! ## Changes inside a territory -/

variable {h : Heap}

theorem Holds.nextIdentity_le (holds : T.Holds h) : T.base.nextIdentity ≤ h.nextIdentity := by
  apply Nat.le_of_not_lt
  intro less
  have had : T.base.Has (.object h.nextIdentity) := less
  exact Nat.lt_irrefl _ (holds.grown had)

theorem owns_addFrame {enclosing : FrameId} {cell : Cell}
    (owned : T.Owns (h.addFrame enclosing) cell) :
    cell = .frame h.forest.nextId ∨ T.Owns h cell := by
  rcases owned with inside | ⟨new, present⟩
  · exact .inr (.inl inside)
  · exact ((h.has_addFrame enclosing).mp present).imp_right fun old => .inr ⟨new, old⟩

theorem Holds.addFrame (sound : T.Sound) (holds : T.Holds h) {frame : FrameId}
    (here : T.Owns h (.frame frame)) :
    T.Holds (h.addFrame frame) ∧ T.Owns (h.addFrame frame) (.frame h.forest.nextId) := by
  have grows {cell : Cell} (old : h.Has cell) : (h.addFrame frame).Has cell :=
    (h.has_addFrame frame).mpr (.inr old)
  have new : T.Owns (h.addFrame frame) (.frame h.forest.nextId) :=
    .inr ⟨fun had => Nat.lt_irrefl _ (holds.grown had), (h.has_addFrame frame).mpr (.inl rfl)⟩
  refine ⟨⟨?_, fun had => grows (holds.grown had), ?_, ?_, sound.linked_add holds here⟩, new⟩
  · intro cell next owned points
    rcases h.pointsTo_addFrame points with ⟨-, rfl⟩ | old
    · exact here.mono grows
    · rcases owns_addFrame owned with rfl | owned
      · exact absurd old.has_frame (Nat.lt_irrefl _)
      · exact (holds.closed owned old).mono grows
  · intro other foreign
    have old : other ≠ h.forest.nextId := fun same => foreign (same ▸ new)
    rw [h.getElem?_addFrame old]
    exact holds.frames_eq fun owned => foreign (owned.mono grows)
  · intro identity foreign
    exact holds.fields_eq fun owned => foreign (owned.mono grows)

theorem owns_skipIdentity {cell : Cell} (owned : T.Owns h.skipIdentity cell) :
    cell = .object h.nextIdentity ∨ T.Owns h cell := by
  rcases owned with inside | ⟨new, present⟩
  · exact .inr (.inl inside)
  · exact (h.has_skipIdentity.mp present).imp_right fun old => .inr ⟨new, old⟩

theorem Holds.skipIdentity (sound : T.Sound) (holds : T.Holds h) : T.Holds h.skipIdentity := by
  have grows {cell : Cell} (old : h.Has cell) : h.skipIdentity.Has cell :=
    h.has_skipIdentity.mpr (.inr old)
  refine ⟨?_, fun had => grows (holds.grown had), ?_, ?_, holds.linked⟩
  · intro cell next owned points
    have before : h.PointsTo cell next := by
      cases points with
      | outward encloses => exact .outward encloses
      | slot found points => exact .slot found points
      | field found points => exact .field found points
    by_cases old : T.Owns h cell
    · exact (holds.closed old before).mono grows
    · -- nothing was kept under the identity, so it points nowhere
      obtain rfl := (owns_skipIdentity owned).resolve_right old
      cases before with
      | field found _ =>
          rw [Heap.fieldsOf, holds.fields_eq old, sound.unborn holds.nextIdentity_le] at found
          exact absurd found (by simp)
  · intro frame foreign
    exact holds.frames_eq fun owned => foreign (owned.mono grows)
  · intro identity foreign
    exact holds.fields_eq fun owned => foreign (owned.mono grows)

theorem Holds.define (sound : T.Sound) (holds : T.Holds h) {frame : FrameId}
    (here : T.Owns h (.frame frame)) {v : Value} (held : ∀ cell, v.PointsTo cell → T.Owns h cell)
    (name : String) : T.Holds (h.define frame name v) := by
  have same {cell : Cell} : T.Owns (h.define frame name v) cell ↔ T.Owns h cell :=
    ⟨fun owned => owned.mono (h.has_define frame name v).mp,
      fun owned => owned.mono (h.has_define frame name v).mpr⟩
  refine ⟨?_, fun had => (h.has_define frame name v).mpr (holds.grown had), ?_, ?_,
    sound.linked_define holds.linked⟩
  · intro cell next owned points
    rcases h.pointsTo_define points with ⟨-, given⟩ | old
    · exact same.mpr (held _ given)
    · exact same.mpr (holds.closed (same.mp owned) old)
  · intro other foreign
    rw [same] at foreign
    have apart : frame ≠ other := fun equal => foreign (equal ▸ here)
    rw [h.getElem?_define apart]
    exact holds.frames_eq foreign
  · intro identity foreign
    exact holds.fields_eq fun owned => foreign (same.mpr owned)

theorem Holds.setFields (holds : T.Holds h) {identity : Identity} {fields : Table Value}
    (here : T.Owns h (.object identity))
    (held : ∀ (name : String) (v : Value), fields[name]? = some v →
      ∀ cell, v.PointsTo cell → T.Owns h cell) :
    T.Holds (h.setFields identity fields) := by
  have has {cell : Cell} : (h.setFields identity fields).Has cell ↔ h.Has cell := by
    cases cell <;> exact Iff.rfl
  have same {cell : Cell} : T.Owns (h.setFields identity fields) cell ↔ T.Owns h cell :=
    ⟨fun owned => owned.mono has.mp, fun owned => owned.mono has.mpr⟩
  refine ⟨?_, fun had => has.mpr (holds.grown had), ?_, ?_, holds.linked⟩
  · intro cell next owned points
    rcases h.pointsTo_setFields points with ⟨-, name, v, found, given⟩ | old
    · exact same.mpr (held name v found _ given)
    · exact same.mpr (holds.closed (same.mp owned) old)
  · intro frame foreign
    exact holds.frames_eq fun owned => foreign (same.mpr owned)
  · intro other foreign
    rw [same] at foreign
    have apart : other ≠ identity := fun equal => foreign (equal ▸ here)
    rw [Heap.setFields, getElem?_insert_eq, if_neg apart]
    exact holds.fields_eq foreign

theorem Holds.ancestor? (holds : T.Holds h) {depth : Nat} {frame owner : FrameId}
    (here : T.Owns h (.frame frame)) (reached : h.forest.ancestor? depth frame = some owner) :
    T.Owns h (.frame owner) := by
  induction depth generalizing frame with
  | zero =>
      cases reached
      exact here
  | succ depth ih =>
      obtain ⟨outer, encloses, reached⟩ := Option.bind_eq_some_iff.mp reached
      exact ih (holds.closed here (.outward encloses)) reached

/-! ## The invariant -/

/-- Code inside a territory may be any code. -/
def invariant (T : Territory) (bindings : Bindings) : Invariant where
  bindings := bindings
  Holds := T.Holds
  Frame h _ frame := T.Owns h (.frame frame)
  Object h identity := T.Owns h (.object identity)
  Mention _ _ := True
  Declares _ := True
  Assigns _ _ := True

variable (T) (bindings : Bindings)

theorem code_invariant (sites : List Site) : (T.invariant bindings).Code sites :=
  fun _ _ _ _ => trivial

theorem runs_invariant (depth : Nat) (routine : Routine) :
    (T.invariant bindings).Runs depth routine :=
  ⟨List.replicate (depth + 1) ⟨.block, []⟩, List.length_replicate, T.code_invariant bindings _⟩

variable {T bindings}

/-- A value may be kept exactly when it holds on to what belongs to the territory. -/
theorem admits_iff {v : Value} :
    (T.invariant bindings).Admits h v ↔ ∀ cell, v.PointsTo cell → T.Owns h cell := by
  rw [← Value.madeOf_within_iff]
  constructor
  · intro admits
    exact admits.imp ⟨fun ⟨_, owned, _⟩ => owned, fun ⟨_, owned, _⟩ => owned, id⟩
  · intro made
    exact made.imp ⟨fun owned => ⟨0, owned, T.runs_invariant bindings 0 _⟩,
      fun owned => ⟨0, owned, T.runs_invariant bindings 1 _⟩, id⟩

/-- No change of a heap crosses the border of a territory. -/
theorem lawful (sound : T.Sound) (bindings : Bindings) : (T.invariant bindings).Lawful where
  frame_mono grows owned := Owns.mono owned fun present => present.mono grows
  object_mono grows owned := Owns.mono owned fun present => present.mono grows
  addFrame holds here := Holds.addFrame sound holds here
  skipIdentity holds := Holds.skipIdentity sound holds
  newObject {h} holds := by
    have skipped := Holds.skipIdentity sound holds
    have new : T.Owns h.skipIdentity (.object h.nextIdentity) :=
      .inr ⟨fun had => Nat.lt_irrefl _ (holds.grown had), h.has_skipIdentity.mpr (.inl rfl)⟩
    refine ⟨skipped.setFields new ?_, new.mono id⟩
    intro name v found
    rw [Std.TreeMap.getElem?_emptyc] at found
    cases found
  define holds here _ admits := Holds.define sound holds here (admits_iff.mp admits) _
  assignBound holds here _ _ reached admits :=
    Holds.define sound holds (Holds.ancestor? holds here reached) (admits_iff.mp admits) _
  assignGlobal holds _ _ _ admits :=
    Holds.define sound holds (.inl sound.globals) (admits_iff.mp admits) _
  setField {h identity name v} holds here admits := by
    refine Holds.setFields holds here ?_
    intro key u found
    rw [getElem?_insert_eq] at found
    split at found
    · cases found
      exact admits_iff.mp admits
    · exact fun cell points => holds.closed here (.field found points)
  slot holds here reached found := admits_iff.mpr fun _ points =>
    holds.closed (Holds.ancestor? holds here reached) (.slot found points)
  global holds found := admits_iff.mpr fun _ points =>
    holds.closed (.inl sound.globals) (.slot found points)
  field holds here found := admits_iff.mpr fun _ points => holds.closed here (.field found points)

end Territory

end Rill
