import Rill.Proofs.Store.Privacy

/-!
# Links between frames

A caller can have a machine run programs, execute single statements, execute blocks in frames of its
own, evaluate expressions and define names. In whatever order this is done and however each of it
ends, the frames stay a forest: a link leads to an earlier frame and is never changed, so going
outward from a frame comes to an end at the globals, or at an outermost frame that the caller made.
All frames that are referred to are there, and no name is ever removed.
-/

namespace Rill

/-! ## Links -/

namespace Forest

/-- Links lead to earlier frames, and end at the globals or at certain other frames. -/
structure Linked (outermost : List FrameId) (forest : Forest) : Prop where
  earlier : ∀ {frame outer : FrameId}, forest.enclosing? frame = some outer → outer < frame
  ends : ∀ {frame : FrameId}, frame < forest.frames.size → forest.enclosing? frame = none →
    frame = Machine.globals ∨ frame ∈ outermost

namespace Linked

variable {outermost : List FrameId} {forest : Forest}

theorem add_some (linked : forest.Linked outermost) {enclosing : FrameId}
    (present : enclosing < forest.frames.size) :
    (forest.add (some enclosing)).Linked outermost where
  earlier := by
    intro frame outer encloses
    rw [enclosing?_add] at encloses
    split at encloses
    · next new =>
        cases encloses
        exact new ▸ present
    · exact linked.earlier encloses
  ends := by
    intro frame there ends
    rw [enclosing?_add] at ends
    split at ends
    · cases ends
    · next old =>
        rw [size_add] at there
        exact linked.ends (Nat.lt_of_le_of_ne (Nat.le_of_lt_succ there) old) ends

theorem add_none (linked : forest.Linked outermost) :
    (forest.add none).Linked (outermost ++ [forest.nextId]) where
  earlier := by
    intro frame outer encloses
    rw [enclosing?_add] at encloses
    split at encloses
    · cases encloses
    · exact linked.earlier encloses
  ends := by
    intro frame there ends
    rw [enclosing?_add] at ends
    split at ends
    · next new => exact .inr (List.mem_append_right _ (List.mem_singleton.mpr new))
    · next old =>
        rw [size_add] at there
        exact (linked.ends (Nat.lt_of_le_of_ne (Nat.le_of_lt_succ there) old) ends).imp_right
          (List.mem_append_left _)

theorem define (linked : forest.Linked outermost) (frame : FrameId) (name : String) (v : Value) :
    (forest.define frame name v).Linked outermost where
  earlier encloses := linked.earlier (enclosing?_define .. ▸ encloses)
  ends there ends := linked.ends (size_define .. ▸ there) (enclosing?_define .. ▸ ends)

/-- Every step outward leads to an earlier frame. So no frame is outward of itself. -/
theorem add_depth_le (linked : forest.Linked outermost) {depth : Nat} {frame owner : FrameId}
    (reached : forest.ancestor? depth frame = some owner) : owner + depth ≤ frame := by
  induction depth generalizing frame with
  | zero =>
      cases reached
      exact Nat.le_refl _
  | succ depth ih =>
      obtain ⟨outer, encloses, reached⟩ := Option.bind_eq_some_iff.mp reached
      exact Nat.lt_of_le_of_lt (ih reached) (linked.earlier encloses)

/-- Going outward comes to an end. -/
theorem exists_outermost (linked : forest.Linked outermost) (frame : FrameId)
    (present : frame < forest.frames.size) :
    ∃ depth ≤ frame, ∃ root, forest.ancestor? depth frame = some root ∧
      forest.enclosing? root = none ∧ (root = Machine.globals ∨ root ∈ outermost) := by
  induction frame using Nat.strongRecOn with
  | ind frame ih =>
      cases encloses : forest.enclosing? frame with
      | none => exact ⟨0, Nat.zero_le _, frame, rfl, encloses, linked.ends present encloses⟩
      | some outer =>
          have less := linked.earlier encloses
          obtain ⟨depth, within, root, reached, ends⟩ := ih outer less (Nat.lt_trans less present)
          refine ⟨depth + 1, Nat.lt_of_le_of_lt within less, root, ?_, ends⟩
          rw [ancestor?, encloses]
          exact reached

end Linked

end Forest

/-! ## Sound heaps -/

/-- The links are in order, and all that anything points to is there. -/
structure Heap.Sound (outermost : List FrameId) (h : Heap) : Prop where
  linked : h.forest.Linked outermost
  globals : h.Has (.frame Machine.globals)
  closed : ∀ {cell next : Cell}, h.Has cell → h.PointsTo cell next → h.Has next
  unborn : h.Unborn

namespace Heap

variable {outermost : List FrameId} {h : Heap}

/-- All that is there. -/
def whole (h : Heap) (outermost : List FrameId) : Territory :=
  ⟨h, h.Has, Forest.Linked outermost⟩

/-- What belongs to the whole of a heap later on is there. -/
theorem owns_whole_iff {later : Heap} (grown : ∀ {cell}, h.Has cell → later.Has cell)
    {cell : Cell} : (h.whole outermost).Owns later cell ↔ later.Has cell := by
  constructor
  · rintro (old | ⟨-, present⟩)
    · exact grown old
    · exact present
  · intro present
    by_cases old : h.Has cell
    · exact .inl old
    · exact .inr ⟨old, present⟩

namespace Sound

theorem holds (sound : h.Sound outermost) : (h.whole outermost).Holds h :=
  Territory.holds_base sound.linked sound.closed

theorem whole (sound : h.Sound outermost) : (h.whole outermost).Sound where
  globals := sound.globals
  unborn := sound.unborn
  linked_add holds here := holds.linked.add_some ((owns_whole_iff holds.grown).mp here)
  linked_define linked := linked.define _ _ _

/-- A heap that comes from a sound one within the whole of it is sound. -/
theorem of_holds (sound : h.Sound outermost) {later : Heap}
    (holds : (h.whole outermost).Holds later) : later.Sound outermost where
  linked := holds.linked
  globals := holds.grown sound.globals
  closed present points :=
    (owns_whole_iff holds.grown).mp
      (holds.closed ((owns_whole_iff holds.grown).mpr present) points)
  unborn := by
    intro identity unborn
    rw [holds.fields_eq fun owned => Nat.not_lt.mpr unborn ((owns_whole_iff holds.grown).mp owned)]
    exact sound.unborn (Nat.le_trans holds.nextIdentity_le unborn)

/-- Whatever is pointed to is there. -/
theorem has_of_pointsTo (sound : h.Sound outermost) {cell next : Cell}
    (points : h.PointsTo cell next) : h.Has next := by
  refine sound.closed ?_ points
  cases cell with
  | frame frame => exact points.has_frame
  | object identity =>
      apply Nat.lt_of_not_le
      intro unborn
      cases points with
      | field found _ =>
          rw [fieldsOf, sound.unborn unborn] at found
          exact absurd found (by simp)

/-- An outermost frame can be made by hand. -/
theorem add_none (sound : h.Sound outermost) :
    Heap.Sound (outermost ++ [h.forest.nextId]) { h with forest := h.forest.add none } where
  linked := sound.linked.add_none
  globals := Nat.lt_of_lt_of_le sound.globals (by rw [Forest.size_add]; exact Nat.le_succ _)
  closed := by
    intro cell next _ points
    have before : h.PointsTo cell next := by
      cases points with
      | outward encloses =>
          rw [Forest.enclosing?_add] at encloses
          split at encloses
          · cases encloses
          · exact .outward encloses
      | slot found points =>
          rw [Forest.slot?_add] at found
          exact .slot found points
      | field found points => exact .field found points
    have present := sound.has_of_pointsTo before
    cases next with
    | frame frame =>
        exact Nat.lt_of_lt_of_le present (by rw [Forest.size_add]; exact Nat.le_succ _)
    | object identity => exact present
  unborn := sound.unborn

end Sound

end Heap

/-! ## Operations -/

/-- What a caller can have a machine do. -/
inductive Operation
  /-- Adds the bindings of a program. -/
  | addBindings (bindings : Bindings)
  /-- Makes a frame, which need not be enclosed by another. -/
  | addFrame (enclosing : Option FrameId)
  /-- Gives a name in a frame a value: a global, or a name in a frame made by hand. -/
  | define (frame : FrameId) (name : String) (value : Value)
  /-- Runs a program and flushes the output. -/
  | interpret (effort : Nat) (program : List Stmt)
  /-- Executes a single statement. -/
  | execute (effort : Nat) (s : Stmt)
  /-- Executes statements with another frame current, which may have been made just for them. -/
  | block (effort : Nat) (frame : FrameId) (body : List Stmt)
  /-- Evaluates an expression. -/
  | evaluate (effort : Nat) (e : Expr)

/-- The value that a statement hands on. -/
def Flow.value? : Flow → Option Value
  | .next => none
  | .exit value => some value

namespace Operation

/-- What an operation does, and the value that the caller gets. -/
def run (host : Hosting) : Operation → Run (Option Value)
  | .addBindings bindings => do
    modify (·.addBindings bindings)
    return none
  | .addFrame enclosing => do
    modify fun m => { m with forest := m.forest.add enclosing }
    return none
  | .define frame name value => do
    Run.defineIn frame name value
    return none
  | .interpret effort program => do
    Run.interpret host effort program
    return none
  | .execute effort s => Flow.value? <$> Run.execute host effort s
  | .block effort frame body =>
    Flow.value? <$> Run.inFrame frame (Run.executeAll (Run.execute host effort) body)
  | .evaluate effort e => some <$> Run.evaluate host effort e

/-- What a caller hands in is there: it can only have got hold of frames and instances that are. -/
def Allowed (h : Heap) : Operation → Prop
  | .addFrame enclosing => ∀ frame, enclosing = some frame → h.Has (.frame frame)
  | .define frame _ value =>
    h.Has (.frame frame) ∧ ∀ cell, value.PointsTo cell → h.Has cell
  | .block _ frame _ => h.Has (.frame frame)
  | .addBindings _ | .interpret _ _ | .execute _ _ | .evaluate _ _ => True

/-- The outermost frame that an operation makes, if it makes one. -/
def outermost (h : Heap) : Operation → List FrameId
  | .addFrame none => [h.forest.nextId]
  | _ => []

/-- The value that the caller gets, if there is one. -/
def handed {ε : Type} : EStateM.Result Halt Machine (Option (Value ε)) → List (Value ε)
  | .ok value _ => value.toList
  | .error _ _ => []

end Operation

/--
What a caller can make of a machine by operations, with the outermost frames that it has made on the
way and the values that it has got.
-/
inductive Machine.Onward (host : Hosting) (m : Machine) :
    (outermost : List FrameId) → (handed : List Value) → Machine → Prop
  | refl : m.Onward host [] [] m
  | step {outermost : List FrameId} {handed : List Value} {n : Machine} (operation : Operation) :
      m.Onward host outermost handed n → operation.Allowed n.heap →
      m.Onward host (outermost ++ operation.outermost n.heap)
        (handed ++ Operation.handed (operation.run host n))
        (Machine.ofResult (operation.run host n))

namespace Operation

variable {host : Hosting} {n : Machine} {outermost : List FrameId}

/-- Every operation goes on from the machine as it is, but for the bindings that it may add. -/
theorem grows_run (host : Hosting) (operation : Operation) (n : Machine) :
    n.heap.Grows (Machine.ofResult (operation.run host n)).heap ∧
      (Machine.ofResult (operation.run host n)).current = n.current := by
  have of_continues {x : Run (Option Value)} (continues : x.Continues) :
      n.heap.Grows (Machine.ofResult (x n)).heap ∧
        (Machine.ofResult (x n)).current = n.current :=
    ⟨(continues n).grows_heap, (continues n).current_eq⟩
  cases operation with
  | addBindings bindings => exact ⟨⟨.refl _, Nat.le_refl _⟩, rfl⟩
  | addFrame enclosing =>
      exact of_continues (.bind (fun m => .addFrame m enclosing) fun _ => .pure _)
  | define frame name value =>
      exact of_continues (.bind (Run.defineIn_continues frame name value) fun _ => .pure _)
  | interpret effort program =>
      exact of_continues (.bind (Run.interpret_continues host effort program) fun _ => .pure _)
  | execute effort s => exact of_continues (.map _ (Run.execute_continues host effort s))
  | block effort frame body =>
      exact of_continues (.map _ (Run.inFrame_continues frame
        (Run.executeAll_continues (Run.execute_continues host effort) body)))
  | evaluate effort e => exact of_continues (.map _ (Run.evaluate_continues host effort e))

/-- Every operation leaves a sound heap, and hands out nothing that is not there. -/
theorem sound_run (hands : host.HandsOn) (sound : n.heap.Sound outermost)
    (current : n.heap.Has (.frame n.current)) {operation : Operation}
    (allowed : operation.Allowed n.heap) :
    (Machine.ofResult (operation.run host n)).heap.Sound (outermost ++ operation.outermost n.heap) ∧
      ∀ v ∈ handed (operation.run host n), ∀ cell, v.PointsTo cell →
        (Machine.ofResult (operation.run host n)).heap.Has cell := by
  have lawful := Territory.lawful sound.whole n.bindings
  have meets : ((n.heap.whole outermost).invariant n.bindings).Meets n := ⟨sound.holds, rfl⟩
  have owned {frame : FrameId} (there : n.heap.Has (.frame frame)) (depth : Nat) :
      ((n.heap.whole outermost).invariant n.bindings).Frame n.heap depth frame := .inl there
  have stands : ((n.heap.whole outermost).invariant n.bindings).Stands n
      ([] : Enclosures).length := ⟨meets, owned current 0⟩
  have runs (effort : Nat) := Run.keeps_of_effort lawful hands (fun _ _ _ => trivial) effort
  have of_keeps {x : Run (Option Value)}
      (keeps : ((n.heap.whole outermost).invariant n.bindings).Keeps n
        (fun h value => ∀ v ∈ value, ((n.heap.whole outermost).invariant n.bindings).Admits h v)
        (x n)) :
      (Machine.ofResult (x n)).heap.Sound (outermost ++ []) ∧
        ∀ v ∈ handed (x n), ∀ cell, v.PointsTo cell → (Machine.ofResult (x n)).heap.Has cell := by
    have holds : (n.heap.whole outermost).Holds (Machine.ofResult (x n)).heap := keeps.meets.holds
    refine ⟨by rw [List.append_nil]; exact sound.of_holds holds, ?_⟩
    intro v got cell points
    generalize x n = r at keeps holds got ⊢
    cases r with
    | error halt n' => cases got
    | ok value n' =>
        have admits := keeps.2.2 v (Option.mem_toList.mp got)
        exact (Heap.owns_whole_iff holds.grown).mp (Territory.admits_iff.mp admits cell points)
  have nothing {m : Machine} {v : Value} (absent : v ∈ (none : Option Value)) :
      ((n.heap.whole outermost).invariant n.bindings).Admits m.heap v :=
    absurd absent (Option.not_mem_none v)
  cases operation with
  | addBindings bindings =>
      have same : n.heap.Sound (outermost ++ []) := by rwa [List.append_nil]
      exact ⟨same, fun v got => nomatch got⟩
  | addFrame enclosing =>
      cases enclosing with
      | none => exact ⟨sound.add_none, fun v got => nomatch got⟩
      | some frame =>
          apply of_keeps
          have added := lawful.addFrame sound.holds (owned (allowed frame rfl) 0)
          refine @Invariant.Keeps.bind _ _ _ n (fun _ _ => True) _ _ _
            (Run.keeps_of_heap meets (.addFrame n (some frame)) added.1 trivial) ?_
          intro _ n' _ meets' _
          exact Invariant.Keeps.ok meets' fun v => nothing
  | define frame name value =>
      apply of_keeps
      refine Invariant.Keeps.bind (Run.defineIn_keeps lawful meets
        (owned allowed.1 0) (fun _ => trivial)
        (Territory.admits_iff.mpr fun cell points => .inl (allowed.2 cell points))) ?_
      intro _ n' _ meets' _
      exact Invariant.Keeps.ok meets' fun v => nothing
  | interpret effort program =>
      apply of_keeps
      refine Invariant.Keeps.bind (Run.interpret_keeps lawful (runs effort).2 stands
        (Territory.code_invariant _ _ _) fun _ _ _ _ => trivial) ?_
      intro _ n' _ meets' _
      exact Invariant.Keeps.ok meets' fun v => nothing
  | execute effort s =>
      apply of_keeps
      refine Invariant.Keeps.map _ ((runs effort).2 stands
        (Territory.code_invariant _ _ _) fun _ _ _ => trivial) ?_
      intro h flow made v got
      cases flow with
      | next => cases got
      | exit u =>
          cases got
          exact made
  | block effort frame body =>
      apply of_keeps
      refine Invariant.Keeps.map _ (Run.inFrame_keeps meets
        (owned allowed ([⟨.block, []⟩] : Enclosures).length)
        fun inner => Run.executeAll_keeps lawful (runs effort).2
          (List.cons_ne_nil _ _) inner (Territory.code_invariant _ _ _)) ?_
      intro h flow made v got
      cases flow with
      | next => cases got
      | exit u =>
          cases got
          exact made
  | evaluate effort e =>
      apply of_keeps
      refine Invariant.Keeps.map _ ((runs effort).1 stands
        fun _ _ => trivial) ?_
      intro h u admits v got
      cases got
      exact admits

end Operation

/-! ## Sequences of operations -/

theorem Machine.size_start (sink : Sink) : (Machine.start sink).forest.frames.size = 1 :=
  Forest.size_define _ _ _ _

theorem Machine.sound_start (sink : Sink) : (Machine.start sink).heap.Sound [] where
  linked :=
    { earlier := fun encloses => absurd (.outward encloses) (Machine.not_pointsTo_start sink)
      ends := by
        intro frame there _
        exact .inl (Nat.lt_one_iff.mp (Machine.size_start sink ▸ there)) }
  globals := by
    change 0 < (Machine.start sink).forest.frames.size
    rw [Machine.size_start]
    exact Nat.zero_lt_one
  closed _ points := absurd points (Machine.not_pointsTo_start sink)
  unborn := Machine.unborn_start sink

namespace Machine.Onward

variable {host : Hosting} {outermost : List FrameId} {handed : List Value} {m n : Machine}

theorem grows (onward : m.Onward host outermost handed n) :
    m.forest.Grows n.forest := by
  induction onward with
  | refl => exact .refl _
  | step operation _ _ ih => exact ih.trans (Operation.grows_run host operation _).1.forest

theorem sound (hands : host.HandsOn) (sound : m.heap.Sound [])
    (current : m.heap.Has (.frame m.current)) (onward : m.Onward host outermost handed n) :
    n.heap.Sound outermost ∧ n.heap.Has (.frame n.current) ∧
      ∀ v ∈ handed, ∀ cell, v.PointsTo cell → n.heap.Has cell := by
  induction onward with
  | refl => exact ⟨sound, current, fun v got => nomatch got⟩
  | step operation _ allowed ih =>
      obtain ⟨sound, current, got⟩ := ih
      obtain ⟨grows, same⟩ := Operation.grows_run host operation _
      obtain ⟨sound', got'⟩ := Operation.sound_run hands sound current allowed
      refine ⟨sound', by rw [same]; exact current.mono grows, ?_⟩
      intro v given cell points
      rcases List.mem_append.mp given with old | new
      · exact (got v old cell points).mono grows
      · exact got' v new cell points

end Machine.Onward

/-- The frames of a machine are a forest, and all that a caller can come to is there. -/
structure Machine.WellLinked (m : Machine) (outermost : List FrameId) (handed : List Value) :
    Prop where
  /-- Each link leads to an earlier frame. -/
  earlier : ∀ frame outer, m.forest.enclosing? frame = some outer → outer < frame
  /-- So no frame is outward of itself. -/
  add_depth_le : ∀ frame depth owner, m.forest.ancestor? depth frame = some owner →
    owner + depth ≤ frame
  /-- Going outward comes to an end at the globals or at an outermost frame. -/
  ends : ∀ frame < m.forest.frames.size, ∃ depth ≤ frame, ∃ root,
    m.forest.ancestor? depth frame = some root ∧ m.forest.enclosing? root = none ∧
      (root = Machine.globals ∨ root ∈ outermost)
  /-- What is current, stored or handed out is there, with all that it points to. -/
  has : ∀ cell, (cell = .frame m.current ∨ (∃ other, m.heap.PointsTo other cell) ∨
    ∃ v ∈ handed, v.PointsTo cell) → m.heap.Has cell

/--
The frames stay a forest. In whatever state a caller has brought a machine by operations, each link
leads to an earlier frame; so no frame is outward of itself, and going outward from a frame comes to
an end at the globals or at an outermost frame that the caller made. The current frame, and the
frames and instances that any frame, any instance or any value handed to the caller points to, are
there. From any state to any later one, frames keep their links and their names.
-/
theorem frames_stay_linked {host : Hosting} (hands : host.HandsOn) {sink : Sink}
    {outermost outermost' : List FrameId} {handed handed' : List Value} {m m' : Machine}
    (reached : (Machine.start sink).Onward host outermost handed m)
    (later : m.Onward host outermost' handed' m') :
    m.WellLinked outermost handed ∧ m.forest.Grows m'.forest := by
  have present : (Machine.start sink).heap.Has (.frame (Machine.start sink).current) :=
    (Machine.sound_start sink).globals
  obtain ⟨sound, current, got⟩ := reached.sound hands (Machine.sound_start sink) present
  refine ⟨⟨fun _ _ => sound.linked.earlier, fun _ _ _ => sound.linked.add_depth_le,
    fun frame there => sound.linked.exists_outermost frame there, ?_⟩, later.grows⟩
  rintro cell (rfl | ⟨other, points⟩ | ⟨v, given, points⟩)
  · exact current
  · exact sound.has_of_pointsTo points
  · exact got v given cell points

/-- A block that returns out of a frame inside a frame made by hand. -/
theorem frames_stay_linked_of_return :
    let host := Hosting.withClock fun _ => .error "no clock"
    let m := Machine.ofResult
      ((Operation.addFrame (some Machine.globals)).run host (Machine.start .unlimited))
    let block := Operation.block 9 1 [.block [.exit 1 (some (.literal .nil))]]
    let m' := Machine.ofResult (block.run host m)
    host.HandsOn ∧ (Machine.start .unlimited).Onward host [] [] m ∧
      m.Onward host [] [.nil] m' ∧ m'.forest.frames.size = 3 ∧
      m'.forest.enclosing? 1 = m.forest.enclosing? 1 ∧
      ∃ depth ≤ 2, m'.forest.ancestor? depth 2 = some Machine.globals := by
  intro host m block m'
  have hands : host.HandsOn := Hosting.handsOn_withClock _
  have framed : (Machine.start .unlimited).Onward host [] [] m :=
    .step (.addFrame (some Machine.globals)) .refl fun frame same => by
      cases same
      exact (Machine.sound_start _).globals
  have size : m.forest.frames.size = 2 := by decide +kernel
  have here : m.heap.Has (.frame 1) := by
    change 1 < m.forest.frames.size
    omega
  have size' : m'.forest.frames.size = 3 := by decide +kernel
  have returned : Operation.handed (block.run host m) = [.nil] := by with_unfolding_all rfl
  have later : m.Onward host [] [.nil] m' := by
    have start : m.Onward host [] [] m := .refl
    have stepped := Machine.Onward.step block start here
    rwa [returned] at stepped
  have both : (Machine.start .unlimited).Onward host [] [.nil] m' := by
    have stepped := Machine.Onward.step block framed here
    rwa [returned] at stepped
  obtain ⟨depth, within, root, reached, -, ends⟩ :=
    (frames_stay_linked hands both .refl).1.ends 2 (by omega)
  obtain rfl := ends.resolve_right List.not_mem_nil
  have grows := (frames_stay_linked hands framed later).2
  exact ⟨hands, framed, later, size', grows.enclosing?_eq 1 (by omega), depth, within, reached⟩

end Rill
