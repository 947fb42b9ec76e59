import Rill.Proofs.Store.Territory

/-!
# Private state

A statement can only come to what can be reached from the current frame and the globals, and a call
to what can be reached from the globals, the function and its arguments. All else keeps its
contents, however the run ends, and is out of reach afterwards as well.
-/

namespace Rill

/-- Nothing is kept under identities that have not been given out. -/
def Heap.Unborn (h : Heap) : Prop :=
  ∀ {identity : Identity}, h.nextIdentity ≤ identity → h.fields[identity]? = none

/-- The cells that a statement starts from. -/
def Machine.scope (m : Machine) (cell : Cell) : Prop :=
  cell = .frame m.current ∨ cell = .frame Machine.globals

/-- The cells that a call starts from. -/
def Value.callScope (callee : Value) (arguments : List Value) (cell : Cell) : Prop :=
  cell = .frame Machine.globals ∨ callee.PointsTo cell ∨ ∃ v ∈ arguments, v.PointsTo cell

/-- The cells that a statement hands on. -/
def Flow.PointsTo : Flow → Cell → Prop
  | .next, _ => False
  | .exit value, cell => value.PointsTo cell

/-- The territory of what can be reached. -/
def Heap.reach (h : Heap) (roots : Cell → Prop) : Territory := ⟨h, h.Reaches roots, fun _ => True⟩

/-- A run has kept to what could be reached from certain cells in front of it. -/
structure Confined {α : Type} (roots : Cell → Prop) (pointsTo : α → Cell → Prop) (m : Machine)
    (result : EStateM.Result Halt Machine α) : Prop where
  current_eq : (Machine.ofResult result).current = m.current
  frame_eq : ∀ {frame : FrameId}, m.heap.Has (.frame frame) →
    ¬ m.heap.Reaches roots (.frame frame) →
      (Machine.ofResult result).forest.frames[frame]? = m.forest.frames[frame]?
  fields_eq : ∀ {identity : Identity}, m.heap.Has (.object identity) →
    ¬ m.heap.Reaches roots (.object identity) →
      (Machine.ofResult result).fields[identity]? = m.fields[identity]?
  /-- What can be reached afterwards, also from the result, is new or could be reached before. -/
  reaches : ∀ {cell : Cell},
    (Machine.ofResult result).heap.Reaches
      (fun root => roots root ∨ ∃ a n, result = .ok a n ∧ pointsTo a root) cell →
    m.heap.Reaches roots cell ∨ ¬ m.heap.Has cell ∧ (Machine.ofResult result).heap.Has cell

section Reach

variable {m : Machine} {roots : Cell → Prop} (unborn : m.heap.Unborn)
  (globals : roots (.frame Machine.globals))

include unborn globals

theorem Heap.sound_reach : (m.heap.reach roots).Sound where
  globals := .root globals
  unborn := unborn
  linked_add _ _ := trivial
  linked_define _ := trivial

omit unborn globals in
theorem Heap.meets_reach : ((m.heap.reach roots).invariant m.bindings).Meets m :=
  ⟨Territory.holds_base trivial .step, rfl⟩

omit unborn globals in
/-- What stays in its territory is confined to it. -/
theorem confined_of_keeps {α : Type} {pointsTo : α → Cell → Prop} {post : Heap → α → Prop}
    {result : EStateM.Result Halt Machine α} (continues : m.Continues (Machine.ofResult result))
    (keeps : ((m.heap.reach roots).invariant m.bindings).Keeps m post result)
    (handed : ∀ {h a cell}, post h a → pointsTo a cell → (m.heap.reach roots).Owns h cell) :
    Confined roots pointsTo m result := by
  have holds : (m.heap.reach roots).Holds (Machine.ofResult result).heap := keeps.meets.holds
  refine ⟨continues.current_eq, ?_, ?_, ?_⟩
  · intro frame present foreign
    exact holds.frames_eq fun owned => owned.elim foreign fun new => new.1 present
  · intro identity present foreign
    exact holds.fields_eq fun owned => owned.elim foreign fun new => new.1 present
  · intro cell reached
    refine reached.closed ?_ holds.closed
    rintro root (old | ⟨a, n, ended, points⟩)
    · exact .inl (.root old)
    · exact handed (keeps.result ended) points

end Reach

/--
Private state stays private. However a statement ends, the frames and instances that could not be
reached from the current frame and the globals have the contents that they had, and what can be
reached afterwards could be reached before or is new. The same holds of a call, from the globals,
what is called, and the arguments: so of two functions, the call of one neither changes nor gets
hold of what only the other one can reach.
-/
theorem private_state_stays_private {host : Hosting} (hands : host.HandsOn) (effort : Nat)
    {m : Machine} (unborn : m.heap.Unborn) :
    (∀ s : Stmt, Confined m.scope Flow.PointsTo m (Run.execute host effort s m)) ∧
    (∀ (callee : Value) (arguments : List Value) (line : Nat),
      Confined (callee.callScope arguments) Value.PointsTo m
        (Run.callWith host (Run.execute host effort) arguments line callee m)) ∧
    ∀ (one other : Closure) (arguments : List Value) (line : Nat) (cell : Cell),
      m.heap.Has cell → m.heap.Reaches (· = .frame other.environment) cell →
      ¬ m.heap.Reaches (Value.callScope (.closure one) arguments) cell →
      let result := Run.callWith host (Run.execute host effort) arguments line (.closure one) m
      (∀ frame, cell = .frame frame →
        (Machine.ofResult result).forest.frames[frame]? = m.forest.frames[frame]?) ∧
      (∀ identity, cell = .object identity →
        (Machine.ofResult result).fields[identity]? = m.fields[identity]?) ∧
      ¬ (Machine.ofResult result).heap.Reaches (fun root =>
        Value.callScope (.closure one) arguments root ∨
          ∃ v n, result = .ok v n ∧ v.PointsTo root) cell := by
  have calls (callee : Value) (arguments : List Value) (line : Nat) :
      Confined (callee.callScope arguments) Value.PointsTo m
        (Run.callWith host (Run.execute host effort) arguments line callee m) := by
    have sound : (m.heap.reach (callee.callScope arguments)).Sound :=
      Heap.sound_reach unborn (.inl rfl)
    have lawful := Territory.lawful sound m.bindings
    refine confined_of_keeps (Run.callWith_continues ?_ _ _ _ m)
      (Run.callWith_keeps lawful hands (Run.keeps_of_effort lawful hands ?_ effort).2
        Heap.meets_reach ?_ ?_ line) ?_
    · exact Run.execute_continues host effort
    · exact fun _ _ _ => trivial
    · exact Territory.admits_iff.mpr fun cell points => .inl (.root (.inr (.inl points)))
    · intro v present
      exact Territory.admits_iff.mpr fun cell points =>
        .inl (.root (.inr (.inr ⟨v, present, points⟩)))
    · intro h v cell admits points
      exact Territory.admits_iff.mp admits cell points
  refine ⟨?_, calls, ?_⟩
  · intro s
    have sound : (m.heap.reach m.scope).Sound := Heap.sound_reach unborn (.inr rfl)
    have lawful := Territory.lawful sound m.bindings
    have stands : ((m.heap.reach m.scope).invariant m.bindings).Stands m ([] : Enclosures).length :=
      ⟨Heap.meets_reach, .inl (.root (.inl rfl))⟩
    refine confined_of_keeps (Run.execute_continues host effort s m)
      ((Run.keeps_of_effort lawful hands ?_ effort).2 stands ?_ ?_) ?_
    · exact fun _ _ _ => trivial
    · exact Territory.code_invariant _ _ _
    · exact fun _ _ _ => trivial
    · intro h flow cell made points
      cases flow with
      | next => cases points
      | exit v => exact Territory.admits_iff.mp made cell points
  · intro one other arguments line cell present _ foreign result
    have confined := calls (.closure one) arguments line
    refine ⟨?_, ?_, ?_⟩
    · rintro frame rfl
      exact confined.frame_eq present foreign
    · rintro identity rfl
      exact confined.fields_eq present foreign
    · intro reached
      exact (confined.reaches reached).elim foreign fun new => new.1 present

/-! ## The first machine -/

theorem Machine.unborn_start (sink : Sink) : (Machine.start sink).heap.Unborn :=
  fun _ => Std.TreeMap.getElem?_emptyc

/-- At first there is only the clock, which holds on to nothing. -/
theorem Machine.not_pointsTo_start (sink : Sink) {cell next : Cell} :
    ¬ (Machine.start sink).heap.PointsTo cell next := by
  intro points
  rcases Heap.pointsTo_define (Machine.empty sink).heap points with ⟨-, held⟩ | before
  · exact held
  · cases before with
    | outward encloses =>
        have linked : (Forest.empty.add none).enclosing? _ = some _ := encloses
        rw [Forest.enclosing?_add] at linked
        split at linked <;> cases linked
    | slot found _ =>
        have kept : (Forest.empty.add none).slot? _ _ = some _ := found
        rw [Forest.slot?_add] at kept
        cases kept
    | field found _ =>
        have kept : (∅ : Table Value)[_]? = some _ := found
        rw [Std.TreeMap.getElem?_emptyc] at kept
        cases kept

/-- A frame that nothing points to is left alone by a block. -/
theorem private_state_stays_private_of_block :
    let host := Hosting.withClock fun _ => .error "no clock"
    let m : Machine :=
      { Machine.start .unlimited with forest := (Machine.start .unlimited).forest.add (some 0) }
    let s : Stmt := .block [.declare ⟨"x", 1⟩ (some (.literal (.bool true)))]
    let m' := Machine.ofResult (Run.execute host 9 s m)
    host.HandsOn ∧ m.heap.Unborn ∧ m.heap.Has (.frame 1) ∧ m'.forest.frames.size = 3 ∧
      ¬ m.heap.Reaches m.scope (.frame 1) ∧ ¬ m'.heap.Reaches m.scope (.frame 1) ∧
      m'.forest.frames[1]? = m.forest.frames[1]? := by
  intro host m s m'
  have hands : host.HandsOn := Hosting.handsOn_withClock _
  have unborn : m.heap.Unborn := Machine.unborn_start .unlimited
  have size : m.forest.frames.size = 2 := by decide +kernel
  have present : m.heap.Has (.frame 1) := by
    change 1 < m.forest.frames.size
    omega
  have apart : ¬ m.heap.Reaches m.scope (.frame 1) := by
    intro reached
    have outside : (Cell.frame 1) = .frame 0 := by
      refine @Heap.Reaches.closed _ _ _ (· = .frame 0) reached (fun root => root.elim id id) ?_
      rintro _ next rfl points
      rcases Heap.pointsTo_addFrame (Machine.start .unlimited).heap points with ⟨new, -⟩ | before
      · cases new
      · exact absurd before (Machine.not_pointsTo_start _)
    cases outside
  have confined := (private_state_stays_private hands 9 unborn).1 s
  refine ⟨hands, unborn, present, by decide +kernel, apart, ?_, confined.frame_eq present apart⟩
  intro reached
  exact (confined.reaches (reached.mono fun root => .inl root)).elim apart
    fun new => new.1 present

end Rill
