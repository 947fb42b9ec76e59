import Rill.Proofs.Machine.Contents
import Rill.Proofs.Machine.Declarations
import Rill.Proofs.Machine.Variables
import Rill.Proofs.Scope.Sites

/-!
# Invariants of runs

An invariant asks something of the heap of a machine, of the frames that may be current, and of what
values are made of. If every single change of a heap keeps it, then so does every statement,
expression and call, however it ends. What is asked of code is asked of its mentions, by the number
of scopes that are open around them.
-/

namespace Rill

/-! ## Heaps -/

/-- What a machine keeps apart from its place in a program and its surroundings. -/
structure Heap where
  forest : Forest
  fields : Std.TreeMap Identity (Table Value)
  nextIdentity : Identity

namespace Heap

/-- The heap with another frame. -/
def addFrame (h : Heap) (enclosing : FrameId) : Heap :=
  { h with forest := h.forest.add (some enclosing) }

/-- The heap in which a name of a frame has another value. -/
def define (h : Heap) (frame : FrameId) (name : String) (value : Value) : Heap :=
  { h with forest := h.forest.define frame name value }

/-- The heap in which an identity is given out. -/
def skipIdentity (h : Heap) : Heap := { h with nextIdentity := h.nextIdentity + 1 }

/-- The heap in which an instance has other fields. -/
def setFields (h : Heap) (identity : Identity) (fields : Table Value) : Heap :=
  { h with fields := h.fields.insert identity fields }

/-- The fields of an instance. -/
def fieldsOf (h : Heap) (identity : Identity) : Table Value := h.fields[identity]?.getD ∅

/-- One heap has become another: frames keep their links and names, and identities stay given. -/
structure Grows (h later : Heap) : Prop where
  forest : h.forest.Grows later.forest
  nextIdentity_le : h.nextIdentity ≤ later.nextIdentity

theorem grows_addFrame (h : Heap) (enclosing : FrameId) : h.Grows (h.addFrame enclosing) :=
  ⟨.add _ _, Nat.le_refl _⟩

theorem grows_define (h : Heap) (frame : FrameId) (name : String) (value : Value) :
    h.Grows (h.define frame name value) :=
  ⟨.define _ _ _ _, Nat.le_refl _⟩

theorem grows_skipIdentity (h : Heap) : h.Grows h.skipIdentity := ⟨.refl _, Nat.le_succ _⟩

theorem grows_setFields (h : Heap) (identity : Identity) (fields : Table Value) :
    h.Grows (h.setFields identity fields) :=
  ⟨.refl _, Nat.le_refl _⟩

theorem fieldsOf_setFields (h : Heap) (identity other : Identity) (fields : Table Value) :
    (h.setFields identity fields).fieldsOf other =
      if other = identity then fields else h.fieldsOf other := by
  rw [fieldsOf, setFields, getElem?_insert_eq]
  split <;> rfl

end Heap

/-- The heap of a machine. -/
def Machine.heap (m : Machine) : Heap := ⟨m.forest, m.fields, m.nextIdentity⟩

theorem Machine.Continues.grows_heap {m m' : Machine} (continues : m.Continues m') :
    m.heap.Grows m'.heap :=
  ⟨continues.grows, continues.nextIdentity_le⟩

/-! ## Invariants -/

/-- What is asked of a machine and of the code that it runs. -/
structure Invariant where
  /-- What the machine takes mentions to refer to. -/
  bindings : Bindings
  Holds : Heap → Prop
  /-- A frame may be current where so many scopes are open. -/
  Frame : Heap → (depth : Nat) → FrameId → Prop
  /-- A value may be made of an instance. -/
  Object : Heap → Identity → Prop
  /-- A mention may stand where so many scopes are open. -/
  Mention : (depth : Nat) → Occurrence → Prop
  /-- A name may be declared among the globals. -/
  Declares : String → Prop
  /-- A mention may change the global of its name. -/
  Assigns : Occurrence → String → Prop

namespace Invariant

variable {I : Invariant}

/-- Mentions may stand where so many scopes are open. -/
def Suits (I : Invariant) (depth : Nat) (mentions : List Rill.Mention) : Prop :=
  ∀ m ∈ mentions, I.Mention depth m.id

/-- The mentions at sites may stand there. -/
def Code (I : Invariant) (sites : List Site) : Prop :=
  ∀ site ∈ sites, ∀ m, site.mention? = some m → I.Mention site.around.length m.id

/-- A routine may be called from where so many scopes are open around it. -/
def Runs (I : Invariant) (depth : Nat) (routine : Routine) : Prop :=
  ∃ around : Enclosures, around.length = depth + 1 ∧ I.Code (Stmt.sitesAll around routine.body)

/--
What values may be made of. A method has one scope more around it than the frame that it keeps, in
which `self` is declared.
-/
def parts (I : Invariant) (h : Heap) : Parts where
  closures c := ∃ depth, I.Frame h depth c.environment ∧ I.Runs depth c.routine
  methods c := ∃ depth, I.Frame h depth c.environment ∧ I.Runs (depth + 1) c.routine
  objects := I.Object h

/-- A value that may be kept. -/
abbrev Admits (I : Invariant) (h : Heap) (v : Value) : Prop := v.MadeOf (I.parts h)

/-- Every single change of a heap keeps an invariant. -/
structure Lawful (I : Invariant) : Prop where
  frame_mono {h later : Heap} {depth : Nat} {frame : FrameId} : h.Grows later →
    I.Frame h depth frame → I.Frame later depth frame
  object_mono {h later : Heap} {identity : Identity} : h.Grows later →
    I.Object h identity → I.Object later identity
  addFrame {h : Heap} {depth : Nat} {frame : FrameId} : I.Holds h → I.Frame h depth frame →
    I.Holds (h.addFrame frame) ∧ I.Frame (h.addFrame frame) (depth + 1) h.forest.nextId
  skipIdentity {h : Heap} : I.Holds h → I.Holds h.skipIdentity
  newObject {h : Heap} : I.Holds h → I.Holds (h.skipIdentity.setFields h.nextIdentity ∅) ∧
    I.Object (h.skipIdentity.setFields h.nextIdentity ∅) h.nextIdentity
  define {h : Heap} {depth : Nat} {frame : FrameId} {name : String} {v : Value} : I.Holds h →
    I.Frame h depth frame → (depth = 0 → I.Declares name) → I.Admits h v →
    I.Holds (h.define frame name v)
  assignBound {h : Heap} {depth d : Nat} {frame owner : FrameId} {id : Occurrence} {name : String}
    {v : Value} : I.Holds h → I.Frame h depth frame → I.Mention depth id →
    I.bindings[id]? = some d → h.forest.ancestor? d frame = some owner → I.Admits h v →
    I.Holds (h.define owner name v)
  assignGlobal {h : Heap} {id : Occurrence} {name : String} {old v : Value} : I.Holds h →
    I.bindings[id]? = none → I.Assigns id name →
    h.forest.slot? Machine.globals name = some old → I.Admits h v →
    I.Holds (h.define Machine.globals name v)
  setField {h : Heap} {identity : Identity} {name : String} {v : Value} : I.Holds h →
    I.Object h identity → I.Admits h v →
    I.Holds (h.setFields identity ((h.fieldsOf identity).insert name v))
  slot {h : Heap} {depth d : Nat} {frame owner : FrameId} {name : String} {v : Value} :
    I.Holds h → I.Frame h depth frame → h.forest.ancestor? d frame = some owner →
    h.forest.slot? owner name = some v → I.Admits h v
  global {h : Heap} {name : String} {v : Value} : I.Holds h →
    h.forest.slot? Machine.globals name = some v → I.Admits h v
  field {h : Heap} {identity : Identity} {name : String} {v : Value} : I.Holds h →
    I.Object h identity → (h.fieldsOf identity)[name]? = some v → I.Admits h v

/-- A machine meets an invariant. -/
structure Meets (I : Invariant) (m : Machine) : Prop where
  holds : I.Holds m.heap
  bindings_eq : m.bindings = I.bindings

/-- A machine meets an invariant where so many scopes are open. -/
structure Stands (I : Invariant) (m : Machine) (depth : Nat) : Prop extends I.Meets m where
  frame : I.Frame m.heap depth m.current

/-- A run has kept an invariant. -/
def Keeps {α : Type} (I : Invariant) (m : Machine) (post : Heap → α → Prop) :
    EStateM.Result Halt Machine α → Prop
  | .ok a m' => m.Continues m' ∧ I.Meets m' ∧ post m'.heap a
  | .error _ m' => m.Continues m' ∧ I.Meets m'

/-! ## Code -/

theorem suits_append {depth : Nat} {first second : List Rill.Mention} :
    I.Suits depth (first ++ second) ↔ I.Suits depth first ∧ I.Suits depth second :=
  List.forall_mem_append

theorem code_append {first second : List Site} :
    I.Code (first ++ second) ↔ I.Code first ∧ I.Code second :=
  List.forall_mem_append

/-- A site without a mention asks nothing. -/
theorem code_cons {site : Site} {rest : List Site} (code : I.Code (site :: rest)) : I.Code rest :=
  (List.forall_mem_cons.mp code).2

theorem Code.suits {around : Enclosures} {initialized : Option String}
    {mentions : List Rill.Mention} (code : I.Code (mentionSites around initialized mentions)) :
    I.Suits around.length mentions := by
  intro m present
  exact code _ (List.mem_map.mpr ⟨m, present, rfl⟩) m rfl

theorem length_declare (around : Enclosures) (name : String) :
    (around.declare name).length = around.length := by
  cases around <;> rfl

theorem length_behind (around : Enclosures) (s : Stmt) :
    (around.behind s).length = around.length := by
  cases s <;> first | rfl | exact length_declare _ _

/-- Behind a statement among the globals, there are still no scopes around. -/
theorem behind_nil (s : Stmt) : Enclosures.behind [] s = [] :=
  List.eq_nil_of_length_eq_zero (length_behind [] s)

theorem length_declareParams (around : Enclosures) (params : List Ident) :
    (around.declareParams params).length = around.length := by
  induction params generalizing around with
  | nil => rfl
  | cons name rest ih => exact (ih _).trans (length_declare _ _)

theorem length_openLoop (around : Enclosures) (counter : Option LoopVar) :
    (around.openLoop counter).length = around.length + 1 := by
  cases counter <;> rfl

/-- A routine that stands among scopes may be called from there. -/
theorem runs_of_code {around : Enclosures} {kind : EnclosureKind} {params : List Ident}
    {routine : Routine}
    (code : I.Code (Stmt.sitesAll (Enclosures.declareParams (⟨kind, []⟩ :: around) params)
      routine.body)) :
    I.Runs around.length routine :=
  ⟨_, length_declareParams _ _, code⟩

/-! ## Growing heaps -/

/-- Where frames and instances last, so do the parts that values may be made of. -/
theorem parts_implies_of {h later : Heap}
    (frames : ∀ {depth frame}, I.Frame h depth frame → I.Frame later depth frame)
    (objects : ∀ {identity}, I.Object h identity → I.Object later identity) :
    (I.parts h).Implies (I.parts later) where
  closures := fun ⟨depth, frame, runs⟩ => ⟨depth, frames frame, runs⟩
  methods := fun ⟨depth, frame, runs⟩ => ⟨depth, frames frame, runs⟩
  objects := objects

section Growth

variable {m m' : Machine} {depth : Nat} (lawful : I.Lawful) (continues : m.Continues m')

include lawful continues

theorem parts_implies : (I.parts m.heap).Implies (I.parts m'.heap) :=
  parts_implies_of (lawful.frame_mono continues.grows_heap)
    (lawful.object_mono continues.grows_heap)

theorem Admits.mono {v : Value} (admits : I.Admits m.heap v) : I.Admits m'.heap v :=
  Value.MadeOf.imp admits (parts_implies lawful continues)

theorem Stands.mono (stands : I.Stands m depth) (meets : I.Meets m') : I.Stands m' depth := by
  refine ⟨meets, ?_⟩
  rw [continues.current_eq]
  exact lawful.frame_mono continues.grows_heap stands.frame

end Growth

/-! ## Sequences -/

namespace Keeps

variable {α β : Type} {m m' : Machine} {post post' : Heap → α → Prop}

theorem ok {a : α} (meets : I.Meets m) (holds : post m.heap a) : I.Keeps m post (.ok a m) :=
  ⟨.refl m, meets, holds⟩

theorem halt {halt : Halt} (meets : I.Meets m) : I.Keeps m post (.error halt m) := ⟨.refl m, meets⟩

theorem behind {r : EStateM.Result Halt Machine α} (continues : m.Continues m')
    (keeps : I.Keeps m' post r) : I.Keeps m post r := by
  cases r with
  | ok a n => exact ⟨continues.trans keeps.1, keeps.2⟩
  | error halt n => exact ⟨continues.trans keeps.1, keeps.2⟩

theorem mono {r : EStateM.Result Halt Machine α} (keeps : I.Keeps m post r)
    (implies : ∀ {h a}, post h a → post' h a) : I.Keeps m post' r := by
  cases r with
  | ok a n => exact ⟨keeps.1, keeps.2.1, implies keeps.2.2⟩
  | error halt n => exact keeps

theorem meets {r : EStateM.Result Halt Machine α} (keeps : I.Keeps m post r) :
    I.Meets (Machine.ofResult r) := by
  cases r with
  | ok a n => exact keeps.2.1
  | error halt n => exact keeps.2

theorem result {a : α} {n : Machine} {r : EStateM.Result Halt Machine α}
    (keeps : I.Keeps m post r) (ended : r = .ok a n) : post (Machine.ofResult r).heap a := by
  cases ended
  exact keeps.2.2

/-- What follows starts from the machine that the first part leaves. -/
theorem bind {x : Run α} {f : α → Run β} {post' : Heap → β → Prop}
    (first : I.Keeps m post (x m))
    (next : ∀ {a n}, m.Continues n → I.Meets n → post n.heap a → I.Keeps n post' (f a n)) :
    I.Keeps m post' ((x >>= f) m) := by
  change I.Keeps m post' (EStateM.bind x f m)
  unfold EStateM.bind
  revert first
  generalize x m = r
  intro first
  cases r with
  | ok a n => exact behind first.1 (next first.1 first.2.1 first.2.2)
  | error halt n => exact first

theorem map {x : Run α} (g : α → β) {post' : Heap → β → Prop} (keeps : I.Keeps m post (x m))
    (implies : ∀ {h a}, post h a → post' h (g a)) : I.Keeps m post' ((g <$> x) m) := by
  change I.Keeps m post' (EStateM.map g x m)
  unfold EStateM.map
  revert keeps
  generalize x m = r
  intro keeps
  cases r with
  | ok a n => exact ⟨keeps.1, keeps.2.1, implies keeps.2.2⟩
  | error halt n => exact keeps

/-- Where nothing is said of the answer, the machine that is left decides. -/
theorem of_ofResult {r : EStateM.Result Halt Machine α}
    (continues : m.Continues (Machine.ofResult r)) (meets : I.Meets (Machine.ofResult r)) :
    I.Keeps m (fun _ _ => True) r := by
  cases r with
  | ok a n => exact ⟨continues, meets, trivial⟩
  | error halt n => exact ⟨continues, meets⟩

end Keeps

/-- Expressions are evaluated to values that may be kept. -/
def Evaluates (I : Invariant) (evaluate : Expr → Run Value) : Prop :=
  ∀ {m : Machine} {depth : Nat} {e : Expr}, I.Stands m depth → I.Suits depth e.mentions →
    I.Keeps m I.Admits (evaluate e m)

/-- Statements are executed among scopes. Those outside of all may only declare certain names. -/
def Executes (I : Invariant) (execute : Stmt → Run Flow) : Prop :=
  ∀ {m : Machine} {around : Enclosures} {s : Stmt}, I.Stands m around.length →
    I.Code (s.sites around) → (around = [] → ∀ name, s.declared? = some name → I.Declares name) →
    I.Keeps m (fun h flow => flow.MadeOf (I.parts h)) (execute s m)

end Invariant

namespace Run

open Invariant

variable {I : Invariant} {m : Machine} {depth : Nat} (lawful : I.Lawful)

/-! ## Frames and variables -/

/-- A change of the heap keeps an invariant if the heap behind it does. -/
theorem keeps_of_heap {α : Type} {post : Heap → α → Prop} {m' : Machine} {a : α}
    (meets : I.Meets m) (continues : m.Continues m') (holds : I.Holds m'.heap)
    (ended : post m'.heap a) : I.Keeps m post (.ok a m') :=
  ⟨continues, ⟨holds, continues.bindings_eq.trans meets.bindings_eq⟩, ended⟩

include lawful

theorem newFrame_keeps (meets : I.Meets m) {enclosing : FrameId}
    (frame : I.Frame m.heap depth enclosing) :
    I.Keeps m (fun h new => I.Frame h (depth + 1) new) (newFrame enclosing m) :=
  have added := lawful.addFrame meets.holds frame
  keeps_of_heap meets (newFrame_continues enclosing m) added.1 added.2

theorem newIdentity_keeps (meets : I.Meets m) :
    I.Keeps m (fun _ _ => True) (newIdentity m) :=
  keeps_of_heap meets (newIdentity_continues m) (lawful.skipIdentity meets.holds) trivial

theorem defineIn_keeps (meets : I.Meets m) {frame : FrameId} {name : String} {v : Value}
    (stands : I.Frame m.heap depth frame) (declares : depth = 0 → I.Declares name)
    (admits : I.Admits m.heap v) : I.Keeps m (fun _ _ => True) (defineIn frame name v m) :=
  keeps_of_heap meets (defineIn_continues frame name v m)
    (lawful.define meets.holds stands declares admits) trivial

theorem define_keeps (stands : I.Stands m depth) {name : String} {v : Value}
    (declares : depth = 0 → I.Declares name) (admits : I.Admits m.heap v) :
    I.Keeps m (fun _ _ => True) (define name v m) :=
  keeps_of_heap stands.toMeets (define_continues name v m)
    (lawful.define stands.holds stands.frame declares admits) trivial

omit lawful in
theorem inFrame_keeps {α : Type} {post : Heap → α → Prop} {frame : FrameId} {body : Run α}
    (meets : I.Meets m) (stands : I.Frame m.heap depth frame)
    (runs : ∀ {n}, I.Stands n depth → I.Keeps n post (body n)) :
    I.Keeps m post (inFrame frame body m) := by
  have ended := runs (n := { m with current := frame })
    ⟨⟨meets.holds, meets.bindings_eq⟩, stands⟩
  unfold inFrame
  dsimp only
  revert ended
  generalize body { m with current := frame } = r
  intro ended
  cases r with
  | ok a n => exact ⟨ended.1.within, ⟨ended.2.1.holds, ended.2.1.bindings_eq⟩, ended.2.2⟩
  | error halt n => exact ⟨ended.1.within, ended.2.holds, ended.2.bindings_eq⟩

theorem inNewFrame_keeps {α : Type} {post : Heap → α → Prop} {body : Run α}
    (stands : I.Stands m depth)
    (runs : ∀ {n}, I.Stands n (depth + 1) → I.Keeps n post (body n)) :
    I.Keeps m post (inNewFrame body m) := by
  rw [inNewFrame, get_bind]
  apply Keeps.bind (newFrame_keeps lawful stands.toMeets stands.frame)
  intro frame n continues meets new
  exact inFrame_keeps meets new runs

/-- What is found so many frames outward may be kept. -/
theorem getAt_admits (holds : I.Holds m.heap) {frame : FrameId} {d : Nat} {name : String}
    {v : Value} (stands : I.Frame m.heap depth frame)
    (found : m.forest.getAt frame d name = .ok v) : I.Admits m.heap v := by
  obtain ⟨owner, reached, there⟩ := Forest.exists_of_getAt found
  exact lawful.slot holds stands reached there

theorem lookUp_keeps (stands : I.Stands m depth) (id : Occurrence) (name : String) (line : Nat) :
    I.Keeps m I.Admits (lookUp id name line m) := by
  cases bound : m.bindings[id]? with
  | some d =>
      rw [lookUp, get_bind, bound]
      dsimp only
      cases found : m.forest.getAt m.current d name with
      | ok v => exact Keeps.ok stands.toMeets (getAt_admits lawful stands.holds stands.frame found)
      | error breach => exact Keeps.halt stands.toMeets
  | none =>
      cases found : m.forest.slot? Machine.globals name with
      | some v =>
          rw [lookUp_of_global bound found]
          exact Keeps.ok stands.toMeets (lawful.global stands.holds found)
      | none =>
          rw [lookUp_of_undefined bound found]
          exact Keeps.halt stands.toMeets

theorem assign_keeps (stands : I.Stands m depth) {id : Occurrence} {name : String} {v : Value}
    (suits : I.Mention depth id) (assigns : m.bindings[id]? = none → I.Assigns id name)
    (admits : I.Admits m.heap v) (line : Nat) :
    I.Keeps m (fun _ _ => True) (assign id name v line m) := by
  have meets := stands.toMeets
  cases bound : m.bindings[id]? with
  | some d =>
      cases reached : m.forest.ancestor? d m.current with
      | some owner =>
          rw [assign_of_bound bound reached]
          refine keeps_of_heap meets (.define m owner name v) ?_ trivial
          exact lawful.assignBound meets.holds stands.frame suits (meets.bindings_eq ▸ bound)
            reached admits
      | none =>
          rw [assign, get_bind, bound]
          dsimp only
          rw [Forest.ownerAt, reached]
          exact Keeps.halt meets
  | none =>
      cases found : m.forest.slot? Machine.globals name with
      | some old =>
          rw [assign_of_global bound found]
          refine keeps_of_heap meets (.define m Machine.globals name v) ?_ trivial
          exact lawful.assignGlobal meets.holds (meets.bindings_eq ▸ bound) (assigns bound) found
            admits
      | none =>
          rw [assign_of_undefined bound found]
          exact Keeps.halt meets

/-! ## Output -/

omit lawful in
theorem write_keeps (meets : I.Meets m) (text : String) :
    I.Keeps m (fun _ _ => True) (write text m) := by
  have continues := write_continues text m
  revert continues
  rw [write, get_bind]
  obtain ⟨sink, fault⟩ := m.sink.write text
  intro continues
  cases fault with
  | none => exact ⟨continues, ⟨meets.holds, meets.bindings_eq⟩, trivial⟩
  | some fault => exact ⟨continues, meets.holds, meets.bindings_eq⟩

omit lawful in
theorem print_keeps (meets : I.Meets m) (v : Value) :
    I.Keeps m (fun _ _ => True) (print v m) := by
  apply Keeps.bind (write_keeps meets v.text)
  intro _ n _ meets' _
  exact write_keeps meets' "\n"

/-! ## Instances -/

theorem newObject_keeps (meets : I.Meets m) {c : Class} (made : c.MadeOf (I.parts m.heap)) :
    I.Keeps m (fun h o => I.Object h o.identity ∧ o.cls.MadeOf (I.parts h)) (newObject c m) :=
  have added := lawful.newObject meets.holds
  have continues := newObject_continues c m
  keeps_of_heap meets continues added.1 ⟨added.2, made.imp (parts_implies lawful continues)⟩

/-- A method that is bound to an instance may be called as a function. -/
theorem bind_keeps (meets : I.Meets m) {method : Closure} {o : Object}
    (declared : (I.parts m.heap).methods method) (admits : I.Admits m.heap (.object o)) :
    I.Keeps m (fun h c => (I.parts h).closures c) (Run.bind method o m) := by
  obtain ⟨depth, frame, runs⟩ := declared
  rw [Run.bind]
  apply Keeps.bind (newFrame_keeps lawful meets frame)
  intro new n continues meets₁ here
  apply Keeps.bind (defineIn_keeps lawful meets₁ here (by simp) (admits.mono lawful continues))
  intro _ n₂ continues₂ meets₂ _
  apply Keeps.bind (newIdentity_keeps lawful meets₂)
  intro identity n₃ continues₃ meets₃ _
  exact Keeps.ok meets₃
    ⟨depth + 1, lawful.frame_mono (continues₂.trans continues₃).grows_heap here, runs⟩

theorem getProperty_keeps (meets : I.Meets m) {o : Object} (admits : I.Admits m.heap (.object o))
    (name : Ident) : I.Keeps m I.Admits (getProperty o name m) := by
  rw [getProperty, get_bind]
  cases found : (m.fieldsOf o)[name.name]? with
  | some v => exact Keeps.ok meets (lawful.field meets.holds admits.1 found)
  | none =>
      dsimp only
      cases declared : o.cls.methods[name.name]? with
      | none => exact Keeps.halt meets
      | some method =>
          apply Keeps.bind (bind_keeps lawful meets (admits.2 _ _ declared) admits)
          intro c n continues meets₁ made
          exact Keeps.ok meets₁ made

theorem setProperty_keeps (meets : I.Meets m) {o : Object} {name : String} {v : Value}
    (held : I.Object m.heap o.identity) (admits : I.Admits m.heap v) :
    I.Keeps m (fun _ _ => True) (setProperty o name v m) :=
  keeps_of_heap meets (setProperty_continues o name v m)
    (lawful.setField meets.holds held admits) trivial

/-! ## Calls -/

section Parts

variable {host : Hosting} {evaluate : Expr → Run Value} {execute : Stmt → Run Flow}

section Statements

variable (executes : I.Executes execute)

include executes

/-- Statements in a scope are executed one after the other. -/
theorem executeAll_keeps {around : Enclosures} {body : List Stmt} (inside : around ≠ [])
    (stands : I.Stands m around.length) (code : I.Code (Stmt.sitesAll around body)) :
    I.Keeps m (fun h flow => flow.MadeOf (I.parts h)) (executeAll execute body m) := by
  induction body generalizing m around with
  | nil => exact Keeps.ok stands.toMeets trivial
  | cons s rest ih =>
      obtain ⟨here, others⟩ := code_append.mp code
      apply Keeps.bind (executes stands here fun absent => absurd absent inside)
      intro flow n continues meets made
      cases flow with
      | exit v => exact Keeps.ok meets made
      | next =>
          have length := length_behind around s
          refine ih ?_ ?_ others
          · intro absent
            rw [absent] at length
            exact inside (List.eq_nil_of_length_eq_zero length.symm)
          · rw [length]
            exact stands.mono lawful continues meets

theorem block_keeps {around : Enclosures} {kind : EnclosureKind} {body : List Stmt}
    (stands : I.Stands m around.length)
    (code : I.Code (Stmt.sitesAll (⟨kind, []⟩ :: around) body)) :
    I.Keeps m (fun h flow => flow.MadeOf (I.parts h)) (inNewFrame (executeAll execute body) m) :=
  inNewFrame_keeps lawful stands fun inner =>
    executeAll_keeps lawful executes (List.cons_ne_nil _ _) inner code

end Statements

theorem bindParams_keeps {frame : FrameId} (meets : I.Meets m)
    (stands : I.Frame m.heap (depth + 1) frame) (params : List Ident) {values : List Value}
    (admits : ∀ v ∈ values, I.Admits m.heap v) :
    I.Keeps m (fun _ _ => True) (bindParams frame params values m) := by
  induction params generalizing m values with
  | nil => exact Keeps.ok meets trivial
  | cons name names ih =>
      cases values with
      | nil => exact Keeps.ok meets trivial
      | cons v values =>
          obtain ⟨first, others⟩ := List.forall_mem_cons.mp admits
          apply Keeps.bind (defineIn_keeps lawful meets stands (by simp) first)
          intro _ n continues meets₁ _
          exact ih meets₁ (lawful.frame_mono continues.grows_heap stands) fun v present =>
            (others v present).mono lawful continues

theorem callClosure_keeps (executes : I.Executes execute) (meets : I.Meets m) {c : Closure}
    (made : (I.parts m.heap).closures c) {values : List Value}
    (admits : ∀ v ∈ values, I.Admits m.heap v) :
    I.Keeps m I.Admits (callClosure execute c values m) := by
  obtain ⟨depth, frame, around, length, code⟩ := made
  have inside : around ≠ [] := by
    rintro rfl
    cases length
  rw [callClosure]
  apply Keeps.bind (newFrame_keeps lawful meets frame)
  intro new n continues meets₁ here
  refine Keeps.bind (bindParams_keeps lawful meets₁ here c.routine.params fun v present =>
    (admits v present).mono lawful continues) ?_
  intro _ n₂ continues₂ meets₂ _
  refine Keeps.bind (inFrame_keeps meets₂ (lawful.frame_mono continues₂.grows_heap here) fun inner
    => executeAll_keeps lawful executes inside (length ▸ inner) code) ?_
  intro flow n₃ continues₃ meets₃ flows
  have kept := lawful.frame_mono ((continues.trans continues₂).trans continues₃).grows_heap frame
  by_cases initializes : c.isInitializer = true
  · rw [if_pos initializes, get_bind]
    cases found : n₃.forest.getAt c.environment 0 "self" with
    | ok v => exact Keeps.ok meets₃ (getAt_admits lawful meets₃.holds kept found)
    | error breach => exact Keeps.halt meets₃
  · rw [if_neg initializes]
    cases flow with
    | next => exact Keeps.ok meets₃ trivial
    | exit v => exact Keeps.ok meets₃ flows

theorem instantiate_keeps (executes : I.Executes execute) (meets : I.Meets m) {c : Class}
    (made : c.MadeOf (I.parts m.heap)) {values : List Value}
    (admits : ∀ v ∈ values, I.Admits m.heap v) :
    I.Keeps m I.Admits (instantiate execute c values m) := by
  rw [instantiate]
  apply Keeps.bind (newObject_keeps lawful meets made)
  intro o n continues meets₁ object
  cases found : c.initializer? with
  | none => exact Keeps.ok meets₁ object
  | some initializer =>
      dsimp only
      have declared := (parts_implies lawful continues).methods (made _ _ found)
      apply Keeps.bind (bind_keeps lawful meets₁ declared object)
      intro bound n₂ continues₂ meets₂ closure
      refine Keeps.bind (callClosure_keeps lawful executes meets₂ closure fun v present =>
        (admits v present).mono lawful (continues.trans continues₂)) ?_
      intro _ n₃ continues₃ meets₃ _
      exact Keeps.ok meets₃
        (Admits.mono (v := .object o) lawful (continues₂.trans continues₃) object)

omit lawful in
theorem callNative_keeps (hands : host.HandsOn) (meets : I.Meets m) (f : Native)
    {values : List Value} (admits : ∀ v ∈ values, I.Admits m.heap v) (line : Nat) :
    I.Keeps m I.Admits (callNative host f values line m) := by
  rw [callNative]
  have counted : I.Keeps m (fun h _ => h = m.heap) (countHostCall m) :=
    keeps_of_heap meets (countHostCall_continues m) meets.holds rfl
  apply Keeps.bind counted
  intro call n continues meets₁ same
  cases answered : host.answer call f values with
  | ok v => exact Keeps.ok meets₁ (hands answered _ fun v present => same ▸ admits v present)
  | error message => exact Keeps.halt meets₁

theorem callWith_keeps (hands : host.HandsOn) (executes : I.Executes execute) (meets : I.Meets m)
    {callee : Value} (admits : I.Admits m.heap callee) {values : List Value}
    (arguments : ∀ v ∈ values, I.Admits m.heap v) (line : Nat) :
    I.Keeps m I.Admits (callWith host execute values line callee m) := by
  cases callee with
  | closure c => exact callClosure_keeps lawful executes meets admits arguments
  | native f => exact callNative_keeps hands meets f arguments line
  | cls c => exact instantiate_keeps lawful executes meets admits arguments
  | _ => exact Keeps.halt meets

variable (evaluates : I.Evaluates evaluate)

include evaluates

theorem evaluateAll_keeps {arguments : List Expr} (stands : I.Stands m depth)
    (suits : I.Suits depth (Expr.mentionsAll arguments)) :
    I.Keeps m (fun h values => ∀ v ∈ values, I.Admits h v)
      (evaluateAll evaluate arguments m) := by
  induction arguments generalizing m with
  | nil => exact Keeps.ok stands.toMeets fun _ absent => absurd absent List.not_mem_nil
  | cons e rest ih =>
      obtain ⟨first, others⟩ := suits_append.mp suits
      apply Keeps.bind (evaluates stands first)
      intro v n continues meets admits
      apply Keeps.bind (ih (stands.mono lawful continues meets) others)
      intro values n₂ continues₂ meets₂ admitted
      exact Keeps.ok meets₂ (List.forall_mem_cons.mpr ⟨admits.mono lawful continues₂, admitted⟩)

omit lawful in
theorem evaluateOption_keeps {value : Option Expr} (stands : I.Stands m depth)
    (suits : I.Suits depth (Expr.mentionsOption value)) :
    I.Keeps m I.Admits (evaluateOption evaluate value m) := by
  cases value with
  | none => exact Keeps.ok stands.toMeets trivial
  | some e => exact evaluates stands suits

theorem callValue_keeps (hands : host.HandsOn) (executes : I.Executes execute)
    (stands : I.Stands m depth) {callee : Value} (admits : I.Admits m.heap callee)
    {arguments : List Expr} (suits : I.Suits depth (Expr.mentionsAll arguments)) (line : Nat) :
    I.Keeps m I.Admits (callValue host evaluate execute callee arguments line m) := by
  unfold callValue
  cases arity? callee with
  | none => exact Keeps.halt stands.toMeets
  | some arity =>
      apply Keeps.bind (evaluateAll_keeps lawful evaluates stands suits)
      intro values n continues meets admitted
      split
      · exact callWith_keeps lawful hands executes meets (admits.mono lawful continues) admitted
          line
      · exact Keeps.halt meets

/-! ## Expressions -/

omit lawful evaluates in
theorem asObject_keeps (meets : I.Meets m) {v : Value} (admits : I.Admits m.heap v) (line : Nat) :
    I.Keeps m (fun h o => I.Admits h (.object o)) (asObject line v m) := by
  cases v with
  | object o => exact Keeps.ok meets admits
  | _ => exact Keeps.halt meets

/-- An expression is evaluated from its parts. It may have to assign to none of certain globals. -/
theorem evaluateWith_keeps (hands : host.HandsOn) (executes : I.Executes execute) {e : Expr}
    (stands : I.Stands m depth) (suits : I.Suits depth e.mentions)
    (assigns : ∀ id name value, e = .assign id name value → m.bindings[id]? = none →
      I.Assigns id name.name) :
    I.Keeps m I.Admits (evaluateWith host evaluate execute e m) := by
  cases e with
  | literal value => exact Keeps.ok stands.toMeets (Value.madeOf_ofLiteral _ value)
  | group inner => exact evaluates stands suits
  | unary operator operand line =>
      apply Keeps.bind (evaluates (e := operand) stands suits)
      intro v n continues meets _
      cases applied : operator.apply v with
      | ok result => exact Keeps.ok meets (UnaryOp.madeOf_apply _ applied)
      | error rule => exact Keeps.halt meets
  | binary left operator right line =>
      obtain ⟨suitsLeft, suitsRight⟩ := suits_append.mp suits
      apply Keeps.bind (evaluates stands suitsLeft)
      intro a n continues meets _
      apply Keeps.bind (evaluates (stands.mono lawful continues meets) suitsRight)
      intro b n₂ continues₂ meets₂ _
      cases applied : operator.apply a b with
      | ok result => exact Keeps.ok meets₂ (BinaryOp.madeOf_apply _ applied)
      | error rule => exact Keeps.halt meets₂
  | logical left operator right =>
      obtain ⟨suitsLeft, suitsRight⟩ := suits_append.mp suits
      apply Keeps.bind (evaluates stands suitsLeft)
      intro v n continues meets admits
      split
      · exact Keeps.ok meets admits
      · exact evaluates (stands.mono lawful continues meets) suitsRight
  | var id name => exact lookUp_keeps lawful stands _ _ _
  | assign id name value =>
      obtain ⟨suitsValue, suitsName⟩ := suits_append.mp suits
      apply Keeps.bind (evaluates stands suitsValue)
      intro v n continues meets admits
      refine Keeps.bind (assign_keeps lawful (stands.mono lawful continues meets)
        (suitsName _ (List.mem_singleton_self _)) ?_ admits name.line) ?_
      · rw [continues.bindings_eq]
        exact assigns id name value rfl
      · intro _ n₂ continues₂ meets₂ _
        exact Keeps.ok meets₂ (admits.mono lawful continues₂)
  | call callee arguments line =>
      obtain ⟨suitsCallee, suitsArguments⟩ := suits_append.mp suits
      apply Keeps.bind (evaluates stands suitsCallee)
      intro v n continues meets admits
      exact callValue_keeps lawful evaluates hands executes (stands.mono lawful continues meets)
        admits suitsArguments line
  | get object name =>
      apply Keeps.bind (evaluates (e := object) stands suits)
      intro v n continues meets admits
      apply Keeps.bind (asObject_keeps meets admits name.line)
      intro o n₂ continues₂ meets₂ held
      exact getProperty_keeps lawful meets₂ held name
  | set object name value =>
      obtain ⟨suitsObject, suitsValue⟩ := suits_append.mp suits
      apply Keeps.bind (evaluates stands suitsObject)
      intro v n continues meets admits
      apply Keeps.bind (asObject_keeps meets admits name.line)
      intro o n₂ continues₂ meets₂ held
      have onward := continues.trans continues₂
      apply Keeps.bind (evaluates (stands.mono lawful onward meets₂) suitsValue)
      intro given n₃ continues₃ meets₃ admitted
      refine Keeps.bind (setProperty_keeps lawful meets₃
        (lawful.object_mono continues₃.grows_heap held.1) admitted) ?_
      intro _ n₄ continues₄ meets₄ _
      exact Keeps.ok meets₄ (admitted.mono lawful continues₄)
  | selfRef id line => exact lookUp_keeps lawful stands _ _ _

/-! ## Statements -/

omit evaluates in
theorem makeMethods_keeps {around : Enclosures} {frame : FrameId} {methods : List Routine}
    {table : Table Closure} (meets : I.Meets m) (stands : I.Frame m.heap depth frame)
    (length : around.length = depth + 1) (code : I.Code (Stmt.sitesMethods around methods))
    (made : ∀ (name : String) (method : Closure), table[name]? = some method →
      (I.parts m.heap).methods method) :
    I.Keeps m (fun h table => ∀ (name : String) (method : Closure),
      table[name]? = some method → (I.parts h).methods method)
      (makeMethods frame table methods m) := by
  induction methods generalizing m table with
  | nil => exact Keeps.ok meets made
  | cons routine rest ih =>
      obtain ⟨params, others⟩ := code_append.mp code
      rw [makeMethods]
      apply Keeps.bind (newIdentity_keeps lawful meets)
      intro identity n continues meets₁ _
      have kept := lawful.frame_mono continues.grows_heap stands
      apply ih meets₁ kept others
      intro name method found
      rw [getElem?_insert_eq] at found
      split at found
      · cases found
        have runs := runs_of_code (code_append.mp params).2
        rw [length] at runs
        exact ⟨depth, kept, runs⟩
      · exact (parts_implies lawful continues).methods (made name method found)

omit lawful in
theorem goesOn_keeps {condition : Option Expr} (stands : I.Stands m depth)
    (suits : I.Suits depth (Expr.mentionsOption condition)) :
    I.Keeps m (fun _ _ => True) (goesOn evaluate condition m) := by
  cases condition with
  | none => exact Keeps.ok stands.toMeets trivial
  | some e =>
      apply Keeps.bind (evaluates stands suits)
      intro v n _ meets _
      exact Keeps.ok meets trivial

theorem startLoop_keeps {counter : Option LoopVar} (stands : I.Stands m (depth + 1))
    (suits : I.Suits (depth + 1) (LoopVar.mentionsOption counter)) :
    I.Keeps m (fun _ _ => True) (startLoop evaluate counter m) := by
  cases counter with
  | none => exact Keeps.ok stands.toMeets trivial
  | some counter =>
      apply Keeps.bind (evaluates stands suits)
      intro v n continues meets admits
      exact define_keeps lawful (stands.mono lawful continues meets) (by simp) admits

theorem repeatLoop_keeps (executes : I.Executes execute) {around : Enclosures}
    {condition increment : Option Expr} {body : List Stmt} (effort : Nat)
    (stands : I.Stands m around.length)
    (suitsCondition : I.Suits around.length (Expr.mentionsOption condition))
    (suitsIncrement : I.Suits around.length (Expr.mentionsOption increment))
    (code : I.Code (Stmt.sitesAll (⟨.block, []⟩ :: around) body)) :
    I.Keeps m (fun h flow => flow.MadeOf (I.parts h))
      (repeatLoop evaluate execute condition increment body effort m) := by
  induction effort generalizing m with
  | zero => exact Keeps.halt stands.toMeets
  | succ effort ih =>
      rw [repeatLoop]
      apply Keeps.bind (goesOn_keeps evaluates stands suitsCondition)
      intro goesOn n continues meets _
      have stands₁ := stands.mono lawful continues meets
      split
      · apply Keeps.bind (block_keeps lawful executes stands₁ code)
        intro flow n₂ continues₂ meets₂ flows
        have stands₂ := stands₁.mono lawful continues₂ meets₂
        cases flow with
        | exit v => exact Keeps.ok meets₂ flows
        | next =>
            apply Keeps.bind (evaluateOption_keeps evaluates stands₂ suitsIncrement)
            intro _ n₃ continues₃ meets₃ _
            exact ih (stands₂.mono lawful continues₃ meets₃)
      · exact Keeps.ok meets trivial

theorem declaredValue_keeps {around : Enclosures} {s : Stmt} {name : String}
    (stands : I.Stands m around.length) (code : I.Code (s.sites around))
    (declared : s.declared? = some name) :
    I.Keeps m I.Admits (declaredValue evaluate s m) := by
  cases s with
  | declare name initializer =>
      have suits := (code_cons code).suits
      rw [length_declare] at suits
      exact evaluateOption_keeps evaluates stands suits
  | function routine =>
      have runs := runs_of_code (code_append.mp (code_cons code)).2
      rw [length_declare] at runs
      apply Keeps.bind (newIdentity_keeps lawful stands.toMeets)
      intro identity n continues meets _
      rw [get_bind]
      exact Keeps.ok meets ⟨around.length, (stands.mono lawful continues meets).frame, runs⟩
  | classDef name methods =>
      rw [declaredValue, get_bind]
      refine Keeps.bind (makeMethods_keeps lawful stands.toMeets stands.frame
        (congrArg (· + 1) (length_declare around name.name)) (code_cons code) ?_) ?_
      · intro name method found
        rw [Std.TreeMap.getElem?_emptyc] at found
        cases found
      · intro table n continues meets made
        apply Keeps.bind (newIdentity_keeps lawful meets)
        intro identity n₂ continues₂ meets₂ _
        exact Keeps.ok meets₂ fun key method found =>
          (parts_implies lawful continues₂).methods (made key method found)
  | _ => cases declared

/-- A name is declared when its value has been made. -/
theorem declaration_keeps {around : Enclosures} {s : Stmt} {name : String} (effort : Nat)
    (stands : I.Stands m around.length) (code : I.Code (s.sites around))
    (declared : s.declared? = some name) (declares : around = [] → I.Declares name) :
    I.Keeps m (fun h flow => flow.MadeOf (I.parts h))
      (executeWith evaluate execute effort s m) := by
  rw [executeWith_declared effort declared]
  apply Keeps.bind (declaredValue_keeps lawful evaluates stands code declared)
  intro v n continues meets admits
  refine Keeps.bind (define_keeps lawful (stands.mono lawful continues meets)
    (fun outside => declares (List.eq_nil_of_length_eq_zero outside)) admits) ?_
  intro _ n₂ _ meets₂ _
  exact Keeps.ok meets₂ trivial

/-- A statement is executed from its parts. -/
theorem executeWith_keeps (executes : I.Executes execute) (effort : Nat) {around : Enclosures}
    {s : Stmt} (stands : I.Stands m around.length) (code : I.Code (s.sites around))
    (declares : around = [] → ∀ name, s.declared? = some name → I.Declares name) :
    I.Keeps m (fun h flow => flow.MadeOf (I.parts h))
      (executeWith evaluate execute effort s m) := by
  cases s with
  | expression e =>
      apply Keeps.bind (evaluates stands code.suits)
      intro _ n _ meets _
      exact Keeps.ok meets trivial
  | print e =>
      apply Keeps.bind (evaluates stands code.suits)
      intro v n _ meets _
      apply Keeps.bind (print_keeps meets v)
      intro _ n₂ _ meets₂ _
      exact Keeps.ok meets₂ trivial
  | declare name initializer =>
      exact declaration_keeps lawful evaluates effort stands code rfl fun outside =>
        declares outside _ rfl
  | block body => exact block_keeps lawful executes stands code
  | function routine =>
      exact declaration_keeps lawful evaluates effort stands code rfl fun outside =>
        declares outside _ rfl
  | branch condition thenBody elseBody =>
      cases elseBody with
      | none =>
          obtain ⟨suits, codeThen⟩ := code_append.mp code
          apply Keeps.bind (evaluates stands suits.suits)
          intro v n continues meets _
          split
          · exact block_keeps lawful executes (stands.mono lawful continues meets) codeThen
          · exact Keeps.ok meets trivial
      | some body =>
          obtain ⟨front, codeElse⟩ := code_append.mp code
          obtain ⟨suits, codeThen⟩ := code_append.mp front
          apply Keeps.bind (evaluates stands suits.suits)
          intro v n continues meets _
          split
          · exact block_keeps lawful executes (stands.mono lawful continues meets) codeThen
          · exact block_keeps lawful executes (stands.mono lawful continues meets) codeElse
  | loop counter condition increment body =>
      obtain ⟨head, codeBody⟩ := code_append.mp code
      obtain ⟨front, codeIncrement⟩ := code_append.mp head
      obtain ⟨codeCounter, codeCondition⟩ := code_append.mp front
      have length := length_openLoop around counter
      apply inNewFrame_keeps lawful stands
      intro n stands₁
      refine Keeps.bind (startLoop_keeps lawful evaluates stands₁ ?_) ?_
      · cases counter with
        | none => exact fun _ absent => absurd absent List.not_mem_nil
        | some counter => exact (code_cons codeCounter).suits
      · intro _ n₂ continues₂ meets₂ _
        have stands₂ := stands₁.mono lawful continues₂ meets₂
        rw [← length] at stands₂
        exact repeatLoop_keeps lawful evaluates executes effort stands₂ codeCondition.suits
          codeIncrement.suits codeBody
  | exit line value =>
      apply Keeps.bind (evaluateOption_keeps evaluates stands (code_cons code).suits)
      intro v n _ meets admits
      exact Keeps.ok meets admits
  | classDef name methods =>
      exact declaration_keeps lawful evaluates effort stands code rfl fun outside =>
        declares outside _ rfl

end Parts

/-! ## All effort -/

/-- Whatever the effort, all code keeps an invariant under which any global may be changed. -/
theorem keeps_of_effort {host : Hosting} (hands : host.HandsOn)
    (assigns : ∀ id name, I.bindings[id]? = none → I.Assigns id name) (effort : Nat) :
    I.Evaluates (evaluate host effort) ∧ I.Executes (execute host effort) := by
  induction effort with
  | zero => exact ⟨fun stands _ => Keeps.halt stands.toMeets,
      fun stands _ _ => Keeps.halt stands.toMeets⟩
  | succ effort ih =>
      obtain ⟨evaluates, executes⟩ := ih
      constructor
      · intro m depth e stands suits
        refine evaluateWith_keeps lawful evaluates hands executes stands suits ?_
        intro id name value _ unbound
        exact assigns id name.name (stands.bindings_eq ▸ unbound)
      · intro m around s stands code declares
        exact executeWith_keeps lawful evaluates executes effort stands code declares

/-! ## Programs -/

variable {host : Hosting} {effort : Nat} (executes : I.Executes (execute host effort))

include executes

theorem runProgram_keeps {program : List Stmt} (stands : I.Stands m 0)
    (code : I.Code (programSites program))
    (declares : ∀ s ∈ program, ∀ name, s.declared? = some name → I.Declares name) :
    I.Keeps m (fun _ _ => True) (runProgram host effort program m) := by
  induction program generalizing m with
  | nil => exact Keeps.ok stands.toMeets trivial
  | cons s rest ih =>
      obtain ⟨here, others⟩ := code_append.mp code
      obtain ⟨declared, later⟩ := List.forall_mem_cons.mp declares
      rw [behind_nil] at others
      rw [runProgram]
      apply Keeps.bind (executes stands here fun _ => declared)
      intro flow n continues meets _
      cases flow with
      | next => exact ih (stands.mono lawful continues meets) others later
      | exit v => exact Keeps.halt meets

theorem interpret_keeps {program : List Stmt} (stands : I.Stands m 0)
    (code : I.Code (programSites program))
    (declares : ∀ s ∈ program, ∀ name, s.declared? = some name → I.Declares name) :
    I.Keeps m (fun _ _ => True) (interpret host effort program m) := by
  apply Keeps.of_ofResult (interpret_continues host effort program m)
  rw [ofResult_interpret]
  exact (runProgram_keeps lawful executes stands code declares).meets

end Run

end Rill
