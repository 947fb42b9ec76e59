import Rill.Proofs.Counterpart.Machines
import Rill.Proofs.Machine.Lockstep
import Rill.Proofs.Machine.Variables

/-!
# Runs side by side

Two runs go side by side if, on machines that stand in the same frame, they give alike answers or
halt for the same reason, and leave machines that stand in that frame. Whatever reads or changes a
machine does so beside its counterpart, and so do calls, if the statements of functions do.
-/

namespace Rill

variable {α α' β β' : Type}

/-- Two runs halted for the same reason. Only a breach may be another one. -/
inductive Halt.Alike : Halt → Halt → Prop
  | same (halt : Halt) : Alike halt halt
  | breach (breach breach' : Breach) : Alike (.breach breach) (.breach breach')

theorem Halt.Alike.eq {halt halt' : Halt} (alike : halt.Alike halt')
    (sound : ∀ breach, halt ≠ .breach breach) : halt = halt' := by
  cases alike with
  | same => rfl
  | breach breach breach' => exact absurd rfl (sound breach)

/-- Two runs went side by side. They may have added frames. -/
def Together (l : Ledgers) (p : Places) (frame : FrameId) (Γ : Spellings)
    (related : Places → α → β → Prop) :
    EStateM.Result Halt Machine α → EStateM.Result Halt Machine β → Prop :=
  EndsAlike (fun a m b m' => ∃ q, p <+: q ∧ l.Stand q frame Γ m m' ∧ related q a b)
    (fun halt m halt' m' => (∃ q, p <+: q ∧ l.Stand q frame Γ m m') ∧ halt.Alike halt')

namespace Together

variable {l : Ledgers} {p q : Places} {frame : FrameId} {Γ : Spellings} {m m' : Machine}
  {related : Places → α → β → Prop} {between : Places → α' → β' → Prop}

theorem ok {a : α} {b : β} (stand : l.Stand p frame Γ m m') (alike : related p a b) :
    Together l p frame Γ related (.ok a m) (.ok b m') :=
  EndsAlike.ok ⟨p, List.prefix_rfl, stand, alike⟩

theorem error {halt halt' : Halt} (stand : l.Stand p frame Γ m m') (alike : halt.Alike halt') :
    Together l p frame Γ related (.error halt m) (.error halt' m') :=
  EndsAlike.error ⟨⟨p, List.prefix_rfl, stand⟩, alike⟩

theorem breach (stand : l.Stand p frame Γ m m') (breach breach' : Breach) :
    Together l p frame Γ related (.error (.breach breach) m) (.error (.breach breach') m') :=
  error stand (.breach breach breach')

theorem refuse (stand : l.Stand p frame Γ m m') (line : Nat) (cause : RuntimeCause) :
    Together l p frame Γ related (Run.refuse line cause m) (Run.refuse line cause m') :=
  error stand (.same _)

/-- What went side by side with more frames did so with fewer. -/
theorem weaken {r : EStateM.Result Halt Machine α} {r' : EStateM.Result Halt Machine β}
    (grows : p <+: q) (ends : Together l q frame Γ related r r') :
    Together l p frame Γ related r r' := by
  refine EndsAlike.mono ends ?_ ?_
  · rintro a n b n' ⟨o, later, stand, alike⟩
    exact ⟨o, grows.trans later, stand, alike⟩
  · rintro halt n halt' n' ⟨⟨o, later, stand⟩, alike⟩
    exact ⟨⟨o, grows.trans later, stand⟩, alike⟩

/-- What follows is compared on the machines that the first parts leave. -/
theorem bind {x : Run α'} {y : Run β'} {f : α' → Run α} {g : β' → Run β}
    (first : Together l p frame Γ between (x m) (y m'))
    (next : ∀ {q a b n n'}, p <+: q → l.Stand q frame Γ n n' → between q a b →
      Together l q frame Γ related (f a n) (g b n')) :
    Together l p frame Γ related ((x >>= f) m) ((y >>= g) m') := by
  refine EndsAlike.bind first ?_
  rintro a n b n' ⟨q, grows, stand, alike⟩
  exact weaken grows (next grows stand alike)

end Together

namespace Run

variable {l : Ledgers} {p : Places} {frame other : FrameId} {Γ Δ : Spellings} {m m' : Machine}
  {related : Places → α → β → Prop} {v v' : Value}

/-! ## Frames and variables -/

/-- A new frame takes any spelling. -/
theorem newFrame_together (stand : l.Stand p frame Γ m m') (place : p[other]? = some Δ)
    (ρ : Spelling) :
    Together l p frame Γ (fun q new new' => new = new' ∧ q[new]? = some (ρ :: Δ))
      (newFrame other m) (newFrame other m') := by
  have grows : p <+: p ++ [ρ :: Δ] := List.prefix_append _ _
  have agree := stand.addFrame place ρ
  refine EndsAlike.ok ⟨_, grows, stand.keep grows agree rfl rfl, stand.nextId_eq, ?_⟩
  exact Places.at_concat_iff.mpr (.inr ⟨stand.size_eq, rfl⟩)

theorem newIdentity_together (stand : l.Stand p frame Γ m m') :
    Together l p frame Γ (fun _ identity identity' => identity = identity')
      (newIdentity m) (newIdentity m') :=
  Together.ok (stand.keep List.prefix_rfl stand.newIdentity rfl rfl) stand.nextIdentity_eq

theorem countHostCall_together (stand : l.Stand p frame Γ m m') :
    Together l p frame Γ (fun _ call call' => call = call') (countHostCall m) (countHostCall m') :=
  Together.ok (stand.keep List.prefix_rfl stand.countHostCall rfl rfl) stand.hostCalls_eq

theorem defineIn_together (stand : l.Stand p frame Γ m m') (place : p[other]? = some Δ)
    (name : String) (alike : l.Alike p v v') :
    Together l p frame Γ (fun _ _ _ => True) (defineIn other name v m)
      (defineIn other (Δ.here.spell name) v' m') :=
  Together.ok (stand.keep List.prefix_rfl (stand.define place name alike) rfl rfl) trivial

theorem define_together (stand : l.Stand p frame Γ m m') (name : String) (alike : l.Alike p v v') :
    Together l p frame Γ (fun _ _ _ => True) (define name v m)
      (define (Γ.here.spell name) v' m') := by
  have here : define name v m = defineIn frame name v m := by
    rw [← stand.current_eq]
    rfl
  have here' : define (Γ.here.spell name) v' m' = defineIn frame (Γ.here.spell name) v' m' := by
    rw [← stand.current_eq']
    rfl
  rw [here, here']
  exact defineIn_together stand stand.place name alike

/-- Another frame is current for a while in both runs. -/
theorem inFrame_together (stand : l.Stand p frame Γ m m') (place : p[other]? = some Δ)
    {body : Run α} {body' : Run β}
    (runs : ∀ {n n'}, l.Stand p other Δ n n' →
      Together l p other Δ related (body n) (body' n')) :
    Together l p frame Γ related (inFrame other body m) (inFrame other body' m') := by
  have ended := runs (stand.setCurrent place)
  unfold inFrame
  rw [stand.current_eq, stand.current_eq']
  revert ended
  dsimp only
  generalize body { m with current := other } = r
  generalize body' { m' with current := other } = r'
  intro ended
  cases ended with
  | ok ended =>
      obtain ⟨q, grows, inner, alike⟩ := ended
      have back := inner.setCurrent (Places.at_of_grows grows stand.place)
      exact EndsAlike.ok ⟨q, grows, back, alike⟩
  | error ended =>
      obtain ⟨⟨q, grows, inner⟩, alike⟩ := ended
      have back := inner.setCurrent (Places.at_of_grows grows stand.place)
      exact EndsAlike.error ⟨⟨q, grows, back⟩, alike⟩

theorem inNewFrame_together (stand : l.Stand p frame Γ m m') (ρ : Spelling) {body : Run α}
    {body' : Run β}
    (runs : ∀ {q new n n'}, p <+: q → l.Stand q new (ρ :: Γ) n n' →
      Together l q new (ρ :: Γ) related (body n) (body' n')) :
    Together l p frame Γ related (inNewFrame body m) (inNewFrame body' m') := by
  rw [inNewFrame, inNewFrame, get_bind, get_bind, stand.current_eq, stand.current_eq']
  apply Together.bind (newFrame_together stand stand.place ρ)
  rintro q new _ n n' grows stand₁ ⟨rfl, place⟩
  exact inFrame_together stand₁ place fun inner => runs grows inner

/-- A name is read where it is bound, or from the globals. -/
theorem lookUp_together (stand : l.Stand p frame Γ m m') {id id' : Occurrence}
    (matched : l.Matches id id') (name : String) (line : Nat) :
    Together l p frame Γ l.Alike (lookUp id name line m)
      (lookUp id' ((l.spelling Γ id).spell name) line m') := by
  have bound : m.bindings[id]? = m'.bindings[id']? := by
    rw [stand.bindings_eq, stand.bindings_eq', matched.getElem?_eq]
  rw [Ledgers.spelling, ← stand.bindings_eq]
  cases found : m.bindings[id]? with
  | some depth =>
      rw [lookUp, lookUp, get_bind, get_bind, ← bound, found, stand.current_eq, stand.current_eq']
      dsimp only
      rcases stand.getAt stand.place depth name with
        ⟨value, value', here, here', alike⟩ | ⟨breach, breach', broken, broken'⟩
      · rw [here, here']
        exact Together.ok stand alike
      · rw [broken, broken']
        exact Together.breach stand breach breach'
  | none =>
      rw [found] at bound
      rcases optionRel_cases (stand.global name) with
        ⟨value, value', here, here', alike⟩ | ⟨absent, absent'⟩
      · rw [lookUp_of_global found here]
        rw [show (Γ.bound none).spell name = name from rfl, lookUp_of_global bound.symm here']
        exact Together.ok stand alike
      · rw [lookUp_of_undefined found absent]
        rw [show (Γ.bound none).spell name = name from rfl, lookUp_of_undefined bound.symm absent']
        exact Together.error stand (.same _)

/-- A name is written where it is bound, or among the globals. -/
theorem assign_together (stand : l.Stand p frame Γ m m') {id id' : Occurrence}
    (matched : l.Matches id id') (name : String) (alike : l.Alike p v v') (line : Nat) :
    Together l p frame Γ (fun _ _ _ => True) (assign id name v line m)
      (assign id' ((l.spelling Γ id).spell name) v' line m') := by
  have bound : m.bindings[id]? = m'.bindings[id']? := by
    rw [stand.bindings_eq, stand.bindings_eq', matched.getElem?_eq]
  rw [Ledgers.spelling, ← stand.bindings_eq]
  cases found : m.bindings[id]? with
  | some depth =>
      rw [assign, assign, get_bind, get_bind, ← bound, found, stand.current_eq, stand.current_eq']
      dsimp only
      rw [← stand.ownerAt_eq]
      cases owned : m.forest.ownerAt frame depth with
      | error breach => exact Together.breach stand breach breach
      | ok owner =>
          rw [← Spellings.here_drop]
          exact defineIn_together stand (stand.place_ownerAt stand.place owned) name alike
  | none =>
      rw [found] at bound
      rw [show (Γ.bound none).spell name = name from rfl]
      rcases optionRel_cases (stand.global name) with
        ⟨old, old', here, here', _⟩ | ⟨absent, absent'⟩
      · rw [assign_of_global found here, assign_of_global bound.symm here']
        exact defineIn_together stand stand.outermost name alike
      · rw [assign_of_undefined found absent, assign_of_undefined bound.symm absent']
        exact Together.error stand (.same _)

/-! ## Output -/

theorem write_together (stand : l.Stand p frame Γ m m') (text : String) :
    Together l p frame Γ (fun _ _ _ => True) (write text m) (write text m') := by
  unfold write
  rw [get_bind, get_bind, ← stand.sink_eq]
  obtain ⟨sink, fault⟩ := m.sink.write text
  have written := stand.keep List.prefix_rfl (stand.setSink sink) rfl rfl
  cases fault with
  | none => exact Together.ok written trivial
  | some fault => exact Together.error written (.same _)

theorem print_together (stand : l.Stand p frame Γ m m') (alike : l.Alike p v v') :
    Together l p frame Γ (fun _ _ _ => True) (print v m) (print v' m') := by
  rw [print, print, alike.text_eq]
  apply Together.bind (write_together stand _)
  intro q _ _ n n' _ stand₁ _
  exact write_together stand₁ "\n"

theorem flush_together (stand : l.Stand p frame Γ m m') :
    Together l p frame Γ (fun _ _ _ => True) (flush m) (flush m') := by
  unfold flush
  rw [get_bind, get_bind, ← stand.sink_eq]
  cases m.sink.flush with
  | none => exact Together.ok stand trivial
  | some fault => exact Together.error stand (.same _)

/-! ## Instances -/

theorem newObject_together (stand : l.Stand p frame Γ m m') {c c' : Class}
    (alike : c.Alike (l.likeness p) c') :
    Together l p frame Γ (fun q => Object.Alike (l.likeness q)) (newObject c m)
      (newObject c' m') := by
  apply Together.bind (newIdentity_together stand)
  intro q identity _ n n' grows stand₁ same
  subst same
  have made := stand₁.setFields identity tablesAlike_empty
  exact Together.ok (stand₁.keep List.prefix_rfl made rfl rfl)
    ⟨rfl, alike.imp (Ledgers.implies_of_grows grows)⟩

/-- A method that is bound to an instance is a function of its own in both runs. -/
theorem bind_together (stand : l.Stand p frame Γ m m') {method method' : Closure}
    (twins : l.Twins p [.same] method method') {o o' : Object}
    (objects : o.Alike (l.likeness p) o') :
    Together l p frame Γ (fun q => l.Twins q []) (Run.bind method o m)
      (Run.bind method' o' m') := by
  obtain ⟨Δ, place, akin⟩ := twins.akin
  rw [Run.bind, Run.bind, ← twins.environment_eq]
  apply Together.bind (newFrame_together stand place .same)
  rintro q new _ n n' grows stand₁ ⟨rfl, place₁⟩
  have held := Value.Alike.object (objects.imp (Ledgers.implies_of_grows grows))
  apply Together.bind (defineIn_together stand₁ place₁ "self" held)
  intro q₁ _ _ n n' grows₁ stand₂ _
  apply Together.bind (newIdentity_together stand₂)
  intro q₂ identity _ n n' grows₂ stand₃ same
  subst same
  have place₂ := Places.at_of_grows (grows₁.trans grows₂) place₁
  exact Together.ok stand₃ ⟨rfl, rfl, twins.isInitializer_eq, _, place₂, akin⟩

theorem getProperty_together (stand : l.Stand p frame Γ m m') {o o' : Object}
    (objects : o.Alike (l.likeness p) o') (name : Ident) :
    Together l p frame Γ l.Alike (getProperty o name m) (getProperty o' name m') := by
  rw [getProperty, getProperty, get_bind, get_bind]
  rcases optionRel_cases (stand.fieldsOf objects name.name) with
    ⟨value, value', here, here', alike⟩ | ⟨absent, absent'⟩
  · rw [here, here']
    exact Together.ok stand alike
  · rw [absent, absent']
    dsimp only
    rcases optionRel_cases (objects.cls.methods name.name) with
      ⟨method, method', found, found', twins⟩ | ⟨unknown, unknown'⟩
    · rw [found, found']
      apply Together.bind (bind_together stand twins objects)
      intro q c c' n n' _ stand₁ twins'
      exact Together.ok stand₁ (.closure twins')
    · rw [unknown, unknown']
      exact Together.refuse stand _ _

theorem setProperty_together (stand : l.Stand p frame Γ m m') {o o' : Object}
    (objects : o.Alike (l.likeness p) o') (name : String) (alike : l.Alike p v v') :
    Together l p frame Γ (fun _ _ _ => True) (setProperty o name v m)
      (setProperty o' name v' m') := by
  have agree := stand.setFields o.identity ((stand.fieldsOf objects).insert name alike)
  have after := stand.keep List.prefix_rfl agree rfl rfl
  refine Together.ok ?_ trivial
  rw [← objects.identity_eq]
  exact after

/-! ## Calls -/

/-- Two statements ended alike. -/
inductive FlowsTogether (l : Ledgers) (p : Places) : Flow → Flow → Prop
  | next : FlowsTogether l p .next .next
  | exit {v v' : Value} : l.Alike p v v' → FlowsTogether l p (.exit v) (.exit v')

/-- Akin expressions are evaluated side by side. -/
def EvaluatesTogether (l : Ledgers) (evaluate : Expr → Run Value) : Prop :=
  ∀ {p : Places} {frame : FrameId} {Γ : Spellings} {m m' : Machine} {e e' : Expr},
    l.Stand p frame Γ m m' → Expr.Akin l Γ e e' →
      Together l p frame Γ l.Alike (evaluate e m) (evaluate e' m')

/-- Akin statements are executed side by side. -/
def ExecutesTogether (l : Ledgers) (execute : Stmt → Run Flow) : Prop :=
  ∀ {p : Places} {frame : FrameId} {Γ : Spellings} {m m' : Machine} {s s' : Stmt},
    l.Stand p frame Γ m m' → Stmt.Akin l Γ s s' →
      Together l p frame Γ (FlowsTogether l) (execute s m) (execute s' m')

/-- What a host answers to alike values is alike. -/
def AnswersTogether (l : Ledgers) (host : Hosting) : Prop :=
  ∀ (p : Places) (call : Nat) (f : Native) {values values' : List Value},
    ValuesAlike (l.likeness p) values values' →
    (∃ value value', host.answer call f values = .ok value ∧
      host.answer call f values' = .ok value' ∧ l.Alike p value value') ∨
    ∃ message, host.answer call f values = .error message ∧
      host.answer call f values' = .error message

variable {host : Hosting} {evaluate : Expr → Run Value} {execute : Stmt → Run Flow}
  {values values' : List Value}

theorem executeAll_together (executes : ExecutesTogether l execute) {body body' : List Stmt}
    (stand : l.Stand p frame Γ m m') (akin : Stmt.AkinAll l Γ body body') :
    Together l p frame Γ (FlowsTogether l) (executeAll execute body m)
      (executeAll execute body' m') := by
  induction body generalizing p m m' body' with
  | nil =>
      cases akin
      exact Together.ok stand .next
  | cons s rest ih =>
      cases akin with
      | cons first others =>
          rw [executeAll, executeAll]
          apply Together.bind (executes stand first)
          intro q flow flow' n n' _ stand₁ flows
          cases flows with
          | next => exact ih stand₁ others
          | exit alike => exact Together.ok stand₁ (.exit alike)

theorem block_together (executes : ExecutesTogether l execute) {body body' : List Stmt}
    (stand : l.Stand p frame Γ m m') {ρ : Spelling} (akin : Stmt.AkinAll l (ρ :: Γ) body body') :
    Together l p frame Γ (FlowsTogether l) (inNewFrame (executeAll execute body) m)
      (inNewFrame (executeAll execute body') m') :=
  inNewFrame_together stand ρ fun _ inner => executeAll_together executes inner akin

theorem bindParams_together (stand : l.Stand p frame Γ m m') {ρ : Spelling}
    (place : p[other]? = some (ρ :: Δ)) (arguments : ValuesAlike (l.likeness p) values values')
    {params params' : List Ident} (spells : List.Forall₂ ρ.Spells params params') :
    Together l p frame Γ (fun _ _ _ => True) (bindParams other params values m)
      (bindParams other params' values' m') := by
  induction spells generalizing p m m' values values' with
  | nil => exact Together.ok stand trivial
  | cons first _ ih =>
      cases arguments with
      | nil => exact Together.ok stand trivial
      | cons alike rest =>
          rw [bindParams, bindParams, first.name_eq]
          apply Together.bind (defineIn_together stand place _ alike)
          intro q _ _ n n' grows stand₁ _
          exact ih stand₁ (Places.at_of_grows grows place)
            (rest.imp (Ledgers.implies_of_grows grows))

/-- A function is called beside its twin. -/
theorem callClosure_together (executes : ExecutesTogether l execute)
    (stand : l.Stand p frame Γ m m') {c c' : Closure} (twins : l.Twins p [] c c')
    (arguments : ValuesAlike (l.likeness p) values values') :
    Together l p frame Γ l.Alike (callClosure execute c values m)
      (callClosure execute c' values' m') := by
  obtain ⟨Δ, place, akin⟩ := twins.akin
  obtain ⟨ρ, spells, body⟩ := akin.parts
  rw [callClosure, callClosure, ← twins.environment_eq, ← twins.isInitializer_eq]
  apply Together.bind (newFrame_together stand place ρ)
  rintro q₁ new _ n n' grows₁ stand₁ ⟨rfl, place₁⟩
  apply Together.bind (bindParams_together stand₁ place₁
    (arguments.imp (Ledgers.implies_of_grows grows₁)) spells)
  intro q₂ _ _ n n' grows₂ stand₂ _
  apply Together.bind (inFrame_together stand₂ (Places.at_of_grows grows₂ place₁)
    fun inner => executeAll_together executes inner body)
  intro q₃ flow flow' n n' grows₃ stand₃ flows
  by_cases initializes : c.isInitializer = true
  · rw [if_pos initializes, if_pos initializes, get_bind, get_bind]
    have kept := Places.at_of_grows ((grows₁.trans grows₂).trans grows₃) place
    have found := stand₃.getAt kept 0 "self"
    rw [Spelling.self_eq] at found
    rcases found with ⟨value, value', here, here', alike⟩ | ⟨breach, breach', broken, broken'⟩
    · rw [here, here']
      exact Together.ok stand₃ alike
    · rw [broken, broken']
      exact Together.breach stand₃ breach breach'
  · rw [if_neg initializes, if_neg initializes]
    cases flows with
    | next => exact Together.ok stand₃ .nil
    | exit alike => exact Together.ok stand₃ alike

theorem instantiate_together (executes : ExecutesTogether l execute)
    (stand : l.Stand p frame Γ m m') {c c' : Class} (alike : c.Alike (l.likeness p) c')
    (arguments : ValuesAlike (l.likeness p) values values') :
    Together l p frame Γ l.Alike (instantiate execute c values m)
      (instantiate execute c' values' m') := by
  rw [instantiate, instantiate]
  apply Together.bind (newObject_together stand alike)
  intro q₁ o o' n n' grows₁ stand₁ objects
  rcases optionRel_cases alike.initializer? with
    ⟨method, method', found, found', twins⟩ | ⟨absent, absent'⟩
  · rw [found, found']
    have twins₁ := Ledgers.Twins.extend twins (Ledgers.Extends.refl l) grows₁
    apply Together.bind (bind_together stand₁ twins₁ objects)
    intro q₂ bound bound' n n' grows₂ stand₂ twins₂
    apply Together.bind (callClosure_together executes stand₂ twins₂
      (arguments.imp (Ledgers.implies_of_grows (grows₁.trans grows₂))))
    intro q₃ _ _ n n' grows₃ stand₃ _
    exact Together.ok stand₃
      (.object (objects.imp (Ledgers.implies_of_grows (grows₂.trans grows₃))))
  · rw [absent, absent']
    exact Together.ok stand₁ (.object objects)

theorem callNative_together (hosts : AnswersTogether l host) (stand : l.Stand p frame Γ m m')
    (f : Native) (arguments : ValuesAlike (l.likeness p) values values') (line : Nat) :
    Together l p frame Γ l.Alike (callNative host f values line m)
      (callNative host f values' line m') := by
  rw [callNative, callNative]
  apply Together.bind (countHostCall_together stand)
  intro q call _ n n' grows stand₁ same
  subst same
  rcases hosts q call f (arguments.imp (Ledgers.implies_of_grows grows)) with
    ⟨value, value', answer, answer', alike⟩ | ⟨message, answer, answer'⟩
  · rw [answer, answer']
    exact Together.ok stand₁ alike
  · rw [answer, answer']
    exact Together.refuse stand₁ _ _

theorem callWith_together (hosts : AnswersTogether l host) (executes : ExecutesTogether l execute)
    (stand : l.Stand p frame Γ m m') {callee callee' : Value} (alike : l.Alike p callee callee')
    (arguments : ValuesAlike (l.likeness p) values values') (line : Nat) :
    Together l p frame Γ l.Alike (callWith host execute values line callee m)
      (callWith host execute values' line callee' m') := by
  cases alike with
  | closure twins => exact callClosure_together executes stand twins arguments
  | native f => exact callNative_together hosts stand f arguments line
  | cls classes => exact instantiate_together executes stand classes arguments
  | _ => exact Together.refuse stand _ _

theorem evaluateAll_together (evaluates : EvaluatesTogether l evaluate)
    {arguments arguments' : List Expr} (stand : l.Stand p frame Γ m m')
    (akin : Expr.AkinAll l Γ arguments arguments') :
    Together l p frame Γ (fun q => ValuesAlike (l.likeness q)) (evaluateAll evaluate arguments m)
      (evaluateAll evaluate arguments' m') := by
  induction arguments generalizing p m m' arguments' with
  | nil =>
      cases akin
      exact Together.ok stand .nil
  | cons e rest ih =>
      cases akin with
      | cons first others =>
          rw [evaluateAll, evaluateAll]
          apply Together.bind (evaluates stand first)
          intro q value value' n n' _ stand₁ alike
          apply Together.bind (ih stand₁ others)
          intro q₁ given given' n n' grows₁ stand₂ rest
          exact Together.ok stand₂ (.cons (alike.imp (Ledgers.implies_of_grows grows₁)) rest)

theorem evaluateOption_together (evaluates : EvaluatesTogether l evaluate)
    {value value' : Option Expr} (stand : l.Stand p frame Γ m m')
    (akin : Expr.AkinOption l Γ value value') :
    Together l p frame Γ l.Alike (evaluateOption evaluate value m)
      (evaluateOption evaluate value' m') := by
  cases akin with
  | none => exact Together.ok stand .nil
  | some akin => exact evaluates stand akin

/-- What is called, and with what, corresponds in both runs. -/
theorem callValue_together (hosts : AnswersTogether l host)
    (evaluates : EvaluatesTogether l evaluate) (executes : ExecutesTogether l execute)
    (stand : l.Stand p frame Γ m m') {callee callee' : Value} (alike : l.Alike p callee callee')
    {arguments arguments' : List Expr} (akin : Expr.AkinAll l Γ arguments arguments')
    (line : Nat) :
    Together l p frame Γ l.Alike (callValue host evaluate execute callee arguments line m)
      (callValue host evaluate execute callee' arguments' line m') := by
  rw [callValue, callValue, ← alike.arity?_eq]
  cases arity? callee with
  | none => exact Together.refuse stand _ _
  | some arity =>
      apply Together.bind (evaluateAll_together evaluates stand akin)
      intro q given given' n n' grows stand₁ values
      rw [← values.length_eq]
      by_cases enough : given.length = arity
      · rw [if_pos enough, if_pos enough]
        exact callWith_together hosts executes stand₁
          (alike.imp (Ledgers.implies_of_grows grows)) values line
      · rw [if_neg enough, if_neg enough]
        exact Together.refuse stand₁ _ _

end Run

end Rill
