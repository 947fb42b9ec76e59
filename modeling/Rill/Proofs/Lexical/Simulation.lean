import Rill.Proofs.Lexical.Calls

/-!
# Programs alongside each other

Every expression and every statement that is bound goes alongside its evaluation without frames, by
induction on the effort, and so does every program. In particular no run of bound code finds the
bookkeeping of the machine broken.
-/

namespace Rill.Lexical

open World

variable {w : World} {opened : Option FrameId} {scopes : Scopes} {frame current : FrameId}
  {env : Env} {context : Context} {inRoutine : Bool} {m : Machine} {s : Store} {host : Hosting}
  {host' : Hosting Env} {evaluate : Expr → Rill.Run Value}
  {evaluate' : Env → Expr → Run (Value Env)} {execute : Stmt → Rill.Run Flow}
  {execute' : Context → Stmt → Run (Context × Flow Env)}

/-! ## Expressions -/

theorem operate_alongside (meets : w.Meets current m s) {result : Except OperandRule Value}
    {result' : Except OperandRule (Value Env)} (alike : ResultsAlike w.likeness result result')
    (line : Nat) :
    Alongside w opened current World.Alike (Rill.Run.operate line result m)
      (Run.operate line result' s) := by
  cases alike with
  | ok value => exact Alongside.ok meets value
  | error rule => exact Alongside.refuse meets _ _

theorem asObject_alongside (meets : w.Meets current m s) {value : Value} {value' : Value Env}
    (alike : w.Alike value value') (line : Nat) :
    Alongside w opened current (fun w' => Object.Alike w'.likeness)
      (Rill.Run.asObject line value m) (Run.asObject line value' s) := by
  cases alike with
  | object objects => exact Alongside.ok meets objects
  | _ => exact Alongside.refuse meets _ _

/-- Expressions go alongside each other if their parts and the functions they call do. -/
theorem evaluateWith_alongside (hosts : HostsAlike host host')
    (evaluates : EvaluatesAlike evaluate evaluate') (executes : ExecutesAlike execute execute')
    {e : Expr} (meets : w.Meets current m s) (sees : w.Sees scopes current env)
    (bound : e.Bound w.ledger scopes) :
    Alongside w none current World.Alike (Rill.Run.evaluateWith host evaluate execute e m)
      (Run.evaluateWith host' (evaluate' env) execute' env e s) := by
  cases e with
  | literal value => cases value <;> exact Alongside.ok meets (by constructor)
  | group inner => exact evaluates meets sees bound
  | unary operator operand line =>
      refine Alongside.bind (evaluates meets sees bound) ?_
      intro w₁ m₁ s₁ value value' becomes₁ meets₁ alike
      exact operate_alongside meets₁ (operator.apply_alike alike) line
  | binary left operator right line =>
      refine Alongside.bind (evaluates meets sees bound.1) ?_
      intro w₁ m₁ s₁ value value' becomes₁ meets₁ first
      refine Alongside.bind (evaluates meets₁ (sees.mono becomes₁.toLeadsTo)
        (bound.2.extend becomes₁.ledger)) ?_
      intro w₂ m₂ s₂ other other' becomes₂ meets₂ second
      exact operate_alongside meets₂
        (operator.apply_alike (first.imp becomes₂.implies) second) line
  | logical left operator right =>
      refine Alongside.bind (evaluates meets sees bound.1) ?_
      intro w₁ m₁ s₁ value value' becomes₁ meets₁ alike
      rw [← operator.isDecidedBy_eq alike]
      by_cases decided : operator.isDecidedBy value = true
      · rw [if_pos decided, if_pos decided]
        exact Alongside.ok meets₁ alike
      · rw [if_neg decided, if_neg decided]
        exact evaluates meets₁ (sees.mono becomes₁.toLeadsTo) (bound.2.extend becomes₁.ledger)
  | var id name => exact lookUp_alongside meets sees.fits bound.2 bound.1 name.line
  | assign id name e =>
      refine Alongside.bind (evaluates meets sees bound.1) ?_
      intro w₁ m₁ s₁ value value' becomes₁ meets₁ alike
      refine Alongside.bind (assign_alongside meets₁ (sees.fits.mono becomes₁.toLeadsTo)
        (bound.2.extend becomes₁.ledger) alike name.line) ?_
      intro w₂ m₂ s₂ _ _ becomes₂ meets₂ _
      exact Alongside.ok meets₂ (alike.imp becomes₂.implies)
  | call callee arguments line =>
      refine Alongside.bind (evaluates meets sees bound.1) ?_
      intro w₁ m₁ s₁ value value' becomes₁ meets₁ alike
      exact callValue_alongside hosts evaluates executes meets₁
        (sees.mono becomes₁.toLeadsTo) alike (bound.2.extend becomes₁.ledger) line
  | get object name =>
      refine Alongside.bind (evaluates meets sees bound) ?_
      intro w₁ m₁ s₁ value value' becomes₁ meets₁ alike
      refine Alongside.bind (asObject_alongside meets₁ alike name.line) ?_
      intro w₂ m₂ s₂ o o' becomes₂ meets₂ objects
      exact getProperty_alongside meets₂ objects name
  | set object name e =>
      refine Alongside.bind (evaluates meets sees bound.1) ?_
      intro w₁ m₁ s₁ value value' becomes₁ meets₁ alike
      refine Alongside.bind (asObject_alongside meets₁ alike name.line) ?_
      intro w₂ m₂ s₂ o o' becomes₂ meets₂ objects
      have leads := becomes₁.toLeadsTo.trans becomes₂.toLeadsTo
      refine Alongside.bind (evaluates meets₂ (sees.mono leads) (bound.2.extend leads.ledger)) ?_
      intro w₃ m₃ s₃ value value' becomes₃ meets₃ assigned
      refine Alongside.bind (setProperty_alongside meets₃ (objects.imp becomes₃.implies)
        name.name assigned) ?_
      intro w₄ m₄ s₄ _ _ becomes₄ meets₄ _
      exact Alongside.ok meets₄ (assigned.imp becomes₄.implies)
  | selfRef id line => exact lookUp_alongside meets sees.fits bound sees.self_defined line

/-! ## Classes -/

namespace World

/-- Worlds go on to lead to each other when a variable gets a value. -/
theorem LeadsTo.fill {w w' : World} (leads : w.LeadsTo opened w') (frame : FrameId)
    (name : String) : (w.fill frame name).LeadsTo opened (w'.fill frame name) where
  ledger := leads.ledger
  size_le := leads.size_le
  parent_eq := leads.parent_eq
  place_eq_some := leads.place_eq_some
  filled := by
    intro other key had
    exact had.imp_right leads.filled
  place_eq := leads.place_eq

end World

/--
The methods of a class are declared where the class itself has its value, which it gets afterwards.
-/
theorem makeMethods_alongside {name : String} {routines : List Routine} {methods : Table Closure}
    {methods' : Table (Closure Env)} (meets : w.Meets current m s)
    (fits : (w.fill frame name).Fits scopes frame env) (settled : scopes.Settled)
    (bound : Stmt.BoundMethods w.ledger ([("self", .defined)] :: scopes) routines)
    (alike : ∀ key : String,
      Option.Rel (w.fill frame name).likeness.methods methods[key]? methods'[key]?) :
    Alongside w none current
      (fun w' table table' => ∀ key : String,
        Option.Rel (w'.fill frame name).likeness.methods table[key]? table'[key]?)
      (Rill.Run.makeMethods frame methods routines m)
      (Run.makeMethods env methods' routines s) := by
  induction routines generalizing w m s methods methods' with
  | nil => exact Alongside.ok meets alike
  | cons routine rest ih =>
      obtain ⟨boundHere, boundRest⟩ := Stmt.boundMethods_cons.mp bound
      rw [Rill.Run.makeMethods, Run.makeMethods]
      refine Alongside.bind (newIdentity_alongside meets) ?_
      intro w' m' s' identity _ becomes meets' same
      subst same
      have leads := becomes.toLeadsTo.fill frame name
      apply ih meets' (fits.mono leads) (boundRest.extend becomes.ledger)
      apply optionRel_insert
      · intro key
        exact optionRel_mono (alike key) leads.implies.methods
      · exact ⟨scopes, ⟨rfl, rfl, rfl, fits.mono leads, settled⟩,
          boundHere.extend becomes.ledger⟩

/-! ## Loops -/

theorem goesOn_alongside (evaluates : EvaluatesAlike evaluate evaluate')
    {condition : Option Expr} (meets : w.Meets current m s) (sees : w.Sees scopes current env)
    (bound : Expr.BoundOption w.ledger scopes condition) :
    Alongside w none current (fun _ a b => a = b) (Rill.Run.goesOn evaluate condition m)
      (Run.goesOn (evaluate' env) condition s) := by
  cases condition with
  | none => exact Alongside.ok meets rfl
  | some e =>
      refine Alongside.bind (evaluates meets sees bound) ?_
      intro w' m' s' value value' _ meets' alike
      exact Alongside.ok meets' alike.isTruthy_eq

/-- The variable of a loop is the only one in its frame. -/
theorem startLoop_alongside (evaluates : EvaluatesAlike evaluate evaluate')
    {counter : Option LoopVar} (meets : w.Meets current m s)
    (around : w.Around ([] :: scopes) current (.within env))
    (bound : LoopVar.BoundOption w.ledger scopes counter) :
    Alongside w (some current) current
      (fun w' _ env' => w'.Around (counterScopes scopes counter) current (.within env'))
      (Rill.Run.startLoop evaluate counter m) (Run.startLoop evaluate' env counter s) := by
  cases counter with
  | none => exact Alongside.ok meets around
  | some counter =>
      obtain ⟨named, boundValue⟩ := bound
      obtain ⟨context', v, s', w', ran, becomes, meets', declared⟩ :=
        exists_declared counter.name.name meets around rfl
      cases ran
      refine EndsAlike.bind_right (b := s.nextLocation) rfl (Alongside.behind becomes ?_)
      refine Alongside.bind_closed (evaluates meets'
        (declared.sees (Scopes.settled_empty scopes) named) (boundValue.extend becomes.ledger)) ?_
      intro w₁ m₁ s₁ value value' becomes₁ meets₁ alike
      have lasting := (w₁.leadsTo_fill current counter.name.name).implies
      refine Alongside.bind (define_alongside meets₁ (declared.mono becomes₁.toLeadsTo)
        (alike.imp lasting)) ?_
      intro w₂ m₂ s₂ _ _ becomes₂ meets₂ ended
      obtain ⟨declared₂, filled⟩ := ended
      exact Alongside.ok meets₂ (declared₂.marked.around filled
        ((Scopes.settled_empty scopes).mark_mark counter.name.name) meets₂.agree)

/-- Rounds of a loop go alongside each other. -/
theorem repeatLoop_alongside (evaluates : EvaluatesAlike evaluate evaluate')
    (executes : ExecutesAlike execute execute') {condition increment : Option Expr}
    {body : List Stmt} (effort : Nat) (meets : w.Meets current m s)
    (around : w.Around scopes current (.within env))
    (boundCondition : Expr.BoundOption w.ledger scopes condition)
    (boundIncrement : Expr.BoundOption w.ledger scopes increment)
    (boundBody : Stmt.BoundAll w.ledger inRoutine ([] :: scopes) body) :
    Alongside w none current (FlowsAlike inRoutine)
      (Rill.Run.repeatLoop evaluate execute condition increment body effort m)
      (Run.repeatLoop (evaluate' env) execute' env condition increment body effort s) := by
  induction effort generalizing w m s with
  | zero => exact Alongside.spent meets
  | succ effort ih =>
      rw [Rill.Run.repeatLoop, Run.repeatLoop]
      refine Alongside.bind (goesOn_alongside evaluates meets around.sees boundCondition) ?_
      intro w₁ m₁ s₁ goesOn _ becomes₁ meets₁ same
      subst same
      cases goesOn with
      | false => exact Alongside.ok meets₁ .next
      | true =>
          rw [if_pos rfl, if_pos rfl]
          have around₁ := around.mono becomes₁.toLeadsTo
          refine Alongside.bind (block_alongside executes meets₁ around₁.fits around₁.settled
            (boundBody.extend becomes₁.ledger)) ?_
          intro w₂ m₂ s₂ flow flow' becomes₂ meets₂ flows
          have leads₂ := becomes₁.toLeadsTo.trans becomes₂.toLeadsTo
          cases flows with
          | exit returns alike => exact Alongside.ok meets₂ (.exit returns alike)
          | next =>
              refine Alongside.bind (evaluateOption_alongside evaluates meets₂
                (around.mono leads₂).sees (boundIncrement.extend leads₂.ledger)) ?_
              intro w₃ m₃ s₃ _ _ becomes₃ meets₃ _
              have leads₃ := leads₂.trans becomes₃.toLeadsTo
              exact ih meets₃ (around.mono leads₃) (boundCondition.extend leads₃.ledger)
                (boundIncrement.extend leads₃.ledger) (boundBody.extend leads₃.ledger)

/-! ## Statements -/

/-- Statements that declare nothing leave the context as it is. -/
theorem Leaves.unchanged {w' : World} {flow : Flow} {flow' : Flow Env}
    (around : w.Around scopes frame context) (leads : w.LeadsTo none w')
    (flows : FlowsAlike inRoutine w' flow flow') :
    Leaves inRoutine scopes frame w' flow (context, flow') :=
  ⟨around.mono leads, flows⟩

/-- A block in a context leaves the context as it is. -/
theorem blockIn_alongside (executes : ExecutesAlike execute execute') {body : List Stmt}
    (meets : w.Meets current m s) (around : w.Around scopes current context)
    (bound : Stmt.BoundAll w.ledger inRoutine ([] :: scopes) body) :
    Alongside w (some current) current (Leaves inRoutine scopes current)
      (Rill.Run.inNewFrame (Rill.Run.executeAll execute body) m)
      ((do return (context, ← Run.executeAll execute' (.within context.env) body) :
        Run (Context × Flow Env)) s) := by
  refine Alongside.weaken ?_ (some current)
  refine Alongside.map_right
    (block_alongside executes meets around.fits around.settled bound) ?_
  intro w' flow flow' becomes flows
  exact .unchanged around becomes.toLeadsTo flows

/-- A loop has a scope of its own for its variable. -/
theorem loop_alongside (evaluates : EvaluatesAlike evaluate evaluate')
    (executes : ExecutesAlike execute execute') (effort : Nat) {counter : Option LoopVar}
    {condition increment : Option Expr} {body : List Stmt} (meets : w.Meets current m s)
    (around : w.Around scopes current context)
    (bound : (Stmt.loop counter condition increment body).Bound w.ledger inRoutine scopes) :
    Alongside w none current (Leaves inRoutine scopes current)
      (Rill.Run.executeWith evaluate execute effort (.loop counter condition increment body) m)
      (Run.executeWith evaluate' execute' effort context
        (.loop counter condition increment body) s) := by
  obtain ⟨boundCounter, boundCondition, boundIncrement, boundBody⟩ := bound
  have keeps : Alongside w none current
      (fun w' flow left => left.1 = context ∧ FlowsAlike inRoutine w' flow left.2)
      (Rill.Run.executeWith evaluate execute effort (.loop counter condition increment body) m)
      (Run.executeWith evaluate' execute' effort context
        (.loop counter condition increment body) s) := by
    refine inNewFrame_alongside meets around.fits around.settled ?_
    intro w₁ frame m₁ becomes₁ meets₁ around₁
    refine Alongside.bind (startLoop_alongside evaluates meets₁ around₁
      (boundCounter.extend becomes₁.ledger)) ?_
    intro w₂ m₂ s₂ _ env becomes₂ meets₂ around₂
    have leads := (becomes₁.toLeadsTo.weaken _).trans becomes₂.toLeadsTo
    refine Alongside.weaken ?_ (some frame)
    refine Alongside.map_right (repeatLoop_alongside evaluates executes effort meets₂ around₂
      (boundCondition.extend leads.ledger) (boundIncrement.extend leads.ledger)
      (boundBody.extend leads.ledger)) ?_
    intro w₃ flow flow' _ flows
    exact ⟨rfl, flows⟩
  refine keeps.mono ?_
  rintro w' flow ⟨context', flow'⟩ becomes ⟨rfl, flows⟩
  exact .unchanged around becomes.toLeadsTo flows

/-- A function keeps the names in force at its declaration, its own included. -/
theorem function_alongside (effort : Nat) {routine : Routine} (meets : w.Meets current m s)
    (around : w.Around scopes current context)
    (bound : (Stmt.function routine).Bound w.ledger inRoutine scopes) :
    Alongside w (some current) current
      (Leaves inRoutine ((Stmt.function routine).behind scopes) current)
      (Rill.Run.executeWith evaluate execute effort (.function routine) m)
      (Run.executeWith evaluate' execute' effort context (.function routine) s) := by
  obtain ⟨new, boundRoutine⟩ := Stmt.bound_function.mp bound
  obtain ⟨context', v, s', w', ran, becomes, meets', declared⟩ :=
    exists_declared _ meets around new
  refine EndsAlike.bind_right ran (Alongside.behind becomes ?_)
  refine Alongside.bind_closed (newIdentity_alongside meets') ?_
  intro w₁ m₁ s₁ identity _ becomes₁ meets₁ same
  subst same
  rw [Rill.Run.get_bind, meets₁.current_eq]
  have declared₁ := declared.mono becomes₁.toLeadsTo
  have settled := around.settled.mark routine.name.name
  have ledger := becomes.ledger.trans becomes₁.ledger
  refine Alongside.bind (define_alongside meets₁ declared₁ (.closure
    ⟨scopes.mark routine.name.name .defined, ⟨rfl, rfl, rfl, ?_, settled⟩,
      boundRoutine.extend ledger, by simp⟩)) ?_
  · exact (declared₁.mono (w₁.leadsTo_fill _ _)).fits (w₁.filled_fill _ _)
  · intro w₂ m₂ s₂ _ _ becomes₂ meets₂ ended
    obtain ⟨declared₂, filled⟩ := ended
    exact Alongside.ok meets₂ ⟨declared₂.around filled settled meets₂.agree, .next⟩

/-- A class keeps the names in force at its declaration for its methods, its own included. -/
theorem classDef_alongside (effort : Nat) {name : Ident} {methods : List Routine}
    (meets : w.Meets current m s) (around : w.Around scopes current context)
    (bound : (Stmt.classDef name methods).Bound w.ledger inRoutine scopes) :
    Alongside w (some current) current
      (Leaves inRoutine ((Stmt.classDef name methods).behind scopes) current)
      (Rill.Run.executeWith evaluate execute effort (.classDef name methods) m)
      (Run.executeWith evaluate' execute' effort context (.classDef name methods) s) := by
  obtain ⟨new, boundMethods⟩ := bound
  obtain ⟨context', v, s', w', ran, becomes, meets', declared⟩ :=
    exists_declared _ meets around new
  refine EndsAlike.bind_right ran (Alongside.behind becomes ?_)
  rw [Rill.Run.executeWith, Rill.Run.get_bind, meets'.current_eq]
  have settled := around.settled.mark name.name
  refine Alongside.bind_closed (makeMethods_alongside meets'
    ((declared.mono (w'.leadsTo_fill _ _)).fits (w'.filled_fill _ _)) settled
    (boundMethods.extend becomes.ledger) ?_) ?_
  · intro key
    rw [Std.TreeMap.getElem?_emptyc, Std.TreeMap.getElem?_emptyc]
    exact .none
  · intro w₁ m₁ s₁ table table' becomes₁ meets₁ alike
    refine Alongside.bind_closed (newIdentity_alongside meets₁) ?_
    intro w₂ m₂ s₂ identity _ becomes₂ meets₂ same
    subst same
    have declared₂ := declared.mono (becomes₁.toLeadsTo.trans becomes₂.toLeadsTo)
    have lasting := (becomes₂.toLeadsTo.fill current name.name).implies
    refine Alongside.bind (define_alongside meets₂ declared₂ (.cls
      ⟨rfl, rfl, fun key => optionRel_mono (alike key) lasting.methods⟩)) ?_
    intro w₃ m₃ s₃ _ _ becomes₃ meets₃ ended
    obtain ⟨declared₃, filled⟩ := ended
    exact Alongside.ok meets₃ ⟨declared₃.around filled settled meets₃.agree, .next⟩

/-- Statements go alongside each other if their parts do. -/
theorem executeWith_alongside (evaluates : EvaluatesAlike evaluate evaluate')
    (executes : ExecutesAlike execute execute') (effort : Nat) {st : Stmt}
    (meets : w.Meets current m s) (around : w.Around scopes current context)
    (bound : st.Bound w.ledger inRoutine scopes) :
    Alongside w (some current) current (Leaves inRoutine (st.behind scopes) current)
      (Rill.Run.executeWith evaluate execute effort st m)
      (Run.executeWith evaluate' execute' effort context st s) := by
  cases st with
  | expression e =>
      refine Alongside.bind_closed (evaluates meets around.sees bound) ?_
      intro w₁ m₁ s₁ _ _ becomes₁ meets₁ _
      exact Alongside.ok meets₁ (.unchanged around becomes₁.toLeadsTo .next)
  | print e =>
      refine Alongside.bind_closed (evaluates meets around.sees bound) ?_
      intro w₁ m₁ s₁ value value' becomes₁ meets₁ alike
      refine Alongside.bind_closed (print_alongside meets₁ alike) ?_
      intro w₂ m₂ s₂ _ _ becomes₂ meets₂ _
      exact Alongside.ok meets₂
        (.unchanged around (becomes₁.toLeadsTo.trans becomes₂.toLeadsTo) .next)
  | declare name initializer =>
      obtain ⟨new, named, boundValue⟩ := bound
      obtain ⟨context', v, s', w', ran, becomes, meets', declared⟩ :=
        exists_declared _ meets around new
      refine EndsAlike.bind_right ran (Alongside.behind becomes ?_)
      refine Alongside.bind_closed (evaluateOption_alongside evaluates meets'
        (declared.sees around.settled named) (boundValue.extend becomes.ledger)) ?_
      intro w₁ m₁ s₁ value value' becomes₁ meets₁ alike
      have lasting := (w₁.leadsTo_fill current name.name).implies
      refine Alongside.bind (define_alongside meets₁ (declared.mono becomes₁.toLeadsTo)
        (alike.imp lasting)) ?_
      intro w₂ m₂ s₂ _ _ becomes₂ meets₂ ended
      obtain ⟨declared₂, filled⟩ := ended
      exact Alongside.ok meets₂ ⟨declared₂.marked.around filled
        (around.settled.mark_mark name.name) meets₂.agree, .next⟩
  | block body => exact blockIn_alongside executes meets around bound
  | function routine => exact function_alongside effort meets around bound
  | branch condition thenBody elseBody =>
      obtain ⟨boundCondition, boundThen, boundElse⟩ := Stmt.bound_branch.mp bound
      refine Alongside.bind_closed (evaluates meets around.sees boundCondition) ?_
      intro w₁ m₁ s₁ value value' becomes₁ meets₁ alike
      have around₁ := around.mono becomes₁.toLeadsTo
      rw [← alike.isTruthy_eq]
      by_cases holds : value.isTruthy = true
      · rw [if_pos holds, if_pos holds]
        exact blockIn_alongside executes meets₁ around₁ (boundThen.extend becomes₁.ledger)
      · rw [if_neg holds, if_neg holds]
        cases elseBody with
        | none => exact Alongside.ok meets₁ ⟨around₁, .next⟩
        | some body =>
            exact blockIn_alongside executes meets₁ around₁
              ((boundElse body rfl).extend becomes₁.ledger)
  | loop counter condition increment body =>
      exact (loop_alongside evaluates executes effort meets around bound).weaken _
  | exit line value =>
      refine Alongside.bind_closed (evaluateOption_alongside evaluates meets around.sees bound.2) ?_
      intro w₁ m₁ s₁ value value' becomes₁ meets₁ alike
      exact Alongside.ok meets₁ (.unchanged around becomes₁.toLeadsTo (.exit bound.1 alike))
  | classDef name methods => exact classDef_alongside effort meets around bound

/-! ## All effort -/

/-- Whatever the effort, bound code goes alongside its evaluation without frames. -/
theorem alongside_of_effort (hosts : HostsAlike host host') (effort : Nat) :
    EvaluatesAlike (Rill.Run.evaluate host effort) (Run.evaluate host' effort) ∧
      ExecutesAlike (Rill.Run.execute host effort) (Run.execute host' effort) := by
  induction effort with
  | zero =>
      constructor
      · intro w current m s scopes env e meets _ _
        exact Alongside.spent meets
      · intro w current m s scopes context inRoutine st meets _ _
        exact Alongside.spent meets
  | succ effort ih =>
      constructor
      · intro w current m s scopes env e meets sees bound
        exact evaluateWith_alongside hosts ih.1 ih.2 meets sees bound
      · intro w current m s scopes context inRoutine st meets around bound
        exact executeWith_alongside ih.1 ih.2 effort meets around bound

/-! ## Programs -/

/-- A program that is bound goes alongside its run without frames, and returns nowhere. -/
theorem runProgram_alongside (hosts : HostsAlike host host') (effort : Nat) {program : List Stmt}
    (meets : w.Meets Machine.globals m s) (around : w.Around [] Machine.globals .top)
    (bound : Stmt.BoundAll w.ledger false [] program) :
    Alongside w (some Machine.globals) Machine.globals (fun _ _ _ => True)
      (Rill.Run.runProgram host effort program m) (Run.runProgram host' effort program s) := by
  induction program generalizing w m s with
  | nil => exact Alongside.ok meets trivial
  | cons st rest ih =>
      rw [Rill.Run.runProgram, Run.runProgram]
      refine Alongside.bind ((alongside_of_effort hosts effort).2 meets around bound.1) ?_
      rintro w' m' s' flow ⟨context', flow'⟩ becomes meets' ⟨around', flows⟩
      rw [Stmt.behind_nil] at around'
      have boundRest := bound.2
      rw [Stmt.behind_nil] at boundRest
      cases around'.top_iff.mpr rfl
      cases flows with
      | next => exact ih meets' around' (boundRest.extend becomes.ledger)
      | exit returns _ => cases returns

/-- A program flushes its output in the same cases. -/
theorem interpret_alongside (hosts : HostsAlike host host') (effort : Nat) {program : List Stmt}
    (meets : w.Meets Machine.globals m s) (around : w.Around [] Machine.globals .top)
    (bound : Stmt.BoundAll w.ledger false [] program) :
    Alongside w (some Machine.globals) Machine.globals (fun _ _ _ => True)
      (Rill.Run.interpret host effort program m) (Run.interpret host' effort program s) := by
  have runs := runProgram_alongside hosts effort meets around bound
  unfold Rill.Run.interpret Run.interpret
  revert runs
  generalize Rill.Run.runProgram host effort program m = r
  generalize Run.runProgram host' effort program s = r'
  intro runs
  cases runs with
  | ok ended =>
      obtain ⟨w', becomes, meets', _⟩ := ended
      exact Alongside.behind becomes (flush_alongside meets')
  | error ended =>
      rename_i reason reason' m' s'
      obtain ⟨rfl, sound, w', becomes, meets'⟩ := ended
      have flushed := Alongside.behind becomes (flush_alongside meets')
      cases reason with
      | breach breach => exact absurd rfl (sound breach)
      | spent => exact EndsAlike.error ⟨rfl, sound, w', becomes, meets'⟩
      | fault _ | output _ =>
          dsimp only
          revert flushed
          generalize Rill.Run.flush m' = r
          generalize Run.flush s' = r'
          intro flushed
          cases flushed with
          | ok ended =>
              obtain ⟨w₂, becomes₂, meets₂, _⟩ := ended
              exact EndsAlike.error ⟨rfl, sound, w₂, becomes₂, meets₂⟩
          | error ended => exact EndsAlike.error ended

end Rill.Lexical
