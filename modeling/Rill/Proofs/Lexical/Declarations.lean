import Rill.Proofs.Lexical.Alongside

/-!
# Declarations and names alongside each other

The frame of a scope has no other variables than the scope declares so far, so a name that is
declared there is new to it and gets a new location. From then on the name leads to one variable, by
its depth in the machine and by the names in force without it.
-/

namespace Rill.Lexical

namespace World

/--
What is around a statement fits: its context fits the scopes, all names there are defined, and the
frame of the innermost one has the variables of these names only.
-/
structure Around (w : World) (scopes : Scopes) (frame : FrameId) (context : Context) : Prop where
  fits : w.Fits scopes frame context.env
  settled : scopes.Settled
  top_iff : context = .top ↔ scopes = []
  tight : ∀ name, w.place frame name ≠ none → scopes.declaresHere name = true

variable {w w' : World} {opened : Option FrameId} {scopes : Scopes} {frame current : FrameId}
  {env : Env} {context context' : Context} {name : String} {v : Variable} {m : Machine} {s : Store}

namespace Around

theorem sees (around : w.Around scopes frame context) : w.Sees scopes frame context.env :=
  ⟨around.fits, around.settled "self"⟩

theorem mono (around : w.Around scopes frame context) (leads : w.LeadsTo none w') :
    w'.Around scopes frame context where
  fits := around.fits.mono leads
  settled := around.settled
  top_iff := around.top_iff
  tight name placed := by
    rw [leads.place_eq frame around.fits.lt_size (by simp)] at placed
    exact around.tight name placed

/-- A new frame is around the statements of a new scope. -/
theorem enter (agree : w.Agree m s) (fits : w.Fits scopes frame env) (settled : scopes.Settled) :
    (w.addFrame frame).Around ([] :: scopes) w.size (.within env) where
  fits := fits.enter settled
  settled := Scopes.settled_empty scopes
  top_iff := by simp
  tight name placed := by
    obtain ⟨location, found⟩ := Option.ne_none_iff_exists'.mp placed
    exact absurd (agree.shares.placed found).2.1 (Nat.lt_irrefl _)

end Around

/-- A name has been declared among scopes. It leads to a variable, which may have no value yet. -/
inductive Declared (w : World) (frame : FrameId) (name : String) :
    (scopes : Scopes) → (context context' : Context) → (v : Variable) → Prop
  | top : w.Fits [] frame ∅ → Declared w frame name [] .top .top (.global name)
  | within {scope : Scope} {outer : Scopes} {env env' : Env} {location : Location} :
      w.Fits (scope :: outer) frame env → w.place frame name = some location →
      (∀ other : String, env'[other]? = if other = name then some location else env[other]?) →
      (∀ other, w.place frame other ≠ none → other = name ∨ scope.declares other = true) →
      Declared w frame name (scope :: outer) (.within env) (.within env') (.cell location)

namespace Declared

theorem mono (declared : w.Declared frame name scopes context context' v)
    (leads : w.LeadsTo none w') : w'.Declared frame name scopes context context' v := by
  cases declared with
  | top fits => exact .top (fits.mono leads)
  | within fits placed same tight =>
      refine .within (fits.mono leads) (leads.place_eq_some placed) same ?_
      rw [leads.place_eq frame fits.lt_size (by simp)]
      exact tight

theorem denotes (declared : w.Declared frame name scopes context context' v) :
    w.Denotes frame name v := by
  cases declared with
  | top fits => exact .global fits.1
  | within _ placed _ _ => exact .cell placed

/-- A name may be seen before it has a value, except for `self`. -/
theorem sees (declared : w.Declared frame name scopes context context' v)
    (settled : scopes.Settled) (named : name ≠ "self") :
    w.Sees (scopes.mark name .declared) frame context'.env := by
  cases declared with
  | top fits => exact ⟨fits, rfl⟩
  | within fits placed same _ =>
      refine ⟨fits.mark placed (by simp) same, ?_⟩
      rw [Scopes.mark, Scopes.isUndefinedHere_cons, Scope.status?_cons, if_neg named.symm]
      exact Scopes.isUndefinedHere_cons.mp (settled "self")

/-- Code that is declared with a name sees the name as defined once it has a value. -/
theorem fits (declared : w.Declared frame name scopes context context' v)
    (filled : w.Filled frame name) : w.Fits (scopes.mark name .defined) frame context'.env := by
  cases declared with
  | top fits => exact fits
  | within fits placed same _ => exact fits.mark placed (fun _ => filled) same

/-- What is around the rest of the scope. -/
theorem around (declared : w.Declared frame name scopes context context' v)
    (filled : w.Filled frame name) (settled : (scopes.mark name .defined).Settled)
    (agree : w.Agree m s) : w.Around (scopes.mark name .defined) frame context' where
  fits := declared.fits filled
  settled := settled
  top_iff := by cases declared <;> simp [Scopes.mark]
  tight := by
    intro other placed
    cases declared with
    | top fits =>
        obtain ⟨location, found⟩ := Option.ne_none_iff_exists'.mp placed
        exact absurd fits.1 (agree.shares.placed found).1
    | within _ _ _ tight =>
        rw [Scopes.mark, Scopes.declaresHere, Scope.declares, Scope.status?_cons]
        by_cases same : other = name
        · rw [if_pos same]
          rfl
        · rw [if_neg same]
          exact (tight other placed).resolve_left same

/-- A name that is declared may be marked so. -/
theorem marked (declared : w.Declared frame name scopes context context' v) :
    w.Declared frame name (scopes.mark name .declared) context' context' v := by
  cases declared with
  | top fits => exact .top fits
  | within fits placed same tight =>
      refine .within (fits.mark placed (by simp) same) placed ?_ ?_
      · intro other
        rw [same other]
        split <;> rfl
      · intro other found
        refine (tight other found).imp_right fun old => ?_
        rw [Scope.declares, Scope.status?_cons]
        split
        · rfl
        · exact old

end Declared

end World

open World

variable {w : World} {opened : Option FrameId} {scopes : Scopes} {frame current : FrameId}
  {env : Env} {context context' : Context} {name : String} {v : Variable} {m : Machine} {s : Store}

/-- A name that is new to its scope can be declared, which leaves the machine as it is. -/
theorem exists_declared (name : String) (meets : w.Meets current m s)
    (around : w.Around scopes frame context)
    (new : scopes.declaresHere name = false) :
    ∃ context' v s' w', Run.declare name context s = .ok (context', v) s' ∧
      w.Becomes (some frame) w' ∧ w'.Meets current m s' ∧
      w'.Declared frame name scopes context context' v := by
  cases context with
  | top =>
      cases around.top_iff.mp rfl
      exact ⟨.top, .global name, s, w, rfl, .refl w _, meets, .top around.fits⟩
  | within env =>
      cases scopes with
      | nil => cases around.top_iff.mpr rfl
      | cons scope outer =>
          have vacant : w.place frame name = none := by
            cases found : w.place frame name with
            | none => rfl
            | some location =>
                have declared := around.tight name (by simp [found])
                rw [new] at declared
                cases declared
          have inner : frame ≠ Machine.globals := by
            obtain ⟨_, _, enclosing, _, parent, _⟩ := around.fits
            rintro rfl
            rw [meets.agree.outermost] at parent
            cases parent
          refine ⟨.within (env.insert name s.nextLocation), .cell s.nextLocation, _, _, rfl,
            .put s.nextLocation vacant,
            ⟨meets.agree.put inner around.fits.lt_size vacant, meets.current_eq⟩,
            .within (around.fits.mono (leadsTo_put _ vacant)) (place_put _ _ _ _) ?_ ?_⟩
          · exact fun other => getElem?_insert_eq env name other s.nextLocation
          · intro other placed
            by_cases same : other = name
            · exact .inl same
            · rw [place_put_of_ne (fun both => same both.2)] at placed
              exact .inr (around.tight other placed)

/-- A variable that has been declared gets a value. -/
theorem store_alongside (meets : w.Meets current m s)
    (declared : w.Declared frame name scopes context context' v) {value : Value}
    {value' : Value Env} (alike : (w.fill frame name).Alike value value') :
    Alongside w opened current
      (fun w' _ _ => w'.Declared frame name scopes context context' v ∧ w'.Filled frame name)
      (Rill.Run.defineIn frame name value m) (Run.store v value' s) :=
  Alongside.behind ((Becomes.fill w frame name).weaken opened)
    (Alongside.ok ⟨meets.agree.store declared.denotes alike, meets.current_eq⟩
      ⟨declared.mono (w.leadsTo_fill frame name), w.filled_fill frame name⟩)

/-- A variable of the current frame that has been declared gets a value. -/
theorem define_alongside (meets : w.Meets current m s)
    (declared : w.Declared current name scopes context context' v) {value : Value}
    {value' : Value Env} (alike : (w.fill current name).Alike value value') :
    Alongside w opened current
      (fun w' _ _ => w'.Declared current name scopes context context' v ∧ w'.Filled current name)
      (Rill.Run.define name value m) (Run.store v value' s) := by
  have sameFrame : Rill.Run.define name value m = Rill.Run.defineIn current name value m := by
    rw [← meets.current_eq]
    rfl
  rw [sameFrame]
  exact store_alongside meets declared alike

/-! ## Parameters -/

/-- Parameters get their arguments one after the other, each in a new variable of one frame. -/
theorem bindParams_alongside {params : List Ident} {values : List Value}
    {values' : List (Value Env)} (meets : w.Meets current m s)
    (around : w.Around scopes frame (.within env)) (distinct : ParamsDistinct scopes params)
    (alike : ValuesAlike w.likeness values values') (length : values.length = params.length) :
    Alongside w (some frame) current
      (fun w' _ env' => w'.Around (paramScopes scopes params) frame (.within env'))
      (Rill.Run.bindParams frame params values m) (Run.bindParams env params values' s) := by
  induction params generalizing w m s scopes env values values' with
  | nil =>
      cases alike with
      | nil => exact Alongside.ok meets around
      | cons _ _ => cases length
  | cons param params ih =>
      cases alike with
      | nil => cases length
      | cons first rest =>
          obtain ⟨new, distinctRest⟩ := distinct
          obtain ⟨context', v, s', w', ran, becomes, meets', declared⟩ :=
            exists_declared _ meets around new
          cases ran
          refine EndsAlike.bind_right (b := s.nextLocation) rfl (Alongside.behind becomes ?_)
          have lasting := (w'.leadsTo_fill frame param.name).implies
          refine Alongside.bind
            (store_alongside meets' declared ((first.imp becomes.implies).imp lasting)) ?_
          intro w'' m'' s'' _ _ leads meets'' ended
          obtain ⟨declared', filled⟩ := ended
          refine ih meets'' ?_ distinctRest ((rest.imp becomes.implies).imp leads.implies)
            (Nat.succ.inj length)
          exact declared'.around filled (around.settled.mark param.name) meets''.agree

/-! ## Names -/

/-- What a name stands for is found in both ways, or in neither. -/
theorem lookUp_alongside (meets : w.Meets current m s) (fits : w.Fits scopes current env)
    {id : Occurrence} (binds : w.ledger.Binds scopes id name)
    (defined : scopes.isUndefinedHere name = false) (line : Nat) :
    Alongside w opened current World.Alike (Rill.Run.lookUp id name line m)
      (Run.lookUp env name line s) := by
  have bindings := binds.getElem?_eq
  rw [← meets.agree.bindings_eq] at bindings
  rw [Run.lookUp, Rill.Run.get_bind]
  cases depth : scopes.depth? name with
  | some d =>
      obtain ⟨owner, location, reached, placed, found, filled⟩ := fits.exists_owner depth
      rw [depth] at bindings
      rw [← meets.agree.ancestor?_eq, ← meets.current_eq] at reached
      have slots := meets.agree.shares.slots placed
      have had := meets.agree.shares.filled (filled defined)
      rcases optionRel_cases slots with ⟨value, value', slot, cell, alike⟩ | ⟨slot, _⟩
      · rw [Rill.Run.lookUp_of_bound bindings reached slot, found]
        dsimp only
        rw [cell]
        exact Alongside.ok meets alike
      · rw [slot] at had
        cases had
  | none =>
      rw [depth] at bindings
      rw [fits.getElem?_eq_none depth]
      dsimp only
      rcases optionRel_cases (meets.agree.globals name) with
        ⟨value, value', slot, found, alike⟩ | ⟨slot, found⟩
      · rw [Rill.Run.lookUp_of_global bindings slot, found]
        exact Alongside.ok meets alike
      · rw [Rill.Run.lookUp_of_undefined bindings slot, found]
        exact Alongside.halt meets (by simp)

/-- A name gets its value in both ways, or in neither. -/
theorem assign_alongside (meets : w.Meets current m s) (fits : w.Fits scopes current env)
    {id : Occurrence} (binds : w.ledger.Binds scopes id name) {value : Value}
    {value' : Value Env} (alike : w.Alike value value') (line : Nat) :
    Alongside w opened current (fun _ _ _ => True) (Rill.Run.assign id name value line m)
      (Run.assign env name value' line s) := by
  have bindings := binds.getElem?_eq
  rw [← meets.agree.bindings_eq] at bindings
  rw [Run.assign, Rill.Run.get_bind]
  cases depth : scopes.depth? name with
  | some d =>
      obtain ⟨owner, location, reached, placed, found, _⟩ := fits.exists_owner depth
      rw [depth] at bindings
      rw [← meets.agree.ancestor?_eq, ← meets.current_eq] at reached
      rw [found, Rill.Run.assign_of_bound bindings reached]
      have lasting := (w.leadsTo_fill owner name).implies
      exact Alongside.behind ((Becomes.fill w owner name).weaken opened)
        (Alongside.ok ⟨meets.agree.store (.cell placed) (alike.imp lasting), meets.current_eq⟩
          trivial)
  | none =>
      rw [depth] at bindings
      rw [fits.getElem?_eq_none depth]
      dsimp only
      rcases optionRel_cases (meets.agree.globals name) with
        ⟨former, former', slot, found, _⟩ | ⟨slot, found⟩
      · rw [Rill.Run.assign_of_global bindings slot, found]
        have lasting := (w.leadsTo_fill Machine.globals name).implies
        exact Alongside.behind ((Becomes.fill w Machine.globals name).weaken opened)
          (Alongside.ok
            ⟨meets.agree.store (.global rfl) (alike.imp lasting), meets.current_eq⟩ trivial)
      · rw [Rill.Run.assign_of_undefined bindings slot, found]
        exact Alongside.halt meets (by simp)

end Rill.Lexical
