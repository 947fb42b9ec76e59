import Mathlib.Data.List.Forall2
import Rill.Proofs.Compilation
import Rill.Proofs.Scope.Sites

/-!
# Resolution decides the rules of scopes

Resolution carries scopes and a place along as it goes over a program. At every site these amount to
the scopes that enclose the site, so the faults found are the rules broken at sites, one fault for
each, and the depths recorded are those at which sites see their declarations.
-/

namespace Rill

namespace Enclosures

/-- What is around a site besides names. -/
def place (around : Enclosures) : Place where
  routine :=
    match around.isInitializer? with
    | none => .outside
    | some true => .initializer
    | some false => .routine
  inClass := around.inClass

theorem place_block (around : Enclosures) (names : List String) :
    Enclosures.place (⟨.block, names⟩ :: around) = around.place := rfl

theorem place_routine (around : Enclosures) (isInitializer : Bool) :
    Enclosures.place (⟨.routine isInitializer, []⟩ :: around) =
      ⟨if isInitializer then .initializer else .routine, around.inClass⟩ := by
  cases isInitializer <;> rfl

theorem place_openLoop (around : Enclosures) (counter : Option LoopVar) :
    (around.openLoop counter).place = around.place := by
  cases counter <;> rfl

theorem place_declare (around : Enclosures) (name : String) :
    (around.declare name).place = around.place := by
  cases around <;> rfl

theorem place_declareParams (around : Enclosures) (params : List Ident) :
    (around.declareParams params).place = around.place := by
  induction params generalizing around with
  | nil => rfl
  | cons name rest ih => exact (ih _).trans (around.place_declare name.name)

theorem place_behind (around : Enclosures) (s : Stmt) : (around.behind s).place = around.place := by
  cases s with
  | declare name _ => exact around.place_declare name.name
  | function r => exact around.place_declare r.name.name
  | classDef name _ => exact around.place_declare name.name
  | _ => rfl

end Enclosures

/-! ## Scopes of resolution -/

/-- A scope of resolution declares the names that an enclosing scope has declared. -/
def Enclosure.Matches (enclosure : Enclosure) (scope : Scope) : Prop :=
  ∀ name, scope.declares name = true ↔ name ∈ enclosure.declared

/--
The scopes of resolution are those around a site. At most the variable whose first value the site
is part of has no value yet, and none at the level of the globals.
-/
structure Enclosed (around : Enclosures) (initialized : Option String) (scopes : Scopes) :
    Prop where
  matching : List.Forall₂ Enclosure.Matches around scopes
  isUndefinedHere_iff : ∀ name,
    scopes.isUndefinedHere name = true ↔ around ≠ [] ∧ initialized = some name

theorem Scope.declares_cons (scope : Scope) (name other : String) (status : Status) :
    Scope.declares ((name, status) :: scope) other = true ↔
      other = name ∨ scope.declares other = true := by
  rw [Scope.declares, Scope.status?_cons]
  by_cases same : other = name
  · simp [same]
  · simp [same, Scope.declares]

namespace Enclosed

variable {around : Enclosures} {initialized : Option String} {scopes : Scopes}

theorem settled_iff : (∀ name, scopes.isUndefinedHere name = true ↔
    around ≠ [] ∧ none = some name) ↔ scopes.Settled := by
  simp [Scopes.Settled]

theorem settled (enclosed : Enclosed around none scopes) : scopes.Settled :=
  settled_iff.mp enclosed.isUndefinedHere_iff

theorem nil : Enclosed [] none [] := ⟨.nil, settled_iff.mpr Scopes.settled_nil⟩

theorem enter (enclosed : Enclosed around initialized scopes) (kind : EnclosureKind) :
    Enclosed (⟨kind, []⟩ :: around) none ([] :: scopes) where
  matching := .cons (fun name => by simp [Scope.declares, Scope.status?]) enclosed.matching
  isUndefinedHere_iff := settled_iff.mpr (Scopes.settled_empty scopes)

/-- Marking a name declares it, whichever status it gets. -/
theorem forall₂_mark (enclosed : Enclosed around initialized scopes) (name : String)
    (status : Status) :
    List.Forall₂ Enclosure.Matches (around.declare name) (scopes.mark name status) := by
  obtain ⟨matching, _⟩ := enclosed
  cases matching with
  | nil => exact .nil
  | cons here outer =>
      refine .cons ?_ outer
      intro other
      rw [Scope.declares_cons, here, List.mem_append, List.mem_singleton, or_comm]

theorem define (enclosed : Enclosed around none scopes) (name : String) :
    Enclosed (around.declare name) none (scopes.mark name .defined) :=
  ⟨enclosed.forall₂_mark name .defined, settled_iff.mpr (enclosed.settled.mark name)⟩

/-- In its first value, a variable is declared and has no value. -/
theorem declare (enclosed : Enclosed around none scopes) (name : String) :
    Enclosed (around.declare name) (some name) (scopes.mark name .declared) where
  matching := enclosed.forall₂_mark name .declared
  isUndefinedHere_iff := by
    intro other
    obtain ⟨matching, undefined⟩ := enclosed
    cases matching with
    | nil => simp [Scopes.isUndefinedHere, Scopes.mark, Enclosures.declare]
    | @cons _ scope outer _ _ _ =>
        have settledHere := undefined other
        simp only [Scopes.isUndefinedHere, Scopes.mark, Enclosures.declare, Scope.status?_cons]
          at settledHere ⊢
        by_cases same : other = name
        · simp [same]
        · simpa [same, Ne.symm same] using settledHere

/-- Behind its first value, a variable is like one that was defined at once. -/
theorem define_declared (enclosed : Enclosed around none scopes) (name : String) :
    Enclosed (around.declare name) none ((scopes.mark name .declared).mark name .defined) where
  matching := by
    obtain ⟨matching, _⟩ := enclosed
    cases matching with
    | nil => exact .nil
    | cons here outer =>
        refine .cons ?_ outer
        intro other
        rw [Scope.declares_cons, Scope.declares_cons, here, List.mem_append, List.mem_singleton]
        tauto
  isUndefinedHere_iff := settled_iff.mpr (enclosed.settled.mark_mark name)

theorem declareParams (enclosed : Enclosed around none scopes) (params : List Ident) :
    Enclosed (around.declareParams params) none (paramScopes scopes params) := by
  induction params generalizing around scopes with
  | nil => exact enclosed
  | cons name rest ih => exact ih (enclosed.define name.name)

/-- The first value of a loop variable. -/
theorem counter (enclosed : Enclosed around none scopes) (name : String) :
    Enclosed (⟨.loop, [name]⟩ :: around) (some name) (Scopes.mark name .declared ([] :: scopes)) :=
  (enclosed.enter .loop).declare name

theorem openLoop (enclosed : Enclosed around none scopes) (counter : Option LoopVar) :
    Enclosed (around.openLoop counter) none (counterScopes scopes counter) := by
  cases counter with
  | none => exact enclosed.enter .loop
  | some counter => exact (enclosed.enter .loop).define_declared counter.name.name

theorem behind (enclosed : Enclosed around none scopes) (s : Stmt) :
    Enclosed (around.behind s) none (s.behind scopes) := by
  cases s with
  | declare name _ => exact enclosed.define_declared name.name
  | function r => exact enclosed.define r.name.name
  | classDef name _ => exact enclosed.define name.name
  | branch _ _ elseBody => cases elseBody <;> exact enclosed
  | _ => exact enclosed

/-- In a class, `self` is a name of the scope around its methods. -/
theorem enterClass (enclosed : Enclosed around none scopes) :
    Enclosed (⟨.classBody, ["self"]⟩ :: around) none ([("self", .defined)] :: scopes) :=
  (enclosed.enter .classBody).define "self"

theorem declaresHere_eq (enclosed : Enclosed around initialized scopes) (name : String) :
    scopes.declaresHere name = around.declaresHere name := by
  obtain ⟨matching, _⟩ := enclosed
  cases matching with
  | nil => rfl
  | cons here _ => rw [Scopes.declaresHere, Enclosures.declaresHere, Bool.eq_iff_iff, here name,
      decide_eq_true_iff]

theorem depth?_eq (enclosed : Enclosed around initialized scopes) (name : String) :
    scopes.depth? name = around.depth? name := by
  obtain ⟨matching, -⟩ := enclosed
  rw [Scopes.depth?, Enclosures.depth?]
  induction matching with
  | nil => rfl
  | @cons enclosure scope _ _ here _ ih =>
      have same : Scope.declares scope name = decide (name ∈ enclosure.declared) := by
        rw [Bool.eq_iff_iff, here name, decide_eq_true_iff]
      rw [List.findIdx?_cons, List.findIdx?_cons, same, ih]

end Enclosed

/-! ## Faults are broken rules -/

theorem findingFaults_ofMention (scopes : Scopes) (id : Occurrence) (name : String) :
    findingFaults (Finding.ofMention scopes id name) = [] := by
  unfold Finding.ofMention
  split <;> rfl

theorem mentionSites_append (around : Enclosures) (initialized : Option String)
    (first second : List Mention) :
    mentionSites around initialized (first ++ second) =
      mentionSites around initialized first ++ mentionSites around initialized second :=
  List.map_append

section Faults

variable {around : Enclosures} {initialized : Option String} {scopes : Scopes}

theorem Enclosed.faults_ofDeclaration (enclosed : Enclosed around initialized scopes)
    (name : Ident) (other : Option String) :
    findingFaults (Finding.ofDeclaration scopes name) =
      (Site.fault? ⟨.declaration name, around, other⟩).toList := by
  rw [Finding.ofDeclaration, enclosed.declaresHere_eq]
  cases declared : around.declaresHere name.name with
  | false => simp [Site.fault?, Site.brokenRule?, declared, findingFaults]
  | true => simp [Site.fault?, Site.brokenRule?, declared, findingFaults, Finding.ofFault,
      Site.line]

theorem Enclosed.faults_of_var (enclosed : Enclosed around initialized scopes) (id : Occurrence)
    (name : Ident) (inClass : Bool) :
    findingFaults ((Expr.var id name).findings scopes inClass) =
      brokenRules (mentionSites around initialized (Expr.var id name).mentions) := by
  rw [Expr.findings, findingFaults_append, findingFaults_ofMention, List.append_nil]
  cases undefined : scopes.isUndefinedHere name.name with
  | false =>
      have kept : ¬ (around ≠ [] ∧ initialized = some name.name) := by
        rw [← enclosed.isUndefinedHere_iff, undefined]
        exact Bool.false_ne_true
      simp only [Expr.mentions, mentionSites, List.map_cons, List.map_nil, brokenRules_cons,
        Site.fault?, Site.brokenRule?, if_neg kept]
      rfl
  | true =>
      have broken := (enclosed.isUndefinedHere_iff name.name).mp undefined
      simp only [Expr.mentions, mentionSites, List.map_cons, List.map_nil, brokenRules_cons,
        Site.fault?, Site.brokenRule?, if_pos broken]
      rfl

mutual

/-- The faults in an expression. Those of an assignment to a property stand in another order. -/
theorem Expr.faults_perm (enclosed : Enclosed around initialized scopes) : ∀ e : Expr,
    (findingFaults (e.findings scopes around.inClass)).Perm
      (brokenRules (mentionSites around initialized e.mentions))
  | .literal _ => .nil
  | .unary _ operand _ => operand.faults_perm enclosed
  | .binary left _ right _ | .logical left _ right => by
      rw [Expr.findings, Expr.mentions, findingFaults_append, mentionSites_append,
        brokenRules_append]
      exact (left.faults_perm enclosed).append (right.faults_perm enclosed)
  | .group inner => inner.faults_perm enclosed
  | .var id name => .of_eq (enclosed.faults_of_var id name around.inClass)
  | .assign id name value => by
      rw [Expr.findings, Expr.mentions, findingFaults_append, mentionSites_append,
        brokenRules_append, findingFaults_ofMention]
      exact (value.faults_perm enclosed).append .nil
  | .call callee arguments _ => by
      rw [Expr.findings, Expr.mentions, findingFaults_append, mentionSites_append,
        brokenRules_append]
      exact (callee.faults_perm enclosed).append (Expr.faultsAll_perm enclosed arguments)
  | .get object _ => object.faults_perm enclosed
  | .set object _ value => by
      rw [Expr.findings, Expr.mentions, findingFaults_append, mentionSites_append,
        brokenRules_append]
      exact ((value.faults_perm enclosed).append (object.faults_perm enclosed)).trans
        List.perm_append_comm
  | .selfRef id line => by
      refine .of_eq ?_
      simp only [Expr.findings, Expr.mentions, mentionSites, List.map_cons, List.map_nil,
        brokenRules_cons, Site.fault?, Site.brokenRule?]
      cases around.inClass with
      | false => rfl
      | true => exact findingFaults_ofMention scopes id "self"

theorem Expr.faultsAll_perm (enclosed : Enclosed around initialized scopes) :
    ∀ arguments : List Expr,
    (findingFaults (Expr.findingsAll scopes around.inClass arguments)).Perm
      (brokenRules (mentionSites around initialized (Expr.mentionsAll arguments)))
  | [] => .nil
  | e :: rest => by
      rw [Expr.findingsAll, Expr.mentionsAll, findingFaults_append, mentionSites_append,
        brokenRules_append]
      exact (e.faults_perm enclosed).append (Expr.faultsAll_perm enclosed rest)

end

theorem Expr.faultsOption_perm (enclosed : Enclosed around initialized scopes)
    (value : Option Expr) :
    (findingFaults (Expr.findingsOption scopes around.inClass value)).Perm
      (brokenRules (mentionSites around initialized (Expr.mentionsOption value))) := by
  cases value with
  | none => exact .nil
  | some e => exact e.faults_perm enclosed

theorem Enclosed.faults_resolveParams (enclosed : Enclosed around none scopes)
    (params : List Ident) :
    findingFaults (resolveParams scopes params).2 = brokenRules (paramSites around params) := by
  induction params generalizing around scopes with
  | nil => rfl
  | cons name rest ih =>
      have others := ih (enclosed.define name.name)
      rw [resolveParams, paramSites, brokenRules_cons, findingFaults_append, others,
        enclosed.faults_ofDeclaration name none]

/-- A loop has its scope to itself, so its variable breaks no rule by being declared. -/
theorem LoopVar.faultsOption_perm (enclosed : Enclosed around none scopes)
    (counter : Option LoopVar) :
    (findingFaults (resolveLoopVar scopes around.inClass counter).2).Perm
      (brokenRules (LoopVar.sitesOption around counter)) := by
  cases counter with
  | none => exact .nil
  | some counter => exact counter.value.faults_perm (enclosed.counter counter.name.name)

/-- The faults at a return depend on the innermost routine. -/
theorem Enclosed.faults_returnFindings (enclosed : Enclosed around none scopes) (line : Nat)
    (value : Option Expr) :
    (findingFaults (returnFindings scopes around.place line value)).Perm
      (brokenRules ((Stmt.exit line value).sites around)) := by
  rw [returnFindings, findingFaults_append, Stmt.sites, brokenRules_cons]
  refine .append (.of_eq ?_) (Expr.faultsOption_perm enclosed value)
  cases known : around.isInitializer? with
  | none =>
      have outside : around.place.routine = .outside := by rw [Enclosures.place, known]
      simp [Site.fault?, Site.brokenRule?, known, outside, findingFaults, Finding.ofFault,
        Site.line]
  | some isInitializer =>
      have inside : around.place.routine = if isInitializer then .initializer else .routine := by
        rw [Enclosures.place, known]
        cases isInitializer <;> rfl
      cases isInitializer <;> cases value <;>
        simp [Site.fault?, Site.brokenRule?, known, inside, findingFaults, Finding.ofFault,
          Site.line]

namespace Stmt

mutual

theorem faults_perm : ∀ {around : Enclosures} {scopes : Scopes},
    Enclosed around none scopes → ∀ s : Stmt,
    (findingFaults (s.resolve around.place scopes).2).Perm (brokenRules (s.sites around))
  | _, _, enclosed, .expression value | _, _, enclosed, .print value => value.faults_perm enclosed
  | around, scopes, enclosed, .declare name initializer => by
      have value := Expr.faultsOption_perm (enclosed.declare name.name) initializer
      rw [resolve, sites, brokenRules_cons, findingFaults_append]
      refine .append (.of_eq (enclosed.faults_ofDeclaration name none)) ?_
      have inClass : (around.declare name.name).inClass = around.place.inClass :=
        congrArg Place.inClass (around.place_declare name.name)
      rw [inClass] at value
      exact value
  | _, _, enclosed, .block body => faultsAll_perm (enclosed.enter .block) body
  | around, scopes, enclosed, .function ⟨name, params, body⟩ => by
      have own := (enclosed.define name.name).enter (.routine false)
      have inner := faultsAll_perm (own.declareParams params) body
      have inClass : (around.declare name.name).inClass = around.place.inClass :=
        congrArg Place.inClass (around.place_declare name.name)
      rw [Enclosures.place_declareParams, Enclosures.place_routine, inClass] at inner
      rw [resolve, sites, List.cons_append, brokenRules_cons, brokenRules_append,
        ← List.append_assoc, findingFaults_append, findingFaults_append]
      refine .append (.of_eq ?_) inner
      rw [enclosed.faults_ofDeclaration name none, own.faults_resolveParams params]
  | around, scopes, enclosed, .branch condition thenBody none => by
      rw [resolve, sites, brokenRules_append, List.append_nil, findingFaults_append]
      exact (condition.faults_perm enclosed).append
        (faultsAll_perm (enclosed.enter .block) thenBody)
  | around, scopes, enclosed, .branch condition thenBody (some elseBody) => by
      rw [resolve, sites, brokenRules_append, brokenRules_append, findingFaults_append,
        findingFaults_append]
      exact ((condition.faults_perm enclosed).append
        (faultsAll_perm (enclosed.enter .block) thenBody)).append
        (faultsAll_perm (enclosed.enter .block) elseBody)
  | around, scopes, enclosed, .loop counter condition increment body => by
      have own := enclosed.openLoop counter
      have second := Expr.faultsOption_perm own condition
      have third := Expr.faultsOption_perm own increment
      have inner := faultsAll_perm (own.enter .block) body
      have inClass : (around.openLoop counter).inClass = around.place.inClass :=
        congrArg Place.inClass (around.place_openLoop counter)
      rw [Enclosures.place_block, Enclosures.place_openLoop] at inner
      rw [inClass] at second third
      simp only [resolve, sites, brokenRules_append, findingFaults_append, resolveLoopVar_fst]
      exact (((LoopVar.faultsOption_perm enclosed counter).append second).append third).append
        inner
  | _, _, enclosed, .exit line value => enclosed.faults_returnFindings line value
  | around, scopes, enclosed, .classDef name methods => by
      rw [resolve, sites, brokenRules_cons, findingFaults_append]
      exact .append (.of_eq (enclosed.faults_ofDeclaration name none))
        (faultsMethods_perm (enclosed.define name.name).enterClass rfl methods)

theorem faultsAll_perm : ∀ {around : Enclosures} {scopes : Scopes},
    Enclosed around none scopes → ∀ body : List Stmt,
    (findingFaults (resolveAll around.place scopes body)).Perm
      (brokenRules (sitesAll around body))
  | _, _, _, [] => .nil
  | around, scopes, enclosed, s :: rest => by
      have others := faultsAll_perm (enclosed.behind s) rest
      rw [Enclosures.place_behind, ← resolve_fst around.place] at others
      rw [resolveAll, sitesAll, brokenRules_append, findingFaults_append]
      exact (faults_perm enclosed s).append others

theorem faultsMethods_perm : ∀ {around : Enclosures} {scopes : Scopes},
    Enclosed around none scopes → around.inClass = true → ∀ methods : List Routine,
    (findingFaults (resolveMethods scopes methods)).Perm
      (brokenRules (sitesMethods around methods))
  | _, _, _, _, [] => .nil
  | around, scopes, enclosed, inClass, ⟨name, params, body⟩ :: rest => by
      have own := enclosed.enter (.routine (name.name = initializerName))
      have inner := faultsAll_perm (own.declareParams params) body
      rw [Enclosures.place_declareParams, Enclosures.place_routine, inClass] at inner
      simp only [decide_eq_true_eq] at inner
      simp only [resolveMethods, sitesMethods, brokenRules_append, findingFaults_append]
      refine (List.Perm.append (.of_eq ?_) inner).append (faultsMethods_perm enclosed inClass rest)
      exact own.faults_resolveParams params

end

end Stmt

end Faults

/-! ## Depths are those of sites -/

section Depths

variable {ledger : Ledger}

/-- The ledger says of every mention at sites how far its declaration is. -/
def Ledger.Locates (ledger : Ledger) (sites : List Site) : Prop :=
  ∀ site ∈ sites, ∀ m, site.mention? = some m →
    ledger.bindings[m.id]? = site.around.depth? m.name.name

namespace Ledger

theorem locates_append {first second : List Site} :
    ledger.Locates (first ++ second) ↔ ledger.Locates first ∧ ledger.Locates second :=
  List.forall_mem_append

theorem Locates.declaration {sites : List Site} (located : ledger.Locates sites) (name : Ident)
    (around : Enclosures) : ledger.Locates (⟨.declaration name, around, none⟩ :: sites) := by
  refine List.forall_mem_cons.mpr ⟨?_, located⟩
  rintro m ⟨⟩

theorem Locates.exit {sites : List Site} (located : ledger.Locates sites) (line : Nat)
    (givesValue : Bool) (around : Enclosures) :
    ledger.Locates (⟨.exit line givesValue, around, none⟩ :: sites) := by
  refine List.forall_mem_cons.mpr ⟨?_, located⟩
  rintro m ⟨⟩

theorem locates_paramSites (around : Enclosures) (params : List Ident) :
    ledger.Locates (paramSites around params) := by
  induction params generalizing around with
  | nil => exact fun _ absent => absurd absent List.not_mem_nil
  | cons name rest ih => exact (ih _).declaration name around

/-- The ledger says of mentions what scopes say. -/
def Reads (ledger : Ledger) (scopes : Scopes) (mentions : List Mention) : Prop :=
  ∀ m ∈ mentions, ledger.bindings[m.id]? = scopes.depth? m.name.name

theorem reads_append {scopes : Scopes} {first second : List Mention} :
    ledger.Reads scopes (first ++ second) ↔
      ledger.Reads scopes first ∧ ledger.Reads scopes second :=
  List.forall_mem_append

theorem reads_nil {scopes : Scopes} : ledger.Reads scopes [] :=
  fun _ absent => absurd absent List.not_mem_nil

theorem Binds.reads {scopes : Scopes} {id : Occurrence} {name : Ident}
    (binds : ledger.Binds scopes id name.name) (kind : MentionKind) :
    ledger.Reads scopes [⟨id, kind, name⟩] :=
  List.forall_mem_singleton.mpr binds.getElem?_eq

theorem Reads.locates {around : Enclosures} {initialized : Option String} {scopes : Scopes}
    {mentions : List Mention} (reads : ledger.Reads scopes mentions)
    (enclosed : Enclosed around initialized scopes) :
    ledger.Locates (mentionSites around initialized mentions) := by
  intro site present m standing
  obtain ⟨mention, mentioned, rfl⟩ := List.mem_map.mp present
  cases standing
  rw [reads m mentioned, enclosed.depth?_eq]

end Ledger

mutual

theorem Expr.Bound.reads : ∀ {e : Expr} {scopes : Scopes}, e.Bound ledger scopes →
    ledger.Reads scopes e.mentions
  | .literal _, _, _ => Ledger.reads_nil
  | .unary _ operand _, _, bound => Expr.Bound.reads (e := operand) bound
  | .binary _ _ _ _, _, bound | .logical _ _ _, _, bound =>
      Ledger.reads_append.mpr ⟨Expr.Bound.reads bound.1, Expr.Bound.reads bound.2⟩
  | .group inner, _, bound => Expr.Bound.reads (e := inner) bound
  | .var _ _, _, bound => bound.2.reads _
  | .assign _ _ _, _, bound => Ledger.reads_append.mpr ⟨Expr.Bound.reads bound.1, bound.2.reads _⟩
  | .call _ _ _, _, bound =>
      Ledger.reads_append.mpr ⟨Expr.Bound.reads bound.1, Expr.BoundAll.reads bound.2⟩
  | .get object _, _, bound => Expr.Bound.reads (e := object) bound
  | .set _ _ _, _, bound =>
      Ledger.reads_append.mpr ⟨Expr.Bound.reads bound.1, Expr.Bound.reads bound.2⟩
  | .selfRef _ _, _, bound => List.forall_mem_singleton.mpr (Ledger.Binds.getElem?_eq bound)

theorem Expr.BoundAll.reads : ∀ {arguments : List Expr} {scopes : Scopes},
    Expr.BoundAll ledger scopes arguments → ledger.Reads scopes (Expr.mentionsAll arguments)
  | [], _, _ => Ledger.reads_nil
  | _ :: _, _, bound =>
      Ledger.reads_append.mpr ⟨Expr.Bound.reads bound.1, Expr.BoundAll.reads bound.2⟩

end

theorem Expr.BoundOption.reads {value : Option Expr} {scopes : Scopes}
    (bound : Expr.BoundOption ledger scopes value) :
    ledger.Reads scopes (Expr.mentionsOption value) := by
  cases value with
  | none => exact Ledger.reads_nil
  | some e => exact Expr.Bound.reads bound

theorem LoopVar.BoundOption.locates {counter : Option LoopVar} {around : Enclosures}
    {scopes : Scopes} (bound : LoopVar.BoundOption ledger scopes counter)
    (enclosed : Enclosed around none scopes) :
    ledger.Locates (LoopVar.sitesOption around counter) := by
  cases counter with
  | none => exact fun _ absent => absurd absent List.not_mem_nil
  | some counter =>
      refine Ledger.Locates.declaration ?_ _ _
      exact (Expr.Bound.reads bound.2).locates (enclosed.counter counter.name.name)

namespace Stmt

mutual

theorem Bound.locates : ∀ {s : Stmt} {inRoutine : Bool} {around : Enclosures} {scopes : Scopes},
    s.Bound ledger inRoutine scopes → Enclosed around none scopes →
    ledger.Locates (s.sites around)
  | .expression _, _, _, _, bound, enclosed | .print _, _, _, _, bound, enclosed =>
      (Expr.Bound.reads bound).locates enclosed
  | .declare name _, _, _, _, bound, enclosed =>
      ((Expr.BoundOption.reads bound.2.2).locates (enclosed.declare name.name)).declaration _ _
  | .block _, _, _, _, bound, enclosed => BoundAll.locates bound (enclosed.enter .block)
  | .function ⟨name, params, body⟩, _, _, _, bound, enclosed => by
      have own := (enclosed.define name.name).enter (.routine false)
      have inner := BoundAll.locates bound.2.2 (own.declareParams params)
      exact Ledger.locates_append.mpr
        ⟨(Ledger.locates_paramSites _ params).declaration _ _, inner⟩
  | .branch _ _ none, _, _, _, bound, enclosed =>
      Ledger.locates_append.mpr ⟨(Expr.Bound.reads bound.1).locates enclosed,
        BoundAll.locates bound.2.1 (enclosed.enter .block)⟩
  | .branch _ _ (some _), _, _, _, bound, enclosed =>
      Ledger.locates_append.mpr ⟨Ledger.locates_append.mpr
        ⟨(Expr.Bound.reads bound.1).locates enclosed,
          BoundAll.locates bound.2.1 (enclosed.enter .block)⟩,
        BoundAll.locates bound.2.2 (enclosed.enter .block)⟩
  | .loop counter _ _ _, _, _, _, bound, enclosed => by
      obtain ⟨first, condition, increment, body⟩ := bound
      have own := enclosed.openLoop counter
      exact Ledger.locates_append.mpr ⟨Ledger.locates_append.mpr ⟨Ledger.locates_append.mpr
        ⟨LoopVar.BoundOption.locates first enclosed,
          (Expr.BoundOption.reads condition).locates own⟩,
        (Expr.BoundOption.reads increment).locates own⟩,
        BoundAll.locates body (own.enter .block)⟩
  | .exit _ _, _, _, _, bound, enclosed =>
      ((Expr.BoundOption.reads bound.2).locates enclosed).exit _ _ _
  | .classDef name _, _, _, _, bound, enclosed =>
      (BoundMethods.locates bound.2 (enclosed.define name.name).enterClass).declaration _ _

theorem BoundAll.locates : ∀ {body : List Stmt} {inRoutine : Bool} {around : Enclosures}
    {scopes : Scopes}, BoundAll ledger inRoutine scopes body → Enclosed around none scopes →
    ledger.Locates (sitesAll around body)
  | [], _, _, _, _, _ => fun _ absent => absurd absent List.not_mem_nil
  | s :: _, _, _, _, bound, enclosed =>
      Ledger.locates_append.mpr
        ⟨Bound.locates bound.1 enclosed, BoundAll.locates bound.2 (enclosed.behind s)⟩

theorem BoundMethods.locates : ∀ {methods : List Routine} {around : Enclosures} {scopes : Scopes},
    BoundMethods ledger scopes methods → Enclosed around none scopes →
    ledger.Locates (sitesMethods around methods)
  | [], _, _, _, _ => fun _ absent => absurd absent List.not_mem_nil
  | ⟨name, params, _⟩ :: _, _, _, bound, enclosed => by
      have own := enclosed.enter (.routine (name.name = initializerName))
      refine Ledger.locates_append.mpr ⟨Ledger.locates_append.mpr
        ⟨Ledger.locates_paramSites _ params, ?_⟩, BoundMethods.locates bound.2.2 enclosed⟩
      exact BoundAll.locates bound.2.1 (own.declareParams params)

end

end Stmt

end Depths

/-! ## Programs -/

section Programs

variable {program : List Stmt} {faults : List Diagnostic} {bindings : Bindings}

/-- The faults in a program are the rules that it breaks, one fault for each time. -/
theorem faults_perm_brokenRules (program : List Stmt) :
    (findingFaults (programFindings program)).Perm (brokenRules (programSites program)) :=
  Stmt.faultsAll_perm .nil program

theorem resolve_eq_error :
    resolve program = .error faults ↔
      faults ≠ [] ∧ findingFaults (programFindings program) = faults := by
  rw [resolve]
  cases found : findingFaults (programFindings program) with
  | nil =>
      simp only [reduceCtorEq, false_iff, not_and]
      intro nonempty empty
      exact nonempty empty.symm
  | cons fault rest =>
      simp only [Except.error.injEq]
      constructor
      · rintro rfl
        exact ⟨List.cons_ne_nil _ _, rfl⟩
      · exact And.right

theorem brokenRules_ne_nil {sites : List Site} :
    brokenRules sites ≠ [] ↔ ∃ site ∈ sites, site.brokenRule? ≠ none := by
  rw [Ne, brokenRules, List.filterMap_eq_nil_iff, not_forall]
  simp [Site.fault?]

theorem exists_resolve_eq_error :
    (∃ faults, resolve program = .error faults) ↔
      ∃ site ∈ programSites program, site.brokenRule? ≠ none := by
  have same := faults_perm_brokenRules program
  rw [← brokenRules_ne_nil]
  constructor
  · rintro ⟨faults, refused⟩ none
    obtain ⟨some, found⟩ := resolve_eq_error.mp refused
    rw [none, found] at same
    exact some same.eq_nil
  · intro broken
    refine ⟨_, resolve_eq_error.mpr ⟨?_, rfl⟩⟩
    intro none
    rw [none] at same
    exact broken same.nil_eq.symm

/-- The bindings of an accepted program are the depths of its sites. -/
theorem locates_of_resolve {next : Occurrence} (resolved : resolve program = .ok bindings)
    (nodup : (mentionIds (Stmt.mentionsAll program)).Nodup)
    (names : ∀ name ∈ Stmt.initializedAll program, name ≠ "self")
    (below : ∀ id ∈ mentionIds (Stmt.mentionsAll program), id < next) :
    Ledger.Locates ⟨bindings, next⟩ (programSites program) :=
  (boundAll_of_resolve resolved nodup names below fun _ _ => rfl).locates .nil

/--
Resolution decides the rules of scopes. It refuses a program that was read if and only if some site
in it breaks a rule, and it lists just one fault for every site that does. The bindings of a program
it does not refuse say of every mention in it how many scopes lie between the mention and the
innermost scope around it that has declared its name, and they say nothing of a name that no scope
has declared, nor of anything that is no mention in the program.
-/
theorem resolve_decides_rules {source : String} {first next : Occurrence}
    (read : parseSource source first = (.ok program, next)) :
    ((∃ faults, resolve program = .error faults) ↔
      ∃ site ∈ programSites program, site.brokenRule? ≠ none) ∧
    (∀ faults, resolve program = .error faults →
      faults.Perm (brokenRules (programSites program))) ∧
    (∀ bindings, resolve program = .ok bindings →
      (∀ site ∈ programSites program, ∀ m, site.mention? = some m →
        bindings[m.id]? = site.around.depth? m.name.name) ∧
      ∀ id ∉ mentionIds (Stmt.mentionsAll program), bindings[id]? = none) ∧
    (programSites program).filterMap Site.mention? = Stmt.mentionsAll program := by
  obtain ⟨_, numbered, names⟩ := numbered_of_parseSource read
  refine ⟨exists_resolve_eq_error, ?_, ?_, Stmt.filterMap_mention?_sitesAll [] program⟩
  · intro faults refused
    rw [← (resolve_eq_error.mp refused).2]
    exact faults_perm_brokenRules program
  · intro bindings resolved
    constructor
    · exact locates_of_resolve resolved numbered.nodup names fun id present =>
        (numbered.within id present).2
    · intro id absent
      rw [Option.eq_none_iff_forall_ne_some]
      intro d bound
      exact absent (mem_mentionIds_of_resolve resolved numbered.nodup bound)

/-- A function in an initializer gives a value, the initializer itself must not. -/
theorem resolve_decides_rules_of_nested :
    ∃ program next, parseSource
        "class A \x7b fn init(a, a) \x7b fn f() \x7b return a \x7d return f \x7d \x7d\nreturn self" 0 =
          (.ok program, next) ∧
      (∃ faults, resolve program = .error faults) ∧
      [⟨1, .scope (.declaredTwice "a")⟩, ⟨1, .scope .valueFromInitializer⟩,
        ⟨2, .scope .returnOutsideFunction⟩, ⟨2, .scope .selfOutsideClass⟩].Perm
        (brokenRules (programSites program)) := by
  have scanned : tokens
      "class A \x7b fn init(a, a) \x7b fn f() \x7b return a \x7d return f \x7d \x7d\nreturn self" = .ok
      [⟨.keyword .classWord, "class", 1⟩, ⟨.identifier, "A", 1⟩, ⟨.mark .leftBrace, "\x7b", 1⟩,
       ⟨.keyword .fnWord, "fn", 1⟩, ⟨.identifier, "init", 1⟩, ⟨.mark .leftParen, "(", 1⟩,
       ⟨.identifier, "a", 1⟩, ⟨.mark .comma, ",", 1⟩, ⟨.identifier, "a", 1⟩,
       ⟨.mark .rightParen, ")", 1⟩, ⟨.mark .leftBrace, "\x7b", 1⟩,
       ⟨.keyword .fnWord, "fn", 1⟩, ⟨.identifier, "f", 1⟩, ⟨.mark .leftParen, "(", 1⟩,
       ⟨.mark .rightParen, ")", 1⟩, ⟨.mark .leftBrace, "\x7b", 1⟩,
       ⟨.keyword .returnWord, "return", 1⟩, ⟨.identifier, "a", 1⟩, ⟨.mark .rightBrace, "\x7d", 1⟩,
       ⟨.keyword .returnWord, "return", 1⟩, ⟨.identifier, "f", 1⟩, ⟨.mark .rightBrace, "\x7d", 1⟩,
       ⟨.mark .rightBrace, "\x7d", 1⟩, ⟨.newline, "\n", 1⟩,
       ⟨.keyword .returnWord, "return", 2⟩, ⟨.keyword .selfWord, "self", 2⟩,
       ⟨.endOfInput, "", 2⟩] := by with_unfolding_all rfl
  have read : parseSource _ 0 = (.ok _, _) := parseSource_eq_ok.mpr ⟨_, scanned, rfl⟩
  exact ⟨_, _, read, ⟨_, rfl⟩, (resolve_decides_rules read).2.1 _ rfl⟩

end Programs

end Rill
