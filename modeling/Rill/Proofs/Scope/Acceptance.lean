import Rill.Proofs.Scope.Bound

/-!
# What resolution accepts is bound

If resolution finds no fault in a program whose mentions have numbers of their own, the program is
bound by the table of the depths that were found. The resolver takes `self` for a name like others;
it is right to do so only because no variable can be called that.
-/

namespace Rill

/-! ## Names with a first value -/

/-- The name of a loop variable that may be absent. -/
def LoopVar.initializedOption : Option LoopVar → List String
  | some counter => [counter.name.name]
  | none => []

namespace Stmt

mutual

/-- The names of variables and parameters, which get first values, in a statement at any depth. -/
def initialized : Stmt → List String
  | declare name _ => [name.name]
  | block body => initializedAll body
  | function ⟨_, params, body⟩ => params.map Ident.name ++ initializedAll body
  | branch _ thenBody none => initializedAll thenBody
  | branch _ thenBody (some elseBody) => initializedAll thenBody ++ initializedAll elseBody
  | loop counter _ _ body => LoopVar.initializedOption counter ++ initializedAll body
  | classDef _ methods => initializedMethods methods
  | expression _ | print _ | exit _ _ => []

/-- The names of variables and parameters in statements. -/
def initializedAll : List Stmt → List String
  | [] => []
  | s :: rest => s.initialized ++ initializedAll rest

/-- The names of variables and parameters in methods. -/
def initializedMethods : List Routine → List String
  | [] => []
  | ⟨_, params, body⟩ :: rest =>
    params.map Ident.name ++ initializedAll body ++ initializedMethods rest

end

end Stmt

/-! ## Records -/

/-- A ledger says of mentions what was found at them, and each of them has a number of its own. -/
structure Ledger.Records (ledger : Ledger) (found : List Finding) (ids : List Occurrence) :
    Prop where
  lt_limit : ∀ id ∈ ids, id < ledger.limit
  getElem?_eq_some_iff : ∀ id ∈ ids, ∀ d, ledger.bindings[id]? = some d ↔ .depth id d ∈ found
  nodup : ids.Nodup

namespace Ledger.Records

variable {ledger : Ledger} {found first second : List Finding}
  {ids firstIds secondIds : List Occurrence}

/-- Part of the findings, at part of the mentions. -/
theorem part (records : ledger.Records found ids) (sublist : firstIds.Sublist ids)
    (part : ∀ f ∈ first, f ∈ found)
    (elsewhere : ∀ id ∈ firstIds, ∀ d, .depth id d ∈ found → .depth id d ∈ first) :
    ledger.Records first firstIds where
  lt_limit id present := records.lt_limit id (sublist.subset present)
  getElem?_eq_some_iff id present d := by
    rw [records.getElem?_eq_some_iff id (sublist.subset present) d]
    exact ⟨elsewhere id present d, part _⟩
  nodup := records.nodup.sublist sublist

/-- The findings at different mentions are apart. -/
theorem not_mem (nodup : (firstIds ++ secondIds).Nodup)
    (counted : ∀ id, (findingIds second).count id ≤ secondIds.count id) {id : Occurrence} {d : Nat}
    (present : id ∈ firstIds) : .depth id d ∉ second := by
  intro other
  have positive : 0 < (findingIds second).count id :=
    List.count_pos_iff.mpr (mem_findingIds_of_mem other)
  have inSecond : id ∈ secondIds := List.count_pos_iff.mp (Nat.lt_of_lt_of_le positive (counted id))
  exact (List.nodup_append.mp nodup).2.2 id present id inSecond rfl

theorem left (records : ledger.Records (first ++ second) (firstIds ++ secondIds))
    (counted : ∀ id, (findingIds second).count id ≤ secondIds.count id) :
    ledger.Records first firstIds := by
  refine records.part (List.sublist_append_left _ _) (fun f => List.mem_append_left second) ?_
  intro id present d found
  rcases List.mem_append.mp found with here | there
  · exact here
  · exact absurd there (not_mem records.nodup counted present)

theorem right (records : ledger.Records (first ++ second) (firstIds ++ secondIds))
    (counted : ∀ id, (findingIds first).count id ≤ firstIds.count id) :
    ledger.Records second secondIds := by
  refine records.part (List.sublist_append_right _ _) (fun f => List.mem_append_right first) ?_
  intro id present d found
  rcases List.mem_append.mp found with there | here
  · have nodup := (List.perm_append_comm).nodup records.nodup
    exact absurd there (not_mem nodup counted present)
  · exact here

/-- The order of the findings does not matter. -/
theorem swap (records : ledger.Records (first ++ second) ids) :
    ledger.Records (second ++ first) ids where
  lt_limit := records.lt_limit
  getElem?_eq_some_iff id present d := by
    rw [records.getElem?_eq_some_iff id present d, List.mem_append, List.mem_append, or_comm]
  nodup := records.nodup

/-- Faults say nothing about mentions. -/
theorem behind_faults (records : ledger.Records (first ++ second) ids)
    (faults : findingIds first = []) : ledger.Records second ids := by
  have whole : ledger.Records (first ++ second) ([] ++ ids) := records
  refine whole.right ?_
  intro id
  exact Nat.le_of_eq (congrArg (List.count id) faults)

theorem binds {scopes : Scopes} {id : Occurrence} {name : String}
    (records : ledger.Records (Finding.ofMention scopes id name) [id]) :
    ledger.Binds scopes id name where
  lt_limit := records.lt_limit id (List.mem_singleton_self id)
  getElem?_eq := by
    have said := records.getElem?_eq_some_iff id (List.mem_singleton_self id)
    unfold Finding.ofMention at said
    cases depth : scopes.depth? name with
    | some d =>
        rw [said d]
        simp [depth]
    | none =>
        rw [Option.eq_none_iff_forall_ne_some]
        intro d
        rw [Ne, said d]
        simp [depth]

end Ledger.Records

/-! ## Expressions -/

/-- Faultless findings are made of faultless findings. -/
theorem findingFaults_append_eq_nil {first second : List Finding} :
    findingFaults (first ++ second) = [] ↔
      findingFaults first = [] ∧ findingFaults second = [] := by
  rw [findingFaults_append, List.append_eq_nil_iff]

variable {ledger : Ledger}

mutual

theorem Expr.bound_of_records {scopes : Scopes} {inClass : Bool} : ∀ {e : Expr},
    findingFaults (e.findings scopes inClass) = [] →
    ledger.Records (e.findings scopes inClass) (mentionIds e.mentions) → e.Bound ledger scopes
  | .literal _, _, _ => trivial
  | .unary _ operand _, faultless, records =>
      Expr.bound_of_records (e := operand) faultless records
  | .binary left _ right _, faultless, records | .logical left _ right, faultless, records => by
      simp only [Expr.findings, Expr.mentions, mentionIds_append] at faultless records
      obtain ⟨noneLeft, noneRight⟩ := findingFaults_append_eq_nil.mp faultless
      constructor
      · exact Expr.bound_of_records noneLeft
          (records.left fun id => right.count_findingIds_le id scopes inClass)
      · exact Expr.bound_of_records noneRight
          (records.right fun id => left.count_findingIds_le id scopes inClass)
  | .group inner, faultless, records => Expr.bound_of_records (e := inner) faultless records
  | .var id name, faultless, records => by
      simp only [Expr.findings, Expr.mentions] at faultless records
      have defined : scopes.isUndefinedHere name.name = false := by
        cases undefined : scopes.isUndefinedHere name.name with
        | false => rfl
        | true =>
            rw [undefined] at faultless
            cases faultless
      rw [defined] at records
      exact ⟨defined, records.binds⟩
  | .assign id name value, faultless, records => by
      simp only [Expr.findings, Expr.mentions, mentionIds_append] at faultless records
      obtain ⟨noneValue, _⟩ := findingFaults_append_eq_nil.mp faultless
      constructor
      · exact Expr.bound_of_records noneValue
          (records.left fun other => count_ofMention_le scopes id other name.name)
      · have last := records.right fun other => value.count_findingIds_le other scopes inClass
        exact last.binds
  | .call callee arguments _, faultless, records => by
      simp only [Expr.findings, Expr.mentions, mentionIds_append] at faultless records
      obtain ⟨noneCallee, noneArguments⟩ := findingFaults_append_eq_nil.mp faultless
      constructor
      · exact Expr.bound_of_records noneCallee
          (records.left fun id => Expr.count_findingIdsAll_le id scopes inClass arguments)
      · exact Expr.boundAll_of_records noneArguments
          (records.right fun id => callee.count_findingIds_le id scopes inClass)
  | .get object _, faultless, records => Expr.bound_of_records (e := object) faultless records
  | .set object _ value, faultless, records => by
      simp only [Expr.findings, Expr.mentions, mentionIds_append] at faultless records
      obtain ⟨noneValue, noneObject⟩ := findingFaults_append_eq_nil.mp faultless
      -- The findings stand in the other order than the mentions.
      have swapped := records.swap
      constructor
      · exact Expr.bound_of_records noneObject
          (swapped.left fun id => value.count_findingIds_le id scopes inClass)
      · exact Expr.bound_of_records noneValue
          (swapped.right fun id => object.count_findingIds_le id scopes inClass)
  | .selfRef id line, faultless, records => by
      cases inClass with
      | true => exact Ledger.Records.binds records
      | false => cases faultless

theorem Expr.boundAll_of_records {scopes : Scopes} {inClass : Bool} : ∀ {arguments : List Expr},
    findingFaults (Expr.findingsAll scopes inClass arguments) = [] →
    ledger.Records (Expr.findingsAll scopes inClass arguments)
      (mentionIds (Expr.mentionsAll arguments)) →
    Expr.BoundAll ledger scopes arguments
  | [], _, _ => trivial
  | e :: rest, faultless, records => by
      simp only [Expr.findingsAll, Expr.mentionsAll, mentionIds_append] at faultless records
      obtain ⟨noneFirst, noneRest⟩ := findingFaults_append_eq_nil.mp faultless
      constructor
      · exact Expr.bound_of_records noneFirst
          (records.left fun id => Expr.count_findingIdsAll_le id scopes inClass rest)
      · exact Expr.boundAll_of_records noneRest
          (records.right fun id => e.count_findingIds_le id scopes inClass)

end

theorem Expr.boundOption_of_records {scopes : Scopes} {inClass : Bool} {value : Option Expr}
    (faultless : findingFaults (Expr.findingsOption scopes inClass value) = [])
    (records : ledger.Records (Expr.findingsOption scopes inClass value)
      (mentionIds (Expr.mentionsOption value))) : Expr.BoundOption ledger scopes value := by
  cases value with
  | none => trivial
  | some e => exact Expr.bound_of_records faultless records

/-! ## Statements -/

theorem declaresHere_of_ofDeclaration {scopes : Scopes} {name : Ident}
    (faultless : findingFaults (Finding.ofDeclaration scopes name) = []) :
    scopes.declaresHere name.name = false := by
  cases declared : scopes.declaresHere name.name with
  | false => rfl
  | true =>
      rw [Finding.ofDeclaration, declared] at faultless
      cases faultless

theorem paramsDistinct_of_resolveParams {scopes : Scopes} {params : List Ident}
    (faultless : findingFaults (resolveParams scopes params).2 = []) :
    ParamsDistinct scopes params := by
  induction params generalizing scopes with
  | nil => trivial
  | cons name rest ih =>
      simp only [resolveParams] at faultless
      obtain ⟨first, others⟩ := findingFaults_append_eq_nil.mp faultless
      exact ⟨declaresHere_of_ofDeclaration first, ih others⟩

theorem resolveLoopVar_fst {scopes : Scopes} {inClass : Bool} {counter : Option LoopVar} :
    (resolveLoopVar scopes inClass counter).1 = counterScopes scopes counter := by
  cases counter <;> rfl

/-- The scopes behind a statement do not depend on what is around it besides scopes. -/
theorem Stmt.resolve_fst (place : Place) (scopes : Scopes) (s : Stmt) :
    (s.resolve place scopes).1 = s.behind scopes := by
  cases s with
  | function r => rfl
  | branch condition thenBody elseBody => cases elseBody <;> rfl
  | _ => rfl

theorem LoopVar.boundOption_of_records {scopes : Scopes} {inClass : Bool}
    {counter : Option LoopVar}
    (faultless : findingFaults (resolveLoopVar scopes inClass counter).2 = [])
    (records : ledger.Records (resolveLoopVar scopes inClass counter).2
      (mentionIds (LoopVar.mentionsOption counter)))
    (names : ∀ name ∈ LoopVar.initializedOption counter, name ≠ "self") :
    LoopVar.BoundOption ledger scopes counter := by
  cases counter with
  | none => trivial
  | some counter =>
      exact ⟨names _ (List.mem_singleton_self _), Expr.bound_of_records faultless records⟩

/-- Counts of findings and of mentions add up. -/
theorem count_append_le {found more : List Finding} {ids others : List Occurrence}
    (first : ∀ id, (findingIds found).count id ≤ ids.count id)
    (second : ∀ id, (findingIds more).count id ≤ others.count id) :
    ∀ id, (findingIds (found ++ more)).count id ≤ (ids ++ others).count id := by
  intro id
  have left := first id
  have right := second id
  rw [findingIds_append, List.count_append, List.count_append]
  omega

/-- Whether a place is in a routine. -/
def Place.inRoutine (place : Place) : Bool := decide (place.routine ≠ .outside)

mutual

theorem Stmt.bound_of_records : ∀ {place : Place} {scopes : Scopes} {s : Stmt},
    findingFaults (s.resolve place scopes).2 = [] →
    ledger.Records (s.resolve place scopes).2 (mentionIds s.mentions) →
    (∀ name ∈ s.initialized, name ≠ "self") → s.Bound ledger place.inRoutine scopes
  | _, _, .expression _, faultless, records, _ | _, _, .print _, faultless, records, _ =>
      Expr.bound_of_records faultless records
  | _, _, .declare name _, faultless, records, names => by
      simp only [Stmt.resolve, Stmt.mentions] at faultless records
      obtain ⟨once, none⟩ := findingFaults_append_eq_nil.mp faultless
      refine ⟨declaresHere_of_ofDeclaration once, names _ (List.mem_singleton_self _), ?_⟩
      exact Expr.boundOption_of_records none
        (records.behind_faults (findingIds_ofDeclaration _ name))
  | _, _, .block _, faultless, records, names => Stmt.boundAll_of_records faultless records names
  | place, scopes, .function ⟨name, params, body⟩, faultless, records, names => by
      simp only [Stmt.resolve, Stmt.mentions] at faultless records
      obtain ⟨noneHead, noneBody⟩ := findingFaults_append_eq_nil.mp faultless
      obtain ⟨once, distinct⟩ := findingFaults_append_eq_nil.mp noneHead
      refine ⟨declaresHere_of_ofDeclaration once, paramsDistinct_of_resolveParams distinct, ?_⟩
      have inner :
          Stmt.BoundAll ledger (Place.inRoutine { place with routine := .routine }) _ body :=
        Stmt.boundAll_of_records noneBody (records.behind_faults (by simp))
          fun other present => names other (List.mem_append_right _ present)
      exact inner
  | place, scopes, .branch condition thenBody none, faultless, records, names => by
      simp only [Stmt.resolve, Stmt.mentions, List.append_nil, mentionIds_append]
        at faultless records
      obtain ⟨noneCondition, noneThen⟩ := findingFaults_append_eq_nil.mp faultless
      refine ⟨?_, ?_, trivial⟩
      · exact Expr.bound_of_records noneCondition
          (records.left fun id => Stmt.count_findingIdsAll_le id place _ thenBody)
      · exact Stmt.boundAll_of_records noneThen
          (records.right fun id => condition.count_findingIds_le id scopes place.inClass) names
  | place, scopes, .branch condition thenBody (some elseBody), faultless, records, names => by
      simp only [Stmt.resolve, Stmt.mentions, mentionIds_append] at faultless records
      obtain ⟨noneHead, noneElse⟩ := findingFaults_append_eq_nil.mp faultless
      obtain ⟨noneCondition, noneThen⟩ := findingFaults_append_eq_nil.mp noneHead
      have countedCondition id := condition.count_findingIds_le id scopes place.inClass
      have countedThen id := Stmt.count_findingIdsAll_le id place ([] :: scopes) thenBody
      have head := records.left fun id => Stmt.count_findingIdsAll_le id place _ elseBody
      refine ⟨?_, ?_, ?_⟩
      · exact Expr.bound_of_records noneCondition (head.left countedThen)
      · refine Stmt.boundAll_of_records noneThen (head.right countedCondition) ?_
        intro name present
        exact names name (List.mem_append_left _ present)
      · refine Stmt.boundAll_of_records noneElse ?_ ?_
        · exact records.right (count_append_le countedCondition countedThen)
        · intro name present
          exact names name (List.mem_append_right _ present)
  | place, scopes, .loop counter condition increment body, faultless, records, names => by
      simp only [Stmt.resolve, Stmt.mentions, mentionIds_append, resolveLoopVar_fst]
        at faultless records
      obtain ⟨noneHead, noneBody⟩ := findingFaults_append_eq_nil.mp faultless
      obtain ⟨noneStart, noneIncrement⟩ := findingFaults_append_eq_nil.mp noneHead
      obtain ⟨noneCounter, noneCondition⟩ := findingFaults_append_eq_nil.mp noneStart
      have countedCounter id := count_resolveLoopVar_le id scopes place.inClass counter
      have countedCondition id := Expr.count_findingIdsOption_le id (counterScopes scopes counter)
        place.inClass condition
      have countedIncrement id := Expr.count_findingIdsOption_le id (counterScopes scopes counter)
        place.inClass increment
      have countedStart := count_append_le countedCounter countedCondition
      have head := records.left fun id => Stmt.count_findingIdsAll_le id place _ body
      have start := head.left countedIncrement
      refine ⟨?_, ?_, ?_, ?_⟩
      · refine LoopVar.boundOption_of_records noneCounter (start.left countedCondition) ?_
        intro name present
        exact names name (List.mem_append_left _ present)
      · exact Expr.boundOption_of_records noneCondition (start.right countedCounter)
      · exact Expr.boundOption_of_records noneIncrement (head.right countedStart)
      · refine Stmt.boundAll_of_records noneBody ?_ ?_
        · exact records.right (count_append_le countedStart countedIncrement)
        · intro name present
          exact names name (List.mem_append_right _ present)
  | place, scopes, .exit line value, faultless, records, _ => by
      simp only [Stmt.resolve, returnFindings] at faultless records
      obtain ⟨noneHead, noneValue⟩ := findingFaults_append_eq_nil.mp faultless
      obtain ⟨inside, _⟩ := findingFaults_append_eq_nil.mp noneHead
      refine ⟨?_, Expr.boundOption_of_records noneValue (records.behind_faults (by simp))⟩
      rw [Place.inRoutine, decide_eq_true_iff]
      intro outside
      rw [if_pos outside] at inside
      cases inside
  | place, scopes, .classDef name methods, faultless, records, names => by
      simp only [Stmt.resolve, Stmt.mentions] at faultless records
      obtain ⟨once, none⟩ := findingFaults_append_eq_nil.mp faultless
      refine ⟨declaresHere_of_ofDeclaration once, ?_⟩
      exact Stmt.boundMethods_of_records none
        (records.behind_faults (findingIds_ofDeclaration _ name)) names

theorem Stmt.boundAll_of_records : ∀ {place : Place} {scopes : Scopes} {body : List Stmt},
    findingFaults (Stmt.resolveAll place scopes body) = [] →
    ledger.Records (Stmt.resolveAll place scopes body) (mentionIds (Stmt.mentionsAll body)) →
    (∀ name ∈ Stmt.initializedAll body, name ≠ "self") →
    Stmt.BoundAll ledger place.inRoutine scopes body
  | _, _, [], _, _, _ => trivial
  | place, scopes, s :: rest, faultless, records, names => by
      simp only [Stmt.resolveAll, Stmt.mentionsAll, mentionIds_append] at faultless records
      obtain ⟨noneFirst, noneRest⟩ := findingFaults_append_eq_nil.mp faultless
      constructor
      · refine Stmt.bound_of_records noneFirst ?_ ?_
        · exact records.left fun id => Stmt.count_findingIdsAll_le id place _ rest
        · intro name present
          exact names name (List.mem_append_left _ present)
      · rw [← Stmt.resolve_fst place scopes s]
        refine Stmt.boundAll_of_records noneRest ?_ ?_
        · exact records.right fun id => Stmt.count_findingIds_le id place scopes s
        · intro name present
          exact names name (List.mem_append_right _ present)

theorem Stmt.boundMethods_of_records : ∀ {scopes : Scopes} {methods : List Routine},
    findingFaults (Stmt.resolveMethods scopes methods) = [] →
    ledger.Records (Stmt.resolveMethods scopes methods)
      (mentionIds (Stmt.mentionsMethods methods)) →
    (∀ name ∈ Stmt.initializedMethods methods, name ≠ "self") →
    Stmt.BoundMethods ledger scopes methods
  | _, [], _, _, _ => trivial
  | scopes, ⟨name, params, body⟩ :: rest, faultless, records, names => by
      simp only [Stmt.resolveMethods, Stmt.mentionsMethods, mentionIds_append] at faultless records
      obtain ⟨noneFirst, noneRest⟩ := findingFaults_append_eq_nil.mp faultless
      obtain ⟨distinct, noneBody⟩ := findingFaults_append_eq_nil.mp noneFirst
      have head := records.left fun id => Stmt.count_findingIdsMethods_le id scopes rest
      refine ⟨paramsDistinct_of_resolveParams distinct, ?_, ?_⟩
      · have inner := Stmt.boundAll_of_records noneBody (head.behind_faults (by simp)) ?_
        · have inside : Place.inRoutine
              ⟨if name.name = initializerName then .initializer else .routine, true⟩ = true := by
            unfold Place.inRoutine
            split <;> rfl
          rw [inside] at inner
          exact inner
        · intro other present
          exact names other (List.mem_append_left _ (List.mem_append_right _ present))
      · refine Stmt.boundMethods_of_records noneRest (records.right ?_) ?_
        · intro id
          rw [findingIds_append, findingIds_resolveParams, List.nil_append]
          exact Stmt.count_findingIdsAll_le id _ _ body
        · intro other present
          exact names other (List.mem_append_right _ present)

end

/-! ## Programs -/

section Programs

variable {program : List Stmt} {bindings : Bindings}

/-- A program is accepted if and only if it is faultless, with the depths found in it. -/
theorem resolve_eq_ok :
    resolve program = .ok bindings ↔ findingFaults (programFindings program) = [] ∧
      bindings = (∅ : Bindings).insertMany (findingDepths (programFindings program)) := by
  rw [resolve]
  cases findingFaults (programFindings program) with
  | nil =>
      rw [Except.ok.injEq, eq_comm]
      simp
  | cons fault rest => simp

theorem nodup_findingIds (nodup : (mentionIds (Stmt.mentionsAll program)).Nodup) :
    (findingIds (programFindings program)).Nodup := by
  rw [List.nodup_iff_count] at nodup ⊢
  intro id
  exact Nat.le_trans (Stmt.count_findingIdsAll_le id _ _ program) (nodup id)

/-- The bindings of an accepted program are the depths found in it. -/
theorem getElem?_resolve (resolved : resolve program = .ok bindings)
    (nodup : (mentionIds (Stmt.mentionsAll program)).Nodup) (id : Occurrence) (d : Nat) :
    bindings[id]? = some d ↔ .depth id d ∈ programFindings program := by
  obtain ⟨_, rfl⟩ := resolve_eq_ok.mp resolved
  have distinct : (findingDepths (programFindings program)).Pairwise
      fun a b => ¬ compare a.1 b.1 = .eq := by
    refine (List.pairwise_map.mp (nodup_findingIds nodup)).imp ?_
    intro a b different same
    exact different (Nat.compare_eq_eq.mp same)
  have found {d : Nat} (present : .depth id d ∈ programFindings program) :
      ((∅ : Bindings).insertMany (findingDepths (programFindings program)))[id]? = some d :=
    Std.TreeMap.getElem?_insertMany_list_of_mem (Nat.compare_eq_eq.mpr rfl) distinct
      (mem_findingDepths.mpr present)
  constructor
  · intro said
    by_cases known : id ∈ findingIds (programFindings program)
    · obtain ⟨⟨id, d'⟩, present, rfl⟩ := List.mem_map.mp known
      have present := mem_findingDepths.mp present
      rw [found present] at said
      cases said
      exact present
    · have absent :
          ((findingDepths (programFindings program)).map Prod.fst).contains id = false := by
        rw [← Bool.not_eq_true, List.contains_iff_mem]
        exact known
      rw [Std.TreeMap.getElem?_insertMany_list_of_contains_eq_false absent,
        Std.TreeMap.getElem?_emptyc] at said
      cases said
  · exact found

/-- Only mentions of an accepted program have bindings. -/
theorem mem_mentionIds_of_resolve (resolved : resolve program = .ok bindings)
    (nodup : (mentionIds (Stmt.mentionsAll program)).Nodup) {id : Occurrence} {d : Nat}
    (bound : bindings[id]? = some d) : id ∈ mentionIds (Stmt.mentionsAll program) := by
  have present := mem_findingIds_of_mem ((getElem?_resolve resolved nodup id d).mp bound)
  have counted := Stmt.count_findingIdsAll_le id ⟨.outside, false⟩ [] program
  have positive := Nat.lt_of_lt_of_le (List.count_pos_iff.mpr present) counted
  exact List.count_pos_iff.mp positive

/-- An accepted program is bound by every ledger that agrees with its bindings. -/
theorem boundAll_of_resolve (resolved : resolve program = .ok bindings)
    (nodup : (mentionIds (Stmt.mentionsAll program)).Nodup)
    (names : ∀ name ∈ Stmt.initializedAll program, name ≠ "self")
    (below : ∀ id ∈ mentionIds (Stmt.mentionsAll program), id < ledger.limit)
    (agrees : ∀ id ∈ mentionIds (Stmt.mentionsAll program),
      ledger.bindings[id]? = bindings[id]?) :
    Stmt.BoundAll ledger false [] program := by
  have records : ledger.Records (programFindings program)
      (mentionIds (Stmt.mentionsAll program)) :=
    { lt_limit := below
      getElem?_eq_some_iff := by
        intro id present d
        rw [agrees id present]
        exact getElem?_resolve resolved nodup id d
      nodup := nodup }
  exact Stmt.boundAll_of_records (resolve_eq_ok.mp resolved).1 records names

end Programs

end Rill
