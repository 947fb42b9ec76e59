import Rill.Scope.Resolution
import Rill.Syntax.Mentions

/-!
# Findings and mentions

Resolution finds at most one depth for each mention. If the mentions of a program have numbers of
their own, the table of its depths therefore says about each mention what was found there.
-/

namespace Rill

/-! ## Faults and depths -/

@[simp] theorem findingFaults_append (first second : List Finding) :
    findingFaults (first ++ second) = findingFaults first ++ findingFaults second :=
  List.filterMap_append

/-- The numbers of the mentions that a depth was found for. -/
def findingIds (found : List Finding) : List Occurrence := (findingDepths found).map Prod.fst

@[simp] theorem findingIds_append (first second : List Finding) :
    findingIds (first ++ second) = findingIds first ++ findingIds second := by
  rw [findingIds, findingDepths, List.filterMap_append, List.map_append]
  rfl

@[simp] theorem findingIds_nil : findingIds [] = [] := rfl

theorem mem_findingDepths {found : List Finding} {id : Occurrence} {d : Nat} :
    (id, d) ∈ findingDepths found ↔ Finding.depth id d ∈ found := by
  rw [findingDepths, List.mem_filterMap]
  constructor
  · rintro ⟨finding, present, same⟩
    cases finding with
    | fault => cases same
    | depth =>
        cases same
        exact present
  · intro present
    exact ⟨.depth id d, present, rfl⟩

theorem mem_findingIds_of_mem {found : List Finding} {id : Occurrence} {d : Nat}
    (present : Finding.depth id d ∈ found) : id ∈ findingIds found :=
  List.mem_map.mpr ⟨(id, d), mem_findingDepths.mpr present, rfl⟩

@[simp] theorem findingIds_ofDeclaration (scopes : Scopes) (name : Ident) :
    findingIds (Finding.ofDeclaration scopes name) = [] := by
  unfold Finding.ofDeclaration
  split <;> rfl

@[simp] theorem findingIds_ofFault (line : Nat) (rule : ScopeFault) :
    findingIds [Finding.ofFault line rule] = [] := rfl

theorem count_ofMention_le (scopes : Scopes) (id other : Occurrence) (name : String) :
    (findingIds (Finding.ofMention scopes id name)).count other ≤ [id].count other := by
  unfold Finding.ofMention
  split
  · exact Nat.le_refl _
  · exact Nat.zero_le _

@[simp] theorem findingIds_ite {p : Prop} [Decidable p] (found : List Finding) :
    findingIds (if p then found else []) = if p then findingIds found else [] := by
  split <;> rfl

/-! ## One depth at most for each mention -/

variable (id : Occurrence)

mutual

theorem Expr.count_findingIds_le (scopes : Scopes) (inClass : Bool) : ∀ e : Expr,
    (findingIds (e.findings scopes inClass)).count id ≤ (mentionIds e.mentions).count id
  | .literal _ => Nat.le_refl _
  | .unary _ operand _ => operand.count_findingIds_le scopes inClass
  | .binary left _ right _ | .logical left _ right => by
      have first := left.count_findingIds_le scopes inClass
      have second := right.count_findingIds_le scopes inClass
      simp only [Expr.findings, Expr.mentions, findingIds_append, mentionIds_append,
        List.count_append]
      omega
  | .group inner => inner.count_findingIds_le scopes inClass
  | .var other name => by
      have mention := count_ofMention_le scopes other id name.name
      simpa [Expr.findings, Expr.mentions] using mention
  | .assign other name value => by
      have first := value.count_findingIds_le scopes inClass
      have mention := count_ofMention_le scopes other id name.name
      simp only [Expr.findings, Expr.mentions, findingIds_append, mentionIds_append,
        List.count_append, mentionIds_cons, mentionIds_nil]
      omega
  | .call callee arguments _ => by
      have first := callee.count_findingIds_le scopes inClass
      have second := Expr.count_findingIdsAll_le scopes inClass arguments
      simp only [Expr.findings, Expr.mentions, findingIds_append, mentionIds_append,
        List.count_append]
      omega
  | .get object _ => object.count_findingIds_le scopes inClass
  | .set object _ value => by
      have first := object.count_findingIds_le scopes inClass
      have second := value.count_findingIds_le scopes inClass
      simp only [Expr.findings, Expr.mentions, findingIds_append, mentionIds_append,
        List.count_append]
      omega
  | .selfRef other line => by
      have mention := count_ofMention_le scopes other id "self"
      cases inClass with
      | true => exact mention
      | false => exact Nat.zero_le _

theorem Expr.count_findingIdsAll_le (scopes : Scopes) (inClass : Bool) : ∀ arguments : List Expr,
    (findingIds (Expr.findingsAll scopes inClass arguments)).count id ≤
      (mentionIds (Expr.mentionsAll arguments)).count id
  | [] => Nat.le_refl _
  | e :: rest => by
      have first := e.count_findingIds_le scopes inClass
      have others := Expr.count_findingIdsAll_le scopes inClass rest
      simp only [Expr.findingsAll, Expr.mentionsAll, findingIds_append, mentionIds_append,
        List.count_append]
      omega

end

theorem Expr.count_findingIdsOption_le (scopes : Scopes) (inClass : Bool) (value : Option Expr) :
    (findingIds (Expr.findingsOption scopes inClass value)).count id ≤
      (mentionIds (Expr.mentionsOption value)).count id := by
  cases value with
  | none => exact Nat.le_refl _
  | some e => exact e.count_findingIds_le id scopes inClass

@[simp] theorem findingIds_resolveParams (scopes : Scopes) (params : List Ident) :
    findingIds (resolveParams scopes params).2 = [] := by
  induction params generalizing scopes with
  | nil => rfl
  | cons name rest ih => simp [resolveParams, ih]

theorem count_resolveLoopVar_le (scopes : Scopes) (inClass : Bool) (counter : Option LoopVar) :
    (findingIds (resolveLoopVar scopes inClass counter).2).count id ≤
      (mentionIds (LoopVar.mentionsOption counter)).count id := by
  cases counter with
  | none => exact Nat.le_refl _
  | some counter => exact counter.value.count_findingIds_le id _ inClass

theorem count_returnFindings_le (scopes : Scopes) (place : Place) (line : Nat)
    (value : Option Expr) :
    (findingIds (returnFindings scopes place line value)).count id ≤
      (mentionIds (Expr.mentionsOption value)).count id := by
  have found := Expr.count_findingIdsOption_le id scopes place.inClass value
  simpa [returnFindings] using found

mutual

theorem Stmt.count_findingIds_le : ∀ (place : Place) (scopes : Scopes) (s : Stmt),
    (findingIds (s.resolve place scopes).2).count id ≤ (mentionIds s.mentions).count id
  | place, scopes, .expression value | place, scopes, .print value =>
      value.count_findingIds_le id scopes place.inClass
  | place, scopes, .declare name initializer => by
      have found := Expr.count_findingIdsOption_le id (scopes.mark name.name .declared)
        place.inClass initializer
      simpa [Stmt.resolve, Stmt.mentions] using found
  | place, scopes, .block body => Stmt.count_findingIdsAll_le place ([] :: scopes) body
  | place, scopes, .function ⟨name, params, body⟩ => by
      have found := Stmt.count_findingIdsAll_le { place with routine := .routine }
        (resolveParams ([] :: scopes.mark name.name .defined) params).1 body
      simpa [Stmt.resolve, Stmt.mentions] using found
  | place, scopes, .branch condition thenBody none => by
      have first := condition.count_findingIds_le id scopes place.inClass
      have second := Stmt.count_findingIdsAll_le place ([] :: scopes) thenBody
      simp only [Stmt.resolve, Stmt.mentions, findingIds_append, mentionIds_append,
        List.count_append, List.append_nil]
      omega
  | place, scopes, .branch condition thenBody (some elseBody) => by
      have first := condition.count_findingIds_le id scopes place.inClass
      have second := Stmt.count_findingIdsAll_le place ([] :: scopes) thenBody
      have third := Stmt.count_findingIdsAll_le place ([] :: scopes) elseBody
      simp only [Stmt.resolve, Stmt.mentions, findingIds_append, mentionIds_append,
        List.count_append]
      omega
  | place, scopes, .loop counter condition increment body => by
      have first := count_resolveLoopVar_le id scopes place.inClass counter
      have second := Expr.count_findingIdsOption_le id
        (resolveLoopVar scopes place.inClass counter).1 place.inClass condition
      have third := Expr.count_findingIdsOption_le id
        (resolveLoopVar scopes place.inClass counter).1 place.inClass increment
      have fourth := Stmt.count_findingIdsAll_le place
        ([] :: (resolveLoopVar scopes place.inClass counter).1) body
      simp only [Stmt.resolve, Stmt.mentions, findingIds_append, mentionIds_append,
        List.count_append]
      omega
  | place, scopes, .exit line value => count_returnFindings_le id scopes place line value
  | place, scopes, .classDef name methods => by
      have found := Stmt.count_findingIdsMethods_le
        ([("self", .defined)] :: scopes.mark name.name .defined) methods
      simpa [Stmt.resolve, Stmt.mentions] using found

theorem Stmt.count_findingIdsAll_le : ∀ (place : Place) (scopes : Scopes) (body : List Stmt),
    (findingIds (Stmt.resolveAll place scopes body)).count id ≤
      (mentionIds (Stmt.mentionsAll body)).count id
  | _, _, [] => Nat.le_refl _
  | place, scopes, s :: rest => by
      have first := Stmt.count_findingIds_le place scopes s
      have others := Stmt.count_findingIdsAll_le place (s.resolve place scopes).1 rest
      simp only [Stmt.resolveAll, Stmt.mentionsAll, findingIds_append, mentionIds_append,
        List.count_append]
      omega

theorem Stmt.count_findingIdsMethods_le : ∀ (scopes : Scopes) (methods : List Routine),
    (findingIds (Stmt.resolveMethods scopes methods)).count id ≤
      (mentionIds (Stmt.mentionsMethods methods)).count id
  | _, [] => Nat.le_refl _
  | scopes, ⟨name, params, body⟩ :: rest => by
      have first := Stmt.count_findingIdsAll_le
        ⟨if name.name = initializerName then .initializer else .routine, true⟩
        (resolveParams ([] :: scopes) params).1 body
      have others := Stmt.count_findingIdsMethods_le scopes rest
      simp only [Stmt.resolveMethods, Stmt.mentionsMethods, findingIds_append, mentionIds_append,
        List.count_append, findingIds_resolveParams, List.nil_append]
      omega

end

end Rill
