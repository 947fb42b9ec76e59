import Rill.Proofs.Scope.Acceptance
import Rill.Proofs.Syntax.Recast

/-!
# Findings in recast trees

Resolution looks at the names of a tree only. So it finds the same things in a recast tree, told
with the other numbers and further down, and it finds in two programs, one behind the other, what it
finds in each of them: the statements of a program stand outside all scopes and leave none open.
-/

namespace Rill

/-- A finding told with other numbers, further down. -/
def Finding.recast (r : Recast) : Finding → Finding
  | .fault ⟨line, cause⟩ => .fault ⟨line + r.lines, cause⟩
  | .depth id d => .depth (r.ids id) d

namespace Finding

variable (r : Recast) (scopes : Scopes)

theorem ofMention_recast (id : Occurrence) (name : String) :
    ofMention scopes (r.ids id) name = (ofMention scopes id name).map (recast r) := by
  unfold ofMention
  cases scopes.depth? name <;> rfl

theorem ofDeclaration_lower (name : Ident) :
    ofDeclaration scopes (name.lower r.lines) = (ofDeclaration scopes name).map (recast r) := by
  unfold ofDeclaration
  rw [Ident.lower_name]
  split <;> rfl

theorem ite_recast {p : Prop} [Decidable p] (line : Nat) (rule : ScopeFault) :
    (if p then [ofFault (line + r.lines) rule] else []) =
      (if p then [ofFault line rule] else []).map (recast r) := by
  split <;> rfl

end Finding

variable (r : Recast)

/-! ## Expressions -/

mutual

theorem Expr.findings_recast (scopes : Scopes) (inClass : Bool) : ∀ e : Expr,
    (e.recast r).findings scopes inClass = (e.findings scopes inClass).map (Finding.recast r)
  | .literal _ => rfl
  | .unary _ operand _ => Expr.findings_recast scopes inClass operand
  | .binary left _ right _ | .logical left _ right => by
      rw [Expr.recast, Expr.findings, Expr.findings, Expr.findings_recast scopes inClass left,
        Expr.findings_recast scopes inClass right, List.map_append]
  | .group inner => Expr.findings_recast scopes inClass inner
  | .var id name => by
      rw [Expr.recast, Expr.findings, Expr.findings, Ident.lower_name, Finding.ofMention_recast,
        List.map_append, ← Finding.ite_recast]
      rfl
  | .assign id name value => by
      rw [Expr.recast, Expr.findings, Expr.findings, Expr.findings_recast scopes inClass value,
        Ident.lower_name, Finding.ofMention_recast, List.map_append]
  | .call callee arguments _ => by
      rw [Expr.recast, Expr.findings, Expr.findings, Expr.findings_recast scopes inClass callee,
        Expr.findingsAll_recast scopes inClass arguments, List.map_append]
  | .get object _ => Expr.findings_recast scopes inClass object
  | .set object _ value => by
      rw [Expr.recast, Expr.findings, Expr.findings, Expr.findings_recast scopes inClass value,
        Expr.findings_recast scopes inClass object, List.map_append]
  | .selfRef id line => by
      cases inClass with
      | true => exact Finding.ofMention_recast r scopes id "self"
      | false => rfl

theorem Expr.findingsAll_recast (scopes : Scopes) (inClass : Bool) : ∀ arguments : List Expr,
    Expr.findingsAll scopes inClass (Expr.recastAll r arguments) =
      (Expr.findingsAll scopes inClass arguments).map (Finding.recast r)
  | [] => rfl
  | e :: rest => by
      rw [Expr.recastAll, Expr.findingsAll, Expr.findingsAll, Expr.findings_recast scopes inClass e,
        Expr.findingsAll_recast scopes inClass rest, List.map_append]

end

theorem Expr.findingsOption_recast (scopes : Scopes) (inClass : Bool) (value : Option Expr) :
    Expr.findingsOption scopes inClass (value.map (Expr.recast r)) =
      (Expr.findingsOption scopes inClass value).map (Finding.recast r) := by
  cases value with
  | none => rfl
  | some e => exact e.findings_recast r scopes inClass

/-! ## Statements -/

theorem resolveParams_lower (scopes : Scopes) (params : List Ident) :
    resolveParams scopes (params.map (Ident.lower r.lines)) =
      ((resolveParams scopes params).1,
        (resolveParams scopes params).2.map (Finding.recast r)) := by
  induction params generalizing scopes with
  | nil => rfl
  | cons name rest ih =>
      rw [List.map_cons, resolveParams, resolveParams, Ident.lower_name, ih,
        Finding.ofDeclaration_lower, List.map_append]

theorem resolveLoopVar_recast (scopes : Scopes) (inClass : Bool) (counter : Option LoopVar) :
    resolveLoopVar scopes inClass (counter.map (LoopVar.recast r)) =
      ((resolveLoopVar scopes inClass counter).1,
        (resolveLoopVar scopes inClass counter).2.map (Finding.recast r)) := by
  cases counter with
  | none => rfl
  | some counter =>
      rw [Option.map_some, LoopVar.recast, resolveLoopVar, Expr.findings_recast]
      rfl

theorem returnFindings_recast (scopes : Scopes) (place : Place) (line : Nat)
    (value : Option Expr) :
    returnFindings scopes place (line + r.lines) (value.map (Expr.recast r)) =
      (returnFindings scopes place line value).map (Finding.recast r) := by
  rw [returnFindings, returnFindings, Option.isSome_map, Finding.ite_recast, Finding.ite_recast,
    Expr.findingsOption_recast, List.map_append, List.map_append]

mutual

theorem Stmt.resolve_recast : ∀ (place : Place) (scopes : Scopes) (s : Stmt),
    (s.recast r).resolve place scopes =
      ((s.resolve place scopes).1, (s.resolve place scopes).2.map (Finding.recast r))
  | place, scopes, .expression value | place, scopes, .print value => by
      rw [Stmt.recast, Stmt.resolve, Stmt.resolve, Expr.findings_recast]
  | place, scopes, .declare name initializer => by
      rw [Stmt.recast, Stmt.resolve, Stmt.resolve, Ident.lower_name, Finding.ofDeclaration_lower,
        Expr.findingsOption_recast, List.map_append]
  | place, scopes, .block body => by
      rw [Stmt.recast, Stmt.resolve, Stmt.resolve, Stmt.resolveAll_recast place _ body]
  | place, scopes, .function ⟨name, params, body⟩ => by
      rw [Stmt.recast, Stmt.resolve, Stmt.resolve, Ident.lower_name, resolveParams_lower]
      simp only [Stmt.resolveAll_recast _ _ body, Finding.ofDeclaration_lower, List.map_append]
  | place, scopes, .branch condition thenBody none => by
      simp only [Stmt.recast, Stmt.resolve, Expr.findings_recast,
        Stmt.resolveAll_recast place _ thenBody, List.map_append, List.map_nil]
  | place, scopes, .branch condition thenBody (some elseBody) => by
      simp only [Stmt.recast, Stmt.resolve, Expr.findings_recast,
        Stmt.resolveAll_recast place _ thenBody, Stmt.resolveAll_recast place _ elseBody,
        List.map_append]
  | place, scopes, .loop counter condition increment body => by
      rw [Stmt.recast, Stmt.resolve, Stmt.resolve, resolveLoopVar_recast]
      simp only [Expr.findingsOption_recast, Stmt.resolveAll_recast place _ body, List.map_append]
  | place, scopes, .exit line value => by
      rw [Stmt.recast, Stmt.resolve, Stmt.resolve, returnFindings_recast]
  | place, scopes, .classDef name methods => by
      rw [Stmt.recast, Stmt.resolve, Stmt.resolve, Ident.lower_name, Finding.ofDeclaration_lower,
        Stmt.resolveMethods_recast _ methods, List.map_append]

theorem Stmt.resolveAll_recast : ∀ (place : Place) (scopes : Scopes) (body : List Stmt),
    Stmt.resolveAll place scopes (Stmt.recastAll r body) =
      (Stmt.resolveAll place scopes body).map (Finding.recast r)
  | _, _, [] => rfl
  | place, scopes, s :: rest => by
      rw [Stmt.recastAll, Stmt.resolveAll, Stmt.resolveAll, Stmt.resolve_recast place scopes s]
      simp only [Stmt.resolveAll_recast place _ rest, List.map_append]

theorem Stmt.resolveMethods_recast : ∀ (scopes : Scopes) (methods : List Routine),
    Stmt.resolveMethods scopes (Stmt.recastMethods r methods) =
      (Stmt.resolveMethods scopes methods).map (Finding.recast r)
  | _, [] => rfl
  | scopes, ⟨name, params, body⟩ :: rest => by
      rw [Stmt.recastMethods, Stmt.resolveMethods, Stmt.resolveMethods, resolveParams_lower]
      simp only [Ident.lower_name, Stmt.resolveAll_recast _ _ body,
        Stmt.resolveMethods_recast scopes rest, List.map_append]
      rfl

end

/-! ## Programs -/

theorem programFindings_recastAll (program : List Stmt) :
    programFindings (Stmt.recastAll r program) =
      (programFindings program).map (Finding.recast r) :=
  Stmt.resolveAll_recast r _ [] program

theorem programFindings_cons (s : Stmt) (rest : List Stmt) :
    programFindings (s :: rest) = programFindings [s] ++ programFindings rest := by
  have whole : programFindings (s :: rest) = (s.resolve ⟨.outside, false⟩ []).2 ++
      Stmt.resolveAll ⟨.outside, false⟩ (s.behind []) rest := rfl
  have alone : programFindings [s] = (s.resolve ⟨.outside, false⟩ []).2 := List.append_nil _
  rw [whole, alone, Stmt.behind_nil]
  rfl

theorem programFindings_append (first second : List Stmt) :
    programFindings (first ++ second) = programFindings first ++ programFindings second := by
  induction first with
  | nil => rfl
  | cons s rest ih =>
      rw [List.cons_append, programFindings_cons, ih, programFindings_cons s rest,
        List.append_assoc]

/-- Nothing is broken in a recast program unless something is in the program itself. -/
theorem findingFaults_recast_eq_nil {found : List Finding} (faultless : findingFaults found = []) :
    findingFaults (found.map (Finding.recast r)) = [] := by
  induction found with
  | nil => rfl
  | cons finding rest ih =>
      cases finding with
      | fault fault => cases faultless
      | depth id d => exact ih faultless

theorem mem_map_recast {found : List Finding} {id : Occurrence} {d : Nat} :
    Finding.depth id d ∈ found.map (Finding.recast r) ↔
      ∃ i, Finding.depth i d ∈ found ∧ r.ids i = id := by
  rw [List.mem_map]
  constructor
  · rintro ⟨finding, present, same⟩
    cases finding with
    | fault fault => cases same
    | depth i d' =>
        cases same
        exact ⟨i, present, rfl⟩
  · rintro ⟨i, present, rfl⟩
    exact ⟨.depth i d, present, rfl⟩

end Rill
