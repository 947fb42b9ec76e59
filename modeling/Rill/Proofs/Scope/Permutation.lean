import Rill.Proofs.Scope.Acceptance
import Rill.Proofs.Scope.Recast

/-!
# Programs in another order

The statements of a program stand outside all scopes and leave none open, so what is found in one of
them does not depend on those in front of it. A program that is accepted is accepted in any other
order of its statements, and all names refer to what they did.
-/

namespace Rill

variable {program program' : List Stmt} {bindings : Bindings}

theorem programFindings_perm (perm : program.Perm program') :
    (programFindings program).Perm (programFindings program') := by
  induction perm with
  | nil => exact .refl _
  | @cons s rest rest' _ ih =>
      rw [programFindings_cons s rest, programFindings_cons s rest']
      exact ih.append_left _
  | swap s t rest =>
      rw [programFindings_cons t (s :: rest), programFindings_cons s rest,
        programFindings_cons s (t :: rest), programFindings_cons t rest]
      exact List.perm_append_comm_assoc _ _ _
  | trans _ _ former latter => exact former.trans latter

theorem Stmt.mentionsAll_perm (perm : program.Perm program') :
    (mentionsAll program).Perm (mentionsAll program') := by
  induction perm with
  | nil => exact .refl _
  | cons s _ ih => exact ih.append_left _
  | swap s t rest => exact List.perm_append_comm_assoc _ _ _
  | trans _ _ former latter => exact former.trans latter

theorem findingFaults_perm {found found' : List Finding} (perm : found.Perm found') :
    (findingFaults found).Perm (findingFaults found') :=
  perm.filterMap _

/-- A program is accepted in any order of its statements, with the same bindings. -/
theorem exists_resolve_of_perm (perm : program.Perm program')
    (resolved : resolve program = .ok bindings)
    (nodup : (mentionIds (Stmt.mentionsAll program)).Nodup) :
    ∃ bindings', resolve program' = .ok bindings' ∧
      ∀ id : Occurrence, bindings'[id]? = bindings[id]? := by
  have found := programFindings_perm perm
  have faultless : findingFaults (programFindings program') = [] := by
    have faults := findingFaults_perm found
    rw [(resolve_eq_ok.mp resolved).1] at faults
    exact faults.symm.eq_nil
  have nodup' : (mentionIds (Stmt.mentionsAll program')).Nodup :=
    ((Stmt.mentionsAll_perm perm).map Mention.id).nodup_iff.mp nodup
  have resolved' := resolve_eq_ok.mpr ⟨faultless, rfl⟩
  refine ⟨_, resolved', fun id => Option.ext fun d => ?_⟩
  rw [getElem?_resolve resolved' nodup', getElem?_resolve resolved nodup]
  exact found.symm.mem_iff

end Rill
