import Rill.Machine.Basic
import Rill.Proofs.Machine.Forest

/-!
# Variables of a running machine

Reading and writing a name comes out as its binding says. A bound name is found in the frame that
its depth leads to; any other name is a global or nothing.
-/

namespace Rill.Run

theorem get_bind {ε σ α : Type} (next : σ → EStateM ε σ α) (s : σ) :
    ((get : EStateM ε σ σ) >>= next) s = next s s :=
  rfl

variable {m : Machine} {id : Occurrence} {name : String} {value : Value} {depth : Nat}
  {owner : FrameId}

section Bound

variable (bound : m.bindings[id]? = some depth)
  (reached : m.forest.ancestor? depth m.current = some owner)

include bound reached

theorem lookUp_of_bound (found : m.forest.slot? owner name = some value) (line : Nat) :
    lookUp id name line m = .ok value m := by
  rw [lookUp, get_bind, bound]
  dsimp only
  rw [Forest.getAt_of_ancestor? reached found]
  rfl

theorem assign_of_bound (value : Value) (line : Nat) :
    assign id name value line m = .ok () { m with forest := m.forest.define owner name value } := by
  rw [assign, get_bind, bound]
  dsimp only
  rw [Forest.ownerAt_of_ancestor? reached]
  rfl

end Bound

section Unbound

variable (unbound : m.bindings[id]? = none)

include unbound

theorem lookUp_of_global (found : m.forest.slot? Machine.globals name = some value) (line : Nat) :
    lookUp id name line m = .ok value m := by
  rw [lookUp, get_bind, unbound]
  dsimp only
  rw [Machine.globals, Forest.get_zero_of_some found]
  rfl

theorem lookUp_of_undefined (absent : m.forest.slot? Machine.globals name = none) (line : Nat) :
    lookUp id name line m = .error (.fault ⟨line, .undefinedVariable name⟩) m := by
  rw [lookUp, get_bind, unbound]
  dsimp only
  rw [Machine.globals, Forest.get_zero_of_none absent]
  rfl

theorem assign_of_global (found : m.forest.slot? Machine.globals name = some value)
    (value : Value) (line : Nat) :
    assign id name value line m =
      .ok () { m with forest := m.forest.define Machine.globals name value } := by
  rw [assign, get_bind, unbound]
  dsimp only
  rw [Machine.globals, Forest.owner_zero_of_some found]
  rfl

theorem assign_of_undefined (absent : m.forest.slot? Machine.globals name = none) (value : Value)
    (line : Nat) :
    assign id name value line m = .error (.fault ⟨line, .undefinedVariable name⟩) m := by
  rw [assign, get_bind, unbound]
  dsimp only
  rw [Machine.globals, Forest.owner_zero_of_none absent]
  rfl

end Unbound

end Rill.Run
