import Rill.Machine.Basic
import Rill.Proofs.Machine.Likeness

/-!
# How globals look

Of a global can be told what type it has, how it is printed, and for functions, classes and
instances what they are in more detail. Alike values look the same.
-/

namespace Rill

/-- What can be told of a value. -/
structure Appearance where
  typeName : String
  text : String
  description : Option String
deriving DecidableEq

namespace Machine

/-- How a value looks on a machine. -/
def look (m : Machine) (v : Value) : Appearance := ⟨v.typeName, v.text, m.describe? v⟩

/-- How a global looks, if there is one of the name. -/
def appearance? (m : Machine) (name : String) : Option Appearance :=
  match m.global name with
  | .ok v => some (m.look v)
  | .error _ => none

variable {m : Machine} {name : String}

theorem appearance?_eq (m : Machine) (name : String) :
    m.appearance? name = (m.forest.slot? globals name).map m.look := by
  rw [appearance?, global]
  cases found : m.forest.slot? globals name with
  | none => rw [globals, Forest.get_zero_of_none found]; rfl
  | some v => rw [globals, Forest.get_zero_of_some found]; rfl

end Machine

/-- Tables with related entries under the same names have the same names. -/
theorem keys_eq_of_optionRel {α β : Type} {r : α → β → Prop} {table : Table α} {table' : Table β}
    (rel : ∀ name : String, Option.Rel r table[name]? table'[name]?) :
    table.keys = table'.keys := by
  have equiv : (table.map fun _ _ => ()).Equiv (table'.map fun _ _ => ()) := by
    refine .of_forall_mem_unit_iff fun name => ?_
    rw [Std.TreeMap.mem_map, Std.TreeMap.mem_map, Std.TreeMap.mem_iff_isSome_getElem?,
      Std.TreeMap.mem_iff_isSome_getElem?]
    rcases optionRel_cases (rel name) with ⟨a, b, found, found', _⟩ | ⟨absent, absent'⟩
    · simp only [found, found', Option.isSome_some]
    · rw [absent, absent', Option.isSome_none, Option.isSome_none]
  have keys := equiv.keys_eq
  rwa [Std.TreeMap.keys_map, Std.TreeMap.keys_map] at keys

section Alike

variable {likeness : Likeness FrameId FrameId}

theorem Closure.Resembles.description_eq {c c' : Closure} (resembles : c.Resembles c') :
    c.description = c'.description := by
  unfold Closure.description
  rw [resembles.name_eq, resembles.arity_eq, resembles.isInitializer_eq]

theorem Class.Alike.description_eq {c c' : Class} (alike : c.Alike likeness c') :
    c.description = c'.description := by
  unfold Class.description
  rw [alike.name_eq, keys_eq_of_optionRel alike.methods]

theorem Object.Alike.description_eq {o o' : Object} (alike : o.Alike likeness o')
    {fields fields' : Table Value} (same : TablesAlike likeness fields fields') :
    o.description fields = o'.description fields' := by
  unfold Object.description
  rw [alike.cls.name_eq, keys_eq_of_optionRel same]

theorem Value.Alike.typeName_eq {v v' : Value} (alike : v.Alike likeness v') :
    v.typeName = v'.typeName := by
  cases alike <;> rfl

variable {m m' : Machine}

/-- Values that are alike look the same, if the fields of instances are alike too. -/
theorem Value.Alike.look_eq {v v' : Value} (alike : v.Alike likeness v')
    (fieldsOf : ∀ {o o' : Object}, o.Alike likeness o' →
      TablesAlike likeness (m.fieldsOf o) (m'.fieldsOf o')) :
    m.look v = m'.look v' := by
  have described : m.describe? v = m'.describe? v' := by
    cases alike with
    | closure related =>
        exact congrArg some (likeness.closures_resemble related).description_eq
    | cls related => exact congrArg some related.description_eq
    | object related => exact congrArg some (related.description_eq (fieldsOf related))
    | _ => rfl
  rw [Machine.look, Machine.look, alike.typeName_eq, alike.text_eq, described]

end Alike

end Rill
