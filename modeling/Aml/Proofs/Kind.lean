import Mathlib
import Aml.Kind
import Aml.Proofs.Text.Encoding

/-!
# Names of kinds

The name of a declared kind finds this kind again (`Kind.ofName?_name`). It has no parenthesis,
while the name of an undeclared kind shows its index after one; so all kinds are told by their names
(`Kind.name_injective`), none of which has a quote (`Kind.quote_notMem_name`).
-/
namespace Aml.Kind

variable {kind : Kind}

/-- A declared kind is listed. -/
theorem mem_all (declared : kind.isDeclared = true) : kind ∈ all := by
  cases kind with
  | reserved kind => cases kind <;> decide
  | operator kind => cases kind <;> decide
  | operand kind => cases kind <;> decide
  | undeclared index => contradiction

/-- A declared kind is found by its name. -/
theorem ofName?_name (declared : kind.isDeclared = true) : ofName? kind.name = some kind := by
  have listed : ∀ kind ∈ all, ofName? kind.name = some kind := by decide +kernel
  exact listed kind (mem_all declared)

/-- A declared name has no quote and no parenthesis. -/
theorem signs_notMem_name (declared : kind.isDeclared = true) :
    34 ∉ kind.name ∧ 40 ∉ kind.name := by
  have listed : ∀ kind ∈ all, (34 : UInt8) ∉ kind.name ∧ (40 : UInt8) ∉ kind.name := by
    decide +kernel
  exact listed kind (mem_all declared)

/-- A declared kind has another name than an undeclared one. -/
theorem name_ne_undeclared (declared : kind.isDeclared = true) (index : Int) :
    kind.name ≠ (undeclared index).name := by
  intro same
  refine (signs_notMem_name declared).2 ?_
  rw [same]
  exact List.mem_append_left _ (List.mem_append_left _ (by decide))

/-- An undeclared kind is known by its index. -/
theorem eq_undeclared (unknown : kind.isDeclared = false) : ∃ index, kind = undeclared index := by
  cases kind with
  | reserved | operator | operand => contradiction
  | undeclared index => exact ⟨index, rfl⟩

/-- A kind is told by its name. -/
theorem name_injective : Function.Injective name := by
  intro left right same
  cases one : left.isDeclared with
  | true =>
    cases other : right.isDeclared with
    | true =>
      have found := ofName?_name one
      rw [same, ofName?_name other] at found
      exact (Option.some.inj found).symm
    | false =>
      obtain ⟨index, rfl⟩ := eq_undeclared other
      exact absurd same (name_ne_undeclared one index)
  | false =>
    obtain ⟨index, rfl⟩ := eq_undeclared one
    cases other : right.isDeclared with
    | true => exact absurd same.symm (name_ne_undeclared other index)
    | false =>
      obtain ⟨index, rfl⟩ := eq_undeclared other
      have shown := List.append_cancel_left (List.append_cancel_right same)
      exact congrArg undeclared (Text.ofInt_injective shown)

/-- No name of a kind has a quote. -/
theorem quote_notMem_name (kind : Kind) : 34 ∉ kind.name := by
  intro member
  cases known : kind.isDeclared with
  | true => exact (signs_notMem_name known).1 member
  | false =>
    obtain ⟨index, rfl⟩ := eq_undeclared known
    obtain front | closing := List.mem_append.mp member
    · obtain opening | digits := List.mem_append.mp front
      · exact absurd opening (by decide)
      · exact absurd (Text.le_of_mem_ofInt digits) (by decide)
    · exact absurd closing (by decide)

end Aml.Kind
