import Mathlib
import Aml.Proofs.Text.Encoding
import Aml.Text.Paint

/-!
# Painted text without its control sequences

A control sequence is the escape byte with an opening bracket, digits and semicolons, and the letter
m (`behindSequence?_eq_some_iff`). `unpainted` deletes the control sequences of a text. A painted
text shows a plain one (`Shows`) when this leaves the plain one, whatever comes behind. Painting a
text without an escape byte shows this text (`Shows.paint`), and texts in a row show what each of
them shows (`Shows.append`).
-/
namespace Aml.Text

/-! ## Deleting control sequences -/

/-- The byte that starts a control sequence. -/
def escape : UInt8 := 27

/-- Whether a byte may stand between the bracket and the letter of a control sequence. -/
def isParameter (byte : UInt8) : Bool :=
  (48 ≤ byte && byte < 58) || byte == 59

/-- The text behind the control sequence at the front of a text, if there is one. -/
def behindSequence? (text : Text) : Option Text :=
  (text.dropPrefix? (ofString "\x1b[")).bind fun rest =>
    (rest.dropWhile isParameter).dropPrefix? (ofString "m")

/-- A control sequence is an escape byte with a bracket, digits and semicolons, and the letter m. -/
theorem behindSequence?_eq_some_iff {text rest : Text} :
    behindSequence? text = some rest ↔
      ∃ parameters : Text, (∀ byte ∈ parameters, isParameter byte = true) ∧
        text = ofString "\x1b[" ++ (parameters ++ (ofString "m" ++ rest)) := by
  constructor
  · intro found
    obtain ⟨later, opened, closed⟩ := Option.bind_eq_some_iff.mp found
    obtain ⟨opening, rfl, same⟩ := List.dropPrefix?_eq_some_iff.mp opened
    obtain rfl := eq_of_beq same
    obtain ⟨letter, split, same⟩ := List.dropPrefix?_eq_some_iff.mp closed
    obtain rfl := eq_of_beq same
    refine ⟨later.takeWhile isParameter, fun byte member => List.mem_takeWhile_imp member, ?_⟩
    rw [← split, List.takeWhile_append_dropWhile]
  · rintro ⟨parameters, all, rfl⟩
    refine Option.bind_eq_some_iff.mpr ⟨parameters ++ (ofString "m" ++ rest), ?_, ?_⟩
    · exact List.dropPrefix?_eq_some_iff.mpr ⟨_, rfl, BEq.rfl⟩
    · rw [List.dropWhile_append_of_pos all]
      exact List.dropPrefix?_eq_some_iff.mpr ⟨_, rfl, BEq.rfl⟩

/-- A control sequence has bytes. -/
theorem length_of_behindSequence? {text rest : Text} (found : behindSequence? text = some rest) :
    rest.length < text.length := by
  obtain ⟨parameters, _, rfl⟩ := behindSequence?_eq_some_iff.mp found
  have letter : (ofString "m").length = 1 := rfl
  simp only [List.length_append, letter]
  omega

/-- A text without its control sequences, each of which is found from the left. -/
def unpainted : Text → Text
  | [] => []
  | byte :: rest =>
    match _found : behindSequence? (byte :: rest) with
    | some behind => unpainted behind
    | none => byte :: unpainted rest
termination_by text => text.length
decreasing_by
  · exact length_of_behindSequence? _found
  · exact Nat.lt_succ_self _

/-- A control sequence in front is deleted. -/
theorem unpainted_of_behindSequence? {text rest : Text}
    (found : behindSequence? text = some rest) : unpainted text = unpainted rest := by
  cases text with
  | nil => contradiction
  | cons byte text =>
    rw [unpainted]
    split
    · next same => rw [Option.some.inj (same.symm.trans found)]
    · next missing => cases missing.symm.trans found

/-- A byte that starts no control sequence stays. -/
theorem unpainted_cons {byte : UInt8} (other : byte ≠ escape) (rest : Text) :
    unpainted (byte :: rest) = byte :: unpainted rest := by
  rw [unpainted]
  split
  · next found =>
    obtain ⟨parameters, _, same⟩ := behindSequence?_eq_some_iff.mp found
    exact absurd (List.cons.inj same).1 other
  · rfl

/-- The bytes of joined texts are those of the separator and of the texts. -/
theorem mem_of_mem_joined {separator : Text} {texts : List Text} {byte : UInt8}
    (member : byte ∈ joined separator texts) :
    byte ∈ separator ∨ ∃ text ∈ texts, byte ∈ text := by
  fun_induction joined separator texts with
  | case1 => contradiction
  | case2 text => exact .inr ⟨text, List.mem_singleton_self text, member⟩
  | case3 text rest _ ih =>
    obtain front | later := List.mem_append.mp member
    · obtain first | between := List.mem_append.mp front
      · exact .inr ⟨text, List.mem_cons_self, first⟩
      · exact .inl between
    · obtain between | ⟨other, listed, within⟩ := ih later
      · exact .inl between
      · exact .inr ⟨other, List.mem_cons_of_mem _ listed, within⟩

/-- A digit may stand in a control sequence. -/
theorem isParameter_of_digit {byte : UInt8} (digit : 48 ≤ byte.toNat ∧ byte.toNat < 58) :
    isParameter byte = true := by
  simp only [isParameter, Bool.or_eq_true, Bool.and_eq_true, decide_eq_true_eq,
    UInt8.le_iff_toNat_le, UInt8.lt_iff_toNat_lt]
  exact .inl digit

/-- The control sequence of some numbers is deleted. -/
theorem unpainted_controlSequence (numbers : List Nat) (rest : Text) :
    unpainted (controlSequence numbers ++ rest) = unpainted rest := by
  have parameters : ∀ byte ∈ joined (ofString ";") (numbers.map ofNat),
      isParameter byte = true := by
    intro byte member
    obtain between | ⟨_, listed, within⟩ := mem_of_mem_joined member
    · obtain rfl : byte = 59 := List.mem_singleton.mp between
      rfl
    · obtain ⟨number, _, rfl⟩ := List.mem_map.mp listed
      exact isParameter_of_digit (digit_of_mem_ofNat within)
  refine unpainted_of_behindSequence? (behindSequence?_eq_some_iff.mpr ⟨_, parameters, ?_⟩)
  simp only [controlSequence, List.append_assoc]

/-! ## What painted texts show -/

/-- A painted text shows a plain one: without control sequences it is the plain one, whatever comes
behind. -/
def Shows (painted plain : Text) : Prop :=
  ∀ rest, unpainted (painted ++ rest) = plain ++ unpainted rest

namespace Shows

variable {painted plain : Text}

/-- What a text shows is left of it without control sequences. -/
theorem unpainted_eq (shown : Shows painted plain) : unpainted painted = plain := by
  have alone := shown []
  rwa [List.append_nil, unpainted, List.append_nil] at alone

/-- A text without an escape byte shows itself. -/
theorem refl {text : Text} (clean : escape ∉ text) : Shows text text := by
  intro rest
  induction text with
  | nil => rfl
  | cons byte text ih =>
    obtain ⟨first, others⟩ := List.ne_and_not_mem_of_not_mem_cons clean
    rw [List.cons_append, unpainted_cons first.symm, ih others, List.cons_append]

/-- Texts in a row show what each of them shows. -/
theorem append {later behind : Text} (first : Shows painted plain) (second : Shows later behind) :
    Shows (painted ++ later) (plain ++ behind) := by
  intro rest
  rw [List.append_assoc, first, second, List.append_assoc]

/-- A text without an escape byte is shown when it is painted. -/
theorem paint {text : Text} (clean : escape ∉ text) (color : Bool) (attributes : List Attribute) :
    Shows (Aml.paint color attributes text) text := by
  cases color with
  | false => exact refl clean
  | true =>
    intro rest
    rw [Aml.paint, if_pos rfl, List.append_assoc, List.append_assoc, unpainted_controlSequence,
      refl clean, unpainted_controlSequence]

/-- Lines with their ends show the lines that each of them shows. -/
theorem lines {painted plain : List Text} (shown : List.Forall₂ Shows painted plain) :
    Shows (painted.flatMap fun line => line ++ [newline])
      (plain.flatMap fun line => line ++ [newline]) := by
  have ended : Shows [newline] [newline] := refl (by decide)
  induction shown with
  | nil => exact refl List.not_mem_nil
  | cons first _ later => exact (first.append ended).append later

end Shows

end Aml.Text
