import Measures.Proofs.Failure
import Measures.Quantity.Limited

/-!
# The limit is not met

A text fails under the limit exactly if it shows an integer of too many digits. So what a quantity
answers is the same under the limit, and of its names and texts only those that look up a list fail.
-/

namespace Measures

/-! ## Data -/

namespace Datum

mutual

theorem limitedLiteral_eq : ∀ d : Datum,
    limitedLiteral d = if d.isWritable then .ok d.literal else .error .integerTooLong
  | .int i => by
    simp only [limitedLiteral, isWritable, integers, List.all_cons, List.all_nil, Bool.and_true]
    rfl
  | .list items => by
    rw [limitedLiteral, limitedLiterals_eq items, isWritable, integers]
    split
    · rfl
    · rfl
  | .none | .bool _ | .float _ | .text _ | .member _ => rfl

theorem limitedLiterals_eq : ∀ ds : List Datum,
    limitedLiterals ds = if (integersOf ds).all isWritableInteger then .ok (literals ds)
      else .error .integerTooLong
  | [] => rfl
  | d :: rest => by
    rw [limitedLiterals, limitedLiteral_eq d, limitedLiterals_eq rest, integersOf, List.all_append,
      isWritable]
    cases d.integers.all isWritableInteger with
    | false => rfl
    | true => cases (integersOf rest).all isWritableInteger <;> rfl

end

theorem limitedLiteral_of_isWritable {d : Datum} (h : d.isWritable = true) :
    limitedLiteral d = .ok d.literal := by
  rw [limitedLiteral_eq, if_pos h]

end Datum

/-! ## Look-ups -/

/-- Everything but a list can be looked up. -/
theorem UnitSlot.find?_eq {d : Datum} (h : ∀ items, d ≠ .list items) :
    find? d = .ok (d.text?.bind BaseUnit.ofText?) := by
  cases d with
  | list items => exact absurd rfl (h items)
  | _ => rfl

/-! ## Quantities -/

namespace Quantity

/-- No integer that the texts of a quantity can show has too many digits. -/
structure IsWritable (q : Quantity) : Prop where
  property : q.property.isWritable = true
  unit : q.unit.datum.isWritable = true
  power : q.power.datum.isWritable = true
  madeUnit : q.madeUnit.datum.isWritable = true
  literal : q.literal.isWritable = true

theorem IsWritable.limited_eq {q : Quantity} (h : q.IsWritable) (query : Query) :
    query.limited q = query.answer q := by
  have hproperty := Datum.limitedLiteral_of_isWritable h.property
  have hunit := Datum.limitedLiteral_of_isWritable h.unit
  have hpower := Datum.limitedLiteral_of_isWritable h.power
  have hmade := Datum.limitedLiteral_of_isWritable h.madeUnit
  have hliteral := Datum.limitedLiteral_of_isWritable h.literal
  cases query with
  | text => exact congrArg (Except.map Datum.text) (Writing.text_of_plain hunit hpower)
  | fullText =>
    exact congrArg (Except.map Datum.text)
      (Writing.fullText_of_plain hproperty hunit hpower hmade hliteral)
  | unitName => exact congrArg (Except.map Datum.text) (Writing.unitName_of_plain hunit)
  | madeUnitName => exact congrArg (Except.map Datum.text) (Writing.unitName_of_plain hmade)
  | literalUnitName =>
    exact congrArg (Except.map Datum.text) (Writing.literalUnitName_of_plain hmade hliteral)
  | _ => rfl

/-! ## Lists in place of the base unit at the time of making -/

variable {q : Quantity}

theorem literalUnitName_of_list {items : List Datum} (h : q.madeUnit.datum = .list items) :
    q.literalUnitName = .error (.unhashable "list") := by
  unfold literalUnitName Writing.literalUnitName
  cases hslot : q.madeUnit with
  | unit u =>
    rw [hslot] at h
    cases h
  | foreign d mark =>
    rw [hslot] at h
    obtain rfl : d = .list items := h
    rfl

theorem exists_literalUnitName (h : ∀ items, q.madeUnit.datum ≠ .list items) :
    ∃ name, q.literalUnitName = .ok name := by
  cases hslot : q.madeUnit with
  | unit u => exact ⟨_, literalUnitName_unit hslot⟩
  | foreign d mark =>
    rw [hslot] at h
    have hfound : UnitSlot.find? d = _ := UnitSlot.find?_eq h
    unfold literalUnitName Writing.literalUnitName
    simp only [hslot, hfound, ok_bind]
    split
    · exact ⟨_, Writing.literalName_of_plain rfl _⟩
    · exact ⟨_, rfl⟩

end Quantity

namespace Query

/-- Whether the base unit at the time of making is looked up in a table. -/
def looksUp : Query → Bool
  | literalUnitName | fullText => true
  | _ => false

variable {q : Quantity} {query : Query}

theorem answer_of_list {items : List Datum} (h : q.madeUnit.datum = .list items)
    (hquery : query.looksUp = true) : query.answer q = .error (.unhashable "list") := by
  cases query with
  | literalUnitName =>
    rw [answer, Quantity.literalUnitName_of_list h]
    rfl
  | fullText =>
    rw [answer, Quantity.fullText_eq, Quantity.literalUnitName_of_list h]
    rfl
  | _ => cases hquery

theorem exists_answer (hquery : query ∈ diagnostics)
    (h : query.looksUp = true → ∀ items, q.madeUnit.datum ≠ .list items) :
    ∃ s, query.answer q = .ok (.text s) := by
  cases query with
  | text | unitName | madeUnitName => exact ⟨_, rfl⟩
  | literalUnitName =>
    obtain ⟨name, hname⟩ := Quantity.exists_literalUnitName (h rfl)
    rw [answer, hname]
    exact ⟨_, rfl⟩
  | fullText =>
    obtain ⟨name, hname⟩ := Quantity.exists_literalUnitName (h rfl)
    rw [answer, Quantity.fullText_eq, hname]
    exact ⟨_, rfl⟩
  | _ => exact absurd hquery (by decide)

end Query

end Measures
