import Measures.Proofs.Scalar.Saturation
import Measures.Proofs.Session.Surface

/-!
# Integers read from quantities

A number made of an integer gives it back, as long as floats hold every integer of its size.
-/

namespace Measures

open Binary64 (ofInt ofInt? fits_whole ofInt?_of_fits)
open Scalar (IntWidth)

namespace Quantity

variable {i : Int}

theorem asInt_eq (q : Quantity) : q.asInt = IntWidth.bits32.clamp q.asLong := by
  have hlong : q.asLong = q.value.integer .bits64 := Scalar.saturate_eq .bits64 q.value
  have hint : q.asInt = q.value.integer .bits32 := Scalar.saturate_eq .bits32 q.value
  rw [hlong, hint]
  cases q.value with
  | nan => decide
  | infinite s => cases s <;> decide
  | finite s n hn => exact (IntWidth.clamp_clamp _).symm

theorem toFloat_int (h : i.natAbs ≤ 2 ^ 53) : (Operand.datum (.int i)).toFloat = .ok (ofInt i) := by
  have hfits : Binary64.Fits (i.natAbs * Binary64.one) := fits_whole h
  have hi : ofInt? i = some (ofInt i) := ofInt?_of_fits hfits
  change Datum.floatOfInt i = _
  rw [Datum.floatOfInt, hi, Option.elim_some]

theorem ofKind_number {o : Operand} {x : Binary64} (h : o.toFloat = .ok x) (property : Datum) :
    ofKind .number property o none = .ok (ofParts property x .number 0 .none) := by
  change o.toFloat >>= _ = _
  rw [h]
  rfl

theorem asLong_number (property : Datum) (x : Binary64) :
    (ofParts property x .number 0 .none).asLong = Scalar.saturate .bits64 x := rfl

end Quantity

namespace Session

theorem make_number {s : Session} {registry : Except Fault Registry} {p property v : Datum}
    (hp : Quantity.resolveProperty (fun name => registry.bind fun r => r.propertyIndex name)
      (.datum p) = .ok property) {x : Binary64} (hx : (Operand.datum v).toFloat = .ok x) :
    s.make registry (.ofKind .number (.datum p) (.datum v) none)
      = .ok (.ofParts property x .number 0 .none) := by
  rw [← Quantity.ofKind_number hx property]
  change (Quantity.resolveProperty _ _ >>= _) = _
  rw [hp]
  rfl

theorem step_make_of_ok {s : Session} {registry : Except Fault Registry} {recipe : Recipe}
    {q : Quantity} (h : s.make registry recipe = .ok q) (name : String) :
    s.step registry (.make recipe name) = (.ok .made, s.put name q) := by
  rw [step_make, h]
  rfl

/-- A number without its fraction, held between the ends of 32 or 64 bits, in the order of numbers;
the 32 bits of a quantity are those of its 64 bits, and a number made of an integer gives the
integer back. -/
theorem integers_exact :
    (∀ (w : IntWidth) (x : Binary64),
      (Formula.toInteger (.float x) (some (.int w.bits))).value = .ok (.int (x.integer w)) ∧
        Scalar.Guarded.saturate w x = .ok (x.integer w)) ∧
    (∀ (w : IntWidth) (x y : Binary64), x.lessEq y = true → x.integer w ≤ y.integer w) ∧
    (∀ q : Quantity, ∃ i : Int, Query.asLong.answer q = .ok (.int i) ∧
      i = q.value.integer .bits64 ∧
      Query.asInt.answer q = .ok (.int (max (-2 ^ 31) (min i (2 ^ 31 - 1))))) ∧
    ∀ (s : Session) (registry : Except Fault Registry) (p property : Datum) (i : Int)
      (name : String),
      Quantity.resolveProperty (fun n => registry.bind fun r => r.propertyIndex n) (.datum p)
        = .ok property →
      i.natAbs ≤ 2 ^ 53 →
        let made := s.step registry (.make (.ofKind .number (.datum p) (.datum (.int i)) none) name)
        made.1 = .ok .made ∧
          (made.2.step registry (.ask name .asLong)).1 = .ok (.datum (.int i)) ∧
          (-2 ^ 31 ≤ i → i ≤ 2 ^ 31 - 1 →
            (made.2.step registry (.ask name .asInt)).1 = .ok (.datum (.int i))) := by
  refine ⟨fun w x => ?_, fun w x y h => Scalar.integer_le h w, fun q => ?_, ?_⟩
  · rw [Scalar.Guarded.saturate_eq, Scalar.saturate_eq]
    exact ⟨Scalar.value_toInteger x w, rfl⟩
  · refine ⟨q.asLong, rfl, Scalar.saturate_eq .bits64 q.value, ?_⟩
    exact congrArg (fun i => Except.ok (Datum.int i)) q.asInt_eq
  · intro s registry p property i name hp h made
    have hmade : made = _ := step_make_of_ok (make_number hp (Quantity.toFloat_int h)) name
    have hq : made.2.get? name = some (.ofParts property (ofInt i) .number 0 .none) := by
      rw [hmade]
      exact get?_put_self s name _
    have hlong : (Quantity.ofParts property (ofInt i) .number 0 .none).asLong = i := by
      rw [Quantity.asLong_number, Scalar.saturate_ofInt h]
      simp only [IntWidth.clamp, IntWidth.bits]
      omega
    refine ⟨congrArg Prod.fst hmade, ?_, fun hlow hhigh => ?_⟩
    · rw [answer_ask hq, Query.answer, hlong]
      rfl
    · rw [answer_ask hq, Query.answer, Quantity.asInt_eq, hlong,
        IntWidth.clamp_of_mem hlow hhigh]
      rfl

/-- A fraction above the least integer of 32 bits is dropped, not held against the end. -/
theorem integers_exact_ends :
    let x := Binary64.ofDecimal true [2, 1, 4, 7, 4, 8, 3, 6, 4, 7, 5] (-1)
    let made i := empty.step (.ok .empty)
      (.make (.ofKind .number (.datum (.int 0)) (.datum (.int i)) none) "n")
    (Formula.toInteger (.float x) (some (.int 32))).value = .ok (.int (-2147483647)) ∧
      x.lessEq (.infinite false) = true ∧
      x.integer .bits32 ≤ (Binary64.infinite false).integer .bits32 ∧
      ((made (2 ^ 53)).2.step (.ok .empty) (.ask "n" .asLong)).1 = .ok (.datum (.int (2 ^ 53))) ∧
      ((made (-2 ^ 31)).2.step (.ok .empty) (.ask "n" .asInt)).1
        = .ok (.datum (.int (-2 ^ 31))) := by
  intro x made
  obtain ⟨hvalue, hle, -, hback⟩ := integers_exact
  have hx : x.integer .bits32 = -2147483647 := by decide +kernel
  have hless : x.lessEq (.infinite false) = true := by decide +kernel
  have hfloat := (hvalue .bits32 x).1
  rw [hx] at hfloat
  have hback' (i : Int) := hback empty (.ok .empty) (.int 0) (.int 0) i "n" rfl
  exact ⟨hfloat, hless, hle .bits32 x _ hless, (hback' (2 ^ 53) (by decide)).2.1,
    (hback' (-2 ^ 31) (by decide)).2.2 (by decide) (by decide)⟩

end Session

end Measures
