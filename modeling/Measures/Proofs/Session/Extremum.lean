import Measures.Formula
import Measures.Proofs.Scalar.Remainder
import Measures.Proofs.Session.Surface

/-!
# The greatest and the least in any order

The number that is chosen of several does not depend on their order, but for its sign where zeros of
both signs are the best there is: then the one that comes first is chosen.
-/

namespace Measures

/-! ## Places -/

namespace Binary64

variable {x y : Binary64}

theorem signed_inj {s t : Bool} {n : Nat} (hn : 0 < n) (h : signed s n = signed t n) : s = t := by
  rw [← signed_lt_zero s hn, ← signed_lt_zero t hn, h]

theorem exists_place? (h : x.isNaN = false) : ∃ p, x.place? = some p := by
  cases x with
  | nan => cases h
  | infinite s => exact ⟨_, rfl⟩
  | finite s n hn => exact ⟨_, rfl⟩

/-- Only the zeros share a place. -/
theorem eq_or_zeros_of_place? {p : Int} (hx : x.place? = some p) (hy : y.place? = some p) :
    x = y ∨ ∃ s, x = .zero s ∧ y = .zero (!s) := by
  have hsize {s t : Bool} {m n : Nat} (h : signed s m = signed t n) : m = n := by
    rw [← natAbs_signed s m, h, natAbs_signed]
  have hxy := hx.trans hy.symm
  cases x with
  | nan => cases hx
  | infinite s =>
    cases y with
    | nan => cases hy
    | infinite t =>
      rw [signed_inj limit_pos (Option.some.inj hxy)]
      exact .inl rfl
    | finite t n hn => exact absurd (hsize (Option.some.inj hxy)) hn.1.ne'
  | finite s m hm =>
    cases y with
    | nan => cases hy
    | infinite t => exact absurd (hsize (Option.some.inj hxy)) hm.1.ne
    | finite t n hn =>
      obtain rfl := hsize (Option.some.inj hxy)
      rcases Nat.eq_zero_or_pos m with rfl | hpos
      · rcases Bool.eq_or_eq_not s t with rfl | rfl
        · exact .inl rfl
        · exact .inr ⟨_, rfl, by rw [Bool.not_not]; rfl⟩
      · rw [signed_inj hpos (Option.some.inj hxy)]
        exact .inl rfl

end Binary64

/-! ## One choice -/

namespace Comparison

open Binary64 (zero)

variable {c : Comparison} {x y : Binary64} {xs ys : List Binary64}

/-- The rule that a comparison of two quantities asks. -/
def formula : Comparison → Datum → Datum → Formula
  | .max => .max
  | .min => .min

def choose : Comparison → Binary64 → Binary64 → Binary64
  | .max => Scalar.max
  | .min => Scalar.min

/-- The place of a number in the order from the worst to the best one. -/
def rank (c : Comparison) (x : Binary64) : Int :=
  match c with
  | .max => x.place?.getD 0
  | .min => -x.place?.getD 0

theorem value_formula (c : Comparison) (x y : Binary64) :
    (c.formula (.float x) (.float y)).value = .ok (.float (c.choose x y)) := by
  cases c with
  | max => exact Datum.max_float x y
  | min => exact Datum.min_float x y

theorem choose_nan_left (c : Comparison) (y : Binary64) : c.choose .nan y = .nan := by
  cases c <;> rfl

theorem choose_nan_right (c : Comparison) (x : Binary64) : c.choose x .nan = .nan := by
  cases c <;> cases x <;> rfl

/-- The first number is chosen unless the second one is better. -/
theorem choose_eq (hx : x.isNaN = false) (hy : y.isNaN = false) :
    c.choose x y = if c.rank x < c.rank y then y else x := by
  obtain ⟨p, hp⟩ := Binary64.exists_place? hx
  obtain ⟨q, hq⟩ := Binary64.exists_place? hy
  cases c with
  | max => simp [choose, rank, Scalar.max, Binary64.less, hx, hy, hp, hq]
  | min => simp [choose, rank, Scalar.min, Binary64.less, hx, hy, hp, hq]

theorem isZero_iff_rank (hx : x.isNaN = false) : x.isZero = true ↔ c.rank x = 0 := by
  cases x with
  | nan => cases hx
  | infinite s =>
    have hne := Binary64.signed_ne_zero s Binary64.limit_pos
    cases c <;> simp [rank, Binary64.place?, Binary64.isZero, hne]
  | finite s n hn =>
    have hiff : Binary64.signed s n = 0 ↔ n = 0 := by
      unfold Binary64.signed
      split <;> omega
    cases c <;> simp [rank, Binary64.place?, Binary64.isZero, hiff]

theorem eq_or_zeros_of_rank (hx : x.isNaN = false) (hy : y.isNaN = false)
    (h : c.rank x = c.rank y) : x = y ∨ ∃ s, x = .zero s ∧ y = .zero (!s) := by
  obtain ⟨p, hp⟩ := Binary64.exists_place? hx
  obtain ⟨q, hq⟩ := Binary64.exists_place? hy
  have hpq : p = q := by
    cases c <;> simp only [rank, hp, hq, Option.getD_some] at h <;> omega
  exact Binary64.eq_or_zeros_of_place? hp (hpq ▸ hq)

/-! ## Many choices -/

theorem foldl_of_mem_nan (h : .nan ∈ x :: xs) : xs.foldl c.choose x = .nan := by
  induction xs generalizing x with
  | nil => exact (List.mem_singleton.1 h).symm
  | cons y ys ih =>
    rw [List.foldl_cons]
    refine ih ?_
    simp only [List.mem_cons] at h ⊢
    rcases h with rfl | rfl | h
    · exact .inl (choose_nan_left c y).symm
    · exact .inl (choose_nan_right c x).symm
    · exact .inr h

/-- What is chosen in the end is one of the numbers, and none of them is better. -/
theorem foldl_best (h : ∀ y ∈ x :: xs, y.isNaN = false) :
    xs.foldl c.choose x ∈ x :: xs ∧ ∀ y ∈ x :: xs, c.rank y ≤ c.rank (xs.foldl c.choose x) := by
  induction xs generalizing x with
  | nil => simp
  | cons y ys ih =>
    simp only [List.forall_mem_cons] at h ih ⊢
    obtain ⟨hx, hy, hys⟩ := h
    rw [List.foldl_cons, choose_eq hx hy]
    split
    · next hlt =>
      obtain ⟨hmem, hrank, hbest⟩ := ih ⟨hy, hys⟩
      exact ⟨List.mem_cons_of_mem x hmem, by omega, hrank, hbest⟩
    · next hle =>
      obtain ⟨hmem, hrank, hbest⟩ := ih ⟨hx, hys⟩
      refine ⟨?_, hrank, by omega, hbest⟩
      simp only [List.mem_cons] at hmem ⊢
      tauto

/-- If a zero is among numbers and nothing better is, the first zero is chosen. -/
theorem find?_isZero (hnumbers : ∀ y ∈ x :: xs, y.isNaN = false)
    (hbest : ∀ y ∈ x :: xs, c.rank y ≤ 0) (hzero : ∃ y ∈ x :: xs, y.isZero = true) :
    (x :: xs).find? Binary64.isZero = some (xs.foldl c.choose x) := by
  induction xs generalizing x with
  | nil => simp_all
  | cons y ys ih =>
    simp only [List.forall_mem_cons, List.exists_mem_cons_iff] at hnumbers hbest hzero ih
    obtain ⟨hx, hy, hys⟩ := hnumbers
    obtain ⟨hxbest, hybest, hysbest⟩ := hbest
    rw [List.foldl_cons, choose_eq hx hy]
    split
    · next hlt =>
      have hnot : x.isZero = false := by
        rw [← Bool.not_eq_true, isZero_iff_rank (c := c) hx]
        omega
      rw [List.find?_cons_of_neg (by simp [hnot])]
      exact ih ⟨hy, hys⟩ ⟨hybest, hysbest⟩ (hzero.resolve_left (by simp [hnot]))
    · next hle =>
      have himp : y.isZero = true → x.isZero = true := by
        rw [isZero_iff_rank (c := c) hx, isZero_iff_rank (c := c) hy]
        omega
      have hskip : (x :: y :: ys).find? Binary64.isZero = (x :: ys).find? Binary64.isZero := by
        cases hz : x.isZero with
        | true => rw [List.find?_cons_of_pos hz, List.find?_cons_of_pos hz]
        | false =>
          have hyz : ¬ y.isZero = true := fun h => absurd (himp h) (by simp [hz])
          rw [List.find?_cons_of_neg (by simp [hz]), List.find?_cons_of_neg hyz,
            List.find?_cons_of_neg (by simp [hz])]
      rw [hskip]
      exact ih ⟨hx, hys⟩ ⟨hxbest, hysbest⟩ (by tauto)

/-! ## Other orders -/

/-- Zeros of both signs are among numbers, and nothing else of them is better. -/
structure Tied (c : Comparison) (xs : List Binary64) : Prop where
  zeros : ∀ s, zero s ∈ xs
  numbers : ∀ x ∈ xs, x.isNaN = false
  best : ∀ x ∈ xs, c.rank x ≤ 0

theorem rank_zero (c : Comparison) (s : Bool) : c.rank (zero s) = 0 := by
  cases c <;> cases s <;> rfl

/-- The first zero is chosen of numbers that are tied. -/
theorem Tied.find?_isZero (h : c.Tied (x :: xs)) :
    (x :: xs).find? Binary64.isZero = some (xs.foldl c.choose x) :=
  Comparison.find?_isZero h.numbers h.best ⟨_, h.zeros false, rfl⟩

theorem Tied.perm (h : c.Tied xs) (hperm : ys.Perm xs) : c.Tied ys where
  zeros s := hperm.mem_iff.2 (h.zeros s)
  numbers y hy := h.numbers y (hperm.mem_iff.1 hy)
  best y hy := h.best y (hperm.mem_iff.1 hy)

/-- A zero of either sign is chosen in an order that it begins. -/
theorem Tied.exists_perm (h : c.Tied xs) (s : Bool) :
    ∃ ys, (zero s :: ys).Perm xs ∧ ys.foldl c.choose (zero s) = zero s := by
  have hperm : (zero s :: xs.erase (zero s)).Perm xs := (List.perm_cons_erase (h.zeros s)).symm
  exact ⟨_, hperm, (Option.some.inj (h.perm hperm).find?_isZero).symm⟩

/-- Two choices are of one rank, and so differ only if they are zeros. -/
theorem foldl_perm (h : (y :: ys).Perm (x :: xs)) :
    ys.foldl c.choose y = xs.foldl c.choose x ∨ c.Tied (x :: xs) := by
  by_cases hnan : .nan ∈ x :: xs
  · rw [foldl_of_mem_nan hnan, foldl_of_mem_nan (h.mem_iff.2 hnan)]
    exact .inl rfl
  · have hxs : ∀ z ∈ x :: xs, z.isNaN = false := by
      intro z hz
      cases z with
      | nan => exact absurd hz hnan
      | infinite | finite => rfl
    obtain ⟨hx, hxbest⟩ := foldl_best (c := c) hxs
    obtain ⟨hy, hybest⟩ := foldl_best (c := c) fun z hz => hxs z (h.mem_iff.1 hz)
    have hy := h.mem_iff.1 hy
    have hrank := Int.le_antisymm (hxbest _ hy) (hybest _ (h.mem_iff.2 hx))
    refine (eq_or_zeros_of_rank (hxs _ hy) (hxs _ hx) hrank).imp_right ?_
    rintro ⟨s, hys, hxs'⟩
    refine ⟨fun t => ?_, hxs, fun z hz => ?_⟩
    · rcases Bool.eq_or_eq_not t s with rfl | rfl
      · exact hys ▸ hy
      · exact hxs' ▸ hx
    · rw [← rank_zero c (!s), ← hxs']
      exact hxbest z hz

theorem foldl_order_iff :
    (∀ y ys, (y :: ys).Perm (x :: xs) → ys.foldl c.choose y = xs.foldl c.choose x) ↔
      ¬ c.Tied (x :: xs) := by
  constructor
  · intro h htied
    obtain ⟨ys, hys, hfalse⟩ := htied.exists_perm false
    obtain ⟨zs, hzs, htrue⟩ := htied.exists_perm true
    have heq : zero false = zero true := by
      rw [← hfalse, ← htrue, h _ _ hys, h _ _ hzs]
    exact absurd heq (by decide)
  · intro hnot y ys h
    exact (foldl_perm h).resolve_right hnot

theorem tied_pair_iff : c.Tied [x, y] ↔ ∃ s, x = zero s ∧ y = zero (!s) := by
  constructor
  · intro h
    have hfalse := h.zeros false
    have htrue := h.zeros true
    simp only [List.mem_cons, List.not_mem_nil, or_false] at hfalse htrue
    rcases hfalse with rfl | rfl
    · exact ⟨false, rfl, (htrue.resolve_left (by decide)).symm⟩
    · exact ⟨true, (htrue.resolve_right (by decide)).symm, rfl⟩
  · rintro ⟨s, rfl, rfl⟩
    refine ⟨fun t => ?_, ?_, ?_⟩
    · cases s <;> cases t <;> decide
    · simp [zero, Binary64.isNaN]
    · simp [rank_zero]

theorem choose_comm_iff :
    c.choose x y = c.choose y x ↔ ¬ ∃ s, x = zero s ∧ y = zero (!s) := by
  constructor
  · rintro h ⟨s, rfl, rfl⟩
    revert h
    cases c <;> cases s <;> decide
  · intro hnot
    rw [← tied_pair_iff (c := c), ← foldl_order_iff] at hnot
    exact (hnot y [x] (List.Perm.swap x y [])).symm

end Comparison

/-! ## Powers that are zero -/

theorem Binary64.isZero_zero (s : Bool) : (zero s).isZero = true := rfl

theorem Binary64.equal_zeros (s t : Bool) : (zero s).equal (zero t) = true := by
  simp [equal, place?, zero, signed_zero]

theorem Binary64.exists_zero_of_isZero {x : Binary64} (h : x.isZero = true) : ∃ s, x = .zero s := by
  cases x with
  | nan | infinite => cases h
  | finite s n hn =>
    obtain rfl : n = 0 := by simpa [isZero] using h
    exact ⟨s, rfl⟩

/-- A datum that equals the integer zero is false or a zero. -/
theorem Datum.eq_of_same_zero {d : Datum} (h : d.same (.int 0) = true) :
    d = .bool false ∨ d = .int 0 ∨ ∃ s, d = .float (.zero s) := by
  cases d with
  | bool b => cases b <;> simp_all [same, text?, sameNumber, integer?]
  | int i => simp_all
  | float x =>
    have hx : x.isZero = true := by
      rw [← Scalar.equalInt_zero]
      simpa [same, text?, sameNumber, integer?] using h
    obtain ⟨s, rfl⟩ := Binary64.exists_zero_of_isZero hx
    exact .inr (.inr ⟨s, rfl⟩)
  | _ => simp [same, text?, sameNumber, integer?] at h

theorem Power.same_of_isInt_zero {p q : Power} (hp : p.isInt 0 = true) (hq : q.isInt 0 = true) :
    p.same q = true := by
  cases p with
  | items xs => cases hp
  | single d =>
    cases q with
    | items ys => cases hq
    | single e =>
      rcases Datum.eq_of_same_zero hp with rfl | rfl | ⟨s, rfl⟩ <;>
        rcases Datum.eq_of_same_zero hq with rfl | rfl | ⟨t, rfl⟩ <;>
        simp [same, Datum.same, Datum.text?, Datum.sameNumber, Datum.integer?,
          Scalar.equalInt_zero, Binary64.isZero_zero, Binary64.equal_zeros]

theorem Quantity.pick_of_powers {q r : Quantity} (hq : q.hasPower 0 = true)
    (hr : r.hasPower 0 = true) (c : Comparison) :
    q.pick c (.quantity r) = .ok (c.choose q.value r.value) := by
  have hsame : q.power.same r.power = true := Power.same_of_isInt_zero hq hr
  cases c <;> simp [pick, max, min, compare, hsame, hq, Comparison.choose]

/-! ## Any order -/

namespace Session

open Binary64 (zero ofInt)

/-- The number chosen of several is the same in every order exactly if zeros of both signs are not
tied for the best one, and if they are it is the first zero. Two quantities of power zero are chosen
from in the same way, and their order matters only if they are such zeros. -/
theorem extremum_order_free_iff (c : Comparison) :
    (∀ x y, (c.formula (.float x) (.float y)).value = .ok (.float (c.choose x y))) ∧
      (∀ x xs, (∀ y ys, (y :: ys).Perm (x :: xs) → ys.foldl c.choose y = xs.foldl c.choose x) ↔
        ¬ c.Tied (x :: xs)) ∧
      (∀ x xs, c.Tied (x :: xs) →
        (x :: xs).find? Binary64.isZero = some (xs.foldl c.choose x)) ∧
      ∀ (s : Session) (registry : Except Fault Registry) (n m : String) (q r : Quantity),
        s.get? n = some q → s.get? m = some r → q.hasPower 0 = true → r.hasPower 0 = true →
        let answer (a b : String) := (s.step registry (.compare a c (.named b))).1
        answer n m = .ok (.datum (.float (c.choose q.value r.value))) ∧
          (answer n m = answer m n ↔ ¬ ∃ z, q.value = zero z ∧ r.value = zero (!z)) := by
  refine ⟨c.value_formula, fun x xs => Comparison.foldl_order_iff, fun x xs h => h.find?_isZero, ?_⟩
  · intro s registry n m q r hn hm hq hr answer
    have hnm : answer n m = .ok (.datum (.float (c.choose q.value r.value))) := by
      show (s.step registry (.compare n c (.named m))).1 = _
      rw [answer_compare hn (operand_named hm), Quantity.pick_of_powers hq hr]
      rfl
    have hmn : answer m n = .ok (.datum (.float (c.choose r.value q.value))) := by
      show (s.step registry (.compare m c (.named n))).1 = _
      rw [answer_compare hm (operand_named hn), Quantity.pick_of_powers hr hq]
      rfl
    refine ⟨hnm, ?_⟩
    rw [hnm, hmn, ← Comparison.choose_comm_iff (c := c)]
    simp

/-- Two numbers `a` and `b`. -/
def numbers (x y : Binary64) : List Request :=
  [.make (.ofKind .number (.datum (.int 0)) (.datum (.float x)) none) "a",
    .make (.ofKind .number (.datum (.int 0)) (.datum (.float y)) none) "b"].map
      fun action => ⟨.ok .empty, action⟩

def number (x : Binary64) : Quantity := .ofParts (.int 0) x .number 0 .none

theorem get?_numbers (x y : Binary64) :
    (after empty (numbers x y)).get? "a" = some (number x) ∧
      (after empty (numbers x y)).get? "b" = some (number y) := ⟨rfl, rfl⟩

theorem value_number (x : Binary64) : (number x).value = x := rfl

theorem hasPower_number (x : Binary64) : (number x).hasPower 0 = true := rfl

/-- Zeros of both signs are tied for the least of three numbers, but not for the greatest. -/
theorem extremum_order_free_below_one :
    let s := after empty (numbers (ofInt 1) (zero true))
    let answer (a b : String) := (s.step (.ok .empty) (.compare a .max (.named b))).1
    [zero true, ofInt 1, zero false].Perm [zero false, zero true, ofInt 1] ∧
      [ofInt 1, zero false].foldl (Comparison.choose .max) (zero true)
        = [zero true, ofInt 1].foldl (Comparison.choose .max) (zero false) ∧
      Comparison.min.Tied [ofInt 1, zero true, zero false] ∧
      [zero true, zero false].foldl (Comparison.choose .min) (ofInt 1) = zero true ∧
      (∃ q r, s.get? "a" = some q ∧ s.get? "b" = some r ∧ q.hasPower 0 = true ∧
        r.hasPower 0 = true) ∧
      answer "a" "b" = .ok (.datum (.float (ofInt 1))) ∧ answer "a" "b" = answer "b" "a" := by
  intro s answer
  have hperm : [zero true, ofInt 1, zero false].Perm [zero false, zero true, ofInt 1] := by
    decide +kernel
  have hnot : ¬ Comparison.max.Tied [zero false, zero true, ofInt 1] := by
    intro h
    exact absurd (h.best (ofInt 1) (by simp)) (by decide +kernel)
  have htied : Comparison.min.Tied [ofInt 1, zero true, zero false] :=
    ⟨by decide +kernel, by decide +kernel, by decide +kernel⟩
  have hfirst : [ofInt 1, zero true, zero false].find? Binary64.isZero = some (zero true) := by
    decide +kernel
  have hmin := (extremum_order_free_iff .min).2.2.1 _ _ htied
  obtain ⟨ha, hb⟩ := get?_numbers (ofInt 1) (zero true)
  have hq := hasPower_number (ofInt 1)
  have hr := hasPower_number (zero true)
  obtain ⟨hanswer, hsame⟩ :=
    (extremum_order_free_iff .max).2.2.2 s (.ok .empty) "a" "b" _ _ ha hb hq hr
  have hone : Comparison.choose .max (ofInt 1) (zero true) = ofInt 1 := by decide +kernel
  have hne : ∀ z, ofInt 1 ≠ zero z := by decide +kernel
  refine ⟨hperm, ((extremum_order_free_iff .max).2.1 _ _).2 hnot _ _ hperm, htied,
    Option.some.inj (hmin.symm.trans hfirst), ⟨_, _, ha, hb, hq, hr⟩, ?_, ?_⟩
  · rw [value_number, value_number, hone] at hanswer
    exact hanswer
  · refine hsame.2 ?_
    rw [value_number]
    exact fun ⟨z, hz, _⟩ => hne z hz

/-- Of two zeros the first one is chosen. -/
theorem not_extremum_order_free :
    let s := after empty (numbers (zero false) (zero true))
    let answer (a : String) (c : Comparison) (b : String) :=
      (s.step (.ok .empty) (.compare a c (.named b))).1
    [zero true, zero false].Perm [zero false, zero true] ∧
      [zero false].foldl Scalar.max (zero true) ≠ [zero true].foldl Scalar.max (zero false) ∧
      [zero false].foldl Scalar.min (zero true) ≠ [zero true].foldl Scalar.min (zero false) ∧
      answer "a" .max "b" ≠ answer "b" .max "a" ∧ answer "a" .min "b" ≠ answer "b" .min "a" := by
  intro s answer
  have hne : (.ok (.datum (.float (zero false))) : Except Fault Answer)
      ≠ .ok (.datum (.float (zero true))) := by
    intro h
    exact absurd (Datum.float.inj (Answer.datum.inj (Except.ok.inj h))) (by decide)
  have hmax : answer "a" .max "b" = .ok (.datum (.float (zero false))) := rfl
  have hmax' : answer "b" .max "a" = .ok (.datum (.float (zero true))) := rfl
  have hmin : answer "a" .min "b" = .ok (.datum (.float (zero false))) := rfl
  have hmin' : answer "b" .min "a" = .ok (.datum (.float (zero true))) := rfl
  rw [hmax, hmax', hmin, hmin']
  exact ⟨List.Perm.swap _ _ _, by decide +kernel, by decide +kernel, hne, hne⟩

end Session

end Measures
