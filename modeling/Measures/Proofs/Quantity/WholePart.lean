import Measures.Proofs.Quantity.Round

/-!
# Integers next to a number

The integers on both sides of a finite number are numbers themselves, however large they are. So
neither of them is rounded when it is converted back, and the nearest integer is one of the two.
-/

namespace Measures

namespace Binary64

variable {x y : Binary64} {i : ℤ}

/-! ## Integers that are numbers -/

/-- An integer is converted to a number, and the number is this integer. -/
structure Represents (x : Binary64) (i : ℤ) : Prop where
  converted : ofInt? i = some x
  exact : x.toRat = i

theorem represents_ofInt (h : Fits (i.natAbs * one)) : (ofInt i).Represents i :=
  ⟨ofInt?_of_fits h, Scalar.toRat_ofInt h⟩

theorem Represents.isFinite (h : x.Represents i) : x.isFinite = true := by
  have hx := h.converted
  unfold ofInt? at hx
  split at hx
  · next hfinite => exact Option.some.inj hx ▸ hfinite
  · cases hx

theorem lessEq_iff (hx : x.isFinite = true) (hy : y.isFinite = true) :
    x.lessEq y = true ↔ x.toRat ≤ y.toRat := by
  obtain ⟨s, m, hm, rfl⟩ := exists_of_isFinite hx
  obtain ⟨t, n, hn, rfl⟩ := exists_of_isFinite hy
  rw [toRat_finite, toRat_finite, div_le_div_iff_of_pos_right one_pos_rat, Int.cast_le]
  exact decide_eq_true_iff

/-! ## Both sides of a number -/

theorem floor?_eq (hx : x.isFinite = true) : x.floor? = some ⌊x.toRat⌋ := by
  obtain ⟨s, n, hn, rfl⟩ := exists_of_isFinite hx
  rw [floor?_finite, toRat_finite, Rat.floor_intCast_div_natCast]

theorem ceil?_eq (hx : x.isFinite = true) : x.ceil? = some ⌈x.toRat⌉ := by
  obtain ⟨s, n, hn, rfl⟩ := exists_of_isFinite hx
  have hceil : (finite s n hn).ceil? = (finite s n hn).neg.floor?.map (- ·) := rfl
  rw [hceil, floor?_eq rfl, toRat_neg, Int.floor_neg, Option.map_some, Int.neg_neg]

/-- A number is whole, or it is small and so are the integers next to it. -/
theorem whole_or_small (hx : x.isFinite = true) :
    (∃ k : ℤ, x.toRat = k ∧ Fits (k.natAbs * one)) ∨
      -(wholeBound : ℤ) ≤ ⌊x.toRat⌋ ∧ ⌈x.toRat⌉ ≤ wholeBound := by
  obtain ⟨s, n, hn, rfl⟩ := exists_of_isFinite hx
  by_cases hone : one ∣ n
  · refine .inl ⟨signed s (n / one), ?_, ?_⟩
    · rw [toRat_finite, div_eq_iff one_pos_rat.ne', ← Int.cast_natCast, ← Int.cast_mul,
        ← signed_mul, Nat.div_mul_cancel hone]
    · rw [natAbs_signed, Nat.div_mul_cancel hone]
      exact hn
  · have hbounds := ediv_bounds s hn hone
    rw [← Rat.floor_intCast_div_natCast, ← toRat_finite s hn] at hbounds
    have hnext := Int.ceil_le_floor_add_one (finite s n hn).toRat
    exact .inr (by omega)

theorem represents_next (hx : x.isFinite = true) (h : i = ⌊x.toRat⌋ ∨ i = ⌈x.toRat⌉) :
    (ofInt i).Represents i := by
  apply represents_ofInt
  rcases whole_or_small hx with ⟨k, hk, hfits⟩ | ⟨hlow, hhigh⟩
  · have hi : i = k := by simpa [hk] using h
    rw [hi]
    exact hfits
  · have hle := Int.floor_le_ceil x.toRat
    exact fits_small (by omega)

theorem nearestLong_eq (hx : x.isFinite = true) (hlow : -2 ^ 63 ≤ x.toRat)
    (hhigh : x.toRat ≤ 2 ^ 63 - 1) : x.nearestLong = ⌊x.toRat + 1 / 2⌋ := by
  obtain ⟨s, n, hn, rfl⟩ := exists_of_isFinite hx
  have hge : -2 ^ 63 ≤ ⌊(finite s n hn).toRat + 1 / 2⌋ := by
    rw [Int.le_floor]
    push_cast
    linarith
  have hlt : ⌊(finite s n hn).toRat + 1 / 2⌋ < 2 ^ 63 := by
    rw [Int.floor_lt]
    push_cast
    linarith
  change max (-2 ^ 63) (min _ (2 ^ 63 - 1)) = _
  omega

theorem floor_le_nearest (r : ℚ) : ⌊r⌋ ≤ ⌊r + 1 / 2⌋ := Int.floor_mono (by linarith)

theorem nearest_le_ceil (r : ℚ) : ⌊r + 1 / 2⌋ ≤ ⌈r⌉ := by
  have hceil := Int.le_ceil r
  rw [← Int.lt_add_one_iff, Int.floor_lt]
  push_cast
  linarith

end Binary64

open Binary64 Scalar

namespace Quantity

variable {q : Quantity} {i : ℤ}

theorem requirePowerZero_eq (hq : q.hasPower 0 = true) (function : String) :
    q.requirePowerZero function = .ok () := if_pos hq

theorem floor_of_integer (hq : q.hasPower 0 = true) (hi : q.value.floor? = some i) :
    q.floor = .ok (ofInt i) := by
  unfold Quantity.floor
  rw [requirePowerZero_eq hq, hi, Option.map_some, Option.getD_some]
  rfl

theorem ceiling_of_integer (hq : q.hasPower 0 = true) (hi : q.value.ceil? = some i) :
    q.ceiling = .ok (ofInt i) := by
  unfold Quantity.ceiling
  rw [requirePowerZero_eq hq, hi, Option.map_some, Option.getD_some]
  rfl

theorem round_of_power (hq : q.hasPower 0 = true) : q.round = .ok q.value.nearestLong := by
  unfold Quantity.round
  rw [requirePowerZero_eq hq]
  exact congrArg Except.ok (nearest_or_saturate q.value)

/-- What the two functions give for a number, with all that happens on the way: the integers are the
ones next to the number, and both are converted back as they are. -/
structure WholeParts (q : Quantity) (low high : Binary64) : Prop where
  floor : q.floor = .ok low
  floorGuarded : Guarded.floor q.value = .ok low
  floorInteger : q.value.floor? = some ⌊q.value.toRat⌋
  low : low.Represents ⌊q.value.toRat⌋
  ceiling : q.ceiling = .ok high
  ceilingGuarded : Guarded.ceiling q.value = .ok high
  ceilingInteger : q.value.ceil? = some ⌈q.value.toRat⌉
  high : high.Represents ⌈q.value.toRat⌉

theorem wholeParts_ofInt (hq : q.hasPower 0 = true) (hx : q.value.isFinite = true) :
    q.WholeParts (ofInt ⌊q.value.toRat⌋) (ofInt ⌈q.value.toRat⌉) where
  floor := floor_of_integer hq (floor?_eq hx)
  floorGuarded := by
    rw [Guarded.floor_eq, floor?_eq hx, Option.map_some, Option.getD_some]
  floorInteger := floor?_eq hx
  low := represents_next hx (.inl rfl)
  ceiling := ceiling_of_integer hq (ceil?_eq hx)
  ceilingGuarded := by
    rw [Guarded.ceiling_eq, ceil?_eq hx, Option.map_some, Option.getD_some]
  ceilingInteger := ceil?_eq hx
  high := represents_next hx (.inr rfl)

theorem WholeParts.bounds {low high : Binary64} (h : q.WholeParts low high)
    (hx : q.value.isFinite = true) :
    low.lessEq q.value = true ∧ q.value.lessEq high = true := by
  rw [lessEq_iff h.low.isFinite hx, lessEq_iff hx h.high.isFinite, h.low.exact, h.high.exact]
  exact ⟨Int.floor_le _, Int.le_ceil _⟩

theorem WholeParts.apart {low high : Binary64} (h : q.WholeParts low high) :
    high.toRat - low.toRat = 0 ∨ high.toRat - low.toRat = 1 := by
  have hle := Int.floor_le_ceil q.value.toRat
  have hnext := Int.ceil_le_floor_add_one q.value.toRat
  rw [h.low.exact, h.high.exact]
  norm_cast
  omega

/-- A number without its fraction, downwards and upwards: of power zero every quantity has both, and
they are exact numbers on its two sides, with the nearest integer between them. What is not finite
stays as it is. -/
theorem whole_parts (q : Quantity) (hq : q.hasPower 0 = true) :
    (q.value.isFinite = true → ∃ low high, q.WholeParts low high ∧
      low.lessEq q.value = true ∧ q.value.lessEq high = true ∧
      (high.toRat - low.toRat = 0 ∨ high.toRat - low.toRat = 1) ∧
      (-2 ^ 63 ≤ q.value.toRat → q.value.toRat ≤ 2 ^ 63 - 1 →
        ∃ i : ℤ, q.round = .ok i ∧ low.toRat ≤ i ∧ i ≤ high.toRat)) ∧
    (q.value.isFinite = false → q.floor = .ok q.value ∧ q.ceiling = .ok q.value) := by
  constructor
  · intro hx
    have h := wholeParts_ofInt hq hx
    refine ⟨_, _, h, (h.bounds hx).1, (h.bounds hx).2, h.apart, fun hlow hhigh => ?_⟩
    refine ⟨⌊q.value.toRat + 1 / 2⌋, ?_, ?_, ?_⟩
    · rw [round_of_power hq, nearestLong_eq hx hlow hhigh]
    · rw [h.low.exact, Int.cast_le]
      exact floor_le_nearest _
    · rw [h.high.exact, Int.cast_le]
      exact nearest_le_ceil _
  · intro hx
    unfold Quantity.floor Quantity.ceiling
    rw [requirePowerZero_eq hq, requirePowerZero_eq hq, Guarded.floor?_of_not_finite hx,
      Guarded.ceil?_of_not_finite hx]
    exact ⟨rfl, rfl⟩

/-- Minus two and a half lies between two integers, the greatest number is one of over 300 digits,
and an infinity is none. -/
theorem whole_parts_halves :
    let q := ofParts (.int 0) (.ofDecimal true [2, 5] (-1)) .number 0 .none
    let huge := ofParts (.int 0) (.ofBits 0x7fefffffffffffff) .percentage 0 .none
    let endless := ofParts (.int 0) (.infinite true) .number 0 .none
    q.hasPower 0 = true ∧ q.value.isFinite = true ∧
      -2 ^ 63 ≤ q.value.toRat ∧ q.value.toRat ≤ 2 ^ 63 - 1 ∧
      (∃ low high, low.Represents (-3) ∧ high.Represents (-2) ∧ q.floor = .ok low ∧
        q.ceiling = .ok high ∧ ∃ i : ℤ, q.round = .ok i ∧ low.toRat ≤ i ∧ i ≤ high.toRat) ∧
      huge.hasPower 0 = true ∧ huge.value.isFinite = true ∧
      (∃ low high, huge.WholeParts low high ∧ 10 ^ 308 < low.toRat) ∧
      endless.hasPower 0 = true ∧ endless.value.isFinite = false ∧
      endless.floor = .ok endless.value := by
  intro q huge endless
  have hq : q.value.toRat = -5 / 2 := by decide +kernel
  have hfloor : ⌊(-5 / 2 : ℚ)⌋ = -3 := by decide +kernel
  have hceil : ⌈(-5 / 2 : ℚ)⌉ = -2 := by decide +kernel
  have hfinite : q.value.isFinite = true := by decide +kernel
  have hhuge : huge.value.isFinite = true := by decide +kernel
  have hlarge : (10 : ℚ) ^ 308 < ⌊huge.value.toRat⌋ := by decide +kernel
  obtain ⟨low, high, h, -, -, -, hround⟩ := (whole_parts q rfl).1 hfinite
  have hlow := h.low
  have hhigh := h.high
  rw [hq] at hround hlow hhigh
  rw [hfloor] at hlow
  rw [hceil] at hhigh
  obtain ⟨low', high', h', -⟩ := (whole_parts huge rfl).1 hhuge
  rw [← h'.low.exact] at hlarge
  refine ⟨rfl, hfinite, ?_, ?_, ⟨low, high, hlow, hhigh, h.floor, h.ceiling, ?_⟩, rfl, hhuge,
    ⟨low', high', h', hlarge⟩, rfl, rfl, ((whole_parts endless rfl).2 rfl).1⟩
  · rw [hq]
    norm_num
  · rw [hq]
    norm_num
  · exact hround (by norm_num) (by norm_num)

end Quantity

end Measures
