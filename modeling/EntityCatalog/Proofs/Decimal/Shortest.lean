import EntityCatalog.Decimal.Shortest
import Mathlib.Algebra.Order.Field.Power
import Mathlib.Data.Rat.Cast.Order
import Mathlib.Tactic.FieldSimp
import Mathlib.Tactic.Linarith
import Mathlib.Tactic.NormNum
import Mathlib.Tactic.Positivity
import Mathlib.Tactic.Ring

/-!
# Shortest decimals as numbers

The search for a shortest decimal compares natural numbers.  Here its outcome
is read as a rational number: the shortest decimal of a double lies in the
interval of the double (`contains_shortest`), since seventeen digits are
always enough.  The intervals of different doubles have no number in common
(`Double.eq_of_contains`), so the shortest decimal determines the double.
-/

namespace EntityCatalog.Decimal

/-! ## Numbers -/

/-- The number that a decimal stands for. -/
def value (decimal : Decimal) : ℚ :=
  decimal.coefficient * 10 ^ decimal.power

theorem pow_toNat {base : ℚ} (nonzero : base ≠ 0) (power : Int) :
    base ^ power.toNat = base ^ power * base ^ (-power).toNat := by
  rw [← zpow_natCast, ← zpow_natCast, ← zpow_add₀ nonzero]
  congr 1
  omega

/-- Both sides of a comparison have a common positive factor, which makes them
natural numbers. -/
theorem exists_scale (left : Nat) (binary : Int) (right : Nat) (decimal : Int) :
    ∃ scale : ℚ, 0 < scale ∧
      ((left * Nat.pow 2 binary.toNat * Nat.pow 10 (-decimal).toNat : Nat) : ℚ) =
        left * 2 ^ binary * scale ∧
      ((right * Nat.pow 10 decimal.toNat * Nat.pow 2 (-binary).toNat : Nat) : ℚ) =
        right * 10 ^ decimal * scale := by
  have two : (2 : ℚ) ^ binary.toNat = _ := pow_toNat (by norm_num) binary
  have ten : (10 : ℚ) ^ decimal.toNat = _ := pow_toNat (by norm_num) decimal
  refine ⟨2 ^ (-binary).toNat * 10 ^ (-decimal).toNat, by positivity, ?_, ?_⟩
  · simp only [Nat.pow_eq, Nat.cast_mul, Nat.cast_pow, Nat.cast_ofNat, two]
    ring
  · simp only [Nat.pow_eq, Nat.cast_mul, Nat.cast_pow, Nat.cast_ofNat, ten]
    ring

theorem compareScaled_eq_lt {left right : Nat} {binary decimal : Int} :
    compareScaled left binary right decimal = .lt ↔
      (left * 2 ^ binary : ℚ) < right * 10 ^ decimal := by
  rcases exists_scale left binary right decimal with
    ⟨scale, positive, low, high⟩
  rw [compareScaled, Nat.compare_eq_lt, ← @Nat.cast_lt ℚ, low, high,
    mul_lt_mul_iff_of_pos_right positive]

theorem compareScaled_eq_eq {left right : Nat} {binary decimal : Int} :
    compareScaled left binary right decimal = .eq ↔
      (left * 2 ^ binary : ℚ) = right * 10 ^ decimal := by
  rcases exists_scale left binary right decimal with
    ⟨scale, positive, low, high⟩
  rw [compareScaled, Nat.compare_eq_eq, ← @Nat.cast_inj ℚ, low, high,
    mul_left_inj' positive.ne']

theorem compareScaled_eq_gt {left right : Nat} {binary decimal : Int} :
    compareScaled left binary right decimal = .gt ↔
      (right * 10 ^ decimal : ℚ) < left * 2 ^ binary := by
  rcases exists_scale left binary right decimal with
    ⟨scale, positive, low, high⟩
  rw [compareScaled, Nat.compare_eq_gt, ← @Nat.cast_lt ℚ, low, high,
    mul_lt_mul_iff_of_pos_right positive]

/-! ## Intervals -/

namespace RoundingRange

variable (range : RoundingRange)

/-- The lower bound as a number. -/
def bottom : ℚ := range.lower * 2 ^ range.exponent

/-- The upper bound as a number. -/
def top : ℚ := range.upper * 2 ^ range.exponent

/-- Whether a number lies in the interval. -/
def Contains (number : ℚ) : Prop :=
  (range.bottom < number ∨ range.closed ∧ range.bottom = number) ∧
    (number < range.top ∨ range.closed ∧ range.top = number)

theorem holds_iff (decimal : Decimal) :
    range.holds decimal ↔ range.Contains decimal.value := by
  simp only [holds, Contains, bottom, top, value, Bool.and_eq_true,
    Bool.or_eq_true, decide_eq_true_eq, compareScaled_eq_lt,
    compareScaled_eq_eq, compareScaled_eq_gt]

variable {range}

theorem contains_of_between {number : ℚ} (above : range.bottom < number)
    (below : number < range.top) : range.Contains number :=
  ⟨Or.inl above, Or.inl below⟩

theorem Contains.bounds {number : ℚ} (contains : range.Contains number) :
    range.bottom ≤ number ∧ number ≤ range.top :=
  ⟨contains.1.elim le_of_lt fun closed => closed.2.le,
    contains.2.elim le_of_lt fun closed => closed.2.ge⟩

end RoundingRange

/-- Below a power of two the interval of a double is shorter. -/
theorem lower_roundingRange (significand : Nat) (exponent : Int) :
    (roundingRange significand exponent).lower =
      if significand = 2 ^ 52 ∧ -1074 < exponent then 4 * significand - 1
      else 4 * significand - 2 :=
  rfl

/-- The significand and the exponent of a double that is not zero. -/
structure Double (significand : Nat) (exponent : Int) : Prop where
  positive : 0 < significand
  small : significand < 2 ^ 53
  low : -1074 ≤ exponent
  normal : 2 ^ 52 ≤ significand ∨ exponent = -1074

namespace Double

variable {significand other : Nat} {exponent power : Int}

/-- What lies in the interval of a double is positive. -/
theorem pos_of_contains (double : Double significand exponent) {number : ℚ}
    (contains : (roundingRange significand exponent).Contains number) :
    0 < number := by
  have lower : 0 < (roundingRange significand exponent).lower := by
    have positive := double.positive
    rw [lower_roundingRange]
    split <;> omega
  have bottom : 0 < (roundingRange significand exponent).bottom :=
    mul_pos (by exact_mod_cast lower) (by positivity)
  exact bottom.trans_le contains.bounds.1

/-- The interval of a smaller double ends before that of a larger one starts;
where they touch, one of the two is open. -/
theorem exists_gap (double : Double significand exponent)
    (larger : Double other power)
    (less : exponent < power ∨ exponent = power ∧ significand < other) :
    ∃ units : Nat,
      (units * 2 ^ (exponent - 2) : ℚ) ≤ (roundingRange other power).bottom ∧
        4 * significand + 2 ≤ units ∧
        (significand % 2 = 0 → other % 2 = 0 → 4 * significand + 2 < units) := by
  have small := double.small
  have low := double.low
  rcases less with higher | ⟨rfl, less⟩
  · refine ⟨2 ^ 55 - 2, ?_, by omega, by omega⟩
    have normal : 2 ^ 52 ≤ other :=
      larger.normal.resolve_right fun lowest => by omega
    have lower : 2 ^ 54 - 1 ≤ (roundingRange other power).lower := by
      rw [lower_roundingRange]
      split <;> omega
    have scale : (2 : ℚ) ^ (exponent - 2) * 2 ≤ 2 ^ (power - 2) := by
      rw [← zpow_add_one₀ (by norm_num)]
      exact zpow_le_zpow_right₀ (by norm_num) (by omega)
    calc ((2 ^ 55 - 2 : Nat) * 2 ^ (exponent - 2) : ℚ)
      _ = (2 ^ 54 - 1 : Nat) * (2 ^ (exponent - 2) * 2) := by
          norm_num
          ring
      _ ≤ (roundingRange other power).lower * 2 ^ (power - 2) := by
          gcongr
  · refine ⟨(roundingRange other exponent).lower, le_rfl, ?_, ?_⟩
    all_goals
      rw [lower_roundingRange]
      split <;> omega

/-- No number lies in the intervals of two different doubles, the first of
them the smaller one. -/
theorem not_contains_of_lt (double : Double significand exponent)
    (larger : Double other power)
    (less : exponent < power ∨ exponent = power ∧ significand < other)
    {number : ℚ}
    (first : (roundingRange significand exponent).Contains number) :
    ¬(roundingRange other power).Contains number := by
  intro second
  rcases double.exists_gap larger less with ⟨units, after, enough, more⟩
  have positive : (0 : ℚ) < 2 ^ (exponent - 2) := by positivity
  have top : (roundingRange significand exponent).top =
      (4 * significand + 2 : Nat) * 2 ^ (exponent - 2) := rfl
  have ordered : (roundingRange significand exponent).top ≤
      units * 2 ^ (exponent - 2) := by
    rw [top]
    exact mul_le_mul_of_nonneg_right (by exact_mod_cast enough) positive.le
  -- The number is squeezed between the two bounds, so they are the same.
  rcases first.2 with below | ⟨closed, touches⟩
  · linarith [second.bounds.1]
  · rcases second.1 with above | ⟨alsoClosed, alsoTouches⟩
    · linarith
    · have strict := more (of_decide_eq_true closed) (of_decide_eq_true alsoClosed)
      have apart : (roundingRange significand exponent).top <
          units * 2 ^ (exponent - 2) := by
        rw [top]
        exact mul_lt_mul_of_pos_right (by exact_mod_cast strict) positive
      linarith

/-- A number lies in the interval of one double only. -/
theorem eq_of_contains (double : Double significand exponent)
    (second : Double other power) {number : ℚ}
    (here : (roundingRange significand exponent).Contains number)
    (there : (roundingRange other power).Contains number) :
    significand = other ∧ exponent = power := by
  rcases lt_trichotomy exponent power with lower | rfl | higher
  · exact absurd there (double.not_contains_of_lt second (.inl lower) here)
  · rcases lt_trichotomy significand other with less | rfl | more
    · exact absurd there
        (double.not_contains_of_lt second (.inr ⟨rfl, less⟩) here)
    · exact ⟨rfl, rfl⟩
    · exact absurd here
        (second.not_contains_of_lt double (.inr ⟨rfl, more⟩) there)
  · exact absurd here (second.not_contains_of_lt double (.inl higher) there)

end Double

/-! ## Grids -/

theorem ten_pow_pred_digitCount_le {number : Nat} (positive : 0 < number) :
    10 ^ (digitCount number - 1) ≤ number := by
  rcases Nat.eq_zero_or_pos (digitCount number - 1) with none | some
  · rw [none]
    omega
  · by_contra less
    have fewer := (Nat.length_toDigits_le_iff (by decide) some).mpr
      (Nat.lt_of_not_le less)
    rw [digitCount] at fewer some
    omega

theorem lt_ten_pow_digitCount (number : Nat) :
    number < 10 ^ digitCount number :=
  (Nat.length_toDigits_le_iff (by decide) Nat.length_toDigits_pos).mp le_rfl

/-- With as many zeros as digits are missing, and one more, a number exceeds
another. -/
theorem le_mul_ten_pow {number : Nat} (positive : 0 < number) (other : Nat) :
    other ≤ number * 10 ^ (digitCount other - digitCount number + 1) := by
  have first := ten_pow_pred_digitCount_le positive
  have digits : 0 < digitCount number := Nat.length_toDigits_pos
  calc other
    _ ≤ 10 ^ digitCount other := (lt_ten_pow_digitCount other).le
    _ ≤ 10 ^ (digitCount number - 1 +
          (digitCount other - digitCount number + 1)) :=
        Nat.pow_le_pow_right (by decide) (by omega)
    _ ≤ number * 10 ^ (digitCount other - digitCount number + 1) := by
        rw [Nat.pow_add]
        exact Nat.mul_le_mul_right _ first

/-- With fewer zeros than digits are missing, it stays below. -/
theorem mul_ten_pow_lt {number other places : Nat} (positive : 0 < other)
    (fewer : digitCount number + places < digitCount other) :
    number * 10 ^ places < other := by
  calc number * 10 ^ places
    _ < 10 ^ digitCount number * 10 ^ places :=
        Nat.mul_lt_mul_of_pos_right (lt_ten_pow_digitCount number)
          (Nat.pow_pos (by decide))
    _ = 10 ^ (digitCount number + places) := (Nat.pow_add ..).symm
    _ ≤ 10 ^ (digitCount other - 1) :=
        Nat.pow_le_pow_right (by decide) (by omega)
    _ ≤ other := ten_pow_pred_digitCount_le positive

/-- The first digit of a quotient does not stand above the place that is
found for it. -/
theorem ten_zpow_leadingPlace_le {numerator denominator : Nat}
    (positive : 0 < numerator) (above : 0 < denominator) :
    (10 : ℚ) ^ leadingPlace numerator denominator ≤ numerator / denominator := by
  have divisor : (0 : ℚ) < denominator := by exact_mod_cast above
  rw [le_div_iff₀ divisor, leadingPlace]
  split
  case isTrue whole =>
      have quotient : 0 < numerator / denominator := Nat.div_pos whole above
      have digits : 0 < digitCount (numerator / denominator) :=
        Nat.length_toDigits_pos
      have bound : 10 ^ (digitCount (numerator / denominator) - 1) *
          denominator ≤ numerator :=
        (Nat.le_div_iff_mul_le above).mp (ten_pow_pred_digitCount_le quotient)
      rw [show (digitCount (numerator / denominator) : Int) - 1 =
        (digitCount (numerator / denominator) - 1 : Nat) by omega, zpow_natCast]
      exact_mod_cast bound
  case isFalse fraction =>
      -- A power of ten that lifts the numerator to the denominator.
      have lifted (places : Nat)
          (enough : denominator ≤ numerator * 10 ^ places) :
          (10 : ℚ) ^ (-places : Int) * denominator ≤ numerator := by
        rw [zpow_neg, zpow_natCast, inv_mul_le_iff₀ (by positivity), mul_comm]
        exact_mod_cast enough
      dsimp only
      split
      case isTrue enough => exact lifted _ enough
      case isFalse short =>
          rw [← Int.natCast_succ]
          exact lifted _ (le_mul_ten_pow positive denominator)

/-- The first digit of a quotient does not stand below the place that is found
for it either. -/
theorem lt_ten_zpow_leadingPlace {numerator denominator : Nat}
    (above : 0 < denominator) :
    (numerator / denominator : ℚ) <
      10 ^ (leadingPlace numerator denominator + 1) := by
  have divisor : (0 : ℚ) < denominator := by exact_mod_cast above
  rw [div_lt_iff₀ divisor, leadingPlace]
  split
  case isTrue whole =>
      have bound : numerator <
          10 ^ digitCount (numerator / denominator) * denominator :=
        Nat.lt_mul_of_div_lt (lt_ten_pow_digitCount _) above
      rw [sub_add_cancel, zpow_natCast]
      exact_mod_cast bound
  case isFalse fraction =>
      -- A power of ten that keeps the numerator below the denominator.
      have kept (places : Nat) (below : numerator * 10 ^ places < denominator) :
          (numerator : ℚ) < 10 ^ (-places : Int) * denominator := by
        rw [zpow_neg, zpow_natCast, lt_inv_mul_iff₀ (by positivity), mul_comm]
        exact_mod_cast below
      dsimp only
      split
      case isFalse short =>
          rw [neg_add, neg_add_cancel_right]
          exact kept _ (Nat.lt_of_not_le short)
      case isTrue enough =>
          obtain ⟨places, here⟩ :
              ∃ places, digitCount denominator - digitCount numerator =
                places + 1 := by
            refine Nat.exists_eq_add_one_of_ne_zero fun none => ?_
            rw [none] at enough
            exact fraction (by simpa using enough)
          rw [here, Nat.cast_add_one, neg_add, neg_add_cancel_right]
          exact kept _ (mul_ten_pow_lt above (by omega))

section

variable {tie : Tie} {range : RoundingRange} {numerator denominator : Nat}
  {power : Int}

/-- What is taken from a grid lies on it and in the interval. -/
theorem holds_of_onGrid {decimal : Decimal}
    (found : onGrid tie range numerator denominator power = some decimal) :
    range.holds decimal = true ∧ decimal.power = power := by
  unfold onGrid at found
  dsimp only at found
  split at found
  case h_1 => cases found
  case h_2 below _ =>
      cases found
      exact ⟨(Bool.and_eq_true _ _ ▸ below).2, rfl⟩
  case h_3 above =>
      cases found
      exact ⟨above, rfl⟩
  case h_4 below above =>
      have both := (Bool.and_eq_true _ _ ▸ below).2
      split at found
      case h_1 => cases found; exact ⟨both, rfl⟩
      case h_2 => cases found; exact ⟨above, rfl⟩
      case h_3 =>
          cases tie with
          | up => cases found; exact ⟨above, rfl⟩
          | even =>
              cases found
              split
              · exact ⟨both, rfl⟩
              · exact ⟨above, rfl⟩

/-- The point of a grid that is not above a quotient. -/
def gridFloor (numerator denominator : Nat) (power : Int) : Nat :=
  numerator * Nat.pow 10 (-power).toNat / (denominator * Nat.pow 10 power.toNat)

theorem exists_onGrid
    (near : gridFloor numerator denominator power ≠ 0 ∧
        range.holds ⟨gridFloor numerator denominator power, power⟩ = true ∨
      range.holds ⟨gridFloor numerator denominator power + 1, power⟩ = true) :
    ∃ decimal, onGrid tie range numerator denominator power = some decimal := by
  cases outcome : onGrid tie range numerator denominator power with
  | some decimal => exact ⟨decimal, rfl⟩
  | none =>
      unfold onGrid at outcome
      dsimp only at outcome
      split at outcome
      case h_1 below above =>
          rcases near with ⟨some, holds⟩ | holds
          · simp [gridFloor] at some holds
            simp_all
          · exact absurd (holds.symm.trans above) (by decide)
      case h_2 => cases outcome
      case h_3 => cases outcome
      case h_4 =>
          split at outcome
          case h_3 => cases tie <;> cases outcome
          all_goals cases outcome

/-- A quotient lies between two neighbours of a grid. -/
theorem gridFloor_bounds (above : 0 < denominator) :
    (gridFloor numerator denominator power * 10 ^ power : ℚ) ≤
        numerator / denominator ∧
      (numerator / denominator : ℚ) <
        (gridFloor numerator denominator power + 1) * 10 ^ power := by
  have ten : (10 : ℚ) ^ power.toNat = _ := pow_toNat (by norm_num) power
  have divisor : (0 : ℚ) < denominator := by exact_mod_cast above
  have scale : (0 : ℚ) < 10 ^ (-power).toNat := by positivity
  have divides : 0 < denominator * 10 ^ power.toNat := by positivity
  have lower : (gridFloor numerator denominator power *
      (denominator * 10 ^ power.toNat) : ℚ) ≤
        numerator * 10 ^ (-power).toNat := by
    exact_mod_cast Nat.div_mul_le_self _ _
  have upper : (numerator * 10 ^ (-power).toNat : ℚ) <
      (gridFloor numerator denominator power + 1) *
        (denominator * 10 ^ power.toNat) := by
    exact_mod_cast Nat.lt_mul_of_div_lt (Nat.lt_succ_self _) divides
  rw [ten] at lower upper
  rw [le_div_iff₀ divisor, div_lt_iff₀ divisor]
  constructor
  · refine le_of_mul_le_mul_right ?_ scale
    calc _ = (gridFloor numerator denominator power *
            (denominator * (10 ^ power * 10 ^ (-power).toNat)) : ℚ) := by ring
      _ ≤ _ := lower
  · refine lt_of_mul_lt_mul_right ?_ scale.le
    calc _ < _ := upper
      _ = _ := by ring

end

/-! ## Seventeen digits -/

theorem quotient_eq (significand : Nat) (exponent : Int) :
    ((significand * Nat.pow 2 exponent.toNat : Nat) : ℚ) /
        (Nat.pow 2 (-exponent).toNat : Nat) = significand * 2 ^ exponent := by
  have two : (2 : ℚ) ^ exponent.toNat = _ := pow_toNat (by norm_num) exponent
  simp only [Nat.pow_eq, Nat.cast_mul, Nat.cast_pow, Nat.cast_ofNat, two]
  field_simp

namespace Double

variable {significand : Nat} {exponent : Int}

/-- On both sides of a double its interval is wider than half the spacing of
seventeen digits. -/
theorem margin (double : Double significand exponent) {spacing : ℚ}
    (fine : spacing * 10 ^ 16 ≤ significand * 2 ^ exponent) :
    (roundingRange significand exponent).bottom + spacing / 2 <
        significand * 2 ^ exponent ∧
      significand * 2 ^ exponent + spacing / 2 <
        (roundingRange significand exponent).top := by
  have unit : (0 : ℚ) < 2 ^ (exponent - 2) := by positivity
  have whole : (2 : ℚ) ^ exponent = 4 * 2 ^ (exponent - 2) := by
    rw [zpow_sub₀ (by norm_num)]
    norm_num
    ring
  have bottom : (roundingRange significand exponent).bottom =
      (roundingRange significand exponent).lower * 2 ^ (exponent - 2) := rfl
  have top : (roundingRange significand exponent).top =
      (4 * significand + 2 : Nat) * 2 ^ (exponent - 2) := rfl
  have small : (significand : ℚ) < 2 ^ 53 := by exact_mod_cast double.small
  have positive : (1 : ℚ) ≤ significand := by exact_mod_cast double.positive
  rw [bottom, top, whole, lower_roundingRange]
  rw [whole] at fine
  generalize (2 : ℚ) ^ (exponent - 2) = units at *
  have narrow : (significand : ℚ) * units < 2 ^ 53 * units :=
    mul_lt_mul_of_pos_right small unit
  constructor
  · split
    case isTrue shorter =>
        rw [shorter.1] at fine ⊢
        norm_num at fine ⊢
        linarith
    case isFalse =>
        have fits : 2 ≤ 4 * significand := by
          have := double.positive
          omega
        push_cast [Nat.cast_sub fits]
        linarith
  · push_cast
    linarith

/-- Seventeen digits are enough for a number in the interval. -/
theorem exists_seventeenth (double : Double significand exponent) (tie : Tie) :
    let numerator := significand * Nat.pow 2 exponent.toNat
    let denominator := Nat.pow 2 (-exponent).toNat
    ∃ decimal,
      onGrid tie (roundingRange significand exponent) numerator denominator
        (leadingPlace numerator denominator - (16 : Nat)) = some decimal := by
  intro numerator denominator
  have positive : 0 < numerator :=
    Nat.mul_pos double.positive (Nat.pow_pos (by decide))
  have above : 0 < denominator := Nat.pow_pos (by decide)
  have number : (numerator / denominator : ℚ) = significand * 2 ^ exponent :=
    quotient_eq significand exponent
  have leading := ten_zpow_leadingPlace_le positive above
  obtain ⟨place, here⟩ :
      ∃ place, place = leadingPlace numerator denominator - (16 : Nat) :=
    ⟨_, rfl⟩
  have spacing : (10 : ℚ) ^ leadingPlace numerator denominator =
      10 ^ place * 10 ^ 16 := by
    rw [show leadingPlace numerator denominator = place + (16 : Nat) by omega,
      zpow_add₀ (by norm_num), zpow_natCast]
  rw [← here]
  rcases @gridFloor_bounds numerator denominator place above with
    ⟨below, beyond⟩
  rw [spacing, number] at leading
  rw [number] at below beyond
  rcases double.margin leading with ⟨under, upper⟩
  have step : (0 : ℚ) < 10 ^ place := by positivity
  refine exists_onGrid ?_
  -- The nearer one of the two neighbours is at most half the spacing away.
  rcases le_or_gt (significand * 2 ^ exponent -
      gridFloor numerator denominator place * 10 ^ place : ℚ) (10 ^ place / 2)
    with near | far
  · refine Or.inl ⟨?_, (RoundingRange.holds_iff _ _).mpr ?_⟩
    · intro none
      rw [none] at beyond
      norm_num at beyond
      linarith
    · refine RoundingRange.contains_of_between ?_ ?_
      all_goals
        rw [value]
        linarith
  · refine Or.inr ((RoundingRange.holds_iff _ _).mpr ?_)
    refine RoundingRange.contains_of_between ?_ ?_
    all_goals
      rw [value]
      push_cast
      linarith

/-- A number in the interval has not many more digits than there are places
between its last digit and the first digit of the double. -/
theorem coefficient_lt (double : Double significand exponent)
    {decimal : Decimal} {count : Nat}
    (contains : (roundingRange significand exponent).Contains decimal.value)
    (place : decimal.power =
      leadingPlace (significand * Nat.pow 2 exponent.toNat)
        (Nat.pow 2 (-exponent).toNat) - count) :
    decimal.coefficient < 2 * 10 ^ (count + 1) := by
  have leading := @lt_ten_zpow_leadingPlace
    (significand * Nat.pow 2 exponent.toNat) (Nat.pow 2 (-exponent).toNat)
    (Nat.pow_pos (by decide))
  rw [quotient_eq] at leading
  have top : (roundingRange significand exponent).top ≤
      2 * (significand * 2 ^ exponent) := by
    have positive : (1 : ℚ) ≤ significand := by exact_mod_cast double.positive
    calc (roundingRange significand exponent).top
      _ = (4 * significand + 2 : Nat) * (2 ^ exponent / 4) := by
          rw [RoundingRange.top, roundingRange, zpow_sub₀ (by norm_num)]
          norm_num
      _ ≤ 8 * significand * (2 ^ exponent / 4) := by
          refine mul_le_mul_of_nonneg_right ?_ (by positivity)
          push_cast
          linarith
      _ = 2 * (significand * 2 ^ exponent) := by ring
  have step : (0 : ℚ) < 10 ^ decimal.power := by positivity
  have bound : (decimal.coefficient : ℚ) * 10 ^ decimal.power <
      2 * 10 ^ (count + 1) * 10 ^ decimal.power := by
    calc (decimal.coefficient : ℚ) * 10 ^ decimal.power
      _ ≤ (roundingRange significand exponent).top := contains.bounds.2
      _ ≤ 2 * (significand * 2 ^ exponent) := top
      _ < 2 * 10 ^ (leadingPlace (significand * Nat.pow 2 exponent.toNat)
            (Nat.pow 2 (-exponent).toNat) + 1) := by linarith
      _ = 2 * 10 ^ (count + 1) * 10 ^ decimal.power := by
          rw [place, mul_assoc, ← zpow_natCast, ← zpow_add₀ (by norm_num)]
          push_cast
          congr 2
          ring
  exact_mod_cast lt_of_mul_lt_mul_right bound step.le

end Double

/-! ## Shortest decimals -/

theorem value_trimZeros (bound : Nat) (decimal : Decimal) :
    (trimZeros bound decimal).value = decimal.value := by
  induction bound generalizing decimal with
  | zero => rfl
  | succ bound induction =>
      rw [trimZeros]
      split
      case isTrue trims =>
          have whole : decimal.coefficient = decimal.coefficient / 10 * 10 := by
            omega
          rw [induction, value, value, zpow_add_one₀ (by norm_num)]
          nth_rewrite 2 [whole]
          push_cast
          ring
      case isFalse => rfl

/-- No zero is left at the end where there were not more digits than zeros may
be dropped. -/
theorem trimmed_trimZeros {bound digits : Nat} {decimal : Decimal}
    (some : 0 < decimal.coefficient) (few : decimal.coefficient < 10 ^ digits)
    (enough : digits ≤ bound) :
    (trimZeros bound decimal).coefficient % 10 ≠ 0 := by
  induction bound generalizing digits decimal with
  | zero =>
      obtain rfl : digits = 0 := by omega
      omega
  | succ bound induction =>
      rw [trimZeros]
      split
      case isFalse => omega
      case isTrue trims =>
          cases digits with
          | zero => omega
          | succ digits =>
              rw [Nat.pow_succ] at few
              refine @induction digits _ ?_ ?_ (by omega)
              · dsimp only
                omega
              · dsimp only
                omega

/-- Before its zeros are dropped, the shortest decimal of a double lies in its
interval and has few digits. -/
theorem exists_shortest (tie : Tie) {significand : Nat} {exponent : Int}
    (double : Double significand exponent) :
    ∃ decimal, shortest tie significand exponent = trimZeros 400 decimal ∧
      (roundingRange significand exponent).Contains decimal.value ∧
      decimal.coefficient < 10 ^ 18 := by
  rw [shortest]
  rcases double.exists_seventeenth tie with ⟨last, enough⟩
  cases found : (List.range 17).findSome? _ with
  | none =>
      have absent := List.findSome?_eq_none_iff.mp found 16 (by decide)
      rw [enough] at absent
      cases absent
  | some decimal =>
      rcases List.exists_of_findSome?_eq_some found with
        ⟨count, inside, taken⟩
      rcases holds_of_onGrid taken with ⟨holds, place⟩
      have contains := (RoundingRange.holds_iff _ _).mp holds
      refine ⟨decimal, rfl, contains, ?_⟩
      have few : count + 1 ≤ 17 := by
        have below := List.mem_range.mp inside
        omega
      calc decimal.coefficient
        _ < 2 * 10 ^ (count + 1) := double.coefficient_lt contains place
        _ ≤ 2 * 10 ^ 17 :=
            Nat.mul_le_mul_left 2 (Nat.pow_le_pow_right (by decide) few)
        _ < 10 ^ 18 := by norm_num

theorem contains_shortest (tie : Tie) {significand : Nat} {exponent : Int}
    (double : Double significand exponent) :
    (roundingRange significand exponent).Contains
      (shortest tie significand exponent).value := by
  rcases exists_shortest tie double with ⟨decimal, same, contains, -⟩
  rw [same, value_trimZeros]
  exact contains

theorem trimmed_shortest (tie : Tie) {significand : Nat} {exponent : Int}
    (double : Double significand exponent) :
    (shortest tie significand exponent).coefficient % 10 ≠ 0 := by
  rcases exists_shortest tie double with ⟨decimal, same, contains, few⟩
  have positive := double.pos_of_contains contains
  rw [same]
  refine trimmed_trimZeros (Nat.pos_of_ne_zero fun none => ?_) few (by decide)
  rw [value, none] at positive
  simp at positive

end EntityCatalog.Decimal
