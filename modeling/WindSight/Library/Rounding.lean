import Mathlib.Algebra.Order.Round
import Mathlib.Analysis.SpecialFunctions.Sqrt
import Mathlib.Tactic.Linarith
import Mathlib.Tactic.FieldSimp
import Mathlib.Data.Rat.Floor

/-! # Decimal rounding, ties to even

`roundTo d x` is `x` rounded to `d` decimal places with ties to the even neighbour, over any floor
field. Square roots of rationals are rounded without leaving `ℚ`: `roundSqrtTo d x` decides the
direction by comparing squares, and `roundSqrtTo_eq` identifies it with the rounding of the real
square root. Rounding is monotone, keeps the decimals of its own precision, and moves a number by
half a unit of the last place at most. -/

namespace Rounding

section Field

variable {K : Type*} [Field K] [LinearOrder K] [FloorRing K]

/-- The nearest integer, ties to the even one. -/
def roundHalfEven (x : K) : ℤ :=
  if 2 * (x - ⌊x⌋) < 1 ∨ (2 * (x - ⌊x⌋) = 1 ∧ Even ⌊x⌋) then ⌊x⌋ else ⌊x⌋ + 1

/-- Rounding to `d` decimal places. -/
def roundTo (d : ℕ) (x : K) : K := roundHalfEven (x * 10 ^ d) / 10 ^ d

/-! ## The order -/

theorem floor_le_roundHalfEven (x : K) : ⌊x⌋ ≤ roundHalfEven x := by
  unfold roundHalfEven
  split_ifs <;> omega

theorem roundHalfEven_le_floor_add_one (x : K) : roundHalfEven x ≤ ⌊x⌋ + 1 := by
  unfold roundHalfEven
  split_ifs <;> omega

variable [IsStrictOrderedRing K]

/-- An integer is its own rounding. -/
@[simp] theorem roundHalfEven_intCast (n : ℤ) : roundHalfEven (n : K) = n := by
  simp [roundHalfEven]

/-- Rounding to an integer is monotone. -/
theorem roundHalfEven_mono : Monotone (roundHalfEven : K → ℤ) := by
  intro x y hxy
  rcases (Int.floor_mono hxy).lt_or_eq with hlt | heq
  · calc roundHalfEven x ≤ ⌊x⌋ + 1 := roundHalfEven_le_floor_add_one x
      _ ≤ ⌊y⌋ := hlt
      _ ≤ roundHalfEven y := floor_le_roundHalfEven y
  · unfold roundHalfEven
    rw [heq]
    split_ifs with hx hy hy
    · exact le_refl _
    · exact (Int.lt_succ _).le
    · -- what rounds `y` down rounds `x` down
      exfalso
      apply hx
      rcases hy with hlt | ⟨hhalf, heven⟩
      · exact Or.inl (by linarith)
      · rcases hxy.lt_or_eq with hlt | rfl
        · exact Or.inl (by linarith)
        · exact Or.inr ⟨hhalf, heven⟩
    · exact le_refl _

/-- Rounding to an integer moves a number by one half at most. -/
theorem abs_roundHalfEven_sub_le (x : K) : |(roundHalfEven x : K) - x| ≤ 1 / 2 := by
  have hlo := Int.floor_le x
  have hhi := Int.lt_floor_add_one x
  unfold roundHalfEven
  rw [abs_le]
  split_ifs with h
  · have hfrac : 2 * (x - ⌊x⌋) ≤ 1 := by
      rcases h with hlt | ⟨heq, -⟩
      exacts [hlt.le, heq.le]
    constructor <;> linarith
  · have hfrac : 1 ≤ 2 * (x - ⌊x⌋) := not_lt.mp fun hlt => h (Or.inl hlt)
    push_cast
    constructor <;> linarith

/-- Rounding to decimal places is monotone. -/
theorem roundTo_mono (d : ℕ) : Monotone (roundTo d : K → K) := by
  intro x y hxy
  unfold roundTo
  have hscale : x * 10 ^ d ≤ y * 10 ^ d := by gcongr
  have hround : (roundHalfEven (x * 10 ^ d) : K) ≤ roundHalfEven (y * 10 ^ d) := by
    exact_mod_cast roundHalfEven_mono hscale
  gcongr

/-- A number of that many decimal places is its own rounding. -/
theorem roundTo_intCast_div (d : ℕ) (n : ℤ) : roundTo d ((n : K) / 10 ^ d) = n / 10 ^ d := by
  rw [roundTo, div_mul_cancel₀ _ (by positivity), roundHalfEven_intCast]

@[simp] theorem roundTo_zero (d : ℕ) : roundTo d (0 : K) = 0 := by
  have h := roundTo_intCast_div (K := K) d 0
  simpa using h

/-- The rounding of a nonnegative number is nonnegative. -/
theorem roundTo_nonneg (d : ℕ) {x : K} (hx : 0 ≤ x) : 0 ≤ roundTo d x := by
  rw [← roundTo_zero (K := K) d]
  exact roundTo_mono d hx

/-- Rounding moves a number by half a unit of the last place at most. -/
theorem abs_roundTo_sub_le (d : ℕ) (x : K) : |roundTo d x - x| ≤ 1 / 2 / 10 ^ d := by
  have hpos : (0 : K) < 10 ^ d := by positivity
  have hx : roundTo d x - x = (roundHalfEven (x * 10 ^ d) - x * 10 ^ d) / 10 ^ d := by
    unfold roundTo
    field_simp
  rw [hx, abs_div, abs_of_pos hpos]
  gcongr
  exact abs_roundHalfEven_sub_le _

/-- The rounded mean of some values, once for each of them, misses their sum by half a unit of the
last place for each. -/
theorem abs_length_mul_roundTo_mean_sub_le (d : ℕ) (xs : List K) :
    |xs.length * roundTo d (xs.sum / xs.length) - xs.sum| ≤ xs.length * (1 / 2 / 10 ^ d) := by
  by_cases hne : xs = []
  · subst hne
    simp
  · have hpos : (0 : K) < xs.length := by exact_mod_cast List.length_pos_iff.mpr hne
    have hdiff : xs.length * roundTo d (xs.sum / xs.length) - xs.sum
        = xs.length * (roundTo d (xs.sum / xs.length) - xs.sum / xs.length) := by
      field_simp
    rw [hdiff, abs_mul, abs_of_pos hpos]
    gcongr
    exact abs_roundTo_sub_le d _

omit [FloorRing K] in
/-- Sums differ by no more than their summands do together. -/
theorem abs_sum_map_sub_le {ι : Type*} {l : List ι} {f g c : ι → K}
    (h : ∀ i ∈ l, |f i - g i| ≤ c i) : |(l.map f).sum - (l.map g).sum| ≤ (l.map c).sum := by
  induction l with
  | nil => simp
  | cons i l ih =>
    have hhead := h i List.mem_cons_self
    have htail := ih fun j hj => h j (List.mem_cons_of_mem i hj)
    simp only [List.map_cons, List.sum_cons]
    calc |f i + (l.map f).sum - (g i + (l.map g).sum)|
        = |(f i - g i) + ((l.map f).sum - (l.map g).sum)| := by ring_nf
      _ ≤ |f i - g i| + |(l.map f).sum - (l.map g).sum| := abs_add_le _ _
      _ ≤ c i + (l.map c).sum := add_le_add hhead htail

/-- The rounded means of the parts of a list, weighted by their lengths, miss the rounded mean of
the list, weighted by its own, by the two roundings at most. -/
theorem abs_length_mul_roundTo_mean_sub_parts_le (d : ℕ) {xs : List K} {parts : List (List K)}
    (hparts : xs.Perm parts.flatten) :
    |xs.length * roundTo d (xs.sum / xs.length)
        - (parts.map fun ys : List K => (ys.length : K) * roundTo d (ys.sum / ys.length)).sum|
      ≤ xs.length * (1 / 10 ^ d) := by
  have hwhole := abs_length_mul_roundTo_mean_sub_le d xs
  have hpart := abs_sum_map_sub_le fun (ys : List K) (_ : ys ∈ parts) =>
    abs_length_mul_roundTo_mean_sub_le d ys
  have hsum : (parts.map List.sum).sum = xs.sum := by
    rw [hparts.sum_eq, List.sum_flatten]
  have hlength : (parts.map fun ys : List K => (ys.length : K) * (1 / 2 / 10 ^ d)).sum
      = xs.length * (1 / 2 / 10 ^ d) := by
    rw [List.sum_map_mul_right, hparts.length_eq, List.length_flatten, Nat.cast_list_sum,
      List.map_map]
    rfl
  rw [hsum, hlength] at hpart
  have hhalves : (xs.length : K) * (1 / 10 ^ d)
      = xs.length * (1 / 2 / 10 ^ d) + xs.length * (1 / 2 / 10 ^ d) := by
    ring
  rw [hhalves]
  rw [abs_sub_comm] at hpart
  exact (abs_sub_le _ xs.sum _).trans (add_le_add hwhole hpart)

/-- The rounding of a rational number does not depend on the field it is taken in. -/
theorem cast_roundTo (d : ℕ) (x : ℚ) : ((roundTo d x : ℚ) : K) = roundTo d (x : K) := by
  have hround : roundHalfEven ((x : K) * 10 ^ d) = roundHalfEven (x * 10 ^ d) := by
    have hcast : (x : K) * 10 ^ d = ((x * 10 ^ d : ℚ) : K) := by push_cast; rfl
    have hfloor : ⌊((x * 10 ^ d : ℚ) : K)⌋ = ⌊x * 10 ^ d⌋ := Rat.floor_cast _
    unfold roundHalfEven
    rw [hcast, hfloor]
    have hsub : ((x * 10 ^ d : ℚ) : K) - (⌊x * 10 ^ d⌋ : ℤ)
        = ((x * 10 ^ d - (⌊x * 10 ^ d⌋ : ℤ) : ℚ) : K) := by push_cast; rfl
    rw [hsub]
    norm_cast
  rw [roundTo, roundTo, hround]
  push_cast
  rfl

end Field

/-! ## Square roots -/

/-- The nearest integer to `√x`, ties to the even one, decided by comparing squares. -/
def roundHalfEvenSqrt (x : ℚ) : ℤ :=
  let k := Nat.sqrt ⌊x⌋₊
  if x < (k + 1 / 2) ^ 2 ∨ (x = (k + 1 / 2) ^ 2 ∧ Even k) then k else k + 1

/-- `√x` rounded to `d` decimal places. -/
def roundSqrtTo (d : ℕ) (x : ℚ) : ℚ := roundHalfEvenSqrt (x * 10 ^ (2 * d)) / 10 ^ d

/-- The integer part of a real square root is the integer square root of the integer part. -/
theorem floor_sqrt {x : ℚ} (hx : 0 ≤ x) : ⌊√(x : ℝ)⌋ = (Nat.sqrt ⌊x⌋₊ : ℤ) := by
  have hx' : (0 : ℝ) ≤ x := by exact_mod_cast hx
  rw [Int.floor_eq_iff]
  constructor
  · -- `k ^ 2 ≤ ⌊x⌋ ≤ x`
    have hle : ((Nat.sqrt ⌊x⌋₊ : ℕ) : ℚ) ^ 2 ≤ x :=
      le_trans (by exact_mod_cast Nat.sqrt_le' ⌊x⌋₊) (Nat.floor_le hx)
    have hle' : ((Nat.sqrt ⌊x⌋₊ : ℕ) : ℝ) ^ 2 ≤ x := by exact_mod_cast hle
    exact_mod_cast Real.le_sqrt_of_sq_le hle'
  · -- `x < ⌊x⌋ + 1 ≤ (k + 1) ^ 2`
    have hlt : x < ((Nat.sqrt ⌊x⌋₊ : ℕ) + 1 : ℚ) ^ 2 :=
      lt_of_lt_of_le (Nat.lt_floor_add_one x) (by exact_mod_cast Nat.lt_succ_sqrt' ⌊x⌋₊)
    have hlt' : (x : ℝ) < ((Nat.sqrt ⌊x⌋₊ : ℕ) + 1 : ℝ) ^ 2 := by exact_mod_cast hlt
    have := (Real.sqrt_lt' (by positivity)).mpr hlt'
    exact_mod_cast this

/-- Comparing squares decides the rounding of a real square root. -/
theorem roundHalfEvenSqrt_eq {x : ℚ} (hx : 0 ≤ x) :
    roundHalfEvenSqrt x = roundHalfEven (√(x : ℝ)) := by
  have hx' : (0 : ℝ) ≤ x := by exact_mod_cast hx
  rw [roundHalfEven, floor_sqrt hx, roundHalfEvenSqrt]
  set k := Nat.sqrt ⌊x⌋₊
  have hk : (0 : ℝ) < (k : ℝ) + 1 / 2 := by positivity
  have hcast : (((((k : ℚ) + 1 / 2) ^ 2 : ℚ)) : ℝ) = ((k : ℝ) + 1 / 2) ^ 2 := by push_cast; rfl
  have hlt : x < ((k : ℚ) + 1 / 2) ^ 2 ↔ 2 * (√(x : ℝ) - ((k : ℤ) : ℝ)) < 1 := by
    rw [← Rat.cast_lt (K := ℝ), hcast, ← Real.sqrt_lt' hk, Int.cast_natCast]
    constructor <;> intro h <;> linarith
  have heq : x = ((k : ℚ) + 1 / 2) ^ 2 ↔ 2 * (√(x : ℝ) - ((k : ℤ) : ℝ)) = 1 := by
    rw [← Rat.cast_inj (α := ℝ), hcast, ← Real.sqrt_eq_iff_eq_sq hx' hk.le, Int.cast_natCast]
    constructor <;> intro h <;> linarith
  simp only [hlt, heq, Int.even_coe_nat]

/-- **Rounding a square root in `ℚ` is rounding the real square root.** -/
theorem roundSqrtTo_eq (d : ℕ) {x : ℚ} (hx : 0 ≤ x) :
    (roundSqrtTo d x : ℝ) = roundTo d (√(x : ℝ)) := by
  have hscale : √((x * 10 ^ (2 * d) : ℚ) : ℝ) = √(x : ℝ) * 10 ^ d := by
    push_cast
    rw [Real.sqrt_mul (by exact_mod_cast hx), pow_mul', Real.sqrt_sq (by positivity)]
  rw [roundSqrtTo, roundTo, roundHalfEvenSqrt_eq (by positivity), hscale]
  push_cast
  rfl

/-- A number whose square is at most `y` is rounded to at most the rounding of `√y`. -/
theorem roundTo_le_roundSqrtTo (d : ℕ) {x y : ℚ} (h : x ^ 2 ≤ y) :
    roundTo d x ≤ roundSqrtTo d y := by
  have hsqrt : (x : ℝ) ≤ √(y : ℝ) := Real.le_sqrt_of_sq_le (by exact_mod_cast h)
  have hround : ((roundTo d x : ℚ) : ℝ) ≤ (roundSqrtTo d y : ℝ) := by
    rw [cast_roundTo, roundSqrtTo_eq d ((sq_nonneg x).trans h)]
    exact roundTo_mono d hsqrt
  exact_mod_cast hround

/-- A nonnegative number whose square is at least `y` is rounded to at least the rounding of `√y`.
-/
theorem roundSqrtTo_le_roundTo (d : ℕ) {x y : ℚ} (hy : 0 ≤ y) (hx : 0 ≤ x) (h : y ≤ x ^ 2) :
    roundSqrtTo d y ≤ roundTo d x := by
  have hsqrt : √(y : ℝ) ≤ x :=
    Real.sqrt_le_iff.mpr ⟨by exact_mod_cast hx, by exact_mod_cast h⟩
  have hround : (roundSqrtTo d y : ℝ) ≤ ((roundTo d x : ℚ) : ℝ) := by
    rw [cast_roundTo, roundSqrtTo_eq d hy]
    exact roundTo_mono d hsqrt
  exact_mod_cast hround

end Rounding
