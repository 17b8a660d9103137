import WindSight.Backend.SampleQuantiles

/-! # The error metrics of the notebook

The analysis notebook computes its metrics with pandas. Mean, median and the root of the mean square
are those of `compute_error_metrics`. The 99th percentile is not: pandas interpolates between two
ranks where the backend takes the upper one, so the two agree exactly when the ranks tie or when the
position is a rank (`notebookMetrics_compare`). -/

namespace WindSight

open OrderStatistics

/-! ## pandas -/

/-- `Series.mean()`; NaN on no values. -/
def seriesMean (values : List ℚ) : Option ℚ :=
  if values.isEmpty then none else some (values.sum / values.length)

/-- `Series.median()`: the middle value in ascending order, or the mean of the two in the middle;
NaN on no values. -/
def seriesMedian (values : List ℚ) : Option ℚ :=
  if values.isEmpty then none
  else
    let xs := values.insertionSort (· ≤ ·)
    some ((xs.getD ((xs.length - 1) / 2) 0 + xs.getD (xs.length / 2) 0) / 2)

/-- `Series.quantile(q)`: linear interpolation at the position `q * (n - 1)` of the values in
ascending order; NaN on no values. -/
def seriesQuantile (q : ℚ) (values : List ℚ) : Option ℚ :=
  if values.isEmpty then none
  else
    let xs := values.insertionSort (· ≤ ·)
    some (valueAt xs (q * (xs.length - 1)))

/-- The dictionary `metrics` of the notebook. The root mean squared error is given by its radicand.
-/
structure NotebookMetrics where
  meanAbsoluteError : Option ℚ
  medianAbsoluteError : Option ℚ
  p99AbsoluteError : Option ℚ
  meanSquaredError : Option ℚ
  maxAbsoluteError : Option ℚ
  sampleCount : ℕ
  deriving DecidableEq, Repr

/-- The core error metrics of `abs_errors = errors_df['abs_error_mw']`. -/
def notebookMetrics (errors : List ForecastError) : NotebookMetrics :=
  let absErrors := errors.map ForecastError.absErrorMw
  { meanAbsoluteError := seriesMean absErrors
    medianAbsoluteError := seriesMedian absErrors
    p99AbsoluteError := seriesQuantile (99 / 100) absErrors
    meanSquaredError := seriesMean (absErrors.map (· ^ 2))
    maxAbsoluteError := absErrors.max?
    sampleCount := absErrors.length }

/-- The notebook reports the four statistics of the backend, before rounding. -/
def SameStatistics (errors : List ForecastError) : Prop :=
  (notebookMetrics errors).meanAbsoluteError = some (mae errors) ∧
    (notebookMetrics errors).medianAbsoluteError = some (medianError errors) ∧
    (notebookMetrics errors).p99AbsoluteError = some (p99Error errors) ∧
    (notebookMetrics errors).meanSquaredError.map (fun x : ℚ => √(x : ℝ))
      = some √(meanSquare errors : ℝ)

variable {errors : List ForecastError}

/-! ## Mean, median and mean square -/

/-- The two means agree. -/
theorem notebook_mean (hne : errors ≠ []) :
    (notebookMetrics errors).meanAbsoluteError = some (mae errors) := by
  show seriesMean (errors.map ForecastError.absErrorMw) = _
  rw [seriesMean, if_neg (by simpa using hne), mae, (perm_absErrors errors).sum_eq,
    (perm_absErrors errors).length_eq]

/-- The two medians agree. -/
theorem notebook_median (hne : errors ≠ []) :
    (notebookMetrics errors).medianAbsoluteError = some (medianError errors) := by
  have hlen := length_absErrors errors
  have hpos := List.length_pos_iff.mpr hne
  show seriesMedian (errors.map ForecastError.absErrorMw) = _
  rw [seriesMedian, if_neg (by simpa using hne), ← absErrors]
  unfold medianError
  dsimp only
  split_ifs with hodd
  · -- an odd number of values has one in the middle
    rw [show ((absErrors errors).length - 1) / 2 = (absErrors errors).length / 2 by omega,
      add_self_div_two]
  · rw [show ((absErrors errors).length - 1) / 2 = (absErrors errors).length / 2 - 1 by omega]

/-- The two root mean squares have the same radicand. -/
theorem notebook_meanSquare (hne : errors ≠ []) :
    (notebookMetrics errors).meanSquaredError = some (meanSquare errors) := by
  show seriesMean ((errors.map ForecastError.absErrorMw).map (· ^ 2)) = _
  rw [seriesMean, if_neg (by simpa using hne), meanSquare_eq, List.length_map]

/-! ## The 99th percentile -/

/-- The position of the 99th percentile in the notebook is the index of the backend if the number of
rows is one modulo a hundred, and lies in the gap before it otherwise. -/
theorem p99_position (hne : errors ≠ []) {k : ℕ} (hk : errors.length * 99 / 100 = k) :
    (errors.length % 100 = 1 ∧ (99 / 100 : ℚ) * (errors.length - 1) = k) ∨
      (errors.length % 100 ≠ 1 ∧ ∃ j, k = j + 1 ∧
        (j : ℚ) < 99 / 100 * (errors.length - 1) ∧
          99 / 100 * ((errors.length : ℚ) - 1) < j + 1) := by
  have hpos := List.length_pos_iff.mpr hne
  rcases (by omega : errors.length % 100 = 1 ∨ errors.length % 100 ≠ 1) with hone | hone
  · refine Or.inl ⟨hone, ?_⟩
    have hrank : 99 * errors.length = 100 * k + 99 := by omega
    have hcast : (99 : ℚ) * errors.length = 100 * k + 99 := by exact_mod_cast hrank
    linarith
  · refine Or.inr ⟨hone, k - 1, by omega, ?_, ?_⟩
    · have hlo : 100 * (k - 1) + 99 < 99 * errors.length := by omega
      have hcast : (100 : ℚ) * (k - 1 : ℕ) + 99 < 99 * errors.length := by exact_mod_cast hlo
      linarith
    · have hhi : 99 * errors.length < 100 * (k - 1) + 199 := by omega
      have hcast : (99 : ℚ) * errors.length < 100 * (k - 1 : ℕ) + 199 := by exact_mod_cast hhi
      linarith

/-- The notebook interpolates the 99th percentile. -/
theorem notebook_p99 (hne : errors ≠ []) :
    (notebookMetrics errors).p99AbsoluteError
      = some (valueAt (absErrors errors) (99 / 100 * (errors.length - 1))) := by
  show seriesQuantile (99 / 100) (errors.map ForecastError.absErrorMw) = _
  rw [seriesQuantile, if_neg (by simpa using hne), ← absErrors]
  dsimp only
  rw [length_absErrors]

/-- The rank before the index of the 99th percentile ties with it. -/
def TieBeforeP99 (errors : List ForecastError) : Prop :=
  (absErrors errors).getD (errors.length * 99 / 100 - 1) 0 = p99Error errors

/-- The interpolated percentile lies between the rank before the index of the backend and that
index. It is the one of the index exactly if the number of rows is one modulo a hundred, or the two
ranks tie. -/
theorem valueAt_p99 (hne : errors ≠ []) :
    (absErrors errors).getD (errors.length * 99 / 100 - 1) 0
        ≤ valueAt (absErrors errors) (99 / 100 * (errors.length - 1)) ∧
      valueAt (absErrors errors) (99 / 100 * (errors.length - 1)) ≤ p99Error errors ∧
      (valueAt (absErrors errors) (99 / 100 * (errors.length - 1)) = p99Error errors ↔
        errors.length % 100 = 1 ∨ TieBeforeP99 errors) := by
  have hsorted := absErrors_pairwise errors
  have hlen := length_absErrors errors
  have hpos := List.length_pos_iff.mpr hne
  unfold TieBeforeP99
  rw [p99Error_eq hne]
  generalize hk : errors.length * 99 / 100 = k
  rcases p99_position hne hk with ⟨hone, hposition⟩ | ⟨hone, j, rfl, hlo, hhi⟩
  · -- the position is the index
    rw [hposition, valueAt_natCast]
    exact ⟨getD_mono hsorted (Nat.sub_le k 1) (by omega) 0, le_refl _,
      iff_of_true rfl (Or.inl hone)⟩
  · have hj : j + 1 < (absErrors errors).length := by omega
    have hend : (99 / 100 : ℚ) * (errors.length - 1) ≤ (absErrors errors).length - 1 := by
      have hcast : (1 : ℚ) ≤ errors.length := by exact_mod_cast hpos
      rw [hlen]
      linarith
    rw [Nat.add_sub_cancel, or_iff_right hone]
    exact ⟨getD_le_valueAt hsorted hlo.le hhi hend, valueAt_le_getD hsorted hj hlo.le hhi,
      valueAt_eq_getD_succ_iff _ hlo hhi⟩

/-! ## The comparison -/

/-- **The notebook against the backend.** On the same rows, mean, median and root mean square agree.
The 99th percentile of the notebook lies between the one of the backend and the rank before it; all
four agree exactly if the number of rows is one modulo a hundred, or the two ranks tie. -/
theorem notebookMetrics_compare (errors : List ForecastError) (hne : errors ≠ []) :
    (notebookMetrics errors).meanAbsoluteError = some (mae errors) ∧
      (notebookMetrics errors).medianAbsoluteError = some (medianError errors) ∧
      (notebookMetrics errors).meanSquaredError.map (fun x : ℚ => √(x : ℝ))
        = some √(meanSquare errors : ℝ) ∧
      ∃ p99, (notebookMetrics errors).p99AbsoluteError = some p99 ∧
        (absErrors errors).getD (errors.length * 99 / 100 - 1) 0 ≤ p99 ∧ p99 ≤ p99Error errors ∧
        (SameStatistics errors ↔ errors.length % 100 = 1 ∨ TieBeforeP99 errors) := by
  have hmean := notebook_mean hne
  have hmedian := notebook_median hne
  have hsquare : (notebookMetrics errors).meanSquaredError.map (fun x : ℚ => √(x : ℝ))
      = some √(meanSquare errors : ℝ) := by
    rw [notebook_meanSquare hne]
    rfl
  obtain ⟨hlo, hhi, hiff⟩ := valueAt_p99 hne
  refine ⟨hmean, hmedian, hsquare, _, notebook_p99 hne, hlo, hhi, ?_⟩
  rw [← hiff]
  unfold SameStatistics
  rw [notebook_p99 hne, Option.some_inj]
  constructor
  · rintro ⟨-, -, heq, -⟩
    exact heq
  · intro heq
    exact ⟨hmean, hmedian, heq, hsquare⟩

/-- Two errors of 3 MW: the ranks tie, and the four statistics agree. -/
theorem notebookMetrics_compare_tie :
    SameStatistics [⟨0, 10, 13, 3, 3, 0⟩, ⟨1, 10, 7, -3, 3, 0⟩] := by
  obtain ⟨-, -, -, p99, -, -, -, hiff⟩ :=
    notebookMetrics_compare [⟨0, 10, 13, 3, 3, 0⟩, ⟨1, 10, 7, -3, 3, 0⟩] (List.cons_ne_nil _ _)
  have htie : TieBeforeP99 [⟨0, 10, 13, 3, 3, 0⟩, ⟨1, 10, 7, -3, 3, 0⟩] := by
    unfold TieBeforeP99
    decide +kernel
  exact hiff.mpr (Or.inr htie)

/-- Errors of 0 and 10 MW: the backend reports 10 MW, the notebook 9.9 MW. -/
theorem not_sameStatistics_two :
    (notebookMetrics [⟨0, 10, 10, 0, 0, 0⟩, ⟨1, 10, 20, 10, 10, 0⟩]).p99AbsoluteError
        = some (99 / 10) ∧
      p99Error [⟨0, 10, 10, 0, 0, 0⟩, ⟨1, 10, 20, 10, 10, 0⟩] = 10 ∧
      ¬ SameStatistics [⟨0, 10, 10, 0, 0, 0⟩, ⟨1, 10, 20, 10, 10, 0⟩] := by
  have hnotebook : (notebookMetrics
      [⟨0, 10, 10, 0, 0, 0⟩, ⟨1, 10, 20, 10, 10, 0⟩]).p99AbsoluteError = some (99 / 10) := by
    decide +kernel
  have hbackend : p99Error [⟨0, 10, 10, 0, 0, 0⟩, ⟨1, 10, 20, 10, 10, 0⟩] = 10 := by
    decide +kernel
  refine ⟨hnotebook, hbackend, ?_⟩
  rintro ⟨-, -, heq, -⟩
  rw [hnotebook, hbackend] at heq
  exact absurd heq (by decide +kernel)

end WindSight
