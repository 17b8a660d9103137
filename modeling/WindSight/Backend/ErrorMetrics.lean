import WindSight.Backend.ForecastProcessor
import WindSight.Library.OrderStatistics

/-! # The order of the error metrics

`compute_error_metrics` depends on its rows as a collection only, and the rounded statistics keep
the order of the exact ones: the median is at most the 99th percentile, the mean at most the root of
the mean square, and both at most the largest error. -/

namespace WindSight

open OrderStatistics Rounding

variable {errors errors' : List ForecastError}

/-! ## Permutations -/

/-- The sorted absolute errors do not depend on the order of the rows. -/
theorem absErrors_congr (h : errors.Perm errors') : absErrors errors = absErrors errors' :=
  insertionSort_congr (h.map _)

/-- The metrics do not depend on the order of the rows. -/
theorem computeErrorMetrics_congr (h : errors.Perm errors') :
    computeErrorMetrics errors = computeErrorMetrics errors' := by
  have hempty : errors.isEmpty = errors'.isEmpty := by
    rw [Bool.eq_iff_iff, List.isEmpty_iff_length_eq_zero, List.isEmpty_iff_length_eq_zero,
      h.length_eq]
  have hsquare : meanSquare errors = meanSquare errors' := by
    rw [meanSquare, meanSquare, (h.map _).sum_eq, h.length_eq]
  unfold computeErrorMetrics mae medianError p99Error
  rw [hempty, hsquare, absErrors_congr h]

/-! ## The exact statistics -/

/-- The absolute errors, in the order of the rows. -/
theorem perm_absErrors (errors : List ForecastError) :
    (absErrors errors).Perm (errors.map ForecastError.absErrorMw) := List.perm_insertionSort _ _

theorem mem_absErrors {x : ℚ} : x ∈ absErrors errors ↔ ∃ e ∈ errors, e.absErrorMw = x := by
  rw [(perm_absErrors errors).mem_iff, List.mem_map]

theorem length_absErrors (errors : List ForecastError) :
    (absErrors errors).length = errors.length := by
  rw [(perm_absErrors errors).length_eq, List.length_map]

theorem absErrors_pairwise (errors : List ForecastError) : (absErrors errors).Pairwise (· ≤ ·) :=
  List.pairwise_insertionSort _ _

theorem absErrors_ne_nil (hne : errors ≠ []) : absErrors errors ≠ [] := by
  rw [← List.length_pos_iff, length_absErrors]
  exact List.length_pos_iff.mpr hne

/-- The absolute error of a rank is one of the rows. -/
theorem getD_mem_absErrors {i : ℕ} (hi : i < errors.length) :
    (absErrors errors).getD i 0 ∈ absErrors errors := by
  rw [← length_absErrors] at hi
  rw [List.getD_eq_getElem _ _ hi]
  exact List.getElem_mem hi

/-- The median is at most the 99th percentile. -/
theorem medianError_le_p99Error (hne : errors ≠ []) : medianError errors ≤ p99Error errors := by
  have hlen := List.length_pos_iff.mpr (absErrors_ne_nil hne)
  have hsorted := absErrors_pairwise errors
  unfold medianError p99Error
  generalize absErrors errors = xs at hlen hsorted
  have hupper : xs.getD (xs.length / 2) 0
      ≤ xs.getD (min (xs.length * 99 / 100) (xs.length - 1)) 0 :=
    getD_mono hsorted (by omega) (by omega) 0
  dsimp only
  split_ifs with hodd
  · exact hupper
  · -- the lower of the two in the middle is no larger than the upper
    have hlower : xs.getD (xs.length / 2 - 1) 0 ≤ xs.getD (xs.length / 2) 0 :=
      getD_mono hsorted (Nat.sub_le _ _) (by omega) 0
    linarith

/-- The 99th percentile is the absolute error of a row. -/
theorem p99Error_mem (hne : errors ≠ []) : p99Error errors ∈ absErrors errors := by
  have hlen := List.length_pos_iff.mpr hne
  unfold p99Error
  apply getD_mem_absErrors
  rw [length_absErrors]
  omega

/-- The median of nonnegative errors is nonnegative. -/
theorem medianError_nonneg (hnonneg : ∀ e ∈ errors, 0 ≤ e.absErrorMw) :
    0 ≤ medianError errors := by
  -- also past the end, where the default is zero
  have hget : ∀ i, 0 ≤ (absErrors errors).getD i 0 := by
    intro i
    rcases lt_or_ge i errors.length with hi | hi
    · obtain ⟨e, he, heq⟩ := mem_absErrors.mp (getD_mem_absErrors hi)
      rw [← heq]
      exact hnonneg e he
    · rw [List.getD_eq_default _ _ (by rwa [length_absErrors])]
  unfold medianError
  dsimp only
  split_ifs
  · exact hget _
  · have hlower := hget ((absErrors errors).length / 2 - 1)
    have hupper := hget ((absErrors errors).length / 2)
    linarith

/-- The mean of nonnegative errors is nonnegative. -/
theorem mae_nonneg (hnonneg : ∀ e ∈ errors, 0 ≤ e.absErrorMw) : 0 ≤ mae errors := by
  refine div_nonneg (List.sum_nonneg ?_) (Nat.cast_nonneg _)
  intro x hx
  obtain ⟨e, he, rfl⟩ := mem_absErrors.mp hx
  exact hnonneg e he

/-- The mean of the squares, over the absolute errors. -/
theorem meanSquare_eq (errors : List ForecastError) :
    meanSquare errors
      = ((errors.map ForecastError.absErrorMw).map (· ^ 2)).sum
          / (errors.map ForecastError.absErrorMw).length := by
  rw [meanSquare, List.map_map, List.length_map]
  rfl

/-- The square of the mean is at most the mean of the squares. -/
theorem mae_sq_le_meanSquare (errors : List ForecastError) :
    mae errors ^ 2 ≤ meanSquare errors := by
  rw [mae, meanSquare_eq, (perm_absErrors errors).sum_eq, (perm_absErrors errors).length_eq]
  exact sq_mean_le _

/-- The mean of the squares is at most the square of a bound. -/
theorem meanSquare_le (hne : errors ≠ []) (hnonneg : ∀ e ∈ errors, 0 ≤ e.absErrorMw) {m : ℚ}
    (hm : ∀ e ∈ errors, e.absErrorMw ≤ m) : meanSquare errors ≤ m ^ 2 := by
  have hmean := mean_le (m := m ^ 2)
    (by simpa using hne : (errors.map fun e => e.absErrorMw ^ 2) ≠ []) ?_
  · rwa [List.length_map] at hmean
  · intro x hx
    obtain ⟨e, he, rfl⟩ := List.mem_map.mp hx
    exact pow_le_pow_left₀ (hnonneg e he) (hm e he) 2

/-! ## The rounded statistics -/

/-- **The error metrics are ordered, and do not depend on the order of the rows.** For nonempty
errors that are nonnegative, with the largest one `m`. -/
theorem computeErrorMetrics_ordered (errors : List ForecastError) (hne : errors ≠ [])
    (hnonneg : ∀ e ∈ errors, 0 ≤ e.absErrorMw) :
    (∀ errors', errors'.Perm errors →
      computeErrorMetrics errors' = computeErrorMetrics errors) ∧
    ∃ m, IsGreatest {x | ∃ e ∈ errors, e.absErrorMw = x} m ∧
      (0 ≤ (computeErrorMetrics errors).medianAbsoluteError ∧
        (computeErrorMetrics errors).medianAbsoluteError ≤ (computeErrorMetrics errors).p99Error ∧
        (computeErrorMetrics errors).p99Error ≤ roundTo 2 m) ∧
      (0 ≤ (computeErrorMetrics errors).meanAbsoluteError ∧
        (computeErrorMetrics errors).meanAbsoluteError ≤ (computeErrorMetrics errors).rmse ∧
        (computeErrorMetrics errors).rmse ≤ roundTo 2 m) := by
  refine ⟨fun errors' h => computeErrorMetrics_congr h, ?_⟩
  obtain ⟨m, hm⟩ : ∃ m, IsGreatest {x | ∃ e ∈ errors, e.absErrorMw = x} m := by
    -- the rows are finitely many, so one of them has the largest error
    obtain ⟨e₀, he₀⟩ := List.exists_mem_of_ne_nil errors hne
    obtain ⟨e, he, hmax⟩ := Set.exists_max_image {e | e ∈ errors} ForecastError.absErrorMw
      (List.finite_toSet errors) ⟨e₀, he₀⟩
    refine ⟨e.absErrorMw, ⟨e, he, rfl⟩, ?_⟩
    rintro x ⟨e', he', rfl⟩
    exact hmax e' he'
  have hle : ∀ e ∈ errors, e.absErrorMw ≤ m := fun e he => hm.2 ⟨e, he, rfl⟩
  have hm0 : 0 ≤ m := by
    obtain ⟨e, he, rfl⟩ := hm.1
    exact hnonneg e he
  have hsquare : 0 ≤ meanSquare errors := (sq_nonneg _).trans (mae_sq_le_meanSquare errors)
  rw [computeErrorMetrics, if_neg (by simpa using hne)]
  refine ⟨m, hm, ⟨?_, ?_, ?_⟩, ?_, ?_, ?_⟩
  · exact roundTo_nonneg 2 (medianError_nonneg hnonneg)
  · exact roundTo_mono 2 (medianError_le_p99Error hne)
  · exact roundTo_mono 2 (hm.2 (mem_absErrors.mp (p99Error_mem hne)))
  · exact roundTo_nonneg 2 (mae_nonneg hnonneg)
  · exact roundTo_le_roundSqrtTo 2 (mae_sq_le_meanSquare errors)
  · exact roundSqrtTo_le_roundTo 2 hsquare hm0 (meanSquare_le hne hnonneg hle)

/-- Errors of 3 and 4 MW, in both orders. -/
theorem computeErrorMetrics_ordered_two :
    computeErrorMetrics [⟨1, 10, 6, -4, 4, 0⟩, ⟨0, 10, 13, 3, 3, 0⟩]
        = ⟨7 / 2, 7 / 2, 4, 177 / 50, 2⟩ ∧
      ∃ m, IsGreatest
          {x | ∃ e ∈ [(⟨0, 10, 13, 3, 3, 0⟩ : ForecastError), ⟨1, 10, 6, -4, 4, 0⟩],
            e.absErrorMw = x} m ∧
        177 / 50 ≤ roundTo 2 m := by
  have hvalue : computeErrorMetrics [⟨0, 10, 13, 3, 3, 0⟩, ⟨1, 10, 6, -4, 4, 0⟩]
      = ⟨7 / 2, 7 / 2, 4, 177 / 50, 2⟩ := by decide +kernel
  obtain ⟨hperm, m, hm, -, -, -, hrmse⟩ :=
    computeErrorMetrics_ordered [⟨0, 10, 13, 3, 3, 0⟩, ⟨1, 10, 6, -4, 4, 0⟩] (by simp) (by simp)
  rw [hvalue] at hperm hrmse
  exact ⟨hperm _ (List.Perm.swap ..), m, hm, hrmse⟩

end WindSight
