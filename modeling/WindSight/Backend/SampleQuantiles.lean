import WindSight.Backend.ErrorMetrics

/-! # The median and the 99th percentile as sample quantiles

`compute_error_metrics` takes both from an index into the sorted errors. Counted on the rows, half
of them lie on either side of the median, and more than 99% but no more than are needed lie up to
the 99th percentile: the indices are not off by one for any number of rows. -/

namespace WindSight

open OrderStatistics

variable {errors : List ForecastError}

/-- Counting the sorted absolute errors is counting the rows. -/
theorem countP_absErrors (errors : List ForecastError) (p : ℚ → Bool) :
    (absErrors errors).countP p = errors.countP fun e => p e.absErrorMw := by
  rw [(perm_absErrors errors).countP_eq, List.countP_map]
  rfl

/-- The median lies between the two middle ranks, which are one for an odd number of rows. -/
theorem medianError_between (hne : errors ≠ []) :
    (absErrors errors).getD ((errors.length - 1) / 2) 0 ≤ medianError errors ∧
      medianError errors ≤ (absErrors errors).getD (errors.length / 2) 0 := by
  have hpos := List.length_pos_iff.mpr hne
  have hlen := length_absErrors errors
  have hmiddle : (absErrors errors).getD ((errors.length - 1) / 2) 0
      ≤ (absErrors errors).getD (errors.length / 2) 0 :=
    getD_mono (absErrors_pairwise errors) (by omega) (by omega) 0
  unfold medianError
  dsimp only
  rw [hlen]
  split_ifs with hodd
  · exact ⟨hmiddle, le_refl _⟩
  · rw [show errors.length / 2 - 1 = (errors.length - 1) / 2 by omega]
    constructor <;> linarith

/-- At least half of the rows are at most the median. -/
theorem length_le_countP_le_medianError (hne : errors ≠ []) :
    errors.length ≤ 2 * errors.countP (·.absErrorMw ≤ medianError errors) := by
  have hpos := List.length_pos_iff.mpr hne
  have hlen := length_absErrors errors
  have hcount := succ_le_countP (absErrors_pairwise errors) (by omega) (medianError_between hne).1
  rw [countP_absErrors] at hcount
  omega

/-- At least half of the rows are at least the median. -/
theorem length_le_countP_medianError_le (hne : errors ≠ []) :
    errors.length ≤ 2 * errors.countP (medianError errors ≤ ·.absErrorMw) := by
  have hpos := List.length_pos_iff.mpr hne
  have hlen := length_absErrors errors
  have hcount := sub_le_countP (absErrors_pairwise errors) (by omega) (medianError_between hne).2
  rw [countP_absErrors] at hcount
  omega

/-- The 99th percentile is the sample of index `⌊n * 0.99⌋`, which the clamp never moves. -/
theorem p99Error_eq (hne : errors ≠ []) :
    p99Error errors = (absErrors errors).getD (errors.length * 99 / 100) 0 := by
  have hpos := List.length_pos_iff.mpr hne
  unfold p99Error
  dsimp only
  rw [length_absErrors, min_eq_left (by omega)]

/-- **The median and the 99th percentile are sample quantiles.** -/
theorem medianError_p99Error_quantiles (errors : List ForecastError) (hne : errors ≠ []) :
    (errors.length ≤ 2 * errors.countP (·.absErrorMw ≤ medianError errors) ∧
        errors.length ≤ 2 * errors.countP (medianError errors ≤ ·.absErrorMw)) ∧
      (99 * errors.length < 100 * errors.countP (·.absErrorMw ≤ p99Error errors) ∧
        100 * errors.countP (·.absErrorMw < p99Error errors) ≤ 99 * errors.length) ∧
      ∃ e ∈ errors, e.absErrorMw = p99Error errors := by
  have hpos := List.length_pos_iff.mpr hne
  have hindex : errors.length * 99 / 100 < (absErrors errors).length := by
    rw [length_absErrors]
    omega
  have heq := p99Error_eq hne
  refine ⟨⟨length_le_countP_le_medianError hne, length_le_countP_medianError_le hne⟩, ⟨?_, ?_⟩,
    mem_absErrors.mp (p99Error_mem hne)⟩
  · have hcount := succ_le_countP (absErrors_pairwise errors) hindex heq.ge
    rw [countP_absErrors] at hcount
    omega
  · have hcount := countP_lt_le (absErrors_pairwise errors) hindex heq.le
    rw [countP_absErrors] at hcount
    omega

/-- Two hundred rows: an absolute error of 1000 MW before the errors 0, 0, 1, 1, …, 98, 98, 99. -/
def tiedErrors : List ForecastError :=
  ⟨0, 0, 1000, 1000, 1000, 0⟩ :: (List.range 199).map fun i =>
    ⟨(i : ℕ), (i / 2 : ℕ), 0, -(i / 2 : ℕ), (i / 2 : ℕ), 0⟩

/-- Among the two hundred rows the median lies between two values, and the 99th percentile below the
greatest. -/
theorem medianError_p99Error_quantiles_tiedErrors :
    medianError tiedErrors = 99 / 2 ∧ p99Error tiedErrors = 99 ∧
      200 ≤ 2 * tiedErrors.countP (·.absErrorMw ≤ 99 / 2) ∧
      100 * tiedErrors.countP (·.absErrorMw < 99) ≤ 99 * 200 := by
  have hmedian : medianError tiedErrors = 99 / 2 := by decide +kernel
  have hp99 : p99Error tiedErrors = 99 := by decide +kernel
  obtain ⟨⟨hlow, -⟩, ⟨-, hbelow⟩, -⟩ :=
    medianError_p99Error_quantiles tiedErrors (List.cons_ne_nil _ _)
  have hlength : tiedErrors.length = 200 := by decide +kernel
  rw [hmedian, hlength] at hlow
  rw [hp99, hlength] at hbelow
  exact ⟨hmedian, hp99, hlow, hbelow⟩

end WindSight
