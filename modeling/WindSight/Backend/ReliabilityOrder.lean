import WindSight.Backend.Reliability

/-! # The order of the reliability metrics

A quantile grows with its level, from the smallest value to the largest one, wherever its positions
fall between the samples; the rounded metrics keep that order. -/

namespace WindSight

open OrderStatistics Rounding

variable {values : List ℚ}

/-! ## Quantiles in order -/

/-- A higher quantile is no smaller. -/
theorem quantile_mono (hne : values ≠ []) {p q : ℚ} (hp : 0 ≤ p) (hpq : p ≤ q) (hq : q ≤ 1) :
    quantile p values ≤ quantile q values := by
  have hlen : (values.insertionSort (· ≤ ·)).length = values.length :=
    (List.perm_insertionSort _ values).length_eq
  have hone : (1 : ℚ) ≤ values.length := by
    exact_mod_cast List.length_pos_iff.mpr hne
  have hspan : (0 : ℚ) ≤ values.length - 1 := sub_nonneg.mpr hone
  unfold quantile
  dsimp only
  apply valueAt_mono (List.pairwise_insertionSort _ values) <;> rw [hlen]
  · exact mul_nonneg hp hspan
  · exact mul_le_mul_of_nonneg_right hpq hspan
  · exact mul_le_of_le_one_left hspan hq

/-- The quantile zero is the smallest value. -/
theorem isLeast_quantile_zero (hne : values ≠ []) :
    IsLeast {x | x ∈ values} (quantile 0 values) := by
  have hsorted : (values.insertionSort (· ≤ ·)).Pairwise (· ≤ ·) :=
    List.pairwise_insertionSort _ values
  have hperm := List.perm_insertionSort (· ≤ ·) values
  have hpos : 0 < (values.insertionSort (· ≤ ·)).length := by
    rw [hperm.length_eq]
    exact List.length_pos_iff.mpr hne
  have hvalue : quantile 0 values = (values.insertionSort (· ≤ ·)).getD 0 0 := by
    rw [quantile, zero_mul]
    exact_mod_cast valueAt_natCast (values.insertionSort (· ≤ ·)) 0
  rw [hvalue]
  constructor
  · rw [List.getD_eq_getElem _ _ hpos]
    exact hperm.mem_iff.mp (List.getElem_mem hpos)
  · intro x hx
    obtain ⟨i, hi, rfl⟩ := List.mem_iff_getElem.mp (hperm.mem_iff.mpr hx)
    rw [← List.getD_eq_getElem _ (0 : ℚ)]
    exact getD_mono hsorted (Nat.zero_le i) hi 0

/-- No quantile is above a bound of the values. -/
theorem quantile_le (hne : values ≠ []) {q m : ℚ} (hq0 : 0 ≤ q) (hq : q ≤ 1)
    (hm : ∀ x ∈ values, x ≤ m) : quantile q values ≤ m := by
  have hperm := List.perm_insertionSort (· ≤ ·) values
  have hpos : 0 < (values.insertionSort (· ≤ ·)).length := by
    rw [hperm.length_eq]
    exact List.length_pos_iff.mpr hne
  have hlast : (values.insertionSort (· ≤ ·)).length - 1
      < (values.insertionSort (· ≤ ·)).length := by omega
  -- the quantile one is the largest value
  have hvalue : quantile 1 values
      = (values.insertionSort (· ≤ ·)).getD ((values.insertionSort (· ≤ ·)).length - 1) 0 := by
    have hposition : (1 : ℚ) * ((values.insertionSort (· ≤ ·)).length - 1)
        = (((values.insertionSort (· ≤ ·)).length - 1 : ℕ) : ℚ) := by
      rw [Nat.cast_sub hpos, one_mul, Nat.cast_one]
    rw [quantile, hposition, valueAt_natCast]
  calc quantile q values ≤ quantile 1 values := quantile_mono hne hq0 hq (le_refl 1)
    _ ≤ m := by
      rw [hvalue, List.getD_eq_getElem _ _ hlast]
      exact hm _ (hperm.mem_iff.mp (List.getElem_mem hlast))

/-! ## The metrics in order -/

/-- **The reliability metrics are ordered.** For every window with rows, of which the smallest one
generates `minGen`. -/
theorem getReliabilityMetrics_ordered (conn : Conn) (start stop : Datetime)
    (hne : windowGeneration conn start stop ≠ []) :
    let metrics := getReliabilityMetrics conn start stop
    ∃ minGen, IsLeast {x | x ∈ windowGeneration conn start stop} minGen ∧
      (roundTo 2 minGen ≤ metrics.p10GenerationMw ∧
        metrics.p10GenerationMw ≤ metrics.p20GenerationMw ∧
        metrics.p20GenerationMw ≤ metrics.medianGenerationMw ∧
        metrics.medianGenerationMw ≤ metrics.maxGenerationMw) ∧
      roundTo 2 minGen ≤ metrics.meanGenerationMw ∧
      metrics.meanGenerationMw ≤ metrics.maxGenerationMw := by
  unfold getReliabilityMetrics
  generalize windowGeneration conn start stop = values at hne
  obtain ⟨maxGen, hmax⟩ : ∃ m, values.max? = some m :=
    Option.ne_none_iff_exists'.mp (by simpa using hne)
  have hle : ∀ x ∈ values, x ≤ maxGen := (List.max?_eq_some_iff.mp hmax).2
  have hleast := isLeast_quantile_zero hne
  rw [reliabilityQuery_eq hne hmax]
  refine ⟨quantile 0 values, hleast, ⟨?_, ?_, ?_, ?_⟩, ?_, ?_⟩ <;> apply roundTo_mono
  · exact quantile_mono hne (by norm_num) (by norm_num) (by norm_num)
  · exact quantile_mono hne (by norm_num) (by norm_num) (by norm_num)
  · exact quantile_mono hne (by norm_num) (by norm_num) (by norm_num)
  · exact quantile_le hne (by norm_num) (by norm_num) hle
  · exact le_mean hne fun x hx => hleast.2 hx
  · exact mean_le hne hle

/-- With 0, 5 and 10 MW the three quantiles are 1, 2 and 5 MW. -/
theorem getReliabilityMetrics_ordered_evening :
    getReliabilityMetrics ⟨⟨evening 0 5 10, .empty⟩, 0⟩ eveningStart eveningStop
        = ⟨1, 2, 5, 5, 10, 2 / 10000⟩ ∧
      ∃ minGen, IsLeast {x | x ∈ windowGeneration ⟨⟨evening 0 5 10, .empty⟩, 0⟩ eveningStart
          eveningStop} minGen ∧ roundTo 2 minGen ≤ 1 := by
  have hmetrics : getReliabilityMetrics ⟨⟨evening 0 5 10, .empty⟩, 0⟩ eveningStart eveningStop
      = ⟨1, 2, 5, 5, 10, 2 / 10000⟩ := by decide +kernel
  refine ⟨hmetrics, ?_⟩
  obtain ⟨minGen, hleast, ⟨hp10, -⟩, -⟩ := getReliabilityMetrics_ordered
    ⟨⟨evening 0 5 10, .empty⟩, 0⟩ eveningStart eveningStop (by decide +kernel)
  rw [hmetrics] at hp10
  exact ⟨minGen, hleast, hp10⟩

end WindSight
