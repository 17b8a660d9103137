import WindSight.Backend.ForecastProcessor
import WindSight.Library.OrderStatistics

/-! # Reliable supply

The meaning of P10 and P20: 90% and 80% of the rows of the window should generate at least as much.
`PERCENTILE_CONT` interpolates between two rows, and the upper one of them may be needed to make up
that share; `reliability_exceeded_iff` says for which windows the shares are reached. -/

namespace WindSight

open OrderStatistics

/-! ## Quantiles of a list -/

/-- The quantile of nonempty values: the value at the position `q * (n - 1)` in ascending order. -/
def quantile (q : ℚ) (values : List ℚ) : ℚ :=
  let xs := values.insertionSort (· ≤ ·)
  valueAt xs (q * (xs.length - 1))

/-- The share `q` of the values is at least `level`. -/
def Exceeds (q : ℚ) (values : List ℚ) (level : ℚ) : Prop :=
  q * values.length ≤ values.countP (level ≤ ·)

instance (q : ℚ) (values : List ℚ) (level : ℚ) : Decidable (Exceeds q values level) :=
  inferInstanceAs (Decidable (_ ≤ _))

/-- The values leave no gap at the quantile `1 / d`: their number has the remainder zero or one by
`d`, or the neighbours of the position `(n - 1) / d` in ascending order are equal. -/
def NoGapAt (d : ℕ) (values : List ℚ) : Prop :=
  let xs := values.insertionSort (· ≤ ·)
  xs.length % d ≤ 1 ∨ xs.getD ((xs.length - 1) / d) 0 = xs.getD ((xs.length - 1) / d + 1) 0

variable {values : List ℚ}

/-- `PERCENTILE_CONT` is the quantile. -/
theorem percentileCont_eq (hne : values ≠ []) (q : ℚ) :
    percentileCont q values = some (quantile q values) := by
  rw [percentileCont, if_neg (by simpa using hne)]
  rfl

/-- The quantile `1 / d` is exceeded by the other share of the values exactly if they leave no gap
there. -/
theorem exceeds_quantile_iff (hne : values ≠ []) {d : ℕ} (hd : 2 ≤ d) :
    Exceeds (1 - 1 / d) values (quantile (1 / d) values) ↔ NoGapAt d values := by
  have hperm := List.perm_insertionSort (· ≤ ·) values
  have hne' : values.insertionSort (· ≤ ·) ≠ [] := fun h => hne (by simpa [h] using hperm.symm)
  have hpos : (0 : ℚ) < d := by positivity
  have hquantile : quantile (1 / d) values
      = valueAt (values.insertionSort (· ≤ ·))
          (((values.insertionSort (· ≤ ·)).length - 1) / d) := by
    rw [quantile, one_div_mul_eq_div]
  have hshare : (1 - 1 / (d : ℚ)) * values.length = values.length * ((d : ℚ) - (1 : ℕ)) / d := by
    field_simp
    push_cast
    ring
  unfold NoGapAt Exceeds
  rw [← exceeds_valueAt_iff (List.pairwise_insertionSort _ values) hne' hd, ← hquantile,
    hperm.countP_eq, hperm.length_eq, hshare, div_le_iff₀ hpos, ← Nat.cast_le (α := ℚ),
    Nat.cast_mul, Nat.cast_mul, Nat.cast_sub (by omega)]

/-! ## The reliability query -/

/-- The query on some values: three quantiles, the mean and the largest value. -/
theorem reliabilityQuery_eq (hne : values ≠ []) {maxGen : ℚ} (hmax : values.max? = some maxGen) :
    reliabilityQuery values
      = some (quantile (10 / 100) values, quantile (20 / 100) values, values.sum / values.length,
          quantile (1 / 2) values, maxGen) := by
  have havg : avg values = some (values.sum / values.length) := if_neg (by simpa using hne)
  rw [reliabilityQuery, percentileCont_eq hne, percentileCont_eq hne, percentileCont_eq hne, havg,
    hmax]
  rfl

/-- **P10 and P20 as exceedance levels.** For every window with rows, the quantiles of the query are
reached by 90% and by 80% of the rows exactly if the rows leave no gap at the two quantiles. -/
theorem reliability_exceeded_iff (conn : Conn) (start stop : Datetime)
    (hne : windowGeneration conn start stop ≠ []) :
    ∃ p10 p20 meanGen medianGen maxGen,
      reliabilityQuery (windowGeneration conn start stop)
        = some (p10, p20, meanGen, medianGen, maxGen) ∧
      (Exceeds (90 / 100) (windowGeneration conn start stop) p10 ∧
          Exceeds (80 / 100) (windowGeneration conn start stop) p20 ↔
        NoGapAt 10 (windowGeneration conn start stop) ∧
          NoGapAt 5 (windowGeneration conn start stop)) := by
  generalize windowGeneration conn start stop = values at hne
  obtain ⟨maxGen, hmax⟩ : ∃ m, values.max? = some m :=
    Option.ne_none_iff_exists'.mp (by simpa using hne)
  refine ⟨_, _, _, _, _, reliabilityQuery_eq hne hmax, ?_⟩
  have h10 := exceeds_quantile_iff hne (by norm_num : 2 ≤ 10)
  have h5 := exceeds_quantile_iff hne (by norm_num : 2 ≤ 5)
  norm_num at h10 h5 ⊢
  rw [h10, h5]

/-! ### An evening -/

/-- 2024-01-01T18:00:00, as the session reads it. -/
def eveningStart : Datetime := .ofFields 2024 1 1 18 0 0 0 none (by decide)

/-- 2024-01-01T19:00:00, as the session reads it. -/
def eveningStop : Datetime := .ofFields 2024 1 1 19 0 0 0 none (by decide)

/-- The generation of 2024-01-01T18:00Z, 18:30Z and 19:00Z. -/
def evening (a b c : ℚ) : ActualGeneration :=
  ⟨[⟨1704132000000000, 19723, 37, a, "WIND"⟩, ⟨1704133800000000, 19723, 38, b, "WIND"⟩,
    ⟨1704135600000000, 19723, 39, c, "WIND"⟩], by simp⟩

/-- The lowest two of three rows are equal, so P10 and P20 are the lowest value. -/
theorem reliability_exceeded_iff_evening :
    ∃ p10 p20 meanGen medianGen maxGen,
      reliabilityQuery [4, 4, 10] = some (p10, p20, meanGen, medianGen, maxGen) ∧
      (Exceeds (90 / 100) [4, 4, 10] p10 ∧ Exceeds (80 / 100) [4, 4, 10] p20 ↔
        NoGapAt 10 [4, 4, 10] ∧ NoGapAt 5 [4, 4, 10]) := by
  have hrows : windowGeneration ⟨⟨evening 4 4 10, .empty⟩, 0⟩ eveningStart eveningStop
      = [4, 4, 10] := by decide +kernel
  rw [← hrows]
  exact reliability_exceeded_iff ⟨⟨evening 4 4 10, .empty⟩, 0⟩ eveningStart eveningStop
    (hrows ▸ List.cons_ne_nil _ _)

/-- With 0, 5 and 10 MW, P10 is 1 MW, which two of the three rows reach. -/
theorem not_exceeds_evening :
    reliabilityQuery (windowGeneration ⟨⟨evening 0 5 10, .empty⟩, 0⟩ eveningStart eveningStop)
        = some (1, 2, 5, 5, 10) ∧
      ¬ Exceeds (90 / 100)
        (windowGeneration ⟨⟨evening 0 5 10, .empty⟩, 0⟩ eveningStart eveningStop) 1 := by
  decide +kernel

end WindSight
