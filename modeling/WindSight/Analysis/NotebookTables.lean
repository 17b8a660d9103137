import WindSight.Analysis.ComputeErrors
import WindSight.Analysis.NotebookMetrics
import WindSight.Backend.CacheTransparency
import WindSight.Backend.HorizonOrder
import WindSight.Backend.HourlyErrors
import WindSight.Backend.Reliability
import WindSight.Backend.Routers

/-! # The tables of the notebook

The notebook groups the errors by hour, sweeps the horizon and describes the generation with pandas,
where the API uses Python and DuckDB. Over a window that holds all actuals the two agree up to the
rounding of the API (`notebookTables_agree`). The sweep over the horizons has no gaps, and its
sample counts do not rise (`horizonSweep_initial`). -/

namespace WindSight

open ListQuery OrderStatistics Rounding

/-! ## The cells -/

/-- `errors_df.groupby('hour_of_day')['abs_error_mw'].agg(['mean', 'count'])`: the hours that occur,
in ascending order, each with its mean and its count. -/
def hourlyMae (errors : List ForecastError) : List (ℤ × ℚ × ℕ) :=
  let hours := (errors.map ForecastError.hourOfDay).dedup.insertionSort (· ≤ ·)
  hours.map fun hour =>
    let group := (errors.filter (·.hourOfDay = hour)).map ForecastError.absErrorMw
    (hour, group.sum / group.length, group.length)

/-- `gen`: the generation of all actuals, in the order of their time. -/
def notebookGeneration (conn : Conn) : List ℚ :=
  (orderBy ActualRow.startTime conn.db.actualGeneration.rows).map ActualRow.generationMw

/-- `quantiles` and `capacity_factor`; NaN on no values. -/
structure GenerationQuantiles where
  p10 : Option ℚ
  p20 : Option ℚ
  p25 : Option ℚ
  p50 : Option ℚ
  mean : Option ℚ
  p75 : Option ℚ
  p90 : Option ℚ
  maximum : Option ℚ
  capacityFactor : Option ℚ
  deriving DecidableEq, Repr

/-- The cell that computes the quantiles; the installed capacity is 30000 MW. -/
def generationQuantiles (gen : List ℚ) : GenerationQuantiles where
  p10 := seriesQuantile (10 / 100) gen
  p20 := seriesQuantile (20 / 100) gen
  p25 := seriesQuantile (25 / 100) gen
  p50 := seriesQuantile (50 / 100) gen
  mean := seriesMean gen
  p75 := seriesQuantile (75 / 100) gen
  p90 := seriesQuantile (90 / 100) gen
  maximum := gen.max?
  capacityFactor := (seriesMean gen).map (· / 30000)

/-- `horizons`. -/
def sweptHorizons : List ℚ := [0, 1, 2, 4, 6, 8, 12, 16, 20, 24, 30, 36, 42, 48]

/-- A row of `horizon_results`. -/
structure SweepRow where
  horizon : ℚ
  mae : Option ℚ
  median : Option ℚ
  p99 : Option ℚ
  count : ℕ
  deriving DecidableEq, Repr

/-- The row of one horizon. -/
def sweepRow (conn : Conn) (h : ℚ) : SweepRow :=
  let df := computeErrors conn h
  let absErrors := df.map ForecastError.absErrorMw
  { horizon := h
    mae := seriesMean absErrors
    median := seriesMedian absErrors
    p99 := seriesQuantile (99 / 100) absErrors
    count := df.length }

/-- `horizon_results`: a row for each horizon that has errors. -/
def horizonSweep (conn : Conn) : List SweepRow :=
  (sweptHorizons.filter fun h => 0 < (computeErrors conn h).length).map (sweepRow conn)

/-! ## Agreement with the API -/

/-- The window holds every actual. -/
def CoversActuals (conn : Conn) (start stop : Datetime) : Prop :=
  ∀ a ∈ conn.db.actualGeneration, conn.bind start ≤ a.startTime ∧ a.startTime ≤ conn.bind stop

section Agreement

variable {conn : Conn} {start stop : Datetime}

private instance errorTimeIrrefl :
    Std.Irrefl fun e e' : ForecastError => e.timestamp < e'.timestamp :=
  ⟨fun e => lt_irrefl e.timestamp⟩

/-- The two error queries agree over a window that holds every actual. -/
theorem CoversActuals.getForecastErrors_eq (hcovers : CoversActuals conn start stop) (h : ℚ) :
    getForecastErrors conn start stop h = computeErrors conn h := by
  refine (getForecastErrors_pairwise conn start stop h).eq_of_mem_iff
    (computeErrors_pairwise conn h) ?_
  intro e
  rw [mem_getForecastErrors, mem_computeErrors]
  constructor
  · rintro ⟨a, ha, -, hf⟩
    exact ⟨a, ha, hf⟩
  · rintro ⟨a, ha, hf⟩
    exact ⟨a, ha, hcovers a ha, hf⟩

/-- The values of the reliability query are those of the notebook, in another order. -/
theorem CoversActuals.generation_perm (hcovers : CoversActuals conn start stop) :
    (notebookGeneration conn).Perm (windowGeneration conn start stop) := by
  unfold notebookGeneration windowGeneration
  rw [List.filter_eq_self.mpr fun a ha => by simpa using hcovers a ha]
  exact (orderBy_perm _ _).map _

/-- Quantiles forget the order of the values. -/
theorem seriesQuantile_of_perm {values values' : List ℚ} (h : values.Perm values')
    (hne : values' ≠ []) (q : ℚ) : seriesQuantile q values = some (quantile q values') := by
  have hne' : values ≠ [] := fun hnil => hne (List.nil_perm.mp (hnil ▸ h))
  rw [seriesQuantile, if_neg (by simpa using hne'), insertionSort_congr h]
  rfl

/-- The mean of a series does not depend on the order of its values. -/
theorem seriesMean_of_perm {values values' : List ℚ} (h : values.Perm values')
    (hne : values' ≠ []) : seriesMean values = some (values'.sum / values'.length) := by
  have hne' : values ≠ [] := fun hnil => hne (List.nil_perm.mp (hnil ▸ h))
  rw [seriesMean, if_neg (by simpa using hne'), h.sum_eq, h.length_eq]

theorem max?_of_perm {values values' : List ℚ} (h : values.Perm values') :
    values.max? = values'.max? := by
  refine Option.ext fun m => ?_
  rw [List.max?_eq_some_iff, List.max?_eq_some_iff, h.mem_iff]
  exact and_congr_right fun _ => forall_congr' fun x => by rw [h.mem_iff]

/-- The hours that occur, in ascending order. -/
theorem hours_eq (errors : List ForecastError) (hhours : ∀ e ∈ errors, e.hourOfDay ∈ hoursOfDay) :
    (errors.map ForecastError.hourOfDay).dedup.insertionSort (· ≤ ·)
      = hoursOfDay.filter fun hour => (hourly errors hour).length ≠ 0 := by
  have hsorted : hoursOfDay.Pairwise (· ≤ ·) := by decide
  have hperm : (errors.map ForecastError.hourOfDay).dedup.Perm
      (hoursOfDay.filter fun hour => (hourly errors hour).length ≠ 0) := by
    refine (List.perm_ext_iff_of_nodup (List.nodup_dedup _) (hoursOfDay_nodup.filter _)).mpr ?_
    intro hour
    rw [List.mem_dedup, List.mem_map, List.mem_filter, decide_eq_true_eq, length_hourly,
      ← Nat.pos_iff_ne_zero, List.countP_pos_iff]
    constructor
    · rintro ⟨e, he, rfl⟩
      exact ⟨hhours e he, e, he, decide_eq_true rfl⟩
    · rintro ⟨-, e, he, hhour⟩
      exact ⟨e, he, of_decide_eq_true hhour⟩
  rw [insertionSort_congr hperm]
  exact (hsorted.filter _).insertionSort_eq

/-- The buckets of the API that have rows are the groups of the notebook, rounded. -/
theorem hourlyMae_rounded {errors : List ForecastError}
    (hhours : ∀ e ∈ errors, e.hourOfDay ∈ hoursOfDay) :
    ((computeHourlyErrors errors).filter (·.sampleCount ≠ 0)).map
        (fun e => ((e.hour : ℤ), e.mae, e.sampleCount))
      = (hourlyMae errors).map fun x => (x.1, roundTo 2 x.2.1, x.2.2) := by
  rw [hourlyMae]
  dsimp only
  rw [hours_eq errors hhours, computeHourlyErrors_eq, List.filter_map, List.map_map, List.map_map]
  refine List.map_congr_left fun hour hhour => ?_
  have hrange := mem_hoursOfDay.mp (List.mem_of_mem_filter hhour)
  simp only [Function.comp_apply, hourlyError, hourly_eq, Int.toNat_of_nonneg hrange.1]

end Agreement

/-- **The notebook and the API agree.** Over a window that holds every actual, with at least one,
the hourly errors of the API, where it has rows, are the notebook's groups rounded to two digits,
and its reliability metrics are the notebook's quantiles and capacity factor, rounded. -/
theorem notebookTables_agree {conn : Conn} {start stop : Datetime}
    (hcovers : CoversActuals conn start stop) (hne : conn.db.actualGeneration.rows ≠ [])
    (horizon : Horizon) :
    let r := metricsResponse conn start stop horizon
    let q := generationQuantiles (notebookGeneration conn)
    (r.hourlyErrors.filter (·.sampleCount ≠ 0)).map
        (fun e => ((e.hour : ℤ), e.mae, e.sampleCount))
      = (hourlyMae (computeErrors conn horizon.value)).map
          (fun x => (x.1, roundTo 2 x.2.1, x.2.2)) ∧
    q.p10.map (roundTo 2) = some r.reliability.p10GenerationMw ∧
    q.p20.map (roundTo 2) = some r.reliability.p20GenerationMw ∧
    q.mean.map (roundTo 2) = some r.reliability.meanGenerationMw ∧
    q.p50.map (roundTo 2) = some r.reliability.medianGenerationMw ∧
    q.maximum.map (roundTo 2) = some r.reliability.maxGenerationMw ∧
    q.capacityFactor.map (roundTo 4) = some r.reliability.capacityFactor := by
  intro r q
  have hhourly : r.hourlyErrors = computeHourlyErrors (computeErrors conn horizon.value) := by
    show computeHourlyErrors (getForecastErrors conn start stop horizon.value) = _
    rw [hcovers.getForecastErrors_eq]
  have hhours : ∀ e ∈ computeErrors conn horizon.value, e.hourOfDay ∈ hoursOfDay := by
    intro e he
    obtain ⟨a, -, f, -, -, rfl⟩ := mem_computeErrors.mp he
    exact extractHour_mem_hoursOfDay conn a.startTime
  refine ⟨hhourly ▸ hourlyMae_rounded hhours, ?_⟩
  -- the values of the two, in different orders
  have hperm := hcovers.generation_perm
  have hne' : windowGeneration conn start stop ≠ [] := by
    intro hnil
    have hlength := (hnil ▸ hperm).length_eq
    rw [notebookGeneration, List.length_map, (orderBy_perm _ _).length_eq] at hlength
    exact hne (List.length_eq_zero_iff.mp hlength)
  obtain ⟨maxGen, hmax⟩ : ∃ m, (windowGeneration conn start stop).max? = some m :=
    Option.ne_none_iff_exists'.mp (by simpa using hne')
  have hreliability : r.reliability = getReliabilityMetrics conn start stop := rfl
  rw [hreliability, getReliabilityMetrics, reliabilityQuery_eq hne' hmax]
  have hcapacity : installedCapacityMw > 0 := by decide
  have hhalf : (50 / 100 : ℚ) = 1 / 2 := by norm_num
  simp only [q, generationQuantiles, seriesQuantile_of_perm hperm hne',
    seriesMean_of_perm hperm hne', max?_of_perm hperm, hmax, Option.map_some, if_pos hcapacity,
    hhalf, true_and]
  rfl

/-- Three actuals of an evening, and no forecast: P10 of the notebook is the 4 MW of the API. -/
theorem notebookTables_agree_evening :
    ((generationQuantiles (notebookGeneration ⟨⟨evening 4 4 10, .empty⟩, 0⟩)).p10.map (roundTo 2)
      = some 4) := by
  have hcovers : CoversActuals ⟨⟨evening 4 4 10, .empty⟩, 0⟩ eveningStart eveningStop := by
    have hall : ∀ a ∈ (evening 4 4 10).rows,
        (⟨⟨evening 4 4 10, .empty⟩, 0⟩ : Conn).bind eveningStart ≤ a.startTime ∧
          a.startTime ≤ (⟨⟨evening 4 4 10, .empty⟩, 0⟩ : Conn).bind eveningStop := by
      decide +kernel
    exact hall
  obtain ⟨-, hp10, -⟩ := notebookTables_agree hcovers (List.cons_ne_nil _ _) exampleHorizon
  rw [hp10]
  decide +kernel

/-! ## The sweep -/

section Sweep

variable {conn : Conn} {h h₁ h₂ : ℚ}

/-- A slot with an error at a horizon has one at every smaller horizon. -/
theorem exists_computeErrors_of_le (hle : h₁ ≤ h₂) {e : ForecastError}
    (he : e ∈ computeErrors conn h₂) :
    ∃ e' ∈ computeErrors conn h₁, e'.timestamp = e.timestamp := by
  obtain ⟨a, ha, f, hf, hslot, rfl⟩ := mem_computeErrors.mp he
  obtain ⟨f', hf', hslot'⟩ := exists_isSelected hf.mem (hf.eligible.mono hle)
  exact ⟨_, mem_computeErrors.mpr ⟨a, ha, f', hf', hslot'.trans hslot, rfl⟩, rfl⟩

/-- A larger horizon has no more errors. -/
theorem length_computeErrors_anti (conn : Conn) (hle : h₁ ≤ h₂) :
    (computeErrors conn h₂).length ≤ (computeErrors conn h₁).length := by
  have hnodup : ((computeErrors conn h₂).map ForecastError.timestamp).Nodup :=
    List.pairwise_map.mpr ((computeErrors_pairwise conn h₂).imp ne_of_lt)
  have hsubset : (computeErrors conn h₂).map ForecastError.timestamp
      ⊆ (computeErrors conn h₁).map ForecastError.timestamp := by
    intro t ht
    obtain ⟨e, he, rfl⟩ := List.mem_map.mp ht
    obtain ⟨e', he', htime⟩ := exists_computeErrors_of_le hle he
    exact List.mem_map.mpr ⟨e', he', htime⟩
  simpa using (hnodup.subperm hsubset).length_le

/-- The horizons are swept in ascending order. -/
theorem sweptHorizons_pairwise : sweptHorizons.Pairwise (· < ·) := by
  norm_num [sweptHorizons]

/-- The horizons of the rows. -/
theorem horizons_horizonSweep (conn : Conn) :
    (horizonSweep conn).map SweepRow.horizon
      = sweptHorizons.filter fun h => 0 < (computeErrors conn h).length := by
  rw [horizonSweep, List.map_map]
  exact List.map_id _

/-- The median is the quantile in the middle. -/
theorem seriesMedian_eq (values : List ℚ) :
    seriesMedian values = seriesQuantile (1 / 2) values := by
  unfold seriesMedian seriesQuantile
  split_ifs with hempty
  · rfl
  · have hpos : 0 < (values.insertionSort (· ≤ ·)).length := by
      rw [List.length_insertionSort]
      exact List.length_pos_iff.mpr (by simpa using hempty)
    dsimp only
    generalize values.insertionSort (· ≤ ·) = xs at hpos
    rcases Nat.even_or_odd' (xs.length - 1) with ⟨k, hk | hk⟩
    · -- a value in the middle
      have hposition : (1 / 2 : ℚ) * (xs.length - 1) = k := by
        have hcast : (xs.length : ℚ) = 2 * k + 1 := by exact_mod_cast (by omega : _ = 2 * k + 1)
        rw [hcast]
        ring
      rw [hposition, valueAt_natCast, show (xs.length - 1) / 2 = k by omega,
        show xs.length / 2 = k by omega, add_self_div_two]
    · -- two values in the middle
      have hposition : (1 / 2 : ℚ) * (xs.length - 1) = k + 1 / 2 := by
        have hcast : (xs.length : ℚ) = 2 * k + 2 := by exact_mod_cast (by omega : _ = 2 * k + 2)
        rw [hcast]
        ring
      rw [hposition, valueAt_between xs (k := k) (by linarith) (by linarith),
        show (xs.length - 1) / 2 = k by omega, show xs.length / 2 = k + 1 by omega]
      congr 1
      ring

/-- Of values that are not negative, the mean is not negative, and neither is the median, which the
99th percentile reaches. -/
theorem series_nonneg {values : List ℚ} (hne : values ≠ []) (hnonneg : ∀ v ∈ values, 0 ≤ v) :
    ∃ mean median p99, seriesMean values = some mean ∧ seriesMedian values = some median ∧
      seriesQuantile (99 / 100) values = some p99 ∧ 0 ≤ mean ∧ 0 ≤ median ∧ median ≤ p99 := by
  have hempty : ¬ values.isEmpty := by simpa using hne
  have hmean : 0 ≤ values.sum / values.length := le_mean hne hnonneg
  rw [seriesMedian_eq, seriesMean, seriesQuantile, seriesQuantile, if_neg hempty, if_neg hempty,
    if_neg hempty]
  have hsorted := List.pairwise_insertionSort (· ≤ ·) values
  have hlen : 0 < (values.insertionSort (· ≤ ·)).length := by
    rw [List.length_insertionSort]
    exact List.length_pos_iff.mpr hne
  have hlow : 0 ≤ (values.insertionSort (· ≤ ·)).getD 0 0 := by
    rw [List.getD_eq_getElem _ _ hlen]
    exact hnonneg _ ((List.mem_insertionSort _).mp (List.getElem_mem hlen))
  have hcast : (1 : ℚ) ≤ (values.insertionSort (· ≤ ·)).length := by exact_mod_cast hlen
  refine ⟨_, _, _, rfl, rfl, rfl, hmean, ?_, ?_⟩
  · calc (0 : ℚ)
        ≤ valueAt (values.insertionSort (· ≤ ·)) ((0 : ℕ) : ℚ) := by
          rw [valueAt_natCast]
          exact hlow
      _ ≤ _ := valueAt_mono hsorted (by norm_num) (by push_cast; linarith) (by linarith)
  · exact valueAt_mono hsorted (by linarith) (by linarith) (by linarith)

/-- Absolute errors are not negative. -/
theorem absErrorMw_nonneg {e : ForecastError} (he : e ∈ computeErrors conn h) :
    0 ≤ e.absErrorMw := by
  obtain ⟨a, -, f, -, -, rfl⟩ := mem_computeErrors.mp he
  exact abs_nonneg _

end Sweep

/-- **The sweep over the horizons.** The horizons with a row are an initial part of those swept: no
horizon is missing before one that has errors. The counts do not rise from row to row, and every row
has its three statistics, with the median not above the 99th percentile. -/
theorem horizonSweep_initial (conn : Conn) :
    (horizonSweep conn).map SweepRow.horizon <+: sweptHorizons ∧
    (horizonSweep conn).Pairwise (fun r r' => r'.count ≤ r.count) ∧
    ∀ r ∈ horizonSweep conn, 0 < r.count ∧
      ∃ mean median p99, r.mae = some mean ∧ r.median = some median ∧ r.p99 = some p99 ∧
        0 ≤ mean ∧ 0 ≤ median ∧ median ≤ p99 := by
  refine ⟨?_, ?_, ?_⟩
  · rw [horizons_horizonSweep]
    refine filter_isPrefix (sweptHorizons_pairwise.imp ?_)
    intro h₁ h₂ hlt hpos
    exact hpos.trans_le (length_computeErrors_anti conn hlt.le)
  · refine List.pairwise_map.mpr ((sweptHorizons_pairwise.filter _).imp ?_)
    intro h₁ h₂ hlt
    exact length_computeErrors_anti conn hlt.le
  · intro r hr
    obtain ⟨h, hh, rfl⟩ := List.mem_map.mp hr
    have hpos : 0 < (computeErrors conn h).length := by simpa using List.of_mem_filter hh
    refine ⟨hpos, series_nonneg ?_ ?_⟩
    · exact fun hnil => (List.length_pos_iff.mp hpos) (List.map_eq_nil_iff.mp hnil)
    · intro v hv
      obtain ⟨e, he, rfl⟩ := List.mem_map.mp hv
      exact absErrorMw_nonneg he

end WindSight
