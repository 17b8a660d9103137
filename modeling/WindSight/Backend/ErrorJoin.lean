import WindSight.Backend.HorizonSelection
import WindSight.Backend.Routers

/-! # Agreement of the metrics with the chart

The errors behind `/metrics` are joined in SQL from a third copy of the two selections that
`/generation` and `/forecast` return. `mem_getForecastErrors` reduces the join to rows of the
tables; from it, the errors are the time-ordered join of the two series, and the sample count is the
number of timestamps the series share. -/

namespace WindSight

open ListQuery

variable {conn : Conn} {start stop : Datetime} {h : ℚ}

/-! ## The three series -/

/-- The points of `/generation` are the actuals of the window. -/
theorem mem_generationQuery {p : GenerationPoint} :
    p ∈ generationQuery conn start stop ↔
      ∃ a ∈ conn.db.actualGeneration,
        (conn.bind start ≤ a.startTime ∧ a.startTime ≤ conn.bind stop) ∧
          p = ⟨a.startTime, a.generationMw⟩ := by
  rw [generationQuery, mem_orderBy, List.mem_map]
  simp only [List.mem_filter, decide_eq_true_eq, KeyedTable.mem_rows, and_assoc, eq_comm (a := p)]

/-- The points of `/generation` are strictly increasing in time. -/
theorem generationQuery_pairwise (conn : Conn) (start stop : Datetime) :
    (generationQuery conn start stop).Pairwise fun p q => p.timestamp < q.timestamp := by
  rw [generationQuery]
  apply orderBy_pairwise_lt
  rw [List.map_map]
  exact conn.db.actualGeneration.nodup.sublist (List.filter_sublist.map _)

/-- The error row of an actual and a forecast of its slot. -/
def forecastErrorOf (conn : Conn) (a : ActualRow) (f : ForecastRow) : ForecastError where
  timestamp := a.startTime
  actualMw := a.generationMw
  forecastMw := f.generationMw
  errorMw := f.generationMw - a.generationMw
  absErrorMw := |f.generationMw - a.generationMw|
  hourOfDay := conn.extractHour a.startTime

/-- The errors are the rows of the actuals of the window that have a selected forecast. -/
theorem mem_getForecastErrors {e : ForecastError} :
    e ∈ getForecastErrors conn start stop h ↔
      ∃ a ∈ conn.db.actualGeneration,
        (conn.bind start ≤ a.startTime ∧ a.startTime ≤ conn.bind stop) ∧
          ∃ f, IsSelected conn.db.windForecast h f ∧ f.startTime = a.startTime ∧
            e = forecastErrorOf conn a f := by
  rw [getForecastErrors, mem_orderBy, List.mem_map, ← bestForecasts]
  constructor
  · rintro ⟨⟨a, f⟩, hmem, rfl⟩
    obtain ⟨hjoin, hwin⟩ := List.mem_filter.mp hmem
    obtain ⟨ha, hf, hslot⟩ := mem_innerJoin.mp hjoin
    exact ⟨a, ha, decide_eq_true_eq.mp hwin, f, (mem_bestForecasts.mp hf).2, hslot.symm, rfl⟩
  · rintro ⟨a, ha, hwin, f, hf, hslot, rfl⟩
    refine ⟨(a, f), List.mem_filter.mpr ⟨mem_innerJoin.mpr ⟨ha, ?_, hslot.symm⟩, ?_⟩, rfl⟩
    · exact mem_bestForecasts.mpr ⟨hslot.symm ▸ hwin, hf⟩
    · exact decide_eq_true_eq.mpr hwin

/-- The errors are strictly increasing in time: neither table makes the join fan out. -/
theorem getForecastErrors_pairwise (conn : Conn) (start stop : Datetime) (h : ℚ) :
    (getForecastErrors conn start stop h).Pairwise fun e e' => e.timestamp < e'.timestamp := by
  rw [getForecastErrors, ← bestForecasts]
  apply orderBy_pairwise_lt
  rw [List.map_map]
  exact (innerJoin_nodup conn.db.actualGeneration.nodup
    (bestForecasts_nodup conn start stop h)).sublist (List.filter_sublist.map _)

/-! ## The join of the series -/

/-- A slot has an error row exactly when both series have a point there. -/
theorem exists_forecastError_iff (t : Instant) :
    (∃ e ∈ getForecastErrors conn start stop h, e.timestamp = t) ↔
      (∃ p ∈ generationQuery conn start stop, p.timestamp = t) ∧
        ∃ f ∈ getHorizonForecast conn start stop h, f.timestamp = t := by
  constructor
  · rintro ⟨e, he, rfl⟩
    obtain ⟨a, ha, hwin, f, hf, hslot, rfl⟩ := mem_getForecastErrors.mp he
    exact ⟨⟨_, mem_generationQuery.mpr ⟨a, ha, hwin, rfl⟩, rfl⟩,
      ⟨_, mem_getHorizonForecast.mpr ⟨f, hslot.symm ▸ hwin, hf, rfl⟩, hslot⟩⟩
  · rintro ⟨⟨p, hp, rfl⟩, q, hq, hslot⟩
    obtain ⟨a, ha, hwin, rfl⟩ := mem_generationQuery.mp hp
    obtain ⟨f, -, hf, rfl⟩ := mem_getHorizonForecast.mp hq
    exact ⟨_, mem_getForecastErrors.mpr ⟨a, ha, hwin, f, hf, hslot, rfl⟩, rfl⟩

/-- An error row holds the values of the two points at its time. -/
theorem forecastError_values {e : ForecastError} (he : e ∈ getForecastErrors conn start stop h)
    {p : GenerationPoint} (hp : p ∈ generationQuery conn start stop)
    (hpt : p.timestamp = e.timestamp)
    {q : HorizonForecast} (hq : q ∈ getHorizonForecast conn start stop h)
    (hqt : q.timestamp = e.timestamp) :
    e.actualMw = p.generationMw ∧ e.forecastMw = q.generationMw := by
  obtain ⟨a, ha, -, f, hf, hslot, rfl⟩ := mem_getForecastErrors.mp he
  obtain ⟨a', ha', -, rfl⟩ := mem_generationQuery.mp hp
  obtain ⟨f', -, hf', rfl⟩ := mem_getHorizonForecast.mp hq
  obtain rfl : a' = a := KeyedTable.eq_of_key_eq ha' ha hpt
  obtain rfl : f' = f := isSelected_unique hf' hf (hqt.trans hslot.symm)
  exact ⟨rfl, rfl⟩

/-- The sample count is the number of errors, also on no errors. -/
theorem sampleCount_eq (errors : List ForecastError) :
    (computeErrorMetrics errors).sampleCount = errors.length := by
  cases errors with
  | nil => rfl
  | cons e es =>
    show (absErrors (e :: es)).length = (e :: es).length
    rw [absErrors, List.length_insertionSort, List.length_map]

/-- The number of errors is the number of timestamps the two series share. -/
theorem length_getForecastErrors (conn : Conn) (start stop : Datetime) (h : ℚ) :
    (getForecastErrors conn start stop h).length =
      (((generationQuery conn start stop).map GenerationPoint.timestamp).toFinset ∩
        ((getHorizonForecast conn start stop h).map HorizonForecast.timestamp).toFinset).card := by
  have hnd : ((getForecastErrors conn start stop h).map ForecastError.timestamp).Nodup :=
    List.pairwise_map.mpr ((getForecastErrors_pairwise conn start stop h).imp ne_of_lt)
  rw [← List.length_map ForecastError.timestamp, ← List.toFinset_card_of_nodup hnd]
  congr 1
  ext t
  simp only [List.mem_toFinset, List.mem_map, Finset.mem_inter]
  exact exists_forecastError_iff t

/-- **The metrics and the chart agree.** The errors are, in strictly increasing time order, one row
for each timestamp common to the `/generation` query and the horizon selection, made of the values
the two series have there; so the sample count of `/metrics` is the number of timestamps common to
the series that `/generation` and `/forecast` return. -/
theorem getForecastErrors_joins_series (conn : Conn) (start stop : Datetime) (h : ℚ) :
    ((getForecastErrors conn start stop h).Pairwise fun e e' => e.timestamp < e'.timestamp) ∧
    (∀ t, (∃ e ∈ getForecastErrors conn start stop h, e.timestamp = t) ↔
      (∃ p ∈ generationQuery conn start stop, p.timestamp = t) ∧
        ∃ q ∈ getHorizonForecast conn start stop h, q.timestamp = t) ∧
    (∀ e ∈ getForecastErrors conn start stop h,
      (∀ p ∈ generationQuery conn start stop, p.timestamp = e.timestamp →
        e.actualMw = p.generationMw) ∧
      (∀ q ∈ getHorizonForecast conn start stop h, q.timestamp = e.timestamp →
        e.forecastMw = q.generationMw) ∧
      e.errorMw = e.forecastMw - e.actualMw ∧
      e.absErrorMw = |e.errorMw|) ∧
    ∀ horizon : Horizon,
      (metricsResponse conn start stop horizon).errorMetrics.sampleCount =
        (((generationResponse conn start stop).data.map GenerationPoint.timestamp).toFinset ∩
          ((forecastResponse conn start stop horizon).data.map
            ForecastPoint.timestamp).toFinset).card := by
  refine ⟨getForecastErrors_pairwise conn start stop h, exists_forecastError_iff, fun e he => ?_,
    fun horizon => ?_⟩
  · -- the two points at the time of the error
    obtain ⟨⟨p, hp, hpt⟩, q, hq, hqt⟩ := (exists_forecastError_iff e.timestamp).mp ⟨e, he, rfl⟩
    refine ⟨fun p' hp' hpt' => (forecastError_values he hp' hpt' hq hqt).1,
      fun q' hq' hqt' => (forecastError_values he hp hpt hq' hqt').2, ?_⟩
    obtain ⟨a, -, -, f, -, -, rfl⟩ := mem_getForecastErrors.mp he
    exact ⟨rfl, rfl⟩
  · rw [metricsResponse, sampleCount_eq, length_getForecastErrors]
    simp only [generationResponse, forecastResponse, forecastResponseOf, List.map_map]
    rfl

end WindSight
