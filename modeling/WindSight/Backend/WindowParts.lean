import WindSight.Backend.CacheTransparency
import WindSight.Backend.HourlyErrors
import WindSight.Backend.Reliability
import WindSight.Library.WindowQuery

/-! # Parts of a window

The responses over a window against those over its parts. A window is cut where no target time lies,
so its parts are closed intervals that miss no row and share none. The series of `/generation` and
`/forecast` are those of the parts one after another; the counts of `/metrics` add up; its rounded
means, weighted by their counts, miss the one of the whole by the two roundings at most; and its
maximum is the largest one of the parts that have an actual. The quantiles and the root mean square
have no such rule. -/

namespace WindSight

open ListQuery Rounding

variable {conn : Conn} {start stop : Datetime} {cuts : List (Datetime × Datetime)}

/-! ## The queries as window queries -/

/-- The target times the tables have rows for. -/
def Conn.slots (conn : Conn) : Set Instant :=
  {t | (∃ a ∈ conn.db.actualGeneration, a.startTime = t) ∨
    ∃ f ∈ conn.db.windForecast, f.startTime = t}

/-- The points the table of actuals has. -/
def actualPointsOf (conn : Conn) : Set GenerationPoint :=
  {p | ∃ a ∈ conn.db.actualGeneration, p = ⟨a.startTime, a.generationMw⟩}

/-- The result rows of the selected forecasts. -/
def selectedForecasts (conn : Conn) (h : ℚ) : Set HorizonForecast :=
  {p | ∃ f, IsSelected conn.db.windForecast h f ∧ f.toHorizonForecast = p}

/-- The error rows of the actuals that have a selected forecast. -/
def joinedErrors (conn : Conn) (h : ℚ) : Set ForecastError :=
  {e | ∃ a ∈ conn.db.actualGeneration, ∃ f, IsSelected conn.db.windForecast h f ∧
    f.startTime = a.startTime ∧ e = forecastErrorOf conn a f}

theorem isWindowQuery_generation (conn : Conn) :
    IsWindowQuery conn.bind GenerationPoint.timestamp (actualPointsOf conn)
      (generationQuery conn) where
  pairwise := generationQuery_pairwise conn
  mem_iff := by
    intro lo hi p
    rw [mem_generationQuery]
    constructor
    · rintro ⟨a, ha, hwin, rfl⟩
      exact ⟨hwin, a, ha, rfl⟩
    · rintro ⟨hwin, a, ha, rfl⟩
      exact ⟨a, ha, hwin, rfl⟩

theorem isWindowQuery_forecast (conn : Conn) (h : ℚ) :
    IsWindowQuery conn.bind HorizonForecast.timestamp (selectedForecasts conn h)
      (getHorizonForecast conn · · h) where
  pairwise := fun lo hi => getHorizonForecast_pairwise conn lo hi h
  mem_iff := by
    intro lo hi p
    rw [mem_getHorizonForecast]
    constructor
    · rintro ⟨f, hwin, hsel, rfl⟩
      exact ⟨hwin, f, hsel, rfl⟩
    · rintro ⟨hwin, f, hsel, rfl⟩
      exact ⟨f, hwin, hsel, rfl⟩

theorem isWindowQuery_errors (conn : Conn) (h : ℚ) :
    IsWindowQuery conn.bind ForecastError.timestamp (joinedErrors conn h)
      (getForecastErrors conn · · h) where
  pairwise := fun lo hi => getForecastErrors_pairwise conn lo hi h
  mem_iff := by
    intro lo hi e
    rw [mem_getForecastErrors]
    constructor
    · rintro ⟨a, ha, hwin, f, hsel, hslot, rfl⟩
      exact ⟨hwin, a, ha, f, hsel, hslot, rfl⟩
    · rintro ⟨hwin, a, ha, f, hsel, hslot, rfl⟩
      exact ⟨a, ha, hwin, f, hsel, hslot, rfl⟩

/-! ### Their keys are slots -/

theorem timestamp_mem_slots_of_actual {p : GenerationPoint} (hp : p ∈ actualPointsOf conn) :
    p.timestamp ∈ conn.slots := by
  obtain ⟨a, ha, rfl⟩ := hp
  exact Or.inl ⟨a, ha, rfl⟩

theorem timestamp_mem_slots_of_forecast {h : ℚ} {p : HorizonForecast}
    (hp : p ∈ selectedForecasts conn h) : p.timestamp ∈ conn.slots := by
  obtain ⟨f, hsel, rfl⟩ := hp
  exact Or.inr ⟨f, hsel.mem, rfl⟩

theorem timestamp_mem_slots_of_error {h : ℚ} {e : ForecastError} (he : e ∈ joinedErrors conn h) :
    e.timestamp ∈ conn.slots := by
  obtain ⟨a, ha, f, -, -, rfl⟩ := he
  exact Or.inl ⟨a, ha, rfl⟩

/-! ## The series -/

theorem generationQuery_parts (hcuts : IsCut conn.bind conn.slots stop start cuts) :
    generationQuery conn start stop
      = (windowParts start cuts stop).flatMap fun w => generationQuery conn w.1 w.2 :=
  (isWindowQuery_generation conn).eq_flatMap (fun _ => timestamp_mem_slots_of_actual) hcuts

theorem getHorizonForecast_parts (hcuts : IsCut conn.bind conn.slots stop start cuts) (h : ℚ) :
    getHorizonForecast conn start stop h
      = (windowParts start cuts stop).flatMap fun w => getHorizonForecast conn w.1 w.2 h :=
  (isWindowQuery_forecast conn h).eq_flatMap (fun _ => timestamp_mem_slots_of_forecast) hcuts

theorem getForecastErrors_parts (hcuts : IsCut conn.bind conn.slots stop start cuts) (h : ℚ) :
    getForecastErrors conn start stop h
      = (windowParts start cuts stop).flatMap fun w => getForecastErrors conn w.1 w.2 h :=
  (isWindowQuery_errors conn h).eq_flatMap (fun _ => timestamp_mem_slots_of_error) hcuts

/-- The values behind the reliability metrics are those of `/generation`, in the table's order. -/
theorem windowGeneration_perm (conn : Conn) (start stop : Datetime) :
    (windowGeneration conn start stop).Perm
      ((generationQuery conn start stop).map GenerationPoint.generationMw) := by
  have hperm := (orderBy_perm GenerationPoint.timestamp
    ((conn.db.actualGeneration.rows.filter fun a =>
        conn.bind start ≤ a.startTime ∧ a.startTime ≤ conn.bind stop).map fun a =>
      (⟨a.startTime, a.generationMw⟩ : GenerationPoint))).map GenerationPoint.generationMw
  rw [List.map_map] at hperm
  exact hperm.symm

theorem length_windowGeneration (conn : Conn) (start stop : Datetime) :
    (windowGeneration conn start stop).length = (generationResponse conn start stop).count := by
  rw [(windowGeneration_perm conn start stop).length_eq, List.length_map]
  rfl

/-- The values of a window are those of its parts. -/
theorem windowGeneration_parts (hcuts : IsCut conn.bind conn.slots stop start cuts) :
    (windowGeneration conn start stop).Perm
      ((windowParts start cuts stop).map fun w => windowGeneration conn w.1 w.2).flatten := by
  have hpoints := windowGeneration_perm conn start stop
  rw [generationQuery_parts hcuts, List.map_flatMap] at hpoints
  rw [← List.flatMap_def]
  exact hpoints.trans (List.Perm.flatMap_left _ fun w _ =>
    (windowGeneration_perm conn w.1 w.2).symm)

/-- The absolute errors of a window are those of its parts. -/
theorem absErrors_parts (hcuts : IsCut conn.bind conn.slots stop start cuts) (h : ℚ) :
    (absErrors (getForecastErrors conn start stop h)).Perm
      ((windowParts start cuts stop).map fun w =>
        absErrors (getForecastErrors conn w.1 w.2 h)).flatten := by
  have hrows := perm_absErrors (getForecastErrors conn start stop h)
  rw [getForecastErrors_parts hcuts, List.map_flatMap, ← getForecastErrors_parts hcuts] at hrows
  rw [← List.flatMap_def]
  exact hrows.trans (List.Perm.flatMap_left _ fun w _ => (perm_absErrors _).symm)

/-- The absolute errors of one hour of a window are those of its parts. -/
theorem hourly_parts (hcuts : IsCut conn.bind conn.slots stop start cuts) (h : ℚ) (hour : ℤ) :
    hourly (getForecastErrors conn start stop h) hour
      = ((windowParts start cuts stop).map fun w =>
          hourly (getForecastErrors conn w.1 w.2 h) hour).flatten := by
  simp only [hourly_eq]
  rw [getForecastErrors_parts hcuts, List.filter_flatMap, List.map_flatMap, List.flatMap_def]

/-! ## The statistics -/

/-- The mean absolute error, on any number of errors. -/
theorem meanAbsoluteError_eq (errors : List ForecastError) :
    (computeErrorMetrics errors).meanAbsoluteError
      = roundTo 2 ((absErrors errors).sum / (absErrors errors).length) := by
  cases errors with
  | nil => simp [computeErrorMetrics, absErrors]
  | cons e errors => rfl

/-- The mean and the maximum of the generation, on some values. -/
theorem getReliabilityMetrics_mean_max (hne : windowGeneration conn start stop ≠ []) :
    ∃ maxGen, IsGreatest {x | x ∈ windowGeneration conn start stop} maxGen ∧
      (getReliabilityMetrics conn start stop).maxGenerationMw = roundTo 2 maxGen ∧
      (getReliabilityMetrics conn start stop).meanGenerationMw
        = roundTo 2 ((windowGeneration conn start stop).sum
            / (windowGeneration conn start stop).length) := by
  obtain ⟨maxGen, hmax⟩ : ∃ m, (windowGeneration conn start stop).max? = some m :=
    Option.ne_none_iff_exists'.mp (by simpa using hne)
  refine ⟨maxGen, List.max?_eq_some_iff.mp hmax, ?_⟩
  rw [getReliabilityMetrics, reliabilityQuery_eq hne hmax]
  exact ⟨rfl, rfl⟩

/-- The mean of the generation, on any number of values. -/
theorem meanGenerationMw_eq (conn : Conn) (start stop : Datetime) :
    (getReliabilityMetrics conn start stop).meanGenerationMw
      = roundTo 2 ((windowGeneration conn start stop).sum
          / (windowGeneration conn start stop).length) := by
  by_cases hne : windowGeneration conn start stop = []
  · rw [getReliabilityMetrics, hne]
    simp [reliabilityQuery, percentileCont]
  · obtain ⟨-, -, -, hmean⟩ := getReliabilityMetrics_mean_max hne
    exact hmean

/-! ## The responses -/

/-- The bucket of an hour of the day. -/
def MetricsResponse.bucket (r : MetricsResponse) (hour : ℕ) : HourlyError :=
  r.hourlyErrors.getD hour ⟨hour, 0, 0⟩

/-- The responses over a window agree with those over its parts. -/
structure AgreesWithParts (conn : Conn) (horizon : Horizon) (start stop : Datetime)
    (parts : List (Datetime × Datetime)) : Prop where
  generation : (generationResponse conn start stop).data
    = parts.flatMap fun w => (generationResponse conn w.1 w.2).data
  forecast : (forecastResponse conn start stop horizon).data
    = parts.flatMap fun w => (forecastResponse conn w.1 w.2 horizon).data
  generationCount : (generationResponse conn start stop).count
    = (parts.map fun w => (generationResponse conn w.1 w.2).count).sum
  forecastCount : (forecastResponse conn start stop horizon).count
    = (parts.map fun w => (forecastResponse conn w.1 w.2 horizon).count).sum
  sampleCount : (metricsResponse conn start stop horizon).errorMetrics.sampleCount
    = (parts.map fun w => (metricsResponse conn w.1 w.2 horizon).errorMetrics.sampleCount).sum
  bucketCount : ∀ hour, ((metricsResponse conn start stop horizon).bucket hour).sampleCount
    = (parts.map fun w => ((metricsResponse conn w.1 w.2 horizon).bucket hour).sampleCount).sum
  meanAbsoluteError :
    let m := fun w : Datetime × Datetime => (metricsResponse conn w.1 w.2 horizon).errorMetrics
    |(m (start, stop)).sampleCount * (m (start, stop)).meanAbsoluteError
        - (parts.map fun w => ((m w).sampleCount : ℚ) * (m w).meanAbsoluteError).sum|
      ≤ (m (start, stop)).sampleCount * (1 / 100)
  bucketMae : ∀ hour,
    let b := fun w : Datetime × Datetime => (metricsResponse conn w.1 w.2 horizon).bucket hour
    |(b (start, stop)).sampleCount * (b (start, stop)).mae
        - (parts.map fun w => ((b w).sampleCount : ℚ) * (b w).mae).sum|
      ≤ (b (start, stop)).sampleCount * (1 / 100)
  meanGeneration :
    let n := fun w : Datetime × Datetime => (generationResponse conn w.1 w.2).count
    let mean := fun w : Datetime × Datetime =>
      (metricsResponse conn w.1 w.2 horizon).reliability.meanGenerationMw
    |n (start, stop) * mean (start, stop) - (parts.map fun w => (n w : ℚ) * mean w).sum|
      ≤ n (start, stop) * (1 / 100)
  maxGeneration : (generationResponse conn start stop).count ≠ 0 →
    IsGreatest {x | ∃ w ∈ parts, (generationResponse conn w.1 w.2).count ≠ 0 ∧
      (metricsResponse conn w.1 w.2 horizon).reliability.maxGenerationMw = x}
      (metricsResponse conn start stop horizon).reliability.maxGenerationMw

/-- The bucket of an hour of the day, over the rows of the hour; there are none past hour 23. -/
theorem bucket_metricsResponse (conn : Conn) (start stop : Datetime) (horizon : Horizon)
    (hour : ℕ) :
    (metricsResponse conn start stop horizon).bucket hour
      = if hour < 24 then hourlyError (getForecastErrors conn start stop horizon.value) hour
        else ⟨hour, 0, 0⟩ := by
  rw [MetricsResponse.bucket, metricsResponse, computeHourlyErrors_eq, hoursOfDay, List.map_map]
  split_ifs with hhour
  · rw [List.getD_eq_getElem _ _ (by simpa using hhour)]
    simp
  · rw [List.getD_eq_default _ _ (by simpa using hhour)]

theorem bucketCount_parts (hcuts : IsCut conn.bind conn.slots stop start cuts) (horizon : Horizon)
    (hour : ℕ) :
    ((metricsResponse conn start stop horizon).bucket hour).sampleCount
      = ((windowParts start cuts stop).map fun w =>
          ((metricsResponse conn w.1 w.2 horizon).bucket hour).sampleCount).sum := by
  simp only [bucket_metricsResponse]
  split_ifs with hhour
  · show (hourly _ _).length = _
    rw [hourly_parts hcuts, List.length_flatten, List.map_map]
    rfl
  · simp

theorem bucketMae_parts (hcuts : IsCut conn.bind conn.slots stop start cuts) (horizon : Horizon)
    (hour : ℕ) :
    let b := fun w : Datetime × Datetime => (metricsResponse conn w.1 w.2 horizon).bucket hour
    |(b (start, stop)).sampleCount * (b (start, stop)).mae
        - ((windowParts start cuts stop).map fun w =>
            ((b w).sampleCount : ℚ) * (b w).mae).sum|
      ≤ (b (start, stop)).sampleCount * (1 / 100) := by
  intro b
  simp only [b, bucket_metricsResponse]
  split_ifs with hhour
  · have hmeans := abs_length_mul_roundTo_mean_sub_parts_le 2
      (List.Perm.of_eq (hourly_parts hcuts horizon.value (hour : ℤ)))
    rw [List.map_map] at hmeans
    norm_num at hmeans ⊢
    exact hmeans
  · simp

theorem meanAbsoluteError_parts (hcuts : IsCut conn.bind conn.slots stop start cuts)
    (horizon : Horizon) :
    let m := fun w : Datetime × Datetime => (metricsResponse conn w.1 w.2 horizon).errorMetrics
    |(m (start, stop)).sampleCount * (m (start, stop)).meanAbsoluteError
        - ((windowParts start cuts stop).map fun w =>
            ((m w).sampleCount : ℚ) * (m w).meanAbsoluteError).sum|
      ≤ (m (start, stop)).sampleCount * (1 / 100) := by
  intro m
  have hm : ∀ w, m w = computeErrorMetrics (getForecastErrors conn w.1 w.2 horizon.value) :=
    fun _ => rfl
  have hmeans := abs_length_mul_roundTo_mean_sub_parts_le 2 (absErrors_parts hcuts horizon.value)
  rw [List.map_map] at hmeans
  simp only [hm, sampleCount_eq, meanAbsoluteError_eq, ← length_absErrors]
  norm_num at hmeans ⊢
  exact hmeans

theorem meanGeneration_parts (hcuts : IsCut conn.bind conn.slots stop start cuts)
    (horizon : Horizon) :
    let n := fun w : Datetime × Datetime => (generationResponse conn w.1 w.2).count
    let mean := fun w : Datetime × Datetime =>
      (metricsResponse conn w.1 w.2 horizon).reliability.meanGenerationMw
    |n (start, stop) * mean (start, stop)
        - ((windowParts start cuts stop).map fun w => (n w : ℚ) * mean w).sum|
      ≤ n (start, stop) * (1 / 100) := by
  intro n mean
  have hmean : ∀ w, mean w = (getReliabilityMetrics conn w.1 w.2).meanGenerationMw := fun _ => rfl
  have hmeans := abs_length_mul_roundTo_mean_sub_parts_le 2 (windowGeneration_parts hcuts)
  rw [List.map_map] at hmeans
  simp only [n, hmean, meanGenerationMw_eq, ← length_windowGeneration]
  norm_num at hmeans ⊢
  exact hmeans

theorem maxGeneration_parts (hcuts : IsCut conn.bind conn.slots stop start cuts)
    (horizon : Horizon) (hcount : (generationResponse conn start stop).count ≠ 0) :
    IsGreatest {x | ∃ w ∈ windowParts start cuts stop,
        (generationResponse conn w.1 w.2).count ≠ 0 ∧
          (metricsResponse conn w.1 w.2 horizon).reliability.maxGenerationMw = x}
      (metricsResponse conn start stop horizon).reliability.maxGenerationMw := by
  have hne : ∀ {lo hi}, (generationResponse conn lo hi).count ≠ 0 →
      windowGeneration conn lo hi ≠ [] := by
    intro lo hi hlohi hnil
    rw [← length_windowGeneration, hnil] at hlohi
    exact hlohi rfl
  have hmem : ∀ x, x ∈ windowGeneration conn start stop
      ↔ ∃ w ∈ windowParts start cuts stop, x ∈ windowGeneration conn w.1 w.2 := by
    intro x
    rw [(windowGeneration_parts hcuts).mem_iff, ← List.flatMap_def, List.mem_flatMap]
  obtain ⟨maxGen, hgreatest, hmax, -⟩ := getReliabilityMetrics_mean_max (hne hcount)
  constructor
  · -- the part that holds the largest value has it as its maximum
    obtain ⟨w, hw, hx⟩ := (hmem maxGen).mp hgreatest.1
    obtain ⟨partMax, hpart, hmax', -⟩ := getReliabilityMetrics_mean_max (List.ne_nil_of_mem hx)
    have heq : partMax = maxGen :=
      le_antisymm (hgreatest.2 ((hmem _).mpr ⟨w, hw, hpart.1⟩)) (hpart.2 hx)
    refine ⟨w, hw, ?_, ?_⟩
    · rw [← length_windowGeneration]
      exact (List.length_pos_of_mem hx).ne'
    · show (getReliabilityMetrics conn w.1 w.2).maxGenerationMw
        = (getReliabilityMetrics conn start stop).maxGenerationMw
      rw [hmax, hmax', heq]
  · rintro x ⟨w, hw, hcount', rfl⟩
    obtain ⟨partMax, hpart, hmax', -⟩ := getReliabilityMetrics_mean_max (hne hcount')
    show (getReliabilityMetrics conn w.1 w.2).maxGenerationMw
      ≤ (getReliabilityMetrics conn start stop).maxGenerationMw
    rw [hmax, hmax']
    exact roundTo_mono 2 (hgreatest.2 ((hmem _).mpr ⟨w, hw, hpart.1⟩))

/-- **A window is served part by part.** For every window, database, horizon and cuts between the
target times, the responses over the window agree with those over its parts. -/
theorem responses_agreeWithParts (hcuts : IsCut conn.bind conn.slots stop start cuts)
    (horizon : Horizon) :
    AgreesWithParts conn horizon start stop (windowParts start cuts stop) where
  generation := generationQuery_parts hcuts
  forecast := by
    show (getHorizonForecast conn start stop horizon.value).map _ = _
    rw [getHorizonForecast_parts hcuts, List.map_flatMap]
    rfl
  generationCount :=
    (isWindowQuery_generation conn).length_eq_sum (fun _ => timestamp_mem_slots_of_actual) hcuts
  forecastCount := by
    have hlength := (isWindowQuery_forecast conn horizon.value).length_eq_sum
      (fun _ => timestamp_mem_slots_of_forecast) hcuts
    simpa only [forecastResponse, forecastResponseOf, List.length_map] using hlength
  sampleCount := by
    have hlength := (isWindowQuery_errors conn horizon.value).length_eq_sum
      (fun _ => timestamp_mem_slots_of_error) hcuts
    simpa only [metricsResponse, sampleCount_eq] using hlength
  bucketCount := bucketCount_parts hcuts horizon
  meanAbsoluteError := meanAbsoluteError_parts hcuts horizon
  bucketMae := bucketMae_parts hcuts horizon
  meanGeneration := meanGeneration_parts hcuts horizon
  maxGeneration := maxGeneration_parts hcuts horizon

/-! ### An evening in two parts -/

/-- 2024-01-01T18:15:00, as the session reads it. -/
def quarterPast : Datetime := .ofFields 2024 1 1 18 15 0 0 none (by decide)

/-- 2024-01-01T18:20:00, as the session reads it. -/
def twentyPast : Datetime := .ofFields 2024 1 1 18 20 0 0 none (by decide)

/-- The evening's slots, forecast at noon: 3 MW over, 1 MW under, and 2 MW over the actuals. -/
def eveningConn : Conn where
  db :=
    { actualGeneration := evening 0 5 10
      windForecast := ⟨[⟨1704132000000000, 1704110400000000, 3⟩,
        ⟨1704133800000000, 1704110400000000, 4⟩, ⟨1704135600000000, 1704110400000000, 12⟩],
        by decide⟩ }
  timeZone := 0

/-- No slot of the evening lies between a quarter and twenty past. -/
theorem isCut_evening :
    IsCut eveningConn.bind eveningConn.slots eveningStop eveningStart
      [(quarterPast, twentyPast)] := by
  have hactual : ∀ a ∈ eveningConn.db.actualGeneration.rows,
      a.startTime ≤ eveningConn.bind quarterPast ∨ eveningConn.bind twentyPast ≤ a.startTime := by
    decide +kernel
  have hforecast : ∀ f ∈ eveningConn.db.windForecast.rows,
      f.startTime ≤ eveningConn.bind quarterPast ∨ eveningConn.bind twentyPast ≤ f.startTime := by
    decide +kernel
  refine .cons (by decide +kernel) (by decide +kernel) (by decide +kernel) ?_ .nil
  rintro _ (⟨a, ha, rfl⟩ | ⟨f, hf, rfl⟩)
  exacts [hactual a ha, hforecast f hf]

/-- The first part has one sample and the second part two. -/
theorem responses_agreeWithParts_evening :
    AgreesWithParts eveningConn exampleHorizon eveningStart eveningStop
        [(eveningStart, quarterPast), (twentyPast, eveningStop)] ∧
      (metricsResponse eveningConn eveningStart quarterPast
        exampleHorizon).errorMetrics.sampleCount = 1 ∧
      (metricsResponse eveningConn twentyPast eveningStop
        exampleHorizon).errorMetrics.sampleCount = 2 :=
  ⟨responses_agreeWithParts isCut_evening exampleHorizon, by decide +kernel, by decide +kernel⟩

end WindSight
