import WindSight.Library.ListQuery
import WindSight.Library.Rounding
import WindSight.Pipeline.Schema
import Mathlib.Data.Prod.Lex

/-! # Forecast processor

The queries and statistics of the backend: for each target time, the latest forecast published at
least `h` hours before it; the errors of these forecasts against the actuals; the aggregate and
hourly error metrics; and the reliability quantiles of the actuals. Arithmetic is exact, and `round`
rounds ties to even. The hours `h` of a query are those that DuckDB reads in the text of its
interval. -/

namespace WindSight

open ListQuery Rounding

/-- An open DuckDB connection: the contents of the file it reads, and its session `TimeZone`, as a
UTC offset in seconds. -/
structure Conn where
  db : Database
  timeZone : ℤ

/-- The instant a query compares a `datetime` parameter as: DuckDB casts an offset-less one in the
session time zone. -/
def Conn.bind (conn : Conn) (t : Datetime) : Instant := t.instantIn conn.timeZone

/-- `EXTRACT(HOUR FROM t)`, evaluated in the session time zone. -/
def Conn.extractHour (conn : Conn) (t : Instant) : ℤ :=
  (t + conn.timeZone * microsPerSecond) / microsPerHour % 24

/-! ## Horizon selection -/

/-- Published at least `h` hours before its target time, as in
`publish_time <= start_time - INTERVAL ($3 || ' hours')` when DuckDB reads `h` hours in that text.
-/
def ForecastRow.Eligible (h : ℚ) (f : ForecastRow) : Prop :=
  (f.publishTime : ℚ) ≤ f.startTime - hours h

instance (h : ℚ) (f : ForecastRow) : Decidable (f.Eligible h) :=
  inferInstanceAs (Decidable ((f.publishTime : ℚ) ≤ f.startTime - hours h))

/-- The common table expression `ranked_forecasts` of both horizon queries: the eligible forecasts
of the window, numbered in each target slot from the latest publish on. -/
def rankedForecasts (conn : Conn) (start stop : Datetime) (h : ℚ) : List (ForecastRow × ℕ) :=
  -- `PARTITION BY start_time ORDER BY publish_time DESC, generation_mw DESC`
  rowNumber ForecastRow.startTime (fun f => toLex (f.publishTime, f.generationMw))
    (conn.db.windForecast.rows.filter fun f =>
      conn.bind start ≤ f.startTime ∧ f.startTime ≤ conn.bind stop ∧ f.Eligible h)

/-- A result row of `get_horizon_forecast`. -/
structure HorizonForecast where
  timestamp : Instant
  generationMw : ℚ
  publishTime : Instant
  horizonHours : ℚ
  deriving DecidableEq, Repr

/-- The result columns for one selected forecast. -/
def ForecastRow.toHorizonForecast (f : ForecastRow) : HorizonForecast where
  timestamp := f.startTime
  generationMw := f.generationMw
  publishTime := f.publishTime
  horizonHours := ((f.startTime : ℚ) - f.publishTime) / microsPerSecond / 3600

/-- For each target time of the window, the latest forecast published at least `h` hours before it.
-/
def getHorizonForecast (conn : Conn) (start stop : Datetime) (h : ℚ) : List HorizonForecast :=
  orderBy HorizonForecast.timestamp
    (((rankedForecasts conn start stop h).filter (·.2 = 1)).map fun p => p.1.toHorizonForecast)

/-! ## Forecast errors -/

/-- A result row of `get_forecast_errors`. -/
structure ForecastError where
  timestamp : Instant
  actualMw : ℚ
  forecastMw : ℚ
  errorMw : ℚ
  absErrorMw : ℚ
  hourOfDay : ℤ
  deriving DecidableEq, Repr

/-- The actuals of the window joined with the horizon-selected forecasts. -/
def getForecastErrors (conn : Conn) (start stop : Datetime) (h : ℚ) : List ForecastError :=
  let bestForecast := ((rankedForecasts conn start stop h).filter (·.2 = 1)).map Prod.fst
  let joined := innerJoin ActualRow.startTime ForecastRow.startTime
    conn.db.actualGeneration.rows bestForecast
  orderBy ForecastError.timestamp
    ((joined.filter fun p =>
        conn.bind start ≤ p.1.startTime ∧ p.1.startTime ≤ conn.bind stop).map fun p =>
      { timestamp := p.1.startTime
        actualMw := p.1.generationMw
        forecastMw := p.2.generationMw
        errorMw := p.2.generationMw - p.1.generationMw
        absErrorMw := |p.2.generationMw - p.1.generationMw|
        hourOfDay := conn.extractHour p.1.startTime })

/-! ## Error metrics -/

/-- The aggregate error statistics. -/
structure ErrorMetrics where
  meanAbsoluteError : ℚ
  medianAbsoluteError : ℚ
  p99Error : ℚ
  rmse : ℚ
  sampleCount : ℕ
  deriving DecidableEq, Repr

/-- `sorted([e["abs_error_mw"] for e in errors])`. -/
def absErrors (errors : List ForecastError) : List ℚ :=
  (errors.map ForecastError.absErrorMw).insertionSort (· ≤ ·)

/-- The mean of the absolute errors, before rounding. -/
def mae (errors : List ForecastError) : ℚ := (absErrors errors).sum / (absErrors errors).length

/-- The median of the absolute errors, before rounding. -/
def medianError (errors : List ForecastError) : ℚ :=
  let xs := absErrors errors
  let medianIdx := xs.length / 2
  if xs.length % 2 = 1 then xs.getD medianIdx 0
  -- an even number of samples has two in the middle
  else (xs.getD (medianIdx - 1) 0 + xs.getD medianIdx 0) / 2

/-- The 99th percentile of the absolute errors, before rounding: the sample of index
`min(int(n * 0.99), n - 1)`. -/
def p99Error (errors : List ForecastError) : ℚ :=
  let xs := absErrors errors
  xs.getD (min (xs.length * 99 / 100) (xs.length - 1)) 0

/-- The mean of the squared absolute errors, the radicand of `rmse`. -/
def meanSquare (errors : List ForecastError) : ℚ :=
  (errors.map fun e => e.absErrorMw ^ 2).sum / errors.length

/-- Aggregate error statistics of a list of forecast errors. -/
def computeErrorMetrics (errors : List ForecastError) : ErrorMetrics :=
  if errors.isEmpty then ⟨0, 0, 0, 0, 0⟩
  else
    { meanAbsoluteError := roundTo 2 (mae errors)
      medianAbsoluteError := roundTo 2 (medianError errors)
      p99Error := roundTo 2 (p99Error errors)
      rmse := roundSqrtTo 2 (meanSquare errors)
      sampleCount := (absErrors errors).length }

/-- The MAE of one hour of the day. -/
structure HourlyError where
  hour : ℕ
  mae : ℚ
  sampleCount : ℕ
  deriving DecidableEq, Repr

/-- The absolute errors appended under their hour of the day, in the order of `errors`. -/
def hourly (errors : List ForecastError) : ℤ → List ℚ :=
  errors.foldl (fun acc e => Function.update acc e.hourOfDay (acc e.hourOfDay ++ [e.absErrorMw]))
    fun _ => []

/-- Under each hour stand the absolute errors of that hour. -/
theorem hourly_eq (errors : List ForecastError) (hour : ℤ) :
    hourly errors hour = (errors.filter (·.hourOfDay = hour)).map ForecastError.absErrorMw := by
  induction errors using List.reverseRecOn with
  | nil => rfl
  | append_singleton errors e ih =>
    rw [hourly, List.foldl_append, ← hourly, List.filter_append, List.map_append, ← ih,
      List.foldl_cons, List.foldl_nil]
    by_cases hh : e.hourOfDay = hour
    · subst hh
      simp
    · simp [Function.update_of_ne (Ne.symm hh), hh]

/-- MAE grouped by hour of day, one entry for each of the hours 0–23. -/
def computeHourlyErrors (errors : List ForecastError) : List HourlyError :=
  (List.range 24).map fun (hour : ℕ) =>
    let errs := hourly errors hour
    { hour := hour
      mae := if errs.isEmpty then 0 else roundTo 2 (errs.sum / errs.length)
      sampleCount := errs.length }

/-! ## Reliability metrics -/

/-- `PERCENTILE_CONT(q) WITHIN GROUP (ORDER BY x)`: linear interpolation at position `q * (n - 1)`
of the sorted values; `NULL` on no values. -/
def percentileCont (q : ℚ) (values : List ℚ) : Option ℚ :=
  if values.isEmpty then none
  else
    let xs := values.insertionSort (· ≤ ·)
    let position := q * (xs.length - 1)
    let lower := xs.getD ⌊position⌋.toNat 0
    let upper := xs.getD ⌈position⌉.toNat 0
    some (lower + (position - ⌊position⌋) * (upper - lower))

/-- `AVG(x)`; `NULL` on no values. -/
def avg (values : List ℚ) : Option ℚ :=
  if values.isEmpty then none else some (values.sum / values.length)

/-- Wind generation reliability metrics. -/
structure ReliabilityMetrics where
  p10GenerationMw : ℚ
  p20GenerationMw : ℚ
  meanGenerationMw : ℚ
  medianGenerationMw : ℚ
  maxGenerationMw : ℚ
  capacityFactor : ℚ
  deriving DecidableEq, Repr

/-- The `generation_mw` column of the actuals of the window. -/
def windowGeneration (conn : Conn) (start stop : Datetime) : List ℚ :=
  (conn.db.actualGeneration.rows.filter fun a =>
    conn.bind start ≤ a.startTime ∧ a.startTime ≤ conn.bind stop).map ActualRow.generationMw

/-- The aggregates of the reliability query; all `NULL` on no rows. -/
def reliabilityQuery (values : List ℚ) : Option (ℚ × ℚ × ℚ × ℚ × ℚ) := do
  let p10 ← percentileCont (10 / 100) values
  let p20 ← percentileCont (20 / 100) values
  let meanGen ← avg values
  let medianGen ← percentileCont (1 / 2) values
  let maxGen ← values.max?
  return (p10, p20, meanGen, medianGen, maxGen)

/-- Approximate UK installed wind capacity, in MW. -/
def installedCapacityMw : ℚ := 30000

/-- Reliability metrics of the actuals of the window. -/
def getReliabilityMetrics (conn : Conn) (start stop : Datetime) : ReliabilityMetrics :=
  match reliabilityQuery (windowGeneration conn start stop) with
  -- no rows in the window
  | none => ⟨0, 0, 0, 0, 0, 0⟩
  | some (p10, p20, meanGen, medianGen, maxGen) =>
    let capacityFactor := if installedCapacityMw > 0 then meanGen / installedCapacityMw else 0
    { p10GenerationMw := roundTo 2 p10
      p20GenerationMw := roundTo 2 p20
      meanGenerationMw := roundTo 2 meanGen
      medianGenerationMw := roundTo 2 medianGen
      maxGenerationMw := roundTo 2 maxGen
      capacityFactor := roundTo 4 capacityFactor }

end WindSight
