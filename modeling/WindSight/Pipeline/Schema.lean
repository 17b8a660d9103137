import WindSight.Clock
import WindSight.Library.KeyedTable

/-! # Database schema

The two tables of the database with their primary keys. Every column is `NOT NULL`, so a row holds a
value for each of them; a `DOUBLE` is the rational number it denotes. -/

namespace WindSight

/-- A row of `actual_generation`. -/
structure ActualRow where
  startTime : Instant
  settlementDate : Date
  settlementPeriod : ℤ
  generationMw : ℚ
  fuelType : String
  deriving DecidableEq, Repr

/-- A row of `wind_forecast`. -/
structure ForecastRow where
  startTime : Instant
  publishTime : Instant
  generationMw : ℚ
  deriving DecidableEq, Repr

/-- `PRIMARY KEY (start_time, publish_time)`. -/
def ForecastRow.key (r : ForecastRow) : Instant × Instant := (r.startTime, r.publishTime)

/-- The table `actual_generation`, with `PRIMARY KEY (start_time)`. -/
abbrev ActualGeneration := KeyedTable ActualRow.startTime

/-- The table `wind_forecast`. -/
abbrev WindForecast := KeyedTable ForecastRow.key

/-- The contents of the database file. -/
structure Database where
  actualGeneration : ActualGeneration
  windForecast : WindForecast

/-- The database right after `init_database` on a fresh file. -/
def Database.empty : Database := ⟨.empty, .empty⟩

/-- Forecasts of one slot published at one time are one row. -/
theorem WindForecast.eq_of_times {t : WindForecast} {r r' : ForecastRow} (hr : r ∈ t) (hr' : r' ∈ t)
    (hstart : r.startTime = r'.startTime) (hpublish : r.publishTime = r'.publishTime) : r = r' :=
  KeyedTable.eq_of_key_eq hr hr' (Prod.ext hstart hpublish)

end WindSight
