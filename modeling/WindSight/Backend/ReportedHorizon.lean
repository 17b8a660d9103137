import WindSight.Backend.IntervalText

/-! # The reported horizon

The selection bounds the exact lead time of a forecast from below by the hours that DuckDB reads for
the requested horizon; the router reports the lead time rounded to two decimals. The bound survives
the rounding up to the rounding of the hours read (`horizonHours_bounds`). -/

namespace WindSight

open NumberText Rounding

variable {conn : Conn} {start stop : Datetime}

/-- The exact lead time of a point, in hours. -/
def ForecastPoint.leadHours (p : ForecastPoint) : ℚ :=
  ((p.timestamp : ℚ) - p.publishTime) / microsPerHour

/-- A point reports its lead time, which is at least the hours of the selection, rounded. -/
theorem horizonHours_eq {horizon : Horizon} {k : ℚ} {p : ForecastPoint}
    (hp : p ∈ (forecastResponseOf start stop horizon (getHorizonForecast conn start stop k)).data) :
    k ≤ p.leadHours ∧ p.horizonHours = roundTo 2 p.leadHours := by
  obtain ⟨q, hq, rfl⟩ := List.mem_map.mp hp
  obtain ⟨f, -, hsel, rfl⟩ := mem_getHorizonForecast.mp hq
  have hlead : f.toHorizonForecast.horizonHours
      = ((f.startTime : ℚ) - f.publishTime) / microsPerHour := by
    simp only [ForecastRow.toHorizonForecast, microsPerHour, microsPerSecond, div_div]
    norm_num
  refine ⟨?_, congrArg (roundTo 2) hlead⟩
  show k ≤ ((f.startTime : ℚ) - f.publishTime) / microsPerHour
  rw [← hlead]
  exact hsel.eligible.le_horizonHours

/-- The rounding of a bound of the lead time is a bound of the reported one. -/
theorem le_roundTo_leadHours {k : ℚ} {p : ForecastPoint} (hle : k ≤ p.leadHours)
    (heq : p.horizonHours = roundTo 2 p.leadHours) :
    roundTo 2 k ≤ p.horizonHours ∧ k - 5 / 1000 ≤ p.horizonHours ∧
      ∀ n : ℤ, k = n / 100 → k ≤ p.horizonHours := by
  have hround : roundTo 2 k ≤ p.horizonHours := by
    rw [heq]
    exact roundTo_mono 2 hle
  refine ⟨hround, ?_, ?_⟩
  · have hnear := (abs_le.mp (abs_roundTo_sub_le 2 k)).1
    norm_num at hnear
    linarith
  · intro n hn
    have hself : roundTo 2 k = k := by
      rw [hn]
      exact_mod_cast roundTo_intCast_div (K := ℚ) 2 n
    rwa [hself] at hround

/-- **The reported horizon.** Every point reports its lead time rounded to two decimals. The hours
that DuckDB reads for the requested horizon are at most the lead time, so the reported one is at
least these hours rounded the same way: it falls short of them by 0.005 hours at most, and not at
all if they are a whole number of hundredths. A requested horizon of at most six decimals is read as
it is. -/
theorem horizonHours_bounds (reader : IntervalReader) (conn : Conn) (start stop : Datetime)
    (horizon : Horizon) (r : ForecastResponse)
    (hr : executeForecast reader conn start stop horizon = some r) (p : ForecastPoint)
    (hp : p ∈ r.data) :
    ∃ k, reader.read r.horizonHours.value = some k ∧
      (k ≤ p.leadHours ∧ p.horizonHours = roundTo 2 p.leadHours) ∧
      (roundTo 2 k ≤ p.horizonHours ∧ k - 5 / 1000 ≤ p.horizonHours ∧
        ∀ n : ℤ, k = n / 100 → k ≤ p.horizonHours) ∧
      ∀ n : ℕ, r.horizonHours.value * 10 ^ 6 = n → k = r.horizonHours.value := by
  obtain ⟨rows, hrows, rfl⟩ := Option.map_eq_some_iff.mp hr
  obtain ⟨q, hq, -⟩ := List.mem_map.mp hp
  obtain ⟨k, hk, rfl⟩ := Conn.exists_read_of_execute hrows hq
  obtain ⟨hle, heq⟩ := horizonHours_eq hp
  refine ⟨k, hk, ⟨hle, heq⟩, le_roundTo_leadHours hle heq, fun n hn => ?_⟩
  have hplain := reader.plainlyWritten_of_read horizon.2.1 horizon.2.2 hk
  exact Option.some.inj (hk.symm.trans (reader.exact horizon.2.2 hn hplain))

/-! ### A horizon with three decimals -/

/-- 2024-01-01T12:00:00, as the session reads it. -/
def noon : Datetime := .ofFields 2024 1 1 12 0 0 0 none (by decide)

/-- 2024-01-01T12:30:00, as the session reads it. -/
def halfPastNoon : Datetime := .ofFields 2024 1 1 12 30 0 0 none (by decide)

/-- A forecast of 2024-01-01T12:00Z, published 3 hours and 20 minutes ahead. -/
def noonForecast : WindForecast :=
  ⟨[⟨1704110400000000, 1704098400000000, 90⟩], List.nodup_singleton _⟩

/-- The horizon 3.333. -/
def threeDecimals : Horizon :=
  ⟨.ofDigits (List.replicate 4 ⟨3, by decide⟩) 1 (by decide),
    by norm_num [PyFloat.value, PyFloat.ofDigits, List.replicate_succ]⟩

theorem value_threeDecimals : threeDecimals.value = 3333 / 1000 := by
  norm_num [threeDecimals, Horizon.value, PyFloat.value, PyFloat.ofDigits, List.replicate_succ]

/-- The response to `horizon=3.333`. -/
def noonResponse : ForecastResponse :=
  forecastResponseOf noon halfPastNoon threeDecimals
    [⟨1704110400000000, 90, 1704098400000000, 10 / 3⟩]

theorem executeForecast_noon :
    executeForecast duckDbReader ⟨⟨.empty, noonForecast⟩, 0⟩ noon halfPastNoon threeDecimals
      = some noonResponse := by
  have hrows : executeHorizonForecast duckDbReader ⟨⟨.empty, noonForecast⟩, 0⟩ noon halfPastNoon
      (3333 / 1000) = some [⟨1704110400000000, 90, 1704098400000000, 10 / 3⟩] := by
    decide +kernel
  rw [executeForecast, value_threeDecimals, hrows]
  rfl

theorem mem_noonResponse :
    (⟨1704110400000000, 90, 1704098400000000, 333 / 100⟩ : ForecastPoint) ∈ noonResponse.data := by
  decide +kernel

/-- The horizon 3.333 is read as it is, and the lead time of 3.3333… hours is reported as 3.33
hours, at most 0.005 hours below it. -/
theorem horizonHours_bounds_noon :
    ∃ k, duckDbReader.read noonResponse.horizonHours.value = some k ∧ k - 5 / 1000 ≤ 333 / 100 ∧
      k = noonResponse.horizonHours.value := by
  obtain ⟨k, hk, -, ⟨-, hnear, -⟩, hexact⟩ := horizonHours_bounds duckDbReader
    ⟨⟨.empty, noonForecast⟩, 0⟩ noon halfPastNoon threeDecimals noonResponse executeForecast_noon _
    mem_noonResponse
  refine ⟨k, hk, hnear, hexact 3333000 ?_⟩
  show threeDecimals.value * 10 ^ 6 = _
  rw [value_threeDecimals]
  norm_num

/-- The request for `horizon=3.333` is accepted and answered by a horizon of 3.33 hours. -/
theorem horizonHours_lt_noon :
    Datetime.ge noon halfPastNoon = some false ∧
      ∃ r, executeForecast duckDbReader ⟨⟨.empty, noonForecast⟩, 0⟩ noon halfPastNoon threeDecimals
          = some r ∧
        ∃ p ∈ r.data, p.horizonHours < r.horizonHours.value := by
  refine ⟨by decide, _, executeForecast_noon, _, mem_noonResponse, ?_⟩
  show (333 / 100 : ℚ) < threeDecimals.value
  rw [value_threeDecimals]
  norm_num

end WindSight
