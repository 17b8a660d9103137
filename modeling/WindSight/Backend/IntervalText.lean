import WindSight.Backend.Routers
import WindSight.Backend.HorizonSelection

/-! # The interval of a horizon

Both horizon queries compare with `INTERVAL ($3::DOUBLE || ' hours')`: DuckDB writes the horizon as
a text and reads the text as an interval. `getHorizonForecast` and `getForecastErrors` take the
hours that are read; a query as it is executed takes the hours that are requested, and raises where
the text is no interval (`Conn.execute`). What DuckDB reads is a parameter, `IntervalReader`: it
drops the digits after the sixth decimal, and it rejects an exponent, which a number below 0.0001 is
written with. So the two agree at every horizon of the API of at most six decimals that is zero or
at least 0.0001 (`executeForecast_of_exact`). -/

namespace WindSight

/-! ## Reading an interval -/

/-- The text of a horizon of the API has no exponent. -/
def PlainlyWritten (h : ℚ) : Prop := h = 0 ∨ 1 / 10000 ≤ h

instance (h : ℚ) : Decidable (PlainlyWritten h) :=
  inferInstanceAs (Decidable (h = 0 ∨ 1 / 10000 ≤ h))

/-- What DuckDB reads in `INTERVAL (h || ' hours')`, in hours; `none` where it raises
`ConversionException`. The laws are about the horizons of the API. -/
structure IntervalReader where
  read : ℚ → Option ℚ
  /-- A text is read unless it has an exponent. -/
  isSome_iff : ∀ {h : ℚ}, 0 ≤ h → h ≤ 48 → ((read h).isSome ↔ PlainlyWritten h)
  /-- No text is read as more than its number. -/
  le : ∀ {h k : ℚ}, 0 ≤ h → h ≤ 48 → read h = some k → k ≤ h
  mono : ∀ {h h' k k' : ℚ}, 0 ≤ h → h ≤ h' → h' ≤ 48 → read h = some k → read h' = some k' →
    k ≤ k'
  /-- Six decimals are read in full. -/
  exact : ∀ {h : ℚ} {n : ℕ}, h ≤ 48 → h * 10 ^ 6 = n → PlainlyWritten h → read h = some h

/-- The reader of DuckDB 1.5.0: the digits after the sixth decimal are dropped. -/
def duckDbReader : IntervalReader where
  read h := if PlainlyWritten h then some (⌊h * 10 ^ 6⌋ / 10 ^ 6) else none
  isSome_iff := by
    intro h _ _
    simp
  le := by
    intro h k _ _ hk
    obtain ⟨-, hk⟩ := Option.ite_none_right_eq_some.mp hk
    obtain rfl := Option.some.inj hk
    rw [div_le_iff₀ (by norm_num)]
    exact Int.floor_le _
  mono := by
    intro h h' k k' _ hle _ hk hk'
    obtain ⟨-, hk⟩ := Option.ite_none_right_eq_some.mp hk
    obtain ⟨-, hk'⟩ := Option.ite_none_right_eq_some.mp hk'
    obtain rfl := Option.some.inj hk
    obtain rfl := Option.some.inj hk'
    gcongr
  exact := by
    intro h n _ hn hplain
    rw [if_pos hplain, hn, Int.floor_natCast, Int.cast_natCast, ← hn]
    exact congrArg some (mul_div_cancel_right₀ h (by norm_num))

namespace IntervalReader

variable (reader : IntervalReader) {h : ℚ}

theorem exists_read (h0 : 0 ≤ h) (h48 : h ≤ 48) (hh : PlainlyWritten h) :
    ∃ k, reader.read h = some k :=
  Option.isSome_iff_exists.mp ((reader.isSome_iff h0 h48).mpr hh)

theorem plainlyWritten_of_read {k : ℚ} (h0 : 0 ≤ h) (h48 : h ≤ 48) (hk : reader.read h = some k) :
    PlainlyWritten h := by
  rw [← reader.isSome_iff h0 h48, hk]
  rfl

theorem read_eq_none_iff (h0 : 0 ≤ h) (h48 : h ≤ 48) :
    reader.read h = none ↔ ¬ PlainlyWritten h := by
  rw [← reader.isSome_iff h0 h48, Option.not_isSome_iff_eq_none]

/-- Zero is read as zero. -/
theorem read_zero : reader.read 0 = some 0 :=
  reader.exact (n := 0) (by norm_num) (by norm_num) (Or.inl rfl)

end IntervalReader

/-! ## Executing a query -/

section Execute

variable {α : Type} (reader : IntervalReader) (conn : Conn) (start stop : Datetime) (h : ℚ)

/-- The forecasts of a window: the rows that the interval is computed for, since the comparisons
with `start` and `end` stand before it. -/
def windowForecasts : List ForecastRow :=
  conn.db.windForecast.rows.filter fun f =>
    conn.bind start ≤ f.startTime ∧ f.startTime ≤ conn.bind stop

/-- `conn.execute(query, [start, end, h]).fetchall()` for a query over the hours of the interval;
`none` where it raises. A text that is no interval goes unnoticed in a window without forecasts. -/
def Conn.execute (query : ℚ → List α) : Option (List α) :=
  match reader.read h with
  | some k => some (query k)
  | none => if windowForecasts conn start stop = [] then some [] else none

/-- `get_horizon_forecast`; `none` where the query raises. -/
def executeHorizonForecast : Option (List HorizonForecast) :=
  conn.execute reader start stop h (getHorizonForecast conn start stop)

/-- `get_forecast_errors`; `none` where the query raises. -/
def executeForecastErrors : Option (List ForecastError) :=
  conn.execute reader start stop h (getForecastErrors conn start stop)

/-- `get_forecast`, once `start` precedes `end` and the cache has missed; `none` where the query
raises. -/
def executeForecast (horizon : Horizon) : Option ForecastResponse :=
  (executeHorizonForecast reader conn start stop horizon.value).map
    (forecastResponseOf start stop horizon)

variable {reader conn start stop h} {query : ℚ → List α}

theorem Conn.execute_of_read {k : ℚ} (hk : reader.read h = some k) :
    conn.execute reader start stop h query = some (query k) := by
  rw [Conn.execute, hk]

/-- Rows are returned for hours that have been read. -/
theorem Conn.exists_read_of_execute {rows : List α} {r : α}
    (hrows : conn.execute reader start stop h query = some rows) (hr : r ∈ rows) :
    ∃ k, reader.read h = some k ∧ rows = query k := by
  rw [Conn.execute] at hrows
  cases hk : reader.read h with
  | some k =>
    rw [hk] at hrows
    exact ⟨k, rfl, (Option.some.inj hrows).symm⟩
  | none =>
    rw [hk] at hrows
    dsimp only at hrows
    split_ifs at hrows
    obtain rfl := Option.some.inj hrows
    exact absurd hr List.not_mem_nil

/-- **The requested hours are the hours read**, at every horizon of the API of at most six decimals
that is zero or at least 0.0001. -/
theorem Conn.execute_of_exact {n : ℕ} (h48 : h ≤ 48) (hn : h * 10 ^ 6 = n)
    (hplain : PlainlyWritten h) : conn.execute reader start stop h query = some (query h) :=
  Conn.execute_of_read (reader.exact h48 hn hplain)

/-- At a horizon that is read as it is, the executed query gives the response of `forecastResponse`.
-/
theorem executeForecast_of_exact {horizon : Horizon} {n : ℕ} (hn : horizon.value * 10 ^ 6 = n)
    (hplain : PlainlyWritten horizon.value) : executeForecast reader conn start stop horizon
      = some (forecastResponse conn start stop horizon) := by
  rw [executeForecast, executeHorizonForecast,
    Conn.execute_of_exact (Horizon.value_le horizon) hn hplain]
  rfl

end Execute

end WindSight
