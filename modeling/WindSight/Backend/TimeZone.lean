import WindSight.Backend.ErrorJoin

/-! # Dependence of the answers on the session time zone

DuckDB compares an offset-less parameter with a `TIMESTAMPTZ` column, and extracts its hour, in the
session time zone, and nothing sets the session time zone to UTC. `answer_zone_iff` says exactly
which requests are answered as under UTC whatever the state of the server: those rejected before the
database is reached, and those whose datetimes carry offsets, for `/metrics` provided the window
falls in the same hours of the day on both clocks. -/

namespace WindSight

open ListQuery

/-- Every instant of the closed window falls in the same hour of the day on a clock `zone` seconds
ahead of UTC as in UTC. -/
def SameHours (zone : ℤ) (start stop : Instant) : Prop :=
  ∀ t, start ≤ t → t ≤ stop →
    (t + zone * microsPerSecond) / microsPerHour % 24 = t / microsPerHour % 24

variable {zone : ℤ} {start stop : Datetime} {h : ℚ}

/-! ## Requests with offsets -/

/-- The selection depends on the zone through the two ends of the window only. -/
theorem rankedForecasts_congr {conn conn' : Conn} (hdb : conn.db = conn'.db)
    (hstart : conn.bind start = conn'.bind start) (hstop : conn.bind stop = conn'.bind stop) :
    rankedForecasts conn start stop h = rankedForecasts conn' start stop h := by
  rw [rankedForecasts, rankedForecasts, hdb, hstart, hstop]

/-- The errors depend on the zone through the ends of the window and the hours in it. -/
theorem getForecastErrors_congr {conn conn' : Conn} (hdb : conn.db = conn'.db)
    (hstart : conn.bind start = conn'.bind start) (hstop : conn.bind stop = conn'.bind stop)
    (hhour : ∀ t, conn'.bind start ≤ t → t ≤ conn'.bind stop →
      conn.extractHour t = conn'.extractHour t) :
    getForecastErrors conn start stop h = getForecastErrors conn' start stop h := by
  rw [getForecastErrors, getForecastErrors, rankedForecasts_congr hdb hstart hstop, hdb, hstart,
    hstop]
  congr 1
  apply List.map_congr_left
  rintro ⟨a, f⟩ hmem
  have hwin := decide_eq_true_eq.mp (List.mem_filter.mp hmem).2
  rw [hhour a.startTime hwin.1 hwin.2]

/-- With the same window and the same hours in it, the responses are the same. -/
theorem compute_congr (conn conn' : Conn) (hdb : conn.db = conn'.db) {req : Request}
    (hstart : conn.bind req.start = conn'.bind req.start)
    (hstop : conn.bind req.stop = conn'.bind req.stop)
    (hhour : ∀ start stop horizon, req = .metrics start stop horizon →
      ∀ t, conn'.bind start ≤ t → t ≤ conn'.bind stop → conn.extractHour t = conn'.extractHour t) :
    req.compute conn = req.compute conn' := by
  cases req with
  | generation start stop =>
    simp only [Request.start, Request.stop] at hstart hstop
    simp only [Request.compute, generationResponse, generationQuery, hdb, hstart, hstop]
  | forecast start stop horizon =>
    simp only [Request.start, Request.stop] at hstart hstop
    simp only [Request.compute, forecastResponse, forecastResponseOf, getHorizonForecast,
      rankedForecasts_congr hdb hstart hstop]
  | metrics start stop horizon =>
    simp only [Request.start, Request.stop] at hstart hstop
    simp only [Request.compute, metricsResponse, getReliabilityMetrics, windowGeneration,
      getForecastErrors_congr hdb hstart hstop (hhour start stop horizon rfl), hdb, hstart, hstop]

/-! ## A database that shows the zone

One actual and one forecast of the same slot, published 48 hours ahead. -/

/-- The actual of the probe. -/
def probeActual (t : Instant) : ActualRow := ⟨t, dateOf t, 1, 1, "WIND"⟩

/-- The forecast of the probe. -/
def probeForecast (t : Instant) : ForecastRow := ⟨t, t - 48 * microsPerHour, 0⟩

/-- A database with a single slot. -/
def probe (t : Instant) : Database :=
  ⟨⟨[probeActual t], List.nodup_singleton _⟩, ⟨[probeForecast t], List.nodup_singleton _⟩⟩

theorem mem_probe_actual {t : Instant} {a : ActualRow} :
    a ∈ (probe t).actualGeneration ↔ a = probeActual t := List.mem_singleton

theorem mem_probe_forecast {t : Instant} {f : ForecastRow} :
    f ∈ (probe t).windForecast ↔ f = probeForecast t := List.mem_singleton

/-- The forecast of the probe is eligible at every horizon the API accepts. -/
theorem probeForecast_eligible {t : Instant} (hh : h ≤ 48) : (probeForecast t).Eligible h := by
  rw [ForecastRow.Eligible, probeForecast, hours]
  push_cast
  have : (0 : ℚ) < microsPerHour := by exact_mod_cast microsPerHour_pos
  nlinarith

/-- On the probe, the horizon selection has a row exactly when the window contains the slot. -/
theorem exists_horizonForecast_probe {conn : Conn} {t : Instant} (hdb : conn.db = probe t)
    (hh : h ≤ 48) :
    (∃ q ∈ getHorizonForecast conn start stop h, q.timestamp = t) ↔
      conn.bind start ≤ t ∧ t ≤ conn.bind stop := by
  rw [exists_horizonForecast_iff, hdb]
  exact and_iff_left
    ⟨probeForecast t, mem_probe_forecast.mpr rfl, rfl, probeForecast_eligible hh⟩

/-- On the probe, `/generation` has a point exactly when the window contains the slot. -/
theorem exists_generation_probe {conn : Conn} {t : Instant} (hdb : conn.db = probe t) :
    (∃ p ∈ generationQuery conn start stop, p.timestamp = t) ↔
      conn.bind start ≤ t ∧ t ≤ conn.bind stop := by
  simp only [mem_generationQuery, hdb, mem_probe_actual]
  constructor
  · rintro ⟨p, ⟨a, rfl, hwin, rfl⟩, -⟩
    exact hwin
  · intro hwin
    exact ⟨_, ⟨_, rfl, hwin, rfl⟩, rfl⟩

/-- On the probe, every error row is the one of the slot. -/
theorem timestamp_of_mem_errors_probe {conn : Conn} {t : Instant} (hdb : conn.db = probe t)
    {e : ForecastError} (he : e ∈ getForecastErrors conn start stop h) :
    e.timestamp = t ∧ e.hourOfDay = conn.extractHour t := by
  obtain ⟨a, ha, -, f, -, -, rfl⟩ := mem_getForecastErrors.mp he
  rw [hdb, mem_probe_actual] at ha
  subst ha
  exact ⟨rfl, rfl⟩

/-- On the probe, `/metrics` has a sample exactly when the window contains the slot. -/
theorem exists_error_probe {conn : Conn} {t : Instant} (hdb : conn.db = probe t) (hh : h ≤ 48) :
    (∃ e, e ∈ getForecastErrors conn start stop h) ↔
      conn.bind start ≤ t ∧ t ≤ conn.bind stop := by
  have hslot : (∃ e, e ∈ getForecastErrors conn start stop h) ↔
      ∃ e ∈ getForecastErrors conn start stop h, e.timestamp = t :=
    exists_congr fun e =>
      ⟨fun he => ⟨he, (timestamp_of_mem_errors_probe hdb he).1⟩, fun he => he.1⟩
  rw [hslot, exists_forecastError_iff, exists_generation_probe hdb,
    exists_horizonForecast_probe hdb hh, and_self]

/-- A response on the probe shows whether the window contains the slot. -/
theorem window_of_compute_eq {conn conn' : Conn} {t : Instant} (hdb : conn.db = probe t)
    (hdb' : conn'.db = probe t) {req : Request} (heq : req.compute conn = req.compute conn') :
    (conn.bind req.start ≤ t ∧ t ≤ conn.bind req.stop) ↔
      (conn'.bind req.start ≤ t ∧ t ≤ conn'.bind req.stop) := by
  cases req with
  | generation start stop =>
    have hdata : generationQuery conn start stop = generationQuery conn' start stop :=
      congrArg GenerationResponse.data (Response.generation.inj heq)
    show (conn.bind start ≤ t ∧ t ≤ conn.bind stop) ↔ _
    rw [← exists_generation_probe hdb, hdata, exists_generation_probe hdb']
    rfl
  | forecast start stop horizon =>
    have htimes :=
      congrArg (fun r => r.data.map ForecastPoint.timestamp) (Response.forecast.inj heq)
    simp only [forecastResponse, forecastResponseOf, List.map_map] at htimes
    have hmem : ∀ c : Conn, (∃ q ∈ getHorizonForecast c start stop horizon.value, q.timestamp = t) ↔
        t ∈ (getHorizonForecast c start stop horizon.value).map HorizonForecast.timestamp :=
      fun c => List.mem_map.symm
    show (conn.bind start ≤ t ∧ t ≤ conn.bind stop) ↔ _
    rw [← exists_horizonForecast_probe hdb horizon.value_le, hmem,
      show (getHorizonForecast conn start stop horizon.value).map HorizonForecast.timestamp
        = (getHorizonForecast conn' start stop horizon.value).map HorizonForecast.timestamp
        from htimes, ← hmem, exists_horizonForecast_probe hdb' horizon.value_le]
    rfl
  | metrics start stop horizon =>
    have hcount : (getForecastErrors conn start stop horizon.value).length
        = (getForecastErrors conn' start stop horizon.value).length := by
      have := congrArg (fun r => r.errorMetrics.sampleCount) (Response.metrics.inj heq)
      simpa only [metricsResponse, sampleCount_eq] using this
    have hpos : ∀ c : Conn, (∃ e, e ∈ getForecastErrors c start stop horizon.value) ↔
        0 < (getForecastErrors c start stop horizon.value).length :=
      fun c => List.length_pos_iff_exists_mem.symm
    show (conn.bind start ≤ t ∧ t ≤ conn.bind stop) ↔ _
    rw [← exists_error_probe hdb horizon.value_le, hpos, hcount, ← hpos,
      exists_error_probe hdb' horizon.value_le]
    rfl

/-- The hourly breakdown shows which hours of the day have errors. -/
theorem exists_hour_iff_of_hourly_eq {es es' : List ForecastError}
    (heq : computeHourlyErrors es = computeHourlyErrors es') {hour : ℕ} (hlt : hour < 24) :
    (∃ e ∈ es, e.hourOfDay = hour) ↔ ∃ e ∈ es', e.hourOfDay = hour := by
  have hlen : (hourly es hour).length = (hourly es' hour).length :=
    congrArg HourlyError.sampleCount (List.map_inj_left.mp heq hour (List.mem_range.mpr hlt))
  have hpos : ∀ es : List ForecastError,
      0 < (hourly es hour).length ↔ ∃ e ∈ es, e.hourOfDay = hour := by
    intro es
    simp [hourly_eq, List.length_pos_iff_exists_mem]
  rw [← hpos, hlen, hpos]

/-- A `/metrics` response on the probe shows the hour of the slot. -/
theorem extractHour_of_metrics_eq {conn conn' : Conn} {t : Instant} (hdb : conn.db = probe t)
    (hdb' : conn'.db = probe t) {horizon : Horizon}
    (hwin : conn.bind start ≤ t ∧ t ≤ conn.bind stop)
    (heq : metricsResponse conn start stop horizon = metricsResponse conn' start stop horizon) :
    conn.extractHour t = conn'.extractHour t := by
  have hnonneg : 0 ≤ conn.extractHour t := Int.emod_nonneg _ (by decide)
  have hlt : conn.extractHour t < 24 := Int.emod_lt_of_pos _ (by decide)
  -- the one error of the probe is counted in its hour
  obtain ⟨e, he⟩ := (exists_error_probe hdb horizon.value_le).mpr hwin
  have hmem : ∃ e ∈ getForecastErrors conn start stop horizon.value,
      e.hourOfDay = (conn.extractHour t).toNat :=
    ⟨e, he, by rw [(timestamp_of_mem_errors_probe hdb he).2]; omega⟩
  obtain ⟨e', he', hhour⟩ := (exists_hour_iff_of_hourly_eq
    (congrArg MetricsResponse.hourlyErrors heq) (by omega)).mp hmem
  rw [(timestamp_of_mem_errors_probe hdb' he').2] at hhour
  omega

/-! ## The exact condition -/

/-- A window is found non-empty between two clock readings or between two instants. -/
theorem ge_eq_some_false (hge : start.ge stop = some false) :
    (start.utcoffset = none ∧ stop.utcoffset = none ∧ start.wallClock < stop.wallClock) ∨
      (start.utcoffset.isSome ∧ stop.utcoffset.isSome) := by
  rw [Datetime.ge] at hge
  cases hs : start.utcoffset <;> cases he : stop.utcoffset <;> simp_all

/-- Over a database that raises nothing, a request with a non-empty window gets its response. -/
theorem answer_of_file {app : App} {req : Request} (hge : req.start.ge req.stop = some false)
    (db : Database) :
    answer app ⟨some db, false, false, 0, 0⟩ none req = .ok (req.compute ⟨db, app.timeZone⟩) := by
  rw [answer, handleUncached, hge]
  rfl

/-- An offset-less window moves with the zone, so a slot at one of its ends tells the zones apart.
-/
theorem not_compute_eq_of_naive {req : Request} (hzone : zone ≠ 0)
    (hstart : req.start.utcoffset = none) (hstop : req.stop.utcoffset = none)
    (hlt : req.start.wallClock < req.stop.wallClock) :
    ¬ ∀ db, req.compute ⟨db, zone⟩ = req.compute ⟨db, 0⟩ := by
  intro hcompute
  have hwin : ∀ t : ℤ, (req.start.wallClock - zone * 1000000 ≤ t ∧
      t ≤ req.stop.wallClock - zone * 1000000) →
      req.start.wallClock ≤ t ∧ t ≤ req.stop.wallClock := by
    intro t
    have := (window_of_compute_eq rfl rfl (hcompute (probe t))).mp
    simpa only [Conn.bind, Datetime.instantIn, hstart, hstop, microsPerSecond, zero_mul,
      sub_zero] using this
  -- ahead of UTC the window starts earlier, behind UTC it stops later
  rcases lt_or_gt_of_ne hzone with hneg | hpos
  · have := hwin (req.stop.wallClock - zone * 1000000) ⟨by omega, le_rfl⟩
    omega
  · have := hwin (req.start.wallClock - zone * 1000000) ⟨le_rfl, by omega⟩
    omega

/-- A rejected window is rejected in every session time zone. -/
theorem answer_of_rejected (hexdigest : String → String) (zone : ℤ) {req : Request}
    (hge : req.start.ge req.stop ≠ some false) (env : Env) :
    answer ⟨hexdigest, zone⟩ env none req = answer ⟨hexdigest, 0⟩ env none req := by
  rw [answer, answer, handleUncached, handleUncached]
  cases h : req.start.ge req.stop with
  | none => rfl
  | some b =>
    cases b with
    | true => rfl
    | false => exact absurd h hge

/-- Databases that compute one response are answered alike, whatever the server meets. -/
theorem answer_of_compute (hexdigest : String → String) {zone : ℤ} {req : Request}
    (hcompute : ∀ db, req.compute ⟨db, zone⟩ = req.compute ⟨db, 0⟩) (env : Env) :
    answer ⟨hexdigest, zone⟩ env none req = answer ⟨hexdigest, 0⟩ env none req := by
  rw [answer, answer, handleUncached, handleUncached, getDb, getDb]
  cases env.file with
  | none => rfl
  | some db =>
    cases env.connectRaises with
    | true => rfl
    | false =>
      simp only [Bool.false_eq_true, if_false, hcompute db]
      rcases req.start.ge req.stop with _ | _ | _ <;> rfl

/-- With offsets and the same hours, a request computes what it computes under UTC. -/
theorem compute_of_aware {zone : ℤ} {req : Request} (hstart : req.start.utcoffset.isSome)
    (hstop : req.stop.utcoffset.isSome)
    (hhours : ∀ start stop horizon, req = .metrics start stop horizon →
      SameHours zone (start.instantIn 0) (stop.instantIn 0)) (db : Database) :
    req.compute ⟨db, zone⟩ = req.compute ⟨db, 0⟩ := by
  have hbind : ∀ t : Datetime, t.utcoffset.isSome →
      Conn.bind ⟨db, zone⟩ t = Conn.bind ⟨db, 0⟩ t :=
    fun t ht => Datetime.instantIn_aware ht zone 0
  refine compute_congr ⟨db, zone⟩ ⟨db, 0⟩ rfl (hbind _ hstart) (hbind _ hstop)
    fun start stop horizon hreq t hlo hhi => ?_
  simpa [Conn.extractHour] using hhours start stop horizon hreq t hlo hhi

/-- **When the answers do not depend on the session time zone.** A request is answered as under UTC,
whatever the server meets, exactly when its window is rejected, or the session time zone is UTC, or
both of its datetimes carry an offset and, for `/metrics`, the window falls in the same hours of the
day in the session time zone as in UTC. -/
theorem answer_zone_iff (hexdigest : String → String) (zone : ℤ) (req : Request) :
    (∀ env, answer ⟨hexdigest, zone⟩ env none req = answer ⟨hexdigest, 0⟩ env none req) ↔
      req.start.ge req.stop ≠ some false ∨ zone = 0 ∨
        (req.start.utcoffset.isSome ∧ req.stop.utcoffset.isSome) ∧
          ∀ start stop horizon, req = .metrics start stop horizon →
            SameHours zone (start.instantIn 0) (stop.instantIn 0) := by
  constructor
  · -- otherwise a probe at some instant is answered differently
    intro heq
    by_contra hcond
    rw [not_or, not_or, not_not] at hcond
    obtain ⟨hge, hzone, haware⟩ := hcond
    have hcompute : ∀ db, req.compute ⟨db, zone⟩ = req.compute ⟨db, 0⟩ := by
      intro db
      have := heq ⟨some db, false, false, 0, 0⟩
      rw [answer_of_file hge, answer_of_file hge] at this
      exact Except.ok.inj this
    rcases ge_eq_some_false hge with ⟨hstart, hstop, hlt⟩ | hsome
    · exact not_compute_eq_of_naive hzone hstart hstop hlt hcompute
    · -- with offsets the window is the same, so the hours are what can differ
      refine haware ⟨hsome, ?_⟩
      rintro start stop horizon rfl t hlo hhi
      have hwin : Conn.bind ⟨probe t, zone⟩ start ≤ t ∧ t ≤ Conn.bind ⟨probe t, zone⟩ stop :=
        ⟨(Datetime.instantIn_aware hsome.1 zone 0).trans_le hlo,
          hhi.trans_eq (Datetime.instantIn_aware hsome.2 0 zone)⟩
      have hhour := extractHour_of_metrics_eq rfl rfl hwin
        (Response.metrics.inj (hcompute (probe t)))
      simpa [Conn.extractHour] using hhour
  · rintro (hge | rfl | ⟨⟨hstart, hstop⟩, hhours⟩) env
    · exact answer_of_rejected hexdigest zone hge env
    · rfl
    · exact answer_of_compute hexdigest (compute_of_aware hstart hstop hhours) env

/-- Offset-less midnight of 2024-01-01. -/
def newYear : Datetime := .ofFields 2024 1 1 0 0 0 0 none (by decide)

/-- An hour later. -/
def newYearOne : Datetime := .ofFields 2024 1 1 1 0 0 0 none (by decide)

/-- The offset-less first hour of 2024-01-01 is another hour on a server one hour ahead of UTC: the
actual of 2023-12-31T23:00Z is in it there, and not under UTC. -/
theorem answer_zone_newYear :
    answer ⟨id, 3600⟩ ⟨some (probe 1704063600000000), false, false, 0, 0⟩ none
        (.generation newYear newYearOne)
      ≠ answer ⟨id, 0⟩ ⟨some (probe 1704063600000000), false, false, 0, 0⟩ none
        (.generation newYear newYearOne) := by
  decide

end WindSight
