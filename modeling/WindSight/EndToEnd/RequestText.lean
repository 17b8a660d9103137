import WindSight.Backend.HandlerOutcomes
import WindSight.Backend.TimeZone
import WindSight.Frontend.Dashboard

/-! # Requests of the dashboard, as the API reads them

The query parameters of the API client on their way through the validation of the API. The texts of
`start` and `end` end in `Z`, whatever the controls hold. So a request of the dashboard that passes
validation has a UTC offset at both ends: the comparison of the ends does not raise, and the series
it is answered with do not depend on the time zone of the server (`dashboard_requests_utc`). -/

namespace WindSight

/-! ## Validation -/

/-- How the validation reads the text of a parameter as a `datetime`, and as a `float`. -/
structure QueryReader where
  datetime : String → Option Datetime
  float : String → Option NumberText.PyFloat

namespace QueryReader

/-- A datetime text that ends in `Z` is read in UTC. -/
def ReadsUtc (q : QueryReader) : Prop :=
  ∀ text t, q.datetime (text ++ "Z") = some t → t.utcoffset = some 0

/-- `horizon: float = Query(default=4.0, ge=0, le=48)`. -/
def horizon (q : QueryReader) (text : Option String) : Option Horizon :=
  match text with
  | none => some exampleHorizon
  | some text => (q.float text).bind fun x =>
    if h : 0 ≤ x.value ∧ x.value ≤ 48 then some ⟨x, h⟩ else none

/-- The request the API handles; one without a handler, or whose parameters do not pass validation,
is answered with an error status. -/
def read (q : QueryReader) (r : ApiRequest) : Option Request := do
  let start ← (r.params.lookup "start").bind q.datetime
  let stop ← (r.params.lookup "end").bind q.datetime
  if r.endpoint = "/api/v1/generation" then
    return .generation start stop
  else
    let h ← q.horizon (r.params.lookup "horizon")
    if r.endpoint = "/api/v1/forecast" then return .forecast start stop h
    else if r.endpoint = "/api/v1/metrics" then return .metrics start stop h
    else none

end QueryReader

/-! ## The requests of the dashboard -/

/-- The endpoints the API client knows. -/
inductive Endpoint where
  | generation
  | forecast
  | metrics
  deriving DecidableEq, Repr

/-- The request `loadData` sends to an endpoint. -/
def Controls.request (c : Controls) : Endpoint → ApiRequest
  | .generation => c.generationRequest
  | .forecast => c.forecastRequest
  | .metrics => c.metricsRequest

section Read

variable {q : QueryReader} {c : Controls} {req : Request}

/-- A generation request is read as the window of the controls. -/
theorem read_generation (q : QueryReader) (c : Controls) :
    q.read (c.request .generation) = (do
      let start ← q.datetime c.start
      let stop ← q.datetime c.stop
      return .generation start stop) := rfl

/-- A request for the forecast is read as the window and the horizon of the controls. -/
theorem read_forecast (q : QueryReader) (c : Controls) :
    q.read (c.request .forecast) = (do
      let start ← q.datetime c.start
      let stop ← q.datetime c.stop
      let h ← q.horizon (some (toString c.horizonHours))
      return .forecast start stop h) := rfl

theorem read_metrics (q : QueryReader) (c : Controls) :
    q.read (c.request .metrics) = (do
      let start ← q.datetime c.start
      let stop ← q.datetime c.stop
      let h ← q.horizon (some (toString c.horizonHours))
      return .metrics start stop h) := rfl

/-- What a generation request that passes validation is read as. -/
theorem eq_generation_of_read (h : q.read (c.request .generation) = some req) :
    ∃ start stop, q.datetime c.start = some start ∧ q.datetime c.stop = some stop ∧
      req = .generation start stop := by
  rw [read_generation] at h
  simp only [Option.bind_eq_bind, Option.bind_eq_some_iff, Option.pure_def] at h
  obtain ⟨start, hstart, stop, hstop, heq⟩ := h
  exact ⟨start, stop, hstart, hstop, (Option.some.inj heq).symm⟩

/-- The window and the horizon a request for the forecast is read as. -/
theorem eq_forecast_of_read (h : q.read (c.request .forecast) = some req) :
    ∃ start stop horizon, q.datetime c.start = some start ∧ q.datetime c.stop = some stop ∧
      q.horizon (some (toString c.horizonHours)) = some horizon ∧
      req = .forecast start stop horizon := by
  rw [read_forecast] at h
  simp only [Option.bind_eq_bind, Option.bind_eq_some_iff, Option.pure_def] at h
  obtain ⟨start, hstart, stop, hstop, horizon, hhorizon, heq⟩ := h
  exact ⟨start, stop, horizon, hstart, hstop, hhorizon, (Option.some.inj heq).symm⟩

theorem eq_metrics_of_read (h : q.read (c.request .metrics) = some req) :
    ∃ start stop horizon, q.datetime c.start = some start ∧ q.datetime c.stop = some stop ∧
      q.horizon (some (toString c.horizonHours)) = some horizon ∧
      req = .metrics start stop horizon := by
  rw [read_metrics] at h
  simp only [Option.bind_eq_bind, Option.bind_eq_some_iff, Option.pure_def] at h
  obtain ⟨start, hstart, stop, hstop, horizon, hhorizon, heq⟩ := h
  exact ⟨start, stop, horizon, hstart, hstop, hhorizon, (Option.some.inj heq).symm⟩

/-- The ends of a request of the dashboard are those its controls are read as. -/
theorem datetime_of_read {e : Endpoint} (h : q.read (c.request e) = some req) :
    q.datetime c.start = some req.start ∧ q.datetime c.stop = some req.stop := by
  cases e with
  | generation =>
    obtain ⟨start, stop, hstart, hstop, rfl⟩ := eq_generation_of_read h
    exact ⟨hstart, hstop⟩
  | forecast =>
    obtain ⟨start, stop, horizon, hstart, hstop, -, rfl⟩ := eq_forecast_of_read h
    exact ⟨hstart, hstop⟩
  | metrics =>
    obtain ⟨start, stop, horizon, hstart, hstop, -, rfl⟩ := eq_metrics_of_read h
    exact ⟨hstart, hstop⟩

/-- The texts of the dashboard end in `Z`. -/
theorem start_eq_append (c : Controls) : c.start = c.startDateTime ++ ":00" ++ "Z" := by
  rw [String.append_assoc]
  rfl

theorem stop_eq_append (c : Controls) : c.stop = c.endDateTime ++ ":00" ++ "Z" := by
  rw [String.append_assoc]
  rfl

/-- A request of the dashboard that passes validation has UTC ends. -/
theorem utcoffset_of_read (hq : q.ReadsUtc) {e : Endpoint} (h : q.read (c.request e) = some req) :
    req.start.utcoffset = some 0 ∧ req.stop.utcoffset = some 0 := by
  obtain ⟨hstart, hstop⟩ := datetime_of_read h
  rw [start_eq_append] at hstart
  rw [stop_eq_append] at hstop
  exact ⟨hq _ _ hstart, hq _ _ hstop⟩

end Read

/-! ## What does not depend on the time zone -/

/-- A response without its hourly errors, which no component of the dashboard reads. -/
def Response.forgetHours : Response → Response
  | .metrics r => .metrics { r with hourlyErrors := [] }
  | r => r

/-- The aggregate statistics are those of the absolute errors. -/
theorem computeErrorMetrics_of_absErrors {es es' : List ForecastError}
    (h : es.map ForecastError.absErrorMw = es'.map ForecastError.absErrorMw) :
    computeErrorMetrics es = computeErrorMetrics es' := by
  have hempty : es.isEmpty = es'.isEmpty := by
    rw [← List.isEmpty_map (f := ForecastError.absErrorMw), h, List.isEmpty_map]
  have habs : absErrors es = absErrors es' := congrArg (List.insertionSort (· ≤ ·)) h
  have hsquare : meanSquare es = meanSquare es' := by
    have hmap : ∀ l : List ForecastError, l.map (fun e => e.absErrorMw ^ 2)
        = (l.map ForecastError.absErrorMw).map (· ^ 2) := by
      intro l
      rw [List.map_map]
      rfl
    rw [meanSquare, meanSquare, hmap, hmap, h, ← List.length_map ForecastError.absErrorMw, h,
      List.length_map]
  rw [computeErrorMetrics, computeErrorMetrics, hempty, hsquare]
  simp only [mae, medianError, p99Error, habs]

/-- The absolute errors depend on the zone through the ends of the window only. -/
theorem absErrorMw_getForecastErrors_congr (conn conn' : Conn) (hdb : conn.db = conn'.db)
    {start stop : Datetime} (hstart : conn.bind start = conn'.bind start)
    (hstop : conn.bind stop = conn'.bind stop) (h : ℚ) :
    (getForecastErrors conn start stop h).map ForecastError.absErrorMw =
      (getForecastErrors conn' start stop h).map ForecastError.absErrorMw := by
  rw [getForecastErrors, getForecastErrors, rankedForecasts_congr hdb hstart hstop, hdb, hstart,
    hstop, ListQuery.orderBy_map, ListQuery.orderBy_map, List.map_map, List.map_map]
  -- neither the order nor the errors are made from the hours
  rfl

/-- **Requests of the dashboard.** Take any controls, whatever texts they hold, and a request the
dashboard sends for them. If it passes validation, then after every run of the server and in every
environment it is answered with a documented outcome, not with the `TypeError` of a window whose
ends cannot be compared; and over every database its response is the same for every time zone of
the server, up to the hourly errors, which no component of the dashboard reads. -/
theorem dashboard_requests_utc {q : QueryReader} (hq : q.ReadsUtc) {c : Controls} {e : Endpoint}
    {req : Request} (h : q.read (c.request e) = some req) (app : App)
    (trace : List (Env × Request)) (env : Env) :
    Documented env req
        (serverStep app (Machine.finalState (serverStep app) Server.init trace) (env, req)).1 ∧
      ∀ db zone zone', (req.compute ⟨db, zone⟩).forgetHours
        = (req.compute ⟨db, zone'⟩).forgetHours := by
  obtain ⟨hstart, hstop⟩ := utcoffset_of_read hq h
  constructor
  · have hsound : EndpointSound app (Machine.finalState (serverStep app) Server.init trace) :=
      Machine.finalState_invariant (fun _ x _ h => (serverStep_documented h x).1)
        (EndpointSound.init app)
    refine (serverStep_documented hsound (env, req)).2 ?_
    rw [ge_isSome_iff, hstart, hstop]
  · intro db zone zone'
    have hbind : ∀ t : Datetime, t.utcoffset = some 0 →
        Conn.bind ⟨db, zone⟩ t = Conn.bind ⟨db, zone'⟩ t := fun t ht =>
      Datetime.instantIn_aware (by rw [ht]; rfl) zone zone'
    cases req with
    | generation start stop =>
      rw [compute_congr ⟨db, zone⟩ ⟨db, zone'⟩ rfl (hbind _ hstart) (hbind _ hstop) (by simp)]
    | forecast start stop horizon =>
      rw [compute_congr ⟨db, zone⟩ ⟨db, zone'⟩ rfl (hbind _ hstart) (hbind _ hstop) (by simp)]
    | metrics start stop horizon =>
      have hstart' : Conn.bind ⟨db, zone⟩ start = Conn.bind ⟨db, zone'⟩ start := hbind _ hstart
      have hstop' : Conn.bind ⟨db, zone⟩ stop = Conn.bind ⟨db, zone'⟩ stop := hbind _ hstop
      have hmetrics := computeErrorMetrics_of_absErrors
        (absErrorMw_getForecastErrors_congr ⟨db, zone⟩ ⟨db, zone'⟩ rfl hstart' hstop' horizon.value)
      have hreliability : getReliabilityMetrics ⟨db, zone⟩ start stop
          = getReliabilityMetrics ⟨db, zone'⟩ start stop := by
        rw [getReliabilityMetrics, getReliabilityMetrics, windowGeneration, windowGeneration,
          hstart', hstop']
      show Response.metrics _ = Response.metrics _
      rw [metricsResponse, metricsResponse, hmetrics, hreliability]

/-! ### The first requests -/

/-- Half past eleven in the evening of 2024-01-07, in UTC. -/
def initialStop : Datetime := .ofFields 2024 1 7 23 30 0 0 (some 0) (by decide)

/-- A reader of the texts of the initial controls. -/
def initialReader : QueryReader where
  datetime := fun text =>
    if text = "2024-01-01T00:00:00Z" then some exampleStart
    else if text = "2024-01-07T23:30:00Z" then some initialStop
    else none
  float := fun text => if text = "4" then some exampleHorizon.1 else none

theorem initialReader_readsUtc : initialReader.ReadsUtc := by
  intro text t h
  simp only [initialReader] at h
  split at h
  · obtain rfl := Option.some.inj h
    rfl
  · obtain ⟨-, h⟩ := Option.ite_none_right_eq_some.mp h
    obtain rfl := Option.some.inj h
    rfl

/-- The first metrics request is read, and answered as documented. -/
theorem dashboard_requests_utc_initial :
    Documented ⟨none, false, false, 0, 0⟩ (.metrics exampleStart initialStop exampleHorizon)
      (serverStep ⟨exampleDigest, 0⟩ Server.init
        (⟨none, false, false, 0, 0⟩, .metrics exampleStart initialStop exampleHorizon)).1 := by
  have hread : initialReader.read (Controls.initial.request .metrics)
      = some (.metrics exampleStart initialStop exampleHorizon) := by
    have hstart : initialReader.datetime Controls.initial.start = some exampleStart := by
      decide +kernel
    have hstop : initialReader.datetime Controls.initial.stop = some initialStop := by
      decide +kernel
    have hfloat : initialReader.float (toString Controls.initial.horizonHours)
        = some exampleHorizon.1 := rfl
    have hhorizon : initialReader.horizon (some (toString Controls.initial.horizonHours))
        = some exampleHorizon := by
      rw [QueryReader.horizon, hfloat]
      exact dif_pos exampleHorizon.2
    rw [read_metrics, hstart, hstop, hhorizon]
    rfl
  exact (dashboard_requests_utc initialReader_readsUtc hread ⟨exampleDigest, 0⟩ [] _).1

end WindSight
