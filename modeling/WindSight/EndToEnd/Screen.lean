import WindSight.Backend.ErrorJoin
import WindSight.EndToEnd.System

/-! # The page

What the dashboard renders: the status line, the banner, the metrics panel and the chart. In every
state of every run of the system these four tell one story, and the status line counts the points
the chart draws (`render_coherent`). When the data are those of the selected controls, the sample
count is the number of times at which the chart has both series (`render_samples`). A window that
the API rejects leaves the data alone and ends with the banner (`complete_rejected`). -/

namespace WindSight

/-! ## Rendering -/

/-- How the browser writes numbers. -/
structure Locale where
  toLocaleString : ℚ → String
  toFixed : ℕ → ℚ → String

/-- `count`, or `0` for a body without one. -/
def Response.count : Response → ℕ
  | .generation r => r.count
  | .forecast r => r.count
  | .metrics _ => 0

/-- `data`, as the chart pairs its points; none for a body without it. -/
def Response.points : Response → List (Instant × ℚ)
  | .generation r => r.data.map fun d => (d.timestamp, d.generationMw)
  | .forecast r => r.data.map fun d => (d.timestamp, d.generationMw)
  | .metrics _ => []

/-- A card of the metrics panel. -/
structure Card where
  label : String
  value : String
  unit : String
  detail : String
  deriving DecidableEq, Repr

/-- `MetricsPanel`: six placeholders, nothing, or the cards. -/
inductive MetricsPanel where
  | skeleton
  | absent
  | cards (cards : List Card)
  deriving DecidableEq, Repr

/-- The cards of a metrics response. -/
def metricsCards (locale : Locale) (r : MetricsResponse) : List Card :=
  [⟨"Mean Absolute Error", locale.toLocaleString r.errorMetrics.meanAbsoluteError, "MW",
      s!"{r.errorMetrics.sampleCount} samples"⟩,
    ⟨"Median Absolute Error", locale.toLocaleString r.errorMetrics.medianAbsoluteError, "MW",
      "Typical deviation magnitude"⟩,
    ⟨"P99 Error", locale.toLocaleString r.errorMetrics.p99Error, "MW", "99th percentile error"⟩,
    ⟨"RMSE", locale.toLocaleString r.errorMetrics.rmse, "MW", "Root mean squared error"⟩,
    ⟨"Reliable Supply (P10)", locale.toLocaleString r.reliability.p10GenerationMw, "MW",
      "Wind exceeds this 90% of time"⟩,
    ⟨"Capacity Factor", locale.toFixed 1 (r.reliability.capacityFactor * 100), "%",
      s!"Mean: {locale.toLocaleString r.reliability.meanGenerationMw} MW"⟩]

/-- The area under the chart's title: the overlay, the empty state, or the two series. -/
inductive ChartArea where
  | loading
  | empty
  | chart (actualData forecastData : List (Instant × ℚ))
  deriving DecidableEq, Repr

/-- What is in the area when nothing is loading. -/
def ChartArea.drawn (actualData forecastData : List (Instant × ℚ)) : ChartArea :=
  if actualData.isEmpty && forecastData.isEmpty then .empty else .chart actualData forecastData

/-- The page. -/
structure Screen where
  statusClass : String
  status : String
  banner : Option String
  panel : MetricsPanel
  legend : String
  chart : ChartArea
  deriving DecidableEq, Repr

namespace Dashboard

/-- The text of the status line when there is nothing to report. -/
def countsText (actual forecast : ℕ) : String := s!"{actual} actual · {forecast} forecast points"

/-- `error`, if it counts as true. -/
def shownError {B : Type} (s : Dashboard B B B) : Option String := s.error.filter (· ≠ "")

/-- `MetricsPanel`, on the metrics held. -/
def metricsPanel (locale : Locale) (s : Dashboard Response Response Response) : MetricsPanel :=
  if s.isLoading then .skeleton
  else
    match s.metrics with
    | some ⟨_, .metrics r⟩ => .cards (metricsCards locale r)
    | _ => .absent

/-- The part of the page under the title of the chart. -/
def chartArea (s : Dashboard Response Response Response) : ChartArea :=
  if s.isLoading then .loading
  else .drawn (s.generation.elim [] (·.body.points)) (s.forecast.elim [] (·.body.points))

/-- The page that `Dashboard` renders. -/
def render (locale : Locale) (s : Dashboard Response Response Response) : Screen where
  statusClass := if s.shownError.isSome then "error" else if s.isLoading then "loading" else ""
  status :=
    if s.isLoading then "Fetching latest data"
    else if s.shownError.isSome then "API unavailable"
    else countsText (s.generation.elim 0 (·.body.count)) (s.forecast.elim 0 (·.body.count))
  banner := s.shownError
  panel := s.metricsPanel locale
  legend := s!"Forecast ({s.controls.horizonHours}h horizon)"
  chart := s.chartArea

end Dashboard

/-! ## Coherent pages -/

/-- The pages that tell one story: everything is loading; or the last call failed, with its banner;
or the status line counts the points of the chart. The data stay on the page in both of the last
two. -/
inductive Screen.Coherent : Screen → Prop
  | loading (legend : String) :
    Coherent ⟨"loading", "Fetching latest data", none, .skeleton, legend, .loading⟩
  | failed (panel : MetricsPanel) (legend : String) (actual forecast : List (Instant × ℚ))
    (h : panel ≠ .skeleton) :
    Coherent ⟨"error", "API unavailable", some Dashboard.allFailedMessage, panel, legend,
      .drawn actual forecast⟩
  | ready (panel : MetricsPanel) (legend : String) (actual forecast : List (Instant × ℚ))
    (h : panel ≠ .skeleton) :
    Coherent ⟨"", Dashboard.countsText actual.length forecast.length, none, panel, legend,
      .drawn actual forecast⟩

section Status

variable {B : Type} {s : Dashboard B B B}

/-- The state of the indicators: an error is the message of a failed call, and nothing is loading
then. -/
structure Dashboard.StatusSound (s : Dashboard B B B) : Prop where
  message : ∀ e ∈ s.error, e = allFailedMessage
  idle : s.error.isSome → s.isLoading = false

theorem Dashboard.StatusSound.step (h : s.StatusSound) (event : Dashboard.Event B B B) :
    (s.step event).2.StatusSound := by
  rcases step_cases s event with heq | ⟨c, -, -, heq⟩ | ⟨i, f, -, heq⟩ |
    ⟨i, l, -, -, -, -, heq⟩ <;> rw [heq]
  · exact h
  · exact ⟨fun e he => absurd he (by simp [loadData]), fun he => absurd he (by simp [loadData])⟩
  · exact ⟨h.message, h.idle⟩
  · refine ⟨fun e he => ?_, fun _ => rfl⟩
    simp only [completeLoad] at he
    split at he
    · exact (Option.some.inj he).symm
    · exact h.message e he

/-- The dashboard of the system takes its own steps. -/
theorem dashboard_step_cases (app : App) (q : QueryReader) (s : System) (event : SystemEvent) :
    (s.step app q event).2.dashboard = s.dashboard ∨
      ∃ e, (s.step app q event).2.dashboard = (s.dashboard.step e).2 := by
  cases event with
  | change c => exact Or.inr ⟨_, rfl⟩
  | arrive i endpoint env =>
    refine Or.inl ?_
    rw [System.step]
    cases s.dashboard.loads[i]? with
    | none => rfl
    | some l =>
      show (s.answerCall app q i endpoint env l).dashboard = s.dashboard
      rw [System.answerCall]
      cases q.read (l.controls.request endpoint) <;> rfl
  | deliver k =>
    rw [System.step]
    cases s.network[k]? with
    | none => exact Or.inl rfl
    | some m => exact Or.inr ⟨_, rfl⟩
  | lose i endpoint => exact Or.inr ⟨_, rfl⟩
  | complete i => exact Or.inr ⟨_, rfl⟩
  | server event => exact Or.inl rfl

/-- The indicators are sound in every run. -/
theorem statusSound_finalState (app : App) (q : QueryReader) (trace : List SystemEvent) :
    (Machine.finalState (System.step app q) System.init trace).dashboard.StatusSound := by
  refine Machine.finalState_invariant (P := fun s : System => s.dashboard.StatusSound) ?_ ?_
  · intro s event _ h
    rcases dashboard_step_cases app q s event with heq | ⟨e, heq⟩ <;> rw [heq]
    · exact h
    · exact h.step e
  · exact ⟨fun e he => absurd he (by simp [System.init, Dashboard.mount, Dashboard.loadData]),
      fun he => absurd he (by simp [System.init, Dashboard.mount, Dashboard.loadData])⟩

end Status

/-! ## What the server answers, whatever it confuses -/

/-- Every entry of the cache was computed for some request. -/
structure Server.Computed (srv : Server) : Prop where
  maxSize_pos : 1 ≤ srv.cache.maxSize
  entries : ∀ k v, srv.cache.cache.get? k = some v →
    ∃ (req : Request) (conn : Conn), v.1 = req.compute conn

/-- A success without a cache is computed. -/
theorem ok_of_handleUncached {app : App} {env : Env} {connection : Option Conn} {req : Request}
    {response : Response} (h : (handleUncached app env connection req).1 = .ok response) :
    ∃ conn, response = req.compute conn := by
  rw [handleUncached] at h
  split at h
  · cases h
  · cases h
  · split at h
    · cases h
    · next conn _ =>
      split at h
      · cases h
      · exact ⟨conn, (Except.ok.inj h).symm⟩

/-- A request leaves entries that were computed for some request, and succeeds only on a window that
is not empty, with such a response. -/
theorem Server.Computed.handle {srv : Server} (h : srv.Computed) (app : App) (env : Env)
    (req : Request) :
    (handle app env srv req).2.Computed ∧
      ∀ response, (WindSight.handle app env srv req).1 = .ok response →
        req.start.ge req.stop = some false ∧
          ∃ (req' : Request) (conn : Conn), response = req'.compute conn := by
  by_cases hge : req.start.ge req.stop = some false
  · rw [handle_of_window hge]
    have hget : ∀ k v, (srv.cache.get env.lookupTime (req.key app.hexdigest)).2.cache.get? k
        = some v → ∃ (req : Request) (conn : Conn), v.1 = req.compute conn :=
      fun k v hk => h.entries k v (LRUCache.get?_of_get hk)
    have hmax : 1 ≤ (srv.cache.get env.lookupTime (req.key app.hexdigest)).2.maxSize :=
      (LRUCache.maxSize_get ..).symm ▸ h.maxSize_pos
    have hhit : ∀ response, (srv.cache.get env.lookupTime (req.key app.hexdigest)).1
        = some response → ∃ (req : Request) (conn : Conn), response = req.compute conn := by
      intro response hhit
      obtain ⟨expiry, hentry, -⟩ := LRUCache.entry_of_get hhit
      exact h.entries _ _ hentry
    generalize srv.cache.get env.lookupTime (req.key app.hexdigest) = found at hget hmax hhit ⊢
    obtain ⟨_ | response, cache⟩ := found
    · obtain ⟨cache', hstep, hcache⟩ := computeAndStore_cases app env { srv with cache := cache }
        hmax (req.key app.hexdigest) hge
      simp only [hstep]
      refine ⟨?_, fun response hout => ⟨hge, ?_⟩⟩
      · rcases hcache with rfl | ⟨conn, -, hset⟩
        · exact ⟨hmax, hget⟩
        · obtain ⟨hsize, hentries⟩ := LRUCache.get?_of_set hmax hset
          refine ⟨hsize ▸ hmax, fun k v hk => ?_⟩
          rcases hentries k v hk with ⟨-, rfl⟩ | ⟨-, hold⟩
          · exact ⟨req, conn, rfl⟩
          · exact hget k v hold
      · obtain ⟨conn, hresponse⟩ := ok_of_handleUncached hout
        exact ⟨req, conn, hresponse⟩
    · exact ⟨⟨hmax, hget⟩, fun r hr => ⟨hge, hhit r (congrArg _ (Except.ok.inj hr))⟩⟩
  · obtain ⟨failure, hserver⟩ := handle_rejected app env srv hge
    rw [hserver]
    exact ⟨h, fun response hout => by cases hout⟩

/-- Every event of the process leaves entries that were computed for some request. -/
theorem Server.Computed.appStep {srv : Server} (h : srv.Computed) (app : App) (event : AppEvent) :
    (appStep app srv event).2.Computed := by
  cases event with
  | startup env =>
    show (startup app env srv).Computed
    rw [startup]
    split
    · exact h
    · exact ⟨h.maxSize_pos, h.entries⟩
  | request env req => exact (h.handle app env req).1
  | health env =>
    show (healthCheck app env srv).2.Computed
    rw [healthCheck]
    split
    · exact h
    · exact ⟨h.maxSize_pos, h.entries⟩
  | cacheStats => exact h
  | shutdown =>
    refine ⟨h.maxSize_pos, fun k v hget => ?_⟩
    exact absurd (OrderedDict.mem_keys.mpr ⟨v, hget⟩) List.not_mem_nil

/-- The body counts its own points, and its request has a window that is not empty. -/
def Plausible (q : QueryReader) (_ : Endpoint) (r : ApiRequest) (response : Response) : Prop :=
  response.count = response.points.length ∧
    ∃ req, q.read r = some req ∧ req.start.ge req.stop = some false

/-- A computed response counts its own points. -/
theorem count_compute (req : Request) (conn : Conn) :
    (req.compute conn).count = (req.compute conn).points.length := by
  cases req with
  | generation start stop => exact (List.length_map _).symm
  | forecast start stop horizon => exact (List.length_map _).symm
  | metrics start stop horizon => rfl

/-- In every run the server caches computed responses, and what the dashboard holds is plausible. -/
theorem plausible_finalState (app : App) (q : QueryReader) (trace : List SystemEvent) :
    let s := Machine.finalState (System.step app q) System.init trace
    s.server.Computed ∧ s.Carries (Plausible q) Set.univ := by
  refine Machine.finalState_invariant
    (P := fun s : System => s.server.Computed ∧ s.Carries (Plausible q) Set.univ) ?_ ?_
  · rintro s event - ⟨hserver, hcarries⟩
    constructor
    · rcases server_step_cases app q s event with heq | ⟨e, heq, -⟩ <;> rw [heq]
      · exact hserver
      · exact hserver.appStep app e
    · refine hcarries.step ?_ fun _ _ => Set.mem_univ _
      rintro i endpoint env l - - req hread response hout
      obtain ⟨hge, req', conn, rfl⟩ := (hserver.handle app env req).2 response hout
      exact ⟨count_compute req' conn, req, hread, hge⟩
  · refine ⟨⟨(by simp [System.init, Server.init, LRUCache.new]), fun k v hget => ?_⟩,
      .init _ (Set.mem_univ _)⟩
    exact absurd (OrderedDict.mem_keys.mpr ⟨v, hget⟩) List.not_mem_nil

/-- What is held counts its own points. -/
theorem elim_count_eq {held : Option (ApiResponse Response)}
    (h : ∀ r ∈ held, r.body.count = r.body.points.length) :
    held.elim 0 (·.body.count) = (held.elim [] (·.body.points)).length := by
  cases held with
  | none => rfl
  | some r => exact h r rfl

theorem metricsPanel_ne_skeleton {locale : Locale} {s : Dashboard Response Response Response}
    (h : s.isLoading = false) : s.metricsPanel locale ≠ .skeleton := by
  rw [Dashboard.metricsPanel, h]
  cases s.metrics with
  | none => exact fun heq => by cases heq
  | some r =>
    obtain ⟨request, _ | _ | _⟩ := r <;> exact fun heq => by cases heq

/-- **One story.** In every state of every run of the system the page is coherent: the status line,
its dot, the banner, the metrics panel and the chart show the same one of loading, failure and
data, and with data the status line counts the points the chart draws. -/
theorem render_coherent (app : App) (q : QueryReader) (locale : Locale)
    (trace : List SystemEvent) :
    ((Machine.finalState (System.step app q) System.init trace).dashboard.render locale).Coherent
    := by
  have hstatus := statusSound_finalState app q trace
  have hbodies := (plausible_finalState app q trace).2.bodies
  generalize (Machine.finalState (System.step app q) System.init trace).dashboard = s at *
  have hgeneration := elim_count_eq fun r hr => (hbodies.generation r hr).1
  have hforecast := elim_count_eq fun r hr => (hbodies.forecast r hr).1
  cases herror : s.error with
  | none =>
    have hshown : s.shownError = none := by rw [Dashboard.shownError, herror]; rfl
    cases hloading : s.isLoading with
    | true =>
      simp only [Dashboard.render, Dashboard.chartArea, Dashboard.metricsPanel, hshown, hloading]
      exact .loading _
    | false =>
      simp only [Dashboard.render, Dashboard.chartArea, hshown, hloading, hgeneration, hforecast]
      exact .ready _ _ _ _ (metricsPanel_ne_skeleton hloading)
  | some e =>
    have hloading : s.isLoading = false := hstatus.idle (by rw [herror]; rfl)
    have hshown : s.shownError = some Dashboard.allFailedMessage := by
      rw [Dashboard.shownError, herror, hstatus.message e herror]
      rfl
    simp only [Dashboard.render, Dashboard.chartArea, hshown, hloading]
    exact .failed _ _ _ _ (metricsPanel_ne_skeleton hloading)

/-! ## Windows the API rejects -/

/-- The API answers every request for the controls with an error status. -/
def Controls.Rejected (q : QueryReader) (c : Controls) : Prop :=
  ∀ endpoint req, q.read (c.request endpoint) = some req → req.start.ge req.stop ≠ some false

/-- A promise with no value that has settled was rejected. -/
theorem Settlement.eq_rejected {α : Type} {x : Settlement α} (hvalue : x.value? = none)
    (hsettled : x.isSettled = true) : x = .rejected := by
  cases x with
  | pending => cases hsettled
  | fulfilled value => cases hvalue
  | rejected => rfl

/-- **A rejected window.** In every run, whatever else is in flight, when a call of `loadData` ends
whose controls the API rejects, an unreadable end or a start that is not before the end, then the
data held stay what they were, and the page shows the banner. -/
theorem complete_rejected (app : App) (q : QueryReader) (trace : List SystemEvent) {i : ℕ}
    {l : Load Response Response Response}
    (hl : (Machine.finalState (System.step app q) System.init trace).dashboard.loads[i]? = some l)
    (hrejected : l.controls.Rejected q) (hend : l.allSettled = true ∧ l.done = false) :
    let s := Machine.finalState (System.step app q) System.init trace
    (s.step app q (.complete i)).2.dashboard =
      { s.dashboard with
        error := some Dashboard.allFailedMessage
        isLoading := false
        loads := s.dashboard.loads.modify i ({ · with done := true }) } := by
  have hcarries := (plausible_finalState app q trace).2
  dsimp only
  generalize Machine.finalState (System.step app q) System.init trace = s at *
  have hmem : l ∈ s.dashboard.loads := List.mem_of_getElem? hl
  have hbodies := hcarries.bodies.loads l hmem
  have hanswers := hcarries.inv.answers l hmem
  obtain ⟨hgeneration, hforecast, hmetrics⟩ := Load.allSettled_iff.mp hend.1
  -- a value would answer a request for the controls, whose window is then not empty
  have hvalue : ∀ (endpoint : Endpoint) (x : Settlement (ApiResponse Response)),
      (∀ r ∈ x.value?, Plausible q endpoint r.request r.body) →
      (∀ r ∈ x.value?, r.request = l.controls.request endpoint) → x.value? = none := by
    intro endpoint x hplausible hrequest
    refine Option.eq_none_iff_forall_ne_some.mpr fun r hr => ?_
    obtain ⟨-, req, hread, hge⟩ := hplausible r hr
    rw [hrequest r hr] at hread
    exact hrejected endpoint req hread hge
  have hg := Settlement.eq_rejected
    (hvalue .generation _ hbodies.generation hanswers.generation) hgeneration
  have hf := Settlement.eq_rejected
    (hvalue .forecast _ hbodies.forecast hanswers.forecast) hforecast
  have hm := Settlement.eq_rejected (hvalue .metrics _ hbodies.metrics hanswers.metrics) hmetrics
  show (s.dashboard.step (.complete i)).2 = _
  simp only [Dashboard.step, hl, hend.1, hend.2, Bool.not_false, Bool.and_self, if_true]
  simp only [Dashboard.completeLoad, Load.allFailed, hg, hf, hm]
  rfl

/-- Controls whose start was cleared. -/
def clearedStart : Controls := { Controls.initial with startDateTime := "" }

/-- The first call, and one for the cleared start, whose requests are all answered. -/
def clearedCall : List SystemEvent :=
  firstCall ++ [.change clearedStart, .arrive 1 .generation quietEnv, .arrive 1 .forecast quietEnv,
    .arrive 1 .metrics quietEnv, .deliver 2, .deliver 0, .deliver 0]

/-- The rejected call leaves the data of the first one. -/
theorem complete_rejected_clearedCall :
    let s := Machine.finalState (System.step ⟨initialDigest, 0⟩ initialReader) System.init
      clearedCall
    s.dashboard.generation.isSome ∧
      (s.step ⟨initialDigest, 0⟩ initialReader (.complete 1)).2.dashboard =
        { s.dashboard with
          error := some Dashboard.allFailedMessage
          isLoading := false
          loads := s.dashboard.loads.modify 1 ({ · with done := true }) } := by
  refine ⟨by decide +kernel, ?_⟩
  have hload : ((Machine.finalState (System.step ⟨initialDigest, 0⟩ initialReader) System.init
      clearedCall).dashboard.loads[1]?.map fun l => (l.controls, l.allSettled, l.done))
        = some (clearedStart, true, false) := by decide +kernel
  obtain ⟨l, hl, heq⟩ := Option.map_eq_some_iff.mp hload
  obtain ⟨hcontrols, hend⟩ : l.controls = clearedStart ∧ (l.allSettled, l.done) = (true, false) :=
    Prod.mk.inj heq
  refine complete_rejected ⟨initialDigest, 0⟩ initialReader clearedCall hl ?_ (Prod.mk.inj hend)
  intro endpoint req hread
  have hstart : initialReader.datetime clearedStart.start = none := by decide +kernel
  obtain ⟨hstart', -⟩ := datetime_of_read hread
  rw [hcontrols, hstart] at hstart'
  cases hstart'

/-! ## The data of the selected controls -/

/-- The chart and the cards when the data are those of some controls, over one database. -/
theorem samples_of_answered {app : App} {q : QueryReader} {db : Database} {sel : Set Controls}
    {c : Controls} {g f m : Response}
    (hg : Answered app q {db} sel .generation (c.request .generation) g)
    (hf : Answered app q {db} sel .forecast (c.request .forecast) f)
    (hm : Answered app q {db} sel .metrics (c.request .metrics) m) :
    g.points.Pairwise (·.1 < ·.1) ∧ f.points.Pairwise (·.1 < ·.1) ∧
      ∃ r, m = .metrics r ∧ r.errorMetrics.sampleCount =
        ((g.points.map Prod.fst).toFinset ∩ (f.points.map Prod.fst).toFinset).card := by
  obtain ⟨_, _, _, req, hread, _, _, rfl, rfl⟩ := hg
  obtain ⟨start, stop, hstart, hstop, rfl⟩ := eq_generation_of_read hread
  obtain ⟨_, _, _, req, hread, _, _, rfl, rfl⟩ := hf
  obtain ⟨start', stop', h, hstart', hstop', hh, rfl⟩ := eq_forecast_of_read hread
  obtain ⟨_, _, _, req, hread, _, _, rfl, rfl⟩ := hm
  obtain ⟨start'', stop'', h'', hstart'', hstop'', hh'', rfl⟩ := eq_metrics_of_read hread
  -- the three requests were read as one window, and the last two as one horizon
  obtain rfl := Option.some.inj (hstart.symm.trans hstart')
  obtain rfl := Option.some.inj (hstart.symm.trans hstart'')
  obtain rfl := Option.some.inj (hstop.symm.trans hstop')
  obtain rfl := Option.some.inj (hstop.symm.trans hstop'')
  obtain rfl := Option.some.inj (hh.symm.trans hh'')
  refine ⟨?_, ?_, _, rfl, ?_⟩
  · exact List.pairwise_map.mpr (generationQuery_pairwise _ start stop)
  · refine List.pairwise_map.mpr (List.pairwise_map.mpr ?_)
    exact getHorizonForecast_pairwise _ start stop h.value
  · rw [metricsResponse, sampleCount_eq, length_getForecastErrors]
    simp only [Request.compute, Response.points, generationResponse, forecastResponse,
      forecastResponseOf, List.map_map]
    rfl

/-- **The panel and the chart.** Take any run of the system over one database in which the truncated
digest confuses no parameter texts. Whenever the page shows the data of the selected controls, it
shows cards and two series, each in strictly increasing time order, and the first card's number of
samples is the number of times the two series have in common. -/
theorem render_samples (app : App) (q : QueryReader) (locale : Locale) (db : Database)
    (trace : List SystemEvent) (hfiles : FilesIn {db} trace)
    (hhash : NoCollision app.hexdigest (requestsIn q trace))
    (hshows : (Machine.finalState (System.step app q) System.init trace).dashboard.ShowsSelected)
    (hloading : (Machine.finalState (System.step app q) System.init trace).dashboard.isLoading
      = false) :
    let page := (Machine.finalState (System.step app q) System.init trace).dashboard.render locale
    ∃ (r : MetricsResponse) (actualData forecastData : List (Instant × ℚ)),
      page.panel = .cards (metricsCards locale r) ∧
      page.chart = .drawn actualData forecastData ∧
      actualData.Pairwise (·.1 < ·.1) ∧ forecastData.Pairwise (·.1 < ·.1) ∧
      r.errorMetrics.sampleCount =
        ((actualData.map Prod.fst).toFinset ∩ (forecastData.map Prod.fst).toFinset).card := by
  have hbodies := (sound_finalState app q hhash
    (fun c hc endpoint req hread => Or.inr ⟨c, hc, endpoint, hread⟩) trace hfiles subset_rfl
    subset_rfl).carries.bodies
  dsimp only
  generalize (Machine.finalState (System.step app q) System.init trace).dashboard = s at *
  obtain ⟨⟨g, hg, hgr⟩, ⟨f, hf, hfr⟩, m, hm, hmr⟩ := hshows
  have hga := hbodies.generation g hg
  have hfa := hbodies.forecast f hf
  have hma := hbodies.metrics m hm
  rw [hgr] at hga
  rw [hfr] at hfa
  rw [hmr] at hma
  obtain ⟨hactual, hforecast, r, hr, hsamples⟩ := samples_of_answered hga hfa hma
  refine ⟨r, g.body.points, f.body.points, ?_, ?_, hactual, hforecast, hsamples⟩
  · obtain ⟨request, body⟩ := m
    obtain rfl : body = .metrics r := hr
    simp only [Dashboard.render, Dashboard.chartArea, Dashboard.metricsPanel, hloading, hm]
    rfl
  · simp only [Dashboard.render, Dashboard.chartArea, hloading, hg, hf]
    rfl

/-- A database with one actual and a forecast for it, made half a day before. -/
def oneSlot : Database :=
  { oneActual with
    windForecast := KeyedTable.empty.upsert
      ⟨midnight 19723, midnight 19722 + 12 * microsPerHour, 120⟩ }

/-- Nothing raises on that file. -/
def slotEnv : Env := ⟨some oneSlot, false, false, 1, 1⟩

/-- The first call, with all three requests answered. -/
def fullCall : List SystemEvent :=
  [.arrive 0 .metrics slotEnv, .arrive 0 .generation slotEnv, .deliver 1,
    .arrive 0 .forecast slotEnv, .deliver 1, .deliver 0, .complete 0]

/-- How a browser writes whole numbers below a thousand, and one decimal. -/
def exampleLocale : Locale where
  toLocaleString x := toString x.num
  toFixed _ x :=
    let tenths := (x * 10 + 1 / 2).floor
    s!"{tenths / 10}.{tenths % 10}"

/-- After the first call the page shows cards and a chart that agree. -/
theorem render_samples_fullCall :
    let page := (Machine.finalState (System.step ⟨initialDigest, 0⟩ initialReader) System.init
      fullCall).dashboard.render exampleLocale
    ∃ (r : MetricsResponse) (actualData forecastData : List (Instant × ℚ)),
      page.panel = .cards (metricsCards exampleLocale r) ∧
      page.chart = .drawn actualData forecastData ∧
      actualData.Pairwise (·.1 < ·.1) ∧ forecastData.Pairwise (·.1 < ·.1) ∧
      r.errorMetrics.sampleCount =
        ((actualData.map Prod.fst).toFinset ∩ (forecastData.map Prod.fst).toFinset).card := by
  refine render_samples ⟨initialDigest, 0⟩ initialReader exampleLocale oneSlot fullCall ?_
    (noCollision_initial (by simp [fullCall]) (by simp [fullCall])) ⟨?_, ?_, ?_⟩
    (by decide +kernel)
  · intro event hevent env henv db hdb
    have henv : env = slotEnv := by
      simp only [fullCall, List.mem_cons, List.not_mem_nil, or_false] at hevent
      rcases hevent with rfl | rfl | rfl | rfl | rfl | rfl | rfl <;> cases henv <;> rfl
    rw [henv] at hdb
    exact (Option.some.inj hdb).symm
  -- the three responses held, by their requests
  · exact Option.map_eq_some_iff.mp (show Option.map ApiResponse.request _ = _ by decide +kernel)
  · exact Option.map_eq_some_iff.mp (show Option.map ApiResponse.request _ = _ by decide +kernel)
  · exact Option.map_eq_some_iff.mp (show Option.map ApiResponse.request _ = _ by decide +kernel)

end WindSight
