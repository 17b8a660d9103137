import WindSight.Backend.CacheRecency
import WindSight.Backend.ErrorJoin
import WindSight.Backend.Lifespan

/-! # Monitoring

What the numbers a client can read from the process have to do with each other. Within a lifespan
all of them are read off one snapshot, so the answers of any two events agree: windows that overlap
have the same points where they do, the metrics count no sample that the series do not have, and
`/health` bounds them all (`readings_agree`). The statistics of the cache are those of a run of
cache calls, one lookup for each request with a window (`cacheStats_run`). -/

namespace WindSight

/-! ## Readings -/

/-- What a client learns from an event: the record counts of a healthy process, or the response to a
request. -/
inductive Reading where
  | health (response : HealthResponse)
  | answer (req : Request) (response : Response)

/-- The reading an event gives, if it gives one. -/
def readingOf : AppEvent → AppOutput → Option Reading
  | .request _ req, .response (.ok response) => some (.answer req response)
  | .health _, .health response =>
    if response.status = "ok" then some (.health response) else none
  | _, _ => none

/-- The instant lies in the window of the datetimes, read in the session time zone. -/
def Requested (app : App) (start stop : Datetime) (t : Instant) : Prop :=
  start.instantIn app.timeZone ≤ t ∧ t ≤ stop.instantIn app.timeZone

/-- What one reading says about another. -/
def Reading.Agrees (app : App) : Reading → Reading → Prop
  | .health r, .health r' => r = r'
  -- a series has the points of any other of its kind that lie in its window
  | .answer (.generation _ _) (.generation r), .answer (.generation start stop) (.generation r') =>
    ∀ p ∈ r.data, Requested app start stop p.timestamp → p ∈ r'.data
  | .answer (.forecast _ _ h) (.forecast r), .answer (.forecast start stop h') (.forecast r') =>
    h = h' → ∀ p ∈ r.data, Requested app start stop p.timestamp → p ∈ r'.data
  -- the metrics of a window count samples of both of its series
  | .answer (.metrics start stop _) (.metrics r),
      .answer (.generation start' stop') (.generation r') =>
    start = start' → stop = stop' → r.errorMetrics.sampleCount ≤ r'.count
  | .answer (.metrics start stop h) (.metrics r),
      .answer (.forecast start' stop' h') (.forecast r') =>
    start = start' → stop = stop' → h = h' → r.errorMetrics.sampleCount ≤ r'.count
  -- no answer counts more than the tables hold
  | .answer _ (.generation r), .health r' => r.count ≤ r'.actualRecords
  | .answer _ (.forecast r), .health r' => r.count ≤ r'.forecastRecords
  | .answer _ (.metrics r), .health r' =>
    r.errorMetrics.sampleCount ≤ r'.actualRecords ∧ r.errorMetrics.sampleCount ≤ r'.forecastRecords
  | _, _ => True

/-- A reading of a snapshot. -/
def Reading.Of (conn : Conn) : Reading → Prop
  | .health response => response = .ofConn conn
  | .answer req response => response = req.compute conn

/-! ## Counts of one snapshot -/

section Counts

variable (conn : Conn) (start stop : Datetime) (h : ℚ)

/-- The points of `/generation` are at most the actuals. -/
theorem length_generationQuery_le :
    (generationQuery conn start stop).length ≤ conn.db.actualGeneration.rows.length := by
  rw [generationQuery, (ListQuery.orderBy_perm _ _).length_eq, List.length_map]
  exact List.length_filter_le _ _

/-- The selected forecasts are at most the forecasts. -/
theorem length_getHorizonForecast_le :
    (getHorizonForecast conn start stop h).length ≤ conn.db.windForecast.rows.length := by
  rw [getHorizonForecast_eq, (ListQuery.orderBy_perm _ _).length_eq, List.length_map]
  have hnodup : (bestForecasts conn start stop h).Nodup :=
    (bestForecasts_nodup conn start stop h).of_map _
  refine (List.subperm_of_subset hnodup fun f hf => ?_).length_le
  exact (mem_bestForecasts.mp hf).2.mem

/-- The samples are at most the points of each series. -/
theorem length_getForecastErrors_le :
    (getForecastErrors conn start stop h).length ≤ (generationQuery conn start stop).length ∧
      (getForecastErrors conn start stop h).length
        ≤ (getHorizonForecast conn start stop h).length := by
  rw [length_getForecastErrors]
  constructor
  · refine (Finset.card_le_card Finset.inter_subset_left).trans ?_
    exact (List.toFinset_card_le _).trans (List.length_map _).le
  · refine (Finset.card_le_card Finset.inter_subset_right).trans ?_
    exact (List.toFinset_card_le _).trans (List.length_map _).le

end Counts

/-! ## Readings of one snapshot agree -/

/-- A point of one window is a point of every window it lies in. -/
theorem generationQuery_of_requested {app : App} {db : Database}
    {start stop start' stop' : Datetime} {p : GenerationPoint}
    (hp : p ∈ generationQuery ⟨db, app.timeZone⟩ start stop)
    (hwin : Requested app start' stop' p.timestamp) :
    p ∈ generationQuery ⟨db, app.timeZone⟩ start' stop' := by
  obtain ⟨a, ha, -, rfl⟩ := mem_generationQuery.mp hp
  exact mem_generationQuery.mpr ⟨a, ha, hwin, rfl⟩

theorem getHorizonForecast_of_requested {app : App} {db : Database}
    {start stop start' stop' : Datetime} {h : ℚ} {p : HorizonForecast}
    (hp : p ∈ getHorizonForecast ⟨db, app.timeZone⟩ start stop h)
    (hwin : Requested app start' stop' p.timestamp) :
    p ∈ getHorizonForecast ⟨db, app.timeZone⟩ start' stop' h := by
  obtain ⟨f, -, hsel, rfl⟩ := mem_getHorizonForecast.mp hp
  exact mem_getHorizonForecast.mpr ⟨f, hwin, hsel, rfl⟩

/-- The count of a forecast response is the number of selected forecasts. -/
theorem count_forecastResponse (conn : Conn) (start stop : Datetime) (horizon : Horizon) :
    (forecastResponse conn start stop horizon).count
      = (getHorizonForecast conn start stop horizon.value).length :=
  List.length_map _

/-- The sample count of a metrics response is the number of errors. -/
theorem sampleCount_metricsResponse (conn : Conn) (start stop : Datetime) (horizon : Horizon) :
    (metricsResponse conn start stop horizon).errorMetrics.sampleCount
      = (getForecastErrors conn start stop horizon.value).length :=
  sampleCount_eq _

/-- Readings of one snapshot agree. -/
theorem Reading.Of.agrees {app : App} {db : Database} {x y : Reading}
    (hx : x.Of ⟨db, app.timeZone⟩) (hy : y.Of ⟨db, app.timeZone⟩) : x.Agrees app y := by
  cases x with
  | health r =>
    cases y with
    | health r' => exact hx.trans hy.symm
    | answer req' response' => trivial
  | answer req response =>
    obtain rfl : response = req.compute ⟨db, app.timeZone⟩ := hx
    cases y with
    | health r' =>
      obtain rfl : r' = .ofConn ⟨db, app.timeZone⟩ := hy
      cases req with
      | generation start stop => exact length_generationQuery_le _ start stop
      | forecast start stop h =>
        show (forecastResponse _ start stop h).count ≤ _
        rw [count_forecastResponse]
        exact length_getHorizonForecast_le _ start stop h.value
      | metrics start stop h =>
        show (metricsResponse _ start stop h).errorMetrics.sampleCount ≤ _ ∧
          (metricsResponse _ start stop h).errorMetrics.sampleCount ≤ _
        rw [sampleCount_metricsResponse]
        obtain ⟨hgen, hfc⟩ := length_getForecastErrors_le ⟨db, app.timeZone⟩ start stop h.value
        exact ⟨hgen.trans (length_generationQuery_le _ start stop),
          hfc.trans (length_getHorizonForecast_le _ start stop h.value)⟩
    | answer req' response' =>
      obtain rfl : response' = req'.compute ⟨db, app.timeZone⟩ := hy
      cases req with
      | generation start stop =>
        cases req' with
        | generation start' stop' => exact fun p hp hwin => generationQuery_of_requested hp hwin
        | forecast start' stop' h' => trivial
        | metrics start' stop' h' => trivial
      | forecast start stop h =>
        cases req' with
        | generation start' stop' => trivial
        | forecast start' stop' h' =>
          rintro rfl p hp hwin
          obtain ⟨row, hrow, rfl⟩ := List.mem_map.mp hp
          exact List.mem_map.mpr ⟨row, getHorizonForecast_of_requested hrow hwin, rfl⟩
        | metrics start' stop' h' => trivial
      | metrics start stop h =>
        cases req' with
        | generation start' stop' =>
          rintro rfl rfl
          rw [sampleCount_metricsResponse]
          exact (length_getForecastErrors_le _ start stop h.value).1
        | forecast start' stop' h' =>
          rintro rfl rfl rfl
          rw [sampleCount_metricsResponse, count_forecastResponse]
          exact (length_getForecastErrors_le _ start stop h.value).2
        | metrics start' stop' h' => trivial

/-! ## Readings of one lifespan -/

section Lifespan

variable {app : App}

/-- A health check is answered with `ok` over the snapshot only. -/
theorem healthFrom_status {env : Env} {snapshot : Option Database}
    (h : (healthFrom app env snapshot).status = "ok") :
    ∃ db, snapshot = some db ∧ healthFrom app env snapshot = .ofConn ⟨db, app.timeZone⟩ := by
  have hdegraded : HealthResponse.degraded.status ≠ "ok" := by decide
  cases snapshot with
  | none => exact absurd h hdegraded
  | some db =>
    cases hraise : env.queryRaises with
    | true => simp [healthFrom, hraise, hdegraded] at h
    | false => exact ⟨db, rfl, by simp [healthFrom, hraise]⟩

/-- An event that is answered from a snapshot gives a reading of it. -/
theorem ServesSnapshot.reading {snapshot : Option Database} {event : AppEvent} {output : AppOutput}
    (h : ServesSnapshot app snapshot event output) {x : Reading}
    (hx : readingOf event output = some x) :
    ∃ db, snapshot = some db ∧ x.Of ⟨db, app.timeZone⟩ := by
  cases event with
  | request env req =>
    cases output with
    | response outcome =>
      cases outcome with
      | error failure => cases hx
      | ok response =>
        obtain rfl := Option.some.inj hx
        exact h.of_ok.2
    | _ => cases hx
  | health env =>
    cases output with
    | health response =>
      obtain rfl : response = healthFrom app env snapshot := h
      obtain ⟨hok, hx⟩ := Option.ite_none_right_eq_some.mp hx
      obtain rfl := Option.some.inj hx
      exact healthFrom_status hok
    | _ => cases hx
  | _ => cases output <;> cases hx

/-- Until the next shutdown, the snapshot stays. -/
theorem foldl_snapshotStep {db : Database} {events : List AppEvent}
    (hlife : .shutdown ∉ events) : events.foldl snapshotStep (some db) = some db := by
  induction events with
  | nil => rfl
  | cons event events ih =>
    obtain ⟨hevent, hevents⟩ := not_or.mp (List.mem_cons.not.mp hlife)
    rw [List.foldl_cons]
    have hstep : snapshotStep (some db) event = some db := by
      cases event with
      | shutdown => exact absurd rfl hevent
      | _ => rfl
    rw [hstep]
    exact ih hevents

/-- **Answers within a lifespan agree.** Take any run of the process and two events of one lifespan,
with any events but a shutdown between them: requests that hit or miss the cache, exceptions, and
changes of the database file among them. If the truncated digest confuses no parameter texts, the
readings of the two events agree, in both directions. -/
theorem readings_agree (app : App) (pre between : List AppEvent) (event event' : AppEvent)
    (hlife : .shutdown ∉ between)
    (hhash : NoCollision app.hexdigest (requestsOf (pre ++ event :: between ++ [event'])))
    {x y : Reading}
    (hx : readingOf event
      (appStep app (Machine.finalState (appStep app) Server.init pre) event).1 = some x)
    (hy : readingOf event' (appStep app
      (Machine.finalState (appStep app) Server.init (pre ++ event :: between)) event').1 = some y) :
    x.Agrees app y ∧ y.Agrees app x := by
  have hsub : requestsOf (pre ++ [event]) ⊆ requestsOf (pre ++ event :: between ++ [event']) := by
    rintro req ⟨env, hmem⟩
    refine ⟨env, ?_⟩
    simp only [List.mem_append, List.mem_cons, List.not_mem_nil, or_false] at hmem ⊢
    tauto
  obtain ⟨db, hdb, hof⟩ := (LifeSound.next hhash hsub).reading hx
  -- no event between the two changes the snapshot, and neither does the second
  have hevent' : event' ≠ .shutdown := by
    rintro rfl
    cases hy
  have hsame : snapshotAfter (pre ++ event :: between ++ [event']) = some db := by
    have hsplit :
        pre ++ event :: between ++ [event'] = (pre ++ [event]) ++ (between ++ [event']) := by
      simp
    rw [hsplit, snapshotAfter, List.foldl_append, ← snapshotAfter, hdb]
    refine foldl_snapshotStep ?_
    simp [hlife, hevent'.symm]
  obtain ⟨db', hdb', hof'⟩ := (LifeSound.next hhash subset_rfl).reading hy
  obtain rfl : db = db' := Option.some.inj (hsame.symm.trans hdb')
  exact ⟨hof.agrees hof', hof'.agrees hof⟩

end Lifespan

/-! ### A health check and a request -/

/-- The request of the next lifespan, after a health check in it. -/
theorem readings_agree_restart :
    (Reading.answer (.generation exampleStart exampleStop)
        (Request.compute ⟨oneActual, 0⟩ (.generation exampleStart exampleStop))).Agrees
      ⟨exampleDigest, 0⟩ (.health { actualRecords := 1 }) := by
  have hall : ∀ req ∈ requestsOf (restartTrace ++ [.health ⟨some oneActual, false, false, 2, 2⟩] ++
      [restartRequest]), req = .generation exampleStart exampleStop := by
    rintro req ⟨env, hmem⟩
    simp only [restartTrace, restartRequest, List.cons_append, List.nil_append, List.mem_cons,
      reduceCtorEq, AppEvent.request.injEq, List.not_mem_nil, false_or, or_false] at hmem
    rcases hmem with ⟨-, rfl⟩ | ⟨-, rfl⟩ <;> rfl
  refine (readings_agree ⟨exampleDigest, 0⟩ restartTrace []
    (.health ⟨some oneActual, false, false, 2, 2⟩) restartRequest List.not_mem_nil ?_ rfl rfl).2
  intro req hreq req' hreq' _
  rw [hall req hreq, hall req' hreq']

/-! ## Cache statistics -/

/-- The event looks something up in the cache: a request whose window is not empty. -/
def AppEvent.looksUp : AppEvent → Bool
  | .request _ req => req.start.ge req.stop = some false
  | _ => false

/-- The call that stores the response of a request, if it is computed. -/
def storeCalls (app : App) (srv : Server) (env : Env) (req : Request) :
    List (ℚ × CacheOp Response) :=
  match getDb app env srv.connection with
  | .error _ => []
  | .ok conn =>
    if env.queryRaises then []
    else [(env.storeTime, .set (req.key app.hexdigest) (req.compute conn) (some 600))]

/-- The calls of the cache an event makes. -/
def cacheCalls (app : App) (srv : Server) : AppEvent → List (ℚ × CacheOp Response)
  | .request env req =>
    let key := req.key app.hexdigest
    if req.start.ge req.stop = some false then
      (env.lookupTime, .get key) ::
        if (srv.cache.get env.lookupTime key).1.isSome then [] else storeCalls app srv env req
    else []
  -- `invalidate()` does not read the clock
  | .shutdown => [(0, .invalidate none)]
  | .startup _ | .health _ | .cacheStats => []

/-- A request stores once, if at all. -/
theorem storeCalls_cases (app : App) (srv : Server) (env : Env) (req : Request) :
    storeCalls app srv env req = [] ∨ ∃ conn, storeCalls app srv env req =
      [(env.storeTime, .set (req.key app.hexdigest) (req.compute conn) (some 600))] := by
  rw [storeCalls]
  cases getDb app env srv.connection with
  | error e => exact Or.inl rfl
  | ok conn =>
    cases env.queryRaises with
    | true => exact Or.inl rfl
    | false => exact Or.inr ⟨conn, rfl⟩

/-- The part of a handler inside its `try` leaves the cache that storing leaves. -/
theorem computeAndStore_cache (app : App) (env : Env) (srv : Server) (req : Request) :
    (computeAndStore app env srv (req.key app.hexdigest) req.compute).2.cache
      = Machine.finalState cacheStep srv.cache (storeCalls app srv env req) := by
  rw [computeAndStore, storeCalls]
  cases getDb app env srv.connection with
  | error e => rfl
  | ok conn =>
    cases env.queryRaises with
    | true => rfl
    | false =>
      simp only [Bool.false_eq_true, if_false, Machine.finalState_cons, Machine.finalState_nil,
        cacheStep]
      cases srv.cache.set env.storeTime (req.key app.hexdigest) (req.compute conn) (some 600)
      · rfl
      · rfl

/-- The cache after an event is the cache after its calls. -/
theorem appStep_cache (app : App) (srv : Server) (event : AppEvent) :
    (appStep app srv event).2.cache
      = Machine.finalState cacheStep srv.cache (cacheCalls app srv event) := by
  cases event with
  | startup env =>
    show (startup app env srv).cache = srv.cache
    rw [startup]
    split <;> rfl
  | request env req =>
    show (handle app env srv req).2.cache = _
    by_cases hge : req.start.ge req.stop = some false
    · rw [handle_of_window hge, cacheCalls, if_pos hge, Machine.finalState_cons]
      show _ = Machine.finalState cacheStep (srv.cache.get env.lookupTime _).2 _
      cases hget : srv.cache.get env.lookupTime (req.key app.hexdigest) with
      | mk found cache =>
        cases found with
        | some response => rfl
        | none => exact computeAndStore_cache app env ⟨cache, srv.connection⟩ req
    · obtain ⟨failure, hserver⟩ := handle_rejected app env srv hge
      rw [hserver, cacheCalls, if_neg hge]
      rfl
  | health env =>
    show (healthCheck app env srv).2.cache = srv.cache
    rw [healthCheck]
    split <;> rfl
  | cacheStats => rfl
  | shutdown => rfl

/-- An event looks up at most one key. -/
theorem countP_cacheCalls (app : App) (srv : Server) (event : AppEvent) :
    (cacheCalls app srv event).countP isGet = if event.looksUp then 1 else 0 := by
  cases event with
  | request env req =>
    by_cases hge : req.start.ge req.stop = some false
    · have hstore : (storeCalls app srv env req).countP isGet = 0 := by
        rcases storeCalls_cases app srv env req with h | ⟨conn, h⟩ <;> rw [h] <;> rfl
      rw [cacheCalls, if_pos hge, List.countP_cons_of_pos rfl]
      split <;> simp [hstore, AppEvent.looksUp, hge]
    · simp [cacheCalls, AppEvent.looksUp, hge]
  | startup env => rfl
  | health env => rfl
  | cacheStats => rfl
  | shutdown => rfl

/-- The cache of the process after a run is the cache after the calls of its events. -/
theorem finalState_appStep_cache (app : App) (srv : Server) (trace : List AppEvent) :
    (Machine.finalState (appStep app) srv trace).cache = Machine.finalState cacheStep srv.cache
      (Machine.record (appStep app) (cacheCalls app) srv trace) := by
  induction trace generalizing srv with
  | nil => rfl
  | cons event trace ih =>
    rw [Machine.finalState_cons, ih, appStep_cache, Machine.record, Machine.finalState_append]

/-- One lookup for each request with a window. -/
theorem countP_record_cacheCalls (app : App) (srv : Server) (trace : List AppEvent) :
    (Machine.record (appStep app) (cacheCalls app) srv trace).countP isGet
      = trace.countP AppEvent.looksUp := by
  induction trace generalizing srv with
  | nil => rfl
  | cons event trace ih =>
    rw [Machine.record, List.countP_append, ih, countP_cacheCalls, List.countP_cons, Nat.add_comm]

/-- A lookup adds no entry, and counts a miss when it finds nothing. -/
theorem LRUCache.get_length_misses {V : Type*} (c : LRUCache V) (now : ℚ) (key : String) :
    (c.get now key).2.cache.length ≤ c.cache.length ∧
      (c.get now key).2.misses = c.misses + if (c.get now key).1.isSome then 0 else 1 := by
  rcases c.get_cases now key with ⟨-, h⟩ | ⟨x, -, -, h⟩ | ⟨x, hx, -, h⟩ <;> rw [h]
  · exact ⟨le_rfl, rfl⟩
  · refine ⟨?_, rfl⟩
    rw [← OrderedDict.length_keys, ← OrderedDict.length_keys, OrderedDict.keys_erase]
    exact List.length_filter_le _ _
  · exact ⟨OrderedDict.length_withNewest_le_of_mem (OrderedDict.mem_keys.mpr ⟨x, hx⟩) x, rfl⟩

/-- A `set` adds at most one entry and counts no miss. -/
theorem cacheStep_set_length_misses {V : Type*} {c : LRUCache V} (hmax : 1 ≤ c.maxSize) (now : ℚ)
    (key : String) (value : V) (ttl : Option ℤ) :
    (cacheStep c (now, .set key value ttl)).2.cache.length ≤ c.cache.length + 1 ∧
      (cacheStep c (now, .set key value ttl)).2.misses = c.misses := by
  obtain ⟨d, hset, hd⟩ := LRUCache.set_cases hmax now key value ttl
  rw [cacheStep, hset]
  refine ⟨(OrderedDict.length_withNewest_le _ _ _).trans (Nat.add_le_add_right ?_ 1), rfl⟩
  rcases hd with ⟨rfl, -⟩ | ⟨hpop, -⟩
  · exact le_rfl
  · rw [OrderedDict.length_popOldest hpop]
    exact Nat.sub_le _ _

/-- The entries of the cache are at most the misses, when they were before: a request stores a
response only after it has missed. -/
theorem appStep_length_le_misses {app : App} {srv : Server} (hmax : 1 ≤ srv.cache.maxSize)
    (h : srv.cache.cache.length ≤ srv.cache.misses) (event : AppEvent) :
    (appStep app srv event).2.cache.cache.length ≤ (appStep app srv event).2.cache.misses := by
  rw [appStep_cache]
  cases event with
  | request env req =>
    by_cases hge : req.start.ge req.stop = some false
    · rw [cacheCalls, if_pos hge, Machine.finalState_cons]
      obtain ⟨hlen, hmiss⟩ := srv.cache.get_length_misses env.lookupTime (req.key app.hexdigest)
      have hmax' : 1 ≤ (srv.cache.get env.lookupTime (req.key app.hexdigest)).2.maxSize :=
        (LRUCache.maxSize_get ..).symm ▸ hmax
      have hle := hlen.trans h
      show (Machine.finalState cacheStep (srv.cache.get env.lookupTime _).2 _).cache.length ≤ _
      cases hfound : (srv.cache.get env.lookupTime (req.key app.hexdigest)).1 with
      | some response =>
        rw [hfound] at hmiss
        exact hle.trans hmiss.ge
      | none =>
        rw [hfound] at hmiss
        rcases storeCalls_cases app srv env req with hstore | ⟨conn, hstore⟩ <;> rw [hstore]
        · exact hle.trans (Nat.le_of_lt hmiss.ge)
        · obtain ⟨hlen', hmiss'⟩ := cacheStep_set_length_misses hmax' env.storeTime
            (req.key app.hexdigest) (req.compute conn) (some 600)
          exact hlen'.trans ((Nat.add_le_add_right hle 1).trans (hmiss'.trans hmiss).ge)
    · rw [cacheCalls, if_neg hge]
      exact h
  | startup env => exact h
  | health env => exact h
  | cacheStats => exact h
  | shutdown => exact Nat.zero_le _

/-- The cache of the process is one reached by its calls from the empty one. -/
theorem reached_appStep (app : App) (trace : List AppEvent) :
    Reached (.new 2000 300) (Machine.record (appStep app) (cacheCalls app) Server.init trace)
      (Machine.finalState (appStep app) Server.init trace).cache := by
  rw [finalState_appStep_cache]
  exact reached 2000 300 (by decide) _

/-- After every run, the entries are at most the misses. -/
theorem length_le_misses (app : App) (trace : List AppEvent) :
    (Machine.finalState (appStep app) Server.init trace).cache.cache.length
      ≤ (Machine.finalState (appStep app) Server.init trace).cache.misses := by
  induction trace using List.reverseRecOn with
  | nil => exact Nat.zero_le _
  | append_singleton trace event ih =>
    rw [Machine.finalState_append]
    refine appStep_length_le_misses ?_ ih event
    rw [(reached_appStep app trace).config.1]
    exact (by decide : 1 ≤ 2000)

/-- The hit rate is the fraction of hits. -/
theorem LRUCache.hitRate_stats {V : Type*} (c : LRUCache V) :
    c.stats.hitRate * (c.hits + c.misses : ℕ) = c.hits ∧
      0 ≤ c.stats.hitRate ∧ c.stats.hitRate ≤ 1 := by
  have hrate : c.stats.hitRate =
      if c.hits + c.misses > 0 then (c.hits : ℚ) / (c.hits + c.misses : ℕ) else 0 := rfl
  rw [hrate]
  by_cases htotal : c.hits + c.misses > 0
  · have hpos : (0 : ℚ) < (c.hits + c.misses : ℕ) := by exact_mod_cast htotal
    rw [if_pos htotal]
    refine ⟨div_mul_cancel₀ _ hpos.ne', by positivity, ?_⟩
    rw [div_le_one hpos]
    exact_mod_cast Nat.le_add_right c.hits c.misses
  · have hzero : c.hits = 0 := by omega
    simp [hzero]

/-- **Statistics of the cache.** After every run of the process, `/api/v1/cache/stats` reports one
hit or miss for each request with a window so far, over all lifespans; at most 2000 entries, and
never more than misses; and the hit rate is the fraction of hits, between zero and one. -/
theorem cacheStats_run (app : App) (trace : List AppEvent) :
    ∃ stats, (appStep app (Machine.finalState (appStep app) Server.init trace) .cacheStats).1
        = .stats stats ∧
      stats.hits + stats.misses = trace.countP AppEvent.looksUp ∧
      stats.maxSize = 2000 ∧ stats.size ≤ 2000 ∧ stats.size ≤ stats.misses ∧
      stats.hitRate * (stats.hits + stats.misses : ℕ) = stats.hits ∧
      0 ≤ stats.hitRate ∧ stats.hitRate ≤ 1 := by
  have hreached := reached_appStep app trace
  have hmax : (Machine.finalState (appStep app) Server.init trace).cache.maxSize = 2000 :=
    hreached.config.1
  refine ⟨_, rfl, ?_, hmax, hmax ▸ hreached.length_le, length_le_misses app trace,
    LRUCache.hitRate_stats _⟩
  exact hreached.counts.trans (countP_record_cacheCalls app Server.init trace)

end WindSight
