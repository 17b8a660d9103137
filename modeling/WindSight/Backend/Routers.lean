import WindSight.Backend.Cache
import WindSight.Backend.ForecastProcessor

/-! # API routers

The handlers of `/generation`, `/forecast` and `/metrics`. The three share one shape, `serve`: check
that `start` precedes `end`, look in the cache, obtain the global connection, compute the response
and store it. A handler runs without suspending, so a request is one step of the server. -/

namespace WindSight

open ListQuery NumberText Rounding

/-! ## Requests and responses -/

/-- The query parameter `horizon`, validated to lie between 0 and 48. -/
abbrev Horizon := {x : PyFloat // 0 ≤ x.value ∧ x.value ≤ 48}

/-- The horizon in hours. -/
def Horizon.value (h : Horizon) : ℚ := h.1.value

theorem Horizon.value_le (h : Horizon) : h.value ≤ 48 := h.2.2

/-- A request that passed parameter validation. -/
inductive Request where
  | generation (start stop : Datetime)
  | forecast (start stop : Datetime) (horizon : Horizon)
  | metrics (start stop : Datetime) (horizon : Horizon)

/-- The parameter `start`. -/
def Request.start : Request → Datetime
  | .generation start _ | .forecast start _ _ | .metrics start _ _ => start

/-- The parameter `end`. -/
def Request.stop : Request → Datetime
  | .generation _ stop | .forecast _ stop _ | .metrics _ stop _ => stop

structure GenerationPoint where
  timestamp : Instant
  generationMw : ℚ
  deriving DecidableEq, Repr

structure GenerationResponse where
  data : List GenerationPoint
  count : ℕ
  start : Datetime
  stop : Datetime
  deriving DecidableEq

structure ForecastPoint where
  timestamp : Instant
  generationMw : ℚ
  publishTime : Instant
  horizonHours : ℚ
  deriving DecidableEq, Repr

structure ForecastResponse where
  data : List ForecastPoint
  count : ℕ
  start : Datetime
  stop : Datetime
  horizonHours : PyFloat
  deriving DecidableEq

structure MetricsResponse where
  errorMetrics : ErrorMetrics
  hourlyErrors : List HourlyError
  reliability : ReliabilityMetrics
  horizonHours : PyFloat
  deriving DecidableEq

/-- A response of one of the endpoints. -/
inductive Response where
  | generation (r : GenerationResponse)
  | forecast (r : ForecastResponse)
  | metrics (r : MetricsResponse)
  deriving DecidableEq

/-- How a request fails: with an `HTTPException`, or with the `TypeError` of a comparison of a naive
with an aware datetime, which no handler catches. -/
inductive Failure where
  | httpException (statusCode : ℕ) (detail : String)
  | typeError
  deriving DecidableEq, Repr

/-! ## Computing a response -/

/-- The query of `/generation`: the actuals of the window, in time order. -/
def generationQuery (conn : Conn) (start stop : Datetime) : List GenerationPoint :=
  orderBy GenerationPoint.timestamp
    ((conn.db.actualGeneration.rows.filter fun a =>
        conn.bind start ≤ a.startTime ∧ a.startTime ≤ conn.bind stop).map fun a =>
      { timestamp := a.startTime, generationMw := a.generationMw })

/-- The response of `/generation`. -/
def generationResponse (conn : Conn) (start stop : Datetime) : GenerationResponse :=
  let data := generationQuery conn start stop
  { data := data, count := data.length, start := start, stop := stop }

/-- The response of `/forecast` for the rows of the query. -/
def forecastResponseOf (start stop : Datetime) (horizon : Horizon) (rows : List HorizonForecast) :
    ForecastResponse :=
  let data := rows.map fun row =>
    { timestamp := row.timestamp
      generationMw := row.generationMw
      publishTime := row.publishTime
      horizonHours := roundTo 2 row.horizonHours : ForecastPoint }
  { data := data, count := data.length, start := start, stop := stop, horizonHours := horizon.1 }

/-- The response of `/forecast`, for a horizon that DuckDB reads as it is. -/
def forecastResponse (conn : Conn) (start stop : Datetime) (horizon : Horizon) :
    ForecastResponse :=
  forecastResponseOf start stop horizon (getHorizonForecast conn start stop horizon.value)

/-- The response of `/metrics`, for a horizon that DuckDB reads as it is. -/
def metricsResponse (conn : Conn) (start stop : Datetime) (horizon : Horizon) : MetricsResponse :=
  let errors := getForecastErrors conn start stop horizon.value
  { errorMetrics := computeErrorMetrics errors
    hourlyErrors := computeHourlyErrors errors
    reliability := getReliabilityMetrics conn start stop
    horizonHours := horizon.1 }

/-- The response a request has over a connection. -/
def Request.compute (conn : Conn) : Request → Response
  | .generation start stop => .generation (generationResponse conn start stop)
  | .forecast start stop horizon => .forecast (forecastResponse conn start stop horizon)
  | .metrics start stop horizon => .metrics (metricsResponse conn start stop horizon)

/-! ## Handling a request -/

/-- `start >= end`: naive datetimes compare by their clock readings, aware ones as instants, and a
naive with an aware one not at all. -/
def Datetime.ge (start stop : Datetime) : Option Bool :=
  match start.utcoffset, stop.utcoffset with
  | none, none => some (stop.wallClock ≤ start.wallClock)
  | some _, some _ => some (stop.instantIn 0 ≤ start.instantIn 0)
  | _, _ => none

/-- What stays fixed while a server process runs: the MD5 function, and the session time zone of the
connections it opens. -/
structure App where
  hexdigest : String → String
  timeZone : ℤ

/-- What a request meets: the database file, if there is one; whether connecting to it or querying
it raises; and the clock, at the cache lookup and at the cache store. -/
structure Env where
  file : Option Database
  connectRaises : Bool
  queryRaises : Bool
  lookupTime : ℚ
  storeTime : ℚ

/-- The state of the server: the global cache and the global connection. -/
structure Server where
  cache : LRUCache Response
  connection : Option Conn

/-- A process that has not connected yet: `cache = LRUCache(max_size=2000, default_ttl=300)`. -/
def Server.init : Server := ⟨.new 2000 300, none⟩

/-- The exceptions of `get_db`. -/
inductive DbError where
  | fileNotFound
  | duckdb
  deriving DecidableEq, Repr

/-- `get_db`: the global connection, opened on first use. -/
def getDb (app : App) (env : Env) : Option Conn → Except DbError Conn
  | some conn => .ok conn
  -- the file is looked at only while there is no connection
  | none =>
    match env.file with
    | none => .error .fileNotFound
    | some db => if env.connectRaises then .error .duckdb else .ok ⟨db, app.timeZone⟩

/-- 400, the window is empty. -/
def badWindow : Failure := .httpException 400 "start must be before end"

/-- 503, there is no database. -/
def unavailable : Failure :=
  .httpException 503 "Database not available. Run data ingestion first."

/-- 500, anything else that raises. -/
def internalError : Failure := .httpException 500 "Internal server error"

/-- How a handler answers an exception of `get_db`. -/
def DbError.failure : DbError → Failure
  | .fileNotFound => unavailable
  | .duckdb => internalError

/-- The part of a handler inside its `try`: obtain the connection, compute the response, store it
under `key` for 600 seconds. -/
def computeAndStore (app : App) (env : Env) (srv : Server) (key : String)
    (compute : Conn → Response) : Except Failure Response × Server :=
  match getDb app env srv.connection with
  | .error e => (.error e.failure, srv)
  | .ok conn =>
    -- the connection stays open also when the query raises
    let srv := { srv with connection := some conn }
    if env.queryRaises then (.error internalError, srv)
    else
      let response := compute conn
      match srv.cache.set env.storeTime key response (some 600) with
      | .error _ => (.error internalError, srv)
      | .ok cache => (.ok response, { srv with cache := cache })

/-- The common shape of the three handlers. -/
def serve (app : App) (env : Env) (srv : Server) (start stop : Datetime) (pre : String)
    (cacheParams : List (String × ParamValue)) (compute : Conn → Response) :
    Except Failure Response × Server :=
  match start.ge stop with
  -- the comparison stands outside the `try` of the handler
  | none => (.error .typeError, srv)
  | some true => (.error badWindow, srv)
  | some false =>
    let key := makeKey app.hexdigest pre cacheParams
    let (cached, cache) := srv.cache.get env.lookupTime key
    let srv := { srv with cache := cache }
    match cached with
    | some response => (.ok response, srv)
    | none => computeAndStore app env srv key compute

/-- `GET /api/v1/generation`. -/
def getGeneration (app : App) (env : Env) (srv : Server) (start stop : Datetime) :
    Except Failure Response × Server :=
  serve app env srv start stop "generation" [("start", .str start.str), ("end", .str stop.str)]
    fun conn => .generation (generationResponse conn start stop)

/-- `GET /api/v1/forecast`. -/
def getForecast (app : App) (env : Env) (srv : Server) (start stop : Datetime) (horizon : Horizon) :
    Except Failure Response × Server :=
  serve app env srv start stop "forecast"
    [("start", .str start.str), ("end", .str stop.str), ("horizon", .num horizon.1)]
    fun conn => .forecast (forecastResponse conn start stop horizon)

/-- `GET /api/v1/metrics`. -/
def getMetrics (app : App) (env : Env) (srv : Server) (start stop : Datetime) (horizon : Horizon) :
    Except Failure Response × Server :=
  serve app env srv start stop "metrics"
    [("start", .str start.str), ("end", .str stop.str), ("horizon", .num horizon.1)]
    fun conn => .metrics (metricsResponse conn start stop horizon)

/-- One request: the router picks the handler of its endpoint. -/
def handle (app : App) (env : Env) (srv : Server) : Request → Except Failure Response × Server
  | .generation start stop => getGeneration app env srv start stop
  | .forecast start stop horizon => getForecast app env srv start stop horizon
  | .metrics start stop horizon => getMetrics app env srv start stop horizon

/-! ### What a request does -/

/-- The cache prefix of the endpoint of a request. -/
def Request.pre : Request → String
  | .generation .. => "generation"
  | .forecast .. => "forecast"
  | .metrics .. => "metrics"

/-- The cache parameters of a request. -/
def Request.cacheParams : Request → List (String × ParamValue)
  | .generation start stop => [("start", .str start.str), ("end", .str stop.str)]
  | .forecast start stop horizon | .metrics start stop horizon =>
    [("start", .str start.str), ("end", .str stop.str), ("horizon", .num horizon.1)]

/-- Every handler is `serve` at the prefix, parameters and computation of its request. -/
theorem handle_eq (app : App) (env : Env) (srv : Server) (req : Request) :
    handle app env srv req
      = serve app env srv req.start req.stop req.pre req.cacheParams req.compute := by
  cases req <;> rfl

/-! ### A server without a cache -/

/-- One request to a server that caches nothing: its outcome, and the global connection after it. -/
def handleUncached (app : App) (env : Env) (connection : Option Conn) (req : Request) :
    Except Failure Response × Option Conn :=
  match req.start.ge req.stop with
  | none => (.error .typeError, connection)
  | some true => (.error badWindow, connection)
  | some false =>
    match getDb app env connection with
    | .error e => (.error e.failure, connection)
    | .ok conn =>
      (if env.queryRaises then .error internalError else .ok (req.compute conn), some conn)

/-- The outcome of a request when nothing is cached. -/
def answer (app : App) (env : Env) (connection : Option Conn) (req : Request) :
    Except Failure Response :=
  (handleUncached app env connection req).1

/-- The part of a handler inside its `try` does what the server without a cache does, and stores the
response, if there is one, under the key. -/
theorem computeAndStore_cases (app : App) (env : Env) (srv : Server)
    (hmax : 1 ≤ srv.cache.maxSize) (key : String) {req : Request}
    (hge : req.start.ge req.stop = some false) :
    ∃ cache, computeAndStore app env srv key req.compute =
        ((handleUncached app env srv.connection req).1,
          ⟨cache, (handleUncached app env srv.connection req).2⟩) ∧
      (cache = srv.cache ∨ ∃ conn, getDb app env srv.connection = .ok conn ∧
        srv.cache.set env.storeTime key (req.compute conn) (some 600) = .ok cache) := by
  rw [computeAndStore, handleUncached, hge]
  cases hdb : getDb app env srv.connection with
  | error e => exact ⟨srv.cache, rfl, Or.inl rfl⟩
  | ok conn =>
    by_cases hraise : env.queryRaises
    · exact ⟨srv.cache, by simp [hraise], Or.inl rfl⟩
    · obtain ⟨d, hset, -⟩ :=
        LRUCache.set_cases hmax env.storeTime key (req.compute conn) (some 600)
      exact ⟨_, by simp [hraise, hset], Or.inr ⟨conn, rfl, hset⟩⟩

end WindSight
