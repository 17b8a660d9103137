import WindSight.Backend.CacheTransparency

/-! # Lifespan of the API process

The application around the handlers: the startup and the shutdown of its lifespan, `/health` and
`/api/v1/cache/stats`. A process may go through several lifespans, and the database file may be
another one at every event. Its abstract model keeps one thing, the snapshot a lifespan is served
from: the contents of the file at the first event that connects (`snapshotStep`). Every answer of
the process is read off that snapshot (`appStep_servesSnapshot`). -/

namespace WindSight

/-! ## Startup, health and shutdown -/

/-- `HealthResponse`, with its defaults. -/
structure HealthResponse where
  status : String := "ok"
  database : String := "connected"
  actualRecords : ℕ := 0
  forecastRecords : ℕ := 0
  deriving DecidableEq, Repr

/-- What `/health` answers when anything raises. -/
def HealthResponse.degraded : HealthResponse := { status := "degraded", database := "disconnected" }

/-- What `/health` answers over a connection: `SELECT COUNT(*)` of both tables. -/
def HealthResponse.ofConn (conn : Conn) : HealthResponse where
  actualRecords := conn.db.actualGeneration.rows.length
  forecastRecords := conn.db.windForecast.rows.length

/-- `health_check`. -/
def healthCheck (app : App) (env : Env) (srv : Server) : HealthResponse × Server :=
  match getDb app env srv.connection with
  | .error _ => (.degraded, srv)
  | .ok conn =>
    -- the connection stays open also when a count raises
    let srv := { srv with connection := some conn }
    (if env.queryRaises then .degraded else .ofConn conn, srv)

/-- `lifespan` before its `yield`: connect and count. The counts and exceptions are only logged. -/
def startup (app : App) (env : Env) (srv : Server) : Server :=
  match getDb app env srv.connection with
  | .error _ => srv
  | .ok conn => { srv with connection := some conn }

/-- `close_db`. -/
def closeDb (srv : Server) : Server := { srv with connection := none }

/-- `lifespan` after its `yield`: `close_db()`, then `cache.invalidate()`. -/
def shutdown (srv : Server) : Server :=
  let srv := closeDb srv
  { srv with cache := (srv.cache.invalidate none).2 }

/-- What can happen to the process. -/
inductive AppEvent where
  | startup (env : Env)
  | request (env : Env) (req : Request)
  | health (env : Env)
  | cacheStats
  | shutdown

/-- What an event answers. -/
inductive AppOutput where
  | done
  | response (outcome : Except Failure Response)
  | health (response : HealthResponse)
  | stats (stats : CacheStats)

/-- One event of the process. -/
def appStep (app : App) (srv : Server) : AppEvent → AppOutput × Server
  | .startup env => (.done, startup app env srv)
  | .request env req =>
    let (outcome, srv) := handle app env srv req
    (.response outcome, srv)
  | .health env =>
    let (response, srv) := healthCheck app env srv
    (.health response, srv)
  | .cacheStats => (.stats srv.cache.stats, srv)
  | .shutdown => (.done, shutdown srv)

/-! ## The snapshot of a lifespan -/

/-- The contents that connecting finds, if it succeeds. -/
def Env.reachable (env : Env) : Option Database := if env.connectRaises then none else env.file

/-- The environment in which an event asks for the connection. A request with an empty window does
not get that far. -/
def AppEvent.asksIn : AppEvent → Option Env
  | .startup env | .health env => some env
  | .request env req => if req.start.ge req.stop = some false then some env else none
  | .cacheStats | .shutdown => none

/-- The abstract process: the contents of the file at the first successful connection since the last
shutdown. -/
def snapshotStep (snapshot : Option Database) : AppEvent → Option Database
  | .shutdown => none
  | event => snapshot.or (event.asksIn.bind Env.reachable)

/-- The snapshot after a run. -/
def snapshotAfter (trace : List AppEvent) : Option Database := trace.foldl snapshotStep none

/-- What a request is answered from a snapshot, when nothing is cached. -/
def answerFrom (app : App) (env : Env) (snapshot : Option Database) (req : Request) :
    Except Failure Response :=
  match req.start.ge req.stop with
  | none => .error .typeError
  | some true => .error badWindow
  | some false =>
    match snapshot with
    | none => .error (if env.file.isNone then unavailable else internalError)
    | some db =>
      if env.queryRaises then .error internalError else .ok (req.compute ⟨db, app.timeZone⟩)

/-- What `/health` answers from a snapshot. -/
def healthFrom (app : App) (env : Env) : Option Database → HealthResponse
  | none => .degraded
  | some db => if env.queryRaises then .degraded else .ofConn ⟨db, app.timeZone⟩

/-- An event is answered from a snapshot. A request may also be answered with its response over the
snapshot although a query would raise: then its response is cached. -/
def ServesSnapshot (app : App) (snapshot : Option Database) : AppEvent → AppOutput → Prop
  | .request env req, .response outcome =>
    outcome = answerFrom app env snapshot req ∨
      ∃ db, snapshot = some db ∧ req.start.ge req.stop = some false ∧
        outcome = .ok (req.compute ⟨db, app.timeZone⟩)
  | .health env, .health response => response = healthFrom app env snapshot
  | .startup _, .done | .shutdown, .done | .cacheStats, .stats _ => True
  | _, _ => False

/-! ## The invariant of a lifespan -/

/-- The connection of a lifespan served from a snapshot. -/
def connOf (app : App) (snapshot : Option Database) : Option Conn :=
  snapshot.map fun db => ⟨db, app.timeZone⟩

/-- The connection is the one to the snapshot, and every entry of the cache is the response of its
request over the snapshot. Without a snapshot there are no entries. -/
def LifeSound (app : App) (reqs : Set Request) (snapshot : Option Database) (srv : Server) : Prop :=
  ∀ db, snapshot = none ∨ snapshot = some db →
    CacheSound app ⟨db, app.timeZone⟩ reqs srv (connOf app snapshot)

/-- A cache that holds nothing before there is a connection is sound for every connection. -/
theorem CacheSound.of_unconnected {app : App} {conn : Conn} {reqs : Set Request} {srv : Server}
    (h : CacheSound app conn reqs srv none) (conn' : Conn) (connection : Option Conn)
    (hconn : connection = none ∨ connection = some conn') :
    CacheSound app conn' reqs { srv with connection := connection } connection where
  maxSize_pos := h.maxSize_pos
  same_connection := rfl
  connected := hconn
  entries := by
    intro k v hget
    exact absurd (h.entries k v hget).1 (by simp)

section Step

variable {app : App} {reqs : Set Request} {snapshot : Option Database} {srv : Server}

/-- `get_db` connects to the snapshot, or to what it can reach if there is none. -/
theorem getDb_connOf (app : App) (env : Env) (snapshot : Option Database) :
    getDb app env (connOf app snapshot) =
      match snapshot.or env.reachable with
      | some db => .ok ⟨db, app.timeZone⟩
      | none => .error (if env.file.isNone then .fileNotFound else .duckdb) := by
  cases snapshot with
  | some db => rfl
  | none =>
    show getDb app env none = _
    rw [getDb, Env.reachable]
    cases env.file <;> cases env.connectRaises <;> rfl

namespace LifeSound

/-- The process before its first event. -/
theorem init (app : App) (reqs : Set Request) : LifeSound app reqs none Server.init :=
  fun _ _ => CacheSound.init app reqs (Or.inl rfl)

/-- The invariant fixes the connection. -/
theorem connection_eq (h : LifeSound app reqs snapshot srv) :
    srv.connection = connOf app snapshot := by
  cases snapshot with
  | none => exact (h .empty (Or.inl rfl)).same_connection
  | some db => exact (h db (Or.inr rfl)).same_connection

/-- Connecting, if it succeeds, makes the contents of the file the snapshot. -/
theorem connect (h : LifeSound app reqs snapshot srv) (env : Env) :
    LifeSound app reqs (snapshot.or env.reachable)
      { srv with connection := connOf app (snapshot.or env.reachable) } := by
  intro db hdb
  cases snapshot with
  | some db' =>
    obtain rfl : db' = db := by simpa using hdb
    have hsound := h db' (Or.inr rfl)
    exact ⟨hsound.maxSize_pos, rfl, hsound.connected, hsound.entries⟩
  | none =>
    refine (h db (Or.inl rfl)).of_unconnected ⟨db, app.timeZone⟩ _ ?_
    rcases hdb with hdb | hdb <;> rw [hdb]
    · exact Or.inl rfl
    · exact Or.inr rfl

/-- A shutdown forgets the snapshot, and every response computed from it. -/
theorem shutdown (h : LifeSound app reqs snapshot srv) :
    LifeSound app reqs none (shutdown srv) := by
  intro db _
  have hmax : 1 ≤ srv.cache.maxSize := by
    cases snapshot with
    | none => exact (h db (Or.inl rfl)).maxSize_pos
    | some db' => exact (h db' (Or.inr rfl)).maxSize_pos
  refine ⟨hmax, rfl, Or.inl rfl, ?_⟩
  intro k v hget
  exact absurd (OrderedDict.mem_keys.mpr ⟨v, hget⟩) List.not_mem_nil

end LifeSound

/-- What a startup leaves. -/
theorem startup_eq (h : srv.connection = connOf app snapshot) (env : Env) :
    startup app env srv = { srv with connection := connOf app (snapshot.or env.reachable) } := by
  rw [startup, h, getDb_connOf]
  cases hor : snapshot.or env.reachable with
  | some db => rfl
  | none =>
    obtain ⟨rfl, -⟩ := Option.or_eq_none_iff.mp hor
    exact congrArg (Server.mk srv.cache) h

/-- What `/health` answers and leaves. -/
theorem healthCheck_eq (h : srv.connection = connOf app snapshot) (env : Env) :
    healthCheck app env srv =
      (healthFrom app env (snapshot.or env.reachable),
        { srv with connection := connOf app (snapshot.or env.reachable) }) := by
  rw [healthCheck, h, getDb_connOf]
  cases hor : snapshot.or env.reachable with
  | some db => rfl
  | none =>
    obtain ⟨rfl, -⟩ := Option.or_eq_none_iff.mp hor
    exact congrArg (Prod.mk _) (congrArg (Server.mk srv.cache) h)

/-- A request asks for the connection if its window is not empty. -/
theorem snapshotStep_request (snapshot : Option Database) (env : Env) (req : Request) :
    snapshotStep snapshot (.request env req) =
      if req.start.ge req.stop = some false then snapshot.or env.reachable else snapshot := by
  show snapshot.or (Option.bind (if _ then some env else none) _) = _
  split
  · rfl
  · exact Option.or_none

/-- The server without a cache is the abstract process. -/
theorem handleUncached_connOf (app : App) (env : Env) (snapshot : Option Database)
    (req : Request) :
    handleUncached app env (connOf app snapshot) req =
      (answerFrom app env (snapshotStep snapshot (.request env req)) req,
        connOf app (snapshotStep snapshot (.request env req))) := by
  rw [snapshotStep_request, handleUncached]
  unfold answerFrom
  rcases req.start.ge req.stop with _ | _ | _
  · rfl
  · simp only [if_true]
    rw [getDb_connOf]
    cases hor : snapshot.or env.reachable with
    | some db => rfl
    | none =>
      obtain ⟨rfl, -⟩ := Option.or_eq_none_iff.mp hor
      cases env.file <;> rfl
  · rfl

/-- A request without a window fails, and leaves the server alone. -/
theorem handle_rejected (app : App) (env : Env) (srv : Server) {req : Request}
    (hge : req.start.ge req.stop ≠ some false) :
    ∃ failure, handle app env srv req = (.error failure, srv) := by
  obtain ⟨failure, hserver, -⟩ := handle_of_rejected srv none hge
  exact ⟨failure, hserver⟩

/-- Once connected, a request does not look at the file. -/
theorem handle_of_connected {conn : Conn} (h : srv.connection = some conn) (env : Env)
    (file : Option Database) (req : Request) :
    handle app { env with file := file } srv req = handle app env srv req := by
  simp only [handle_eq, serve, computeAndStore, h, getDb]

/-- A request that finds nothing in the cache is answered as if there were none. -/
theorem handle_of_miss (hmax : 1 ≤ srv.cache.maxSize) {env : Env} {req : Request}
    (hmiss : (srv.cache.get env.lookupTime (req.key app.hexdigest)).1 = none) :
    (handle app env srv req).1 = (handleUncached app env srv.connection req).1 := by
  by_cases hge : req.start.ge req.stop = some false
  · have hmax' : 1 ≤ (srv.cache.get env.lookupTime (req.key app.hexdigest)).2.maxSize :=
      (LRUCache.maxSize_get ..).symm ▸ hmax
    obtain ⟨cache, hstep, -⟩ := computeAndStore_cases app env
      ⟨(srv.cache.get env.lookupTime (req.key app.hexdigest)).2, srv.connection⟩ hmax'
      (req.key app.hexdigest) hge
    rw [handle_of_window hge]
    simp only [hmiss, hstep]
  · obtain ⟨failure, hserver, huncached⟩ := handle_of_rejected srv srv.connection hge
    rw [hserver, huncached]

/-- A request of a connected process is answered from the snapshot, and keeps the invariant. -/
theorem LifeSound.request_connected {db : Database} (h : LifeSound app reqs (some db) srv)
    (hhash : NoCollision app.hexdigest reqs) {req : Request} (hreq : req ∈ reqs) (env : Env) :
    ServesSnapshot app (some db) (.request env req) (.response (handle app env srv req).1) ∧
      LifeSound app reqs (some db) (handle app env srv req).2 := by
  have hsound := h db (Or.inr rfl)
  -- the file is not looked at any more, so it may as well be absent
  rw [← handle_of_connected hsound.same_connection env none req]
  obtain ⟨⟨hok, herror⟩, hnext⟩ :=
    serverStep_transparent (x := ({ env with file := none }, req)) rfl hhash hreq (Or.inl rfl)
      hsound
  have hsame : uncachedStep app (connOf app (some db)) ({ env with file := none }, req) =
      (answerFrom app env (some db) req, connOf app (some db)) :=
    handleUncached_connOf app env (some db) req
  rw [hsame] at herror hnext
  refine ⟨?_, ?_⟩
  · show _ ∨ _
    cases hout : (handle app { env with file := none } srv req).1 with
    | ok response =>
      have hge : req.start.ge req.stop = some false := by
        by_contra hge
        obtain ⟨failure, hserver⟩ := handle_rejected app { env with file := none } srv hge
        rw [hserver] at hout
        cases hout
      exact Or.inr ⟨db, rfl, hge, congrArg _ (hok response hout)⟩
    | error failure => exact Or.inl (herror failure hout).symm
  · intro db' hdb'
    obtain rfl : db = db' := by simpa using hdb'
    exact hnext

/-- Before the first connection nothing is cached. -/
theorem LifeSound.lookup_unconnected (h : LifeSound app reqs none srv) (now : ℚ) (key : String) :
    (srv.cache.get now key).1 = none := by
  have hsound := h .empty (Or.inl rfl)
  cases hget : (srv.cache.get now key).1 with
  | none => rfl
  | some value =>
    obtain ⟨expiry, hentry, -⟩ := LRUCache.entry_of_get hget
    exact absurd (hsound.entries _ _ hentry).1 (by simp [connOf])

/-- A request of a process that is not connected is answered from the file, if it connects, and
keeps the invariant. -/
theorem LifeSound.request_unconnected (h : LifeSound app reqs none srv)
    (hhash : NoCollision app.hexdigest reqs) {req : Request} (hreq : req ∈ reqs) (env : Env) :
    ServesSnapshot app (snapshotStep none (.request env req)) (.request env req)
        (.response (handle app env srv req).1) ∧
      LifeSound app reqs (snapshotStep none (.request env req)) (handle app env srv req).2 := by
  have huncached := handleUncached_connOf app env none req
  have hsound := h (env.file.getD .empty) (Or.inl rfl)
  have hfile : env.file = none ∨ env.file = some (env.file.getD .empty) := by
    cases env.file <;> simp
  obtain ⟨-, hnext⟩ := serverStep_transparent (x := (env, req)) rfl hhash hreq hfile hsound
  refine ⟨Or.inl ?_, ?_⟩
  · have hmiss := h.lookup_unconnected env.lookupTime (req.key app.hexdigest)
    rw [handle_of_miss hsound.maxSize_pos hmiss, h.connection_eq, huncached]
  · intro db hdb
    rw [uncachedStep, huncached] at hnext
    have hconn := hnext.same_connection
    rcases hdb with hdb | hdb <;> rw [hdb] at hnext hconn ⊢
    · -- the request did not connect
      have hserver : (handle app env srv req).2 = ⟨(handle app env srv req).2.cache, none⟩ :=
        congrArg (Server.mk _) hconn
      rw [hserver]
      exact hnext.of_unconnected ⟨db, app.timeZone⟩ none (Or.inl rfl)
    · have hreach : env.reachable = some db := by
        rw [snapshotStep_request] at hdb
        split at hdb
        · exact hdb
        · cases hdb
      have hdb' : env.file = some db := by
        rw [Env.reachable] at hreach
        split at hreach
        · cases hreach
        · exact hreach
      rw [hdb'] at hnext
      exact hnext

/-- A request is answered from the snapshot it leaves, and keeps the invariant. -/
theorem LifeSound.request (h : LifeSound app reqs snapshot srv)
    (hhash : NoCollision app.hexdigest reqs) {req : Request} (hreq : req ∈ reqs) (env : Env) :
    ServesSnapshot app (snapshotStep snapshot (.request env req)) (.request env req)
        (.response (handle app env srv req).1) ∧
      LifeSound app reqs (snapshotStep snapshot (.request env req)) (handle app env srv req).2 := by
  cases snapshot with
  | some db => exact h.request_connected hhash hreq env
  | none => exact h.request_unconnected hhash hreq env

/-- The requests of a run. -/
def requestsOf (trace : List AppEvent) : Set Request := {req | ∃ env, .request env req ∈ trace}

/-- One event is answered from the snapshot it leaves, and keeps the invariant. -/
theorem LifeSound.step (h : LifeSound app reqs snapshot srv)
    (hhash : NoCollision app.hexdigest reqs) {event : AppEvent}
    (hreq : ∀ env req, event = .request env req → req ∈ reqs) :
    ServesSnapshot app (snapshotStep snapshot event) event (appStep app srv event).1 ∧
      LifeSound app reqs (snapshotStep snapshot event) (appStep app srv event).2 := by
  cases event with
  | startup env =>
    refine ⟨trivial, ?_⟩
    show LifeSound app reqs (snapshot.or env.reachable) (startup app env srv)
    rw [startup_eq h.connection_eq]
    exact h.connect env
  | request env req => exact h.request hhash (hreq env req rfl) env
  | health env =>
    have heq := healthCheck_eq h.connection_eq env
    refine ⟨congrArg Prod.fst heq, ?_⟩
    show LifeSound app reqs (snapshot.or env.reachable) (healthCheck app env srv).2
    rw [heq]
    exact h.connect env
  | cacheStats =>
    refine ⟨trivial, ?_⟩
    show LifeSound app reqs (snapshot.or none) srv
    rwa [Option.or_none]
  | shutdown => exact ⟨trivial, h.shutdown⟩

end Step

/-- A success without the cache has a window, and is computed from the snapshot. -/
theorem answerFrom_eq_ok {app : App} {env : Env} {snapshot : Option Database} {req : Request}
    {response : Response} (h : answerFrom app env snapshot req = .ok response) :
    req.start.ge req.stop = some false ∧
      ∃ db, snapshot = some db ∧ response = req.compute ⟨db, app.timeZone⟩ := by
  unfold answerFrom at h
  split at h
  · cases h
  · cases h
  · next hge =>
    cases snapshot with
    | none => cases h
    | some db =>
      cases hraise : env.queryRaises with
      | true => simp [hraise] at h
      | false =>
        simp only [hraise, Bool.false_eq_true, if_false] at h
        exact ⟨hge, db, rfl, (Except.ok.inj h).symm⟩

/-- A request answered with success has a window, and is computed from a snapshot. -/
theorem ServesSnapshot.of_ok {app : App} {env : Env} {snapshot : Option Database} {req : Request}
    {response : Response}
    (h : ServesSnapshot app snapshot (.request env req) (.response (.ok response))) :
    req.start.ge req.stop = some false ∧
      ∃ db, snapshot = some db ∧ response = req.compute ⟨db, app.timeZone⟩ := by
  rcases h with h | ⟨db, hdb, hge, h⟩
  · exact answerFrom_eq_ok h.symm
  · exact ⟨hge, db, hdb, Except.ok.inj h⟩

/-! ## Runs of the process -/

/-- The invariant holds after every run. -/
theorem lifeSound_finalState (app : App) {reqs : Set Request}
    (hhash : NoCollision app.hexdigest reqs) (trace : List AppEvent)
    (hreqs : requestsOf trace ⊆ reqs) :
    LifeSound app reqs (snapshotAfter trace)
      (Machine.finalState (appStep app) Server.init trace) := by
  induction trace using List.reverseRecOn with
  | nil => exact LifeSound.init app reqs
  | append_singleton trace event ih =>
    have hpre : requestsOf trace ⊆ reqs := by
      rintro req ⟨env, hmem⟩
      exact hreqs ⟨env, List.mem_append_left _ hmem⟩
    rw [Machine.finalState_append, snapshotAfter, List.foldl_append]
    refine ((ih hpre).step hhash ?_).2
    rintro env req rfl
    exact hreqs ⟨env, List.mem_append_right _ List.mem_cons_self⟩

/-- After a run whose requests are among those the digest tells apart, the next of them is answered
from the snapshot. -/
theorem LifeSound.next {app : App} {reqs : Set Request} (hhash : NoCollision app.hexdigest reqs)
    {trace : List AppEvent} {event : AppEvent} (hreqs : requestsOf (trace ++ [event]) ⊆ reqs) :
    ServesSnapshot app (snapshotAfter (trace ++ [event])) event
      (appStep app (Machine.finalState (appStep app) Server.init trace) event).1 := by
  have hpre : requestsOf trace ⊆ reqs := by
    rintro req ⟨env, hmem⟩
    exact hreqs ⟨env, List.mem_append_left _ hmem⟩
  rw [snapshotAfter, List.foldl_append]
  refine ((lifeSound_finalState app hhash trace hpre).step hhash ?_).1
  rintro env req rfl
  exact hreqs ⟨env, List.mem_append_right _ List.mem_cons_self⟩

/-- **One snapshot for each lifespan.** Take any run of the process through startups, requests,
health checks and shutdowns, in any order, with another database file, other exceptions and another
clock at every event. The next event is answered from the contents that the file had at the first
successful connection since the last shutdown: a request with what the server without a cache
answers on that snapshot, or from the cache with its own response over it, and `/health` with the
numbers of its rows. So nothing cached before a shutdown and no later change of the file is ever
seen. -/
theorem appStep_servesSnapshot (app : App) (trace : List AppEvent) (event : AppEvent)
    (hhash : NoCollision app.hexdigest (requestsOf (trace ++ [event]))) :
    ServesSnapshot app (snapshotAfter (trace ++ [event])) event
      (appStep app (Machine.finalState (appStep app) Server.init trace) event).1 :=
  LifeSound.next hhash subset_rfl

/-! ### A restart -/

/-- A database with one actual. -/
def oneActual : Database :=
  { Database.empty with
    actualGeneration := KeyedTable.empty.upsert ⟨midnight 19723, 19723, 1, 100, "WIND"⟩ }

/-- A start without a database, a request once there is one, and a shutdown. -/
def restartTrace : List AppEvent :=
  [.startup ⟨none, false, false, 0, 0⟩,
    .request ⟨some .empty, false, false, 1, 1⟩ (.generation exampleStart exampleStop),
    .shutdown]

/-- The request of the trace once more, in the next lifespan, with another file. -/
def restartRequest : AppEvent :=
  .request ⟨some oneActual, false, false, 2, 2⟩ (.generation exampleStart exampleStop)

/-- After the restart the request is answered from the new file. -/
theorem appStep_servesSnapshot_restart :
    snapshotAfter (restartTrace ++ [restartRequest]) = some oneActual ∧
      ServesSnapshot ⟨exampleDigest, 0⟩ (snapshotAfter (restartTrace ++ [restartRequest]))
        restartRequest (appStep ⟨exampleDigest, 0⟩
          (Machine.finalState (appStep ⟨exampleDigest, 0⟩) Server.init restartTrace)
          restartRequest).1 := by
  refine ⟨rfl, appStep_servesSnapshot ⟨exampleDigest, 0⟩ restartTrace restartRequest ?_⟩
  have hall : ∀ req ∈ requestsOf (restartTrace ++ [restartRequest]),
      req = .generation exampleStart exampleStop := by
    rintro req ⟨env, hmem⟩
    simp only [restartTrace, restartRequest, List.cons_append, List.nil_append, List.mem_cons,
      reduceCtorEq, AppEvent.request.injEq, List.not_mem_nil, false_or, or_false] at hmem
    rcases hmem with ⟨-, rfl⟩ | ⟨-, rfl⟩ <;> rfl
  intro req hreq req' hreq' _
  rw [hall req hreq, hall req' hreq']

end WindSight
