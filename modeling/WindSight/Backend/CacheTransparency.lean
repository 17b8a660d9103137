import WindSight.Backend.CacheKey
import WindSight.Library.Machine

/-! # The cache is transparent

The server is compared with one that has no cache, over runs of requests in which the database file
is absent or has fixed contents. The invariant, `CacheSound`, is that every entry of the cache holds
the response of the request whose key it is stored under, and that there are entries only once the
connection is open. It makes a hit answer with the response of its own request; everything else a
handler does is what the server without a cache does. -/

namespace WindSight

open NumberText

/-- One request to the server. -/
def serverStep (app : App) (srv : Server) (x : Env × Request) : Except Failure Response × Server :=
  handle app x.1 srv x.2

/-- One request to the server without a cache. -/
def uncachedStep (app : App) (connection : Option Conn) (x : Env × Request) :
    Except Failure Response × Option Conn :=
  handleUncached app x.1 connection x.2

/-- The state of a server whose cache holds only responses over `conn` to requests among `reqs`,
beside the state of the server without a cache. -/
structure CacheSound (app : App) (conn : Conn) (reqs : Set Request) (srv : Server)
    (connection : Option Conn) : Prop where
  maxSize_pos : 1 ≤ srv.cache.maxSize
  same_connection : srv.connection = connection
  connected : connection = none ∨ connection = some conn
  entries : ∀ k v, srv.cache.cache.get? k = some v →
    connection = some conn ∧ ∃ req ∈ reqs, k = req.key app.hexdigest ∧ v.1 = req.compute conn

/-- What a request gets from the server, next to what it gets from the server without a cache: a
success is the response of the request, and a failure is the failure of the other server. -/
def Transparent (conn : Conn) (x : Env × Request) (outcome uncached : Except Failure Response) :
    Prop :=
  (∀ response, outcome = .ok response → response = x.2.compute conn) ∧
    ∀ failure, outcome = .error failure → uncached = .error failure

namespace CacheSound

variable {app : App} {conn : Conn} {reqs : Set Request} {srv : Server} {connection : Option Conn}

/-- Before the first request. -/
theorem init (app : App) (reqs : Set Request) (hconn : connection = none ∨ connection = some conn) :
    CacheSound app conn reqs { Server.init with connection := connection } connection where
  maxSize_pos := (by decide : 1 ≤ 2000)
  same_connection := rfl
  connected := hconn
  entries := by
    intro k v hget
    exact absurd (OrderedDict.mem_keys.mpr ⟨v, hget⟩) List.not_mem_nil

/-- Losing entries, and moving or counting them, keeps the invariant. -/
theorem of_subset (h : CacheSound app conn reqs srv connection) {cache : LRUCache Response}
    (hmax : cache.maxSize = srv.cache.maxSize)
    (hsub : ∀ k v, cache.cache.get? k = some v → srv.cache.cache.get? k = some v) :
    CacheSound app conn reqs { srv with cache := cache } connection where
  maxSize_pos := hmax ▸ h.maxSize_pos
  same_connection := h.same_connection
  connected := h.connected
  entries := fun k v hget => h.entries k v (hsub k v hget)

/-- A lookup keeps the invariant, and a hit yields the response of the request. -/
theorem get (h : CacheSound app conn reqs srv connection) (hhash : NoCollision app.hexdigest reqs)
    {req : Request} (hreq : req ∈ reqs) (now : ℚ) :
    CacheSound app conn reqs { srv with cache := (srv.cache.get now (req.key app.hexdigest)).2 }
        connection ∧
      ∀ response, (srv.cache.get now (req.key app.hexdigest)).1 = some response →
        connection = some conn ∧ response = req.compute conn := by
  refine ⟨h.of_subset (LRUCache.maxSize_get ..) fun k v hk => LRUCache.get?_of_get hk, ?_⟩
  intro response hhit
  obtain ⟨expiry, hentry, -⟩ := LRUCache.entry_of_get hhit
  -- the entry was stored for a request with the same key, which is this one
  obtain ⟨hconn, req', hreq', hkey, hval⟩ := h.entries _ _ hentry
  obtain rfl := key_inj hhash hreq hreq' hkey
  exact ⟨hconn, hval⟩

/-- Storing the response of a request under its key keeps the invariant. -/
theorem set (h : CacheSound app conn reqs srv connection) {req : Request} (hreq : req ∈ reqs)
    {now : ℚ} {ttl : Option ℤ} {cache : LRUCache Response}
    (hset : srv.cache.set now (req.key app.hexdigest) (req.compute conn) ttl = .ok cache) :
    CacheSound app conn reqs ⟨cache, some conn⟩ (some conn) := by
  obtain ⟨hsize, hentries⟩ := LRUCache.get?_of_set h.maxSize_pos hset
  refine ⟨hsize ▸ h.maxSize_pos, rfl, Or.inr rfl, fun k v hk => ⟨rfl, ?_⟩⟩
  rcases hentries k v hk with ⟨rfl, rfl⟩ | ⟨-, hold⟩
  · exact ⟨req, hreq, rfl, rfl⟩
  · exact (h.entries k v hold).2

end CacheSound

/-! ## One request -/

variable {app : App} {conn : Conn} {reqs : Set Request} {srv : Server} {connection : Option Conn}

/-- With the file absent or holding the contents of `conn`, the connection obtained is `conn`. -/
theorem getDb_eq {env : Env} (htz : app.timeZone = conn.timeZone)
    (hfile : env.file = none ∨ env.file = some conn.db)
    (hconn : connection = none ∨ connection = some conn) {c : Conn}
    (h : getDb app env connection = .ok c) : c = conn := by
  rcases hconn with rfl | rfl
  · -- a new connection reads the file
    rcases hfile with hf | hf <;> rw [getDb, hf] at h
    · exact absurd h (by simp)
    · cases hraise : env.connectRaises <;> simp [hraise] at h
      rw [← h, htz]
  · exact (Except.ok.inj h).symm

/-- The server without a cache succeeds with the response of the request, and its connection stays
closed or open on the file. -/
theorem handleUncached_spec {env : Env} (htz : app.timeZone = conn.timeZone)
    (hfile : env.file = none ∨ env.file = some conn.db)
    (hconn : connection = none ∨ connection = some conn) (req : Request) :
    (∀ response, (handleUncached app env connection req).1 = .ok response →
      response = req.compute conn) ∧
    ((handleUncached app env connection req).2 = connection ∨
      (handleUncached app env connection req).2 = some conn) := by
  rw [handleUncached]
  rcases req.start.ge req.stop with _ | _ | _
  · exact ⟨fun r hr => by simp at hr, Or.inl rfl⟩
  · cases hdb : getDb app env connection with
    | error e => exact ⟨fun r hr => by simp at hr, Or.inl rfl⟩
    | ok c =>
      obtain rfl := getDb_eq htz hfile hconn hdb
      refine ⟨fun r hr => ?_, Or.inr rfl⟩
      by_cases hraise : env.queryRaises <;> simp [hraise] at hr
      exact hr.symm
  · exact ⟨fun r hr => by simp at hr, Or.inl rfl⟩

/-- A request with an empty window changes nothing on either server. -/
theorem handle_of_rejected (srv : Server) (connection : Option Conn) {env : Env} {req : Request}
    (hge : req.start.ge req.stop ≠ some false) :
    ∃ failure, handle app env srv req = (.error failure, srv) ∧
      handleUncached app env connection req = (.error failure, connection) := by
  rw [handle_eq, serve, handleUncached]
  rcases h : req.start.ge req.stop with _ | _ | _
  · exact ⟨_, rfl, rfl⟩
  · exact absurd h hge
  · exact ⟨_, rfl, rfl⟩

/-- A request with a window is looked up under its key first. -/
theorem handle_of_window {env : Env} {req : Request} (hge : req.start.ge req.stop = some false) :
    handle app env srv req =
      let found := srv.cache.get env.lookupTime (req.key app.hexdigest)
      match found.1 with
      | some response => (.ok response, { srv with cache := found.2 })
      | none =>
        computeAndStore app env { srv with cache := found.2 } (req.key app.hexdigest)
          req.compute := by
  rw [handle_eq, serve, hge]
  rfl

/-- One request is answered transparently and keeps the invariant. -/
theorem serverStep_transparent (htz : app.timeZone = conn.timeZone)
    (hhash : NoCollision app.hexdigest reqs) {x : Env × Request} (hreq : x.2 ∈ reqs)
    (hfile : x.1.file = none ∨ x.1.file = some conn.db)
    (h : CacheSound app conn reqs srv connection) :
    Transparent conn x (serverStep app srv x).1 (uncachedStep app connection x).1 ∧
      CacheSound app conn reqs (serverStep app srv x).2 (uncachedStep app connection x).2 := by
  obtain ⟨env, req⟩ := x
  obtain rfl := h.same_connection
  rw [serverStep, uncachedStep]
  by_cases hge : req.start.ge req.stop = some false
  · obtain ⟨hok, hnext⟩ := handleUncached_spec htz hfile h.connected req
    obtain ⟨hsound, hhit⟩ := h.get hhash hreq env.lookupTime
    rw [handle_of_window hge]
    generalize srv.cache.get env.lookupTime (req.key app.hexdigest) = found at hsound hhit ⊢
    obtain ⟨_ | response, cache⟩ := found
    · -- a miss: the other server's outcome, and perhaps a new entry
      obtain ⟨cache', hstep, hcache⟩ := computeAndStore_cases app env { srv with cache := cache }
        hsound.maxSize_pos (req.key app.hexdigest) hge
      simp only [hstep]
      refine ⟨⟨hok, fun _ hfail => hfail⟩, ?_⟩
      rcases hcache with rfl | ⟨c, hdb, hset⟩
      · rcases hnext with hnext | hnext <;> rw [hnext]
        · exact ⟨hsound.maxSize_pos, rfl, h.connected, hsound.entries⟩
        · exact ⟨hsound.maxSize_pos, rfl, Or.inr rfl,
            fun k v hk => ⟨rfl, (hsound.entries k v hk).2⟩⟩
      · obtain rfl := getDb_eq htz hfile h.connected hdb
        have hconn : (handleUncached app env srv.connection req).2 = some c := by
          rw [handleUncached, hge, hdb]
        rw [hconn]
        exact hsound.set hreq hset
    · -- a hit: the connection is open on both servers and stays so
      obtain ⟨hconn, rfl⟩ := hhit response rfl
      have hnext' : (handleUncached app env srv.connection req).2 = srv.connection := by
        rcases hnext with hnext | hnext
        exacts [hnext, hnext.trans hconn.symm]
      rw [hnext']
      exact ⟨⟨fun r hr => (Except.ok.inj hr).symm, fun f hf => by simp at hf⟩, hsound⟩
  · obtain ⟨failure, hserver, huncached⟩ := handle_of_rejected srv srv.connection hge
    rw [hserver, huncached]
    exact ⟨⟨fun r hr => by simp at hr, fun f hf => hf⟩, h⟩

/-! ## Runs of requests -/

/-- **The cache is transparent.** Take any run of requests from a process with an empty cache, in
which the database file is absent or has the contents `db` (absent at first and then present, for
one), connecting or querying raises or not, and the clock reads anything. If the truncated digest
does not confuse the parameter texts of the run, then every success is the response of its own
request computed from `db`, and every failure is a failure of the same request in the run of the
server without a cache. -/
theorem server_transparent (app : App) (db : Database) (connection : Option Conn)
    (trace : List (Env × Request))
    (hconn : connection = none ∨ connection = some ⟨db, app.timeZone⟩)
    (hfile : ∀ x ∈ trace, x.1.file = none ∨ x.1.file = some db)
    (hhash : NoCollision app.hexdigest {req | ∃ x ∈ trace, x.2 = req}) :
    List.Forall₂ (fun x y => x.1 = y.1 ∧ Transparent ⟨db, app.timeZone⟩ x.1 x.2 y.2)
      (Machine.transcript (serverStep app) { Server.init with connection := connection } trace)
      (Machine.transcript (uncachedStep app) connection trace) :=
  Machine.transcript_forall₂
    (fun _ _ x hx h => serverStep_transparent rfl hhash ⟨x, hx, rfl⟩ (hfile x hx) h)
    (CacheSound.init app _ hconn)

/-! ### A run -/

/-- Midnight of 2024-01-01, in UTC. -/
def exampleStart : Datetime := .ofFields 2024 1 1 0 0 0 0 (some 0) (by decide)

/-- One o'clock of 2024-01-01, in UTC. -/
def exampleStop : Datetime := .ofFields 2024 1 1 1 0 0 0 (some 0) (by decide)

/-- The horizon `4.0`. -/
def exampleHorizon : Horizon :=
  ⟨.ofDigit 4 (by decide), by norm_num [PyFloat.ofDigit, PyFloat.value]⟩

/-- MD5 on the two parameter texts of the run. -/
def exampleDigest (paramStr : String) : String :=
  if paramStr = dumps (Request.generation exampleStart exampleStop).cacheParams then
    "eb3a57a69da252d8ebf470df0ff489c7"
  else "140420dee95c3135220cc1460d53c458"

/-- A request before there is a database, then one to each endpoint. -/
def exampleTrace : List (Env × Request) :=
  [(⟨none, false, false, 0, 0⟩, .generation exampleStart exampleStop),
    (⟨some .empty, false, false, 1, 1⟩, .generation exampleStart exampleStop),
    (⟨some .empty, false, false, 2, 2⟩, .forecast exampleStart exampleStop exampleHorizon),
    (⟨some .empty, false, false, 3, 3⟩, .metrics exampleStart exampleStop exampleHorizon)]

theorem server_transparent_exampleTrace :
    List.Forall₂ (fun x y => x.1 = y.1 ∧ Transparent ⟨.empty, 0⟩ x.1 x.2 y.2)
      (Machine.transcript (serverStep ⟨exampleDigest, 0⟩)
        { Server.init with connection := none } exampleTrace)
      (Machine.transcript (uncachedStep ⟨exampleDigest, 0⟩) none exampleTrace) := by
  refine server_transparent ⟨exampleDigest, 0⟩ .empty none exampleTrace (Or.inl rfl) ?_ ?_
  · intro x hx
    simp only [exampleTrace, List.mem_cons, List.not_mem_nil, or_false] at hx
    rcases hx with rfl | rfl | rfl | rfl
    exacts [Or.inl rfl, Or.inr rfl, Or.inr rfl, Or.inr rfl]
  · rintro _ ⟨x, hx, rfl⟩ _ ⟨y, hy, rfl⟩
    simp only [exampleTrace, List.mem_cons, List.not_mem_nil, or_false] at hx hy
    rcases hx with rfl | rfl | rfl | rfl <;> rcases hy with rfl | rfl | rfl | rfl <;> decide

end WindSight
