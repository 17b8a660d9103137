import WindSight.Backend.CacheTransparency
import WindSight.Backend.Reliability

/-! # How a handler ends

Each handler answers with its own response model or with an `HTTPException`: 400 for an empty
window, 503 without a database file, 500 for everything else that raises in its `try`. The
comparison of `start` with `end` stands before the `try`, and raises a `TypeError` when only one of
them has a UTC offset. These windows are the only ones a handler does not answer
(`documented_iff`). -/

namespace WindSight

/-! ## Documented outcomes -/

/-- The endpoint a response model belongs to, by its cache prefix. -/
def Response.pre : Response → String
  | .generation _ => "generation"
  | .forecast _ => "forecast"
  | .metrics _ => "metrics"

/-- An outcome the API documents: the response model of the endpoint, or an `HTTPException` with
status 400 exactly for a window whose start is not before its end, with status 503 only when the
database file is absent, or with status 500. -/
def Documented (env : Env) (req : Request) : Except Failure Response → Prop
  | .ok response => response.pre = req.pre ∧ req.start.ge req.stop = some false
  | .error (.httpException statusCode _) =>
    (statusCode = 400 ∧ req.start.ge req.stop = some true) ∨
      (statusCode = 503 ∧ env.file = none ∧ req.start.ge req.stop = some false) ∨
      (statusCode = 500 ∧ req.start.ge req.stop = some false)
  | .error .typeError => False

/-- A window can be compared if both ends have a UTC offset or neither has. -/
theorem ge_isSome_iff (start stop : Datetime) :
    (start.ge stop).isSome = true ↔ start.utcoffset.isSome = stop.utcoffset.isSome := by
  unfold Datetime.ge
  cases start.utcoffset <;> cases stop.utcoffset <;> simp

/-- A computed response is of the model of its endpoint. -/
@[simp] theorem Request.pre_compute (conn : Conn) (req : Request) :
    (req.compute conn).pre = req.pre := by
  cases req <;> rfl

/-! ## What the cache holds -/

/-- Every entry of the cache is a response of the endpoint its key belongs to. -/
structure EndpointSound (app : App) (srv : Server) : Prop where
  maxSize_pos : 1 ≤ srv.cache.maxSize
  entries : ∀ k v, srv.cache.cache.get? k = some v →
    ∃ req : Request, k = req.key app.hexdigest ∧ v.1.pre = req.pre

namespace EndpointSound

variable {app : App} {srv : Server}

/-- Before the first request. -/
theorem init (app : App) : EndpointSound app Server.init where
  maxSize_pos := (by decide : 1 ≤ 2000)
  entries := by
    intro k v hget
    exact absurd (OrderedDict.mem_keys.mpr ⟨v, hget⟩) List.not_mem_nil

/-- Losing entries keeps the invariant, whatever the connection. -/
theorem of_subset (h : EndpointSound app srv) {cache : LRUCache Response} {connection : Option Conn}
    (hmax : cache.maxSize = srv.cache.maxSize)
    (hsub : ∀ k v, cache.cache.get? k = some v → srv.cache.cache.get? k = some v) :
    EndpointSound app ⟨cache, connection⟩ where
  maxSize_pos := hmax ▸ h.maxSize_pos
  entries := fun k v hget => h.entries k v (hsub k v hget)

/-- A lookup keeps the invariant, and a hit is a response of the endpoint of the request. -/
theorem get (h : EndpointSound app srv) (req : Request) (now : ℚ) :
    EndpointSound app { srv with cache := (srv.cache.get now (req.key app.hexdigest)).2 } ∧
      ∀ response, (srv.cache.get now (req.key app.hexdigest)).1 = some response →
        response.pre = req.pre := by
  refine ⟨h.of_subset (LRUCache.maxSize_get ..) fun k v hk => LRUCache.get?_of_get hk, ?_⟩
  intro response hhit
  obtain ⟨expiry, hentry, -⟩ := LRUCache.entry_of_get hhit
  -- the key was set by a request to the same endpoint
  obtain ⟨req', hkey, hpre⟩ := h.entries _ _ hentry
  rw [hpre]
  exact (makeKey_inj hkey).1.symm

/-- Storing a response of the endpoint of a request under its key keeps the invariant. -/
theorem set (h : EndpointSound app srv) (req : Request) {response : Response}
    (hpre : response.pre = req.pre) {now : ℚ} {ttl : Option ℤ} {cache : LRUCache Response}
    {connection : Option Conn}
    (hset : srv.cache.set now (req.key app.hexdigest) response ttl = .ok cache) :
    EndpointSound app ⟨cache, connection⟩ := by
  obtain ⟨hsize, hentries⟩ := LRUCache.get?_of_set h.maxSize_pos hset
  refine ⟨hsize ▸ h.maxSize_pos, fun k v hk => ?_⟩
  rcases hentries k v hk with ⟨rfl, rfl⟩ | ⟨-, hold⟩
  · exact ⟨req, rfl, hpre⟩
  · exact h.entries k v hold

end EndpointSound

/-! ## One request -/

section Step

variable {app : App} {srv : Server} {env : Env} {req : Request}

/-- `get_db` misses the file only when it is absent. -/
theorem getDb_fileNotFound {connection : Option Conn}
    (h : getDb app env connection = .error .fileNotFound) : env.file = none := by
  cases connection with
  | some conn => cases h
  | none =>
    cases hfile : env.file with
    | none => rfl
    | some db =>
      rw [getDb, hfile] at h
      cases hraise : env.connectRaises <;> simp [hraise] at h

/-- The `try` of a handler ends in a documented outcome. -/
theorem documented_handleUncached (connection : Option Conn)
    (hge : req.start.ge req.stop = some false) :
    Documented env req (handleUncached app env connection req).1 := by
  rw [handleUncached, hge]
  cases hdb : getDb app env connection with
  | error e =>
    cases e with
    | fileNotFound => exact Or.inr (Or.inl ⟨rfl, getDb_fileNotFound hdb, hge⟩)
    | duckdb => exact Or.inr (Or.inr ⟨rfl, hge⟩)
  | ok conn =>
    by_cases hraise : env.queryRaises
    · simp only [hraise, if_true]
      exact Or.inr (Or.inr ⟨rfl, hge⟩)
    · simp only [hraise]
      exact ⟨req.pre_compute conn, hge⟩

/-- A request keeps the invariant of the cache, and is answered as documented if its window can be
compared. -/
theorem serverStep_documented (h : EndpointSound app srv) (x : Env × Request) :
    EndpointSound app (serverStep app srv x).2 ∧
      ((x.2.start.ge x.2.stop).isSome = true → Documented x.1 x.2 (serverStep app srv x).1) := by
  obtain ⟨env, req⟩ := x
  rw [serverStep]
  dsimp only
  cases hge : req.start.ge req.stop with
  | none =>
    have hrejected : req.start.ge req.stop ≠ some false := by
      rw [hge]
      simp
    obtain ⟨failure, hhandle, -⟩ :
        ∃ failure, handle app env srv req = (.error failure, srv) ∧ _ :=
      handle_of_rejected srv none hrejected
    rw [hhandle]
    exact ⟨h, fun hsome => absurd hsome (by simp)⟩
  | some b =>
    cases b with
    | true =>
      rw [handle_eq, serve, hge]
      exact ⟨h, fun _ => Or.inl ⟨rfl, hge⟩⟩
    | false =>
      obtain ⟨hsound, hhit⟩ := h.get req env.lookupTime
      rw [handle_of_window hge]
      generalize srv.cache.get env.lookupTime (req.key app.hexdigest) = found at hsound hhit ⊢
      obtain ⟨_ | response, cache⟩ := found
      · -- a miss: the outcome of the `try`, and perhaps a new entry
        obtain ⟨cache', hstep, hcache⟩ := computeAndStore_cases app env { srv with cache := cache }
          hsound.maxSize_pos (req.key app.hexdigest) hge
        simp only [hstep]
        refine ⟨?_, fun _ => documented_handleUncached srv.connection hge⟩
        rcases hcache with rfl | ⟨conn, -, hset⟩
        · exact hsound.of_subset rfl fun k v hk => hk
        · exact hsound.set req (req.pre_compute conn) hset
      · exact ⟨hsound, fun _ => ⟨hhit response rfl, hge⟩⟩

/-- A window that cannot be compared ends in the `TypeError`. -/
theorem serverStep_typeError {x : Env × Request} (hge : x.2.start.ge x.2.stop = none) :
    (serverStep app srv x).1 = .error .typeError := by
  rw [serverStep, handle_eq, serve, hge]

end Step

/-! ## Runs of requests -/

/-- **How the handlers end.** After every run of requests, whatever the database files, connections,
queries and clocks they meet, the next request ends in a documented outcome if and only if both
`start` and `end` have a UTC offset, or neither has. -/
theorem documented_iff (app : App) (trace : List (Env × Request)) (env : Env) (req : Request) :
    Documented env req
        (serverStep app (Machine.finalState (serverStep app) Server.init trace) (env, req)).1 ↔
      req.start.utcoffset.isSome = req.stop.utcoffset.isSome := by
  have hsound : EndpointSound app (Machine.finalState (serverStep app) Server.init trace) :=
    Machine.finalState_invariant (fun _ x _ h => (serverStep_documented h x).1)
      (EndpointSound.init app)
  rw [← ge_isSome_iff]
  constructor
  · intro hdoc
    by_contra hnone
    rw [Option.not_isSome_iff_eq_none] at hnone
    rw [serverStep_typeError hnone] at hdoc
    exact hdoc
  · exact (serverStep_documented hsound (env, req)).2

/-- `start=2024-01-01T00:00:00Z` with `end=2024-01-01T19:00:00`: the comparison raises. -/
theorem not_documented_mixed :
    (serverStep ⟨exampleDigest, 0⟩ Server.init
        (⟨some .empty, false, false, 0, 0⟩, .generation exampleStart eveningStop)).1
        = .error .typeError ∧
      ¬ Documented ⟨some .empty, false, false, 0, 0⟩ (.generation exampleStart eveningStop)
        (serverStep ⟨exampleDigest, 0⟩ Server.init
          (⟨some .empty, false, false, 0, 0⟩, .generation exampleStart eveningStop)).1 :=
  ⟨rfl, fun hdoc => hdoc⟩

end WindSight
