import WindSight.Library.Machine

/-! # Dashboard

The state of the dashboard and the calls of `loadData`. A change of a control starts a call, which
sends three requests, waits until all of them are settled and then stores what was fulfilled. A call
is neither cancelled nor tagged, so any number of them can be in flight, and they end in any
order. -/

namespace WindSight

/-! ## API client -/

/-- A request of the API client: the endpoint and the query parameters. -/
structure ApiRequest where
  endpoint : String
  params : List (String × String)
  deriving DecidableEq, Repr

/-- `fetchGeneration`. -/
def fetchGeneration (start stop : String) : ApiRequest :=
  ⟨"/api/v1/generation", [("start", start), ("end", stop)]⟩

/-- `fetchForecast`. -/
def fetchForecast (start stop : String) (horizon : ℕ) : ApiRequest :=
  ⟨"/api/v1/forecast", [("start", start), ("end", stop), ("horizon", toString horizon)]⟩

/-- `fetchMetrics`. -/
def fetchMetrics (start stop : String) (horizon : ℕ) : ApiRequest :=
  ⟨"/api/v1/metrics", [("start", start), ("end", stop), ("horizon", toString horizon)]⟩

/-- A response body, kept with the request it answers. -/
structure ApiResponse (α : Type) where
  request : ApiRequest
  body : α
  deriving Repr

/-! ## Promises -/

/-- The state of a promise. -/
inductive Settlement (α : Type) where
  | pending
  | fulfilled (value : α)
  | rejected
  deriving Repr

namespace Settlement

variable {α : Type}

/-- The promise has been fulfilled or rejected. -/
def isSettled : Settlement α → Bool
  | pending => false
  | _ => true

/-- `status === 'rejected'`. -/
def isRejected : Settlement α → Bool
  | rejected => true
  | _ => false

/-- A pending promise settles, with a value or without one; a settled one stays as it is. -/
def settle : Settlement α → Option α → Settlement α
  | pending, some value => fulfilled value
  | pending, none => rejected
  | settled, _ => settled

/-- `if (status === 'fulfilled') set(value)`, on the value held so far. -/
def store : Settlement α → Option α → Option α
  | fulfilled value, _ => some value
  | _, held => held

end Settlement

/-! ## State -/

/-- The values of the controls. The slider yields whole hours. -/
structure Controls where
  startDateTime : String
  endDateTime : String
  horizonHours : ℕ
  deriving DecidableEq, Repr

namespace Controls

/-- The values of the first render. -/
def initial : Controls := ⟨"2024-01-01T00:00", "2024-01-07T23:30", 4⟩

/-- `start` in `loadData`. -/
def start (c : Controls) : String := c.startDateTime ++ ":00Z"

/-- `end` in `loadData`. -/
def stop (c : Controls) : String := c.endDateTime ++ ":00Z"

/-- The three requests `loadData` sends. -/
def generationRequest (c : Controls) : ApiRequest := fetchGeneration c.start c.stop

@[inherit_doc generationRequest]
def forecastRequest (c : Controls) : ApiRequest := fetchForecast c.start c.stop c.horizonHours

@[inherit_doc generationRequest]
def metricsRequest (c : Controls) : ApiRequest := fetchMetrics c.start c.stop c.horizonHours

end Controls

variable {G F M : Type}

/-- A call of `loadData`: the controls it closed over, its three promises, and whether it has run to
its end. -/
structure Load (G F M : Type) where
  controls : Controls
  generation : Settlement (ApiResponse G)
  forecast : Settlement (ApiResponse F)
  metrics : Settlement (ApiResponse M)
  done : Bool

namespace Load

/-- A call that has sent its requests. -/
def start (c : Controls) : Load G F M := ⟨c, .pending, .pending, .pending, false⟩

/-- The promise of `Promise.allSettled` is fulfilled. -/
def allSettled (l : Load G F M) : Bool :=
  l.generation.isSettled && l.forecast.isSettled && l.metrics.isSettled

/-- `allFailed`. -/
def allFailed (l : Load G F M) : Bool :=
  l.generation.isRejected && l.forecast.isRejected && l.metrics.isRejected

/-- The generation request of a call settles, with a body or without one. -/
def settleGeneration (outcome : Option G) (l : Load G F M) : Load G F M :=
  { l with generation := l.generation.settle (outcome.map (⟨l.controls.generationRequest, ·⟩)) }

/-- The forecast request of a call settles. -/
def settleForecast (outcome : Option F) (l : Load G F M) : Load G F M :=
  { l with forecast := l.forecast.settle (outcome.map (⟨l.controls.forecastRequest, ·⟩)) }

/-- The metrics request of a call settles. -/
def settleMetrics (outcome : Option M) (l : Load G F M) : Load G F M :=
  { l with metrics := l.metrics.settle (outcome.map (⟨l.controls.metricsRequest, ·⟩)) }

end Load

/-- The state of the dashboard, with the calls of `loadData` in the order they were started. -/
structure Dashboard (G F M : Type) where
  controls : Controls
  generation : Option (ApiResponse G)
  forecast : Option (ApiResponse F)
  metrics : Option (ApiResponse M)
  isLoading : Bool
  error : Option String
  loads : List (Load G F M)

namespace Dashboard

/-- The message shown when all requests of a call failed. -/
def allFailedMessage : String :=
  "Unable to connect to the WindSight API. Ensure the backend is running on port 8000."

/-- `loadData` up to the `await`: the requests sent, and the state. -/
def loadData (s : Dashboard G F M) : List ApiRequest × Dashboard G F M :=
  ([s.controls.generationRequest, s.controls.forecastRequest, s.controls.metricsRequest],
    { s with isLoading := true, error := none, loads := s.loads ++ [Load.start s.controls] })

/-- `loadData` after the `await`. `Promise.allSettled` does not reject and the setters do not throw,
so the `catch` is never entered. -/
def completeLoad (s : Dashboard G F M) (i : ℕ) (l : Load G F M) : Dashboard G F M :=
  { s with
    generation := l.generation.store s.generation
    forecast := l.forecast.store s.forecast
    metrics := l.metrics.store s.metrics
    error := if l.allFailed then some allFailedMessage else s.error
    isLoading := false
    loads := s.loads.modify i ({ · with done := true }) }

/-- The dashboard after its first render, which calls `loadData`. -/
def mount : Dashboard G F M :=
  (loadData ⟨.initial, none, none, none, false, none, []⟩).2

/-- What can happen next: the user changes controls, a request of a call settles, or a call whose
requests are all settled runs to its end. -/
inductive Event (G F M : Type) where
  | change (controls : Controls)
  | settleGeneration (i : ℕ) (outcome : Option G)
  | settleForecast (i : ℕ) (outcome : Option F)
  | settleMetrics (i : ℕ) (outcome : Option M)
  | complete (i : ℕ)

/-- One step: the requests it sends and the next state. Setting controls to the values they have
renders nothing, and what cannot happen changes nothing. -/
def step (s : Dashboard G F M) : Event G F M → List ApiRequest × Dashboard G F M
  | .change controls =>
    if controls = s.controls then ([], s) else loadData { s with controls := controls }
  | .settleGeneration i outcome =>
    ([], { s with loads := s.loads.modify i (Load.settleGeneration outcome) })
  | .settleForecast i outcome =>
    ([], { s with loads := s.loads.modify i (Load.settleForecast outcome) })
  | .settleMetrics i outcome =>
    ([], { s with loads := s.loads.modify i (Load.settleMetrics outcome) })
  | .complete i =>
    match s.loads[i]? with
    | some l => ([], if l.allSettled && !l.done then s.completeLoad i l else s)
    | none => ([], s)

end Dashboard

end WindSight
