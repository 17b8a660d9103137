import WindSight.Backend.Lifespan
import WindSight.EndToEnd.RequestText
import WindSight.Frontend.StaleResponses

/-! # The dashboard and the API together

The dashboard, the process of the API, and the responses on their way between them. A request of the
dashboard may reach the server at any time after it was sent, its response may arrive at any time
after that or never, and in between other clients are served, the process is restarted and the
database file changes. In every state of every run, whatever the dashboard holds is the answer to
the very request it is held with, computed from a database that the file had (`system_sound`). -/

namespace WindSight

/-! ## The machine -/

/-- A response on its way to the browser: the call of `loadData` and the endpoint it belongs to, and
its body, unless it has an error status. -/
structure Message where
  load : ℕ
  endpoint : Endpoint
  body : Option Response

/-- The two programs and the network. -/
structure System where
  dashboard : Dashboard Response Response Response
  server : Server
  network : List Message

/-- What can happen next. -/
inductive SystemEvent where
  /-- The user changes the controls. -/
  | change (controls : Controls)
  /-- A request of a call of `loadData` reaches the server. -/
  | arrive (i : ℕ) (endpoint : Endpoint) (env : Env)
  /-- A response reaches the browser. -/
  | deliver (k : ℕ)
  /-- A request of a call fails in the browser: it is aborted, or the network is down. -/
  | lose (i : ℕ) (endpoint : Endpoint)
  /-- A call whose requests are all settled runs to its end. -/
  | complete (i : ℕ)
  /-- Anything else happens to the process: other clients, health checks, restarts. -/
  | server (event : AppEvent)

/-- The request of a call to an endpoint settles. -/
def settleAt {B : Type} (i : ℕ) (outcome : Option B) : Endpoint → Dashboard.Event B B B
  | .generation => .settleGeneration i outcome
  | .forecast => .settleForecast i outcome
  | .metrics => .settleMetrics i outcome

namespace System

/-- The page is open, and the process not started. -/
def init : System := ⟨Dashboard.mount, Server.init, []⟩

/-- The dashboard takes a step. -/
def onDashboard (s : System) (event : Dashboard.Event Response Response Response) : System :=
  { s with dashboard := (s.dashboard.step event).2 }

/-- The server answers the request of a call, or the validation rejects it. -/
def answerCall (app : App) (q : QueryReader) (s : System) (i : ℕ) (endpoint : Endpoint) (env : Env)
    (l : Load Response Response Response) : System :=
  match q.read (l.controls.request endpoint) with
  | none => { s with network := s.network ++ [⟨i, endpoint, none⟩] }
  | some req =>
    let (outcome, server) := handle app env s.server req
    -- an error status rejects the promise, as an exception in the handler does
    { s with server := server, network := s.network ++ [⟨i, endpoint, outcome.toOption⟩] }

/-- One step. What cannot happen changes nothing. -/
def step (app : App) (q : QueryReader) (s : System) : SystemEvent → Unit × System
  | .change controls => ((), s.onDashboard (.change controls))
  | .arrive i endpoint env =>
    match s.dashboard.loads[i]? with
    | none => ((), s)
    | some l => ((), s.answerCall app q i endpoint env l)
  | .deliver k =>
    match s.network[k]? with
    | none => ((), s)
    | some m =>
      ((), { s.onDashboard (settleAt m.load m.body m.endpoint) with
        network := s.network.eraseIdx k })
  | .lose i endpoint => ((), s.onDashboard (settleAt i none endpoint))
  | .complete i => ((), s.onDashboard (.complete i))
  | .server event => ((), { s with server := (appStep app s.server event).2 })

end System

/-! ## What a run may meet -/

/-- The environment an event of the process reads. -/
def AppEvent.env : AppEvent → Option Env
  | .startup env | .request env _ | .health env => some env
  | .cacheStats | .shutdown => none

/-- The environment an event of the system reads. -/
def SystemEvent.env : SystemEvent → Option Env
  | .arrive _ _ env => some env
  | .server event => event.env
  | _ => none

/-- The database files of a run are among `dbs`. -/
def FilesIn (dbs : Set Database) (trace : List SystemEvent) : Prop :=
  ∀ event ∈ trace, ∀ env ∈ event.env, ∀ db ∈ env.file, db ∈ dbs

/-- The controls that are selected at some time in a run. -/
def selectedIn (trace : List SystemEvent) : Set Controls :=
  {c | c = .initial ∨ .change c ∈ trace}

/-- The requests the server handles in a run. -/
def requestsIn (q : QueryReader) (trace : List SystemEvent) : Set Request :=
  {req | (∃ env, .server (.request env req) ∈ trace) ∨
    ∃ c ∈ selectedIn trace, ∃ endpoint, q.read (c.request endpoint) = some req}

/-- A response answers a request to an endpoint: the request is that for some selected controls, its
window is not empty, and the response is that to what the request is read as, over one of the
databases. -/
def Answered (app : App) (q : QueryReader) (dbs : Set Database) (sel : Set Controls)
    (endpoint : Endpoint) (r : ApiRequest) (response : Response) : Prop :=
  ∃ c ∈ sel, r = c.request endpoint ∧ ∃ req, q.read r = some req ∧
    req.start.ge req.stop = some false ∧ ∃ db ∈ dbs, response = req.compute ⟨db, app.timeZone⟩

/-! ## Bodies the dashboard holds -/

section Bodies

variable {B : Type} {P : Endpoint → ApiRequest → B → Prop}

/-- The values of the promises of a call satisfy `P` with their endpoints and requests. -/
structure Load.Bodies (P : Endpoint → ApiRequest → B → Prop) (l : Load B B B) : Prop where
  generation : ∀ r ∈ l.generation.value?, P .generation r.request r.body
  forecast : ∀ r ∈ l.forecast.value?, P .forecast r.request r.body
  metrics : ∀ r ∈ l.metrics.value?, P .metrics r.request r.body

/-- `P` holds of the responses the dashboard holds, and of those of all its calls. -/
structure Dashboard.Bodies (P : Endpoint → ApiRequest → B → Prop) (s : Dashboard B B B) :
    Prop where
  generation : ∀ r ∈ s.generation, P .generation r.request r.body
  forecast : ∀ r ∈ s.forecast, P .forecast r.request r.body
  metrics : ∀ r ∈ s.metrics, P .metrics r.request r.body
  loads : ∀ l ∈ s.loads, l.Bodies P

theorem Load.Bodies.start (c : Controls) : (Load.start c : Load B B B).Bodies P := by
  constructor <;> exact fun r hr => absurd hr (by simp [Load.start, Settlement.value?])

/-- A promise that settles with a body satisfying `P`. -/
theorem value?_settle_bodies {endpoint : Endpoint} {x : Settlement (ApiResponse B)}
    {request : ApiRequest} {outcome : Option B} (h : ∀ r ∈ x.value?, P endpoint r.request r.body)
    (houtcome : ∀ b ∈ outcome, P endpoint request b) :
    ∀ r ∈ (x.settle (outcome.map (⟨request, ·⟩))).value?, P endpoint r.request r.body := by
  intro r hr
  rcases Settlement.value?_settle hr with hr | hr
  · exact h r hr
  · obtain ⟨body, hbody, rfl⟩ := Option.map_eq_some_iff.mp hr
    exact houtcome body hbody

/-- What is held after the end of a call was held before, or is the value of a promise of it. -/
theorem store_bodies {endpoint : Endpoint} {x : Settlement (ApiResponse B)}
    {held : Option (ApiResponse B)} (hx : ∀ r ∈ x.value?, P endpoint r.request r.body)
    (hheld : ∀ r ∈ held, P endpoint r.request r.body) :
    ∀ r ∈ x.store held, P endpoint r.request r.body := by
  intro r hr
  rw [Settlement.store_eq] at hr
  rcases Option.or_eq_some_iff.mp hr with hr | ⟨-, hr⟩
  · exact hx r hr
  · exact hheld r hr

/-- Changing one call keeps the bodies right, if it keeps those of the call right. -/
theorem Dashboard.Bodies.modify {s : Dashboard B B B} (h : s.Bodies P) (i : ℕ)
    {f : Load B B B → Load B B B} (hf : ∀ l, s.loads[i]? = some l → l.Bodies P → (f l).Bodies P) :
    ({ s with loads := s.loads.modify i f } : Dashboard B B B).Bodies P where
  generation := h.generation
  forecast := h.forecast
  metrics := h.metrics
  loads := by
    intro l hl
    rcases Dashboard.mem_of_mem_modify hl with hl | ⟨l', hl', rfl⟩
    · exact h.loads l hl
    · exact hf l' hl' (h.loads l' (List.mem_of_getElem? hl'))

/-- A request that settles with a body satisfying `P`. -/
theorem Dashboard.Bodies.settleAt {s : Dashboard B B B} (h : s.Bodies P) (i : ℕ)
    (outcome : Option B) (endpoint : Endpoint)
    (houtcome : ∀ l, s.loads[i]? = some l → ∀ b ∈ outcome,
      P endpoint (l.controls.request endpoint) b) :
    (s.step (settleAt i outcome endpoint)).2.Bodies P := by
  cases endpoint with
  | generation =>
    exact h.modify i fun l hl hl' =>
      ⟨value?_settle_bodies hl'.generation (houtcome l hl), hl'.forecast, hl'.metrics⟩
  | forecast =>
    exact h.modify i fun l hl hl' =>
      ⟨hl'.generation, value?_settle_bodies hl'.forecast (houtcome l hl), hl'.metrics⟩
  | metrics =>
    exact h.modify i fun l hl hl' =>
      ⟨hl'.generation, hl'.forecast, value?_settle_bodies hl'.metrics (houtcome l hl)⟩

/-- A new call holds nothing yet. -/
theorem Dashboard.Bodies.loadData {s : Dashboard B B B} (h : s.Bodies P) :
    (Dashboard.loadData s).2.Bodies P where
  generation := h.generation
  forecast := h.forecast
  metrics := h.metrics
  loads := by
    intro l hl
    rcases List.mem_append.mp hl with hl | hl
    · exact h.loads l hl
    · rw [List.mem_singleton.mp hl]
      exact Load.Bodies.start s.controls

theorem Dashboard.Bodies.change {s : Dashboard B B B} (h : s.Bodies P) (c : Controls) :
    (s.step (.change c)).2.Bodies P := by
  rw [Dashboard.step]
  split
  · exact h
  · exact Dashboard.Bodies.loadData (s := { s with controls := c }) ⟨h.1, h.2, h.3, h.4⟩

/-- The end of a call stores values of its promises. -/
theorem Dashboard.Bodies.complete {s : Dashboard B B B} (h : s.Bodies P) (i : ℕ) :
    (s.step (.complete i)).2.Bodies P := by
  rw [Dashboard.step]
  split
  · rename_i l hl
    split
    · have hbodies := h.loads l (List.mem_of_getElem? hl)
      have hmodify : ({ s with loads := s.loads.modify i ({ · with done := true }) } :
          Dashboard B B B).Bodies P := h.modify i fun l _ hl' => ⟨hl'.1, hl'.2, hl'.3⟩
      exact ⟨store_bodies hbodies.generation h.generation,
        store_bodies hbodies.forecast h.forecast, store_bodies hbodies.metrics h.metrics,
        hmodify.loads⟩
    · exact h
  · exact h

/-- A step of the dashboard keeps every call, with its controls. -/
theorem getElem?_loads_step {s : Dashboard B B B} {i : ℕ} {l : Load B B B}
    (h : s.loads[i]? = some l) (event : Dashboard.Event B B B) :
    ∃ l', (s.step event).2.loads[i]? = some l' ∧ l'.controls = l.controls := by
  have hmodify : ∀ (j : ℕ) (f : Load B B B → Load B B B), (∀ l, (f l).controls = l.controls) →
      ∃ l', (s.loads.modify j f)[i]? = some l' ∧ l'.controls = l.controls := by
    intro j f hf
    rw [List.getElem?_modify, h]
    refine ⟨_, rfl, ?_⟩
    split_ifs
    · exact hf l
    · rfl
  rcases Dashboard.step_cases s event with heq | ⟨c, -, -, heq⟩ | ⟨j, f, hf, heq⟩ |
    ⟨j, l', -, -, -, -, heq⟩ <;> rw [heq]
  · exact ⟨l, h, rfl⟩
  · exact ⟨l, List.getElem?_append_left (List.getElem?_eq_some_iff.mp h).1 ▸ h, rfl⟩
  · exact hmodify j f hf.controls
  · exact hmodify j _ fun _ => rfl

/-- A call after a step was there before, or was started for the controls selected by the step. -/
theorem controls_of_mem_loads_step {s : Dashboard B B B} {event : Dashboard.Event B B B}
    {l : Load B B B} (h : l ∈ (s.step event).2.loads) :
    (∃ l' ∈ s.loads, l'.controls = l.controls) ∨ event = .change l.controls := by
  have hmodify : ∀ (j : ℕ) (f : Load B B B → Load B B B), (∀ l, (f l).controls = l.controls) →
      l ∈ s.loads.modify j f → ∃ l' ∈ s.loads, l'.controls = l.controls := by
    intro j f hf hl
    rcases Dashboard.mem_of_mem_modify hl with hl | ⟨l', hl', rfl⟩
    · exact ⟨l, hl, rfl⟩
    · exact ⟨l', List.mem_of_getElem? hl', (hf l').symm⟩
  rcases Dashboard.step_cases s event with heq | ⟨c, rfl, -, heq⟩ | ⟨j, f, hf, heq⟩ |
    ⟨j, l', -, -, -, -, heq⟩ <;> rw [heq] at h
  · exact Or.inl ⟨l, h, rfl⟩
  · rcases List.mem_append.mp h with hl | hl
    · exact Or.inl ⟨l, hl, rfl⟩
    · rw [List.mem_singleton.mp hl]
      exact Or.inr rfl
  · exact Or.inl (hmodify j f hf.controls h)
  · exact Or.inl (hmodify j ({ · with done := true }) (fun _ => rfl) h)

end Bodies

/-! ## What the network and the dashboard carry -/

/-- Every response on its way satisfies `P` with the request of the call it is for, and so does
everything the dashboard holds; all its calls are for selected controls. -/
structure System.Carries (P : Endpoint → ApiRequest → Response → Prop) (sel : Set Controls)
    (s : System) : Prop where
  network : ∀ m ∈ s.network, ∀ response ∈ m.body, ∃ l, s.dashboard.loads[m.load]? = some l ∧
    P m.endpoint (l.controls.request m.endpoint) response
  inv : s.dashboard.Inv
  bodies : s.dashboard.Bodies P
  selected : ∀ l ∈ s.dashboard.loads, l.controls ∈ sel

namespace System.Carries

variable {app : App} {q : QueryReader} {P : Endpoint → ApiRequest → Response → Prop}
  {sel : Set Controls} {s : System}

/-- The page has just been opened. -/
theorem init (P : Endpoint → ApiRequest → Response → Prop) (hsel : Controls.initial ∈ sel) :
    System.init.Carries P sel where
  network := fun _ hm => absurd hm List.not_mem_nil
  inv := Dashboard.Inv.mount
  bodies := Dashboard.Bodies.loadData
    ⟨fun _ hr => absurd hr (by simp), fun _ hr => absurd hr (by simp),
      fun _ hr => absurd hr (by simp), fun _ hl => absurd hl List.not_mem_nil⟩
  selected := by
    intro l hl
    rw [List.mem_singleton.mp hl]
    exact hsel

/-- A step of the dashboard that keeps its bodies right. -/
theorem onDashboard (h : s.Carries P sel) {event : Dashboard.Event Response Response Response}
    (hbodies : (s.dashboard.step event).2.Bodies P) (hsel : ∀ c, event = .change c → c ∈ sel) :
    (s.onDashboard event).Carries P sel where
  network := by
    intro m hm response hresponse
    obtain ⟨l, hl, hP⟩ := h.network m hm response hresponse
    obtain ⟨l', hl', hcontrols⟩ := getElem?_loads_step hl event
    exact ⟨l', hl', hcontrols ▸ hP⟩
  inv := h.inv.step event
  bodies := hbodies
  selected := by
    intro l hl
    rcases controls_of_mem_loads_step hl with ⟨l', hl', hcontrols⟩ | hevent
    · exact hcontrols ▸ h.selected l' hl'
    · exact hsel _ hevent

/-- The server answers the request of a call. -/
theorem answerCall (h : s.Carries P sel) {i : ℕ} {endpoint : Endpoint} {env : Env}
    {l : Load Response Response Response} (hl : s.dashboard.loads[i]? = some l)
    (hanswer : ∀ req, q.read (l.controls.request endpoint) = some req →
      ∀ response, (handle app env s.server req).1 = .ok response →
        P endpoint (l.controls.request endpoint) response) :
    (s.answerCall app q i endpoint env l).Carries P sel := by
  rw [System.answerCall]
  cases hread : q.read (l.controls.request endpoint) with
  | none =>
    refine ⟨fun m hm => ?_, h.inv, h.bodies, h.selected⟩
    rcases List.mem_append.mp hm with hm | hm
    · exact h.network m hm
    · rw [List.mem_singleton.mp hm]
      exact fun response hresponse => absurd hresponse (by simp)
  | some req =>
    refine ⟨fun m hm => ?_, h.inv, h.bodies, h.selected⟩
    rcases List.mem_append.mp hm with hm | hm
    · exact h.network m hm
    · rw [List.mem_singleton.mp hm]
      intro response hresponse
      refine ⟨l, hl, hanswer req hread response ?_⟩
      dsimp only at hresponse
      cases hout : (handle app env s.server req).1 with
      | error failure =>
        rw [hout] at hresponse
        cases hresponse
      | ok r =>
        rw [hout] at hresponse
        exact congrArg _ (Option.some.inj hresponse)

/-- One step, if what the server answers satisfies `P`. -/
theorem step (h : s.Carries P sel) {event : SystemEvent}
    (hanswer : ∀ i endpoint env l, event = .arrive i endpoint env →
      s.dashboard.loads[i]? = some l → ∀ req, q.read (l.controls.request endpoint) = some req →
        ∀ response, (handle app env s.server req).1 = .ok response →
          P endpoint (l.controls.request endpoint) response)
    (hchange : ∀ c, event = .change c → c ∈ sel) : (s.step app q event).2.Carries P sel := by
  cases event with
  | change c =>
    refine h.onDashboard (h.bodies.change c) fun c' hc' => hchange c' ?_
    rw [Dashboard.Event.change.inj hc']
  | arrive i endpoint env =>
    rw [System.step]
    cases hl : s.dashboard.loads[i]? with
    | none => exact h
    | some l => exact h.answerCall hl (hanswer i endpoint env l rfl hl)
  | deliver k =>
    rw [System.step]
    cases hm : s.network[k]? with
    | none => exact h
    | some m =>
      have hmem : m ∈ s.network := List.mem_of_getElem? hm
      have hbodies : (s.dashboard.step (settleAt m.load m.body m.endpoint)).2.Bodies P := by
        refine h.bodies.settleAt m.load m.body m.endpoint fun l hl response hresponse => ?_
        obtain ⟨l', hl', hP⟩ := h.network m hmem response hresponse
        obtain rfl : l' = l := Option.some.inj (hl'.symm.trans hl)
        exact hP
      have hnext := h.onDashboard hbodies fun c hc => by
        cases hm' : m.endpoint <;> simp [hm', settleAt] at hc
      exact ⟨fun m' hm' => hnext.network m' (List.mem_of_mem_eraseIdx hm'), hnext.inv,
        hnext.bodies, hnext.selected⟩
  | lose i endpoint =>
    refine h.onDashboard (h.bodies.settleAt i none endpoint ?_) ?_
    · intro l _ b hb
      cases hb
    · intro c hc
      cases endpoint <;> cases hc
  | complete i =>
    refine h.onDashboard (h.bodies.complete i) ?_
    intro c hc
    cases hc
  | server event => exact ⟨h.network, h.inv, h.bodies, h.selected⟩

end System.Carries

/-- A step of the system is a step of the process, with an event of the run or the request of a
call, or leaves it alone. -/
theorem server_step_cases (app : App) (q : QueryReader) (s : System) (event : SystemEvent) :
    (s.step app q event).2.server = s.server ∨
      ∃ e, (s.step app q event).2.server = (appStep app s.server e).2 ∧
        (event = .server e ∨ ∃ i endpoint env l req, event = .arrive i endpoint env ∧
          s.dashboard.loads[i]? = some l ∧ q.read (l.controls.request endpoint) = some req ∧
          e = .request env req) := by
  cases event with
  | arrive i endpoint env =>
    rw [System.step]
    cases hl : s.dashboard.loads[i]? with
    | none => exact Or.inl rfl
    | some l =>
      dsimp only
      rw [System.answerCall]
      cases hread : q.read (l.controls.request endpoint) with
      | none => exact Or.inl rfl
      | some req =>
        exact Or.inr ⟨.request env req, rfl, Or.inr ⟨i, endpoint, env, l, req, rfl, hl, hread, rfl⟩⟩
  | deliver k =>
    rw [System.step]
    cases s.network[k]? <;> exact Or.inl rfl
  | server e => exact Or.inr ⟨e, rfl, Or.inl rfl⟩
  | _ => exact Or.inl rfl

/-! ## The invariant of the system -/

/-- The requests read from those for selected controls are among `reqs`. -/
def ReadsIn (q : QueryReader) (sel : Set Controls) (reqs : Set Request) : Prop :=
  ∀ c ∈ sel, ∀ endpoint req, q.read (c.request endpoint) = some req → req ∈ reqs

/-- The server is sound for a snapshot among the databases, and what is on its way to the dashboard
or held there are answers. -/
structure System.Sound (app : App) (q : QueryReader) (dbs : Set Database) (sel : Set Controls)
    (reqs : Set Request) (s : System) : Prop where
  server : ∃ snapshot : Option Database, (∀ db ∈ snapshot, db ∈ dbs) ∧
    LifeSound app reqs snapshot s.server
  carries : s.Carries (Answered app q dbs sel) sel

namespace System.Sound

variable {app : App} {q : QueryReader} {dbs : Set Database} {sel : Set Controls}
  {reqs : Set Request} {s : System}

/-- The page has just been opened. -/
theorem init (app : App) (q : QueryReader) (dbs : Set Database) (reqs : Set Request)
    (hsel : Controls.initial ∈ sel) : System.init.Sound app q dbs sel reqs where
  server := ⟨none, fun _ hdb => absurd hdb (by simp), LifeSound.init app reqs⟩
  carries := .init _ hsel

/-- The snapshot a step of the process leaves is still among the databases. -/
theorem mem_snapshotStep {snapshot : Option Database} (h : ∀ db ∈ snapshot, db ∈ dbs)
    (event : AppEvent) (hfiles : ∀ env ∈ event.env, ∀ db ∈ env.file, db ∈ dbs) :
    ∀ db ∈ snapshotStep snapshot event, db ∈ dbs := by
  have hreach : ∀ env ∈ event.env, ∀ db, snapshot.or env.reachable = some db → db ∈ dbs := by
    intro env henv db hdb
    rcases Option.or_eq_some_iff.mp hdb with hdb | ⟨-, hdb⟩
    · exact h db hdb
    · rw [Env.reachable] at hdb
      split at hdb
      · cases hdb
      · exact hfiles env henv db hdb
  intro db hdb
  cases event with
  | startup env => exact hreach env rfl db hdb
  | health env => exact hreach env rfl db hdb
  | request env req =>
    rw [snapshotStep_request] at hdb
    split at hdb
    · exact hreach env rfl db hdb
    · exact h db hdb
  | cacheStats => exact h db (Option.or_none.symm.trans hdb)
  | shutdown => cases hdb

/-- One step keeps the invariant. -/
theorem step (h : s.Sound app q dbs sel reqs) (hhash : NoCollision app.hexdigest reqs)
    (hreads : ReadsIn q sel reqs) {event : SystemEvent}
    (hfiles : ∀ env ∈ event.env, ∀ db ∈ env.file, db ∈ dbs)
    (hserver : ∀ env req, event = .server (.request env req) → req ∈ reqs)
    (hchange : ∀ c, event = .change c → c ∈ sel) :
    (s.step app q event).2.Sound app q dbs sel reqs := by
  obtain ⟨snapshot, hsnapshot, hlife⟩ := h.server
  constructor
  · rcases server_step_cases app q s event with heq | ⟨e, heq, hevent⟩ <;> rw [heq]
    · exact ⟨snapshot, hsnapshot, hlife⟩
    · rcases hevent with rfl | ⟨i, endpoint, env, l, req, rfl, hl, hread, rfl⟩
      · exact ⟨_, mem_snapshotStep hsnapshot e hfiles,
          (hlife.step hhash fun env req heq => hserver env req (congrArg _ heq)).2⟩
      · have hreq : req ∈ reqs :=
          hreads _ (h.carries.selected l (List.mem_of_getElem? hl)) endpoint req hread
        exact ⟨_, mem_snapshotStep hsnapshot (.request env req) hfiles,
          (hlife.request hhash hreq env).2⟩
  · refine h.carries.step ?_ hchange
    rintro i endpoint env l rfl hl req hread response hout
    have hsel : l.controls ∈ sel := h.carries.selected l (List.mem_of_getElem? hl)
    -- a success is read off the snapshot the request leaves
    have hserves := (hlife.request hhash (hreads _ hsel endpoint req hread) env).1
    rw [hout] at hserves
    obtain ⟨hge, db, hdb, hresponse⟩ := hserves.of_ok
    exact ⟨l.controls, hsel, rfl, req, hread, hge, db,
      mem_snapshotStep hsnapshot (.request env req) hfiles db hdb, hresponse⟩

end System.Sound

/-! ## Runs of the system -/

/-- The invariant holds after every run. -/
theorem sound_finalState (app : App) (q : QueryReader) {dbs : Set Database} {sel : Set Controls}
    {reqs : Set Request} (hhash : NoCollision app.hexdigest reqs) (hreads : ReadsIn q sel reqs)
    (trace : List SystemEvent) (hfiles : FilesIn dbs trace) (hsel : selectedIn trace ⊆ sel)
    (hreqs : requestsIn q trace ⊆ reqs) :
    (Machine.finalState (System.step app q) System.init trace).Sound app q dbs sel reqs := by
  refine Machine.finalState_invariant ?_ (System.Sound.init app q dbs reqs (hsel (Or.inl rfl)))
  intro s event hevent h
  refine h.step hhash hreads (hfiles event hevent) ?_ ?_
  · rintro env req rfl
    exact hreqs (Or.inl ⟨env, hevent⟩)
  · rintro c rfl
    exact hsel (Or.inr hevent)

/-- **The dashboard shows answers.** Take any run of the dashboard, the API process and the network:
requests reach the server in any order and at any time, responses are delivered in any order or
lost, calls overlap, other clients use the cache, the process is restarted, and the database file is
another one of `dbs` whenever it is read. If the truncated digest does not confuse the parameter
texts in use, then what the dashboard holds for an endpoint is, in every state, the response to the
very request it is held with, one for controls that were selected, computed from a database that
the file had. -/
theorem system_sound (app : App) (q : QueryReader) (dbs : Set Database) (trace : List SystemEvent)
    (hfiles : FilesIn dbs trace) (hhash : NoCollision app.hexdigest (requestsIn q trace)) :
    let s := (Machine.finalState (System.step app q) System.init trace).dashboard
    (∀ r ∈ s.generation, Answered app q dbs (selectedIn trace) .generation r.request r.body) ∧
      (∀ r ∈ s.forecast, Answered app q dbs (selectedIn trace) .forecast r.request r.body) ∧
      ∀ r ∈ s.metrics, Answered app q dbs (selectedIn trace) .metrics r.request r.body := by
  have hreads : ReadsIn q (selectedIn trace) (requestsIn q trace) :=
    fun c hc endpoint req hread => Or.inr ⟨c, hc, endpoint, hread⟩
  have hsound := sound_finalState app q hhash hreads trace hfiles subset_rfl subset_rfl
  exact ⟨hsound.carries.bodies.generation, hsound.carries.bodies.forecast,
    hsound.carries.bodies.metrics⟩

/-! ### The first call -/

/-- MD5 on the parameter texts of the first requests. -/
def initialDigest (paramStr : String) : String :=
  if paramStr = dumps (Request.generation exampleStart initialStop).cacheParams then
    "a52a7ebabc4a5273046839c6638dc86f"
  else "60d7dbe1049cc257c0ce9c2287a23801"

/-- The file has one actual, and nothing raises. -/
def quietEnv : Env := ⟨some oneActual, false, false, 1, 1⟩

/-- The first call: two of its requests are answered, and the third is lost. -/
def firstCall : List SystemEvent :=
  [.server (.startup quietEnv), .arrive 0 .metrics quietEnv, .arrive 0 .generation quietEnv,
    .deliver 1, .lose 0 .forecast, .deliver 0, .complete 0]

/-- The requests of a run in which the controls stay, and no other client is served. -/
theorem requestsIn_initial {trace : List SystemEvent} (hchange : ∀ c, .change c ∉ trace)
    (hserver : ∀ env req, .server (.request env req) ∉ trace) {req : Request}
    (h : req ∈ requestsIn initialReader trace) :
    req = .generation exampleStart initialStop ∨
      req = .forecast exampleStart initialStop exampleHorizon ∨
      req = .metrics exampleStart initialStop exampleHorizon := by
  have hstart : initialReader.datetime Controls.initial.start = some exampleStart := by
    decide +kernel
  have hstop : initialReader.datetime Controls.initial.stop = some initialStop := by
    decide +kernel
  have hhorizon : initialReader.horizon (some (toString Controls.initial.horizonHours))
      = some exampleHorizon := dif_pos exampleHorizon.2
  rcases h with ⟨env, h⟩ | ⟨c, hc, endpoint, hread⟩
  · exact absurd h (hserver env req)
  · obtain rfl : c = .initial := hc.resolve_right (hchange c)
    cases endpoint with
    | generation =>
      rw [read_generation, hstart, hstop] at hread
      exact Or.inl (Option.some.inj hread).symm
    | forecast =>
      rw [read_forecast, hstart, hstop, hhorizon] at hread
      exact Or.inr (Or.inl (Option.some.inj hread).symm)
    | metrics =>
      rw [read_metrics, hstart, hstop, hhorizon] at hread
      exact Or.inr (Or.inr (Option.some.inj hread).symm)

/-- The digests of the two parameter texts of the first call differ. -/
theorem noCollision_initial {trace : List SystemEvent} (hchange : ∀ c, .change c ∉ trace)
    (hserver : ∀ env req, .server (.request env req) ∉ trace) :
    NoCollision initialDigest (requestsIn initialReader trace) := by
  intro req hreq req' hreq'
  rcases requestsIn_initial hchange hserver hreq with rfl | rfl | rfl <;>
    rcases requestsIn_initial hchange hserver hreq' with rfl | rfl | rfl <;> decide

theorem filesIn_firstCall : FilesIn {oneActual} firstCall := by
  intro event hevent env henv db hdb
  have henv : env = quietEnv := by
    simp only [firstCall, List.mem_cons, List.not_mem_nil, or_false] at hevent
    rcases hevent with rfl | rfl | rfl | rfl | rfl | rfl | rfl <;> cases henv <;> rfl
  rw [henv] at hdb
  exact (Option.some.inj hdb).symm

/-- The two responses that arrive are on the screen, and are answers. -/
theorem system_sound_firstCall :
    let s := (Machine.finalState (System.step ⟨initialDigest, 0⟩ initialReader) System.init
      firstCall).dashboard
    s.generation.isSome ∧ s.metrics.isSome ∧
      (∀ r ∈ s.generation, Answered ⟨initialDigest, 0⟩ initialReader {oneActual}
        (selectedIn firstCall) .generation r.request r.body) ∧
      (∀ r ∈ s.forecast, Answered ⟨initialDigest, 0⟩ initialReader {oneActual}
        (selectedIn firstCall) .forecast r.request r.body) ∧
      ∀ r ∈ s.metrics, Answered ⟨initialDigest, 0⟩ initialReader {oneActual}
        (selectedIn firstCall) .metrics r.request r.body :=
  ⟨by decide +kernel, by decide +kernel,
    system_sound ⟨initialDigest, 0⟩ initialReader {oneActual} firstCall filesIn_firstCall
      (noCollision_initial (by simp [firstCall]) (by simp [firstCall]))⟩

end WindSight
