import WindSight.EndToEnd.System
import WindSight.Frontend.ApiFetch
import WindSight.Frontend.InFlight

/-! # The dashboard and its requests

The calls of `loadData` with the three requests each of them sends. Heads of responses, bodies,
failures of the network and timers reach the requests in any order, while the user changes the
controls. What the dashboard holds came in an `ok` response before the timer of its request, and
nothing else ever reached that request (`held_in_time`). And loading ends: when the timers of the
calls in flight have run out, and these calls have run to their ends, the page is not loading
(`loading_ends`). -/

namespace WindSight

/-! ## The machine -/

/-- The dashboard, and the requests of its calls, by the index of the call and the endpoint. -/
structure Browser (B : Type) where
  dashboard : Dashboard B B B
  fetches : ℕ → Endpoint → ApiFetch B

/-- What can happen next. -/
inductive BrowserEvent where
  /-- The user changes the controls. -/
  | change (controls : Controls)
  /-- Something reaches a request of a call. -/
  | network (i : ℕ) (endpoint : Endpoint) (event : NetworkEvent)
  /-- A call whose requests are all settled runs to its end. -/
  | complete (i : ℕ)
  deriving DecidableEq, Repr

namespace Browser

variable {B : Type}

/-- The page has just been opened. -/
def load : Browser B := ⟨Dashboard.mount, fun _ _ => .start⟩

/-- Something reaches a request of a call; `Promise.allSettled` sees its promise settle. -/
def receive (json : String → Except String B) (s : Browser B) (i : ℕ) (endpoint : Endpoint)
    (event : NetworkEvent) : Browser B :=
  let fetch := ((s.fetches i endpoint).step json event).2
  let fetches := Function.update s.fetches i (Function.update (s.fetches i) endpoint fetch)
  match fetch.result with
  | none => ⟨s.dashboard, fetches⟩
  | some result => ⟨(s.dashboard.step (settleAt i result.toOption endpoint)).2, fetches⟩

/-- One step. What cannot happen changes nothing. -/
def step (json : String → Except String B) (s : Browser B) : BrowserEvent → Unit × Browser B
  | .change controls => ((), { s with dashboard := (s.dashboard.step (.change controls)).2 })
  | .network i endpoint event =>
    ((), if i < s.dashboard.loads.length then s.receive json i endpoint event else s)
  | .complete i => ((), { s with dashboard := (s.dashboard.step (.complete i)).2 })

/-- The event can happen. -/
def Possible (s : Browser B) : BrowserEvent → Prop
  | .network i endpoint event =>
    i < s.dashboard.loads.length ∧ (s.fetches i endpoint).Possible event
  | _ => True

end Browser

/-! ## Promises by endpoint -/

section Promises

variable {B : Type} {json : String → Except String B}

/-- The promise of a call for an endpoint. -/
def Load.promise (l : Load B B B) : Endpoint → Settlement (ApiResponse B)
  | .generation => l.generation
  | .forecast => l.forecast
  | .metrics => l.metrics

/-- What the dashboard holds of an endpoint. -/
def Dashboard.held (s : Dashboard B B B) : Endpoint → Option (ApiResponse B)
  | .generation => s.generation
  | .forecast => s.forecast
  | .metrics => s.metrics

/-- A request of a call settles. -/
def Load.settleAt (endpoint : Endpoint) (outcome : Option B) (l : Load B B B) : Load B B B :=
  match endpoint with
  | .generation => l.settleGeneration outcome
  | .forecast => l.settleForecast outcome
  | .metrics => l.settleMetrics outcome

@[simp] theorem Load.controls_settleAt (endpoint : Endpoint) (outcome : Option B)
    (l : Load B B B) : (l.settleAt endpoint outcome).controls = l.controls := by
  cases endpoint <;> rfl

theorem Load.promise_settleAt_self (endpoint : Endpoint) (outcome : Option B) (l : Load B B B) :
    (l.settleAt endpoint outcome).promise endpoint
      = (l.promise endpoint).settle (outcome.map (⟨l.controls.request endpoint, ·⟩)) := by
  cases endpoint <;> rfl

theorem Load.promise_settleAt_of_ne {endpoint endpoint' : Endpoint} (h : endpoint' ≠ endpoint)
    (outcome : Option B) (l : Load B B B) :
    (l.settleAt endpoint outcome).promise endpoint' = l.promise endpoint' := by
  cases endpoint <;> cases endpoint' <;> first | exact absurd rfl h | rfl

theorem Load.allSettled_iff_promise {l : Load B B B} :
    l.allSettled ↔ ∀ endpoint, (l.promise endpoint).isSettled := by
  rw [Load.allSettled_iff]
  constructor
  · rintro ⟨hgen, hfc, hmet⟩ endpoint
    cases endpoint
    · exact hgen
    · exact hfc
    · exact hmet
  · intro h
    exact ⟨h .generation, h .forecast, h .metrics⟩

theorem Dashboard.step_settleAt (s : Dashboard B B B) (i : ℕ) (outcome : Option B)
    (endpoint : Endpoint) :
    (s.step (settleAt i outcome endpoint)).2
      = { s with loads := s.loads.modify i (Load.settleAt endpoint outcome) } := by
  cases endpoint <;> rfl

theorem Dashboard.held_completeLoad (s : Dashboard B B B) (i : ℕ) (l : Load B B B)
    (endpoint : Endpoint) :
    (s.completeLoad i l).held endpoint = (l.promise endpoint).store (s.held endpoint) := by
  cases endpoint <;> rfl

/-- The promise of a request with a result. -/
def promiseOf (request : ApiRequest) : Option (Except String B) → Settlement (ApiResponse B)
  | none => .pending
  | some (.ok body) => .fulfilled ⟨request, body⟩
  | some (.error _) => .rejected

theorem isSettled_promiseOf (request : ApiRequest) (result : Option (Except String B)) :
    (promiseOf request result).isSettled = result.isSome := by
  rcases result with _ | (_ | _) <;> rfl

theorem eq_ok_of_value?_promiseOf {request : ApiRequest} {result : Option (Except String B)}
    {r : ApiResponse B} (h : (promiseOf request result).value? = some r) :
    r.request = request ∧ result = some (.ok r.body) := by
  rcases result with _ | (_ | body)
  · cases h
  · cases h
  · cases h
    exact ⟨rfl, rfl⟩

/-- A call after one of its requests has a result or is still pending. -/
def Load.follow (endpoint : Endpoint) (result : Option (Except String B)) (l : Load B B B) :
    Load B B B :=
  match result with
  | none => l
  | some result => l.settleAt endpoint result.toOption

@[simp] theorem Load.controls_follow (endpoint : Endpoint) (result : Option (Except String B))
    (l : Load B B B) : (l.follow endpoint result).controls = l.controls := by
  cases result with
  | none => rfl
  | some result => exact l.controls_settleAt endpoint _

/-- The promise follows its request through an event. -/
theorem Load.promise_follow_self {l : Load B B B} {endpoint : Endpoint} {f : ApiFetch B}
    (h : l.promise endpoint = promiseOf (l.controls.request endpoint) f.result)
    (event : NetworkEvent) :
    (l.follow endpoint (f.step json event).2.result).promise endpoint
      = promiseOf (l.controls.request endpoint) (f.step json event).2.result := by
  cases hresult : (f.step json event).2.result with
  | none =>
    -- a request that is pending now was pending before
    have hnone : f.result = none := by
      by_contra hsome
      obtain ⟨r, hr⟩ := Option.ne_none_iff_exists'.mp hsome
      exact absurd (hresult.symm.trans (ApiFetch.result_step hr event)) (Option.some_ne_none r).symm
    rw [hnone] at h
    exact h
  | some result =>
    rw [Load.follow, Load.promise_settleAt_self, h]
    cases hf : f.result with
    | none => cases result <;> rfl
    | some result' =>
      -- it was settled before, with the same result
      obtain rfl : result' = result :=
        Option.some.inj ((ApiFetch.result_step hf event).symm.trans hresult)
      exact Settlement.settle_of_isSettled (by rw [isSettled_promiseOf]; rfl) _

theorem Load.promise_follow_of_ne {endpoint endpoint' : Endpoint} (h : endpoint' ≠ endpoint)
    (result : Option (Except String B)) (l : Load B B B) :
    (l.follow endpoint result).promise endpoint' = l.promise endpoint' := by
  cases result with
  | none => rfl
  | some result => exact l.promise_settleAt_of_ne h _

end Promises

namespace Browser

variable {B : Type} {json : String → Except String B} {s : Browser B}

/-! ## One step -/

/-- A step of the page is a step of the dashboard, or leaves it alone; only a change of the controls
is one. -/
theorem dashboard_step (json : String → Except String B) (s : Browser B) (event : BrowserEvent) :
    (s.step json event).2.dashboard = s.dashboard ∨
      ∃ e, (s.step json event).2.dashboard = (s.dashboard.step e).2 ∧
        ∀ c, e = .change c → event = .change c := by
  cases event with
  | change c => exact Or.inr ⟨_, rfl, fun c' hc' => by rw [Dashboard.Event.change.inj hc']⟩
  | network i endpoint event =>
    rw [step]
    split_ifs
    · rw [receive]
      dsimp only
      split
      · exact Or.inl rfl
      · refine Or.inr ⟨_, rfl, fun c hc => ?_⟩
        cases endpoint <;> cases hc
    · exact Or.inl rfl
  | complete i =>
    refine Or.inr ⟨_, rfl, fun c hc => ?_⟩
    cases hc

/-- **Refinement.** The dashboard of a run of the page is that of a run of the dashboard, whose
requests settle as they do here. -/
theorem exists_finalState_dashboard (json : String → Except String B) (trace : List BrowserEvent) :
    ∃ events, (Machine.finalState (step json) load trace).dashboard
      = Machine.finalState Dashboard.step Dashboard.mount events := by
  refine Machine.finalState_invariant (P := fun s : Browser B => ∃ events,
    s.dashboard = Machine.finalState Dashboard.step Dashboard.mount events) ?_ ⟨[], rfl⟩
  rintro s event - ⟨events, h⟩
  rcases dashboard_step json s event with heq | ⟨e, heq, -⟩
  · exact ⟨events, heq.trans h⟩
  · refine ⟨events ++ [e], ?_⟩
    rw [heq, h, Machine.finalState_append]
    rfl

@[simp] theorem fetches_receive (i : ℕ) (endpoint : Endpoint) (event : NetworkEvent) :
    (s.receive json i endpoint event).fetches
      = Function.update s.fetches i (Function.update (s.fetches i) endpoint
          ((s.fetches i endpoint).step json event).2) := by
  rw [receive]
  split <;> rfl

/-- A request after a step: the event reached it, or it is as before. -/
theorem fetches_step (json : String → Except String B) (s : Browser B) (event : BrowserEvent)
    (i : ℕ) (endpoint : Endpoint) :
    (s.step json event).2.fetches i endpoint = s.fetches i endpoint ∨
      ∃ e, event = .network i endpoint e ∧
        (s.step json event).2.fetches i endpoint = ((s.fetches i endpoint).step json e).2 := by
  cases event with
  | network j endpoint' e =>
    rw [step]
    split_ifs
    · rw [fetches_receive]
      by_cases hij : i = j
      · subst hij
        by_cases hend : endpoint = endpoint'
        · subst hend
          exact Or.inr ⟨e, rfl, by simp⟩
        · exact Or.inl (by simp [hend])
      · exact Or.inl (by simp [hij])
    · exact Or.inl rfl
  | _ => exact Or.inl rfl

/-- The result of a request stays. -/
theorem result_step {i : ℕ} {endpoint : Endpoint} {r : Except String B}
    (h : (s.fetches i endpoint).result = some r) (event : BrowserEvent) :
    ((s.step json event).2.fetches i endpoint).result = some r := by
  rcases fetches_step json s event i endpoint with heq | ⟨e, -, heq⟩ <;> rw [heq]
  · exact h
  · exact ApiFetch.result_step h e

/-- A call stays, with its controls. -/
theorem getElem?_loads (json : String → Except String B) {i : ℕ} {l : Load B B B}
    (h : s.dashboard.loads[i]? = some l) (event : BrowserEvent) :
    ∃ l', (s.step json event).2.dashboard.loads[i]? = some l' ∧ l'.controls = l.controls := by
  rcases dashboard_step json s event with heq | ⟨e, heq, -⟩ <;> rw [heq]
  · exact ⟨l, h, rfl⟩
  · exact getElem?_loads_step h e

theorem loads_receive (i : ℕ) (endpoint : Endpoint) (event : NetworkEvent) :
    (s.receive json i endpoint event).dashboard.loads
      = s.dashboard.loads.modify i
          (Load.follow endpoint ((s.fetches i endpoint).step json event).2.result) := by
  rw [receive]
  cases ((s.fetches i endpoint).step json event).2.result with
  | none => exact (List.modify_id i _).symm
  | some result =>
    dsimp only
    rw [Dashboard.step_settleAt]
    rfl

/-- A call after another one or itself has ended. -/
theorem getElem?_loads_complete {i j : ℕ} {l' : Load B B B}
    (h : (s.step json (.complete i)).2.dashboard.loads[j]? = some l') :
    ∃ l, s.dashboard.loads[j]? = some l ∧ l'.controls = l.controls ∧
      ∀ endpoint, l'.promise endpoint = l.promise endpoint := by
  rw [step, Dashboard.step] at h
  split at h
  · split_ifs at h
    · change (s.dashboard.loads.modify i _)[j]? = some l' at h
      rw [List.getElem?_modify] at h
      obtain ⟨l, hl, rfl⟩ := Option.map_eq_some_iff.mp h
      refine ⟨l, hl, ?_, fun endpoint => ?_⟩
      · split_ifs <;> rfl
      · split_ifs <;> cases endpoint <;> rfl
    · exact ⟨l', h, rfl, fun _ => rfl⟩
  · exact ⟨l', h, rfl, fun _ => rfl⟩

theorem length_loads_complete (s : Dashboard B B B) (i : ℕ) :
    (s.step (.complete i)).2.loads.length = s.loads.length := by
  rw [Dashboard.step]
  split
  · split_ifs
    · exact List.length_modify _ _ _
    · rfl
  · rfl

/-- What is held after a step was held before, or is the value of a promise of the call that
ends. -/
theorem held_step {event : BrowserEvent} {endpoint : Endpoint} {r : ApiResponse B}
    (h : r ∈ (s.step json event).2.dashboard.held endpoint) :
    r ∈ s.dashboard.held endpoint ∨ ∃ i l, event = .complete i ∧
      s.dashboard.loads[i]? = some l ∧ (l.promise endpoint).value? = some r := by
  cases event with
  | change c =>
    rw [step, Dashboard.step] at h
    split_ifs at h
    · exact Or.inl h
    · left
      cases endpoint <;> exact h
  | network i endpoint' event =>
    left
    rw [step] at h
    split_ifs at h
    · rw [receive] at h
      dsimp only at h
      split at h
      · exact h
      · rw [Dashboard.step_settleAt] at h
        cases endpoint <;> exact h
    · exact h
  | complete i =>
    rw [step, Dashboard.step] at h
    split at h
    · rename_i l hl
      split_ifs at h
      · change r ∈ (s.dashboard.completeLoad i l).held endpoint at h
        rw [Dashboard.held_completeLoad, Settlement.store_eq] at h
        rcases Option.or_eq_some_iff.mp h with h | ⟨-, h⟩
        · exact Or.inr ⟨i, l, rfl, hl, h⟩
        · exact Or.inl h
      · exact Or.inl h
    · exact Or.inl h

/-! ## Promises follow their requests -/

/-- The promise of every call is that of its request, requests of calls that are not there yet have
not been sent, and the timers are sound. -/
structure Synced (s : Browser B) : Prop where
  promise : ∀ i l, s.dashboard.loads[i]? = some l → ∀ endpoint,
    l.promise endpoint = promiseOf (l.controls.request endpoint) (s.fetches i endpoint).result
  unsent : ∀ i, s.dashboard.loads.length ≤ i → ∀ endpoint, s.fetches i endpoint = .start
  timers : ∀ i endpoint, (s.fetches i endpoint).TimerSound

theorem promise_start (c : Controls) (endpoint : Endpoint) :
    (Load.start c : Load B B B).promise endpoint
      = promiseOf ((Load.start c : Load B B B).controls.request endpoint)
          (ApiFetch.start : ApiFetch B).result := by
  cases endpoint <;> rfl

theorem Synced.load : (load : Browser B).Synced where
  promise := by
    intro i l hl endpoint
    rw [List.mem_singleton.mp (List.mem_of_getElem? hl)]
    exact promise_start _ endpoint
  unsent _ _ _ := rfl
  timers _ _ := .start

/-- A call was started. -/
theorem Synced.loadData (h : s.Synced) (c : Controls) :
    (⟨(Dashboard.loadData { s.dashboard with controls := c }).2, s.fetches⟩ : Browser B).Synced
    where
  promise := by
    intro i l hl endpoint
    change (s.dashboard.loads ++ [Load.start c])[i]? = some l at hl
    rcases lt_or_ge i s.dashboard.loads.length with hi | hi
    · rw [List.getElem?_append_left hi] at hl
      exact h.promise i l hl endpoint
    · rw [List.getElem?_append_right hi] at hl
      rw [List.mem_singleton.mp (List.mem_of_getElem? hl), h.unsent i hi]
      exact promise_start c endpoint
  unsent := by
    intro i hi endpoint
    refine h.unsent i ?_ endpoint
    have hlength : (s.dashboard.loads ++ [Load.start c]).length ≤ i := hi
    rw [List.length_append] at hlength
    omega
  timers := h.timers

/-- Something reached a request. -/
theorem Synced.receive (h : s.Synced) (i : ℕ) (endpoint : Endpoint) (event : NetworkEvent)
    (hi : i < s.dashboard.loads.length) : (s.receive json i endpoint event).Synced where
  promise := by
    intro j l' hl' endpoint'
    rw [loads_receive, List.getElem?_modify] at hl'
    obtain ⟨l, hl, rfl⟩ := Option.map_eq_some_iff.mp hl'
    rw [fetches_receive]
    by_cases hij : i = j
    · subst hij
      rw [if_pos rfl, Function.update_self, Load.controls_follow]
      by_cases hend : endpoint' = endpoint
      · subst hend
        rw [Function.update_self]
        exact Load.promise_follow_self (h.promise i l hl endpoint') event
      · rw [Function.update_of_ne hend, Load.promise_follow_of_ne hend]
        exact h.promise i l hl endpoint'
    · rw [if_neg hij, Function.update_of_ne (Ne.symm hij)]
      exact h.promise j l hl endpoint'
  unsent := by
    intro j hj endpoint'
    rw [loads_receive, List.length_modify] at hj
    rw [fetches_receive, Function.update_of_ne (by omega)]
    exact h.unsent j hj endpoint'
  timers := by
    intro j endpoint'
    rw [fetches_receive]
    by_cases hij : j = i
    · subst hij
      rw [Function.update_self]
      by_cases hend : endpoint' = endpoint
      · subst hend
        rw [Function.update_self]
        exact (h.timers j endpoint').step event
      · rw [Function.update_of_ne hend]
        exact h.timers j endpoint'
    · rw [Function.update_of_ne hij]
      exact h.timers j endpoint'

/-- A call that ran to its end leaves the promises in step with the requests. -/
theorem Synced.complete (h : s.Synced) (i : ℕ) : (s.step json (.complete i)).2.Synced where
  promise := by
    intro j l' hl' endpoint
    obtain ⟨l, hl, hcontrols, hpromise⟩ := getElem?_loads_complete hl'
    rw [hcontrols, hpromise]
    exact h.promise j l hl endpoint
  unsent := by
    intro j hj endpoint
    exact h.unsent j (length_loads_complete s.dashboard i ▸ hj) endpoint
  timers := h.timers

theorem Synced.step (h : s.Synced) (event : BrowserEvent) : (s.step json event).2.Synced := by
  cases event with
  | change c =>
    rw [Browser.step, Dashboard.step]
    split_ifs
    · exact h
    · exact h.loadData c
  | network i endpoint event =>
    rw [Browser.step]
    split_ifs with hi
    · exact h.receive i endpoint event hi
    · exact h
  | complete i => exact h.complete i

/-! ## Where the responses come from -/

/-- Whatever the dashboard holds is the result of the request of a call, for the same controls. -/
def HeldSound (s : Browser B) : Prop :=
  ∀ endpoint, ∀ r ∈ s.dashboard.held endpoint, ∃ i l, s.dashboard.loads[i]? = some l ∧
    l.controls.request endpoint = r.request ∧ (s.fetches i endpoint).result = some (.ok r.body)

theorem HeldSound.load : (load : Browser B).HeldSound := by
  intro endpoint r hr
  cases endpoint <;> cases hr

/-- A response that was held before a step. -/
theorem HeldSound.keep (h : s.HeldSound) (event : BrowserEvent) {endpoint : Endpoint}
    {r : ApiResponse B} (hr : r ∈ s.dashboard.held endpoint) :
    ∃ i l, (s.step json event).2.dashboard.loads[i]? = some l ∧
      l.controls.request endpoint = r.request ∧
      ((s.step json event).2.fetches i endpoint).result = some (.ok r.body) := by
  obtain ⟨i, l, hl, hrequest, hresult⟩ := h endpoint r hr
  obtain ⟨l', hl', hcontrols⟩ := getElem?_loads json hl event
  exact ⟨i, l', hl', hcontrols ▸ hrequest, result_step hresult event⟩

theorem HeldSound.step (h : s.HeldSound) (hsynced : s.Synced) (event : BrowserEvent) :
    (s.step json event).2.HeldSound := by
  intro endpoint r hr
  rcases held_step hr with hr | ⟨i, l, rfl, hl, hr⟩
  · exact h.keep event hr
  · -- the value of a promise of the call that ends
    obtain ⟨l', hl', hcontrols⟩ := getElem?_loads json hl (.complete i)
    rw [hsynced.promise i l hl endpoint] at hr
    obtain ⟨hrequest, hresult⟩ := eq_ok_of_value?_promiseOf hr
    exact ⟨i, l', hl', by rw [hcontrols, hrequest], result_step hresult (.complete i)⟩

/-! ## What reached a request -/

/-- The events of a run that reached a request. -/
def eventsOf (i : ℕ) (endpoint : Endpoint) (trace : List BrowserEvent) : List NetworkEvent :=
  trace.filterMap fun
    | .network j endpoint' event => if j = i ∧ endpoint' = endpoint then some event else none
    | _ => none

theorem eventsOf_cons_self (i : ℕ) (endpoint : Endpoint) (event : NetworkEvent)
    (trace : List BrowserEvent) :
    eventsOf i endpoint (.network i endpoint event :: trace) = event :: eventsOf i endpoint trace :=
  List.filterMap_cons_some (if_pos ⟨rfl, rfl⟩)

theorem eventsOf_cons_of_ne {i : ℕ} {endpoint : Endpoint} {event : BrowserEvent}
    (h : ∀ e, event ≠ .network i endpoint e) (trace : List BrowserEvent) :
    eventsOf i endpoint (event :: trace) = eventsOf i endpoint trace := by
  refine List.filterMap_cons_none ?_
  cases event with
  | network j endpoint' e =>
    refine if_neg ?_
    rintro ⟨rfl, rfl⟩
    exact h e rfl
  | _ => rfl

/-- In a run of possible events, what a request awaits says what has reached it. -/
theorem reached_finalState {i : ℕ} {endpoint : Endpoint} {trace : List BrowserEvent}
    {events : List NetworkEvent} (hrun : Machine.EveryStep (step json) Possible s trace)
    (hsynced : s.Synced) (h : (s.fetches i endpoint).Reached json events) :
    ((Machine.finalState (step json) s trace).fetches i endpoint).Reached json
      (events ++ eventsOf i endpoint trace) := by
  induction trace generalizing s events with
  | nil => simpa [eventsOf] using h
  | cons event trace ih =>
    obtain ⟨hpossible, hrun⟩ := hrun
    rw [Machine.finalState_cons]
    by_cases haddressed : ∃ e, event = .network i endpoint e
    · -- the event reaches this request
      obtain ⟨e, rfl⟩ := haddressed
      have hnext : ((step json s (.network i endpoint e)).2.fetches i endpoint).Reached json
          (events ++ [e]) := by
        rw [step, if_pos hpossible.1, fetches_receive, Function.update_self, Function.update_self]
        exact h.step (hsynced.timers i endpoint) hpossible.2
      rw [eventsOf_cons_self, ← List.singleton_append, ← List.append_assoc]
      exact ih hrun (hsynced.step _) hnext
    · rw [eventsOf_cons_of_ne (not_exists.mp haddressed)]
      refine ih hrun (hsynced.step event) ?_
      rcases fetches_step json s event i endpoint with heq | ⟨e, he, -⟩
      · rw [heq]
        exact h
      · exact absurd ⟨e, he⟩ haddressed

/-- **What is shown came in time.** In every run of possible events, whatever the dashboard holds
answers the request of some call, and all that reached this request in the whole run are the head of
an `ok` response and the body that reads as what is held: it never failed, and its timer never ran
out. -/
theorem held_in_time (json : String → Except String B) {trace : List BrowserEvent}
    (hrun : Machine.EveryStep (step json) Possible load trace) {endpoint : Endpoint}
    {r : ApiResponse B}
    (hr : r ∈ (Machine.finalState (step json) load trace).dashboard.held endpoint) :
    ∃ i l, (Machine.finalState (step json) load trace).dashboard.loads[i]? = some l ∧
      l.controls.request endpoint = r.request ∧ ∃ status text,
        eventsOf i endpoint trace = [.head status, .body text] ∧ isOk status ∧
          json text = .ok r.body := by
  have hinv : (Machine.finalState (step json) load trace).Synced ∧
      (Machine.finalState (step json) load trace).HeldSound :=
    Machine.finalState_invariant (P := fun s : Browser B => s.Synced ∧ s.HeldSound)
      (fun s event _ h => ⟨h.1.step event, h.2.step h.1 event⟩) ⟨.load, .load⟩
  obtain ⟨i, l, hl, hrequest, hresult⟩ := hinv.2 endpoint r hr
  refine ⟨i, l, hl, hrequest, ?_⟩
  have hstart : ((load : Browser B).fetches i endpoint).Reached json [] := rfl
  have hreached := reached_finalState hrun .load hstart
  rw [ApiFetch.Reached, ApiFetch.phase_of_result hresult] at hreached
  exact hreached

/-- A first call whose generation request is answered while the others time out. -/
def answeredOnce : List BrowserEvent :=
  [.network 0 .generation (.head 200), .network 0 .forecast .timer,
    .network 0 .generation (.body "[]"), .network 0 .metrics .timer, .complete 0]

theorem held_in_time_answeredOnce :
    ∃ i l, (Machine.finalState (step .ok) (load : Browser String) answeredOnce).dashboard.loads[i]?
        = some l ∧
      l.controls.request .generation = Controls.initial.generationRequest ∧ ∃ status text,
        eventsOf i .generation answeredOnce = [.head status, .body text] ∧ isOk status ∧
          (.ok text : Except String String) = .ok "[]" := by
  have hrun : Machine.EveryStep (step .ok) Possible (load : Browser String) answeredOnce :=
    ⟨⟨by decide, rfl⟩, ⟨by decide, rfl⟩, ⟨by decide, Or.inl rfl⟩, ⟨by decide, rfl⟩, trivial,
      trivial⟩
  have hheld : (⟨Controls.initial.generationRequest, "[]"⟩ : ApiResponse String) ∈
      (Machine.finalState (step .ok) (load : Browser String) answeredOnce).dashboard.held
        .generation := rfl
  exact held_in_time (.ok : String → Except String String) hrun hheld

/-! ## The end of loading -/

/-- The call has not ended. -/
def InFlight (s : Browser B) (i : ℕ) : Prop :=
  ∃ l, s.dashboard.loads[i]? = some l ∧ l.done = false

/-- Without a change of the controls no call is started. -/
theorem InFlight.of_step (json : String → Except String B) {i : ℕ} {event : BrowserEvent}
    (hchange : ∀ c, event ≠ .change c) (h : (s.step json event).2.InFlight i) : s.InFlight i := by
  obtain ⟨l', hl', hdone⟩ := h
  rcases dashboard_step json s event with heq | ⟨e, heq, he⟩ <;> rw [heq] at hl'
  · exact ⟨l', hl', hdone⟩
  · rcases Dashboard.step_cases s.dashboard e with heq | ⟨c, hc, -, -⟩ | ⟨j, f, hf, heq⟩ |
      ⟨j, l, -, hl, -, -, heq⟩
    · rw [heq] at hl'
      exact ⟨l', hl', hdone⟩
    · exact absurd (he c hc) (hchange c)
    · rw [heq] at hl'
      obtain ⟨l, hl, hkeep⟩ := Dashboard.getElem?_modify_done hf.done hl'
      exact ⟨l, hl, hkeep.trans hdone⟩
    · rw [heq] at hl'
      exact ⟨l', ((Dashboard.getElem?_completeLoad hdone).mp hl').2, hdone⟩

theorem InFlight.of_finalState {i : ℕ} {trace : List BrowserEvent}
    (hchange : ∀ c, .change c ∉ trace)
    (h : (Machine.finalState (step json) s trace).InFlight i) : s.InFlight i := by
  induction trace generalizing s with
  | nil => exact h
  | cons event trace ih =>
    refine InFlight.of_step json ?_
      (ih (fun c hc => hchange c (List.mem_cons_of_mem _ hc)) h)
    rintro c rfl
    exact hchange c List.mem_cons_self

/-- A call whose requests have their results ends at its end. -/
theorem not_inFlight_complete (h : s.Synced) {i : ℕ}
    (hresults : ∀ endpoint, (s.fetches i endpoint).result.isSome) :
    ¬ (s.step json (.complete i)).2.InFlight i := by
  rintro ⟨l', hl', hdone⟩
  rw [step, Dashboard.step] at hl'
  cases hl : s.dashboard.loads[i]? with
  | none =>
    rw [hl] at hl'
    dsimp only at hl'
    rw [hl] at hl'
    cases hl'
  | some l =>
    have hsettled : l.allSettled = true := by
      refine Load.allSettled_iff_promise.mpr fun endpoint => ?_
      rw [h.promise i l hl endpoint, isSettled_promiseOf]
      exact hresults endpoint
    rw [hl] at hl'
    dsimp only at hl'
    split_ifs at hl' with hends
    · exact ((Dashboard.getElem?_completeLoad hdone).mp hl').1 rfl
    · -- it had ended before
      obtain rfl : l = l' := Option.some.inj (hl.symm.trans hl')
      simp [hsettled, hdone] at hends

/-- The requests of a call have results after a run in which their timers run out. -/
theorem isSome_result_finalState (h : s.Synced) {i : ℕ} (hi : i < s.dashboard.loads.length)
    {endpoint : Endpoint} {trace : List BrowserEvent}
    (htimer : .network i endpoint .timer ∈ trace) :
    ((Machine.finalState (step json) s trace).fetches i endpoint).result.isSome := by
  induction trace generalizing s with
  | nil => exact absurd htimer List.not_mem_nil
  | cons event trace ih =>
    rw [Machine.finalState_cons]
    rcases List.mem_cons.mp htimer with rfl | hmem
    · -- settled by its timer at the latest, and it stays so
      have hsome :
          ((step json s (.network i endpoint .timer)).2.fetches i endpoint).result.isSome := by
        rw [step, if_pos hi, fetches_receive, Function.update_self, Function.update_self]
        exact ApiFetch.isSome_result_timer (h.timers i endpoint)
      obtain ⟨r, hr⟩ := Option.isSome_iff_exists.mp hsome
      refine Option.isSome_iff_exists.mpr ⟨r, ?_⟩
      exact Machine.finalState_invariant
        (P := fun s : Browser B => (s.fetches i endpoint).result = some r)
        (fun s event _ h => result_step h event) hr
    · refine ih (h.step event) ?_ hmem
      obtain ⟨l, hl⟩ : ∃ l, s.dashboard.loads[i]? = some l := ⟨_, List.getElem?_eq_getElem hi⟩
      obtain ⟨l', hl', -⟩ := getElem?_loads json hl event
      exact (List.getElem?_eq_some_iff.mp hl').1

/-- Nothing is loading on an idle page. -/
def IdleSound (s : Browser B) : Prop := s.dashboard.Idle → s.dashboard.isLoading = false

theorem IdleSound.load : (load : Browser B).IdleSound :=
  fun hidle => absurd hidle (Dashboard.not_idle_loadData _)

theorem IdleSound.step (h : s.IdleSound) (event : BrowserEvent) :
    (s.step json event).2.IdleSound := by
  unfold IdleSound at h ⊢
  rcases dashboard_step json s event with heq | ⟨e, heq, -⟩ <;> rw [heq]
  · exact h
  · rcases Dashboard.step_cases s.dashboard e with heq | ⟨c, -, -, heq⟩ | ⟨j, f, hf, heq⟩ |
      ⟨j, l, -, -, -, -, heq⟩ <;> rw [heq]
    · exact h
    · exact fun hidle => absurd hidle (Dashboard.not_idle_loadData _)
    · exact fun hidle => h ((Dashboard.idle_modify hf.done).mp hidle)
    · exact fun _ => rfl

/-- **Loading ends.** After any run, once the timers of all requests of the calls in flight have run
out, and after that these calls have run to their ends, with no change of the controls and anything
else in between, nothing is in flight and the page is not loading. -/
theorem loading_ends (json : String → Except String B) (trace timers ends : List BrowserEvent)
    (htimers : ∀ i, (Machine.finalState (step json) load trace).InFlight i →
      ∀ endpoint, .network i endpoint .timer ∈ timers)
    (hends : ∀ i, (Machine.finalState (step json) load trace).InFlight i → .complete i ∈ ends)
    (hchange : ∀ c, .change c ∉ timers ++ ends) :
    (Machine.finalState (step json) load (trace ++ (timers ++ ends))).dashboard.Idle ∧
      (Machine.finalState (step json) load (trace ++ (timers ++ ends))).dashboard.isLoading
        = false := by
  have hsound : ∀ trace, (Machine.finalState (step json) (load : Browser B) trace).Synced ∧
      (Machine.finalState (step json) (load : Browser B) trace).IdleSound := fun trace =>
    Machine.finalState_invariant (P := fun s : Browser B => s.Synced ∧ s.IdleSound)
      (fun s event _ h => ⟨h.1.step event, h.2.step event⟩) ⟨.load, .load⟩
  suffices hidle : (Machine.finalState (step json) (load : Browser B)
      (trace ++ (timers ++ ends))).dashboard.Idle from ⟨hidle, (hsound _).2 hidle⟩
  rw [Dashboard.idle_iff]
  intro i l hl
  by_contra hdone
  rw [Bool.not_eq_true] at hdone
  have hlast : (Machine.finalState (step json) (load : Browser B)
      (trace ++ (timers ++ ends))).InFlight i := ⟨l, hl, hdone⟩
  rw [Machine.finalState_append] at hlast
  -- a call in flight at the end was in flight after the run
  have hfirst := hlast.of_finalState hchange
  obtain ⟨pre, post, rfl⟩ := List.append_of_mem (hends i hfirst)
  rw [Machine.finalState_append, Machine.finalState_append, Machine.finalState_cons] at hlast
  have hcomplete := hlast.of_finalState fun c hc => hchange c (by simp [hc])
  -- but its end came after its timers
  refine not_inFlight_complete ?_ (fun endpoint => ?_) hcomplete
  · rw [← Machine.finalState_append, ← Machine.finalState_append]
    exact (hsound _).1
  · rw [← Machine.finalState_append]
    refine isSome_result_finalState (hsound trace).1 ?_
      (List.mem_append_left pre (htimers i hfirst endpoint))
    obtain ⟨l, hl, -⟩ := hfirst
    exact (List.getElem?_eq_some_iff.mp hl).1

/-- The timers of the first call, from the last one to the first. -/
def firstTimers : List BrowserEvent :=
  [.network 0 .metrics .timer, .network 0 .forecast .timer, .network 0 .generation .timer]

/-- The first call meets only its timers. -/
theorem loading_ends_firstTimers :
    (Machine.finalState (step .ok) (load : Browser String)
      (firstTimers ++ [.complete 0])).dashboard.isLoading = false := by
  have hfirst : ∀ i, (load : Browser String).InFlight i → i = 0 := by
    rintro i ⟨l, hl, -⟩
    have hlt : i < 1 := (List.getElem?_eq_some_iff.mp hl).1
    omega
  refine (loading_ends (.ok : String → Except String String) [] firstTimers [.complete 0]
    ?_ ?_ ?_).2
  · intro i hi endpoint
    obtain rfl := hfirst i hi
    cases endpoint <;> decide
  · intro i hi
    obtain rfl := hfirst i hi
    decide
  · intro c
    simp [firstTimers]

end Browser

end WindSight
