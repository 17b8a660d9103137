import WindSight.Library.Machine

/-! # The requests of the API client

`apiFetch` sends a request and sets a timer of 15 seconds that aborts it. Its promise is settled by
the response, by a failure of the network or by the timer, whichever comes first, and the timer is
cleared then. So the timer is set exactly as long as the promise is pending (`TimerSound`), its end
leaves no promise pending (`isSome_result_timer`), and of a fulfilled request the head of an `ok`
response and its body are all that ever reached it (`Reached`). -/

namespace WindSight

/-! ## Errors -/

/-- What is thrown in the `try` of `apiFetch`: the `DOMException` of an aborted request, or an error
with a message. -/
inductive Thrown where
  | abortError
  | error (message : String)
  deriving DecidableEq, Repr

/-- The message of the error the `catch` throws on. -/
def Thrown.rethrown : Thrown → String
  | .abortError => "Request timed out. The server may be processing a large query."
  | .error message => message

/-- The message for a response that is not `ok`. -/
def statusMessage (status : ℕ) (errorBody : String) : String := s!"API error {status}: {errorBody}"

/-- `response.ok`. -/
def isOk (status : ℕ) : Bool := 200 ≤ status && status ≤ 299

/-! ## One request -/

/-- What a call of `apiFetch` awaits: the response, the text of a response that is not `ok`, or the
body of one that is; or it has ended. -/
inductive FetchPhase (α : Type) where
  | fetching
  | readingError (status : ℕ)
  | readingJson
  | settled (result : Except String α)

/-- A call of `apiFetch`, and whether its timer is set. -/
structure ApiFetch (α : Type) where
  phase : FetchPhase α
  timer : Bool

/-- What reaches a request: the head of a response, the whole of its body, a failure of the network,
or the end of the 15 seconds. -/
inductive NetworkEvent where
  | head (status : ℕ)
  | body (text : String)
  | failure (message : String)
  | timer
  deriving DecidableEq, Repr

namespace ApiFetch

variable {α : Type}

/-- A request that has just been sent. -/
def start : ApiFetch α := ⟨.fetching, true⟩

/-- The result, once the promise is settled. -/
def result (f : ApiFetch α) : Option (Except String α) :=
  match f.phase with
  | .settled result => some result
  | _ => none

/-- The call ends; `finally` clears the timer. -/
def finish (result : Except String α) : ApiFetch α := ⟨.settled result, false⟩

/-- An exception in the `try`. -/
def throw (e : Thrown) : ApiFetch α := finish (.error e.rethrown)

/-- What the call awaits is rejected. -/
def reject (f : ApiFetch α) (e : Thrown) : ApiFetch α :=
  match f.phase with
  | .fetching | .readingJson => throw e
  -- `response.text().catch(() => 'Unknown error')`
  | .readingError status => throw (.error (statusMessage status "Unknown error"))
  | .settled _ => f

/-- One step. `json` reads a body, or throws an error with a message. What cannot happen changes
nothing. -/
def step (json : String → Except String α) (f : ApiFetch α) : NetworkEvent → Unit × ApiFetch α
  | .head status =>
    match f.phase with
    | .fetching =>
      ((), { f with phase := if isOk status then .readingJson else .readingError status })
    | _ => ((), f)
  | .body text =>
    match f.phase with
    | .readingError status => ((), throw (.error (statusMessage status text)))
    | .readingJson =>
      match json text with
      | .ok value => ((), finish (.ok value))
      | .error message => ((), throw (.error message))
    | _ => ((), f)
  | .failure message => ((), f.reject (.error message))
  | .timer =>
    -- `controller.abort()`
    if f.timer then ((), { f with timer := false }.reject .abortError) else ((), f)

/-- The event can reach the request. -/
def Possible (f : ApiFetch α) : NetworkEvent → Prop
  | .head _ => f.phase = .fetching
  | .body _ => f.phase = .readingJson ∨ ∃ status, f.phase = .readingError status
  | .failure _ => f.result = none
  | .timer => f.timer = true

/-! ## Its steps -/

section Steps

variable {json : String → Except String α} {f : ApiFetch α} {r : Except String α}

theorem phase_of_result (h : f.result = some r) : f.phase = .settled r := by
  unfold result at h
  cases hphase : f.phase with
  | settled r' =>
    rw [hphase] at h
    rw [Option.some.inj h]
  | _ =>
    rw [hphase] at h
    cases h

/-- Rejecting what a call awaits ends it. -/
theorem isSome_result_reject (f : ApiFetch α) (e : Thrown) : (f.reject e).result.isSome := by
  unfold reject
  cases hphase : f.phase with
  | settled r => simp [result, hphase]
  | _ => rfl

/-- A settled promise stays as it is. -/
theorem result_step (h : f.result = some r) (event : NetworkEvent) :
    (f.step json event).2.result = some r := by
  have hphase := phase_of_result h
  cases event with
  | timer =>
    rw [step]
    split
    · simp [reject, result, hphase]
    · exact h
  | _ => simpa [step, reject, hphase] using h

/-- The timer is set exactly as long as the promise is pending. -/
def TimerSound (f : ApiFetch α) : Prop := f.timer = true ↔ f.result = none

theorem TimerSound.start : (start : ApiFetch α).TimerSound := iff_of_true rfl rfl

theorem TimerSound.finish (r : Except String α) : (finish r).TimerSound :=
  iff_of_false Bool.false_ne_true (Option.some_ne_none r)

theorem TimerSound.reject (h : f.TimerSound) (e : Thrown) : (f.reject e).TimerSound := by
  unfold ApiFetch.reject
  split
  · exact .finish _
  · exact .finish _
  · exact .finish _
  · exact h

theorem TimerSound.step (h : f.TimerSound) (event : NetworkEvent) :
    (f.step json event).2.TimerSound := by
  cases event with
  | head status =>
    rw [ApiFetch.step]
    cases hphase : f.phase with
    | fetching =>
      have htimer : f.timer = true := h.mpr (by simp [result, hphase])
      refine iff_of_true htimer ?_
      dsimp only [result]
      split_ifs <;> rfl
    | _ => exact h
  | body text =>
    rw [ApiFetch.step]
    cases hphase : f.phase with
    | readingError status => exact .finish _
    | readingJson =>
      dsimp only
      cases json text <;> exact .finish _
    | _ => exact h
  | failure message => exact h.reject _
  | timer =>
    rw [ApiFetch.step]
    split_ifs with htimer
    · -- the promise is pending, so it is rejected now
      have hnone := h.mp htimer
      unfold ApiFetch.reject
      cases hphase : f.phase with
      | settled r => simp [result, hphase] at hnone
      | _ => exact .finish _
    · exact h

/-- **The timer ends the call.** After the timer the promise is settled, whatever was awaited. -/
theorem isSome_result_timer (h : f.TimerSound) : (f.step json .timer).2.result.isSome := by
  rw [step]
  split_ifs with htimer
  · exact isSome_result_reject _ _
  · exact Option.isSome_iff_ne_none.mpr fun hnone => htimer (h.mpr hnone)

end Steps

/-! ## Its events -/

/-- The events are the head of an `ok` response and a body that reads as the value. -/
def AnsweredBy (json : String → Except String α) (events : List NetworkEvent) (value : α) : Prop :=
  ∃ status text, events = [.head status, .body text] ∧ isOk status ∧ json text = .ok value

/-- What has reached a request, by what it awaits. -/
def Reached (json : String → Except String α) (f : ApiFetch α) (events : List NetworkEvent) :
    Prop :=
  match f.phase with
  | .fetching => events = []
  | .readingError status => events = [.head status] ∧ ¬ isOk status
  | .readingJson => ∃ status, events = [.head status] ∧ isOk status
  | .settled (.ok value) => AnsweredBy json events value
  | .settled (.error _) => True

section Events

variable {json : String → Except String α} {f : ApiFetch α} {events : List NetworkEvent}

theorem reached_throw (e : Thrown) (events : List NetworkEvent) :
    Reached json (throw e : ApiFetch α) events :=
  trivial

/-- One more event keeps what is reached by a run. -/
theorem Reached.step (h : f.Reached json events) (hsound : f.TimerSound) {event : NetworkEvent}
    (hpossible : f.Possible event) : (f.step json event).2.Reached json (events ++ [event]) := by
  cases event with
  | head status =>
    have hphase : f.phase = .fetching := hpossible
    have hnil : events = [] := by simpa [Reached, hphase] using h
    subst hnil
    simp only [ApiFetch.step, hphase, Reached]
    by_cases hok : isOk status
    · simp [hok]
    · simp [hok]
  | body text =>
    rcases hpossible with hphase | ⟨status, hphase⟩
    · obtain ⟨status, rfl, hok⟩ : ∃ status, events = [.head status] ∧ isOk status := by
        simpa only [Reached, hphase] using h
      simp only [ApiFetch.step, hphase]
      cases hjson : json text with
      | ok value => exact ⟨status, text, rfl, hok, hjson⟩
      | error message => exact reached_throw _ _
    · simp only [ApiFetch.step, hphase]
      exact reached_throw _ _
  | failure message =>
    have hnone : f.result = none := hpossible
    simp only [ApiFetch.step, reject]
    cases hphase : f.phase with
    | settled r => simp [result, hphase] at hnone
    | _ => exact reached_throw _ _
  | timer =>
    have htimer : f.timer = true := hpossible
    have hnone := hsound.mp htimer
    simp only [ApiFetch.step, htimer, if_true, reject]
    cases hphase : f.phase with
    | settled r => simp [result, hphase] at hnone
    | _ => exact reached_throw _ _

end Events

end ApiFetch

end WindSight
