import Mathlib.Data.List.Iterate
import WindSight.Pipeline.Fetch

/-! # Retries

Which attempt decides what `fetch_with_retry` returns, how many requests it sends, and when it
pauses. Attempts that are retried are peeled off the loop together (`fetchLoop_retries`); what is
left is an attempt that ends the loop, or no attempt at all. -/

namespace WindSight.Fetch

open Records

/-! ## Attempts -/

/-- A status of the configuration, or one of the three errors of the connection. -/
def Attempt.Transient (config : RetryConfig) : Attempt → Prop
  | .response statusCode _ =>
    ¬ (200 ≤ statusCode ∧ statusCode ≤ 299) ∧ statusCode ∈ config.retryStatusCodes
  | .raised e => e = .connectError ∨ e = .readTimeout ∨ e = .connectTimeout

instance (config : RetryConfig) : (a : Attempt) → Decidable (a.Transient config)
  | .response statusCode _ => inferInstanceAs (Decidable
      (¬ (200 ≤ statusCode ∧ statusCode ≤ 299) ∧ statusCode ∈ config.retryStatusCodes))
  | .raised e => inferInstanceAs (Decidable
      (e = .connectError ∨ e = .readTimeout ∨ e = .connectTimeout))

/-- The position, counted from one, of the first attempt that is not transient. -/
def IsFirstConclusive (config : RetryConfig) (attempts : ℕ → Attempt) (i : ℕ) : Prop :=
  1 ≤ i ∧ ¬ (attempts i).Transient config ∧ ∀ j, 1 ≤ j → j < i → (attempts j).Transient config

/-- Reading lines fails at a line that is no document. -/
theorem readLines_error {tok : Tokens} {lines : List (List Char)} {e : FetchError}
    (h : readLines tok lines = .error e) : ∃ doc, e = .jsonDecodeError doc := by
  induction lines with
  | nil => cases h
  | cons line lines ih =>
    simp only [readLines] at h
    split_ifs at h with hblank
    · exact ih h
    · rw [loads] at h
      cases hloads : JsonText.loads (TextLines.strip isSpace line) with
      | none =>
        rw [hloads] at h
        cases h
        exact ⟨_, rfl⟩
      | some v =>
        rw [hloads] at h
        cases hrest : readLines tok lines with
        | error e' =>
          rw [hrest] at h ih
          cases h
          exact ih rfl
        | ok records =>
          rw [hrest] at h
          cases h

/-- The only exception of reading a body is that of a text that is no document. -/
theorem readBody_error {tok : Tokens} {body : List Char} {e : FetchError}
    (h : readBody tok body = .error e) : ∃ doc, e = .jsonDecodeError doc := by
  simp only [readBody] at h
  split_ifs at h with hblank
  split at h
  · cases h
  · cases h
  · exact readLines_error h

/-- The transient attempts are those whose exception is retried. -/
theorem Attempt.transient_iff {tok : Tokens} {config : RetryConfig} {a : Attempt} :
    a.Transient config ↔ ∃ e, a.outcome tok = .error e ∧ e.retried config = true := by
  cases a with
  | raised e =>
    simp only [Attempt.Transient, Attempt.outcome]
    constructor
    · rintro (rfl | rfl | rfl) <;> exact ⟨_, rfl, rfl⟩
    · rintro ⟨e', he, hretried⟩
      cases he
      cases e with
      | connectError => exact .inl rfl
      | readTimeout => exact .inr (.inl rfl)
      | connectTimeout => exact .inr (.inr rfl)
      | other name => cases hretried
  | response statusCode text =>
    simp only [Attempt.Transient, Attempt.outcome, raiseForStatus]
    by_cases hstatus : 200 ≤ statusCode ∧ statusCode ≤ 299
    · rw [if_pos hstatus]
      constructor
      · intro h
        exact absurd hstatus h.1
      · rintro ⟨e, he, hretried⟩
        obtain ⟨doc, rfl⟩ := readBody_error (show readBody tok text = .error e from he)
        cases hretried
    · rw [if_neg hstatus]
      constructor
      · intro h
        exact ⟨_, rfl, List.contains_iff_mem.mpr h.2⟩
      · rintro ⟨e, he, hretried⟩
        cases he
        exact ⟨hstatus, List.contains_iff_mem.mp hretried⟩

/-! ## Peeling the loop -/

section Loop

variable {tok : Tokens} {config : RetryConfig} {url : String} {params : List (String × String)}
  {attempts : ℕ → Attempt}

/-- A transient attempt is a request and a pause, and the loop goes on. -/
theorem fetchLoop_transient (left : ℕ) {attempt : ℕ} (delay : ℚ)
    (h : (attempts attempt).Transient config) :
    fetchLoop tok config url params attempts (left + 1) attempt delay =
      let rest := fetchLoop tok config url params attempts left (attempt + 1)
        (nextDelay config delay)
      (.get url params :: .sleep delay :: rest.1, rest.2) := by
  obtain ⟨e, he, hretried⟩ := Attempt.transient_iff.mp h
  rw [fetchLoop, he]
  exact if_pos hretried

/-- An attempt that is not transient is the last request, and its outcome is the result. -/
theorem fetchLoop_conclusive (left : ℕ) {attempt : ℕ} (delay : ℚ)
    (h : ¬ (attempts attempt).Transient config) :
    fetchLoop tok config url params attempts (left + 1) attempt delay =
      ([.get url params], (attempts attempt).outcome tok) := by
  rw [fetchLoop]
  cases he : (attempts attempt).outcome tok with
  | ok records => rfl
  | error e =>
    refine if_neg ?_
    intro hretried
    exact h (Attempt.transient_iff.mpr ⟨e, he, hretried⟩)

/-- What is done for `n` attempts that are retried: a request and a pause for each. -/
def retries (config : RetryConfig) (url : String) (params : List (String × String)) (n : ℕ)
    (delay : ℚ) : List FetchEvent :=
  (List.iterate (nextDelay config) delay n).flatMap fun d => [.get url params, .sleep d]

/-- **Transient attempts are peeled off the loop together.** -/
theorem fetchLoop_retries (n left attempt : ℕ) (delay : ℚ)
    (h : ∀ j < n, (attempts (attempt + j)).Transient config) :
    fetchLoop tok config url params attempts (n + left) attempt delay =
      let rest := fetchLoop tok config url params attempts left (attempt + n)
        ((nextDelay config)^[n] delay)
      (retries config url params n delay ++ rest.1, rest.2) := by
  induction n generalizing attempt delay with
  | zero => simp [retries]
  | succ n ih =>
    have hfirst : (attempts attempt).Transient config := h 0 n.succ_pos
    have hrest : ∀ j < n, (attempts (attempt + 1 + j)).Transient config := by
      intro j hj
      rw [Nat.add_right_comm, Nat.add_assoc]
      exact h (j + 1) (Nat.succ_lt_succ hj)
    rw [Nat.add_right_comm, fetchLoop_transient _ _ hfirst, ih _ _ hrest]
    simp only [retries, List.iterate, List.flatMap_cons, List.cons_append, List.nil_append,
      Function.iterate_succ_apply]
    rw [Nat.add_right_comm attempt 1 n]
    rfl

/-- When every attempt of the loop is transient, each is followed by a pause, and the retries are
used up. -/
theorem fetchWithRetry_exhausted
    (h : ∀ j, 1 ≤ j → j ≤ config.maxRetries.toNat → (attempts j).Transient config) :
    fetchWithRetry tok config url params attempts =
      (retries config url params config.maxRetries.toNat config.baseDelaySeconds,
        .error (exhausted config url)) := by
  have hall : ∀ j < config.maxRetries.toNat, (attempts (1 + j)).Transient config := by
    intro j hj
    exact h (1 + j) (Nat.le_add_right 1 j) (by omega)
  have hpeel : fetchLoop tok config url params attempts (config.maxRetries.toNat + 0) 1
      config.baseDelaySeconds = _ := fetchLoop_retries _ 0 1 config.baseDelaySeconds hall
  rw [Nat.add_zero] at hpeel
  rw [fetchWithRetry, hpeel]
  simp only [fetchLoop, List.append_nil]

/-- When the first attempt that is not transient is one of the loop's, it is the last one, and
decides. -/
theorem fetchWithRetry_conclusive {n : ℕ} (h : IsFirstConclusive config attempts (n + 1))
    (hn : n + 1 ≤ config.maxRetries.toNat) :
    fetchWithRetry tok config url params attempts =
      (retries config url params n config.baseDelaySeconds ++ [.get url params],
        (attempts (n + 1)).outcome tok) := by
  obtain ⟨-, hlast, hbefore⟩ := h
  have hall : ∀ j < n, (attempts (1 + j)).Transient config := by
    intro j hj
    exact hbefore (1 + j) (Nat.le_add_right 1 j) (by omega)
  obtain ⟨left, hleft⟩ := Nat.exists_eq_add_of_le hn
  have hpeel : fetchLoop tok config url params attempts (n + (left + 1)) 1
      config.baseDelaySeconds = _ := fetchLoop_retries n _ 1 config.baseDelaySeconds hall
  rw [fetchWithRetry, hleft, show n + 1 + left = n + (left + 1) by omega, hpeel, Nat.add_comm 1 n,
    fetchLoop_conclusive left _ hlast]

end Loop

/-! ## The deciding attempt -/

/-- A request, not a pause. -/
def FetchEvent.isGet : FetchEvent → Bool
  | .get _ _ => true
  | .sleep _ => false

/-- The number of requests sent. -/
def requests (events : List FetchEvent) : ℕ := events.countP FetchEvent.isGet

/-- The lengths of the pauses. -/
def sleeps (events : List FetchEvent) : List ℚ :=
  events.filterMap fun
    | .get _ _ => none
    | .sleep seconds => some seconds

theorem requests_append (events events' : List FetchEvent) :
    requests (events ++ events') = requests events + requests events' :=
  List.countP_append

theorem sleeps_append (events events' : List FetchEvent) :
    sleeps (events ++ events') = sleeps events ++ sleeps events' :=
  List.filterMap_append

section Retries

variable (config : RetryConfig) (url : String) (params : List (String × String)) (n : ℕ)
  (delay : ℚ)

@[simp] theorem requests_retries : requests (retries config url params n delay) = n := by
  induction n generalizing delay with
  | zero => rfl
  | succ n ih =>
    rw [retries, List.iterate, List.flatMap_cons, requests_append, ← retries, ih]
    exact Nat.add_comm 1 n

@[simp] theorem sleeps_retries :
    sleeps (retries config url params n delay) = List.iterate (nextDelay config) delay n := by
  induction n generalizing delay with
  | zero => rfl
  | succ n ih =>
    rw [retries, List.iterate, List.flatMap_cons, sleeps_append, ← retries, ih]
    rfl

end Retries

/-- Among the first `n` attempts one comes first that is not transient, or all are transient. -/
theorem conclusive_or_transient (config : RetryConfig) (attempts : ℕ → Attempt) (n : ℕ) :
    (∃ i ≤ n, IsFirstConclusive config attempts i) ∨
      ∀ j, 1 ≤ j → j ≤ n → (attempts j).Transient config := by
  induction n with
  | zero =>
    right
    intro j hpos hj
    omega
  | succ n ih =>
    rcases ih with ⟨i, hle, hi⟩ | hall
    · exact .inl ⟨i, by omega, hi⟩
    · by_cases hlast : (attempts (n + 1)).Transient config
      · right
        intro j hpos hj
        rcases Nat.le_succ_iff.mp hj with hj | rfl
        exacts [hall j hpos hj, hlast]
      · exact .inl ⟨n + 1, le_rfl, Nat.succ_pos n, hlast,
          fun j hpos hj => hall j hpos (Nat.lt_succ_iff.mp hj)⟩

section Exits

variable {tok : Tokens} {config : RetryConfig} {url : String} {params : List (String × String)}
  {attempts : ℕ → Attempt}

/-- The loop ends with the first attempt that is not transient, if it reaches it. -/
theorem fetchWithRetry_of_reached {i : ℕ} (hi : IsFirstConclusive config attempts i)
    (hle : i ≤ config.maxRetries.toNat) :
    requests (fetchWithRetry tok config url params attempts).1 = i ∧
      (fetchWithRetry tok config url params attempts).2 = (attempts i).outcome tok := by
  obtain ⟨n, rfl⟩ := Nat.exists_eq_add_of_le' hi.1
  rw [fetchWithRetry_conclusive hi hle, requests_append, requests_retries]
  exact ⟨rfl, rfl⟩

/-- The loop uses up the retries if all its attempts are transient. -/
theorem fetchWithRetry_of_transient
    (hall : ∀ j, 1 ≤ j → j ≤ config.maxRetries.toNat → (attempts j).Transient config) :
    requests (fetchWithRetry tok config url params attempts).1 = config.maxRetries.toNat ∧
      (fetchWithRetry tok config url params attempts).2 = .error (exhausted config url) := by
  rw [fetchWithRetry_exhausted hall, requests_retries]
  exact ⟨rfl, rfl⟩

end Exits

/-- **The first attempt that is not transient decides.** If the loop reaches it, it is the last
request and its records or its exception are the result; else the loop sends `max_retries` requests
and raises `RuntimeError`. Records come from no other attempt. -/
theorem fetchWithRetry_decides (tok : Tokens) (config : RetryConfig) (url : String)
    (params : List (String × String)) (attempts : ℕ → Attempt) :
    let run := fetchWithRetry tok config url params attempts
    (∀ i, IsFirstConclusive config attempts i →
      requests run.1 = min i config.maxRetries.toNat ∧
        ((i : ℤ) ≤ config.maxRetries → run.2 = (attempts i).outcome tok) ∧
        (config.maxRetries < i → run.2 = .error (exhausted config url))) ∧
      ((∀ i, 1 ≤ i → (attempts i).Transient config) →
        requests run.1 = config.maxRetries.toNat ∧
          run.2 = .error (exhausted config url)) ∧
      ∀ records, run.2 = .ok records →
        ∃ i, IsFirstConclusive config attempts i ∧ (i : ℤ) ≤ config.maxRetries ∧
          (attempts i).outcome tok = .ok records := by
  intro run
  refine ⟨?_, ?_, ?_⟩
  · intro i hi
    by_cases hle : i ≤ config.maxRetries.toNat
    · obtain ⟨hcount, hresult⟩ := fetchWithRetry_of_reached hi hle
      refine ⟨hcount.trans (Nat.min_eq_left hle).symm, fun _ => hresult, ?_⟩
      intro hlt
      have hpos := hi.1
      omega
    · have hbefore : ∀ j, 1 ≤ j → j ≤ config.maxRetries.toNat →
          (attempts j).Transient config := by
        intro j hpos hj
        exact hi.2.2 j hpos (by omega)
      obtain ⟨hcount, hresult⟩ := fetchWithRetry_of_transient hbefore
      refine ⟨hcount.trans (Nat.min_eq_right (by omega)).symm, ?_, fun _ => hresult⟩
      intro hge
      omega
  · intro hall
    exact fetchWithRetry_of_transient fun j hpos _ => hall j hpos
  · intro records hok
    rcases conclusive_or_transient config attempts config.maxRetries.toNat with
      ⟨i, hle, hi⟩ | hall
    · have hpos := hi.1
      exact ⟨i, hi, by omega, (fetchWithRetry_of_reached hi hle).2.symm.trans hok⟩
    · have herror := (fetchWithRetry_of_transient hall).2.symm.trans hok
      cases herror

/-- One `503`, and then an empty day. -/
def unavailableOnce : ℕ → Attempt
  | 0 | 1 => .response 503 []
  | _ + 2 => .response 200 ['[', ']']

theorem fetchWithRetry_decides_unavailableOnce :
    let run := fetchWithRetry plainTokens retryConfig "windfor" [] unavailableOnce
    requests run.1 = 2 ∧ run.2 = (unavailableOnce 2).outcome plainTokens := by
  have hfirst : IsFirstConclusive retryConfig unavailableOnce 2 := by
    refine ⟨by decide, by decide, ?_⟩
    intro j hpos hj
    obtain rfl : j = 1 := by omega
    decide
  obtain ⟨hcount, hresult, -⟩ :=
    (fetchWithRetry_decides plainTokens retryConfig "windfor" [] unavailableOnce).1 2 hfirst
  exact ⟨hcount, hresult (by decide)⟩

/-! ## Pauses -/

/-- Requests, with one pause between each and the next. -/
inductive Alternating : List FetchEvent → Prop
  | none : Alternating []
  | last (url : String) (params : List (String × String)) : Alternating [.get url params]
  | pause (url : String) (params : List (String × String)) (seconds : ℚ)
      {events : List FetchEvent} (h : Alternating events) (hne : events ≠ []) :
      Alternating (.get url params :: .sleep seconds :: events)

/-- Exponential backoff: pauses stand between the requests only, and their lengths grow by the
factor up to the maximum. -/
structure BackoffDiscipline (config : RetryConfig) (events : List FetchEvent) : Prop where
  alternating : Alternating events
  count : (sleeps events).length = requests events - 1
  duration : ∀ k d, (sleeps events)[k]? = some d →
    d = min (config.baseDelaySeconds * config.backoffFactor ^ k) config.maxDelaySeconds
  nondecreasing : (sleeps events).Pairwise (· ≤ ·)
  capped : ∀ d ∈ sleeps events, d ≤ config.maxDelaySeconds

section Backoff

variable {config : RetryConfig}

/-- The delay is capped at each step, which is as good as capping the power. -/
theorem iterate_nextDelay (hbase : 0 < config.baseDelaySeconds)
    (hmax : config.baseDelaySeconds ≤ config.maxDelaySeconds) (hfactor : 1 ≤ config.backoffFactor)
    (k : ℕ) :
    (nextDelay config)^[k] config.baseDelaySeconds =
      min (config.baseDelaySeconds * config.backoffFactor ^ k) config.maxDelaySeconds := by
  induction k with
  | zero => simp [hmax]
  | succ k ih =>
    rw [Function.iterate_succ_apply', ih, nextDelay, pow_succ, ← mul_assoc]
    have hmax₀ : 0 ≤ config.maxDelaySeconds := hbase.le.trans hmax
    have hpow : 0 ≤ config.baseDelaySeconds * config.backoffFactor ^ k := by positivity
    rcases le_total (config.baseDelaySeconds * config.backoffFactor ^ k) config.maxDelaySeconds
      with hle | hge
    · rw [min_eq_left hle]
    · -- once at the maximum, the delay stays there
      rw [min_eq_right hge, min_eq_right (le_mul_of_one_le_right hmax₀ hfactor),
        min_eq_right (hge.trans (le_mul_of_one_le_right hpow hfactor))]

/-- The lengths of `n` pauses satisfy the discipline. -/
theorem iterate_discipline (hbase : 0 < config.baseDelaySeconds)
    (hmax : config.baseDelaySeconds ≤ config.maxDelaySeconds) (hfactor : 1 ≤ config.backoffFactor)
    (n : ℕ) :
    let ds := List.iterate (nextDelay config) config.baseDelaySeconds n
    (∀ k d, ds[k]? = some d →
        d = min (config.baseDelaySeconds * config.backoffFactor ^ k) config.maxDelaySeconds) ∧
      ds.Pairwise (· ≤ ·) ∧ ∀ d ∈ ds, d ≤ config.maxDelaySeconds := by
  intro ds
  have hget : ∀ k d, ds[k]? = some d →
      d = min (config.baseDelaySeconds * config.backoffFactor ^ k) config.maxDelaySeconds := by
    intro k d hd
    obtain ⟨hk, rfl⟩ := List.getElem?_eq_some_iff.mp hd
    rw [← iterate_nextDelay hbase hmax hfactor]
    exact List.getElem_iterate ..
  refine ⟨hget, ?_, ?_⟩
  · rw [List.pairwise_iff_getElem]
    intro i j hi hj hij
    rw [hget i _ (List.getElem?_eq_getElem hi), hget j _ (List.getElem?_eq_getElem hj)]
    gcongr
  · intro d hd
    obtain ⟨k, hk, rfl⟩ := List.getElem_of_mem hd
    rw [hget k _ (List.getElem?_eq_getElem hk)]
    exact min_le_right _ _

/-- A request after the retries is the one after the last pause. -/
theorem alternating_retries (url : String) (params : List (String × String)) (n : ℕ) (delay : ℚ) :
    Alternating (retries config url params n delay ++ [.get url params]) := by
  induction n generalizing delay with
  | zero => exact .last url params
  | succ n ih =>
    have hne : retries config url params n (nextDelay config delay) ++ [.get url params] ≠ [] :=
      List.append_ne_nil_of_right_ne_nil _ (List.cons_ne_nil _ _)
    exact .pause url params delay (ih (nextDelay config delay)) hne

/-- **The pauses keep the discipline exactly when the last request is not retried**: when there is
none, or an attempt of the loop is not transient. Else a pause follows the last request. -/
theorem backoffDiscipline_iff (tok : Tokens) (url : String) (params : List (String × String))
    (attempts : ℕ → Attempt) (hbase : 0 < config.baseDelaySeconds)
    (hmax : config.baseDelaySeconds ≤ config.maxDelaySeconds)
    (hfactor : 1 ≤ config.backoffFactor) :
    BackoffDiscipline config (fetchWithRetry tok config url params attempts).1 ↔
      config.maxRetries ≤ 0 ∨
        ∃ i : ℕ, 1 ≤ i ∧ (i : ℤ) ≤ config.maxRetries ∧ ¬ (attempts i).Transient config := by
  rcases conclusive_or_transient config attempts config.maxRetries.toNat with ⟨i, hle, hi⟩ | hall
  · obtain ⟨n, rfl⟩ := Nat.exists_eq_add_of_le' hi.1
    obtain ⟨hduration, hmono, hcapped⟩ := iterate_discipline hbase hmax hfactor n
    rw [fetchWithRetry_conclusive hi hle]
    have hsleeps : sleeps (retries config url params n config.baseDelaySeconds ++
        [.get url params]) = List.iterate (nextDelay config) config.baseDelaySeconds n := by
      rw [sleeps_append, sleeps_retries]
      exact List.append_nil _
    constructor
    · intro _
      exact .inr ⟨n + 1, hi.1, by omega, hi.2.1⟩
    · intro _
      refine ⟨alternating_retries url params n _, ?_, ?_, ?_, ?_⟩
      · rw [hsleeps, List.length_iterate, requests_append, requests_retries]
        rfl
      · rwa [hsleeps]
      · rwa [hsleeps]
      · rwa [hsleeps]
  · rw [fetchWithRetry_exhausted hall]
    constructor
    · intro h
      -- as many pauses as requests are one too many, unless there are none
      have hcount := h.count
      rw [sleeps_retries, requests_retries, List.length_iterate] at hcount
      left
      omega
    · rintro (hzero | ⟨i, hpos, hi, hnot⟩)
      · rw [Int.toNat_of_nonpos hzero]
        exact ⟨.none, rfl, nofun, .nil, nofun⟩
      · exact absurd (hall i hpos (by omega)) hnot

end Backoff

theorem backoffDiscipline_iff_unavailableOnce :
    BackoffDiscipline retryConfig
      (fetchWithRetry plainTokens retryConfig "windfor" [] unavailableOnce).1 :=
  (backoffDiscipline_iff plainTokens "windfor" [] unavailableOnce (by decide) (by decide)
    (by decide)).mpr (.inr ⟨2, by decide, by decide, by decide⟩)

/-- A server that is down for all five attempts: the fifth pause is followed by no request. -/
theorem not_backoffDiscipline_down :
    ¬ BackoffDiscipline retryConfig
      (fetchWithRetry plainTokens retryConfig "windfor" [] fun _ => .response 503 []).1 := by
  intro h
  have hdown :
      fetchWithRetry plainTokens retryConfig "windfor" [] (fun _ => .response 503 []) = _ :=
    fetchWithRetry_exhausted fun _ _ _ => by decide
  have hcount := h.count
  rw [hdown, sleeps_retries, requests_retries, List.length_iterate] at hcount
  exact absurd hcount (by decide)

end WindSight.Fetch
