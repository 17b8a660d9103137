import WindSight.Pipeline.Convergence
import WindSight.Pipeline.DateText
import WindSight.Pipeline.FetchRetry
import WindSight.Pipeline.RecordRefinement

/-! # Ingestion over the network

`run_ingestion` down to its HTTP requests. The network is one sequence of attempts, which the
requests of the run meet in the order in which they are sent, retries included. Whatever it does,
the run sends boundedly many requests and ends (`http_cost`), and leaves the tables of a run over
typed responses (`http_refines`). Failures that are retried in time change nothing: a run over a
network with them leaves the tables and the errors of the run over the network without them
(`http_transparent`). -/

namespace WindSight.Records

open Fetch

/-! ## Requests -/

/-- `BMRS_BASE_URL`. -/
def bmrsBaseUrl : String := "https://data.elexon.co.uk/bmrs/api/v1"

/-- `FUELHH_ENDPOINT`. -/
def fuelhhEndpoint : String := bmrsBaseUrl ++ "/datasets/FUELHH/stream"

/-- `WINDFOR_ENDPOINT`. -/
def windforEndpoint : String := bmrsBaseUrl ++ "/datasets/WINDFOR/stream"

/-- `params` in `fetch_actual_generation`. -/
def fuelhhQuery (settlementDate : Date) : List (String × String) :=
  [("settlementDateFrom", strftime settlementDate), ("settlementDateTo", strftime settlementDate),
    ("fuelType", "WIND")]

/-- `params` in `fetch_wind_forecast`, for a day that `strptime` reads back from its text. -/
def windforQuery (settlementDate : Date) : List (String × String) :=
  [("publishDateTimeFrom", strftime (settlementDate - 2) ++ "T00:00:00Z"),
    ("publishDateTimeTo", strftime settlementDate ++ "T23:59:59Z")]

/-- A value of a response that is an object, as a record. -/
def asRecord : PyValue → Option Record
  | .dict items => some (items.foldl (fun d p => d.setItem p.1 p.2) .empty)
  | _ => none

/-! ## The run -/

/-- What a run is made with: how `json` reads, the retries, pandas, DuckDB and `save_parquet`; and
the texts of two kinds of exceptions, those that leave `fetch_with_retry` and those that pandas
raises on a list with anything else than objects. -/
structure Client (D : Type) where
  tok : Tokens
  config : RetryConfig
  pandas : Pandas D
  duck : DuckDb D
  saveParquet : String → Date → Frame D → Except String Unit
  fetchText : FetchError → String
  pandasText : List PyValue → String

/-- The state of a run: the tables and errors, the number of requests sent, and what was done. -/
structure HttpState (D : Type) where
  tables : RunState D
  sent : ℕ
  log : List FetchEvent

/-- After a call of `fetch_with_retry`. -/
def HttpState.after {D : Type} (events : List FetchEvent) (s : HttpState D) : HttpState D :=
  { s with sent := s.sent + requests events, log := s.log ++ events }

@[simp] theorem HttpState.tables_after {D : Type} (events : List FetchEvent) (s : HttpState D) :
    (s.after events).tables = s.tables := rfl

@[simp] theorem HttpState.sent_after {D : Type} (events : List FetchEvent) (s : HttpState D) :
    (s.after events).sent = s.sent + requests events := rfl

theorem HttpState.after_append {D : Type} (events events' : List FetchEvent) (s : HttpState D) :
    s.after (events ++ events') = (s.after events).after events' := by
  rw [after, requests_append, ← Nat.add_assoc, ← List.append_assoc]
  rfl

namespace Client

variable {D : Type} (client : Client D) (network : ℕ → Attempt)

/-- The records of a result of `fetch_with_retry`. -/
def readRecords : Except FetchError (List PyValue) → Except String (List Record)
  | .error e => .error (client.fetchText e)
  | .ok values =>
    match values.mapM asRecord with
    | some records => .ok records
    | none => .error (client.pandasText values)

/-- `fetch_with_retry`, on the attempts of the network from the next request on. -/
def fetch (sent : ℕ) (url : String) (params : List (String × String)) :
    List FetchEvent × Except String (List Record) :=
  let r := fetchWithRetry client.tok client.config url params fun j => network (sent + (j - 1))
  (r.1, client.readRecords r.2)

/-- One round of the loop over the batches. -/
def runBatch (s : HttpState D) (batch : Date × Date) : HttpState D :=
  let d := batch.1
  let fuelhh := client.fetch network s.sent fuelhhEndpoint (fuelhhQuery d)
  let s := s.after fuelhh.1
  match exec (ingestActual client.pandas client.duck (client.saveParquet "actual" d) fuelhh.2)
      s.tables.actual with
  | (.error e, actual) =>
    { s with tables := { s.tables with actual, errors := s.tables.errors ++ [(d, e)] } }
  | (.ok _, actual) =>
    let windfor := client.fetch network s.sent windforEndpoint (windforQuery d)
    let s := s.after windfor.1
    match exec (ingestForecast client.pandas client.duck (client.saveParquet "forecast" d)
        windfor.2) s.tables.forecast with
    | (.error e, forecast) => { s with tables := ⟨actual, forecast, s.tables.errors ++ [(d, e)]⟩ }
    | (.ok _, forecast) => { s with tables := ⟨actual, forecast, s.tables.errors⟩ }

/-- `run_ingestion` over two tables. -/
def runIngestion (cfg : IngestConfig) (actual : ActualTable D) (forecast : ForecastTable D) :
    Except BatchError (HttpState D) := do
  let batches ← generateDateBatches cfg.dataStartDate cfg.dataEndDate cfg.batchSizeDays
  return batches.foldl (client.runBatch network) ⟨⟨actual, forecast, []⟩, 0, []⟩

end Client

/-! ## One call of `fetch_with_retry` -/

section Call

variable (tok : Tokens) (config : RetryConfig) (url : String) (params : List (String × String))
  (attempts : ℕ → Attempt)

/-- What a call does: some retries, at most all of them, and one more request unless they are used
up. -/
theorem fetchWithRetry_events :
    ∃ n last, (fetchWithRetry tok config url params attempts).1
        = retries config url params n config.baseDelaySeconds ++ last ∧
      (last = [] ∧ n = config.maxRetries.toNat ∨
        last = [.get url params] ∧ n + 1 ≤ config.maxRetries.toNat) := by
  rcases conclusive_or_transient config attempts config.maxRetries.toNat with ⟨i, hle, hi⟩ | hall
  · obtain ⟨n, rfl⟩ := Nat.exists_eq_add_of_le' hi.1
    exact ⟨n, [.get url params], by rw [fetchWithRetry_conclusive hi hle], .inr ⟨rfl, hle⟩⟩
  · refine ⟨config.maxRetries.toNat, [], ?_, .inl ⟨rfl, rfl⟩⟩
    rw [fetchWithRetry_exhausted hall, List.append_nil]

/-- At most `max_retries` requests are sent. -/
theorem requests_fetchWithRetry_le :
    requests (fetchWithRetry tok config url params attempts).1 ≤ config.maxRetries.toNat := by
  obtain ⟨n, last, heq, ⟨rfl, rfl⟩ | ⟨rfl, hn⟩⟩ :=
    fetchWithRetry_events tok config url params attempts
  · rw [heq, requests_append, requests_retries]
    exact le_rfl
  · rw [heq, requests_append, requests_retries]
    exact hn

/-- All requests are the same. -/
theorem eq_of_get_mem_fetchWithRetry {url' : String} {params' : List (String × String)}
    (h : .get url' params' ∈ (fetchWithRetry tok config url params attempts).1) :
    url' = url ∧ params' = params := by
  obtain ⟨n, last, heq, hlast⟩ := fetchWithRetry_events tok config url params attempts
  rw [heq, List.mem_append] at h
  rcases h with h | h
  · obtain ⟨d, -, h⟩ := List.mem_flatMap.mp h
    simpa using h
  · rcases hlast with ⟨rfl, -⟩ | ⟨rfl, -⟩
    · exact absurd h List.not_mem_nil
    · simpa using h

/-- The request is sent, if any attempt is allowed. -/
theorem get_mem_fetchWithRetry (hmax : 1 ≤ config.maxRetries) :
    .get url params ∈ (fetchWithRetry tok config url params attempts).1 := by
  obtain ⟨n, last, heq, ⟨rfl, rfl⟩ | ⟨rfl, hn⟩⟩ :=
    fetchWithRetry_events tok config url params attempts
  · obtain ⟨n, hn⟩ := Nat.exists_eq_add_of_le' (show 1 ≤ config.maxRetries.toNat by omega)
    rw [heq, hn, retries, List.iterate, List.flatMap_cons]
    exact List.mem_append_left _ (List.mem_append_left _ List.mem_cons_self)
  · rw [heq]
    exact List.mem_append_right _ List.mem_cons_self

/-- The longest time a call can spend in pauses. -/
def pauseBudget : ℚ :=
  (List.iterate (nextDelay config) config.baseDelaySeconds config.maxRetries.toNat).sum

theorem nextDelay_nonneg {delay : ℚ} (h : 0 ≤ delay) : 0 ≤ nextDelay config delay :=
  le_min (mul_nonneg h config.delays_nonneg.2.2) config.delays_nonneg.2.1

/-- More pauses take longer. -/
theorem sum_iterate_nextDelay_le {n m : ℕ} (hnm : n ≤ m) {delay : ℚ} (h : 0 ≤ delay) :
    0 ≤ (List.iterate (nextDelay config) delay n).sum ∧
      (List.iterate (nextDelay config) delay n).sum
        ≤ (List.iterate (nextDelay config) delay m).sum := by
  induction m generalizing n delay with
  | zero =>
    obtain rfl := Nat.le_zero.mp hnm
    exact ⟨le_rfl, le_rfl⟩
  | succ m ih =>
    have hnext := nextDelay_nonneg config h
    cases n with
    | zero =>
      refine ⟨le_rfl, ?_⟩
      obtain ⟨-, hle⟩ := ih (Nat.zero_le m) hnext
      rw [List.iterate, List.iterate, List.sum_cons]
      exact add_nonneg h hle
    | succ n =>
      obtain ⟨hpos, hle⟩ := ih (Nat.succ_le_succ_iff.mp hnm) hnext
      rw [List.iterate, List.iterate, List.sum_cons, List.sum_cons]
      exact ⟨add_nonneg h hpos, (add_le_add_iff_left delay).mpr hle⟩

/-- The pauses of a call fit in its budget. -/
theorem sum_sleeps_fetchWithRetry_le :
    0 ≤ (sleeps (fetchWithRetry tok config url params attempts).1).sum ∧
      (sleeps (fetchWithRetry tok config url params attempts).1).sum ≤ pauseBudget config := by
  obtain ⟨n, last, heq, hlast⟩ := fetchWithRetry_events tok config url params attempts
  have hsleeps : sleeps last = [] ∧ n ≤ config.maxRetries.toNat := by
    rcases hlast with ⟨rfl, rfl⟩ | ⟨rfl, hn⟩
    · exact ⟨rfl, le_rfl⟩
    · exact ⟨rfl, Nat.le_of_succ_le hn⟩
  rw [heq, sleeps_append, sleeps_retries, hsleeps.1, List.append_nil]
  exact sum_iterate_nextDelay_le config hsleeps.2 config.delays_nonneg.1

end Call

/-- A batch over records meets what the world has for its day. -/
theorem runBatch_congr {D : Type} {pandas : Pandas D} {duck : DuckDb D}
    {world world' : Date → RecordEnv D} {batch : Date × Date}
    (h : world batch.1 = world' batch.1) (s : RunState D) :
    runBatch pandas duck world s batch = runBatch pandas duck world' s batch := by
  unfold runBatch
  dsimp only
  rw [h]

variable {D : Type}

namespace Client

variable (client : Client D)

/-! ## One batch -/

section Batch

variable (network : ℕ → Attempt) (s : HttpState D) (batch : Date × Date)

/-- The call for the actuals of a batch. -/
def fuelhh : List FetchEvent × Except String (List Record) :=
  client.fetch network s.sent fuelhhEndpoint (fuelhhQuery batch.1)

/-- The call for the forecasts of a batch, if it is made. -/
def windfor : List FetchEvent × Except String (List Record) :=
  client.fetch network (s.after (client.fuelhh network s batch).1).sent windforEndpoint
    (windforQuery batch.1)

/-- The records of the two calls of a batch. -/
def batchEnv : RecordEnv D where
  fuelhh _ := (client.fuelhh network s batch).2
  windfor _ := (client.windfor network s batch).2
  saveParquet := client.saveParquet

/-- What a batch does: an exception of the actuals keeps it from asking for the forecasts. -/
def batchEvents : List FetchEvent :=
  match (exec (ingestActual client.pandas client.duck (client.saveParquet "actual" batch.1)
    (client.fuelhh network s batch).2) s.tables.actual).1 with
  | .error _ => (client.fuelhh network s batch).1
  | .ok _ => (client.fuelhh network s batch).1 ++ (client.windfor network s batch).1

/-- **A batch over the network** leaves the tables of a batch over the records of its two calls. -/
theorem runBatch_eq :
    client.runBatch network s batch = { s.after (client.batchEvents network s batch) with
      tables := Records.runBatch client.pandas client.duck
        (fun _ => client.batchEnv network s batch) s.tables batch } := by
  have hfuelhh : client.fetch network s.sent fuelhhEndpoint (fuelhhQuery batch.1)
    = client.fuelhh network s batch := rfl
  have hwindfor : client.fetch network (s.after (client.fuelhh network s batch).1).sent
    windforEndpoint (windforQuery batch.1) = client.windfor network s batch := rfl
  unfold Client.runBatch Records.runBatch batchEvents batchEnv
  dsimp only
  rw [hfuelhh, hwindfor, HttpState.tables_after]
  rcases exec (ingestActual client.pandas client.duck (client.saveParquet "actual" batch.1)
    (client.fuelhh network s batch).2) s.tables.actual with ⟨e | n, actual⟩
  · rfl
  · dsimp only
    rw [HttpState.after_append, HttpState.tables_after, HttpState.tables_after]
    rcases exec (ingestForecast client.pandas client.duck (client.saveParquet "forecast" batch.1)
      (client.windfor network s batch).2) s.tables.forecast with ⟨e | n', forecast⟩ <;> rfl

theorem tables_runBatch :
    (client.runBatch network s batch).tables = Records.runBatch client.pandas client.duck
      (fun _ => client.batchEnv network s batch) s.tables batch := by
  rw [runBatch_eq]

end Batch

/-! ## Limits -/

/-- What a run over some batches may do: two calls for each, with their requests and pauses; it asks
for the actuals of each, and for nothing else than the actuals and forecasts of these. -/
structure Within (config : RetryConfig) (batches : List (Date × Date)) (events : List FetchEvent) :
    Prop where
  requests : requests events ≤ 2 * config.maxRetries.toNat * batches.length
  pauses : (sleeps events).sum ≤ 2 * pauseBudget config * batches.length
  asked : 1 ≤ config.maxRetries →
    ∀ b ∈ batches, .get fuelhhEndpoint (fuelhhQuery b.1) ∈ events
  only : ∀ url params, .get url params ∈ events → ∃ b ∈ batches,
    url = fuelhhEndpoint ∧ params = fuelhhQuery b.1 ∨
      url = windforEndpoint ∧ params = windforQuery b.1

theorem Within.nil (config : RetryConfig) : Within config [] [] where
  requests := le_rfl
  pauses := by simp [sleeps]
  asked _ b hb := absurd hb List.not_mem_nil
  only _ _ h := absurd h List.not_mem_nil

/-- The limits of batches add up. -/
theorem Within.append {config : RetryConfig} {batches batches' : List (Date × Date)}
    {events events' : List FetchEvent} (h : Within config batches events)
    (h' : Within config batches' events') :
    Within config (batches ++ batches') (events ++ events') where
  requests := by
    rw [requests_append, List.length_append, Nat.mul_add]
    exact Nat.add_le_add h.requests h'.requests
  pauses := by
    rw [sleeps_append, List.sum_append, List.length_append, Nat.cast_add, mul_add]
    exact add_le_add h.pauses h'.pauses
  asked hmax b hb := by
    rcases List.mem_append.mp hb with hb | hb
    · exact List.mem_append_left _ (h.asked hmax b hb)
    · exact List.mem_append_right _ (h'.asked hmax b hb)
  only url params hmem := by
    rcases List.mem_append.mp hmem with hmem | hmem
    · obtain ⟨b, hb, hb'⟩ := h.only url params hmem
      exact ⟨b, List.mem_append_left _ hb, hb'⟩
    · obtain ⟨b, hb, hb'⟩ := h'.only url params hmem
      exact ⟨b, List.mem_append_right _ hb, hb'⟩

/-- One call for the actuals of a batch, and perhaps one for its forecasts. -/
theorem batchEvents_cases (network : ℕ → Attempt) (s : HttpState D) (batch : Date × Date) :
    client.batchEvents network s batch = (client.fuelhh network s batch).1 ∨
      client.batchEvents network s batch
        = (client.fuelhh network s batch).1 ++ (client.windfor network s batch).1 := by
  unfold batchEvents
  cases (exec (ingestActual client.pandas client.duck (client.saveParquet "actual" batch.1)
    (client.fuelhh network s batch).2) s.tables.actual).1 with
  | error e => exact .inl rfl
  | ok n => exact .inr rfl

/-- The limits of one call. -/
structure CallWithin (config : RetryConfig) (url : String) (params : List (String × String))
    (events : List FetchEvent) : Prop where
  requests : requests events ≤ config.maxRetries.toNat
  pauses : 0 ≤ (sleeps events).sum ∧ (sleeps events).sum ≤ pauseBudget config
  asked : 1 ≤ config.maxRetries → .get url params ∈ events
  only : ∀ url' params', .get url' params' ∈ events → url' = url ∧ params' = params

theorem callWithin_fetch (network : ℕ → Attempt) (sent : ℕ) (url : String)
    (params : List (String × String)) :
    CallWithin client.config url params (client.fetch network sent url params).1 where
  requests := requests_fetchWithRetry_le _ _ _ _ _
  pauses := sum_sleeps_fetchWithRetry_le _ _ _ _ _
  asked := get_mem_fetchWithRetry _ _ _ _ _
  only _ _ := eq_of_get_mem_fetchWithRetry _ _ _ _ _

/-- A batch keeps to the limits of one batch. -/
theorem within_batchEvents (network : ℕ → Attempt) (s : HttpState D) (batch : Date × Date) :
    Within client.config [batch] (client.batchEvents network s batch) := by
  have hactual : CallWithin client.config fuelhhEndpoint (fuelhhQuery batch.1)
      (client.fuelhh network s batch).1 := client.callWithin_fetch network _ _ _
  have hforecast : CallWithin client.config windforEndpoint (windforQuery batch.1)
      (client.windfor network s batch).1 := client.callWithin_fetch network _ _ _
  obtain ⟨hsent, hpauses, hasked, honly⟩ := hactual
  obtain ⟨hsent', hpauses', -, honly'⟩ := hforecast
  rcases client.batchEvents_cases network s batch with heq | heq <;> rw [heq]
  · refine ⟨?_, ?_, ?_, ?_⟩
    · rw [List.length_singleton]
      omega
    · rw [List.length_singleton, Nat.cast_one]
      linarith
    · intro hmax b hb
      rw [List.mem_singleton.mp hb]
      exact hasked hmax
    · exact fun url params h => ⟨batch, List.mem_cons_self, .inl (honly url params h)⟩
  · refine ⟨?_, ?_, ?_, ?_⟩
    · rw [requests_append, List.length_singleton]
      omega
    · rw [sleeps_append, List.sum_append, List.length_singleton, Nat.cast_one]
      linarith
    · intro hmax b hb
      rw [List.mem_singleton.mp hb]
      exact List.mem_append_left _ (hasked hmax)
    · intro url params h
      refine ⟨batch, List.mem_cons_self, ?_⟩
      exact (List.mem_append.mp h).imp (honly url params) (honly' url params)

/-- The batches of a run keep to the limits of that many batches. -/
theorem within_foldl (network : ℕ → Attempt) (batches : List (Date × Date)) (s : HttpState D) :
    ∃ events, Within client.config batches events ∧
      (batches.foldl (client.runBatch network) s).log = s.log ++ events ∧
      (batches.foldl (client.runBatch network) s).sent = s.sent + requests events := by
  induction batches generalizing s with
  | nil => exact ⟨[], .nil _, (List.append_nil _).symm, rfl⟩
  | cons batch batches ih =>
    obtain ⟨events, hwithin, hlog, hsent⟩ := ih (client.runBatch network s batch)
    refine ⟨client.batchEvents network s batch ++ events,
      (client.within_batchEvents network s batch).append hwithin, ?_, ?_⟩
    · rw [List.foldl_cons, hlog, client.runBatch_eq, ← List.append_assoc]
      rfl
    · rw [List.foldl_cons, hsent, client.runBatch_eq, requests_append, ← Nat.add_assoc]
      rfl

end Client

/-! ## Failures that are retried -/

/-- `network` is `clean` with failures that are retried put in: the attempts that decide come at the
positions before `pos 1`, `pos 2`, …, after fewer than `max_retries` transient ones each. -/
structure Flaky (config : RetryConfig) (network clean : ℕ → Attempt) (pos : ℕ → ℕ) : Prop where
  start : pos 0 = 0
  decides : ∀ k, IsFirstConclusive config (fun j => network (pos k + (j - 1))) (pos (k + 1) - pos k)
  inTime : ∀ k, pos (k + 1) - pos k ≤ config.maxRetries.toNat
  same : ∀ k, network (pos (k + 1) - 1) = clean k

namespace Client

section Transparency

variable (client : Client D) {network clean : ℕ → Attempt} {pos : ℕ → ℕ}

/-- A call meets the next attempt that decides, at once or after some retries. -/
theorem fetch_flaky (h : Flaky client.config network clean pos) (k : ℕ) (url : String)
    (params : List (String × String)) :
    (client.fetch network (pos k) url params).2 = (client.fetch clean k url params).2 ∧
      pos k + requests (client.fetch network (pos k) url params).1
        = pos (k + requests (client.fetch clean k url params).1) := by
  have hdecides := h.decides k
  have hlast : pos k + (pos (k + 1) - pos k - 1) = pos (k + 1) - 1 := by
    have hpos := hdecides.1
    omega
  have hclean : IsFirstConclusive client.config (fun j => clean (k + (j - 1))) 1 := by
    refine ⟨le_rfl, ?_, fun j hpos hj => by omega⟩
    have hconclusive := hdecides.2.1
    dsimp only at hconclusive
    rwa [hlast, h.same] at hconclusive
  obtain ⟨hsent, hresult⟩ := @fetchWithRetry_of_reached client.tok client.config url params _ _
    hdecides (h.inTime k)
  obtain ⟨hsent', hresult'⟩ := @fetchWithRetry_of_reached client.tok client.config url params _ _
    hclean (hdecides.1.trans (h.inTime k))
  dsimp only [fetch]
  rw [hsent, hsent', hresult, hresult', hlast, h.same]
  refine ⟨rfl, ?_⟩
  have hpos := hdecides.1
  omega

/-- The two states: the same tables, and the requests of the one stand where those of the other
are. -/
def Aligned (pos : ℕ → ℕ) (s t : HttpState D) : Prop :=
  s.tables = t.tables ∧ s.sent = pos t.sent

/-- A batch over the two networks meets the same records, and stays aligned. -/
theorem Aligned.runBatch (h : Flaky client.config network clean pos) {s t : HttpState D}
    (hst : Aligned pos s t) (batch : Date × Date) :
    Aligned pos (client.runBatch network s batch) (client.runBatch clean t batch) := by
  obtain ⟨htables, hsent⟩ := hst
  -- the call for the actuals
  obtain ⟨hrecords, hnext⟩ :=
    client.fetch_flaky h t.sent fuelhhEndpoint (fuelhhQuery batch.1)
  have hactual : (client.fuelhh network s batch).2 = (client.fuelhh clean t batch).2 := by
    rw [fuelhh, fuelhh, hsent, hrecords]
  have hsent' : (s.after (client.fuelhh network s batch).1).sent
      = pos (t.after (client.fuelhh clean t batch).1).sent := by
    rw [HttpState.sent_after, HttpState.sent_after, fuelhh, fuelhh, hsent, hnext]
  -- the call for the forecasts
  obtain ⟨hrecords', hnext'⟩ := client.fetch_flaky h
    (t.after (client.fuelhh clean t batch).1).sent windforEndpoint (windforQuery batch.1)
  have hforecast : (client.windfor network s batch).2 = (client.windfor clean t batch).2 := by
    rw [windfor, windfor, hsent', hrecords']
  have henv : client.batchEnv network s batch = client.batchEnv clean t batch := by
    rw [batchEnv, batchEnv, hactual, hforecast]
  rw [client.runBatch_eq, client.runBatch_eq]
  refine ⟨by simp only [henv, htables], ?_⟩
  show (s.after (client.batchEvents network s batch)).sent
    = pos (t.after (client.batchEvents clean t batch)).sent
  unfold batchEvents
  rw [hactual, htables]
  rcases (exec (ingestActual client.pandas client.duck (client.saveParquet "actual" batch.1)
    (client.fuelhh clean t batch).2) t.tables.actual).1 with e | n
  · exact hsent'
  · rw [HttpState.after_append, HttpState.after_append, HttpState.sent_after _ (t.after _),
      HttpState.sent_after _ (s.after _), windfor, windfor, hsent', hnext']

/-- The batches of a run stay aligned over the two networks. -/
theorem Aligned.foldl (h : Flaky client.config network clean pos) (batches : List (Date × Date))
    {s t : HttpState D} (hst : Aligned pos s t) :
    Aligned pos (batches.foldl (client.runBatch network) s)
      (batches.foldl (client.runBatch clean) t) := by
  induction batches generalizing s t with
  | nil => exact hst
  | cons batch batches ih => exact ih (hst.runBatch client h batch)

end Transparency

/-! ## Runs over records -/

variable (client : Client D)

/-- The batches of a run, with distinct days, are batches over the records of their calls. -/
theorem exists_recordEnv (network : ℕ → Attempt) {batches : List (Date × Date)}
    (hnodup : (batches.map Prod.fst).Nodup) (s : HttpState D) :
    ∃ world : Date → RecordEnv D, (∀ d, (world d).saveParquet = client.saveParquet) ∧
      (batches.foldl (client.runBatch network) s).tables =
        batches.foldl (Records.runBatch client.pandas client.duck world) s.tables := by
  induction batches generalizing s with
  | nil => exact ⟨fun _ => client.batchEnv network s (0, 0), fun _ => rfl, rfl⟩
  | cons batch batches ih =>
    obtain ⟨hnew, hnodup⟩ := List.nodup_cons.mp hnodup
    obtain ⟨world, hsave, htables⟩ := ih hnodup (client.runBatch network s batch)
    refine ⟨Function.update world batch.1 (client.batchEnv network s batch), ?_, ?_⟩
    · intro d
      by_cases hd : d = batch.1
      · rw [hd, Function.update_self]
        rfl
      · rw [Function.update_of_ne hd, hsave]
    · -- the first batch meets its own records, and the others do not share its day
      have hfirst : Records.runBatch client.pandas client.duck
          (Function.update world batch.1 (client.batchEnv network s batch)) s.tables batch
            = (client.runBatch network s batch).tables := by
        rw [tables_runBatch]
        apply runBatch_congr
        rw [Function.update_self]
      rw [List.foldl_cons, List.foldl_cons, htables, hfirst]
      refine List.foldl_ext _ _ _ fun s' b hb => runBatch_congr ?_ s'
      rw [Function.update_of_ne]
      rintro heq
      exact hnew (heq ▸ List.mem_map_of_mem hb)

end Client

/-- **Limits of a run.** Whatever the network does, a run sends at most `2 * max_retries` requests
for each batch, makes pauses within two budgets of retries for each, asks for the actuals of every
batch, also after batches that failed, and for nothing but the actuals and forecasts of its days. -/
theorem http_cost (client : Client D) (network : ℕ → Attempt) {cfg : IngestConfig}
    {actual : ActualTable D} {forecast : ForecastTable D} {s : HttpState D}
    (h : client.runIngestion network cfg actual forecast = .ok s) :
    ∃ batches, generateDateBatches cfg.dataStartDate cfg.dataEndDate cfg.batchSizeDays
        = .ok batches ∧
      s.sent = requests s.log ∧ s.sent ≤ 2 * client.config.maxRetries.toNat * batches.length ∧
      (sleeps s.log).sum ≤ 2 * pauseBudget client.config * batches.length ∧
      (1 ≤ client.config.maxRetries →
        ∀ b ∈ batches, .get fuelhhEndpoint (fuelhhQuery b.1) ∈ s.log) ∧
      ∀ url params, .get url params ∈ s.log → ∃ b ∈ batches,
        url = fuelhhEndpoint ∧ params = fuelhhQuery b.1 ∨
          url = windforEndpoint ∧ params = windforQuery b.1 := by
  unfold Client.runIngestion at h
  cases hbatches : generateDateBatches cfg.dataStartDate cfg.dataEndDate cfg.batchSizeDays with
  | error e =>
    rw [hbatches] at h
    cases h
  | ok batches =>
    rw [hbatches] at h
    obtain rfl := Except.ok.inj h
    obtain ⟨events, hwithin, hlog, hsent⟩ :=
      client.within_foldl network batches ⟨⟨actual, forecast, []⟩, 0, []⟩
    rw [List.nil_append] at hlog
    rw [Nat.zero_add] at hsent
    rw [hlog, hsent]
    exact ⟨batches, rfl, rfl, hwithin.requests, hwithin.pauses, hwithin.asked, hwithin.only⟩

/-- **Runs over the network are runs over typed responses.** Whatever bytes and failures the network
delivers, there are typed responses with which `run_ingestion` leaves the same rows in both tables
and meets the same exceptions, if saving rejects frames with repeated names. -/
theorem http_refines (client : Client ℚ) (text : RecordError → String) (network : ℕ → Attempt)
    (hsave : ∀ d name df, client.saveParquet name d df = .ok () → df.names.Nodup)
    (cfg : IngestConfig) (actual : ActualTable ℚ) (forecast : ForecastTable ℚ) :
    ∃ world : Date → BatchEnv,
      (WindSight.runIngestion cfg world false (RunState.toDatabase ⟨actual, forecast, []⟩)).map
          (fun r => (r.2.db, r.2.errors))
        = (client.runIngestion network cfg actual forecast).map fun s =>
            (s.tables.toDatabase, s.tables.errors.map (Prod.map id text)) := by
  unfold Client.runIngestion
  cases hbatches : generateDateBatches cfg.dataStartDate cfg.dataEndDate cfg.batchSizeDays with
  | error e =>
    refine ⟨fun _ => responding (.ok []) (.ok []), ?_⟩
    unfold WindSight.runIngestion
    rw [hbatches]
    rfl
  | ok batches =>
    obtain ⟨world, hworld, htables⟩ := client.exists_recordEnv network
      (tiles_generateDateBatches hbatches).nodup_fst ⟨⟨actual, forecast, []⟩, 0, []⟩
    obtain ⟨world', hworld'⟩ := runIngestion_refines client.pandas client.duck text
      (fun d name df (hok : (world d).saveParquet name d df = .ok ()) =>
        hsave d name df (by rwa [hworld d] at hok))
    refine ⟨world', ?_⟩
    rw [hworld' cfg actual forecast]
    unfold runIngestion
    rw [hbatches]
    show Except.ok _ = Except.ok _
    dsimp only
    rw [htables]

/-- **Failures that are retried change nothing.** When transient failures are put into a network, at
any places and fewer than `max_retries` before each attempt that decides, the run leaves the same
tables and meets the same errors as without them. Only its requests stand at other places. -/
theorem http_transparent (client : Client D) {network clean : ℕ → Attempt} {pos : ℕ → ℕ}
    (h : Flaky client.config network clean pos) (cfg : IngestConfig) (actual : ActualTable D)
    (forecast : ForecastTable D) :
    (client.runIngestion network cfg actual forecast).map (fun s => (s.tables, s.sent)) =
      (client.runIngestion clean cfg actual forecast).map fun t => (t.tables, pos t.sent) := by
  unfold Client.runIngestion
  cases generateDateBatches cfg.dataStartDate cfg.dataEndDate cfg.batchSizeDays with
  | error e => rfl
  | ok batches =>
    obtain ⟨htables, hsent⟩ := Client.Aligned.foldl client h batches
      (s := ⟨⟨actual, forecast, []⟩, 0, []⟩) (t := ⟨⟨actual, forecast, []⟩, 0, []⟩)
      ⟨rfl, h.start.symm⟩
    exact congrArg Except.ok (Prod.ext htables hsent)

/-! ### A network that fails every other time -/

/-- With the defaults, a call pauses for half a minute at most. -/
example : pauseBudget retryConfig = 31 := by decide +kernel

/-- A run with the defaults. -/
def exampleClient : Client ℚ where
  tok := plainTokens
  config := retryConfig
  pandas := examplePandas
  duck := exampleDuckDb
  saveParquet _ _ := exampleParquet
  fetchText _ := "fetch failed"
  pandasText _ := "no frame"

/-- A response with one wind record. -/
def windBody : List Char :=
  ("[\x7b\"startTime\":\"2024-01-01T06:00:00Z\",\"settlementDate\":\"2024-01-01\"," ++
    "\"settlementPeriod\":13,\"generation\":5,\"fuelType\":\"WIND\"\x7d]").toList

/-- A response with one forecast. -/
def forecastBody : List Char :=
  ("[\x7b\"startTime\":\"2024-01-01T06:30:00Z\",\"publishTime\":\"2024-01-01T06:00:00Z\"," ++
    "\"generation\":4\x7d]").toList

/-- A wind record and a forecast for the first day, a `404`, which is not retried, for the second,
and no records for the others. -/
def fourDays : ℕ → Attempt
  | 0 => .response 200 windBody
  | 1 => .response 200 forecastBody
  | 2 => .response 404 []
  | _ => .response 200 ['[', ']']

/-- A `503` before each attempt of the four days. -/
def alternating (j : ℕ) : Attempt := if j % 2 = 0 then .response 503 [] else fourDays (j / 2)

theorem fourDays_decides (k : ℕ) : ¬ (fourDays k).Transient retryConfig := by
  rcases k with _ | _ | _ | k
  · decide
  · decide
  · decide
  · show ¬ (Attempt.response 200 ['[', ']']).Transient retryConfig
    decide

theorem alternating_odd (k : ℕ) : alternating (2 * k + 1) = fourDays k := by
  have hodd : (2 * k + 1) % 2 = 1 := by omega
  have hhalf : (2 * k + 1) / 2 = k := by omega
  rw [alternating, hodd, hhalf, if_neg one_ne_zero]

theorem flaky_alternating : Flaky retryConfig alternating fourDays (2 * ·) where
  start := rfl
  decides k := by
    have htwo : 2 * (k + 1) - 2 * k = 2 := by omega
    rw [htwo]
    refine ⟨by decide, ?_, ?_⟩
    · show ¬ (alternating (2 * k + 1)).Transient retryConfig
      rw [alternating_odd]
      exact fourDays_decides k
    · intro j hpos hj
      obtain rfl : j = 1 := by omega
      have hretried : (Attempt.response 503 []).Transient retryConfig := by decide
      have heven : alternating (2 * k) = .response 503 [] := if_pos (by omega)
      show (alternating (2 * k)).Transient retryConfig
      rwa [heven]
  inTime k := by
    have htwo : 2 * (k + 1) - 2 * k = 2 := by omega
    rw [htwo]
    decide
  same k := by
    have hodd : 2 * (k + 1) - 1 = 2 * k + 1 := by omega
    rw [hodd, alternating_odd]

/-- The run loads the record and the forecast, and fails for the second day. -/
theorem runIngestion_alternating :
    ∃ s, exampleClient.runIngestion alternating exampleDays .empty .empty = .ok s ∧
      s.tables.actual.rows = [⟨1704088800000000, 19723, 13, 5, "WIND"⟩] ∧
      s.tables.forecast.rows = [⟨1704090600000000, 1704088800000000, 4⟩] ∧
      s.tables.errors.map Prod.fst = [19724] := by
  have hrun : (exampleClient.runIngestion alternating exampleDays .empty .empty).map (fun s =>
      (s.tables.actual.rows, s.tables.forecast.rows, s.tables.errors.map Prod.fst))
        = .ok ([⟨1704088800000000, 19723, 13, 5, "WIND"⟩],
          [⟨1704090600000000, 1704088800000000, 4⟩], [19724]) := by
    decide +kernel
  obtain ⟨s, hs, hrows⟩ := map_eq_ok.mp hrun
  simp only [Prod.mk.injEq] at hrows
  exact ⟨s, hs, hrows⟩

/-- With twice as many requests the run leaves the same tables and errors as without the failures.
-/
theorem http_transparent_alternating :
    ∃ s t, exampleClient.runIngestion alternating exampleDays .empty .empty = .ok s ∧
      exampleClient.runIngestion fourDays exampleDays .empty .empty = .ok t ∧
      s.tables = t.tables ∧ s.sent = 2 * t.sent ∧ s.tables.actual.rows ≠ [] ∧
      s.tables.forecast.rows ≠ [] ∧ s.tables.errors ≠ [] := by
  have h := http_transparent exampleClient flaky_alternating exampleDays .empty .empty
  obtain ⟨s, hs, hactual, hforecast, herrors⟩ := runIngestion_alternating
  rw [hs] at h
  obtain ⟨t, ht, htables⟩ := map_eq_ok.mp h.symm
  obtain ⟨htables, hsent⟩ := Prod.mk.inj htables
  refine ⟨s, t, hs, ht, htables.symm, hsent.symm, ?_, ?_, ?_⟩
  · rw [hactual]
    exact List.cons_ne_nil _ _
  · rw [hforecast]
    exact List.cons_ne_nil _ _
  · rintro hnil
    rw [hnil] at herrors
    cases herrors

/-- A run over typed responses leaves the same rows and the same error. -/
theorem http_refines_alternating :
    ∃ world db errors, (WindSight.runIngestion exampleDays world false
          (RunState.toDatabase ⟨.empty, .empty, []⟩)).map (fun r => (r.2.db, r.2.errors))
        = .ok (db, errors) ∧
      db.actualGeneration.rows = [⟨1704088800000000, 19723, 13, 5, "WIND"⟩] ∧
      db.windForecast.rows = [⟨1704090600000000, 1704088800000000, 4⟩] ∧
      errors = [(19724, "not loaded")] := by
  have hsave : ∀ d name df, exampleClient.saveParquet name d df = .ok () → df.names.Nodup := by
    intro d name df hdf
    by_contra hrepeated
    have hraised : exampleParquet df = .error "Duplicate column names found" := if_neg hrepeated
    cases hraised.symm.trans hdf
  obtain ⟨world, h⟩ := http_refines exampleClient (fun _ => "not loaded") alternating hsave
    exampleDays .empty .empty
  obtain ⟨s, hs, hactual, hforecast, herrors⟩ := runIngestion_alternating
  rw [hs] at h
  refine ⟨world, _, _, h, ?_, ?_, ?_⟩
  · show s.tables.actual.rows.map StoredActual.toRow = _
    rw [hactual]
    rfl
  · show s.tables.forecast.rows.map StoredForecast.toRow = _
    rw [hforecast]
    rfl
  · have hfst : s.tables.errors.map (Prod.map id fun _ => "not loaded")
        = (s.tables.errors.map Prod.fst).map (·, "not loaded") := by
      rw [List.map_map]
      rfl
    rw [hfst, herrors]
    rfl

/-- The run sends at most forty requests for its four days, and one of them is for the day after the
one that failed. -/
theorem http_cost_alternating :
    ∃ s, exampleClient.runIngestion alternating exampleDays .empty .empty = .ok s ∧
      s.sent = requests s.log ∧ s.sent ≤ 40 ∧
      .get fuelhhEndpoint (fuelhhQuery 19725) ∈ s.log := by
  have hbatches : generateDateBatches exampleDays.dataStartDate exampleDays.dataEndDate
      exampleDays.batchSizeDays
        = .ok [(19723, 19723), (19724, 19724), (19725, 19725), (19726, 19726)] := by
    decide +kernel
  obtain ⟨s, hs, -⟩ := runIngestion_alternating
  obtain ⟨batches', hbatches', hsent, hle, -, hasked, -⟩ := http_cost exampleClient alternating hs
  obtain rfl := Except.ok.inj (hbatches.symm.trans hbatches')
  exact ⟨s, hs, hsent, hle, hasked (by decide) (19725, 19725) (by decide)⟩

end WindSight.Records
