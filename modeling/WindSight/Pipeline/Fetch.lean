import WindSight.Library.JsonReader
import WindSight.Library.TextLines
import WindSight.Pipeline.Records

/-! # Fetching

`fetch_with_retry`: send the request, read the body as JSON or as JSON lines, and try again after a
pause when the status or the connection suggests it. What the server and the network do is a
sequence of attempts; the function logs the requests it sends and the pauses it makes. How `json`
reads the text of a string and of a number is a parameter. -/

namespace WindSight.Fetch

open Records TextLines

/-! ## Configuration -/

/-- `RetryConfig`. Delays are in seconds; `time.sleep` refuses negative ones. -/
structure RetryConfig where
  maxRetries : ℤ
  baseDelaySeconds : ℚ
  maxDelaySeconds : ℚ
  backoffFactor : ℚ
  retryStatusCodes : List ℕ
  delays_nonneg : 0 ≤ baseDelaySeconds ∧ 0 ≤ maxDelaySeconds ∧ 0 ≤ backoffFactor

/-- `RETRY_CONFIG`: the defaults. -/
def retryConfig : RetryConfig where
  maxRetries := 5
  baseDelaySeconds := 1
  maxDelaySeconds := 60
  backoffFactor := 2
  retryStatusCodes := [429, 500, 502, 503, 504]
  delays_nonneg := by norm_num

/-! ## Exceptions -/

/-- An exception of the HTTP client. -/
inductive ClientError where
  | connectError
  | readTimeout
  | connectTimeout
  | other (name : String)
  deriving DecidableEq, Repr

/-- An exception that leaves `fetch_with_retry`, or that it handles. -/
inductive FetchError where
  | httpStatusError (statusCode : ℕ)
  | client (e : ClientError)
  | jsonDecodeError (doc : String)
  | runtimeError (message : String)
  deriving DecidableEq, Repr

/-- The exceptions after which the request is sent again: a status of the configuration, or one of
the three of the connection. -/
def FetchError.retried (config : RetryConfig) : FetchError → Bool
  | .httpStatusError statusCode => config.retryStatusCodes.contains statusCode
  | .client .connectError | .client .readTimeout | .client .connectTimeout => true
  | .client (.other _) | .jsonDecodeError _ | .runtimeError _ => false

/-! ## Reading JSON -/

/-- How `json` reads the text between the quotes of a string, and the text of a number. -/
structure Tokens where
  string : List Char → String
  number : List Char → PyValue

/-- Strings without escapes, and natural numbers. -/
def plainTokens : Tokens where
  string := String.ofList
  number t := .int (t.foldl (fun n c => 10 * n + (c.toNat - '0'.toNat : ℕ)) 0)

/-- What `json` reads for a constant. -/
def literalValue : JsonText.Literal → PyValue
  | .null => .null
  | .true => .bool true
  | .false => .bool false
  | .nan => .nan
  | .infinity => .infinity false
  | .negInfinity => .infinity true

/-- `dict(pairs)`: a repeated key keeps its place and takes the later value. -/
def ofPairs (pairs : List (String × PyValue)) : List (String × PyValue) :=
  (pairs.foldl (fun d p => d.setItem p.1 p.2) OrderedDict.empty).entries

mutual

/-- The value of a document. -/
def decode (tok : Tokens) : JsonText.Json → PyValue
  | .literal l => literalValue l
  | .number t => tok.number t
  | .str t => .str (tok.string t)
  | .array items => .list (decodeItems tok items)
  | .object members => .dict (ofPairs (decodeMembers tok members))

/-- The values of the elements of an array. -/
def decodeItems (tok : Tokens) : List JsonText.Json → List PyValue
  | [] => []
  | v :: vs => decode tok v :: decodeItems tok vs

/-- The keys and values of the members of an object. -/
def decodeMembers (tok : Tokens) : List (List Char × JsonText.Json) → List (String × PyValue)
  | [] => []
  | (k, v) :: ms => (tok.string k, decode tok v) :: decodeMembers tok ms

end

theorem decodeItems_eq_map (tok : Tokens) (vs : List JsonText.Json) :
    decodeItems tok vs = vs.map (decode tok) := by
  induction vs with
  | nil => rfl
  | cons v vs ih => rw [decodeItems, ih, List.map_cons]

/-- `json.loads`. -/
def loads (tok : Tokens) (doc : List Char) : Except FetchError PyValue :=
  match JsonText.loads doc with
  | none => .error (.jsonDecodeError (String.ofList doc))
  | some v => .ok (decode tok v)

/-! ## The body of a response -/

/-- `str.isspace` of a character, the characters `str.strip` removes. -/
def isSpace (c : Char) : Bool :=
  (0x09 ≤ c.toNat && c.toNat ≤ 0x0d) || (0x1c ≤ c.toNat && c.toNat ≤ 0x20) || c.toNat = 0x85 ||
    c.toNat = 0xa0 || c.toNat = 0x1680 || (0x2000 ≤ c.toNat && c.toNat ≤ 0x200a) ||
    c.toNat = 0x2028 || c.toNat = 0x2029 || c.toNat = 0x202f || c.toNat = 0x205f ||
    c.toNat = 0x3000

/-- The loop over the lines of a body that is no JSON document. -/
def readLines (tok : Tokens) : List (List Char) → Except FetchError (List PyValue)
  | [] => .ok []
  | line :: lines =>
    let line := strip isSpace line
    if line = [] then readLines tok lines
    else do
      let record ← loads tok line
      let records ← readLines tok lines
      return record :: records

/-- The records of a body: a JSON array, or else JSON lines. -/
def readBody (tok : Tokens) (body : List Char) : Except FetchError (List PyValue) :=
  let text := strip isSpace body
  if text = [] then .ok []
  else
    match loads tok text with
    | .ok (.list data) => .ok data
    -- a document that is no array is the only record
    | .ok data => .ok [data]
    | .error _ => readLines tok (text.splitOn '\n')

/-! ## The loop -/

/-- What one request meets: a response, with its status and the text of its body, or an exception.
-/
inductive Attempt where
  | response (statusCode : ℕ) (text : List Char)
  | raised (e : ClientError)
  deriving DecidableEq, Repr

/-- `response.raise_for_status()`. -/
def raiseForStatus (statusCode : ℕ) : Except FetchError Unit :=
  if 200 ≤ statusCode ∧ statusCode ≤ 299 then .ok () else .error (.httpStatusError statusCode)

/-- What the `try` of the loop makes of a request. -/
def Attempt.outcome (tok : Tokens) : Attempt → Except FetchError (List PyValue)
  | .raised e => .error (.client e)
  | .response statusCode text => do
    raiseForStatus statusCode
    readBody tok text

/-- A request sent, or a pause. -/
inductive FetchEvent where
  | get (url : String) (params : List (String × String))
  | sleep (seconds : ℚ)
  deriving DecidableEq, Repr

/-- The delay after a pause. -/
def nextDelay (config : RetryConfig) (delay : ℚ) : ℚ :=
  min (delay * config.backoffFactor) config.maxDelaySeconds

/-- All retries are used up. -/
def exhausted (config : RetryConfig) (url : String) : FetchError :=
  .runtimeError ("All " ++ toString config.maxRetries ++ " retry attempts exhausted for " ++ url)

/-- The loop, from the request with the number `attempt` on, for as many requests as are left. -/
def fetchLoop (tok : Tokens) (config : RetryConfig) (url : String)
    (params : List (String × String)) (attempts : ℕ → Attempt) :
    ℕ → ℕ → ℚ → List FetchEvent × Except FetchError (List PyValue)
  | 0, _, _ => ([], .error (exhausted config url))
  | left + 1, attempt, delay =>
    match (attempts attempt).outcome tok with
    | .ok records => ([.get url params], .ok records)
    | .error e =>
      if e.retried config then
        let (events, result) := fetchLoop tok config url params attempts left (attempt + 1)
          (nextDelay config delay)
        (.get url params :: .sleep delay :: events, result)
      else ([.get url params], .error e)

/-- `fetch_with_retry`: what it did, and the records it returns or the exception it raises. Its
requests are numbered from one. -/
def fetchWithRetry (tok : Tokens) (config : RetryConfig) (url : String)
    (params : List (String × String)) (attempts : ℕ → Attempt) :
    List FetchEvent × Except FetchError (List PyValue) :=
  fetchLoop tok config url params attempts config.maxRetries.toNat 1 config.baseDelaySeconds

end WindSight.Fetch
