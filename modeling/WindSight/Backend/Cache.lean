import WindSight.Clock
import WindSight.Library.NumberText
import WindSight.Library.OrderedDict
import Mathlib.Data.List.Sort

/-! # LRU cache

The in-memory cache of query results: at most `max_size` entries, each with an expiry time, in the
order of their last use. Keys are `prefix:hash`, where the hash is the first twelve hexadecimal
digits of the MD5 of the request parameters written as JSON with sorted keys. -/

namespace WindSight

open NumberText

/-! ## Cache keys -/

/-- The fraction of a second in `str(t)`, written when there is one. -/
def Datetime.fractionText (t : Datetime) : List Char :=
  if t.microsecond = 0 then [] else '.' :: pad 6 t.microsecond

/-- The UTC offset in `str(t)`, written when there is one. -/
def Datetime.offsetText (t : Datetime) : List Char :=
  match t.utcoffset with
  | none => []
  | some o => (if o < 0 then '-' else '+') ::
      (pad 2 (o.natAbs / 60) ++ ':' :: pad 2 (o.natAbs % 60))

/-- `str(t)`: the ISO format with a space between date and time. -/
def Datetime.str (t : Datetime) : List Char :=
  pad 4 t.year ++ '-' :: pad 2 t.month ++ '-' :: pad 2 t.day ++ ' ' :: pad 2 t.hour
    ++ ':' :: pad 2 t.minute ++ ':' :: pad 2 t.second ++ t.fractionText ++ t.offsetText

/-- A value of a cache parameter dict. -/
inductive ParamValue where
  /-- `str(start)` or `str(end)`. -/
  | str (s : List Char)
  /-- The horizon. -/
  | num (x : PyFloat)

/-- The JSON text of a parameter value. The strings are datetimes and need no escaping. -/
def ParamValue.dumps : ParamValue → List Char
  | .str s => '"' :: s ++ ['"']
  | .num x => x.repr

/-- The JSON text of a member of a dict. -/
def dumpsItem (item : String × ParamValue) : List Char :=
  '"' :: item.1.toList ++ '"' :: ':' :: ' ' :: item.2.dumps

/-- `json.dumps(params, sort_keys=True, default=str)`. -/
def dumps (params : List (String × ParamValue)) : String :=
  let items := (params.insertionSort (·.1 ≤ ·.1)).map dumpsItem
  String.ofList ('{' :: List.intercalate [',', ' '] items ++ ['}'])

/-- `hashlib.md5(param_str.encode()).hexdigest()[:12]`, over the digest function `hexdigest`. -/
def hashStr (hexdigest : String → String) (paramStr : String) : String :=
  String.ofList ((hexdigest paramStr).toList.take 12)

/-- `_make_key`: `prefix:hash`. -/
def makeKey (hexdigest : String → String) (pre : String) (params : List (String × ParamValue)) :
    String :=
  pre ++ ":" ++ hashStr hexdigest (dumps params)

/-! ## The cache -/

/-- The cache. Each entry is a value with its expiry time; `cache` keeps the entries in the order of
their last use, least recent first. -/
structure LRUCache (V : Type*) where
  cache : OrderedDict String (V × ℚ)
  maxSize : ℕ
  defaultTtl : ℤ
  hits : ℕ
  misses : ℕ

/-- The exception `set` can raise: `popitem` on an empty dictionary. -/
inductive CacheError where
  | keyError
  deriving DecidableEq, Repr

/-- The dict of `stats`. -/
structure CacheStats where
  size : ℕ
  maxSize : ℕ
  hits : ℕ
  misses : ℕ
  hitRate : ℚ
  deriving DecidableEq, Repr

namespace LRUCache

variable {V : Type*}

/-- `LRUCache(max_size, default_ttl)`. -/
def new (maxSize : ℕ) (defaultTtl : ℤ) : LRUCache V := ⟨.empty, maxSize, defaultTtl, 0, 0⟩

/-- `get` by its derived key, at clock reading `now`. An expired entry is deleted and counts as a
miss; a hit becomes the most recently used entry. -/
def get (c : LRUCache V) (now : ℚ) (key : String) : Option V × LRUCache V :=
  match c.cache.get? key with
  | none => (none, { c with misses := c.misses + 1 })
  | some (value, expiry) =>
    if now > expiry then
      (none, { c with cache := c.cache.erase key, misses := c.misses + 1 })
    else
      (some value, { c with cache := c.cache.moveToEnd key, hits := c.hits + 1 })

/-- `ttl or self._default_ttl`: a missing time to live and a zero one both mean the default. -/
def ttlOrDefault (c : LRUCache V) : Option ℤ → ℤ
  | none => c.defaultTtl
  | some ttl => if ttl = 0 then c.defaultTtl else ttl

/-- `set` by its derived key, at clock reading `now`. -/
def set (c : LRUCache V) (now : ℚ) (key : String) (value : V) (ttl : Option ℤ) :
    Except CacheError (LRUCache V) :=
  let expiry := now + c.ttlOrDefault ttl
  if key ∈ c.cache.keys then
    .ok { c with cache := (c.cache.moveToEnd key).setItem key (value, expiry) }
  else if c.cache.length ≥ c.maxSize then
    -- a new key in a full cache evicts the oldest entry
    match c.cache.popOldest with
    | none => .error .keyError
    | some d => .ok { c with cache := d.setItem key (value, expiry) }
  else
    .ok { c with cache := c.cache.setItem key (value, expiry) }

/-- `k.startswith(f"{prefix}:")`. -/
def hasPrefix (pre k : String) : Bool := (pre ++ ":").toList.isPrefixOf k.toList

/-- The keys an `invalidate(prefix)` removes: every key when no prefix is given. -/
def covers : Option String → String → Bool
  | none, _ => true
  | some pre, k => hasPrefix pre k

/-- `invalidate(prefix)`, with the number of entries removed. -/
def invalidate (c : LRUCache V) (pre : Option String) : ℕ × LRUCache V :=
  match pre with
  | none => (c.cache.length, { c with cache := .empty })
  | some pre =>
    let keysToRemove := c.cache.keys.filter (hasPrefix pre)
    (keysToRemove.length, { c with cache := keysToRemove.foldl OrderedDict.erase c.cache })

/-- `stats`. Before the first lookup the hit rate is zero. -/
def stats (c : LRUCache V) : CacheStats :=
  let total := c.hits + c.misses
  { size := c.cache.length
    maxSize := c.maxSize
    hits := c.hits
    misses := c.misses
    hitRate := if total > 0 then c.hits / total else 0 }

/-! ### What each operation does to the entries -/

/-- The entries after an `invalidate`: those whose keys it does not cover, in their order. -/
theorem invalidate_cache (c : LRUCache V) (pre : Option String) :
    (c.invalidate pre).2.cache = c.cache.filterKeys fun k => !covers pre k := by
  cases pre with
  | none =>
    ext1
    simp [invalidate, covers, OrderedDict.empty, OrderedDict.filterKeys]
  | some pre =>
    ext1
    rw [invalidate, OrderedDict.foldl_erase, OrderedDict.filterKeys, OrderedDict.filterKeys]
    refine List.filter_congr fun e he => ?_
    have hmem : e.1 ∈ c.cache.keys := List.mem_map_of_mem he
    simp [covers, hmem]

/-- A `get` finds nothing, finds an expired entry and deletes it, or hits and makes the entry the
newest. -/
theorem get_cases (c : LRUCache V) (now : ℚ) (key : String) :
    (c.cache.get? key = none ∧
      c.get now key = (none, { c with misses := c.misses + 1 })) ∨
    (∃ x, c.cache.get? key = some x ∧ x.2 < now ∧
      c.get now key = (none, { c with cache := c.cache.erase key, misses := c.misses + 1 })) ∨
    (∃ x, c.cache.get? key = some x ∧ now ≤ x.2 ∧
      c.get now key = (some x.1, { c with cache := c.cache.withNewest key x, hits := c.hits + 1 }))
    := by
  cases hget : c.cache.get? key with
  | none => exact Or.inl ⟨rfl, by rw [get, hget]⟩
  | some x =>
    by_cases hexp : now > x.2
    · exact Or.inr (Or.inl ⟨x, rfl, hexp, by simp [get, hget, hexp]⟩)
    · refine Or.inr (Or.inr ⟨x, rfl, not_lt.mp hexp, ?_⟩)
      simp [get, hget, hexp, OrderedDict.moveToEnd_of_get? hget]

@[simp] theorem maxSize_get (c : LRUCache V) (now : ℚ) (key : String) :
    (c.get now key).2.maxSize = c.maxSize := by
  rcases c.get_cases now key with ⟨-, h⟩ | ⟨_, -, -, h⟩ | ⟨_, -, -, h⟩ <;> rw [h]

/-- An entry after a `get` was there before. -/
theorem get?_of_get {c : LRUCache V} {now : ℚ} {key k : String} {v : V × ℚ}
    (h : (c.get now key).2.cache.get? k = some v) : c.cache.get? k = some v := by
  rcases c.get_cases now key with ⟨-, hget⟩ | ⟨_, -, -, hget⟩ | ⟨x, hx, -, hget⟩ <;>
    rw [hget] at h
  · exact h
  · exact (OrderedDict.get?_erase.mp h).1
  · rcases OrderedDict.get?_withNewest.mp h with ⟨rfl, rfl⟩ | ⟨-, hk⟩
    exacts [hx, hk]

/-- What a `get` finds is an entry that is not expired. -/
theorem entry_of_get {c : LRUCache V} {now : ℚ} {key : String} {value : V}
    (h : (c.get now key).1 = some value) :
    ∃ expiry, c.cache.get? key = some (value, expiry) ∧ now ≤ expiry := by
  rcases c.get_cases now key with ⟨-, hget⟩ | ⟨_, -, -, hget⟩ | ⟨x, hx, hle, hget⟩ <;>
    rw [hget] at h
  · cases h
  · cases h
  · obtain rfl := Option.some.inj h
    exact ⟨x.2, hx, hle⟩

/-- An entry is found up to its expiry. -/
theorem get_of_entry {c : LRUCache V} {key : String} {x : V × ℚ} (h : c.cache.get? key = some x)
    {now : ℚ} (hnow : now ≤ x.2) : (c.get now key).1 = some x.1 := by
  rcases c.get_cases now key with ⟨hnone, -⟩ | ⟨y, hy, hexp, -⟩ | ⟨y, hy, -, hget⟩
  · rw [h] at hnone
    exact absurd hnone (by simp)
  · obtain rfl : x = y := Option.some.inj (h.symm.trans hy)
    exact absurd hnow (not_le.mpr hexp)
  · obtain rfl : x = y := Option.some.inj (h.symm.trans hy)
    rw [hget]

/-- A `set` makes its entry the newest one; a new key set in a full cache evicts the oldest entry.
-/
theorem set_cases {c : LRUCache V} (hmax : 1 ≤ c.maxSize) (now : ℚ) (key : String) (value : V)
    (ttl : Option ℤ) :
    ∃ d, c.set now key value ttl
        = .ok { c with cache := d.withNewest key (value, now + c.ttlOrDefault ttl) } ∧
      ((d = c.cache ∧ (key ∈ c.cache.keys ∨ c.cache.length < c.maxSize)) ∨
        (c.cache.popOldest = some d ∧ key ∉ c.cache.keys ∧ c.maxSize ≤ c.cache.length)) := by
  rw [set]
  by_cases hkey : key ∈ c.cache.keys
  · exact ⟨c.cache, by simp [hkey, OrderedDict.setItem_moveToEnd hkey], Or.inl ⟨rfl, Or.inl hkey⟩⟩
  · by_cases hfull : c.cache.length ≥ c.maxSize
    · -- a full cache of a positive size has an entry to evict
      obtain ⟨d, hd⟩ := OrderedDict.exists_popOldest (lt_of_lt_of_le hmax hfull)
      have hnew : key ∉ d.keys := fun h =>
        hkey (List.mem_of_mem_tail (OrderedDict.keys_popOldest hd ▸ h))
      exact ⟨d, by simp [hkey, hfull, hd, OrderedDict.setItem_of_notMem hnew],
        Or.inr ⟨hd, hkey, hfull⟩⟩
    · exact ⟨c.cache, by simp [hkey, hfull, OrderedDict.setItem_of_notMem hkey],
        Or.inl ⟨rfl, Or.inr (not_le.mp hfull)⟩⟩

/-- An entry after a `set` is the one it stored, or was there before under another key. -/
theorem get?_of_set {c c' : LRUCache V} (hmax : 1 ≤ c.maxSize) {now : ℚ} {key : String} {value : V}
    {ttl : Option ℤ} (hset : c.set now key value ttl = .ok c') :
    c'.maxSize = c.maxSize ∧ ∀ k v, c'.cache.get? k = some v →
      (k = key ∧ v = (value, now + c.ttlOrDefault ttl)) ∨ (k ≠ key ∧ c.cache.get? k = some v) := by
  obtain ⟨d, hset', hd⟩ := set_cases hmax now key value ttl
  obtain rfl := Except.ok.inj (hset'.symm.trans hset)
  refine ⟨rfl, fun k v hk => ?_⟩
  rcases OrderedDict.get?_withNewest.mp hk with hnew | ⟨hne, hk⟩
  · exact Or.inl hnew
  · refine Or.inr ⟨hne, ?_⟩
    rcases hd with ⟨rfl, -⟩ | ⟨hpop, -⟩
    exacts [hk, OrderedDict.get?_of_popOldest hpop hk]

end LRUCache

end WindSight
