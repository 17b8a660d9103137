import WindSight.Backend.CacheFreshness

/-! # Invalidation by prefix

Calls of the cache by prefix and parameters. `invalidate(prefix)` tests the derived keys
`prefix:hash` for the text `prefix:`, which keeps `for` from matching `forecast`. It does match the
keys of a prefix that goes on with a colon, so it removes exactly the entries stored under `prefix`
if and only if no stored entry has such a prefix (`invalidatesExactly_iff`). -/

namespace WindSight

open LRUCache

variable {V : Type*}

/-! ## Calls by prefix -/

/-- `_make_key` for parameters with the JSON text `paramStr`. -/
def prefixedKey (hexdigest : String → String) (pre paramStr : String) : String :=
  pre ++ ":" ++ hashStr hexdigest paramStr

example (hexdigest : String → String) (pre : String) (params : List (String × ParamValue)) :
    makeKey hexdigest pre params = prefixedKey hexdigest pre (dumps params) := rfl

/-- A call of the cache as its users write it, with the JSON text of the parameters. -/
inductive CacheCall (V : Type*) where
  | get (pre paramStr : String)
  | set (pre paramStr : String) (value : V) (ttl : Option ℤ)
  | invalidate (pre : Option String)

/-- The call by its derived key. -/
def CacheCall.op (hexdigest : String → String) : CacheCall V → CacheOp V
  | .get pre paramStr => .get (prefixedKey hexdigest pre paramStr)
  | .set pre paramStr value ttl => .set (prefixedKey hexdigest pre paramStr) value ttl
  | .invalidate pre => .invalidate pre

/-- A run of calls, by derived keys. -/
def opsOf (hexdigest : String → String) (run : List (ℚ × CacheCall V)) : List (ℚ × CacheOp V) :=
  run.map fun x => (x.1, x.2.op hexdigest)

/-- The cache after a run of calls, from the empty one. -/
def cacheAfter (hexdigest : String → String) (maxSize : ℕ) (defaultTtl : ℤ)
    (run : List (ℚ × CacheCall V)) : LRUCache V :=
  Machine.finalState cacheStep (.new maxSize defaultTtl) (opsOf hexdigest run)

/-- The prefix a call stores the key `k` under. -/
def settingPrefix (hexdigest : String → String) (k : String) : ℚ × CacheCall V → Option String
  | (_, .set pre paramStr _ _) => if prefixedKey hexdigest pre paramStr = k then some pre else none
  | _ => none

/-- The prefix of the call that last stored the key `k` in a run. -/
def storedUnder (hexdigest : String → String) (run : List (ℚ × CacheCall V)) (k : String) :
    Option String :=
  (run.filterMap (settingPrefix hexdigest k)).getLast?

/-- `invalidate(p)` after a run removes exactly the entries stored under the prefix `p`, and returns
their number; the others keep their values, expiries and order, and the counters stay. -/
def InvalidatesExactly (hexdigest : String → String) (maxSize : ℕ) (defaultTtl : ℤ)
    (run : List (ℚ × CacheCall V)) (p : String) : Prop :=
  let c := cacheAfter hexdigest maxSize defaultTtl run
  c.invalidate (some p) =
    (c.cache.keys.countP (storedUnder hexdigest run · = some p),
      { c with cache := c.cache.filterKeys (storedUnder hexdigest run · ≠ some p) })

/-! ## The prefix test -/

/-- `invalidate` matches a key by its text. -/
theorem hasPrefix_iff {p k : String} : hasPrefix p k = true ↔ p.toList ++ [':'] <+: k.toList := by
  rw [hasPrefix, List.isPrefixOf_iff_prefix, String.toList_append]
  rfl

/-- A text without colons after the last colon of a text adds no match but that of the whole. -/
theorem append_colon_prefix_iff {p q hash : List Char} (hhash : ':' ∉ hash) :
    p ++ [':'] <+: q ++ ':' :: hash ↔ q = p ∨ p ++ [':'] <+: q := by
  constructor
  · rintro ⟨rest, heq⟩
    rw [List.append_assoc, List.singleton_append] at heq
    rcases List.append_eq_append_iff.mp heq with ⟨l, rfl, hl⟩ | ⟨l, rfl, hl⟩
    · -- `q` goes on after `p`, if at all with the colon
      cases l with
      | nil => exact Or.inl (List.append_nil p)
      | cons c l =>
        obtain ⟨rfl, -⟩ := List.cons.inj hl
        exact Or.inr ⟨l, by simp⟩
    · -- `p` goes on after `q`, so its colon stands in the hash
      cases l with
      | nil => exact Or.inl (List.append_nil q).symm
      | cons c l =>
        obtain ⟨-, htail⟩ := List.cons.inj hl
        refine absurd ?_ hhash
        rw [htail]
        exact List.mem_append_right l List.mem_cons_self
  · rintro (rfl | hpre)
    · exact ⟨hash, by simp⟩
    · exact hpre.trans (List.prefix_append q _)

/-- A truncated digest of hexadecimal digits holds no colon. -/
theorem colon_notMem_hashStr {hexdigest : String → String}
    (hhex : ∀ s, ':' ∉ (hexdigest s).toList) (paramStr : String) :
    ':' ∉ (hashStr hexdigest paramStr).toList := by
  rw [hashStr, String.toList_ofList]
  intro hmem
  exact hhex paramStr (List.mem_of_mem_take hmem)

/-- `invalidate(p)` matches the keys of the prefix `p` and of the prefixes that start with `p:`. -/
theorem hasPrefix_prefixedKey_iff {hexdigest : String → String}
    (hhex : ∀ s, ':' ∉ (hexdigest s).toList) (p q paramStr : String) :
    hasPrefix p (prefixedKey hexdigest q paramStr) = true ↔ q = p ∨ hasPrefix p q = true := by
  have hkey : (prefixedKey hexdigest q paramStr).toList
      = q.toList ++ ':' :: (hashStr hexdigest paramStr).toList := by
    simp [prefixedKey, String.toList_append]
  rw [hasPrefix_iff, hasPrefix_iff, hkey,
    append_colon_prefix_iff (colon_notMem_hashStr hhex paramStr), String.toList_inj]

/-! ## The prefix of an entry -/

/-- What a call stores a key under. -/
theorem settingPrefix_eq_some {hexdigest : String → String} {k q : String}
    {x : ℚ × CacheCall V} :
    settingPrefix hexdigest k x = some q ↔
      ∃ paramStr value ttl, x.2 = .set q paramStr value ttl ∧
        prefixedKey hexdigest q paramStr = k := by
  obtain ⟨now, call⟩ := x
  cases call with
  | set pre paramStr value ttl =>
    show (if prefixedKey hexdigest pre paramStr = k then some pre else none) = some q ↔ _
    rw [Option.ite_none_right_eq_some, Option.some_inj]
    constructor
    · rintro ⟨hkey, rfl⟩
      exact ⟨paramStr, value, ttl, rfl, hkey⟩
    · rintro ⟨paramStr', value', ttl', hset, hkey⟩
      obtain ⟨rfl, rfl, -⟩ := CacheCall.set.inj hset
      exact ⟨hkey, rfl⟩
  | get pre paramStr => simp [settingPrefix]
  | invalidate pre => simp [settingPrefix]

variable {hexdigest : String → String} {maxSize : ℕ} {defaultTtl : ℤ}

/-- A stored key was set by a call of the run. -/
theorem exists_set_of_mem_keys (run : List (ℚ × CacheCall V)) {k : String}
    (hk : k ∈ (cacheAfter hexdigest maxSize defaultTtl run).cache.keys) :
    ∃ x ∈ run, ∃ q, settingPrefix hexdigest k x = some q := by
  obtain ⟨⟨value, expiry⟩, hentry⟩ := OrderedDict.mem_keys.mp hk
  have hmax : 1 ≤ maxSize := by
    rw [Nat.one_le_iff_ne_zero]
    rintro rfl
    -- without room nothing is stored
    rw [cacheAfter, entries_of_maxSize_zero] at hentry
    cases hentry
  obtain ⟨time, ttl, ⟨pre, post, hops, -⟩, -⟩ := setBy_of_entry hmax _ hentry
  have hmem : (time, CacheOp.set k value ttl) ∈ opsOf hexdigest run := by
    rw [hops]
    exact List.mem_append_right _ List.mem_cons_self
  obtain ⟨⟨now, call⟩, hx, heq⟩ := List.mem_map.mp hmem
  refine ⟨(now, call), hx, ?_⟩
  cases call with
  | set q paramStr value' ttl' =>
    obtain ⟨hkey, -⟩ := CacheOp.set.inj (Prod.mk.inj heq).2
    exact ⟨q, settingPrefix_eq_some.mpr ⟨paramStr, value', ttl', rfl, hkey⟩⟩
  | get q paramStr => cases (Prod.mk.inj heq).2
  | invalidate q => cases (Prod.mk.inj heq).2

/-- A stored key is the key of its prefix and of some parameters. -/
theorem storedUnder_of_mem_keys (run : List (ℚ × CacheCall V)) {k : String}
    (hk : k ∈ (cacheAfter hexdigest maxSize defaultTtl run).cache.keys) :
    ∃ q paramStr, storedUnder hexdigest run k = some q ∧ prefixedKey hexdigest q paramStr = k := by
  obtain ⟨x, hx, q₀, hq₀⟩ := exists_set_of_mem_keys run hk
  have hne : run.filterMap (settingPrefix hexdigest k) ≠ [] :=
    List.ne_nil_of_mem (List.mem_filterMap.mpr ⟨x, hx, hq₀⟩)
  -- the last of the calls that store the key
  obtain ⟨y, -, hy⟩ := List.mem_filterMap.mp (List.getLast_mem hne)
  obtain ⟨paramStr, -, -, -, hkey⟩ := settingPrefix_eq_some.mp hy
  exact ⟨_, paramStr, List.getLast?_eq_some_getLast hne, hkey⟩

/-! ## Exact invalidation -/

/-- Invalidation is exact if and only if it matches a stored key for the prefix it is stored under.
-/
theorem invalidatesExactly_iff_keys {run : List (ℚ × CacheCall V)} {p : String} :
    InvalidatesExactly hexdigest maxSize defaultTtl run p ↔
      ∀ k ∈ (cacheAfter hexdigest maxSize defaultTtl run).cache.keys,
        (hasPrefix p k = true ↔ storedUnder hexdigest run k = some p) := by
  unfold InvalidatesExactly
  generalize cacheAfter hexdigest maxSize defaultTtl run = c
  have hcache : (c.cache.keys.filter (hasPrefix p)).foldl OrderedDict.erase c.cache
      = c.cache.filterKeys fun k => !hasPrefix p k := c.invalidate_cache (some p)
  have hinvalidate : c.invalidate (some p) = (c.cache.keys.countP (hasPrefix p),
      { c with cache := c.cache.filterKeys fun k => !hasPrefix p k }) := by
    rw [invalidate, hcache, List.countP_eq_length_filter]
  dsimp only
  rw [hinvalidate]
  constructor
  · intro heq k hk
    -- the two kept dictionaries have the same keys
    have hkeys := congrArg (fun r => r.2.cache.keys) heq
    simp only [OrderedDict.keys_filterKeys] at hkeys
    have hkept : k ∈ c.cache.keys.filter (fun k => !hasPrefix p k)
        ↔ k ∈ c.cache.keys.filter (storedUnder hexdigest run · ≠ some p) := by rw [hkeys]
    rw [List.mem_filter, List.mem_filter, and_iff_right hk, and_iff_right hk] at hkept
    have hnot : ¬ hasPrefix p k = true ↔ ¬ storedUnder hexdigest run k = some p := by
      simpa using hkept
    exact not_iff_not.mp hnot
  · intro hall
    have hcount : c.cache.keys.countP (hasPrefix p)
        = c.cache.keys.countP (storedUnder hexdigest run · = some p) :=
      List.countP_congr fun k hk => (hall k hk).trans decide_eq_true_iff.symm
    have hkept : c.cache.filterKeys (fun k => !hasPrefix p k)
        = c.cache.filterKeys (storedUnder hexdigest run · ≠ some p) := by
      ext1
      apply List.filter_congr
      intro e he
      have hnot := not_congr (hall e.1 (List.mem_map_of_mem he))
      rw [Bool.eq_iff_iff]
      simpa using hnot
    rw [hcount, hkept]

/-- **Invalidation by prefix.** After every run, `invalidate(p)` removes exactly the entries stored
under `p`, if and only if no entry is stored under a longer prefix that starts with `p:`. -/
theorem invalidatesExactly_iff (hexdigest : String → String)
    (hhex : ∀ s, ':' ∉ (hexdigest s).toList) (maxSize : ℕ) (defaultTtl : ℤ)
    (run : List (ℚ × CacheCall V)) (p : String) :
    InvalidatesExactly hexdigest maxSize defaultTtl run p ↔
      ∀ k ∈ (cacheAfter hexdigest maxSize defaultTtl run).cache.keys, ∀ q,
        storedUnder hexdigest run k = some q → q ≠ p → hasPrefix p q = false := by
  rw [invalidatesExactly_iff_keys]
  apply forall₂_congr
  intro k hk
  obtain ⟨q, paramStr, hstored, rfl⟩ := storedUnder_of_mem_keys run hk
  rw [hasPrefix_prefixedKey_iff hhex, hstored]
  by_cases hq : q = p
  · simp [hq]
  · simp [hq]

/-- The MD5 of `{}`. -/
def emptyDictDigest (_ : String) : String := "99914b932bd37a50b983c5e7c90ae93b"

theorem colon_notMem_emptyDictDigest (s : String) : ':' ∉ (emptyDictDigest s).toList := by
  show ':' ∉ "99914b932bd37a50b983c5e7c90ae93b".toList
  decide

/-- Entries of two endpoints: invalidating the one leaves the other. -/
theorem invalidatesExactly_forecast :
    InvalidatesExactly emptyDictDigest 2000 300
      [(0, CacheCall.set "forecast" "\x7b\x7d" 1 none), (1, .set "metrics" "\x7b\x7d" 2 none)]
      "forecast" := by
  refine (invalidatesExactly_iff emptyDictDigest colon_notMem_emptyDictDigest 2000 300 _ _).mpr ?_
  decide +kernel

/-- An entry stored under `a:b` is removed by `invalidate("a")`. -/
theorem not_invalidatesExactly_colon :
    ¬ InvalidatesExactly emptyDictDigest 2000 300
      [(0, (CacheCall.set "a:b" "\x7b\x7d" 1 none : CacheCall ℕ))] "a" := by
  intro h
  have hcount := congrArg Prod.fst h
  exact absurd hcount (by decide +kernel)

end WindSight
