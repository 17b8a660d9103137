import WindSight.Backend.Cache
import WindSight.Library.Machine
import WindSight.Library.Recency
import Mathlib.Data.Finset.Card

/-! # Recency order and retention of the cache

Runs of `get`, `set` and `invalidate` from the empty cache, by derived key and with the clock
reading of each call. Every call drops some keys and puts the key it touches, if any, at the end
(`cacheStep_keys`). Hence the stored keys stand in the order of their last touch, only the least
recently touched one is ever evicted, and an entry is found again until its expiry as long as fewer
than `max_size` other keys are touched. -/

namespace WindSight

variable {V : Type*}

/-! ## Calls -/

/-- A call of the cache by its derived key. -/
inductive CacheOp (V : Type*) where
  | get (key : String)
  | set (key : String) (value : V) (ttl : Option ℤ)
  | invalidate (pre : Option String)

/-- What a call returns. -/
inductive CacheResult (V : Type*) where
  | found (value : Option V)
  | stored
  | raised (e : CacheError)
  | removed (count : ℕ)

/-- One call, with its clock reading. -/
def cacheStep (c : LRUCache V) : ℚ × CacheOp V → CacheResult V × LRUCache V
  | (now, .get key) => (.found (c.get now key).1, (c.get now key).2)
  | (now, .set key value ttl) =>
    match c.set now key value ttl with
    | .error e => (.raised e, c)
    | .ok c' => (.stored, c')
  | (_, .invalidate pre) => (.removed (c.invalidate pre).1, (c.invalidate pre).2)

/-- The keys a call touches: that of a `set`, or of a `get` that hits. -/
def touched (c : LRUCache V) : ℚ × CacheOp V → List String
  | (now, .get key) => if (c.get now key).1.isSome then [key] else []
  | (_, .set key _ _) => [key]
  | (_, .invalidate _) => []

/-- The keys a run touches, in order. -/
def touchLog (c : LRUCache V) (run : List (ℚ × CacheOp V)) : List String :=
  Machine.record cacheStep touched c run

/-- The value a call sets for a key, with the expiry time it records. -/
def setting (c : LRUCache V) (k : String) : ℚ × CacheOp V → Option (V × ℚ)
  | (now, .set key value ttl) => if key = k then some (value, now + c.ttlOrDefault ttl) else none
  | _ => none

/-- The value last set for a key in a run, with its expiry time. -/
def lastSet (c : LRUCache V) (k : String) (run : List (ℚ × CacheOp V)) : Option (V × ℚ) :=
  (run.filterMap (setting c k)).getLast?

/-- A call of `get`. -/
def isGet : ℚ × CacheOp V → Bool
  | (_, .get _) => true
  | _ => false

/-! ## What one call does -/

section Step

variable {c : LRUCache V}

/-- No call changes the bounds of the cache. -/
theorem cacheStep_config (hmax : 1 ≤ c.maxSize) (x : ℚ × CacheOp V) :
    (cacheStep c x).2.maxSize = c.maxSize ∧ (cacheStep c x).2.defaultTtl = c.defaultTtl := by
  obtain ⟨now, op⟩ := x
  cases op with
  | get key =>
    rw [cacheStep]
    rcases c.get_cases now key with ⟨-, h⟩ | ⟨_, -, -, h⟩ | ⟨_, -, -, h⟩ <;> rw [h] <;>
      exact ⟨rfl, rfl⟩
  | set key value ttl =>
    obtain ⟨d, h, -⟩ := LRUCache.set_cases hmax now key value ttl
    rw [cacheStep, h]
    exact ⟨rfl, rfl⟩
  | invalidate pre => cases pre <;> exact ⟨rfl, rfl⟩

/-- Every `get` is counted, as a hit or as a miss. -/
theorem cacheStep_counts (hmax : 1 ≤ c.maxSize) (x : ℚ × CacheOp V) :
    (cacheStep c x).2.hits + (cacheStep c x).2.misses
      = c.hits + c.misses + if isGet x then 1 else 0 := by
  obtain ⟨now, op⟩ := x
  cases op with
  | get key =>
    rw [cacheStep]
    rcases c.get_cases now key with ⟨-, h⟩ | ⟨_, -, -, h⟩ | ⟨_, -, -, h⟩ <;> rw [h] <;>
      simp only [isGet, if_true] <;> omega
  | set key value ttl =>
    obtain ⟨d, h, -⟩ := LRUCache.set_cases hmax now key value ttl
    rw [cacheStep, h]
    rfl
  | invalidate pre => cases pre <;> rfl

/-- A call drops some keys and puts the key it touches at the end. -/
theorem cacheStep_keys (hmax : 1 ≤ c.maxSize) (x : ℚ × CacheOp V) :
    ∃ l, l.Sublist c.cache.keys ∧ (∀ k ∈ touched c x, k ∉ l) ∧
      (cacheStep c x).2.cache.keys = l ++ touched c x := by
  obtain ⟨now, op⟩ := x
  cases op with
  | get key =>
    rw [cacheStep, touched]
    rcases c.get_cases now key with ⟨-, h⟩ | ⟨_, -, -, h⟩ | ⟨_, -, -, h⟩ <;> rw [h]
    · -- nothing is found
      exact ⟨c.cache.keys, List.Sublist.refl _, by simp, by simp⟩
    · -- an expired entry is deleted
      exact ⟨c.cache.keys.filter (· ≠ key), List.filter_sublist, by simp, by simp⟩
    · -- a hit moves its key to the end
      exact ⟨c.cache.keys.filter (· ≠ key), List.filter_sublist, by simp, by simp⟩
  | set key value ttl =>
    obtain ⟨d, h, hd⟩ := LRUCache.set_cases hmax now key value ttl
    rw [cacheStep, touched, h]
    refine ⟨d.keys.filter (· ≠ key), List.filter_sublist.trans ?_, by simp,
      OrderedDict.keys_withNewest d key _⟩
    rcases hd with ⟨rfl, -⟩ | ⟨hpop, -⟩
    · exact List.Sublist.refl _
    · rw [OrderedDict.keys_popOldest hpop]
      exact List.tail_sublist _
  | invalidate pre =>
    rw [cacheStep, touched, LRUCache.invalidate_cache, OrderedDict.keys_filterKeys]
    exact ⟨c.cache.keys.filter fun k => !LRUCache.covers pre k, List.filter_sublist, by simp,
      by simp⟩

/-- No call makes the cache exceed its bound. -/
theorem cacheStep_length (hmax : 1 ≤ c.maxSize) (hlen : c.cache.length ≤ c.maxSize)
    (x : ℚ × CacheOp V) : (cacheStep c x).2.cache.length ≤ c.maxSize := by
  obtain ⟨now, op⟩ := x
  cases op with
  | get key =>
    rw [cacheStep]
    rcases c.get_cases now key with ⟨-, h⟩ | ⟨_, -, -, h⟩ | ⟨x, hx, -, h⟩ <;> rw [h]
    · exact hlen
    · refine le_trans ?_ hlen
      rw [← OrderedDict.length_keys, OrderedDict.keys_erase, ← OrderedDict.length_keys]
      exact List.length_filter_le _ _
    · have hkey := OrderedDict.mem_keys.mpr ⟨x, hx⟩
      exact (OrderedDict.length_withNewest_le_of_mem hkey x).trans hlen
  | set key value ttl =>
    obtain ⟨d, h, hd⟩ := LRUCache.set_cases hmax now key value ttl
    rw [cacheStep, h]
    have hle := d.length_withNewest_le key (value, now + c.ttlOrDefault ttl)
    -- a present key takes its own place, a new one free room or that of the evicted entry
    rcases hd with ⟨rfl, hkey | hroom⟩ | ⟨hpop, -, -⟩
    · exact (OrderedDict.length_withNewest_le_of_mem hkey _).trans hlen
    · exact hle.trans hroom
    · rw [OrderedDict.length_popOldest hpop] at hle
      exact hle.trans (by omega)
  | invalidate pre =>
    rw [cacheStep, LRUCache.invalidate_cache]
    refine le_trans ?_ hlen
    rw [← OrderedDict.length_keys, OrderedDict.keys_filterKeys, ← OrderedDict.length_keys]
    exact List.length_filter_le _ _

/-- An entry after a call was recorded by it or was there before it. -/
theorem cacheStep_entries (hmax : 1 ≤ c.maxSize) (x : ℚ × CacheOp V) {k : String} {v : V × ℚ}
    (h : (cacheStep c x).2.cache.get? k = some v) :
    setting c k x = some v ∨ (setting c k x = none ∧ c.cache.get? k = some v) := by
  obtain ⟨now, op⟩ := x
  cases op with
  | get key =>
    refine Or.inr ⟨rfl, ?_⟩
    exact LRUCache.get?_of_get h
  | set key value ttl =>
    obtain ⟨d, hset, -⟩ := LRUCache.set_cases hmax now key value ttl
    rw [cacheStep, hset] at h
    rcases (LRUCache.get?_of_set hmax hset).2 k v h with ⟨rfl, rfl⟩ | ⟨hne, hk⟩
    · exact Or.inl (if_pos rfl)
    · exact Or.inr ⟨if_neg (Ne.symm hne), hk⟩
  | invalidate pre =>
    rw [cacheStep, LRUCache.invalidate_cache] at h
    exact Or.inr ⟨rfl, (OrderedDict.get?_filterKeys.mp h).1⟩

/-- The only key a `set` can evict is the first one, and only when the cache is full and the key set
is new. -/
theorem cacheStep_set_evicts (hmax : 1 ≤ c.maxSize) {now : ℚ} {key : String} {value : V}
    {ttl : Option ℤ} {k : String} (hk : k ∈ c.cache.keys)
    (hgone : k ∉ (cacheStep c (now, .set key value ttl)).2.cache.keys) :
    key ∉ c.cache.keys ∧ c.maxSize ≤ c.cache.length ∧ ∃ l, c.cache.keys = k :: l := by
  obtain ⟨d, hset, hd⟩ := LRUCache.set_cases hmax now key value ttl
  rw [cacheStep, hset, OrderedDict.keys_withNewest, List.mem_append, List.mem_filter,
    not_or] at hgone
  have hne : k ≠ key := by simpa using hgone.2
  have hdrop : k ∉ d.keys := fun hmem => hgone.1 ⟨hmem, by simpa using hne⟩
  rcases hd with ⟨rfl, -⟩ | ⟨hpop, hnew, hfull⟩
  · exact absurd hk hdrop
  · refine ⟨hnew, hfull, ?_⟩
    rw [OrderedDict.keys_popOldest hpop] at hdrop
    cases hkeys : c.cache.keys with
    | nil => simp [hkeys] at hk
    | cons a l =>
      rw [hkeys, List.tail_cons] at hdrop
      rw [hkeys, List.mem_cons, or_iff_left hdrop] at hk
      exact ⟨l, by rw [hk]⟩

/-- A call touches no key or a single one. -/
theorem touched_eq_singleton {x : ℚ × CacheOp V} {k : String} (hk : k ∈ touched c x) :
    touched c x = [k] := by
  obtain ⟨now, op⟩ := x
  cases op with
  | get key =>
    rw [touched] at hk ⊢
    by_cases hhit : (c.get now key).1.isSome
    · rw [if_pos hhit] at hk ⊢
      rw [List.mem_singleton.mp hk]
    · rw [if_neg hhit] at hk
      exact absurd hk List.not_mem_nil
  | set key value ttl => rw [touched, List.mem_singleton.mp hk]
  | invalidate pre => exact absurd hk List.not_mem_nil

/-- A call that does not touch a key does not set it. -/
theorem setting_eq_none {x : ℚ × CacheOp V} {k : String} (hk : k ∉ touched c x) :
    setting c k x = none := by
  obtain ⟨now, op⟩ := x
  cases op with
  | get key => rfl
  | set key value ttl => exact if_neg fun h => hk (List.mem_singleton.mpr h.symm)
  | invalidate pre => rfl

/-- Before its expiry, an entry is dropped by an invalidation that covers it or by an eviction only.
-/
theorem mem_cacheStep_keys (hmax : 1 ≤ c.maxSize) {x : ℚ × CacheOp V} {k : String} {v : V × ℚ}
    (hentry : c.cache.get? k = some v) (htime : x.1 ≤ v.2)
    (hcover : ∀ pre, x.2 = .invalidate pre → LRUCache.covers pre k = false)
    (hevict : ∀ key ∈ touched c x, key ∉ c.cache.keys → c.maxSize ≤ c.cache.length →
      c.cache.keys.head? ≠ some k) :
    k ∈ (cacheStep c x).2.cache.keys := by
  have hmem : k ∈ c.cache.keys := OrderedDict.mem_keys.mpr ⟨v, hentry⟩
  obtain ⟨now, op⟩ := x
  cases op with
  | get key =>
    rw [cacheStep]
    rcases c.get_cases now key with ⟨-, h⟩ | ⟨x, hx, hexp, h⟩ | ⟨x, hx, -, h⟩ <;> rw [h]
    · exact hmem
    · -- an expired entry is not that of `k`
      have hne : k ≠ key := by
        rintro rfl
        obtain rfl : v = x := Option.some.inj (hentry.symm.trans hx)
        exact absurd htime (not_le.mpr hexp)
      rw [OrderedDict.keys_erase, List.mem_filter]
      exact ⟨hmem, by simpa using hne⟩
    · rw [OrderedDict.keys_withNewest, List.mem_append, List.mem_filter, List.mem_singleton]
      by_cases hne : k = key
      · exact Or.inr hne
      · exact Or.inl ⟨hmem, by simpa using hne⟩
  | set key value ttl =>
    by_contra hgone
    obtain ⟨hnew, hfull, l, hkeys⟩ := cacheStep_set_evicts hmax hmem hgone
    exact hevict key (List.mem_singleton.mpr rfl) hnew hfull (by rw [hkeys, List.head?_cons])
  | invalidate pre =>
    rw [cacheStep, LRUCache.invalidate_cache, OrderedDict.keys_filterKeys, List.mem_filter]
    exact ⟨hmem, by rw [hcover pre rfl]; rfl⟩

end Step

/-! ## Recency along a run -/

section Run

variable {c₀ c : LRUCache V}

theorem touchLog_append (c : LRUCache V) (run run' : List (ℚ × CacheOp V)) :
    touchLog c (run ++ run')
      = touchLog c run ++ touchLog (Machine.finalState cacheStep c run) run' :=
  Machine.record_append cacheStep touched c run run'

theorem touchLog_singleton (c : LRUCache V) (x : ℚ × CacheOp V) :
    touchLog c [x] = touched c x := List.append_nil _

/-- The last setting of a longer run. -/
theorem lastSet_snoc (c : LRUCache V) (k : String) (run : List (ℚ × CacheOp V))
    (x : ℚ × CacheOp V) :
    lastSet c k (run ++ [x]) = (setting c k x).or (lastSet c k run) := by
  rw [lastSet, lastSet, List.filterMap_append, List.getLast?_append]
  cases h : setting c k x <;> simp [h]

/-- A cache `c` reached from `c₀` by a run. -/
structure Reached (c₀ : LRUCache V) (run : List (ℚ × CacheOp V)) (c : LRUCache V) : Prop where
  config : c.maxSize = c₀.maxSize ∧ c.defaultTtl = c₀.defaultTtl
  length_le : c.cache.length ≤ c.maxSize
  counts : c.hits + c.misses = run.countP isGet
  recency : c.cache.keys.Pairwise (LastBefore (touchLog c₀ run))
  logged : c.cache.keys ⊆ touchLog c₀ run
  entries : ∀ k v, c.cache.get? k = some v → lastSet c₀ k run = some v

/-- One more call keeps what is reached by a run. -/
theorem Reached.snoc {run : List (ℚ × CacheOp V)} (hmax : 1 ≤ c₀.maxSize)
    (hc : c = Machine.finalState cacheStep c₀ run) (h : Reached c₀ run c) (x : ℚ × CacheOp V) :
    Reached c₀ (run ++ [x]) (cacheStep c x).2 := by
  have hmax' : 1 ≤ c.maxSize := h.config.1 ▸ hmax
  obtain ⟨hsize, httl⟩ := cacheStep_config hmax' x
  obtain ⟨l, hsub, hnew, hkeys⟩ := cacheStep_keys hmax' x
  have hlog : touchLog c₀ (run ++ [x]) = touchLog c₀ run ++ touched c x := by
    rw [touchLog_append, touchLog_singleton, hc]
  have hsetting : ∀ k, setting c k x = setting c₀ k x := by
    intro k
    obtain ⟨now, op⟩ := x
    cases op with
    | get key => rfl
    | set key value ttl => simp only [setting, LRUCache.ttlOrDefault, h.config.2]
    | invalidate pre => rfl
  constructor
  · exact ⟨hsize.trans h.config.1, httl.trans h.config.2⟩
  · exact hsize ▸ cacheStep_length hmax' h.length_le x
  · rw [cacheStep_counts hmax', h.counts, List.countP_append, List.countP_singleton]
  · rw [hlog, hkeys]
    refine pairwise_lastBefore_append h.recency h.logged hsub hnew ?_
    by_cases hk : ∃ k, k ∈ touched c x
    · obtain ⟨k, hk⟩ := hk
      rw [touched_eq_singleton hk]
      exact List.pairwise_singleton _ _
    · rw [List.eq_nil_iff_forall_not_mem.mpr (not_exists.mp hk)]
      exact List.Pairwise.nil
  · rw [hlog, hkeys]
    exact List.append_subset.mpr
      ⟨fun k hk => List.mem_append_left _ (h.logged (hsub.subset hk)), List.subset_append_right _ _⟩
  · intro k v hk
    rw [lastSet_snoc, ← hsetting]
    rcases cacheStep_entries hmax' x hk with hset | ⟨hnone, hold⟩
    · rw [hset, Option.some_or]
    · rw [hnone, Option.none_or]
      exact h.entries k v hold

/-- Every run from the empty cache. -/
theorem reached (maxSize : ℕ) (defaultTtl : ℤ) (hmax : 1 ≤ maxSize)
    (run : List (ℚ × CacheOp V)) :
    Reached (LRUCache.new maxSize defaultTtl) run
      (Machine.finalState cacheStep (LRUCache.new maxSize defaultTtl) run) := by
  induction run using List.reverseRecOn with
  | nil =>
    refine ⟨⟨rfl, rfl⟩, Nat.zero_le _, rfl, List.Pairwise.nil, List.nil_subset _, fun k v hk => ?_⟩
    exact absurd (OrderedDict.mem_keys.mpr ⟨v, hk⟩) List.not_mem_nil
  | append_singleton run x ih =>
    rw [Machine.finalState_append]
    exact ih.snoc hmax rfl x

/-! ## Retention -/

/-- The entry `v` stands under `k`, and every key more recent than `k` is among `seen`. -/
structure Retained (k : String) (v : V × ℚ) (seen : List String) (c : LRUCache V) : Prop where
  entry : c.cache.get? k = some v
  newer : ∃ l₁ l₂, c.cache.keys = l₁ ++ k :: l₂ ∧ l₂ ⊆ seen

/-- While `k` is not the only candidate, an eviction takes an older key: a full cache in which `k`
is the oldest has `max_size - 1` other keys, all seen, and a new key makes `max_size` of them. -/
theorem Retained.not_evicted {k : String} {v : V × ℚ} {seen : List String} (h : Retained k v seen c)
    {key : String} (hne : key ≠ k) (hcard : (seen ++ [key]).toFinset.card < c.maxSize)
    (hnew : key ∉ c.cache.keys) (hfull : c.maxSize ≤ c.cache.length) :
    c.cache.keys.head? ≠ some k := by
  obtain ⟨l₁, l₂, hkeys, hseen⟩ := h.newer
  have hnd : (l₁ ++ k :: l₂).Nodup := hkeys ▸ c.cache.nodup_keys
  rw [hkeys]
  intro hhead
  cases l₁ with
  | cons a l₁ =>
    -- another key stands before `k`
    obtain rfl : a = k := by simpa using hhead
    simp at hnd
  | nil =>
    rw [List.nil_append] at hkeys hnd
    -- `k` is the oldest: all other keys and the new one have been touched since
    have hsub : (l₂ ++ [key]).toFinset ⊆ (seen ++ [key]).toFinset := by
      intro j hj
      rw [List.mem_toFinset, List.mem_append] at hj ⊢
      exact hj.imp_left fun hmem => hseen hmem
    have hnd' : (l₂ ++ [key]).Nodup := by
      rw [List.nodup_append]
      refine ⟨(List.nodup_cons.mp hnd).2, List.nodup_singleton _, ?_⟩
      rintro a ha b hb rfl
      obtain rfl := List.mem_singleton.mp hb
      exact hnew (hkeys ▸ List.mem_cons_of_mem _ ha)
    have hle := Finset.card_le_card hsub
    rw [List.toFinset_card_of_nodup hnd', List.length_append, List.length_singleton] at hle
    have hlen : c.cache.length = l₂.length + 1 := by
      rw [← OrderedDict.length_keys, hkeys, List.length_cons]
    omega

/-- A call that does not touch `k`, before its expiry, keeps the entry. -/
theorem Retained.step {k : String} {v : V × ℚ} {seen : List String} (h : Retained k v seen c)
    (hmax : 1 ≤ c.maxSize) {x : ℚ × CacheOp V} (htime : x.1 ≤ v.2) (hk : k ∉ touched c x)
    (hcover : ∀ pre, x.2 = .invalidate pre → LRUCache.covers pre k = false)
    (hcard : (seen ++ touched c x).toFinset.card < c.maxSize) :
    Retained k v (seen ++ touched c x) (cacheStep c x).2 := by
  have hstay : k ∈ (cacheStep c x).2.cache.keys := by
    refine mem_cacheStep_keys hmax h.entry htime hcover fun key hkey hnew hfull => ?_
    rw [touched_eq_singleton hkey] at hcard
    exact h.not_evicted (fun heq => hk (heq ▸ hkey)) hcard hnew hfull
  constructor
  · obtain ⟨w, hw⟩ := OrderedDict.mem_keys.mp hstay
    rcases cacheStep_entries hmax x hw with hset | ⟨-, hold⟩
    · rw [setting_eq_none hk] at hset
      exact absurd hset (by simp)
    · rw [hw, ← hold, h.entry]
  · obtain ⟨l₁, l₂, hkeys, hseen⟩ := h.newer
    obtain ⟨l, hsub, -, hkeys'⟩ := cacheStep_keys hmax x
    rw [hkeys', List.mem_append, or_iff_left hk] at hstay
    obtain ⟨m₁, m₂, rfl⟩ := List.append_of_mem hstay
    refine ⟨m₁, m₂ ++ touched c x, by rw [hkeys', List.append_assoc, List.cons_append], ?_⟩
    -- the kept keys after `k` are among those that stood after it
    have hm₂ : m₂ ⊆ l₂ :=
      subset_of_sublist_append_cons (hkeys ▸ c.cache.nodup_keys) (hkeys ▸ hsub)
    exact List.append_subset.mpr
      ⟨fun j hj => List.mem_append_left _ (hseen (hm₂ hj)), List.subset_append_right _ _⟩

/-- A run that does not touch `k`, before its expiry, keeps the entry. -/
theorem Retained.run {k : String} {v : V × ℚ} {seen : List String} (h : Retained k v seen c)
    (hmax : 1 ≤ c.maxSize) {post : List (ℚ × CacheOp V)} (htime : ∀ x ∈ post, x.1 ≤ v.2)
    (hk : k ∉ touchLog c post)
    (hcover : ∀ x ∈ post, ∀ pre, x.2 = .invalidate pre → LRUCache.covers pre k = false)
    (hcard : (seen ++ touchLog c post).toFinset.card < c.maxSize) :
    Retained k v (seen ++ touchLog c post) (Machine.finalState cacheStep c post) := by
  induction post generalizing c seen with
  | nil => simpa [touchLog, Machine.record] using h
  | cons x post ih =>
    have hlog : touchLog c (x :: post) = touched c x ++ touchLog (cacheStep c x).2 post := rfl
    rw [hlog, ← List.append_assoc] at hcard ⊢
    rw [hlog, List.mem_append, not_or] at hk
    have hsize := (cacheStep_config hmax x).1
    -- the keys touched by the first call are among those of the run
    have hfirst : (seen ++ touched c x).toFinset.card < c.maxSize := by
      refine lt_of_le_of_lt (Finset.card_le_card ?_) hcard
      rw [List.toFinset_append (l := seen ++ touched c x)]
      exact Finset.subset_union_left
    have hstep := h.step hmax (htime x List.mem_cons_self) hk.1
      (hcover x List.mem_cons_self) hfirst
    rw [Machine.finalState_cons]
    exact ih hstep (hsize ▸ hmax) (fun y hy => htime y (List.mem_cons_of_mem _ hy)) hk.2
      (fun y hy => hcover y (List.mem_cons_of_mem _ hy)) (hsize ▸ hcard)

/-- A retained entry is found until its expiry. -/
theorem Retained.get {k : String} {v : V × ℚ} {seen : List String} (h : Retained k v seen c)
    {now : ℚ} (hnow : now ≤ v.2) : (c.get now k).1 = some v.1 :=
  LRUCache.get_of_entry h.entry hnow

/-- The call that touches a key leaves the entry last set for it, as the newest one. -/
theorem Reached.retained {run : List (ℚ × CacheOp V)} {x : ℚ × CacheOp V} (hmax : 1 ≤ c₀.maxSize)
    (hc : c = Machine.finalState cacheStep c₀ run) (h : Reached c₀ run c) {k : String}
    {v : V × ℚ} (hk : k ∈ touched c x) (hv : lastSet c₀ k (run ++ [x]) = some v) :
    Retained k v [] (cacheStep c x).2 := by
  obtain ⟨l, -, -, hkeys⟩ := cacheStep_keys (h.config.1 ▸ hmax) x
  rw [touched_eq_singleton hk] at hkeys
  refine ⟨?_, l, [], hkeys, List.nil_subset _⟩
  obtain ⟨w, hw⟩ := OrderedDict.mem_keys.mp (hkeys ▸ List.mem_append_right l List.mem_cons_self)
  rw [hw, ← (h.snoc hmax hc x).entries k w hw, hv]

end Run

/-! ## The discipline of the cache -/

/-- **LRU discipline.** After every run of calls from the empty cache:
the bound holds, no key is stored twice, and hits and misses count the `get` calls;
the stored keys stand in the order of their last touch, and a `set` evicts, if any, the key least
recently touched, and only when it brings a new key to a full cache;
an entry last set with value `v` and expiry `e` is found at `u ≤ e` if since the last touch of its
key the clock stayed at or below `u`, no invalidation covered the key, and fewer than `max_size`
other keys were touched. -/
theorem cache_lru (maxSize : ℕ) (defaultTtl : ℤ) (hmax : 1 ≤ maxSize)
    (run : List (ℚ × CacheOp V)) :
    let c₀ : LRUCache V := .new maxSize defaultTtl
    let c := Machine.finalState cacheStep c₀ run
    (c.cache.length ≤ maxSize ∧ c.cache.keys.Nodup ∧ c.hits + c.misses = run.countP isGet) ∧
    (c.cache.keys.Pairwise (LastBefore (touchLog c₀ run)) ∧
      (∀ k ∈ c.cache.keys, k ∈ touchLog c₀ run) ∧
      ∀ now key value ttl, ∀ k ∈ c.cache.keys,
        k ∉ (cacheStep c (now, .set key value ttl)).2.cache.keys →
          key ∉ c.cache.keys ∧ c.cache.length = maxSize ∧
            ∀ k' ∈ c.cache.keys, k' ≠ k → LastBefore (touchLog c₀ run) k k') ∧
    ∀ pre call post, run = pre ++ call :: post → ∀ k v e,
      k ∈ touched (Machine.finalState cacheStep c₀ pre) call →
      lastSet c₀ k (pre ++ [call]) = some (v, e) →
      k ∉ touchLog (Machine.finalState cacheStep c₀ (pre ++ [call])) post →
      (∀ x ∈ post, ∀ p, x.2 = .invalidate p → LRUCache.covers p k = false) →
      (touchLog (Machine.finalState cacheStep c₀ (pre ++ [call])) post).toFinset.card < maxSize →
      ∀ u, (∀ x ∈ post, x.1 ≤ u) → u ≤ e → (c.get u k).1 = some v := by
  intro c₀ c
  have hreached := reached maxSize defaultTtl hmax run
  have hsize : c.maxSize = maxSize := hreached.config.1
  refine ⟨⟨hsize ▸ hreached.length_le, c.cache.nodup_keys, hreached.counts⟩,
    ⟨hreached.recency, fun k hk => hreached.logged hk, ?_⟩, ?_⟩
  · intro now key value ttl k hk hgone
    obtain ⟨hnew, hfull, l, hkeys⟩ := cacheStep_set_evicts (hsize ▸ hmax) hk hgone
    refine ⟨hnew, le_antisymm (hsize ▸ hreached.length_le) (hsize ▸ hfull), fun k' hk' hne => ?_⟩
    -- the evicted key is the first one, and the keys stand in the order of their last touch
    have hpw := hreached.recency
    rw [hkeys, List.pairwise_cons] at hpw
    rw [hkeys, List.mem_cons, or_iff_right hne] at hk'
    exact hpw.1 k' hk'
  · rintro pre call post rfl k v e hk hlast htouch hcover hcard u hclock hu
    have hpre := reached maxSize defaultTtl hmax pre
    have hcall : Machine.finalState cacheStep c₀ (pre ++ [call])
        = (cacheStep (Machine.finalState cacheStep c₀ pre) call).2 := Machine.finalState_append ..
    rw [hcall] at htouch hcard
    have hmax' : 1 ≤ (cacheStep (Machine.finalState cacheStep c₀ pre) call).2.maxSize :=
      (hpre.snoc hmax rfl call).config.1 ▸ hmax
    have hsize' : (cacheStep (Machine.finalState cacheStep c₀ pre) call).2.maxSize = maxSize :=
      (hpre.snoc hmax rfl call).config.1
    have hret := (hpre.retained hmax rfl hk hlast).run hmax'
      (fun x hx => (hclock x hx).trans hu) htouch hcover (hsize'.symm ▸ hcard)
    have hc : c = Machine.finalState cacheStep
        (cacheStep (Machine.finalState cacheStep c₀ pre) call).2 post := by
      show Machine.finalState cacheStep c₀ (pre ++ call :: post) = _
      rw [Machine.finalState_append, Machine.finalState_cons]
    rw [hc]
    exact hret.get hu

/-- Two entries, a lookup of the older one, and a third entry that evicts the other. -/
def exampleCalls : List (ℚ × CacheOp ℕ) :=
  [(0, .set "a" 10 none), (1, .set "b" 20 none), (2, .get "a"), (3, .set "c" 30 none)]

theorem cache_lru_exampleCalls :
    ((Machine.finalState cacheStep (.new 2 300) exampleCalls).get 300 "a").1 = some 10 := by
  refine (cache_lru 2 300 (by decide) exampleCalls).2.2
    [(0, .set "a" 10 none), (1, .set "b" 20 none)] (2, .get "a") [(3, .set "c" 30 none)] rfl
    "a" 10 300 (by decide +kernel) (by decide +kernel) (by decide +kernel) ?_ (by decide +kernel)
    300 (by decide +kernel) le_rfl
  intro x hx p hp
  obtain rfl := List.mem_singleton.mp hx
  cases hp

end WindSight
