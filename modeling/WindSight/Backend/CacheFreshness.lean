import WindSight.Backend.CacheRecency

/-! # Freshness of the cache

What a hit says about the calls before it. An entry goes back to the last `set` of its key, with no
invalidation since (`SetBy`, `setBy_of_entry`), and expires at the time recorded then. That time is
the one the caller asked for unless the caller passed a zero `ttl`, which `ttl or default_ttl` reads
as a missing one (`fresh_iff`). -/

namespace WindSight

variable {V : Type*}

/-! ## The call an entry goes back to -/

/-- A call neither sets a key nor invalidates it. -/
def Spares (k : String) (x : ℚ × CacheOp V) : Prop :=
  (∀ value ttl, x.2 ≠ .set k value ttl) ∧ ∀ p, x.2 = .invalidate p → LRUCache.covers p k = false

/-- The last `set` of a key in a run stored `value` at `time` with the argument `ttl`, and no call
has invalidated the key since. -/
def SetBy (run : List (ℚ × CacheOp V)) (k : String) (value : V) (time : ℚ) (ttl : Option ℤ) :
    Prop :=
  ∃ pre post, run = pre ++ (time, .set k value ttl) :: post ∧ ∀ x ∈ post, Spares k x

/-- A run that ends with a `set` goes back to that one. -/
theorem SetBy.of_snoc_set {run : List (ℚ × CacheOp V)} {k : String} {value value' : V}
    {time time' : ℚ} {ttl ttl' : Option ℤ}
    (h : SetBy (run ++ [(time, .set k value ttl)]) k value' time' ttl') :
    time' = time ∧ ttl' = ttl := by
  obtain ⟨pre, post, hrun, hpost⟩ := h
  rcases List.eq_nil_or_concat' post with rfl | ⟨post, x, rfl⟩
  · obtain ⟨-, heq⟩ := List.append_inj' hrun rfl
    have hcall := (List.cons.inj heq).1
    rw [Prod.mk.injEq, CacheOp.set.injEq] at hcall
    exact ⟨hcall.1.symm, hcall.2.2.2.symm⟩
  · -- the last call sets the key, so it is not one after the last `set`
    rw [← List.cons_append, ← List.append_assoc] at hrun
    obtain ⟨-, heq⟩ := List.append_inj' hrun rfl
    have hspare := hpost x (List.mem_append_right _ List.mem_cons_self)
    rw [← (List.cons.inj heq).1] at hspare
    exact absurd rfl (hspare.1 value ttl)

section Step

variable {c : LRUCache V}

/-- What a `set` records for a key. -/
theorem setting_set {k key : String} {now : ℚ} {value : V} {ttl : Option ℤ} {v : V × ℚ} :
    setting c k (now, .set key value ttl) = some v ↔
      key = k ∧ (value, now + (c.ttlOrDefault ttl : ℚ)) = v := by
  show (if key = k then some _ else none) = some v ↔ _
  rw [Option.ite_none_right_eq_some, Option.some.injEq]

/-- An entry after a call was set by it, or was there before a call that spares its key. -/
theorem cacheStep_entry (hmax : 1 ≤ c.maxSize) {x : ℚ × CacheOp V} {k : String} {v : V × ℚ}
    (h : (cacheStep c x).2.cache.get? k = some v) :
    (∃ value ttl, x.2 = .set k value ttl ∧ v = (value, x.1 + c.ttlOrDefault ttl)) ∨
      (Spares k x ∧ c.cache.get? k = some v) := by
  rcases cacheStep_entries hmax x h with hset | ⟨hnone, hold⟩
  · obtain ⟨now, op⟩ := x
    cases op with
    | set key value ttl =>
      obtain ⟨rfl, rfl⟩ := setting_set.mp hset
      exact Or.inl ⟨value, ttl, rfl, rfl⟩
    | _ => cases hset
  · -- a call that keeps an entry neither sets nor invalidates its key
    refine Or.inr ⟨⟨?_, ?_⟩, hold⟩
    · rintro value ttl hop
      obtain ⟨now, op⟩ := x
      subst hop
      rw [setting_set.mpr ⟨rfl, rfl⟩] at hnone
      cases hnone
    · rintro p hop
      obtain ⟨now, op⟩ := x
      subst hop
      unfold cacheStep at h
      rw [LRUCache.invalidate_cache] at h
      simpa using (OrderedDict.get?_filterKeys.mp h).2

/-- A `set` leaves its entry in the cache. -/
theorem cacheStep_set_entry (hmax : 1 ≤ c.maxSize) (now : ℚ) (k : String) (value : V)
    (ttl : Option ℤ) :
    (cacheStep c (now, .set k value ttl)).2.cache.get? k
      = some (value, now + c.ttlOrDefault ttl) := by
  obtain ⟨d, hset, -⟩ := LRUCache.set_cases hmax now k value ttl
  rw [cacheStep, hset]
  exact OrderedDict.get?_withNewest.mpr (Or.inl ⟨rfl, rfl⟩)

end Step

/-! ## Runs -/

section Run

variable {maxSize : ℕ} {defaultTtl : ℤ}

/-- **Every entry goes back to the last `set` of its key.** -/
theorem setBy_of_entry (hmax : 1 ≤ maxSize) (run : List (ℚ × CacheOp V)) {k : String} {value : V}
    {expiry : ℚ}
    (h : (Machine.finalState cacheStep (.new maxSize defaultTtl) run).cache.get? k
      = some (value, expiry)) :
    ∃ time ttl, SetBy run k value time ttl ∧
      expiry = time + (LRUCache.new maxSize defaultTtl : LRUCache V).ttlOrDefault ttl := by
  -- along the run, by its last call
  induction run using List.reverseRecOn with
  | nil =>
    exact absurd (OrderedDict.mem_keys.mpr ⟨_, h⟩) List.not_mem_nil
  | append_singleton run x ih =>
    obtain ⟨hsize, httl⟩ := (reached maxSize defaultTtl hmax run).config
    rw [Machine.finalState_append] at h
    rcases cacheStep_entry (hsize ▸ hmax) h with ⟨w, ttl, hop, hv⟩ | ⟨hspare, hold⟩
    · obtain ⟨now, op⟩ := x
      subst hop
      obtain ⟨rfl, rfl⟩ := Prod.mk.inj hv
      refine ⟨now, ttl, ⟨run, [], rfl, nofun⟩, ?_⟩
      simp only [LRUCache.ttlOrDefault, httl]
    · obtain ⟨time, ttl, ⟨pre, post, rfl, hpost⟩, rfl⟩ := ih hold
      refine ⟨time, ttl, ⟨pre, post ++ [x], by simp, ?_⟩, rfl⟩
      intro y hy
      rcases List.mem_append.mp hy with hy | hy
      · exact hpost y hy
      · rw [List.mem_singleton.mp hy]
        exact hspare

/-- A cache without room holds nothing: every `set` raises. -/
theorem entries_of_maxSize_zero (run : List (ℚ × CacheOp V)) :
    (Machine.finalState cacheStep (.new 0 defaultTtl) run : LRUCache V).cache = .empty := by
  let P : LRUCache V → Prop := fun c => c.maxSize = 0 ∧ c.cache = OrderedDict.empty
  have hstep : ∀ c : LRUCache V, ∀ x ∈ run, P c → P (cacheStep c x).2 := by
    rintro ⟨cache, size, ttl, hits, misses⟩ ⟨now, op⟩ - ⟨rfl, rfl⟩
    cases op with
    | get key => exact ⟨rfl, rfl⟩
    | set key value ttl => exact ⟨rfl, rfl⟩
    | invalidate p => cases p <;> exact ⟨rfl, rfl⟩
  exact (Machine.finalState_invariant hstep ⟨rfl, rfl⟩ : P _).2

/-! ## Freshness -/

/-- The time to live a caller asks for: its argument, or the default if there is none. -/
def requestedTtl (defaultTtl : ℤ) (ttl : Option ℤ) : ℤ := ttl.getD defaultTtl

/-- What a `get` finds after a run is fresh: the value of the last `set` of the key, not invalidated
since, and not older than the time to live its caller asked for. -/
def Fresh (maxSize : ℕ) (defaultTtl : ℤ) (run : List (ℚ × CacheOp V)) : Prop :=
  ∀ u k value,
    ((Machine.finalState cacheStep (.new maxSize defaultTtl) run).get u k).1 = some value →
      ∃ time ttl, SetBy run k value time ttl ∧ u ≤ time + requestedTtl defaultTtl ttl

/-- A `set` with a zero time to live. -/
def IsZeroTtl (x : ℚ × CacheOp V) : Prop := ∃ k value, x.2 = .set k value (some 0)

/-- The recorded time to live is the one asked for, unless that is zero. -/
theorem ttlOrDefault_eq {ttl : Option ℤ} (h : ttl ≠ some 0) :
    (LRUCache.new maxSize defaultTtl : LRUCache V).ttlOrDefault ttl
      = requestedTtl defaultTtl ttl := by
  cases ttl with
  | none => rfl
  | some t => exact if_neg fun ht => h (by rw [ht])

/-- Without a zero time to live, or with a default that is not larger, every hit is fresh. -/
theorem fresh_of_nonzero {run : List (ℚ × CacheOp V)}
    (h : defaultTtl ≤ 0 ∨ ∀ x ∈ run, ¬ IsZeroTtl x) (hmax : 1 ≤ maxSize) :
    Fresh maxSize defaultTtl run := by
  intro u k value hget
  obtain ⟨expiry, hentry, hle⟩ := LRUCache.entry_of_get hget
  obtain ⟨time, ttl, hset, rfl⟩ := setBy_of_entry hmax run hentry
  refine ⟨time, ttl, hset, hle.trans ?_⟩
  by_cases hzero : ttl = some 0
  · -- a zero time to live was recorded as the default
    subst hzero
    rcases h with hdefault | hnone
    · have hdefault' : (defaultTtl : ℚ) ≤ 0 := by exact_mod_cast hdefault
      show time + ((defaultTtl : ℤ) : ℚ) ≤ time + ((0 : ℤ) : ℚ)
      push_cast
      linarith
    · obtain ⟨pre, post, rfl, -⟩ := hset
      exact absurd ⟨k, _, rfl⟩ (hnone _ (List.mem_append_right _ List.mem_cons_self))
  · rw [ttlOrDefault_eq hzero]

/-- A `set` with a zero time to live is found until the default one has passed. -/
theorem not_fresh_of_zero (hmax : 1 ≤ maxSize) (hdefault : 0 < defaultTtl)
    (run : List (ℚ × CacheOp V)) {x : ℚ × CacheOp V} (hx : IsZeroTtl x) :
    ¬ Fresh maxSize defaultTtl (run ++ [x]) := by
  intro hfresh
  obtain ⟨now, op⟩ := x
  obtain ⟨k, value, rfl⟩ := hx
  have hdefault' : (0 : ℚ) < defaultTtl := by exact_mod_cast hdefault
  obtain ⟨hsize, httl⟩ := (reached maxSize defaultTtl hmax run).config
  have hentry := cacheStep_set_entry (le_of_le_of_eq hmax hsize.symm) now k value (some 0)
  have hget : ((Machine.finalState cacheStep (.new maxSize defaultTtl)
      (run ++ [(now, .set k value (some 0))])).get (now + defaultTtl) k).1 = some value := by
    rw [Machine.finalState_append, Machine.finalState_cons, Machine.finalState_nil]
    refine LRUCache.get_of_entry hentry ?_
    rw [LRUCache.ttlOrDefault, if_pos rfl, httl]
    exact le_refl _
  obtain ⟨time, ttl, hset, hle⟩ := hfresh _ k value hget
  obtain ⟨rfl, rfl⟩ := hset.of_snoc_set
  unfold requestedTtl at hle
  push_cast [Option.getD_some] at hle
  linarith

/-- **Every hit along a run is fresh exactly when the cache has no room, its default time to live is
not positive, or no call sets an entry with a zero time to live.** -/
theorem fresh_iff (maxSize : ℕ) (defaultTtl : ℤ) (run : List (ℚ × CacheOp V)) :
    (∀ pre, pre <+: run → Fresh maxSize defaultTtl pre) ↔
      maxSize = 0 ∨ defaultTtl ≤ 0 ∨ ∀ x ∈ run, ¬ IsZeroTtl x := by
  constructor
  · intro hall
    by_contra hnot
    rw [not_or, not_or, not_le] at hnot
    obtain ⟨hmax, hdefault, hzero⟩ := hnot
    refine hzero fun x hx hx0 => ?_
    obtain ⟨pre, post, rfl⟩ := List.append_of_mem hx
    -- the run up to the zero time to live is not fresh
    refine not_fresh_of_zero (Nat.one_le_iff_ne_zero.mpr hmax) hdefault pre hx0 (hall _ ?_)
    exact ⟨post, by simp⟩
  · rintro hcond pre hpre
    by_cases hmax : maxSize = 0
    · subst hmax
      intro u k value hget
      unfold LRUCache.get at hget
      rw [entries_of_maxSize_zero] at hget
      cases hget
    · refine fresh_of_nonzero ?_ (Nat.one_le_iff_ne_zero.mpr hmax)
      rcases hcond with h0 | hdefault | hnone
      · exact absurd h0 hmax
      · exact Or.inl hdefault
      · exact Or.inr fun x hx => hnone x (hpre.subset hx)

/-- An entry set with a zero time to live is found 300 seconds later. -/
theorem not_fresh_zeroTtl :
    ¬ Fresh 2000 300 [((0 : ℚ), (CacheOp.set "forecast:0f" 1 (some 0) : CacheOp ℕ))] :=
  not_fresh_of_zero (by decide) (by decide) [] ⟨"forecast:0f", 1, rfl⟩

end Run

end WindSight
