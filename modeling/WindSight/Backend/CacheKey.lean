import WindSight.Backend.Routers

/-! # Cache keys identify requests

The text of a datetime determines it, the JSON text of the cache parameters determines the
parameters of an endpoint, and the prefix of a key determines the endpoint. So requests whose
parameter texts the truncated digest does not confuse have the same key only if they are the same
request (`key_inj`). -/

namespace WindSight

open NumberText

/-! ## The text of a datetime -/

namespace Datetime

variable {t t' : Datetime}

/-- The text of the UTC offset determines it. -/
theorem offsetText_inj (h : t.offsetText = t'.offsetText) : t.utcoffset = t'.utcoffset := by
  rw [offsetText, offsetText] at h
  cases ho : t.utcoffset with
  | none =>
    cases ho' : t'.utcoffset with
    | none => rfl
    | some o' => simp [ho, ho'] at h
  | some o =>
    cases ho' : t'.utcoffset with
    | none => simp [ho, ho'] at h
    | some o' =>
      simp only [ho, ho'] at h
      have hrange := t.offset_range o (by simp [ho])
      have hrange' := t'.offset_range o' (by simp [ho'])
      obtain ⟨hsign, htext⟩ := List.cons.inj h
      obtain ⟨hhour, hminute⟩ := List.append_inj htext (by rw [length_pad, length_pad])
      have h60 : o.natAbs / 60 = o'.natAbs / 60 := pad_inj (by omega) (by omega) hhour
      have hmod : o.natAbs % 60 = o'.natAbs % 60 :=
        pad_inj (by omega) (by omega) (List.cons.inj hminute).2
      have hneg : o < 0 ↔ o' < 0 := by
        by_cases h₁ : o < 0 <;> by_cases h₂ : o' < 0 <;> simp [h₁, h₂] at hsign ⊢
      congr 1
      omega

/-- An offset does not start like a fraction. -/
theorem head_offsetText_ne (t : Datetime) : t.offsetText.head? ≠ some '.' := by
  rw [offsetText]
  cases t.utcoffset with
  | none => simp
  | some o => by_cases h : o < 0 <;> simp [h]

/-- The text after the seconds determines the microseconds and the UTC offset. -/
theorem fractionText_offsetText_inj
    (h : t.fractionText ++ t.offsetText = t'.fractionText ++ t'.offsetText) :
    t.microsecond = t'.microsecond ∧ t.utcoffset = t'.utcoffset := by
  rw [fractionText, fractionText] at h
  by_cases h0 : t.microsecond = 0 <;> by_cases h0' : t'.microsecond = 0
  · rw [if_pos h0, if_pos h0', List.nil_append, List.nil_append] at h
    exact ⟨h0.trans h0'.symm, offsetText_inj h⟩
  · -- one text goes on with an offset or ends, the other with a point
    rw [if_pos h0, if_neg h0', List.nil_append] at h
    exact absurd (congrArg List.head? h) t.head_offsetText_ne
  · rw [if_neg h0, if_pos h0', List.nil_append] at h
    exact absurd (congrArg List.head? h.symm) t'.head_offsetText_ne
  · rw [if_neg h0, if_neg h0', List.cons_append, List.cons_append] at h
    obtain ⟨hfrac, hoff⟩ := List.append_inj (List.cons.inj h).2 (by rw [length_pad, length_pad])
    exact ⟨pad_inj t.time_range.2.2.2 t'.time_range.2.2.2 hfrac, offsetText_inj hoff⟩

/-- **The text of a datetime determines it.** -/
theorem str_injective : Function.Injective str := by
  intro t t' h
  have hday : ∀ t : Datetime, t.day < 10 ^ 2 := by
    intro t
    have := t.day_range.2
    rw [daysInMonth] at this
    split at this <;> split at this <;> omega
  -- every field but the last two has a fixed width
  simp only [str, List.append_assoc, List.cons_append] at h
  obtain ⟨hyear, h⟩ := List.append_inj h (by rw [length_pad, length_pad])
  obtain ⟨hmonth, h⟩ := List.append_inj (List.cons.inj h).2 (by rw [length_pad, length_pad])
  obtain ⟨hdayText, h⟩ := List.append_inj (List.cons.inj h).2 (by rw [length_pad, length_pad])
  obtain ⟨hhour, h⟩ := List.append_inj (List.cons.inj h).2 (by rw [length_pad, length_pad])
  obtain ⟨hminute, h⟩ := List.append_inj (List.cons.inj h).2 (by rw [length_pad, length_pad])
  obtain ⟨hsecond, h⟩ := List.append_inj (List.cons.inj h).2 (by rw [length_pad, length_pad])
  obtain ⟨hmicro, hoffset⟩ := fractionText_offsetText_inj h
  have hy := t.year_range
  have hy' := t'.year_range
  have hm := t.month_range
  have hm' := t'.month_range
  have ht := t.time_range
  have ht' := t'.time_range
  have := pad_inj (by omega) (by omega) hyear
  have := pad_inj (by omega) (by omega) hmonth
  have := pad_inj (hday t) (hday t') hdayText
  have := pad_inj (by omega) (by omega) hhour
  have := pad_inj (by omega) (by omega) hminute
  have := pad_inj (by omega) (by omega) hsecond
  cases t
  cases t'
  simp_all

/-- The text of a datetime holds no quote. -/
theorem quote_notMem_str (t : Datetime) : '"' ∉ t.str := by
  have hpad : ∀ w n, '"' ∉ pad w n := notMem_pad (by decide)
  have hfrac : '"' ∉ t.fractionText := by
    rw [fractionText]
    split <;> simp [hpad]
  have hoff : '"' ∉ t.offsetText := by
    rw [offsetText]
    cases t.utcoffset with
    | none => simp
    | some o => by_cases h : o < 0 <;> simp [h, hpad]
  simp [str, hpad, hfrac, hoff]

end Datetime

/-! ## The text of the parameters -/

/-- The parameter text of `/generation`. -/
theorem dumps_generation (s e : List Char) :
    (dumps [("start", .str s), ("end", .str e)]).toList =
      "\x7b\"end\": \"".toList ++
        (e ++ '"' :: (", \"start\": \"".toList ++ (s ++ ['"', '}']))) := by
  simp [dumps, dumpsItem, ParamValue.dumps, List.insertionSort, List.orderedInsert]

/-- The parameter text of `/forecast` and `/metrics`. -/
theorem dumps_horizon (s e : List Char) (x : PyFloat) :
    (dumps [("start", .str s), ("end", .str e), ("horizon", .num x)]).toList =
      "\x7b\"end\": \"".toList ++ (e ++ '"' :: (", \"horizon\": ".toList ++
        (x.repr ++ ',' :: (" \"start\": \"".toList ++ (s ++ ['"', '}']))))) := by
  simp [dumps, dumpsItem, ParamValue.dumps, List.insertionSort, List.orderedInsert]

/-- The parameter text of `/generation` determines the window. -/
theorem dumps_generation_inj {s s' e e' : Datetime}
    (h : dumps [("start", .str s.str), ("end", .str e.str)]
      = dumps [("start", .str s'.str), ("end", .str e'.str)]) : s = s' ∧ e = e' := by
  have h := congrArg String.toList h
  rw [dumps_generation, dumps_generation] at h
  obtain ⟨hend, h⟩ := append_cons_inj e.quote_notMem_str e'.quote_notMem_str
    (List.append_cancel_left h)
  exact ⟨Datetime.str_injective (List.append_cancel_right (List.append_cancel_left h)),
    Datetime.str_injective hend⟩

/-- The parameter text of `/forecast` and `/metrics` determines the window and the horizon. -/
theorem dumps_horizon_inj {s s' e e' : Datetime} {x x' : PyFloat}
    (h : dumps [("start", .str s.str), ("end", .str e.str), ("horizon", .num x)]
      = dumps [("start", .str s'.str), ("end", .str e'.str), ("horizon", .num x')]) :
    s = s' ∧ e = e' ∧ x = x' := by
  have hcomma : ∀ x : PyFloat, ',' ∉ x.repr := PyFloat.notMem_repr (by decide) (by decide)
  have h := congrArg String.toList h
  rw [dumps_horizon, dumps_horizon] at h
  obtain ⟨hend, h⟩ := append_cons_inj e.quote_notMem_str e'.quote_notMem_str
    (List.append_cancel_left h)
  obtain ⟨hhorizon, h⟩ := append_cons_inj (hcomma x) (hcomma x') (List.append_cancel_left h)
  exact ⟨Datetime.str_injective (List.append_cancel_right (List.append_cancel_left h)),
    Datetime.str_injective hend, PyFloat.repr_injective hhorizon⟩

/-- The endpoint and the parameter text of a request determine it. -/
theorem cacheParams_inj {req req' : Request} (hpre : req.pre = req'.pre)
    (h : dumps req.cacheParams = dumps req'.cacheParams) : req = req' := by
  cases req with
  | generation s e =>
    cases req' with
    | generation s' e' =>
      obtain ⟨rfl, rfl⟩ := dumps_generation_inj h
      rfl
    | forecast s' e' x' => simp [Request.pre] at hpre
    | metrics s' e' x' => simp [Request.pre] at hpre
  | forecast s e x =>
    cases req' with
    | generation s' e' => simp [Request.pre] at hpre
    | forecast s' e' x' =>
      obtain ⟨rfl, rfl, hx⟩ := dumps_horizon_inj h
      rw [Subtype.ext hx]
    | metrics s' e' x' => simp [Request.pre] at hpre
  | metrics s e x =>
    cases req' with
    | generation s' e' => simp [Request.pre] at hpre
    | forecast s' e' x' => simp [Request.pre] at hpre
    | metrics s' e' x' =>
      obtain ⟨rfl, rfl, hx⟩ := dumps_horizon_inj h
      rw [Subtype.ext hx]

/-! ## Keys -/

/-- The cache key of a request. -/
def Request.key (hexdigest : String → String) (req : Request) : String :=
  makeKey hexdigest req.pre req.cacheParams

/-- The truncated digest does not confuse the parameter texts of the given requests. -/
def NoCollision (hexdigest : String → String) (reqs : Set Request) : Prop :=
  ∀ req ∈ reqs, ∀ req' ∈ reqs,
    hashStr hexdigest (dumps req.cacheParams) = hashStr hexdigest (dumps req'.cacheParams) →
      dumps req.cacheParams = dumps req'.cacheParams

/-- A key determines its prefix and its hash. -/
theorem makeKey_inj {hexdigest : String → String} {req req' : Request}
    (h : req.key hexdigest = req'.key hexdigest) :
    req.pre = req'.pre ∧
      hashStr hexdigest (dumps req.cacheParams) = hashStr hexdigest (dumps req'.cacheParams) := by
  have hcolon : ∀ req : Request, ':' ∉ req.pre.toList := by
    intro req
    cases req <;> simp [Request.pre]
  have htext := congrArg String.toList h
  simp only [Request.key, makeKey, String.toList_append, List.append_assoc] at htext
  -- no prefix holds a colon, so the first colon ends it
  obtain ⟨hpre, hhash⟩ := append_cons_inj (hcolon req) (hcolon req') htext
  exact ⟨String.toList_inj.mp hpre, String.toList_inj.mp hhash⟩

/-- **Requests with the same key are the same request**, unless the digest confuses their texts. -/
theorem key_inj {hexdigest : String → String} {reqs : Set Request}
    (hhash : NoCollision hexdigest reqs) {req req' : Request} (hreq : req ∈ reqs)
    (hreq' : req' ∈ reqs) (h : req.key hexdigest = req'.key hexdigest) : req = req' := by
  obtain ⟨hpre, hdigest⟩ := makeKey_inj h
  exact cacheParams_inj hpre (hhash req hreq req' hreq' hdigest)

end WindSight
