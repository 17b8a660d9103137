import WindSight.Backend.HorizonOrder
import WindSight.Pipeline.Completeness

/-! # Answers after a load

Loading a frame of forecasts upserts its rows. What the API answers for a slot afterwards is
determined by what it answered before and by the frame alone: `updatedAnswer` compares the old
answer with the latest row of the frame that is eligible for the slot. Rows of other slots, rows
published too late for the horizon and rows older than the answer change nothing. All this is so for
the hours that DuckDB reads for a horizon; `answerAt_load_iff` says when it is so for the hours that
are requested. -/

namespace WindSight

open ListQuery

/-! ## The law -/

/-- The row of a frame for a slot with the greatest publish time among those published at least `h`
hours ahead. -/
def latestEligible (df : List ForecastRow) (h : ℚ) (t : Instant) : Option ForecastRow :=
  (rankedPartition ForecastRow.startTime ForecastRow.publishTime
    (df.filter fun f => f.Eligible h) t).head?

/-- The answer for a slot after a load: the row of the frame, if there is one and it was published
no earlier than the old answer, and the old answer otherwise. -/
def updatedAnswer (old : Option HorizonForecast) (new : Option ForecastRow) :
    Option HorizonForecast :=
  match new, old with
  | none, _ => old
  | some r, none => some r.toHorizonForecast
  | some r, some p => if p.publishTime ≤ r.publishTime then some r.toHorizonForecast else some p

/-! ## Reading the two sides -/

section Frame

variable {df : List ForecastRow} {h : ℚ} {t : Instant}

/-- The row of the frame is the latest eligible one of its slot. -/
theorem isLatest_of_latestEligible {r : ForecastRow} (hr : latestEligible df h t = some r) :
    IsLatest ForecastRow.startTime ForecastRow.publishTime {x | x ∈ df} (ForecastRow.Eligible h) r
      ∧ r.startTime = t := by
  have hslot : r.startTime = t := (mem_rankedPartition.mp (List.mem_of_mem_head? hr)).2
  subst hslot
  obtain ⟨hmem, hmax⟩ := rankedFirst_greatest (mem_rankedFirst_iff_head.mpr hr)
  simp only [List.mem_filter, decide_eq_true_eq] at hmem hmax
  exact ⟨⟨hmem.1, hmem.2, fun x hx hxs hxel => hmax x ⟨hx, hxel⟩ hxs⟩, rfl⟩

/-- The frame has no row for the slot when none is eligible. -/
theorem not_eligible_of_latestEligible (hnone : latestEligible df h t = none) {x : ForecastRow}
    (hx : x ∈ df) (hslot : x.startTime = t) : ¬ x.Eligible h := by
  intro hel
  have hmem : x ∈ rankedPartition ForecastRow.startTime ForecastRow.publishTime
      (df.filter fun f => f.Eligible h) t :=
    mem_rankedPartition.mpr ⟨List.mem_filter.mpr ⟨hx, decide_eq_true hel⟩, hslot⟩
  rw [List.head?_eq_none_iff.mp hnone] at hmem
  cases hmem

end Frame

section Answer

variable {conn : Conn} {start stop : Datetime} {h : ℚ} {t : Instant}

/-- The answer for a slot of the window is the selected forecast. -/
theorem forecastAt_of_isSelected (hwin : conn.bind start ≤ t ∧ t ≤ conn.bind stop)
    {f : ForecastRow} (hf : IsSelected conn.db.windForecast h f) (hslot : f.startTime = t) :
    forecastAt conn start stop h t = some f.toHorizonForecast :=
  forecastAt_eq_some.mpr ⟨hwin, f, hf, hslot, rfl⟩

/-- A slot of the window is not answered exactly when it has no eligible forecast. -/
theorem forecastAt_eq_none (hwin : conn.bind start ≤ t ∧ t ≤ conn.bind stop) :
    forecastAt conn start stop h t = none ↔
      ∀ f ∈ conn.db.windForecast, f.startTime = t → ¬ f.Eligible h := by
  constructor
  · intro hnone f hf hslot hel
    obtain ⟨g, hg, hgslot⟩ := exists_isSelected hf hel
    rw [forecastAt_of_isSelected hwin hg (hgslot.trans hslot)] at hnone
    cases hnone
  · intro hno
    cases hans : forecastAt conn start stop h t with
    | none => rfl
    | some p =>
      obtain ⟨-, f, hf, hslot, -⟩ := forecastAt_eq_some.mp hans
      exact absurd hf.eligible (hno f hf.mem hslot)

/-- Outside the window no slot is answered. -/
theorem forecastAt_of_not_window (hwin : ¬ (conn.bind start ≤ t ∧ t ≤ conn.bind stop)) :
    forecastAt conn start stop h t = none := by
  cases hans : forecastAt conn start stop h t with
  | none => rfl
  | some p => exact absurd (forecastAt_eq_some.mp hans).1 hwin

end Answer

/-! ## Selection after an upsert -/

section Upsert

variable {table : WindForecast} {df : List ForecastRow} {h : ℚ}

/-- The table after the upsert of a frame with distinct keys. -/
theorem rowSet_upsertAll_of_nodup (table : WindForecast) (hdf : (df.map ForecastRow.key).Nodup) :
    (table.upsertAll df).rowSet = overlay ForecastRow.key table.rowSet {x | x ∈ df} :=
  KeyedTable.rowSet_upsertAll _ fun _ hx _ hy hxy => List.inj_on_of_nodup_map hdf hx hy hxy

/-- The latest eligible row of the frame is selected, unless an old row is later. -/
theorem isSelected_upsertAll_right (hdf : (df.map ForecastRow.key).Nodup) {r : ForecastRow}
    (hr : IsLatest ForecastRow.startTime ForecastRow.publishTime {x | x ∈ df}
      (ForecastRow.Eligible h) r)
    (hold : ∀ x ∈ table, x.startTime = r.startTime → x.Eligible h →
      x.publishTime ≤ r.publishTime) :
    IsSelected (table.upsertAll df) h r := by
  show IsLatest _ _ (table.upsertAll df).rowSet _ r
  rw [rowSet_upsertAll_of_nodup table hdf]
  exact hr.overlay_right hold

/-- A selected row stays selected, if every eligible row of the frame for its slot is older. -/
theorem isSelected_upsertAll_left (hdf : (df.map ForecastRow.key).Nodup) {f : ForecastRow}
    (hf : IsSelected table h f)
    (hnew : ∀ x ∈ df, x.startTime = f.startTime → x.Eligible h → x.publishTime < f.publishTime) :
    IsSelected (table.upsertAll df) h f := by
  show IsLatest _ _ (table.upsertAll df).rowSet _ f
  rw [rowSet_upsertAll_of_nodup table hdf]
  refine hf.overlay_left hnew ?_
  intro x hslot hpub
  -- eligibility depends on the key of a row only
  have hel := hf.eligible
  unfold ForecastRow.Eligible at hel ⊢
  rwa [hslot, hpub]

end Upsert

/-! ## The law holds -/

section Load

variable {conn conn' : Conn} {df : List ForecastRow} {start stop : Datetime} {h : ℚ} {t : Instant}

/-- Sessions in one time zone read a window alike. -/
theorem window_congr (hzone : conn'.timeZone = conn.timeZone) :
    (conn'.bind start ≤ t ∧ t ≤ conn'.bind stop) ↔ conn.bind start ≤ t ∧ t ≤ conn.bind stop := by
  unfold Conn.bind
  rw [hzone]

/-- The answer for a slot is not changed by a frame whose eligible rows for it are all older. -/
theorem forecastAt_eq_of_older (hzone : conn'.timeZone = conn.timeZone)
    (hload : conn'.db.windForecast = conn.db.windForecast.upsertAll df)
    (hdf : (df.map ForecastRow.key).Nodup) {p : HorizonForecast}
    (hold : forecastAt conn start stop h t = some p)
    (holder : ∀ x ∈ df, x.startTime = t → x.Eligible h → x.publishTime < p.publishTime) :
    forecastAt conn' start stop h t = some p := by
  obtain ⟨hwin, f, hf, rfl, rfl⟩ := forecastAt_eq_some.mp hold
  refine forecastAt_of_isSelected ((window_congr hzone).mpr hwin) ?_ rfl
  rw [hload]
  exact isSelected_upsertAll_left hdf hf holder

/-- The latest eligible row of the frame answers its slot, unless an old row is later. -/
theorem forecastAt_eq_of_latest (hzone : conn'.timeZone = conn.timeZone)
    (hload : conn'.db.windForecast = conn.db.windForecast.upsertAll df)
    (hdf : (df.map ForecastRow.key).Nodup) (hwin : conn.bind start ≤ t ∧ t ≤ conn.bind stop)
    {r : ForecastRow} (hnew : latestEligible df h t = some r)
    (hlate : ∀ x ∈ conn.db.windForecast, x.startTime = t → x.Eligible h →
      x.publishTime ≤ r.publishTime) :
    forecastAt conn' start stop h t = some r.toHorizonForecast := by
  obtain ⟨hr, rfl⟩ := isLatest_of_latestEligible hnew
  refine forecastAt_of_isSelected ((window_congr hzone).mpr hwin) ?_ rfl
  rw [hload]
  exact isSelected_upsertAll_right hdf hr hlate

/-- A slot without an eligible row in the frame is answered as before. -/
theorem forecastAt_eq_of_none (hzone : conn'.timeZone = conn.timeZone)
    (hload : conn'.db.windForecast = conn.db.windForecast.upsertAll df)
    (hdf : (df.map ForecastRow.key).Nodup) (hwin : conn.bind start ≤ t ∧ t ≤ conn.bind stop)
    (hnew : latestEligible df h t = none) :
    forecastAt conn' start stop h t = forecastAt conn start stop h t := by
  have hno : ∀ x ∈ df, x.startTime = t → ¬ x.Eligible h :=
    fun _ hx hslot => not_eligible_of_latestEligible hnew hx hslot
  cases hold : forecastAt conn start stop h t with
  | some p =>
    exact forecastAt_eq_of_older hzone hload hdf hold
      fun x hx hslot hel => absurd hel (hno x hx hslot)
  | none =>
    -- neither the table nor the frame has an eligible row for the slot
    rw [forecastAt_eq_none hwin] at hold
    apply (forecastAt_eq_none ((window_congr hzone).mpr hwin)).mpr
    intro f hf hslot
    rw [hload, ← KeyedTable.mem_rowSet, rowSet_upsertAll_of_nodup _ hdf] at hf
    rcases hf with hf | ⟨hf, -⟩
    exacts [hno f hf hslot, hold f hf hslot]

/-- The answers after a frame has been upserted. -/
theorem forecastAt_upsertAll (hzone : conn'.timeZone = conn.timeZone)
    (hload : conn'.db.windForecast = conn.db.windForecast.upsertAll df)
    (hdf : (df.map ForecastRow.key).Nodup) (hwin : conn.bind start ≤ t ∧ t ≤ conn.bind stop) :
    forecastAt conn' start stop h t
      = updatedAnswer (forecastAt conn start stop h t) (latestEligible df h t) := by
  cases hnew : latestEligible df h t with
  | none => exact forecastAt_eq_of_none hzone hload hdf hwin hnew
  | some r =>
    cases hold : forecastAt conn start stop h t with
    | none =>
      -- a slot that could not be answered before
      rw [forecastAt_eq_none hwin] at hold
      exact forecastAt_eq_of_latest hzone hload hdf hwin hnew
        fun x hx hslot hel => absurd hel (hold x hx hslot)
    | some p =>
      obtain ⟨-, f, hf, hfslot, rfl⟩ := forecastAt_eq_some.mp hold
      by_cases hle : f.publishTime ≤ r.publishTime
      · rw [updatedAnswer, if_pos (by exact hle)]
        apply forecastAt_eq_of_latest hzone hload hdf hwin hnew
        intro x hx hslot hel
        exact (hf.latest x hx (hslot.trans hfslot.symm) hel).trans hle
      · -- every eligible row of the frame is older than the answer
        rw [updatedAnswer, if_neg (by exact hle)]
        obtain ⟨hr, rfl⟩ := isLatest_of_latestEligible hnew
        apply forecastAt_eq_of_older hzone hload hdf hold
        intro x hx hslot hel
        exact (hr.latest x hx hslot hel).trans_lt (not_le.mp hle)

end Load

/-- A load that returns has upserted the rows of its frame. -/
theorem upsertAll_of_load {env : BatchEnv} {df : List ForecastRow} {n : ℕ} {s s' : IngestState}
    (h : exec (loadWindForecast env df) s = (.ok n, s')) :
    s'.db.windForecast = s.db.windForecast.upsertAll df := by
  by_cases hdf : df = []
  · subst hdf
    obtain rfl : s = s' := congrArg Prod.snd h
    rfl
  · rw [exec_loadWindForecast env hdf] at h
    cases hins : env.insertForecast with
    | error e =>
      rw [hins] at h
      cases h
    | ok _ =>
      rw [hins] at h
      obtain rfl := congrArg Prod.snd h
      rfl

/-! ## The law at the requested horizon -/

section Reading

variable {table : WindForecast} {df : List ForecastRow} {h k : ℚ} {t : Instant} {f r : ForecastRow}

/-- A frame with an eligible row for the slot has a latest one. -/
theorem exists_latestEligible {x : ForecastRow} (hx : x ∈ df) (hslot : x.startTime = t)
    (hel : x.Eligible h) : ∃ r, latestEligible df h t = some r := by
  rw [← Option.isSome_iff_exists, Option.isSome_iff_ne_none]
  exact fun hnone => not_eligible_of_latestEligible hnone hx hslot hel

/-- Rows of a slot are published late enough to be eligible in the order of their publish times. -/
theorem ForecastRow.Eligible.of_publishTime_le {x y : ForecastRow} (hy : y.Eligible h)
    (hslot : x.startTime = y.startTime) (hle : x.publishTime ≤ y.publishTime) : x.Eligible h := by
  have hle' : (x.publishTime : ℚ) ≤ y.publishTime := by exact_mod_cast hle
  unfold Eligible at hy ⊢
  rw [hslot]
  exact hle'.trans hy

/-- The answer names the row it is made of. -/
theorem toHorizonForecast_injective {x y : ForecastRow}
    (h : x.toHorizonForecast = y.toHorizonForecast) : x = y := by
  obtain ⟨t, p, g⟩ := x
  obtain ⟨t', p', g'⟩ := y
  simp only [ForecastRow.toHorizonForecast, HorizonForecast.mk.injEq] at h
  obtain ⟨rfl, rfl, rfl, -⟩ := h
  rfl

/-- Older rows do not replace the answer. -/
theorem updatedAnswer_of_older {p : HorizonForecast} {new : Option ForecastRow}
    (h : ∀ r, new = some r → r.publishTime < p.publishTime) :
    updatedAnswer (some p) new = some p := by
  cases new with
  | none => rfl
  | some r => exact if_neg (not_le.mpr (h r rfl))

/-- An answer that is updated by a row is that row. -/
theorem updatedAnswer_of_newer {old : Option HorizonForecast}
    (h : ∀ p, old = some p → p.publishTime ≤ r.publishTime) :
    updatedAnswer old (some r) = some r.toHorizonForecast := by
  cases old with
  | none => rfl
  | some p => exact if_pos (h p rfl)

/-- An answer is updated by a row as it is by an older one exactly if it is later than the row, or
is that row. -/
theorem updatedAnswer_eq_iff_of_older {old : Option HorizonForecast} {new : Option ForecastRow}
    (hnew : ∀ r', new = some r' → r'.publishTime < r.publishTime) :
    updatedAnswer old (some r) = updatedAnswer old new ↔
      ∃ p, old = some p ∧ (r.publishTime < p.publishTime ∨ p = r.toHorizonForecast) := by
  have hne : ∀ r', new = some r' → r.toHorizonForecast ≠ r'.toHorizonForecast :=
    fun r' hr' heq => (hnew r' hr').ne' (congrArg HorizonForecast.publishTime heq)
  cases old with
  | none =>
    refine iff_of_false (fun heq => ?_) fun ⟨p, hp, _⟩ => nomatch hp
    cases new with
    | none => cases heq
    | some r' => exact hne r' rfl (Option.some.inj heq)
  | some p =>
    by_cases hlate : p.publishTime ≤ r.publishTime
    · have hkeep : p = r.toHorizonForecast → updatedAnswer (some p) new = some p := by
        rintro rfl
        exact updatedAnswer_of_older hnew
      rw [updatedAnswer_of_newer fun _ hp => Option.some.inj hp ▸ hlate]
      constructor
      · intro heq
        refine ⟨p, rfl, Or.inr ?_⟩
        cases new with
        | none => exact (Option.some.inj heq).symm
        | some r' =>
          rw [updatedAnswer] at heq
          split_ifs at heq
          exacts [absurd (Option.some.inj heq) (hne r' rfl), (Option.some.inj heq).symm]
      · rintro ⟨_, hp, hlt | heq⟩ <;> obtain rfl := Option.some.inj hp
        · exact absurd hlt (not_lt.mpr hlate)
        · rw [hkeep heq, heq]
    · -- the answer is later than both
      have hlt : r.publishTime < p.publishTime := not_le.mp hlate
      rw [updatedAnswer_of_older fun r' hr' => Option.some.inj hr' ▸ hlt,
        updatedAnswer_of_older fun r' hr' => (hnew r' hr').trans hlt]
      exact iff_of_true rfl ⟨p, rfl, Or.inl hlt⟩

/-- The row of a frame is shared by two horizons, or it is too late for the larger one, and what the
frame has at the larger one is older. -/
theorem latestEligible_eq_or_lt (hdf : (df.map ForecastRow.key).Nodup) (hle : k ≤ h)
    (hr : latestEligible df k t = some r) :
    latestEligible df h t = some r ∨ ¬ r.Eligible h ∧
      ∀ r', latestEligible df h t = some r' → r'.publishTime < r.publishTime := by
  obtain ⟨hlatest, hslot⟩ := isLatest_of_latestEligible hr
  by_cases hel : r.Eligible h
  · left
    obtain ⟨r', hr'⟩ := exists_latestEligible hlatest.mem hslot hel
    obtain ⟨hlatest', hslot'⟩ := isLatest_of_latestEligible hr'
    -- each is no later than the other
    have hpub : r'.publishTime = r.publishTime := le_antisymm
      (hlatest.latest r' hlatest'.mem (hslot'.trans hslot.symm) (hlatest'.eligible.mono hle))
      (hlatest'.latest r hlatest.mem (hslot.trans hslot'.symm) hel)
    have hkey : r'.key = r.key := Prod.ext (hslot'.trans hslot.symm) hpub
    rw [hr', List.inj_on_of_nodup_map hdf hlatest'.mem hlatest.mem hkey]
  · right
    refine ⟨hel, fun r' hr' => ?_⟩
    obtain ⟨hlatest', hslot'⟩ := isLatest_of_latestEligible hr'
    by_contra hge
    exact hel (hlatest'.eligible.of_publishTime_le (hslot.trans hslot'.symm) (not_lt.mp hge))

/-- The rows of the frame for the slot that are eligible at `k`, but not at `h`, change nothing:
each is in the table, or older than a row of the table that is eligible at `k`. -/
def NoneBetween (table : WindForecast) (df : List ForecastRow) (k h : ℚ) (t : Instant) : Prop :=
  ∀ x ∈ df, x.startTime = t → x.Eligible k → x.Eligible h ∨ x ∈ table ∨
    ∃ y ∈ table, y.startTime = t ∧ y.Eligible k ∧ x.publishTime < y.publishTime

variable {conn : Conn} {start stop : Datetime}

/-- Where the latest row of the frame is eligible at `k` only, the rows between change nothing
exactly if the answer at `k` is later than it, or is that row. -/
theorem noneBetween_iff (hdf : (df.map ForecastRow.key).Nodup)
    (hr : IsLatest ForecastRow.startTime ForecastRow.publishTime {x | x ∈ df}
      (ForecastRow.Eligible k) r) (hnot : ¬ r.Eligible h)
    (hwin : conn.bind start ≤ r.startTime ∧ r.startTime ≤ conn.bind stop) :
    NoneBetween conn.db.windForecast df k h r.startTime ↔
      ∃ p, forecastAt conn start stop k r.startTime = some p ∧
        (r.publishTime < p.publishTime ∨ p = r.toHorizonForecast) := by
  constructor
  · intro hbetween
    rcases hbetween r hr.mem rfl hr.eligible with hel | hmem | ⟨y, hy, hslot, hel, hlt⟩
    · exact absurd hel hnot
    · obtain ⟨f, hf, hfslot⟩ := exists_isSelected hmem hr.eligible
      refine ⟨_, forecastAt_of_isSelected hwin hf hfslot, ?_⟩
      rcases (hf.latest r hmem hfslot.symm hr.eligible).lt_or_eq with hlt | hpub
      · exact Or.inl hlt
      · rw [WindForecast.eq_of_times hf.mem hmem hfslot hpub.symm]
        exact Or.inr rfl
    · obtain ⟨f, hf, hfslot⟩ := exists_isSelected hy hel
      refine ⟨_, forecastAt_of_isSelected hwin hf (hfslot.trans hslot), Or.inl ?_⟩
      exact hlt.trans_le (hf.latest y hy hfslot.symm hel)
  · rintro ⟨p, hp, hcase⟩ x hx hslot hel
    obtain ⟨-, f, hf, hfslot, rfl⟩ := forecastAt_eq_some.mp hp
    have hxr : x.publishTime ≤ r.publishTime := hr.latest x hx hslot hel
    rcases hcase with hlt | heq
    · exact Or.inr (Or.inr ⟨f, hf.mem, hfslot, hf.eligible, hxr.trans_lt hlt⟩)
    · obtain rfl := toHorizonForecast_injective heq
      rcases hxr.lt_or_eq with hlt | hpub
      · exact Or.inr (Or.inr ⟨f, hf.mem, rfl, hf.eligible, hlt⟩)
      · -- the row of the frame has the key of the answer, so it is the answer
        have hkey : x.key = f.key := Prod.ext hslot hpub
        rw [List.inj_on_of_nodup_map hdf hx hr.mem hkey]
        exact Or.inr (Or.inl hf.mem)

/-- The update at the hours read is that at the hours requested exactly if the rows of the frame
between the two change nothing. -/
theorem updatedAnswer_eq_iff (hdf : (df.map ForecastRow.key).Nodup) (hle : k ≤ h)
    (hwin : conn.bind start ≤ t ∧ t ≤ conn.bind stop) :
    updatedAnswer (forecastAt conn start stop k t) (latestEligible df k t)
        = updatedAnswer (forecastAt conn start stop k t) (latestEligible df h t) ↔
      NoneBetween conn.db.windForecast df k h t := by
  cases hr : latestEligible df k t with
  | none =>
    have hno : ∀ x ∈ df, x.startTime = t → ¬ x.Eligible k :=
      fun _ hx hslot => not_eligible_of_latestEligible hr hx hslot
    have hnone : latestEligible df h t = none := by
      by_contra hsome
      obtain ⟨r, hr'⟩ := Option.ne_none_iff_exists'.mp hsome
      obtain ⟨hlatest, hslot⟩ := isLatest_of_latestEligible hr'
      exact hno r hlatest.mem hslot (hlatest.eligible.mono hle)
    rw [hnone]
    exact iff_of_true rfl fun x hx hslot hel => absurd hel (hno x hx hslot)
  | some r =>
    obtain ⟨hlatest, rfl⟩ := isLatest_of_latestEligible hr
    rcases latestEligible_eq_or_lt hdf hle hr with hsame | ⟨hnot, holder⟩
    · -- all rows eligible at `k` are eligible at `h`
      rw [hsame]
      refine iff_of_true rfl fun x hx hslot hel => Or.inl ?_
      obtain ⟨hlatest', -⟩ := isLatest_of_latestEligible hsame
      exact hlatest'.eligible.of_publishTime_le hslot (hlatest.latest x hx hslot hel)
    · rw [updatedAnswer_eq_iff_of_older holder, noneBetween_iff hdf hlatest hnot hwin]

end Reading

/-! ### The query as executed -/

/-- The row that `get_horizon_forecast` returns for a slot, as it is executed; `none` where the
query raises. -/
def answerAt (reader : IntervalReader) (conn : Conn) (start stop : Datetime) (h : ℚ) (t : Instant) :
    Option (Option HorizonForecast) :=
  (executeHorizonForecast reader conn start stop h).map fun rows => rows.find? (·.timestamp = t)

/-- What the law makes of the outcome before a load: without a row in the frame it stays as it is,
and an outcome without an answer is replaced by the row. -/
def updatedOutcome (before : Option (Option HorizonForecast)) (new : Option ForecastRow) :
    Option (Option HorizonForecast) :=
  match new with
  | none => before
  | some r => some (updatedAnswer before.join (some r))

section Outcome

variable {reader : IntervalReader} {conn conn' : Conn} {df : List ForecastRow}
  {start stop : Datetime} {h k : ℚ} {t : Instant}

theorem answerAt_of_read (hk : reader.read h = some k) :
    answerAt reader conn start stop h t = some (forecastAt conn start stop k t) := by
  rw [answerAt, executeHorizonForecast, Conn.execute_of_read hk]
  rfl

theorem answerAt_of_unread (hnone : reader.read h = none) :
    answerAt reader conn start stop h t
      = if windowForecasts conn start stop = [] then some none else none := by
  rw [answerAt, executeHorizonForecast, Conn.execute, hnone]
  split_ifs <;> rfl

theorem updatedOutcome_some (old : Option HorizonForecast) (new : Option ForecastRow) :
    updatedOutcome (some old) new = some (updatedAnswer old new) := by
  cases new <;> rfl

/-- The window has forecasts after a load if it had some before, or the frame has some. -/
theorem windowForecasts_load (hzone : conn'.timeZone = conn.timeZone)
    (hload : conn'.db.windForecast = conn.db.windForecast.upsertAll df) :
    windowForecasts conn' start stop = [] ↔ windowForecasts conn start stop = [] ∧
      ∀ x ∈ df, ¬ (conn.bind start ≤ x.startTime ∧ x.startTime ≤ conn.bind stop) := by
  simp only [List.eq_nil_iff_forall_not_mem, mem_windowForecasts, not_and, hload]
  constructor
  · intro hno
    -- a key of the table or of the frame is a key after the load
    have hkey : ∀ key : Instant × Instant,
        ((∃ x ∈ df, x.key = key) ∨ ∃ x ∈ conn.db.windForecast, x.key = key) →
          conn.bind start ≤ key.1 → ¬ key.1 ≤ conn.bind stop := by
      intro key hkey
      obtain ⟨y, hy, rfl⟩ := (KeyedTable.exists_key_upsertAll conn.db.windForecast df key).mpr hkey
      have hy' := hno y hy
      unfold Conn.bind at hy' ⊢
      rwa [hzone] at hy'
    exact ⟨fun x hx => hkey x.key (Or.inr ⟨x, hx, rfl⟩),
      fun x hx => hkey x.key (Or.inl ⟨x, hx, rfl⟩)⟩
  · rintro ⟨hold, hnew⟩ x hx
    unfold Conn.bind at hold hnew ⊢
    rw [hzone]
    rcases KeyedTable.mem_or_mem_of_mem_upsertAll hx with hx | hx
    exacts [hold x hx, hnew x hx]

/-- A query whose horizon is not read does not notice a load: the frame has no eligible row for the
slot, and does not put the first forecast into the window. -/
def Unnoticed (conn : Conn) (df : List ForecastRow) (start stop : Datetime) (h : ℚ) (t : Instant) :
    Prop :=
  (∀ x ∈ df, x.startTime = t → ¬ x.Eligible h) ∧ (windowForecasts conn start stop ≠ [] ∨
    ∀ x ∈ df, ¬ (conn.bind start ≤ x.startTime ∧ x.startTime ≤ conn.bind stop))

/-- At a horizon that is not read the law holds exactly if the query does not notice the load. -/
theorem updatedOutcome_of_unread (hzone : conn'.timeZone = conn.timeZone)
    (hload : conn'.db.windForecast = conn.db.windForecast.upsertAll df)
    (hnone : reader.read h = none) :
    answerAt reader conn' start stop h t
        = updatedOutcome (answerAt reader conn start stop h t) (latestEligible df h t) ↔
      Unnoticed conn df start stop h t := by
  rw [answerAt_of_unread hnone, answerAt_of_unread hnone, Unnoticed]
  cases hnew : latestEligible df h t with
  | some r =>
    obtain ⟨hlatest, hslot⟩ := isLatest_of_latestEligible hnew
    refine iff_of_false (fun heq => ?_) fun hno => hno.1 r hlatest.mem hslot hlatest.eligible
    have hjoin : (if windowForecasts conn start stop = [] then some none
        else none : Option (Option HorizonForecast)).join = none := by
      split_ifs <;> rfl
    rw [updatedOutcome, hjoin] at heq
    split_ifs at heq
    cases heq
  | none =>
    rw [updatedOutcome,
      and_iff_right fun _ hx hslot => not_eligible_of_latestEligible hnew hx hslot]
    by_cases hold : windowForecasts conn start stop = []
    · by_cases hframe : ∀ x ∈ df, ¬ (conn.bind start ≤ x.startTime ∧ x.startTime ≤ conn.bind stop)
      · rw [if_pos ((windowForecasts_load hzone hload).mpr ⟨hold, hframe⟩), if_pos hold]
        exact iff_of_true rfl (Or.inr hframe)
      · rw [if_neg fun hnil => hframe ((windowForecasts_load hzone hload).mp hnil).2, if_pos hold]
        exact iff_of_false nofun fun hor => hor.elim (absurd hold) hframe
    · rw [if_neg fun hnil => hold ((windowForecasts_load hzone hload).mp hnil).1, if_neg hold]
      exact iff_of_true rfl (Or.inl hold)

/-- At a horizon that is read the law holds exactly if the rows of the frame between the hours read
and those requested change nothing. -/
theorem updatedOutcome_of_read (hzone : conn'.timeZone = conn.timeZone)
    (hload : conn'.db.windForecast = conn.db.windForecast.upsertAll df)
    (hdf : (df.map ForecastRow.key).Nodup) (hwin : conn.bind start ≤ t ∧ t ≤ conn.bind stop)
    (hread : reader.read h = some k) (hle : k ≤ h) :
    answerAt reader conn' start stop h t
        = updatedOutcome (answerAt reader conn start stop h t) (latestEligible df h t) ↔
      NoneBetween conn.db.windForecast df k h t := by
  rw [answerAt_of_read hread, answerAt_of_read hread, updatedOutcome_some,
    forecastAt_upsertAll hzone hload hdf hwin, Option.some.injEq]
  exact updatedAnswer_eq_iff hdf hle hwin

/-- A frame whose eligible rows for a slot are all older than its answer does not change it. -/
theorem forecastAt_eq_of_all_older (hzone : conn'.timeZone = conn.timeZone)
    (hload : conn'.db.windForecast = conn.db.windForecast.upsertAll df)
    (hdf : (df.map ForecastRow.key).Nodup)
    (holder : ∀ x ∈ df, x.startTime = t → x.Eligible k →
      ∃ p, forecastAt conn start stop k t = some p ∧ x.publishTime < p.publishTime) :
    forecastAt conn' start stop k t = forecastAt conn start stop k t := by
  by_cases hwin : conn.bind start ≤ t ∧ t ≤ conn.bind stop
  · cases hnew : latestEligible df k t with
    | none => exact forecastAt_eq_of_none hzone hload hdf hwin hnew
    | some r =>
      -- the frame has an eligible row for the slot, so the slot has an answer
      obtain ⟨hlatest, hslot⟩ := isLatest_of_latestEligible hnew
      obtain ⟨p, hp, -⟩ := holder r hlatest.mem hslot hlatest.eligible
      rw [hp]
      refine forecastAt_eq_of_older hzone hload hdf hp fun x hx hxslot hel => ?_
      obtain ⟨p', hp', hlt⟩ := holder x hx hxslot hel
      obtain rfl := Option.some.inj (hp.symm.trans hp')
      exact hlt
  · rw [forecastAt_of_not_window hwin,
      forecastAt_of_not_window fun hwin' => hwin ((window_congr hzone).mp hwin')]

end Outcome

/-- **Incremental update.** Let `k` be the hours that DuckDB reads for `h`. After the load of a
frame with distinct keys, the answer for a slot of the window is that of `updatedAnswer` at `k`: the
latest row of the frame eligible at `k` for the slot, if there is one and it was published no
earlier than the old answer, and otherwise the old answer; a slot outside the window is not
answered; and nothing changes for a slot whose eligible rows in the frame are all older than its
answer. At a horizon `h` of the API the same is so for the hours requested exactly if the rows of
the frame that are eligible at `k`, but not at `h`, change nothing, and, where DuckDB does not read
`h`, the query does not notice the load. -/
theorem answerAt_load_iff (reader : IntervalReader) {env : BatchEnv} {df : List ForecastRow} {n : ℕ}
    {s s' : IngestState} (hdf : (df.map ForecastRow.key).Nodup)
    (hload : exec (loadWindForecast env df) s = (.ok n, s')) (timeZone : ℤ)
    (start stop : Datetime) (h : ℚ) (t : Instant) :
    (∀ k, reader.read h = some k →
      (Conn.bind ⟨s.db, timeZone⟩ start ≤ t ∧ t ≤ Conn.bind ⟨s.db, timeZone⟩ stop →
        answerAt reader ⟨s'.db, timeZone⟩ start stop h t
          = (answerAt reader ⟨s.db, timeZone⟩ start stop h t).map
              (updatedAnswer · (latestEligible df k t))) ∧
      (¬ (Conn.bind ⟨s.db, timeZone⟩ start ≤ t ∧ t ≤ Conn.bind ⟨s.db, timeZone⟩ stop) →
        answerAt reader ⟨s.db, timeZone⟩ start stop h t = some none ∧
          answerAt reader ⟨s'.db, timeZone⟩ start stop h t = some none) ∧
      ((∀ x ∈ df, x.startTime = t → x.Eligible k →
          ∃ p, answerAt reader ⟨s.db, timeZone⟩ start stop h t = some (some p) ∧
            x.publishTime < p.publishTime) →
        answerAt reader ⟨s'.db, timeZone⟩ start stop h t
          = answerAt reader ⟨s.db, timeZone⟩ start stop h t)) ∧
    (Conn.bind ⟨s.db, timeZone⟩ start ≤ t ∧ t ≤ Conn.bind ⟨s.db, timeZone⟩ stop → 0 ≤ h → h ≤ 48 →
      (answerAt reader ⟨s'.db, timeZone⟩ start stop h t
          = updatedOutcome (answerAt reader ⟨s.db, timeZone⟩ start stop h t)
              (latestEligible df h t) ↔
        (∀ k, reader.read h = some k → NoneBetween s.db.windForecast df k h t) ∧
        (¬ PlainlyWritten h → Unnoticed ⟨s.db, timeZone⟩ df start stop h t))) := by
  have htable : s'.db.windForecast = s.db.windForecast.upsertAll df := upsertAll_of_load hload
  constructor
  · intro k hk
    rw [answerAt_of_read hk, answerAt_of_read hk]
    refine ⟨fun hwin => ?_, fun hwin => ?_, fun holder => ?_⟩
    · exact congrArg some (forecastAt_upsertAll rfl htable hdf hwin)
    · exact ⟨congrArg some (forecastAt_of_not_window hwin),
        congrArg some (forecastAt_of_not_window hwin)⟩
    · refine congrArg some (forecastAt_eq_of_all_older rfl htable hdf fun x hx hslot hel => ?_)
      obtain ⟨p, hp, hlt⟩ := holder x hx hslot hel
      exact ⟨p, Option.some.inj hp, hlt⟩
  · intro hwin h0 h48
    cases hread : reader.read h with
    | some k =>
      have hplain : PlainlyWritten h := reader.plainlyWritten_of_read h0 h48 hread
      rw [@updatedOutcome_of_read reader ⟨s.db, timeZone⟩ ⟨s'.db, timeZone⟩ df start stop h k t rfl
        htable hdf hwin hread (reader.le h0 h48 hread)]
      constructor
      · intro hbetween
        refine ⟨fun k' hk' => ?_, fun hnot => absurd hplain hnot⟩
        obtain rfl := Option.some.inj hk'
        exact hbetween
      · rintro ⟨hbetween, -⟩
        exact hbetween k rfl
    | none =>
      have hplain : ¬ PlainlyWritten h := (reader.read_eq_none_iff h0 h48).mp hread
      rw [@updatedOutcome_of_unread reader ⟨s.db, timeZone⟩ ⟨s'.db, timeZone⟩ df start stop h t rfl
        htable hread]
      constructor
      · intro hno
        exact ⟨fun _ hk => (nomatch hk), fun _ => hno⟩
      · rintro ⟨-, hno⟩
        exact hno hplain

/-! ### Loads into an empty table -/

/-- A frame of two publishes for 2024-01-01T06:00Z, three hours and half an hour ahead. -/
def exampleFrame : List ForecastRow :=
  [⟨1704088800000000, 1704078000000000, 80⟩, ⟨1704088800000000, 1704087000000000, 85⟩]

theorem exec_load_exampleFrame :
    exec (loadWindForecast (quietWorld 0) exampleFrame) ⟨.empty, 0, 0, [], []⟩
      = (.ok 2, ⟨⟨.empty, KeyedTable.empty.upsertAll exampleFrame⟩, 0, 0, [],
          [.loadForecast exampleFrame]⟩) := rfl

/-- At one hour, which is read as it is, the slot is answered with the first of them. -/
theorem answerAt_load_iff_exampleFrame :
    answerAt duckDbReader ⟨⟨.empty, KeyedTable.empty.upsertAll exampleFrame⟩, 0⟩ earliest latest 1
        1704088800000000
      = some (some ⟨1704088800000000, 80, 1704078000000000, 3⟩) := by
  obtain ⟨hlaw, -⟩ := (answerAt_load_iff duckDbReader (by decide) exec_load_exampleFrame 0 earliest
    latest 1 1704088800000000).1 1 (by decide +kernel)
  exact (hlaw (by decide +kernel)).trans (by decide +kernel)

/-- A frame of one publish for 2024-01-01T06:00Z, 12000 seconds ahead. -/
def lateFrame : List ForecastRow := [⟨1704088800000000, 1704076800000000, 80⟩]

/-- At 3.3333334 hours, which are more than 12000 seconds, the publish is not eligible; but DuckDB
reads 3.333333 hours, and the slot is answered with it. -/
theorem not_updated_lateFrame :
    exec (loadWindForecast (quietWorld 0) lateFrame) ⟨.empty, 0, 0, [], []⟩
        = (.ok 1, ⟨⟨.empty, KeyedTable.empty.upsertAll lateFrame⟩, 0, 0, [],
            [.loadForecast lateFrame]⟩) ∧
      answerAt duckDbReader ⟨⟨.empty, KeyedTable.empty.upsertAll lateFrame⟩, 0⟩ earliest latest
          (33333334 / 10000000) 1704088800000000
        ≠ updatedOutcome (answerAt duckDbReader ⟨⟨.empty, .empty⟩, 0⟩ earliest latest
            (33333334 / 10000000) 1704088800000000)
          (latestEligible lateFrame (33333334 / 10000000) 1704088800000000) ∧
      latestEligible lateFrame (33333334 / 10000000) 1704088800000000 = none ∧
      answerAt duckDbReader ⟨⟨.empty, KeyedTable.empty.upsertAll lateFrame⟩, 0⟩ earliest latest
          (33333334 / 10000000) 1704088800000000
        = some (some ⟨1704088800000000, 80, 1704076800000000, 10 / 3⟩) := by
  refine ⟨rfl, ?_, ?_, ?_⟩ <;> decide +kernel

end WindSight
