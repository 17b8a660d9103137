import WindSight.Backend.ErrorJoin
import WindSight.Backend.ErrorMetrics

/-! # Hourly errors against the aggregate metrics

`compute_hourly_errors` and `compute_error_metrics` aggregate the same rows independently. The 24
buckets partition the rows, so their sample counts add up to the aggregate one, and the rounded
hourly means, weighted by their counts, miss the rounded mean by the two roundings at most. -/

namespace WindSight

open ListQuery Rounding

/-! ## Hours -/

/-- The hours of the day, as `EXTRACT(HOUR FROM t)` gives them. -/
def hoursOfDay : List ℤ := (List.range 24).map Nat.cast

theorem mem_hoursOfDay {hour : ℤ} : hour ∈ hoursOfDay ↔ 0 ≤ hour ∧ hour < 24 := by
  rw [hoursOfDay, List.mem_map]
  constructor
  · rintro ⟨k, hk, rfl⟩
    rw [List.mem_range] at hk
    omega
  · rintro ⟨hlo, hhi⟩
    exact ⟨hour.toNat, List.mem_range.mpr (by omega), by omega⟩

theorem hoursOfDay_nodup : hoursOfDay.Nodup := List.nodup_range.map Nat.cast_injective

/-- An hour of the day lies between 0 and 23. -/
theorem extractHour_mem_hoursOfDay (conn : Conn) (t : Instant) :
    conn.extractHour t ∈ hoursOfDay := by
  rw [mem_hoursOfDay]
  exact ⟨Int.emod_nonneg _ (by decide), Int.emod_lt_of_pos _ (by decide)⟩

/-- The rows of the error query have an hour of the day. -/
theorem hourOfDay_mem_hoursOfDay {conn : Conn} {start stop : Datetime} {h : ℚ} {e : ForecastError}
    (he : e ∈ getForecastErrors conn start stop h) : e.hourOfDay ∈ hoursOfDay := by
  obtain ⟨a, -, -, f, -, -, rfl⟩ := mem_getForecastErrors.mp he
  exact extractHour_mem_hoursOfDay conn a.startTime

/-! ## Buckets -/

/-- The bucket of one hour: its rounded mean, zero on no rows, and its number of rows. -/
def hourlyError (errors : List ForecastError) (hour : ℤ) : HourlyError where
  hour := hour.toNat
  mae := roundTo 2 ((hourly errors hour).sum / (hourly errors hour).length)
  sampleCount := (hourly errors hour).length

/-- There is one bucket for each hour of the day. -/
theorem computeHourlyErrors_eq (errors : List ForecastError) :
    computeHourlyErrors errors = hoursOfDay.map (hourlyError errors) := by
  rw [computeHourlyErrors, hoursOfDay, List.map_map]
  apply List.map_congr_left
  intro hour hhour
  show _ = hourlyError errors (hour : ℤ)
  unfold hourlyError
  by_cases hempty : hourly errors hour = [] <;> simp [hempty]

/-- A bucket counts the rows of its hour. -/
theorem length_hourly (errors : List ForecastError) (hour : ℤ) :
    (hourly errors hour).length = errors.countP (·.hourOfDay = hour) := by
  rw [hourly_eq, List.length_map, List.countP_eq_length_filter]

variable {errors : List ForecastError}

/-- The buckets count every row once. -/
theorem sum_sampleCount (hhours : ∀ e ∈ errors, e.hourOfDay ∈ hoursOfDay) :
    ((computeHourlyErrors errors).map HourlyError.sampleCount).sum = errors.length := by
  have hcount : HourlyError.sampleCount ∘ hourlyError errors
      = fun hour => ((errors.filter (·.hourOfDay = hour)).map fun _ => (1 : ℕ)).sum := by
    funext hour
    simp [hourlyError, hourly_eq]
  rw [computeHourlyErrors_eq, List.map_map, hcount,
    sum_map_groups hoursOfDay_nodup ForecastError.hourOfDay (fun _ => (1 : ℕ)) hhours]
  simp

/-- The buckets sum every absolute error once. -/
theorem sum_hourly (hhours : ∀ e ∈ errors, e.hourOfDay ∈ hoursOfDay) :
    (hoursOfDay.map fun hour => (hourly errors hour).sum).sum = (absErrors errors).sum := by
  have hgroups := sum_map_groups hoursOfDay_nodup ForecastError.hourOfDay
    ForecastError.absErrorMw hhours
  rw [(perm_absErrors errors).sum_eq, ← hgroups]
  simp only [hourly_eq]

/-- The rounded hourly means, once for each row of the hour, miss the sum of the absolute errors by
half a cent for each row. -/
theorem abs_sum_sampleCount_mul_mae_sub_le (hhours : ∀ e ∈ errors, e.hourOfDay ∈ hoursOfDay) :
    |((computeHourlyErrors errors).map fun b => (b.sampleCount : ℚ) * b.mae).sum
        - (absErrors errors).sum| ≤ errors.length * (1 / 200) := by
  have hbucket : ∀ hour ∈ hoursOfDay,
      |((hourlyError errors hour).sampleCount : ℚ) * (hourlyError errors hour).mae
          - (hourly errors hour).sum|
        ≤ ((hourlyError errors hour).sampleCount : ℚ) * (1 / 200) := by
    intro hour _
    have hmean := abs_length_mul_roundTo_mean_sub_le 2 (hourly errors hour)
    norm_num at hmean ⊢
    exact hmean
  have hcount : (hoursOfDay.map fun hour =>
      ((hourlyError errors hour).sampleCount : ℚ) * (1 / 200)).sum = errors.length * (1 / 200) := by
    rw [List.sum_map_mul_right, ← sum_sampleCount hhours, computeHourlyErrors_eq, List.map_map,
      Nat.cast_list_sum, List.map_map]
    rfl
  rw [computeHourlyErrors_eq, List.map_map, ← sum_hourly hhours, ← hcount]
  exact abs_sum_map_sub_le hbucket

/-- The rounded mean, once for each row, misses the sum of the absolute errors by half a cent for
each row. -/
theorem abs_length_mul_meanAbsoluteError_sub_le (errors : List ForecastError) :
    |errors.length * (computeErrorMetrics errors).meanAbsoluteError - (absErrors errors).sum|
      ≤ errors.length * (1 / 200) := by
  have hmean := abs_length_mul_roundTo_mean_sub_le 2 (absErrors errors)
  rw [length_absErrors] at hmean
  unfold computeErrorMetrics
  split_ifs with hempty
  · rw [List.isEmpty_iff.mp hempty]
    norm_num [absErrors]
  · show |errors.length * roundTo 2 (mae errors) - _| ≤ _
    rw [mae, length_absErrors]
    norm_num at hmean ⊢
    exact hmean

/-- **The hourly buckets partition the rows of the aggregate metrics.** -/
theorem computeHourlyErrors_partition (conn : Conn) (start stop : Datetime) (h : ℚ) :
    let errors := getForecastErrors conn start stop h
    (computeHourlyErrors errors).map HourlyError.hour = List.range 24 ∧
      (∀ b ∈ computeHourlyErrors errors,
        b.sampleCount = errors.countP (·.hourOfDay = (b.hour : ℤ))) ∧
      ((computeHourlyErrors errors).map HourlyError.sampleCount).sum
        = (computeErrorMetrics errors).sampleCount ∧
      |((computeHourlyErrors errors).map fun b => (b.sampleCount : ℚ) * b.mae).sum
          - (computeErrorMetrics errors).sampleCount
            * (computeErrorMetrics errors).meanAbsoluteError|
        ≤ 1 / 100 * (computeErrorMetrics errors).sampleCount := by
  intro errors
  have hhours : ∀ e ∈ errors, e.hourOfDay ∈ hoursOfDay := fun e he => hourOfDay_mem_hoursOfDay he
  rw [sampleCount_eq]
  refine ⟨?_, ?_, sum_sampleCount hhours, ?_⟩
  · rw [computeHourlyErrors, List.map_map]
    exact List.map_id _
  · intro b hb
    obtain ⟨hour, -, rfl⟩ := List.mem_map.mp hb
    exact length_hourly errors hour
  · have hbuckets := abs_sum_sampleCount_mul_mae_sub_le hhours
    have hmean := abs_length_mul_meanAbsoluteError_sub_le errors
    rw [abs_le] at hbuckets hmean ⊢
    constructor <;> linarith

end WindSight
