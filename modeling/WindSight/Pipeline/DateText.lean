import WindSight.Library.NumberText
import WindSight.Pipeline.BatchPartition

/-! # The texts of the dates

`generate_date_batches` takes and returns dates as `YYYY-MM-DD` texts and computes with days. A day
of a year from 1000 on is read back from its text (`strptime_strftime`), so what the batches say
about days their texts say too (`generateDateBatchTexts_partition`). -/

namespace WindSight

open NumberText

/-! ## Ordinals and calendar fields -/

/-- Days before the first of a month, with the leap day of a leap year. -/
def daysBefore (leap : Bool) (month : ℕ) : ℕ :=
  daysBeforeMonth month + if 2 < month && leap then 1 else 0

/-- The month and the day of the month of a day of the year, counted from zero. -/
def monthDay (leap : Bool) (n : ℕ) : ℕ × ℕ :=
  -- the month is estimated, at most one too late
  let month := (n + 50) / 32
  if n < daysBefore leap month then (month - 1, n - daysBefore leap (month - 1) + 1)
  else (month, n - daysBefore leap month + 1)

/-- `date.fromordinal`: the year, month and day of the `n`-th day, counted from 0001-01-01 as day
one. -/
def ord2ymd (n : ℕ) : ℕ × ℕ × ℕ :=
  let n400 := (n - 1) / 146097
  let n100 := (n - 1) % 146097 / 36524
  let n4 := (n - 1) % 146097 % 36524 / 1461
  let n1 := (n - 1) % 146097 % 36524 % 1461 / 365
  let year := n400 * 400 + n100 * 100 + n4 * 4 + n1
  -- the last day of four or of 400 years
  if n1 = 4 ∨ n100 = 4 then (year, 12, 31)
  else
    let leapyear := n1 = 3 && (n4 ≠ 24 || n100 = 3)
    (year + 1, monthDay leapyear ((n - 1) % 146097 % 36524 % 1461 % 365))

/-- The ordinal of a date, counted from 0001-01-01 as day one. -/
def ymd2ord (year month day : ℕ) : ℕ :=
  let y := year - 1
  y * 365 + y / 4 - y / 100 + y / 400 + daysBefore (isLeap year) month + day

/-- The month and day of a day of the year are fields of that day. -/
theorem monthDay_spec (leap : Bool) :
    ∀ n < 365,
      (1 ≤ (monthDay leap n).1 ∧ (monthDay leap n).1 ≤ 12) ∧
      (1 ≤ (monthDay leap n).2 ∧ (monthDay leap n).2 ≤
        if (monthDay leap n).1 = 2 then if leap then 29 else 28
        else if (monthDay leap n).1 = 4 ∨ (monthDay leap n).1 = 6 ∨ (monthDay leap n).1 = 9 ∨
          (monthDay leap n).1 = 11 then 30 else 31) ∧
      daysBefore leap (monthDay leap n).1 + (monthDay leap n).2 = n + 1 := by
  cases leap <;> decide +kernel

/-- A year of a 400-year cycle is a leap year if it is the last of its four years, except that of
the last four years of a century only those of the last century count. -/
theorem isLeap_cycle {a b c d : ℕ} (hb : b < 4) (hc : c < 25) (hd : d < 4) :
    isLeap (a * 400 + b * 100 + c * 4 + d + 1) = (d = 3 && (c ≠ 24 || b = 3)) := by
  rw [Bool.eq_iff_iff]
  simp only [isLeap, Bool.and_eq_true, Bool.or_eq_true, decide_eq_true_eq]
  omega

/-- The days before a year of a 400-year cycle. -/
theorem days_cycle {a b c d : ℕ} (hb : b < 4) (hc : c < 25) (hd : d < 4) :
    (a * 400 + b * 100 + c * 4 + d) * 365 + (a * 400 + b * 100 + c * 4 + d) / 4
        - (a * 400 + b * 100 + c * 4 + d) / 100 + (a * 400 + b * 100 + c * 4 + d) / 400
      = a * 146097 + b * 36524 + c * 1461 + d * 365 := by
  omega

/-- The last day of four or of 400 years is the last one of a leap year. -/
theorem ord2ymd_lastDay {n a b c d r : ℕ}
    (hn : n = a * 146097 + b * 36524 + c * 1461 + d * 365 + r + 1)
    (hlast : (b = 4 ∧ c = 0 ∧ d = 0 ∨ b < 4 ∧ c < 24 ∧ d = 4) ∧ r = 0) :
    1 ≤ a * 400 + b * 100 + c * 4 + d ∧ ymd2ord (a * 400 + b * 100 + c * 4 + d) 12 31 = n := by
  have hleap : isLeap (a * 400 + b * 100 + c * 4 + d) = true := by
    simp only [isLeap, Bool.and_eq_true, Bool.or_eq_true, decide_eq_true_eq]
    omega
  have hmonths : daysBefore true 12 = 335 := rfl
  simp only [ymd2ord, hleap, hmonths]
  omega

/-- The fields of an ordinal, by its place in the cycles of 400, 100, 4 years and one. -/
theorem ord2ymd_cases {n : ℕ} (hn : 1 ≤ n) :
    ∃ a b c d r, n = a * 146097 + b * 36524 + c * 1461 + d * 365 + r + 1 ∧
      (((b = 4 ∧ c = 0 ∧ d = 0 ∨ b < 4 ∧ c < 24 ∧ d = 4) ∧ r = 0 ∧
          ord2ymd n = (a * 400 + b * 100 + c * 4 + d, 12, 31)) ∨
        ((b < 4 ∧ c < 25 ∧ d < 4) ∧ r < 365 ∧
          ord2ymd n = (a * 400 + b * 100 + c * 4 + d + 1,
            monthDay (isLeap (a * 400 + b * 100 + c * 4 + d + 1)) r))) := by
  unfold ord2ymd
  obtain ⟨a, ha⟩ : ∃ a, (n - 1) / 146097 = a := ⟨_, rfl⟩
  obtain ⟨b, hb⟩ : ∃ b, (n - 1) % 146097 / 36524 = b := ⟨_, rfl⟩
  obtain ⟨c, hc⟩ : ∃ c, (n - 1) % 146097 % 36524 / 1461 = c := ⟨_, rfl⟩
  obtain ⟨d, hd⟩ : ∃ d, (n - 1) % 146097 % 36524 % 1461 / 365 = d := ⟨_, rfl⟩
  obtain ⟨r, hr⟩ : ∃ r, (n - 1) % 146097 % 36524 % 1461 % 365 = r := ⟨_, rfl⟩
  simp only [ha, hb, hc, hd, hr]
  refine ⟨a, b, c, d, r, by omega, ?_⟩
  split
  · exact Or.inl ⟨by omega, by omega, rfl⟩
  · have hcycle : b < 4 ∧ c < 25 ∧ d < 4 := by omega
    rw [isLeap_cycle hcycle.1 hcycle.2.1 hcycle.2.2]
    exact Or.inr ⟨hcycle, by omega, rfl⟩

/-- **The fields of an ordinal are those of a calendar day, and its ordinal is the one given.** -/
theorem ord2ymd_spec {n : ℕ} (hn : 1 ≤ n) :
    1 ≤ (ord2ymd n).1 ∧ (1 ≤ (ord2ymd n).2.1 ∧ (ord2ymd n).2.1 ≤ 12) ∧
      (1 ≤ (ord2ymd n).2.2 ∧ (ord2ymd n).2.2 ≤ daysInMonth (ord2ymd n).1 (ord2ymd n).2.1) ∧
      ymd2ord (ord2ymd n).1 (ord2ymd n).2.1 (ord2ymd n).2.2 = n := by
  obtain ⟨a, b, c, d, r, hsum, ⟨hlast, hr, hfields⟩ | ⟨⟨hb, hc, hd⟩, hr, hfields⟩⟩ :=
    ord2ymd_cases hn <;> rw [hfields]
  · obtain ⟨hyear, hord⟩ := ord2ymd_lastDay hsum ⟨hlast, hr⟩
    exact ⟨hyear, ⟨Nat.succ_pos 11, le_rfl⟩, ⟨Nat.succ_pos 30, le_rfl⟩, hord⟩
  · obtain ⟨hmonth, hday, hord⟩ := monthDay_spec
      (isLeap (a * 400 + b * 100 + c * 4 + d + 1)) r hr
    refine ⟨Nat.le_add_left 1 _, hmonth, hday, ?_⟩
    simp only [ymd2ord, Nat.add_sub_cancel, days_cycle hb hc hd]
    omega

/-- The days of the years 1000 to 9999. -/
theorem ord2ymd_year {n : ℕ} (hlo : 364878 ≤ n) (hhi : n ≤ 3652059) :
    1000 ≤ (ord2ymd n).1 ∧ (ord2ymd n).1 ≤ 9999 := by
  obtain ⟨a, b, c, d, r, hsum, ⟨hlast, hr, hfields⟩ | ⟨hcycle, hr, hfields⟩⟩ :=
    ord2ymd_cases (Nat.one_le_of_lt hlo) <;> rw [hfields]
  · omega
  · omega

/-! ## Texts -/

/-- `strftime("%Y-%m-%d")`: the digits of the year, and two digits of the month and of the day. -/
def strftime (d : Date) : String :=
  let ymd := ord2ymd (d + 719163).toNat
  String.ofList (Nat.toDigits 10 ymd.1 ++ '-' :: (pad 2 ymd.2.1 ++ '-' :: pad 2 ymd.2.2))

/-- The digits matched by `%d`: two of them, or one, with or without a blank before it. -/
def dayDigits (text : List Char) : List Char :=
  if text.length = 2 ∧ text.head? = some ' ' then text.tail else text

/-- `datetime.strptime(text, "%Y-%m-%d")`: the day of a text, unless it raises `ValueError`. Digits
are ASCII digits here; Python reads the other decimal digits of Unicode as well. -/
def strptime (text : String) : Option Date :=
  match text.toList.splitOn '-' with
  | [year, month, day] => do
    let year ← decimal 4 4 year
    let month ← decimal 1 2 month
    let day ← decimal 1 2 (dayDigits day)
    if h : Datetime.InRange year month day 0 0 0 0 none then
      some ((Datetime.ofFields year month day 0 0 0 0 none h).toordinal - 719163)
    else none
  | _ => none

/-- Two digits have no blank before them. -/
theorem dayDigits_pad (n : ℕ) : dayDigits (pad 2 n) = pad 2 n := by
  have hblank : ' ' ∉ pad 2 n := notMem_pad (by decide) 2 n
  rw [dayDigits, if_neg]
  rintro ⟨-, hhead⟩
  exact hblank (List.mem_of_head? hhead)

/-- Between its separators, the text of a day has its year, month and day. -/
theorem splitOn_strftime (d : Date) :
    (strftime d).toList.splitOn '-' =
      [Nat.toDigits 10 (ord2ymd (d + 719163).toNat).1, pad 2 (ord2ymd (d + 719163).toNat).2.1,
        pad 2 (ord2ymd (d + 719163).toNat).2.2] := by
  have hpad : ∀ n, '-' ∉ pad 2 n := notMem_pad (by decide) 2
  have hyear : '-' ∉ Nat.toDigits 10 (ord2ymd (d + 719163).toNat).1 := fun hmem =>
    absurd (Nat.isDigit_of_mem_toDigits (by decide) (by decide) hmem) (by decide)
  rw [strftime, String.toList_ofList, List.splitOn_append_cons_self_of_not_mem hyear,
    List.splitOn_append_cons_self_of_not_mem (hpad _), List.splitOn_eq_singleton (hpad _)]

theorem daysInMonth_le (year month : ℕ) : daysInMonth year month ≤ 31 := by
  rw [daysInMonth]
  split_ifs <;> omega

/-- Four digits are the text of a year from 1000 to 9999. -/
theorem length_year {year : ℕ} (h : 1000 ≤ year ∧ year ≤ 9999) :
    (Nat.toDigits 10 year).length = 4 := by
  have hle : (Nat.toDigits 10 year).length ≤ 4 :=
    (Nat.length_toDigits_le_iff (by decide) (by decide)).mpr (by omega)
  have hgt : ¬ (Nat.toDigits 10 year).length ≤ 3 := fun hle =>
    absurd ((Nat.length_toDigits_le_iff (by decide) (by decide)).mp hle) (by omega)
  omega

/-- **A day of the years 1000 to 9999 is read back from its text.** -/
theorem strptime_strftime {d : Date} (hmin : minDate ≤ d) (hmax : d ≤ maxDate) :
    strptime (strftime d) = some d := by
  rw [minDate] at hmin
  rw [maxDate] at hmax
  have hn : 364878 ≤ (d + 719163).toNat ∧ (d + 719163).toNat ≤ 3652059 := by lia
  obtain ⟨-, hmonth, hday, hord⟩ := ord2ymd_spec (Nat.one_le_of_lt hn.1)
  have hyear := ord2ymd_year hn.1 hn.2
  have hsplit := splitOn_strftime d
  obtain ⟨⟨y, m, k⟩, hfields⟩ : ∃ ymd, ord2ymd (d + 719163).toNat = ymd := ⟨_, rfl⟩
  simp only [hfields] at hmonth hday hord hyear hsplit
  have hrange : Datetime.InRange y m k 0 0 0 0 none :=
    ⟨⟨by omega, hyear.2⟩, hmonth, hday, by decide, nofun⟩
  have hm : decimal 1 2 (pad 2 m) = some m := decimal_pad (by decide) le_rfl (by omega)
  have hk : decimal 1 2 (pad 2 k) = some k := by
    have := daysInMonth_le y m
    exact decimal_pad (by decide) le_rfl (by omega)
  have htoordinal : (Datetime.ofFields y m k 0 0 0 0 none hrange).toordinal = ymd2ord y m k := by
    simp only [ymd2ord, daysBefore, ← Nat.add_assoc]
    rfl
  rw [strptime, hsplit]
  simp only [decimal_toDigits (length_year hyear).ge (length_year hyear).le, dayDigits_pad,
    hm, hk, Option.bind_eq_bind, Option.bind_some, dif_pos hrange, htoordinal, hord]
  exact congrArg some (by lia)

/-! ## The batches as texts -/

/-- Why `generate_date_batches` gives no texts: a text that is not a date (`ValueError`), or no
batches. -/
inductive DateTextError where
  | value
  | batches (e : BatchError)
  deriving DecidableEq, Repr

/-- `generate_date_batches`, from texts to texts. -/
def generateDateBatchTexts (startDate endDate : String) (batchDays : ℕ) :
    Except DateTextError (List (String × String)) :=
  match strptime startDate, strptime endDate with
  | some start, some stop =>
    match generateDateBatches start stop batchDays with
    | .ok batches => .ok (batches.map fun b => (strftime b.1, strftime b.2))
    | .error e => .error (.batches e)
  | _, _ => .error .value

/-- **`generate_date_batches` ends and partitions the range.** From the texts of two days it returns
the texts of batches that partition the days from the first to the second; the texts of a batch of
the years from 1000 on are read back as its days. -/
theorem generateDateBatchTexts_partition {startDate endDate : String} {start stop : Date}
    {batchDays : ℕ} (hstart : strptime startDate = some start)
    (hstop : strptime endDate = some stop) (hb : 1 ≤ batchDays)
    (hcal : stop + batchDays ≤ maxDate) :
    ∃ batches, generateDateBatchTexts startDate endDate batchDays
        = .ok (batches.map fun b => (strftime b.1, strftime b.2)) ∧
      PartitionsRange start stop batchDays batches ∧
      ∀ b ∈ batches, minDate ≤ b.1 →
        strptime (strftime b.1) = some b.1 ∧ strptime (strftime b.2) = some b.2 := by
  obtain ⟨batches, hbatches⟩ : ∃ batches, generateDateBatches start stop batchDays = .ok batches :=
    exists_generateDateBatches hb hcal
  refine ⟨batches, ?_, partitionsRange_generateDateBatches hb hbatches, ?_⟩
  · rw [generateDateBatchTexts, hstart, hstop]
    simp only [hbatches]
  · intro b hmem hmin
    obtain ⟨-, hdays, hend⟩ := (tiles_generateDateBatches hbatches).bounds b hmem
    exact ⟨strptime_strftime hmin (by lia), strptime_strftime (by lia) (by lia)⟩

theorem generateDateBatchTexts_partition_fiveDays :
    ∃ batches, generateDateBatchTexts "2024-01-01" "2024-01-05" 2
        = .ok (batches.map fun b => (strftime b.1, strftime b.2)) ∧
      PartitionsRange 19723 19727 2 batches ∧
      ∀ b ∈ batches, minDate ≤ b.1 →
        strptime (strftime b.1) = some b.1 ∧ strptime (strftime b.2) = some b.2 :=
  generateDateBatchTexts_partition (by decide +kernel) (by decide +kernel) (by decide) (by decide)

example : generateDateBatchTexts "2024-02-27" "2024-03-02" 2 =
    .ok [("2024-02-27", "2024-02-28"), ("2024-02-29", "2024-03-01"),
      ("2024-03-02", "2024-03-02")] := by decide +kernel

end WindSight
