import Mathlib.Data.List.DropRight
import Mathlib.Data.Rat.Defs
import Mathlib.Tactic.Linarith

/-! # The text of numbers

Two ways of writing numbers that determine the number written: zero-padded decimals of a fixed width
(`%04d`), and the `repr` of a float. A finite float is given by its sign and by what the
shortest-digits algorithm returns for it, its significant decimal digits and the position of the
decimal point. -/

namespace NumberText

/-- The text before the first occurrence of a separator, and the text after it, are determined. -/
theorem append_cons_inj {α : Type*} {c : α} {l₁ l₂ r₁ r₂ : List α} (h₁ : c ∉ l₁) (h₂ : c ∉ l₂)
    (h : l₁ ++ c :: r₁ = l₂ ++ c :: r₂) : l₁ = l₂ ∧ r₁ = r₂ := by
  induction l₁ generalizing l₂ with
  | nil =>
    cases l₂ with
    | nil => exact ⟨rfl, (List.cons.inj h).2⟩
    | cons b l₂ => exact absurd ((List.cons.inj h).1 ▸ List.mem_cons_self) h₂
  | cons a l₁ ih =>
    cases l₂ with
    | nil => exact absurd ((List.cons.inj h).1 ▸ List.mem_cons_self) h₁
    | cons b l₂ =>
      obtain ⟨rfl, htl⟩ := List.cons.inj h
      obtain ⟨rfl, rfl⟩ := ih (fun hc => h₁ (List.mem_cons_of_mem _ hc))
        (fun hc => h₂ (List.mem_cons_of_mem _ hc)) htl
      exact ⟨rfl, rfl⟩

/-! ## Fixed-width decimals -/

/-- The last `w` decimal digits of `n`, zero-padded (`%0wd` of an `n` below `10 ^ w`). -/
def pad : ℕ → ℕ → List Char
  | 0, _ => []
  | w + 1, n => pad w (n / 10) ++ [(n % 10).digitChar]

@[simp] theorem length_pad (w n : ℕ) : (pad w n).length = w := by
  induction w generalizing n with
  | zero => rfl
  | succ w ih => rw [pad, List.length_append, ih, List.length_singleton]

theorem digitChar_inj : ∀ m < 10, ∀ n < 10, m.digitChar = n.digitChar → m = n := by decide

/-- Numbers of at most `w` digits are determined by their fixed-width text. -/
theorem pad_inj {w m n : ℕ} (hm : m < 10 ^ w) (hn : n < 10 ^ w) (h : pad w m = pad w n) :
    m = n := by
  induction w generalizing m n with
  | zero => omega
  | succ w ih =>
    rw [pad, pad] at h
    obtain ⟨hhi, hlo⟩ := List.append_inj h (by rw [length_pad, length_pad])
    have hdiv : m / 10 = n / 10 :=
      ih (by rw [pow_succ] at hm; omega) (by rw [pow_succ] at hn; omega) hhi
    have hmod : m % 10 = n % 10 :=
      digitChar_inj _ (Nat.mod_lt _ (by omega)) _ (Nat.mod_lt _ (by omega)) (List.cons.inj hlo).1
    omega

/-- A decimal text holds no character that is not a digit. -/
theorem notMem_pad {c : Char} (hc : ∀ k < 10, c ≠ k.digitChar) (w n : ℕ) : c ∉ pad w n := by
  induction w generalizing n with
  | zero => exact List.not_mem_nil
  | succ w ih =>
    rw [pad, List.mem_append, List.mem_singleton]
    exact not_or.mpr ⟨ih _, hc _ (Nat.mod_lt _ (by omega))⟩

theorem isDigit_of_mem_pad {w n : ℕ} {c : Char} (hc : c ∈ pad w n) : c.isDigit = true := by
  have hdigit : ∀ k < 10, k.digitChar.isDigit = true := by decide
  induction w generalizing n with
  | zero => exact absurd hc List.not_mem_nil
  | succ w ih =>
    rw [pad, List.mem_append, List.mem_singleton] at hc
    rcases hc with hc | rfl
    · exact ih hc
    · exact hdigit _ (Nat.mod_lt _ (by omega))

/-- A number of at most `w` digits is read back from its fixed-width text. -/
theorem ofDigitChars_pad {w n : ℕ} (hn : n < 10 ^ w) : Nat.ofDigitChars 10 (pad w n) 0 = n := by
  induction w generalizing n with
  | zero =>
    rw [pad, Nat.ofDigitChars_nil]
    omega
  | succ w ih =>
    have hdiv : n / 10 < 10 ^ w := by
      rw [pow_succ] at hn
      omega
    rw [pad, Nat.ofDigitChars_append, ih hdiv,
      Nat.ofDigitChars_cons_digitChar_of_lt_ten (Nat.mod_lt _ (by omega)), Nat.ofDigitChars_nil]
    omega

/-! ### Reading decimals -/

/-- The number of a text of at least `lo` and at most `hi` digits. -/
def decimal (lo hi : ℕ) (text : List Char) : Option ℕ :=
  if lo ≤ text.length ∧ text.length ≤ hi ∧ text.all Char.isDigit then
    some (Nat.ofDigitChars 10 text 0)
  else none

theorem decimal_pad {lo hi w n : ℕ} (hlo : lo ≤ w) (hhi : w ≤ hi) (hn : n < 10 ^ w) :
    decimal lo hi (pad w n) = some n := by
  have hdigits : (pad w n).all Char.isDigit = true :=
    List.all_eq_true.mpr fun _ => isDigit_of_mem_pad
  rw [decimal, length_pad, if_pos ⟨hlo, hhi, hdigits⟩, ofDigitChars_pad hn]

/-- The decimal text of a number is read back. -/
theorem decimal_toDigits {lo hi n : ℕ} (hlo : lo ≤ (Nat.toDigits 10 n).length)
    (hhi : (Nat.toDigits 10 n).length ≤ hi) : decimal lo hi (Nat.toDigits 10 n) = some n := by
  have hdigits : (Nat.toDigits 10 n).all Char.isDigit = true :=
    List.all_eq_true.mpr fun _ => Nat.isDigit_of_mem_toDigits (by decide) (by decide)
  rw [decimal, if_pos ⟨hlo, hhi, hdigits⟩, Nat.ofDigitChars_ten_toDigits]

/-! ## The `repr` of a float -/

/-- A finite Python float: a sign, and the value `0.d₁d₂… × 10 ^ point` of the shortest decimal
digits that denote its magnitude. Zero has no digits, and has both signs. -/
structure PyFloat where
  negative : Bool
  digits : List (Fin 10)
  point : ℤ
  head_ne_zero : digits.head? ≠ some 0
  last_ne_zero : digits.getLast? ≠ some 0
  zero_point : digits = [] → point = 0
  deriving DecidableEq

namespace PyFloat

/-- The number a float denotes. -/
def value (x : PyFloat) : ℚ :=
  (if x.negative then -1 else 1) * (x.digits.foldl (fun n d => 10 * n + d) 0 : ℕ) *
    (10 : ℚ) ^ (x.point - x.digits.length)

/-- The float `d.0` of a digit. -/
def ofDigit (d : ℕ) (h : 0 < d ∧ d < 10) : PyFloat where
  negative := false
  digits := [⟨d, h.2⟩]
  point := 1
  head_ne_zero := by simpa [Fin.ext_iff] using h.1.ne'
  last_ne_zero := by simpa [Fin.ext_iff] using h.1.ne'
  zero_point := nofun

/-- The digits of a float that is not zero. -/
def IsSignificand (digits : List (Fin 10)) : Prop :=
  digits ≠ [] ∧ digits.head? ≠ some 0 ∧ digits.getLast? ≠ some 0

instance : DecidablePred IsSignificand := fun digits =>
  inferInstanceAs (Decidable (digits ≠ [] ∧ digits.head? ≠ some 0 ∧ digits.getLast? ≠ some 0))

/-- The positive float `0.d₁d₂… × 10 ^ point`. -/
def ofDigits (digits : List (Fin 10)) (point : ℤ) (h : IsSignificand digits) : PyFloat where
  negative := false
  digits := digits
  point := point
  head_ne_zero := h.2.1
  last_ne_zero := h.2.2
  zero_point := fun hnil => absurd hnil h.1

/-- The exponent part of a float in scientific notation: a sign and at least two digits. -/
def exponentText (k : ℤ) : List Char :=
  (if k < 0 then '-' else '+') ::
    ((if k.natAbs < 10 then ['0'] else []) ++ Nat.toDigits 10 k.natAbs)

/-- The digits of a float as characters. -/
def digitText (x : PyFloat) : List Char := x.digits.map fun d => d.val.digitChar

/-- The text of the magnitude: positional when the decimal point falls at most 3 places before the
first digit and at most 16 places after it, scientific otherwise. -/
def unsignedRepr (x : PyFloat) : List Char :=
  if x.digits = [] then ['0', '.', '0']
  else if -4 < x.point ∧ x.point ≤ 16 then
    -- `0.00ddd`, `ddd00.0` or `d.dd`
    if x.point ≤ 0 then '0' :: '.' :: (List.replicate (-x.point).toNat '0' ++ x.digitText)
    else if x.digits.length ≤ x.point then
      x.digitText ++ List.replicate (x.point - x.digits.length).toNat '0' ++ ['.', '0']
    else x.digitText.take x.point.toNat ++ '.' :: x.digitText.drop x.point.toNat
  else
    x.digitText.take 1 ++ (if x.digits.length = 1 then [] else '.' :: x.digitText.drop 1)
      ++ 'e' :: exponentText (x.point - 1)

/-- `repr(x)`. -/
def repr (x : PyFloat) : List Char := (if x.negative then ['-'] else []) ++ x.unsignedRepr

/-! ### The text determines the float -/

theorem digitText_inj {x y : PyFloat} (h : x.digitText = y.digitText) : x.digits = y.digits :=
  List.map_injective_iff.mpr
    (fun a b hab => Fin.ext (digitChar_inj _ a.isLt _ b.isLt hab)) h

/-- The digits of a float hold no character that is not a digit. -/
theorem notMem_digitText {c : Char} (hc : ∀ k < 10, c ≠ k.digitChar) (x : PyFloat) :
    c ∉ x.digitText := by
  intro h
  obtain ⟨d, -, rfl⟩ := List.mem_map.mp h
  exact hc d.val d.isLt rfl

theorem digitChar_eq_zero_iff : ∀ d : Fin 10, d.val.digitChar = '0' ↔ d = 0 := by decide

/-- Leading zeros before the digits of a nonzero float are all its leading zeros. -/
theorem dropWhile_zeros {x : PyFloat} (hx : x.digits ≠ []) (k : ℕ) (tl : List Char) :
    (List.replicate k '0' ++ (x.digitText ++ tl)).dropWhile (· = '0') = x.digitText ++ tl
      ∧ (List.replicate k '0' ++ (x.digitText ++ tl)).takeWhile (· = '0')
        = List.replicate k '0' := by
  have hhead : (x.digitText ++ tl).takeWhile (· = '0') = []
      ∧ (x.digitText ++ tl).dropWhile (· = '0') = x.digitText ++ tl := by
    have hne := x.head_ne_zero
    cases hd : x.digits with
    | nil => exact absurd hd hx
    | cons d ds =>
      rw [hd] at hne
      have hd0 : ¬ d.val.digitChar = '0' := by
        rw [digitChar_eq_zero_iff]
        simpa using hne
      simp [digitText, hd, hd0]
  rw [List.dropWhile_append_of_pos (by simp), List.takeWhile_append_of_pos (by simp), hhead.1,
    hhead.2]
  simp

/-- Trailing zeros after the digits of a float are all its trailing zeros. -/
theorem rdropWhile_zeros (x : PyFloat) (k : ℕ) :
    (x.digitText ++ List.replicate k '0').rdropWhile (· = '0') = x.digitText := by
  induction k with
  | zero =>
    rw [List.replicate_zero, List.append_nil, List.rdropWhile_eq_self_iff]
    intro hne
    have hlast := x.last_ne_zero
    simp only [digitText, List.getLast_map, decide_eq_true_eq, digitChar_eq_zero_iff]
    intro h0
    exact hlast (by rw [List.getLast?_eq_getLast_of_ne_nil (by simpa [digitText] using hne), h0])
  | succ k ih =>
    rw [List.replicate_succ', ← List.append_assoc, List.rdropWhile_concat_pos _ _ _ (by simp), ih]

/-- The significant digits of a positional decimal text. -/
def significant (l : List Char) : List Char := (l.dropWhile (· = '0')).rdropWhile (· = '0')

/-- The number of leading zeros of a positional decimal text. -/
def leading (l : List Char) : ℕ := (l.takeWhile (· = '0')).length

/-- The text around the point of a positional `repr` shows the digits and their position. -/
theorem positional_spec {x : PyFloat} (hx : x.digits ≠ []) (hp : -4 < x.point ∧ x.point ≤ 16) :
    ∃ A B, x.unsignedRepr = A ++ '.' :: B ∧ '.' ∉ A ∧ 'e' ∉ A ∧ 'e' ∉ B ∧
      significant (A ++ B) = x.digitText ∧ (A.length : ℤ) - leading (A ++ B) = x.point := by
  have hdot := notMem_digitText (c := '.') (by decide) x
  have he := notMem_digitText (c := 'e') (by decide) x
  have hlen : x.digitText.length = x.digits.length := by rw [digitText, List.length_map]
  have hdrop := dropWhile_zeros hx
  rw [unsignedRepr, if_neg hx, if_pos hp]
  by_cases h0 : x.point ≤ 0
  · -- `0.00ddd`: the zeros before the digits are leading
    rw [if_pos h0]
    refine ⟨['0'], List.replicate (-x.point).toNat '0' ++ x.digitText, rfl, by simp, by simp,
      by simp [he], ?_, ?_⟩
    all_goals
      have hz := hdrop ((-x.point).toNat + 1) []
      rw [List.replicate_succ, List.append_nil, List.cons_append] at hz
    · rw [significant, List.singleton_append, hz.1]
      simpa using rdropWhile_zeros x 0
    · rw [leading, List.singleton_append, hz.2]
      simp only [List.length_cons, List.length_nil, List.length_replicate]
      omega
  · rw [if_neg h0]
    by_cases hn : x.digits.length ≤ x.point
    · -- `ddd00.0`: the zeros after the digits are trailing
      rw [if_pos hn]
      refine ⟨x.digitText ++ List.replicate (x.point - x.digits.length).toNat '0', ['0'],
        by simp, by simp [hdot], by simp [he], by simp, ?_, ?_⟩
      all_goals
        have hz := hdrop 0 (List.replicate ((x.point - x.digits.length).toNat + 1) '0')
        rw [List.replicate_zero, List.nil_append, List.replicate_succ', ← List.append_assoc] at hz
      · rw [significant, hz.1, List.append_assoc, ← List.replicate_succ', rdropWhile_zeros]
      · rw [leading, hz.2, List.length_append, hlen]
        simp only [List.length_replicate, List.length_nil]
        omega
    · -- `d.dd`: the point falls inside the digits
      rw [if_neg hn]
      refine ⟨x.digitText.take x.point.toNat, x.digitText.drop x.point.toNat, rfl,
        fun h => hdot (List.mem_of_mem_take h), fun h => he (List.mem_of_mem_take h),
        fun h => he (List.mem_of_mem_drop h), ?_, ?_⟩
      all_goals
        have hz := hdrop 0 []
        rw [List.replicate_zero, List.nil_append, List.append_nil] at hz
        rw [List.take_append_drop]
      · rw [significant, hz.1]
        simpa using rdropWhile_zeros x 0
      · rw [leading, hz.2, List.length_take, hlen]
        simp only [List.length_nil]
        omega

/-- The exponent part of a float determines its exponent. -/
theorem exponentText_inj {j k : ℤ} (h : exponentText j = exponentText k) : j = k := by
  -- the digits, padded or not, read back as the magnitude
  have hread : ∀ n : ℕ, Nat.ofDigitChars 10
      ((if n < 10 then ['0'] else []) ++ Nat.toDigits 10 n) 0 = n := by
    intro n
    rw [Nat.ofDigitChars_append]
    split <;> simp [Nat.ofDigitChars_ten_toDigits, Nat.ofDigitChars_cons]
  obtain ⟨hsign, hdigits⟩ := List.cons.inj h
  have habs : j.natAbs = k.natAbs := by rw [← hread j.natAbs, hdigits, hread]
  split at hsign <;> split at hsign <;> simp_all <;> omega

theorem scientific_spec {x : PyFloat} (hx : x.digits ≠ []) (hp : ¬ (-4 < x.point ∧ x.point ≤ 16)) :
    ∃ M, x.unsignedRepr = M ++ 'e' :: exponentText (x.point - 1) ∧ 'e' ∉ M ∧
      M.filter (· ≠ '.') = x.digitText := by
  have hdot := notMem_digitText (c := '.') (by decide) x
  have he := notMem_digitText (c := 'e') (by decide) x
  have hlen : x.digitText.length = x.digits.length := by rw [digitText, List.length_map]
  have hkeep : x.digitText.filter (· ≠ '.') = x.digitText :=
    List.filter_eq_self.mpr fun c hc =>
      by simpa using fun h : c = '.' => hdot (h ▸ hc)
  refine ⟨x.digitText.take 1 ++ if x.digits.length = 1 then [] else '.' :: x.digitText.drop 1,
    by rw [unsignedRepr, if_neg hx, if_neg hp], ?_, ?_⟩
  · rw [List.mem_append, not_or]
    refine ⟨fun h => he (List.mem_of_mem_take h), ?_⟩
    split
    · simp
    · exact fun h => he (List.mem_of_mem_drop ((List.mem_cons.mp h).resolve_left (by decide)))
  · split
    · rw [List.append_nil, List.take_of_length_le (by omega), hkeep]
    · rw [List.filter_append, List.filter_cons_of_neg (by simp), ← List.filter_append,
        List.take_append_drop, hkeep]

/-- A float is written around a point, or in scientific notation. -/
theorem repr_cases (x : PyFloat) :
    (∃ A B, x.unsignedRepr = A ++ '.' :: B ∧ '.' ∉ A ∧ 'e' ∉ x.unsignedRepr ∧
      significant (A ++ B) = x.digitText ∧
      (x.digits ≠ [] → (A.length : ℤ) - leading (A ++ B) = x.point)) ∨
    ∃ M, x.unsignedRepr = M ++ 'e' :: exponentText (x.point - 1) ∧ 'e' ∉ M ∧
      M.filter (· ≠ '.') = x.digitText := by
  by_cases hx : x.digits = []
  · have hrepr : x.unsignedRepr = ['0', '.', '0'] := by rw [unsignedRepr, if_pos hx]
    refine Or.inl ⟨['0'], ['0'], hrepr, by simp, by simp [hrepr], ?_, fun h => absurd hx h⟩
    rw [digitText, hx]
    decide
  · by_cases hp : -4 < x.point ∧ x.point ≤ 16
    · obtain ⟨A, B, hrepr, hdot, heA, heB, hsig, hpoint⟩ := positional_spec hx hp
      exact Or.inl ⟨A, B, hrepr, hdot, by simp [hrepr, heA, heB], hsig, fun _ => hpoint⟩
    · exact Or.inr (scientific_spec hx hp)

/-- The text of a magnitude determines the digits and the position of the point. -/
theorem unsignedRepr_inj {x y : PyFloat} (h : x.unsignedRepr = y.unsignedRepr) :
    x.digits = y.digits ∧ x.point = y.point := by
  rcases repr_cases x with ⟨A, B, hx, hA, hex, hsig, hpoint⟩ | ⟨M, hx, hM, hdig⟩ <;>
    rcases repr_cases y with ⟨A', B', hy, hA', hey, hsig', hpoint'⟩ | ⟨M', hy, hM', hdig'⟩
  · -- both positional: the texts agree around the point
    obtain ⟨rfl, rfl⟩ := append_cons_inj hA hA' (hx.symm.trans (h.trans hy))
    have hd : x.digits = y.digits := digitText_inj (hsig.symm.trans hsig')
    refine ⟨hd, ?_⟩
    by_cases hx0 : x.digits = []
    · rw [x.zero_point hx0, y.zero_point (hd ▸ hx0)]
    · rw [← hpoint hx0, hpoint' (hd ▸ hx0)]
  · -- only one text has an exponent letter
    exact absurd (h ▸ hy ▸ List.mem_append_right M' List.mem_cons_self) hex
  · exact absurd (h.symm ▸ hx ▸ List.mem_append_right M List.mem_cons_self) hey
  · -- both scientific: the texts agree around the exponent letter
    obtain ⟨rfl, hexp⟩ := append_cons_inj hM hM' (hx.symm.trans (h.trans hy))
    have := exponentText_inj hexp
    exact ⟨digitText_inj (hdig.symm.trans hdig'), by omega⟩

/-- The text of a magnitude starts with a digit. -/
theorem head_unsignedRepr_ne (x : PyFloat) : x.unsignedRepr.head? ≠ some '-' := by
  rw [unsignedRepr]
  split
  · decide
  · rename_i hx
    obtain ⟨d, ds, hd⟩ := List.exists_cons_of_ne_nil hx
    have hsign : ∀ d : Fin 10, d.val.digitChar ≠ '-' := by decide
    have htext : x.digitText = d.val.digitChar :: ds.map fun d => d.val.digitChar := by
      rw [digitText, hd, List.map_cons]
    split
    · split
      · simp
      · rename_i hp
        obtain ⟨n, hn⟩ : ∃ n, x.point.toNat = n + 1 := ⟨x.point.toNat - 1, by omega⟩
        split <;> simp [htext, hn, hsign]
    · simp [htext, hsign]

/-- **The `repr` of a float determines the float.** -/
theorem repr_injective : Function.Injective repr := by
  intro x y h
  have hunsigned : x.negative = y.negative ∧ x.unsignedRepr = y.unsignedRepr := by
    have hx := x.head_unsignedRepr_ne
    have hy := y.head_unsignedRepr_ne
    rw [repr, repr] at h
    -- a sign on one side only would be the first character of the other side
    cases hxs : x.negative <;> cases hys : y.negative <;> simp only [hxs, hys] at h
    · exact ⟨rfl, h⟩
    · exact absurd (congrArg List.head? h) hx
    · exact absurd (congrArg List.head? h.symm) hy
    · exact ⟨rfl, (List.cons.inj h).2⟩
  obtain ⟨hdigits, hpoint⟩ := unsignedRepr_inj hunsigned.2
  cases x
  cases y
  simp_all

/-- The text of a float is made of digits, signs, a point and the exponent letter. -/
theorem notMem_repr {c : Char} (hc : c.isDigit = false) (hsep : c ∉ ['-', '+', '.', 'e'])
    (x : PyFloat) : c ∉ x.repr := by
  have hdigits : c ∉ x.digitText := by
    refine notMem_digitText (fun k hk heq => ?_) x
    have hdigit : ∀ k < 10, k.digitChar.isDigit = true := by decide
    rw [heq, hdigit k hk] at hc
    exact absurd hc (by decide)
  have htake : ∀ k, c ∉ x.digitText.take k := fun k h => hdigits (List.mem_of_mem_take h)
  have hdrop : ∀ k, c ∉ x.digitText.drop k := fun k h => hdigits (List.mem_of_mem_drop h)
  have htail : c ∉ x.digitText.tail := fun h => hdigits (List.mem_of_mem_tail h)
  have hzero : c ≠ '0' := by
    rintro rfl
    exact absurd hc (by decide)
  have hexp : c ∉ exponentText (x.point - 1) := by
    have hnat : c ∉ Nat.toDigits 10 (x.point - 1).natAbs := fun h =>
      absurd (Nat.isDigit_of_mem_toDigits (by decide) (by decide) h) (by simp [hc])
    rw [exponentText]
    split <;> split <;> simp_all
  simp only [List.mem_cons, List.not_mem_nil, or_false, not_or] at hsep
  rw [repr, unsignedRepr, List.mem_append, not_or]
  constructor
  · split <;> simp [hsep]
  · split
    · simp [hzero, hsep]
    · split
      · split
        · simp [hdigits, hzero, hsep]
        · split <;> simp [hdigits, htake, hdrop, hzero, hsep]
      · split <;> simp [htake, htail, hexp, hsep]

end PyFloat

end NumberText
