import WindSight.Library.JsonText
import Mathlib.Data.List.TakeWhile

/-! # Reading JSON

The scanner of Python's `json`: at each position the first character decides what is read, numbers
are read as far as they go, and nothing is read twice. It reads exactly the texts of the grammar
(`value_complete`, `value_sound`), hence a text that opens a bracket has one value and one end
(`Value.unique`), and no proper beginning of it is a document (`eq_of_isPrefix`). -/

namespace JsonText

/-! ## Scanners -/

/-- The text after its leading whitespace. -/
def skipWs (s : List Char) : List Char := s.dropWhile isWs

/-- The constants, in the order they are tried. -/
def Literal.all : List Literal := [.null, .true, .false, .nan, .infinity, .negInfinity]

/-- A constant at the start of a text. -/
def scanLiteral (s : List Char) : Option (Literal × List Char) :=
  (Literal.all.find? fun l => l.text.isPrefixOf s).map fun l => (l, s.drop l.text.length)

/-- An integer part. -/
def scanInt : List Char → Option (List Char × List Char)
  | [] => none
  | c :: r =>
    if c = '0' then some (['0'], r)
    else if isDigit c then some (c :: r.takeWhile isDigit, r.dropWhile isDigit)
    else none

/-- A fraction, if a digit follows the point. -/
def scanFraction (s : List Char) : List Char × List Char :=
  match s with
  | '.' :: r =>
    if r.takeWhile isDigit = [] then ([], s) else ('.' :: r.takeWhile isDigit, r.dropWhile isDigit)
  | _ => ([], s)

/-- The sign of an exponent, which may be missing. -/
def scanSign (s : List Char) : List Char × List Char :=
  match s with
  | [] => ([], [])
  | c :: r => if c = '+' ∨ c = '-' then ([c], r) else ([], s)

/-- An exponent, if it has a digit. -/
def scanExponent (s : List Char) : List Char × List Char :=
  match s with
  | [] => ([], [])
  | e :: r =>
    if e = 'e' ∨ e = 'E' then
      if (scanSign r).2.takeWhile isDigit = [] then ([], s)
      else (e :: ((scanSign r).1 ++ (scanSign r).2.takeWhile isDigit),
        (scanSign r).2.dropWhile isDigit)
    else ([], s)

/-- A number without its sign. -/
def scanUnsigned (s : List Char) : Option (List Char × List Char) :=
  (scanInt s).map fun (i, r) =>
    (i ++ ((scanFraction r).1 ++ (scanExponent (scanFraction r).2).1),
      (scanExponent (scanFraction r).2).2)

/-- A number. -/
def scanNumber (s : List Char) : Option (List Char × List Char) :=
  match s with
  | '-' :: r => (scanUnsigned r).map fun (t, r) => ('-' :: t, r)
  | _ => scanUnsigned s

/-- The text of a string up to its closing quote, after the opening one. -/
def scanString : List Char → Option (List Char × List Char)
  | '"' :: r => some ([], r)
  | '\\' :: 'u' :: h₁ :: h₂ :: h₃ :: h₄ :: r =>
    if [h₁, h₂, h₃, h₄].all isHexDigit then
      (scanString r).map fun (t, r) => ('\\' :: 'u' :: h₁ :: h₂ :: h₃ :: h₄ :: t, r)
    else none
  | '\\' :: e :: r =>
    if isEscaped e then (scanString r).map fun (t, r) => ('\\' :: e :: t, r) else none
  | c :: r =>
    -- a lone backslash, or a control character
    if c = '\\' ∨ c.toNat < 32 then none
    else (scanString r).map fun (t, r) => (c :: t, r)
  | [] => none

/-! ## Values -/

/-- A constant or a number. -/
def scalar (s : List Char) : Option (Json × List Char) :=
  match scanLiteral s with
  | some (l, r) => some (.literal l, r)
  | none => (scanNumber s).map fun (t, r) => (.number t, r)

mutual

/-- A value. -/
def value : ℕ → List Char → Option (Json × List Char)
  | 0, _ => none
  | _ + 1, '"' :: r => (scanString r).map fun (t, r) => (.str t, r)
  | fuel + 1, '[' :: r =>
    match skipWs r with
    | ']' :: r => some (.array [], r)
    | r => (elements fuel r).map fun (vs, r) => (.array vs, r)
  | fuel + 1, '{' :: r =>
    match skipWs r with
    | '}' :: r => some (.object [], r)
    | r => (members fuel r).map fun (ms, r) => (.object ms, r)
  | _ + 1, s => scalar s

/-- The elements of an array, up to its closing bracket. -/
def elements : ℕ → List Char → Option (List Json × List Char)
  | 0, _ => none
  | fuel + 1, s => do
    let (v, r) ← value fuel s
    match skipWs r with
    | ']' :: r => return ([v], r)
    | ',' :: r => do
      let (vs, r) ← elements fuel (skipWs r)
      return (v :: vs, r)
    | _ => none

/-- The members of an object, up to its closing brace. -/
def members : ℕ → List Char → Option (List (List Char × Json) × List Char)
  | 0, _ => none
  | fuel + 1, '"' :: r => do
    let (k, r) ← scanString r
    match skipWs r with
    | ':' :: r => do
      let (v, r) ← value fuel (skipWs r)
      match skipWs r with
      | '}' :: r => return ([(k, v)], r)
      | ',' :: r => do
        let (ms, r) ← members fuel (skipWs r)
        return ((k, v) :: ms, r)
      | _ => none
    | _ => none
  | _ + 1, _ => none

end

/-- `json.loads`: the document a text is, `none` for a `JSONDecodeError`. A value is read within as
many steps as there are characters, twice. -/
def loads (text : List Char) : Option Json :=
  match value (2 * text.length) (skipWs text) with
  | none => none
  | some (v, r) => if skipWs r = [] then some v else none

/-! ## Whitespace and digits -/

/-- A text does not start with a character of a kind. -/
def Stops (p : Char → Bool) (s : List Char) : Prop := ∀ c ∈ s.head?, p c = false

theorem stops_cons {p : Char → Bool} {c : Char} {s : List Char} :
    Stops p (c :: s) ↔ p c = false := by
  simp [Stops]

/-- A run of characters of a kind is read up to where they stop. -/
theorem takeWhile_append_of_stops {p : Char → Bool} {t s : List Char} (ht : ∀ c ∈ t, p c = true)
    (hs : Stops p s) : (t ++ s).takeWhile p = t ∧ (t ++ s).dropWhile p = s := by
  have hstop : s.takeWhile p = [] ∧ s.dropWhile p = s := by
    cases s with
    | nil => exact ⟨rfl, rfl⟩
    | cons c s =>
      rw [stops_cons] at hs
      simp [hs]
  rw [List.takeWhile_append_of_pos ht, List.dropWhile_append_of_pos ht, hstop.1, hstop.2]
  exact ⟨List.append_nil t, rfl⟩

/-- A text is some whitespace, followed by what skipping whitespace leaves. -/
theorem exists_ws_append (s : List Char) : ∃ w, Ws w ∧ s = w ++ skipWs s :=
  ⟨s.takeWhile isWs, fun _ hc => List.mem_takeWhile_imp hc, List.takeWhile_append_dropWhile.symm⟩

/-- Whitespace is skipped up to the next character. -/
theorem skipWs_append_cons {w : List Char} (hw : Ws w) {c : Char} (hc : isWs c = false)
    (s : List Char) : skipWs (w ++ c :: s) = c :: s :=
  (takeWhile_append_of_stops hw (stops_cons.mpr hc)).2

/-- Nothing is left of whitespace. -/
theorem skipWs_eq_nil {s : List Char} : skipWs s = [] ↔ Ws s := List.dropWhile_eq_nil_iff

/-- A character of a kind is none that is not. -/
theorem ne_of_kind {p : Char → Bool} {c d : Char} (hc : p c = true) (hd : p d = false) : c ≠ d := by
  rintro rfl
  rw [hc] at hd
  cases hd

/-- A nonempty run of digits starts with a digit. -/
theorem IsDigits.head {t : List Char} (ht : IsDigits t) :
    ∃ c t', t = c :: t' ∧ isDigit c = true := by
  obtain ⟨hne, hall⟩ := ht
  cases t with
  | nil => exact absurd rfl hne
  | cons c t => exact ⟨c, t, rfl, hall c List.mem_cons_self⟩

/-- What a scan for digits takes is digits, if it is not empty. -/
theorem isDigits_takeWhile {s : List Char} (hne : s.takeWhile isDigit ≠ []) :
    IsDigits (s.takeWhile isDigit) :=
  ⟨hne, fun _ hc => List.mem_takeWhile_imp hc⟩

/-! ## Numbers -/

/-- A character that goes on with a number after its integer part. -/
def isNumberChar (c : Char) : Bool := isDigit c || c = '.' || c = 'e' || c = 'E'

section Complete

variable {s : List Char}

theorem stops_isDigit (hs : Stops isNumberChar s) : Stops isDigit s := by
  intro c hc
  have hnot := hs c hc
  simp only [isNumberChar, Bool.or_eq_false_iff] at hnot
  exact hnot.1.1.1

/-- A scan takes the sign it is given. -/
theorem scanSign_of_digit {c : Char} (hc : isDigit c = true) :
    scanSign (c :: s) = ([], c :: s) := by
  have hplus := ne_of_kind hc (by decide : isDigit '+' = false)
  have hminus := ne_of_kind hc (by decide : isDigit '-' = false)
  simp [scanSign, hplus, hminus]

/-- A scan takes the exponent it is given. -/
theorem scanExponent_append {e : List Char} (he : IsExponent e) (hs : Stops isNumberChar s) :
    scanExponent (e ++ s) = (e, s) := by
  cases he with
  | none =>
    cases s with
    | nil => rfl
    | cons c s =>
      rw [stops_cons, isNumberChar] at hs
      simp only [Bool.or_eq_false_iff, decide_eq_false_iff_not] at hs
      simp [scanExponent, hs.1.2, hs.2]
  | @unsigned x t hx ht =>
    obtain ⟨htake, hdrop⟩ := takeWhile_append_of_stops ht.2 (stops_isDigit hs)
    have hsign : scanSign (t ++ s) = ([], t ++ s) := by
      obtain ⟨c, t', rfl, hc⟩ := ht.head
      exact scanSign_of_digit hc
    simp [scanExponent, hx, hsign, htake, hdrop, ht.1]
  | @signed x sign t hx hsign ht =>
    obtain ⟨htake, hdrop⟩ := takeWhile_append_of_stops ht.2 (stops_isDigit hs)
    have hscan : scanSign (sign :: (t ++ s)) = ([sign], t ++ s) := if_pos hsign
    simp [scanExponent, hx, hscan, htake, hdrop, ht.1]

/-- An exponent does not start like a fraction or with a digit. -/
theorem stops_exponent_append {e : List Char} (he : IsExponent e) (hs : Stops isNumberChar s) :
    Stops (fun c => isDigit c || c = '.') (e ++ s) := by
  have hletter : ∀ {x : Char}, x = 'e' ∨ x = 'E' → (isDigit x || decide (x = '.')) = false := by
    rintro x (rfl | rfl) <;> decide
  cases he with
  | none =>
    intro c hc
    have hnot := hs c hc
    simp only [isNumberChar, Bool.or_eq_false_iff] at hnot ⊢
    exact hnot.1.1
  | unsigned hx ht => exact stops_cons.mpr (hletter hx)
  | signed hx hsign ht => exact stops_cons.mpr (hletter hx)

/-- A scan takes the fraction it is given. -/
theorem scanFraction_append {f : List Char} (hf : IsFraction f)
    (hs : Stops (fun c => isDigit c || c = '.') s) : scanFraction (f ++ s) = (f, s) := by
  cases hf with
  | none =>
    cases s with
    | nil => rfl
    | cons c s =>
      rw [stops_cons, Bool.or_eq_false_iff, decide_eq_false_iff_not] at hs
      show scanFraction (c :: s) = _
      unfold scanFraction
      split
      · next heq => exact absurd (List.cons.inj heq).1 hs.2
      · rfl
  | @digits t ht =>
    have hdigit : Stops isDigit s := fun c hc => (Bool.or_eq_false_iff.mp (hs c hc)).1
    obtain ⟨htake, hdrop⟩ := takeWhile_append_of_stops ht.2 hdigit
    simp [scanFraction, htake, hdrop, ht.1]

/-- A fraction does not start with a digit. -/
theorem stops_fraction_append {f : List Char} (hf : IsFraction f)
    (hs : Stops (fun c => isDigit c || c = '.') s) : Stops isDigit (f ++ s) := by
  cases hf with
  | none => exact fun c hc => (Bool.or_eq_false_iff.mp (hs c hc)).1
  | digits ht => exact stops_cons.mpr (by decide)

/-- A scan takes the integer part it is given. -/
theorem scanInt_append {i : List Char} (hi : IsInt i) (hs : Stops isDigit s) :
    scanInt (i ++ s) = some (i, s) := by
  rcases hi with rfl | ⟨hdigits, hhead⟩
  · rfl
  · obtain ⟨c, t, rfl, hc⟩ := hdigits.head
    have hzero : c ≠ '0' := by simpa using hhead
    obtain ⟨htake, hdrop⟩ := takeWhile_append_of_stops
      (fun x hx => hdigits.2 x (List.mem_cons_of_mem c hx)) hs
    simp [scanInt, hzero, hc, htake, hdrop]

/-- A scan takes the number it is given, up to where no number goes on. -/
theorem scanUnsigned_append {i f e : List Char} (hi : IsInt i) (hf : IsFraction f)
    (he : IsExponent e) (hs : Stops isNumberChar s) :
    scanUnsigned (i ++ (f ++ e) ++ s) = some (i ++ (f ++ e), s) := by
  have hexp := stops_exponent_append he hs
  rw [List.append_assoc, List.append_assoc, scanUnsigned,
    scanInt_append hi (stops_fraction_append hf hexp), Option.map_some]
  dsimp only
  rw [scanFraction_append hf hexp, scanExponent_append he hs]

/-- The first character of a number without its sign is a digit. -/
theorem IsInt.head {i : List Char} (hi : IsInt i) : ∃ c t, i = c :: t ∧ isDigit c = true := by
  rcases hi with rfl | ⟨hdigits, -⟩
  · exact ⟨'0', [], rfl, by decide⟩
  · exact hdigits.head

/-- A character a number starts with. -/
def isNumberHead (c : Char) : Bool := isDigit c || c = '-'

theorem IsNumber.head {t : List Char} (ht : IsNumber t) :
    ∃ c t', t = c :: t' ∧ isNumberHead c = true := by
  cases ht with
  | positive hi hf he =>
    obtain ⟨c, i, rfl, hc⟩ := hi.head
    exact ⟨c, _, rfl, Bool.or_eq_true_iff.mpr (Or.inl hc)⟩
  | negative hi hf he => exact ⟨'-', _, rfl, by decide⟩

theorem scanNumber_append {t : List Char} (ht : IsNumber t) (hs : Stops isNumberChar s) :
    scanNumber (t ++ s) = some (t, s) := by
  cases ht with
  | @positive i f e hi hf he =>
    have hscan := scanUnsigned_append hi hf he hs
    obtain ⟨c, i', rfl, hc⟩ := hi.head
    have hminus := ne_of_kind hc (by decide : isDigit '-' = false)
    unfold scanNumber
    split
    · next heq => exact absurd (List.cons.inj heq).1 hminus
    · exact hscan
  | @negative i f e hi hf he =>
    show (scanUnsigned (i ++ (f ++ e) ++ s)).map _ = _
    rw [scanUnsigned_append hi hf he hs]
    rfl

end Complete

section Sound

variable {s t r : List Char}

theorem scanSign_sound (s : List Char) :
    s = (scanSign s).1 ++ (scanSign s).2 ∧
      ((scanSign s).1 = [] ∨ ∃ sign, (sign = '+' ∨ sign = '-') ∧ (scanSign s).1 = [sign]) := by
  cases s with
  | nil => exact ⟨rfl, Or.inl rfl⟩
  | cons c s =>
    by_cases hc : c = '+' ∨ c = '-'
    · rw [show scanSign (c :: s) = ([c], s) from if_pos hc]
      exact ⟨rfl, Or.inr ⟨c, hc, rfl⟩⟩
    · rw [show scanSign (c :: s) = ([], c :: s) from if_neg hc]
      exact ⟨rfl, Or.inl rfl⟩

/-- What is taken for an exponent is one. -/
theorem scanExponent_sound (s : List Char) :
    s = (scanExponent s).1 ++ (scanExponent s).2 ∧ IsExponent (scanExponent s).1 := by
  cases s with
  | nil => exact ⟨rfl, .none⟩
  | cons x s =>
    unfold scanExponent
    dsimp only
    split_ifs with hx hdigits
    · exact ⟨rfl, .none⟩
    · obtain ⟨hsplit, hsign⟩ := scanSign_sound s
      have hrun := isDigits_takeWhile hdigits
      refine ⟨?_, ?_⟩
      · rw [List.cons_append, List.append_assoc, List.takeWhile_append_dropWhile, ← hsplit]
      · rcases hsign with hnone | ⟨sign, hsign, hsome⟩
        · rw [hnone, List.nil_append]
          exact .unsigned hx hrun
        · rw [hsome, List.singleton_append]
          exact .signed hx hsign hrun
    · exact ⟨rfl, .none⟩

/-- What is taken for a fraction is one. -/
theorem scanFraction_sound (s : List Char) :
    s = (scanFraction s).1 ++ (scanFraction s).2 ∧ IsFraction (scanFraction s).1 := by
  unfold scanFraction
  split
  · next r =>
    split_ifs with hdigits
    · exact ⟨rfl, .none⟩
    · refine ⟨?_, .digits (isDigits_takeWhile hdigits)⟩
      rw [List.cons_append, List.takeWhile_append_dropWhile]
  · exact ⟨rfl, .none⟩

/-- What is taken for an integer part is one. -/
theorem scanInt_sound (h : scanInt s = some (t, r)) : s = t ++ r ∧ IsInt t := by
  cases s with
  | nil => cases h
  | cons c s =>
    unfold scanInt at h
    dsimp only at h
    split_ifs at h with hzero hdigit
    · obtain ⟨rfl, rfl⟩ := Prod.mk.inj (Option.some.inj h)
      exact ⟨by rw [hzero]; rfl, Or.inl rfl⟩
    · obtain ⟨rfl, rfl⟩ := Prod.mk.inj (Option.some.inj h)
      refine ⟨by rw [List.cons_append, List.takeWhile_append_dropWhile], Or.inr ⟨⟨?_, ?_⟩, ?_⟩⟩
      · exact List.cons_ne_nil _ _
      · intro d hd
        rcases List.mem_cons.mp hd with rfl | hd
        · exact hdigit
        · exact List.mem_takeWhile_imp hd
      · simpa using hzero

theorem scanUnsigned_sound (h : scanUnsigned s = some (t, r)) :
    s = t ++ r ∧ ∃ i f e, IsInt i ∧ IsFraction f ∧ IsExponent e ∧ t = i ++ (f ++ e) := by
  unfold scanUnsigned at h
  obtain ⟨⟨i, r'⟩, hint, heq⟩ := Option.map_eq_some_iff.mp h
  obtain ⟨rfl, rfl⟩ := Prod.mk.inj heq
  obtain ⟨rfl, hi⟩ := scanInt_sound hint
  obtain ⟨hsplitF, hf⟩ := scanFraction_sound r'
  obtain ⟨hsplitE, he⟩ := scanExponent_sound (scanFraction r').2
  refine ⟨?_, _, _, _, hi, hf, he, rfl⟩
  rw [List.append_assoc, List.append_assoc, ← hsplitE, ← hsplitF]

/-- What is taken for a number is one. -/
theorem scanNumber_sound (h : scanNumber s = some (t, r)) : s = t ++ r ∧ IsNumber t := by
  unfold scanNumber at h
  split at h
  · obtain ⟨⟨t', r'⟩, hscan, heq⟩ := Option.map_eq_some_iff.mp h
    obtain ⟨rfl, rfl⟩ := Prod.mk.inj heq
    obtain ⟨rfl, i, f, e, hi, hf, he, rfl⟩ := scanUnsigned_sound hscan
    exact ⟨rfl, .negative hi hf he⟩
  · obtain ⟨rfl, i, f, e, hi, hf, he, rfl⟩ := scanUnsigned_sound h
    exact ⟨rfl, .positive hi hf he⟩

end Sound

/-! ## Constants and strings -/

/-- A constant is read for itself, whatever follows. -/
theorem scanLiteral_append (l : Literal) (s : List Char) :
    scanLiteral (l.text ++ s) = some (l, s) := by
  cases l <;> rfl

theorem scanLiteral_sound {s r : List Char} {l : Literal} (h : scanLiteral s = some (l, r)) :
    s = l.text ++ r := by
  obtain ⟨l', hfind, heq⟩ := Option.map_eq_some_iff.mp h
  obtain ⟨rfl, rfl⟩ := Prod.mk.inj heq
  have hpre := List.find?_some hfind
  exact (List.prefix_iff_eq_append.mp (List.isPrefixOf_iff_prefix.mp hpre)).symm

/-- No constant starts like a number. -/
theorem scanLiteral_of_isNumber {t : List Char} (ht : IsNumber t) (s : List Char) :
    scanLiteral (t ++ s) = none := by
  have hdigit : ∀ {c}, isDigit c = true →
      c ≠ 'n' ∧ c ≠ 't' ∧ c ≠ 'f' ∧ c ≠ 'N' ∧ c ≠ 'I' ∧ c ≠ '-' := by
    intro c hc
    refine ⟨?_, ?_, ?_, ?_, ?_, ?_⟩ <;> exact ne_of_kind hc (by decide)
  cases ht with
  | positive hi hf he =>
    obtain ⟨c, i, rfl, hc⟩ := hi.head
    obtain ⟨hn, ht, hf, hN, hI, hminus⟩ := hdigit hc
    simp [scanLiteral, Literal.all, Literal.text, List.isPrefixOf, hn.symm, ht.symm, hf.symm,
      hN.symm, hI.symm, hminus.symm]
  | negative hi hf he =>
    obtain ⟨c, i, rfl, hc⟩ := hi.head
    obtain ⟨hn, ht, hf, hN, hI, hminus⟩ := hdigit hc
    simp [scanLiteral, Literal.all, Literal.text, List.isPrefixOf, hI.symm]

/-- A plain character is taken as it is. -/
theorem scanString_plain {c : Char} (hquote : c ≠ '"') (hslash : c ≠ '\\')
    (hcontrol : 32 ≤ c.toNat) (s : List Char) :
    scanString (c :: s) = (scanString s).map fun (t, r) => (c :: t, r) := by
  have hplain : ¬ (c = '\\' ∨ c.toNat < 32) := by
    rintro (hc | hc)
    · exact hslash hc
    · omega
  rw [scanString.eq_def (c :: s)]
  split
  · next heq => exact absurd (List.cons.inj heq).1 hquote
  · next heq => exact absurd (List.cons.inj heq).1 hslash
  · next heq => exact absurd (List.cons.inj heq).1 hslash
  · next heq =>
    obtain ⟨rfl, rfl⟩ := List.cons.inj heq
    exact if_neg hplain
  · next heq => cases heq

/-- A backslash takes the character it escapes with it. -/
theorem scanString_escape {e : Char} (he : isEscaped e = true) (s : List Char) :
    scanString ('\\' :: e :: s) = (scanString s).map fun (t, r) => ('\\' :: e :: t, r) := by
  rw [scanString.eq_def ('\\' :: e :: s)]
  split
  · next heq => exact absurd (List.cons.inj heq).1 (by decide)
  · next heq =>
    -- the escape of four digits is another one
    obtain ⟨rfl, -⟩ := List.cons.inj (List.cons.inj heq).2
    exact absurd he (by decide)
  · next heq =>
    obtain ⟨rfl, rfl⟩ := List.cons.inj (List.cons.inj heq).2
    exact if_pos he
  · next hescape heq =>
    obtain ⟨rfl, rfl⟩ := List.cons.inj heq
    exact (hescape _ _ rfl rfl).elim
  · next heq => cases heq

/-- Four hexadecimal digits are taken together. -/
theorem scanString_unicode {a b c d : Char} (hhex : [a, b, c, d].all isHexDigit = true)
    (s : List Char) :
    scanString ('\\' :: 'u' :: a :: b :: c :: d :: s) =
      (scanString s).map fun (t, r) => ('\\' :: 'u' :: a :: b :: c :: d :: t, r) :=
  if_pos hhex

/-- A string is read up to its closing quote. -/
theorem scanString_append {t : List Char} (ht : IsChars t) (s : List Char) :
    scanString (t ++ '"' :: s) = some (t, s) := by
  induction ht with
  | nil => rfl
  | plain hquote hslash hcontrol ht ih =>
    rw [List.cons_append, scanString_plain hquote hslash hcontrol, ih]
    rfl
  | escape he ht ih =>
    rw [List.cons_append, List.cons_append, scanString_escape he, ih]
    rfl
  | @unicode a b c d t hhex ht ih =>
    show scanString ('\\' :: 'u' :: a :: b :: c :: d :: (t ++ '"' :: s)) = _
    rw [scanString_unicode hhex, ih]
    rfl

/-- What is taken for the text of a string is one, and ends with a quote. -/
theorem scanString_sound {s t r : List Char} (h : scanString s = some (t, r)) :
    s = t ++ '"' :: r ∧ IsChars t := by
  fun_induction scanString s generalizing t r with
  | case1 r' =>
    obtain ⟨rfl, rfl⟩ := Prod.mk.inj (Option.some.inj h)
    exact ⟨rfl, .nil⟩
  | case2 h₁ h₂ h₃ h₄ r' hhex ih =>
    obtain ⟨⟨t', r''⟩, hscan, heq⟩ := Option.map_eq_some_iff.mp h
    obtain ⟨rfl, rfl⟩ := Prod.mk.inj heq
    obtain ⟨rfl, ht⟩ := ih hscan
    exact ⟨rfl, .unicode hhex ht⟩
  | case3 => cases h
  | case4 e r' _ he ih =>
    obtain ⟨⟨t', r''⟩, hscan, heq⟩ := Option.map_eq_some_iff.mp h
    obtain ⟨rfl, rfl⟩ := Prod.mk.inj heq
    obtain ⟨rfl, ht⟩ := ih hscan
    exact ⟨rfl, .escape he ht⟩
  | case5 => cases h
  | case6 => cases h
  | case7 c r' hquote _ _ hplain ih =>
    rw [not_or, not_lt] at hplain
    obtain ⟨⟨t', r''⟩, hscan, heq⟩ := Option.map_eq_some_iff.mp h
    obtain ⟨rfl, rfl⟩ := Prod.mk.inj heq
    obtain ⟨rfl, ht⟩ := ih hscan
    exact ⟨rfl, .plain hquote hplain.1 hplain.2 ht⟩
  | case8 => cases h

/-! ## What is read is a value -/

section Sound

variable {fuel : ℕ} {s r : List Char} {v : Json}

theorem scalar_sound (h : scalar s = some (v, r)) : Value s v r := by
  unfold scalar at h
  split at h
  · next hscan =>
    obtain ⟨rfl, rfl⟩ := Prod.mk.inj (Option.some.inj h)
    rw [scanLiteral_sound hscan]
    exact .literal _ _
  · obtain ⟨⟨t, r'⟩, hscan, heq⟩ := Option.map_eq_some_iff.mp h
    obtain ⟨rfl, rfl⟩ := Prod.mk.inj heq
    obtain ⟨rfl, ht⟩ := scanNumber_sound hscan
    exact .number ht _

/-- Values are read soundly if elements and members are. -/
theorem value_sound_succ (helements : ∀ s vs r, elements fuel s = some (vs, r) → Elements s vs r)
    (hmembers : ∀ s ms r, members fuel s = some (ms, r) → Members s ms r)
    (h : value (fuel + 1) s = some (v, r)) : Value s v r := by
  unfold value at h
  split at h
  · next heq => cases heq
  · obtain ⟨⟨t, r'⟩, hscan, heq⟩ := Option.map_eq_some_iff.mp h
    obtain ⟨rfl, rfl⟩ := Prod.mk.inj heq
    obtain ⟨rfl, ht⟩ := scanString_sound hscan
    exact .str ht _
  · next s hfuel =>
    obtain rfl := Nat.succ.inj hfuel
    obtain ⟨w, hw, hs⟩ := exists_ws_append s
    rw [hs]
    split at h
    · next hskip =>
      obtain ⟨rfl, rfl⟩ := Prod.mk.inj (Option.some.inj h)
      rw [hskip]
      exact .emptyArray hw _
    · obtain ⟨⟨vs, r'⟩, hread, heq⟩ := Option.map_eq_some_iff.mp h
      obtain ⟨rfl, rfl⟩ := Prod.mk.inj heq
      exact .array hw (helements _ _ _ hread)
  · next s hfuel =>
    obtain rfl := Nat.succ.inj hfuel
    obtain ⟨w, hw, hs⟩ := exists_ws_append s
    rw [hs]
    split at h
    · next hskip =>
      obtain ⟨rfl, rfl⟩ := Prod.mk.inj (Option.some.inj h)
      rw [hskip]
      exact .emptyObject hw _
    · obtain ⟨⟨ms, r'⟩, hread, heq⟩ := Option.map_eq_some_iff.mp h
      obtain ⟨rfl, rfl⟩ := Prod.mk.inj heq
      exact .object hw (hmembers _ _ _ hread)
  · exact scalar_sound h

/-- Elements are read soundly if values are. -/
theorem elements_sound_succ (hvalue : ∀ s v r, value fuel s = some (v, r) → Value s v r)
    (helements : ∀ s vs r, elements fuel s = some (vs, r) → Elements s vs r) {vs : List Json}
    (h : elements (fuel + 1) s = some (vs, r)) : Elements s vs r := by
  unfold elements at h
  obtain ⟨⟨v, r₁⟩, hread, hend⟩ := Option.bind_eq_some_iff.mp h
  have hv := hvalue _ _ _ hread
  obtain ⟨w, hw, hr₁⟩ := exists_ws_append r₁
  rw [hr₁] at hv
  dsimp only at hend
  split at hend
  · next hskip =>
    obtain ⟨rfl, rfl⟩ := Prod.mk.inj (Option.some.inj hend)
    rw [hskip] at hv
    exact .last hv hw
  · next r₂ hskip =>
    obtain ⟨⟨vs', r₃⟩, hrest, heq⟩ := Option.bind_eq_some_iff.mp hend
    obtain ⟨rfl, rfl⟩ := Prod.mk.inj (Option.some.inj heq)
    obtain ⟨w', hw', hr₂⟩ := exists_ws_append r₂
    rw [hskip, hr₂] at hv
    exact .cons hv hw hw' (helements _ _ _ hrest)
  · cases hend

/-- Members are read soundly if values are. -/
theorem members_sound_succ (hvalue : ∀ s v r, value fuel s = some (v, r) → Value s v r)
    (hmembers : ∀ s ms r, members fuel s = some (ms, r) → Members s ms r)
    {ms : List (List Char × Json)} (h : members (fuel + 1) s = some (ms, r)) : Members s ms r := by
  unfold members at h
  split at h
  · next heq => cases heq
  · next s hfuel =>
    obtain rfl := Nat.succ.inj hfuel
    obtain ⟨⟨k, r₁⟩, hscan, hmember⟩ := Option.bind_eq_some_iff.mp h
    obtain ⟨rfl, hk⟩ := scanString_sound hscan
    obtain ⟨w₁, hw₁, hr₁⟩ := exists_ws_append r₁
    dsimp only at hmember
    split at hmember
    · next r₂ hcolon =>
      obtain ⟨⟨v, r₃⟩, hread, hend⟩ := Option.bind_eq_some_iff.mp hmember
      obtain ⟨w₂, hw₂, hr₂⟩ := exists_ws_append r₂
      obtain ⟨w₃, hw₃, hr₃⟩ := exists_ws_append r₃
      have hv := hvalue _ _ _ hread
      rw [hr₃] at hv
      rw [hr₁, hcolon, hr₂]
      dsimp only at hend
      split at hend
      · next hskip =>
        obtain ⟨rfl, rfl⟩ := Prod.mk.inj (Option.some.inj hend)
        rw [hskip] at hv
        exact .last hk hw₁ hw₂ hv hw₃
      · next r₄ hskip =>
        obtain ⟨⟨ms', r₅⟩, hrest, heq⟩ := Option.bind_eq_some_iff.mp hend
        obtain ⟨rfl, rfl⟩ := Prod.mk.inj (Option.some.inj heq)
        obtain ⟨w₄, hw₄, hr₄⟩ := exists_ws_append r₄
        rw [hskip, hr₄] at hv
        exact .cons hk hw₁ hw₂ hv hw₃ hw₄ (hmembers _ _ _ hrest)
      · cases hend
    · cases hmember
  · cases h

/-- What is read at any depth is what the grammar says. -/
theorem sound (fuel : ℕ) :
    (∀ s v r, value fuel s = some (v, r) → Value s v r) ∧
      (∀ s vs r, elements fuel s = some (vs, r) → Elements s vs r) ∧
      ∀ s ms r, members fuel s = some (ms, r) → Members s ms r := by
  induction fuel with
  | zero => exact ⟨nofun, nofun, nofun⟩
  | succ fuel ih =>
    obtain ⟨hvalue, helements, hmembers⟩ := ih
    exact ⟨fun s v r h => value_sound_succ helements hmembers h,
      fun s vs r h => elements_sound_succ hvalue helements h,
      fun s ms r h => members_sound_succ hvalue hmembers h⟩

/-- **Soundness.** A value that is read is one the text starts with. -/
theorem value_sound (h : value fuel s = some (v, r)) : Value s v r := (sound fuel).1 s v r h

end Sound

/-! ## Every value is read -/

/-- The first character of a value is no whitespace and no closing bracket. -/
theorem Value.head {s r : List Char} {v : Json} (h : Value s v r) :
    ∃ c t, s = c :: t ∧ isWs c = false ∧ c ≠ ']' := by
  cases h with
  | literal l => cases l <;> exact ⟨_, _, rfl, by decide, by decide⟩
  | number ht =>
    obtain ⟨c, t, rfl, hc⟩ := ht.head
    refine ⟨c, _, rfl, ?_, ne_of_kind hc (by decide)⟩
    have hspace := ne_of_kind hc (by decide : isNumberHead ' ' = false)
    have htab := ne_of_kind hc (by decide : isNumberHead '\t' = false)
    have hnewline := ne_of_kind hc (by decide : isNumberHead '\n' = false)
    have hreturn := ne_of_kind hc (by decide : isNumberHead '\r' = false)
    simp [isWs, hspace, htab, hnewline, hreturn]
  | _ => exact ⟨_, _, rfl, by decide, by decide⟩

mutual

/-- A value takes something of the text. -/
theorem Value.length_lt {s r : List Char} {v : Json} (h : Value s v r) : r.length < s.length := by
  cases h with
  | literal l =>
    have hpos : 0 < l.text.length := by cases l <;> decide
    rw [List.length_append]
    omega
  | number ht =>
    obtain ⟨c, t, rfl, -⟩ := ht.head
    simp only [List.cons_append, List.length_cons, List.length_append]
    omega
  | str ht =>
    simp only [List.length_cons, List.length_append]
    omega
  | emptyArray hw =>
    simp only [List.length_cons, List.length_append]
    omega
  | array hw hs =>
    have hlt := hs.length_lt
    simp only [List.length_cons, List.length_append]
    omega
  | emptyObject hw =>
    simp only [List.length_cons, List.length_append]
    omega
  | object hw hs =>
    have hlt := hs.length_lt
    simp only [List.length_cons, List.length_append]
    omega

theorem Elements.length_lt {s r : List Char} {vs : List Json} (h : Elements s vs r) :
    r.length < s.length := by
  cases h with
  | last hv hw =>
    have hlt := hv.length_lt
    simp only [List.length_cons, List.length_append] at hlt
    omega
  | cons hv hw hw' hs =>
    have hlt := hv.length_lt
    have hrest := hs.length_lt
    simp only [List.length_cons, List.length_append] at hlt
    omega

theorem Members.length_lt {s r : List Char} {ms : List (List Char × Json)} (h : Members s ms r) :
    r.length < s.length := by
  cases h with
  | last hk hw₁ hw₂ hv hw₃ =>
    have hlt := hv.length_lt
    simp only [List.length_cons, List.length_append] at hlt ⊢
    omega
  | cons hk hw₁ hw₂ hv hw₃ hw₄ hs =>
    have hlt := hv.length_lt
    have hrest := hs.length_lt
    simp only [List.length_cons, List.length_append] at hlt ⊢
    omega

end

/-- A number stops at whitespace and at a separator. -/
theorem stops_ws_append_cons {w : List Char} (hw : Ws w) {c : Char} (hc : isNumberChar c = false)
    (s : List Char) : Stops isNumberChar (w ++ c :: s) := by
  cases w with
  | nil => exact stops_cons.mpr hc
  | cons d w =>
    rw [List.cons_append, stops_cons]
    have hd := hw d List.mem_cons_self
    simp only [isWs, Bool.or_eq_true, decide_eq_true_eq] at hd
    rcases hd with ((rfl | rfl) | rfl) | rfl <;> decide

/-- A scalar is read where it stops. -/
theorem scalar_number {t s : List Char} (ht : IsNumber t) (hs : Stops isNumberChar s) :
    scalar (t ++ s) = some (.number t, s) := by
  rw [scalar, scanLiteral_of_isNumber ht, scanNumber_append ht hs]
  rfl

theorem scalar_literal (l : Literal) (s : List Char) :
    scalar (l.text ++ s) = some (.literal l, s) := by
  rw [scalar, scanLiteral_append]

/-- A text that opens no string, array or object is read as a scalar. -/
theorem value_of_scalar (fuel : ℕ) {c : Char} (s : List Char) (hquote : c ≠ '"')
    (hbracket : c ≠ '[') (hbrace : c ≠ '{') : value (fuel + 1) (c :: s) = scalar (c :: s) := by
  unfold value
  split
  · next heq => cases heq
  · next heq => exact absurd (List.cons.inj heq).1 hquote
  · next heq => exact absurd (List.cons.inj heq).1 hbracket
  · next heq => exact absurd (List.cons.inj heq).1 hbrace
  · rfl

/-! ### One level of a text -/

section Levels

variable {fuel : ℕ} {s r r' r'' : List Char} {v : Json}

theorem value_emptyArray (hskip : skipWs s = ']' :: r) :
    value (fuel + 1) ('[' :: s) = some (.array [], r) := by
  rw [value, hskip]
  rfl

theorem value_array {c : Char} (hskip : skipWs s = c :: r) (hc : c ≠ ']') :
    value (fuel + 1) ('[' :: s) = (elements fuel (c :: r)).map fun (vs, r) => (.array vs, r) := by
  rw [value, hskip]
  split
  · next heq => exact absurd (List.cons.inj heq).1 hc
  · rfl

theorem value_emptyObject (hskip : skipWs s = '}' :: r) :
    value (fuel + 1) ('{' :: s) = some (.object [], r) := by
  rw [value, hskip]
  rfl

theorem value_object {c : Char} (hskip : skipWs s = c :: r) (hc : c ≠ '}') :
    value (fuel + 1) ('{' :: s) = (members fuel (c :: r)).map fun (ms, r) => (.object ms, r) := by
  rw [value, hskip]
  split
  · next heq => exact absurd (List.cons.inj heq).1 hc
  · rfl

theorem elements_last (hv : value fuel s = some (v, r)) (hskip : skipWs r = ']' :: r') :
    elements (fuel + 1) s = some ([v], r') := by
  rw [elements, hv, Option.bind_eq_bind, Option.bind_some]
  dsimp only
  rw [hskip]
  rfl

theorem elements_cons {vs : List Json} (hv : value fuel s = some (v, r))
    (hskip : skipWs r = ',' :: r') (hvs : elements fuel (skipWs r') = some (vs, r'')) :
    elements (fuel + 1) s = some (v :: vs, r'') := by
  rw [elements, hv, Option.bind_eq_bind, Option.bind_some]
  dsimp only
  rw [hskip]
  show (elements fuel (skipWs r')).bind (fun x => some (v :: x.1, x.2)) = _
  rw [hvs]
  rfl

/-- A member up to its value. -/
theorem members_value {k w₁ w₂ : List Char} (hk : IsChars k) (hw₁ : Ws w₁) (hw₂ : Ws w₂)
    {c : Char} (hc : isWs c = false) (hv : value fuel (c :: s) = some (v, r)) :
    members (fuel + 1) ('"' :: (k ++ '"' :: (w₁ ++ ':' :: (w₂ ++ c :: s)))) =
      match skipWs r with
      | '}' :: r => some ([(k, v)], r)
      | ',' :: r => (members fuel (skipWs r)).map fun (ms, r) => ((k, v) :: ms, r)
      | _ => none := by
  rw [members, scanString_append hk, Option.bind_eq_bind, Option.bind_some]
  dsimp only
  rw [skipWs_append_cons hw₁ (by decide)]
  show (value fuel (skipWs (w₂ ++ c :: s))).bind _ = _
  rw [skipWs_append_cons hw₂ hc, hv, Option.bind_some]
  dsimp only
  split
  · rfl
  · next r' hskip => cases members fuel (skipWs r') <;> rfl
  · rfl

end Levels

/-! ### All of a text -/

/-- The elements of an array start with a character that is no whitespace and no bracket. -/
theorem Elements.head {s r : List Char} {vs : List Json} (h : Elements s vs r) :
    ∃ c t, s = c :: t ∧ isWs c = false ∧ c ≠ ']' := by
  cases h with
  | last hv hw => exact hv.head
  | cons hv hw hw' hs => exact hv.head

/-- The members of an object start with a quote. -/
theorem Members.head {s r : List Char} {ms : List (List Char × Json)} (h : Members s ms r) :
    ∃ t, s = '"' :: t := by
  cases h <;> exact ⟨_, rfl⟩

/-- A value, unless it is a number, may be followed by anything. -/
def Json.Delimited : Json → List Char → Prop
  | .number _, r => Stops isNumberChar r
  | _, _ => True

/-- What stops a number stops any value. -/
theorem Json.delimited_of_stops (v : Json) {r : List Char} (hr : Stops isNumberChar r) :
    v.Delimited r := by
  cases v with
  | number t => exact hr
  | _ => trivial

mutual

/-- **Completeness.** A value the text starts with is read, if a number does not go on. -/
theorem value_complete {s r : List Char} {v : Json} (h : Value s v r) (hr : v.Delimited r)
    {fuel : ℕ} (hfuel : 2 * s.length ≤ fuel) : value fuel s = some (v, r) := by
  have hpos := h.length_lt
  obtain ⟨fuel, rfl⟩ : ∃ n, fuel = n + 1 := ⟨fuel - 1, by omega⟩
  cases h with
  | literal l =>
    have hread : value (fuel + 1) (l.text ++ r) = scalar (l.text ++ r) := by
      cases l <;> exact value_of_scalar fuel _ (by decide) (by decide) (by decide)
    rw [hread, scalar_literal]
  | @number t ht =>
    have hread : value (fuel + 1) (t ++ r) = scalar (t ++ r) := by
      obtain ⟨c, t', rfl, hc⟩ := ht.head
      exact value_of_scalar fuel _ (ne_of_kind hc (by decide)) (ne_of_kind hc (by decide))
        (ne_of_kind hc (by decide))
    rw [hread, scalar_number ht hr]
  | str ht =>
    rw [value, scanString_append ht]
    rfl
  | emptyArray hw => exact value_emptyArray (skipWs_append_cons hw (by decide) r)
  | array hw hs =>
    simp only [List.length_cons, List.length_append] at hfuel
    have hread := elements_complete hs (by omega : 2 * _ + 1 ≤ fuel)
    obtain ⟨c, t, rfl, hc, hbracket⟩ := hs.head
    rw [value_array (skipWs_append_cons hw hc t) hbracket, hread]
    rfl
  | emptyObject hw => exact value_emptyObject (skipWs_append_cons hw (by decide) r)
  | object hw hs =>
    simp only [List.length_cons, List.length_append] at hfuel
    have hread := members_complete hs (by omega : 2 * _ + 1 ≤ fuel)
    obtain ⟨t, rfl⟩ := hs.head
    rw [value_object (skipWs_append_cons hw (by decide) t) (by decide), hread]
    rfl

theorem elements_complete {s r : List Char} {vs : List Json} (h : Elements s vs r) {fuel : ℕ}
    (hfuel : 2 * s.length + 1 ≤ fuel) : elements fuel s = some (vs, r) := by
  obtain ⟨fuel, rfl⟩ : ∃ n, fuel = n + 1 := ⟨fuel - 1, by omega⟩
  cases h with
  | @last s w r v hv hw =>
    have hstop := v.delimited_of_stops
      (stops_ws_append_cons hw (by decide : isNumberChar ']' = false) r)
    exact elements_last (value_complete hv hstop (by omega)) (skipWs_append_cons hw (by decide) r)
  | @cons s w w' s' r v vs hv hw hw' hs =>
    have hstop := v.delimited_of_stops
      (stops_ws_append_cons hw (by decide : isNumberChar ',' = false) (w' ++ s'))
    have hlt := hv.length_lt
    simp only [List.length_cons, List.length_append] at hlt
    have hrest := elements_complete hs (by omega : 2 * _ + 1 ≤ fuel)
    obtain ⟨c, t, rfl, hc, -⟩ := hs.head
    refine elements_cons (value_complete hv hstop (by omega))
      (skipWs_append_cons hw (by decide) _) ?_
    rw [skipWs_append_cons hw' hc, hrest]

theorem members_complete {s r : List Char} {ms : List (List Char × Json)} (h : Members s ms r)
    {fuel : ℕ} (hfuel : 2 * s.length + 1 ≤ fuel) : members fuel s = some (ms, r) := by
  obtain ⟨fuel, rfl⟩ : ∃ n, fuel = n + 1 := ⟨fuel - 1, by omega⟩
  cases h with
  | @last k w₁ w₂ w₃ s r v hk hw₁ hw₂ hv hw₃ =>
    have hstop := v.delimited_of_stops
      (stops_ws_append_cons hw₃ (by decide : isNumberChar '}' = false) r)
    simp only [List.length_cons, List.length_append] at hfuel
    have hread := value_complete hv hstop (by omega : 2 * _ ≤ fuel)
    obtain ⟨c, t, rfl, hc, -⟩ := hv.head
    rw [members_value hk hw₁ hw₂ hc hread, skipWs_append_cons hw₃ (by decide)]
    rfl
  | @cons k w₁ w₂ w₃ w₄ s s' r v ms hk hw₁ hw₂ hv hw₃ hw₄ hs =>
    have hstop := v.delimited_of_stops
      (stops_ws_append_cons hw₃ (by decide : isNumberChar ',' = false) (w₄ ++ s'))
    have hlt := hv.length_lt
    simp only [List.length_cons, List.length_append] at hfuel hlt
    have hread := value_complete hv hstop (by omega : 2 * _ ≤ fuel)
    have hrest := members_complete hs (by omega : 2 * _ + 1 ≤ fuel)
    obtain ⟨c, t, rfl, hc, -⟩ := hv.head
    obtain ⟨t', rfl⟩ := hs.head
    rw [members_value hk hw₁ hw₂ hc hread, skipWs_append_cons hw₃ (by decide)]
    show (members fuel (skipWs (w₄ ++ '"' :: t'))).map _ = _
    rw [skipWs_append_cons hw₄ (by decide), hrest]
    rfl

end

/-! ## Documents -/

/-- A text has one value, and one end of it. -/
theorem Value.unique {s r r' : List Char} {v v' : Json} (h : Value s v r) (h' : Value s v' r')
    (hr : v.Delimited r) (hr' : v'.Delimited r') : v = v' ∧ r = r' := by
  have hread := value_complete h hr (le_refl (2 * s.length))
  rw [value_complete h' hr' (le_refl (2 * s.length))] at hread
  obtain ⟨hv, hrest⟩ := Prod.mk.inj (Option.some.inj hread)
  exact ⟨hv.symm, hrest.symm⟩

/-- A text that starts with a value is a document if only whitespace is left. -/
theorem loads_of_value {w s r : List Char} {v : Json} (hw : Ws w) (h : Value s v r)
    (hr : v.Delimited r) : loads (w ++ s) = if skipWs r = [] then some v else none := by
  have hread := value_complete h hr (by rw [List.length_append]; omega :
    2 * s.length ≤ 2 * (w ++ s).length)
  obtain ⟨c, t, rfl, hc, -⟩ := h.head
  rw [loads, skipWs_append_cons hw hc, hread]

/-- Whitespace stops every value. -/
theorem Json.delimited_of_ws (v : Json) {w : List Char} (hw : Ws w) : v.Delimited w := by
  apply v.delimited_of_stops
  cases w with
  | nil => exact nofun
  | cons c w =>
    have hstop := stops_ws_append_cons (w := [c]) (fun d hd => hw d (by simp_all))
      (by decide : isNumberChar ',' = false) []
    rw [List.singleton_append, stops_cons] at hstop
    exact stops_cons.mpr hstop

/-- **`json.loads` accepts exactly the documents.** -/
theorem loads_eq_some_iff {text : List Char} {v : Json} :
    loads text = some v ↔ Document text v := by
  constructor
  · intro h
    unfold loads at h
    split at h
    · cases h
    · next v' r hread =>
      obtain ⟨w, hw, htext⟩ := exists_ws_append text
      rw [Option.ite_none_right_eq_some] at h
      obtain ⟨hr, heq⟩ := h
      obtain rfl := Option.some.inj heq
      exact ⟨w, _, r, hw, skipWs_eq_nil.mp hr, htext, value_sound hread⟩
  · rintro ⟨w, s, w', hw, hw', rfl, h⟩
    rw [loads_of_value hw h (v.delimited_of_ws hw'), if_pos (skipWs_eq_nil.mpr hw')]

/-- A value in brackets: an array or an object. -/
def Json.IsContainer : Json → Prop
  | .array _ => True
  | .object _ => True
  | _ => False

theorem Json.IsContainer.delimited {v : Json} (hv : v.IsContainer) (r : List Char) :
    v.Delimited r := by
  cases v with
  | array => trivial
  | object => trivial
  | _ => exact hv.elim

/-- A value is in brackets exactly if its text opens one. -/
theorem Value.isContainer_iff {s r : List Char} {v : Json} (h : Value s v r) :
    v.IsContainer ↔ s.head? = some '[' ∨ s.head? = some '{' := by
  cases h with
  | literal l => cases l <;> simp [Json.IsContainer, Literal.text]
  | number ht =>
    obtain ⟨c, t, rfl, hc⟩ := ht.head
    have hbracket := ne_of_kind hc (by decide : isNumberHead '[' = false)
    have hbrace := ne_of_kind hc (by decide : isNumberHead '{' = false)
    simp [Json.IsContainer, hbracket, hbrace]
  | _ => simp [Json.IsContainer]

/-- What follows a text in brackets shows: only whitespace leaves it a document. -/
theorem loads_append {t : List Char} {v : Json} (h : Value t v []) (hv : v.IsContainer)
    (r : List Char) : loads (t ++ r) = if skipWs r = [] then some v else none := by
  have happend := h.append r
  rw [List.nil_append] at happend
  exact loads_of_value (w := []) nofun happend (hv.delimited r)

/-- **No proper beginning of a text in brackets is a document.** -/
theorem eq_of_isPrefix {t q : List Char} {v v' : Json} (h : Value t v []) (hv : v.IsContainer)
    (hq : q <+: t) (hloads : loads q = some v') : q = t ∧ v' = v := by
  obtain ⟨w, s, w', hw, hw', rfl, hs⟩ := loads_eq_some_iff.mp hloads
  obtain ⟨u, rfl⟩ := hq
  obtain ⟨c, s', rfl, hc, -⟩ := hs.head
  -- the text opens with a bracket, so there is no whitespace before the value
  obtain rfl : w = [] := by
    cases w with
    | nil => rfl
    | cons d w =>
      obtain ⟨c', t', heq, hc', -⟩ := h.head
      rw [List.cons_append, List.cons_append] at heq
      have hd := hw d List.mem_cons_self
      rw [(List.cons.inj heq).1, hc'] at hd
      cases hd
  rw [List.nil_append] at h ⊢
  have hv' : v'.IsContainer := by
    rw [hs.isContainer_iff, List.head?_cons]
    rw [h.isContainer_iff, List.cons_append, List.head?_cons] at hv
    exact hv
  obtain ⟨heq, hrest⟩ := (hs.append u).unique h (hv'.delimited _) (hv.delimited _)
  obtain ⟨-, rfl⟩ := List.append_eq_nil_iff.mp hrest
  exact ⟨(List.append_nil _).symm, heq⟩

end JsonText
