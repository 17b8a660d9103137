import Mathlib.Data.List.Infix

/-! # JSON texts

The grammar of JSON over lists of characters, with the three constants that Python's `json` adds to
it. A document is read into a tree that keeps strings and numbers as they are written. Each relation
says what a text starts with and what is left of it: `Value s v rest` holds when `s` is the text of
`v` followed by `rest`. -/

namespace JsonText

/-! ## Trees -/

/-- The constants: those of JSON, and the three that `json` reads as floats. -/
inductive Literal where
  | null
  | true
  | false
  | nan
  | infinity
  | negInfinity
  deriving DecidableEq, Repr

/-- How a constant is written. -/
def Literal.text : Literal → List Char
  | .null => ['n', 'u', 'l', 'l']
  | .true => ['t', 'r', 'u', 'e']
  | .false => ['f', 'a', 'l', 's', 'e']
  | .nan => ['N', 'a', 'N']
  | .infinity => ['I', 'n', 'f', 'i', 'n', 'i', 't', 'y']
  | .negInfinity => ['-', 'I', 'n', 'f', 'i', 'n', 'i', 't', 'y']

/-- A document: strings are kept as the text between their quotes, numbers as their text. -/
inductive Json where
  | literal (l : Literal)
  | number (text : List Char)
  | str (text : List Char)
  | array (items : List Json)
  | object (members : List (List Char × Json))

/-! ## Tokens -/

/-- The whitespace of JSON. -/
def isWs (c : Char) : Bool := c = ' ' || c = '\t' || c = '\n' || c = '\r'

/-- A run of whitespace. -/
def Ws (w : List Char) : Prop := ∀ c ∈ w, isWs c = true

/-- A decimal digit. -/
def isDigit (c : Char) : Bool := '0' ≤ c && c ≤ '9'

/-- A hexadecimal digit. -/
def isHexDigit (c : Char) : Bool :=
  isDigit c || ('a' ≤ c && c ≤ 'f') || ('A' ≤ c && c ≤ 'F')

/-- The characters a backslash escapes by themselves. -/
def isEscaped (c : Char) : Bool :=
  c = '"' || c = '\\' || c = '/' || c = 'b' || c = 'f' || c = 'n' || c = 'r' || c = 't'

/-- The text between the quotes of a string. -/
inductive IsChars : List Char → Prop
  | nil : IsChars []
  | plain {c : Char} {t : List Char} (hquote : c ≠ '"') (hslash : c ≠ '\\')
      (hcontrol : 32 ≤ c.toNat) (ht : IsChars t) : IsChars (c :: t)
  | escape {e : Char} {t : List Char} (he : isEscaped e = true) (ht : IsChars t) :
      IsChars ('\\' :: e :: t)
  | unicode {a b c d : Char} {t : List Char} (hhex : [a, b, c, d].all isHexDigit = true)
      (ht : IsChars t) : IsChars ('\\' :: 'u' :: a :: b :: c :: d :: t)

/-- A nonempty run of digits. -/
def IsDigits (t : List Char) : Prop := t ≠ [] ∧ ∀ c ∈ t, isDigit c = true

/-- An integer part: zero, or digits that do not start with zero. -/
def IsInt (t : List Char) : Prop := t = ['0'] ∨ (IsDigits t ∧ t.head? ≠ some '0')

/-- A fraction, which may be missing. -/
inductive IsFraction : List Char → Prop
  | none : IsFraction []
  | digits {t : List Char} (ht : IsDigits t) : IsFraction ('.' :: t)

/-- An exponent, which may be missing. -/
inductive IsExponent : List Char → Prop
  | none : IsExponent []
  | unsigned {e : Char} {t : List Char} (he : e = 'e' ∨ e = 'E') (ht : IsDigits t) :
      IsExponent (e :: t)
  | signed {e s : Char} {t : List Char} (he : e = 'e' ∨ e = 'E') (hs : s = '+' ∨ s = '-')
      (ht : IsDigits t) : IsExponent (e :: s :: t)

/-- A number. -/
inductive IsNumber : List Char → Prop
  | positive {i f e : List Char} (hi : IsInt i) (hf : IsFraction f) (he : IsExponent e) :
      IsNumber (i ++ (f ++ e))
  | negative {i f e : List Char} (hi : IsInt i) (hf : IsFraction f) (he : IsExponent e) :
      IsNumber ('-' :: (i ++ (f ++ e)))

/-! ## Values -/

mutual

/-- A text that starts with a value. -/
inductive Value : List Char → Json → List Char → Prop
  | literal (l : Literal) (rest : List Char) : Value (l.text ++ rest) (.literal l) rest
  | number {t : List Char} (ht : IsNumber t) (rest : List Char) :
      Value (t ++ rest) (.number t) rest
  | str {t : List Char} (ht : IsChars t) (rest : List Char) :
      Value ('"' :: (t ++ '"' :: rest)) (.str t) rest
  | emptyArray {w : List Char} (hw : Ws w) (rest : List Char) :
      Value ('[' :: (w ++ ']' :: rest)) (.array []) rest
  | array {w s rest : List Char} {vs : List Json} (hw : Ws w) (hs : Elements s vs rest) :
      Value ('[' :: (w ++ s)) (.array vs) rest
  | emptyObject {w : List Char} (hw : Ws w) (rest : List Char) :
      Value ('{' :: (w ++ '}' :: rest)) (.object []) rest
  | object {w s rest : List Char} {ms : List (List Char × Json)} (hw : Ws w)
      (hs : Members s ms rest) : Value ('{' :: (w ++ s)) (.object ms) rest

/-- A text that starts with the elements of an array, up to its closing bracket. -/
inductive Elements : List Char → List Json → List Char → Prop
  | last {s w rest : List Char} {v : Json} (hv : Value s v (w ++ ']' :: rest)) (hw : Ws w) :
      Elements s [v] rest
  | cons {s w w' s' rest : List Char} {v : Json} {vs : List Json}
      (hv : Value s v (w ++ ',' :: (w' ++ s'))) (hw : Ws w) (hw' : Ws w')
      (hs : Elements s' vs rest) : Elements s (v :: vs) rest

/-- A text that starts with the members of an object, up to its closing brace. -/
inductive Members : List Char → List (List Char × Json) → List Char → Prop
  | last {k w₁ w₂ w₃ s rest : List Char} {v : Json} (hk : IsChars k) (hw₁ : Ws w₁) (hw₂ : Ws w₂)
      (hv : Value s v (w₃ ++ '}' :: rest)) (hw₃ : Ws w₃) :
      Members ('"' :: (k ++ '"' :: (w₁ ++ ':' :: (w₂ ++ s)))) [(k, v)] rest
  | cons {k w₁ w₂ w₃ w₄ s s' rest : List Char} {v : Json} {ms : List (List Char × Json)}
      (hk : IsChars k) (hw₁ : Ws w₁) (hw₂ : Ws w₂)
      (hv : Value s v (w₃ ++ ',' :: (w₄ ++ s'))) (hw₃ : Ws w₃) (hw₄ : Ws w₄)
      (hs : Members s' ms rest) :
      Members ('"' :: (k ++ '"' :: (w₁ ++ ':' :: (w₂ ++ s)))) ((k, v) :: ms) rest

end

/-- A document: a value with whitespace around it. -/
def Document (text : List Char) (v : Json) : Prop :=
  ∃ w s w', Ws w ∧ Ws w' ∧ text = w ++ s ∧ Value s v w'

/-! ## What follows a value -/

mutual

/-- A value does not depend on what follows it. -/
theorem Value.append {s rest : List Char} {v : Json} (h : Value s v rest) (u : List Char) :
    Value (s ++ u) v (rest ++ u) := by
  cases h with
  | literal l => simpa using Value.literal l (rest ++ u)
  | number ht => simpa using Value.number ht (rest ++ u)
  | str ht => simpa using Value.str ht (rest ++ u)
  | emptyArray hw => simpa using Value.emptyArray hw (rest ++ u)
  | array hw hs => simpa using Value.array hw (hs.append u)
  | emptyObject hw => simpa using Value.emptyObject hw (rest ++ u)
  | object hw hs => simpa using Value.object hw (hs.append u)

theorem Elements.append {s rest : List Char} {vs : List Json} (h : Elements s vs rest)
    (u : List Char) : Elements (s ++ u) vs (rest ++ u) := by
  cases h with
  | last hv hw => exact .last (by simpa using hv.append u) hw
  | cons hv hw hw' hs => exact .cons (by simpa using hv.append u) hw hw' (hs.append u)

theorem Members.append {s rest : List Char} {ms : List (List Char × Json)} (h : Members s ms rest)
    (u : List Char) : Members (s ++ u) ms (rest ++ u) := by
  cases h with
  | last hk hw₁ hw₂ hv hw₃ =>
    simpa using Members.last hk hw₁ hw₂ (by simpa using hv.append u) hw₃
  | cons hk hw₁ hw₂ hv hw₃ hw₄ hs =>
    simpa using Members.cons hk hw₁ hw₂ (by simpa using hv.append u) hw₃ hw₄ (hs.append u)

end

/-! ## The end of a value -/

mutual

/-- What is left of a text is its end. -/
theorem Value.isSuffix {s r : List Char} {v : Json} (h : Value s v r) : r <:+ s := by
  cases h with
  | literal l => exact List.suffix_append _ r
  | number ht => exact List.suffix_append _ r
  | @str t ht => exact ⟨'"' :: (t ++ ['"']), by simp⟩
  | @emptyArray w hw => exact ⟨'[' :: (w ++ [']']), by simp⟩
  | @array w s r vs hw hs =>
    exact (List.suffix_cons ']' r).trans (hs.isSuffix.trans ⟨'[' :: w, by simp⟩)
  | @emptyObject w hw => exact ⟨'{' :: (w ++ ['}']), by simp⟩
  | @object w s r ms hw hs =>
    exact (List.suffix_cons '}' r).trans (hs.isSuffix.trans ⟨'{' :: w, by simp⟩)

theorem Elements.isSuffix {s r : List Char} {vs : List Json} (h : Elements s vs r) :
    ']' :: r <:+ s := by
  cases h with
  | last hv hw => exact (List.suffix_append _ _).trans hv.isSuffix
  | @cons s w w' s' r v vs hv hw hw' hs =>
    have hrest : s' <:+ w ++ ',' :: (w' ++ s') := ⟨w ++ ',' :: w', by simp⟩
    exact hs.isSuffix.trans (hrest.trans hv.isSuffix)

theorem Members.isSuffix {s r : List Char} {ms : List (List Char × Json)} (h : Members s ms r) :
    '}' :: r <:+ s := by
  cases h with
  | @last k w₁ w₂ w₃ s r v hk hw₁ hw₂ hv hw₃ =>
    have htext : s <:+ '"' :: (k ++ '"' :: (w₁ ++ ':' :: (w₂ ++ s))) :=
      ⟨'"' :: (k ++ '"' :: (w₁ ++ ':' :: w₂)), by simp⟩
    exact (List.suffix_append _ _).trans (hv.isSuffix.trans htext)
  | @cons k w₁ w₂ w₃ w₄ s s' r v ms hk hw₁ hw₂ hv hw₃ hw₄ hs =>
    have htext : s <:+ '"' :: (k ++ '"' :: (w₁ ++ ':' :: (w₂ ++ s))) :=
      ⟨'"' :: (k ++ '"' :: (w₁ ++ ':' :: w₂)), by simp⟩
    have hrest : s' <:+ w₃ ++ ',' :: (w₄ ++ s') := ⟨w₃ ++ ',' :: w₄, by simp⟩
    exact hs.isSuffix.trans (hrest.trans (hv.isSuffix.trans htext))

end

end JsonText
