import WindSight.Pipeline.FetchRetry

/-! # The body of a response

Which records a body gives. A JSON array and JSON lines of the same objects give the same records
(`ArrayBody.readBody`, `NdjsonBody.readBody`), and a body that is cut off gives an exception or a
beginning of the records (`ArrayBody.readBody_cut`, `NdjsonBody.readBody_cut`). Both rest on the
first text in brackets: nothing shorter is a document, and what follows it is whitespace in every
document that begins with it. -/

namespace WindSight.Fetch

open Records TextLines JsonText

/-! ## Texts in brackets -/

/-- The text of an array or an object, and nothing else. -/
def Encloses (t : List Char) (v : Json) : Prop := v.IsContainer ∧ Value t v []

/-- The whitespace of JSON is removed by `str.strip`. -/
theorem isSpace_of_isWs {c : Char} (h : isWs c = true) : isSpace c = true := by
  simp only [isWs, Bool.or_eq_true, decide_eq_true_eq] at h
  rcases h with ((rfl | rfl) | rfl) | rfl <;> decide

theorem blank_of_ws {w : List Char} (hw : Ws w) : Blank isSpace w :=
  fun c hc => isSpace_of_isWs (hw c hc)

namespace Encloses

variable {t : List Char} {v : Json}

theorem head (h : Encloses t v) : t.head? = some '[' ∨ t.head? = some '{' :=
  h.2.isContainer_iff.mp h.1

/-- A text in brackets closes the bracket it opens. -/
theorem getLast (h : Encloses t v) : t.getLast? = some ']' ∨ t.getLast? = some '}' := by
  obtain ⟨hv, hval⟩ := h
  have hend : ∀ {c : Char} {w s : List Char}, [c] <:+ s → (w ++ s).getLast? = some c := by
    rintro c w s ⟨u, rfl⟩
    rw [← List.append_assoc]
    exact List.getLast?_concat ..
  cases hval with
  | literal l => exact hv.elim
  | number ht => exact hv.elim
  | str ht => exact hv.elim
  | @emptyArray w hw => exact .inl (hend (w := '[' :: w) (List.suffix_refl _))
  | @array w s r vs hw hs => exact .inl (hend (w := '[' :: w) hs.isSuffix)
  | @emptyObject w hw => exact .inr (hend (w := '{' :: w) (List.suffix_refl _))
  | @object w s r ms hw hs => exact .inr (hend (w := '{' :: w) hs.isSuffix)

theorem stripped (h : Encloses t v) : Stripped isSpace t := by
  constructor
  · intro c hc
    rcases h.head with hhead | hhead <;> rw [hhead] at hc <;> cases hc <;> decide
  · intro c hc
    rcases h.getLast with hlast | hlast <;> rw [hlast] at hc <;> cases hc <;> decide

theorem ne_nil (h : Encloses t v) : t ≠ [] := by
  rintro rfl
  rcases h.head with hhead | hhead <;> cases hhead

theorem loads (h : Encloses t v) : JsonText.loads t = some v := by
  have hread := loads_append h.2 h.1 []
  rwa [List.append_nil] at hread

end Encloses

/-! ## Reading a body -/

section Reading

variable {tok : Tokens}

/-- The loop over the lines reads the stripped ones that are not blank. -/
theorem readLines_eq_mapM (lines : List (List Char)) :
    readLines tok lines = (stripLines isSpace lines).mapM (loads tok) := by
  induction lines with
  | nil => rfl
  | cons line lines ih =>
    simp only [readLines, stripLines_cons]
    by_cases hblank : strip isSpace line = []
    · rw [if_pos hblank, if_pos hblank, ih]
      rfl
    · rw [if_neg hblank, if_neg hblank, ih, List.singleton_append, List.mapM_cons]

/-- A body that is no document is read by its lines. -/
theorem readBody_eq_mapM {body : List Char}
    (h : JsonText.loads (strip isSpace body) = none) :
    readBody tok body = (contents isSpace '\n' body).mapM (loads tok) := by
  simp only [readBody]
  by_cases hblank : strip isSpace body = []
  · rw [if_pos hblank, ← contents_strip, hblank]
    rfl
  · rw [if_neg hblank, loads, h, ← contents_strip]
    exact readLines_eq_mapM _

theorem ne_nil_of_loads {doc : List Char} {v : Json} (h : JsonText.loads doc = some v) :
    doc ≠ [] := by
  rintro rfl
  cases h

/-- A body that is an object is its only record. -/
theorem readBody_object {body : List Char} {ms : List (List Char × Json)}
    (h : JsonText.loads (strip isSpace body) = some (.object ms)) :
    readBody tok body = .ok [decode tok (.object ms)] := by
  simp only [readBody]
  rw [if_neg (ne_nil_of_loads h), loads, h]
  rfl

/-- A body that is an array holds the records. -/
theorem readBody_array {body : List Char} {rs : List Json}
    (h : JsonText.loads (strip isSpace body) = some (.array rs)) :
    readBody tok body = .ok (rs.map (decode tok)) := by
  simp only [readBody]
  rw [if_neg (ne_nil_of_loads h), loads, h, ← decodeItems_eq_map]
  rfl

end Reading

/-! ## Two encodings of the records -/

/-- A JSON array in any layout, with spaces around it. -/
def ArrayBody (body : List Char) (rs : List Json) : Prop :=
  ∃ a t b, Blank isSpace a ∧ Blank isSpace b ∧ Value t (.array rs) [] ∧ body = a ++ (t ++ b)

/-- The text of an object, and nothing else. -/
def ObjectText (t : List Char) (v : Json) : Prop := ∃ ms, v = .object ms ∧ Value t v []

/-- The lines of JSON lines: one object a line, with spaces around it, and blank lines. -/
inductive NdjsonLines : List (List Char) → List Json → Prop
  | nil : NdjsonLines [] []
  | blank {line : List Char} {lines : List (List Char)} {rs : List Json}
      (hline : Blank isSpace line) (hnewline : '\n' ∉ line) (h : NdjsonLines lines rs) :
      NdjsonLines (line :: lines) rs
  | object {a t b : List Char} {r : Json} {lines : List (List Char)} {rs : List Json}
      (ha : Blank isSpace a) (hb : Blank isSpace b) (ht : ObjectText t r)
      (hnewline : '\n' ∉ a ++ (t ++ b)) (h : NdjsonLines lines rs) :
      NdjsonLines ((a ++ (t ++ b)) :: lines) (r :: rs)

/-- JSON lines with newlines between them. A carriage return before a newline is a space of its
line. -/
def NdjsonBody (body : List Char) (rs : List Json) : Prop :=
  ∃ lines, NdjsonLines lines rs ∧ body = ['\n'].intercalate lines

theorem ObjectText.encloses {t : List Char} {v : Json} (h : ObjectText t v) : Encloses t v := by
  obtain ⟨ms, rfl, hval⟩ := h
  exact ⟨trivial, hval⟩

theorem NdjsonLines.newline_notMem {lines : List (List Char)} {rs : List Json}
    (h : NdjsonLines lines rs) : ∀ line ∈ lines, '\n' ∉ line := by
  induction h with
  | nil => exact nofun
  | blank hline hnewline h ih => exact List.forall_mem_cons.mpr ⟨hnewline, ih⟩
  | object ha hb ht hnewline h ih => exact List.forall_mem_cons.mpr ⟨hnewline, ih⟩

theorem NdjsonLines.stripLines {lines : List (List Char)} {rs : List Json}
    (h : NdjsonLines lines rs) : List.Forall₂ ObjectText (stripLines isSpace lines) rs := by
  induction h with
  | nil => exact .nil
  | blank hline hnewline h ih =>
    rw [stripLines_cons, if_pos (strip_eq_nil_iff.mpr hline)]
    exact ih
  | object ha hb ht hnewline h ih =>
    rw [stripLines_cons, strip_append ha hb ht.encloses.stripped, if_neg ht.encloses.ne_nil]
    exact .cons ht ih

/-- The lines of a body in JSON lines are the texts of the records. -/
theorem NdjsonBody.contents {body : List Char} {rs : List Json} (h : NdjsonBody body rs) :
    List.Forall₂ ObjectText (contents isSpace '\n' body) rs := by
  obtain ⟨lines, hlines, rfl⟩ := h
  rw [contents_intercalate hlines.newline_notMem]
  exact hlines.stripLines

/-- A document with which the stripped lines begin is the first object. -/
theorem NdjsonBody.loads_cut {body p : List Char} {rs : List Json} {v : Json}
    (h : NdjsonBody body rs) (hp : p <+: strip isSpace body) (hloads : JsonText.loads p = some v) :
    ∃ t rs' w, rs = v :: rs' ∧ ObjectText t v ∧ '\n' ∉ t ∧ Ws w ∧ p = t ++ w := by
  have hne : strip isSpace body ≠ [] := by
    intro hnil
    rw [hnil, List.prefix_nil] at hp
    exact ne_nil_of_loads hloads hp
  obtain ⟨t, ts, hcons, u, hu⟩ :=
    exists_contents_cons (x := '\n') (by decide) (stripped_strip isSpace body) hne
  have hcontents := h.contents
  rw [← contents_strip, hcons] at hcontents
  have hline : t ∈ TextLines.contents isSpace '\n' (strip isSpace body) := by
    rw [hcons]
    exact List.mem_cons_self
  have hnewline : '\n' ∉ t := (contents_spec hline).1
  cases hcontents with
  | @cons _ r _ rs' ht hts =>
    rw [← hu] at hp
    rcases List.prefix_or_prefix_of_prefix hp (List.prefix_append t u) with hshort | ⟨w, rfl⟩
    · obtain ⟨rfl, rfl⟩ := eq_of_isPrefix ht.encloses.2 ht.encloses.1 hshort hloads
      exact ⟨p, rs', [], rfl, ht, hnewline, nofun, (List.append_nil p).symm⟩
    · rw [loads_append ht.encloses.2 ht.encloses.1, Option.ite_none_right_eq_some] at hloads
      obtain ⟨hw, heq⟩ := hloads
      obtain rfl := Option.some.inj heq
      exact ⟨t, rs', w, rfl, ht, hnewline, skipWs_eq_nil.mp hw, rfl⟩

/-! ## Either encoding gives the records -/

section Records

variable (tok : Tokens)

theorem mapM_loads {ts : List (List Char)} {rs : List Json} (h : List.Forall₂ ObjectText ts rs) :
    ts.mapM (loads tok) = .ok (rs.map (decode tok)) := by
  induction h with
  | nil => rfl
  | cons ht hts ih =>
    rw [List.mapM_cons, ih, loads, ht.encloses.loads]
    rfl

/-- **A JSON array gives its elements.** -/
theorem ArrayBody.readBody {body : List Char} {rs : List Json} (h : ArrayBody body rs) :
    readBody tok body = .ok (rs.map (decode tok)) := by
  obtain ⟨a, t, b, ha, hb, ht, rfl⟩ := h
  have hencloses : Encloses t (.array rs) := ⟨trivial, ht⟩
  apply readBody_array
  rw [strip_append ha hb hencloses.stripped, hencloses.loads]

/-- **JSON lines give their objects.** A body that is a document nevertheless is one object. -/
theorem NdjsonBody.readBody {body : List Char} {rs : List Json} (h : NdjsonBody body rs) :
    readBody tok body = .ok (rs.map (decode tok)) := by
  cases hloads : JsonText.loads (strip isSpace body) with
  | none => rw [readBody_eq_mapM hloads, mapM_loads tok h.contents]
  | some v =>
    obtain ⟨t, rs, w, rfl, ht, hnewline, hw, htext⟩ :=
      h.loads_cut (List.prefix_refl _) hloads
    have hcontents := h.contents
    rw [← contents_strip, htext, contents_append_right (blank_of_ws hw),
      contents_singleton hnewline ht.encloses.stripped ht.encloses.ne_nil] at hcontents
    cases hcontents with
    | cons _ hrest =>
      cases hrest
      obtain ⟨ms, rfl, -⟩ := ht
      exact readBody_object hloads

/-- A body that is the records in one of the encodings. No records are an empty array, or blank
lines. -/
def Encodes (body : List Char) (rs : List Json) : Prop := ArrayBody body rs ∨ NdjsonBody body rs

example : Encodes [] [] := .inr ⟨[], .nil, rfl⟩

example : Encodes ['[', ']'] [] :=
  .inl ⟨[], _, [], nofun, nofun, .emptyArray (w := []) nofun [], rfl⟩

/-- The loop gets the body: in a response with a status of success, after attempts that are
retried. -/
def Delivers (config : RetryConfig) (attempts : ℕ → Attempt) (body : List Char) : Prop :=
  ∃ i statusCode, IsFirstConclusive config attempts i ∧ (i : ℤ) ≤ config.maxRetries ∧
    attempts i = .response statusCode body ∧ 200 ≤ statusCode ∧ statusCode ≤ 299

/-- The outcome of the attempt that delivers a body is what is read of it. -/
theorem fetchWithRetry_of_delivers {config : RetryConfig} {attempts : ℕ → Attempt}
    {body : List Char} (h : Delivers config attempts body) (url : String)
    (params : List (String × String)) :
    (fetchWithRetry tok config url params attempts).2 = Fetch.readBody tok body := by
  obtain ⟨i, statusCode, hi, hle, hresponse, hstatus⟩ := h
  rw [(fetchWithRetry_of_reached hi (by omega)).2, hresponse, Attempt.outcome, raiseForStatus,
    if_pos hstatus]
  rfl

/-- **The records do not depend on the encoding of the body.** -/
theorem fetchWithRetry_encodes (config : RetryConfig) (url : String)
    (params : List (String × String)) (attempts : ℕ → Attempt) (rs : List Json)
    {body : List Char} (hdelivers : Delivers config attempts body) (hbody : Encodes body rs) :
    (fetchWithRetry tok config url params attempts).2 = .ok (rs.map (decode tok)) := by
  rw [fetchWithRetry_of_delivers tok hdelivers]
  rcases hbody with harray | hlines
  · exact harray.readBody tok
  · exact hlines.readBody tok

end Records

/-- The objects of the examples: one with an object under the key `a`, and an empty one. -/
def exampleObjects : List Json := [.object [(['a'], .object [])], .object []]

/-- The first object, a carriage return, a blank line, and the second one. -/
def exampleLines : List Char :=
  ['{', '"', 'a', '"', ':', '{', '}', '}', '\r', '\n', '\n', ' ', '{', '}']

theorem ndjsonBody_exampleLines : NdjsonBody exampleLines exampleObjects := by
  have hkey : IsChars ['a'] := .plain (by decide) (by decide) (by decide) .nil
  have hempty : ∀ rest, Value ('{' :: '}' :: rest) (.object []) rest :=
    fun rest => .emptyObject (w := []) nofun rest
  have hfirst : ObjectText ['{', '"', 'a', '"', ':', '{', '}', '}']
      (.object [(['a'], .object [])]) :=
    ⟨_, rfl, .object (w := []) nofun
      (@Members.last ['a'] [] [] [] _ [] _ hkey nofun nofun (hempty ['}']) nofun)⟩
  have hsecond : ObjectText ['{', '}'] (.object []) := ⟨_, rfl, hempty []⟩
  refine ⟨[_, [], _], .object (a := []) (b := ['\r']) nofun (by decide) hfirst (by decide)
    (.blank nofun nofun (.object (a := [' ']) (b := []) (by decide) nofun hsecond (by decide)
      .nil)), rfl⟩

theorem fetchWithRetry_encodes_exampleLines :
    (fetchWithRetry plainTokens retryConfig "windfor" [] fun _ => .response 200 exampleLines).2 =
      .ok (exampleObjects.map (decode plainTokens)) := by
  have hfirst : IsFirstConclusive retryConfig (fun _ => .response 200 exampleLines) 1 :=
    ⟨le_rfl, by decide, fun j hpos hj => absurd hj (by omega)⟩
  exact fetchWithRetry_encodes plainTokens retryConfig "windfor" [] _ exampleObjects
    ⟨1, 200, hfirst, by decide, rfl, by decide, by decide⟩ (.inr ndjsonBody_exampleLines)

/-! ## Bodies that are cut off -/

section Truncation

variable (tok : Tokens)

/-- Nothing of an array but the array itself is a document, nor a line of one. -/
theorem readBody_of_cut {t q : List Char} {rs : List Json} (ht : Value t (.array rs) [])
    (hq : q <+: t) (hne : q ≠ t) (hblank : ¬ Blank isSpace q) :
    ∃ doc, readBody tok q = .error (.jsonDecodeError doc) := by
  have hencloses : Encloses t (.array rs) := ⟨trivial, ht⟩
  have hstrip : strip isSpace q <+: t := by
    have hcut : strip isSpace q <+: strip isSpace t := strip_isPrefix hq
    rwa [strip_of_stripped hencloses.stripped] at hcut
  have hpart : ∀ l, l <+: strip isSpace q → JsonText.loads l = none := by
    intro l hl
    by_contra hsome
    obtain ⟨v, hloads⟩ := Option.ne_none_iff_exists'.mp hsome
    obtain ⟨rfl, -⟩ := eq_of_isPrefix ht trivial (hl.trans hstrip) hloads
    have hlength := hl.length_le.trans (length_strip_le isSpace q)
    exact hne (hq.eq_of_length (le_antisymm hq.length_le hlength))
  rw [← strip_eq_nil_iff] at hblank
  obtain ⟨l, ls, hcons, hl⟩ :=
    exists_contents_cons (x := '\n') (by decide) (stripped_strip isSpace q) hblank
  rw [contents_strip] at hcons
  refine ⟨String.ofList l, ?_⟩
  rw [readBody_eq_mapM (hpart _ (List.prefix_refl _)), hcons, List.mapM_cons, loads, hpart l hl]
  rfl

/-- A cut through spaces and a text leaves spaces, or the spaces and a beginning of the text. -/
theorem exists_of_prefix_append {a t p : List Char} (ha : Blank isSpace a) (hp : p <+: a ++ t)
    (hblank : ¬ Blank isSpace p) : ∃ q, p = a ++ q ∧ q <+: t := by
  rcases List.prefix_or_prefix_of_prefix hp (List.prefix_append a t) with hshort | ⟨q, rfl⟩
  · exact absurd (fun c hc => ha c (hshort.subset hc)) hblank
  · exact ⟨q, rfl, (List.prefix_append_right_inj a).mp hp⟩

/-- **An array that is cut off is no body.** -/
theorem readBody_array_cut {a t p : List Char} {rs : List Json} (ha : Blank isSpace a)
    (ht : Value t (.array rs) []) (hp : p <+: a ++ t) (hne : p ≠ a ++ t)
    (hblank : ¬ Blank isSpace p) : ∃ doc, readBody tok p = .error (.jsonDecodeError doc) := by
  obtain ⟨q, rfl, hq⟩ := exists_of_prefix_append ha hp hblank
  have hqt : q ≠ t := by
    rintro rfl
    exact hne rfl
  have hqblank : ¬ Blank isSpace q := by
    intro hq'
    exact hblank fun c hc => (List.mem_append.mp hc).elim (ha c) (hq' c)
  obtain ⟨doc, herror⟩ := readBody_of_cut tok ht hq hqt hqblank
  refine ⟨doc, ?_⟩
  simp only [readBody, strip_append_left ha]
  exact herror

/-- An array with spaces after it that is cut off lost only spaces, or is no body. -/
theorem ArrayBody.readBody_cut {body p : List Char} {rs : List Json} (h : ArrayBody body rs)
    (hp : p <+: body) (hblank : ¬ Blank isSpace p) :
    (∃ doc, Fetch.readBody tok p = .error (.jsonDecodeError doc)) ∨
      Fetch.readBody tok p = .ok (rs.map (decode tok)) := by
  obtain ⟨a, t, b, ha, hb, ht, rfl⟩ := h
  rw [← List.append_assoc] at hp
  rcases List.prefix_or_prefix_of_prefix hp (List.prefix_append (a ++ t) b) with hshort | ⟨w, rfl⟩
  · by_cases hall : p = a ++ t
    · subst hall
      exact .inr (ArrayBody.readBody tok ⟨a, t, [], ha, nofun, ht, by rw [List.append_nil]⟩)
    · exact .inl (readBody_array_cut tok ha ht hshort hall hblank)
  · have hw : Blank isSpace w :=
      fun c hc => hb c (((List.prefix_append_right_inj (a ++ t)).mp hp).subset hc)
    exact .inr (ArrayBody.readBody tok ⟨a, t, w, ha, hw, ht, List.append_assoc ..⟩)

/-- The lines that are left of the texts of some records give the first of these records, or one of
them is no document. -/
theorem mapM_truncates {cs ts : List (List Char)} {rs : List Json} (h : Truncates cs ts)
    (hts : List.Forall₂ ObjectText ts rs) :
    (∃ doc, cs.mapM (loads tok) = .error (.jsonDecodeError doc)) ∨
      ∃ rs', rs' <+: rs ∧ cs.mapM (loads tok) = .ok (rs'.map (decode tok)) := by
  induction h generalizing rs with
  | stop ts => exact .inr ⟨[], List.nil_prefix, rfl⟩
  | @cut q t ts hne hq =>
    cases hts with
    | @cons _ r _ rs ht hts =>
      rw [List.mapM_cons, loads]
      cases hloads : JsonText.loads q with
      | none => exact .inl ⟨String.ofList q, rfl⟩
      | some v =>
        obtain ⟨-, rfl⟩ := eq_of_isPrefix ht.encloses.2 ht.encloses.1 hq hloads
        exact .inr ⟨[v], ⟨rs, rfl⟩, rfl⟩
  | @line cs ts t h ih =>
    cases hts with
    | @cons _ r _ rs ht hts =>
      rw [List.mapM_cons, loads, ht.encloses.loads]
      rcases ih hts with ⟨doc, herror⟩ | ⟨rs', hrs', hok⟩
      · rw [herror]
        exact .inl ⟨doc, rfl⟩
      · rw [hok]
        exact .inr ⟨r :: rs', List.cons_prefix_cons.mpr ⟨rfl, hrs'⟩, rfl⟩

/-- **JSON lines that are cut off give the first records, or are no body.** -/
theorem NdjsonBody.readBody_cut {body p : List Char} {rs : List Json} (h : NdjsonBody body rs)
    (hp : p <+: body) :
    (∃ doc, Fetch.readBody tok p = .error (.jsonDecodeError doc)) ∨
      ∃ rs', rs' <+: rs ∧ Fetch.readBody tok p = .ok (rs'.map (decode tok)) := by
  cases hloads : JsonText.loads (strip isSpace p) with
  | none =>
    rw [readBody_eq_mapM hloads]
    exact mapM_truncates tok (truncates_contents hp) h.contents
  | some v =>
    obtain ⟨t, rs, w, rfl, ⟨ms, rfl, -⟩, -⟩ := h.loads_cut (strip_isPrefix hp) hloads
    exact .inr ⟨[.object ms], ⟨rs, rfl⟩, readBody_object hloads⟩

/-- **No record is altered, split or added when a body is cut off.** An array ends with its bracket;
where spaces follow it, a cut among them loses nothing. -/
theorem readBody_truncated (rs : List Json) :
    (∀ a t p, Blank isSpace a → Value t (.array rs) [] → p <+: a ++ t → p ≠ a ++ t →
        ¬ Blank isSpace p → ∃ doc, readBody tok p = .error (.jsonDecodeError doc)) ∧
      (∀ body p, ArrayBody body rs → p <+: body → ¬ Blank isSpace p →
        (∃ doc, readBody tok p = .error (.jsonDecodeError doc)) ∨
          readBody tok p = .ok (rs.map (decode tok))) ∧
      ∀ body p, NdjsonBody body rs → p <+: body →
        (∃ doc, readBody tok p = .error (.jsonDecodeError doc)) ∨
          ∃ rs', rs' <+: rs ∧ readBody tok p = .ok (rs'.map (decode tok)) :=
  ⟨fun _ _ _ ha ht hp hne hblank => readBody_array_cut tok ha ht hp hne hblank,
    fun _ _ hbody hp hblank => hbody.readBody_cut tok hp hblank,
    fun _ _ hbody hp => hbody.readBody_cut tok hp⟩

end Truncation

/-- An array of one object loses its bracket, and the JSON lines lose the second brace of the first
line. -/
theorem readBody_truncated_exampleLines :
    (∃ doc, readBody plainTokens ['[', '{', '}'] = .error (.jsonDecodeError doc)) ∧
      ((∃ doc, readBody plainTokens (exampleLines.take 7) = .error (.jsonDecodeError doc)) ∨
        ∃ rs', rs' <+: exampleObjects ∧
          readBody plainTokens (exampleLines.take 7) = .ok (rs'.map (decode plainTokens))) := by
  have harray : Value ['[', '{', '}', ']'] (.array [.object []]) [] :=
    .array (w := []) nofun (.last (w := []) (.emptyObject (w := []) nofun [']']) nofun)
  exact ⟨(readBody_truncated plainTokens [.object []]).1 [] _ _ nofun harray (by decide) (by decide)
      (by decide),
    (readBody_truncated plainTokens exampleObjects).2.2 _ _ ndjsonBody_exampleLines
      (List.take_prefix 7 exampleLines)⟩

end WindSight.Fetch
