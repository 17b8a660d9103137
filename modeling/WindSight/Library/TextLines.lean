import Mathlib.Data.List.DropRight
import Mathlib.Data.List.Infix

/-! # Stripped lines

Texts over any alphabet, with a kind of spaces and a line separator that is one of them. `strip`
removes the spaces around a text, and `contents` lists what is left of its lines when each is
stripped and blank ones are skipped. Stripping the whole text does not change its contents
(`contents_strip`), and cutting a text off cuts its contents off within one line
(`truncates_contents`). -/

namespace TextLines

variable {α : Type*} {sp : α → Bool}

/-! ## Stripping -/

/-- A run of spaces. -/
def Blank (sp : α → Bool) (s : List α) : Prop := ∀ c ∈ s, sp c = true

instance (sp : α → Bool) (s : List α) : Decidable (Blank sp s) :=
  inferInstanceAs (Decidable (∀ c ∈ s, sp c = true))

/-- The text without the spaces around it. -/
def strip (sp : α → Bool) (s : List α) : List α := (s.dropWhile sp).rdropWhile sp

/-- A text with no spaces around it. -/
def Stripped (sp : α → Bool) (s : List α) : Prop :=
  (∀ c ∈ s.head?, sp c = false) ∧ ∀ c ∈ s.getLast?, sp c = false

theorem strip_eq_nil_iff {s : List α} : strip sp s = [] ↔ Blank sp s := by
  rw [strip, List.rdropWhile_eq_nil_iff]
  constructor
  · intro hall
    apply List.dropWhile_eq_nil_iff.mp
    by_contra hne
    -- the first character left would be no space
    have hnot := List.head_dropWhile_not sp hne
    rw [hall _ (List.head_mem hne)] at hnot
    cases hnot
  · intro hblank
    rw [List.dropWhile_eq_nil_iff.mpr hblank]
    exact nofun

/-- What is dropped from the end of two texts reaches the first one only across a blank second one.
-/
theorem rdropWhile_append (s u : List α) :
    (s ++ u).rdropWhile sp = if u.all sp then s.rdropWhile sp else s ++ u.rdropWhile sp := by
  induction u using List.reverseRecOn with
  | nil => simp
  | append_singleton u c ih =>
    rw [← List.append_assoc, List.all_append]
    by_cases hc : sp c = true
    · rw [List.rdropWhile_concat_pos _ _ _ hc, List.rdropWhile_concat_pos _ _ _ hc, ih]
      simp [hc]
    · rw [List.rdropWhile_concat_neg _ _ _ hc, List.rdropWhile_concat_neg _ _ _ hc]
      simp [hc]

/-- Cutting a text off cuts the stripped text off. -/
theorem strip_isPrefix {p s : List α} (h : p <+: s) : strip sp p <+: strip sp s := by
  obtain ⟨u, rfl⟩ := h
  rw [strip, strip, List.dropWhile_append]
  split_ifs with hempty
  · rw [List.isEmpty_iff.mp hempty]
    exact List.nil_prefix
  · rw [rdropWhile_append]
    split_ifs with hall
    · exact List.prefix_refl _
    · exact (List.rdropWhile_prefix sp _).trans (List.prefix_append _ _)

/-- Spaces before a text are stripped. -/
theorem strip_append_left {a : List α} (ha : Blank sp a) (s : List α) :
    strip sp (a ++ s) = strip sp s := by
  rw [strip, List.dropWhile_append_of_pos ha, strip]

/-- Spaces after a text are stripped. -/
theorem strip_append_right {b : List α} (hb : Blank sp b) (s : List α) :
    strip sp (s ++ b) = strip sp s := by
  rw [strip, strip, List.dropWhile_append]
  split_ifs with hempty
  · rw [List.isEmpty_iff.mp hempty, List.dropWhile_eq_nil_iff.mpr hb]
  · rw [rdropWhile_append, if_pos (List.all_eq_true.mpr hb)]

/-- A text is its stripped text between spaces. -/
theorem exists_strip (sp : α → Bool) (s : List α) :
    ∃ a b, Blank sp a ∧ Blank sp b ∧ s = a ++ (strip sp s ++ b) := by
  refine ⟨s.takeWhile sp, (s.dropWhile sp).rtakeWhile sp, ?_, ?_, ?_⟩
  · exact fun c hc => List.mem_takeWhile_imp hc
  · exact fun c hc => List.mem_rtakeWhile_imp hc
  · rw [strip, List.rdropWhile_append_rtakeWhile, List.takeWhile_append_dropWhile]

theorem length_strip_le (sp : α → Bool) (s : List α) : (strip sp s).length ≤ s.length :=
  (List.rdropWhile_prefix sp _).length_le.trans (List.dropWhile_suffix sp).length_le

/-- A stripped text has no spaces around it. -/
theorem stripped_strip (sp : α → Bool) (s : List α) : Stripped sp (strip sp s) := by
  constructor
  · intro c hc
    obtain ⟨t, ht⟩ := List.rdropWhile_prefix sp (s.dropWhile sp)
    have hhead : (s.dropWhile sp).head? = some c := by
      rw [← ht]
      rw [Option.mem_def] at hc
      rw [List.head?_append, ← strip, hc]
      rfl
    have hne : s.dropWhile sp ≠ [] := by
      intro h
      rw [h] at hhead
      cases hhead
    have hnot := List.head_dropWhile_not sp hne
    rw [List.head?_eq_some_head hne] at hhead
    rwa [Option.some.inj hhead] at hnot
  · intro c hc
    rw [Option.mem_def] at hc
    have hne : strip sp s ≠ [] := by
      intro h
      rw [h] at hc
      cases hc
    have hnot := List.rdropWhile_last_not sp (s.dropWhile sp) hne
    rw [List.getLast?_eq_some_getLast hne] at hc
    have heq := Option.some.inj hc
    rw [← heq]
    exact Bool.eq_false_iff.mpr hnot

/-- Stripping leaves a text without spaces around it. -/
theorem strip_of_stripped {s : List α} (hs : Stripped sp s) : strip sp s = s := by
  have hdrop : s.dropWhile sp = s := by
    cases s with
    | nil => rfl
    | cons c s => rw [List.dropWhile_cons, hs.1 c rfl]; rfl
  rw [strip, hdrop, List.rdropWhile_eq_self_iff]
  intro hne
  rw [hs.2 _ (List.getLast?_eq_some_getLast hne)]
  exact Bool.false_ne_true

/-- Stripping removes the spaces around a stripped text. -/
theorem strip_append {a b t : List α} (ha : Blank sp a) (hb : Blank sp b) (ht : Stripped sp t) :
    strip sp (a ++ (t ++ b)) = t := by
  rw [strip_append_left ha, strip_append_right hb, strip_of_stripped ht]

/-! ## Lines -/

section Lines

variable [DecidableEq α] {x : α}

/-- Splitting two texts at once: the last line of the first goes on with the first line of the
second. -/
theorem splitOn_append (x : α) (s u : List α) :
    ∃ init q r tail, s.splitOn x = init ++ [q] ∧ u.splitOn x = r :: tail ∧
      (s ++ u).splitOn x = init ++ (q ++ r) :: tail := by
  induction s with
  | nil =>
    obtain ⟨r, tail, hu⟩ := List.exists_cons_of_ne_nil (List.splitOn_ne_nil x u)
    exact ⟨[], [], r, tail, rfl, hu, hu⟩
  | cons c s ih =>
    obtain ⟨init, q, r, tail, hs, hu, hsu⟩ := ih
    rw [List.cons_append, List.splitOn_cons_eq_if_modifyHead, List.splitOn_cons_eq_if_modifyHead,
      hs, hsu]
    by_cases hc : (c == x) = true
    · rw [if_pos hc, if_pos hc]
      exact ⟨[] :: init, q, r, tail, rfl, hu, rfl⟩
    · rw [if_neg hc, if_neg hc]
      cases init with
      | nil => exact ⟨[], c :: q, r, tail, rfl, hu, rfl⟩
      | cons l init => exact ⟨(c :: l) :: init, q, r, tail, rfl, hu, rfl⟩

/-- The lines of a text hold its characters, without the separator. -/
theorem mem_of_mem_splitOn {s l : List α} (hl : l ∈ s.splitOn x) {c : α} (hc : c ∈ l) :
    c ∈ s ∧ c ≠ x := by
  induction s generalizing l with
  | nil =>
    rw [List.splitOn_nil, List.mem_singleton] at hl
    rw [hl] at hc
    cases hc
  | cons d s ih =>
    rw [List.splitOn_cons_eq_if_modifyHead] at hl
    split_ifs at hl with hd
    · rcases List.mem_cons.mp hl with rfl | hl
      · cases hc
      · exact ⟨List.mem_cons_of_mem d (ih hl hc).1, (ih hl hc).2⟩
    · obtain ⟨l', ls, hs⟩ := List.exists_cons_of_ne_nil (List.splitOn_ne_nil x s)
      rw [hs] at hl ih
      rcases List.mem_cons.mp hl with rfl | hl
      · rcases List.mem_cons.mp hc with rfl | hc
        · exact ⟨List.mem_cons_self, by simpa using hd⟩
        · have hrest := ih List.mem_cons_self hc
          exact ⟨List.mem_cons_of_mem d hrest.1, hrest.2⟩
      · have hrest := ih (List.mem_cons_of_mem l' hl) hc
        exact ⟨List.mem_cons_of_mem d hrest.1, hrest.2⟩

/-- Some lines, each stripped, without the blank ones. -/
def stripLines (sp : α → Bool) (ls : List (List α)) : List (List α) :=
  (ls.map (strip sp)).filter (· ≠ [])

/-- The stripped lines of a text, without the blank ones. -/
def contents (sp : α → Bool) (x : α) (s : List α) : List (List α) := stripLines sp (s.splitOn x)

omit [DecidableEq α] in
theorem stripLines_append (ls ls' : List (List α)) :
    stripLines sp (ls ++ ls') = stripLines sp ls ++ stripLines sp ls' := by
  rw [stripLines, List.map_append, List.filter_append]
  rfl

omit [DecidableEq α] in
theorem stripLines_cons (l : List α) (ls : List (List α)) :
    stripLines sp (l :: ls) =
      (if strip sp l = [] then [] else [strip sp l]) ++ stripLines sp ls := by
  rw [← List.singleton_append, stripLines_append]
  congr 1
  by_cases hl : strip sp l = [] <;> simp [stripLines, hl]

omit [DecidableEq α] in
theorem stripLines_of_blank {ls : List (List α)} (h : ∀ l ∈ ls, Blank sp l) :
    stripLines sp ls = [] := by
  rw [stripLines, List.filter_eq_nil_iff]
  intro l hl
  obtain ⟨l', hl', rfl⟩ := List.mem_map.mp hl
  simpa using strip_eq_nil_iff.mpr (h l' hl')

/-- The lines of spaces are blank. -/
theorem blank_of_mem_splitOn {s l : List α} (hs : Blank sp s) (hl : l ∈ s.splitOn x) :
    Blank sp l :=
  fun _ hc => hs _ (mem_of_mem_splitOn hl hc).1

/-- Spaces before a text do not change its contents. -/
theorem contents_append_left {a : List α} (ha : Blank sp a) (s : List α) :
    contents sp x (a ++ s) = contents sp x s := by
  obtain ⟨init, q, r, tail, hsplit, hs, happend⟩ := splitOn_append x a s
  have hinit : ∀ l ∈ init, Blank sp l := by
    intro l hl
    apply blank_of_mem_splitOn ha (x := x)
    rw [hsplit]
    exact List.mem_append_left _ hl
  have hq : Blank sp q := by
    apply blank_of_mem_splitOn ha (x := x)
    rw [hsplit]
    exact List.mem_append_right _ List.mem_cons_self
  rw [contents, contents, happend, hs, stripLines_append, stripLines_of_blank hinit,
    stripLines_cons, stripLines_cons, strip_append_left hq]
  rfl

/-- Spaces after a text do not change its contents. -/
theorem contents_append_right {b : List α} (hb : Blank sp b) (s : List α) :
    contents sp x (s ++ b) = contents sp x s := by
  obtain ⟨init, q, r, tail, hs, hsplit, happend⟩ := splitOn_append x s b
  have hr : Blank sp r := by
    apply blank_of_mem_splitOn hb (x := x)
    rw [hsplit]
    exact List.mem_cons_self
  have htail : ∀ l ∈ tail, Blank sp l := by
    intro l hl
    apply blank_of_mem_splitOn hb (x := x)
    rw [hsplit]
    exact List.mem_cons_of_mem r hl
  rw [contents, contents, happend, hs, stripLines_append, stripLines_append, stripLines_cons,
    stripLines_cons, strip_append_right hr, stripLines_of_blank htail]
  rfl

/-- **Stripping a text does not change its contents.** -/
theorem contents_strip (s : List α) : contents sp x (strip sp s) = contents sp x s := by
  obtain ⟨a, b, ha, hb, hs⟩ := exists_strip sp s
  rw [hs, contents_append_left ha, contents_append_right hb, ← hs]

/-- The contents of a stripped line are the line. -/
theorem contents_singleton {s : List α} (hx : x ∉ s) (hs : Stripped sp s) (hne : s ≠ []) :
    contents sp x s = [s] := by
  rw [contents, List.splitOn_eq_singleton hx, stripLines_cons, strip_of_stripped hs, if_neg hne]
  rfl

/-- A line of the contents is stripped and holds no separator. -/
theorem contents_spec {s l : List α} (hl : l ∈ contents sp x s) :
    x ∉ l ∧ Stripped sp l ∧ l ≠ [] := by
  obtain ⟨hmem, hne⟩ := List.mem_filter.mp hl
  obtain ⟨l', hl', rfl⟩ := List.mem_map.mp hmem
  refine ⟨?_, stripped_strip sp l', by simpa using hne⟩
  intro hx
  obtain ⟨a, b, -, -, heq⟩ := exists_strip sp l'
  have hx' : x ∈ l' := by
    rw [heq]
    exact List.mem_append_right a (List.mem_append_left b hx)
  exact (mem_of_mem_splitOn hl' hx').2 rfl

/-- The first line of a text is a beginning of it. -/
theorem isPrefix_of_splitOn {s l : List α} {ls : List (List α)} (h : s.splitOn x = l :: ls) :
    l <+: s := by
  have hjoin : [x].intercalate (s.splitOn x) = s := List.intercalate_splitOn x
  rw [h] at hjoin
  rw [← hjoin]
  cases ls with
  | nil => simp
  | cons l' ls =>
    rw [List.intercalate_cons_cons, List.append_assoc]
    exact List.prefix_append l _

/-- The contents of a stripped text start where the text does. -/
theorem exists_contents_cons (hx : sp x = true) {s : List α} (hs : Stripped sp s) (hne : s ≠ []) :
    ∃ l ls, contents sp x s = l :: ls ∧ l <+: s := by
  obtain ⟨c, s, rfl⟩ := List.exists_cons_of_ne_nil hne
  have hc : sp c = false := hs.1 c rfl
  have hcx : ¬ (c == x) = true := by
    rw [beq_iff_eq]
    rintro rfl
    rw [hx] at hc
    cases hc
  obtain ⟨l, ls, hsplit⟩ := List.exists_cons_of_ne_nil (List.splitOn_ne_nil x s)
  have hlines : (c :: s).splitOn x = (c :: l) :: ls := by
    rw [List.splitOn_cons_eq_if_modifyHead, if_neg hcx, hsplit]
    rfl
  -- the first line is not blank, and starts with no space
  have hline : strip sp (c :: l) = (c :: l).rdropWhile sp := by
    rw [strip, List.dropWhile_cons, hc]
    rfl
  have hne' : strip sp (c :: l) ≠ [] := by
    rw [Ne, strip_eq_nil_iff]
    intro hblank
    rw [hblank c List.mem_cons_self] at hc
    cases hc
  refine ⟨strip sp (c :: l), stripLines sp ls, ?_, ?_⟩
  · rw [contents, hlines, stripLines_cons, if_neg hne']
    rfl
  · rw [hline]
    exact (List.rdropWhile_prefix sp _).trans (isPrefix_of_splitOn hlines)

/-- Contents joined by the separator are themselves the contents. -/
theorem contents_intercalate {ls : List (List α)} (hls : ∀ l ∈ ls, x ∉ l) :
    contents sp x ([x].intercalate ls) = stripLines sp ls := by
  by_cases hne : ls = []
  · subst hne
    simp [contents, stripLines, strip]
  · rw [contents, List.splitOn_intercalate x hls hne]

/-! ## Texts cut off -/

/-- Some contents cut off: whole lines, and perhaps the beginning of the next one. -/
inductive Truncates : List (List α) → List (List α) → Prop
  | stop (ls : List (List α)) : Truncates [] ls
  | cut {q l : List α} (ls : List (List α)) (hne : q ≠ []) (hq : q <+: l) :
      Truncates [q] (l :: ls)
  | line {ls ls' : List (List α)} (l : List α) (h : Truncates ls ls') :
      Truncates (l :: ls) (l :: ls')

/-- **Cutting a text off cuts its contents off.** -/
theorem truncates_contents {p s : List α} (h : p <+: s) :
    Truncates (contents sp x p) (contents sp x s) := by
  obtain ⟨u, rfl⟩ := h
  obtain ⟨init, q, r, tail, hp, -, happend⟩ := splitOn_append x p u
  rw [contents, contents, hp, happend, stripLines_append, stripLines_append]
  induction stripLines sp init with
  | nil =>
    have hq : strip sp q <+: strip sp (q ++ r) := strip_isPrefix (List.prefix_append q r)
    rw [stripLines_cons, stripLines_cons]
    by_cases hblank : strip sp q = []
    · rw [if_pos hblank]
      exact .stop _
    · have hne : strip sp (q ++ r) ≠ [] := by
        intro h
        rw [h, List.prefix_nil] at hq
        exact hblank hq
      rw [if_neg hblank, if_neg hne]
      exact .cut _ hblank hq
  | cons l ls ih => exact .line l ih

end Lines

end TextLines
