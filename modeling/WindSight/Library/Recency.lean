import Mathlib.Data.List.Basic

/-! # Order of last occurrence

`LastBefore log a b` says that in `log` the last occurrence of `a` comes before the last occurrence
of `b`. A list kept by moving each newly logged item to its end, and by dropping items otherwise, is
ordered by last occurrence (`pairwise_lastBefore_append`). -/

variable {α : Type*}

/-- In `log`, `b` occurs after the last occurrence of `a`. -/
def LastBefore (log : List α) (a b : α) : Prop := ∃ l₁ l₂, log = l₁ ++ a :: l₂ ∧ a ∉ l₂ ∧ b ∈ l₂

namespace LastBefore

variable {log ext : List α} {a b : α}

/-- Logging other items keeps the order of two items. -/
theorem append (h : LastBefore log a b) (ha : a ∉ ext) : LastBefore (log ++ ext) a b := by
  obtain ⟨l₁, l₂, rfl, ha₂, hb⟩ := h
  refine ⟨l₁, l₂ ++ ext, by rw [List.append_assoc, List.cons_append], ?_,
    List.mem_append_left _ hb⟩
  rw [List.mem_append, not_or]
  exact ⟨ha₂, ha⟩

/-- A logged item comes before an item logged later, unless it is logged later itself. -/
theorem of_mem (ha : a ∈ log) (hext : a ∉ ext) (hb : b ∈ ext) : LastBefore (log ++ ext) a b := by
  -- the last occurrence of `a` is its first one in the reversed log
  obtain ⟨l₁, l₂, hrev, hl₁⟩ := List.eq_append_cons_of_mem (List.mem_reverse.mpr ha)
  have hlog : log = l₂.reverse ++ a :: l₁.reverse := by
    rw [← List.reverse_reverse log, hrev, List.reverse_append, List.reverse_cons, List.append_assoc]
    rfl
  refine ⟨l₂.reverse, l₁.reverse ++ ext, by rw [hlog, List.append_assoc, List.cons_append], ?_,
    List.mem_append_right _ hb⟩
  rw [List.mem_append, List.mem_reverse, not_or]
  exact ⟨hl₁, hext⟩

end LastBefore

/-- Dropping items from a list ordered by last occurrence, and then logging new items and putting
them at its end, keeps it ordered by last occurrence. -/
theorem pairwise_lastBefore_append {log l l' ext : List α} (h : l.Pairwise (LastBefore log))
    (hlog : l ⊆ log) (hsub : l'.Sublist l) (hext : ∀ a ∈ ext, a ∉ l')
    (hpw : ext.Pairwise (LastBefore (log ++ ext))) :
    (l' ++ ext).Pairwise (LastBefore (log ++ ext)) := by
  have hnew : ∀ a ∈ l', a ∉ ext := fun a ha hmem => hext a hmem ha
  rw [List.pairwise_append]
  refine ⟨?_, hpw, fun a ha b hb => LastBefore.of_mem (hlog (hsub.subset ha)) (hnew a ha) hb⟩
  exact (h.sublist hsub).imp_of_mem fun ha _ hab => hab.append (hnew _ ha)

/-- In a sublist of a duplicate-free list, an item is followed by items that already followed it. -/
theorem subset_of_sublist_append_cons {l₁ l₂ m₁ m₂ : List α} {k : α} (hnd : (l₁ ++ k :: l₂).Nodup)
    (h : (m₁ ++ k :: m₂).Sublist (l₁ ++ k :: l₂)) : m₂ ⊆ l₂ := by
  obtain ⟨a, b, hab, ha, hb⟩ :=
    List.sublist_append_iff.mp ((List.sublist_append_right m₁ (k :: m₂)).trans h)
  cases a with
  | nil =>
    -- the two occurrences of `k` are matched with each other
    rw [List.nil_append] at hab
    subst hab
    exact (List.cons_sublist_cons.mp hb).subset
  | cons c a =>
    -- otherwise `k` would also stand before itself
    obtain rfl : k = c := (List.cons.inj hab).1
    exact absurd rfl
      ((List.nodup_append.mp hnd).2.2 k (ha.subset List.mem_cons_self) k List.mem_cons_self)
