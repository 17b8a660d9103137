import Mathlib.Data.List.Basic

/-! # Runs that may stop anywhere

A program performs a list of effects on a durable state, one after the other, and may be killed
between any two of them. What a reader of the state can rely on is what holds after every prefix of
the list (`Throughout`). It is proved block by block: a block that keeps a property at every moment
may be followed by another one (`throughout_append`, `throughout_flatMap`). A property of the order
of effects is one of the log (`record`). -/

namespace Interruption

variable {σ ε : Type*}

/-- The state after a list of effects. -/
def perform (apply : σ → ε → σ) (s : σ) (es : List ε) : σ := es.foldl apply s

/-- `P` holds at every moment of performing `es` from `s`: after each prefix. -/
def Throughout (apply : σ → ε → σ) (P : σ → Prop) (s : σ) (es : List ε) : Prop :=
  ∀ n, P (perform apply s (es.take n))

/-- The log of the effects performed so far, as a state. -/
def record (log : List ε) (e : ε) : List ε := log ++ [e]

@[simp] theorem perform_record (log es : List ε) : perform record log es = log ++ es := by
  induction es generalizing log with
  | nil => exact (List.append_nil log).symm
  | cons e es ih =>
    show perform record (record log e) es = log ++ e :: es
    rw [ih, record, List.append_assoc, List.singleton_append]

section Perform

variable {apply : σ → ε → σ} {P : σ → Prop} {s : σ}

@[simp] theorem perform_nil (apply : σ → ε → σ) (s : σ) : perform apply s [] = s := rfl

@[simp] theorem perform_cons (apply : σ → ε → σ) (s : σ) (e : ε) (es : List ε) :
    perform apply s (e :: es) = perform apply (apply s e) es := rfl

theorem perform_append (apply : σ → ε → σ) (s : σ) (es es' : List ε) :
    perform apply s (es ++ es') = perform apply (perform apply s es) es' := List.foldl_append

/-- The state after one more effect of the log. -/
@[simp] theorem perform_record_eq (apply : σ → ε → σ) (s : σ) (log : List ε) (e : ε) :
    perform apply s (record log e) = apply (perform apply s log) e :=
  perform_append apply s log [e]

/-- What holds at every moment holds at the last one. -/
theorem Throughout.perform {es : List ε} (h : Throughout apply P s es) :
    P (Interruption.perform apply s es) := by
  have hall := h es.length
  rwa [List.take_length] at hall

@[simp] theorem throughout_nil : Throughout apply P s [] ↔ P s := by
  simp [Throughout]

@[simp] theorem throughout_cons {e : ε} {es : List ε} :
    Throughout apply P s (e :: es) ↔ P s ∧ Throughout apply P (apply s e) es := by
  constructor
  · intro h
    exact ⟨h 0, fun n => h (n + 1)⟩
  · rintro ⟨hs, h⟩ n
    cases n with
    | zero => exact hs
    | succ n => exact h n

/-- One list of effects after the other. -/
theorem throughout_append {es es' : List ε} :
    Throughout apply P s (es ++ es') ↔
      Throughout apply P s es ∧ Throughout apply P (perform apply s es) es' := by
  induction es generalizing s with
  | nil =>
    rw [List.nil_append, throughout_nil, perform_nil, iff_and_self]
    exact fun h => h 0
  | cons e es ih => rw [List.cons_append, throughout_cons, throughout_cons, ih, and_assoc]; rfl

/-- **Block by block.** Blocks that keep `P` at every moment, from any state with `P`, keep it at
every moment of their concatenation. -/
theorem throughout_flatMap {β : Type*} {block : β → List ε} {bs : List β}
    (hblock : ∀ b ∈ bs, ∀ s, P s → Throughout apply P s (block b)) (hs : P s) :
    Throughout apply P s (bs.flatMap block) := by
  induction bs generalizing s with
  | nil => exact throughout_nil.mpr hs
  | cons b bs ih =>
    rw [List.flatMap_cons, throughout_append]
    have hfirst := hblock b List.mem_cons_self s hs
    exact ⟨hfirst, ih (fun b' hb' => hblock b' (List.mem_cons_of_mem _ hb')) hfirst.perform⟩

end Perform

end Interruption
