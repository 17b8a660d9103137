import WindSight.Library.KeyedTable
import Mathlib.Data.Set.Finite.Lemmas
import Mathlib.Order.Preorder.Finite

/-! # Latest versions

Versions of subjects, each with the time it was issued. `IsLatest subject time S P r` says that `r`
is the latest version of its subject in `S` among those satisfying `P`. It is unique where a subject
has one version per time, exists in a finite set, and is stable under shrinking the set around it or
narrowing `P`. After an overlay by new versions, the latest version is that of the new ones or that
of the old ones, whichever is later, the new one on a tie. -/

variable {ρ κ τ : Type*}

/-- `r` is the latest version of its subject among the members of `S` that satisfy `P`. -/
structure IsLatest [LE τ] (subject : ρ → κ) (time : ρ → τ) (S : Set ρ) (P : ρ → Prop) (r : ρ) :
    Prop where
  mem : r ∈ S
  eligible : P r
  latest : ∀ r' ∈ S, subject r' = subject r → P r' → time r' ≤ time r

namespace IsLatest

variable {subject : ρ → κ} {time : ρ → τ} {S S' : Set ρ} {P P' : ρ → Prop} {r r' : ρ}

/-- A subject with one version per time has one latest version. -/
theorem unique [PartialOrder τ] (hS : Set.InjOn (fun r => (subject r, time r)) S)
    (h : IsLatest subject time S P r) (h' : IsLatest subject time S P r')
    (hsub : subject r = subject r') : r = r' :=
  hS h.mem h'.mem (Prod.ext hsub
    (le_antisymm (h'.latest r h.mem hsub h.eligible) (h.latest r' h'.mem hsub.symm h'.eligible)))

/-- In a finite set, a subject with an eligible version has a latest one. -/
theorem exists_of_finite [LinearOrder τ] (hS : S.Finite) (hr : r ∈ S) (hP : P r) :
    ∃ r', IsLatest subject time S P r' ∧ subject r' = subject r := by
  have hfin : {x ∈ S | subject x = subject r ∧ P x}.Finite := hS.subset (Set.sep_subset S _)
  obtain ⟨r', ⟨hr', hsub, hP'⟩, hmax⟩ :=
    Set.exists_max_image _ time hfin ⟨r, hr, rfl, hP⟩
  exact ⟨r', ⟨hr', hP', fun x hx hxs hxP => hmax x ⟨hx, hxs.trans hsub, hxP⟩⟩, hsub⟩

/-- A latest version stays the latest in a subset that contains it. -/
theorem of_subset [LE τ] (h : IsLatest subject time S P r) (hsub : S' ⊆ S) (hr : r ∈ S') :
    IsLatest subject time S' P r :=
  ⟨hr, h.eligible, fun x hx hxs hxP => h.latest x (hsub hx) hxs hxP⟩

/-- A latest version stays the latest under a narrower condition that it satisfies. -/
theorem of_imp [LE τ] (h : IsLatest subject time S P r) (himp : ∀ x, P' x → P x) (hr : P' r) :
    IsLatest subject time S P' r :=
  ⟨h.mem, hr, fun x hx hxs hxP => h.latest x hx hxs (himp x hxP)⟩

/-- Under a narrower condition the latest version is not later. -/
theorem time_le_of_imp [LE τ] (h : IsLatest subject time S P r)
    (h' : IsLatest subject time S P' r') (himp : ∀ x, P' x → P x) (hsub : subject r' = subject r) :
    time r' ≤ time r :=
  h.latest r' h'.mem hsub (himp r' h'.eligible)

/-! ### After an overlay -/

section Overlay

variable [LinearOrder τ] {T : Set ρ}

/-- The latest of the new versions is the latest after the overlay, unless an old one is later. -/
theorem overlay_right (h : IsLatest subject time S P r)
    (hold : ∀ x ∈ T, subject x = subject r → P x → time x ≤ time r) :
    IsLatest subject time (overlay (fun x => (subject x, time x)) T S) P r := by
  refine ⟨Or.inl h.mem, h.eligible, ?_⟩
  rintro x (hx | ⟨hx, -⟩) hxs hxP
  · exact h.latest x hx hxs hxP
  · exact hold x hx hxs hxP

/-- The latest of the old versions is the latest after the overlay, if every new one is older. -/
theorem overlay_left (h : IsLatest subject time T P r)
    (hnew : ∀ x ∈ S, subject x = subject r → P x → time x < time r)
    (hP : ∀ x, subject x = subject r → time x = time r → P x) :
    IsLatest subject time (overlay (fun x => (subject x, time x)) T S) P r := by
  refine ⟨Or.inr ⟨h.mem, ?_⟩, h.eligible, ?_⟩
  · -- a new version at the same time would be as late
    rintro ⟨x, hx, hkey⟩
    obtain ⟨hxs, hxt⟩ := Prod.mk.inj hkey
    exact absurd hxt (hnew x hx hxs (hP x hxs hxt)).ne
  · rintro x (hx | ⟨hx, -⟩) hxs hxP
    · exact (hnew x hx hxs hxP).le
    · exact h.latest x hx hxs hxP

end Overlay

end IsLatest
