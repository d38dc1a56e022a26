import Mathlib.Data.List.Nodup
import Mathlib.Logic.Function.Basic

-- Links that are kept at both ends: what points to a target is listed there, once, and nothing else
-- is. A target that has no list is not there.
structure Backlinks {ι ρ : Type} (points : ι → Option ρ) (lists : ρ → Option (List ι)) : Prop where
  live  : points i = some r → (lists r).isSome
  nodup : lists r = some l → l.Nodup
  mem   : lists r = some l → (i ∈ l ↔ points i = some r)

namespace Backlinks

theorem empty {ι ρ : Type} : Backlinks (fun _ : ι => none) (fun _ : ρ => none) where
  live h  := by cases h
  nodup h := by cases h
  mem h   := by cases h

open Function

variable {ι ρ : Type} {points points' : ι → Option ρ} {lists : ρ → Option (List ι)} {i : ι} {r : ρ}
  {l : List ι}

-- Only what points to one target changes.
theorem replace [DecidableEq ρ] {v : Option (List ι)} (h : Backlinks points lists)
    (others : ∀ j s, s ≠ r → (points' j = some s ↔ points j = some s))
    (live : ∀ j, points' j = some r → v.isSome)
    (listed : ∀ l, v = some l → l.Nodup ∧ ∀ j, j ∈ l ↔ points' j = some r) :
    Backlinks points' (update lists r v) where
  live {j s} hs := by
    by_cases hr : s = r
    case pos =>
      subst hr
      rw [update_self]
      exact live j hs
    case neg =>
      rw [update_of_ne hr]
      exact h.live ((others j s hr).mp hs)
  nodup {s l} hs := by
    by_cases hr : s = r
    case pos =>
      subst hr
      rw [update_self] at hs
      exact (listed l hs).left
    case neg =>
      rw [update_of_ne hr] at hs
      exact h.nodup hs
  mem {s l j} hs := by
    by_cases hr : s = r
    case pos =>
      subst hr
      rw [update_self] at hs
      exact (listed l hs).right j
    case neg =>
      rw [update_of_ne hr] at hs
      rw [h.mem hs, others j s hr]

theorem add [DecidableEq ρ] (h : Backlinks points lists) (hr : lists r = none) :
    Backlinks points (update lists r (some [])) := by
  have nobody (j) : points j ≠ some r := fun hj => by
    have live := h.live hj
    rw [hr] at live
    cases live
  apply h.replace
  case others => exact fun _ _ _ => Iff.rfl
  case live   => exact fun _ _ => rfl
  case listed =>
    rintro _ ⟨⟩
    exact ⟨List.nodup_nil, fun j => by simp [nobody j]⟩

-- A target that goes takes the links to it with it.
theorem drop [DecidableEq ρ] (h : Backlinks points lists) (r : ρ) :
    Backlinks (fun i => if points i = some r then none else points i) (update lists r none) := by
  apply h.replace
  case others =>
    intro j s hs
    by_cases hj : points j = some r
    case pos => simp [hj, Ne.symm hs]
    case neg => simp [hj]
  case live =>
    intro j hj
    split at hj
    case isTrue     => cases hj
    case isFalse hn => exact absurd hj hn
  case listed => rintro _ ⟨⟩

variable [DecidableEq ι] [DecidableEq ρ]

theorem unlink (h : Backlinks points lists) (hp : points i = some r) (hl : lists r = some l) :
    Backlinks (update points i none) (update lists r (some (l.erase i))) := by
  apply h.replace
  case others =>
    intro j s hs
    by_cases hj : j = i
    case pos => simp [hj, hp, Ne.symm hs]
    case neg => simp [hj]
  case live   => exact fun _ _ => rfl
  case listed =>
    rintro _ ⟨⟩
    refine ⟨(h.nodup hl).erase i, fun j => ?_⟩
    rw [(h.nodup hl).mem_erase_iff, h.mem hl]
    by_cases hj : j = i <;> simp [hj]

theorem link (h : Backlinks points lists) (hp : points i = none) (hl : lists r = some l) :
    Backlinks (update points i (some r)) (update lists r (some (l ++ [i]))) := by
  have absent : i ∉ l := fun hi => by cases hp.symm.trans ((h.mem hl).mp hi)
  apply h.replace
  case others =>
    intro j s hs
    by_cases hj : j = i
    case pos => simp [hj, hp, Ne.symm hs]
    case neg => simp [hj]
  case live   => exact fun _ _ => rfl
  case listed =>
    rintro _ ⟨⟩
    refine ⟨List.concat_eq_append ▸ List.Nodup.concat absent (h.nodup hl), fun j => ?_⟩
    rw [List.mem_append, h.mem hl, List.mem_singleton]
    by_cases hj : j = i <;> simp [hj]

end Backlinks
