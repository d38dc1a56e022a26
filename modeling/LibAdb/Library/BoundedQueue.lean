import Mathlib.Data.List.Basic

-- A queue with a limit. When it is full, the oldest of the entries that may be dropped goes first,
-- then a new entry that may be dropped, and else the oldest one.
namespace BoundedQueue

open List

variable {α : Type} {droppable : α → Bool} {limit : Nat} {queue : List α} {x y : α}

-- The queue with one more entry, and the entry that had to go. A limit of 0 stands for none.
def push (droppable : α → Bool) (limit : Nat) (queue : List α) (x : α) : List α × Option α :=
  if limit = 0 ∨ queue.length < limit then (queue ++ [x], none)
  else
    match queue.find? droppable with
    | some victim => (queue.eraseP droppable ++ [x], some victim)
    | none        => if droppable x then (queue, some x) else (queue.tail ++ [x], queue.head?)

theorem eraseP_perm (h : queue.find? droppable = some y) : y :: queue.eraseP droppable ~ queue := by
  induction queue
  case nil => cases h
  case cons z queue ih =>
    by_cases hz : droppable z
    case pos =>
      rw [List.find?_cons_of_pos hz] at h
      cases h
      rw [List.eraseP_cons_of_pos hz]
    case neg =>
      rw [List.find?_cons_of_neg hz] at h
      rw [List.eraseP_cons_of_neg hz]
      exact (List.Perm.swap ..).trans ((ih h).cons z)

-- Nothing is lost or doubled.
theorem push_perm (droppable : α → Bool) (limit : Nat) (queue : List α) (x : α) :
    (push droppable limit queue x).1 ++ (push droppable limit queue x).2.toList ~ queue ++ [x] := by
  unfold push
  split
  case isTrue => exact .of_eq (List.append_nil _)
  case isFalse =>
    split
    case h_1 victim hv =>
      apply List.perm_append_comm.trans
      exact (eraseP_perm hv).append_right [x]
    case h_2 =>
      split
      case isTrue => exact .refl _
      case isFalse =>
        cases queue
        case nil => exact .refl _
        case cons y queue => exact List.perm_append_comm

theorem push_sublist : (push droppable limit queue x).1 <+ queue ++ [x] := by
  unfold push
  split
  case isTrue => exact .refl _
  case isFalse =>
    split
    case h_1 => exact List.eraseP_sublist.append_right [x]
    case h_2 =>
      split
      case isTrue => exact List.sublist_append_left ..
      case isFalse => exact (List.tail_sublist queue).append_right [x]

theorem length_push_le (h₀ : 0 < limit) (h : queue.length ≤ limit) :
    (push droppable limit queue x).1.length ≤ limit := by
  have split := (push_perm droppable limit queue x).length_eq
  rw [List.length_append, List.length_append, List.length_singleton] at split
  by_cases hl : queue.length < limit
  case pos => omega
  case neg =>
    -- A full queue gives up one entry.
    have evicts : (push droppable limit queue x).2.isSome := by
      have full : ¬(limit = 0 ∨ queue.length < limit) := by omega
      rw [push, if_neg full]
      split
      case h_1 => rfl
      case h_2 =>
        split
        case isTrue => rfl
        case isFalse =>
          cases queue
          case nil => simp at hl; omega
          case cons => rfl
    have ⟨y, hy⟩ := Option.isSome_iff_exists.mp evicts
    rw [hy, Option.toList_some, List.length_singleton] at split
    omega

-- An entry that may not be dropped goes when there is no other one and no room.
theorem push_evicts :
    (∃ y, (push droppable limit queue x).2 = some y ∧ droppable y = false) ↔
      limit ≠ 0 ∧ limit ≤ queue.length ∧ (∀ z ∈ queue, droppable z = false) ∧ droppable x = false := by
  constructor
  case mp =>
    intro ⟨y, h, hy⟩
    unfold push at h
    split at h
    case isTrue => cases h
    case isFalse full =>
      split at h
      case h_1 victim hv =>
        cases h
        exact absurd (List.find?_some hv) (Bool.eq_false_iff.mp hy)
      case h_2 hv =>
        split at h
        case isTrue hx =>
          cases h
          exact absurd hx (Bool.eq_false_iff.mp hy)
        case isFalse hx =>
          refine ⟨by omega, by omega, fun z hz => ?_, Bool.eq_false_iff.mpr hx⟩
          exact Bool.eq_false_iff.mpr (List.find?_eq_none.mp hv z hz)
  case mpr =>
    intro ⟨h₀, full, hz, hx⟩
    have hl : ¬(limit = 0 ∨ queue.length < limit) := by omega
    have hv : queue.find? droppable = none :=
      List.find?_eq_none.mpr fun z h => Bool.eq_false_iff.mp (hz z h)
    cases queue
    case nil => exact absurd (Nat.le_zero.mp full) h₀
    case cons y queue =>
      refine ⟨y, ?_, hz y List.mem_cons_self⟩
      rw [push, if_neg hl, hv]
      simp only [hx, Bool.false_eq_true, if_false]
      rfl

end BoundedQueue
