import Mathlib.Tactic.Common

-- A store of heap cells. References are handed out in increasing order and are never reused, so a
-- reference that was freed stays dangling.
structure Store (α : Type) where
  next  : Nat
  cells : Nat → Option α
  fresh : ∀ n, next ≤ n → cells n = none

namespace Store

variable {α : Type}

def empty : Store α where
  next    := 0
  cells _ := none
  fresh _ _ := rfl

def get (s : Store α) (r : Nat) : Option α :=
  s.cells r

-- The new cell gets the reference `s.next`.
def alloc (s : Store α) (a : α) : Store α where
  next    := s.next + 1
  cells n := if n = s.next then some a else s.cells n
  fresh n h := by
    have hn : n ≠ s.next := by omega
    simp [hn, s.fresh n (by omega)]

def modify (s : Store α) (r : Nat) (f : α → α) : Store α where
  next    := s.next
  cells n := if n = r then (s.cells r).map f else s.cells n
  fresh n h := by
    by_cases hn : n = r
    case pos => simp [hn, s.fresh r (hn ▸ h)]
    case neg => simp [hn, s.fresh n h]

def free (s : Store α) (r : Nat) : Store α where
  next    := s.next
  cells n := if n = r then none else s.cells n
  fresh n h := by simp [s.fresh n h]

@[ext]
theorem ext {s₁ s₂ : Store α} (next : s₁.next = s₂.next) (get : ∀ n, s₁.get n = s₂.get n) :
    s₁ = s₂ := by
  have cells : s₁.cells = s₂.cells := funext get
  cases s₁
  cases s₂
  cases next
  cases cells
  rfl

variable {s : Store α} {r n : Nat} {a : α} {f g : α → α}

@[simp]
theorem get_empty : (empty : Store α).get r = none :=
  rfl

@[simp]
theorem next_modify : (s.modify r f).next = s.next :=
  rfl

theorem get_alloc : (s.alloc a).get n = if n = s.next then some a else s.get n :=
  rfl

theorem get_modify : (s.modify r f).get n = if n = r then (s.get r).map f else s.get n :=
  rfl

theorem get_free : (s.free r).get n = if n = r then none else s.get n :=
  rfl

@[simp]
theorem get_next : s.get s.next = none :=
  s.fresh s.next (Nat.le_refl _)

theorem lt_next (h : s.get n = some a) : n < s.next := by
  by_contra hn
  have := s.fresh n (by omega)
  simp_all [get]

theorem ne_next (h : s.get n = some a) : n ≠ s.next :=
  Nat.ne_of_lt (lt_next h)

@[simp]
theorem get_alloc_next : (s.alloc a).get s.next = some a := by
  simp [get_alloc]

theorem get_alloc_of_ne (h : n ≠ s.next) : (s.alloc a).get n = s.get n := by
  simp [get_alloc, h]

theorem get_modify_of_ne (h : n ≠ r) : (s.modify r f).get n = s.get n := by
  simp [get_modify, h]

theorem modify_modify : (s.modify r f).modify r g = s.modify r (g ∘ f) := by
  ext n
  case next => rfl
  case get => grind [get_modify, Option.map_map]

theorem modify_of_get (h : s.get r = some a) (hf : f a = a) : s.modify r f = s := by
  ext n
  case next => rfl
  case get => grind [get_modify]

theorem alloc_modify : (s.alloc a).modify s.next (fun _ => b) = s.alloc b := by
  ext n
  case next => rfl
  case get => grind [get_modify, get_alloc]

theorem modify_alloc (h : r < s.next) : (s.modify r f).alloc b = (s.alloc b).modify r f := by
  ext n
  case next => rfl
  case get =>
    have := Nat.ne_of_lt h
    grind [get_modify, get_alloc, next_modify]

theorem get_free_of_ne (h : n ≠ r) : (s.free r).get n = s.get n := by
  simp [get_free, h]

theorem free_comm : (s.free r).free n = (s.free n).free r := by
  ext m
  case next => rfl
  case get => grind [get_free]

theorem modify_free (h : n ≠ r) : (s.free r).modify n f = (s.modify n f).free r := by
  ext m
  case next => rfl
  case get => grind [get_free, get_modify]

end Store
