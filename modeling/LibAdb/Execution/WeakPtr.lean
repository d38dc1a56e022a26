import Mathlib.Logic.Function.Basic

-- `weak_ptr` and `enable_weak_from_this`. The objects of both kinds have addresses, which may be
-- used again when an object is gone. A live weak pointer has its `ptr_`, a live referent its
-- `weak_ptrs_`. Where an operation has no result, it touches what is not there.
structure WeakHeap where
  ptr      : Nat → Option (Option Nat) := fun _ => none
  weakPtrs : Nat → Option (List Nat) := fun _ => none

namespace WeakHeap

open Function (update)

-- `erase(remove(..))` with a single iterator: `remove` moves the others to the front and leaves what
-- is behind them, and one element is erased there.
def eraseRemove (list : List Nat) (w : Nat) : Option (List Nat) :=
  let others := list.filter (· != w)
  if others.length < list.length then some (others ++ list.drop (others.length + 1)) else none

def unregister (h : WeakHeap) (w : Nat) : Option Nat → Option WeakHeap
  | none   => some h
  | some r => do
    let list ← h.weakPtrs r
    let list ← eraseRemove list w
    return { h with weakPtrs := update h.weakPtrs r (some list) }

def register (h : WeakHeap) (w : Nat) : Option Nat → Option WeakHeap
  | none   => some h
  | some r => do
    let list ← h.weakPtrs r
    return { h with weakPtrs := update h.weakPtrs r (some (list ++ [w])) }

def setPtr (h : WeakHeap) (w : Nat) (ptr : Option (Option Nat)) : WeakHeap :=
  { h with ptr := update h.ptr w ptr }

def reset (h : WeakHeap) (w : Nat) (ptr : Option Nat) : Option WeakHeap := do
  let old ← h.ptr w
  if ptr = old then return h
  else
    let h ← h.unregister w old
    (h.setPtr w (some ptr)).register w ptr

-- The new pointer is null until it is reset.
def construct (h : WeakHeap) (w : Nat) (ptr : Option Nat) : Option WeakHeap :=
  (h.setPtr w (some none)).reset w ptr

-- What the constructors and the assignments from a pointer that is moved do after `get`.
def moveFrom (h : WeakHeap) (w v : Nat) (ptr : Option Nat) : Option WeakHeap := do
  let h ← h.reset w ptr
  h.reset v none

def clear (h : WeakHeap) (w : Nat) : Option WeakHeap :=
  (h.ptr w).map fun _ => h.setPtr w (some none)

inductive Op
  | construct (w : Nat) (ptr : Option Nat)
  | copyConstruct (w v : Nat)
  | moveConstruct (w v : Nat)
  | copyAssign (w v : Nat)
  | moveAssign (w v : Nat)
  | reset (w : Nat) (ptr : Option Nat)
  | destroy (w : Nat)
  | createReferent (r : Nat)
  | destroyReferent (r : Nat)

def step (h : WeakHeap) : Op → Option WeakHeap
  | .construct w ptr => h.construct w ptr
  | .copyConstruct w v => do
    let ptr ← h.ptr v
    h.construct w ptr
  | .moveConstruct w v => do
    let ptr ← h.ptr v
    (h.setPtr w (some none)).moveFrom w v ptr
  | .copyAssign w v => if v = w then some h else do
    let ptr ← h.ptr v
    h.reset w ptr
  | .moveAssign w v => if v = w then some h else do
    let ptr ← h.ptr v
    h.moveFrom w v ptr
  | .reset w ptr => h.reset w ptr
  | .destroy w => do
    let h ← h.reset w none
    return h.setPtr w none
  | .createReferent r => some { h with weakPtrs := update h.weakPtrs r (some []) }
  | .destroyReferent r => do
    let list ← h.weakPtrs r
    let h ← list.foldlM clear h
    return { h with weakPtrs := update h.weakPtrs r none }

-- A pointer that is not null points to a referent.
def Valid (h : WeakHeap) (ptr : Option Nat) : Prop :=
  ∀ r ∈ ptr, (h.weakPtrs r).isSome

-- New objects are put where there is none, and all other objects of an operation are there.
def Legal (h : WeakHeap) : Op → Prop
  | .construct w ptr                        => h.ptr w = none ∧ h.Valid ptr
  | .copyConstruct w v | .moveConstruct w v => h.ptr w = none ∧ (h.ptr v).isSome
  | .copyAssign w v | .moveAssign w v       => (h.ptr w).isSome ∧ (h.ptr v).isSome
  | .reset w ptr                            => (h.ptr w).isSome ∧ h.Valid ptr
  | .destroy w                              => (h.ptr w).isSome
  | .createReferent r                       => h.weakPtrs r = none
  | .destroyReferent r                      => (h.weakPtrs r).isSome

instance (h : WeakHeap) (ptr : Option Nat) : Decidable (h.Valid ptr) :=
  inferInstanceAs (Decidable (∀ r ∈ ptr, (h.weakPtrs r).isSome))

instance (h : WeakHeap) : DecidablePred h.Legal
  | .construct .. | .reset .. => inferInstanceAs (Decidable (_ ∧ _))
  | .copyConstruct .. | .moveConstruct .. => inferInstanceAs (Decidable (_ ∧ _))
  | .copyAssign .. | .moveAssign .. => inferInstanceAs (Decidable (_ ∧ _))
  | .createReferent r => inferInstanceAs (Decidable (h.weakPtrs r = none))
  | .destroy _ | .destroyReferent _ => inferInstanceAs (Decidable (_ = true))

end WeakHeap
