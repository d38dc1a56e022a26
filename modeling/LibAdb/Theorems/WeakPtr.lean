import LibAdb.Execution.WeakPtr
import LibAdb.Library.Backlinks
import LibAdb.Library.Reach

namespace WeakHeap

open Function (update update_self update_of_ne update_apply)

variable {h h' : WeakHeap} {w v r : Nat} {ptr old : Option Nat} {list : List Nat} {op : Op}

-- Where a weak pointer points to, dead ones nowhere.
def points (h : WeakHeap) (w : Nat) : Option Nat :=
  (h.ptr w).join

def Consistent (h : WeakHeap) : Prop :=
  Backlinks h.points h.weakPtrs

theorem points_of_ptr (hp : h'.ptr = update h.ptr w p) : h'.points = update h.points w p.join := by
  funext v
  by_cases hv : v = w
  case pos => simp [points, hp, hv]
  case neg => simp [points, hp, hv]

theorem Consistent.setPtr (c : Consistent h) (hp : h.points w = none) (hn : p.join = none) :
    Consistent (h.setPtr w p) := by
  have same : (h.setPtr w p).points = h.points := by
    rw [points_of_ptr (h := h) (p := p) rfl, hn, ← hp, Function.update_eq_self]
  rw [Consistent, same]
  exact c

theorem eraseRemove_eq (nodup : list.Nodup) (hw : w ∈ list) :
    eraseRemove list w = some (list.erase w) := by
  have others : list.filter (· != w) = list.erase w := (nodup.erase_eq_filter w).symm
  have length := List.length_erase_of_mem hw
  have positive := List.length_pos_of_mem hw
  have rest : list.drop ((list.erase w).length + 1) = [] := List.drop_eq_nil_of_le (by omega)
  rw [eraseRemove, others, if_pos (by omega), rest, List.append_nil]

-- What a heap is after one pointer was made to point elsewhere.
structure Resets (h : WeakHeap) (w : Nat) (ptr : Option Nat) (h' : WeakHeap) : Prop where
  ptr        : h'.ptr = update h.ptr w (some ptr)
  live       : ∀ r, (h'.weakPtrs r).isSome = (h.weakPtrs r).isSome
  consistent : Consistent h'

theorem Consistent.unregister (c : Consistent h) (hp : h.points w = old) :
    ∃ h', h.unregister w old = some h' ∧ h'.ptr = h.ptr ∧
      (∀ r, (h'.weakPtrs r).isSome = (h.weakPtrs r).isSome) ∧
      Backlinks (update h.points w none) h'.weakPtrs := by
  cases old
  case none =>
    refine ⟨h, rfl, rfl, fun _ => rfl, ?_⟩
    rw [← hp, Function.update_eq_self]
    exact c
  case some r =>
    obtain ⟨list, hl⟩ := Option.isSome_iff_exists.mp (c.live hp)
    have erased := eraseRemove_eq (c.nodup hl) ((c.mem hl).mpr hp)
    refine ⟨{ h with weakPtrs := update h.weakPtrs r (some (list.erase w)) }, ?_, rfl, ?_,
      c.unlink hp hl⟩
    · simp [WeakHeap.unregister, hl, erased]
    · intro s
      by_cases hs : s = r <;> simp [hs, hl]

theorem register_resets (b : Backlinks (update h.points w none) h.weakPtrs) (valid : h.Valid ptr) :
    ∃ h', (h.setPtr w (some ptr)).register w ptr = some h' ∧ Resets h w ptr h' := by
  cases ptr
  case none =>
    refine ⟨h.setPtr w (some none), rfl, rfl, fun _ => rfl, ?_⟩
    rw [Consistent, points_of_ptr (h := h) (p := some none) rfl]
    exact b
  case some r =>
    obtain ⟨list, hl⟩ := Option.isSome_iff_exists.mp (valid r rfl)
    refine ⟨{ h.setPtr w (some (some r)) with weakPtrs := update h.weakPtrs r (some (list ++ [w])) },
      ?_, rfl, ?_, ?_⟩
    · simp [register, setPtr, hl]
    · intro s
      by_cases hs : s = r <;> simp [hs, hl]
    · have linked := b.link (update_self ..) hl
      rw [Function.update_idem] at linked
      rw [Consistent, points_of_ptr (h := h) (p := some (some r)) rfl]
      exact linked

namespace Consistent

theorem reset (c : Consistent h) (hw : (h.ptr w).isSome) (valid : h.Valid ptr) :
    ∃ h', h.reset w ptr = some h' ∧ Resets h w ptr h' := by
  obtain ⟨old, hw⟩ := Option.isSome_iff_exists.mp hw
  by_cases same : ptr = old
  case pos =>
    refine ⟨h, by simp [WeakHeap.reset, hw, same], ?_, fun _ => rfl, c⟩
    rw [same, ← hw, Function.update_eq_self]
  case neg =>
    have hp : h.points w = old := by simp [points, hw]
    obtain ⟨h₁, unregistered, ptr₁, live₁, b⟩ := c.unregister hp
    have points₁ : h₁.points = h.points := by
      funext v
      rw [points, ptr₁, points]
    have valid₁ : h₁.Valid ptr := fun r hr => (live₁ r).trans (valid r hr)
    obtain ⟨h₂, registered, resets⟩ := register_resets (points₁ ▸ b) valid₁
    refine ⟨h₂, ?_, ptr₁ ▸ resets.ptr, fun r => (resets.live r).trans (live₁ r), resets.consistent⟩
    simp [WeakHeap.reset, hw, same, unregistered, registered]

theorem resetNull (c : Consistent h) (hw : (h.ptr w).isSome) :
    ∃ h', h.reset w none = some h' ∧ Resets h w none h' :=
  c.reset hw (by rintro r ⟨⟩)

theorem valid (c : Consistent h) (hv : h.ptr v = some ptr) : h.Valid ptr := by
  rintro r ⟨⟩
  have target : h.points v = some r := by simp [points, hv]
  exact c.live target

theorem moveFrom (c : Consistent h) (hw : (h.ptr w).isSome) (hv : h.ptr v = some ptr) :
    ∃ h', h.moveFrom w v ptr = some h' ∧ Consistent h' := by
  obtain ⟨h₁, first, resets⟩ := c.reset hw (c.valid hv)
  have live : (h₁.ptr v).isSome := by
    rw [resets.ptr, update_apply]
    split
    case isTrue  => rfl
    case isFalse => simp [hv]
  obtain ⟨h₂, second, done⟩ := resets.consistent.resetNull live
  exact ⟨h₂, by simp [WeakHeap.moveFrom, first, second], done.consistent⟩

theorem constructed (c : Consistent h) (hw : h.ptr w = none) :
    Consistent (h.setPtr w (some none)) ∧ ((h.setPtr w (some none)).ptr w).isSome :=
  ⟨c.setPtr (by simp [points, hw]) rfl, by simp [WeakHeap.setPtr]⟩

theorem construct (c : Consistent h) (hw : h.ptr w = none) (valid : h.Valid ptr) :
    ∃ h', h.construct w ptr = some h' ∧ Consistent h' := by
  obtain ⟨c, live⟩ := c.constructed hw
  have valid : (h.setPtr w (some none)).Valid ptr := valid
  obtain ⟨h', reset, resets⟩ := c.reset live valid
  exact ⟨h', reset, resets.consistent⟩

theorem destroy (c : Consistent h) (hw : (h.ptr w).isSome) :
    ∃ h', h.step (.destroy w) = some h' ∧ Consistent h' := by
  obtain ⟨h', reset, resets⟩ := c.resetNull hw
  have null : h'.points w = none := by simp [points, resets.ptr]
  exact ⟨h'.setPtr w none, by simp [step, reset], resets.consistent.setPtr null rfl⟩

end Consistent

theorem foldlM_clear (hl : ∀ w ∈ list, (h.ptr w).isSome) :
    ∃ h', list.foldlM clear h = some h' ∧ h'.weakPtrs = h.weakPtrs ∧
      ∀ v, h'.ptr v = if v ∈ list then some none else h.ptr v := by
  induction list generalizing h
  case nil => exact ⟨h, rfl, rfl, by simp⟩
  case cons w list hi =>
    rw [List.forall_mem_cons] at hl
    obtain ⟨old, hw⟩ := Option.isSome_iff_exists.mp hl.left
    have rest : ∀ v ∈ list, ((h.setPtr w (some none)).ptr v).isSome := by
      intro v hv
      by_cases hvw : v = w <;> simp [setPtr, hvw, hl.right v hv]
    obtain ⟨h', run, lists, ptrs⟩ := hi rest
    refine ⟨h', by simp [clear, hw, run], lists, fun v => ?_⟩
    rw [ptrs v]
    by_cases hv : v ∈ list
    case pos => simp [hv]
    case neg => by_cases hvw : v = w <;> simp [setPtr, hv, hvw]

namespace Consistent

theorem destroyReferent (c : Consistent h) (hr : (h.weakPtrs r).isSome) :
    ∃ h', h.step (.destroyReferent r) = some h' ∧ Consistent h' := by
  obtain ⟨list, hl⟩ := Option.isSome_iff_exists.mp hr
  have live (w) (hw : w ∈ list) : (h.ptr w).isSome := by
    have target := (c.mem hl).mp hw
    rw [points] at target
    cases hp : h.ptr w
    case none => simp [hp] at target
    case some => rfl
  obtain ⟨h', cleared, lists, ptrs⟩ := foldlM_clear live
  refine ⟨{ h' with weakPtrs := update h'.weakPtrs r none }, by simp [step, hl, cleared], ?_⟩
  have targets : WeakHeap.points { h' with weakPtrs := update h'.weakPtrs r none } =
      fun w => if h.points w = some r then none else h.points w := by
    funext w
    rw [points, ptrs w]
    by_cases hw : w ∈ list
    case pos => rw [if_pos hw, if_pos ((c.mem hl).mp hw), Option.join_some]
    case neg => rw [if_neg hw, if_neg (mt (c.mem hl).mpr hw), points]
  rw [Consistent, targets, lists]
  exact c.drop r

theorem step (c : Consistent h) (legal : h.Legal op) : ∃ h', h.step op = some h' ∧ Consistent h' := by
  cases op
  case construct w ptr => exact c.construct legal.left legal.right
  case copyConstruct w v =>
    obtain ⟨ptr, hv⟩ := Option.isSome_iff_exists.mp legal.right
    simp only [WeakHeap.step, hv]
    exact c.construct legal.left (c.valid hv)
  case moveConstruct w v =>
    obtain ⟨ptr, hv⟩ := Option.isSome_iff_exists.mp legal.right
    obtain ⟨c, live⟩ := c.constructed legal.left
    have other : v ≠ w := by
      rintro rfl
      cases hv.symm.trans legal.left
    simp only [WeakHeap.step, hv]
    exact c.moveFrom live ((update_of_ne other ..).trans hv)
  case copyAssign w v =>
    rw [WeakHeap.step]
    by_cases hvw : v = w
    case pos => exact ⟨h, if_pos hvw, c⟩
    case neg =>
      obtain ⟨ptr, hv⟩ := Option.isSome_iff_exists.mp legal.right
      obtain ⟨h', reset, resets⟩ := c.reset legal.left (c.valid hv)
      exact ⟨h', by simp [hvw, hv, reset], resets.consistent⟩
  case moveAssign w v =>
    rw [WeakHeap.step]
    by_cases hvw : v = w
    case pos => exact ⟨h, if_pos hvw, c⟩
    case neg =>
      obtain ⟨ptr, hv⟩ := Option.isSome_iff_exists.mp legal.right
      rw [if_neg hvw, hv]
      exact c.moveFrom legal.left hv
  case reset w ptr =>
    obtain ⟨h', reset, resets⟩ := c.reset legal.left legal.right
    exact ⟨h', reset, resets.consistent⟩
  case destroy w => exact c.destroy legal
  case createReferent r => exact ⟨_, rfl, c.add legal⟩
  case destroyReferent r => exact c.destroyReferent legal

end Consistent

theorem Consistent.count (c : Consistent h) (hw : h.ptr w = some (some r)) :
    ∃ list, h.weakPtrs r = some list ∧ list.count w = 1 := by
  have target : h.points w = some r := by simp [points, hw]
  obtain ⟨list, hl⟩ := Option.isSome_iff_exists.mp (c.live target)
  exact ⟨list, hl, List.count_eq_one_of_mem (c.nodup hl) ((c.mem hl).mpr target)⟩

-- Pointers and lists agree after any sequence of operations, and none of them touches what is gone.
theorem weak_ptrs_registered (run : Reach (fun h op h' => h.step op = some h') Legal {} h) :
    (∀ w ptr, h.ptr w = some ptr → ptr = none ∨
      ∃ r list, ptr = some r ∧ h.weakPtrs r = some list ∧ list.count w = 1) ∧
    (∀ r list, h.weakPtrs r = some list → ∀ w ∈ list, h.ptr w = some (some r)) ∧
    ∀ op, h.Legal op → (h.step op).isSome := by
  have c : Consistent h := by
    refine run.invariant (fun h op h' legal hs c => ?_) .empty
    obtain ⟨h₁, hs₁, c₁⟩ := Consistent.step c legal
    cases hs₁.symm.trans hs
    exact c₁
  refine ⟨fun w ptr hw => ?_, fun r list hl w hw => ?_, fun op legal => ?_⟩
  · cases ptr
    case none => exact .inl rfl
    case some r =>
      obtain ⟨list, hl, once⟩ := c.count hw
      exact .inr ⟨r, list, rfl, hl, once⟩
  · have target := (c.mem hl).mp hw
    exact Option.join_eq_some_iff.mp target
  · obtain ⟨h', hs, _⟩ := c.step legal
    exact Option.isSome_iff_exists.mpr ⟨h', hs⟩

-- Three pointers to two referents, of which one goes.
theorem weak_ptrs_registered_three :
    ∃ h, Reach (fun h op h' => h.step op = some h') Legal {} h ∧ h.weakPtrs 5 = some [3] ∧
      h.ptr 2 = some none ∧ ∀ w ∈ [3], h.ptr w = some (some 5) := by
  have ⟨h, run, list, null⟩ : ∃ h, Reach (fun h op h' => h.step op = some h') Legal {} h ∧
      h.weakPtrs 5 = some [3] ∧ h.ptr 2 = some none :=
    Reach.exists_of_guarded (q := fun h op => decide (h.Legal op)) (fun _ _ => of_decide_eq_true)
      [.createReferent 0, .construct 1 (some 0), .copyConstruct 2 1, .moveConstruct 3 1,
        .copyAssign 3 3, .moveAssign 1 2, .copyAssign 2 1, .createReferent 5, .reset 3 (some 5),
        .destroy 1, .destroyReferent 0]
      (by decide)
  exact ⟨h, run, list, null, (weak_ptrs_registered run).right.left 5 [3] list⟩

end WeakHeap
