import Mathlib.Data.List.Nodup
import Mathlib.Data.List.Range

-- Lists of threads, one of which takes a step.
namespace List

variable {α : Type} {l : List α} {p : α → Bool} {a b x : α} {k m n : Nat}

theorem countP_set_add (h : l[k]? = some a) :
    (l.set k b).countP p + (p a).toNat = l.countP p + (p b).toNat := by
  obtain ⟨hk, ha⟩ := List.getElem?_eq_some_iff.mp h
  have positive (hp : p a) : 0 < l.countP p :=
    List.countP_pos_iff.mpr ⟨a, List.mem_of_getElem? h, hp⟩
  rw [List.countP_set hk, ha]
  cases hp : p a <;> cases p b <;> simp
  all_goals
    have := positive hp
    omega

theorem forall_mem_set {Q : α → Prop} (h : ∀ x ∈ l, Q x) (hb : Q b) : ∀ x ∈ l.set k b, Q x :=
  fun x hx => (List.mem_or_eq_of_mem_set hx).elim (h x) (· ▸ hb)

-- The other threads are where they were.
theorem mem_set_cases (h : x ∈ l.set k b) : x = b ∨ ∃ n, n ≠ k ∧ l[n]? = some x := by
  have ⟨n, hn⟩ := List.mem_iff_getElem?.mp h
  rw [List.getElem?_set] at hn
  split at hn
  case isTrue =>
    split at hn <;> cases hn
    exact .inl rfl
  case isFalse hk => exact .inr ⟨n, Ne.symm hk, hn⟩

theorem mem_set_of_getElem? (h : l[k]? = some a) : b ∈ l.set k b :=
  List.mem_set (List.getElem?_eq_some_iff.mp h).choose _

theorem exists_mem_set {Q : α → Prop} (hk : l[k]? = some a) (ha : ¬Q a) (h : ∃ x ∈ l, Q x) :
    ∃ x ∈ l.set k b, Q x := by
  have ⟨x, hx, q⟩ := h
  have ⟨n, hn⟩ := List.mem_iff_getElem?.mp hx
  refine ⟨x, List.mem_iff_getElem?.mpr ⟨n, ?_⟩, q⟩
  rw [List.getElem?_set_ne]
  · exact hn
  · rintro rfl
    cases hk.symm.trans hn
    exact ha q

-- What at most one thread does is done by one thread.
theorem eq_of_countP_le_one (h : l.countP p ≤ 1) (hm : l[m]? = some a) (ha : p a)
    (hn : l[n]? = some b) (hb : p b) : m = n := by
  induction l generalizing m n
  case nil => cases hm
  case cons x l ih =>
    have rest {j : Nat} {y : α} (hx : p x) (hj : l[j]? = some y) (hy : p y) : False := by
      have : 0 < l.countP p := List.countP_pos_iff.mpr ⟨y, List.mem_of_getElem? hj, hy⟩
      rw [List.countP_cons_of_pos hx] at h
      omega
    cases m <;> cases n
    case zero.zero => rfl
    case zero.succ =>
      cases hm
      exact (rest ha hn hb).elim
    case succ.zero =>
      cases hn
      exact (rest hb hm ha).elim
    case succ.succ =>
      refine congrArg _ (ih ?_ hm hn)
      rw [List.countP_cons] at h
      omega

-- The work that is left is that of the one thread that has any.
theorem flatMap_set_of_others {f : α → List β} (hk : k < l.length)
    (h : ∀ n x, n ≠ k → l[n]? = some x → f x = []) : (l.set k b).flatMap f = f b := by
  induction l generalizing k
  case nil => cases hk
  case cons y l ih =>
    cases k
    case zero =>
      have rest : l.flatMap f = [] := by
        refine List.flatMap_eq_nil_iff.mpr fun x hx => ?_
        have ⟨n, hn⟩ := List.mem_iff_getElem?.mp hx
        exact h (n + 1) x (Nat.succ_ne_zero n) hn
      rw [List.set_cons_zero, List.flatMap_cons, rest, List.append_nil]
    case succ k =>
      have first : f y = [] := h 0 y (Nat.succ_ne_zero k).symm rfl
      rw [List.set_cons_succ, List.flatMap_cons, first, List.nil_append]
      refine ih (Nat.lt_of_succ_lt_succ hk) fun n x hn hx => ?_
      exact h (n + 1) x (mt Nat.succ.inj hn) hx

theorem flatMap_set_of_eq {f : α → List β} (hk : l[k]? = some a) (hf : f b = f a) :
    (l.set k b).flatMap f = l.flatMap f := by
  have old : (l.map f)[k]? = some (f a) := (List.getElem?_map ..).trans (congrArg (·.map f) hk)
  have ⟨hl, old⟩ := List.getElem?_eq_some_iff.mp old
  rw [List.flatMap_def, List.flatMap_def, List.map_set, hf, ← old, List.set_getElem_self]

theorem map_modify_of_comp {f : α → α} {g : α → β} (h : ∀ x, g (f x) = g x) :
    (l.modify k f).map g = l.map g := by
  refine List.ext_getElem? fun n => ?_
  simp only [List.getElem?_map, List.getElem?_modify]
  cases l[n]? <;> simp
  split <;> simp [h]

-- The numbers below `n` are those in the list and those that are not.
theorem countP_not_contains {l : List Nat} (h : l.Nodup) (hl : ∀ i ∈ l, i < n) :
    (List.range n).countP (!l.contains ·) + l.length = n := by
  have inside : (List.range n).filter l.contains ~ l := by
    refine (List.perm_ext_iff_of_nodup (List.nodup_range.filter _) h).mpr fun i => ?_
    simp only [List.mem_filter, List.mem_range, List.contains_iff_mem]
    exact ⟨And.right, fun hi => ⟨hl i hi, hi⟩⟩
  have split := List.length_eq_countP_add_countP l.contains (l := List.range n)
  rw [List.length_range, List.countP_eq_length_filter (p := l.contains), inside.length_eq] at split
  have negated : (fun i => decide ¬l.contains i = true) = (!l.contains ·) := by
    funext i
    cases l.contains i <;> rfl
  rw [negated] at split
  omega

end List
