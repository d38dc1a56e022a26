import Mathlib.Tactic.Common

-- Streams that arrive in fragments. One call reads no more than the next fragment has.
abbrev StreamReader (α π : Type) := StateT (List (List α)) Option π

namespace StreamReader

variable {α π ρ : Type}

-- Reads until there are as many elements as asked for, or fails at the end of the stream.
def exactly : Nat → List (List α) → Option (List α × List (List α))
  | 0, fragments => some ([], fragments)
  | _ + 1, [] => none
  | n + 1, fragment :: fragments =>
    if fragment.length ≤ n + 1 then
      (exactly (n + 1 - fragment.length) fragments).map fun r => (fragment ++ r.1, r.2)
    else some (fragment.take (n + 1), fragment.drop (n + 1) :: fragments)

-- Reads until a read fails.
def many (read : StreamReader α π) : Nat → List (List α) → List π
  | 0, _ => []
  | fuel + 1, fragments =>
    match read fragments with
    | none => []
    | some (p, rest) => p :: many read fuel rest

-- One read for each element and the one that fails are enough if every read takes something.
def all (read : StreamReader α π) (fragments : List (List α)) : List π :=
  many read (fragments.flatten.length + 1) fragments

-- What a program reads depends on the stream and not on how it was fragmented.
def Computes (read : StreamReader α π) (spec : StateT (List α) Option π) : Prop :=
  ∀ fragments, (read fragments).map (fun r => (r.1, r.2.flatten)) = spec fragments.flatten

namespace Computes

variable {x : StreamReader α π} {y : StateT (List α) Option π} {fs fs' : List (List α)}

theorem pure (p : π) : Computes (α := α) (Pure.pure p) (Pure.pure p) :=
  fun _ => rfl

theorem fail : Computes (α := α) (π := π) (fun _ => none) fun _ => none :=
  fun _ => rfl

theorem bind {f : π → StreamReader α ρ} {g : π → StateT (List α) Option ρ} (hx : Computes x y)
    (hf : ∀ p, Computes (f p) (g p)) : Computes (x >>= f) (y >>= g) := by
  intro fs
  show ((x fs).bind fun r => f r.1 r.2).map _ = (y fs.flatten).bind fun r => g r.1 r.2
  rw [← hx fs]
  cases x fs
  case none => rfl
  case some r => exact hf r.1 r.2

theorem exactly (n : Nat) : Computes (StreamReader.exactly (α := α) n) fun s =>
    if n ≤ s.length then some (s.take n, s.drop n) else none := by
  intro fs
  induction fs generalizing n
  case nil =>
    cases n
    case zero => rfl
    case succ => rfl
  case cons fragment fs hi =>
    obtain _ | n := n
    · simp [StreamReader.exactly]
    rw [StreamReader.exactly]
    split
    case isTrue hl =>
      have hi := hi (n + 1 - fragment.length)
      have length : n + 1 - fragment.length ≤ fs.flatten.length ↔
          n + 1 ≤ (fragment :: fs).flatten.length := by
        rw [List.flatten_cons, List.length_append]
        omega
      simp only [length] at hi
      split at hi
      case isTrue hn =>
        obtain ⟨⟨got, rest⟩, hr, hp⟩ := Option.map_eq_some_iff.mp hi
        obtain ⟨rfl, hrest⟩ := Prod.mk.injEq .. ▸ hp
        simp only [hr, Option.map_some, if_pos hn]
        rw [hrest, List.flatten_cons, List.take_append, List.drop_append,
          List.take_of_length_le hl, List.drop_eq_nil_of_le hl, List.nil_append]
      case isFalse hn =>
        simp only [Option.map_eq_none_iff.mp hi, if_neg hn, Option.map_none]
    case isFalse hl =>
      have hl : n + 1 ≤ fragment.length := Nat.le_of_not_le hl
      have hn : n + 1 ≤ (fragment ++ fs.flatten).length := by
        rw [List.length_append]
        omega
      simp only [Option.map_some, List.flatten_cons, if_pos hn]
      rw [List.take_append_of_le_length hl, List.drop_append_of_le_length hl]

theorem length_exactly (h : StreamReader.exactly n fs = some (s, fs')) : s.length = n := by
  have computed := exactly n fs
  rw [h, Option.map_some] at computed
  obtain ⟨hn, ht⟩ := Option.ite_none_right_eq_some.mp computed.symm
  obtain ⟨rfl, -⟩ := Prod.mk.inj (Option.some.inj ht)
  exact List.length_take_of_le hn

theorem of_spec (h : Computes x y) (hy : y fs.flatten = some (p, s)) :
    ∃ rest, x fs = some (p, rest) ∧ rest.flatten = s := by
  obtain ⟨r, hr, hp⟩ := Option.map_eq_some_iff.mp ((h fs).trans hy)
  obtain ⟨rfl, rest⟩ := Prod.ext_iff.mp hp
  exact ⟨r.2, hr, rest⟩

theorem many_congr (h : Computes x y) (hs : fs.flatten = fs'.flatten) (fuel : Nat) :
    many x fuel fs = many x fuel fs' := by
  induction fuel generalizing fs fs'
  case zero => rfl
  case succ fuel hi =>
    have same : (x fs).map (fun r => (r.1, r.2.flatten)) =
        (x fs').map fun r => (r.1, r.2.flatten) := by rw [h fs, h fs', hs]
    rw [many, many]
    cases hx : x fs
    case none =>
      rw [hx, Option.map_none] at same
      rw [Option.map_eq_none_iff.mp same.symm]
    case some r =>
      rw [hx, Option.map_some] at same
      obtain ⟨r', hx', hp⟩ := Option.map_eq_some_iff.mp same.symm
      obtain ⟨hp, hr⟩ := Prod.ext_iff.mp hp
      rw [hx']
      exact congrArg₂ List.cons hp.symm (hi hr.symm)

theorem all_congr (h : Computes x y) (hs : fs.flatten = fs'.flatten) : all x fs = all x fs' := by
  rw [all, all, hs, h.many_congr hs]

section Progress

variable (h : Computes x y) (hy : ∀ s p s', y s = some (p, s') → s'.length < s.length)
include h hy

theorem many_fuel (hf : fs.flatten.length < fuel) (hf' : fs.flatten.length < fuel') :
    many x fuel fs = many x fuel' fs := by
  induction fuel generalizing fs fuel'
  case zero => cases hf
  case succ fuel hi =>
    obtain _ | fuel' := fuel'
    · cases hf'
    rw [many, many]
    cases hx : x fs
    case none => rfl
    case some r =>
      have taken := h fs
      rw [hx, Option.map_some] at taken
      have shorter := hy _ _ _ taken.symm
      exact congrArg (r.1 :: ·) (hi (by omega) (by omega))

-- What is read first is read first, and the rest as if it were the whole stream.
theorem all_cons (hs : y fs.flatten = some (p, s)) : all x fs = p :: all x [s] := by
  obtain ⟨rest, hx, rfl⟩ := h.of_spec hs
  have shorter := hy _ _ _ hs
  rw [all, many, hx]
  refine congrArg (p :: ·) ?_
  have single : rest.flatten = [rest.flatten].flatten := (List.flatten_singleton ..).symm
  rw [h.many_fuel hy shorter (Nat.lt_succ_self _), h.many_congr single, all, ← single]

-- Values whose encoding is read back come before what else there is.
theorem all_append {encode : π → List α} (values : List π)
    (back : ∀ p ∈ values, ∀ more, y (encode p ++ more) = some (p, more))
    (hs : fs.flatten = values.flatMap encode ++ more) :
    all x fs = values ++ all x [more] := by
  induction values generalizing fs
  case nil => exact h.all_congr (by rw [hs]; simp)
  case cons p values hi =>
    rw [List.flatMap_cons, List.append_assoc] at hs
    have first := back p (.head _) (values.flatMap encode ++ more)
    rw [h.all_cons hy (hs ▸ first), List.cons_append]
    refine congrArg (p :: ·) (hi (fun q hq => back q (.tail _ hq)) ?_)
    simp

end Progress

end Computes

end StreamReader

-- The answers of the calls that write: how much of what they are given they take, if they do not fail.
inductive Written where
  | elements (n : Nat)
  | again
  | failed
  deriving DecidableEq, Repr

namespace StreamWriter

variable {α : Type}

-- Writes until everything was taken. `retry` tells whether it goes on after a call that took nothing.
-- The result is whether that succeeded, what was taken and the answers that are left.
def exactly (retry : Bool) (elements : List α) :
    List Written → Option (Bool × List α × List Written)
  | [] => if elements = [] then some (true, [], []) else none
  | answer :: answers =>
    if elements = [] then some (true, [], answer :: answers)
    else
      match answer with
      | .elements n =>
        if n = 0 ∧ !retry then some (false, [], answers)
        else
          (exactly retry (elements.drop n) answers).map fun r =>
            (r.1, elements.take n ++ r.2.1, r.2.2)
      | .again => if retry then exactly retry elements answers else some (false, [], answers)
      | .failed => some (false, [], answers)

theorem exactly_true {elements out : List α} {answers rest : List Written}
    (h : exactly retry elements answers = some (true, out, rest)) : out = elements := by
  induction answers generalizing elements out
  case nil =>
    simp only [exactly, Option.ite_none_right_eq_some] at h
    cases h.right
    exact h.left.symm
  case cons answer answers hi =>
    rw [exactly.eq_def] at h
    dsimp only at h
    split at h
    case isTrue he =>
      cases h
      exact he.symm
    case isFalse =>
      cases answer
      case elements n =>
        dsimp only at h
        split at h
        case isTrue => cases h
        case isFalse =>
          obtain ⟨⟨ok, got, left⟩, hr, he⟩ := Option.map_eq_some_iff.mp h
          cases he
          rw [hi hr, List.take_append_drop]
      case again =>
        simp only at h
        split at h
        case isTrue => exact hi h
        case isFalse => cases h
      case failed => cases h

end StreamWriter
