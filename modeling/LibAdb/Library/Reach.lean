import Mathlib.Logic.Relation
import Mathlib.Tactic.Common

-- Labelled transition systems. A system is given by the relation `R s a s'`, and `Reach R P` is
-- what it reaches by steps whose label meets the condition `P` in the state they are taken in.
section

variable {σ α : Type}

def Taking (R : σ → α → σ → Prop) (P : σ → α → Prop) (s s' : σ) : Prop :=
  ∃ a, P s a ∧ R s a s'

def Reach (R : σ → α → σ → Prop) (P : σ → α → Prop) : σ → σ → Prop :=
  Relation.ReflTransGen (Taking R P)

end

namespace Reach

variable {σ α : Type} {R : σ → α → σ → Prop} {P Q : σ → α → Prop} {s s₁ s₂ s₃ : σ} {a : α}

theorem refl : Reach R P s s :=
  Relation.ReflTransGen.refl

theorem single (p : P s₁ a) (h : R s₁ a s₂) : Reach R P s₁ s₂ :=
  Relation.ReflTransGen.single ⟨a, p, h⟩

theorem trans (h₁ : Reach R P s₁ s₂) (h₂ : Reach R P s₂ s₃) : Reach R P s₁ s₃ :=
  Relation.ReflTransGen.trans h₁ h₂

theorem tail (h : Reach R P s₁ s₂) (p : P s₂ a) (hs : R s₂ a s₃) : Reach R P s₁ s₃ :=
  h.trans (single p hs)

theorem head (p : P s₁ a) (hs : R s₁ a s₂) (h : Reach R P s₂ s₃) : Reach R P s₁ s₃ :=
  (single p hs).trans h

theorem mono (hPQ : ∀ s a, P s a → Q s a) (h : Reach R P s₁ s₂) : Reach R Q s₁ s₂ :=
  Relation.ReflTransGen.mono (fun _ _ ⟨a, p, hs⟩ => ⟨a, hPQ _ _ p, hs⟩) _ _ h

-- What every admitted step preserves holds in every state reached.
theorem invariant {I : σ → Prop} (step : ∀ s a s', P s a → R s a s' → I s → I s')
    (h : Reach R P s₁ s₂) (i : I s₁) : I s₂ := by
  induction h
  case refl => exact i
  case tail ht ih =>
    have ⟨a, p, hs⟩ := ht
    exact step _ a _ p hs ih

-- An invariant that holds along the run may be used by the steps of a second one.
theorem invariant_under {I J : σ → Prop} (hI : ∀ s a s', P s a → R s a s' → I s → I s')
    (step : ∀ s a s', I s → P s a → R s a s' → J s → J s')
    (h : Reach R P s₁ s₂) (i : I s₁) (j : J s₁) : J s₂ := by
  have both := h.invariant (I := fun s => I s ∧ J s)
    (fun s a s' p hs ⟨i, j⟩ => ⟨hI s a s' p hs i, step s a s' i p hs j⟩) ⟨i, j⟩
  exact both.right

end Reach

-- Running a step function on a list of labels, to exhibit concrete runs.
section

variable {σ α : Type}

def exec (step : σ → α → Option σ) : σ → List α → Option σ
  | s, []      => some s
  | s, a :: as => (step s a).bind (exec step · as)

-- The step function with a test that every step has to pass.
def guarded (q : σ → α → Bool) (step : σ → α → Option σ) (s : σ) (a : α) : Option σ :=
  if q s a then step s a else none

variable {step : σ → α → Option σ} {P : σ → α → Prop} {q : σ → α → Bool} {s s' : σ} {as : List α}

theorem Reach.of_exec (h : exec step s as = some s') :
    Reach (fun s a s' => step s a = some s') (fun _ _ => True) s s' := by
  induction as generalizing s
  case nil =>
    cases h
    exact .refl
  case cons a as ih =>
    simp only [exec, Option.bind_eq_some_iff] at h
    have ⟨t, hs, ht⟩ := h
    exact .head trivial hs (ih ht)

theorem Reach.of_guarded (hq : ∀ s a, q s a → P s a) (h : exec (guarded q step) s as = some s') :
    Reach (fun s a s' => step s a = some s') P s s' := by
  induction as generalizing s
  case nil =>
    cases h
    exact .refl
  case cons a as ih =>
    simp only [exec, Option.bind_eq_some_iff, guarded, Option.ite_none_right_eq_some] at h
    have ⟨t, ⟨hqa, hs⟩, ht⟩ := h
    exact .head (hq s a hqa) hs (ih ht)

-- A run to a state with the property, found by evaluation.
theorem Reach.exists_of_exec {Q : σ → Prop} [DecidablePred Q] (as : List α)
    (h : (exec step s as).any fun s' => decide (Q s')) :
    ∃ s', Reach (fun s a s' => step s a = some s') (fun _ _ => True) s s' ∧ Q s' := by
  have ⟨s', hs, hq⟩ := (Option.any_eq_true ..).mp h
  exact ⟨s', .of_exec hs, of_decide_eq_true hq⟩

theorem Reach.exists_of_guarded {Q : σ → Prop} [DecidablePred Q] (hq : ∀ s a, q s a → P s a)
    (as : List α) (h : (exec (guarded q step) s as).any fun s' => decide (Q s')) :
    ∃ s', Reach (fun s a s' => step s a = some s') P s s' ∧ Q s' := by
  have ⟨s', hs, h⟩ := (Option.any_eq_true ..).mp h
  exact ⟨s', .of_guarded hq hs, of_decide_eq_true h⟩

end
