import Mathlib.Data.List.Forall2

-- Programs over a state that leave a trace: a run from one state to another adds events to it.
structure TraceModel (σ : Type u) (ε : Type v) where
  Adds  : σ → List ε → σ → Prop
  refl  : ∀ s, Adds s [] s
  trans : ∀ {s₁ s₂ s₃ l₁ l₂}, Adds s₁ l₁ s₂ → Adds s₂ l₂ s₃ → Adds s₁ (l₁ ++ l₂) s₃

namespace TraceModel

-- Whatever the state, the program adds events that fit what it returns.
def Tells (T : TraceModel σ ε) (P : α → List ε → Prop) (x : StateM σ α) : Prop :=
  ∀ s, ∃ l, T.Adds s l (x s).2 ∧ P (x s).1 l

namespace Tells

variable {T : TraceModel σ ε}

theorem pure {P : α → List ε → Prop} (h : P a []) : T.Tells P (Pure.pure a) :=
  fun s => ⟨[], T.refl s, h⟩

theorem bind {x : StateM σ α} {f : α → StateM σ β} {P : α → List ε → Prop} {Q : β → List ε → Prop}
    (hx : T.Tells P x)
    (hf : ∀ a l, P a l → T.Tells (fun b m => Q b (l ++ m)) (f a)) : T.Tells Q (x >>= f) := by
  intro s
  obtain ⟨l, hl, hp⟩ := hx s
  obtain ⟨m, hm, hq⟩ := hf (x s).1 l hp (x s).2
  exact ⟨l ++ m, T.trans hl hm, hq⟩

theorem mono {x : StateM σ α} {P Q : α → List ε → Prop} (hx : T.Tells P x)
    (h : ∀ a l, P a l → Q a l) : T.Tells Q x := by
  intro s
  obtain ⟨l, hl, hp⟩ := hx s
  exact ⟨l, hl, h _ _ hp⟩

-- A program without events only hands on what it returns.
theorem silent {x : StateM σ α} {f : α → StateM σ β} {Q : β → List ε → Prop}
    (hx : T.Tells (fun _ l => l = []) x) (hf : ∀ a, T.Tells Q (f a)) : T.Tells Q (x >>= f) := by
  refine hx.bind fun a l hl => ?_
  subst hl
  exact hf a

end Tells

end TraceModel

theorem List.Forall₂.exists_of_mem {R : α → β → Prop} (h : List.Forall₂ R l₁ l₂) (ha : a ∈ l₁) :
    ∃ b ∈ l₂, R a b := by
  induction h
  case nil => cases ha
  case cons hr _ hi =>
    cases ha
    case head => exact ⟨_, .head _, hr⟩
    case tail ha =>
      obtain ⟨b, hb, hr⟩ := hi ha
      exact ⟨b, .tail _ hb, hr⟩

theorem Except.eq_ok_of_toOption {x : Except ε α} (h : x.toOption = some a) : x = .ok a := by
  cases x
  case error => cases h
  case ok => exact congrArg Except.ok (Option.some.inj h)
