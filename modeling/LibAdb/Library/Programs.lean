import Mathlib.Order.WellFounded

-- How a run ends: it returns, it halts for good, or the bound on its loops cuts it.
inductive Outcome (η : Type u) (α : Type v) where
  | ret (a : α)
  | halt (h : η)
  | cut
  deriving DecidableEq, Repr

-- Programs over a state. The number bounds how often each loop and each recursion is entered: with
-- a larger one a run gets further.
def Prog (σ : Type u) (η : Type v) (α : Type w) := Nat → σ → Outcome η α × σ

inductive Turn (β : Type u) (α : Type v) where
  | again (b : β)
  | done (a : α)

namespace Prog

variable {σ : Type u} {η : Type v} {α : Type w} {β : Type w}

instance : Monad (Prog.{u, v, w} σ η) where
  pure a := fun _ s => (.ret a, s)
  bind x f := fun n s =>
    match x n s with
    | (.ret a, s) => f a n s
    | (.halt h, s) => (.halt h, s)
    | (.cut, s) => (.cut, s)

def get : Prog σ η σ :=
  fun _ s => (.ret s, s)

def modify (f : σ → σ) : Prog σ η PUnit :=
  fun _ s => (.ret ⟨⟩, f s)

def halt (h : η) : Prog σ η α :=
  fun _ s => (.halt h, s)

def cut : Prog σ η α :=
  fun _ s => (.cut, s)

-- A step that always returns.
def act (f : σ → α × σ) : Prog σ η α :=
  fun _ s => (.ret (f s).1, (f s).2)

def iterate (body : β → Prog σ η (Turn β α)) : Nat → β → Prog σ η α
  | 0, _ => cut
  | k + 1, b => do
    match ← body b with
    | .again b => iterate body k b
    | .done a => return a

def loop (body : β → Prog σ η (Turn β α)) (b : β) : Prog σ η α :=
  fun n => iterate body n b n

-- What a run that returned leaves satisfies `Q`, and what one that halted or was cut leaves `E`.
def Meets (E : Option η → σ → Prop) (Q : α → σ → Prop) : Outcome η α × σ → Prop
  | (.ret a, s) => Q a s
  | (.halt h, s) => E (some h) s
  | (.cut, s) => E none s

def Triple (E : Option η → σ → Prop) (P : σ → Prop) (x : Prog σ η α) (Q : α → σ → Prop) : Prop :=
  ∀ n s, P s → Meets E Q (x n s)

namespace Triple

variable {E : Option η → σ → Prop} {P : σ → Prop}

theorem act {Q : α → σ → Prop} (h : ∀ s, P s → Q (f s).1 (f s).2) : Triple E P (Prog.act f) Q :=
  fun _ s hp => h s hp

theorem pure {Q : α → σ → Prop} (h : ∀ s, P s → Q a s) : Triple E P (Pure.pure a) Q :=
  fun _ s hp => h s hp

theorem halt {Q : α → σ → Prop} (he : ∀ s, P s → E (some h) s) : Triple E P (Prog.halt h) Q :=
  fun _ s hp => he s hp

theorem cut {Q : α → σ → Prop} (he : ∀ s, P s → E none s) : Triple E P Prog.cut Q :=
  fun _ s hp => he s hp

theorem bind {x : Prog σ η α} {f : α → Prog σ η β} {R : α → σ → Prop} {Q : β → σ → Prop}
    (hx : Triple E P x R) (hf : ∀ a, Triple E (R a) (f a) Q) : Triple E P (x >>= f) Q := by
  intro n s hp
  have hx := hx n s hp
  simp only [Bind.bind]
  generalize x n s = r at hx
  obtain ⟨o, s'⟩ := r
  cases o
  case ret a => exact hf a n s' hx
  case halt h => exact hx
  case cut => exact hx

theorem conseq {x : Prog σ η α} {P' : σ → Prop} {Q Q' : α → σ → Prop} (hx : Triple E P x Q)
    (hp : ∀ s, P' s → P s) (hq : ∀ a s, Q a s → Q' a s) : Triple E P' x Q' := by
  intro n s h
  have hx := hx n s (hp s h)
  generalize x n s = r at hx ⊢
  obtain ⟨o, s'⟩ := r
  cases o
  case ret a => exact hq a s' hx
  case halt h => exact hx
  case cut => exact hx

theorem exists_ {ι : Sort*} {x : Prog σ η α} {P : ι → σ → Prop} {Q : α → σ → Prop}
    (hx : ∀ i, Triple E (P i) x Q) : Triple E (fun s => ∃ i, P i s) x Q :=
  fun n s ⟨i, h⟩ => hx i n s h

-- A fact that does not depend on the state.
theorem given {x : Prog σ η α} {Q : α → σ → Prop} (hp : ∀ s, P s → c) (hx : c → Triple E P x Q) :
    Triple E P x Q :=
  fun n s h => hx (hp s h) n s h

-- The invariant holds whenever the loop is entered again.
theorem loop {body : β → Prog σ η (Turn β α)} {Q : α → σ → Prop} (I : β → σ → Prop)
    (hb : ∀ b, Triple E (I b) (body b) fun
      | .again b => I b
      | .done a => Q a)
    (he : ∀ b s, I b s → E none s) (b : β) : Triple E (I b) (Prog.loop body b) Q := by
  have run (k : Nat) (b : β) : Triple E (I b) (iterate body k b) Q := by
    induction k generalizing b
    case zero => exact cut (he b)
    case succ k hi =>
      refine bind (hb b) fun t => ?_
      cases t
      case again b => exact hi b
      case done a => exact pure fun _ h => h
  exact fun n => run n b n

end Triple

end Prog
