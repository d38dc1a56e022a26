import Mathlib.Algebra.Order.Group.Defs
import Mathlib.Tactic.Abel

-- Flow control with a window: a sender spends credit, the receiver's acknowledgements give it back,
-- and credit above the cap is cut off.
namespace Window

variable {α : Type} [AddCommGroup α] {cap total credit sent acked n : α}

-- The credit and what is under way add up to the total.
def Conserved (total credit sent acked : α) : Prop :=
  credit + (sent - acked) = total

theorem Conserved.send (h : Conserved total credit sent acked) :
    Conserved total (credit - n) (sent + n) acked := by
  calc
    credit - n + (sent + n - acked) = credit + (sent - acked) := by abel
    _ = total := h

variable [LinearOrder α]

def refill (cap credit n : α) : α :=
  min (credit + n) cap

theorem refill_le (cap credit n : α) : refill cap credit n ≤ cap :=
  min_le_right _ _

theorem Conserved.grant (cap n : α) : Conserved (min n cap) (refill cap 0 n) 0 0 := by
  simp [Conserved, refill]

-- As long as no more is acknowledged than was sent, the cap does not cut anything off.
theorem Conserved.refill [IsOrderedAddMonoid α] (h : Conserved total credit sent acked)
    (hc : total ≤ cap) (ha : acked + n ≤ sent) :
    Conserved total (refill cap credit n) sent (acked + n) := by
  have eq : credit + n + (sent - (acked + n)) = total := by
    calc
      credit + n + (sent - (acked + n)) = credit + (sent - acked) := by abel
      _ = total := h
  have le : credit + n ≤ cap := by
    calc
      credit + n ≤ credit + n + (sent - (acked + n)) := le_add_of_nonneg_right (sub_nonneg.mpr ha)
      _ = total := eq
      _ ≤ cap := hc
  rwa [Window.refill, min_eq_left le]

end Window
