import LibAdb.Machine.Devices

-- What happens to the transports of the devices.

namespace Client

variable {c c' : Client} {call call' : Call}

def transportOf (c : Client) (i : Nat) : Option Tid :=
  (c.device i).bind fun e => c.findTransport e.serial

def serialOf (c : Client) (t : Tid) : Option Bytes :=
  (c.transports[t]?).map (·.serial)

theorem serialOf_modify {f : Registration → Registration} (h : ∀ r, (f r).serial = r.serial) :
    serialOf { c with transports := c.transports.modify u f } t = c.serialOf t := by
  simp only [serialOf, List.getElem?_modify]
  cases c.transports[t]? <;> simp
  split <;> simp [h]

theorem serialOf_kick : (c.kickTransport u).serialOf t = c.serialOf t :=
  serialOf_modify fun r => by split <;> rfl

theorem transports_kick (h : u ≠ t) : (c.kickTransport u).transports[t]? = c.transports[t]? :=
  List.getElem?_modify_ne _ _ h

theorem serialOf_append (h : c.serialOf t = some a) :
    serialOf { c with transports := c.transports ++ [r] } t = some a := by
  have ⟨x, hx, ha⟩ := Option.map_eq_some_iff.mp h
  have hl := (List.getElem?_eq_some_iff.mp hx).choose
  simp [serialOf, List.getElem?_append_left hl, hx, ha]

theorem serialOf_find (h : c.findTransport a = some t) : c.serialOf t = some a := by
  have ⟨hl, ht, _⟩ := List.findIdx?_eq_some_iff_getElem.mp h
  simp only [Bool.and_eq_true, beq_iff_eq] at ht
  simp [serialOf, hl, ht.right]

theorem Steps.serialOf (h : Steps c call c' call') : c'.serialOf t = c.serialOf t := by
  have closed {i : Nat} {e : AdbDevice} {p : DevicePoint} {o : Option DevicePoint}
      (hs : DeviceSteps c i e p c' o) : c'.serialOf t = c.serialOf t := by
    cases hs
    case kick => exact serialOf_kick
    all_goals rfl
  cases h
  case device hs | stopDevice hs => exact closed hs
  all_goals rfl

theorem ThreadSteps.serialOf (h : ThreadSteps c i e c') (ht : c.serialOf t = some a) :
    c'.serialOf t = some a := by
  cases h
  case enroll => exact serialOf_append ht
  case kick => exact serialOf_kick.trans ht
  all_goals exact ht

end Client
