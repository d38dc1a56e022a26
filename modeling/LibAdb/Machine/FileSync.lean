import LibAdb.Execution.FileSync

namespace FileSync

namespace World

def note (w : World) (event : Event) : World :=
  { w with log := w.log ++ [event] }

def ahead (w : World) (n : Nat) : Bytes :=
  w.input.take (w.left.elim n (min n))

def consume (w : World) (n : Nat) : World :=
  let k := w.left.elim n (min n)
  { w with input := w.input.drop k, left := w.left.map (· - k) }

theorem length_ahead (w : World) (n : Nat) : (w.ahead n).length ≤ n := by
  rw [ahead, Stream'.length_take]
  cases w.left
  case none => exact Nat.le_refl _
  case some => exact Nat.min_le_left ..

def accepted (w : World) (n : Nat) : Nat :=
  if w.broken then 0 else min n ((w.env.accepts w.log).getD n)

def written (w : World) (packet : Packet) : World :=
  let short := w.accepted packet.encode.length < packet.encode.length
  { w with
    broken := w.broken || short
    errno  := if short then w.env.errno w.log else w.errno }

theorem accepted_le (w : World) (n : Nat) : w.accepted n ≤ n := by
  rw [accepted]
  split
  · exact Nat.zero_le _
  · exact Nat.min_le_left ..

end World

def replies (bytes : Bytes) : World where
  env   := {}
  input := fun n => bytes.getD n 0
  left  := some bytes.length

theorem Packet.length_encode_pos (packet : Packet) : 0 < packet.encode.length := by
  cases packet
  all_goals
    simp only [encode, header, UInt32.toBytes, List.length_append, List.length_cons]
    omega

section Primitives

open Prog

variable {E : Option Halt → World → Prop} {P : World → Prop}

theorem triple_note {Q : Unit → World → Prop} (h : ∀ s, P s → Q () (s.note event)) :
    Triple E P (note event) Q :=
  .act (f := fun s : World => ((), s.note event)) h

theorem triple_ask {ρ : Type} {answer : Env → List Event → ρ} {event : ρ → Event}
    {Q : ρ → World → Prop}
    (h : ∀ s, P s → Q (answer s.env s.log) (s.note (event (answer s.env s.log)))) :
    Triple E P (ask answer event) Q :=
  .act (f := fun s : World => (answer s.env s.log, s.note (event (answer s.env s.log)))) h

theorem triple_readFdExactly {Q : Option Bytes → World → Prop}
    (hs : ∀ s bytes, P s → bytes.length = n → bytes = s.ahead n →
      Q (some bytes) ((s.consume n).note (.recv reading n bytes)))
    (hn : ∀ s bytes, P s → bytes.length < n → bytes = s.ahead n →
      Q none ((s.consume n).note (.recv reading n bytes))) :
    Triple E P (readFdExactly reading n) Q := by
  refine .act (f := fun s : World => (if (s.ahead n).length = n then some (s.ahead n) else none,
    (s.consume n).note (.recv reading n (s.ahead n)))) fun s hp => ?_
  split
  case isTrue hl => exact hs s _ hp hl rfl
  case isFalse hl => exact hn s _ hp (Nat.lt_of_le_of_ne (s.length_ahead n) hl) rfl

theorem triple_writeFdExactly {Q : Bool → World → Prop}
    (hs : ∀ s, P s → s.broken = false → s.accepted packet.encode.length = packet.encode.length →
      Q true ((s.written packet).note (.write packet packet.encode.length)))
    (hn : ∀ s, P s → s.accepted packet.encode.length < packet.encode.length →
      Q false ((s.written packet).note (.write packet (s.accepted packet.encode.length)))) :
    Triple E P (writeFdExactly packet) Q := by
  have hp := packet.length_encode_pos
  refine .act (f := fun s : World => (decide (s.accepted packet.encode.length = packet.encode.length),
    (s.written packet).note (.write packet (s.accepted packet.encode.length)))) fun s h => ?_
  by_cases ha : s.accepted packet.encode.length = packet.encode.length
  · simp only [ha, decide_true]
    refine hs s h ?_ ha
    rw [World.accepted] at ha
    split at ha
    case isTrue => omega
    case isFalse hb => exact Bool.eq_false_iff.mpr hb
  · simp only [ha, decide_false]
    exact hn s h (Nat.lt_of_le_of_ne (s.accepted_le _) ha)

end Primitives

end FileSync
