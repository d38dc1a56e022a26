import LibAdb.Execution.FdConnection
import LibAdb.Execution.Sockets

namespace Apacket

variable {p : Apacket}

def encode (p : Apacket) : Bytes :=
  p.header ++ p.payload

-- The payload is as long as the header says and not too long for a connection.
structure Framed (p : Apacket) : Prop where
  length : p.payload.length = p.dataLength.toNat
  fits   : p.dataLength.toNat ≤ maxPayload

theorem ofHeader_header : ofHeader p.header = { p with payload := [] } := by
  have word (n : UInt32) : (UInt32.ofBytes n.toBytes).getD 0 = n := by
    rw [UInt32.ofBytes_toBytes, Option.getD_some]
  show Apacket.mk ((UInt32.ofBytes p.command.toBytes).getD 0)
    ((UInt32.ofBytes p.arg0.toBytes).getD 0) ((UInt32.ofBytes p.arg1.toBytes).getD 0)
    ((UInt32.ofBytes p.dataLength.toBytes).getD 0) ((UInt32.ofBytes p.dataCheck.toBytes).getD 0)
    ((UInt32.ofBytes p.magic.toBytes).getD 0) [] = _
  simp only [word]

end Apacket

namespace FdConnection

open StreamReader (Computes)

variable {p : Apacket} {bytes out more : Bytes} {answers rest : List Written}

-- Reading from a stream that is not in fragments.
def take (len : Nat) : StateT Bytes Option Bytes :=
  fun s => if len ≤ s.length then some (s.take len, s.drop len) else none

def readFlat : StateT Bytes Option Apacket := do
  let msg ← take 24
  let packet := Apacket.ofHeader msg
  if packet.dataLength.toNat > Apacket.maxPayload then fun _ => none
  else
    let payload ← take packet.dataLength.toNat
    return { packet with payload }

theorem computes_dispatchRead (tls : Bool) (len : Nat) : Computes (dispatchRead tls len) (take len) := by
  rw [dispatchRead]
  split
  case isTrue h =>
    simp only [Bool.and_eq_true, decide_eq_true_eq] at h
    obtain ⟨-, rfl⟩ := h
    intro fragments
    rfl
  case isFalse => exact Computes.exactly len

theorem computes_read (tls : Bool) : Computes (read tls) readFlat := by
  refine (computes_dispatchRead tls 24).bind fun msg => ?_
  dsimp only
  split
  case isTrue => exact .fail
  case isFalse => exact (computes_dispatchRead tls _).bind fun payload => .pure _

theorem take_append (bytes more : Bytes) : take bytes.length (bytes ++ more) = some (bytes, more) := by
  rw [take, if_pos (by simp), List.take_left, List.drop_left]

theorem readFlat_encode (h : p.Framed) (more : Bytes) :
    readFlat (p.encode ++ more) = some (p, more) := by
  have msg : take 24 (p.encode ++ more) = some (p.header, p.payload ++ more) := by
    rw [Apacket.encode, List.append_assoc]
    exact take_append p.header _
  have payload : take p.dataLength.toNat (p.payload ++ more) = some (p.payload, more) :=
    h.length ▸ take_append ..
  have fits : ¬p.dataLength.toNat > Apacket.maxPayload := Nat.not_lt.mpr h.fits
  simp only [readFlat, bind, StateT.bind, msg, Option.bind_some, Apacket.ofHeader_header, if_neg fits,
    payload]
  rfl

theorem take_eq_some (h : take len s = some (bytes, s')) : s.length = len + s'.length := by
  simp only [take, Option.ite_none_right_eq_some] at h
  cases h.2
  rw [List.length_drop]
  omega

theorem readFlat_shorter (s : Bytes) (p : Apacket) (s' : Bytes) (h : readFlat s = some (p, s')) :
    s'.length < s.length := by
  obtain ⟨⟨msg, s₁⟩, hm, h⟩ := Option.bind_eq_some_iff.mp h
  dsimp only at h
  split at h
  case isTrue => cases h
  case isFalse =>
    obtain ⟨⟨payload, s₂⟩, hp, h⟩ := Option.bind_eq_some_iff.mp h
    cases h
    have := take_eq_some hm
    have := take_eq_some hp
    omega

theorem readAll_append (tls : Bool) (packets : List Apacket) (h : ∀ p ∈ packets, p.Framed)
    (hs : fragments.flatten = packets.flatMap Apacket.encode ++ more) :
    readAll tls fragments = packets ++ readAll tls [more] :=
  (computes_read tls).all_append readFlat_shorter packets (fun p hp => readFlat_encode (h p hp)) hs

theorem readAll_nil (tls : Bool) : readAll tls [[]] = [] := by
  cases tls <;> rfl

theorem dispatchWrite_true (h : dispatchWrite tls bytes answers = some (true, out, rest)) :
    out = bytes := by
  rw [dispatchWrite] at h
  split at h
  case isTrue hb =>
    simp only [Bool.and_eq_true, decide_eq_true_eq] at hb
    cases h
    exact hb.2.symm
  case isFalse => exact StreamWriter.exactly_true h

theorem write_true (hp : p.payload.length = p.dataLength.toNat)
    (h : write tls p answers = some (true, out, rest)) : out = p.encode := by
  obtain ⟨⟨ok, head, answers₁⟩, hh, h⟩ := Option.bind_eq_some_iff.mp h
  dsimp only at h
  split at h
  case isTrue hz =>
    cases h
    have zero : p.payload = [] := by
      simp only [Bool.not_true, Bool.false_or, decide_eq_true_eq] at hz
      rw [hz] at hp
      exact List.length_eq_zero_iff.mp hp
    rw [dispatchWrite_true hh, Apacket.encode, zero, List.append_nil]
  case isFalse ho =>
    obtain ⟨⟨ok', tail, answers₂⟩, ht, h⟩ := Option.bind_eq_some_iff.mp h
    cases h
    obtain rfl : ok = true := by
      cases ok
      case false => exact absurd rfl ho
      case true => rfl
    rw [dispatchWrite_true hh, dispatchWrite_true ht, ← hp, List.take_length]
    rfl

theorem writeAll_true (packets : List Apacket)
    (hp : ∀ p ∈ packets, p.payload.length = p.dataLength.toNat)
    (h : writeAll tls packets answers = some (true, out, rest)) :
    out = packets.flatMap Apacket.encode := by
  induction packets generalizing answers out
  case nil =>
    cases h
    rfl
  case cons p packets hi =>
    obtain ⟨⟨ok, head, answers₁⟩, hh, h⟩ := Option.bind_eq_some_iff.mp h
    cases ok
    case false => cases h
    case true =>
      obtain ⟨⟨ok', tail, answers₂⟩, ht, h⟩ := Option.bind_eq_some_iff.mp h
      cases h
      rw [write_true (hp p (.head _)) hh, hi (fun q hq => hp q (.tail _ hq)) ht, List.flatMap_cons]

end FdConnection
