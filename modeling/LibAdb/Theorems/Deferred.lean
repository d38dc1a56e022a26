import LibAdb.Machine.FileSync

namespace FileSync

inductive AckReply where
  | okay
  | fail (message : Bytes)
  deriving DecidableEq, Repr

namespace AckReply

def encode : AckReply → Bytes
  | okay => Packet.header Id.okay 0
  | fail message => Packet.header Id.fail message.length ++ message

def Fits : AckReply → Prop
  | okay => True
  | fail message => message.length ≤ syncDataMax

def failure (file : Bytes × Bytes) : AckReply → Option (Bytes × Bytes × Bytes)
  | okay => none
  | fail message => some (file.1, file.2, message)

theorem length_fail (message : Bytes) : (fail message).encode.length = 8 + message.length :=
  List.length_append

theorem length_encode {r : AckReply} (h : r.Fits) :
    8 ≤ r.encode.length ∧ r.encode.length ≤ 8 + syncDataMax := by
  cases r
  case okay => decide
  case fail m =>
    have h : m.length ≤ syncDataMax := h
    rw [length_fail]
    omega

end AckReply

def Event.file : Event → Option (Bytes × Bytes)
  | .sent lpath rpath => some (lpath, rpath)
  | _ => none

def Event.failure : Event → Option (Bytes × Bytes × Bytes)
  | .failed lpath rpath message => some (lpath, rpath, message)
  | _ => none

section Matching

open Prog

variable {rs : List AckReply} {files : List (Bytes × Bytes)} {i : Nat} {w : World}

-- The first `i` replies are used up, for the first `i` files. The buffer has a part of the next one.
structure Matched (rs : List AckReply) (files : List (Bytes × Bytes)) (i : Nat) (w : World) :
    Prop where
  used   : i ≤ rs.length
  sent   : w.log.filterMap Event.file = files
  acks   : w.acks = files.drop i
  failed : w.log.filterMap Event.failure =
    (List.zipWith AckReply.failure (files.take i) (rs.take i)).filterMap id
  stream : ∃ k, w.left = some k ∧ w.buffer ++ w.input.take k = (rs.drop i).flatMap AckReply.encode
  part   : ∀ r rest, rs.drop i = r :: rest → w.buffer.length ≤ r.encode.length

def Ends (rs : List AckReply) (h : Option Halt) (w : World) : Prop :=
  h = none ∧ ∃ files i, Matched rs files i w ∧ i ≤ files.length

theorem Matched.note (h : Matched rs files i w) (hs : e.file = none) (hf : e.failure = none) :
    Matched rs files i (w.note e) where
  used := h.used
  sent := by simpa [World.note, hs] using h.sent
  acks := h.acks
  failed := by simpa [World.note, hf] using h.failed
  stream := h.stream
  part := h.part

theorem Matched.next (h : Matched rs files i w) (hb : 0 < w.buffer.length) :
    ∃ r rest, rs.drop i = r :: rest ∧ w.buffer <+: r.encode := by
  obtain ⟨k, -, hs⟩ := h.stream
  cases hd : rs.drop i
  case nil =>
    rw [hd] at hs
    simp only [List.flatMap_nil, List.append_eq_nil_iff] at hs
    rw [hs.1] at hb
    cases hb
  case cons r rest =>
    refine ⟨r, rest, rfl, ?_⟩
    rw [hd, List.flatMap_cons] at hs
    exact List.prefix_of_prefix_length_le (hs ▸ List.prefix_append ..) (List.prefix_append ..)
      (h.part r rest hd)

theorem Matched.whole (h : Matched rs files i w) (hd : rs.drop i = r :: rest)
    (hl : r.encode.length ≤ w.buffer.length) (h8 : 0 < w.buffer.length) : w.buffer = r.encode := by
  obtain ⟨r', rest', hd', hp⟩ := h.next h8
  cases hd.symm.trans hd'
  exact hp.eq_of_length_le hl

theorem Matched.read (h : Matched rs files i w) (hn : n ≤ amount - w.buffer.length)
    (ha : ∀ r rest, rs.drop i = r :: rest → amount ≤ r.encode.length) :
    Matched rs files i { (w.consume n).note (.chunk (w.ahead n)) with
      buffer := w.buffer ++ w.ahead n } := by
  obtain ⟨k, hk, hs⟩ := h.stream
  have noted := h.note (e := .chunk (w.ahead n)) rfl rfl
  refine ⟨h.used, noted.sent, h.acks, noted.failed, ⟨k - min n k, ?_, ?_⟩, fun r rest hd => ?_⟩
  · simp [World.consume, World.note, hk]
  · rw [← hs, List.append_assoc]
    simp only [World.note, World.consume, World.ahead, hk, Option.elim]
    rw [Stream'.append_take, Stream'.append_take_drop, Stream'.length_take,
      Nat.add_sub_cancel' (Nat.min_le_right ..)]
  · have := ha r rest hd
    have := h.part r rest hd
    have := w.length_ahead n
    rw [List.length_append]
    omega

end Matching

end FileSync
