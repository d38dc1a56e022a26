import LibAdb.Library.Reach
import LibAdb.Machine.ShellPackets
import Mathlib.Data.List.Induction

namespace ShellProtocol

variable {p : ShellProtocol} {packets : List ShellPacket}

-- The calls of `Read` give each packet back in pieces that fit, and they leave the stream where the
-- next packet begins.
def RoundTrips (capacity : Nat) (packets : List ShellPacket) : Prop :=
  ∀ first rest, ∃ pieces : List (List ShellProtocol),
    List.Forall₂ (fun x l => (l.map (·.data)).flatten = x.data ∧
      ∀ q ∈ l, q.id = x.id ∧ q.data.length ≤ capacity) packets pieces ∧
    ∀ k ≤ packets.length, ∃ p, Reads { capacity, first } (stream packets ++ rest)
      (pieces.take k).flatten p (stream (packets.drop k) ++ rest)

theorem reads_stream (rest : Bytes) (hp : p.bytesLeft = 0)
    (hc : 0 < p.capacity ∨ ∀ x ∈ packets, x.data = []) : ∃ pieces : List (List ShellProtocol),
      List.Forall₂ (fun x l => (l.map (·.data)).flatten = x.data ∧
        ∀ q ∈ l, q.id = x.id ∧ q.data.length ≤ p.capacity) packets pieces ∧
      ∀ k ≤ packets.length, ∃ p', Reads p (stream packets ++ rest) (pieces.take k).flatten p'
        (stream (packets.drop k) ++ rest) := by
  induction packets generalizing p
  case nil =>
    refine ⟨[], .nil, fun k hk => ?_⟩
    rw [Nat.le_zero.mp hk]
    exact ⟨p, .nil⟩
  case cons x packets hi =>
    have ⟨l, p', reads, h⟩ := read_pieces (stream packets ++ rest) hp
      (hc.imp_right fun hc => hc x (.head _))
    have capacity : p'.capacity = p.capacity := h.capacity
    have ⟨pieces, each, ends⟩ := hi h.ends
      (hc.imp (capacity ▸ ·) fun hc y hy => hc y (.tail _ hy))
    rw [capacity] at each
    refine ⟨l :: pieces, .cons ⟨h.concat, h.each⟩ each, fun k hk => ?_⟩
    cases k
    case zero => exact ⟨p, .nil⟩
    case succ k =>
      have ⟨q, later⟩ := ends k (Nat.le_of_succ_le_succ hk)
      refine ⟨q, ?_⟩
      rw [stream, List.flatMap_cons, List.append_assoc]
      exact reads.trans later

theorem RoundTrips.eq_nil (h : RoundTrips 0 packets) : ∀ x ∈ packets, x.data = [] := by
  obtain ⟨pieces, each, -⟩ := h 0 []
  clear h
  induction each
  case nil => nofun
  case cons x l _ _ hl _ hi =>
    rintro _ (_ | ⟨_, hx⟩)
    case head =>
      rw [← hl.left, List.flatten_eq_nil_iff]
      intro _ hd
      obtain ⟨q, hq, rfl⟩ := List.mem_map.mp hd
      exact List.length_eq_zero_iff.mp (Nat.le_zero.mp (hl.right q hq).right)
    case tail => exact hi _ hx

theorem roundTrips_iff {n : Nat} :
    RoundTrips n packets ↔ 0 < n ∨ ∀ x ∈ packets, x.data = [] := by
  constructor
  case mp =>
    intro h
    cases n
    case zero => exact .inr h.eq_nil
    case succ => exact .inl (Nat.succ_pos _)
  case mpr => exact fun hc first rest => reads_stream (p := { capacity := n, first }) rest rfl hc

-- A buffer without room for data never gets to the end of a packet.
theorem empty_buffer_reads_nothing : ¬RoundTrips 0 [⟨1, [7], by decide⟩] := by
  intro h
  cases h.eq_nil _ (.head _)

end ShellProtocol

namespace AdbSession

-- What the session is to make of its packets.

def outputOf (packets : List ShellPacket) : Bytes :=
  packets.flatMap fun x => if x.id = 1 || x.id = 2 then x.data else []

def exitCodeOf (packets : List ShellPacket) : Int :=
  ((packets.filter fun x => x.id = 3 && x.data ≠ []).getLast?).elim 255 (·.data.headD 0 |>.toNat)

def buffered (first : UInt8) (packets : List ShellPacket) : UInt8 :=
  packets.foldl (fun b x => ShellProtocol.left 1048571 b x.data) first

-- The last exit packet comes in one piece, or its last piece begins like its first one. If it has no
-- data, what the buffer begins with happens to be the exit code of the packets before it.
def Unambiguous (first : UInt8) (packets : List ShellPacket) : Prop :=
  match packets.reverse.dropWhile (·.id ≠ 3) with
  | [] => True
  | x :: before =>
    if x.data = [] then (buffered first before.reverse).toNat = exitCodeOf before.reverse
    else ShellProtocol.left 1048571 first x.data = x.data.headD 0

def readCode (first : UInt8) (code : Int) : List ShellPacket → Int
  | [] => code
  | x :: packets =>
    let first := ShellProtocol.left 1048571 first x.data
    readCode first (if x.id = 3 then first.toNat else code) packets

section Codes

variable {first : UInt8} {x : ShellPacket} {packets : List ShellPacket}

theorem readCode_concat : readCode first code (packets ++ [x]) =
    if x.id = 3 then ((ShellProtocol.left 1048571 (buffered first packets) x.data).toNat : Int)
    else readCode first code packets := by
  induction packets generalizing first code
  case nil => rfl
  case cons y packets hi => exact hi

theorem exitCodeOf_concat : exitCodeOf (packets ++ [x]) =
    if x.id = 3 ∧ x.data ≠ [] then ((x.data.headD 0).toNat : Int) else exitCodeOf packets := by
  rw [exitCodeOf, List.filter_append]
  split
  case isTrue h => simp [h]
  case isFalse h =>
    have : [x].filter (fun x => x.id = 3 && x.data ≠ []) = [] := by simpa using h
    rw [this, List.append_nil]
    rfl

theorem left_eq (h : x.data ≠ []) (b b' : UInt8) :
    ShellProtocol.left n b x.data = ShellProtocol.left n b' x.data := by
  have lt : (x.data.length - 1) / n * n < x.data.length := by
    have := Nat.div_mul_le_self (x.data.length - 1) n
    have := List.length_pos_iff.mpr h
    omega
  rw [ShellProtocol.left, ShellProtocol.left, List.drop_eq_getElem_cons lt]
  rfl

theorem readCode_eq_iff :
    readCode first 255 packets = exitCodeOf packets ↔ Unambiguous first packets := by
  induction packets using List.reverseRec
  case nil => exact iff_of_true rfl trivial
  case append_singleton packets x hi =>
    rw [readCode_concat, exitCodeOf_concat, Unambiguous, List.reverse_append,
      List.reverse_singleton, List.singleton_append, List.dropWhile_cons]
    by_cases hx : x.id = 3
    case neg => simpa [hx, Unambiguous] using hi
    case pos =>
      by_cases hd : x.data = []
      case pos => simp [hx, hd, ShellProtocol.left]
      case neg =>
        rw [if_pos hx, if_pos ⟨hx, hd⟩, left_eq hd (buffered first packets) first,
          Int.natCast_inj, UInt8.toNat_inj]
        simp only [hx, hd, ne_eq, not_true, decide_false, Bool.false_eq_true, if_false]

end Codes

inductive Event where
  | receive (bytes : Bytes)
  | hangup
  | read

def next (s : AdbSession) : Event → Option AdbSession
  | .receive bytes => s.receive bytes
  | .hangup => some { s with ended := true }
  | .read => s.readerThread

def Runs : AdbSession → AdbSession → Prop :=
  Reach (fun s a s' => s.next a = some s') fun _ _ => True

def pieceOutput (q : ShellProtocol) : Bytes :=
  if q.id = 1 || q.id = 2 then q.data else []

def pieceCode (code : Int) (q : ShellProtocol) : Int :=
  if q.id = 3 then q.first.toNat else code

-- The session is where the calls of `Read` have got it.
structure Follows (first : UInt8) (s : AdbSession) : Prop where
  v2       : s.v2
  reads    : ∃ pieces, ShellProtocol.Reads { first } s.received pieces s.protocol s.incoming ∧
    s.output = pieces.flatMap pieceOutput ∧ s.exitCode = pieces.foldl pieceCode 255
  promised : s.promise ≠ none → s.ended ∧ s.promise = some s.exitCode ∧
    s.protocol.read s.incoming = none

variable {s s' : AdbSession} {first : UInt8} {packets : List ShellPacket}

theorem handle_eq (s : AdbSession) : s.handle.v2 = s.v2 ∧ s.handle.received = s.received ∧
    s.handle.ended = s.ended ∧ s.handle.incoming = s.incoming ∧
    s.handle.protocol = s.protocol ∧ s.handle.promise = s.promise ∧
    s.handle.output = s.output ++ pieceOutput s.protocol ∧
    s.handle.exitCode = pieceCode s.exitCode s.protocol := by
  unfold handle pieceOutput pieceCode
  split
  case isTrue h =>
    have : s.protocol.id ≠ 3 := by
      intro he
      simp [he] at h
    simp [this]
  case isFalse h => split <;> simp_all

namespace Follows

theorem receive (h : Follows first s) (hr : s.receive bytes = some s') : Follows first s' := by
  simp only [AdbSession.receive, Option.ite_none_left_eq_some, Option.some.injEq] at hr
  obtain ⟨he, rfl⟩ := hr
  obtain ⟨pieces, reads, rest⟩ := h.reads
  exact ⟨h.v2, ⟨pieces, reads.append bytes, rest⟩, fun hp => absurd (h.promised hp).left he⟩

theorem read (h : Follows first s) (hr : s.readerThread = some s') : Follows first s' := by
  obtain ⟨pieces, reads, output, code⟩ := h.reads
  simp only [readerThread, Option.ite_none_left_eq_some, if_pos h.v2] at hr
  obtain ⟨hp, hr⟩ := hr
  split at hr
  case h_1 protocol incoming hread =>
    cases hr
    obtain ⟨hv, hr, -, hi, hq, hpr, ho, hc⟩ := handle_eq { s with protocol, incoming }
    refine ⟨hv.trans h.v2, ⟨pieces ++ [protocol], ?_, ?_, ?_⟩, fun hn => absurd hn ?_⟩
    · rw [hr, hi, hq]
      exact reads.snoc hread
    · rw [ho, List.flatMap_append, List.flatMap_singleton, ← output]
    · rw [hc, List.foldl_append, ← code]
      rfl
    · simpa [hpr] using hp
  case h_2 hread =>
    simp only [Option.ite_none_right_eq_some, Option.some.injEq] at hr
    obtain ⟨he, rfl⟩ := hr
    exact ⟨h.v2, h.reads, fun _ => ⟨he, rfl, hread⟩⟩

theorem next (h : Follows first s) (hn : s.next a = some s') : Follows first s' := by
  cases a
  case receive => exact h.receive hn
  case hangup =>
    cases hn
    exact ⟨h.v2, h.reads, fun hp => ⟨rfl, (h.promised hp).right⟩⟩
  case read => exact h.read hn

end Follows

theorem pieceCode_of_ne {pieces : List ShellProtocol} (h : ∀ q ∈ pieces, q.id ≠ 3) :
    pieces.foldl pieceCode code = code := by
  induction pieces
  case nil => rfl
  case cons q pieces hi =>
    rw [List.foldl_cons, pieceCode, if_neg (h q (.head _))]
    exact hi fun q hq => h q (.tail _ hq)

theorem pieces_packet {p p' : ShellProtocol} {x : ShellPacket}
    (h : ShellProtocol.Pieces { p with id := x.id } x.data pieces p') :
    pieces.flatMap pieceOutput = (if x.id = 1 || x.id = 2 then x.data else []) ∧
      ∀ code, pieces.foldl pieceCode code = if x.id = 3 then (p'.first.toNat : Int) else code := by
  constructor
  case left =>
    have each : pieces.map pieceOutput =
        pieces.map fun q => if x.id = 1 || x.id = 2 then q.data else [] := by
      apply List.map_congr_left
      intro q hq
      rw [pieceOutput, (h.each q hq).left]
    rw [List.flatMap_def, each]
    split
    · exact h.concat
    · simp
  case right =>
    intro code
    split
    case isTrue hx =>
      obtain ⟨l, rfl⟩ := List.getLast?_eq_some_iff.mp h.last
      rw [List.foldl_append]
      exact if_pos ((h.each p' (by simp)).left.trans hx)
    case isFalse hx =>
      apply pieceCode_of_ne
      intro q hq
      rwa [(h.each q hq).left]

theorem reads_packets (packets : List ShellPacket) {p : ShellProtocol} (hp : p.bytesLeft = 0)
    (hc : p.capacity = 1048571) :
    ∃ pieces p', ShellProtocol.Reads p (ShellProtocol.stream packets) pieces p' [] ∧
      p'.read [] = none ∧ pieces.flatMap pieceOutput = outputOf packets ∧
      ∀ code, pieces.foldl pieceCode code = readCode p.first code packets := by
  induction packets generalizing p
  case nil =>
    refine ⟨[], p, .nil, ?_, rfl, fun _ => rfl⟩
    rw [ShellProtocol.read, if_pos hp]
    rfl
  case cons x packets hi =>
    obtain ⟨l, q, reads, h⟩ := ShellProtocol.read_pieces (ShellProtocol.stream packets) (x := x) hp
      (.inl (by omega))
    obtain ⟨pieces, p', later, ends, output, code⟩ := hi h.ends (h.capacity.trans hc)
    obtain ⟨here, exit⟩ := pieces_packet h
    refine ⟨l ++ pieces, p', reads.trans later, ends, ?_, fun c => ?_⟩
    · rw [List.flatMap_append, here, output]
      rfl
    · rw [List.foldl_append, exit, code, h.first, hc]
      rfl

def GoesOn : AdbSession → AdbSession → Prop :=
  Relation.ReflTransGen fun s s' => s.readerThread = some s'

theorem Follows.goesOn (h : Follows first s) (he : s.ended) (hq : s.protocol = q)
    (hi : s.incoming = fd) (hr : ShellProtocol.Reads q fd pieces p rest) (hp : p.read rest = none) :
    ∃ s', GoesOn s s' ∧ Follows first s' ∧ s'.received = s.received ∧ s'.promise ≠ none := by
  by_cases hs : s.promise = none
  case neg => exact ⟨s, .refl, h, rfl, hs⟩
  case pos =>
    induction hr generalizing s
    case nil =>
      have step : s.readerThread = some { s with promise := some s.exitCode } := by
        simp [readerThread, hs, h.v2, hq, hi, hp, he]
      exact ⟨_, .single step, h.read step, rfl, by rintro ⟨⟩⟩
    case cons protocol incoming _ _ _ _ _ hr _ ih =>
      have step : s.readerThread = some (handle { s with protocol, incoming }) := by
        simp [readerThread, hs, h.v2, hq, hi, hr]
      obtain ⟨-, hr, hended, hi, hq, hn, -⟩ := handle_eq { s with protocol, incoming }
      obtain ⟨s', goes, hf, hr', hp⟩ := ih (h.read step) (hended.trans he) hq hi hp (hn.trans hs)
      exact ⟨s', .head step goes, hf, hr'.trans hr, hp⟩

-- Whatever way the bytes come, and wherever the reader is when the stream is closed.
theorem reader_reports_iff (h : Runs { protocol := { first } } s) (he : s.ended)
    (hr : s.received = ShellProtocol.stream packets) :
    ∃ s' code, GoesOn s s' ∧ s'.promise = some code ∧ s'.output = outputOf packets ∧
      (code = exitCodeOf packets ↔ Unambiguous first packets) := by
  have start : Follows first { protocol := { first } } := ⟨rfl, ⟨[], .nil, rfl, rfl⟩, nofun⟩
  have follows := Reach.invariant (fun _ _ _ _ hn h => Follows.next h hn) h start
  have ⟨pieces, p, reads, ends, output, code⟩ := reads_packets packets
    (p := { first }) rfl rfl
  have ⟨before, hb, _⟩ := follows.reads
  have ⟨later, _, hl⟩ := (hr ▸ hb).later reads ends
  have ⟨s', goes, hf, hr', hn⟩ := follows.goesOn he rfl rfl hl ends
  have ⟨l, hl, ho, hc⟩ := hf.reads
  have ⟨_, hp, hread⟩ := hf.promised hn
  have ⟨rest, hrest, hnil⟩ := (hr'.trans hr ▸ hl).later reads ends
  have : l = pieces := by rw [hrest, hnil.eq_nil hread, List.append_nil]
  refine ⟨s', s'.exitCode, goes, hp, ?_, ?_⟩
  · rw [ho, this, output]
  · rw [hc, this, code]
    exact readCode_eq_iff

theorem reader_reports_two : ∃ s s' code, Runs { protocol := { first := 0 } } s ∧ s.ended ∧
    GoesOn s s' ∧ s'.promise = some code ∧
    s'.output = outputOf [⟨1, [65], by decide⟩, ⟨3, [2], by decide⟩] ∧
    (code = exitCodeOf [⟨1, [65], by decide⟩, ⟨3, [2], by decide⟩] ↔
      Unambiguous 0 [⟨1, [65], by decide⟩, ⟨3, [2], by decide⟩]) := by
  have ⟨s, hs, hr, he⟩ : ∃ s, Runs { protocol := { first := 0 } } s ∧
      s.received = ShellProtocol.stream [⟨1, [65], by decide⟩, ⟨3, [2], by decide⟩] ∧ s.ended :=
    Reach.exists_of_exec [.receive [1, 1, 0, 0, 0, 65, 3, 1], .read, .receive [0, 0, 0, 2], .hangup]
      (by decide +kernel)
  have ⟨s', code, h⟩ := reader_reports_iff hs he hr
  exact ⟨s, s', code, hs, he, h⟩

-- An exit packet without data takes what the output before it has left in the buffer.
theorem empty_exit_packet_reports_output : ∃ s, Runs { protocol := { first := 0 } } s ∧
    s.received = ShellProtocol.stream [⟨1, [65], by decide⟩, ⟨3, [], by decide⟩] ∧ s.ended ∧
    s.promise = some 65 ∧ exitCodeOf [⟨1, [65], by decide⟩, ⟨3, [], by decide⟩] = 255 :=
  Reach.exists_of_exec
    [.receive [1, 1, 0, 0, 0, 65, 3, 0, 0, 0, 0], .hangup, .read, .read, .read] (by decide +kernel)

end AdbSession
