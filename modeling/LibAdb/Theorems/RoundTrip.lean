import LibAdb.Machine.FdConnection
import LibAdb.Objects.Transport

-- A call of `send_packet` on a transport of the given version. `announced` is what the receiver has
-- been told about payloads if it had a `CNXN` packet.
structure Send where
  version   : Int
  announced : Option UInt32 := none
  packet    : Apacket
  deriving DecidableEq, Repr

namespace Send

variable {s : Send}

def maxPayload (s : Send) : Nat :=
  match s.announced with
  | none => ({} : ATransport).maxPayload
  | some payload => (({} : ATransport).updateVersion 0 payload).maxPayload

theorem maxPayload_le : s.maxPayload ≤ Apacket.maxPayload := by
  rw [maxPayload]
  split
  case h_1 => exact Nat.le_refl _
  case h_2 => exact Nat.min_le_right ..

def fits (s : Send) : Bool :=
  s.packet.dataLength.toNat = s.packet.payload.length && s.packet.payload.length ≤ s.maxPayload

def wire (s : Send) : Apacket :=
  s.packet.stamp s.version

-- The packet that was sent, as the receiver gets and accepts it.
structure Arrives (s : Send) (p : Apacket) : Prop where
  command : p.command = s.packet.command
  arg0    : p.arg0 = s.packet.arg0
  arg1    : p.arg1 = s.packet.arg1
  payload : p.payload = s.packet.payload
  header  : checkHeader p s.maxPayload

theorem fits_iff : s.fits ↔ s.packet.dataLength.toNat = s.packet.payload.length ∧
    s.packet.payload.length ≤ s.maxPayload := by
  simp only [fits, Bool.and_eq_true, decide_eq_true_eq]

theorem framed (h : s.fits) : s.wire.Framed := by
  have ⟨length, small⟩ := fits_iff.mp h
  exact ⟨length.symm, length ▸ Nat.le_trans small maxPayload_le⟩

theorem arrives (h : s.fits) : s.Arrives s.wire where
  command := rfl
  arg0 := rfl
  arg1 := rfl
  payload := rfl
  header := by
    have ⟨length, small⟩ := fits_iff.mp h
    rw [checkHeader, wire, Apacket.stamp, beq_self_eq_true, Bool.true_and]
    exact decide_eq_true (length ▸ small)

end Send

namespace FdConnection

theorem arrives_map (sends : List Send) (h : ∀ s ∈ sends, s.fits) :
    List.Forall₂ Send.Arrives sends (sends.map Send.wire) := by
  induction sends
  case nil => exact .nil
  case cons s sends hi =>
    exact .cons (Send.arrives (h s (.head _))) (hi fun r hr => h r (.tail _ hr))

theorem uptoStls_append (before packets : List Apacket)
    (h : ∀ p ∈ before, p.command ≠ Command.stls.word) :
    uptoStls (before ++ packets) = before ++ uptoStls packets := by
  induction before
  case nil => rfl
  case cons p before hi =>
    rw [List.cons_append, uptoStls, if_neg (h p (.head _)), hi fun q hq => h q (.tail _ hq),
      List.cons_append]

theorem filter_rejected (h : checkHeader q maxPayload = false) (packets : List Apacket) :
    delivered maxPayload (q :: packets) = delivered maxPayload packets :=
  List.filter_cons_of_neg (by rw [h]; nofun)

theorem sends_arrive {sends : List Send} {fragments : List Bytes} (fit : ∀ s ∈ sends, s.fits)
    (written : writeAll tls (sends.map Send.wire) answers = some (true, fragments.flatten, left)) :
    List.Forall₂ Send.Arrives sends (readAll tls fragments) := by
  have framed : ∀ p ∈ sends.map Send.wire, p.Framed := by
    intro p hp
    obtain ⟨s, hs, rfl⟩ := List.mem_map.mp hp
    exact Send.framed (fit s hs)
  have stream := writeAll_true _ (fun p hp => (framed p hp).length) written
  have read := readAll_append tls _ framed (stream.trans (List.append_nil _).symm)
  rw [read, readAll_nil, List.append_nil]
  exact arrives_map sends fit

-- A rejected packet does not harm the framing, but the read thread ends with one that says `STLS`.
theorem packets_read_back_iff (tls : Bool) :
    (∀ (sends : List Send) (answers : List Written) (out : Bytes) (left : List Written)
        (fragments : List Bytes), (∀ s ∈ sends, s.fits) →
      writeAll tls (sends.map Send.wire) answers = some (true, out, left) →
      fragments.flatten = out → List.Forall₂ Send.Arrives sends (readAll tls fragments)) ∧
    ∀ (maxPayload : Nat) (before : List Apacket) (q : Apacket) (after : Bytes)
        (fragments fragments' : List Bytes),
      (∀ p ∈ before, p.Framed ∧ p.command ≠ Command.stls.word) → q.Framed →
      checkHeader q maxPayload = false →
      fragments.flatten = (before ++ [q]).flatMap Apacket.encode ++ after →
      fragments'.flatten = before.flatMap Apacket.encode ++ after →
      readAll tls fragments = before ++ q :: readAll tls [after] ∧
      (delivered maxPayload (readThread tls fragments) =
          delivered maxPayload (readThread tls fragments') ↔
        q.command ≠ Command.stls.word ∨ delivered maxPayload (readThread tls [after]) = []) := by
  refine ⟨fun sends _ _ _ _ fit written hf => sends_arrive fit (hf ▸ written), ?_⟩
  intro maxPayload before q after fragments fragments' hb hq rejected stream stream'
  have framed : ∀ p ∈ before, p.Framed := fun p hp => (hb p hp).1
  have plain : ∀ p ∈ before, p.command ≠ Command.stls.word := fun p hp => (hb p hp).2
  have all : ∀ p ∈ before ++ [q], p.Framed :=
    List.forall_mem_append.mpr ⟨framed, List.forall_mem_singleton.mpr hq⟩
  have read := readAll_append tls _ all stream
  have read' := readAll_append tls _ framed stream'
  rw [List.append_assoc] at read
  refine ⟨read, ?_⟩
  rw [readThread, readThread, read, read', uptoStls_append _ _ plain, uptoStls_append _ _ plain,
    delivered, List.filter_append, delivered, List.filter_append, List.append_cancel_left_eq]
  show delivered maxPayload (uptoStls (q :: readAll tls [after])) =
    delivered maxPayload (readThread tls [after]) ↔ _
  rw [uptoStls, filter_rejected rejected]
  split
  case isTrue hs => exact ⟨fun h => .inr h.symm, fun h => (h.resolve_left (absurd hs)).symm⟩
  case isFalse hs => exact ⟨fun _ => .inl hs, fun _ => rfl⟩

section Samples

def sampleSends : List Send :=
  [{ version := aVersionMin, packet := .make .wrte 1 2 [200, 100] },
    { version := aVersion, announced := some 0, packet := { command := 7, arg0 := 3 } }]

def sampleAnswers : List Written :=
  [.elements 20, .again, .elements 0, .elements 4, .elements 1, .elements 1, .elements 24]

def sampleStream : Bytes :=
  (sampleSends.map Send.wire).flatMap Apacket.encode

-- A packet with a wrong magic number between two others.
def sampleRejected : Apacket :=
  { command := 7, magic := 7, dataLength := 1, payload := [0] }

theorem packets_read_back_sample :
    List.Forall₂ Send.Arrives sampleSends (readAll false [sampleStream.take 9, sampleStream.drop 9]) ∧
    delivered 4 (readThread true [sampleRejected.encode ++ sampleStream]) =
      delivered 4 (readThread true [sampleStream]) := by
  refine ⟨(packets_read_back_iff false).1 sampleSends sampleAnswers sampleStream [] _ (by decide)
    (by decide +kernel) (by decide +kernel), ?_⟩
  have k := (packets_read_back_iff true).2 4 [] sampleRejected sampleStream
    [sampleRejected.encode ++ sampleStream] [sampleStream] nofun ⟨by decide, by decide⟩ (by decide)
    (by simp) (by simp)
  exact k.2.mpr (.inl (by decide))

-- An `STLS` packet with a wrong magic number.
theorem rejected_stls_ends_reading : ∃ q : Apacket, q.Framed ∧ checkHeader q 4 = false ∧
    delivered 4 (readThread false [q.encode ++ sampleStream]) = [] ∧
    delivered 4 (readThread false [sampleStream]) = sampleSends.map Send.wire :=
  ⟨{ command := Command.stls.word }, ⟨by decide, by decide⟩, by decide, by decide +kernel,
    by decide +kernel⟩

end Samples

end FdConnection
