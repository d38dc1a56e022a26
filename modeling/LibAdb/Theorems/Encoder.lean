import LibAdb.Execution.Encoder
import Mathlib.Data.List.Basic

namespace FileSync

section Draining

variable {σ : Type} {encoder : Encoder σ}

theorem drainEncoder_congr (h : encoder.encode e = encoder.encode e') (n : Nat) :
    drainEncoder encoder n e = drainEncoder encoder n e' := by
  cases n
  case zero => rfl
  case succ n => rw [drainEncoder, drainEncoder, h]

theorem drainEncoder_more (h : encoder.encode e = some (.moreOutput, block, e'))
    (run : drainEncoder encoder n e' = some (done, blocks, e'')) :
    drainEncoder encoder (n + 1) e = some (done, block :: blocks, e'') := by
  simp [drainEncoder, h, run]

theorem drainEncoder_last
    (h : encoder.encode e = some (if done then .done else .needInput, block, e')) :
    drainEncoder encoder (n + 1) e = some (done, [block], e') := by
  cases done <;> simp [drainEncoder, h]

end Draining

namespace NullEncoder

theorem drain (e : NullEncoder) (hn : e.input.length < n) : ∃ blocks,
    drainEncoder nullEncoder n e = some (e.finished, blocks, { e with input := [] }) ∧
      blocks.flatten = e.input ∧ ∀ b ∈ blocks, b.length ≤ syncDataMax := by
  induction n generalizing e
  case zero => cases hn
  case succ n hi =>
    by_cases hr : e.input.drop syncDataMax = []
    case pos =>
      have short : e.input.length ≤ syncDataMax := List.drop_eq_nil_iff.mp hr
      refine ⟨[e.input], drainEncoder_last ?_, List.append_nil _, by simpa using short⟩
      simp [nullEncoder, encode, short, List.take_of_length_le short]
    case neg =>
      have long : syncDataMax < e.input.length := by simpa using hr
      obtain ⟨blocks, run, whole, small⟩ := hi { e with input := e.input.drop syncDataMax } (by
        have : 0 < syncDataMax := by decide
        rw [List.length_drop]
        omega)
      refine ⟨e.input.take syncDataMax :: blocks, drainEncoder_more ?_ run, ?_, ?_⟩
      · simp [nullEncoder, encode, long]
      · rw [List.flatten_cons, whole, List.take_append_drop]
      · exact List.forall_mem_cons.mpr ⟨List.length_take_le .., small⟩

theorem encodeReads_lossless (reads : List Bytes) (hn : ∀ r ∈ reads, r.length < n) (h0 : 0 < n) :
    ∃ blocks, encodeReads nullEncoder n reads {} = some (blocks, { finished := true }) ∧
      blocks.flatten = reads.flatten ∧ ∀ b ∈ blocks, b.length ≤ syncDataMax := by
  induction reads
  case nil =>
    obtain ⟨blocks, run, whole, small⟩ := drain { finished := true } h0
    refine ⟨blocks, ?_, whole, small⟩
    rw [encodeReads]
    exact congrArg (Option.bind · _) run
  case cons read reads hi =>
    obtain ⟨blocks, run, whole, small⟩ := drain { input := read } (hn read (.head _))
    obtain ⟨more, runs, wholes, smalls⟩ := hi fun r hr => hn r (.tail _ hr)
    refine ⟨blocks ++ more, ?_, ?_, List.forall_mem_append.mpr ⟨small, smalls⟩⟩
    · rw [encodeReads]
      refine (congrArg (Option.bind · _) run).trans ?_
      exact congrArg (Option.bind · _) runs
    · rw [List.flatten_append, whole, wholes]
      rfl

end NullEncoder

def Compressor.updates (codec : Compressor) (s : codec.State) :
    List Bytes → Option (List Bytes × codec.State)
  | [] => some ([], s)
  | input :: inputs => do
    let (output, s) ← codec.update s input
    let (outputs, s) ← codec.updates s inputs
    return (output :: outputs, s)

namespace LZ4Encoder

variable {codec : Compressor} {e : LZ4Encoder codec}

theorem encode_eq (hi : e.input = []) (hf : (e.finished && !e.finalized) = false) :
    e.encode = some e.takeOutput := by
  have final : e.finalize = some e := by
    rw [finalize, hf]
    rfl
  rw [encode, compress, hi]
  simp [final]

theorem drain_open (e : LZ4Encoder codec) (hi : e.input = []) (hf : e.finished = false)
    (hz : e.finalized = false) (hn : e.output.length < n) : ∃ blocks rest,
    drainEncoder (lz4Encoder codec) n e = some (false, blocks, { e with output := rest }) ∧
      blocks.flatten ++ rest = e.output ∧ ∀ b ∈ blocks, b = [] ∨ b.length = syncDataMax := by
  have positive : 0 < syncDataMax := by decide
  induction n generalizing e
  case zero => cases hn
  case succ n ih =>
    have encoded := encode_eq hi (show (e.finished && !e.finalized) = false by rw [hf]; rfl)
    by_cases hl : syncDataMax ≤ e.output.length
    case neg =>
      refine ⟨[[]], e.output, drainEncoder_last (encoded.trans ?_), rfl, by simp⟩
      simp [takeOutput, outputReady, hz, hl]
    case pos =>
      have length : (e.output.take syncDataMax).length = syncDataMax := by
        rw [List.length_take, Nat.min_eq_left hl]
      by_cases hm : syncDataMax ≤ e.output.length - syncDataMax
      case neg =>
        refine ⟨[e.output.take syncDataMax], e.output.drop syncDataMax,
          drainEncoder_last (encoded.trans ?_), by simp, by simp [length]⟩
        simp [takeOutput, outputReady, hz, hl, hm]
      case pos =>
        obtain ⟨blocks, rest, run, whole, even⟩ :=
          ih { e with output := e.output.drop syncDataMax } hi hf hz (by
            rw [List.length_drop]
            omega)
        refine ⟨e.output.take syncDataMax :: blocks, rest,
          drainEncoder_more (encoded.trans ?_) run, ?_, ?_⟩
        · simp [takeOutput, outputReady, hz, hl, hm]
        · rw [List.flatten_cons, List.append_assoc, whole, List.take_append_drop]
        · exact List.forall_mem_cons.mpr ⟨.inr length, even⟩

theorem drain_final (e : LZ4Encoder codec) (hi : e.input = []) (hz : e.finalized = true)
    (hn : e.output.length < n) : ∃ blocks,
    drainEncoder (lz4Encoder codec) n e = some (true, blocks, { e with output := [] }) ∧
      blocks.flatten = e.output ∧ (∀ b ∈ blocks, b.length ≤ syncDataMax) ∧
      ∀ b ∈ blocks.dropLast, b = [] ∨ b.length = syncDataMax := by
  have positive : 0 < syncDataMax := by decide
  induction n generalizing e
  case zero => cases hn
  case succ n ih =>
    have encoded := encode_eq hi (show (e.finished && !e.finalized) = false by simp [hz])
    by_cases hl : e.output.length ≤ syncDataMax
    case pos =>
      refine ⟨[e.output], drainEncoder_last (encoded.trans ?_), by simp, by simpa using hl, by simp⟩
      simp [takeOutput, outputReady, hz, Nat.min_eq_right hl]
    case neg =>
      have hl : syncDataMax < e.output.length := Nat.lt_of_not_le hl
      have full : min syncDataMax e.output.length = syncDataMax := Nat.min_eq_left hl.le
      obtain ⟨blocks, run, whole, small, even⟩ :=
        ih { e with output := e.output.drop syncDataMax } hi hz (by
          rw [List.length_drop]
          omega)
      have some : blocks ≠ [] := by
        rintro rfl
        exact absurd whole.symm (by simpa using hl)
      refine ⟨e.output.take syncDataMax :: blocks, drainEncoder_more (encoded.trans ?_) run,
        ?_, ?_, ?_⟩
      · simp [takeOutput, outputReady, hz, full, hl]
      · rw [List.flatten_cons, whole, List.take_append_drop]
      · exact List.forall_mem_cons.mpr ⟨List.length_take_le .., small⟩
      · rw [List.dropLast_cons_of_ne_nil some]
        exact List.forall_mem_cons.mpr ⟨.inr (by rw [List.length_take, full]), even⟩

theorem encodeReads_lossless (reads : List Bytes) (output : Bytes) (state : codec.State)
    (hr : ∀ r ∈ reads, r ≠ [] ∧ r.length ≤ syncDataMax)
    (hu : codec.updates state reads = some (outputs, s)) (ht : codec.finish s = some tail)
    (hn : (output ++ outputs.flatten ++ tail).length < n) :
    ∃ blocks, encodeReads (lz4Encoder codec) n reads { output, state } = some (blocks,
        { finished := true, finalized := true, output := [], state := s }) ∧
      blocks.flatten = output ++ outputs.flatten ++ tail ∧
      (∀ b ∈ blocks, b.length ≤ syncDataMax) ∧
      ∀ b ∈ blocks.dropLast, b = [] ∨ b.length = syncDataMax := by
  induction reads generalizing output state outputs
  case nil =>
    cases hu
    let ended : LZ4Encoder codec :=
      { finished := true, finalized := true, output := output ++ tail, state := s }
    have encoded : (lz4Encoder codec).encode { finished := true, output, state := s } =
        (lz4Encoder codec).encode ended := by
      refine Eq.trans ?_ (encode_eq (e := ended) rfl rfl).symm
      simp [lz4Encoder, encode, compress, finalize, ht, ended]
    obtain ⟨blocks, run, whole, small, even⟩ := drain_final ended rfl rfl (n := n)
      (by simpa [ended] using hn)
    refine ⟨blocks, ?_, by simpa [ended] using whole, small, even⟩
    rw [encodeReads]
    exact congrArg (Option.bind · _) ((drainEncoder_congr encoded n).trans run)
  case cons read reads ih =>
    simp only [Compressor.updates, Option.bind_eq_bind, Option.bind_eq_some_iff, Option.pure_def,
      Option.some.injEq, Prod.mk.injEq] at hu
    obtain ⟨⟨bytes, s₁⟩, hu, ⟨outputs, s₂⟩, hus, rfl, rfl⟩ := hu
    obtain ⟨⟨nonempty, fits⟩, hr⟩ := List.forall_mem_cons.mp hr
    let fed : LZ4Encoder codec := { output := output ++ bytes, state := s₁ }
    have encoded : (lz4Encoder codec).encode { output, state, input := [read] } =
        (lz4Encoder codec).encode fed := by
      have first : read.take maxInputSize = read := List.take_of_length_le fits
      have none : read.drop maxInputSize = [] := List.drop_eq_nil_of_le fits
      refine Eq.trans ?_ (encode_eq (e := fed) rfl rfl).symm
      simp [lz4Encoder, encode, compress, finalize, first, none, hu, fed]
    have total : (output ++ bytes).length + outputs.flatten.length + tail.length < n := by
      simpa [Nat.add_assoc] using hn
    obtain ⟨blocks, rest, run, whole, even⟩ := drain_open fed rfl rfl rfl (n := n) (by
      simp only [fed]
      omega)
    have shorter : rest.length ≤ (output ++ bytes).length := by
      have := congrArg List.length whole
      rw [List.length_append] at this
      exact this ▸ Nat.le_add_left ..
    obtain ⟨more, runs, wholes, smalls, evens⟩ := ih rest s₁ hr hus (by
      simp only [List.length_append] at total shorter ⊢
      omega)
    refine ⟨blocks ++ more, ?_, ?_, List.forall_mem_append.mpr ⟨fun b hb => ?_, smalls⟩, ?_⟩
    · rw [encodeReads]
      refine (congrArg (Option.bind · _) ((drainEncoder_congr encoded n).trans run)).trans ?_
      exact congrArg (Option.bind · _) runs
    · rw [List.flatten_append, wholes, ← List.append_assoc, ← List.append_assoc, whole]
      simp [fed]
    · obtain rfl | hl := even b hb
      · exact Nat.zero_le _
      · exact Nat.le_of_eq hl
    · by_cases he : more = []
      case pos =>
        rw [he, List.append_nil]
        exact fun b hb => even b (List.dropLast_subset _ hb)
      case neg =>
        rw [List.dropLast_append_of_ne_nil he]
        exact List.forall_mem_append.mpr ⟨even, evens⟩

end LZ4Encoder

theorem encoders_lossless (codec : Compressor) (reads outputs : List Bytes) (s : codec.State)
    (tail : Bytes) (hr : ∀ r ∈ reads, r ≠ [] ∧ r.length ≤ syncDataMax)
    (hu : codec.updates codec.start reads = some (outputs, s)) (ht : codec.finish s = some tail) :
    ∃ n, ∀ m, n ≤ m →
      (∃ blocks, encodeReads nullEncoder m reads {} = some (blocks, { finished := true }) ∧
        blocks.flatten = reads.flatten ∧ ∀ b ∈ blocks, b.length ≤ syncDataMax) ∧
      ∃ blocks, encodeReads (lz4Encoder codec) m reads {} = some (blocks,
          { finished := true, finalized := true, output := [], state := s }) ∧
        blocks.flatten = codec.begin ++ outputs.flatten ++ tail ∧
        (∀ b ∈ blocks, b.length ≤ syncDataMax) ∧
        ∀ b ∈ blocks.dropLast, b = [] ∨ b.length = syncDataMax := by
  refine ⟨syncDataMax + (codec.begin ++ outputs.flatten ++ tail).length + 1, fun m hm => ⟨?_, ?_⟩⟩
  · exact NullEncoder.encodeReads_lossless reads (fun r h => by
      have := (hr r h).2
      omega) (by omega)
  · exact LZ4Encoder.encodeReads_lossless reads _ _ hr hu ht (by omega)

def echo : Compressor where
  State      := Nat
  start      := 0
  begin      := ascii "<"
  update n b := some (b.flatMap fun c => [c, c], n + b.length)
  finish _   := some (ascii ">")

theorem encoders_lossless_echo : ∃ n, ∀ m, n ≤ m → ∃ blocks,
    encodeReads (lz4Encoder echo) m [ascii "ab", ascii "c"] {} = some (blocks,
      { finished := true, finalized := true, output := [], state := (3 : Nat) }) ∧
    blocks.flatten = ascii "<aabbcc>" := by
  obtain ⟨n, hn⟩ := encoders_lossless echo [ascii "ab", ascii "c"]
    [ascii "aabb", ascii "cc"] (3 : Nat) (ascii ">") (by decide) rfl rfl
  refine ⟨n, fun m hm => ?_⟩
  obtain ⟨-, blocks, run, whole, -⟩ := hn m hm
  exact ⟨blocks, run, whole⟩

end FileSync
