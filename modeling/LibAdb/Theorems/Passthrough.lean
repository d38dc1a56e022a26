import LibAdb.Execution.Incremental

namespace Incremental

-- The requests of a stream, and the stream without them.
def passthrough : Bytes → List Bytes × Bytes
  | [] => ([], [])
  | c :: rest =>
    if incr.isPrefixOf (c :: rest) ∧ requestSize + 4 ≤ (c :: rest).length then
      let (requests, text) := passthrough ((c :: rest).drop (requestSize + 4))
      (((c :: rest).drop 4).take requestSize :: requests, text)
    else
      let (requests, text) := passthrough rest
      (requests, c :: text)
termination_by bytes => bytes.length
decreasing_by
  all_goals simp only [List.length_drop, List.length_cons]
  all_goals omega

theorem passthrough_frame (hm : incr.isPrefixOf bytes) (hl : requestSize + 4 ≤ bytes.length) :
    passthrough bytes = (((bytes.drop 4).take requestSize) ::
      (passthrough (bytes.drop (requestSize + 4))).1,
      (passthrough (bytes.drop (requestSize + 4))).2) := by
  cases bytes
  case nil => simp at hl
  case cons c rest => rw [passthrough, if_pos ⟨hm, hl⟩]

theorem passthrough_text
    (h : ¬(incr.isPrefixOf (c :: rest) ∧ requestSize + 4 ≤ (c :: rest).length)) :
    passthrough (c :: rest) = ((passthrough rest).1, c :: (passthrough rest).2) := by
  rw [passthrough, if_neg h]

theorem passthrough_short (h : bytes.length < requestSize + 4) :
    passthrough bytes = ([], bytes) := by
  induction bytes
  case nil => rw [passthrough]
  case cons c rest hi =>
    rw [passthrough_text (by omega), hi (Nat.lt_of_succ_lt h)]

theorem isPrefixOf_append (more : Bytes) (h : 4 ≤ bytes.length) :
    incr.isPrefixOf (bytes ++ more) = incr.isPrefixOf bytes := by
  rw [Bool.eq_iff_iff, List.isPrefixOf_iff_prefix, List.isPrefixOf_iff_prefix]
  exact ⟨fun hp => List.prefix_of_prefix_length_le hp (List.prefix_append ..) h,
    fun hp => hp.trans (List.prefix_append ..)⟩

theorem passthrough_findMagic (bytes more : Bytes) :
    passthrough (bytes ++ more) = ((passthrough ((findMagic bytes).2 ++ more)).1,
      (findMagic bytes).1 ++ (passthrough ((findMagic bytes).2 ++ more)).2) := by
  induction bytes
  case nil => rfl
  case cons c rest hi =>
    rw [findMagic]
    split
    case isTrue => rfl
    case isFalse h =>
      simp only [Bool.or_eq_true, decide_eq_true_eq, not_or, Bool.not_eq_true] at h
      have plain := isPrefixOf_append more (show 4 ≤ (c :: rest).length by simp; omega)
      rw [h.2] at plain
      rw [List.cons_append, passthrough_text (by simp_all), hi]
      rfl

theorem findMagic_short (bytes : Bytes) :
    magicFound (findMagic bytes).2 ∨ (findMagic bytes).2.length ≤ 4 := by
  induction bytes
  case nil => exact .inr (Nat.zero_le _)
  case cons c rest hi =>
    rw [findMagic]
    split
    case isTrue h =>
      simp only [Bool.or_eq_true, decide_eq_true_eq] at h
      simp only [magicFound, Bool.and_eq_true, decide_eq_true_eq, List.length_cons]
      grind
    case isFalse => exact hi

-- What the scan keeps of the bytes that it has read: an unfinished frame, or the last four bytes.
def held : Bytes → Bytes
  | [] => []
  | c :: rest =>
    if rest.length < 4 then c :: rest
    else if incr.isPrefixOf (c :: rest) then
      if requestSize + 4 ≤ (c :: rest).length then held ((c :: rest).drop (requestSize + 4))
      else c :: rest
    else held rest
termination_by bytes => bytes.length
decreasing_by
  all_goals simp only [List.length_drop, List.length_cons]
  all_goals omega

theorem held_findMagic (bytes more : Bytes) :
    held (bytes ++ more) = held ((findMagic bytes).2 ++ more) := by
  induction bytes
  case nil => rfl
  case cons c rest hi =>
    rw [findMagic]
    split
    case isTrue => rfl
    case isFalse h =>
      simp only [Bool.or_eq_true, decide_eq_true_eq, not_or, Bool.not_eq_true] at h
      have plain := isPrefixOf_append more (show 4 ≤ (c :: rest).length by simp; omega)
      rw [h.2] at plain
      rw [← hi, List.cons_append, held, if_neg (by simp; omega), if_neg (by simp_all)]

theorem held_frame (hm : incr.isPrefixOf bytes) (hl : requestSize + 4 ≤ bytes.length) :
    held bytes = held (bytes.drop (requestSize + 4)) := by
  cases bytes
  case nil => simp at hl
  case cons c rest =>
    rw [held, if_neg (by simp [requestSize] at hl; omega), if_pos hm, if_pos hl]

theorem held_findMagic_short (h : (findMagic bytes).2.length < requestSize + 4) :
    held (findMagic bytes).2 = (findMagic bytes).2 := by
  have found := findMagic_short bytes
  cases hb : (findMagic bytes).2
  case nil => rw [held]
  case cons c rest =>
    rw [hb] at found h
    rw [held]
    split
    case isTrue => rfl
    case isFalse hr =>
      have found : magicFound (c :: rest) := found.resolve_right (by simp; omega)
      simp only [magicFound, Bool.and_eq_true] at found
      rw [if_pos found.2, if_neg (by omega)]

def Poll.bytes : Poll → Bytes
  | .ready data => data
  | _ => []

def stream (polls : List Poll) : Bytes :=
  polls.flatMap Poll.bytes

-- What a poll may find after the given bytes: it finds nothing only behind a frame or at the very
-- start, and never the end of the stream.
def Poll.Quiet (seen : Bytes) : Poll → Prop
  | .ready data => data ≠ []
  | _ => held seen = []

def Undisturbed (polls : List Poll) : Prop :=
  ∀ (i : Nat) (p : Poll), polls[i]? = some p → p.Quiet (stream (polls.take i))

theorem stream_snoc (polls : List Poll) (p : Poll) : stream (polls ++ [p]) = stream polls ++ p.bytes := by
  simp [stream]

theorem undisturbed_snoc (polls : List Poll) (p : Poll) :
    Undisturbed (polls ++ [p]) ↔ Undisturbed polls ∧ p.Quiet (stream polls) := by
  constructor
  case mp =>
    intro h
    refine ⟨fun i q hq => ?_, by simpa using h polls.length p (by simp)⟩
    have hi := (List.getElem?_eq_some_iff.mp hq).1
    have := h i q (by rw [List.getElem?_append_left hi, hq])
    rwa [List.take_append_of_le_length (Nat.le_of_lt hi)] at this
  case mpr =>
    rintro ⟨h, hp⟩ i q hq
    rcases Nat.lt_or_ge i polls.length with hi | hi
    case inl =>
      rw [List.getElem?_append_left hi] at hq
      rw [List.take_append_of_le_length (Nat.le_of_lt hi)]
      exact h i q hq
    case inr =>
      rw [List.getElem?_append_right hi, List.getElem?_singleton] at hq
      split at hq
      case isTrue hz =>
        cases hq
        rwa [show i = polls.length by omega, List.take_left]
      case isFalse => cases hq

namespace Channel

variable {c : Channel} {polls : List Poll}

def rest (c : Channel) : Bytes :=
  if c.ended then [] else c.buffer

-- The channel after the polls, before whatever may follow in the stream. What was copied twice or is
-- no part of the stream makes the output too long for good.
structure Seen (polls : List Poll) (c : Channel) : Prop where
  ended    : c.ended = false
  held     : ∀ more, held (c.buffer ++ more) = held (stream polls ++ more)
  requests : ∀ more, c.requests ++ (passthrough (c.buffer ++ more)).1 =
    (passthrough (stream polls ++ more)).1
  output   : Undisturbed polls → ∀ more, c.output ++ (passthrough (c.buffer ++ more)).2 =
    (passthrough (stream polls ++ more)).2
  excess   : ¬Undisturbed polls → ∀ more, (passthrough (stream polls ++ more)).2.length <
    c.output.length + (passthrough (c.buffer ++ more)).2.length

structure Exact (polls : List Poll) (c : Channel) : Prop where
  requests : c.requests ++ (passthrough c.rest).1 = (passthrough (stream polls)).1
  output   : c.output ++ (passthrough c.rest).2 = (passthrough (stream polls)).2 ↔ Undisturbed polls

section Turns

theorem Seen.length_le (h : Seen polls c) (more : Bytes) : (passthrough (stream polls ++ more)).2.length ≤
    c.output.length + (passthrough (c.buffer ++ more)).2.length := by
  by_cases hu : Undisturbed polls
  case pos => rw [← h.output hu more, List.length_append]
  case neg => exact Nat.le_of_lt (h.excess hu more)

theorem Seen.exact (h : Seen polls c) : Exact polls c := by
  have requests := h.requests []
  have output (hu) := h.output hu []
  have excess (hu) := h.excess hu []
  simp only [List.append_nil] at requests output excess
  constructor
  all_goals rw [Channel.rest, h.ended]
  case requests => exact requests
  case output =>
    refine ⟨fun he => ?_, output⟩
    by_contra hu
    have := excess hu
    rw [← he, List.length_append] at this
    exact Nat.lt_irrefl _ this

theorem Seen.scan (h : Seen polls c) : Seen polls { c with
    output := c.output ++ (findMagic c.buffer).1
    buffer := (findMagic c.buffer).2 } where
  ended := h.ended
  held more := by rw [← h.held more, held_findMagic c.buffer]
  requests more := by rw [← h.requests more, passthrough_findMagic c.buffer]
  output hu more := by rw [← h.output hu more, passthrough_findMagic c.buffer, List.append_assoc]
  excess hu more := by
    have := h.excess hu more
    rw [passthrough_findMagic c.buffer, List.length_append] at this
    rwa [List.length_append, Nat.add_assoc]

theorem Seen.frame (h : Seen polls c) (hm : magicFound c.buffer)
    (hl : requestSize + 4 ≤ c.buffer.length) : Seen polls { c with
      requests := c.requests ++ [(c.buffer.drop 4).take requestSize]
      buffer   := c.buffer.drop (requestSize + 4) } := by
  simp only [magicFound, Bool.and_eq_true, decide_eq_true_eq] at hm
  have whole (more : Bytes) : incr.isPrefixOf (c.buffer ++ more) := by
    rw [isPrefixOf_append _ (Nat.le_of_lt hm.1)]
    exact hm.2
  have long (more : Bytes) : requestSize + 4 ≤ (c.buffer ++ more).length := by
    rw [List.length_append]
    exact Nat.le_add_right_of_le hl
  have payload (more : Bytes) : ((c.buffer ++ more).drop 4).take requestSize =
      (c.buffer.drop 4).take requestSize := by
    rw [List.drop_append_of_le_length (Nat.le_of_lt hm.1), List.take_append_of_le_length]
    rw [List.length_drop]
    exact Nat.le_sub_of_add_le hl
  have text (more : Bytes) := passthrough_frame (whole more) (long more)
  simp only [payload, List.drop_append_of_le_length hl] at text
  constructor
  case ended => exact h.ended
  case held =>
    intro more
    rw [← h.held more, held_frame (whole more) (long more), List.drop_append_of_le_length hl]
  case requests =>
    intro more
    rw [← h.requests more, text, List.append_assoc]
    rfl
  case output =>
    intro hu more
    rw [← h.output hu more, text]
  case excess =>
    intro hu more
    have := h.excess hu more
    rwa [text] at this

theorem Seen.read (h : Seen polls c) (hd : data ≠ []) :
    Seen (polls ++ [.ready data]) { c with buffer := c.buffer ++ data } := by
  have quiet : Undisturbed (polls ++ [.ready data]) ↔ Undisturbed polls := by
    rw [undisturbed_snoc, and_iff_left]
    exact hd
  constructor
  case ended => exact h.ended
  all_goals rw [stream_snoc, Poll.bytes]
  case held => simpa using fun more => h.held (data ++ more)
  case requests => simpa using fun more => h.requests (data ++ more)
  case output => simpa [quiet] using fun hu more => h.output hu (data ++ more)
  case excess => simpa [quiet] using fun hu more => h.excess hu (data ++ more)

theorem Seen.wait (h : Seen polls c) (hb : Incremental.held c.buffer = c.buffer) (hp : p.bytes = [])
    (hq : p.Quiet (stream polls) ↔ Incremental.held (stream polls) = []) :
    Seen (polls ++ [p]) { c with output := c.output ++ c.buffer } := by
  have same := h.held []
  rw [List.append_nil, List.append_nil, hb] at same
  constructor
  case ended => exact h.ended
  all_goals rw [stream_snoc, hp, List.append_nil]
  case held => exact h.held
  case requests => exact h.requests
  case output =>
    rw [undisturbed_snoc, hq, ← same]
    rintro ⟨hu, empty⟩ more
    dsimp only
    rw [empty, List.append_nil, ← h.output hu more, empty]
  case excess =>
    rw [undisturbed_snoc, hq, ← same, not_and]
    intro hu more
    dsimp only
    rw [List.length_append]
    by_cases hu' : Undisturbed polls
    case pos =>
      have := List.length_pos_iff.mpr (hu hu')
      have := h.length_le more
      omega
    case neg =>
      have := h.excess hu' more
      omega

theorem Seen.close (h : Seen polls c) (hl : c.buffer.length < requestSize + 4) :
    Exact (polls ++ [.ready []]) { c with
      output := c.output ++ (c.buffer ++ List.replicate (readBufferSize - c.buffer.length) 0)
      buffer := c.buffer ++ List.replicate (readBufferSize - c.buffer.length) 0
      ended  := true } := by
  have requests := h.requests []
  have bound := h.length_le []
  rw [List.append_nil, List.append_nil, passthrough_short hl] at requests bound
  have never : ¬Undisturbed (polls ++ [.ready []]) := by
    rw [undisturbed_snoc]
    exact fun hu => hu.2 rfl
  constructor
  all_goals
    rw [stream_snoc, Poll.bytes, List.append_nil, Channel.rest, if_pos rfl, passthrough]
  case requests => exact requests
  case output =>
    refine ⟨fun he => ?_, fun hu => absurd hu never⟩
    have := congrArg List.length he
    simp only [List.length_append, List.length_replicate, List.length_nil] at this bound
    simp only [readBufferSize, requestSize] at *
    omega

theorem Seen.skipToRequest (h : Seen done c) (polls : List Poll) :
    ∃ made, polls = made ++ (c.skipToRequest polls).2.1 ∧
      Exact (done ++ made) (c.skipToRequest polls).2.2 ∧
      ((c.skipToRequest polls).1 → Seen (done ++ made) (c.skipToRequest polls).2.2) := by
  induction polls generalizing c done
  all_goals
    have scanned := h.scan
    rw [Channel.skipToRequest]
    dsimp only
    split
  case nil.isTrue hf | cons.isTrue hf =>
    simp only [Bool.and_eq_true, decide_eq_true_eq] at hf
    have framed := scanned.frame hf.1 hf.2
    refine ⟨[], rfl, ?_⟩
    rw [List.append_nil]
    exact ⟨framed.exact, fun _ => framed⟩
  case nil.isFalse =>
    refine ⟨[], rfl, ?_, nofun⟩
    rw [List.append_nil]
    exact scanned.exact
  case cons.isFalse p polls hi hf =>
    have short : (findMagic c.buffer).2.length < requestSize + 4 := by
      have := findMagic_short c.buffer
      simp only [Bool.and_eq_true, decide_eq_true_eq, not_and] at hf
      simp only [requestSize] at *
      grind
    have kept := held_findMagic_short short
    cases p
    case ready data =>
      dsimp only
      split
      case isTrue hd =>
        cases hd
        exact ⟨[.ready []], rfl, scanned.close short, nofun⟩
      case isFalse hd =>
        obtain ⟨made, hp, exact, seen⟩ := hi (scanned.read hd)
        rw [List.append_assoc] at exact seen
        exact ⟨.ready data :: made, congrArg _ hp, exact, seen⟩
    case timeout quits =>
      have waited := scanned.wait (p := .timeout quits) kept rfl Iff.rfl
      exact ⟨[.timeout quits], rfl, waited.exact, fun _ => waited⟩
    case failed =>
      have waited := scanned.wait (p := .failed) kept rfl Iff.rfl
      exact ⟨[.failed], rfl, waited.exact, nofun⟩

theorem Seen.serve (h : Seen done c) (calls : Nat) (polls : List Poll) :
    ∃ made, polls = made ++ (c.serve calls polls).1 ∧
      Exact (done ++ made) (c.serve calls polls).2 := by
  induction calls generalizing c done polls
  case zero =>
    refine ⟨[], rfl, ?_⟩
    rw [List.append_nil]
    exact h.exact
  case succ calls hi =>
    obtain ⟨made, hp, exact, seen⟩ := h.skipToRequest polls
    rw [Channel.serve]
    dsimp only
    split
    case isTrue hm =>
      obtain ⟨made', hp', exact'⟩ := hi (seen hm) (c.skipToRequest polls).2.1
      refine ⟨made ++ made', ?_, List.append_assoc .. ▸ exact'⟩
      rw [List.append_assoc, ← hp', ← hp]
    case isFalse => exact ⟨made, hp, exact⟩

end Turns

-- A frame in two pieces, with nothing to read before it and behind it.
def pieces : List Poll :=
  [.timeout false, .ready (ascii "aINCR1"), .ready (ascii "2345678"), .timeout false,
    .ready (ascii "bc")]

end Channel

end Incremental
