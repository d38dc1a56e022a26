import LibAdb.Execution.Operation

namespace ShellProtocol

variable {p p' : ShellProtocol} {fd fd' rest : Bytes} {i : UInt8}

theorem length_of_readHeader (h : readHeader fd = some (i, n, rest)) :
    fd.length = rest.length + 5 := by
  unfold readHeader at h
  split at h <;> cases h
  rfl

theorem readHeader_append (h : readHeader fd = some (i, n, rest)) (x : Bytes) :
    readHeader (fd ++ x) = some (i, n, rest ++ x) := by
  unfold readHeader at h
  split at h <;> cases h
  rfl

def exits (stream : Bytes) : Bool :=
  match _h : readHeader stream with
  | some (id, length, rest) => length ≤ rest.length && (id = 3 || exits (rest.drop length))
  | none => false
termination_by stream.length
decreasing_by
  have := length_of_readHeader _h
  simp only [List.length_drop]
  omega

theorem exits_of_header (h : readHeader fd = some (i, n, rest)) :
    exits fd = (n ≤ rest.length && (i = 3 || exits (rest.drop n))) := by
  rw [exits]
  split
  case h_1 h' =>
    cases h.symm.trans h'
    rfl
  case h_2 h' => cases h.symm.trans h'

theorem exits_of_none (h : readHeader fd = none) : exits fd = false := by
  rw [exits]
  split
  case h_1 h' => cases h.symm.trans h'
  case h_2 => rfl

theorem readData_drop (h : p.readData fd = some (p', fd')) (x : Bytes) :
    (fd' ++ x).drop p'.bytesLeft = (fd ++ x).drop p.bytesLeft := by
  simp only [readData, Option.ite_none_right_eq_some, Option.some.injEq, Prod.mk.injEq] at h
  obtain ⟨hl, rfl, rfl⟩ := h
  rw [← List.drop_append_of_le_length hl, List.drop_drop]
  congr 1
  exact Nat.add_sub_of_le (Nat.min_le_left ..)

theorem readData_id (h : p.readData fd = some (p', fd')) : p'.id = p.id := by
  simp only [readData, Option.ite_none_right_eq_some, Option.some.injEq, Prod.mk.injEq] at h
  obtain ⟨-, rfl, -⟩ := h
  rfl

theorem length_lt_of_readData (h : p.readData fd = none) : fd.length < p.bytesLeft := by
  simp only [readData, ite_eq_right_iff, reduceCtorEq, imp_false, Nat.not_le] at h
  exact Nat.lt_of_lt_of_le h (Nat.min_le_left ..)

theorem exits_of_read (h : p.read fd = some (p', fd')) (x : Bytes)
    (he : exits ((fd ++ x).drop p.bytesLeft)) :
    p'.id = 3 ∨ exits ((fd' ++ x).drop p'.bytesLeft) := by
  simp only [read] at h
  split at h
  case isTrue hb =>
    have ⟨⟨i, n, rest⟩, hh, hd⟩ := Option.bind_eq_some_iff.mp h
    rw [hb, List.drop_zero, exits_of_header (readHeader_append hh x)] at he
    simp only [Bool.and_eq_true, Bool.or_eq_true, decide_eq_true_eq] at he
    rw [readData_drop hd, readData_id hd]
    exact he.right
  case isFalse =>
    rw [readData_drop h]
    exact .inr he

theorem not_exits_of_read (h : p.read fd = none) : exits (fd.drop p.bytesLeft) = false := by
  simp only [read] at h
  split at h
  case isTrue hb =>
    rw [hb, List.drop_zero]
    cases hh : readHeader fd
    case none => exact exits_of_none hh
    case some =>
      have := length_lt_of_readData (Option.bind_eq_none_iff.mp h _ hh)
      rw [exits_of_header hh, decide_eq_false (Nat.not_le_of_lt this), Bool.false_and]
  case isFalse =>
    rw [List.drop_eq_nil_of_le (Nat.le_of_lt (length_lt_of_readData h))]
    exact exits_of_none rfl

end ShellProtocol

namespace AdbSession

variable {s s' : AdbSession}

-- The reader has met the exit packet of the stream, or it still stands in front of it. When the
-- exit code is set the stream is over and read.
structure Tracks (s : AdbSession) : Prop where
  pieces : s.promise = none → ∀ x, ShellProtocol.exits (s.received ++ x) →
    s.exited ∨ ShellProtocol.exits ((s.incoming ++ x).drop s.protocol.bytesLeft)
  promised : s.promise ≠ none → s.ended ∧ (ShellProtocol.exits s.received → s.exited)

theorem Tracks.fresh : Tracks { protocol := { first } } where
  pieces _ _ h := .inr h
  promised := nofun

theorem Tracks.ended (h : Tracks s) : Tracks { s with ended := true } where
  pieces := h.pieces
  promised hp := ⟨rfl, (h.promised hp).right⟩

theorem Tracks.aborted (h : Tracks s) : Tracks s.abort :=
  ⟨h.pieces, fun hp => ⟨rfl, (h.promised hp).right⟩⟩

theorem Tracks.receive (h : Tracks s) (hr : s.receive bytes = some s') : Tracks s' := by
  simp only [AdbSession.receive, Option.ite_none_left_eq_some, Option.some.injEq] at hr
  obtain ⟨he, rfl⟩ := hr
  refine ⟨fun hp x hx => ?_, fun hp => absurd (h.promised hp).left he⟩
  simp only [List.append_assoc] at hx ⊢
  exact h.pieces hp _ hx

theorem handle_frame (s : AdbSession) : s.handle.promise = s.promise ∧
    s.handle.received = s.received ∧ s.handle.incoming = s.incoming ∧
    s.handle.protocol = s.protocol := by
  unfold handle
  split
  · simp
  · split <;> simp

theorem handle_exited (s : AdbSession) : s.handle.exited = (s.exited || s.protocol.id = 3) := by
  unfold handle
  split
  case isTrue h =>
    have : s.protocol.id ≠ 3 := by
      intro he
      simp [he] at h
    simp [this]
  case isFalse => split <;> simp_all

theorem Tracks.handle (hp : s.promise = none) (h : ∀ x, ShellProtocol.exits (s.received ++ x) →
    s.exited ∨ s.protocol.id = 3 ∨
      ShellProtocol.exits ((s.incoming ++ x).drop s.protocol.bytesLeft)) : Tracks s.handle := by
  have ⟨promise, received, incoming, protocol⟩ := s.handle_frame
  refine ⟨fun _ x hx => ?_, fun hn => absurd (promise.trans hp) hn⟩
  rw [received] at hx
  rw [handle_exited, incoming, protocol, Bool.or_eq_true, decide_eq_true_eq, or_assoc]
  exact h x hx

theorem readerThread_frame (hr : s.readerThread = some s') : s'.v2 = s.v2 ∧ s'.ended = s.ended ∧
    s'.received = s.received ∧ (s.exited → s'.exited) := by
  have handled (s : AdbSession) : s.handle.v2 = s.v2 ∧ s.handle.ended = s.ended ∧
      s.handle.received = s.received ∧ (s.exited → s.handle.exited) := by
    rw [handle_exited]
    unfold AdbSession.handle
    split
    · simp_all
    · split <;> simp_all
  unfold readerThread at hr
  split at hr
  case isTrue => cases hr
  case isFalse =>
    split at hr
    case isTrue =>
      split at hr
      case h_1 =>
        cases hr
        exact handled _
      case h_2 =>
        split at hr <;> cases hr
        exact ⟨rfl, rfl, rfl, id⟩
    case isFalse =>
      split at hr
      case isTrue =>
        cases hr
        exact ⟨rfl, rfl, rfl, id⟩
      case isFalse =>
        split at hr <;> cases hr
        exact ⟨rfl, rfl, rfl, id⟩

theorem Tracks.read (h : Tracks s) (hv : s.v2) (hr : s.readerThread = some s') : Tracks s' := by
  simp only [readerThread, Option.ite_none_left_eq_some, Option.isNone_iff_eq_none,
    Bool.not_eq_true, Option.isSome_eq_false_iff] at hr
  obtain ⟨hp, hr⟩ := hr
  rw [if_pos hv] at hr
  split at hr
  case h_1 protocol incoming hread =>
    cases hr
    refine .handle hp fun x hx => (h.pieces hp x hx).imp_right ?_
    exact ShellProtocol.exits_of_read hread x
  case h_2 hread =>
    simp only [Option.ite_none_right_eq_some, Option.some.injEq] at hr
    obtain ⟨he, rfl⟩ := hr
    refine ⟨nofun, fun _ => ⟨he, fun hx => ?_⟩⟩
    have := h.pieces hp [] (by rwa [List.append_nil])
    rw [List.append_nil, ShellProtocol.not_exits_of_read hread] at this
    exact this.resolve_right Bool.false_ne_true

end AdbSession

namespace ShellPoint

variable {f : CancelFlag} {x : Option AdbSession} {point : ShellPoint}

inductive Moves (f : CancelFlag) (x : Option AdbSession) :
    ShellPoint → ShellPoint → Option AdbSession → Prop
  | started : Moves f x .start .check (some { v2, protocol := { first } })
  | refused (hr : r.status = .internal) : Moves f x .start (.done r) x
  | canceled (h : f.triggered) : Moves f x .check (.abort true) x
  | check (h : f.triggered = false) : Moves f x .check .slice x
  | expired : Moves f x .slice (.abort false) x
  | slice : Moves f x .slice .wait x
  | ready (hs : s ∈ x) (hp : s.promise ≠ none) : Moves f x .wait (.exited code) x
  | again : Moves f x .wait .check x
  | interrupted (h : f.triggered) : Moves f x (.exited code) .cancel x
  | exited (h : f.triggered = false) (hr : r.status = .ok) : Moves f x (.exited code) (.done r) x
  | abort : Moves f x (.abort true) .cancel (x.map AdbSession.abort)
  | timeout (hr : r.status = .commandTimeout) :
    Moves f x (.abort false) (.done r) (x.map AdbSession.abort)
  | cancel (hr : r.status = f.status) : Moves f x .cancel (.done r) x

theorem next_moves (h : ∀ r, point ≠ .done r) :
    Moves f x point (point.next options f env x).1 (point.next options f env x).2 := by
  cases point <;> simp only [next]
  case start =>
    split
    · exact .started
    · exact .refused rfl
  case check =>
    split
    case isTrue hf => exact .canceled hf
    case isFalse hf => exact .check (Bool.eq_false_iff.mpr hf)
  case slice =>
    split
    · exact .expired
    · exact .slice
  case wait =>
    split
    case h_1 hp =>
      have ⟨s, hs, hp⟩ := Option.bind_eq_some_iff.mp hp
      exact .ready hs (hp ▸ nofun)
    case h_2 => exact .again
  case exited =>
    split
    case isTrue hf => exact .interrupted hf
    case isFalse hf => exact .exited (Bool.eq_false_iff.mpr hf) rfl
  case abort canceled =>
    cases canceled
    · exact .timeout rfl
    · exact .abort
  case cancel => exact .cancel rfl
  case done r => exact absurd rfl (h r)

end ShellPoint

theorem Operation.nextShell_eq {j : Job} {point : ShellPoint} (h : ∀ r, point ≠ .done r) :
    nextShell j f env x point = (.shell (point.next (shellOptions j) f env x).1,
      (point.next (shellOptions j) f env x).2) := by
  cases point
  case done r => exact absurd rfl (h r)
  all_goals rfl
