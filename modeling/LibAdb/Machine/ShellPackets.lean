import LibAdb.Machine.Shell

-- A packet that `ShellProtocol::Write` sends from a buffer.
structure ShellPacket where
  id   : UInt8
  data : Bytes
  fits : data.length < 0x100000000

namespace ShellProtocol

def write (x : ShellPacket) : Bytes :=
  x.id :: ((UInt32.ofNat x.data.length).toBytes ++ x.data)

def stream (packets : List ShellPacket) : Bytes :=
  packets.flatMap write

inductive Reads : ShellProtocol → Bytes → List ShellProtocol → ShellProtocol → Bytes → Prop
  | nil : Reads p fd [] p fd
  | cons (h : p.read fd = some (q, fd')) (hr : Reads q fd' pieces p' rest) :
    Reads p fd (q :: pieces) p' rest

variable {p p' q : ShellProtocol} {fd fd' rest data : Bytes} {x : ShellPacket}

theorem readData_append (h : p.readData fd = some (p', fd')) (tail : Bytes) :
    p.readData (fd ++ tail) = some (p', fd' ++ tail) := by
  simp only [readData, Option.ite_none_right_eq_some, Option.some.injEq, Prod.mk.injEq] at h ⊢
  obtain ⟨hl, rfl, rfl⟩ := h
  rw [List.take_append_of_le_length hl, List.drop_append_of_le_length hl, List.length_append]
  exact ⟨Nat.le_add_right_of_le hl, rfl, rfl⟩

theorem read_append (h : p.read fd = some (p', fd')) (tail : Bytes) :
    p.read (fd ++ tail) = some (p', fd' ++ tail) := by
  simp only [read] at h ⊢
  split at h
  case isTrue hb =>
    obtain ⟨⟨i, n, rest⟩, hh, hd⟩ := Option.bind_eq_some_iff.mp h
    rw [if_pos hb, readHeader_append hh]
    exact readData_append hd tail
  case isFalse hb =>
    rw [if_neg hb]
    exact readData_append h tail

namespace Reads

theorem append (h : Reads p fd pieces p' fd') (tail : Bytes) :
    Reads p (fd ++ tail) pieces p' (fd' ++ tail) := by
  induction h
  case nil => exact .nil
  case cons h _ hi => exact .cons (read_append h tail) hi

theorem trans (h : Reads p fd pieces q fd') (h' : Reads q fd' others p' rest) :
    Reads p fd (pieces ++ others) p' rest := by
  induction h
  case nil => exact h'
  case cons h _ hi => exact .cons h (hi h')

theorem snoc (h : Reads p fd pieces q fd') (h' : q.read fd' = some (p', rest)) :
    Reads p fd (pieces ++ [p']) p' rest :=
  h.trans (.cons h' .nil)

theorem later (h : Reads p fd pieces q fd') (h' : Reads p fd others p' rest)
    (hp : p'.read rest = none) : ∃ later, others = pieces ++ later ∧ Reads q fd' later p' rest := by
  induction h generalizing others
  case nil => exact ⟨others, rfl, h'⟩
  case cons h _ hi =>
    cases h'
    case nil => cases hp.symm.trans h
    case cons h' hr =>
      cases h.symm.trans h'
      have ⟨later, he, hl⟩ := hi hr
      exact ⟨later, congrArg _ he, hl⟩

theorem eq_nil (h : Reads p fd pieces p' rest) (hp : p.read fd = none) : pieces = [] := by
  cases h
  case nil => rfl
  case cons h _ => cases hp.symm.trans h

end Reads

theorem toNat_toBytes (n : UInt32) : n.toUInt8.toNat + 256 * (n >>> 8).toUInt8.toNat +
    65536 * (n >>> 16).toUInt8.toNat + 16777216 * (n >>> 24).toUInt8.toNat = n.toNat := by
  have lt := n.toNat_lt
  simp only [UInt32.toNat_toUInt8, UInt32.toNat_shiftRight, UInt32.reduceToNat, Nat.reduceMod,
    Nat.shiftRight_eq_div_pow, Nat.reducePow] at lt ⊢
  omega

theorem readHeader_write (x : ShellPacket) (rest : Bytes) :
    readHeader (write x ++ rest) = some (x.id, x.data.length, x.data ++ rest) := by
  have length : (UInt32.ofNat x.data.length).toNat = x.data.length :=
    UInt32.toNat_ofNat_of_lt' x.fits
  simp only [write, UInt32.toBytes, List.cons_append, List.nil_append, readHeader, toNat_toBytes,
    length]

-- What `data()` points to behind a packet: the first byte of its last piece, if it has data.
def left (capacity : Nat) (first : UInt8) (data : Bytes) : UInt8 :=
  (data.drop ((data.length - 1) / capacity * capacity)).headD first

structure Pieces (p : ShellProtocol) (data : Bytes) (pieces : List ShellProtocol)
    (p' : ShellProtocol) : Prop where
  concat   : (pieces.map (·.data)).flatten = data
  each     : ∀ q ∈ pieces, q.id = p.id ∧ q.data.length ≤ p.capacity
  last     : pieces.getLast? = some p'
  ends     : p'.bytesLeft = 0
  capacity : p'.capacity = p.capacity
  first    : p'.first = left p.capacity p.first data

theorem readData_last (hl : data.length = p.bytesLeft) (hc : p.bytesLeft ≤ p.capacity) :
    p.readData (data ++ rest) =
      some ({ p with bytesLeft := 0, data, first := data.headD p.first }, rest) := by
  simp [readData, Nat.min_eq_left (hl ▸ hc : data.length ≤ p.capacity), ← hl]

theorem readData_more (hl : data.length = p.bytesLeft) (hc : p.capacity < p.bytesLeft) :
    p.readData (data ++ rest) = some ({ p with
      bytesLeft := p.bytesLeft - p.capacity, data := data.take p.capacity,
      first := (data.take p.capacity).headD p.first }, data.drop p.capacity ++ rest) := by
  have hd : p.capacity ≤ data.length := by omega
  simp only [readData, Nat.min_eq_right (Nat.le_of_lt hc), List.length_append,
    List.take_append_of_le_length hd, List.drop_append_of_le_length hd]
  exact if_pos (by omega)

theorem left_of_le {b : UInt8} (hl : data.length ≤ n) : left n b data = data.headD b := by
  rw [left]
  cases data
  case nil => simp
  case cons c rest =>
    have : (c :: rest).length - 1 < n := by
      rw [List.length_cons] at hl ⊢
      omega
    rw [Nat.div_eq_of_lt this, Nat.zero_mul, List.drop_zero]

theorem left_drop {b b' : UInt8} (hn : 0 < n) (hl : n < data.length) :
    left n b (data.drop n) = left n b' data := by
  have length : (data.length - 1) / n = (data.length - n - 1) / n + 1 := by
    rw [← Nat.add_div_right _ hn]
    congr 1
    omega
  have lt : ((data.length - n - 1) / n + 1) * n < data.length := by
    have := Nat.div_mul_le_self (data.length - 1) n
    rw [length] at this
    omega
  rw [left, left, List.drop_drop, List.length_drop, length, Nat.add_comm n, ← Nat.succ_mul,
    List.drop_eq_getElem_cons lt]
  rfl

theorem readData_pieces (rest : Bytes) (hc : 0 < p.capacity ∨ data = [])
    (hl : data.length = p.bytesLeft) :
    ∃ q fd pieces p', p.readData (data ++ rest) = some (q, fd) ∧ Reads q fd pieces p' rest ∧
      Pieces p data (q :: pieces) p' := by
  induction hn : data.length using Nat.strong_induction_on generalizing p data
  rename_i n hi
  by_cases hb : p.bytesLeft ≤ p.capacity
  case pos =>
    refine ⟨_, _, [], _, readData_last hl hb, .nil, ?_⟩
    exact ⟨by simp, by simp [hl, hb], rfl, rfl, rfl, (left_of_le (hl ▸ hb)).symm⟩
  case neg =>
    have hc : 0 < p.capacity := by
      rcases hc with hc | rfl
      · exact hc
      · simp at hl
        omega
    have hd : p.capacity < data.length := by omega
    let q : ShellProtocol := { p with
      bytesLeft := p.bytesLeft - p.capacity, data := data.take p.capacity,
      first := (data.take p.capacity).headD p.first }
    have left : q.bytesLeft ≠ 0 := by
      simp only [q]
      omega
    have shorter : (data.drop p.capacity).length < n := by
      rw [List.length_drop]
      omega
    have ⟨r, fd, pieces, p', hr, reads, h⟩ := hi _ shorter (p := q) (.inl hc)
      (by rw [List.length_drop, hl]) rfl
    refine ⟨q, _, r :: pieces, p', readData_more hl (by omega), .cons ?_ reads, ?_⟩
    · rw [read, if_neg left]
      exact hr
    · refine ⟨?_, ?_, ?_, h.ends, h.capacity, h.first.trans (left_drop hc hd)⟩
      · rw [List.map_cons, List.flatten_cons, h.concat]
        exact List.take_append_drop ..
      · rintro x (_ | ⟨_, hx⟩)
        · exact ⟨rfl, List.length_take_le ..⟩
        · exact h.each x hx
      · exact h.last

theorem read_pieces (rest : Bytes) (hp : p.bytesLeft = 0) (hc : 0 < p.capacity ∨ x.data = []) :
    ∃ pieces p', Reads p (write x ++ rest) pieces p' rest ∧
      Pieces { p with id := x.id } x.data pieces p' := by
  have ⟨q, fd, pieces, p', h, reads, each⟩ := readData_pieces rest (p := { p with
    id := x.id, bytesLeft := x.data.length }) hc rfl
  refine ⟨_, _, .cons ?_ reads, ?_⟩
  · rw [read, if_pos hp, readHeader_write]
    exact h
  · exact ⟨each.concat, each.each, each.last, each.ends, each.capacity, each.first⟩

end ShellProtocol
