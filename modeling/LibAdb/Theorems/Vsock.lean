import LibAdb.Execution.SocketSpec
import LibAdb.Machine.Decimal
import Mathlib.Data.List.TakeWhile

theorem hexValue_digit (h : isDigit c) :
    ∃ d, hexValue c = some d ∧ d.toNat = c.toNat - 48 ∧ d.toNat < 10 := by
  have ⟨lo, hi⟩ : 48 ≤ c ∧ c ≤ 57 := by simpa [isDigit] using h
  have wide : 48 ≤ c.toUInt32 := UInt32.le_iff_toNat_le.mpr (by simpa using UInt8.le_iff_toNat_le.mp lo)
  have value : (c.toUInt32 - 48).toNat = c.toNat - 48 := by
    rw [UInt32.toNat_sub_of_le _ _ wide, UInt8.toNat_toUInt32]
    rfl
  refine ⟨c.toUInt32 - 48, if_pos ⟨lo, hi⟩, value, ?_⟩
  have bound : c.toNat ≤ 57 := UInt8.le_iff_toNat_le.mp hi
  rw [value]
  omega

theorem digitsValue_spells (h : Spells s n) : digitsValue 10 s = some n := by
  have run (m : Nat) : s.foldlM (fun n c => (hexValue c).bind fun d =>
      if d.toNat < 10 then some (10 * n + d.toNat) else none) m =
        some (s.foldl (fun n c => 10 * n + (c.toNat - 48)) m) := by
    have digits := h.digits
    clear h
    induction s generalizing m
    case nil => rfl
    case cons c s hi =>
      rw [List.forall_mem_cons] at digits
      obtain ⟨d, hd, value, small⟩ := hexValue_digit digits.left
      rw [List.foldlM_cons, hd, List.foldl_cons, ← value]
      simp only [Option.bind_some, if_pos small]
      exact hi _ digits.right
  rw [digitsValue, if_neg h.nonempty, run, h.value]

theorem parseUnsigned_spells (h : Spells s n) (hn : n ≤ 0xffffffff) : parseUnsigned s = some n := by
  have plain : ∀ c ∈ s, (c != 0) = true := fun c hc =>
    bne_iff_ne.mpr (isSpace_of_isDigit (h.digits c hc)).right.right.right
  have text : Bytes.cString s [] = s := by
    rw [Bytes.cString, List.append_nil, List.takeWhile_eq_self_iff.mpr plain]
  have value := digitsValue_spells h
  have hex (x : UInt8) (hx : isDigit x = false) : ¬([48, x].isPrefixOf s) := by
    intro hp
    have inside := (List.isPrefixOf_iff_prefix.mp hp).subset (List.mem_cons_of_mem _ List.mem_cons_self)
    exact absurd (h.digits x inside) (by simp [hx])
  obtain ⟨c, rest, rfl⟩ := List.exists_cons_of_ne_nil h.nonempty
  have ⟨space, plus, _⟩ := isSpace_of_isDigit (h.digits c List.mem_cons_self)
  have first : (c :: rest).dropWhile isSpace = c :: rest :=
    List.dropWhile_cons_of_neg (by simp [space])
  have small : ¬((ascii "0x").isPrefixOf (c :: rest)) := hex 120 rfl
  have capital : ¬((ascii "0X").isPrefixOf (c :: rest)) := hex 88 rfl
  simp only [parseUnsigned, text, first, small, capital, Bool.or_false, Bool.false_eq_true, if_false]
  split
  case h_1 he => exact absurd (List.cons.inj he).left plus
  case h_2 => simp [value, hn]

theorem parseUnsigned_minus (s : Bytes) : parseUnsigned (45 :: s) = none := by
  have text : (Bytes.cString (45 :: s) []).dropWhile isSpace = 45 :: Bytes.cString s [] := by
    rw [Bytes.cString, List.cons_append, List.takeWhile_cons_of_pos rfl]
    exact List.dropWhile_cons_of_neg (by decide)
  rw [parseUnsigned, text]
  rfl

namespace Vsock

variable {v : Vsock} {address : Bytes} {port : Option Int32}

theorem isVsockSpec_serial (v : Vsock) : isVsockSpec v.serial := by
  rw [isVsockSpec, serial, List.isPrefixOf_iff_prefix, List.append_assoc, List.append_assoc]
  exact List.prefix_append ..

theorem splitOn_spec {cid port : Bytes} (hc : 58 ∉ cid) (hp : 58 ∉ port) :
    (ascii "vsock:" ++ cid ++ ascii ":" ++ port).splitOn 58 = [ascii "vsock", cid, port] := by
  have text : ascii "vsock:" ++ cid ++ ascii ":" ++ port =
      [58].intercalate [ascii "vsock", cid, port] := by
    simp [List.intercalate, ascii]
  rw [text, List.splitOn_intercalate 58 _ (by simp)]
  simp only [List.forall_mem_cons, List.not_mem_nil, IsEmpty.forall_iff, implies_true, and_true]
  exact ⟨by decide, hc, hp⟩

theorem parse_three {cid n : Bytes} (h : address.splitOn 58 = [kind, cid, n])
    (hc : parseUnsigned cid = some c) :
    parse address port = (parseUnsigned n).elim (.error (quoted "could not parse vsock port" address))
      fun n => if n = 0 then .error (ascii "vsock port was not provided.") else .ok ⟨c, n⟩ := by
  have parts : [kind, cid, n].length = 3 ∧ [kind, cid, n].getD 1 [] = cid ∧
    [kind, cid, n].getD 2 [] = n := ⟨rfl, rfl, rfl⟩
  simp only [parse, h, parts, hc, if_true]
  cases parseUnsigned n
  case none => rfl
  case some => rfl

theorem colon_not_mem_decimal (n : Int) : 58 ∉ Bytes.decimal n :=
  Bytes.not_mem_decimal (by decide) (by decide) n

theorem parseUnsigned_decimal {n : Nat} (h : n ≤ 0xffffffff) :
    parseUnsigned (Bytes.decimal n) = some n :=
  parseUnsigned_spells (spells_decimal n) h

theorem parseUnsigned_le (h : parseUnsigned s = some n) : n ≤ 0xffffffff := by
  have ⟨_, hn⟩ := Option.filter_eq_some_iff.mp h
  exact of_decide_eq_true hn

theorem bounds_of_parse (h : parse address port = .ok v) :
    v.cid ≤ 0xffffffff ∧ v.port ≤ 0xffffffff ∧ v.port ≠ 0 := by
  simp only [parse] at h
  split at h
  case isTrue => cases h
  case isFalse =>
    split at h
    case h_1 => cases h
    case h_2 hc =>
      split at h
      case h_1 => cases h
      case h_2 n hn =>
        split at h <;> cases h
        case isFalse h =>
          refine ⟨parseUnsigned_le hc, ?_, h⟩
          split at hn
          case isTrue => exact parseUnsigned_le hn
          case isFalse =>
            cases hn
            cases port
            case none => exact Nat.zero_le _
            case some p => exact Nat.le_of_lt_succ p.toUInt32.toNat_lt

-- A port above the range of an `int` is printed with a sign, which no reader takes for a port.
theorem serial_parse_iff (h : parse address port = .ok v) (other : Option Int32) :
    isVsockSpec v.serial ∧ (parse v.serial other = .ok v ↔ v.port < 0x80000000) ∧
    (0x80000000 ≤ v.port → parse v.serial other =
      .error (quoted "could not parse vsock port" v.serial)) := by
  obtain ⟨hc, hp, hn⟩ := bounds_of_parse h
  have parts : v.serial.splitOn 58 = [ascii "vsock", Bytes.decimal v.cid, _] :=
    splitOn_spec (colon_not_mem_decimal _) (colon_not_mem_decimal _)
  have read : parse v.serial other = _ := parse_three parts (parseUnsigned_decimal hc)
  have above (hi : 0x80000000 ≤ v.port) : parse v.serial other =
      .error (quoted "could not parse vsock port" v.serial) := by
    have negative : (v.port : Int).bmod 0x100000000 < 0 := by
      rw [Int.bmod]
      omega
    rw [read, Bytes.decimal, if_pos negative, parseUnsigned_minus]
    rfl
  refine ⟨isVsockSpec_serial v, ⟨fun ok => ?_, fun lt => ?_⟩, above⟩
  · by_contra hi
    cases (above (Nat.not_lt.mp hi)).symm.trans ok
  · have same : (v.port : Int).bmod 0x100000000 = v.port := by
      rw [Int.bmod]
      omega
    rw [read, same, parseUnsigned_decimal hp]
    exact if_neg hn

theorem serial_parses_back : parse (ascii "vsock:3:5555") none = .ok ⟨3, 5555⟩ ∧
    parse (serial ⟨3, 5555⟩) none = .ok ⟨3, 5555⟩ := by
  have accepted : parse (ascii "vsock:3:5555") none = .ok ⟨3, 5555⟩ := by decide +kernel
  exact ⟨accepted, (serial_parse_iff accepted none).right.left.mpr (by decide)⟩

theorem serial_of_high_port_refused :
    parse (ascii "vsock:2:2147483648") none = .ok ⟨2, 0x80000000⟩ ∧
    serial ⟨2, 0x80000000⟩ = ascii "vsock:2:-2147483648" ∧
    parse (ascii "vsock:2:-2147483648") none =
      .error (ascii "could not parse vsock port in 'vsock:2:-2147483648'") := by
  decide +kernel

end Vsock
