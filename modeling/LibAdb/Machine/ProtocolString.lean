import LibAdb.Execution.ProtocolString
import Mathlib.Data.Nat.Digits.Defs

def hexDigit (d : Nat) : UInt8 :=
  (Nat.digitChar d).toNat.toUInt8

theorem hexDigit_spec (hd : d < 16) : hexValue (hexDigit d) = some (UInt32.ofNat d) ∧
    hexDigit d ≠ 0 ∧ isSpace (hexDigit d) = false ∧ hexDigit d ≠ 43 ∧ hexDigit d ≠ 45 ∧
    hexDigit d ≠ 120 ∧ hexDigit d ≠ 88 := by
  have all : ∀ d : Fin 16, hexValue (hexDigit d) = some (UInt32.ofNat d) ∧
      hexDigit d ≠ 0 ∧ isSpace (hexDigit d) = false ∧ hexDigit d ≠ 43 ∧ hexDigit d ≠ 45 ∧
      hexDigit d ≠ 120 ∧ hexDigit d ≠ 88 := by decide
  exact all ⟨d, hd⟩

theorem toDigits_step (n : Nat) (h : 16 ≤ n) : (Nat.toDigits 16 n).map (·.toNat.toUInt8) =
    (Nat.toDigits 16 (n / 16)).map (·.toNat.toUInt8) ++ [hexDigit (n % 16)] := by
  rw [Nat.toDigits_of_base_le (by decide) h, List.map_append]
  rfl

theorem toDigits_last (n : Nat) (h : n < 16) :
    (Nat.toDigits 16 n).map (·.toNat.toUInt8) = [hexDigit n] := by
  rw [Nat.toDigits_of_lt_base h]
  rfl

theorem hexDigits_eq (h : n ≤ 0xffff) : hexDigits n =
    [hexDigit (n / 4096), hexDigit (n / 256 % 16), hexDigit (n / 16 % 16), hexDigit (n % 16)] := by
  have zero : hexDigit 0 = 48 := rfl
  have split : n / 16 / 16 = n / 256 ∧ n / 16 / 16 / 16 = n / 4096 := by omega
  rw [hexDigits]
  by_cases h₁ : n < 16
  case pos =>
    have parts : n / 4096 = 0 ∧ n / 256 % 16 = 0 ∧ n / 16 % 16 = 0 ∧ n % 16 = n := by omega
    rw [toDigits_last n h₁, parts.1, parts.2.1, parts.2.2.1, parts.2.2.2, zero]
    rfl
  rw [toDigits_step n (by omega)]
  by_cases h₂ : n < 256
  case pos =>
    have parts : n / 4096 = 0 ∧ n / 256 % 16 = 0 ∧ n / 16 % 16 = n / 16 := by omega
    rw [toDigits_last (n / 16) (by omega), parts.1, parts.2.1, parts.2.2, zero]
    rfl
  rw [toDigits_step (n / 16) (by omega)]
  by_cases h₃ : n < 4096
  case pos =>
    have parts : n / 4096 = 0 ∧ n / 256 % 16 = n / 256 := by omega
    rw [toDigits_last (n / 16 / 16) (by omega), split.1, parts.1, parts.2, zero]
    rfl
  rw [toDigits_step (n / 16 / 16) (by omega), toDigits_last (n / 16 / 16 / 16) (by omega), split.2,
    split.1]
  rfl

theorem length_hexDigits (h : n ≤ 0xffff) : (hexDigits n).length = 4 := by
  rw [hexDigits_eq h]
  rfl

theorem toNat_shift_or (x : UInt32) (hx : x.toNat < 0x1000000) (hd : d < 16) :
    (x <<< 4 ||| UInt32.ofNat d).toNat = 16 * x.toNat + d := by
  have digit : (UInt32.ofNat d).toNat = d := UInt32.toNat_ofNat_of_lt' (by
    show d < 4294967296
    omega)
  have shift : (x <<< 4).toNat = x.toNat <<< 4 := by
    rw [UInt32.toNat_shiftLeft]
    show x.toNat <<< 4 % 4294967296 = _
    rw [Nat.shiftLeft_eq]
    omega
  rw [UInt32.toNat_or, digit, shift, ← Nat.shiftLeft_add_eq_or_of_lt (by omega), Nat.shiftLeft_eq]
  omega

theorem unhex_hexDigits (h : n ≤ 0xffff) : (unhex (hexDigits n)).toNat = n := by
  have ⟨ha, _⟩ := hexDigit_spec (d := n / 4096) (by omega)
  have ⟨hb, _⟩ := hexDigit_spec (d := n / 256 % 16) (by omega)
  have ⟨hc, _⟩ := hexDigit_spec (d := n / 16 % 16) (by omega)
  have ⟨hd, _⟩ := hexDigit_spec (d := n % 16) (by omega)
  have first := toNat_shift_or 0 (by decide) (d := n / 4096) (by omega)
  have zero : (0 : UInt32).toNat = 0 := rfl
  rw [zero] at first
  have second := toNat_shift_or _ (by rw [first]; omega) (d := n / 256 % 16) (by omega)
  have third := toNat_shift_or _ (by rw [second, first]; omega) (d := n / 16 % 16) (by omega)
  have fourth := toNat_shift_or _ (by rw [third, second, first]; omega) (d := n % 16) (by omega)
  rw [hexDigits_eq h]
  simp only [unhex, List.foldlM_cons, List.foldlM_nil, ha, hb, hc, hd, Option.map_some,
    Option.bind_eq_bind, Option.bind_some, Option.pure_def, Option.getD_some]
  rw [fourth, third, second, first]
  omega

theorem strtoul_hexDigits (h : n ≤ 0xffff) : strtoul (hexDigits n) = n := by
  have ⟨va, za, sa, pa, ma, _, _⟩ := hexDigit_spec (d := n / 4096) (by omega)
  have ⟨vb, zb, _, _, _, xb, Xb⟩ := hexDigit_spec (d := n / 256 % 16) (by omega)
  have ⟨vc, zc, _⟩ := hexDigit_spec (d := n / 16 % 16) (by omega)
  have ⟨vd, zd, _⟩ := hexDigit_spec (d := n % 16) (by omega)
  have value (d : Nat) (hd : d < 16) : (UInt32.ofNat d).toNat = d := UInt32.toNat_ofNat_of_lt' (by
    show d < 4294967296
    omega)
  rw [hexDigits_eq h]
  generalize hexDigit (n / 4096) = a at *
  generalize hexDigit (n / 256 % 16) = b at *
  generalize hexDigit (n / 16 % 16) = c at *
  generalize hexDigit (n % 16) = d at *
  have buf : Bytes.cString [a, b, c, d] [] = [a, b, c, d] := by
    simp [Bytes.cString, za, zb, zc, zd]
  have spaces : [a, b, c, d].dropWhile isSpace = [a, b, c, d] := by simp [sa]
  have mark : skipHexPrefix [a, b, c, d] = [a, b, c, d] := by
    rw [skipHexPrefix.eq_def]
    split
    case h_1 he =>
      cases he
      simp [xb, Xb]
    case h_2 => rfl
  have number : hexNumber [a, b, c, d] = n := by
    simp only [hexNumber, List.map_cons, List.map_nil, va, vb, vc, vd, List.takeWhile_cons,
      Option.isSome_some, if_true, List.takeWhile_nil, List.foldl_cons, List.foldl_nil,
      Option.getD_some]
    rw [value _ (by omega), value _ (by omega), value _ (by omega), value _ (by omega)]
    omega
  simp [strtoul, buf, spaces, mark, number, pa, ma]

theorem hexValue_lt (c : UInt8) : ((hexValue c).getD 0).toNat < 16 := by
  have all : ∀ n : Fin 256, ((hexValue (UInt8.ofFin n)).getD 0).toNat < 16 := by decide +kernel
  exact all c.toFin

theorem foldl_lt (digits : List (Option UInt32)) (h : ∀ c ∈ digits, (c.getD 0).toNat < 16)
    (n : Nat) : digits.foldl (fun n c => 16 * n + (c.getD 0).toNat) n < (n + 1) * 16 ^ digits.length := by
  induction digits generalizing n
  case nil => simp
  case cons c digits hi =>
    have hc := h c (.head _)
    have step := hi (fun d hd => h d (.tail _ hd)) (16 * n + (c.getD 0).toNat)
    rw [List.foldl_cons, List.length_cons, Nat.pow_succ]
    calc _ < (16 * n + (c.getD 0).toNat + 1) * 16 ^ digits.length := step
      _ ≤ ((n + 1) * 16) * 16 ^ digits.length := Nat.mul_le_mul_right _ (by omega)
      _ = (n + 1) * (16 ^ digits.length * 16) := by rw [Nat.mul_assoc, Nat.mul_comm 16]

theorem hexNumber_lt (s : Bytes) : hexNumber s < 16 ^ s.length := by
  have digits : ∀ c ∈ (s.map hexValue).takeWhile Option.isSome, (c.getD 0).toNat < 16 := by
    intro c hc
    obtain ⟨b, -, rfl⟩ := List.mem_map.mp ((List.takeWhile_sublist _).subset hc)
    exact hexValue_lt b
  have short : ((s.map hexValue).takeWhile Option.isSome).length ≤ s.length := by
    have := (List.takeWhile_sublist Option.isSome (l := s.map hexValue)).length_le
    rwa [List.length_map] at this
  have bound := foldl_lt _ digits 0
  rw [Nat.zero_add, Nat.one_mul] at bound
  exact Nat.lt_of_lt_of_le bound (Nat.pow_le_pow_right (by decide) short)

theorem length_skipHexPrefix (s : Bytes) : (skipHexPrefix s).length ≤ s.length := by
  rw [skipHexPrefix.eq_def]
  split
  case h_1 =>
    split
    · simp only [List.length_cons]
      omega
    · exact Nat.le_refl _
  case h_2 => exact Nat.le_refl _

theorem strtoul_bound (h : buf.length = 4) :
    strtoul buf ≤ 0xffff ∨ strtoul buf > stringMaxSize := by
  have short : ((buf.cString []).dropWhile isSpace).length ≤ 4 := by
    rw [Bytes.cString, List.append_nil, ← h]
    exact Nat.le_trans (List.dropWhile_sublist isSpace).length_le
      (List.takeWhile_sublist (· != 0)).length_le
  have bound (s : Bytes) (hs : s.length ≤ 4) : hexNumber (skipHexPrefix s) < 0x10000 := by
    refine Nat.lt_of_lt_of_le (hexNumber_lt _) ?_
    exact Nat.pow_le_pow_right (j := 4) (by decide) (Nat.le_trans (length_skipHexPrefix s) hs)
  have tail := bound ((buf.cString []).dropWhile isSpace).tail
    (Nat.le_trans (List.tail_sublist _).length_le short)
  rw [strtoul]
  split
  case isTrue =>
    show (_ % 18446744073709551616 ≤ _) ∨ _ > 0x7fffffffffffffff
    omega
  case isFalse =>
    split
    · exact .inl (Nat.le_of_lt_succ tail)
    · exact .inl (Nat.le_of_lt_succ (bound _ short))

theorem sendProtocolString_eq (h : s.length ≤ 0xffff) :
    sendProtocolString s = some (hexDigits s.length ++ s) := by
  have small : s.length % 0x100000000 = s.length := Nat.mod_eq_of_lt (by omega)
  have fits : ¬s.length > Apacket.maxPayload - 4 := by
    show ¬s.length > 1048572
    omega
  rw [sendProtocolString, small, if_neg fits]

theorem deviceTrackerData_eq (h : s.length ≤ 0xffff) :
    deviceTrackerData s = hexDigits s.length ++ s := by
  have small : s.length % 0x100000000 = s.length := Nat.mod_eq_of_lt (by omega)
  rw [deviceTrackerData, small, List.take_of_length_le (Nat.le_of_eq (length_hexDigits h))]

theorem exactly_append {fragments : List Bytes} (hs : fragments.flatten = s ++ more) :
    ∃ rest, StreamReader.exactly s.length fragments = some (s, rest) ∧ rest.flatten = more := by
  refine (StreamReader.Computes.exactly s.length).of_spec ?_
  rw [hs, if_pos (by simp), List.take_left, List.drop_left]

theorem readProtocolString_eq {fragments : List Bytes} (h : s.length ≤ 0xffff)
    (hs : fragments.flatten = hexDigits s.length ++ s ++ following) :
    ∃ rest, readProtocolString fragments = .ok s rest ∧ rest.flatten = following := by
  rw [List.append_assoc] at hs
  obtain ⟨rest, hr, flat⟩ := exactly_append hs
  obtain ⟨rest', hr', flat'⟩ := exactly_append flat
  have small : ¬s.length > stringMaxSize := by
    show ¬s.length > 0x7fffffffffffffff
    omega
  rw [length_hexDigits h] at hr
  refine ⟨rest', ?_, flat'⟩
  simp only [readProtocolString, hr, strtoul_hexDigits h, if_neg small, hr']

theorem length_readProtocolString {fragments : List Bytes} (h : header.length = 4)
    (hs : fragments.flatten = header ++ more) (hr : readProtocolString fragments = .ok s rest) :
    s.length = strtoul header := by
  obtain ⟨fragments', hf, -⟩ := exactly_append hs
  rw [h] at hf
  simp only [readProtocolString, hf] at hr
  split at hr
  case isTrue => cases hr
  case isFalse =>
    split at hr
    case h_1 => cases hr
    case h_2 he =>
      cases hr
      exact StreamReader.Computes.length_exactly he
