import LibAdb.Execution.SocketSpec
import LibAdb.Objects.Install

namespace Bytes

theorem decimal_natCast (n : Nat) :
    decimal n = (Nat.toDigits 10 n).map (·.toNat.toUInt8) := by
  simp [decimal]

theorem digit_bounds {c : Char} (h : c.isDigit) : 48 ≤ c.toNat ∧ c.toNat ≤ 57 := by
  simp only [Char.isDigit, Bool.and_eq_true, decide_eq_true_eq] at h
  exact ⟨UInt32.le_iff_toNat_le.mp h.left, UInt32.le_iff_toNat_le.mp h.right⟩

theorem toNat_digit {c : Char} (h : c.isDigit) : c.toNat.toUInt8.toNat = c.toNat := by
  have bound : c.toNat < UInt8.size := Nat.lt_of_le_of_lt (digit_bounds h).right (by decide)
  exact UInt8.toNat_ofNat_of_lt' bound

theorem mem_decimal {n : Nat} (h : b ∈ decimal n) : 48 ≤ b.toNat ∧ b.toNat ≤ 57 := by
  rw [decimal_natCast] at h
  obtain ⟨c, hc, rfl⟩ := List.mem_map.mp h
  have digit := Nat.isDigit_of_mem_toDigits (by decide) (by decide) hc
  rw [toNat_digit digit]
  exact digit_bounds digit

theorem not_mem_decimal {b : UInt8} (hb : b ≠ 45) (hd : b.toNat < 48 ∨ 57 < b.toNat) (n : Int) :
    b ∉ decimal n := by
  intro h
  have digits : b ∉ decimal n.natAbs := fun h => by
    have := mem_decimal h
    omega
  rw [decimal_natCast] at digits
  rw [decimal] at h
  split at h
  case isTrue =>
    rcases List.mem_cons.mp h with h | h
    · exact hb h
    · exact digits h
  case isFalse => exact digits h

theorem beforeLast_append {dir name : Bytes} {c : UInt8} (h : c ∉ name) :
    (dir ++ [c] ++ name).beforeLast c = dir := by
  have other : ∀ d ∈ name.reverse, (d != c) = true := by
    rintro d hd
    exact bne_iff_ne.mpr fun he => h (he ▸ List.mem_reverse.mp hd)
  simp [beforeLast, List.dropWhile_append_of_pos other]

end Bytes

structure Spells (s : Bytes) (n : Nat) : Prop where
  nonempty : s ≠ []
  digits   : ∀ c ∈ s, isDigit c
  value    : s.foldl (fun n c => 10 * n + (c.toNat - 48)) 0 = n

theorem spells_decimal (n : Nat) : Spells (Bytes.decimal n) n where
  nonempty := by simp [Bytes.decimal_natCast]
  digits c hc := by
    have ⟨lo, hi⟩ := Bytes.mem_decimal hc
    simp only [isDigit, Bool.and_eq_true, decide_eq_true_eq, UInt8.le_iff_toNat_le]
    exact ⟨lo, hi⟩
  value := by
    have read := Nat.ofDigitChars_toDigits (b := 10) (n := n) (by decide) (by decide)
    have digit (m : Nat) (c : Char) (hc : c ∈ Nat.toDigits 10 n) :
        10 * m + (c.toNat.toUInt8.toNat - 48) = 10 * m + (c.toNat - 48) := by
      rw [Bytes.toNat_digit (Nat.isDigit_of_mem_toDigits (by decide) (by decide) hc)]
    rw [Bytes.decimal_natCast, List.foldl_map, List.foldl_ext _ _ _ digit]
    exact read

theorem isSpace_of_isDigit (h : isDigit c) : isSpace c = false ∧ c ≠ 43 ∧ c ≠ 45 ∧ c ≠ 0 := by
  have all : ∀ k : Fin 256, isDigit (UInt8.ofFin k) → isSpace (UInt8.ofFin k) = false ∧
    UInt8.ofFin k ≠ 43 ∧ UInt8.ofFin k ≠ 45 ∧ UInt8.ofFin k ≠ 0 := by decide +kernel
  exact all c.toFin h
