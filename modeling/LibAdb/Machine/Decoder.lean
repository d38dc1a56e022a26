import LibAdb.Execution.Decoder

namespace IOVector

theorem flatten_dropBlocks (n : Nat) (blocks : List Bytes) :
    (dropBlocks n blocks).flatten = blocks.flatten.drop n := by
  induction blocks generalizing n
  case nil => simp [dropBlocks]
  case cons block rest hi =>
    rw [dropBlocks, List.flatten_cons, List.drop_append]
    split
    case isTrue hn => simp [Nat.sub_eq_zero_of_le (Nat.le_of_lt hn)]
    case isFalse hn =>
      have gone : block.drop n = [] := List.drop_eq_nil_of_le (Nat.not_lt.mp hn)
      rw [hi, gone, List.nil_append]

variable {v v' : IOVector}

theorem dropFront_eq_some (h : v.dropFront n = some v') :
    n ≤ v.size ∧ v'.blocks.flatten = v.blocks.flatten.drop n := by
  rw [dropFront] at h
  split at h
  case isTrue hn =>
    cases h
    exact ⟨hn, flatten_dropBlocks ..⟩
  case isFalse => cases h

theorem flatten_append (v : IOVector) (block : Bytes) :
    (v.append block).blocks.flatten = v.blocks.flatten ++ block := by
  rw [append]
  split
  case isTrue hb => simp [hb]
  case isFalse => simp

end IOVector
