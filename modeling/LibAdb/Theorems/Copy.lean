import LibAdb.Execution.Install

namespace Installer

def CopyRound.size (r : CopyRound) : Nat :=
  r.read.elim 0 fun n => min (n + 1) copyBufferSize

-- Every write takes all of the block that its round reads.
def Lossless : List CopyRound → Bytes → Prop
  | [], _ => True
  | r :: rounds, input =>
    (input.take r.size).length ≤ r.write.getD 0 ∧ Lossless rounds (input.drop r.size)

theorem lossless_nil (rounds : List CopyRound) : Lossless rounds [] := by
  induction rounds
  case nil => trivial
  case cons r rounds hi => simpa [Lossless] using hi

theorem copyToFile_cons {output : Bytes}
    (h : copyToFile (r :: rounds) input output = some (true, written)) :
    input = [] ∧ written = output ∨
      copyToFile rounds (input.drop r.size) (output ++ (input.take r.size).take (r.write.getD 0)) =
        some (true, written) := by
  rw [copyToFile] at h
  split at h
  case h_1 => cases h
  case h_2 n hr =>
    have size : min (n + 1) copyBufferSize = r.size := by rw [CopyRound.size, hr, Option.elim_some]
    simp only [size] at h
    split at h
    case isTrue he =>
      cases h
      refine .inl ⟨(List.take_eq_nil_iff.mp he).resolve_left ?_, rfl⟩
      rw [← size, copyBufferSize]
      omega
    case isFalse =>
      split at h
      case isTrue => cases h
      case isFalse => exact .inr h

-- Nothing is written twice, so what one write leaves out is missing in the end.
theorem length_copyToFile_le {output : Bytes}
    (h : copyToFile rounds input output = some (true, written)) :
    written.length ≤ output.length + input.length := by
  induction rounds generalizing input output
  case nil => cases h
  case cons r rounds hi =>
    rcases copyToFile_cons h with ⟨_, rfl⟩ | h
    · exact Nat.le_add_right _ _
    · have := hi h
      simp only [List.length_append, List.length_take, List.length_drop] at this
      omega

theorem copyToFile_complete_iff {output : Bytes}
    (h : copyToFile rounds input output = some (true, written)) :
    written = output ++ input ↔ Lossless rounds input := by
  induction rounds generalizing input output
  case nil => cases h
  case cons r rounds hi =>
    rcases copyToFile_cons h with ⟨rfl, rfl⟩ | h
    · simpa using lossless_nil (r :: rounds)
    · have bound := length_copyToFile_le h
      have rest := hi h
      have split := List.take_append_drop r.size input
      constructor
      case mp =>
        intro hw
        have whole : (input.take r.size).length ≤ r.write.getD 0 := by
          have := congrArg List.length hw
          simp only [List.length_append, List.length_take, List.length_drop] at this bound ⊢
          omega
        rw [List.take_of_length_le whole, List.append_assoc, split] at rest
        exact ⟨whole, rest.mp hw⟩
      case mpr =>
        rintro ⟨whole, lossless⟩
        rw [rest.mpr lossless, List.take_of_length_le whole, List.append_assoc, split]

theorem copyToFile_complete_iff_abc :
    copyToFile [⟨some 1, some 2, false⟩, ⟨some 9, some 1, false⟩, ⟨some 0, none, false⟩]
      (ascii "abc") [] = some (true, ascii "abc") ∧
    Lossless [⟨some 1, some 2, false⟩, ⟨some 9, some 1, false⟩, ⟨some 0, none, false⟩]
      (ascii "abc") := by
  have run : copyToFile [⟨some 1, some 2, false⟩, ⟨some 9, some 1, false⟩, ⟨some 0, none, false⟩]
      (ascii "abc") [] = some (true, ascii "abc") := by
    decide +kernel
  exact ⟨run, (copyToFile_complete_iff run).mp rfl⟩

-- A write fails, and another one takes a part of its block.
theorem copyToFile_loses :
    copyToFile [⟨some 1, none, false⟩, ⟨some 9, some 1, false⟩, ⟨some 0, none, false⟩]
      (ascii "abcd") [] = some (true, ascii "c") := by
  decide +kernel

end Installer
