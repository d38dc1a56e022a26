import LibAdb.Machine.ProtocolString
import LibAdb.Theorems.Request

-- The reader returns the string and leaves what follows.
def ReadsBack (fragments : List Bytes) (s following : Bytes) : Prop :=
  ∃ rest, readProtocolString fragments = .ok s rest ∧ rest.flatten = following

-- The smart socket takes the string for its service, from all of the data and from no less.
structure ServiceRead (frame following s : Bytes) : Prop where
  service : SmartRequest.completed (frame ++ following) = some s
  waits   : ∀ pre, pre <+: frame → pre.length < frame.length →
    SmartRequest.parse pre = .incomplete

theorem announces_hexDigits (h : s.length ≤ 0xffff) : Announces (hexDigits s.length) s :=
  ⟨length_hexDigits h, unhex_hexDigits h, h⟩

theorem four_le_length_hexDigits (n : Nat) : 4 ≤ (hexDigits n).length := by
  rw [hexDigits, List.length_append, List.length_replicate]
  omega

theorem serviceRead_iff (h : s.length ≤ 0xffff) :
    ServiceRead (hexDigits s.length ++ s) following s ↔ s ≠ [] ∧ following = [] := by
  have a := announces_hexDigits h
  constructor
  case mp => exact fun k => (SmartRequest.completed_iff a).mp k.service
  case mpr =>
    rintro ⟨h₀, rfl⟩
    exact ⟨(SmartRequest.completed_iff a).mpr ⟨h₀, rfl⟩,
      fun _ => SmartRequest.parse_incomplete a h₀⟩

theorem frame_eq (hf : sendProtocolString s = some frame ∨ deviceTrackerData s = frame) :
    ∃ header more, header.length = 4 ∧ frame = header ++ more ∧
      (s.length ≤ 0xffff → frame = hexDigits s.length ++ s) := by
  rcases hf with hf | rfl
  case inl =>
    have exact (h : s.length ≤ 0xffff) : frame = hexDigits s.length ++ s :=
      (Option.some.inj ((sendProtocolString_eq h).symm.trans hf)).symm
    rw [sendProtocolString] at hf
    split at hf
    case isTrue => cases hf
    case isFalse =>
      cases hf
      refine ⟨_, _, ?_, (List.take_append_drop 4 _).symm, exact⟩
      have := four_le_length_hexDigits (s.length % 0x100000000)
      simp only [List.length_take, List.length_append]
      omega
  case inr =>
    refine ⟨_, _, ?_, rfl, deviceTrackerData_eq⟩
    rw [List.length_take]
    exact Nat.min_eq_left (four_le_length_hexDigits _)

-- Of a longer string not even the length can be read back.
theorem readsBack_iff {fragments : List Bytes}
    (hf : sendProtocolString s = some frame ∨ deviceTrackerData s = frame)
    (hs : fragments.flatten = frame ++ following) :
    ReadsBack fragments s following ↔ s.length ≤ 0xffff := by
  obtain ⟨header, more, four, rfl, short⟩ := frame_eq hf
  constructor
  case mp =>
    rintro ⟨rest, hr, -⟩
    rw [List.append_assoc] at hs
    have length := length_readProtocolString four hs hr
    rcases strtoul_bound four with small | big
    case inl => exact length ▸ small
    case inr =>
      obtain ⟨fragments', hf', -⟩ := exactly_append hs
      rw [four] at hf'
      simp only [readProtocolString, hf', if_pos big] at hr
      cases hr
  case mpr => exact fun h => readProtocolString_eq h (short h ▸ hs)

theorem protocolString_reads_back_iff (s frame following header more : Bytes)
    (fragments : List Bytes) :
    (s.length ≤ 0xffff → (sendProtocolString s).isSome) ∧
    (sendProtocolString s = some frame ∨ deviceTrackerData s = frame →
      fragments.flatten = frame ++ following →
      (ReadsBack fragments s following ↔ s.length ≤ 0xffff) ∧
      (ReadsBack fragments s following ∧ ServiceRead frame following s ↔
        s.length ≤ 0xffff ∧ s ≠ [] ∧ following = [])) ∧
    (header.length = 4 → fragments.flatten = header ++ more →
      strtoul header ≤ 0xffff ∨ readProtocolString fragments = .lengthError) := by
  refine ⟨?accepted, ?framed, ?bounded⟩
  case accepted =>
    intro h
    rw [sendProtocolString_eq h]
    rfl
  case framed =>
    intro hf hs
    have reads := readsBack_iff hf hs
    refine ⟨reads, ?_⟩
    rw [reads]
    refine and_congr_right fun h => ?_
    obtain ⟨_, _, -, -, short⟩ := frame_eq hf
    rw [short h, serviceRead_iff h]
  case bounded =>
    intro h4 hs
    refine (strtoul_bound h4).imp_right fun big => ?_
    obtain ⟨rest, hr, -⟩ := exactly_append hs
    rw [h4] at hr
    simp only [readProtocolString, hr, if_pos big]

theorem protocolString_reads_back_sample :
    (ReadsBack [ascii "000chost:version"] (ascii "host:version") [] ∧
      ServiceRead (ascii "000chost:version") [] (ascii "host:version")) ∧
    (strtoul (ascii "-001") ≤ 0xffff ∨
      readProtocolString [ascii "-0", ascii "01"] = .lengthError) := by
  have ⟨_, framed, _⟩ := protocolString_reads_back_iff (ascii "host:version")
    (ascii "000chost:version") [] [] [] [ascii "000chost:version"]
  have ⟨_, _, bounded⟩ := protocolString_reads_back_iff [] [] [] (ascii "-001") []
    [ascii "-0", ascii "01"]
  exact ⟨(framed (.inl (by decide)) (by decide)).2.mpr (by decide), bounded (by decide) (by decide)⟩

-- Of five digits the reader takes four.
theorem long_string_misread :
    ¬∀ (s frame : Bytes), sendProtocolString s = some frame → ReadsBack [frame] s [] := by
  intro always
  have sent : sendProtocolString (List.replicate 0x10000 65) =
      some (hexDigits 0x10000 ++ List.replicate 0x10000 65) := by
    rw [sendProtocolString, List.length_replicate]
    rfl
  have short := (readsBack_iff (.inl sent) ((List.flatten_singleton ..).trans
    (List.append_nil _).symm)).mp (always _ _ sent)
  rw [List.length_replicate] at short
  exact absurd short (by decide)

-- What follows a service in the same data is taken for a part of it, and an empty one is refused.
example : SmartRequest.completed (ascii "0001a" ++ ascii "b") = some [97, 0] ∧
    SmartRequest.parse (ascii "0000") = .malformed := by
  decide
