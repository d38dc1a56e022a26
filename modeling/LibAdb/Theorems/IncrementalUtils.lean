import LibAdb.Execution.IncrementalUtils

namespace Incremental

namespace OpenFile

variable {f : OpenFile} {field rest : Bytes}

def sized (field : Bytes) : Bytes :=
  (UInt32.ofNat field.length).toBytes ++ field

theorem length_sized (field : Bytes) : (sized field).length = 4 + field.length := by
  rw [sized, List.length_append]
  rfl

@[simp]
theorem seek_seek (f : OpenFile) (m n : Nat) : (f.seek m).seek n = f.seek (m + n) := by
  rw [seek, seek, seek, Nat.add_assoc]

theorem drop_seek (h : f.content.drop f.offset = field ++ rest) :
    (f.seek field.length).content.drop (f.seek field.length).offset = rest := by
  show f.content.drop (f.offset + field.length) = rest
  rw [← List.drop_drop, h, List.drop_left]

theorem read_eq (h : f.content.drop f.offset = field ++ rest) :
    f.read field.length = (field, f.seek field.length) := by
  rw [read, h, List.take_left]
  rfl

theorem readInt32_eq {n : UInt32} (h : f.content.drop f.offset = n.toBytes ++ rest) :
    f.readInt32 = (n.toInt32, f.seek 4) := by
  have whole : f.read 4 = (n.toBytes, f.seek 4) := read_eq h
  simp only [readInt32, whole, UInt32.ofBytes_toBytes, Option.elim_some]

theorem toInt_toInt32 (hn : n < 0x80000000) : (UInt32.ofNat n).toInt32.toInt = n := by
  have same : (UInt32.ofNat n).toInt32 = Int32.ofNat n := rfl
  rw [same, Int32.toInt_ofNat_of_lt hn]

theorem size_eq (h : f.content.drop f.offset = sized field ++ rest) :
    f.readInt32 = ((UInt32.ofNat field.length).toInt32, f.seek 4) ∧
      (f.seek 4).content.drop (f.seek 4).offset = field ++ rest := by
  rw [sized, List.append_assoc] at h
  exact ⟨readInt32_eq h, drop_seek h⟩

def kept (field : Bytes) : Bytes :=
  if field = [] then [] else sized field

theorem length_kept_le (field : Bytes) : (kept field).length ≤ (sized field).length := by
  rw [kept]
  split
  case isTrue => exact Nat.zero_le _
  case isFalse => exact Nat.le_refl _

theorem kept_length_iff : (kept field).length = (sized field).length ↔ field ≠ [] := by
  rw [kept, length_sized]
  split
  case isTrue empty =>
    refine iff_of_false ?_ (not_not_intro empty)
    rw [List.length_nil]
    omega
  case isFalse nonempty => exact iff_of_true (length_sized field) nonempty

theorem appendBytesWithSize_eq (h : f.content.drop f.offset = sized field ++ rest)
    (hl : field.length < 0x80000000) (bytes : Bytes) (left : Int) :
    f.appendBytesWithSize bytes left =
      if field.length > left then none
      else some (bytes ++ kept field, left - field.length,
        f.seek (sized field).length) := by
  obtain ⟨size, behind⟩ := size_eq h
  have value := toInt_toInt32 hl
  rw [appendBytesWithSize, size]
  simp only [value]
  by_cases fits : field.length > left
  case pos => rw [if_pos (.inr fits), if_pos fits]
  case neg =>
    rw [if_neg (by omega), if_neg fits]
    by_cases empty : field = []
    case pos =>
      subst empty
      simp [kept, length_sized]
    case neg =>
      have nonzero : (UInt32.ofNat field.length).toInt32 ≠ 0 := by
        intro zero
        rw [zero] at value
        have : field.length = 0 := by simpa using value.symm
        exact empty (List.length_eq_zero_iff.mp this)
      rw [if_neg nonzero, Int.toNat_natCast, read_eq behind, seek_seek, kept, if_neg empty,
        length_sized]
      simp [sized]

theorem skipBytesWithSize_eq (h : f.content.drop f.offset = sized field ++ rest)
    (hl : field.length < 0x80000000) :
    f.skipBytesWithSize = (.ofNat (f.offset + (sized field).length),
      f.seek (sized field).length) := by
  obtain ⟨size, -⟩ := size_eq h
  rw [skipBytesWithSize, size]
  simp only [toInt_toInt32 hl]
  rw [if_neg (by omega), Int.toNat_natCast, seek_seek, length_sized]
  rfl

end OpenFile

-- A signature file: the version, the two fields and the size of the tree, which comes next.
structure IdSig where
  version     : UInt32
  hashingInfo : Bytes
  signingInfo : Bytes
  treeSize    : UInt32
  tree        : Bytes
  hashing_lt  : hashingInfo.length < 0x80000000
  signing_lt  : signingInfo.length < 0x80000000

namespace IdSig

open OpenFile

def headers (s : IdSig) : Bytes :=
  s.version.toBytes ++ sized s.hashingInfo ++ sized s.signingInfo

def encode (s : IdSig) : Bytes :=
  s.headers ++ s.treeSize.toBytes ++ s.tree

theorem length_headers (s : IdSig) :
    s.headers.length = 12 + s.hashingInfo.length + s.signingInfo.length := by
  simp only [headers, List.length_append, length_sized]
  have : s.version.toBytes.length = 4 := rfl
  omega

variable (s : IdSig)

def openFile : OpenFile :=
  { content := s.encode }

def atHashingInfo : OpenFile :=
  s.openFile.seek 4

def atSigningInfo : OpenFile :=
  s.atHashingInfo.seek (sized s.hashingInfo).length

def atTreeSize : OpenFile :=
  s.atSigningInfo.seek (sized s.signingInfo).length

theorem drop_openFile : s.openFile.content.drop s.openFile.offset =
    s.version.toBytes ++ (sized s.hashingInfo ++ (sized s.signingInfo ++
      (s.treeSize.toBytes ++ s.tree))) := by
  simp only [openFile, encode, headers, List.append_assoc, List.drop_zero]

theorem drop_atHashingInfo : s.atHashingInfo.content.drop s.atHashingInfo.offset =
    sized s.hashingInfo ++ (sized s.signingInfo ++ (s.treeSize.toBytes ++ s.tree)) :=
  drop_seek s.drop_openFile

theorem drop_atSigningInfo : s.atSigningInfo.content.drop s.atSigningInfo.offset =
    sized s.signingInfo ++ (s.treeSize.toBytes ++ s.tree) :=
  drop_seek s.drop_atHashingInfo

theorem readInt32_atTreeSize : s.atTreeSize.readInt32 = (s.treeSize.toInt32, s.atTreeSize.seek 4) :=
  readInt32_eq (drop_seek s.drop_atSigningInfo)

theorem appendInt_openFile :
    s.openFile.appendInt [] = (s.version.toBytes, s.atHashingInfo) := by
  rw [appendInt, readInt32_eq s.drop_openFile]
  rfl

theorem idSigHeaders?_eq : s.openFile.idSigHeaders? =
    if s.hashingInfo.length + s.signingInfo.length ≤ maxSignatureSize - 4 then
      some (s.version.toBytes ++ kept s.hashingInfo ++ kept s.signingInfo, s.treeSize.toInt32)
    else none := by
  have first := appendBytesWithSize_eq s.drop_atHashingInfo s.hashing_lt
  have second := appendBytesWithSize_eq s.drop_atSigningInfo s.signing_lt
  have limit : (maxSignatureSize : Int) - 4 = 8092 := rfl
  rw [idSigHeaders?, appendInt_openFile]
  simp only [first, Option.bind_eq_bind, Option.pure_def, limit]
  by_cases long : (s.hashingInfo.length : Int) > 8092
  case pos =>
    rw [if_pos long, Option.bind_none, if_neg (by rw [maxSignatureSize]; omega)]
  rw [if_neg long, Option.bind_some]
  show Option.bind (s.atSigningInfo.appendBytesWithSize _ _) _ = _
  rw [second]
  by_cases long' : (s.signingInfo.length : Int) > 8092 - s.hashingInfo.length
  case pos =>
    rw [if_pos long', Option.bind_none, if_neg (by rw [maxSignatureSize]; omega)]
  rw [if_neg long', Option.bind_some, if_pos (by rw [maxSignatureSize]; omega)]
  show some (_, s.atTreeSize.readInt32.1) = _
  rw [readInt32_atTreeSize]

theorem kept_eq_headers_iff :
    s.version.toBytes ++ kept s.hashingInfo ++ kept s.signingInfo = s.headers ↔
      s.hashingInfo ≠ [] ∧ s.signingInfo ≠ [] := by
  constructor
  case mp =>
    intro same
    have length := congrArg List.length same
    have first := length_kept_le s.hashingInfo
    have second := length_kept_le s.signingInfo
    simp only [headers, List.length_append] at length
    exact ⟨kept_length_iff.mp (by omega), kept_length_iff.mp (by omega)⟩
  case mpr =>
    rintro ⟨first, second⟩
    rw [kept, kept, if_neg first, if_neg second, headers]

theorem readIdSigHeaders_iff :
    s.openFile.readIdSigHeaders = (s.headers, s.treeSize.toInt32) ↔
      s.hashingInfo ≠ [] ∧ s.signingInfo ≠ [] ∧
        s.hashingInfo.length + s.signingInfo.length ≤ maxSignatureSize - 4 := by
  rw [readIdSigHeaders, idSigHeaders?_eq]
  split
  case isTrue fits =>
    rw [Option.getD_some, Prod.mk.injEq, and_iff_left rfl, kept_eq_headers_iff,
      and_iff_left fits]
  case isFalse long =>
    refine iff_of_false ?_ fun h => long h.2.2
    intro none
    have := congrArg List.length (Prod.mk.inj none).1
    rw [length_headers, List.length_nil] at this
    omega

theorem skipIdSigHeaders_eq : s.openFile.skipIdSigHeaders =
    ((Int32.ofNat s.headers.length).toInt + 4, s.treeSize.toInt32) := by
  have start : s.openFile.seek 4 = s.atHashingInfo := rfl
  have first : s.atHashingInfo.skipBytesWithSize = (_, s.atSigningInfo) :=
    skipBytesWithSize_eq s.drop_atHashingInfo s.hashing_lt
  have second : s.atSigningInfo.skipBytesWithSize = (_, s.atTreeSize) :=
    skipBytesWithSize_eq s.drop_atSigningInfo s.signing_lt
  have length : s.atSigningInfo.offset + (sized s.signingInfo).length = s.headers.length := by
    show 0 + 4 + (sized s.hashingInfo).length + _ = _
    rw [length_headers, length_sized, length_sized]
    omega
  rw [skipIdSigHeaders, start, first]
  simp only [second, readInt32_atTreeSize, length]

theorem headers_iff :
    (s.openFile.readIdSigHeaders = (s.headers, s.treeSize.toInt32) ↔
      s.hashingInfo ≠ [] ∧ s.signingInfo ≠ [] ∧
        s.hashingInfo.length + s.signingInfo.length ≤ maxSignatureSize - 4) ∧
    (s.openFile.skipIdSigHeaders = ((s.headers.length : Int) + 4, s.treeSize.toInt32) ↔
      s.headers.length < 0x80000000) := by
  refine ⟨s.readIdSigHeaders_iff, ?_⟩
  rw [skipIdSigHeaders_eq, Prod.mk.injEq, and_iff_left rfl, Int.add_left_inj]
  constructor
  case mp =>
    intro same
    have := Int32.toInt_lt (Int32.ofNat s.headers.length)
    omega
  case mpr => exact Int32.toInt_ofNat_of_lt

-- Without signing info: the length of this field is missing from the signature.
theorem headers_lost : readIdSigHeaders {
      content := [1, 0, 0, 0] ++ sized [7] ++ sized [] ++ [0, 16, 0, 0] } =
    ([1, 0, 0, 0] ++ sized [7], 4096) := by
  decide

end IdSig

variable {content : Bytes} {fileSize : Nat}

section Search

-- Either the counter reaches the size of the file, or the record is found.
def Stops (content : Bytes) (fileSize : Nat) (c : Int16) : Prop :=
  ¬c.toInt < fileSize ∨ isEocd content fileSize c

theorem ofNat_succ (k : Nat) : Int16.ofNat k + 1 = Int16.ofNat (k + 1) :=
  (Int16.ofNat_add k 1).symm

theorem ofNat_surj (c : Int16) : ∃ n, Int16.ofNat n = c :=
  ⟨c.toBitVec.toNat, by simp⟩

theorem toInt_ofNat (hn : n ≤ 0x7fff) : (Int16.ofNat n).toInt = n :=
  Int16.toInt_ofNat_of_lt (Nat.lt_succ_of_le hn)

-- The counter takes every value in turn, so the first one at which the loop stops is reached.
theorem searchEocd_some (stops : Stops content fileSize (.ofNat n)) (hk : k + d = n) :
    ∃ r, searchEocd content fileSize (d + 1) (.ofNat k) = some r := by
  induction d generalizing k
  case zero =>
    obtain rfl : k = n := hk
    rw [searchEocd]
    obtain stop | found := stops
    case inl => exact ⟨-1, if_neg stop⟩
    case inr =>
      rw [if_pos found]
      split
      case isTrue => exact ⟨_, rfl⟩
      case isFalse => exact ⟨-1, rfl⟩
  case succ d hi =>
    rw [searchEocd]
    split
    case isTrue =>
      split
      case isTrue => exact ⟨_, rfl⟩
      case isFalse =>
        rw [ofNat_succ]
        exact hi (by omega)
    case isFalse => exact ⟨-1, rfl⟩

theorem searchEocd_first (found : isEocd content fileSize (.ofNat n))
    (least : ∀ j < n, ¬isEocd content fileSize (.ofNat j)) (small : n ≤ 0x7fff)
    (inside : n < fileSize) (hk : k + d = n) :
    searchEocd content fileSize (d + 1) (.ofNat k) =
      some (eocdOffset fileSize (.ofNat n)) := by
  induction d generalizing k
  case zero =>
    obtain rfl : k = n := hk
    rw [searchEocd, if_pos (by rw [toInt_ofNat small]; omega), if_pos found]
  case succ d hi =>
    rw [searchEocd, if_pos (by rw [toInt_ofNat (by omega)]; omega), if_neg (least k (by omega)),
      ofNat_succ]
    exact hi (by omega)

theorem searchEocd_none (large : 0x7fff < fileSize) (none : ∀ c, ¬isEocd content fileSize c)
    (fuel : Nat) (c : Int16) : searchEocd content fileSize fuel c = .none := by
  induction fuel generalizing c
  case zero => rfl
  case succ fuel hi =>
    have := Int16.toInt_lt c
    rw [searchEocd, if_pos (by omega), if_neg (none c)]
    exact hi (c + 1)

theorem centralDirOffset_some (h : searchEocd content fileSize fuel 0 = some r) :
    ∃ offset, centralDirOffset content fileSize fuel = some offset := by
  rw [centralDirOffset, h]
  by_cases negative : r < 0
  case pos => exact ⟨-1, if_pos negative⟩
  case neg => exact ⟨_, if_neg negative⟩

theorem centralDirOffset_none (h : searchEocd content fileSize fuel 0 = none) :
    centralDirOffset content fileSize fuel = none := by
  rw [centralDirOffset, h]
  rfl

theorem centralDirOffset_terminates_iff :
    (∃ fuel offset, centralDirOffset content fileSize fuel = some offset) ↔
      fileSize ≤ 0x7fff ∨ ∃ c, isEocd content fileSize c := by
  constructor
  case mp =>
    rintro ⟨fuel, offset, h⟩
    by_contra endless
    have large : 0x7fff < fileSize := Nat.not_le.mp fun small => endless (.inl small)
    have missing c : ¬isEocd content fileSize c := fun found => endless (.inr ⟨c, found⟩)
    rw [centralDirOffset_none (searchEocd_none large missing fuel 0)] at h
    cases h
  case mpr =>
    have reaches {n : Nat} (stops : Stops content fileSize (.ofNat n)) :
        ∃ fuel offset, centralDirOffset content fileSize fuel = some offset := by
      obtain ⟨r, hr⟩ := searchEocd_some stops (Nat.zero_add n)
      exact ⟨n + 1, centralDirOffset_some hr⟩
    rintro (small | ⟨c, found⟩)
    case inl =>
      refine reaches (n := fileSize) (.inl ?_)
      rw [toInt_ofNat small]
      exact Int.lt_irrefl _
    case inr =>
      obtain ⟨n, rfl⟩ := ofNat_surj c
      exact reaches (.inr found)

end Search

def littleEndian : Bytes → Nat
  | [] => 0
  | byte :: rest => byte.toNat + 256 * littleEndian rest

def field (content : Bytes) (offset size : Nat) : Bytes :=
  (content.drop offset).take size

-- A record with its comment at the end of the file.
structure EndRecord (content : Bytes) (p : Nat) : Prop where
  fits      : p + 22 ≤ content.length
  signature : UInt32.ofBytes (field content p 4) = some 0x06054b50
  comment   : littleEndian (field content (p + 20) 2) = content.length - (p + 22)

def centralDirSize (content : Bytes) (p : Nat) : UInt32 :=
  (UInt32.ofBytes (field content (p + 12) 4)).getD 0

theorem pread_natCast (content : Bytes) (n offset : Nat) :
    pread content n offset = field content offset n := by
  rw [pread, if_neg (by omega), Int.toNat_natCast, field]

theorem length_field (h : offset + n ≤ content.length) : (field content offset n).length = n := by
  rw [field, List.length_take, List.length_drop]
  omega

theorem valueAt16_eq (h : offset + 2 ≤ content.length) :
    valueAt16 content offset = .ofNat (littleEndian (field content offset 2)) := by
  have ⟨a, b, bytes⟩ : ∃ a b, field content offset 2 = [a, b] :=
    List.length_eq_two.mp (length_field h)
  rw [valueAt16, pread_natCast, bytes]
  rfl

theorem littleEndian_lt (h : offset + 2 ≤ content.length) :
    littleEndian (field content offset 2) < 0x10000 := by
  have ⟨a, b, bytes⟩ : ∃ a b, field content offset 2 = [a, b] :=
    List.length_eq_two.mp (length_field h)
  have := a.toNat_lt
  have := b.toNat_lt
  rw [bytes, littleEndian, littleEndian, littleEndian]
  omega

theorem valueAt32_eq_sig_iff : valueAt32 content (offset : Nat) = zipEocdRecSig ↔
    UInt32.ofBytes (field content offset 4) = some 0x06054b50 := by
  rw [valueAt32, pread_natCast]
  cases UInt32.ofBytes (field content offset 4)
  case none => exact iff_of_false (by decide) nofun
  case some n =>
    rw [Option.elim_some, Option.some.injEq]
    constructor
    case mp => exact fun h => congrArg Int32.toUInt32 h
    case mpr => rintro rfl; rfl

theorem ofNat_inj (hm : m < 0x10000) (hn : n < 0x10000) (h : Int16.ofNat m = Int16.ofNat n) :
    m = n := by
  have := congrArg (·.toBitVec.toNat) h
  simpa [Nat.mod_eq_of_lt hm, Nat.mod_eq_of_lt hn] using this

theorem isEocd_iff (h : p + 22 + n = content.length) (small : n ≤ 0x7fff) :
    isEocd content content.length (.ofNat n) ↔ EndRecord content p := by
  have offset : eocdOffset content.length (.ofNat n) = p := by
    rw [eocdOffset, zipEocdRecMinSize, toInt_ofNat small]
    omega
  have lengthOffset : (p : Int) + zipEocdCommentLengthFieldOffset = (p + 20 : Nat) := by
    rw [zipEocdCommentLengthFieldOffset]
    omega
  have bound := littleEndian_lt (show p + 20 + 2 ≤ content.length by omega)
  rw [isEocd, offset, lengthOffset, valueAt16_eq (by omega), Bool.and_eq_true, decide_eq_true_eq,
    decide_eq_true_eq, valueAt32_eq_sig_iff]
  constructor
  case mp =>
    rintro ⟨signature, comment⟩
    refine ⟨by omega, signature, ?_⟩
    rw [ofNat_inj bound (by omega) comment]
    omega
  case mpr =>
    rintro ⟨-, signature, comment⟩
    refine ⟨signature, ?_⟩
    rw [comment]
    congr 1
    omega

theorem ofBytes_field (h : offset + 4 ≤ content.length) :
    ∃ n, UInt32.ofBytes (field content offset 4) = some n := by
  have length := length_field h
  generalize field content offset 4 = bytes at length
  obtain _ | ⟨a, _ | ⟨b, _ | ⟨c, _ | ⟨d, _ | _⟩⟩⟩⟩ := bytes
  case cons.cons.cons.cons.nil => exact ⟨_, rfl⟩
  all_goals simp at length

theorem toInt_valueAt32 (h : p + 22 ≤ content.length)
    (below : (centralDirSize content p).toNat < 0x80000000) :
    (valueAt32 content (p + 12 : Nat)).toInt = (centralDirSize content p).toNat := by
  obtain ⟨n, hn⟩ := ofBytes_field (show p + 12 + 4 ≤ content.length by omega)
  rw [centralDirSize, hn, Option.getD_some] at below ⊢
  rw [valueAt32, pread_natCast, hn, Option.elim_some]
  have value := OpenFile.toInt_toInt32 below
  rwa [UInt32.ofNat_toNat] at value

theorem centralDirOffset_eq (h : EndRecord content p) (last : ∀ q, p < q → ¬EndRecord content q)
    (precedes : (centralDirSize content p).toNat ≤ p) (below : content.length < 0x80000000)
    (short : content.length - (p + 22) ≤ 0x7fff) :
    ∃ fuel, centralDirOffset content content.length fuel =
      some (p - (centralDirSize content p).toNat : Int) := by
  have fits := h.fits
  obtain ⟨n, hn⟩ : ∃ n, p + 22 + n = content.length := ⟨_, Nat.add_sub_of_le fits⟩
  have small : n ≤ 0x7fff := by omega
  have offset : eocdOffset content.length (.ofNat n) = p := by
    rw [eocdOffset, zipEocdRecMinSize, toInt_ofNat small]
    omega
  have least j (hj : j < n) : ¬isEocd content content.length (.ofNat j) := by
    intro found
    have place : p + (n - j) + 22 + j = content.length := by omega
    exact last _ (by omega) ((isEocd_iff place (by omega)).mp found)
  have search := searchEocd_first ((isEocd_iff hn small).mpr h) least small (by omega)
    (Nat.zero_add n)
  have size := toInt_valueAt32 fits (by omega)
  refine ⟨n + 1, ?_⟩
  rw [centralDirOffset, show (0 : Int16) = .ofNat 0 from rfl, search, offset, ← size]
  simp only [Option.bind_eq_bind, Option.bind_some]
  rw [if_neg (Int.not_lt.mpr (Int.natCast_nonneg p))]
  rfl

theorem valueAt16_short (h : content.length < offset + 2) : valueAt16 content offset = -1 := by
  have short : (field content offset 2).length < 2 := by
    rw [field, List.length_take, List.length_drop]
    omega
  rw [valueAt16, pread_natCast]
  generalize field content offset 2 = bytes at short
  obtain _ | ⟨a, _ | ⟨b, rest⟩⟩ := bytes
  case nil => rfl
  case cons.nil => rfl
  case cons.cons =>
    rw [List.length_cons, List.length_cons] at short
    omega

-- A negative counter looks behind the last place that a record fits in. Only the value that stands for
-- a failed read can be found there.
theorem isEocd_negative (found : isEocd content content.length c) (hc : c.toInt < 0) :
    UInt32.ofBytes (field content (content.length - 21) 4) = some 0x06054b50 := by
  rw [isEocd, Bool.and_eq_true, decide_eq_true_eq, decide_eq_true_eq] at found
  obtain ⟨signature, comment⟩ := found
  have start : ¬eocdOffset content.length c < 0 := by
    intro negative
    rw [valueAt32, pread, if_pos negative] at signature
    revert signature
    decide
  obtain ⟨q, hq⟩ := Int.eq_ofNat_of_zero_le (Int.not_lt.mp start)
  have place : (q : Int) = content.length - 22 - c.toInt := hq.symm
  have behind : eocdOffset content.length c + zipEocdCommentLengthFieldOffset = (q + 20 : Nat) := by
    rw [hq, zipEocdCommentLengthFieldOffset]
    omega
  rw [behind, valueAt16_short (by omega)] at comment
  rw [hq, valueAt32_eq_sig_iff] at signature
  have last : q = content.length - 21 := by
    rw [← comment, show (-1 : Int16).toInt = -1 from rfl] at place
    omega
  rwa [← last]

theorem centralDirOffset_endless (p : Nat)
    (last : ∀ q, p < q → ¬EndRecord content q) (long : 0x7fff < content.length - (p + 22))
    (cut : UInt32.ofBytes (field content (content.length - 21) 4) ≠ some 0x06054b50) (fuel : Nat) :
    centralDirOffset content content.length fuel = none := by
  refine centralDirOffset_none (searchEocd_none (by omega) ?_ fuel 0)
  intro c found
  by_cases hc : c.toInt < 0
  case pos => exact cut (isEocd_negative found hc)
  case neg =>
    have := Int16.toInt_lt c
    obtain ⟨n, hn⟩ : ∃ n : Nat, c.toInt = n := ⟨_, (Int.toNat_of_nonneg (Int.not_lt.mp hc)).symm⟩
    obtain rfl : Int16.ofNat n = c := Int16.toInt_inj.mp (by rw [toInt_ofNat (by omega), hn])
    have place : content.length - 22 - n + 22 + n = content.length := by omega
    exact last _ (by omega) ((isEocd_iff place (by omega)).mp found)

theorem centralDirOffset_search (content : Bytes) (fileSize : Nat) :
    ((∃ fuel offset, centralDirOffset content fileSize fuel = some offset) ↔
      fileSize ≤ 0x7fff ∨ ∃ c, isEocd content fileSize c) ∧
    ∀ p, EndRecord content p → (∀ q, p < q → ¬EndRecord content q) →
      (centralDirSize content p).toNat ≤ p → content.length < 0x80000000 →
      (content.length - (p + 22) ≤ 0x7fff → ∃ fuel,
        centralDirOffset content content.length fuel =
          some (p - (centralDirSize content p).toNat : Int)) ∧
      (0x7fff < content.length - (p + 22) →
        UInt32.ofBytes (field content (content.length - 21) 4) ≠ some 0x06054b50 →
        ∀ fuel, centralDirOffset content content.length fuel = none) := by
  refine ⟨centralDirOffset_terminates_iff, ?_⟩
  intro p h last precedes below
  exact ⟨centralDirOffset_eq h last precedes below, centralDirOffset_endless p last⟩

-- An archive with a central directory of two bytes and a comment of one byte.
def smallZip : Bytes :=
  [1, 2] ++ ([0x50, 0x4b, 5, 6] ++ List.replicate 8 0 ++ [2, 0, 0, 0] ++ List.replicate 4 0 ++
    [1, 0] ++ [9])

theorem smallZip_record : EndRecord smallZip 2 :=
  ⟨by decide, by decide, by decide⟩

theorem centralDirOffset_search_small : smallZip.length = 25 ∧
    ∃ fuel, centralDirOffset smallZip 25 fuel = some 0 := by
  refine ⟨rfl, ((centralDirOffset_search smallZip 25).2 2 smallZip_record ?_ (by decide)
    (by decide)).1 (by decide)⟩
  intro q hq record
  have fits : q + 22 ≤ 25 := record.fits
  obtain rfl : q = 3 := by omega
  exact absurd record.signature (by decide)

def emptyZip (commentLen : UInt16) (comment : Bytes) : Bytes :=
  [0x50, 0x4b, 5, 6] ++ List.replicate 16 0 ++ (be16 commentLen).reverse ++ comment

theorem ofBytes_head (h : UInt32.ofBytes bytes = some n) : bytes.head? = some n.toUInt8 := by
  obtain _ | ⟨a, _ | ⟨b, _ | ⟨c, _ | ⟨d, _ | _⟩⟩⟩⟩ := bytes
  case cons.cons.cons.cons.nil =>
    obtain rfl := Option.some.inj h
    refine congrArg some (UInt8.eq_of_toBitVec_eq ?_)
    ext i hi
    simp [-UInt32.toUInt32_toUInt8]
  all_goals cases h

-- The comment is one byte too long for the counter.
def longComment : Bytes :=
  emptyZip 0x8000 (List.replicate 0x8000 0)

theorem length_longComment : longComment.length = 0x8016 := by
  simp only [longComment, emptyZip, be16, List.length_append, List.length_replicate,
    List.length_reverse, List.length_cons, List.length_nil]

theorem tail_emptyZip (n : Nat) : 0x50 ∉ (emptyZip 0x8000 (List.replicate n 0)).tail := by
  simp [emptyZip, be16]

theorem longComment_signature
    (h : UInt32.ofBytes (field longComment q 4) = some 0x06054b50) : q = 0 := by
  obtain _ | q := q
  case zero => rfl
  have head : longComment[q + 1]? = some 0x50 := by
    have first := ofBytes_head h
    rwa [field, List.head?_take, if_neg (by decide), List.head?_drop] at first
  rw [← List.getElem?_tail] at head
  exact absurd (List.mem_of_getElem? head) (tail_emptyZip 0x8000)

theorem centralDirOffset_longComment : EndRecord longComment 0 ∧
    (∀ q, 0 < q → ¬EndRecord longComment q) ∧ centralDirSize longComment 0 = 0 ∧
    ∀ fuel, centralDirOffset longComment longComment.length fuel = none := by
  have last q (hq : 0 < q) : ¬EndRecord longComment q := by
    intro record
    exact Nat.ne_of_gt hq (longComment_signature record.signature)
  have record : EndRecord longComment 0 := by
    constructor
    case fits => rw [length_longComment]; decide
    case signature => rfl
    case comment => rw [length_longComment]; rfl
  refine ⟨record, last, rfl, centralDirOffset_endless 0 last ?_ ?_⟩
  · rw [length_longComment]
    decide
  · intro cut
    rw [length_longComment] at cut
    cases longComment_signature cut

end Incremental
