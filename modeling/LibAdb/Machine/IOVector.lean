import LibAdb.Execution.IOVector
import LibAdb.Machine.Decoder

theorem List.drop_set_self {l : List α} (h : l.drop n = a :: rest) : (l.set n b).drop n = b :: rest := by
  have hn : n < l.length := by
    by_contra hn
    rw [List.drop_eq_nil_of_le (Nat.not_lt.mp hn)] at h
    cases h
  rw [List.drop_eq_getElem_cons (by simpa using hn), List.getElem_set_self,
    List.drop_set_of_lt (Nat.lt_succ_self n), ← List.tail_drop, h, List.tail_cons]

namespace IOVector.Chain

variable {c c' res : Chain} {b : Bytes} {rest : List Bytes}

def blocks (c : Chain) : List Bytes :=
  match c.chain.drop c.startIndex with
  | [] => []
  | block :: rest => block.drop c.beginOffset :: rest

def content (c : Chain) : Bytes :=
  c.blocks.flatten

structure Live (c : Chain) (b : Bytes) (rest : List Bytes) : Prop where
  chain    : c.chain.drop c.startIndex = b :: rest
  length   : c.chainLength = b.length + rest.flatten.length
  nonempty : [] ∉ rest
  offset   : c.beginOffset < b.length

-- A vector without bytes has no blocks either, spent ones included.
def Valid (c : Chain) : Prop :=
  c = {} ∨ ∃ b rest, Live c b rest

theorem content_empty : content {} = [] :=
  rfl

namespace Live

theorem blocks (h : Live c b rest) : c.blocks = b.drop c.beginOffset :: rest := by
  rw [Chain.blocks, h.chain]

theorem content (h : Live c b rest) : c.content = b.drop c.beginOffset ++ rest.flatten := by
  rw [Chain.content, h.blocks, List.flatten_cons]

theorem size (h : Live c b rest) : c.size = c.content.length := by
  have := h.offset
  rw [Chain.size, h.length, h.content, List.length_append, List.length_drop]
  omega

theorem front (h : Live c b rest) : c.front? = some b := by
  have first : (c.chain.drop c.startIndex)[0]? = some b := by rw [h.chain, List.getElem?_cons_zero]
  rwa [List.getElem?_drop, Nat.add_zero] at first

theorem drop_succ (h : Live c b rest) : c.chain.drop (c.startIndex + 1) = rest := by
  rw [← List.tail_drop, h.chain, List.tail_cons]

theorem length_chain (h : Live c b rest) : c.chain.length = c.startIndex + 1 + rest.length := by
  have := congrArg List.length h.chain
  rw [List.length_drop, List.length_cons] at this
  omega

theorem valid (h : Live c b rest) : c.Valid :=
  .inr ⟨b, rest, h⟩

theorem trimChainFront (h : Live c b rest) : Live c.trimChainFront b rest := by
  rw [Chain.trimChainFront]
  split
  case isTrue => exact ⟨h.chain, h.length, h.nonempty, h.offset⟩
  case isFalse => exact h

theorem next {b' : Bytes} (h : Live c b (b' :: rest)) : Live { c with
      chainLength := c.chainLength - b.length
      beginOffset := 0
      chain       := c.chain.set c.startIndex []
      startIndex  := c.startIndex + 1 } b' rest where
  chain := by
    show (c.chain.set c.startIndex []).drop (c.startIndex + 1) = _
    rw [List.drop_set_of_lt (Nat.lt_succ_self _), h.drop_succ]
  length := by
    show c.chainLength - b.length = _
    rw [h.length, List.flatten_cons, List.length_append]
    omega
  nonempty hm := h.nonempty (.tail _ hm)
  offset := List.length_pos_iff.mpr fun hb => h.nonempty (hb ▸ .head _)

theorem popFrontBlock {b' : Bytes} (h : Live c b (b' :: rest)) :
    ∃ c', c.popFrontBlock = some c' ∧ Live c' b' rest ∧ c'.beginOffset = 0 := by
  have popped := h.next
  simp only [Chain.popFrontBlock, h.front, Option.bind_eq_bind, Option.bind_some, Option.pure_def]
  refine ⟨_, rfl, ?_⟩
  split
  case isTrue =>
    refine ⟨popped.trimChainFront, ?_⟩
    rw [Chain.trimChainFront]
    split <;> rfl
  case isFalse => exact ⟨popped, rfl⟩

theorem append (h : Live c b rest) (block : Bytes) (hb : block.length ≠ 0) :
    Live (c.append block) b (rest ++ [block]) := by
  have hs : c.startIndex ≤ c.chain.length := by
    have := h.length_chain
    omega
  rw [Chain.append, if_neg hb]
  constructor
  case chain => rw [List.drop_append_of_le_length hs, h.chain, List.cons_append]
  case length => simp [h.length, Nat.add_assoc]
  case nonempty =>
    intro hm
    rcases List.mem_append.mp hm with hm | hm
    · exact h.nonempty hm
    · exact hb (congrArg List.length (List.mem_singleton.mp hm).symm)
  case offset => exact h.offset

end Live

theorem Valid.size (h : c.Valid) : c.size = c.content.length := by
  obtain rfl | ⟨b, rest, h⟩ := h
  · rfl
  · exact h.size

theorem Valid.live (h : c.Valid) (hc : c.content ≠ []) : ∃ b rest, Live c b rest := by
  obtain rfl | h := h
  · exact absurd rfl hc
  · exact h

theorem Live.single (hb : b ≠ []) : Live { chain := [b], chainLength := b.length } b [] where
  chain := rfl
  length := rfl
  nonempty := nofun
  offset := List.length_pos_iff.mpr hb

theorem append_empty (hb : b.length ≠ 0) :
    append {} b = { chain := [b], chainLength := b.length } := by
  rw [append, if_neg hb, Nat.zero_add]
  rfl

theorem Valid.append (h : c.Valid) (block : Bytes) : (c.append block).Valid ∧
    (c.append block).blocks = if block = [] then c.blocks else c.blocks ++ [block] := by
  by_cases hb : block.length = 0
  case pos =>
    rw [Chain.append, if_pos hb, if_pos (List.length_eq_zero_iff.mp hb)]
    exact ⟨h, rfl⟩
  case neg =>
    have ne : block ≠ [] := fun he => hb (congrArg List.length he)
    rw [if_neg ne]
    obtain rfl | ⟨b, rest, h⟩ := h
    case inl =>
      rw [append_empty hb]
      exact ⟨(Live.single ne).valid, rfl⟩
    case inr =>
      have live := h.append block hb
      rw [live.blocks, h.blocks]
      refine ⟨live.valid, ?_⟩
      rw [Chain.append, if_neg hb]
      rfl

theorem Valid.content_append (h : c.Valid) (block : Bytes) :
    (c.append block).content = c.content ++ block := by
  rw [content, (h.append block).2, content]
  split
  case isTrue hb => rw [hb, List.append_nil]
  case isFalse => rw [List.flatten_append, List.flatten_singleton]

theorem Live.dropPart (h : Live c b rest) (hn : n < b.length - c.beginOffset) :
    Live { c with beginOffset := c.beginOffset + n } b rest ∧
      Chain.blocks { c with beginOffset := c.beginOffset + n } = dropBlocks n c.blocks := by
  have live : Live { c with beginOffset := c.beginOffset + n } b rest :=
    ⟨h.chain, h.length, h.nonempty, Nat.add_lt_of_lt_sub' hn⟩
  refine ⟨live, ?_⟩
  rw [live.blocks, h.blocks, dropBlocks, List.length_drop, if_pos hn, List.drop_drop]

-- The loop drops what is left to drop from the blocks, as long as it does not get to their end.
theorem Live.dropLoop {dropped len : Nat} (hl : len < 0x100000000) (fuel : Nat) (h : Live c b rest)
    (hd : dropped ≤ len) (hc : len - dropped < c.content.length) (hf : rest.length < fuel) :
    ∃ c' b' rest', dropLoop len fuel c dropped = some c' ∧ Live c' b' rest' ∧
      c'.blocks = dropBlocks (len - dropped) c.blocks := by
  induction fuel generalizing c b rest dropped
  case zero => cases hf
  case succ fuel hi =>
    have room := h.offset
    rw [Chain.dropLoop]
    by_cases hlt : dropped < len
    case neg =>
      obtain rfl := Nat.le_antisymm hd (Nat.not_lt.mp hlt)
      have ⟨live, blocks⟩ := h.dropPart (n := 0) (by omega)
      exact ⟨c, b, rest, if_neg hlt, live, by rw [Nat.sub_self]; exact blocks⟩
    simp only [if_pos hlt, h.front, Option.bind_eq_bind, Option.bind_some]
    by_cases hn : dropped + (b.length - c.beginOffset) ≤ len
    case neg =>
      have ⟨live, blocks⟩ := h.dropPart (n := len - dropped) (by omega)
      exact ⟨_, b, rest, if_neg hn, live, blocks⟩
    rw [h.content, List.length_append, List.length_drop] at hc
    obtain _ | ⟨b', rest⟩ := rest
    · simp only [List.flatten_nil, List.length_nil] at hc
      omega
    obtain ⟨c₁, hp, h₁, offset⟩ := h.popFrontBlock
    have hm : (dropped + (b.length - c.beginOffset)) % 0x100000000 =
        dropped + (b.length - c.beginOffset) := Nat.mod_eq_of_lt (by omega)
    have blocks : c₁.blocks = b' :: rest := by rw [h₁.blocks, offset, List.drop_zero]
    have left : len - (dropped + (b.length - c.beginOffset)) < c₁.content.length := by
      rw [Chain.content, blocks]
      omega
    obtain ⟨c', b'', rest', hr, h', hb⟩ := hi h₁ hn left (Nat.lt_of_succ_lt_succ hf)
    refine ⟨c', b'', rest', ?_, h', ?_⟩
    · rw [if_pos hn, hp, Option.bind_some, hm, hr]
    · have whole : ¬len - dropped < (b.drop c.beginOffset).length := by
        rw [List.length_drop]
        omega
      rw [hb, blocks, h.blocks, dropBlocks.eq_2 (len - dropped), if_neg whole, List.length_drop,
        Nat.sub_sub]

theorem Valid.dropBlocks_zero (h : c.Valid) : dropBlocks 0 c.blocks = c.blocks := by
  obtain rfl | ⟨b, rest, h⟩ := h
  · rfl
  · exact (h.dropPart (Nat.sub_pos_of_lt h.offset)).2.symm

theorem dropBlocks_length (blocks : List Bytes) :
    dropBlocks blocks.flatten.length blocks = [] := by
  induction blocks
  case nil => rfl
  case cons block rest hi =>
    rw [dropBlocks, List.flatten_cons, List.length_append, if_neg (by omega), Nat.add_sub_cancel_left]
    exact hi

theorem Valid.dropFront (h : c.Valid) (hn : n ≤ c.content.length)
    (hl : c.content.length < 0x100000000) :
    ∃ c', c.dropFront n = some c' ∧ c'.Valid ∧ c'.blocks = dropBlocks n c.blocks := by
  rw [Chain.dropFront, h.size]
  by_cases zero : n = 0
  case pos => exact ⟨c, if_pos zero, h, by rw [zero, h.dropBlocks_zero]⟩
  by_cases all : n = c.content.length
  case pos =>
    refine ⟨{}, by rw [if_neg zero, if_pos all]; rfl, .inl rfl, ?_⟩
    rw [all, content, dropBlocks_length]
    rfl
  have left : n < c.content.length := Nat.lt_of_le_of_ne hn all
  obtain ⟨b, rest, live⟩ := h.live fun hc => by simp [hc] at left
  obtain ⟨c', b', rest', hr, live', blocks⟩ :=
    live.dropLoop (Nat.lt_trans left hl) (c.chain.length + 1) (Nat.zero_le n) left
      (by have := live.length_chain; omega)
  exact ⟨c', by rw [if_neg zero, if_neg all, if_pos left, hr], live'.valid, blocks⟩

-- The vector that `take_front` fills. Only its first block can have an offset, which it takes over
-- from the source before it has any other.
def Gathers (c res : Chain) : Prop :=
  res = {} ∨ c.beginOffset = 0 ∧ ∃ b rest, Live res b rest

theorem Gathers.valid (g : Gathers c res) : res.Valid :=
  g.imp_right And.right

theorem Gathers.gather (g : Gathers c res) (h : Live c b rest) :
    (∃ b' rest', Live (res.gather b c.beginOffset) b' rest') ∧
      (res.gather b c.beginOffset).content = res.content ++ b.drop c.beginOffset := by
  have hb : ¬b.length = 0 := by
    have := h.offset
    omega
  obtain rfl | ⟨offset, b₁, rest₁, live⟩ := g
  case inl =>
    have single : Live { chain := [b], chainLength := b.length, beginOffset := c.beginOffset } b [] :=
      ⟨rfl, rfl, nofun, h.offset⟩
    have whole : Chain.gather {} b c.beginOffset =
        { chain := [b], chainLength := b.length, beginOffset := c.beginOffset } := by
      rw [Chain.gather, append_empty hb]
      split
      case isTrue => rfl
      case isFalse h0 => rw [Decidable.not_not.mp h0]
    rw [whole, single.content]
    exact ⟨⟨b, [], single⟩, by simp [content_empty]⟩
  case inr =>
    rw [Chain.gather, if_neg (not_not_intro offset), offset, List.drop_zero]
    exact ⟨⟨b₁, _, live.append b hb⟩, live.valid.content_append b⟩

-- The loop moves whole blocks and stops in a block that has more than what is left to take.
theorem Live.takeLoop (fuel : Nat) (h : Live c b rest) (g : Gathers c res)
    (hc : len < c.content.length) (hf : rest.length < fuel) :
    ∃ c' res' len' b' rest', takeLoop fuel c res len = some (c', res', len') ∧
      Live c' b' rest' ∧ res'.Valid ∧ len' < b'.length - c'.beginOffset ∧
      res'.content ++ c'.content.take len' = res.content ++ c.content.take len ∧
      c'.content.drop len' = c.content.drop len := by
  induction fuel generalizing c b rest res len
  case zero => cases hf
  case succ fuel hi =>
    have room := h.offset
    simp only [Chain.takeLoop, h.front, Option.bind_eq_bind, Option.bind_some]
    by_cases hn : b.length - c.beginOffset ≤ len
    case neg =>
      rw [if_neg hn]
      exact ⟨c, res, len, b, rest, rfl, h, g.valid, Nat.not_le.mp hn, rfl, rfl⟩
    rw [if_pos hn, if_pos room]
    rw [h.content, List.length_append, List.length_drop] at hc
    obtain _ | ⟨b', rest⟩ := rest
    · simp only [List.flatten_nil, List.length_nil] at hc
      omega
    have next := h.next
    have ⟨live, content⟩ := g.gather h
    have behind := next.content
    simp only [List.drop_zero] at behind
    have left : len - (b.length - c.beginOffset) < (b' ++ rest.flatten).length := by
      rw [← List.flatten_cons]
      omega
    obtain ⟨c', res', len', b'', rest', hr, live', valid, part, taken, kept⟩ :=
      hi next (.inr ⟨rfl, live⟩) (behind ▸ left) (Nat.lt_of_succ_lt_succ hf)
    have split : c.content = b.drop c.beginOffset ++ (b' ++ rest.flatten) := by
      rw [h.content, List.flatten_cons]
    have through : (b.drop c.beginOffset).length ≤ len := by rwa [List.length_drop]
    have first : c.content.take len = b.drop c.beginOffset ++
        (b' ++ rest.flatten).take (len - (b.length - c.beginOffset)) := by
      rw [split, List.take_append, List.take_of_length_le through, List.length_drop]
    have last : c.content.drop len =
        (b' ++ rest.flatten).drop (len - (b.length - c.beginOffset)) := by
      rw [split, List.drop_append, List.drop_eq_nil_of_le through, List.length_drop, List.nil_append]
    refine ⟨c', res', len', b'', rest', hr, live', valid, part, ?_, ?_⟩
    · rw [taken, behind, content, first, List.append_assoc]
    · rw [kept, behind, last]

theorem Live.splitFront (h : Live c b rest) (hr : res.Valid) (hn : n < b.length - c.beginOffset) :
    ∃ res' c', c.splitFront res n = some (res', c') ∧ res'.Valid ∧ c'.Valid ∧
      res'.content = res.content ++ c.content.take n ∧ c'.content = c.content.drop n := by
  rw [Chain.splitFront]
  by_cases hp : n > 0
  case neg =>
    obtain rfl := Nat.eq_zero_of_not_pos hp
    exact ⟨res, c, if_neg hp, hr, h.valid, by simp, by simp⟩
  have fits : n ≤ (b.drop c.beginOffset).length := by
    rw [List.length_drop]
    exact Nat.le_of_lt hn
  have taken := (hr.append ((b.drop c.beginOffset).take n)).1
  have gathered := hr.content_append ((b.drop c.beginOffset).take n)
  have first : c.content.take n = (b.drop c.beginOffset).take n := by
    rw [h.content, List.take_append_of_le_length fits]
  simp only [if_pos hp, h.front, Option.bind_eq_bind, Option.bind_some]
  split
  case isTrue =>
    have ⟨live, blocks⟩ := h.dropPart hn
    refine ⟨_, _, rfl, taken, live.valid, by rw [gathered, first], ?_⟩
    rw [Chain.content, blocks, flatten_dropBlocks]
    rfl
  case isFalse hs =>
    have offset : c.beginOffset = 0 := by omega
    rw [offset, List.drop_zero] at gathered taken first
    have length : (b.drop n).length = b.length - n := List.length_drop
    have live : Live { c with
        chainLength := c.chainLength - b.length + (b.drop n).length
        chain       := c.chain.set c.startIndex (b.drop n) } (b.drop n) rest := by
      refine ⟨List.drop_set_self h.chain, ?_, h.nonempty, ?_⟩
      · show c.chainLength - b.length + _ = _
        rw [h.length]
        omega
      · show c.beginOffset < _
        omega
    refine ⟨_, _, rfl, taken, live.valid, by rw [gathered, first], ?_⟩
    rw [live.content, h.content, offset, List.drop_zero, List.drop_zero,
      List.drop_append_of_le_length (by omega)]

theorem Valid.takeFront (h : c.Valid) (hn : n ≤ c.content.length) :
    ∃ res c', c.takeFront n = some (res, c') ∧ res.Valid ∧ c'.Valid ∧
      res.content = c.content.take n ∧ c'.content = c.content.drop n := by
  rw [Chain.takeFront, h.size]
  by_cases zero : n = 0
  case pos =>
    subst zero
    exact ⟨{}, c, if_pos rfl, .inl rfl, h, rfl, rfl⟩
  by_cases all : n = c.content.length
  case pos =>
    refine ⟨c, {}, by rw [if_neg zero, if_pos all]; rfl, h, .inl rfl, ?_, ?_⟩
    · rw [all, List.take_length]
    · rw [all, List.drop_length, content_empty]
  have left : n < c.content.length := Nat.lt_of_le_of_ne hn all
  obtain ⟨b, rest, live⟩ := h.live fun hc => by simp [hc] at left
  obtain ⟨c₁, res, len, b', rest', hr, live', valid, part, taken, kept⟩ :=
    live.takeLoop (c.chain.length + 1) (.inl rfl) left (by have := live.length_chain; omega)
  obtain ⟨res', c', hs, valid₁, valid₂, content₁, content₂⟩ := live'.splitFront valid part
  refine ⟨res', c', ?_, valid₁, valid₂, ?_, ?_⟩
  · rw [if_neg zero, if_neg all, if_pos hn, hr]
    exact hs
  · rw [content₁, taken, content_empty, List.nil_append]
  · rw [content₂, kept]

theorem Valid.trimFront (h : c.Valid) :
    ∃ c', c.trimFront = some c' ∧ c'.Valid ∧ c'.content = c.content := by
  rw [Chain.trimFront]
  split
  case isTrue => exact ⟨c, rfl, h, rfl⟩
  case isFalse hs =>
    obtain rfl | ⟨b, rest, h⟩ := h
    · exact absurd (.inr rfl) hs
    simp only [h.front, Option.bind_eq_bind, Option.bind_some, Nat.ne_of_lt h.offset, if_false]
    have trimmed : Live { c with
        chain       := c.chain.set c.startIndex (b.drop c.beginOffset)
        chainLength := c.chainLength - c.beginOffset
        beginOffset := 0 } (b.drop c.beginOffset) rest := by
      have := h.offset
      refine ⟨List.drop_set_self h.chain, ?_, h.nonempty, ?_⟩
      · show c.chainLength - c.beginOffset = _
        rw [h.length, List.length_drop]
        omega
      · show 0 < _
        rw [List.length_drop]
        omega
    refine ⟨_, rfl, trimmed.trimChainFront.valid, ?_⟩
    rw [trimmed.trimChainFront.content, h.content]
    congr 1
    rw [Chain.trimChainFront]
    split <;> rfl

theorem Valid.iterateBlocks (h : c.Valid) : c.iterateBlocks = some c.blocks := by
  obtain rfl | ⟨b, rest, h⟩ := h
  · rfl
  have none : ¬c.size = 0 := by
    have := h.offset
    rw [h.size, h.content, List.length_append, List.length_drop]
    omega
  rw [Chain.iterateBlocks, if_neg none, h.chain, h.blocks]
  exact if_pos (Nat.le_of_lt h.offset)

theorem Valid.coalesce (h : c.Valid) : c.coalesce = some c.content := by
  rw [Chain.coalesce, h.size]
  split
  case isTrue hs => rw [List.length_eq_zero_iff.mp hs]
  case isFalse => exact h.iterateBlocks ▸ if_pos rfl

theorem Valid.coalesced (h : c.Valid) : c.coalesced = some c.content := by
  rw [Chain.coalesced]
  split
  case isFalse => exact h.coalesce
  case isTrue hs =>
    obtain rfl | ⟨b, rest, h⟩ := h
    · cases hs
    have none : rest = [] := by
      have := h.length_chain
      exact List.length_eq_zero_iff.mp (by omega)
    subst none
    have := h.offset
    have content := h.content
    rw [List.flatten_nil, List.append_nil] at content
    have size : c.size = b.length - c.beginOffset := by rw [h.size, content, List.length_drop]
    simp only [h.front, Option.bind_eq_bind, Option.bind_some]
    rw [if_pos (by omega), content, List.take_of_length_le (by rw [List.length_drop, size])]
    rfl

-- What the destructive `coalesce` leaves of a vector whose only live block has spent ones in front of
-- it: a chain whose start index is its end.
structure Spent (c : Chain) : Prop where
  length : c.chainLength = 0
  offset : c.beginOffset = 0
  blocks : c.chain.length = c.startIndex
  start  : c.startIndex ≠ 0

namespace Spent

theorem size (h : Spent c) : c.size = 0 := by
  rw [Chain.size, h.length, Nat.zero_sub]

theorem content (h : Spent c) : c.content = [] := by
  rw [Chain.content, Chain.blocks, List.drop_eq_nil_of_le (Nat.le_of_eq h.blocks)]
  rfl

theorem nonempty (h : Spent c) : c.chain ≠ [] := by
  intro hc
  exact h.start (by rw [← h.blocks, hc, List.length_nil])

theorem front (h : Spent c) : c.front? = none := by
  rw [Chain.front?, List.getElem?_eq_none (Nat.le_of_eq h.blocks)]

theorem append (h : Spent c) (hb : block ≠ []) : Live (c.append block) block [] := by
  have length : block.length ≠ 0 := fun h0 => hb (List.length_eq_zero_iff.mp h0)
  rw [Chain.append, if_neg length]
  constructor
  case chain => rw [List.drop_append_of_le_length (Nat.le_of_eq h.blocks.symm), ← h.blocks,
    List.drop_length, List.nil_append]
  case length => simp [h.length]
  case nonempty => exact List.not_mem_nil
  case offset =>
    show c.beginOffset < block.length
    rw [h.offset]
    exact Nat.pos_of_ne_zero length

end Spent

theorem Live.size_ne_zero (h : Live c b rest) : c.size ≠ 0 := by
  have := h.offset
  rw [h.size, h.content, List.length_append, List.length_drop]
  omega

theorem Live.coalesceRvalue_single (h : Live c b []) (capacity : Nat) :
    c.coalesceRvalue capacity = some (c.content,
      { c with chainLength := 0, beginOffset := 0, chain := c.chain.dropLast }) := by
  have length := h.length_chain
  have back : c.chain.getLast? = some b := by
    rw [List.getLast?_eq_getElem?, length]
    exact h.front
  have content : c.content = b.drop c.beginOffset := by
    rw [h.content, List.flatten_nil, List.append_nil]
  have left : c.chainLength - b.length = 0 := by rw [h.length, List.flatten_nil]; simp
  rw [Chain.coalesceRvalue, if_neg h.size_ne_zero]
  simp only [h.front, Option.bind_eq_bind, Option.bind_some, Nat.ne_of_lt h.offset, false_and,
    if_false, length, List.length_nil, Nat.add_zero, if_true, back, content, left, Option.pure_def]

theorem Live.coalesceRvalue_several {b' : Bytes} (h : Live c b (b' :: rest)) (capacity : Nat) :
    ∃ c' d rest', c.coalesceRvalue capacity = some (c.content, c') ∧ Live c' d rest' := by
  have several : ¬c.chain.length = c.startIndex + 1 := by
    rw [h.length_chain, List.length_cons]
    omega
  rw [Chain.coalesceRvalue, if_neg h.size_ne_zero]
  simp only [h.front, Option.bind_eq_bind, Option.bind_some, Nat.ne_of_lt h.offset, false_and,
    if_false, several, h.drop_succ, Option.pure_def]
  by_cases room : capacity ≥ c.size
  case pos =>
    have fits : (b.drop c.beginOffset ++ (b' :: rest).flatten).length ≤ capacity := by
      rw [← h.content, ← h.size]
      exact room
    exact ⟨_, b', rest, by rw [if_pos room, if_pos fits, h.content], h.next⟩
  case neg =>
    exact ⟨c, b, b' :: rest, by rw [if_neg room, h.valid.coalesce, Option.bind_some], h⟩

theorem Valid.frontData (h : c.Valid) : ∃ bytes, c.frontData = some bytes := by
  obtain rfl | ⟨b, rest, h⟩ := h
  case inl => exact ⟨[], rfl⟩
  case inr =>
    rw [Chain.frontData, h.front]
    split
    case isTrue => exact ⟨_, rfl⟩
    case isFalse => exact ⟨_, rfl⟩

theorem Valid.frontSize (h : c.Valid) : ∃ n, c.frontSize = some n := by
  obtain rfl | ⟨b, rest, h⟩ := h
  case inl => exact ⟨0, rfl⟩
  case inr =>
    rw [Chain.frontSize, h.front]
    split
    case isTrue => exact ⟨_, rfl⟩
    case isFalse => exact ⟨_, rfl⟩

end IOVector.Chain
