import LibAdb.Machine.IOVector

namespace IOVector

variable {s : Chains} {a : Contents} {c : Chain} {bytes : Bytes}

-- Every vector is in order and holds the bytes of the list it stands for.
def Refines (s : Chains) (a : Contents) : Prop :=
  ∀ v, (s v).Valid ∧ (s v).content = a v

namespace Refines

theorem empty : Refines (fun _ => {}) fun _ => [] :=
  fun _ => ⟨.inl rfl, rfl⟩

theorem update (h : Refines s a) (v : Nat) (valid : c.Valid) (content : c.content = bytes) :
    Refines (Function.update s v c) (Function.update a v bytes) := by
  intro w
  by_cases hw : w = v
  case pos =>
    subst hw
    rw [Function.update_self, Function.update_self]
    exact ⟨valid, content⟩
  case neg =>
    rw [Function.update_of_ne hw, Function.update_of_ne hw]
    exact h w

theorem step (h : Refines s a) (ha : a.admits op) :
    ∃ s' read, step s op = some (s', read) ∧ Refines s' (a.step op).1 ∧
      read.flatten = (a.step op).2 := by
  cases op
  case append v block =>
    refine ⟨_, _, rfl, h.update v ((h v).1.append block).1 ?_, rfl⟩
    rw [(h v).1.content_append, (h v).2]
  case dropFront v len =>
    simp only [Contents.admits, Bool.and_eq_true, decide_eq_true_eq, ← (h v).2] at ha
    obtain ⟨c, hd, valid, blocks⟩ := (h v).1.dropFront ha.1 ha.2
    refine ⟨_, _, by rw [IOVector.step, hd]; rfl, h.update v valid ?_, rfl⟩
    rw [Chain.content, blocks, flatten_dropBlocks, ← (h v).2]
    rfl
  case takeFront v len dst =>
    simp only [Contents.admits, decide_eq_true_eq, ← (h v).2] at ha
    obtain ⟨res, c, ht, valid₁, valid₂, content₁, content₂⟩ := (h v).1.takeFront ha
    refine ⟨_, _, by rw [IOVector.step, ht]; rfl, (h.update v valid₂ ?_).update dst valid₁ ?_, rfl⟩
    · rw [content₂, (h v).2]
    · rw [content₁, (h v).2]
  case trimFront v =>
    obtain ⟨c, ht, valid, content⟩ := (h v).1.trimFront
    refine ⟨_, _, by rw [IOVector.step, ht]; rfl, ?_, rfl⟩
    have same := h.update v valid (content.trans (h v).2)
    rwa [Function.update_eq_self] at same
  case clear v => exact ⟨_, _, rfl, h.update v (.inl rfl) rfl, rfl⟩
  case move dst src =>
    exact ⟨_, _, rfl, (h.update dst (h src).1 (h src).2).update src (.inl rfl) rfl, rfl⟩
  case coalesce v =>
    refine ⟨s, [(s v).content], by rw [IOVector.step, (h v).1.coalesce]; rfl, h, ?_⟩
    rw [List.flatten_singleton, (h v).2]
    rfl
  case coalesced v =>
    refine ⟨s, [(s v).content], by rw [IOVector.step, (h v).1.coalesced]; rfl, h, ?_⟩
    rw [List.flatten_singleton, (h v).2]
    rfl
  case iovecs v =>
    refine ⟨s, (s v).blocks, ?_, h, (h v).2⟩
    rw [IOVector.step, Chain.iovecs, (h v).1.iterateBlocks]
    rfl

theorem run (ops : List Op) (h : Refines s a) (ha : a.admitsAll ops) :
    ∃ s' reads, run s ops = some (s', reads) ∧ Refines s' (a.run ops).1 ∧
      reads.map List.flatten = (a.run ops).2 := by
  induction ops generalizing s a
  case nil => exact ⟨s, [], rfl, h, rfl⟩
  case cons op ops hi =>
    rw [Contents.admitsAll, Bool.and_eq_true] at ha
    obtain ⟨s₁, read, hs, h₁, hr⟩ := h.step ha.1
    obtain ⟨s', reads, hs', h', hrs⟩ := hi h₁ ha.2
    refine ⟨s', read :: reads, ?_, h', ?_⟩
    · simp only [IOVector.run, hs, hs', Option.bind_eq_bind, Option.bind_some, Option.pure_def]
    · rw [List.map_cons, hr, hrs, Contents.run]

end Refines

theorem run_refines_bytes (ops : List Op) (ha : Contents.admitsAll (fun _ => []) ops) :
    ∃ s reads, run (fun _ => {}) ops = some (s, reads) ∧
      (∀ v, (s v).content = (Contents.run (fun _ => []) ops).1 v ∧
        (s v).size = ((Contents.run (fun _ => []) ops).1 v).length) ∧
      reads.map List.flatten = (Contents.run (fun _ => []) ops).2 := by
  obtain ⟨s, reads, hr, h, read⟩ := Refines.empty.run ops ha
  refine ⟨s, reads, hr, fun v => ⟨(h v).2, ?_⟩, read⟩
  rw [(h v).1.size, (h v).2]

def sampleOps : List Op :=
  [.append 0 [1, 2, 3, 4], .append 0 [5, 6, 7], .takeFront 0 5 1, .append 1 [8], .dropFront 1 2,
    .trimFront 1, .move 2 1, .iovecs 2, .coalesced 0, .clear 0]

theorem run_refines_bytes_sample : Contents.admitsAll (fun _ => []) sampleOps = true ∧
    ∃ s reads, run (fun _ => {}) sampleOps = some (s, reads) ∧
      (∀ v, (s v).content = (Contents.run (fun _ => []) sampleOps).1 v ∧
        (s v).size = ((Contents.run (fun _ => []) sampleOps).1 v).length) ∧
      reads.map List.flatten = (Contents.run (fun _ => []) sampleOps).2 :=
  ⟨by decide, run_refines_bytes sampleOps (by decide)⟩

namespace Chain

variable {v : IOVector}

-- The chain lays out the vector that the decoders work on.
structure Represents (c : Chain) (v : IOVector) : Prop where
  valid  : c.Valid
  blocks : c.blocks = v.blocks

namespace Represents

theorem size (h : Represents c v) : c.size = v.size := by
  rw [h.valid.size, content, h.blocks]
  rfl

theorem append (h : Represents c v) (block : Bytes) :
    Represents (c.append block) (v.append block) where
  valid := (h.valid.append block).1
  blocks := by
    rw [(h.valid.append block).2, h.blocks, IOVector.append]
    split
    case isTrue => rfl
    case isFalse => rfl

theorem dropFront (h : Represents c v) (hn : n ≤ v.size) (hl : v.size < 0x100000000) :
    ∃ c' v', c.dropFront n = some c' ∧ v.dropFront n = some v' ∧ Represents c' v' := by
  have hs : c.content.length = v.size := h.valid.size.symm.trans h.size
  obtain ⟨c', hd, valid, blocks⟩ := h.valid.dropFront (hs ▸ hn) (hs ▸ hl)
  exact ⟨c', ⟨dropBlocks n v.blocks, nil_not_mem_dropBlocks n v.nonempty⟩, hd, if_pos hn, valid,
    by rw [blocks, h.blocks]⟩

end Represents

variable {c' : Chain}

theorem Valid.use (h : c.Valid) (u : Use) (hu : c.within u) :
    ∃ c', c.use u = some c' ∧ c'.Valid := by
  cases u
  case append block => exact ⟨_, rfl, (h.append block).1⟩
  case dropFront len =>
    simp only [within, h.size, Bool.and_eq_true, decide_eq_true_eq] at hu
    obtain ⟨c', hd, valid, -⟩ := h.dropFront hu.1 hu.2
    exact ⟨c', hd, valid⟩
  case takeFront len =>
    simp only [within, h.size, decide_eq_true_eq] at hu
    obtain ⟨res, c', ht, -, valid, -⟩ := h.takeFront hu
    exact ⟨c', by rw [Chain.use, ht]; rfl, valid⟩
  case trimFront =>
    obtain ⟨c', ht, valid, -⟩ := h.trimFront
    exact ⟨c', ht, valid⟩
  case frontData =>
    obtain ⟨bytes, hf⟩ := h.frontData
    exact ⟨c, by rw [Chain.use, hf]; rfl, h⟩
  case frontSize =>
    obtain ⟨n, hf⟩ := h.frontSize
    exact ⟨c, by rw [Chain.use, hf]; rfl, h⟩

theorem Valid.bears (h : c.Valid) (us : List Use) : c.Bears us := by
  induction us generalizing c
  case nil => trivial
  case cons u us hi =>
    intro hu
    obtain ⟨c', hs, valid⟩ := h.use u hu
    exact ⟨c', hs, hi valid⟩

theorem Spent.use (h : Spent c) (hu : c.within u) (hs : c.use u = some c') :
    c'.Valid ∨ Spent c' := by
  cases u
  case append block =>
    obtain rfl := Option.some.inj hs
    by_cases hb : block = []
    case pos => rw [hb]; exact .inr h
    case neg => exact .inl (h.append hb).valid
  case dropFront len =>
    simp only [within, h.size, Bool.and_eq_true, decide_eq_true_eq, Nat.le_zero] at hu
    rw [Chain.use, hu.1, Chain.dropFront, if_pos rfl] at hs
    exact .inr (Option.some.inj hs ▸ h)
  case takeFront len =>
    simp only [within, h.size, decide_eq_true_eq, Nat.le_zero] at hu
    rw [Chain.use, hu, Chain.takeFront, if_pos rfl] at hs
    exact .inr (Option.some.inj hs ▸ h)
  case trimFront =>
    have start := h.start
    simp [Chain.use, Chain.trimFront, h.front, h.nonempty, start] at hs
  case frontData => simp [Chain.use, Chain.frontData, h.front, h.nonempty] at hs
  case frontSize => simp [Chain.use, Chain.frontSize, h.front, h.nonempty] at hs

-- The whole content is returned; the chain is left in disorder exactly if the start index of a vector
-- without further blocks is not 0.
theorem coalesceRvalue_cases (h : c.Valid ∨ Spent c) (capacity : Nat) :
    ∃ c', c.coalesceRvalue capacity = some (c.content, c') ∧
      if c.startIndex = 0 ∨ c.startIndex + 1 < c.chain.length then c'.Valid else Spent c' := by
  obtain (rfl | ⟨b, rest, h⟩) | h := h
  case inl.inl => exact ⟨{}, rfl, .inl rfl⟩
  case inl.inr =>
    have length := h.length_chain
    obtain _ | ⟨b', rest⟩ := rest
    case nil =>
      refine ⟨_, h.coalesceRvalue_single capacity, ?_⟩
      rw [List.length_nil, Nat.add_zero] at length
      by_cases start : c.startIndex = 0
      case pos =>
        have none : c.chain.dropLast = [] := by
          rw [← List.length_eq_zero_iff, List.length_dropLast, length, start]
        rw [if_pos (.inl start), none, start]
        exact .inl rfl
      case neg =>
        rw [if_neg (by omega)]
        refine ⟨rfl, rfl, ?_, start⟩
        rw [List.length_dropLast, length, Nat.add_sub_cancel]
    case cons =>
      obtain ⟨c', d, rest', hc, live⟩ := h.coalesceRvalue_several capacity
      refine ⟨c', hc, ?_⟩
      rw [if_pos (.inr (by rw [length, List.length_cons]; omega))]
      exact live.valid
  case inr =>
    have start := h.start
    refine ⟨c, by rw [Chain.coalesceRvalue, if_pos h.size, h.content], ?_⟩
    rw [if_neg (by rw [h.blocks]; omega)]
    exact h

theorem Reachable.cases (h : Reachable c) : c.Valid ∨ Spent c := by
  induction h
  case empty => exact .inl (.inl rfl)
  case use hu hs hi =>
    obtain valid | spent := hi
    case inl =>
      obtain ⟨c', hs', valid'⟩ := valid.use _ hu
      exact .inl (Option.some.inj (hs.symm.trans hs') ▸ valid')
    case inr => exact spent.use hu hs
  case taken hl ht hi =>
    obtain valid | spent := hi
    case inl =>
      obtain ⟨res, c', ht', valid', -⟩ := valid.takeFront (valid.size ▸ hl)
      exact .inl ((Prod.mk.inj (Option.some.inj (ht.symm.trans ht'))).1 ▸ valid')
    case inr =>
      rw [spent.size, Nat.le_zero] at hl
      rw [hl, Chain.takeFront, if_pos rfl] at ht
      exact .inl (.inl (Prod.mk.inj (Option.some.inj ht)).1.symm)
  case coalesced hc hi =>
    obtain ⟨c', hc', left⟩ := coalesceRvalue_cases hi _
    rw [(Prod.mk.inj (Option.some.inj (hc.symm.trans hc'))).2]
    split at left
    case isTrue => exact .inl left
    case isFalse => exact .inr left

-- The cached length is that of the live blocks, and the offset lies in the first of them.
def Consistent (c : Chain) : Prop :=
  c.chainLength = (c.chain.drop c.startIndex).flatten.length ∧
    (c = {} ∨ ∃ block, c.front? = some block ∧ c.beginOffset ≤ block.length)

theorem Valid.consistent (h : c.Valid) : c.Consistent := by
  obtain rfl | ⟨b, rest, h⟩ := h
  case inl => exact ⟨rfl, .inl rfl⟩
  case inr =>
    refine ⟨?_, .inr ⟨b, h.front, Nat.le_of_lt h.offset⟩⟩
    rw [h.chain, h.length, List.flatten_cons, List.length_append]

theorem coalesceRvalue_valid_iff (h : Reachable c) (capacity : Nat) :
    ∃ c', c.coalesceRvalue capacity = some (c.content, c') ∧
      ((c'.Consistent ∧ ∀ us, c'.Bears us) ↔
        c.startIndex = 0 ∨ c.startIndex + 1 < c.chain.length) := by
  obtain ⟨c', hc, left⟩ := coalesceRvalue_cases h.cases capacity
  refine ⟨c', hc, ?_⟩
  split at left
  case isTrue order => exact iff_of_true ⟨left.consistent, left.bears⟩ order
  case isFalse disorder =>
    refine iff_of_false ?_ disorder
    rintro ⟨-, bears⟩
    obtain ⟨_, hs, -⟩ := bears [.frontSize] rfl
    simp [Chain.use, Chain.frontSize, left.front, left.nonempty] at hs

def twoBlocks : Chain :=
  { chain := [[1], [2, 3]], chainLength := 3 }

theorem twoBlocks_reachable : Reachable twoBlocks :=
  .use (u := .append [2, 3]) (.use (u := .append [1]) .empty rfl rfl) rfl rfl

theorem coalesceRvalue_valid_twoBlocks : twoBlocks.startIndex = 0 ∧
    ∃ c', twoBlocks.coalesceRvalue 1 = some (twoBlocks.content, c') ∧
      ((c'.Consistent ∧ ∀ us, c'.Bears us) ↔
        twoBlocks.startIndex = 0 ∨ twoBlocks.startIndex + 1 < twoBlocks.chain.length) :=
  ⟨rfl, coalesceRvalue_valid_iff twoBlocks_reachable 1⟩

-- The first block has been dropped, and the second one is coalesced.
theorem coalesceRvalue_leaves_spent :
    twoBlocks.dropFront 1 = some { chain := [[], [2, 3]], chainLength := 2, startIndex := 1 } ∧
      coalesceRvalue { chain := [[], [2, 3]], chainLength := 2, startIndex := 1 } 2 =
        some ([2, 3], { chain := [[]], startIndex := 1 }) ∧
      frontData { chain := [[]], startIndex := 1 } = none ∧
      frontSize { chain := [[]], startIndex := 1 } = none ∧
      trimFront { chain := [[]], startIndex := 1 } = none := by
  decide

end Chain

end IOVector
