import LibAdb.Execution.DeviceAddress
import LibAdb.Machine.Decimal
import Mathlib.Data.List.Infix
import Mathlib.Data.List.TakeWhile

theorem foldl_digits {s : Bytes} (n : Nat) (h : ∀ c ∈ s, isDigit c) :
    s.foldl (fun (n : Int) c => 10 * n + (c.toNat - 48)) n =
      ↑(s.foldl (fun n c => 10 * n + (c.toNat - 48)) n) := by
  induction s generalizing n
  case nil => rfl
  case cons c s hi =>
    rw [List.forall_mem_cons] at h
    have ⟨lo, _⟩ : 48 ≤ c.toNat ∧ c.toNat ≤ 57 := by
      simpa [isDigit, UInt8.le_iff_toNat_le] using h.left
    have step : 10 * (n : Int) + (c.toNat - 48) = ↑(10 * n + (c.toNat - 48)) := by omega
    rw [List.foldl_cons, step, hi _ h.right]
    rfl

theorem takeWhile_digits {s w : Bytes} (h : ∀ c ∈ s, isDigit c) (hw : ∀ c ∈ w, isDigit c = false) :
    (s ++ w).takeWhile isDigit = s := by
  have stop : w.takeWhile isDigit = [] := by
    cases w
    case nil => rfl
    case cons c w => simp [hw c List.mem_cons_self]
  rw [List.takeWhile_append_of_pos h, stop, List.append_nil]

theorem strtol_digits (hs : Spells s n) (hn : n ≤ 65535)
    (hw : ∀ c ∈ w, isDigit c = false) : strtol (s ++ w) = n := by
  obtain ⟨he, digits, rfl⟩ := hs
  obtain ⟨c, s, rfl⟩ := List.exists_cons_of_ne_nil he
  have ⟨space, plus, minus, _⟩ := isSpace_of_isDigit (digits c List.mem_cons_self)
  have row := takeWhile_digits digits hw
  have value := foldl_digits 0 digits
  have first : (c :: (s ++ w)).dropWhile isSpace = c :: (s ++ w) :=
    List.dropWhile_cons_of_neg (by simp [space])
  rw [List.cons_append] at row ⊢
  rw [strtol, leadingNumber, first]
  simp only [List.head?_cons, Option.some.injEq, minus, if_false]
  split
  case h_1 h => exact absurd (List.cons.inj h).left plus
  case h_2 h => exact absurd (List.cons.inj h).left minus
  case h_3 =>
    rw [row]
    rw [Int.natCast_zero] at value
    rw [value, Int.bmod]
    omega

theorem scanInt_digits (hs : Spells s n) (hn : n ≤ 65535)
    (hw : ∀ c ∈ w, isDigit c = false) : scanInt (s ++ w) = some ↑n := by
  have ⟨he, digits, _⟩ := hs
  have text : Bytes.cString (s ++ w) [] = s ++ w.takeWhile (· != 0) := by
    rw [Bytes.cString, List.append_nil, List.takeWhile_append_of_pos fun c hc =>
      bne_iff_ne.mpr (isSpace_of_isDigit (digits c hc)).right.right.right]
  have value := strtol_digits hs hn fun c (hc : c ∈ w.takeWhile (· != 0)) =>
    hw c (List.takeWhile_subset _ hc)
  obtain ⟨c, s, rfl⟩ := List.exists_cons_of_ne_nil he
  have digit := digits c List.mem_cons_self
  have ⟨space, plus, minus, _⟩ := isSpace_of_isDigit digit
  have first (w : Bytes) : (c :: s ++ w).dropWhile isSpace = c :: s ++ w :=
    List.dropWhile_cons_of_neg (by simp [space])
  rw [scanInt, text, first]
  simp only [List.cons_append]
  split
  case h_1 h => exact absurd (List.cons.inj h).left plus
  case h_2 h => exact absurd (List.cons.inj h).left minus
  case h_3 =>
    rw [List.cons_append] at value
    simp [digit, value]

theorem beforeBracket_cons (c : UInt8) (s : Bytes) : beforeBracket (c :: s) =
    if [93, 58] <+: c :: s then some [] else (beforeBracket s).map (c :: ·) := by
  have literal : ascii "]:" = [93, 58] := rfl
  rw [beforeBracket, List.tails_cons, List.findIdx?_cons, literal]
  by_cases h : [93, 58] <+: c :: s
  case pos => simp [h]
  case neg =>
    simp only [List.isPrefixOf_iff_prefix, h, if_false, beforeBracket, literal, Option.map_map]
    rfl

theorem beforeBracket_spec (h : beforeBracket s = some p) :
    (∃ r, s = p ++ 93 :: 58 :: r) ∧ ¬ [93, 58] <:+: p := by
  induction s generalizing p
  case nil => simp [beforeBracket, show ascii "]:" = [93, 58] from rfl] at h
  case cons c s hi =>
    rw [beforeBracket_cons] at h
    split at h
    case isTrue hp =>
      obtain ⟨r, hr⟩ := hp
      cases h
      exact ⟨⟨r, hr.symm⟩, by simp⟩
    case isFalse hp =>
      obtain ⟨p, hs, rfl⟩ := Option.map_eq_some_iff.mp h
      obtain ⟨⟨r, rfl⟩, hf⟩ := hi hs
      refine ⟨⟨r, rfl⟩, fun hx => ?_⟩
      rcases List.infix_cons_iff.mp hx with hx | hx
      · exact hp (hx.trans (List.prefix_append (c :: p) _))
      · exact hf hx

theorem beforeBracket_append (h : ¬ [93, 58] <:+: p) :
    beforeBracket (p ++ 93 :: 58 :: r) = some p := by
  induction p
  case nil => simp [beforeBracket_cons]
  case cons c p hi =>
    rw [List.infix_cons_iff, not_or] at h
    have inside : ¬ [93, 58] <+: c :: (p ++ 93 :: 58 :: r) := by
      cases p
      case nil => simp
      case cons d p => simpa using h.left
    rw [List.cons_append, beforeBracket_cons, if_neg inside, hi h.right]
    rfl

theorem beforeBracket_eq_none (h : 93 ∉ s) : beforeBracket s = none := by
  by_contra hs
  obtain ⟨p, hp⟩ := Option.ne_none_iff_exists'.mp hs
  obtain ⟨⟨r, rfl⟩, _⟩ := beforeBracket_spec hp
  simp at h

theorem afterBracket_append (p : Bytes) (h : 93 ∉ r) : afterBracket (p ++ 93 :: 58 :: r) = r := by
  have literal : ascii "]:" = [93, 58] := rfl
  have behind : ∀ s : Bytes, 93 ∉ s → s.tails.reverse.find? (ascii "]:").isPrefixOf = none := by
    intro s hs
    rw [List.find?_eq_none]
    intro t ht hp
    have := (List.isPrefixOf_iff_prefix.mp hp).subset (a := 93) List.mem_cons_self
    exact hs (((List.mem_tails _ _).mp (List.mem_reverse.mp ht)).subset this)
  have found : (p ++ 93 :: 58 :: r).tails.reverse.find? (ascii "]:").isPrefixOf =
      some (93 :: 58 :: r) := by
    induction p
    case nil =>
      rw [List.nil_append, List.tails_cons, List.reverse_cons, List.find?_append,
        behind _ (by simp [h])]
      simp [literal]
    case cons c p hi =>
      rw [List.cons_append, List.tails_cons, List.reverse_cons, List.find?_append, hi]
      rfl
  rw [afterBracket, found]
  rfl

theorem parseNetAddress_bracket (h : parseNetAddress (91 :: s) n = some x) :
    beforeBracket s = some x.1 ∧ scanInt (afterBracket (91 :: s)) = some x.2 := by
  have inside : ¬ [93, 58] <+: 91 :: s := by simp
  simp only [parseNetAddress, List.head?_cons, if_true, beforeBracket_cons, if_neg inside] at h
  cases hs : beforeBracket s
  case none => simp [hs] at h
  case some host =>
    cases host
    case nil => simp [hs] at h
    case cons c host =>
      simp only [hs, Option.map_some, List.drop_one, List.tail_cons] at h
      obtain ⟨port, hp, rfl⟩ := Option.map_eq_some_iff.mp h
      exact ⟨rfl, (Option.filter_eq_some_iff.mp hp).left⟩

theorem parseNetAddress_plain (hb : s.head? ≠ some 91) (h : parseNetAddress s n = some x) :
    (58 ∉ s ∨ 2 ≤ s.count 58) ∧ x = (s, n) ∨
      ∃ r, s = x.1 ++ 58 :: r ∧ 58 ∉ x.1 ∧ 58 ∉ r ∧ scanInt r = some x.2 := by
  by_cases hc : (s.count 46 = 0 && 2 ≤ s.count 58 && s.count 58 ≤ 7) = true
  case pos =>
    simp only [parseNetAddress, if_neg hb, if_pos hc] at h
    simp only [Bool.and_eq_true, decide_eq_true_eq] at hc
    left
    cases s
    case nil => simp at h
    case cons c s => exact ⟨.inr hc.left.right, (Option.some.inj h).symm⟩
  case neg =>
    simp only [parseNetAddress, if_neg hb, if_neg hc] at h
    by_cases hs : 58 ∈ s
    case neg =>
      rw [List.splitOn_eq_singleton hs] at h
      left
      cases s
      case nil => simp at h
      case cons c s => exact ⟨.inl hs, (Option.some.inj h).symm⟩
    case pos =>
      obtain ⟨host, rest, rfl, hh⟩ := List.eq_append_cons_of_mem hs
      rw [List.splitOn_append_cons_self_of_not_mem hh] at h
      by_cases hr : 58 ∈ rest
      case pos =>
        obtain ⟨port, rest, rfl, hp⟩ := List.eq_append_cons_of_mem hr
        rw [List.splitOn_append_cons_self_of_not_mem hp] at h
        obtain ⟨l, ls, hl⟩ := List.exists_cons_of_ne_nil (List.splitOn_ne_nil 58 rest)
        simp [hl] at h
      case neg =>
        rw [List.splitOn_eq_singleton hr] at h
        cases host
        case nil => simp at h
        case cons c host =>
          obtain ⟨port, hp, rfl⟩ := Option.map_eq_some_iff.mp h
          exact .inr ⟨rest, rfl, hh, hr, (Option.filter_eq_some_iff.mp hp).left⟩

namespace DeviceAddress

theorem isDigit_of_isTrailing (h : isTrailing c) : isDigit c = false := by
  simp only [isTrailing, isBlank, Bool.or_eq_true, beq_iff_eq] at h
  rcases h with ((rfl | rfl) | rfl) | rfl <;> rfl

theorem trim_spec (text : Bytes) : ∃ w₁ w₂, text = w₁ ++ (trim text ++ w₂) ∧
    (∀ c ∈ w₁, isBlank c) ∧ (∀ c ∈ w₂, isTrailing c) := by
  refine ⟨text.takeWhile isBlank, ((text.dropWhile isBlank).reverse.takeWhile isTrailing).reverse,
    ?_, fun c hc => List.mem_takeWhile_imp hc, fun c hc =>
      List.mem_takeWhile_imp (List.mem_reverse.mp hc)⟩
  rw [trim, ← List.reverse_append, List.takeWhile_append_dropWhile, List.reverse_reverse,
    List.takeWhile_append_dropWhile]

theorem isBlank_head_trim {text : Bytes} (h : (trim text).head? = some c) : isBlank c = false := by
  have tail : trim text <+: text.dropWhile isBlank := by
    rw [trim, ← List.reverse_suffix, List.reverse_reverse]
    exact List.dropWhile_suffix _
  obtain ⟨w, hw⟩ := tail
  have first := List.head?_dropWhile_not isBlank text
  rwa [← hw, List.head?_append, h] at first

theorem trim_eq_self {text : Bytes} (hf : ∀ c, text.head? = some c → isBlank c = false)
    (hl : ∀ c, text.getLast? = some c → isTrailing c = false) : trim text = text := by
  have first : text.dropWhile isBlank = text := by
    cases text
    case nil => rfl
    case cons c text => exact List.dropWhile_cons_of_neg (by simp [hf c rfl])
  have last : text.reverse.dropWhile isTrailing = text.reverse := by
    rw [← List.head?_reverse] at hl
    cases h : text.reverse
    case nil => rfl
    case cons c rest => exact List.dropWhile_cons_of_neg (by simp [hl c (by simp [h])])
  rw [trim, first, last, List.reverse_reverse]

inductive Spelling (a : DeviceAddress) : Bytes → Prop
  | host (hh : a.host ≠ []) (hb : a.host.head? ≠ some 91) (hc : 58 ∉ a.host) (hp : a.port = 0) :
    Spelling a a.host
  | hostPort (hh : a.host ≠ []) (hb : a.host.head? ≠ some 91) (hp : parsePort s = some a.port) :
    Spelling a (a.host ++ 58 :: s)
  | bracketed (hh : a.host ≠ []) (hb : 93 ∉ a.host) (hp : a.port = 0) :
    Spelling a (91 :: (a.host ++ [93]))
  | bracketedPort (hh : a.host ≠ []) (hb : 93 ∉ a.host) (hp : parsePort s = some a.port) :
    Spelling a (91 :: (a.host ++ 93 :: 58 :: s))

theorem Spelling.ne_nil (h : Spelling a s) : s ≠ [] := by
  cases h
  case host hh _ _ _ => exact hh
  all_goals simp

theorem fromChars_iff : fromChars s = some n ↔ Spells s n ∧ n ≤ 0xffffffff := by
  simp only [fromChars, Option.ite_none_left_eq_some, Bool.or_eq_true, decide_eq_true_eq,
    Bool.not_eq_true', List.all_eq_false, Option.some.injEq, not_or, not_exists, not_and, not_not,
    Nat.not_lt]
  constructor
  · rintro ⟨⟨⟨hn, hd⟩, hb⟩, rfl⟩
    exact ⟨⟨hn, hd, rfl⟩, hb⟩
  · rintro ⟨⟨hn, hd, rfl⟩, hb⟩
    exact ⟨⟨⟨hn, hd⟩, hb⟩, rfl⟩

theorem parsePort_iff {p : UInt16} : parsePort s = some p ↔ Spells s p.toNat ∧ p ≠ 0 := by
  have bound := p.toNat_lt
  have zero : p = 0 ↔ p.toNat = 0 := by rw [← UInt16.toNat_inj]; rfl
  simp only [parsePort, Option.bind_eq_some_iff, fromChars_iff, Option.ite_none_left_eq_some,
    Bool.or_eq_true, decide_eq_true_eq, Option.some.injEq, not_or]
  constructor
  · rintro ⟨n, ⟨hn, _⟩, hr, rfl⟩
    have same : n.toUInt16.toNat = n := UInt16.toNat_ofNat_of_lt' (by
      show n < 65536
      omega)
    exact ⟨same.symm ▸ hn, by rw [ne_eq, zero, same]; exact hr.left⟩
  · rintro ⟨hn, h0⟩
    rw [ne_eq, zero] at h0
    exact ⟨_, ⟨hn, by omega⟩, ⟨h0, by omega⟩, UInt16.ofNat_toNat⟩

theorem parseBracketed_append {host : Bytes} (h : 93 ∉ host) (rest : Bytes) :
    parseBracketed (host ++ 93 :: rest) = if host = [] then none else parseRest host rest := by
  have before : ∀ c ∈ host, (c != 93) = true := fun c hc =>
    bne_iff_ne.mpr fun he => h (he ▸ hc)
  simp [parseBracketed, List.takeWhile_append_of_pos before, List.dropWhile_append_of_pos before]

theorem parseBracketed_iff : parseBracketed s = some a ↔ Spelling a (91 :: s) := by
  constructor
  · intro h
    by_cases hs : 93 ∈ s
    case neg => simp [parseBracketed, hs] at h
    case pos =>
      obtain ⟨host, rest, rfl, hb⟩ := List.eq_append_cons_of_mem hs
      rw [parseBracketed_append hb, Option.ite_none_left_eq_some] at h
      obtain ⟨hh, h⟩ := h
      unfold parseRest at h
      split at h
      case h_1 =>
        cases h
        exact .bracketed hh hb rfl
      case h_2 =>
        obtain ⟨p, hp, rfl⟩ := Option.map_eq_some_iff.mp h
        exact .bracketedPort hh hb hp
      case h_3 => cases h
  · generalize ht : 91 :: s = t
    intro h
    cases h
    case host hb _ _ => simp [← ht] at hb
    case hostPort hh hb _ =>
      have first := congrArg List.head? ht
      rw [List.head?_append_of_ne_nil _ hh] at first
      exact absurd first.symm hb
    case bracketed hh hb hp =>
      cases ht
      rw [parseBracketed_append hb, if_neg hh, parseRest, ← hp]
    case bracketedPort hh hb hp =>
      cases ht
      rw [parseBracketed_append hb, if_neg hh, parseRest, hp]
      rfl

theorem afterLast_append {dir name : Bytes} {c : UInt8} (h : c ∉ name) :
    (dir ++ [c] ++ name).afterLast c = name := by
  have other : ∀ d ∈ name.reverse, (d != c) = true := by
    rintro d hd
    exact bne_iff_ne.mpr fun he => h (he ▸ List.mem_reverse.mp hd)
  simp [Bytes.afterLast, List.takeWhile_append_of_pos other]

theorem not_mem_of_parsePort (h : parsePort s = some p) (hc : isDigit c = false) : c ∉ s := by
  have ⟨spells, _⟩ := parsePort_iff.mp h
  exact fun hm => by simp [spells.digits c hm] at hc

theorem parsePlain_append {host : Bytes} (hh : host ≠ []) (hs : 58 ∉ s) :
    parsePlain (host ++ 58 :: s) = (parsePort s).map ({ host, port := · }) := by
  have text : host ++ 58 :: s = host ++ [58] ++ s := by simp
  have before : (host ++ 58 :: s).beforeLast 58 = host := by
    rw [text, Bytes.beforeLast_append hs]
  have after : (host ++ 58 :: s).afterLast 58 = s := by
    rw [text, afterLast_append hs]
  have colon : 58 ∈ host ++ 58 :: s := by simp
  simp only [parsePlain, before, after, colon, not_true, if_false]
  by_cases h : s = []
  case pos => simp [h]; rfl
  case neg => simp [h, hh]

theorem parsePlain_iff (hn : s ≠ []) (hb : s.head? ≠ some 91) :
    parsePlain s = some a ↔ Spelling a s := by
  constructor
  · intro h
    by_cases hc : 58 ∈ s
    case neg =>
      rw [parsePlain, if_pos hc] at h
      cases h
      exact .host hn hb hc rfl
    case pos =>
      obtain ⟨port, host, hs, hp⟩ := List.eq_append_cons_of_mem (List.mem_reverse.mpr hc)
      have text : s = host.reverse ++ 58 :: port.reverse := by simpa using congrArg List.reverse hs
      subst text
      have hp : 58 ∉ port.reverse := by simpa using hp
      by_cases hh : host.reverse = []
      case pos =>
        have empty : Bytes.beforeLast (58 :: port.reverse) 58 = [] :=
          @Bytes.beforeLast_append [] _ 58 hp
        simp [parsePlain, hh, empty] at h
      case neg =>
        rw [parsePlain_append hh hp] at h
        obtain ⟨p, hp, rfl⟩ := Option.map_eq_some_iff.mp h
        rw [List.head?_append_of_ne_nil _ hh] at hb
        exact .hostPort hh hb hp
  · intro h
    cases h
    case host hc hp => rw [parsePlain, if_pos hc, ← hp]
    case hostPort hh _ hp =>
      rw [parsePlain_append hh (not_mem_of_parsePort hp rfl), hp]
      rfl
    case bracketed => exact absurd rfl hb
    case bracketedPort => exact absurd rfl hb

theorem parse_iff : parse text = some a ↔ Spelling a (trim text) := by
  rw [parse]
  split
  case h_1 h =>
    exact ⟨by rintro ⟨⟩, fun hs => absurd h hs.ne_nil⟩
  case h_2 rest h => rw [h, parseBracketed_iff]
  case h_3 hn hb =>
    refine parsePlain_iff hn fun hh => ?_
    obtain ⟨rest, hr⟩ := List.head?_eq_some_iff.mp hh
    exact hb rest hr

def target (a : DeviceAddress) (defaultPort : UInt16) : Bytes × Int :=
  (a.host, (a.effective defaultPort).toNat)

-- A host that is read back from its own text.
def Reprints (host : Bytes) : Prop :=
  host.head? ≠ some 91 ∧ if 58 ∈ host then 93 ∉ host else ∀ c, host.head? = some c → ¬ isBlank c

-- A text without blanks around the host in which every colon outside brackets precedes a port.
def Plain (text : Bytes) : Prop :=
  (∀ c, text.head? = some c → ¬ isBlank c) ∧ (text.head? = some 91 ∨ text.count 58 ≤ 1) ∧
    (58 ∈ text ∨ text = trim text)

theorem parsePort_decimal {n : UInt16} (h : n ≠ 0) : parsePort (Bytes.decimal n.toNat) = some n :=
  parsePort_iff.mpr ⟨spells_decimal _, h⟩

theorem effective_ne_zero (hd : d ≠ 0) : effective a d ≠ 0 := by
  rw [effective]
  split
  case isTrue h => exact h
  case isFalse => exact hd

variable {a : DeviceAddress} {d : UInt16} {text : Bytes}

theorem toString_bracketed (h : a.needsBrackets) :
    toString a d = 91 :: (a.host ++ 93 :: 58 :: Bytes.decimal (a.effective d).toNat) := by
  simp [toString, h]

theorem toString_plain (h : ¬a.needsBrackets) :
    toString a d = a.host ++ 58 :: Bytes.decimal (a.effective d).toNat := by
  simp [toString, h]

theorem trim_toString (hf : ∀ c, (toString a d).head? = some c → isBlank c = false) :
    trim (toString a d) = toString a d := by
  refine trim_eq_self hf fun c hc => ?_
  have digits := (spells_decimal (a.effective d).toNat).nonempty
  have last : c ∈ Bytes.decimal (a.effective d).toNat := by
    rw [toString, List.getLast?_append, List.getLast?_cons_of_ne_nil digits,
      List.getLast?_eq_some_getLast digits] at hc
    cases hc
    exact List.getLast_mem digits
  by_contra ht
  have digit := isDigit_of_isTrailing (Bool.not_eq_false _ ▸ ht)
  simp [(spells_decimal _).digits c last] at digit

theorem Spelling.with_port (h : Spelling a s) (hp : a.port ≠ 0) :
    (a.host.head? ≠ some 91 ∧ ∃ r, s = a.host ++ 58 :: r) ∨
      93 ∉ a.host ∧ ∃ r, s = 91 :: (a.host ++ 93 :: 58 :: r) := by
  cases h
  case host h0 => exact absurd h0 hp
  case hostPort _ hb _ => exact .inl ⟨hb, _, rfl⟩
  case bracketed h0 => exact absurd h0 hp
  case bracketedPort _ hb _ => exact .inr ⟨hb, _, rfl⟩

theorem parse_toString_iff (hh : a.host ≠ []) (hd : d ≠ 0) :
    parse (a.toString d) = some { a with port := a.effective d } ↔ Reprints a.host := by
  have nonzero := effective_ne_zero (a := a) hd
  have port := parsePort_decimal nonzero
  rw [parse_iff]
  by_cases hb : a.needsBrackets
  case pos =>
    have ⟨hc, hf⟩ : 58 ∈ a.host ∧ a.host.head? ≠ some 91 := by simpa [needsBrackets] using hb
    rw [trim_toString (by rw [toString_bracketed hb]; rintro _ ⟨⟩; rfl), toString_bracketed hb]
    simp only [Reprints, hf, hc, if_true, ne_eq, not_false_eq_true, true_and]
    constructor
    · intro h
      rcases h.with_port nonzero with ⟨_, r, hr⟩ | ⟨hb, _⟩
      · have first := congrArg List.head? hr
        rw [List.head?_append_of_ne_nil _ hh] at first
        exact absurd first.symm hf
      · exact hb
    · intro h
      exact .bracketedPort hh h port
  case neg =>
    have plain (hf : a.host.head? ≠ some 91) : 58 ∉ a.host := by
      simpa [needsBrackets, hf] using hb
    constructor
    · intro h
      rcases h.with_port nonzero with ⟨hf, r, hr⟩ | ⟨hf, r, hr⟩
      · refine ⟨hf, ?_⟩
        rw [if_neg (plain hf)]
        intro c hc
        rw [isBlank_head_trim (by rw [hr, List.head?_append_of_ne_nil _ hh, hc])]
        exact Bool.false_ne_true
      · -- the closing bracket would have to come from the host
        obtain ⟨w₁, w₂, ht, _⟩ := trim_spec (a.toString d)
        have close : 93 ∈ a.toString d := by
          rw [ht, hr]
          simp
        rw [toString_plain hb] at close
        have digits := Bytes.not_mem_decimal (b := 93) (by decide) (by decide)
          (a.effective d).toNat
        simp [hf, digits] at close
    · rintro ⟨hf, hc⟩
      rw [if_neg (plain hf)] at hc
      rw [trim_toString, toString_plain hb]
      · exact .hostPort hh hf port
      · intro c hs
        rw [toString_plain hb, List.head?_append_of_ne_nil _ hh] at hs
        exact Bool.eq_false_iff.mpr (hc c hs)

theorem append_cons_inj {c : UInt8} {s t s' t' : Bytes} (hs : c ∉ s) (ht : c ∉ t)
    (h : s ++ c :: s' = t ++ c :: t') : s = t ∧ s' = t' := by
  have pieces := congrArg (List.splitOn c) h
  rw [List.splitOn_append_cons_self_of_not_mem hs, List.splitOn_append_cons_self_of_not_mem ht]
    at pieces
  obtain rfl := (List.cons.inj pieces).left
  exact ⟨rfl, (List.cons.inj (List.append_cancel_left h)).right⟩

theorem scanInt_decimal (n : UInt16) : scanInt (Bytes.decimal n.toNat) = some ↑n.toNat := by
  have bound := n.toNat_lt
  have read := scanInt_digits (w := []) (spells_decimal n.toNat) (by omega) (by simp)
  rwa [List.append_nil] at read

theorem Spelling.host_ne_nil (h : Spelling a s) : a.host ≠ [] := by
  cases h <;> assumption

theorem Spelling.not_mem_of_head (h : Spelling a s) (hf : a.host.head? = some 91) :
    93 ∉ a.host := by
  cases h
  case host hb _ _ => exact absurd hf hb
  case hostPort hb _ => exact absurd hf hb
  case bracketed hb _ => exact hb
  case bracketedPort hb _ => exact hb

theorem parseNetAddress_toString_iff (h : Spelling a s)
    (hx : parseNetAddress (a.toString d) n = some x) :
    x = a.target d ↔ ¬ [93, 58] <:+: a.host := by
  have hh := h.host_ne_nil
  have digits (c : UInt8) (h45 : c ≠ 45) (hd : c.toNat < 48 ∨ 57 < c.toNat) :=
    Bytes.not_mem_decimal h45 hd (a.effective d).toNat
  by_cases hb : a.needsBrackets
  case pos =>
    rw [toString_bracketed hb] at hx
    obtain ⟨hp, hs⟩ := parseNetAddress_bracket hx
    have after := afterBracket_append (91 :: a.host) (digits 93 (by decide) (by decide))
    rw [List.cons_append] at after
    rw [after, scanInt_decimal] at hs
    constructor
    · rintro rfl
      exact (beforeBracket_spec hp).right
    · intro hf
      rw [beforeBracket_append hf] at hp
      exact Prod.ext (Option.some.inj hp).symm (Option.some.inj hs).symm
  case neg =>
    rw [toString_plain hb] at hx
    by_cases hf : a.host.head? = some 91
    case pos =>
      have inside := h.not_mem_of_head hf
      obtain ⟨rest, hr⟩ := List.head?_eq_some_iff.mp hf
      rw [hr, List.mem_cons, not_or] at inside
      rw [hr, List.cons_append] at hx
      have none := beforeBracket_eq_none (s := rest ++ 58 :: Bytes.decimal (a.effective d).toNat)
        (by simp [inside, digits 93])
      exact absurd (parseNetAddress_bracket hx).left (by simp [none])
    case neg =>
      have plain : 58 ∉ a.host := by simpa [needsBrackets, hf] using hb
      have colon := digits 58 (by decide) (by decide)
      have apart : ¬ [93, 58] <:+: a.host := fun hi => plain (hi.subset (by simp))
      simp only [apart, not_false_eq_true, iff_true]
      rcases parseNetAddress_plain (by rwa [List.head?_append_of_ne_nil _ hh]) hx with
        ⟨hc, _⟩ | ⟨r, hr, hn, _, hs⟩
      · simp [List.count_eq_zero_of_not_mem plain, List.count_eq_zero_of_not_mem colon] at hc
      · obtain ⟨hh, rfl⟩ := append_cons_inj plain hn hr
        rw [scanInt_decimal] at hs
        exact Prod.ext hh.symm (Option.some.inj hs).symm

theorem trim_tail (h : ∀ c, text.head? = some c → ¬ isBlank c) :
    ∃ w, text = trim text ++ w ∧ ∀ c ∈ w, isTrailing c := by
  obtain ⟨w₁, w₂, ht, h₁, h₂⟩ := trim_spec text
  cases w₁
  case nil => exact ⟨w₂, ht, h₂⟩
  case cons c w₁ =>
    have first : text.head? = some c := by rw [ht]; rfl
    exact absurd (h₁ c List.mem_cons_self) (h c first)

theorem not_mem_trailing {w : Bytes} (h : ∀ c ∈ w, isTrailing c) (hc : isTrailing c = false) :
    c ∉ w := fun hm => by simp [h c hm] at hc

theorem scanInt_port {p : UInt16} (hp : parsePort s = some p) (hw : ∀ c ∈ w, isTrailing c) :
    scanInt (s ++ w) = some ↑p.toNat := by
  have bound := p.toNat_lt
  exact scanInt_digits (parsePort_iff.mp hp).left (by omega) fun c hc =>
    isDigit_of_isTrailing (hw c hc)

theorem target_of_port (hp : parsePort s = some a.port) : a.target d = (a.host, ↑a.port.toNat) := by
  rw [target, effective, if_pos (parsePort_iff.mp hp).right]

theorem parseNetAddress_brackets (h : Spelling a s) (hf : s.head? = some 91)
    (hw : ∀ c ∈ w, isTrailing c) (hx : parseNetAddress (s ++ w) n = some x) :
    x = a.target d ∧ 58 ∈ s := by
  have close := not_mem_trailing hw (c := 93) rfl
  cases h
  case host hb _ _ => exact absurd hf hb
  case hostPort hh hb _ =>
    rw [List.head?_append_of_ne_nil _ hh] at hf
    exact absurd hf hb
  case bracketed hb _ =>
    rw [List.cons_append, List.append_assoc, List.singleton_append] at hx
    obtain ⟨⟨r, hr⟩, _⟩ := beforeBracket_spec (parseNetAddress_bracket hx).left
    have once := congrArg (List.count 93) hr
    simp only [List.count_append, List.count_cons_self, List.count_eq_zero_of_not_mem hb,
      List.count_eq_zero_of_not_mem close] at once
    obtain ⟨_, rfl⟩ := append_cons_inj hb (List.count_eq_zero.mp (by omega)) hr
    exact absurd List.mem_cons_self (not_mem_trailing hw (c := 58) rfl)
  case bracketedPort s _ hb hp =>
    have apart : ¬ [93, 58] <:+: a.host := fun hi => hb (hi.subset (by simp))
    have port : 93 ∉ s ++ w := by
      simp [close, not_mem_of_parsePort (c := 93) hp rfl]
    rw [List.cons_append, List.append_assoc, List.cons_append, List.cons_append] at hx
    obtain ⟨hh, hs⟩ := parseNetAddress_bracket hx
    have after := afterBracket_append (91 :: a.host) port
    rw [List.cons_append] at after
    rw [after, scanInt_port hp hw] at hs
    rw [beforeBracket_append apart] at hh
    rw [target_of_port hp]
    exact ⟨Prod.ext (Option.some.inj hh).symm (Option.some.inj hs).symm, by simp⟩

theorem whole_iff (h : Spelling a (trim text)) (hb : text.head? ≠ some 91)
    (hc : 58 ∉ text ∨ 2 ≤ text.count 58) : (text, ↑d.toNat) = a.target d ↔ Plain text := by
  constructor
  · intro hx
    have same : text = a.host := congrArg Prod.fst hx
    obtain ⟨w₁, w₂, hw, _⟩ := trim_spec text
    have short := congrArg List.length hw
    have whole : text = trim text ∧ 58 ∉ text := by
      generalize trim text = t at h short
      simp only [List.length_append] at short
      cases h
      case host hc _ => exact ⟨same, same ▸ hc⟩
      all_goals
        simp only [List.length_append, List.length_cons, same] at short
        omega
    refine ⟨fun c hf => ?_, .inr ?_, .inr whole.left⟩
    · rw [isBlank_head_trim (whole.left ▸ hf)]
      exact Bool.false_ne_true
    · rw [List.count_eq_zero_of_not_mem whole.right]
      exact Nat.zero_le 1
  · rintro ⟨-, hn, hs⟩
    have colon : 58 ∉ text := hc.resolve_right (by have := hn.resolve_left hb; omega)
    rw [← hs.resolve_left colon] at h
    cases h
    case host hp => rw [target, effective, hp]; rfl
    case hostPort => simp at colon
    case bracketed => exact absurd rfl hb
    case bracketedPort => exact absurd rfl hb

theorem Spelling.starts_text (h : Spelling a s) (h₁ : 58 ∉ w₁) (h₂ : 58 ∉ w₂) (hn : 58 ∉ a.host)
    (ht : w₁ ++ (s ++ w₂) = a.host ++ 58 :: r) : w₁ = [] := by
  have colon : 58 ∈ w₁ ++ (s ++ w₂) := by simp [ht]
  cases h
  case host => simp [h₁, h₂, hn] at colon
  case bracketed => simp [h₁, h₂, hn] at colon
  case hostPort s _ _ _ =>
    have text : (w₁ ++ a.host) ++ 58 :: (s ++ w₂) = a.host ++ 58 :: r := by simpa using ht
    simpa using (append_cons_inj (by simp [h₁, hn]) hn text).left
  case bracketedPort s _ _ _ =>
    have text : (w₁ ++ 91 :: (a.host ++ [93])) ++ 58 :: (s ++ w₂) = a.host ++ 58 :: r := by
      simpa using ht
    have longer := congrArg List.length (append_cons_inj (by simp [h₁, hn]) hn text).left
    simp only [List.length_append, List.length_cons] at longer
    omega

theorem piece_iff (h : Spelling a (trim text)) (hb : text.head? ≠ some 91)
    (ht : text = x.1 ++ 58 :: r) (hn : 58 ∉ x.1) (hr : 58 ∉ r) (hs : scanInt r = some x.2) :
    x = a.target d ↔ Plain text := by
  have colon : 58 ∈ text := by simp [ht]
  have once : text.count 58 = 1 := by
    simp [ht, List.count_eq_zero_of_not_mem hn, List.count_eq_zero_of_not_mem hr]
  constructor
  · rintro rfl
    obtain ⟨w₁, w₂, hw, h₁, h₂⟩ := trim_spec text
    have before : 58 ∉ w₁ := fun hm => absurd (h₁ 58 hm) (by decide)
    have behind := not_mem_trailing h₂ (c := 58) rfl
    have first := h.starts_text before behind hn (hw ▸ ht)
    rw [first, List.nil_append] at hw
    refine ⟨fun c hc => ?_, .inr once.le, .inl colon⟩
    rw [hw, List.head?_append_of_ne_nil _ h.ne_nil] at hc
    rw [isBlank_head_trim hc]
    exact Bool.false_ne_true
  · rintro ⟨hf, -⟩
    obtain ⟨w, hw, trailing⟩ := trim_tail hf
    have behind := not_mem_trailing trailing (c := 58) rfl
    generalize trim text = t at h hw
    subst hw
    cases h
    case host hc _ => simp [hc, behind] at colon
    case hostPort s hh _ hp =>
      simp only [List.append_assoc, List.cons_append, List.count_append, List.count_cons_self] at once
      rw [List.append_assoc, List.cons_append] at ht
      obtain ⟨hh, rfl⟩ := append_cons_inj (List.count_eq_zero.mp (by omega)) hn ht
      rw [scanInt_port hp trailing] at hs
      rw [target_of_port hp]
      exact Prod.ext hh.symm (Option.some.inj hs).symm
    case bracketed => exact absurd rfl hb
    case bracketedPort => exact absurd rfl hb

theorem parseNetAddress_text_iff (h : parse text = some a)
    (hx : parseNetAddress text d.toNat = some x) : x = a.target d ↔ Plain text := by
  have spelling := parse_iff.mp h
  by_cases hb : text.head? = some 91
  case pos =>
    have first (c) (hc : text.head? = some c) : ¬ isBlank c := by
      rw [hb] at hc
      cases hc
      decide
    obtain ⟨w, ht, hw⟩ := trim_tail first
    have bracket : (trim text).head? = some 91 := by
      rwa [ht, List.head?_append_of_ne_nil _ spelling.ne_nil] at hb
    rw [ht] at hx
    have ⟨hx, hc⟩ := parseNetAddress_brackets (d := d) spelling bracket hw hx
    exact iff_of_true hx ⟨first, .inl hb, .inl (ht ▸ List.mem_append_left w hc)⟩
  case neg =>
    rcases parseNetAddress_plain hb hx with ⟨hc, rfl⟩ | ⟨r, hr, hn, hp, hs⟩
    · exact whole_iff spelling hb hc
    · exact piece_iff spelling hb hr hn hp hs

theorem parsers_agree_iff (ha : parse text = some a) (hd : d ≠ 0) :
    (parse (normalizeAddress text d) = some { a with port := a.effective d } ↔ Reprints a.host) ∧
    (∀ x, parseNetAddress text d.toNat = some x → (x = a.target d ↔ Plain text)) ∧
    (∀ n x, parseNetAddress (normalizeAddress text d) n = some x →
      (x = a.target d ↔ ¬ [93, 58] <:+: a.host)) := by
  have spelling := parse_iff.mp ha
  have serial : normalizeAddress text d = a.toString d := by simp [normalizeAddress, ha]
  rw [serial]
  exact ⟨parse_toString_iff spelling.host_ne_nil hd, fun _ hx => parseNetAddress_text_iff ha hx,
    fun _ _ hx => parseNetAddress_toString_iff spelling hx⟩

theorem parsers_agree_bracketed :
    parse (normalizeAddress (ascii "[fe80::1]:99") 5555) =
      some { host := ascii "fe80::1", port := 99 } ∧
    Plain (ascii "[fe80::1]:99") ∧ ¬ [93, 58] <:+: ascii "fe80::1" := by
  have accepted : parse (ascii "[fe80::1]:99") = some { host := ascii "fe80::1", port := 99 } := by
    decide +kernel
  have ⟨round, text, serial⟩ := parsers_agree_iff (d := 5555) accepted (by decide)
  refine ⟨round.mpr ⟨by decide, ?_⟩, (text (ascii "fe80::1", 99) (by decide +kernel)).mp rfl,
    (serial 0 (ascii "fe80::1", 99) (by decide +kernel)).mp rfl⟩
  rw [if_pos (by decide)]
  decide

-- An address without brackets loses its last group to the port, a host that starts with a bracket
-- has no brackets around it when it is printed, and one that has a bracket before a colon ends there
-- for the transport.
theorem parsers_disagree :
    parse (ascii "::1") = some { host := ascii ":", port := 1 } ∧
    parseNetAddress (ascii "::1") 5555 = some (ascii "::1", 5555) ∧
    parse (ascii "[[a]:5") = some { host := ascii "[a", port := 5 } ∧
    parse (normalizeAddress (ascii "[[a]:5") 5555) = none ∧
    parse (ascii "a]:b:5") = some { host := ascii "a]:b", port := 5 } ∧
    parseNetAddress (normalizeAddress (ascii "a]:b:5") 5555) 5555 = some (ascii "a", 5) := by
  decide +kernel

end DeviceAddress
