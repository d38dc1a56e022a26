import Mathlib.Data.List.Basic
import Mathlib.Tactic.Common

-- How a POSIX shell takes a command line apart: quotes are removed, and what it would expand
-- (parameters, commands, paths and `~`) has no reading here.
namespace ShellWords

inductive Token where
  | word (s : List UInt8)
  | number (s : List UInt8)
  | operator (c : UInt8)
  deriving DecidableEq, Repr

inductive Mode where
  | plain
  | escape
  | single
  | double
  | doubleEscape
  | comment
  deriving DecidableEq, Repr

structure Reader where
  tokens  : List Token := []
  word    : Option (List UInt8) := none
  quoted  : Bool := false
  mode    : Mode := .plain
  bracket : Option Bool := none
  deriving DecidableEq, Repr

-- A newline and `&`, `(`, `)`, `;`, `<`, `>`, `|`.
def isOperator (c : UInt8) : Bool :=
  [10, 38, 40, 41, 59, 60, 62, 124].contains c

-- `$`, `*`, `?` and the backquote.
def isActive (c : UInt8) : Bool :=
  [36, 42, 63, 96].contains c

-- Whether a word stands right behind a `[` (with `!`) or in the expression that this opens. A slash
-- ends it. A `]` completes an expression, which would be expanded; without one the `[` is literal.
def bracketStep (bracket : Option Bool) (c : UInt8) : Option (Option Bool) :=
  match bracket with
  | none => some (if c = 91 then some false else none)
  | some false => some (if c = 33 then some false else if c = 47 then none else some true)
  | some true => if c = 93 then none else some (if c = 47 then none else some true)

def isDigit (c : UInt8) : Bool :=
  48 ≤ c && c ≤ 57

namespace Reader

def put (r : Reader) (c : UInt8) : Reader :=
  { r with word := some (r.word.getD [] ++ [c]), bracket := r.bracket.map fun _ => true }

-- A quotation begins or ends, and there is a word even if it is empty.
def quote (r : Reader) (mode : Mode) : Reader :=
  { r with word := some (r.word.getD []), quoted := true, mode }

def delimit (r : Reader) : Reader :=
  { tokens := r.tokens ++ r.word.toList.map .word, mode := r.mode }

-- Digits right before `<` and `>` are the number of a descriptor.
def operator (r : Reader) (c : UInt8) : Reader :=
  let ended := if (c = 60 || c = 62) && !r.quoted && r.word.any (·.all isDigit) then
      { tokens := r.tokens ++ r.word.toList.map .number }
    else r.delimit
  { ended with tokens := ended.tokens ++ [.operator c], mode := .plain }

def stepPlain (r : Reader) (c : UInt8) : Option Reader :=
  if c = 39 then some (r.quote .single)
  else if c = 34 then some (r.quote .double)
  else if c = 92 then some { r with mode := .escape }
  else if c = 32 || c = 9 then some r.delimit
  else if isOperator c then some (r.operator c)
  else if isActive c then none
  else if r.word = none && c = 35 then some { r with mode := .comment }
  else if r.word = none && c = 126 then none
  else match bracketStep r.bracket c with
    | none => none
    | some bracket => some { r.put c with bracket }

def step (r : Reader) (c : UInt8) : Option Reader :=
  match r.mode with
  | .plain => r.stepPlain c
  | .escape =>
    some (if c = 10 then { r with mode := .plain }
      else { r.put c with quoted := true, mode := .plain })
  | .single => some (if c = 39 then r.quote .plain else r.put c)
  | .double =>
    if c = 34 then some (r.quote .plain)
    else if c = 92 then some { r with mode := .doubleEscape }
    else if c = 36 || c = 96 then none
    else some (r.put c)
  | .doubleEscape =>
    some (if c = 10 then { r with mode := .double }
      else if c = 34 || c = 36 || c = 92 || c = 96 then { r.put c with mode := .double }
      else { (r.put 92).put c with mode := .double })
  | .comment => some (if c = 10 then r.operator c else r)

def run (r : Reader) (s : List UInt8) : Option Reader :=
  s.foldlM step r

def finish (r : Reader) : Option (List Token) :=
  if r.mode = .plain || r.mode = .comment then some r.delimit.tokens else none

def parse (r : Reader) (s : List UInt8) : Option (List Token) :=
  (r.run s).bind finish

end Reader

-- What stands for itself outside of quotes, if a word has begun.
def isLiteral (c : UInt8) : Bool :=
  !([9, 32, 34, 39, 92].contains c || isOperator c || isActive c)

-- A word that needs no quotes.
def Bare (s : List UInt8) : Prop :=
  (s.all isLiteral ∧ (s.foldlM bracketStep none).isSome) ∧
    s.head? ≠ none ∧ s.head? ≠ some 35 ∧ s.head? ≠ some 126
  deriving Decidable

namespace Reader

variable {r r' : Reader} {c : UInt8} {s t : List UInt8}

theorem run_cons : r.run (c :: s) = (r.step c).bind (·.run s) := rfl

theorem run_append : r.run (s ++ t) = (r.run s).bind (·.run t) :=
  List.foldlM_append ..

theorem parse_bind : r.parse (s ++ t) = (r.run s).bind (·.parse t) := by
  rw [parse, run_append, Option.bind_assoc]
  rfl

theorem parse_append (h : r.run s = some r') : r.parse (s ++ t) = r'.parse t := by
  rw [parse_bind, h, Option.bind_some]

theorem stepPlain_literal (hc : isLiteral c) (h : r.word = none → c ≠ 35 ∧ c ≠ 126) :
    r.stepPlain c = (bracketStep r.bracket c).map ({ r.put c with bracket := · }) := by
  simp only [isLiteral, List.contains_cons, List.contains_nil, Bool.or_false, Bool.not_or,
    Bool.and_eq_true, Bool.not_eq_eq_eq_not, Bool.not_true, beq_eq_false_iff_ne] at hc
  simp only [stepPlain]
  grind

theorem run_literal (hm : r.mode = .plain) (hs : s.all isLiteral)
    (h : r.word = none → s.head? ≠ some 35 ∧ s.head? ≠ some 126) (hn : s ≠ []) :
    r.run s = (s.foldlM bracketStep r.bracket).map
      ({ r with word := some (r.word.getD [] ++ s), bracket := · }) := by
  induction s generalizing r
  case nil => contradiction
  case cons c s hi =>
    simp only [List.all_cons, Bool.and_eq_true] at hs
    simp only [List.head?_cons, ne_eq, Option.some.injEq] at h
    have first : r.step c = (bracketStep r.bracket c).map ({ r.put c with bracket := · }) := by
      rw [step, hm]
      exact stepPlain_literal hs.left h
    rw [run_cons, first, List.foldlM_cons]
    cases bracketStep r.bracket c
    case none => rfl
    case some bracket =>
      by_cases hs' : s = []
      case pos =>
        rw [hs']
        rfl
      case neg =>
        have rest := hi (r := { r.put c with bracket }) hm hs.right nofun hs'
        rw [Option.map_some, Option.bind_some]
        refine rest.trans ?_
        simp [put]

theorem run_single (hm : r.mode = .single) (hs : 39 ∉ s) (hw : r.word = some w) :
    r.run s = some { r with
      word := some (w ++ s), bracket := r.bracket.map fun inside => inside || !s.isEmpty } := by
  induction s generalizing r w
  case nil =>
    rw [List.append_nil, ← hw]
    simp [run]
  case cons c s hi =>
    rw [List.mem_cons, not_or] at hs
    have first : r.step c = some (r.put c) := by
      rw [step, hm]
      exact congrArg some (if_neg (Ne.symm hs.left))
    rw [run_cons, first, Option.bind_some,
      hi (r := r.put c) hm hs.right (w := w ++ [c]) (by simp [put, hw])]
    cases hb : r.bracket <;> simp [put, hb]

end Reader

-- No character adds more than one to the size of what was read, where the end of a word counts as
-- well and a backslash is to be paid back.

def Token.weight : Token → Nat
  | .word s     => s.length + 1
  | .number s   => s.length + 1
  | .operator _ => 0

def weight : List Token → Nat
  | []              => 0
  | token :: tokens => token.weight + weight tokens

def Mode.debt : Mode → Nat
  | .escape | .doubleEscape => 1
  | _                       => 0

namespace Reader

def size (r : Reader) : Nat :=
  ShellWords.weight r.tokens + (r.word.getD []).length + 1

def weight (r : Reader) : Nat :=
  r.size + r.mode.debt

variable {r r' : Reader} {c : UInt8} {s : List UInt8} {tokens : List Token}

theorem weight_append (l l' : List Token) :
    ShellWords.weight (l ++ l') = ShellWords.weight l + ShellWords.weight l' := by
  induction l
  case nil => simp [ShellWords.weight]
  case cons hi => simp [ShellWords.weight, hi, Nat.add_assoc]

theorem weight_delimit (r : Reader) : ShellWords.weight r.delimit.tokens ≤ r.size := by
  rw [delimit, weight_append, size]
  cases r.word <;> simp [ShellWords.weight, Token.weight, Nat.add_assoc]

theorem weight_operator (r : Reader) (c : UInt8) :
    ShellWords.weight (r.operator c).tokens ≤ r.size := by
  have delimited := weight_delimit r
  simp only [operator]
  split
  · rw [weight_append, weight_append, size]
    cases r.word <;> simp [ShellWords.weight, Token.weight, Nat.add_assoc]
  · rw [weight_append]
    exact delimited

theorem size_put (r : Reader) (c : UInt8) : (r.put c).size = r.size + 1 := by
  simp [put, size]
  omega

theorem size_quote (r : Reader) (mode : Mode) : (r.quote mode).size = r.size := rfl

theorem size_delimit (r : Reader) : r.delimit.size ≤ r.size + 1 :=
  Nat.succ_le_succ (weight_delimit r)

theorem size_operator (r : Reader) (c : UInt8) : (r.operator c).size ≤ r.size + 1 := by
  have := weight_operator r c
  have word : (r.operator c).word = none := by
    simp only [operator]
    split <;> rfl
  rw [size, word]
  exact Nat.succ_le_succ this

theorem size_mk (r : Reader) (quoted : Bool) (mode : Mode) (bracket : Option Bool) :
    ({ r with quoted, mode, bracket } : Reader).size = r.size := rfl

theorem put_mode (r : Reader) (c : UInt8) : (r.put c).mode = r.mode := rfl

theorem quote_mode (r : Reader) (mode : Mode) : (r.quote mode).mode = mode := rfl

theorem delimit_mode (r : Reader) : r.delimit.mode = r.mode := rfl

theorem operator_mode (r : Reader) (c : UInt8) : (r.operator c).mode = .plain := rfl

theorem step_weight (h : r.step c = some r') : r'.weight ≤ r.weight + 1 := by
  have delimit := size_delimit r
  have operator := size_operator r c
  simp only [step, stepPlain] at h
  split at h
  all_goals
    rename_i hm
    repeat' split at h
    all_goals cases h
    all_goals simp only [weight, size_mk, size_put, size_quote, put_mode, quote_mode,
      delimit_mode, operator_mode, hm, Mode.debt]
    all_goals omega

theorem run_weight (h : r.run s = some r') : r'.weight ≤ r.weight + s.length := by
  induction s generalizing r
  case nil =>
    cases h
    exact Nat.le_refl _
  case cons c s hi =>
    obtain ⟨r₁, hs, h⟩ := Option.bind_eq_some_iff.mp (run_cons.symm.trans h)
    have := step_weight hs
    have := hi h
    rw [List.length_cons]
    omega

theorem finish_weight (h : r.finish = some tokens) : ShellWords.weight tokens ≤ r.weight := by
  obtain ⟨-, ⟨⟩⟩ := Option.ite_none_right_eq_some.mp h
  exact Nat.le_add_right_of_le (weight_delimit r)

theorem step_tokens (h : r.step c = some r') : r.tokens <+: r'.tokens := by
  have operated : r.tokens <+: (r.operator c).tokens := by
    simp only [operator]
    split <;> simp [delimit, List.append_assoc]
  simp only [step, stepPlain] at h
  grind [put, quote, delimit]

theorem run_tokens (h : r.run s = some r') : r.tokens <+: r'.tokens := by
  induction s generalizing r
  case nil =>
    cases h
    exact List.prefix_rfl
  case cons c s hi =>
    obtain ⟨r₁, hs, h⟩ := Option.bind_eq_some_iff.mp (run_cons.symm.trans h)
    exact (step_tokens hs).trans (hi h)

theorem parse_weight (h : r.parse s = some tokens) :
    ShellWords.weight tokens ≤ r.weight + s.length := by
  obtain ⟨r', hr, hf⟩ := Option.bind_eq_some_iff.mp h
  exact Nat.le_trans (finish_weight hf) (run_weight hr)

theorem parse_tokens (h : r.parse s = some tokens) : r.tokens <+: tokens := by
  obtain ⟨r', hr, hf⟩ := Option.bind_eq_some_iff.mp h
  obtain ⟨-, ⟨⟩⟩ := Option.ite_none_right_eq_some.mp hf
  exact (run_tokens hr).trans (List.prefix_append ..)

theorem parse_cons : r.parse (c :: s) = (r.step c).bind (·.parse s) := by
  rw [parse, run_cons, Option.bind_assoc]
  rfl

end Reader

-- What may follow a word: it ends the word, and the rest is read as these tokens.
structure Tail (t : List UInt8) (rest : List Token) : Prop where
  begins : t = [] ∨ t.head? = some 32
  reads  : ∀ (r : Reader) w, r.mode = .plain → r.word = some w →
    r.parse t = some (r.tokens ++ .word w :: rest)

section Bare

variable {r r' : Reader} {c : UInt8} {s t : List UInt8} {rest : List Token}

theorem foldlM_bracketStep (hs : 91 ∉ s) : s.foldlM bracketStep none = some none := by
  induction s
  case nil => rfl
  case cons c s hi =>
    rw [List.mem_cons, not_or] at hs
    have first : bracketStep none c = some none := congrArg some (if_neg (Ne.symm hs.left))
    rw [List.foldlM_cons, first]
    exact hi hs.right

theorem run_bare (hm : r.mode = .plain) (hn : r.word = none) (hb : r.bracket = none)
    (hs : Bare s) : ∃ bracket, r.run s = some { r with word := some s, bracket } := by
  obtain ⟨⟨literal, brackets⟩, nonempty, hash, tilde⟩ := hs
  obtain ⟨bracket, brackets⟩ := Option.isSome_iff_exists.mp brackets
  have run := r.run_literal hm literal (fun _ => ⟨hash, tilde⟩) (by
    rintro rfl
    exact nonempty rfl)
  rw [hb, hn, brackets, Option.map_some] at run
  exact ⟨bracket, run⟩

theorem parse_of_bare (ht : Tail t rest) (hm : r.mode = .plain) (hn : r.word = none)
    (hb : r.bracket = none) (hs : Bare s) :
    r.parse (s ++ t) = some (r.tokens ++ .word s :: rest) := by
  obtain ⟨bracket, run⟩ := run_bare hm hn hb hs
  rw [Reader.parse_append run]
  exact ht.reads { r with word := some s, bracket } s hm rfl

theorem delimit_cases (r : Reader) : r.delimit.weight ≤ r.weight ∨
    ∃ x l, r.delimit.tokens = r.tokens ++ x :: l ∧ ∀ w, x = .word w → r.word = some w := by
  cases hw : r.word
  case none =>
    refine .inl (Nat.le_of_eq ?_)
    simp [Reader.weight, Reader.size, Reader.delimit, hw]
  case some w => exact .inr ⟨.word w, [], by simp [Reader.delimit, hw], by simp⟩

theorem operator_cases (r : Reader) (c : UInt8) :
    ∃ x l, (r.operator c).tokens = r.tokens ++ x :: l ∧ ∀ w, x = .word w → r.word = some w := by
  simp only [Reader.operator]
  cases hw : r.word
  case none => exact ⟨.operator c, [], by simp [Reader.delimit, hw], nofun⟩
  case some w =>
    split
    · exact ⟨.number w, [.operator c], by simp, nofun⟩
    · exact ⟨.word w, [.operator c], by simp [Reader.delimit, hw], by simp⟩

-- A character that does not stand for itself is lost, has no reading, or ends the word.
theorem stepPlain_special (hc : isLiteral c = false ∨ r.word = none ∧ (c = 35 ∨ c = 126))
    (h : r.stepPlain c = some r') : r'.weight ≤ r.weight ∨ r' = { r with mode := .escape } ∨
      ∃ x l, r'.tokens = r.tokens ++ x :: l ∧ ∀ w, x = .word w → r.word = some w := by
  simp only [Reader.stepPlain] at h
  repeat' split at h
  all_goals cases h
  · exact .inl (Nat.le_add_right ..)
  · exact .inl (Nat.le_add_right ..)
  · exact .inr (.inl rfl)
  · exact (delimit_cases r).imp_right .inr
  · exact .inr (.inr (operator_cases r c))
  · exact .inl (Nat.le_add_right ..)
  · simp only [isLiteral] at hc
    grind

theorem exists_not_literal (hs : ¬s.all isLiteral) :
    ∃ a c b, s = a ++ c :: b ∧ a.all isLiteral ∧ isLiteral c = false := by
  induction s
  case nil => simp at hs
  case cons d l hi =>
    by_cases hd : isLiteral d
    case neg => exact ⟨[], d, l, rfl, rfl, Bool.eq_false_iff.mpr hd⟩
    case pos =>
      obtain ⟨a, c, b, rfl, ha, hc⟩ := hi (by simpa [hd] using hs)
      exact ⟨d :: a, c, b, rfl, by simp [hd, ha], hc⟩

theorem exists_special (hn : s ≠ []) (hs : ¬Bare s) :
    (s.all isLiteral ∧ s.head? ≠ some 35 ∧ s.head? ≠ some 126 ∧
      s.foldlM bracketStep none = none) ∨
    ∃ a c b, s = a ++ c :: b ∧ a.all isLiteral ∧ a.head? ≠ some 35 ∧ a.head? ≠ some 126 ∧
      (isLiteral c = false ∨ a = [] ∧ (c = 35 ∨ c = 126)) := by
  by_cases hd : s.head? = some 35 ∨ s.head? = some 126
  case pos =>
    obtain ⟨d, l, rfl⟩ := List.exists_cons_of_ne_nil hn
    exact .inr ⟨[], d, l, rfl, rfl, nofun, nofun, .inr ⟨rfl, by simpa using hd⟩⟩
  case neg =>
    rw [not_or] at hd
    by_cases hl : s.all isLiteral
    case pos =>
      refine .inl ⟨hl, hd.left, hd.right, Option.not_isSome_iff_eq_none.mp fun hb => ?_⟩
      exact hs ⟨⟨hl, hb⟩, by simpa using hn, hd.left, hd.right⟩
    case neg =>
      obtain ⟨a, c, b, rfl, ha, hc⟩ := exists_not_literal hl
      refine .inr ⟨a, c, b, rfl, ha, ?_, ?_, .inl hc⟩
      all_goals cases a <;> simp_all

-- The reader has the literal characters before it in its word.
theorem run_before (hm : r.mode = .plain) (hn : r.word = none) (ha : s.all isLiteral)
    (hash : s.head? ≠ some 35) (tilde : s.head? ≠ some 126) (h : r.run s = some r') :
    r'.mode = .plain ∧ r'.tokens = r.tokens ∧
      r'.word = (if s = [] then none else some s) ∧ r'.weight = r.weight + s.length := by
  by_cases hs : s = []
  case pos =>
    subst hs
    cases h
    exact ⟨hm, rfl, hn, rfl⟩
  case neg =>
    rw [r.run_literal hm ha (fun _ => ⟨hash, tilde⟩) hs, Option.map_eq_some_iff] at h
    obtain ⟨bracket, -, rfl⟩ := h
    refine ⟨hm, rfl, ?_, ?_⟩
    · simp [hn, hs]
    · simp [Reader.weight, Reader.size, hn, hm]
      omega

theorem escape_weight (hm : r.mode = .escape) (h : r.step c = some r') : r'.weight ≤ r.weight := by
  rw [Reader.step, hm] at h
  cases h
  split
  · exact Nat.le_add_right ..
  · simp [Reader.weight, Reader.size_mk, Reader.size_put, hm, Mode.debt]

theorem parse_escape_weight (hm : r.mode = .plain)
    (h : ({ r with mode := .escape } : Reader).parse s = some tokens) :
    weight tokens ≤ r.weight + s.length := by
  have debt : ({ r with mode := .escape } : Reader).weight = r.weight + 1 := by
    simp [Reader.weight, Reader.size, hm, Mode.debt]
  cases s
  case nil => cases h
  case cons c s =>
    obtain ⟨r', step, h⟩ := Option.bind_eq_some_iff.mp (Reader.parse_cons.symm.trans h)
    have := escape_weight rfl step
    have := Reader.parse_weight h
    rw [List.length_cons]
    omega

theorem weight_word (hw : weight rest = t.length) (tokens : List Token) (s : List UInt8) :
    weight (tokens ++ .word s :: rest) = weight tokens + s.length + 1 + t.length := by
  rw [Reader.weight_append, ← hw]
  simp [weight, Token.weight]
  omega

theorem parse_tail_ne (ht : Tail t rest) (hw : weight rest = t.length) (hm : r.mode = .plain)
    (hn : r.word = none) : r.parse t ≠ some (r.tokens ++ .word [] :: rest) := by
  intro h
  rcases ht.begins with rfl | hb
  · simp [Reader.parse, Reader.run, Reader.finish, hm, Reader.delimit, hn] at h
  · obtain ⟨t, rfl⟩ : ∃ t', t = 32 :: t' := by
      cases t <;> simp_all
    obtain ⟨r₁, step, h⟩ := Option.bind_eq_some_iff.mp (Reader.parse_cons.symm.trans h)
    rw [Reader.step, hm] at step
    cases step
    have same : r.delimit.weight = weight r.tokens + 1 := by
      simp [Reader.weight, Reader.size, Reader.delimit, hn, hm, Mode.debt]
    have := Reader.parse_weight h
    rw [weight_word hw, same, List.length_cons, List.length_nil] at this
    omega

-- Every character counts in a word, so none of them can be lost.
theorem bare_of_parse (ht : Tail t rest) (hw : weight rest = t.length) (hm : r.mode = .plain)
    (hn : r.word = none) (hb : r.bracket = none)
    (h : r.parse (s ++ t) = some (r.tokens ++ .word s :: rest)) : Bare s := by
  by_contra bare
  by_cases hs : s = []
  case pos => exact parse_tail_ne ht hw hm hn (by rwa [hs] at h)
  case neg =>
    rcases exists_special hs bare with ⟨literal, hash, tilde, brackets⟩ |
      ⟨a, c, b, rfl, literal, hash, tilde, special⟩
    · rw [Reader.parse_bind, r.run_literal hm literal (fun _ => ⟨hash, tilde⟩) hs, hb, brackets] at h
      cases h
    rw [List.append_assoc, Reader.parse_bind, List.cons_append] at h
    obtain ⟨r₁, run, h⟩ := Option.bind_eq_some_iff.mp h
    obtain ⟨hm₁, ht₁, hw₁, weight₁⟩ := run_before hm hn literal hash tilde run
    have lost : ¬weight (r.tokens ++ .word (a ++ c :: b) :: rest) ≤ r₁.weight + (b ++ t).length := by
      have start : r.weight = weight r.tokens + 1 := by
        simp [Reader.weight, Reader.size, hn, hm, Mode.debt]
      rw [weight_word hw, List.length_append, List.length_append, List.length_cons]
      omega
    obtain ⟨r₂, step, h⟩ := Option.bind_eq_some_iff.mp (Reader.parse_cons.symm.trans h)
    rw [Reader.step, hm₁] at step
    rcases stepPlain_special (special.imp_right fun h => ⟨by simp [hw₁, h.left], h.right⟩) step
      with hle | rfl | ⟨x, l, hx, hword⟩
    · exact lost (Nat.le_trans (Reader.parse_weight h) (Nat.add_le_add_right hle _))
    · exact lost (parse_escape_weight hm₁ h)
    · have := Reader.parse_tokens h
      rw [hx, ht₁, List.prefix_append_right_inj, List.cons_prefix_cons] at this
      have := hword _ this.left
      rw [hw₁] at this
      split at this <;> simp at this

end Bare

-- What may follow a closing quote: it has quotes of its own in pairs, and no others.
structure Closing (t : List UInt8) (rest : List Token) : Prop extends Tail t rest where
  closed : ∀ r : Reader, r.mode = .single → r.parse t = none
  double : 34 ∉ t
  line   : 10 ∉ t

section Quoted

variable {r r' : Reader} {s t : List UInt8} {rest tokens : List Token}

theorem parse_quote (hm : r.mode = .plain) (hn : r.word = none) (hb : r.bracket = none)
    (hs : 39 ∉ s) :
    r.parse (39 :: (s ++ 39 :: t)) =
      ({ r with word := some s, quoted := true } : Reader).parse t := by
  have first : r.step 39 = some (r.quote .single) := by
    rw [Reader.step, hm]
    rfl
  have run := (r.quote .single).run_single rfl hs rfl
  rw [Reader.parse_cons, first, Option.bind_some, Reader.parse_append run, Reader.parse_cons]
  simp [Reader.step, Reader.quote, hn, hm, hb]

theorem parse_of_quoted (ht : Tail t rest) (hm : r.mode = .plain) (hn : r.word = none)
    (hb : r.bracket = none) (hs : 39 ∉ s) :
    r.parse (39 :: (s ++ 39 :: t)) = some (r.tokens ++ .word s :: rest) := by
  rw [parse_quote hm hn hb hs]
  exact ht.reads _ s hm rfl

theorem parse_double (hm : r.mode = .double ∨ r.mode = .doubleEscape) (ht : 34 ∉ t) :
    r.parse t = none := by
  induction t generalizing r
  case nil => rcases hm with hm | hm <;> simp [Reader.parse, Reader.run, Reader.finish, hm]
  case cons c t hi =>
    rw [List.mem_cons, not_or] at ht
    rw [Reader.parse_cons, Option.bind_eq_none_iff]
    intro r' hs
    apply hi _ ht.right
    simp only [Reader.step] at hs
    rcases hm with hm | hm <;> simp only [hm] at hs <;> grind [Reader.put]

theorem run_comment (hm : r.mode = .comment) (ht : 10 ∉ t) : r.run t = some r := by
  induction t
  case nil => rfl
  case cons c t hi =>
    rw [List.mem_cons, not_or] at ht
    have first : r.step c = some r := by
      rw [Reader.step, hm]
      exact congrArg some (if_neg (Ne.symm ht.left))
    rw [Reader.run_cons, first]
    exact hi ht.right

-- The text behind the last quote adds no more than its own tokens.
theorem closing_weight (ht : Closing t rest) (h : r.parse (39 :: t) = some tokens) :
    weight tokens ≤ r.weight + weight rest := by
  have word (w : List UInt8) (l : List Token) : weight (l ++ .word w :: rest) =
      weight l + w.length + 1 + weight rest := by
    rw [Reader.weight_append]
    simp [weight, Token.weight]
    omega
  have double : ¬(r.mode = .double ∨ r.mode = .doubleEscape) := by
    intro hd
    rw [parse_double hd (by simpa using ht.double)] at h
    cases h
  rw [Reader.parse_cons] at h
  cases hm : r.mode <;> simp only [Reader.step, hm] at h
  case plain =>
    rw [show r.stepPlain 39 = some (r.quote .single) from rfl, Option.bind_some,
      ht.closed _ rfl] at h
    cases h
  case single =>
    rw [if_pos trivial, Option.bind_some, ht.reads (r.quote .plain) _ rfl rfl] at h
    cases h
    rw [word]
    exact Nat.add_le_add_right (Nat.le_add_right ..) _
  case escape =>
    rw [if_neg (by decide), Option.bind_some, ht.reads _ _ rfl rfl] at h
    cases h
    rw [word, Reader.weight, hm]
    simp [Reader.put, Reader.size, Mode.debt]
    omega
  case comment =>
    rw [if_neg (by decide), Option.bind_some, Reader.parse, run_comment hm ht.line] at h
    exact Nat.le_add_right_of_le (Reader.finish_weight h)
  case double => exact absurd (.inl hm) double
  case doubleEscape => exact absurd (.inr hm) double

theorem not_mem_of_parse (ht : Closing t rest) (hm : r.mode = .plain) (hn : r.word = none)
    (hb : r.bracket = none)
    (h : r.parse (39 :: (s ++ 39 :: t)) = some (r.tokens ++ .word s :: rest)) : 39 ∉ s := by
  intro hs
  obtain ⟨u, v, rfl, hu⟩ := List.eq_append_cons_of_mem hs
  rw [List.append_assoc, List.cons_append, parse_quote hm hn hb hu, Reader.parse,
    Reader.run_append, Option.bind_assoc] at h
  obtain ⟨r₁, run, h⟩ := Option.bind_eq_some_iff.mp h
  have lost := Reader.run_weight run
  have closing := closing_weight ht h
  rw [Reader.weight_append] at closing
  simp [Reader.weight, Reader.size, weight, Token.weight, hm, Mode.debt] at lost closing
  omega

end Quoted

end ShellWords
