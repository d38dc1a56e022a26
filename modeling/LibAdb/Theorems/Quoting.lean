import LibAdb.Library.ShellWords
import LibAdb.Machine.Decimal
import LibAdb.Machine.Install

open ShellWords
open Device (quoteArg getPropCommand)
open Installer (commandService installWriteArgs)

section

variable {r : Reader}

def escapeChar (c : UInt8) : Bytes :=
  if c = 39 then ascii "'\\''" else [c]

theorem intercalate_splitOn (s : Bytes) :
    List.intercalate (ascii "'\\''") (s.splitOn 39) = s.flatMap escapeChar := by
  induction s
  case nil => rfl
  case cons c s hi =>
    obtain ⟨piece, rest, hp⟩ := List.exists_cons_of_ne_nil (List.splitOnP_ne_nil (· == 39) s)
    rw [List.splitOn, hp] at hi
    rw [List.splitOn, List.splitOnP_cons_eq_if_modifyHead, hp, List.flatMap_cons, ← hi, escapeChar]
    by_cases hc : c = 39
    all_goals cases rest <;> simp [hc, List.intercalate]

theorem escapeArg_eq (s : Bytes) :
    Bytes.escapeArg s = ascii "'" ++ (s.flatMap escapeChar ++ ascii "'") := by
  rw [Bytes.escapeArg, intercalate_splitOn, List.append_assoc]

theorem quoteArg_eq (s : Bytes) : quoteArg s = Bytes.escapeArg s := by
  have loop (quoted : Bytes) : s.foldl (fun quoted c =>
      if c = 39 then quoted ++ ascii "'\\''" else quoted ++ [c]) quoted =
        quoted ++ s.flatMap escapeChar := by
    induction s generalizing quoted
    case nil => simp
    case cons c s hi =>
      rw [List.foldl_cons, hi, List.flatMap_cons, escapeChar]
      split <;> simp
  rw [quoteArg, loop, escapeArg_eq, List.append_assoc]

theorem run_escapeChar (tokens : List Token) (w : Bytes) (c : UInt8) :
    Reader.run { tokens, word := some w, quoted := true, mode := .single } (escapeChar c) =
      some { tokens, word := some (w ++ [c]), quoted := true, mode := .single } := by
  rw [escapeChar]
  split
  case isTrue hc =>
    rw [hc]
    rfl
  case isFalse hc => simp [Reader.run, Reader.step, Reader.put, hc]

theorem run_escaped (tokens : List Token) (w s : Bytes) :
    Reader.run { tokens, word := some w, quoted := true, mode := .single } (s.flatMap escapeChar) =
      some { tokens, word := some (w ++ s), quoted := true, mode := .single } := by
  induction s generalizing w
  case nil => simp [Reader.run]
  case cons c s hi =>
    rw [List.flatMap_cons, Reader.run_append, run_escapeChar, Option.bind_some, hi]
    simp

theorem run_quoteArg (tokens : List Token) (s : Bytes) :
    Reader.run { tokens } (quoteArg s) = some { tokens, word := some s, quoted := true } := by
  have first : Reader.run { tokens } (ascii "'") =
      some { tokens, word := some [], quoted := true, mode := .single } := rfl
  rw [quoteArg_eq, escapeArg_eq, Reader.run_append, first, Option.bind_some, Reader.run_append,
    run_escaped]
  rfl

theorem parse_join (tokens : List Token) (args : List Bytes) :
    Reader.parse { tokens } (Bytes.join 32 (args.map quoteArg)) =
      some (tokens ++ args.map .word) := by
  induction args generalizing tokens
  case nil => simp [Bytes.join, Reader.parse, Reader.run, Reader.finish, Reader.delimit]
  case cons a args hi =>
    cases args
    case nil =>
      have single : Bytes.join 32 [quoteArg a] = quoteArg a := by simp [Bytes.join]
      rw [List.map_singleton, single, Reader.parse, run_quoteArg]
      rfl
    case cons b args =>
      have join : Bytes.join 32 ((a :: b :: args).map quoteArg) =
          quoteArg a ++ 32 :: Bytes.join 32 ((b :: args).map quoteArg) := by
        simp [Bytes.join, List.intercalate]
      rw [join, Reader.parse_append (run_quoteArg tokens a), Reader.parse_cons]
      refine (hi (tokens ++ [Token.word a])).trans ?_
      simp

-- The two loops agree, wherever a word may begin a quoted string is that word, and the strings of a
-- list stay apart.
theorem quoteArg_exact (s : Bytes) :
    quoteArg s = Bytes.escapeArg s ∧
    (∀ tokens, Reader.run { tokens } (quoteArg s) =
      some { tokens, word := some s, quoted := true }) ∧
    ∀ args : List Bytes, Reader.parse {} (Bytes.join 32 (args.map quoteArg)) =
      some (args.map .word) :=
  ⟨quoteArg_eq s, fun tokens => run_quoteArg tokens s, parse_join []⟩

end

section Commands

variable {r : Reader}

theorem tail_nil : Tail [] [] where
  begins := .inl rfl
  reads r w hm hw := by
    simp [Reader.parse, Reader.run, Reader.finish, Reader.delimit, hm, hw]

theorem tail_dash : Tail (ascii " -") [.word (ascii "-")] where
  begins := .inr rfl
  reads r w hm hw := by
    obtain ⟨tokens, word, quoted, mode, bracket⟩ := r
    cases hm
    cases hw
    refine (List.append_assoc tokens [.word w] [.word (ascii "-")] ▸ rfl)

theorem closing_nil : Closing [] [] where
  toTail := tail_nil
  closed r hm := by simp [Reader.parse, Reader.run, Reader.finish, hm]
  double := nofun
  line   := nofun

theorem parse_single {t : Bytes} (hm : r.mode = .single) (hw : r.word = some w) (ht : 39 ∉ t) :
    r.parse t = none := by
  rw [Reader.parse, Reader.run_single hm ht hw]
  simp [Reader.finish, hm]

theorem parse_open {t : Bytes} (hm : r.mode = .plain) (ht : 39 ∉ t) :
    r.parse (39 :: t) = none := by
  have first : r.step 39 = some (r.quote .single) := by
    rw [Reader.step, hm]
    rfl
  rw [Reader.parse_cons, first]
  exact parse_single rfl rfl ht

theorem not_mem_of_bare {s : Bytes} (hs : Bare s) (hc : isLiteral c = false) : c ∉ s := by
  intro hm
  cases (List.all_eq_true.mp hs.left.left c hm).symm.trans hc

theorem closing_unzip {dir : Bytes} (hd : Bare dir) :
    Closing (ascii " -d " ++ 39 :: (dir ++ 39 :: ascii " >/dev/null 2>&1")) [.word (ascii "-d"),
      .word dir, .operator 62, .word (ascii "/dev/null"), .number (ascii "2"), .operator 62,
      .operator 38, .word (ascii "1")] where
  begins := .inr rfl
  reads r w hm hw := by
    obtain ⟨tokens, word, quoted, mode, bracket⟩ := r
    cases hm
    cases hw
    have option : Reader.run { tokens, word := some w, quoted, bracket } (ascii " -d ") =
        some { tokens := tokens ++ [Token.word w] ++ [Token.word (ascii "-d")] } := rfl
    rw [Reader.parse_append option, parse_quote rfl rfl rfl (not_mem_of_bare hd rfl)]
    have redirects (l : List Token) : Reader.parse { tokens := l, word := some dir, quoted := true }
        (ascii " >/dev/null 2>&1") = some (List.foldl (· ++ ·) l [[Token.word dir], [], [.operator 62],
          [.word (ascii "/dev/null")], [.number (ascii "2")], [.operator 62], [], [.operator 38],
          [.word (ascii "1")]]) := rfl
    rw [redirects]
    simp
  closed r hm := by
    obtain ⟨tokens, word, quoted, mode, bracket⟩ := r
    cases hm
    have literal (w : Bytes) (bracket : Option Bool) := Reader.run_literal
      (r := { tokens, word := some w, quoted := true, bracket }) rfl hd.left.left nofun
      (by rintro rfl; exact hd.right.left rfl)
    rw [Reader.parse_append (show Reader.run { tokens, word, quoted, mode := .single, bracket }
      (ascii " -d ") = _ from rfl), Reader.parse_cons]
    refine Reader.parse_bind.trans (Option.bind_eq_none_iff.mpr fun r hr => ?_)
    obtain ⟨_, -, rfl⟩ := Option.map_eq_some_iff.mp ((literal _ _).symm.trans hr)
    exact parse_open rfl (by decide)
  double := by
    have := not_mem_of_bare (c := 34) hd rfl
    simp [this]
    decide
  line := by
    have := not_mem_of_bare (c := 10) hd rfl
    simp [this]
    decide

theorem bare_decimal (n : Nat) : Bare (Bytes.decimal n) := by
  have digit : ∀ c ∈ Bytes.decimal n, isLiteral c ∧ c ≠ 35 ∧ c ≠ 126 ∧ c ≠ 91 := by
    intro c hc
    have ⟨lo, hi⟩ := Bytes.mem_decimal hc
    have each : ∀ k : Fin 10, isLiteral (UInt8.ofNat (48 + k)) ∧ UInt8.ofNat (48 + k) ≠ 35 ∧
      UInt8.ofNat (48 + k) ≠ 126 ∧ UInt8.ofNat (48 + k) ≠ 91 := by decide
    have := each ⟨c.toNat - 48, by omega⟩
    rwa [Nat.add_sub_cancel' lo, UInt8.ofNat_toNat] at this
  have bracket : 91 ∉ Bytes.decimal n := fun h => (digit _ h).right.right.right rfl
  refine ⟨⟨List.all_eq_true.mpr fun c hc => (digit c hc).left, ?_⟩, ?_, ?_, ?_⟩
  · rw [foldlM_bracketStep bracket]
    rfl
  · rw [Bytes.decimal_natCast]
    simp
  · exact fun he => (digit _ (List.mem_of_head? he)).right.left rfl
  · exact fun he => (digit _ (List.mem_of_head? he)).right.right.left rfl

theorem bare_tempDir (h : Host) (tick : Nat) : Bare (AdbInstaller.tempDir h tick) := by
  have number := bare_decimal (h.now tick)
  refine ⟨⟨?_, ?_⟩, nofun, nofun, nofun⟩
  · rw [AdbInstaller.tempDir, List.all_append, number.left.left]
    decide
  · rw [AdbInstaller.tempDir, List.foldlM_append]
    exact number.left.right

theorem run_bare {s : Bytes} (tokens : List Token) (hs : Bare s) :
    Reader.run { tokens } (s ++ [32]) = some { tokens := tokens ++ [.word s] } := by
  obtain ⟨bracket, run⟩ := ShellWords.run_bare (r := { tokens }) rfl rfl rfl hs
  rw [Reader.run_append, run]
  rfl

def shellCommand (args : List Bytes) : Bytes :=
  (commandService false args).drop 5

theorem parse_unzip_iff (path : Bytes) {dir : Bytes} (hd : Bare dir) :
    Reader.parse {} (AdbInstaller.unzip path dir) = some [.word (ascii "unzip"),
      .word (ascii "-q"), .word (ascii "-o"), .word path, .word (ascii "-d"), .word dir,
      .operator 62, .word (ascii "/dev/null"), .number (ascii "2"), .operator 62, .operator 38,
      .word (ascii "1")] ↔ 39 ∉ path := by
  have text : AdbInstaller.unzip path dir = ascii "unzip -q -o " ++
      39 :: (path ++ 39 :: (ascii " -d " ++ 39 :: (dir ++ 39 :: ascii " >/dev/null 2>&1"))) := by
    simp only [AdbInstaller.unzip, List.append_assoc]
    rfl
  have before : Reader.run {} (ascii "unzip -q -o ") = some { tokens := [.word (ascii "unzip"),
    .word (ascii "-q"), .word (ascii "-o")] } := rfl
  rw [text, Reader.parse_append before]
  exact ⟨not_mem_of_parse (closing_unzip hd) rfl rfl rfl,
    parse_of_quoted (closing_unzip hd).toTail rfl rfl rfl⟩

theorem parse_remove_iff (dir : Bytes) : Reader.parse {} (AdbInstaller.removeCommand dir) =
    some [.word (ascii "rm"), .word (ascii "-rf"), .word dir] ↔ 39 ∉ dir := by
  have text : AdbInstaller.removeCommand dir = ascii "rm -rf " ++ 39 :: (dir ++ 39 :: []) := by
    simp only [AdbInstaller.removeCommand, List.append_assoc]
    rfl
  have before : Reader.run {} (ascii "rm -rf ") =
    some { tokens := [.word (ascii "rm"), .word (ascii "-rf")] } := rfl
  rw [text, Reader.parse_append before]
  exact ⟨not_mem_of_parse closing_nil rfl rfl rfl, parse_of_quoted tail_nil rfl rfl rfl⟩

theorem parse_getProp_iff (name : Bytes) : Reader.parse {} (getPropCommand name) =
    some [.word (ascii "getprop"), .word name] ↔ Bare name := by
  have before : Reader.run {} (ascii "getprop ") =
    some { tokens := [.word (ascii "getprop")] } := rfl
  have bare : Reader.parse { tokens := [.word (ascii "getprop")] } (name ++ []) =
      some ([Token.word (ascii "getprop")] ++ [Token.word name]) ↔ Bare name :=
    ⟨bare_of_parse tail_nil rfl rfl rfl rfl, parse_of_bare tail_nil rfl rfl rfl⟩
  rw [List.append_nil] at bare
  rw [getPropCommand, Reader.parse_append before]
  exact bare

theorem parse_installWrite_iff {command : Bytes} {tokens : List Token} (size session : Nat)
    (name : Bytes) (hc : Reader.run {} (command ++ [32]) = some { tokens }) :
    Reader.parse {} (shellCommand
        (installWriteArgs (ascii "exec:" ++ command) size (Bytes.decimal session) name)) =
      some (tokens ++ [Token.word (ascii "install-write"), .word (ascii "-S"),
        .word (Bytes.decimal size), .word (Bytes.decimal session), .word name,
        .word (ascii "-")]) ↔ Bare name := by
  have text : shellCommand (installWriteArgs (ascii "exec:" ++ command) size
      (Bytes.decimal session) name) = command ++ [32] ++ (ascii "install-write -S " ++ ((Bytes.decimal size ++ [32]) ++
        ((Bytes.decimal session ++ [32]) ++ (name ++ ascii " -")))) := by
    have flags : ascii "install-write -S " = ascii "install-write" ++ 32 :: (ascii "-S" ++ [32]) :=
      rfl
    have dash : ascii " -" = 32 :: ascii "-" := rfl
    rw [flags, dash]
    simp [shellCommand, commandService, installWriteArgs, Bytes.join, List.intercalate,
      List.drop_append_of_le_length (show 5 ≤ (ascii "exec:").length by decide)]
    rfl
  have options (l : List Token) : Reader.run { tokens := l } (ascii "install-write -S ") =
    some { tokens := l ++ [Token.word (ascii "install-write")] ++ [Token.word (ascii "-S")] } := rfl
  rw [text, Reader.parse_append hc, Reader.parse_append (options _),
    Reader.parse_append (run_bare _ (bare_decimal size)),
    Reader.parse_append (run_bare _ (bare_decimal session))]
  have bare (l : List Token) : Reader.parse { tokens := l } (name ++ ascii " -") =
      some (l ++ [Token.word name, .word (ascii "-")]) ↔ Bare name :=
    ⟨bare_of_parse tail_dash rfl rfl rfl rfl, parse_of_bare tail_dash rfl rfl rfl⟩
  have := bare (tokens ++ [Token.word (ascii "install-write"), .word (ascii "-S"),
    .word (Bytes.decimal size), .word (Bytes.decimal session)])
  simpa using this

theorem arguments_literal_iff (h : Host) (tick size session : Nat)
    (path dir name : Bytes) :
    (Reader.parse {} (AdbInstaller.unzip path (AdbInstaller.tempDir h tick)) =
      some [.word (ascii "unzip"), .word (ascii "-q"), .word (ascii "-o"), .word path,
        .word (ascii "-d"), .word (AdbInstaller.tempDir h tick), .operator 62,
        .word (ascii "/dev/null"), .number (ascii "2"), .operator 62, .operator 38,
        .word (ascii "1")] ↔ 39 ∉ path) ∧
    (Reader.parse {} (AdbInstaller.removeCommand dir) =
      some [.word (ascii "rm"), .word (ascii "-rf"), .word dir] ↔ 39 ∉ dir) ∧
    (Reader.parse {} (getPropCommand name) =
      some [.word (ascii "getprop"), .word name] ↔ Bare name) ∧
    (Reader.parse {} (shellCommand
        (installWriteArgs (ascii "exec:cmd package") size (Bytes.decimal session) name)) =
      some [.word (ascii "cmd"), .word (ascii "package"), .word (ascii "install-write"),
        .word (ascii "-S"), .word (Bytes.decimal size), .word (Bytes.decimal session), .word name,
        .word (ascii "-")] ↔ Bare name) ∧
    (Reader.parse {} (shellCommand
        (installWriteArgs (ascii "exec:pm") size (Bytes.decimal session) name)) =
      some [.word (ascii "pm"), .word (ascii "install-write"),
        .word (ascii "-S"), .word (Bytes.decimal size), .word (Bytes.decimal session), .word name,
        .word (ascii "-")] ↔ Bare name) := by
  have cmd : Reader.run {} (ascii "cmd package" ++ [32]) =
    some { tokens := [.word (ascii "cmd"), .word (ascii "package")] } := rfl
  have pm : Reader.run {} (ascii "pm" ++ [32]) = some { tokens := [.word (ascii "pm")] } := rfl
  exact ⟨parse_unzip_iff path (bare_tempDir h tick), parse_remove_iff dir, parse_getProp_iff name,
    parse_installWrite_iff size session name cmd, parse_installWrite_iff size session name pm⟩

-- A property name, a path below the directory of the bundles and a file name that bring words or
-- commands of their own along.
theorem arguments_run_commands :
    Reader.parse {} (getPropCommand (ascii "a;reboot")) = some [.word (ascii "getprop"),
      .word (ascii "a"), .operator 59, .word (ascii "reboot")] ∧
    (AdbInstaller.tempDirs [ascii "/tmp/libadb_apks_';reboot '/a.apk"]).map
        (fun dir => Reader.parse {} (AdbInstaller.removeCommand dir)) =
      [some [.word (ascii "rm"), .word (ascii "-rf"), .word (ascii "/tmp/libadb_apks_"),
        .operator 59, .word (ascii "reboot"), .word []]] ∧
    Reader.parse {} (shellCommand
        (installWriteArgs (ascii "exec:pm") 7 (ascii "1") (ascii "a b.apk"))) =
      some [.word (ascii "pm"), .word (ascii "install-write"), .word (ascii "-S"),
        .word (ascii "7"), .word (ascii "1"), .word (ascii "a"), .word (ascii "b.apk"),
        .word (ascii "-")] := by
  decide +kernel

end Commands
