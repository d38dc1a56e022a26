import LibAdb.Library.Traces
import LibAdb.Machine.Decimal
import LibAdb.Machine.Install
import Mathlib.Data.List.Forall2
import Mathlib.Data.List.Infix

inductive SessionVerb where
  | create
  | write
  | addSession
  | commit
  | abandon
  deriving DecidableEq, Repr

namespace SessionVerb

def text : SessionVerb → Bytes
  | .create     => ascii "install-create"
  | .write      => ascii "install-write"
  | .addSession => ascii "install-add-session"
  | .commit     => ascii "install-commit"
  | .abandon    => ascii "install-abandon"

def all : List SessionVerb :=
  [.create, .write, .addSession, .commit, .abandon]

theorem mem_all (v : SessionVerb) : v ∈ all := by
  cases v <;> decide

end SessionVerb

abbrev Exchange := Bytes × Reply

namespace Installer

def packageCommands : List Bytes :=
  [ascii "package", ascii "exec:pm", ascii "exec:cmd package"]

def serviceHead (useAbbExec : Bool) (command : Bytes) : Bytes :=
  if useAbbExec then ascii "abb_exec:" ++ command ++ [0] else command ++ [32]

def serviceHeads : List Bytes :=
  packageCommands.flatMap fun command => [serviceHead true command, serviceHead false command]

def asks (v : SessionVerb) (service : Bytes) : Bool :=
  serviceHeads.any fun head => (head ++ v.text).isPrefixOf service

def exchanges (replies : Stream' Reply) (sent : List Bytes) : List Exchange :=
  sent.zip (replies.take sent.length)

-- The session that the device says it has created, whatever its number.
def reported? (x : Exchange) : Option Int :=
  let number := leadingNumber (x.2.statusLine.afterLast 91)
  if asks .create x.1 && x.2.opened && isSuccess x.2.statusLine && x.2.statusLine.contains 91 &&
      x.2.statusLine.contains 93 && 0 ≤ number then
    some number
  else none

-- The session that the installer goes on with.
def created? (x : Exchange) : Option Int :=
  if asks .create x.1 && x.2.opened && 0 ≤ (sessionId x.2.statusLine).1 then
    some (sessionId x.2.statusLine).1
  else none

def IsId (session : Int) : Prop :=
  0 ≤ session ∧ session < 0x80000000

def Finalizes (v : SessionVerb) (session : Int) (x : Exchange) : Prop :=
  ∃ useAbbExec, ∃ command ∈ packageCommands,
    x.1 = commandService useAbbExec [command, v.text, Bytes.decimal session]

instance : Decidable (Finalizes v session x) :=
  inferInstanceAs (Decidable (∃ useAbbExec, ∃ command ∈ packageCommands,
    x.1 = commandService useAbbExec [command, v.text, Bytes.decimal session]))

def Streams (files : Files) (session : Int) (file : Bytes) (x : Exchange) : Prop :=
  ∃ useAbbExec, ∃ command ∈ packageCommands, ∃ st ∈ files.lookup file, files.readable file ∧
    x.1 = commandService useAbbExec
      (installWriteArgs command st.size (Bytes.decimal session) (Bytes.basename file))

-- The file was sent, and the device's reply begins with `Success`.
def Wrote (files : Files) (session : Int) (file : Bytes) (x : Exchange) : Prop :=
  Streams files session file x ∧ x.2.opened ∧ x.2.copied ∧ isSuccess x.2.statusLine

def isFinal (x : Exchange) : Bool :=
  asks .commit x.1 || asks .abandon x.1

-- One session as the device sees it.
inductive Session (files : Files) (splits : List Bytes) : List Exchange → Prop
  | refused : asks .create y.1 → created? y = none → Session files splits [y]
  | committed : created? y = some session → List.Forall₂ (Wrote files session) splits ws →
    Finalizes .commit session z → Session files splits (y :: ws ++ [z])
  | abandoned : created? y = some session → (∀ w ∈ ws, ∃ file, Streams files session file w) →
    ¬List.Forall₂ (Wrote files session) splits ws → Finalizes .abandon session z →
    Session files splits (y :: ws ++ [z])

section Services

theorem join_cons (c : UInt8) (a : Bytes) (l : List Bytes) :
    ∃ t, Bytes.join c (a :: l) = a ++ t := by
  cases l
  case nil => exact ⟨[], by simp [Bytes.join, List.intercalate]⟩
  case cons b l => exact ⟨c :: Bytes.join c (b :: l), by simp [Bytes.join, List.intercalate]⟩

theorem join_cons_cons (c : UInt8) (a b : Bytes) (l : List Bytes) :
    Bytes.join c (a :: b :: l) = a ++ [c] ++ Bytes.join c (b :: l) := by
  simp [Bytes.join, List.intercalate]

theorem commandService_eq (useAbbExec : Bool) (command word : Bytes) (args : List Bytes) :
    ∃ t, commandService useAbbExec (command :: word :: args) =
      serviceHead useAbbExec command ++ word ++ t := by
  cases useAbbExec
  case false =>
    obtain ⟨t, ht⟩ := join_cons 32 word args
    exact ⟨t, by simp [commandService, serviceHead, join_cons_cons, ht]⟩
  case true =>
    obtain ⟨t, ht⟩ := join_cons 0 word args
    exact ⟨t, by simp [commandService, serviceHead, join_cons_cons, ht]⟩

theorem serviceHead_mem (hc : command ∈ packageCommands) :
    serviceHead useAbbExec command ∈ serviceHeads := by
  refine List.mem_flatMap.mpr ⟨command, hc, ?_⟩
  cases useAbbExec <;> simp

theorem verb_eq_of_comparable : ∀ p ∈ serviceHeads, ∀ q ∈ serviceHeads,
    ∀ v ∈ SessionVerb.all, ∀ w ∈ SessionVerb.all,
      (p ++ v.text).isPrefixOf (q ++ w.text) ∨ (q ++ w.text).isPrefixOf (p ++ v.text) → v = w := by
  decide +kernel

theorem verb_unique (hv : asks v service) (hw : asks w service) : v = w := by
  obtain ⟨p, hp, hv⟩ := List.any_eq_true.mp hv
  obtain ⟨q, hq, hw⟩ := List.any_eq_true.mp hw
  have comparable := List.prefix_or_prefix_of_prefix (List.isPrefixOf_iff_prefix.mp hv)
    (List.isPrefixOf_iff_prefix.mp hw)
  simp only [← List.isPrefixOf_iff_prefix] at comparable
  exact verb_eq_of_comparable p hp q hq v v.mem_all w w.mem_all comparable

theorem asks_commandService (v w : SessionVerb) (hc : command ∈ packageCommands) :
    asks v (commandService useAbbExec (command :: w.text :: args)) ↔ v = w := by
  obtain ⟨t, ht⟩ := commandService_eq useAbbExec command w.text args
  have hw : asks w (serviceHead useAbbExec command ++ w.text ++ t) :=
    List.any_eq_true.mpr
      ⟨_, serviceHead_mem hc, List.isPrefixOf_iff_prefix.mpr (List.prefix_append ..)⟩
  rw [ht]
  exact ⟨fun hv => verb_unique hv hw, fun hv => hv ▸ hw⟩

theorem verb_ne_of_foreign : ∀ p ∈ serviceHeads, ∀ v ∈ SessionVerb.all,
    ∀ q ∈ [ascii "abb_exec:settings", serviceHead true (ascii "package") ++
      ascii "install-incremental"],
      ¬((p ++ v.text).isPrefixOf q ∨ q.isPrefixOf (p ++ v.text)) := by
  decide +kernel

theorem asks_of_foreign (v : SessionVerb) (hq : q ∈ [ascii "abb_exec:settings",
    serviceHead true (ascii "package") ++ ascii "install-incremental"]) : ¬asks v (q ++ t) := by
  intro h
  obtain ⟨p, hp, hv⟩ := List.any_eq_true.mp h
  have comparable := List.prefix_or_prefix_of_prefix (List.isPrefixOf_iff_prefix.mp hv)
    (List.prefix_append q t)
  simp only [← List.isPrefixOf_iff_prefix] at comparable
  exact verb_ne_of_foreign p hp v v.mem_all q hq comparable

theorem Finalizes.asks (h : Finalizes w session x) : asks v x.1 ↔ v = w := by
  obtain ⟨useAbbExec, command, hc, hx⟩ := h
  rw [hx]
  exact asks_commandService v w hc

theorem Streams.asks (h : Streams files session file x) : asks v x.1 ↔ v = .write := by
  obtain ⟨useAbbExec, command, hc, st, -, -, hx⟩ := h
  rw [hx]
  exact asks_commandService v .write hc

theorem asks_of_created (h : created? x = some session) : asks .create x.1 := by
  simp only [created?, Option.ite_none_right_eq_some, Bool.and_eq_true] at h
  exact h.left.left.left

theorem sessionId_lt (line : Bytes) : (sessionId line).1 < 0x80000000 := by
  rw [sessionId]
  split
  · exact Int.bmod_lt (by decide)
  · exact Int.neg_lt_of_neg_lt (by decide)

theorem isId_of_created (h : created? x = some session) : IsId session := by
  simp only [created?, Option.ite_none_right_eq_some, Bool.and_eq_true, decide_eq_true_eq,
    Option.some.injEq] at h
  obtain ⟨⟨-, hn⟩, rfl⟩ := h
  exact ⟨hn, sessionId_lt _⟩

theorem created?_of_reported (h : reported? x = some session) (hs : session < 0x80000000) :
    created? x = some session := by
  simp only [reported?, Option.ite_none_right_eq_some, Bool.and_eq_true, decide_eq_true_eq,
    Option.some.injEq] at h
  obtain ⟨⟨⟨⟨⟨⟨ha, ho⟩, hk⟩, h₁⟩, h₂⟩, hn⟩, rfl⟩ := h
  have value : (sessionId x.2.statusLine).1 = leadingNumber (x.2.statusLine.afterLast 91) := by
    simp only [sessionId, hk, h₁, h₂, Bool.and_self, if_true, strtol]
    rw [Int.bmod_eq_of_le] <;> omega
  simp [created?, ha, ho, value, hn]

theorem Finalizes.digits (h : Finalizes v (n : Nat) x) :
    x.1.reverse.takeWhile isDigit = (Bytes.decimal n).reverse := by
  obtain ⟨useAbbExec, command, -, hx⟩ := h
  have digits : ∀ c ∈ (Bytes.decimal n).reverse, isDigit c := fun c hc =>
    (spells_decimal n).digits c (List.mem_reverse.mp hc)
  rw [hx]
  cases useAbbExec <;> simp [commandService, Bytes.join, List.takeWhile_append_of_pos digits, isDigit]

theorem Finalizes.unique (h : Finalizes v m x) (h' : Finalizes w n x) (hm : 0 ≤ m) (hn : 0 ≤ n) :
    m = n := by
  obtain ⟨m, rfl⟩ := Int.eq_ofNat_of_zero_le hm
  obtain ⟨n, rfl⟩ := Int.eq_ofNat_of_zero_le hn
  have same : Bytes.decimal m = Bytes.decimal n := List.reverse_inj.mp (h.digits.symm.trans h'.digits)
  have value := (spells_decimal m).value
  rw [same, (spells_decimal n).value] at value
  rw [value]

end Services

def talks : TraceModel Installer Exchange where
  Adds s l s' := s'.sent = s.sent ++ l.map Prod.fst ∧ s.replies = l.map Prod.snd ++ₛ s'.replies
  refl s      := ⟨by simp, rfl⟩
  trans h₁ h₂ := by
    rw [h₂.left, h₁.left, h₁.right, h₂.right, List.map_append, List.map_append]
    exact ⟨List.append_assoc .., (Stream'.append_append_stream ..).symm⟩

theorem exchanges_of_talks {features : Stream' (List Bytes)} {replies : Stream' Reply}
    (h : talks.Adds { features, replies } l s) : exchanges replies s.sent = l := by
  obtain ⟨sent, rest⟩ := h
  replace sent : s.sent = l.map Prod.fst := sent
  replace rest : replies = l.map Prod.snd ++ₛ s.replies := rest
  have taken : replies.take s.sent.length = l.map Prod.snd := by
    rw [sent, rest, List.length_map, ← List.length_map (f := Prod.snd),
      Stream'.take_append_of_le_length _ _ _ le_rfl, List.take_length]
  rw [exchanges, taken, sent]
  exact (List.zip_of_prod rfl rfl).symm

namespace Talks

open TraceModel

theorem getFeatures : talks.Tells (fun _ l => l = []) getFeatures :=
  fun _ => ⟨[], ⟨(List.append_nil _).symm, rfl⟩, rfl⟩

theorem isAbbExecSupported : talks.Tells (fun _ l => l = []) isAbbExecSupported :=
  getFeatures.silent fun _ => .pure rfl

theorem bestInstallMode : talks.Tells (fun _ l => l = []) bestInstallMode :=
  getFeatures.silent fun _ => .pure rfl

theorem reportStatus : talks.Tells (fun _ l => l = []) (reportStatus text) :=
  fun _ => ⟨[], ⟨(List.append_nil _).symm, rfl⟩, rfl⟩

theorem connect : talks.Tells (fun r l => ∃ reply, l = [(service, reply)] ∧
    (reply.opened = false ∧ r = none ∨ reply.opened ∧ r = some reply)) (connect service) := by
  intro s
  refine ⟨[(service, s.replies.head)], ⟨rfl, (Stream'.eta s.replies).symm⟩, _, rfl, ?_⟩
  cases ho : s.replies.head.opened <;> simp [Installer.connect, ho]

theorem sendCommand : talks.Tells (fun r l => ∃ useAbbExec reply,
    l = [(commandService useAbbExec args, reply)] ∧
    (reply.opened = false ∧ r = none ∨ reply.opened ∧ r = some reply)) (sendCommand args) := by
  refine isAbbExecSupported.silent fun useAbbExec => ?_
  split
  · exact connect.mono fun _ _ h => ⟨true, h⟩
  · exact connect.mono fun _ _ h => ⟨false, h⟩

theorem installWrite : talks.Tells (fun r l => (l = [] ∧ r = none) ∨
    ∃ useAbbExec, ∃ st ∈ files.lookup file, ∃ reply, files.readable file ∧
      l = [(commandService useAbbExec (installWriteArgs command st.size session name), reply)] ∧
      (¬(reply.opened ∧ reply.copied) ∧ r = none ∨ reply.opened ∧ reply.copied ∧ r = some reply))
    (installWrite files command session file name) := by
  unfold Installer.installWrite
  split
  case h_1 => exact .pure (.inl ⟨rfl, rfl⟩)
  case h_2 st hs =>
    split
    case isFalse => exact .pure (.inl ⟨rfl, rfl⟩)
    case isTrue hr =>
      refine sendCommand.bind fun r l h => .pure (.inr ?_)
      obtain ⟨useAbbExec, reply, rfl, ⟨ho, rfl⟩ | ⟨ho, rfl⟩⟩ := h
      · exact ⟨useAbbExec, st, hs, reply, hr, rfl, .inl ⟨by simp [ho], rfl⟩⟩
      · refine ⟨useAbbExec, st, hs, reply, hr, rfl, ?_⟩
        cases hc : reply.copied <;> simp [Option.filter, hc, ho]

theorem streamSplits (hc : command ∈ packageCommands) (splits : List Bytes) :
    talks.Tells (fun ok l => (∀ x ∈ l, ∃ file, Streams files session file x) ∧
      (ok = true ↔ List.Forall₂ (Wrote files session) splits l))
    (streamSplits files command (Bytes.decimal session) splits) := by
  induction splits
  case nil => exact .pure ⟨nofun, iff_of_true rfl .nil⟩
  case cons file rest hi =>
    refine installWrite.bind fun r l h => ?_
    obtain ⟨rfl, rfl⟩ | ⟨useAbbExec, st, hs, reply, hr, rfl, h⟩ := h
    · exact .pure ⟨nofun, iff_of_false nofun nofun⟩
    have streams : Streams files session file (commandService useAbbExec (installWriteArgs command
        st.size (Bytes.decimal session) (Bytes.basename file)), reply) :=
      ⟨useAbbExec, command, hc, st, hs, hr, rfl⟩
    have all : ∀ x ∈ [_], ∃ file, Streams files session file x :=
      List.forall_mem_singleton.mpr ⟨file, streams⟩
    obtain ⟨failed, rfl⟩ | ⟨ho, copied, rfl⟩ := h
    · refine .pure ⟨all, iff_of_false nofun fun h => ?_⟩
      have wrote := (List.forall₂_cons.mp h).left
      exact failed ⟨wrote.right.left, wrote.right.right.left⟩
    dsimp only
    split
    case isTrue hk =>
      refine hi.mono fun ok l h => ⟨List.forall_mem_cons.mpr ⟨⟨file, streams⟩, h.left⟩, ?_⟩
      rw [h.right]
      exact ⟨.cons ⟨streams, ho, copied, hk⟩, fun h => (List.forall₂_cons.mp h).right⟩
    case isFalse hk =>
      refine reportStatus.silent fun _ => .pure ⟨all, iff_of_false nofun fun h => ?_⟩
      exact hk (List.forall₂_cons.mp h).left.right.right.right

theorem installSession (hc : command ∈ packageCommands) : talks.Tells
    (fun _ l => Session files splits l)
    (installSession files command (command :: SessionVerb.create.text :: options) splits) := by
  refine sendCommand.bind fun r l h => ?_
  obtain ⟨useAbbExec, reply, rfl, h⟩ := h
  have creates : asks .create (commandService useAbbExec
      (command :: SessionVerb.create.text :: options)) := (asks_commandService _ _ hc).mpr rfl
  generalize commandService useAbbExec (command :: SessionVerb.create.text :: options) = service
    at creates ⊢
  obtain ⟨ho, rfl⟩ | ⟨ho, rfl⟩ := h
  · exact .pure (.refused creates (by simp [created?, ho]))
  dsimp only
  split
  case isTrue hn =>
    refine reportStatus.silent fun _ => .pure (.refused creates ?_)
    simp [created?, hn]
  case isFalse hn =>
    have created : created? (service, reply) = some (sessionId reply.statusLine).1 := by
      simp [created?, creates, ho, Int.not_lt.mp hn]
    refine (streamSplits hc splits).bind fun ok ws h => ?_
    refine sendCommand.bind fun r l hz => ?_
    obtain ⟨useAbbExec', reply', rfl, hz⟩ := hz
    have session : Session files splits ((service, reply) :: ws ++
        [(commandService useAbbExec' [command,
          ascii (if ok then "install-commit" else "install-abandon"),
          Bytes.decimal (sessionId reply.statusLine).1], reply')]) := by
      cases ok
      case false =>
        exact .abandoned created h.left (by simp [← h.right]) ⟨useAbbExec', command, hc, rfl⟩
      case true => exact .committed created (h.right.mp rfl) ⟨useAbbExec', command, hc, rfl⟩
    obtain ⟨-, rfl⟩ | ⟨-, rfl⟩ := hz
    · exact .pure session
    dsimp only
    split
    · exact reportStatus.silent fun _ => .pure (by simp_all)
    · exact .pure (by simp_all)

theorem installSplits : talks.Tells (fun _ l => Session files splits l)
    (installSplits files front splits size) := by
  refine isAbbExecSupported.silent fun useAbbExec => ?_
  split
  · exact installSession (by decide)
  · refine bestInstallMode.silent fun mode => ?_
    split
    all_goals exact installSession (by decide)

def Foreign (l : List Exchange) : Prop :=
  ∀ x ∈ l, ∀ v, ¬asks v x.1

theorem incrementalByDefault : talks.Tells (fun _ l => Foreign l) (incrementalByDefault h) := by
  unfold Installer.incrementalByDefault
  split
  · exact .pure nofun
  · refine connect.bind fun r l h => ?_
    obtain ⟨reply, rfl, -⟩ := h
    have foreign : Foreign [(ascii "abb_exec:" ++ Bytes.join 0 [ascii "settings", ascii "get",
        ascii "enable_adb_incremental_install_default"], reply)] := by
      refine List.forall_mem_singleton.mpr fun v => ?_
      obtain ⟨t, ht⟩ := join_cons 0 (ascii "settings")
        [ascii "get", ascii "enable_adb_incremental_install_default"]
      rw [ht, ← List.append_assoc]
      exact asks_of_foreign v (List.mem_cons_self ..)
    split
    all_goals exact .pure foreign

theorem incremental : talks.Tells (fun _ l => Foreign l)
    (Incremental.install h server files apks args) := by
  unfold Incremental.install
  split
  · exact .pure nofun
  · rename_i described _
    refine connect.bind fun r l h => ?_
    obtain ⟨reply, rfl, -⟩ := h
    have foreign : Foreign [(ascii "abb_exec:" ++ Bytes.join 0 ([ascii "package",
        ascii "install-incremental"] ++ args ++ described), reply)] := by
      refine List.forall_mem_singleton.mpr fun v => ?_
      obtain ⟨t, ht⟩ := commandService_eq true (ascii "package") (ascii "install-incremental")
        (args ++ described)
      have service : ascii "abb_exec:" ++ Bytes.join 0 ([ascii "package",
          ascii "install-incremental"] ++ args ++ described) = _ := ht
      rw [service]
      exact asks_of_foreign v (List.mem_cons_of_mem _ (List.mem_cons_self ..))
    split
    all_goals exact .pure foreign

theorem installAppIncremental : talks.Tells (fun _ l => Foreign l)
    (installAppIncremental h server files argv silent) := by
  unfold Installer.installAppIncremental
  extract_lets apks args
  split
  · exact .pure nofun
  · split
    · exact .pure nofun
    · exact incremental

theorem created?_eq_none (h : ¬asks .create x.1) : created? x = none := by
  simp [created?, h]

theorem isFinal_commandService {v : SessionVerb} (hc : command ∈ packageCommands)
    (hv : v ≠ .commit ∧ v ≠ .abandon) (args : List Bytes) (reply : Reply) :
    isFinal (commandService useAbbExec (command :: v.text :: args), reply) = false := by
  rw [isFinal, Bool.or_eq_false_iff, Bool.eq_false_iff, Bool.eq_false_iff]
  exact ⟨fun h => hv.left ((asks_commandService _ _ hc).mp h).symm,
    fun h => hv.right ((asks_commandService _ _ hc).mp h).symm⟩

theorem created?_commandService {v : SessionVerb} (hc : command ∈ packageCommands)
    (hv : v ≠ .create) (args : List Bytes) (reply : Reply) :
    created? (commandService useAbbExec (command :: v.text :: args), reply) = none :=
  created?_eq_none fun h => hv ((asks_commandService _ _ hc).mp h).symm

def Within (l : List Exchange) : Prop :=
  ∀ x ∈ l, created? x = none ∧ isFinal x = false

theorem writePackage (hc : command ∈ packageCommands) (splits : List Bytes) :
    talks.Tells (fun _ l => Within l) (writePackage files command session i splits) := by
  induction splits
  case nil => exact .pure nofun
  case cons file rest hi =>
    refine installWrite.bind fun r l h => ?_
    obtain ⟨rfl, rfl⟩ | ⟨useAbbExec, st, hs, reply, hr, rfl, h⟩ := h
    · exact .pure nofun
    have within : Within [(commandService useAbbExec (installWriteArgs command st.size session
        (Bytes.decimal i ++ ascii "_" ++ Bytes.basename file)), reply)] :=
      List.forall_mem_singleton.mpr ⟨created?_commandService (v := .write) hc (by decide) _ _,
        isFinal_commandService (v := .write) hc (by decide) _ _⟩
    obtain ⟨-, rfl⟩ | ⟨-, -, rfl⟩ := h
    · exact .pure within
    dsimp only
    split
    · exact hi.mono fun _ l hl => List.forall_mem_append.mpr ⟨within, hl⟩
    · exact .pure within

-- Every session that the installer goes on with is among those that are returned.
structure Remembers (ids : List Int) (l : List Exchange) : Prop where
  created : ∀ x ∈ l, ∀ session ∈ created? x, session ∈ ids
  final   : ∀ x ∈ l, isFinal x = false

theorem Remembers.append (h₁ : Remembers ids l₁) (h₂ : Remembers ids l₂) :
    Remembers ids (l₁ ++ l₂) where
  created := List.forall_mem_append.mpr ⟨h₁.created, h₂.created⟩
  final   := List.forall_mem_append.mpr ⟨h₁.final, h₂.final⟩

theorem Remembers.mono (h : Remembers ids l) (hs : ids ⊆ ids') : Remembers ids' l where
  created x hx session hc := hs (h.created x hx session hc)
  final   := h.final

theorem Within.remembers (h : Within l) : Remembers ids l where
  created x hx session hc := by
    rw [(h x hx).left] at hc
    cases hc
  final x hx := (h x hx).right

theorem remembers_created (ids : List Int) (h : isFinal (service, reply) = false) :
    Remembers (ids ++ [(sessionId reply.statusLine).1]) [(service, reply)] := by
  refine ⟨List.forall_mem_singleton.mpr fun session hs => ?_, List.forall_mem_singleton.mpr h⟩
  simp only [created?, Option.mem_def, Option.ite_none_right_eq_some, Option.some.injEq] at hs
  simp [hs.right]

theorem childSessions (hc : command ∈ packageCommands) (packages : List (Bytes × Nat))
    (ids : List Int) (hs : ∀ session ∈ ids, IsId session) :
    talks.Tells (fun r l => (ids ⊆ r.2 ∧ ∀ session ∈ r.2, IsId session) ∧ Remembers r.2 l)
    (childSessions files command (command :: SessionVerb.create.text :: options) packages ids) := by
  induction packages generalizing ids
  case nil => exact .pure ⟨⟨List.Subset.refl _, hs⟩, nofun, nofun⟩
  case cons package rest hi =>
    have args : ∃ args, (if isApex package.1 then
        command :: SessionVerb.create.text :: options ++ [ascii "--apex"]
        else command :: SessionVerb.create.text :: options) =
          command :: SessionVerb.create.text :: args := by
      split <;> exact ⟨_, rfl⟩
    obtain ⟨args, ha⟩ := args
    rw [Installer.childSessions, ha]
    refine sendCommand.bind fun r l h => ?_
    obtain ⟨useAbbExec, reply, rfl, h⟩ := h
    have final : isFinal (commandService useAbbExec (command :: SessionVerb.create.text :: args),
        reply) = false := isFinal_commandService hc (by decide) _ _
    generalize commandService useAbbExec (command :: SessionVerb.create.text :: args) = service
      at final ⊢
    obtain ⟨ho, rfl⟩ | ⟨ho, rfl⟩ := h
    · refine .pure ⟨⟨List.Subset.refl _, hs⟩, ?_, List.forall_mem_singleton.mpr final⟩
      exact List.forall_mem_singleton.mpr (by simp [created?, ho])
    dsimp only
    split
    case isTrue hn =>
      refine reportStatus.silent fun _ => reportStatus.silent fun _ => .pure ?_
      refine ⟨⟨List.Subset.refl _, hs⟩, ?_, List.forall_mem_singleton.mpr final⟩
      exact List.forall_mem_singleton.mpr (by simp [created?, Int.not_le.mpr hn])
    case isFalse hn =>
      refine reportStatus.silent fun _ => (writePackage hc _).bind fun written ws hw => ?_
      have remembered := (remembers_created ids final).append hw.remembers
      have ids' : ∀ session ∈ ids ++ [(sessionId reply.statusLine).1], IsId session :=
        List.forall_mem_append.mpr
          ⟨hs, List.forall_mem_singleton.mpr ⟨Int.not_lt.mp hn, sessionId_lt _⟩⟩
      split
      · refine (hi _ ids').mono fun r m hm => ⟨⟨fun i hi => ?_, hm.left.right⟩, ?_⟩
        · exact hm.left.left (List.mem_append_left _ hi)
        · rw [← List.append_assoc]
          exact (remembered.mono hm.left.left).append hm.right
      · exact .pure ⟨⟨List.subset_append_left .., ids'⟩, by simpa using remembered⟩

theorem linkSessions (hc : command ∈ packageCommands) : talks.Tells (fun _ l => Within l)
    (linkSessions (command :: SessionVerb.addSession.text :: args)) := by
  refine sendCommand.bind fun r l h => ?_
  obtain ⟨useAbbExec, reply, rfl, h⟩ := h
  have within : Within [(commandService useAbbExec
      (command :: SessionVerb.addSession.text :: args), reply)] :=
    List.forall_mem_singleton.mpr ⟨created?_commandService hc (by decide) _ _,
      isFinal_commandService hc (by decide) _ _⟩
  obtain ⟨-, rfl⟩ | ⟨-, rfl⟩ := h
  · exact .pure within
  dsimp only
  split
  · exact .pure within
  · exact reportStatus.silent fun _ => reportStatus.silent fun _ => .pure within

theorem Finalizes.created? (h : Finalizes v session x) (hv : v ≠ .create) : created? x = none :=
  created?_eq_none fun ha => hv (h.asks.mp ha).symm

theorem abandonSessions (hc : command ∈ packageCommands) (ids : List Int) : talks.Tells
    (fun _ l => List.Forall₂ (Finalizes .abandon) ids l) (abandonSessions command ids) := by
  induction ids
  case nil => exact .pure .nil
  case cons session rest hi =>
    refine reportStatus.silent fun _ => sendCommand.bind fun r l h => ?_
    obtain ⟨useAbbExec, reply, rfl, -⟩ := h
    exact hi.mono fun _ l hl => .cons ⟨useAbbExec, command, hc, rfl⟩ hl

-- The end of the sessions of a package list: the parent is committed or abandoned, and unless the
-- commit went well, all are abandoned one by one.
structure Ends (ids : List Int) (ok : Bool) (x : Exchange) (rest : List Exchange) : Prop where
  final   : isFinal x
  created : ∀ y ∈ x :: rest, created? y = none
  abandon : ok = false → x.2.opened → List.Forall₂ (Finalizes .abandon) ids rest
  alone   : x.2.opened = false → rest = []
  ids     : ∀ y ∈ x :: rest, asks .abandon y.1 → ∃ session ∈ ids, Finalizes .abandon session y

theorem finalLine (success : Bool) (command : Bytes) (args : List Bytes) (parent : Int) :
    ∃ v : SessionVerb, (v = .commit ∨ v = .abandon) ∧ ∃ rest, (if success then
      [command, ascii "install-commit"] ++ commitArgs args ++ [Bytes.decimal parent]
      else [command, ascii "install-abandon", Bytes.decimal parent]) =
        command :: v.text :: rest ∧ (v = .abandon → rest = [Bytes.decimal parent]) := by
  cases success
  case false => exact ⟨.abandon, .inr rfl, _, rfl, fun _ => rfl⟩
  case true => exact ⟨.commit, .inl rfl, _, rfl, nofun⟩

theorem finalizePackages (hc : command ∈ packageCommands) : talks.Tells
    (fun ok l => ∃ x rest, l = x :: rest ∧ Ends (ids ++ [parent]) ok x rest)
    (finalizePackages command args parent success ids) := by
  obtain ⟨v, hv, rest, hl, hr⟩ := finalLine success command args parent
  rw [Installer.finalizePackages, hl]
  refine sendCommand.bind fun r l h => ?_
  obtain ⟨useAbbExec, reply, rfl, h⟩ := h
  have final : isFinal (commandService useAbbExec (command :: v.text :: rest), reply) := by
    simp only [isFinal, Bool.or_eq_true, asks_commandService _ _ hc]
    exact hv.imp Eq.symm Eq.symm
  have created : created? (commandService useAbbExec (command :: v.text :: rest), reply) = none :=
    created?_commandService hc (by rintro rfl; simp at hv) _ _
  have abandoned : asks .abandon (commandService useAbbExec (command :: v.text :: rest)) →
      ∃ session ∈ ids ++ [parent], Finalizes .abandon session
        (commandService useAbbExec (command :: v.text :: rest), reply) := by
    intro ha
    cases (asks_commandService _ _ hc).mp ha
    exact ⟨parent, by simp, useAbbExec, command, hc, by rw [hr rfl]⟩
  generalize commandService useAbbExec (command :: v.text :: rest) = service
    at final created abandoned ⊢
  have ended (ok : Bool) (h : ok = false → reply.opened = false) :
      Ends (ids ++ [parent]) ok (service, reply) [] :=
    ⟨final, List.forall_mem_singleton.mpr created, fun hk ho => by simp [h hk] at ho, fun _ => rfl,
      List.forall_mem_singleton.mpr abandoned⟩
  have abandons (ho : reply.opened) : talks.Tells (fun (ok : Bool) l => ∃ x rest',
        [(service, reply)] ++ l = x :: rest' ∧ Ends (ids ++ [parent]) ok x rest')
      (do Installer.abandonSessions command (ids ++ [parent]); return false) := by
    refine (abandonSessions hc _).bind fun _ l hl => .pure ⟨_, l, by simp, final, ?_, ?_, ?_, ?_⟩
    · refine List.forall_mem_cons.mpr ⟨created, fun y hy => ?_⟩
      obtain ⟨session, -, hf⟩ := hl.flip.exists_of_mem hy
      exact Finalizes.created? hf (by decide)
    · exact fun _ _ => hl
    · exact fun h => by simp [ho] at h
    · exact List.forall_mem_cons.mpr ⟨abandoned, fun y hy _ => hl.flip.exists_of_mem hy⟩
  obtain ⟨ho, rfl⟩ | ⟨ho, rfl⟩ := h
  · exact .pure ⟨_, [], rfl, ended false fun _ => ho⟩
  dsimp only
  split
  case isTrue =>
    refine reportStatus.silent fun _ => ?_
    split
    · exact .pure ⟨_, [], rfl, ended true nofun⟩
    · exact abandons ho
  case isFalse =>
    exact reportStatus.silent fun _ => reportStatus.silent fun _ => abandons ho

-- The sessions of a package list. The parent is ended first, and when the stream for that cannot
-- be opened, nothing else is.
structure Packages (ok : Bool) (l : List Exchange) : Prop where
  abandoned : ok = false → (∀ x ∈ l.find? isFinal, x.2.opened) →
    ∀ x ∈ l, ∀ session ∈ created? x, ∃ y ∈ l, Finalizes .abandon session y
  alone     : ∀ x ∈ l.find? isFinal, x.2.opened = false → ∀ y ∈ l, isFinal y → y = x
  ids       : ∀ y ∈ l, asks .abandon y.1 → ∃ session, IsId session ∧ Finalizes .abandon session y

theorem Packages.of_none (hf : ∀ x ∈ l, isFinal x = false) (hc : ∀ x ∈ l, created? x = none) :
    Packages ok l where
  abandoned _ _ x hx session hs := by simp [hc x hx] at hs
  alone _ _ _ y hy h := by simp [hf y hy] at h
  ids y hy ha := by simpa [isFinal, ha] using hf y hy

theorem Remembers.packages (h : Remembers ids l) (hs : ∀ session ∈ ids, IsId session)
    (he : Ends ids ok x rest) : Packages ok (l ++ x :: rest) := by
  have first : (l ++ x :: rest).find? isFinal = some x := by
    rw [List.find?_append, List.find?_eq_none.mpr fun z hz => by simp [h.final z hz],
      Option.none_or, List.find?_cons_of_pos he.final]
  have behind : ∀ y ∈ l ++ x :: rest, isFinal y → y ∈ x :: rest := fun y hy hf =>
    (List.mem_append.mp hy).resolve_left fun hy => by simp [h.final y hy] at hf
  constructor
  case abandoned =>
    intro hk hx y hy session hs
    rcases List.mem_append.mp hy with hy | hy
    case inl =>
      have abandoned := he.abandon hk (hx x first)
      obtain ⟨z, hz, hf⟩ := abandoned.exists_of_mem (h.created y hy session hs)
      exact ⟨z, List.mem_append_right _ (.tail _ hz), hf⟩
    case inr =>
      rw [he.created y hy] at hs
      cases hs
  case alone =>
    rw [first]
    rintro _ ⟨⟩ ho y hy hf
    have member := behind y hy hf
    rwa [he.alone ho, List.mem_singleton] at member
  case ids =>
    intro y hy ha
    obtain ⟨session, hm, hf⟩ := he.ids y (behind y hy (by simp [isFinal, ha])) ha
    exact ⟨session, hs session hm, hf⟩

theorem packageSessions (hc : command ∈ packageCommands) : talks.Tells Packages
    (packageSessions files command options args packages) := by
  refine sendCommand.bind fun r l h => ?_
  obtain ⟨useAbbExec, reply, rfl, h⟩ := h
  have final : isFinal (commandService useAbbExec ([command, ascii "install-create",
      ascii "--multi-package"] ++ options), reply) = false :=
    isFinal_commandService (v := .create) hc (by decide) _ _
  generalize commandService useAbbExec ([command, ascii "install-create",
    ascii "--multi-package"] ++ options) = service at final ⊢
  have none_created (hn : created? (service, reply) = none) : Packages false [(service, reply)] :=
    .of_none (List.forall_mem_singleton.mpr final) (List.forall_mem_singleton.mpr hn)
  obtain ⟨ho, rfl⟩ | ⟨ho, rfl⟩ := h
  · exact .pure (none_created (by simp [created?, ho]))
  dsimp only
  split
  case isTrue hn =>
    refine reportStatus.silent fun _ => reportStatus.silent fun _ => .pure (none_created ?_)
    simp [created?, Int.not_le.mpr hn]
  case isFalse hn =>
    refine reportStatus.silent fun _ => (childSessions hc packages [] nofun).bind
      fun r l hl => ?_
    obtain ⟨written, ids⟩ := r
    have remembers := (remembers_created ids final).append (hl.right.mono (List.subset_append_left ..))
    have ids' : ∀ session ∈ ids ++ [(sessionId reply.statusLine).1], IsId session :=
      List.forall_mem_append.mpr
        ⟨hl.left.right, List.forall_mem_singleton.mpr ⟨Int.not_lt.mp hn, sessionId_lt _⟩⟩
    have finalized (success : Bool) (m : List Exchange) (hm : Within m) : talks.Tells
        (fun ok n => Packages ok ([(service, reply)] ++ (l ++ (m ++ n))))
        (Installer.finalizePackages command args (sessionId reply.statusLine).1 success ids) := by
      refine (finalizePackages hc).mono fun ok n hn => ?_
      obtain ⟨x, rest, rfl, he⟩ := hn
      have packages := (remembers.append hm.remembers).packages ids' he
      simpa only [List.append_assoc] using packages
    dsimp only
    split
    · exact (linkSessions hc).bind fun success m hm => finalized success m hm
    · exact finalized false [] nofun

theorem installPackages : talks.Tells Packages (installPackages files args packages first) := by
  refine bestInstallMode.silent fun mode => ?_
  split
  · exact reportStatus.silent fun _ => .pure (.of_none nofun nofun)
  · refine isAbbExecSupported.silent fun useAbbExec => packageSessions ?_
    cases useAbbExec <;> decide

end Talks

namespace Run

def Tells (P : α → List Exchange → Prop) (x : Run α) : Prop :=
  ∀ s a s', x s = .ok (a, s') → ∃ l, talks.Adds s l s' ∧ P a l

namespace Tells

theorem lift {P : α → List Exchange → Prop} {x : StateM Installer α} (hx : talks.Tells P x) :
    Tells P (liftM x) := by
  intro s a s' h
  have hr : x s = (a, s') := Except.ok.inj h
  have ht := hx s
  rwa [hr] at ht

theorem throw {P : α → List Exchange → Prop} : Tells P (throw e) := by
  rintro s a s' ⟨⟩

theorem pure {P : α → List Exchange → Prop} (h : P a []) : Tells P (Pure.pure a) := by
  rintro s a s' ⟨⟩
  exact ⟨[], talks.refl s, h⟩

theorem bind {x : Run α} {f : α → Run β} {P : α → List Exchange → Prop}
    {Q : β → List Exchange → Prop} (hx : Tells P x)
    (hf : ∀ a l, P a l → Tells (fun b m => Q b (l ++ m)) (f a)) : Tells Q (x >>= f) := by
  intro s b s' h
  obtain ⟨a, t, ha, hb⟩ := bind_eq_ok h
  obtain ⟨l, hl, hp⟩ := hx s a t ha
  obtain ⟨m, hm, hq⟩ := hf a l hp t b s' hb
  exact ⟨l ++ m, talks.trans hl hm, hq⟩

theorem mono {x : Run α} {P Q : α → List Exchange → Prop} (hx : Tells P x)
    (h : ∀ a l, P a l → Q a l) : Tells Q x := by
  intro s a s' hs
  obtain ⟨l, hl, hp⟩ := hx s a s' hs
  exact ⟨l, hl, h _ _ hp⟩

theorem scanned {x : Except Exit α} : Tells (fun a l => l = [] ∧ x = .ok a) (liftM x) := by
  cases x
  case error => rintro s a s' ⟨⟩
  case ok a  => exact .pure ⟨rfl, rfl⟩

theorem check {c : Prop} [Decidable c] {f : β → Run α} {P : α → List Exchange → Prop} {x : Run α}
    (hx : ¬c → Tells P x) : Tells P (if c then MonadExcept.throw e >>= f else x) := by
  split
  · rintro s a s' ⟨⟩
  · exact hx ‹_›

end Tells

end Run

theorem splits_of_scanSplits (h : scanSplits files l splits n = .ok (front, splits', size)) :
    splits' = (l.takeWhile isSplit).reverse ++ splits := by
  induction l generalizing splits n
  case nil =>
    cases h
    rfl
  case cons file rest hi =>
    simp only [scanSplits] at h
    split at h
    case isTrue => cases h
    case isFalse =>
      split at h
      case isTrue hs =>
        split at h
        case h_1 => cases h
        case h_2 => rw [hi h, List.takeWhile_cons_of_pos hs, List.reverse_cons, List.append_assoc]; rfl
      case isFalse hs =>
        cases h
        rw [List.takeWhile_cons_of_neg hs]
        rfl

def trailingSplits (argv : List Bytes) : List Bytes :=
  (argv.reverse.takeWhile isSplit).reverse

-- At most one session, behind exchanges that belong to none.
def Dialogue (files : Files) (splits : List Bytes) (l : List Exchange) : Prop :=
  ∃ before after, l = before ++ after ∧ Talks.Foreign before ∧
    (after = [] ∨ Session files splits after)

namespace Run.Tells

theorem installMultipleAppStreamed : Tells (fun _ l => Session files (trailingSplits argv) l)
    (installMultipleAppStreamed files argv) := by
  refine scanned.bind fun scan l h => ?_
  obtain ⟨rfl, h⟩ := h
  refine check fun _ => .lift ?_
  have splits := splits_of_scanSplits h
  rw [List.append_nil] at splits
  rw [trailingSplits, ← splits]
  exact Talks.installSplits

theorem calculateInstallMode : Tells
    (fun modes l => Talks.Foreign l ∧ (modes.2.isSome → modes.1 = .incremental))
    (calculateInstallMode h mode fastdeploy request) := by
  unfold Installer.calculateInstallMode
  refine check fun _ => ?_
  split
  · exact check fun _ => .pure ⟨nofun, nofun⟩
  · cases request
    case enable =>
      refine (lift Talks.isAbbExecSupported).bind fun _ l h => ?_
      subst h
      split
      · exact .pure ⟨nofun, nofun⟩
      · exact .throw
    case disable =>
      refine (lift Talks.bestInstallMode).bind fun _ l h => .pure ?_
      subst h
      exact ⟨nofun, nofun⟩
    case none =>
      have best (incremental : Bool) (l : List Exchange) (hl : Talks.Foreign l) :
          Tells (fun (modes : InstallMode × Option InstallMode) m => Talks.Foreign (l ++ m) ∧
            (modes.2.isSome → modes.1 = .incremental)) (do
          let bestMode ← Installer.bestInstallMode
          return if incremental then (.incremental, some bestMode) else (bestMode, none)) := by
        refine (lift Talks.bestInstallMode).bind fun _ m h => .pure ?_
        subst h
        refine ⟨by simpa using hl, ?_⟩
        cases incremental <;> simp
      refine (lift Talks.isAbbExecSupported).bind fun _ l h => ?_
      subst h
      split
      · exact (lift Talks.incrementalByDefault).bind fun a l hl => best a l hl
      · exact (lift (.pure (P := fun _ l => Talks.Foreign l) nofun)).bind fun a l hl => best a l hl

theorem checkStreaming : Tells (fun _ l => l = []) (checkStreaming primary fallback) := by
  unfold Installer.checkStreaming
  split
  · refine (lift Talks.bestInstallMode).bind fun _ l h => ?_
    subst h
    split
    · exact .throw
    · exact .pure rfl
  · exact .pure rfl

theorem runInstallMode : Tells (fun _ l => Dialogue files (trailingSplits argv) l ∧
      (mode = .incremental → Talks.Foreign l))
    (runInstallMode h server files argv mode silent) := by
  cases mode
  case default => exact .throw
  case incremental =>
    refine (lift Talks.installAppIncremental).mono fun _ l h => ⟨?_, fun _ => h⟩
    exact ⟨l, [], (List.append_nil l).symm, h, .inl rfl⟩
  all_goals
    refine installMultipleAppStreamed.mono fun _ l h => ⟨?_, nofun⟩
    exact ⟨[], l, rfl, nofun, .inr h⟩

theorem runInstallModes (hf : fallback.isSome → primary = .incremental) :
    Tells (fun _ l => Dialogue files (trailingSplits argv) l)
      (runInstallModes h server files argv primary fallback) := by
  refine runInstallMode.bind fun done l h => ?_
  cases fallback
  case none => exact .pure (by simpa using h.left)
  case some mode =>
    dsimp only
    split
    case isFalse => exact .pure (by simpa using h.left)
    case isTrue =>
      have foreign := h.right (hf rfl)
      refine runInstallMode.mono fun _ m hm => ?_
      obtain ⟨before, after, rfl, hb, ha⟩ := hm.left
      exact ⟨l ++ before, after, (List.append_assoc ..).symm,
        List.forall_mem_append.mpr ⟨foreign, hb⟩, ha⟩

theorem installMultipleApp : Tells
    (fun _ l => Dialogue files (trailingSplits (parseInstallMode argv.tail).passthrough) l)
    (installMultipleApp h server files argv) := by
  refine calculateInstallMode.bind fun modes l hl => ?_
  refine checkStreaming.bind fun _ m hm => ?_
  subst hm
  refine (runInstallModes hl.right).mono fun _ m hm => ?_
  obtain ⟨before, after, rfl, hb, ha⟩ := hm
  exact ⟨l ++ before, after, by simp, List.forall_mem_append.mpr ⟨hl.left, hb⟩, ha⟩

theorem installMultiPackage : Tells Talks.Packages (installMultiPackage files argv) :=
  check fun _ => .lift Talks.installPackages

end Run.Tells

end Installer
