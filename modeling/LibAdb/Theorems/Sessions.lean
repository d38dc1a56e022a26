import LibAdb.Machine.Sessions
import Mathlib.Data.List.TakeWhile

namespace Installer

-- The arguments that `parse_install_mode` does not pass on.
def isModeFlag (arg : Bytes) : Bool :=
  arg == ascii "--streaming" || arg == ascii "--no-streaming" || isFlag "--incremental" 6 arg ||
    isFlag "--no-incremental" 9 arg || arg == ascii "--wait"

theorem passthrough_parseArg (p : Parsed) (arg : Bytes) :
    (parseArg p arg).passthrough = p.passthrough ++ [arg].filter (!isModeFlag ·) := by
  simp only [parseArg, isModeFlag]
  split_ifs <;> simp_all

theorem passthrough_parseInstallMode (argv : List Bytes) :
    (parseInstallMode argv).passthrough = argv.filter (!isModeFlag ·) := by
  suffices h : ∀ p, (argv.foldl parseArg p).passthrough =
      p.passthrough ++ argv.filter (!isModeFlag ·) from h {}
  induction argv
  case nil => simp
  case cons arg rest hi =>
    intro p
    rw [List.foldl_cons, hi, passthrough_parseArg, List.append_assoc, ← List.filter_append]
    rfl

def modeFlags : List Bytes :=
  [ascii "--streaming", ascii "--no-streaming", ascii "--wait"] ++
    (ascii "--incremental").inits.drop 6 ++ (ascii "--no-incremental").inits.drop 9

theorem mem_modeFlags (h : isModeFlag arg) : arg ∈ modeFlags := by
  have inits (flag : String) (n : Nat) (h : isFlag flag n arg) : arg ∈ (ascii flag).inits.drop n := by
    simp only [isFlag, Bool.and_eq_true, decide_eq_true_eq, List.isPrefixOf_iff_prefix] at h
    obtain ⟨least, t, ht⟩ := h
    rw [List.mem_drop_iff_getElem]
    refine ⟨arg.length - n, by simp [← ht]; omega, ?_⟩
    simp [← ht, least]
  simp only [isModeFlag, Bool.or_eq_true, beq_iff_eq] at h
  simp only [modeFlags, List.mem_append, List.mem_cons, List.not_mem_nil]
  rcases h with (((h | h) | h) | h) | h
  · simp [h]
  · simp [h]
  · exact .inl (.inr (inits _ _ h))
  · exact .inr (inits _ _ h)
  · simp [h]

def ending (file : Bytes) : Bytes :=
  (file.reverse.take 2).map Bytes.toLower

theorem ending_of_isSplit (h : isSplit file) :
    ending file ∈ [ascii "kp", ascii "md", ascii "gi"] := by
  have ends (suffix : String) (h : file.endsWithIgnoreCase suffix)
      (hl : 2 ≤ (ascii suffix).length) :
        ending file = ((ascii suffix).map Bytes.toLower).reverse.take 2 := by
    obtain ⟨t, ht⟩ := List.isSuffixOf_iff_suffix.mp h
    rw [ending, List.map_take, List.map_reverse, ← ht, List.reverse_append,
      List.take_append_of_le_length (by simpa using hl)]
  simp only [isSplit, isApk, Bool.or_eq_true] at h
  obtain (h | h) | h := h
  all_goals
    rw [ends _ h (by decide)]
    decide

theorem reverse_basename (h : isSplit file) : ∃ a b t,
    (Bytes.basename file).reverse = a :: b :: t ∧ ending file = [a, b].map Bytes.toLower := by
  have names := ending_of_isSplit h
  obtain ⟨file, rfl⟩ := List.reverse_surjective file
  rw [ending, List.reverse_reverse] at names ⊢
  rcases file with _ | ⟨a, _ | ⟨b, t⟩⟩
  · simp [ascii] at names
  · simp [ascii] at names
  · have first : a ≠ 47 := by rintro rfl; simp [ascii, Bytes.toLower] at names
    have second : b ≠ 47 := by rintro rfl; simp [ascii, Bytes.toLower] at names
    refine ⟨a, b, t.takeWhile (· != 47), ?_, rfl⟩
    simp [Bytes.basename, Bytes.afterLast, first, second]

theorem Streams.reverse_eq (h : Streams files session file x) :
    ∃ separator t, x.1.reverse = 45 :: separator :: ((Bytes.basename file).reverse ++ t) := by
  obtain ⟨useAbbExec, command, -, st, -, -, hx⟩ := h
  rw [hx]
  cases useAbbExec
  case false => exact ⟨32, _, by simp [commandService, installWriteArgs, Bytes.join, ascii]; rfl⟩
  case true => exact ⟨0, _, by simp [commandService, installWriteArgs, Bytes.join, ascii]; rfl⟩

theorem ending_modeFlags : ∀ flag ∈ modeFlags, ∃ a b t, flag.reverse = a :: b :: t ∧
    Bytes.basename flag = flag ∧ ending flag ∉ [ascii "kp", ascii "md", ascii "gi"] := by
  have literal : ∀ flag ∈ modeFlags, 2 ≤ flag.reverse.length ∧ Bytes.basename flag = flag ∧
      ending flag ∉ [ascii "kp", ascii "md", ascii "gi"] := by
    decide +kernel
  intro flag hf
  obtain ⟨two, same, other⟩ := literal flag hf
  rcases h : flag.reverse with _ | ⟨a, _ | ⟨b, t⟩⟩
  · simp [h] at two
  · simp [h] at two
  · exact ⟨a, b, t, rfl, same, other⟩

theorem isModeFlag_of_isSplit (h : isSplit file) : isModeFlag file = false := by
  refine Bool.eq_false_iff.mpr fun hm => ?_
  obtain ⟨-, -, -, -, -, other⟩ := ending_modeFlags file (mem_modeFlags hm)
  exact other (ending_of_isSplit h)

theorem Streams.isModeFlag (h : Streams files session file x) (h' : Streams files other flag x)
    (hs : isSplit file) : isModeFlag flag = false := by
  refine Bool.eq_false_iff.mpr fun hm => ?_
  obtain ⟨a, b, u, hb, he⟩ := reverse_basename hs
  obtain ⟨a', b', u', hf, hn, foreign⟩ := ending_modeFlags flag (mem_modeFlags hm)
  obtain ⟨c, t, ht⟩ := h.reverse_eq
  obtain ⟨c', t', ht'⟩ := h'.reverse_eq
  have same := ht.symm.trans ht'
  rw [hb, hn, hf] at same
  simp only [List.cons_append, List.cons.injEq, true_and] at same
  obtain ⟨-, rfl, rfl, -⟩ := same
  rw [ending, hf] at foreign
  exact foreign (he ▸ ending_of_isSplit hs)

theorem trailingSplits_append (hg : ∀ file ∈ given, isSplit file) :
    trailingSplits (front ++ given) = trailingSplits front ++ given := by
  rw [trailingSplits, List.reverse_append, List.takeWhile_append_of_pos (by simpa using hg),
    List.reverse_append, List.reverse_reverse]
  rfl

theorem length_trailingSplits {front given : List Bytes} (hf : file ∈ given) (hs : isSplit file = false)
    (hm : isModeFlag file = false) :
    (trailingSplits ((front ++ given).filter (!isModeFlag ·))).length < given.length := by
  obtain ⟨a, b, rfl⟩ := List.append_of_mem hf
  have kept : ((front ++ (a ++ file :: b)).filter (!isModeFlag ·)).reverse =
      (b.filter (!isModeFlag ·)).reverse ++ file :: ((front ++ a).filter (!isModeFlag ·)).reverse := by
    simp [hm]
  have le : (trailingSplits ((front ++ (a ++ file :: b)).filter (!isModeFlag ·))).length ≤
      (b.filter (!isModeFlag ·)).length := by
    rw [trailingSplits, List.length_reverse, kept, List.takeWhile_append]
    split
    · simp [hs]
    · simpa using (List.takeWhile_sublist (l := (b.filter _).reverse) isSplit).length_le
  have := List.length_filter_le (!isModeFlag ·) b
  simp only [List.length_append, List.length_cons]
  omega

-- A session is committed when each of the given files was sent by one `install-write` of its own
-- that succeeded, and abandoned otherwise.
structure CommitsComplete (files : Files) (given : List Bytes) (l : List Exchange) : Prop where
  complete : ∀ x ∈ l, asks .commit x.1 → ∃ session more, Finalizes .commit session x ∧
    List.Forall₂ (Wrote files session) (more ++ given) (l.filter fun y => asks .write y.1)
  ended    : ∀ x ∈ l, ∀ session ∈ reported? x,
    ∃ y ∈ l, Finalizes .commit session y ∨ Finalizes .abandon session y

-- The device creates a session and takes every file that the scan has found.
def Accepted (files : Files) (splits : List Bytes) (l : List Exchange) : Prop :=
  ∃ x ∈ l, ∃ session ∈ created? x,
    List.Forall₂ (Wrote files session) splits (l.filter fun y => asks .write y.1)

-- What the requests of a run say about its session.
structure Settled (files : Files) (splits : List Bytes) (l : List Exchange) : Prop where
  commits   : Accepted files splits l → ∃ x ∈ l, asks .commit x.1
  committed : ∀ x ∈ l, asks .commit x.1 → ∃ y ∈ l, ∃ session ∈ created? y,
    Finalizes .commit session x ∧
      List.Forall₂ (Wrote files session) splits (l.filter fun y => asks .write y.1)
  ended     : ∀ x ∈ l, ∀ session ∈ created? x,
    ∃ y ∈ l, Finalizes .commit session y ∨ Finalizes .abandon session y
  final     : ∀ x ∈ l, isFinal x → ∃ v session, IsId session ∧ Finalizes v session x

theorem filter_write {ws : List Exchange} (hy : asks .create y.1)
    (h : ∀ w ∈ ws, ∃ file, Streams files session file w) (hz : Finalizes v session z)
    (hv : v ≠ .write) : (y :: ws ++ [z]).filter (fun y => asks .write y.1) = ws := by
  have first : asks .write y.1 = false :=
    Bool.eq_false_iff.mpr fun h => by cases verb_unique h hy
  have last : asks .write z.1 = false := Bool.eq_false_iff.mpr fun h => hv (hz.asks.mp h).symm
  have all : ws.filter (fun y => asks .write y.1) = ws := by
    refine List.filter_eq_self.mpr fun w hw => ?_
    obtain ⟨file, hf⟩ := h w hw
    exact hf.asks.mpr rfl
  simp [first, last, all]

theorem streams_of_wrote (h : List.Forall₂ (Wrote files session) splits ws) :
    ∀ w ∈ ws, ∃ file, Streams files session file w := by
  intro w hw
  obtain ⟨file, -, hf⟩ := h.flip.exists_of_mem hw
  exact ⟨file, hf.left⟩

theorem eq_last (hy : asks .create y.1) (hw : ∀ w ∈ ws, ∃ file, Streams files session file w)
    (hx : x ∈ y :: ws ++ [z]) (hv : asks v x.1) (hc : v ≠ .create ∧ v ≠ .write) : x = z := by
  rcases List.mem_append.mp hx with hx | hx
  · rcases List.mem_cons.mp hx with rfl | hx
    · exact absurd (verb_unique hv hy) hc.left
    · obtain ⟨file, hf⟩ := hw x hx
      exact absurd (hf.asks.mp hv) hc.right
  · exact List.mem_singleton.mp hx

theorem created_unique (hy : created? y = some session)
    (hw : ∀ w ∈ ws, ∃ file, Streams files session file w) (hz : Finalizes v session z)
    (hv : v ≠ .create) (hx : x ∈ y :: ws ++ [z]) (hc : created? x = some other) :
    other = session := by
  have create := asks_of_created hc
  rcases List.mem_append.mp hx with hx | hx
  · rcases List.mem_cons.mp hx with rfl | hx
    · exact Option.some.inj (hc.symm.trans hy)
    · obtain ⟨file, hf⟩ := hw x hx
      cases hf.asks.mp create
  · rw [List.mem_singleton.mp hx] at create
    exact absurd (hz.asks.mp create).symm hv

theorem final_last (hy : created? y = some session)
    (hw : ∀ w ∈ ws, ∃ file, Streams files session file w) (hz : Finalizes v session z)
    (hx : x ∈ y :: ws ++ [z]) (hf : isFinal x) : ∃ v session, IsId session ∧ Finalizes v session x := by
  have last : x = z := by
    rcases Bool.or_eq_true_iff.mp hf with hf | hf
    all_goals exact eq_last (asks_of_created hy) hw hx hf (by decide)
  exact ⟨v, session, isId_of_created hy, last ▸ hz⟩

theorem Session.settled (h : Session files splits l) : Settled files splits l := by
  cases h
  case refused y hy hc =>
    have foreign (v : SessionVerb) (hv : v ≠ .create) : ¬asks v y.1 := fun h => hv (verb_unique h hy)
    refine ⟨?_, List.forall_mem_singleton.mpr fun h => absurd h (foreign _ (by decide)),
      List.forall_mem_singleton.mpr (by simp [hc]), List.forall_mem_singleton.mpr fun h => ?_⟩
    · simp [Accepted, hc]
    · rcases Bool.or_eq_true_iff.mp h with h | h
      all_goals exact absurd h (foreign _ (by decide))
  case committed y session ws z hy hw hz =>
    have streams := streams_of_wrote hw
    have create := asks_of_created hy
    refine ⟨fun _ => ⟨z, by simp, hz.asks.mpr rfl⟩, ?_, ?_, fun x hx => final_last hy streams hz hx⟩
    · intro x hx hc
      rw [eq_last create streams hx hc (by decide), filter_write create streams hz nofun]
      exact ⟨y, by simp, session, hy, hz, hw⟩
    · intro x hx other hc
      cases created_unique hy streams hz nofun hx hc
      exact ⟨z, by simp, .inl hz⟩
  case abandoned y session ws z hy hw hn hz =>
    have create := asks_of_created hy
    refine ⟨?_, ?_, ?_, fun x hx => final_last hy hw hz hx⟩
    · rintro ⟨x, hx, other, hc, wrote⟩
      cases created_unique hy hw hz nofun hx hc
      rw [filter_write create hw hz nofun] at wrote
      exact absurd wrote hn
    · intro x hx hc
      rw [eq_last create hw hx hc (by decide)] at hc
      cases hz.asks.mp hc
    · intro x hx other hc
      cases created_unique hy hw hz nofun hx hc
      exact ⟨z, by simp, .inr hz⟩

theorem Settled.of_foreign (hb : Talks.Foreign before) (h : Settled files splits l) :
    Settled files splits (before ++ l) := by
  have within {x : Exchange} (v : SessionVerb) (hx : x ∈ before ++ l) (hv : asks v x.1) : x ∈ l :=
    (List.mem_append.mp hx).resolve_left fun hx => hb x hx v hv
  have writes : (before ++ l).filter (fun y => asks .write y.1) =
      l.filter fun y => asks .write y.1 := by
    rw [List.filter_append, List.filter_eq_nil_iff.mpr fun y hy => hb y hy _, List.nil_append]
  refine ⟨?_, fun x hx hc => ?_, fun x hx session hc => ?_, fun x hx hf => h.final x ?_ hf⟩
  · rintro ⟨x, hx, session, hc, wrote⟩
    rw [writes] at wrote
    obtain ⟨y, hy, commit⟩ := h.commits ⟨x, within _ hx (asks_of_created hc), session, hc, wrote⟩
    exact ⟨y, List.mem_append_right _ hy, commit⟩
  · rw [writes]
    obtain ⟨y, hy, rest⟩ := h.committed x (within _ hx hc) hc
    exact ⟨y, List.mem_append_right _ hy, rest⟩
  · obtain ⟨y, hy, hf⟩ := h.ended x (within _ hx (asks_of_created hc)) session hc
    exact ⟨y, List.mem_append_right _ hy, hf⟩
  · rcases Bool.or_eq_true_iff.mp hf with hf | hf
    all_goals exact within _ hx hf

theorem Dialogue.settled (h : Dialogue files splits l) : Settled files splits l := by
  obtain ⟨before, after, rfl, hb, rfl | ha⟩ := h
  · refine .of_foreign hb ⟨?_, nofun, nofun, nofun⟩
    rintro ⟨x, hx, -⟩
    cases hx
  · exact .of_foreign hb ha.settled

theorem Finalizes.isFinal (h : Finalizes .commit session x ∨ Finalizes .abandon session x) :
    isFinal x := by
  rw [Installer.isFinal, Bool.or_eq_true]
  exact h.imp (·.asks.mpr rfl) (·.asks.mpr rfl)

theorem reported_nonneg (h : reported? x = some session) : 0 ≤ session := by
  simp only [reported?, Option.ite_none_right_eq_some, Bool.and_eq_true, decide_eq_true_eq,
    Option.some.injEq] at h
  exact h.right ▸ h.left.right

theorem CommitsComplete.reported_lt (hc : CommitsComplete files given l)
    (h : Settled files splits l) : ∀ x ∈ l, ∀ session ∈ reported? x, session < 0x80000000 := by
  intro x hx session hs
  obtain ⟨y, hy, hf⟩ := hc.ended x hx session hs
  obtain ⟨v, id, hi, hf'⟩ := h.final y hy (Finalizes.isFinal hf)
  have same : session = id := by
    rcases hf with hf | hf
    all_goals exact hf.unique hf' (reported_nonneg hs) hi.left
  exact same ▸ hi.right

theorem CommitsComplete.isSplit {front : List Bytes} (hc : CommitsComplete files given l)
    (h : Settled files (trailingSplits ((front ++ given).filter (!isModeFlag ·))) l)
    (accepted : Accepted files (trailingSplits ((front ++ given).filter (!isModeFlag ·))) l) :
    ∀ file ∈ given, Installer.isSplit file := by
  intro file hf
  obtain ⟨x, hx, commit⟩ := h.commits accepted
  obtain ⟨session, more, -, wrote⟩ := hc.complete x hx commit
  obtain ⟨-, -, id, -, wrote'⟩ := accepted
  have length := wrote.length_eq.trans wrote'.length_eq.symm
  by_contra hs
  rw [Bool.not_eq_true] at hs
  by_cases hm : isModeFlag file = false
  · have fewer : (trailingSplits ((front ++ given).filter _)).length < given.length :=
      length_trailingSplits hf hs hm
    rw [← length, List.length_append] at fewer
    omega
  · obtain ⟨w, hw, streams⟩ := wrote.exists_of_mem (List.mem_append_right more hf)
    obtain ⟨split, ht, streams'⟩ := wrote'.flip.exists_of_mem hw
    have scanned : Installer.isSplit split := List.mem_takeWhile_imp (List.mem_reverse.mp ht)
    exact hm (streams'.left.isModeFlag streams.left scanned)

theorem Settled.commitsComplete_iff (h : Settled files (trailingSplits (args.filter (!isModeFlag ·))) l)
    (ha : args = front ++ given) : CommitsComplete files given l ↔
      (∀ x ∈ l, ∀ session ∈ reported? x, session < 0x80000000) ∧
      (Accepted files (trailingSplits (args.filter (!isModeFlag ·))) l →
        ∀ file ∈ given, isSplit file) := by
  subst ha
  constructor
  case mp => exact fun hc => ⟨hc.reported_lt h, hc.isSplit h⟩
  case mpr =>
    rintro ⟨ids, complete⟩
    constructor
    · intro x hx hc
      obtain ⟨y, hy, session, hs, hf, wrote⟩ := h.committed x hx hc
      have splits := complete ⟨y, hy, session, hs, wrote⟩
      have kept : given.filter (!isModeFlag ·) = given :=
        List.filter_eq_self.mpr fun file hf => by simp [isModeFlag_of_isSplit (splits file hf)]
      rw [List.filter_append, kept, trailingSplits_append splits] at wrote
      exact ⟨session, _, hf, wrote⟩
    · intro x hx session hs
      exact h.ended x hx session (created?_of_reported hs (ids x hx session hs))

end Installer

namespace AdbInstaller

open Installer

-- The files that an attempt is given: the paths with each bundle unpacked.
def given (h : Host) (d : Disk) (paths : List Bytes) : List Bytes :=
  (expandApks h d paths).2.map (Bytes.cString · [])

-- The files that the scan finds among the arguments.
def scanned (h : Host) (d : Disk) (paths flags : List Bytes) : List Bytes :=
  trailingSplits (parseInstallMode (argv flags (expandApks h d paths).2 false).tail).passthrough

theorem install_commits_complete_iff
    (hi : install h e d paths flags false = .ok (d', ok, s)) :
    CommitsComplete (expandApks h d paths).1.files (given h d paths) (exchanges e.replies s.sent) ↔
      (∀ x ∈ exchanges e.replies s.sent, ∀ session ∈ reported? x, session < 0x80000000) ∧
      (Accepted (expandApks h d paths).1.files (scanned h d paths flags)
        (exchanges e.replies s.sent) → ∀ file ∈ given h d paths, isSplit file) := by
  have args : (argv flags (expandApks h d paths).2 false).tail =
      flags.map (Bytes.cString · []) ++ given h d paths := by simp [argv, given]
  rw [scanned, passthrough_parseInstallMode]
  refine Settled.commitsComplete_iff ?_ args
  rw [← passthrough_parseInstallMode]
  by_cases hne : (expandApks h d paths).2 = []
  case pos =>
    simp only [install, hne, if_true, Except.ok.injEq, Prod.mk.injEq] at hi
    obtain ⟨-, -, rfl⟩ := hi
    exact Dialogue.settled ⟨[], [], rfl, List.forall_mem_nil _, .inl rfl⟩
  case neg =>
    rw [install_eq hne] at hi
    obtain ⟨l, hl, hd⟩ := Run.Tells.installMultipleApp _ _ _ (ok_of_map hi)
    rw [exchanges_of_talks hl]
    exact hd.settled

section Samples

def sessionFiles : Files where
  stat path  := if [ascii "app.apk", ascii "lib.so"].contains path then some ⟨1, true⟩ else none
  readable _ := true
  readdir _  := []

def sessionHost : Host where
  system _ files := (files, true)
  mkdirs _ files := files
  now n          := n

def sessionReply : Reply := { text := ascii "Success: created install session [7]" }

-- A device on which everything goes well.
def sessionAttempt : Attempt where
  features := .const [ascii "cmd"]
  replies  := Stream'.cons sessionReply (.const { text := ascii "Success" })

theorem install_commits_complete_of_apk : ∃ d' s,
    install sessionHost sessionAttempt { files := sessionFiles } [ascii "app.apk"] [] false =
        .ok (d', true, s) ∧
      (∃ x ∈ exchanges sessionAttempt.replies s.sent, asks .commit x.1) ∧
      CommitsComplete sessionFiles [ascii "app.apk"] (exchanges sessionAttempt.replies s.sent) := by
  have run : (install sessionHost sessionAttempt { files := sessionFiles } [ascii "app.apk"] []
      false).toOption.any fun r => r.2.1 &&
        (exchanges sessionAttempt.replies r.2.2.sent).any (asks .commit ·.1) &&
        (exchanges sessionAttempt.replies r.2.2.sent).all
          fun x => (reported? x).all (decide <| · < 0x80000000) := by
    decide +kernel
  simp only [Option.any_eq_true, Bool.and_eq_true, List.any_eq_true, List.all_eq_true,
    Option.all_eq_true, decide_eq_true_eq] at run
  obtain ⟨⟨d', ok, s⟩, hi, ⟨rfl, commit⟩, ids⟩ := run
  replace hi := Except.eq_ok_of_toOption hi
  exact ⟨d', s, hi, commit, (install_commits_complete_iff hi).mpr ⟨ids, fun _ => by decide⟩⟩

-- A library in front of the package becomes an argument of `install-create`.
theorem install_drops_file : ¬∀ (h : Host) (e : Attempt) (d : Disk) (paths flags : List Bytes)
    (d' : Disk) (ok : Bool) (s : Installer), install h e d paths flags false = .ok (d', ok, s) →
      CommitsComplete (expandApks h d paths).1.files (given h d paths)
        (exchanges e.replies s.sent) := by
  intro always
  have run : (install sessionHost sessionAttempt { files := sessionFiles }
      [ascii "lib.so", ascii "app.apk"] [] false).toOption.any fun r =>
        (exchanges sessionAttempt.replies r.2.2.sent).any (asks .commit ·.1) &&
        ((exchanges sessionAttempt.replies r.2.2.sent).filter (asks .write ·.1)).length == 1 := by
    decide +kernel
  simp only [Option.any_eq_true, Bool.and_eq_true, List.any_eq_true, beq_iff_eq] at run
  obtain ⟨⟨d', ok, s⟩, hi, ⟨x, hx, commit⟩, one⟩ := run
  have complete := always _ _ _ _ _ _ _ _ (Except.eq_ok_of_toOption hi)
  obtain ⟨session, more, -, wrote⟩ := complete.complete x hx commit
  have two : (given sessionHost { files := sessionFiles }
      [ascii "lib.so", ascii "app.apk"]).length = 2 := by decide
  have length := wrote.length_eq
  rw [one, List.length_append, two] at length
  omega

end Samples

end AdbInstaller

namespace Installer

end Installer
