import LibAdb.Machine.Shell

-- What the session of a command that has succeeded looks like.
def AdbSession.Complete (s : AdbSession) : Prop :=
  s.v2 → s.ended ∧ ShellProtocol.exits s.received ∧ s.exited

namespace Operation

variable {o o' : Operation} {s s' : AdbSession} {f f' : CancelFlag} {p : Point}

-- The stream of a session ends behind an exit packet, or the operation was cancelled before.
def endsOrderly (o : Operation) : Action → Bool
  | .hangup => o.flag.triggered || o.session.all fun s => !s.v2 || ShellProtocol.exits s.received
  | _       => true

def isRunning : Point → Bool
  | .shell (.done _) => false
  | .shell _         => true
  | _                => false

-- What holds of the session where the thread stands.
def Stands (flag : CancelFlag) (session : Option AdbSession) : Point → Prop
  | .online => session = none
  | .shell (.abort true) => flag.triggered
  | .shell (.exited _) => ∃ s ∈ session, s.promise ≠ none
  | .shell (.done r) | .finish r | .done r => r.status = .ok → ∃ s ∈ session, s.Complete
  | .shell _ => True
  | _ => False

structure Answered (o : Operation) : Prop where
  job    : ∃ options, o.job = .shell options
  tracks : ∀ s ∈ o.session, s.v2 → s.Tracks
  cut    : isRunning o.point → ∀ s ∈ o.session, s.v2 → s.ended →
    ShellProtocol.exits s.received ∨ o.flag.triggered
  stands : Stands o.flag o.session o.point

structure Advances (s s' : AdbSession) : Prop where
  v2       : s'.v2 = s.v2
  promise  : s.promise ≠ none → s'.promise ≠ none
  complete : s.Complete → s'.Complete
  tracks   : s'.v2 → s.Tracks → s'.Tracks

theorem advances_receive (h : s.receive bytes = some s') : Advances s s' where
  tracks _ ht := ht.receive h
  v2 := by
    simp only [AdbSession.receive, Option.ite_none_left_eq_some, Option.some.injEq] at h
    rw [← h.right]
  promise := by
    simp only [AdbSession.receive, Option.ite_none_left_eq_some, Option.some.injEq] at h
    rw [← h.right]
    exact id
  complete hc hv := by
    simp only [AdbSession.receive, Option.ite_none_left_eq_some, Option.some.injEq] at h
    obtain ⟨he, rfl⟩ := h
    exact absurd (hc hv).left he

theorem advances_ended : Advances s { s with ended := true } where
  v2 := rfl
  promise := id
  complete hc hv := ⟨rfl, (hc hv).right⟩
  tracks _ ht := ht.ended

theorem advances_read (h : s.readerThread = some s') : Advances s s' := by
  obtain ⟨v2, ended, received, exited⟩ := AdbSession.readerThread_frame h
  refine ⟨v2, fun hp => ?_, fun hc hv => ?_, fun hv ht => ht.read (v2 ▸ hv) h⟩
  · simp [AdbSession.readerThread, Option.isSome_iff_ne_none.mpr hp] at h
  · obtain ⟨he, hx, hm⟩ := hc (v2 ▸ hv)
    exact ⟨ended ▸ he, received ▸ hx, exited hm⟩

theorem Stands.advance (h : Stands f (some s) p) (hs : Advances s s') : Stands f (some s') p := by
  have complete : (∃ x ∈ some s, x.Complete) → ∃ x ∈ some s', x.Complete := by
    rintro ⟨_, ⟨⟩, hc⟩
    exact ⟨s', rfl, hs.complete hc⟩
  cases p
  case shell point =>
    cases point
    case exited =>
      obtain ⟨_, ⟨⟩, hp⟩ := h
      exact ⟨s', rfl, hs.promise hp⟩
    case done => exact fun hr => complete (h hr)
    case abort canceled => cases canceled <;> exact h
    all_goals exact h
  case finish | done => exact fun hr => complete (h hr)
  case online => cases h
  all_goals exact h

theorem Stands.flag (h : Stands f x p) (hf : f.triggered → f'.triggered) : Stands f' x p := by
  cases p
  case shell point =>
    cases point
    case abort canceled =>
      cases canceled
      case true => exact hf h
      case false => exact h
    all_goals exact h
  all_goals exact h

namespace Answered

theorem flag (h : Answered o) (hf : o.flag.triggered → f.triggered) :
    Answered { o with flag := f } where
  job := h.job
  tracks := h.tracks
  cut hr s hs hv he := (h.cut hr s hs hv he).imp_right hf
  stands := h.stands.flag hf

theorem advance (h : Answered o) (hs : o.session = some s) (ha : Advances s s')
    (he : s'.v2 → s'.ended → s.ended ∧ s'.received = s.received ∨
      ShellProtocol.exits s'.received ∨ o.flag.triggered) :
    Answered { o with session := some s' } where
  job := h.job
  tracks := by
    rintro _ ⟨⟩ hv
    exact ha.tracks hv (h.tracks s hs (ha.v2 ▸ hv))
  cut := by
    rintro hr _ ⟨⟩ hv hend
    rcases he hv hend with ⟨hend, received⟩ | he
    · rw [received]
      exact h.cut hr s hs (ha.v2 ▸ hv) hend
    · exact he
  stands := by
    have := h.stands
    rw [hs] at this
    exact this.advance ha

theorem moves {x' : Option AdbSession} {point point' : ShellPoint} (h : Answered o)
    (hp : o.point = .shell point) (hm : point.Moves o.flag o.session point' x') :
    Answered { o with point := .shell point', session := x' } := by
  have ⟨job, tracks, cut, stands⟩ := h
  rw [hp] at cut stands
  have aborted : ∀ s ∈ o.session.map AdbSession.abort, s.v2 → s.Tracks := by
    intro _ ha hv
    obtain ⟨s, hs, rfl⟩ := Option.map_eq_some_iff.mp ha
    exact (tracks s hs hv).aborted
  cases hm
  case started =>
    refine ⟨job, ?_, ?_, trivial⟩
    · rintro _ ⟨⟩ rfl
      exact .fresh
    · rintro _ _ ⟨⟩ _ ⟨⟩
  case refused hr => exact ⟨job, tracks, nofun, fun ho => nomatch hr.symm.trans ho⟩
  case canceled hf => exact ⟨job, tracks, fun _ => cut rfl, hf⟩
  case check | expired | slice | again => exact ⟨job, tracks, fun _ => cut rfl, trivial⟩
  case ready hs hq => exact ⟨job, tracks, fun _ => cut rfl, _, hs, hq⟩
  case interrupted => exact ⟨job, tracks, fun _ => cut rfl, trivial⟩
  case exited hf hr =>
    refine ⟨job, tracks, nofun, fun _ => ?_⟩
    have ⟨s, hs, hp⟩ := stands
    refine ⟨s, hs, fun hv => ?_⟩
    have ⟨ended, met⟩ := (tracks s hs hv).promised hp
    have exits := (cut rfl s hs hv ended).resolve_right (Bool.eq_false_iff.mp hf)
    exact ⟨ended, exits, met exits⟩
  case abort =>
    exact ⟨job, aborted, fun _ _ _ _ _ => .inr stands, trivial⟩
  case timeout hr =>
    exact ⟨job, aborted, nofun, fun ho => nomatch hr.symm.trans ho⟩
  case cancel hr =>
    refine ⟨job, tracks, nofun, fun ho => ?_⟩
    simp only [hr, CancelFlag.status] at ho
    split at ho <;> cases ho

theorem resume (h : Answered o) :
    Answered { o with point := (o.resume env).1, session := (o.resume env).2 } := by
  have ⟨job, tracks, cut, stands⟩ := h
  obtain ⟨_, f, p, x⟩ := o
  obtain ⟨options, rfl⟩ := job
  cases p
  case online =>
    cases stands
    cases ho : env.online <;> simp only [Operation.resume, ho]
    · exact ⟨⟨options, rfl⟩, tracks, nofun, nofun⟩
    · exact ⟨⟨options, rfl⟩, tracks, nofun, trivial⟩
  case shell point =>
    by_cases hd : ∃ r, point = .done r
    case pos =>
      obtain ⟨r, rfl⟩ := hd
      exact ⟨⟨options, rfl⟩, tracks, nofun, stands⟩
    case neg =>
      have hd r : point ≠ .done r := fun hr => hd ⟨r, hr⟩
      simp only [Operation.resume, nextShell_eq hd]
      exact h.moves rfl (ShellPoint.next_moves hd)
  case finish r | done r => exact ⟨⟨options, rfl⟩, tracks, nofun, stands⟩
  all_goals exact stands.elim

theorem modifyInner_eq (h : Answered o) {g : CancelFlag → CancelFlag} :
    modifyInner g o.point = o.point := by
  have stands := h.stands
  cases hp : o.point
  case install =>
    rw [hp] at stands
    exact stands.elim
  all_goals rfl

theorem next (h : Answered o) (hp : o.endsOrderly a) (hn : o.next a = some o') : Answered o' := by
  cases a
  case mark =>
    simp only [Operation.next, Option.ite_none_left_eq_some, Option.some.injEq] at hn
    obtain ⟨-, rfl⟩ := hn
    rw [h.modifyInner_eq]
    exact h.flag fun _ => Bool.or_true _
  case cancel outer inner =>
    simp only [Operation.next, Option.ite_none_left_eq_some, Option.some.injEq] at hn
    obtain ⟨-, rfl⟩ := hn
    rw [h.modifyInner_eq]
    refine h.flag fun hf => ?_
    simp only [CancelFlag.triggered, Bool.or_eq_true] at hf ⊢
    exact hf.imp_left .inl
  case resume env =>
    simp only [Operation.next, Option.ite_none_left_eq_some, Option.some.injEq] at hn
    obtain ⟨-, rfl⟩ := hn
    exact h.resume
  case work ok output =>
    have stands := h.stands
    simp only [Operation.next] at hn
    cases hp : o.point <;> rw [hp] at hn stands
    case install => exact stands.elim
    all_goals cases hn
  case receive bytes =>
    simp only [Operation.next, Option.map_eq_some_iff, Option.bind_eq_some_iff] at hn
    obtain ⟨s', ⟨s, hs, hr⟩, rfl⟩ := hn
    refine h.advance hs (advances_receive hr) fun _ he => ?_
    simp only [AdbSession.receive, Option.ite_none_left_eq_some, Option.some.injEq] at hr
    obtain ⟨hn, rfl⟩ := hr
    exact absurd he hn
  case hangup =>
    simp only [Operation.next, Option.map_eq_some_iff] at hn
    obtain ⟨s, hs, rfl⟩ := hn
    refine h.advance hs advances_ended fun hv _ => .inr ?_
    simpa [endsOrderly, hs, or_comm, show s.v2 = true from hv] using hp
  case read =>
    simp only [Operation.next, Option.map_eq_some_iff, Option.bind_eq_some_iff] at hn
    obtain ⟨s', ⟨s, hs, hr⟩, rfl⟩ := hn
    obtain ⟨_, ended, received, _⟩ := AdbSession.readerThread_frame hr
    exact h.advance hs (advances_read hr) fun _ he => .inl ⟨ended ▸ he, received⟩

end Answered

theorem ok_after_exit (h : Runs (fun o a => o.endsOrderly a) (start (.shell options)) o)
    (hd : o.point = .done r) (hr : r.status = .ok) :
    ∃ s, o.session = some s ∧ (s.v2 → ShellProtocol.exits s.received ∧ s.exited) := by
  have first : Answered (start (.shell options)) := ⟨⟨options, rfl⟩, nofun, nofun, rfl⟩
  have answered := h.invariant (fun _ _ _ hp hn h => h.next hp hn) first
  have stands := answered.stands
  rw [hd] at stands
  have ⟨s, hs, complete⟩ := stands hr
  exact ⟨s, hs, fun hv => (complete hv).right⟩

-- A command prints a letter and exits with 7.
theorem ok_after_exit_of_seven :
    ∃ o r s, Runs (fun o a => o.endsOrderly a) (start (.shell {})) o ∧ o.point = .done r ∧
      r.status = .ok ∧ r.exitCode = 7 ∧ r.output = ascii "a" ∧ o.session = some s ∧ s.v2 ∧ s.exited := by
  have ⟨o, h, done, all⟩ : ∃ o, Runs (fun o a => o.endsOrderly a) (start (.shell {})) o ∧
      o.point = .done { exitCode := 7, phase := .finalize, output := ascii "a" } ∧
      o.session.all (·.v2) :=
    Reach.exists_of_guarded (fun _ _ hq => hq) (List.flatten [[.resume {},
      .resume { started := some (true, 0) }, .receive [1, 1, 0, 0, 0, 97, 3, 1, 0, 0, 0, 7],
      .hangup], List.replicate 3 .read, List.replicate 6 (.resume {})]) (by decide +kernel)
  have ⟨s, hs, exited⟩ := ok_after_exit h done rfl
  have v2 : s.v2 := by simpa [hs] using all
  exact ⟨o, _, s, h, done, rfl, rfl, rfl, hs, v2, (exited v2).right⟩

structure Lost (stream : Bytes) (o : Operation) (s : AdbSession) : Prop where
  runs     : Runs (fun _ _ => True) (start (.shell {})) o
  point    : ∃ r, o.point = .done r ∧ r.status = .ok ∧ r.exitCode = 255
  session  : o.session = some s
  v2       : s.v2
  received : s.received = stream
  exits    : ShellProtocol.exits stream = false
  exited   : s.exited = false

def lostRun (stream : Bytes) : List Action :=
  [.resume {}, .resume { started := some (true, 0) }, .receive stream, .hangup, .read] ++
    List.replicate 6 (.resume {})

theorem exists_lost {stream : Bytes} (hx : ShellProtocol.exits stream = false)
    (h : (exec next (start (.shell {})) (lostRun stream)).any fun o =>
      o.point == .done { exitCode := 255, phase := .finalize } &&
        o.session.any fun s => s.v2 && s.received == stream && !s.exited) :
    ∃ o s, Lost stream o s := by
  rw [Option.any_eq_true] at h
  have ⟨o, ho, h⟩ := h
  simp only [Bool.and_eq_true, beq_iff_eq, Option.any_eq_true, Bool.not_eq_true'] at h
  have ⟨point, s, session, ⟨v2, received⟩, exited⟩ := h
  exact ⟨o, s, .of_exec ho, ⟨_, point, rfl, rfl⟩, session, v2, received, hx, exited⟩

-- The stream ends at once, inside of a packet with output, or before the code of its exit packet.
theorem shell_succeeds_without_exit :
    (∃ o s, Lost [] o s) ∧ (∃ o s, Lost [1, 3, 0, 0, 0, 97, 98] o s) ∧
      ∃ o s, Lost [3, 1, 0, 0, 0] o s := by
  refine ⟨exists_lost ?_ ?_, exists_lost ?_ ?_, exists_lost ?_ ?_⟩ <;> decide +kernel

end Operation
