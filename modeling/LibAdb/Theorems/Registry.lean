import LibAdb.Machine.Reconnect

namespace Registry

variable {s s' : Registry} {a : Action} {t u place : Nat} {serial : String} {q : ReconnectAttempt}
  {result : ReconnectResult}

theorem transports_listed_once (h : Reachable (fun _ _ => True) s) :
    (s.pendingList ++ s.transportList).Nodup ∧
      (∀ t ∈ s.pendingList ++ s.transportList, (s.heap t).isSome) ∧
      ∀ t ∈ s.pendingList ++ s.transportList, ∀ u ∈ s.pendingList ++ s.transportList, ∀ x y,
        s.heap t = some x → s.heap u = some y → x.socket → y.socket → x.serial = y.serial → t = u := by
  have sound := Sound.of_reachable h
  refine ⟨sound.nodup, fun t ht => ?_, fun t ht u hu x y hx hy xs ys he => ?_⟩
  · have := sound.listed t ht
    rwa [face, Option.isSome_map] at this
  · refine sound.distinct t ht u hu x.id y.id x.serial ?_ ?_
    · simp [face, hx, xs]
    · simp [face, hy, ys, he]

section Samples

-- Two connections to one device are attempted while the first transport is pending, and again when it
-- is being reconnected.
theorem transports_listed_once_sample : ∃ s : Registry, Reachable (fun _ _ => True) s ∧
    s.transportList = [1] ∧ s.queue.length = 1 ∧ (s.pendingList ++ s.transportList).Nodup := by
  have ⟨s, reached, list, length⟩ : ∃ s : Registry, Reachable (fun _ _ => True) s ∧
      s.transportList = [1] ∧ s.queue.length = 1 :=
    Reach.exists_of_exec [.registerSocketTransport 1 "a", .registerSocketTransport 2 "a",
      .registerTransport 1, .loop 0, .handleError 1, .loop 0, .registerSocketTransport 2 "a"]
      (by decide)
  exact ⟨s, reached, list, length, (transports_listed_once reached).1⟩

end Samples

section Removal

def idAt (s : Registry) (t : Nat) : Option Nat :=
  (s.heap t).map (·.id)

-- The removal of an object that was asked for is queued until the object is deleted.
structure Removed (s : Registry) : Prop where
  ids    : ∀ t i, s.idAt t = some i → i < s.created
  inj    : ∀ t u i, s.idAt t = some i → s.idAt u = some i → t = u
  bound  : ∀ i ∈ s.removed, i < s.created
  queued : ∀ t i, s.idAt t = some i → i ∈ s.removed → .remove t ∈ s.tasks
  nodup  : s.removed.Nodup

namespace Removed

theorem keep (h : Removed s) (idAt : s'.idAt = s.idAt) (created : s'.created = s.created)
    (removed : s'.removed = s.removed) (tasks : ∀ t, .remove t ∈ s.tasks → .remove t ∈ s'.tasks) :
    Removed s' := by
  constructor
  case ids => simpa only [idAt, created] using h.ids
  case inj => simpa only [idAt] using h.inj
  case bound => simpa only [removed, created] using h.bound
  case queued =>
    rw [idAt, removed]
    exact fun t i hi hr => tasks t (h.queued t i hi hr)
  case nodup => exact removed ▸ h.nodup

theorem addTransport {socket : Bool} (h : Removed s) :
    Removed (s.addTransport t serial socket) := by
  have idAt (u : Nat) : (s.addTransport t serial socket).idAt u =
      if u = t then some s.created else s.idAt u := by
    simp only [Registry.idAt, Registry.addTransport, Function.update_apply]
    split <;> rfl
  constructor
  case ids =>
    intro u i hi
    rw [idAt] at hi
    split at hi
    case isTrue =>
      cases hi
      exact Nat.lt_succ_self _
    case isFalse => exact Nat.lt_succ_of_lt (h.ids u i hi)
  case inj =>
    intro u v i hu hv
    rw [idAt] at hu hv
    split at hu <;> split at hv
    case isTrue.isTrue he hf => rw [he, hf]
    case isTrue.isFalse =>
      cases hu
      exact absurd (h.ids v _ hv) (Nat.lt_irrefl _)
    case isFalse.isTrue =>
      cases hv
      exact absurd (h.ids u _ hu) (Nat.lt_irrefl _)
    case isFalse.isFalse => exact h.inj u v i hu hv
  case bound => exact fun i hi => Nat.lt_succ_of_lt (h.bound i hi)
  case queued =>
    intro u i hu hr
    rw [idAt] at hu
    split at hu
    case isTrue =>
      cases hu
      exact absurd (h.bound _ hr) (Nat.lt_irrefl _)
    case isFalse => exact h.queued u i hu hr
  case nodup => exact h.nodup

theorem removeTransport (h : Removed s) (unused : s.uses t = 0) : Removed (s.removeTransport t) := by
  have notQueued : .remove t ∉ s.tasks := by
    intro hm
    have : 0 < (s.tasks.map (·.transport)).count t :=
      List.count_pos_iff.mpr (List.mem_map_of_mem (f := (·.transport)) hm)
    rw [uses] at unused
    omega
  have mem {i : Nat} : i ∈ (s.removeTransport t).removed ↔ i ∈ s.removed ∨ s.idAt t = some i := by
    simp [Registry.removeTransport, idAt]
  constructor
  case ids => exact h.ids
  case inj => exact h.inj
  case bound =>
    intro i hi
    rcases mem.mp hi with hi | hi
    · exact h.bound i hi
    · exact h.ids t i hi
  case queued =>
    intro u i hu hr
    rcases mem.mp hr with hr | hr
    · exact List.mem_append_left _ (h.queued u i hu hr)
    · cases h.inj u t i hu hr
      exact List.mem_append_right _ (.head _)
  case nodup =>
    refine List.nodup_append.mpr ⟨h.nodup, by cases (s.heap t).map (·.id) <;> simp, ?_⟩
    rintro i hi j hj rfl
    exact notQueued (h.queued t i (by simpa [idAt] using hj) hi)

section Tasks

variable {tasks : List RegistryTask} {task : RegistryTask}

theorem remove_mem_tail (ht : s.tasks = task :: tasks) (other : ∀ u, task ≠ .remove u)
    (h : .remove u ∈ s.tasks) : .remove u ∈ tasks := by
  rw [ht] at h
  exact (List.mem_cons.mp h).resolve_left (Ne.symm (other u))

theorem taken (h : Removed s) (ht : s.tasks = task :: tasks) (other : ∀ u, task ≠ .remove u) :
    Removed { s with tasks } :=
  h.keep rfl rfl rfl fun _ => remove_mem_tail ht other

theorem unused_tail (h : Sound s) (ht : s.tasks = task :: tasks) :
    ({ s with tasks } : Registry).uses task.transport = 0 := by
  have := h.once task.transport
  rw [uses_tail ht, List.count_singleton_self] at this
  omega

theorem fdeventUnregisterTransport (h : Removed s) (ht : s.tasks = .remove t :: tasks) :
    Removed ({ s with tasks }.fdeventUnregisterTransport t) := by
  have idAt (u : Nat) : ({ s with tasks }.fdeventUnregisterTransport t).idAt u =
      if u = t then none else s.idAt u := by
    simp only [Registry.idAt, Registry.fdeventUnregisterTransport, Function.update_apply]
    split <;> rfl
  have old {u i : Nat} (hi : ({ s with tasks }.fdeventUnregisterTransport t).idAt u = some i) :
      u ≠ t ∧ s.idAt u = some i := by
    rw [idAt] at hi
    split at hi
    case isTrue => cases hi
    case isFalse hn => exact ⟨hn, hi⟩
  constructor
  case ids => exact fun u i hi => h.ids u i (old hi).2
  case inj => exact fun u v i hu hv => h.inj u v i (old hu).2 (old hv).2
  case bound => exact h.bound
  case queued =>
    intro u i hu hr
    have queued := h.queued u i (old hu).2 hr
    rw [ht] at queued
    exact (List.mem_cons.mp queued).resolve_left (by simpa using (old hu).1)
  case nodup => exact h.nodup

end Tasks

section Handler

theorem giveUp {queue : List ReconnectAttempt} (h : Removed s) (sound : Sound s)
    (hq : s.queue.Perm (q :: queue)) : Removed ({ s with queue }.removeTransport q.transport) := by
  refine Removed.removeTransport (h.keep rfl rfl rfl fun _ => id) ?_
  have := sound.once q.transport
  rw [uses_dequeue hq, List.count_singleton_self] at this
  omega

theorem conclude (h : Removed s) (sound : Sound s) (hh : s.handler = some (.attempt q)) :
    Removed ({ s with handler := some .waiting }.conclude q place result) := by
  have left : Removed { s with handler := some .waiting } := h.keep rfl rfl rfl fun _ => id
  have unused : ({ s with handler := some .waiting } : Registry).uses q.transport = 0 := by
    have := sound.once q.transport
    rw [uses_attempt hh, List.count_singleton_self] at this
    omega
  cases result <;> rw [Registry.conclude]
  case retry =>
    split
    case isTrue => exact left.removeTransport unused
    case isFalse => exact left.keep rfl rfl rfl fun _ => id
  case success => exact left.keep rfl rfl rfl fun _ => List.mem_append_left _
  case abort => exact left.removeTransport unused

end Handler

theorem next (h : Removed s) (sound : Sound s) (hs : s.next a = some s') : Removed s' := by
  have same {s' : Registry} (idAt : s'.idAt = s.idAt) (created : s'.created = s.created)
      (removed : s'.removed = s.removed) (tasks : s'.tasks = s.tasks) : Removed s' :=
    h.keep idAt created removed fun _ ht => tasks ▸ ht
  cases next_moves hs
  case add => exact h.addTransport
  case register | fail => exact h.keep rfl rfl rfl fun _ => List.mem_append_left _
  case kick hx =>
    refine same (funext fun u => ?_) rfl rfl rfl
    simp only [idAt, Function.update_apply]
    split
    case isTrue he => rw [he, hx]; rfl
    case isFalse => rfl
  case enlist ht =>
    have taken := h.taken ht (by rintro _ ⟨⟩)
    rw [fdeventRegisterTransport]
    dsimp only
    split
    all_goals exact taken.keep rfl rfl rfl fun _ => id
  case track ht _ => exact (h.taken ht (by rintro _ ⟨⟩)).keep rfl rfl rfl fun _ => id
  case forget ht => exact h.taken ht (by rintro _ ⟨⟩)
  case remove ht => exact (h.taken ht (by rintro _ ⟨⟩)).removeTransport (unused_tail sound ht)
  case delete ht => exact h.fdeventUnregisterTransport ht
  case giveUp hq _ => exact h.giveUp sound hq
  case conclude hh => exact h.conclude sound hh
  case flags | unlist | move | pass | take => exact same rfl rfl rfl rfl

theorem of_reachable {P : Registry → Action → Prop} (h : Reachable P s) : Removed s := by
  refine h.invariant_under (I := Sound) (fun _ _ _ _ hs h => h.next hs)
    (fun _ _ _ sound _ hs h => h.next sound hs) (.of_reachable (P := P) .refl) ?_
  exact ⟨nofun, nofun, nofun, nofun, List.nodup_nil⟩

end Removed

end Removal

section Attempts

-- The transport is not kicked from the check of the handler on until the attempt is over.
def sparesChecked (s : Registry) : Action → Bool
  | .kick t => s.checked.all (·.transport ≠ t)
  | _ => true

-- The attempts of a loss that were made and those that are left come to the same number.
structure Counted (s : Registry) : Prop where
  queued : ∀ q ∈ s.queue, s.attempts.count q.loss + q.attemptsLeft = maxAttempts
  hand   : ∀ q ∈ inHand s.handler, s.attempts.count q.loss + q.attemptsLeft = maxAttempts + 1
  bound  : ∀ l, s.attempts.count l ≤ maxAttempts + 1
  made   : ∀ l ∈ s.attempts, l < s.losses
  losses : ∀ q ∈ s.queue ++ inHand s.handler, q.loss < s.losses
  once   : ((s.queue ++ inHand s.handler).map (·.loss)).Nodup

namespace Counted

theorem keep (h : Counted s) (queue : s'.queue = s.queue)
    (hand : inHand s'.handler = inHand s.handler) (attempts : s'.attempts = s.attempts)
    (losses : s'.losses = s.losses) : Counted s' := by
  constructor
  case queued => simpa only [queue, attempts] using h.queued
  case hand => simpa only [hand, attempts] using h.hand
  case bound => simpa only [attempts] using h.bound
  case made => simpa only [attempts, losses] using h.made
  case losses => simpa only [queue, hand, losses] using h.losses
  case once => simpa only [queue, hand] using h.once

theorem track (h : Counted s) : Counted
    { s.insertAttempt { transport := t, attemptsLeft := maxAttempts, loss := s.losses } place with
      losses := s.losses + 1 } := by
  have perm : (s.queue.take place ++ ⟨t, maxAttempts, s.losses⟩ :: s.queue.drop place).Perm
    (⟨t, maxAttempts, s.losses⟩ :: s.queue) := insert_perm
  have new : s.losses ∉ s.attempts := fun hm => Nat.lt_irrefl _ (h.made _ hm)
  constructor
  case queued =>
    intro q hq
    rcases List.mem_cons.mp (perm.subset hq) with rfl | hq
    · dsimp only [insertAttempt]
      rw [List.count_eq_zero_of_not_mem new, Nat.zero_add]
    · exact h.queued q hq
  case hand => exact h.hand
  case bound => exact h.bound
  case made => exact fun l hl => Nat.lt_succ_of_lt (h.made l hl)
  case losses =>
    intro q hq
    rcases List.mem_cons.mp ((perm.append_right _).subset hq) with rfl | hq
    · exact Nat.lt_succ_self _
    · exact Nat.lt_succ_of_lt (h.losses q hq)
  case once =>
    refine ((perm.append_right _).map _).nodup_iff.mpr (List.nodup_cons.mpr ⟨?_, h.once⟩)
    intro hm
    obtain ⟨q, hq, he⟩ := List.mem_map.mp hm
    exact absurd (h.losses q hq) (he ▸ Nat.lt_irrefl _)

theorem giveUp {queue : List ReconnectAttempt} (h : Counted s) (hq : s.queue.Perm (q :: queue))
    (queued : s'.queue = queue) (hand : s'.handler = s.handler) (attempts : s'.attempts = s.attempts)
    (losses : s'.losses = s.losses) : Counted s' := by
  have sub : ∀ p ∈ queue, p ∈ s.queue := fun p hp => hq.symm.subset (.tail _ hp)
  constructor
  case queued =>
    rw [queued, attempts]
    exact fun p hp => h.queued p (sub p hp)
  case hand => simpa only [hand, attempts] using h.hand
  case bound => simpa only [attempts] using h.bound
  case made => simpa only [attempts, losses] using h.made
  case losses =>
    rw [queued, hand, losses]
    intro p hp
    refine h.losses p (List.mem_append.mpr ?_)
    exact (List.mem_append.mp hp).imp_left (sub p)
  case once =>
    rw [queued, hand]
    exact (List.nodup_cons.mp (((hq.append_right _).map _).nodup_iff.mp h.once)).2

theorem take {queue : List ReconnectAttempt} (h : Counted s) (hh : s.handler = some .scanned)
    (hq : s.queue = q :: queue) : Counted
      { s with handler := some (.attempt q), queue, attempts := s.attempts ++ [q.loss] } := by
  have once := h.once
  have losses := h.losses
  simp only [hh, hq, inHand, List.append_nil] at once losses
  obtain ⟨new, nodup⟩ := List.nodup_cons.mp once
  have mine := h.queued q (hq ▸ .head _)
  constructor
  case queued =>
    intro p hp
    have ne : q.loss ≠ p.loss := fun he => new (List.mem_map.mpr ⟨p, hp, he.symm⟩)
    dsimp only
    rw [List.count_append, List.count_singleton, if_neg (by simpa using ne)]
    exact h.queued p (hq ▸ .tail _ hp)
  case hand =>
    intro p hp
    cases List.mem_singleton.mp hp
    dsimp only
    rw [List.count_append, List.count_singleton_self]
    omega
  case bound =>
    intro l
    dsimp only
    rw [List.count_append, List.count_singleton]
    split
    case isTrue he =>
      cases beq_iff_eq.mp he
      omega
    case isFalse => exact h.bound l
  case made =>
    intro l hl
    rcases List.mem_append.mp hl with hl | hl
    · exact h.made l hl
    · rw [List.mem_singleton.mp hl]
      exact losses q (.head _)
  case losses =>
    intro p hp
    refine losses p ?_
    rcases List.mem_append.mp hp with hp | hp
    · exact .tail _ hp
    · cases List.mem_singleton.mp hp
      exact .head _
  case once =>
    rw [List.map_append]
    exact List.nodup_append_comm.mp once

theorem finish (h : Counted s) (hh : s.handler = some (.attempt q)) :
    Counted { s with handler := some .waiting } := by
  constructor
  case queued => exact h.queued
  case hand => exact nofun
  case bound => exact h.bound
  case made => exact h.made
  case losses =>
    intro p hp
    refine h.losses p (List.mem_append_left _ ?_)
    simpa [inHand] using hp
  case once =>
    have := h.once
    rw [hh, List.map_append] at this
    simpa [inHand] using (List.nodup_append.mp this).1

theorem again (h : Counted s) (hh : s.handler = some (.attempt q)) (left : q.attemptsLeft ≠ 0) :
    Counted ({ s with handler := some .waiting }.insertAttempt
      { q with attemptsLeft := q.attemptsLeft - 1 } place) := by
  have perm : (s.queue.take place ++ { q with attemptsLeft := q.attemptsLeft - 1 } ::
    s.queue.drop place).Perm ({ q with attemptsLeft := q.attemptsLeft - 1 } :: s.queue) := insert_perm
  have hand := h.hand q (by simp [hh, inHand])
  have losses := h.losses
  have once := h.once
  simp only [hh, inHand] at losses once
  constructor
  case queued =>
    intro p hp
    rcases List.mem_cons.mp (perm.subset hp) with rfl | hp
    · dsimp only [insertAttempt]
      omega
    · exact h.queued p hp
  case hand => rintro _ ⟨⟩
  case bound => exact h.bound
  case made => exact h.made
  case losses =>
    intro p hp
    simp only [insertAttempt, inHand, List.append_nil] at hp
    rcases List.mem_cons.mp (perm.subset hp) with rfl | hp
    · exact losses q (List.mem_append_right _ (.head _))
    · exact losses p (List.mem_append_left _ hp)
  case once =>
    simp only [insertAttempt, inHand, List.append_nil]
    refine (perm.map _).nodup_iff.mpr ?_
    rw [List.map_append] at once
    exact List.nodup_append_comm.mp once

end Counted

structure Checked (s : Registry) : Prop where
  spared     : ∀ q, s.checked = some q → ¬s.isKicked q.transport
  registered : ∀ r ∈ s.registered, r.2 = false

namespace Checked

theorem keep (h : Checked s) (checked : ∀ q, s'.checked = some q → s.checked = some q)
    (kicked : ∀ t, s'.isKicked t → s.isKicked t) (registered : s'.registered = s.registered) :
    Checked s' := by
  constructor
  case spared => exact fun q hq hk => h.spared q (checked q hq) (kicked _ hk)
  case registered => exact registered ▸ h.registered

theorem unchecked (h : Checked s) (none : s'.checked = none)
    (registered : s'.registered = s.registered) : Checked s' := by
  constructor
  case spared =>
    intro q hq
    cases none.symm.trans hq
  case registered => exact registered ▸ h.registered

theorem isKicked_addTransport {socket : Bool} (h : (s.addTransport t serial socket).isKicked u) :
    s.isKicked u := by
  simp only [isKicked, addTransport, Function.update_apply] at h
  split at h
  case isTrue => cases h
  case isFalse => exact h

theorem isKicked_unregister (h : (s.fdeventUnregisterTransport t).isKicked u) : s.isKicked u := by
  simp only [isKicked, fdeventUnregisterTransport, Function.update_apply] at h
  split at h
  case isTrue => cases h
  case isFalse => exact h

end Checked

theorem checked_of_unlocked (unlocked : ¬s.isLocked) (handler : s'.handler = s.handler) :
    s'.checked = s.checked := by
  rw [checked, checked, handler]
  rw [isLocked] at unlocked
  split at unlocked
  case h_1 => exact absurd rfl unlocked
  case h_2 => exact absurd rfl unlocked
  case h_3 scan scanned =>
    split
    case h_1 hh => exact absurd hh (scan _)
    case h_2 hh => exact absurd hh scanned
    case h_3 => rfl
    case h_4 => rfl

theorem paced_conclude (counted : Counted s) (check : Checked s)
    (hh : s.handler = some (.attempt q)) :
    Counted ({ s with handler := some .waiting }.conclude q place result) ∧
      Checked ({ s with handler := some .waiting }.conclude q place result) := by
  have finish := counted.finish hh
  cases result <;> rw [conclude]
  case retry =>
    split
    case isTrue => exact ⟨finish.keep rfl rfl rfl rfl, check.unchecked rfl rfl⟩
    case isFalse left => exact ⟨counted.again hh left, check.unchecked rfl rfl⟩
  case success =>
    refine ⟨finish.keep rfl rfl rfl rfl, by rintro _ ⟨⟩, fun r hr => ?_⟩
    rcases List.mem_append.mp hr with hr | hr
    · exact check.registered r hr
    · have spared : ¬s.isKicked q.transport := check.spared q (by rw [checked, hh])
      obtain ⟨x, hx, rfl⟩ := Option.map_eq_some_iff.mp (Option.mem_toList.mp hr)
      have hx : s.heap q.transport = some x := hx
      simpa [isKicked, hx] using spared
  case abort => exact ⟨finish.keep rfl rfl rfl rfl, check.unchecked rfl rfl⟩

theorem paced_next (counted : Counted s) (check : Checked s) (hp : s.sparesChecked a)
    (hs : s.next a = some s') : Counted s' ∧ Checked s' := by
  have same {s' : Registry} (queue : s'.queue = s.queue) (handler : s'.handler = s.handler)
      (attempts : s'.attempts = s.attempts) (losses : s'.losses = s.losses)
      (kicked : ∀ t, s'.isKicked t → s.isKicked t) (registered : s'.registered = s.registered) :
      Counted s' ∧ Checked s' := by
    refine ⟨counted.keep queue (by rw [handler]) attempts losses, check.keep (fun q => ?_) kicked
      registered⟩
    rw [checked, queue, handler]
    exact id
  cases next_moves hs
  case add => exact same rfl rfl rfl rfl (fun _ => Checked.isKicked_addTransport) rfl
  case delete => exact same rfl rfl rfl rfl (fun _ => Checked.isKicked_unregister) rfl
  case enlist =>
    rw [fdeventRegisterTransport]
    dsimp only
    split
    all_goals exact same rfl rfl rfl rfl (fun _ => id) rfl
  case flags | register | unlist | fail | forget | remove =>
    exact same rfl rfl rfl rfl (fun _ => id) rfl
  case kick t x hx =>
    refine ⟨counted.keep rfl rfl rfl rfl, fun q hq => ?_, check.registered⟩
    have hq : s.checked = some q := hq
    have ne : q.transport ≠ t := by simpa [sparesChecked, hq] using hp
    simpa only [isKicked, Function.update_apply, if_neg ne] using check.spared q hq
  case track tasks ht unlocked =>
    have kept : Counted { s with tasks } := counted.keep rfl rfl rfl rfl
    refine ⟨kept.track, check.keep (fun q hq => ?_) (fun _ => id) rfl⟩
    refine Eq.trans (Eq.symm ?_) hq
    exact checked_of_unlocked unlocked rfl
  case move hand unchecked => exact ⟨counted.keep rfl hand rfl rfl, check.unchecked unchecked rfl⟩
  case pass n point hh spared hp =>
    have hand : inHand (some point) = inHand s.handler := by
      rw [hh]
      rcases hp with rfl | rfl <;> rfl
    refine ⟨counted.keep rfl hand rfl rfl, fun p hq => ?_, check.registered⟩
    replace hq : s.queue.head? = some p := by rcases hp with rfl | rfl <;> exact hq
    cases n
    case zero => exact spared p (List.head?_eq_getElem?.symm.trans hq)
    case succ => exact check.spared p (by simpa only [checked, hh] using hq)
  case giveUp hq kept =>
    exact ⟨counted.giveUp hq rfl rfl rfl rfl, check.keep kept (fun _ => id) rfl⟩
  case take q queue hh hq =>
    refine ⟨counted.take hh hq, fun p hp => ?_, check.registered⟩
    cases hp
    exact check.spared q (by simp only [checked, hh, hq, List.head?_cons])
  case conclude hh => exact paced_conclude counted check hh

theorem paced_of_reachable (h : Reachable (fun s a => s.sparesChecked a) s) :
    Counted s ∧ Checked s := by
  refine h.invariant (I := fun s => Counted s ∧ Checked s)
    (fun _ _ _ hp hs h => paced_next h.1 h.2 hp hs) ⟨?_, ?_⟩
  · exact ⟨nofun, nofun, fun _ => Nat.zero_le _, nofun, nofun, List.nodup_nil⟩
  · exact ⟨nofun, nofun⟩

theorem reconnect_discipline (h : Reachable (fun s a => s.sparesChecked a) s) :
    (∀ r ∈ s.registered, r.2 = false) ∧ s.removed.Nodup ∧
      ∀ loss, s.attempts.count loss ≤ maxAttempts + 1 := by
  have ⟨counted, check⟩ := paced_of_reachable h
  exact ⟨check.registered, (Removed.of_reachable h).nodup, counted.bound⟩

section Samples

-- A transport is lost, and the handler has taken its first attempt.
def lostOnce : List Action :=
  [.registerSocketTransport 1 "a", .registerTransport 1, .loop 0, .start, .handleError 1, .loop 0,
    .handle true .retry 0, .handle true .retry 0, .handle true .retry 0, .handle true .retry 0]

-- It is reconnected, lost again and kicked before the handler looks at it.
theorem reconnect_discipline_sample : ∃ s : Registry,
    Reachable (fun s a => s.sparesChecked a) s ∧ s.registered = [(0, false)] ∧ s.removed = [0] ∧
      s.attempts = [0] ∧ s.removed.Nodup := by
  have ⟨s, reached, registered, removed, attempts⟩ : ∃ s : Registry,
      Reachable (fun s a => s.sparesChecked a) s ∧ s.registered = [(0, false)] ∧
        s.removed = [0] ∧ s.attempts = [0] :=
    Reach.exists_of_guarded (fun _ _ h => h) (lostOnce ++
      [.handle true .success 0, .loop 0, .handleError 1, .loop 0, .kick 1, .handle true .retry 0,
        .handle true .retry 0]) (by decide)
  exact ⟨s, reached, registered, removed, attempts, (reconnect_discipline reached).2.1⟩

-- It is kicked while the handler makes its attempt, which succeeds.
theorem kicked_transport_registered : ∃ s : Registry, Reachable (fun _ _ => True) s ∧
    (0, true) ∈ s.registered :=
  Reach.exists_of_exec (lostOnce ++ [.kick 1, .handle true .success 0]) (by decide)

theorem transports_held_once (h : Reachable P s) (t : Nat) :
    s.uses t ≤ 1 ∧ (s.heap t = none → s.uses t = 0) ∧ (t ∈ s.pendingList → s.Awaited t) := by
  have sound := Sound.of_reachable h
  refine ⟨sound.once t, fun deleted => ?_, sound.awaited t⟩
  by_contra used
  simpa [face, deleted] using sound.used t used

theorem transports_held_once_deleted : ∃ s : Registry, s.removed = [0] ∧ s.uses 1 = 0 := by
  have ⟨s, h, removed, deleted⟩ : ∃ s : Registry, Reachable (fun _ _ => True) s ∧
      s.removed = [0] ∧ s.heap 1 = none :=
    Reach.exists_of_exec (lostOnce ++ [.handle true .abort 0, .loop 0]) (by decide)
  exact ⟨s, removed, (transports_held_once h 1).2.1 deleted⟩

end Samples

end Attempts

end Registry
