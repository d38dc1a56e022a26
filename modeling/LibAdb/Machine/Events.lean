import LibAdb.Execution.Events
import LibAdb.Library.BoundedQueue
import Mathlib.Data.List.Range

namespace EventBus

open List

inductive Steps (b : EventBus) : BusStep → EventBus → List BusStep → Prop
  | ignored : Steps b (.publish e) b []
  | wanted : Steps b (.publish e) b [.enqueue e]
  | enqueue : Steps b (.enqueue e) (b.enqueue e) []
  | started : b.running → Steps b .start b []
  | start : b.running = false → Steps b .start b.start []
  | stop :
    b.running → Steps b .stop { b with running := false, dispatcher := none }
      (b.dispatcher.toList.map .join)
  | stopped : b.running = false → Steps b .stop b []
  | join : b.dispatchers[d]? = some [] → Steps b (.join d) b []
  | subscribe :
    Steps b (.subscribe mask primary) (b.subscribe mask)
      (.start :: if primary then [.setPrimary b.nextId] else [])
  | unsubscribe : Steps b (.unsubscribe i) (b.unsubscribe i) []
  | replacePrimary :
    Steps b (.replacePrimary handler) b
      ((if b.primaryId = 0 then [] else [.unsubscribe b.primaryId]) ++
        handler.toList.map (.subscribe · true))
  | setPrimary : Steps b (.setPrimary i) { b with primaryId := i } []
  | setQueueLimit : Steps b (.setQueueLimit limit) { b with queueLimit := limit } []
  | drain : Steps b .drain b []
  | initialise : Steps b (.initialise loaded) { b with initialized := b.initialized || loaded } []
  | shutdown :
    b.initialized → Steps b .shutdown { b with initialized := false } [
      .publish { type := .clientShutdown, message := ascii "client shutdown" }, .drain, .stop]
  | down : b.initialized = false → Steps b .shutdown b []
  | take : b.queue = p :: rest → Steps b .wait (b.take p rest).1 (b.take p rest).2
  | leave : b.queue = [] → b.running = false → Steps b .wait b []
  | handle :
    Steps b (.handle p s) { b with delivered := b.delivered ++ [(s.id, p.number)] } [.handling p s]
  | returns : Steps b (.handling p s) b []
  | throws : Steps b (.handling p s) b [.publish (handlerThrew p.event what)]
  | finish : Steps b .finish { b with dispatching := false } [.wait]

inductive Acts (b : EventBus) : Action → EventBus → Prop
  | call : Acts b (.call call) { b with calls := b.calls ++ [steps call] }
  | nest :
    b.dispatchers[d]? = some program → inHandler program →
    Acts b (.nest d call) { b with dispatchers := b.dispatchers.set d (steps call ++ program) }
  | resume :
    b.calls[k]? = some (s :: rest) → Steps b s b' new →
    Acts b (.resume k) { b' with calls := b'.calls.set k (new ++ rest) }
  | dispatch :
    b.dispatchers[d]? = some (s :: rest) → Steps b s b' new →
    Acts b (.dispatch d outcome) { b' with dispatchers := b'.dispatchers.set d (new ++ rest) }

def pushed (b : EventBus) (e : Event) : List Posted × Option Posted :=
  BoundedQueue.push (·.droppable) b.queueLimit b.queue ⟨b.accepted.length, e⟩

structure SameEvents (b b' : EventBus) : Prop where
  queue      : b'.queue = b.queue
  accepted   : b'.accepted = b.accepted
  dispatched : b'.dispatched = b.dispatched
  dropped    : b'.dropped = b.dropped
  total      : b'.droppedTotal = b.droppedTotal

structure Accepts (b : EventBus) (e : Event) (b' : EventBus) : Prop where
  queue      : b'.queue = (b.pushed e).1
  accepted   : b'.accepted = b.accepted ++ [e]
  dispatched : b'.dispatched = b.dispatched
  dropped    : b'.dropped = b.dropped ++ (b.pushed e).2.toList
  total      : b'.droppedTotal = b.droppedTotal + (b.pushed e).2.toList.length

structure Takes (b : EventBus) (p : Posted) (b' : EventBus) : Prop where
  queue      : b.queue = p :: b'.queue
  accepted   : b'.accepted = b.accepted
  dispatched : b'.dispatched = b.dispatched ++ [p]
  dropped    : b'.dropped = b.dropped
  total      : b'.droppedTotal = b.droppedTotal

inductive Moves (b : EventBus) : Option BusStep → EventBus → Prop
  | same : (∀ e, s ≠ some (.enqueue e)) → SameEvents b b' → Moves b s b'
  | accepts : Accepts b e b' → Moves b (some (.enqueue e)) b'
  | takes : Takes b p b' → Moves b (some .wait) b'

def program (b : EventBus) : Action → List BusStep
  | .resume k     => b.calls[k]?.getD []
  | .dispatch d _ => b.dispatchers[d]?.getD []
  | _             => []

def entries (b : EventBus) : List Posted :=
  b.dispatched ++ b.queue ++ b.dropped

-- Every accepted event has one place, and those that are not dropped keep their order.
structure Conserved (b : EventBus) : Prop where
  posted  : ∀ p ∈ b.entries, b.accepted[p.number]? = some p.event
  places  : b.entries.map (·.number) ~ List.range b.accepted.length
  ordered : (b.dispatched ++ b.queue).Pairwise (·.number < ·.number)
  total   : b.droppedTotal = b.dropped.length

variable {b b₁ b' : EventBus} {e : Event} {p : Posted} {queue : List Posted} {a : Action}
  {s : BusStep} {new program program' : List BusStep} {outcome : Outcome}
  {first : Option BusStep}

theorem enqueue_eq (b : EventBus) (e : Event) :
    b.enqueue e =
      { b with
        accepted := b.accepted ++ [e]
        queue := (b.pushed e).1
        dropped := b.dropped ++ (b.pushed e).2.toList
        droppedTotal := b.droppedTotal + (b.pushed e).2.toList.length
        droppedPending := b.droppedPending + (b.pushed e).2.toList.length } := by
  by_cases room : b.queueLimit = 0 ∨ b.queue.length < b.queueLimit
  case pos =>
    have hl : ¬(b.queueLimit > 0 && b.queue.length ≥ b.queueLimit) := by
      simp only [Bool.and_eq_true, decide_eq_true_eq]
      omega
    simp only [enqueue, pushed, BoundedQueue.push, if_pos room, if_neg hl, Option.toList_none,
      List.append_nil, List.length_nil, Nat.add_zero]
  case neg =>
    have hl : b.queueLimit > 0 && b.queue.length ≥ b.queueLimit := by
      simp only [Bool.and_eq_true, decide_eq_true_eq]
      omega
    cases hf : b.queue.find? (·.droppable)
    case some victim =>
      simp only [enqueue, pushed, BoundedQueue.push, if_neg room, if_pos hl, hf]
      rfl
    case none =>
      cases hq : b.queue
      case nil =>
        rw [hq, List.length_nil] at room
        omega
      case cons oldest rest =>
        rw [hq] at hf room hl
        by_cases hd : Posted.droppable ⟨b.accepted.length, e⟩
        all_goals
          simp only [enqueue, pushed, BoundedQueue.push, hq, if_neg room, if_pos hl, hf, hd,
            if_true, Bool.false_eq_true, if_false]
          rfl

theorem enqueue_accepts (b : EventBus) (e : Event) : b.Accepts e (b.enqueue e) := by
  rw [enqueue_eq]
  constructor <;> rfl

theorem step_steps (h : b.step outcome s = some (b', new)) : Steps b s b' new := by
  cases s <;> simp only [step] at h
  case publish e =>
    cases h
    split
    case isTrue => exact .wanted
    case isFalse => exact .ignored
  case start =>
    cases h
    cases hr : b.running
    case true =>
      have same : b.start = b := if_pos hr
      rw [same]
      exact .started hr
    case false => exact .start hr
  case stop =>
    split at h <;> cases h
    case isTrue hr => exact .stop hr
    case isFalse hr => exact .stopped (Bool.eq_false_iff.mpr hr)
  case join d =>
    split at h <;> cases h
    case isTrue hd => exact .join hd
  case drain =>
    split at h <;> cases h
    case isTrue => exact .drain
  case shutdown =>
    split at h <;> cases h
    case isTrue hi => exact .shutdown hi
    case isFalse hi => exact .down (Bool.eq_false_iff.mpr hi)
  case wait =>
    split at h
    case h_1 p queue hq =>
      cases h
      exact .take hq
    case h_2 hq =>
      split at h <;> cases h
      case isFalse hr => exact .leave hq (Bool.eq_false_iff.mpr hr)
  case handling p s =>
    cases outcome <;> cases h
    case returns => exact .returns
    case throws what => exact .throws
  all_goals
    cases h
    constructor

theorem advance_steps (h : b.advance outcome program = some (b', program')) :
    ∃ s rest new, program = s :: rest ∧ program' = new ++ rest ∧ Steps b s b' new := by
  cases program
  case nil => cases h
  case cons s rest =>
    obtain ⟨⟨b', new⟩, hs, he⟩ := Option.map_eq_some_iff.mp h
    cases he
    exact ⟨s, rest, new, rfl, rfl, step_steps hs⟩

theorem next_acts (h : b.next a = some b') : Acts b a b' := by
  cases a <;> simp only [next, Option.bind_eq_some_iff, Option.map_eq_some_iff] at h
  case call =>
    cases h
    exact .call
  case nest d call =>
    obtain ⟨program, hd, h⟩ := h
    split at h <;> cases h
    case isTrue hi => exact .nest hd hi
  case resume k =>
    obtain ⟨program, hk, ⟨b₁, program'⟩, ha, rfl⟩ := h
    obtain ⟨s, rest, new, rfl, rfl, hs⟩ := advance_steps ha
    exact .resume hk hs
  case dispatch d outcome =>
    obtain ⟨program, hd, ⟨b₁, program'⟩, ha, rfl⟩ := h
    obtain ⟨s, rest, new, rfl, rfl, hs⟩ := advance_steps ha
    exact .dispatch hd hs

theorem SameEvents.refl (b : EventBus) : SameEvents b b where
  queue      := rfl
  accepted   := rfl
  dispatched := rfl
  dropped    := rfl
  total      := rfl

theorem unsubscribe_same (b : EventBus) (i : Nat) : b.SameEvents (b.unsubscribe i) := by
  unfold unsubscribe
  split
  case isTrue => constructor <;> rfl
  case isFalse => exact .refl b

theorem start_same (b : EventBus) : b.SameEvents b.start := by
  unfold start
  split
  case isTrue => exact .refl b
  case isFalse => constructor <;> rfl

theorem Steps.moves (h : Steps b s b' new) : Moves b (some s) b' := by
  cases h
  case enqueue e => exact .accepts (enqueue_accepts b e)
  case take p queue hq =>
    refine .takes (p := p) ⟨?_, rfl, rfl, rfl, rfl⟩
    exact hq
  case start => exact .same (by rintro e ⟨⟩) (start_same b)
  case unsubscribe => exact .same (by rintro e ⟨⟩) (unsubscribe_same b _)
  all_goals exact .same (by rintro e ⟨⟩) ⟨rfl, rfl, rfl, rfl, rfl⟩

theorem Moves.trans (h : Moves b first b₁) (hs : SameEvents b₁ b') : Moves b first b' := by
  cases h
  case same hf h =>
    exact .same hf ⟨hs.queue.trans h.queue, hs.accepted.trans h.accepted,
      hs.dispatched.trans h.dispatched, hs.dropped.trans h.dropped, hs.total.trans h.total⟩
  case accepts h =>
    exact .accepts ⟨hs.queue.trans h.queue, hs.accepted.trans h.accepted,
      hs.dispatched.trans h.dispatched, hs.dropped.trans h.dropped, hs.total.trans h.total⟩
  case takes h =>
    exact .takes ⟨hs.queue ▸ h.queue, hs.accepted.trans h.accepted,
      hs.dispatched.trans h.dispatched, hs.dropped.trans h.dropped, hs.total.trans h.total⟩

theorem Acts.moves (h : Acts b a b') : Moves b (b.program a).head? b' := by
  cases h
  case call => exact .same (by rintro e ⟨⟩) ⟨rfl, rfl, rfl, rfl, rfl⟩
  case nest => exact .same (by rintro e ⟨⟩) ⟨rfl, rfl, rfl, rfl, rfl⟩
  case resume hk hs =>
    rw [program, hk]
    exact hs.moves.trans ⟨rfl, rfl, rfl, rfl, rfl⟩
  case dispatch hd hs =>
    rw [program, hd]
    exact hs.moves.trans ⟨rfl, rfl, rfl, rfl, rfl⟩

theorem Accepts.entries (h : Accepts b e b') :
    b'.entries ~ b.entries ++ [⟨b.accepted.length, e⟩] := by
  have split := BoundedQueue.push_perm (·.droppable) b.queueLimit b.queue ⟨b.accepted.length, e⟩
  rw [EventBus.entries, h.dispatched, h.queue, h.dropped]
  calc b.dispatched ++ (b.pushed e).1 ++ (b.dropped ++ (b.pushed e).2.toList)
    _ ~ b.dispatched ++ ((b.pushed e).1 ++ (b.pushed e).2.toList ++ b.dropped) := by
      rw [List.append_assoc, List.append_assoc]
      exact (List.perm_append_comm.append_left _).append_left _
    _ ~ b.dispatched ++ (b.queue ++ [⟨b.accepted.length, e⟩] ++ b.dropped) :=
      (split.append_right _).append_left _
    _ ~ b.dispatched ++ b.queue ++ b.dropped ++ [⟨b.accepted.length, e⟩] := by
      simp only [List.append_assoc]
      exact (List.perm_append_comm.append_left _).append_left _

theorem Takes.entries (h : Takes b p b') : b'.entries = b.entries := by
  rw [EventBus.entries, EventBus.entries, h.dispatched, h.dropped, h.queue,
    List.append_assoc b.dispatched]
  rfl

namespace Conserved

theorem number_lt (h : Conserved b) (hp : p ∈ b.entries) : p.number < b.accepted.length :=
  (List.getElem?_eq_some_iff.mp (h.posted p hp)).choose

theorem accept (h : Conserved b) (ha : Accepts b e b') : Conserved b' where
  posted p hp := by
    rw [ha.accepted]
    rcases List.mem_append.mp (ha.entries.mem_iff.mp hp) with hp | hp
    case inl =>
      rw [List.getElem?_append_left (h.number_lt hp)]
      exact h.posted p hp
    case inr =>
      rw [List.mem_singleton.mp hp]
      exact List.getElem?_concat_length
  places := by
    rw [ha.accepted, List.length_append, List.length_singleton, List.range_succ]
    have added := ha.entries.map (·.number)
    rw [List.map_append] at added
    exact added.trans (h.places.append_right _)
  ordered := by
    rw [ha.dispatched, ha.queue]
    apply List.Pairwise.sublist (BoundedQueue.push_sublist.append_left b.dispatched)
    rw [← List.append_assoc]
    refine List.pairwise_append.mpr ⟨h.ordered, List.pairwise_singleton .., fun p hp q hq => ?_⟩
    rw [List.mem_singleton.mp hq]
    exact h.number_lt (List.mem_append_left _ hp)
  total := by
    rw [ha.total, ha.dropped, List.length_append, h.total]

theorem take (h : Conserved b) (ht : Takes b p b') : Conserved b' where
  posted := by
    rw [ht.entries, ht.accepted]
    exact h.posted
  places := by
    rw [ht.entries, ht.accepted]
    exact h.places
  ordered := by
    have ordered := h.ordered
    rw [ht.queue] at ordered
    rw [ht.dispatched, List.append_assoc]
    exact ordered
  total := by
    rw [ht.total, ht.dropped]
    exact h.total

theorem congr (h : Conserved b) (hs : SameEvents b b') : Conserved b' := by
  have entries : b'.entries = b.entries := by
    rw [EventBus.entries, hs.dispatched, hs.queue, hs.dropped]
    rfl
  constructor
  case posted =>
    rw [entries, hs.accepted]
    exact h.posted
  case places =>
    rw [entries, hs.accepted]
    exact h.places
  case ordered =>
    rw [hs.dispatched, hs.queue]
    exact h.ordered
  case total =>
    rw [hs.total, hs.dropped]
    exact h.total

theorem moves (h : Conserved b) (hm : Moves b first b') : Conserved b' := by
  cases hm
  case same _ hs => exact h.congr hs
  case accepts ha => exact h.accept ha
  case takes ht => exact h.take ht

theorem initial (limit : Nat) : Conserved { queueLimit := limit } where
  posted _ hp := nomatch hp
  places := .refl _
  ordered := .nil
  total := rfl

end Conserved

end EventBus
