import LibAdb.Library.Threads
import LibAdb.Machine.Client

-- Which calls hold the lock of an `Impl`, build it, destroy it or have it from its `Device`.

namespace Call

def holds (i : Nat) : Call → Bool
  | .close _ .lock _ => false
  | .close j _ _ => i == j
  | _ => false

-- `Client::connect` from the new `Impl` on until its `Device` is given out or its destructor begins.
def makes (i : Nat) : Call → Bool
  | .register j | .wait j | .remember j | .discard j | .close j _ .discard => i == j
  | _ => false

def buries (i : Nat) : Call → Bool
  | .close j _ .destroy | .destroyed j => i == j
  | _ => false

def starts (i : Nat) : Call → Bool
  | .register j | .wait j | .remember j => i == j
  | _ => false

def visits (i : Nat) : Call → Bool
  | .close j _ .finish | .close j _ .destroy | .destroyed j | .operate j => i == j
  | .close j _ (.next rest _) => i == j || rest.contains i
  | .closeEach rest _ => rest.contains i
  | _ => false

end Call

namespace Client

variable {c c' : Client} {call call' : Call}

def isLocked (c : Client) (i : Nat) : Bool :=
  (c.impls[i]?).any (·.locked)

def isIn (c : Client) (life : Life) (i : Nat) : Bool :=
  (c.impls[i]?).any (decide <| ·.life = life)

-- The `Impl` has been given to a `Device` or its destructor.
def isGiven (c : Client) (i : Nat) : Bool :=
  (c.impls[i]?).any (decide <| ·.life ≠ .building)

def isClosed (c : Client) (i : Nat) : Bool :=
  (c.impls[i]?).any (·.closed)

theorem Within.isLocked (h : c.Within c') : c'.isLocked i = c.isLocked i :=
  h.any fun _ => rfl

theorem Within.isIn (h : c.Within c') : c'.isIn life i = c.isIn life i :=
  h.any fun _ => rfl

theorem Within.isGiven (h : c.Within c') : c'.isGiven i = c.isGiven i :=
  h.any fun _ => rfl

theorem Within.isClosed (h : c.Within c') : c'.isClosed i = c.isClosed i :=
  h.any fun _ => rfl

theorem isIn_iff : c.isIn life i ↔ ∃ d, c.impls[i]? = some d ∧ d.life = life := by
  simp [isIn, Option.any_eq_true]

section

variable {f : DeviceImpl → DeviceImpl}

theorem isLocked_modifyImpl (h : ∀ d, (f d).locked = d.locked) :
    (c.modifyImpl j f).isLocked i = c.isLocked i :=
  any_modifyImpl h

theorem isClosed_modifyImpl (h : ∀ d, (f d).closed = d.closed) :
    (c.modifyImpl j f).isClosed i = c.isClosed i :=
  any_modifyImpl h

end

theorem isClosed_modifyLife : (c.modifyImpl j ({ · with life })).isClosed i = c.isClosed i :=
  isClosed_modifyImpl fun _ => rfl

theorem isIn_modifyImpl : (c.modifyImpl j ({ · with life })).isIn life' i =
    if j = i then (c.impls[i]?).isSome && decide (life = life') else c.isIn life' i := by
  simp only [isIn, impls_modifyImpl]
  split
  · cases c.impls[i]? <;> simp
  · rfl

theorem any_append {c : Client} {p : DeviceImpl → Bool} {i : Nat} :
    ((c.impls ++ [d])[i]?).any p = if i = c.impls.length then p d else (c.impls[i]?).any p := by
  rw [List.getElem?_append]
  split
  case isTrue h => rw [if_neg (Nat.ne_of_lt h)]
  case isFalse h =>
    rw [List.getElem?_eq_none (Nat.le_of_not_lt h), List.getElem?_singleton]
    by_cases hi : i = c.impls.length
    case pos => simp [hi]
    case neg =>
      have : i - c.impls.length ≠ 0 := by omega
      simp [hi, this]

theorem Steps.locks (h : Steps c call c' call') (j : Nat) (hh : call.holds j → c.isLocked j) :
    (c'.isLocked j).toNat + (call.holds j).toNat = (c.isLocked j).toNat + (call'.holds j).toNat := by
  cases h
  case check h => cases h <;> simp [Call.holds]
  case build =>
    simp only [isLocked, Call.holds, any_append]
    split
    case isTrue hj => simp [hj]
    case isFalse => rfl
  case device _ _ h | stopDevice _ _ h =>
    rw [h.within.isLocked]
    cases ‹Option DevicePoint› <;> rfl
  case lock i d after hd hl =>
    by_cases hj : i = j
    case pos =>
      subst hj
      simp [isLocked, Call.holds, impls_modifyImpl, hd, hl]
    case neg => simp [isLocked, Call.holds, impls_modifyImpl, hj, Ne.symm hj]
  case mark d _ _ _ => cases d.device <;> simp [isLocked, any_modifyImpl, Call.holds]
  case unlock i d after hd =>
    have ha : (afterClose i after).holds j = false := by cases after <;> rfl
    rw [ha]
    by_cases hj : i = j
    case pos =>
      subst hj
      have hl := hh (by simp [Call.holds])
      simp [isLocked, hd] at hl
      simp [isLocked, Call.holds, impls_modifyImpl, hd, hl]
    case neg => simp [isLocked, Call.holds, impls_modifyImpl, hj, Ne.symm hj]
  all_goals simp [isLocked, any_modifyImpl, Call.holds]

theorem Steps.stages (h : Steps c call c' call') (j : Nat)
    (hm : call.makes j → c.isIn .building j) (hb : call.buries j → c.isIn .dying j) :
    (c'.isIn .building j).toNat + (call.makes j).toNat =
      (c.isIn .building j).toNat + (call'.makes j).toNat ∧
    (c'.isIn .dying j).toNat + (call.buries j).toNat =
      (c.isIn .dying j).toNat + (call'.buries j).toNat := by
  cases h
  case check h => cases h <;> first | exact ⟨rfl, rfl⟩ | (cases ‹AfterClose› <;> exact ⟨rfl, rfl⟩)
  case build =>
    simp only [isIn, Call.makes, Call.buries, any_append]
    split
    case isTrue hj => simp [hj]
    case isFalse hj => simp [hj]
  case device _ _ h =>
    rw [h.within.isIn, h.within.isIn]
    cases ‹Option DevicePoint› <;> cases ‹AfterClose› <;> exact ⟨rfl, rfl⟩
  case stopDevice _ _ h =>
    rw [h.within.isIn, h.within.isIn]
    cases ‹Option DevicePoint› <;> exact ⟨rfl, rfl⟩
  case remember i | discard i =>
    by_cases hj : i = j
    case pos =>
      subst hj
      obtain ⟨d, hd, hl⟩ := isIn_iff.mp (hm (by simp [Call.makes]))
      simp [isIn, Call.makes, Call.buries, impls_modifyImpl, hd, hl]
    case neg => simp [isIn, Call.makes, Call.buries, impls_modifyImpl, hj, Ne.symm hj]
  case destroyed i =>
    by_cases hj : i = j
    case pos =>
      subst hj
      obtain ⟨d, hd, hl⟩ := isIn_iff.mp (hb (by simp [Call.buries]))
      simp [isIn, Call.makes, Call.buries, impls_modifyImpl, hd, hl]
    case neg => simp [isIn, Call.makes, Call.buries, impls_modifyImpl, hj, Ne.symm hj]
  case lock after _ _ | mark after _ _ | release after _ _ | unlock after _ | unregister after _ _ |
      free after _ =>
    cases after <;> simp [isIn, any_modifyImpl, Call.makes, Call.buries, afterClose]
  all_goals simp [isIn, any_modifyImpl, Call.makes, Call.buries]

theorem isGiven_of_isIn (h : c.isIn life i) (hl : life ≠ .building) : c.isGiven i := by
  have ⟨d, hd, hi⟩ := isIn_iff.mp h
  simp [isGiven, hd, hi, hl]

theorem not_isIn_building (h : c.isGiven i) : c.isIn .building i = false := by
  rw [Bool.eq_false_iff, Ne, isIn_iff]
  intro ⟨d, hd, hi⟩
  simp [isGiven, hd, hi] at h

theorem isAlive_iff : c.isAlive i ↔ ∃ d, c.impls[i]? = some d ∧ d.life = .alive := by
  simp [isAlive, Option.any_eq_true]

theorem isAlive_iff_isIn : c.isAlive i ↔ c.isIn .alive i :=
  isAlive_iff.trans isIn_iff.symm

theorem isGiven_of_isAlive (h : c.isAlive i) : c.isGiven i :=
  isGiven_of_isIn (isAlive_iff_isIn.mp h) (by decide)

theorem isGiven_modifyImpl (hg : c.isGiven j) (hl : life ≠ .building) :
    (c.modifyImpl i ({ · with life })).isGiven j := by
  simp only [isGiven, impls_modifyImpl] at hg ⊢
  split
  · cases hd : c.impls[j]? <;> simp_all
  · exact hg

theorem Steps.isGiven (h : Steps c call c' call') (hg : c.isGiven j) : c'.isGiven j := by
  cases h
  case build =>
    simp only [Client.isGiven, any_append]
    split
    case isTrue hj => simp [Client.isGiven, hj] at hg
    case isFalse => exact hg
  case device _ _ h | stopDevice _ _ h => rwa [h.within.isGiven]
  case remember | discard | destroyed => exact isGiven_modifyImpl hg (by decide)
  all_goals simpa [Client.isGiven, any_modifyImpl] using hg

theorem Steps.visits (h : Steps c call c' call') (hv : call.visits j → c.isGiven j)
    (hb : call.makes j → c.isIn .building j) (hj : call'.visits j) : c'.isGiven j := by
  have keep (hc : call.visits j) : c'.isGiven j := h.isGiven (hv hc)
  cases h
  case check h =>
    cases h
    case marked after _ _ | released after _ _ => cases after <;> exact keep hj
    case nextDevice => exact keep (by simpa [Call.visits] using hj)
    all_goals cases hj
  case snapshot =>
    simp only [Call.visits, List.contains_iff_mem, List.mem_filter] at hj
    exact isGiven_of_isAlive (c := c) hj.right
  case discard i =>
    obtain rfl : j = i := by simpa [Call.visits] using hj
    obtain ⟨d, hd, -⟩ := isIn_iff.mp (hb (by simp [Call.makes]))
    simp [Client.isGiven, impls_modifyImpl, hd]
  case unlock after _ =>
    cases after
    case finish | discard => cases hj
    case destroy => exact keep hj
    case next => exact keep ((Bool.or_eq_true ..).mpr (.inr hj))
  case device => cases ‹Option DevicePoint› <;> cases ‹AfterClose› <;> exact keep hj
  case stopDevice => cases ‹Option DevicePoint› <;> cases hj
  case lock after _ _ | mark after _ _ | unregister after _ _ | release after _ _ | free after _ =>
    cases after <;> exact keep hj
  all_goals cases hj

theorem Steps.isClosed (h : Steps c call c' call') (hj : c'.isClosed j) :
    c.isClosed j ∨ call.makes j ∨ call.visits j := by
  have other {i : Nat} (hi : i ≠ j) (h : (c.modifyImpl i ({ · with closed := true })).isClosed j) :
      c.isClosed j := by
    simpa [Client.isClosed, impls_modifyImpl, hi] using h
  cases h
  case build =>
    simp only [Client.isClosed, any_append] at hj
    split at hj
    case isTrue => cases hj
    case isFalse => exact .inl hj
  case device _ _ h | stopDevice _ _ h => exact .inl (by rwa [← h.within.isClosed])
  case busy i d _ _ =>
    by_cases hi : i = j
    case pos => simp [hi, Call.makes]
    case neg => exact .inl (other hi hj)
  case mark i d after _ _ =>
    by_cases hi : i = j
    case pos => cases after <;> simp [hi, Call.makes, Call.visits]
    case neg => exact .inl (other hi hj)
  all_goals exact .inl (by simpa [Client.isClosed, any_modifyImpl] using hj)

theorem Steps.starts (h : Steps c call c' call') (hs : call.starts j → c.isClosed j = false)
    (hj : call'.starts j) : c'.isClosed j = false := by
  cases h
  case check h => cases h <;> first | cases hj | exact hs hj
  case build =>
    simp only [Call.starts, beq_iff_eq] at hj
    simp [Client.isClosed, hj]
  case register => simpa [Client.isClosed, any_modifyImpl] using hs hj
  case device => cases ‹Option DevicePoint› <;> cases hj
  case stopDevice => cases ‹Option DevicePoint› <;> cases hj
  case unlock after _ => cases after <;> cases hj
  all_goals cases hj

end Client

namespace Application

variable {s s' : Application} {P : Call → Bool} {q : Client → Bool} {k m n : Nat}

-- Exactly one call stands for what `q` says of the client.
def Stands (P : Call → Bool) (q : Client → Bool) (s : Application) : Prop :=
  s.calls.countP P = (q s.client).toNat

namespace Stands

theorem of_mem (h : Stands P q s) (hc : call ∈ s.calls) (hp : P call) : q s.client := by
  have : 0 < s.calls.countP P := List.countP_pos_iff.mpr ⟨call, hc, hp⟩
  rw [h] at this
  cases hq : q s.client
  case true => rfl
  case false => simp [hq] at this

theorem exists_of (h : Stands P q s) (hq : q s.client) : ∃ call ∈ s.calls, P call := by
  have : 0 < s.calls.countP P := by
    rw [h, hq]
    exact Nat.one_pos
  exact List.countP_pos_iff.mp this

theorem unique (h : Stands P q s) (hm : s.calls[m]? = some call) (hp : P call)
    (hn : s.calls[n]? = some call') (hp' : P call') : m = n :=
  List.eq_of_countP_le_one (h ▸ Bool.toNat_le _) hm hp hn hp'

theorem resume (h : Stands P q s) (hk : s.calls[k]? = some call)
    (step : (P call → q s.client) →
      (q c').toNat + (P call).toNat = (q s.client).toNat + (P call').toNat) :
    Stands P q { client := c', calls := s.calls.set k call' } := by
  have moved := List.countP_set_add (p := P) (b := call') hk
  have := step (h.of_mem (List.mem_of_getElem? hk))
  simp only [Stands] at h ⊢
  omega

theorem enter (h : Stands P q s)
    (step : (q c').toNat = (q s.client).toNat + (P call).toNat) :
    Stands P q { client := c', calls := s.calls ++ [call] } := by
  simp only [Stands, List.countP_append, List.countP_singleton] at h ⊢
  cases hp : P call <;> simp_all

theorem of_eq (h : Stands P q s) (hq : q c' = q s.client) : Stands P q { s with client := c' } := by
  simpa only [Stands, hq] using h

end Stands

structure Ordered (s : Application) : Prop where
  locks  : Stands (·.holds i) (·.isLocked i) s
  makes  : Stands (·.makes i) (·.isIn .building i) s
  buries : Stands (·.buries i) (·.isIn .dying i) s
  given  : ∀ call ∈ s.calls, call.visits i → s.client.isGiven i
  fresh  : ∀ call ∈ s.calls, call.starts i → s.client.isClosed i = false

theorem makes_of_starts (h : Call.starts i call) : call.makes i := by
  cases call <;> first | exact h | cases h

theorem Ordered.resume (h : Ordered s) (hk : s.calls[k]? = some call)
    (hs : s.client.Steps call c' call') :
    Ordered { client := c', calls := s.calls.set k call' } where
  locks  := h.locks.resume hk (hs.locks _)
  makes  :=
    h.makes.resume hk fun hm => (hs.stages _ hm (h.buries.of_mem (List.mem_of_getElem? hk))).left
  buries :=
    h.buries.resume hk fun hb => (hs.stages _ (h.makes.of_mem (List.mem_of_getElem? hk)) hb).right
  given {i} call hc hv := by
    have hcall := List.mem_of_getElem? hk
    refine (List.mem_or_eq_of_mem_set hc).elim (fun hc => hs.isGiven (h.given call hc hv)) ?_
    rintro rfl
    exact hs.visits (h.given _ hcall) (h.makes.of_mem hcall) hv
  fresh {i} call hc hstart := by
    have hcall := List.mem_of_getElem? hk
    rcases List.mem_set_cases hc with rfl | ⟨n, hn, hx⟩
    case inl => exact hs.starts (h.fresh _ hcall) hstart
    case inr =>
      have hx' := List.mem_of_getElem? hx
      rw [Bool.eq_false_iff]
      intro hc
      rcases hs.isClosed hc with hc | hm | hv
      · simp [h.fresh _ hx' hstart] at hc
      · exact hn (h.makes.unique hx (makes_of_starts hstart) hk hm)
      · have building := h.makes.of_mem hx' (makes_of_starts hstart)
        simp [Client.not_isIn_building (h.given _ hcall hv)] at building

theorem Ordered.within (h : Ordered s) (hw : s.client.Within c') : Ordered { s with client := c' } where
  locks  := h.locks.of_eq hw.isLocked
  makes  := h.makes.of_eq hw.isIn
  buries := h.buries.of_eq hw.isIn
  given call hc hv := hw.isGiven.trans (h.given call hc hv)
  fresh call hc hs := hw.isClosed.trans (h.fresh call hc hs)

theorem Ordered.configure (h : Ordered s) (hi : c'.impls = s.client.impls) :
    Ordered { s with client := c' } where
  locks  := h.locks.of_eq (by simp only [Client.isLocked, hi])
  makes  := h.makes.of_eq (by simp only [Client.isIn, hi])
  buries := h.buries.of_eq (by simp only [Client.isIn, hi])
  given call hc hv := by simpa only [Client.isGiven, hi] using h.given call hc hv
  fresh call hc hs := by simpa only [Client.isClosed, hi] using h.fresh call hc hs

theorem Ordered.enter (h : Ordered s) (he : s.Enters a call) : Ordered (s.enter call) where
  locks  := h.locks.enter (by cases he <;> rfl)
  makes  := h.makes.enter (by cases he <;> rfl)
  buries := h.buries.enter (by cases he <;> rfl)
  given {i} := by
    refine List.forall_mem_append.mpr ⟨h.given, List.forall_mem_singleton.mpr fun hv => ?_⟩
    cases he
    case close ha | operate ha =>
      obtain rfl := beq_iff_eq.mp hv
      exact Client.isGiven_of_isAlive ha
    all_goals cases hv
  fresh := by
    refine List.forall_mem_append.mpr ⟨h.fresh, List.forall_mem_singleton.mpr fun hs => ?_⟩
    cases he <;> cases hs

theorem Ordered.drop (h : Ordered s) (ha : s.client.isAlive i) :
    Ordered
      { client := s.client.modifyImpl i ({ · with life := .dying })
        calls  := s.calls ++ [.close i .lock .destroy] } where
  locks  := h.locks.enter (by simp [Client.isLocked, Client.any_modifyImpl, Call.holds])
  makes {j} := by
    refine h.makes.enter ?_
    have ⟨d, hd, hl⟩ := Client.isAlive_iff.mp ha
    by_cases hj : i = j
    case pos =>
      subst hj
      simp [Client.isIn, Client.impls_modifyImpl, Call.makes, hd, hl]
    case neg => simp [Client.isIn, Client.impls_modifyImpl, Call.makes, hj]
  buries {j} := by
    refine h.buries.enter ?_
    have ⟨d, hd, hl⟩ := Client.isAlive_iff.mp ha
    by_cases hj : i = j
    case pos =>
      subst hj
      simp [Client.isIn, Client.impls_modifyImpl, Call.buries, hd, hl]
    case neg => simp [Client.isIn, Client.impls_modifyImpl, Call.buries, hj, Ne.symm hj]
  given {j} := by
    refine List.forall_mem_append.mpr ⟨fun call hc hv => ?_, List.forall_mem_singleton.mpr fun hv => ?_⟩
    · exact Client.isGiven_modifyImpl (h.given call hc hv) (by decide)
    · obtain rfl := beq_iff_eq.mp hv
      exact Client.isGiven_modifyImpl (Client.isGiven_of_isAlive ha) (by decide)
  fresh := by
    refine List.forall_mem_append.mpr ⟨fun call hc hs => ?_, List.forall_mem_singleton.mpr nofun⟩
    simpa [Client.isClosed, Client.any_modifyImpl] using h.fresh call hc hs

theorem Ordered.next (h : Ordered s) (hn : s.next a = some s') : Ordered s' := by
  cases next_moves hn
  case configure | setMaxConnections => exact h.configure rfl
  case enter he => exact h.enter he
  case drop ha _ => exact h.drop ha
  case resume hk hs => exact h.resume hk hs
  case thread hs => exact h.within hs.within
  case loop hl => exact h.configure (by cases hl <;> rfl)

theorem Ordered.empty : Ordered {} := by
  constructor <;> intros <;> first | rfl | contradiction

theorem Reachable.ordered (h : Reachable C s) : Ordered s :=
  Reach.invariant (fun _ _ _ _ hn h => h.next hn) h .empty

end Application
