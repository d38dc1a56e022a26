import LibAdb.Machine.Calls

namespace Call

-- A slot is taken for an `Impl` that is not built yet, or is about to be given back.
def builds : Call → Bool
  | .build _ => true
  | _ => false

def frees (i : Nat) : Call → Bool
  | .close j .free _ => i == j
  | _ => false

def settled (i : Nat) : Call → Bool
  | .close j .unlock _ | .destroyed j => i == j
  | _ => false

end Call

namespace Client

variable {c c' : Client} {call call' : Call}

def owes (c : Client) (i : Nat) : Bool :=
  (c.impls[i]?).any (·.releaseSlot)

theorem Within.owes (h : c.Within c') : c'.owes i = c.owes i :=
  h.any fun _ => rfl

section

variable {o : Option DevicePoint}

@[simp]
theorem builds_closedTo : (closedTo i after o).builds = false := by
  cases o <;> rfl

@[simp]
theorem frees_closedTo : (closedTo i after o).frees j = false := by
  cases o <;> rfl

@[simp]
theorem builds_stoppedTo : (stoppedTo i rest o).builds = false := by
  cases o <;> rfl

@[simp]
theorem frees_stoppedTo : (stoppedTo i rest o).frees j = false := by
  cases o <;> rfl

@[simp]
theorem builds_afterClose : (afterClose i after).builds = false := by
  cases after <;> rfl

@[simp]
theorem frees_afterClose : (afterClose i after).frees j = false := by
  cases after <;> rfl

end

theorem Within.slots (h : c.Within c') : c'.slots = c.slots ∧ c'.freed = c.freed := by
  rw [h.frame]
  exact ⟨rfl, rfl⟩

theorem Steps.total (h : Steps c call c' call') (hf : ∀ i, call.frees i → 0 < c.slots.active) :
    c'.slots.active + c'.freed.length + (c.impls.length + call.builds.toNat) =
      c.slots.active + c.freed.length + (c'.impls.length + call'.builds.toNat) := by
  have nothing (call : Call) (h : ∀ address, call ≠ .build address) : call.builds = false := by
    cases call <;> simp_all [Call.builds]
  cases h
  case check h => cases h <;> simp [Call.builds]
  case acquire =>
    simp only [SlotPool.acquire, Call.builds, Bool.toNat_true, Bool.toNat_false]
    omega
  case device _ _ h | stopDevice _ _ h =>
    have ⟨slots, freed⟩ := h.within.slots
    rw [slots, freed, h.within.length]
    simp [nothing]
  case free i d after hd =>
    have := hf i (by simp [Call.frees])
    simp only [SlotPool.release, this, if_true, List.length_append, List.length_singleton,
      Call.builds, Bool.toNat_false]
    omega
  case unlock => simp [modifyImpl, nothing]
  all_goals simp [modifyImpl, Call.builds]

theorem isSome_of_length {l l' : List DeviceImpl} {j : Nat} (h : l'.length = l.length) :
    (l'[j]?).isSome = (l[j]?).isSome := by
  rw [Bool.eq_iff_iff]
  simp [h]

theorem Steps.each (h : Steps c call c' call') (j : Nat) :
    (c'.owes j).toNat + (call'.frees j).toNat + c'.freed.count j + ((c.impls[j]?).isSome).toNat =
      (c.owes j).toNat + (call.frees j).toNat + c.freed.count j + ((c'.impls[j]?).isSome).toNat := by
  cases h
  case check h => cases h <;> simp [Call.frees]
  case build =>
    simp only [owes, Call.frees, List.getElem?_append, List.getElem?_singleton]
    split
    case isTrue => rfl
    case isFalse hj =>
      rw [List.getElem?_eq_none (Nat.le_of_not_lt hj)]
      split <;> simp
      omega
  case device _ _ h =>
    rw [h.within.owes, h.within.slots.2, isSome_of_length h.within.length, frees_closedTo]
    rfl
  case stopDevice _ _ h =>
    rw [h.within.owes, h.within.slots.2, isSome_of_length h.within.length, frees_stoppedTo]
    rfl
  case mark d _ _ _ =>
    cases d.device <;> simp [owes, any_modifyImpl, isSome_modifyImpl, Call.frees]
  case free i d after hd =>
    by_cases hj : i = j
    case pos =>
      simp [owes, Call.frees, hj]
      omega
    case neg => simp [owes, Call.frees, hj, Ne.symm hj]
  case release i d after hd hr =>
    by_cases hj : i = j
    case pos =>
      subst hj
      simp [owes, Call.frees, impls_modifyImpl, hd, hr]
    case neg => simp [owes, Call.frees, impls_modifyImpl, hj, Ne.symm hj]
  case unlock =>
    rw [frees_afterClose]
    simp [owes, any_modifyImpl, isSome_modifyImpl, Call.frees]
  all_goals simp [owes, any_modifyImpl, isSome_modifyImpl, Call.frees]

theorem Steps.freed (h : Steps c call c' call') (hi : i ∈ c.freed) : i ∈ c'.freed := by
  cases h
  case free => exact List.mem_append_left _ hi
  case device _ _ h | stopDevice _ _ h => rwa [h.within.slots.2]
  all_goals exact hi

theorem Steps.settled (h : Steps c call c' call') (hs : call.settled i → i ∈ c.freed)
    (hf : call.holds i → c.owes i = false → call.frees i = false → i ∈ c.freed)
    (hi : call'.settled i) : i ∈ c'.freed := by
  cases h
  case check h =>
    cases h
    case released hd hr =>
      obtain rfl := beq_iff_eq.mp hi
      exact hf (by simp [Call.holds]) (by simp [owes, hd, hr]) rfl
    all_goals cases hi
  case free =>
    obtain rfl := beq_iff_eq.mp hi
    simp
  case mark d _ _ _ => cases hd : d.device <;> simp [hd, Call.settled] at hi
  case device => cases ‹Option DevicePoint› <;> cases hi
  case stopDevice => cases ‹Option DevicePoint› <;> cases hi
  case unlock after _ =>
    cases after
    case destroy => exact hs hi
    all_goals cases hi
  all_goals cases hi

theorem Steps.dead (h : Steps c call c' call') (hi : c'.isIn .dead i) :
    c.isIn .dead i ∨ call.settled i := by
  cases h
  case build =>
    simp only [isIn, any_append] at hi
    split at hi
    case isTrue => cases hi
    case isFalse => exact .inl hi
  case device _ _ h | stopDevice _ _ h => exact .inl (by rwa [← h.within.isIn])
  case remember | discard =>
    refine .inl ?_
    have hi := isIn_modifyImpl ▸ hi
    split at hi
    case isTrue => simp at hi
    case isFalse => exact hi
  case destroyed j =>
    by_cases hj : j = i
    case pos => exact .inr (by simp [Call.settled, hj])
    case neg =>
      rw [isIn_modifyImpl, if_neg hj] at hi
      exact .inl hi
  all_goals exact .inl (by simpa [isIn, any_modifyImpl] using hi)

-- A closed device that is not being closed has given its slot back.
def Settled (c : Client) (i : Nat) : Prop :=
  c.isIn .alive i → c.isClosed i → c.isLocked i ∨ i ∈ c.freed

theorem Settled.congr (h : Settled c i) (ha : c'.isIn .alive i → c.isIn .alive i)
    (hc : c'.isClosed i = c.isClosed i) (hl : c'.isLocked i = c.isLocked i)
    (hf : i ∈ c.freed → i ∈ c'.freed) : Settled c' i := by
  intro alive closed
  rw [hl]
  exact (h (ha alive) (hc ▸ closed)).imp_right hf

theorem Settled.modifyImpl {f : DeviceImpl → DeviceImpl} (h : Settled c i)
    (hj : j = i → Settled (c.modifyImpl j f) i) : Settled (c.modifyImpl j f) i := by
  by_cases hji : j = i
  case pos => exact hj hji
  case neg =>
    simpa only [Settled, isIn, isClosed, isLocked, impls_modifyImpl, if_neg hji, freed_modifyImpl]
      using h

theorem Steps.keepsSettled (h : Steps c call c' call') (hl : call.holds i → c.isLocked i)
    (hm : call.makes i → c.isIn .building i) (hf : call.starts i → c.isClosed i = false)
    (hs : call.settled i → i ∈ c.freed) (hi : Settled c i) : Settled c' i := by
  cases h
  case build =>
    intro alive closed
    simp only [Client.isIn, Client.isClosed, Client.isLocked, any_append] at alive closed ⊢
    split at alive
    case isTrue => cases alive
    case isFalse hj =>
      rw [if_neg hj] at closed ⊢
      exact hi alive closed
  case device _ _ h | stopDevice _ _ h =>
    exact hi.congr (h.within.isIn ▸ id) h.within.isClosed h.within.isLocked (h.within.slots.2 ▸ id)
  case busy =>
    refine hi.modifyImpl ?_
    rintro rfl alive
    obtain ⟨d, hd, building⟩ := isIn_iff.mp (hm (by simp [Call.makes]))
    simp [Client.isIn, impls_modifyImpl, hd, building] at alive
  case register =>
    exact hi.congr (by simp [Client.isIn, any_modifyImpl]) (isClosed_modifyImpl fun _ => rfl)
      (isLocked_modifyImpl fun _ => rfl) id
  case remember j =>
    have : Settled (c.modifyImpl j ({ · with life := .alive })) i := by
      refine hi.modifyImpl ?_
      rintro rfl _ closed
      have closed : c.isClosed j := by simpa [Client.isClosed, any_modifyImpl] using closed
      simp [hf (by simp [Call.starts])] at closed
    exact this
  case discard | destroyed =>
    refine hi.modifyImpl ?_
    rintro rfl alive
    simp [isIn_modifyImpl] at alive
  case lock hd _ =>
    refine hi.modifyImpl ?_
    rintro rfl _ _
    simp [Client.isLocked, impls_modifyImpl, hd]
  case mark =>
    refine hi.modifyImpl ?_
    rintro rfl _ _
    have locked := hl (by simp [Call.holds])
    exact .inl (by simpa [Client.isLocked, any_modifyImpl] using locked)
  case release =>
    exact hi.congr (by simp [Client.isIn, any_modifyImpl]) (isClosed_modifyImpl fun _ => rfl)
      (isLocked_modifyImpl fun _ => rfl) id
  case free => exact hi.congr id rfl rfl (List.mem_append_left _)
  case unlock =>
    refine hi.modifyImpl ?_
    rintro rfl _ _
    exact .inr (hs (by simp [Call.settled]))
  all_goals exact hi

end Client

namespace Application

variable {s s' : Application} {k : Nat}

-- The slots that were acquired and not released: those for which there is no `Impl` yet and those of
-- the devices that have not given theirs back.
def heldSlots (s : Application) : Nat :=
  s.calls.countP (·.builds) + (List.range s.client.impls.length).countP (!s.client.freed.contains ·)

structure Balanced (s : Application) : Prop where
  total : s.client.slots.active + s.client.freed.length =
    s.client.impls.length + s.calls.countP (·.builds)
  each i : (s.client.owes i).toNat + s.calls.countP (·.frees i) + s.client.freed.count i =
    ((s.client.impls[i]?).isSome).toNat

namespace Balanced

theorem nodup (h : Balanced s) : s.client.freed.Nodup := by
  refine List.nodup_iff_count_le_one.mpr fun i => ?_
  have := h.each i
  have := Bool.toNat_le (s.client.impls[i]?).isSome
  omega

theorem lt_length (h : Balanced s)
    (hi : 0 < s.calls.countP (·.frees i) + s.client.freed.count i) : i < s.client.impls.length := by
  have := h.each i
  cases hd : s.client.impls[i]?
  case none =>
    rw [hd] at this
    simp only [Option.isSome_none, Bool.toNat_false] at this
    omega
  case some => exact (List.getElem?_eq_some_iff.mp hd).choose

theorem active_eq (h : Balanced s) : s.client.slots.active = s.heldSlots := by
  have := List.countP_not_contains h.nodup fun i hi =>
    h.lt_length (Nat.add_pos_right _ (List.count_pos_iff.mpr hi))
  have := h.total
  simp only [heldSlots]
  omega

theorem active_pos (h : Balanced s) (hc : call ∈ s.calls) (hf : call.frees i) :
    0 < s.client.slots.active ∧ i ∉ s.client.freed := by
  have positive : 0 < s.calls.countP (·.frees i) := List.countP_pos_iff.mpr ⟨call, hc, hf⟩
  have hi : i ∉ s.client.freed := by
    have := h.each i
    have := Bool.toNat_le (s.client.impls[i]?).isSome
    rw [← List.count_eq_zero]
    omega
  have hl := h.lt_length (Nat.add_pos_left positive _)
  have held : 0 < (List.range s.client.impls.length).countP (!s.client.freed.contains ·) :=
    List.countP_pos_iff.mpr ⟨i, List.mem_range.mpr hl, by simpa using hi⟩
  refine ⟨?_, hi⟩
  rw [h.active_eq, heldSlots]
  omega

theorem resume (h : Balanced s) (hk : s.calls[k]? = some call)
    (hs : s.client.Steps call c' call') :
    Balanced { client := c', calls := s.calls.set k call' } where
  total := by
    have moved := List.countP_set_add (p := (·.builds)) (b := call') hk
    have := hs.total fun i hf => (h.active_pos (List.mem_of_getElem? hk) hf).left
    have := h.total
    simp only at *
    omega
  each i := by
    have moved := List.countP_set_add (p := (·.frees i)) (b := call') hk
    have := hs.each i
    have := h.each i
    simp only at *
    omega

theorem of_client (h : Balanced s) (slots : c'.slots.active = s.client.slots.active)
    (freed : c'.freed = s.client.freed) (owes : ∀ i, c'.owes i = s.client.owes i)
    (length : c'.impls.length = s.client.impls.length) : Balanced { s with client := c' } where
  total := by simpa only [slots, freed, length] using h.total
  each i := by simpa only [freed, owes, Client.isSome_of_length length] using h.each i

theorem within (h : Balanced s) (hw : s.client.Within c') : Balanced { s with client := c' } :=
  h.of_client (by rw [hw.slots.1]) hw.slots.2 (fun _ => hw.owes) hw.length

theorem enter (h : Balanced s) (hb : call.builds = false) (hf : ∀ i, call.frees i = false) :
    Balanced (s.enter call) where
  total := by simpa [Application.enter, List.countP_append, hb] using h.total
  each i := by simpa [Application.enter, List.countP_append, hf] using h.each i

theorem next (h : Balanced s) (hn : s.next a = some s') : Balanced s' := by
  cases next_moves hn
  case configure | setMaxConnections => exact h.of_client rfl rfl (fun _ => rfl) rfl
  case enter he => exact h.enter (by cases he <;> rfl) fun i => by cases he <;> rfl
  case drop i ha _ =>
    have moved : Balanced { s with client := s.client.modifyImpl i ({ · with life := .dying }) } :=
      h.of_client rfl rfl (fun _ => Client.any_modifyImpl fun _ => rfl) Client.length_modifyImpl
    exact moved.enter rfl fun _ => rfl
  case resume hk hs => exact h.resume hk hs
  case thread hs => exact h.within hs.within
  case loop hl => cases hl <;> exact h.of_client rfl rfl (fun _ => rfl) rfl

end Balanced

theorem holds_of_frees (h : Call.frees i call) : call.holds i := by
  simp only [Call.frees] at h
  split at h
  case h_1 => exact h
  case h_2 => cases h

theorem mem_freed_of_holds (ho : Ordered s) (hb : Balanced s) (hk : s.calls[k]? = some call)
    (hh : call.holds i) (hw : s.client.owes i = false) (hf : call.frees i = false) :
    i ∈ s.client.freed := by
  have none : s.calls.countP (·.frees i) = 0 := by
    refine List.countP_eq_zero.mpr fun other hc hf' => ?_
    obtain ⟨n, hn⟩ := List.mem_iff_getElem?.mp hc
    obtain rfl := ho.locks.unique hn (holds_of_frees hf') hk hh
    rw [hk] at hn
    cases hn
    simp [hf] at hf'
  have locked := ho.locks.of_mem (List.mem_of_getElem? hk) hh
  simp only [Client.isLocked, Option.any_eq_true] at locked
  obtain ⟨d, hd, _⟩ := locked
  have each := hb.each i
  simp only [hw, none, hd, Bool.toNat_false, Option.isSome_some, Bool.toNat_true] at each
  exact List.count_pos_iff.mp (by omega)

structure Released (s : Application) : Prop where
  called : ∀ call ∈ s.calls, call.settled i → i ∈ s.client.freed
  dead   : s.client.isIn .dead i → i ∈ s.client.freed
  alive  : s.client.Settled i

namespace Released

theorem resume (h : Released s) (ho : Ordered s) (hb : Balanced s) (hk : s.calls[k]? = some call)
    (hs : s.client.Steps call c' call') :
    Released { client := c', calls := s.calls.set k call' } where
  called := by
    refine List.forall_mem_set (fun x hx hi => hs.freed (h.called x hx hi)) fun hi => ?_
    exact hs.settled (h.called call (List.mem_of_getElem? hk)) (mem_freed_of_holds ho hb hk) hi
  dead hd := by
    refine hs.freed ((hs.dead hd).elim h.dead ?_)
    exact h.called call (List.mem_of_getElem? hk)
  alive :=
    have hc := List.mem_of_getElem? hk
    hs.keepsSettled (ho.locks.of_mem hc) (ho.makes.of_mem hc) (ho.fresh call hc) (h.called call hc)
      h.alive

theorem of_client (h : Released s) (freed : c'.freed = s.client.freed)
    (isIn : ∀ i life, c'.isIn life i → life = .dead ∨ life = .alive → s.client.isIn life i)
    (closed : ∀ i, c'.isClosed i = s.client.isClosed i)
    (locked : ∀ i, c'.isLocked i = s.client.isLocked i) : Released { s with client := c' } where
  called call hc hi := freed ▸ h.called call hc hi
  dead {i} hd := freed ▸ h.dead (isIn i _ hd (.inl rfl))
  alive {i} := h.alive.congr (isIn i _ · (.inr rfl)) (closed i) (locked i) (freed ▸ id)

theorem enter (h : Released s) (hs : ∀ i, call.settled i = false) : Released (s.enter call) where
  called := by
    refine List.forall_mem_append.mpr ⟨h.called, List.forall_mem_singleton.mpr fun hi => ?_⟩
    simp [hs] at hi
  dead  := h.dead
  alive := h.alive

theorem next (h : Released s) (ho : Ordered s) (hb : Balanced s) (hn : s.next a = some s') :
    Released s' := by
  cases next_moves hn
  case configure | setMaxConnections =>
    exact h.of_client rfl (fun _ _ hi _ => hi) (fun _ => rfl) fun _ => rfl
  case enter he => exact h.enter fun i => by cases he <;> rfl
  case drop i ha _ =>
    have moved : Released { s with client := s.client.modifyImpl i ({ · with life := .dying }) } := by
      refine h.of_client rfl (fun j life hi hl => ?_) (fun _ => Client.isClosed_modifyImpl fun _ => rfl)
        fun _ => Client.isLocked_modifyImpl fun _ => rfl
      rw [Client.isIn_modifyImpl] at hi
      split at hi
      case isTrue => rcases hl with rfl | rfl <;> simp at hi
      case isFalse => exact hi
    exact moved.enter fun _ => rfl
  case resume hk hs => exact h.resume ho hb hk hs
  case thread hs =>
    have hw := hs.within
    exact h.of_client hw.slots.2 (fun _ _ hi _ => hw.isIn ▸ hi) (fun _ => hw.isClosed)
      fun _ => hw.isLocked
  case loop hl =>
    cases hl <;> exact h.of_client rfl (fun _ _ hi _ => hi) (fun _ => rfl) fun _ => rfl

end Released

theorem Released.empty : Released {} where
  called := nofun
  dead := nofun
  alive := nofun

theorem Reachable.balanced (h : Reachable C s) : Balanced s ∧ Released s := by
  refine Reach.invariant_under (I := Ordered) (J := fun s => Balanced s ∧ Released s)
    (fun _ _ _ _ hn h => h.next hn) (fun _ _ _ ho _ hn h => ?_) h .empty
    ⟨⟨rfl, fun _ => rfl⟩, .empty⟩
  exact ⟨h.left.next hn, h.right.next ho h.left hn⟩

-- The only step that takes a slot is the one that has found room.
theorem hasRoom_of_lt (hn : s.next a = some s')
    (h : s.client.slots.active < s'.client.slots.active) : s.client.slots.hasRoom := by
  cases next_moves hn
  case configure | setMaxConnections | enter | drop => exact absurd h (Nat.lt_irrefl _)
  case thread hs =>
    rw [hs.within.slots.1] at h
    exact absurd h (Nat.lt_irrefl _)
  case loop hl => cases hl <;> exact absurd h (Nat.lt_irrefl _)
  case resume hs =>
    cases hs
    case acquire room _ => exact room
    case device hs | stopDevice hs =>
      rw [hs.within.slots.1] at h
      exact absurd h (Nat.lt_irrefl _)
    case free =>
      simp only [SlotPool.release] at h
      split at h
      · exact absurd h (by simp)
      · exact absurd h (Nat.lt_irrefl _)
    all_goals exact absurd h (Nat.lt_irrefl _)

theorem connection_slots_conserved (h : Reachable C s) :
    s.client.slots.active = s.heldSlots ∧
    (∀ a s', s.next a = some s' → s.client.slots.active < s'.client.slots.active →
      s.client.slots.hasRoom) ∧
    (∀ i after, .close i .free after ∈ s.calls →
      0 < s.client.slots.active ∧ i ∉ s.client.freed) ∧
    s.client.freed.Nodup ∧
    (∀ i after, .close i .unlock after ∈ s.calls → i ∈ s.client.freed) ∧
    (∀ i d, s.client.impls[i]? = some d →
      i ∈ s.client.freed ∨ d.life = .alive ∧ d.closed = false ∨
      ∃ call ∈ s.calls, call.makes i ∨ call.buries i ∨ call.holds i) := by
  obtain ⟨hb, hr⟩ := h.balanced
  have ho := h.ordered
  refine ⟨hb.active_eq, fun a s' => hasRoom_of_lt, fun i after hc => hb.active_pos hc ?_, hb.nodup,
    fun i after hc => hr.called _ hc ?_, fun i d hd => ?_⟩
  · simp [Call.frees]
  · simp [Call.settled]
  · cases hl : d.life
    case building =>
      obtain ⟨call, hc, hm⟩ := ho.makes.exists_of (Client.isIn_iff.mpr ⟨d, hd, hl⟩)
      exact .inr (.inr ⟨call, hc, .inl hm⟩)
    case dying =>
      obtain ⟨call, hc, hm⟩ := ho.buries.exists_of (Client.isIn_iff.mpr ⟨d, hd, hl⟩)
      exact .inr (.inr ⟨call, hc, .inr (.inl hm)⟩)
    case dead => exact .inl (hr.dead (Client.isIn_iff.mpr ⟨d, hd, hl⟩))
    case alive =>
      cases hc : d.closed
      case false => exact .inr (.inl ⟨rfl, rfl⟩)
      case true =>
        rcases hr.alive (Client.isIn_iff.mpr ⟨d, hd, hl⟩) (by simp [Client.isClosed, hd, hc])
          with locked | freed
        case inl =>
          obtain ⟨call, hc, hh⟩ := ho.locks.exists_of locked
          exact .inr (.inr ⟨call, hc, .inr (.inr hh)⟩)
        case inr => exact .inl freed

-- The first connection times out and gives its slot back, the second one gets it.
theorem connection_slots_conserved_after_timeout :
    ∃ s, Reachable (fun _ _ => True) s ∧ s.client.freed = [0] ∧ s.heldSlots = 1 ∧
      s.client.slots.active = s.heldSlots := by
  have ⟨s, hr, hf, hh⟩ : ∃ s, Reachable (fun _ _ => True) s ∧ s.client.freed = [0] ∧
      s.heldSlots = 1 :=
    Reach.exists_of_exec (List.flatten [[.configure 1, .connect [97], .connect [98]],
      List.replicate 21 (.resume 0 true), List.replicate 5 (.resume 1 false),
      List.replicate 3 (.thread 1 true), List.replicate 2 (.resume 1 false)]) (by decide +kernel)
  exact ⟨s, hr, hf, hh, (connection_slots_conserved hr).left⟩

end Application
