import LibAdb.Execution.Deadline

section

variable {timeout : Int} {start now look begun : Reading}

theorem wrap_of_lt (h : 0 ≤ n) (hn : n < 0x8000000000000000) : wrap n = n := by
  simp only [wrap]
  omega

theorem wrap_lt (n : Int) : wrap n < 0x8000000000000000 := by
  simp only [wrap]
  omega

theorem tdiv_pos_iff {n : Int} : 0 < n.tdiv 1000000 ↔ 1000000 ≤ n := by
  rw [Int.tdiv_eq_ediv, Int.sign_eq_one_of_pos (by decide)]
  split <;> omega

def remaining (start : Reading) (timeout : Int) (now : Reading) : Int :=
  timeout * 1000000 - (now.ns - start.ns)

theorem timeLeft_pos_iff (start : Reading) (timeout : Int) (now : Reading) :
    0 < timeLeft start timeout now ↔ 1000000 ≤ wrap (remaining start timeout now) := by
  rw [timeLeft, tdiv_pos_iff]
  simp only [toNs, remaining, wrap]
  omega

theorem forall_reading_iff (lo : Reading) {due need : Int} {P : Int → Prop}
    (hP : ∀ m n, m ≤ n → P n → P m) :
    (∀ now : Reading, lo.ns ≤ now.ns → P now.ns ∧ due ≤ now.ns → need ≤ now.ns) ↔
      need ≤ max lo.ns due ∨ 0x8000000000000000 ≤ due ∨ ¬P (max lo.ns due) := by
  constructor
  case mp =>
    intro h
    by_contra hn
    rw [not_or, not_or, not_not] at hn
    have lt : max lo.ns due < 0x8000000000000000 := by
      have := lo.lt
      omega
    exact hn.left (h ⟨_, lo.nonneg.trans (le_max_left ..), lt⟩ (le_max_left ..)
      ⟨hn.right.right, le_max_right ..⟩)
  case mpr =>
    rintro h now hl ⟨hp, hd⟩
    have := now.lt
    have := h.resolve_right fun h => h.elim (by omega) (· (hP _ _ (max_le hl hd) hp))
    omega

theorem forall_due_iff (lo : Reading) {due need : Int} :
    (∀ now : Reading, lo.ns ≤ now.ns → due ≤ now.ns → need ≤ now.ns) ↔
      need ≤ max lo.ns due ∨ 0x8000000000000000 ≤ due := by
  simpa using forall_reading_iff lo (P := fun _ => True) fun _ _ _ h => h

theorem shell_not_early_iff (hp : 0 < timeout) (flag : CancelFlag) (env : Env)
    (session : Option AdbSession) :
    ((ShellPoint.next { timeout } flag { env with left := timeLeft start timeout now } session
        .slice).1 = .abort false → timeout * 1000000 ≤ now.ns - start.ns) ↔
      remaining start timeout now ≤ 0 ∨ 1000000 ≤ wrap (remaining start timeout now) := by
  have hl := timeLeft_pos_iff start timeout now
  simp only [ShellPoint.next, remaining] at hl ⊢
  grind

namespace TransferDeadline

variable {t : TransferTimeout} {last : Reading}

theorem expired_total_iff : expired t start last now = some .total ↔
    0 < t.total ∧ toNs t.total ≤ now.ns - start.ns := by
  simp only [expired]
  grind

theorem expired_stall_iff : expired t start last now = some .stall ↔
    ¬(0 < t.total ∧ toNs t.total ≤ now.ns - start.ns) ∧
      0 < t.stall ∧ toNs t.stall ≤ now.ns - last.ns := by
  simp only [expired]
  grind

theorem total_not_early_iff (hp : 0 < t.total) :
    (∀ now : Reading, start.ns ≤ now.ns → expired t start last now = some .total →
      t.total * 1000000 ≤ now.ns - start.ns) ↔
    t.total * 1000000 < 0x8000000000000000 ∨ 0x8000000000000000 ≤ start.ns + toNs t.total := by
  have := wrap_of_lt (n := t.total * 1000000)
  have := wrap_lt (t.total * 1000000)
  simp only [expired_total_iff, ← Int.add_le_iff_le_sub, toNs]
  rw [forall_reading_iff start (P := fun _ => 0 < t.total) fun _ _ _ h => h]
  omega

theorem stall_not_early_iff (hp : 0 < t.stall) :
    (∀ now : Reading, last.ns ≤ now.ns → expired t start last now = some .stall →
      t.stall * 1000000 ≤ now.ns - last.ns) ↔
    t.stall * 1000000 < 0x8000000000000000 ∨ 0x8000000000000000 ≤ last.ns + toNs t.stall ∨
      0 < t.total ∧ start.ns + toNs t.total ≤ max last.ns (last.ns + toNs t.stall) := by
  have := wrap_of_lt (n := t.stall * 1000000)
  have := wrap_lt (t.stall * 1000000)
  simp only [expired_stall_iff, hp, true_and, ← Int.add_le_iff_le_sub]
  rw [forall_reading_iff last (P := fun n => ¬(0 < t.total ∧ toNs t.total + start.ns ≤ n))
    fun m n hm hn h => hn ⟨h.left, h.right.trans hm⟩]
  simp only [toNs]
  omega

end TransferDeadline

theorem Operation.not_early_iff (hp : 0 < timeout) :
    (∀ now : Reading, start.ns ≤ now.ns → Operation.expired timeout start now →
      timeout * 1000000 ≤ now.ns - start.ns) ↔ start.ns + timeout * 1000000 < 0x8000000000000000 := by
  have hs := start.nonneg
  have eq : wrap (start.ns + toNs timeout) = wrap (start.ns + timeout * 1000000) := by
    simp only [toNs, wrap]
    omega
  simp only [Operation.expired, eq, ← Int.add_le_iff_le_sub, forall_due_iff]
  have := wrap_of_lt (n := start.ns + timeout * 1000000)
  have := wrap_lt (start.ns + timeout * 1000000)
  omega

theorem BatchOperation.not_early_iff (hl : look.ns ≤ begun.ns) :
    (∀ now giveUp : Reading, begun.ns ≤ now.ns →
      BatchOperation.expired timeout start look begun now = some giveUp →
      timeout * 1000000 ≤ giveUp.ns - start.ns) ↔
    remaining start timeout look ≤ 0 ∨ 1000000 ≤ wrap (remaining start timeout look) ∧
      start.ns + timeout * 1000000 ≤
        max begun.ns (wrap (begun.ns + toNs (timeLeft start timeout look))) := by
  have left := timeLeft_pos_iff start timeout look
  simp only [BatchOperation.expired, remaining] at left ⊢
  split
  case isTrue h =>
    constructor
    case mp =>
      intro h'
      have := h' begun look le_rfl rfl
      omega
    case mpr =>
      rintro h' now giveUp - ⟨⟩
      omega
  case isFalse h =>
    have := wrap_lt (begun.ns + toNs (timeLeft start timeout look))
    constructor
    case mp =>
      intro h'
      have := (forall_due_iff begun).mp fun now hb hd =>
        Int.add_le_iff_le_sub.mpr (h' now now hb (if_pos hd))
      omega
    case mpr =>
      intro h' now giveUp hn he
      obtain ⟨he, ⟨⟩⟩ := Option.ite_none_right_eq_some.mp he
      omega

-- A command, a transfer with its two limits, the wait for an operation and that for a batch.
theorem timeouts_not_early_iff (hp : 0 < timeout) :
    (∀ start now (flag : CancelFlag) (env : Env) session,
      ((ShellPoint.next { timeout } flag { env with left := timeLeft start timeout now } session
          .slice).1 = .abort false → timeout * 1000000 ≤ now.ns - start.ns) ↔
        remaining start timeout now ≤ 0 ∨ 1000000 ≤ wrap (remaining start timeout now)) ∧
    (∀ stall start last, (∀ now : Reading, start.ns ≤ now.ns →
        TransferDeadline.expired { total := timeout, stall } start last now = some .total →
        timeout * 1000000 ≤ now.ns - start.ns) ↔
      timeout * 1000000 < 0x8000000000000000 ∨ 0x8000000000000000 ≤ start.ns + toNs timeout) ∧
    (∀ total start last, (∀ now : Reading, last.ns ≤ now.ns →
        TransferDeadline.expired { total, stall := timeout } start last now = some .stall →
        timeout * 1000000 ≤ now.ns - last.ns) ↔
      timeout * 1000000 < 0x8000000000000000 ∨ 0x8000000000000000 ≤ last.ns + toNs timeout ∨
        0 < total ∧ start.ns + toNs total ≤ max last.ns (last.ns + toNs timeout)) ∧
    (∀ start : Reading, (∀ now : Reading, start.ns ≤ now.ns →
        Operation.expired timeout start now → timeout * 1000000 ≤ now.ns - start.ns) ↔
      start.ns + timeout * 1000000 < 0x8000000000000000) ∧
    ∀ start look begun : Reading, look.ns ≤ begun.ns →
      ((∀ now giveUp : Reading, begun.ns ≤ now.ns →
        BatchOperation.expired timeout start look begun now = some giveUp →
        timeout * 1000000 ≤ giveUp.ns - start.ns) ↔
      remaining start timeout look ≤ 0 ∨ 1000000 ≤ wrap (remaining start timeout look) ∧
        start.ns + timeout * 1000000 ≤
          max begun.ns (wrap (begun.ns + toNs (timeLeft start timeout look)))) :=
  ⟨fun _ _ => shell_not_early_iff hp, fun _ _ _ => TransferDeadline.total_not_early_iff hp,
    fun _ _ _ => TransferDeadline.stall_not_early_iff hp, fun _ => Operation.not_early_iff hp,
    fun _ _ _ => BatchOperation.not_early_iff⟩

theorem timeouts_not_early_hour : (0 : Int) < 3600000 ∧ ∀ now : Reading, 0 ≤ now.ns →
    Operation.expired 3600000 ⟨0, by decide, by decide⟩ now → 3600000000000 ≤ now.ns - 0 :=
  ⟨by decide, ((timeouts_not_early_iff (by decide)).2.2.2.1 ⟨0, by decide, by decide⟩).mpr (by decide)⟩

-- The greatest timeout is over at once, and one second is over half a millisecond too early.
theorem shell_times_out_early :
    let start : Reading := ⟨5, by decide, by decide⟩
    let later : Reading := ⟨999500005, by decide, by decide⟩
    (ShellPoint.next { timeout := 0x8000000000000000 - 1 } {} { left := timeLeft start (0x8000000000000000 - 1) start } none
      .slice).1 = .abort false ∧
    (ShellPoint.next { timeout := 1000 } {} { left := timeLeft start 1000 later } none
      .slice).1 = .abort false := by
  decide

end
