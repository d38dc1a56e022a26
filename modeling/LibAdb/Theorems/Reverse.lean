import LibAdb.Machine.Refinement
import LibAdb.Execution.SocketSpec
import Mathlib.Data.List.TakeWhile

-- The text that the connection is made from: a port and the name of a local socket are read up to
-- the first NUL, everything else from the string view.
def readsChars (view chars : Bytes) : Bool :=
  if isTcpSpec view then (parseInt (chars.drop 4)).isSome else !isVsockSpec view

def connectedAddress (view chars : Bytes) : Bytes :=
  if readsChars view chars then chars else view

namespace Bytes

-- The payload is a string without NULs, followed by NULs: at least one in the payload or one right
-- behind it.
structure Terminated (payload beyond : Bytes) : Prop where
  plain : 0 ∉ payload.stripTrailingNulls
  ends  : payload.getLast? = some 0 ∨ beyond.head? = none ∨ beyond.head? = some 0

theorem strip_append_nulls (s : Bytes) :
    ∃ n, s = s.stripTrailingNulls ++ List.replicate n 0 ∧ (n = 0 ↔ s.getLast? ≠ some 0) := by
  have nulls : ∀ c ∈ s.reverse.takeWhile (· == 0), c = 0 := fun c hc => by
    simpa using List.mem_takeWhile_imp hc
  refine ⟨(s.reverse.takeWhile (· == 0)).length, ?_, ?_⟩
  · calc s = s.reverse.reverse := s.reverse_reverse.symm
      _ = (s.reverse.takeWhile (· == 0) ++ s.reverse.dropWhile (· == 0)).reverse := by
        rw [List.takeWhile_append_dropWhile]
      _ = s.stripTrailingNulls ++ (s.reverse.takeWhile (· == 0)).reverse := List.reverse_append
      _ = _ := by
        conv_lhs => rw [List.eq_replicate_of_mem nulls, List.reverse_replicate]
  · rw [List.length_eq_zero_iff, List.getLast?_eq_head?_reverse]
    cases s.reverse <;> simp [List.takeWhile_cons]

theorem takeWhile_append_plain {w : Bytes} (h : 0 ∉ w) (rest : Bytes) :
    (w ++ rest).takeWhile (· != 0) = w ++ rest.takeWhile (· != 0) :=
  List.takeWhile_append_of_pos fun c hc => by
    simpa using fun h0 : c = 0 => h (h0 ▸ hc)

theorem strip_eq_cString_iff :
    stripTrailingNulls payload = cString payload beyond ↔ Terminated payload beyond := by
  obtain ⟨n, hs, hn⟩ := strip_append_nulls payload
  have hc : cString payload beyond = (stripTrailingNulls payload ++
      (List.replicate n 0 ++ beyond)).takeWhile (· != 0) := by
    conv_lhs => rw [cString, hs]
    rw [List.append_assoc]
  have tail : (List.replicate n 0 ++ beyond).takeWhile (· != 0) = [] ↔
      payload.getLast? = some 0 ∨ beyond.head? = none ∨ beyond.head? = some 0 := by
    cases n
    case zero =>
      have := hn.mp rfl
      cases beyond <;> simp [List.takeWhile_cons, this]
    case succ => simp [List.replicate_succ, not_not.mp (mt hn.mpr (Nat.succ_ne_zero _))]
  rw [hc]
  constructor
  case mp =>
    intro h
    have plain : 0 ∉ stripTrailingNulls payload := fun h0 =>
      absurd (List.mem_takeWhile_imp (h ▸ h0)) (by decide)
    rw [takeWhile_append_plain plain] at h
    exact ⟨plain, tail.mp (List.self_eq_append_right.mp h)⟩
  case mpr =>
    intro h
    rw [takeWhile_append_plain h.plain, tail.mpr h.ends, List.append_nil]

theorem isPrefixOf_cString {l : Bytes} (h₀ : 0 ∉ l)
    (h : l.isPrefixOf (stripTrailingNulls payload)) : l.isPrefixOf (cString payload beyond) := by
  obtain ⟨n, hs, -⟩ := strip_append_nulls payload
  obtain ⟨rest, hr⟩ := List.isPrefixOf_iff_prefix.mp h
  refine List.isPrefixOf_iff_prefix.mpr
    ⟨((rest ++ List.replicate n 0) ++ beyond).takeWhile (· != 0), ?_⟩
  conv_rhs => rw [cString, hs, ← hr]
  simp only [List.append_assoc, takeWhile_append_plain h₀]

end Bytes

section Readings

variable {payload beyond : Bytes} {d : Destination}

-- No kind of local socket starts with another one, nor with `tcp:` or `vsock:`.
theorem kind_of_isPrefixOf (hk : k ∈ localSocketTypes) (h : (ascii k.1).isPrefixOf spec) :
    isTcpSpec spec = false ∧ isVsockSpec spec = false ∧
      ∀ k' ∈ localSocketTypes, (ascii k'.1).isPrefixOf spec → k' = k := by
  have one (l : Bytes) (hl : l.isPrefixOf spec) : l <+: ascii k.1 ∨ ascii k.1 <+: l :=
    List.prefix_or_prefix_of_prefix (List.isPrefixOf_iff_prefix.mp hl)
      (List.isPrefixOf_iff_prefix.mp h)
  have apart : ∀ k ∈ localSocketTypes,
      ¬(ascii "tcp:" <+: ascii k.1 ∨ ascii k.1 <+: ascii "tcp:") ∧
      ¬(ascii "vsock:" <+: ascii k.1 ∨ ascii k.1 <+: ascii "vsock:") ∧
      ∀ k' ∈ localSocketTypes, ascii k'.1 <+: ascii k.1 ∨ ascii k.1 <+: ascii k'.1 → k' = k := by
    decide
  have ⟨tcp, vsock, same⟩ := apart k hk
  exact ⟨Bool.eq_false_iff.mpr (tcp <| one _ ·), Bool.eq_false_iff.mpr (vsock <| one _ ·),
    fun k' hk' h' => same k' hk' (one _ h')⟩

theorem find_kind (hk : k ∈ localSocketTypes) (h : (ascii k.1).isPrefixOf spec) :
    localSocketTypes.find? (fun (kind, _) => (ascii kind).isPrefixOf spec) = some k := by
  cases hf : localSocketTypes.find? fun (kind, _) => (ascii kind).isPrefixOf spec
  case none => exact absurd h (List.find?_eq_none.mp hf k hk)
  case some k' =>
    have found := List.find?_some hf
    rw [(kind_of_isPrefixOf hk h).2.2 k' (List.mem_of_find?_eq_some hf) found]

theorem localConnect_chars
    (h : localConnect payload.stripTrailingNulls (payload.cString beyond) = some d) :
    socketSpecConnect (payload.cString beyond) (payload.cString beyond) = some d := by
  unfold localConnect at h
  cases hf : localSocketTypes.find? fun (kind, _) =>
    (ascii kind).isPrefixOf payload.stripTrailingNulls
  case none => rw [hf] at h; cases h
  case some k =>
    have hk := List.mem_of_find?_eq_some hf
    have plain : ∀ k ∈ localSocketTypes, 0 ∉ ascii k.1 := by decide
    have found := List.find?_some hf
    have hc : (ascii k.1).isPrefixOf (payload.cString beyond) :=
      Bytes.isPrefixOf_cString (plain k hk) found
    have ⟨tcp, vsock, _⟩ := kind_of_isPrefixOf hk hc
    rw [hf] at h
    simpa only [socketSpecConnect, tcp, vsock, Bool.false_eq_true, if_false, localConnect,
      find_kind hk hc] using h

theorem socketSpecConnect_chars (h : readsChars payload.stripTrailingNulls (payload.cString beyond))
    (hd : socketSpecConnect payload.stripTrailingNulls (payload.cString beyond) = some d) :
    socketSpecConnect (payload.cString beyond) (payload.cString beyond) = some d := by
  by_cases ht : isTcpSpec payload.stripTrailingNulls
  case pos =>
    have hc : isTcpSpec (payload.cString beyond) := Bytes.isPrefixOf_cString (by decide) ht
    simp only [readsChars, ht, if_true] at h
    simp only [socketSpecConnect, ht, hc, if_true] at hd ⊢
    obtain ⟨port, hp⟩ := Option.isSome_iff_exists.mp h
    simpa only [tcpConnect, hp] using hd
  case neg =>
    simp only [readsChars, ht, Bool.false_eq_true, if_false, Bool.not_eq_true'] at h
    simp only [socketSpecConnect, ht, h, Bool.false_eq_true, if_false] at hd
    exact localConnect_chars hd

end Readings

namespace Looper

variable {s : Looper} {t : Tid} {p : Apacket} {os : Os} {d : Destination}

-- The device's `OPEN` is answered by a connection to `d`.
structure ConnectsTo (s : Looper) (t : Tid) (p : Apacket) (os : Os) (d : Destination) : Prop where
  accepts     : s.accepts t p os
  destination : socketSpecConnect p.payload.stripTrailingNulls (p.payload.cString os.beyond) = some d

theorem connected_address_authorised_iff (h : s.ConnectsTo t p os d) :
    (connectedAddress p.payload.stripTrailingNulls (p.payload.cString os.beyond) =
        p.payload.cString os.beyond ↔
      p.payload.Terminated os.beyond ∨
        readsChars p.payload.stripTrailingNulls (p.payload.cString os.beyond)) ∧
    (p.payload.Terminated os.beyond ∨
        readsChars p.payload.stripTrailingNulls (p.payload.cString os.beyond) →
      socketSpecConnect (p.payload.cString os.beyond) (p.payload.cString os.beyond) = some d) := by
  refine ⟨?_, fun hc => ?_⟩
  · unfold connectedAddress
    split
    case isTrue hr => simp [hr]
    case isFalse hr => simp only [hr, Bytes.strip_eq_cString_iff, Bool.false_eq_true, or_false]
  · obtain hc | hc := hc
    · have := h.destination
      rwa [Bytes.strip_eq_cString_iff.mpr hc] at this
    · exact socketSpecConnect_chars hc h.destination

def reverseRun (local_ : Bytes) : List Action :=
  [.packet 0 .connect {}, .openService 0 (ascii "reverse:forward:tcp:1;" ++ local_)]

-- The payload ends with a NUL, as the device's own client sends it.
theorem connected_address_authorised_terminated : ∃ s : Looper, Reachable (fun _ _ => True) s ∧
    ∃ p : ReceivedPacket, p.payload = ascii "tcp:7" ++ [0] ∧
      s.ConnectsTo 0 p.toApacket {} (.loopback 7) ∧
      connectedAddress p.payload.stripTrailingNulls (p.payload.cString []) = ascii "tcp:7" := by
  have run : (exec next {} (reverseRun (ascii "tcp:7"))).any fun s =>
      s.accepts 0 (ReceivedPacket.ofCommand .open 9 0 (ascii "tcp:7" ++ [0])
        (by decide)).toApacket {} := by
    decide +kernel
  have ⟨s, hs, ha⟩ := Option.any_eq_true _ _ |>.mp run
  have h : s.ConnectsTo 0 (ReceivedPacket.ofCommand .open 9 0 (ascii "tcp:7" ++ [0])
      (by decide)).toApacket {} (.loopback 7) := ⟨ha, by decide +kernel⟩
  have hc := (connected_address_authorised_iff h).1.mpr (.inl ⟨by decide, by decide⟩)
  exact ⟨s, .of_exec hs, _, rfl, h, hc⟩

-- The bytes behind the NUL are not part of the string that is checked, but they belong to the
-- address that is connected to.
theorem embedded_null_changes_address : ∃ s : Looper, Reachable (fun _ _ => True) s ∧
    ∃ p : ReceivedPacket, p.payload = ascii "tcp:h" ++ [0] ++ ascii "x:7" ∧
      p.payload.cString [] = ascii "tcp:h" ∧
      s.ConnectsTo 0 p.toApacket {} (.network (ascii "h") 7) ∧
      connectedAddress p.payload.stripTrailingNulls (p.payload.cString []) ≠ ascii "tcp:h" ∧
      socketSpecConnect (ascii "tcp:h") (ascii "tcp:h") = some (.network (ascii "h") 5555) := by
  have run : (exec next {} (reverseRun (ascii "tcp:h"))).any fun s =>
      s.accepts 0 (ReceivedPacket.ofCommand .open 9 0 (ascii "tcp:h" ++ [0] ++ ascii "x:7")
        (by decide)).toApacket {} := by
    decide +kernel
  have ⟨s, hs, ha⟩ := Option.any_eq_true _ _ |>.mp run
  exact ⟨s, .of_exec hs, .ofCommand .open 9 0 (ascii "tcp:h" ++ [0] ++ ascii "x:7") (by decide),
    rfl, by decide, ⟨ha, by decide +kernel⟩, by decide +kernel, by decide +kernel⟩

end Looper

namespace Bytes

theorem consumePrefix_eq_some {s rest : Bytes} (h : s.consumePrefix literal = some rest) :
    s = ascii literal ++ rest := by
  simp only [consumePrefix, Option.ite_none_right_eq_some, Option.some.injEq] at h
  have ⟨hp, hr⟩ := h
  rw [← hr, List.prefix_iff_eq_append.mp (List.isPrefixOf_iff_prefix.mp hp)]

theorem consumePrefix_append (literal : String) (rest : Bytes) :
    (ascii literal ++ rest).consumePrefix literal = some rest := by
  simp [consumePrefix]

theorem head_of_consumePrefix {s rest : Bytes} (hl : ascii literal ≠ [])
    (h : s.consumePrefix literal = some rest) : s.head? = (ascii literal).head? := by
  rw [consumePrefix_eq_some h, List.head?_append_of_ne_nil _ hl]

theorem splitOn_cut {s : Bytes} (h : s.cut c = some (a, b)) : s.splitOn c = a :: b.splitOn c := by
  simp only [cut, Option.ite_none_right_eq_some, Option.some.injEq, Prod.mk.injEq] at h
  obtain ⟨hc, rfl, rfl⟩ := h
  have hs : s = s.takeWhile (· != c) ++ c :: (s.dropWhile (· != c)).tail := by
    have hne : s.dropWhile (· != c) ≠ [] := by
      simpa [List.dropWhile_eq_nil_iff] using hc
    have head : (s.dropWhile (· != c)).head hne = c := by
      simpa using List.head_dropWhile_not (· != c) hne
    conv_lhs => rw [← List.takeWhile_append_dropWhile (p := (· != c)) (l := s),
      ← List.cons_head_tail hne, head]
  conv_lhs => rw [hs]
  refine List.splitOnP_append_cons_of_forall_mem (fun x hx => ?_) c (by simp) _
  simpa using List.mem_takeWhile_imp hx

end Bytes
