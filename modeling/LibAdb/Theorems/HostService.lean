import LibAdb.Execution.HostService
import LibAdb.Machine.SmartSocket

namespace HostService

variable {full serial command : Bytes} {k n : Nat}

def answer : HostService → Option (Bytes × Bytes)
  | .parsed serial command => some (serial, command)
  | _ => none

namespace Views

def cut (full : Bytes) (k : Nat) : Views :=
  { serial := full.take k, command := full.drop k }

@[simp]
theorem cut_command : (cut full k).command = full.drop k :=
  rfl

theorem consume_cut (h : k + n ≤ full.length) :
    (cut full k).consume full n = .ok (cut full (k + n)) := by
  have command : ¬(full.drop k).length < n := by
    rw [List.length_drop]
    omega
  have serial : (full.take k).length = k := by
    rw [List.length_take]
    omega
  have adjacent : k = full.length - (full.drop k).length := by
    rw [List.length_drop]
    omega
  simp only [consume, cut, serial]
  rw [if_neg command, if_neg (fun h => h.right adjacent), List.drop_drop]

theorem toColon_cut (full : Bytes) (k : Nat) :
    (cut full k).toColon full = .ok ((HostService.toColon full k).map (cut full)) := by
  simp only [toColon, HostService.toColon, cut_command]
  cases h : (full.drop k).findIdx? (· == 58)
  case none => rfl
  case some i =>
    have hi := (List.findIdx?_eq_some_iff_getElem.mp h).choose
    rw [List.length_drop] at hi
    exact congrArg (Except.map some) (consume_cut (by omega))

theorem finish_cut (h : Terminated full k) :
    (cut full k).finish = .ok (HostService.finish full k).answer := by
  have := finish_ne_checkFailed h
  simp only [finish, cut, HostService.finish] at this ⊢
  grind [answer]

theorem value_cut (full : Bytes) (k : Nat) : (cut full k).value full =
    .ok (((HostService.toColon full k).map (HostService.finish full)).getD .invalid).answer := by
  rw [value, toColon_cut]
  cases hc : HostService.toColon full k
  case none => rfl
  case some m => exact finish_cut (toColon_terminated hc)

theorem port_cut (h : Terminated full k) :
    (cut full k).port full = .ok (HostService.port full k).answer := by
  simp only [port, HostService.port, cut_command]
  cases hn : (full.drop k).findIdx? (· == 58)
  case none => exact finish_cut h
  case some next =>
    have lt := (List.findIdx?_eq_some_iff_getElem.mp hn).choose
    have le : k + (next + 1) ≤ full.length := by
      rw [List.length_drop] at lt
      omega
    simp only [Nat.not_le.mpr lt, if_false]
    by_cases hd : ((full.drop k).take next).all isDigit
    case pos =>
      simp only [hd, if_true, consume_cut le]
      exact finish_cut (findIdx?_terminated hn)
    case neg =>
      simp only [hd]
      exact finish_cut h

theorem address_cut (hn : full.drop k ≠ []) :
    (cut full k).address full = .ok ((HostService.address full k).map (cut full)) := by
  obtain ⟨c, tail, hc⟩ := List.exists_cons_of_ne_nil hn
  have front : (cut full k).front = .ok c := by simp only [Views.front, cut_command, hc]
  rw [address, front]
  change (if c = 91 then _ else _ : Except ViewError (Option Views)) = _
  by_cases hb : c = 91
  case neg =>
    have other : HostService.address full k = HostService.toColon full k := by
      simp only [HostService.address, hc]
      split <;> simp_all
    rw [if_neg hb, other, toColon_cut]
  case pos =>
    subst hb
    simp only [if_true, HostService.address, hc]
    rw [← hc, cut_command]
    cases he : (full.drop k).findIdx? (· == 93)
    case none => exact toColon_cut full k
    case some e =>
      have lt := (List.findIdx?_eq_some_iff_getElem.mp he).choose
      have le : k + (e + 1) ≤ full.length := by
        rw [List.length_drop] at lt
        omega
      simp only [consume_cut le]
      change (if full.drop (k + e + 1) = [] then _ else _ : Except ViewError (Option Views)) = _
      cases hd : full.drop (k + e + 1)
      case nil => rfl
      case cons d rest =>
        have front : (cut full (k + (e + 1))).front = .ok d := by
          simp only [Views.front, cut_command, ← Nat.add_assoc, hd]
        have le : k + (e + 1) + 1 ≤ full.length := by
          have := congrArg List.length hd
          rw [List.length_drop, List.length_cons] at this
          omega
        simp only [front, consume_cut le]
        by_cases hs : d = 58
        case pos =>
          subst hs
          rfl
        case neg =>
          rw [if_neg (List.cons_ne_nil d rest)]
          change (if d ≠ 58 then _ else _ : Except ViewError (Option Views)) = _
          rw [if_pos hs]
          split
          case h_1 h => exact absurd (List.cons.inj h).left hs
          case h_2 => rfl

theorem toColon_vsock (h : ascii "vsock:" <+: full.drop k) :
    HostService.toColon full k = some (k + 6) := by
  obtain ⟨rest, hr⟩ := h
  rw [HostService.toColon, ← hr]
  rfl

def cid (full : Bytes) (k : Nat) : Nat :=
  if (ascii "vsock:").isPrefixOf (full.drop k) then k + 6 else k

theorem drop_cid (h : full.drop (cid full k) = []) :
    full.drop k = [] ∨ full.drop k = ascii "vsock:" := by
  rw [cid] at h
  split at h
  case isTrue hv =>
    obtain ⟨rest, hr⟩ := List.isPrefixOf_iff_prefix.mp hv
    rw [← List.drop_drop, ← hr] at h
    rw [← hr, show rest = [] from h]
    exact .inr rfl
  case isFalse => exact .inl h

theorem target_cut (hn : full.drop k ≠ []) : (cut full k).target full =
    .ok (((HostService.address full k).map (HostService.port full)).getD .invalid).answer := by
  rw [target, address_cut hn]
  cases ha : HostService.address full k
  case none => rfl
  case some n => exact port_cut (address_terminated ha)

theorem device_cut (hn : full.drop (cid full k) ≠ []) : (cut full k).device full =
    .ok (((HostService.address full (cid full k)).map (HostService.port full)).getD .invalid).answer := by
  rw [device, cid] at *
  by_cases hv : (ascii "vsock:").isPrefixOf (full.drop k)
  case pos =>
    rw [if_pos hv] at hn ⊢
    rw [cut_command, if_pos hv, toColon_cut, toColon_vsock (List.isPrefixOf_iff_prefix.mp hv)]
    exact target_cut hn
  case neg =>
    rw [if_neg hv] at hn ⊢
    rw [cut_command, if_neg hv]
    exact target_cut hn

-- Nothing follows the name of the protocol, so that there is no character to look at.
def Unfinished (full : Bytes) : Prop :=
  full = ascii "vsock:" ∨ full = ascii "tcp:vsock:" ∨ full = ascii "udp:vsock:"

theorem protocol_drop (h : ((ascii "tcp:").isPrefixOf full || (ascii "udp:").isPrefixOf full) = true) :
    full = ascii "tcp:" ++ full.drop 4 ∨ full = ascii "udp:" ++ full.drop 4 := by
  rw [Bool.or_eq_true, List.isPrefixOf_iff_prefix, List.isPrefixOf_iff_prefix] at h
  rcases h with ⟨rest, rfl⟩ | ⟨rest, rfl⟩
  · exact .inl rfl
  · exact .inr rfl

theorem parse_eq (full : Bytes) (hu : ¬Unfinished full) :
    parse full = .ok (HostService.parse full).answer := by
  have zero : ({ command := full } : Views) = cut full 0 := rfl
  by_cases hn : full = []
  case pos => simp [parse, HostService.parse, hn]; rfl
  case neg =>
    simp only [parse, HostService.parse, hn, if_false, zero]
    cases hf : prefixes.find? (·.isPrefixOf full)
    case some p =>
      have hp : p.isPrefixOf full := List.find?_some (p := fun p : Bytes => p.isPrefixOf full) hf
      have le := (List.isPrefixOf_iff_prefix.mp hp).length_le
      have first := consume_cut (show 0 + p.length ≤ full.length by omega)
      rw [Nat.zero_add] at first
      simp only [first]
      exact value_cut full p.length
    case none =>
      by_cases hp : ((ascii "tcp:").isPrefixOf full || (ascii "udp:").isPrefixOf full) = true
      case pos =>
        have split := protocol_drop hp
        have le : 0 + 4 ≤ full.length := by
          rcases split with h | h <;> rw [h] <;> simp [ascii]
        simp only [hp, if_true, consume_cut le, Bool.true_and, decide_eq_true_eq]
        change (if full.drop 4 = [] then _ else _ : Except ViewError (Option (Bytes × Bytes))) = _
        by_cases hd : full.drop 4 = []
        case pos =>
          rw [if_pos hd, if_pos hd]
          rfl
        case neg =>
          rw [if_neg hd, if_neg hd]
          refine device_cut fun h => ?_
          rcases drop_cid h with h | h
          · exact hd h
          · rw [h] at split
            exact hu (.inr split)
      case neg =>
        simp only [hp, Bool.false_and]
        refine device_cut fun h => ?_
        rcases drop_cid h with h | h
        · exact hn h
        · exact hu (.inl h)

end Views

theorem finish_lossless (h : finish full k = .parsed serial command) :
    serial ++ 58 :: command = full := by
  simp only [finish] at h
  split at h
  case isTrue => cases h
  case isFalse =>
    split at h
    case isTrue hl =>
      cases h
      have last := List.dropLast_append_getLast? 58 hl
      rw [List.append_cons, last, List.take_append_drop]
    case isFalse => cases h

-- The first character behind `vsock:` is looked at even if there is none.
theorem views_safe_iff (full : Bytes) :
    ((∃ r, Views.parse full = .ok r) ↔
      full ∉ [ascii "vsock:", ascii "tcp:vsock:", ascii "udp:vsock:"]) ∧
    ∀ serial command, Views.parse full = .ok (some (serial, command)) →
      serial ++ 58 :: command = full := by
  have unfinished : full ∈ [ascii "vsock:", ascii "tcp:vsock:", ascii "udp:vsock:"] ↔
      Views.Unfinished full := by
    simp [Views.Unfinished]
  have fails (h : Views.Unfinished full) : Views.parse full = .error .outOfRange := by
    rcases h with rfl | rfl | rfl <;> rfl
  rw [unfinished]
  constructor
  case left =>
    constructor
    case mp =>
      rintro ⟨r, hr⟩ h
      cases (fails h).symm.trans hr
    case mpr => exact fun h => ⟨_, Views.parse_eq full h⟩
  case right =>
    intro serial command h
    have safe : ¬Views.Unfinished full := fun hu => by cases (fails hu).symm.trans h
    have parsed : HostService.parse full = .parsed serial command := by
      have := Except.ok.inj ((Views.parse_eq full safe).symm.trans h)
      cases hs : HostService.parse full <;> simp_all [answer]
    obtain hi | ⟨k, -, hk⟩ := parse_eq full
    · cases hi.symm.trans parsed
    · exact finish_lossless (hk.symm.trans parsed)

theorem views_out_of_range : Views.parse (ascii "vsock:") = .error .outOfRange :=
  rfl

-- The words in front of a colon that do not name a host.
def reserved : List Bytes :=
  ["usb", "product", "model", "device", "localfilesystem", "tcp", "udp", "vsock"].map ascii

structure Host (s : Bytes) : Prop where
  nonempty    : s ≠ []
  colonFree   : 58 ∉ s
  unbracketed : s.head? ≠ some 91
  unreserved  : s ∉ reserved

inductive Endpoint : Bytes → Prop
  | host (h : Host s) : Endpoint s
  | network (h : Host s) (hp : digits.all isDigit) : Endpoint (s ++ 58 :: digits)
  | bracketed (h : 93 ∉ s) (hp : digits.all isDigit) : Endpoint (91 :: (s ++ 93 :: 58 :: digits))

inductive Supported : Bytes → Prop
  | endpoint (h : Endpoint e) : Supported e
  | protocol (hp : w ∈ ["tcp:", "udp:"].map ascii) (h : Endpoint e) : Supported (w ++ e)
  | vsock (hc : 58 ∉ s) (hb : s.head? ≠ some 91) (hp : digits.all isDigit) :
    Supported (ascii "vsock:" ++ (s ++ 58 :: digits))
  | qualified (hq : w ∈ ["usb:", "product:", "model:", "device:"].map ascii) (hv : 58 ∉ value) :
    Supported (w ++ value)

section Serials

variable {digits e pre rest s value w : Bytes}

theorem findIdx?_append_cons {c : UInt8} (h : c ∉ s) :
    (s ++ c :: rest).findIdx? (· == c) = some s.length := by
  have none : s.findIdx? (· == c) = none := by
    rw [List.findIdx?_eq_none_iff]
    intro x hx
    exact beq_false_of_ne (by rintro rfl; exact h hx)
  rw [List.findIdx?_append, none, List.findIdx?_cons, beq_self_eq_true]
  simp

theorem toColon_append (h : 58 ∉ s) :
    toColon (pre ++ (s ++ 58 :: rest)) pre.length = some ((pre ++ s).length + 1) := by
  rw [toColon, List.drop_left, findIdx?_append_cons h, Option.map_some, List.length_append]

theorem drop_append_cons : (s ++ 58 :: rest).drop (s.length + 1) = rest := by
  rw [List.append_cons, List.drop_left' (by simp)]

theorem finish_append (hc : command ≠ []) :
    finish (serial ++ 58 :: command) (serial.length + 1) = .parsed serial command := by
  have take : (serial ++ 58 :: command).take (serial.length + 1) = serial ++ [58] := by
    rw [List.append_cons, List.take_left' (by simp)]
  simp [finish, take, hc]

theorem port_digits (serial : Bytes) (hp : digits.all isDigit) (hc : command ≠ []) :
    HostService.port (serial ++ 58 :: (digits ++ 58 :: command)) (serial.length + 1) =
      .parsed (serial ++ 58 :: digits) command := by
  have colon : 58 ∉ digits := fun h => by cases (List.all_eq_true.mp hp 58 h)
  have length : serial.length + 1 + digits.length + 1 = (serial ++ 58 :: digits).length + 1 := by
    rw [List.length_append, List.length_cons]
    omega
  rw [HostService.port, drop_append_cons, findIdx?_append_cons colon]
  simp only [List.take_left, hp, if_true, length]
  rw [← List.cons_append, ← List.append_assoc, finish_append hc]

theorem port_command (hc : ¬(command.takeWhile (· != 58)).all isDigit) :
    HostService.port (serial ++ 58 :: command) (serial.length + 1) = .parsed serial command := by
  have ne : command ≠ [] := by
    rintro rfl
    exact hc rfl
  rw [HostService.port, drop_append_cons]
  cases hn : command.findIdx? (· == 58)
  case none => exact finish_append ne
  case some next =>
    have text : command.take next = command.takeWhile (· != 58) := by
      rw [List.takeWhile_eq_take_findIdx_not]
      simp only [bne, Bool.not_not, (List.findIdx?_eq_some_iff_findIdx_eq.mp hn).right]
    simp only [text, hc]
    exact finish_append ne

theorem address_append (pre : Bytes) (hb : (s ++ 58 :: rest).head? ≠ some 91) (h : 58 ∉ s) :
    address (pre ++ (s ++ 58 :: rest)) pre.length = some ((pre ++ s).length + 1) := by
  rw [address, List.drop_left]
  split
  case h_1 h' => simp [h'] at hb
  case h_2 => exact toColon_append h

theorem address_bracketed (h : 93 ∉ s) :
    address (pre ++ 91 :: (s ++ 93 :: 58 :: rest)) pre.length =
      some ((pre ++ 91 :: (s ++ [93])).length + 1) := by
  have cons : 91 :: (s ++ 93 :: 58 :: rest) = (91 :: s) ++ 93 :: 58 :: rest := rfl
  have closed : 93 ∉ (91 :: s : Bytes) := by simpa using h
  have drop : (pre ++ 91 :: (s ++ 93 :: 58 :: rest)).drop (pre.length + (91 :: s).length + 1) =
      58 :: rest := by
    rw [cons, List.append_cons (91 :: s), ← List.append_assoc, List.drop_left' (by simp; omega)]
  rw [address, List.drop_left]
  simp only [cons, findIdx?_append_cons closed]
  rw [← cons, drop]
  simp
  omega

theorem port_endpoint (pre : Bytes) (h : Endpoint e) (hc : ¬(command.takeWhile (· != 58)).all isDigit) :
    ((address (pre ++ (e ++ 58 :: command)) pre.length).map
      (port (pre ++ (e ++ 58 :: command)))).getD .invalid = .parsed (pre ++ e) command := by
  have ne : command ≠ [] := by
    rintro rfl
    exact hc rfl
  cases h
  case host h =>
    have head : (e ++ 58 :: command).head? ≠ some 91 := by
      rw [List.head?_append_of_ne_nil _ h.nonempty]
      exact h.unbracketed
    rw [address_append pre head h.colonFree, Option.map_some, Option.getD_some, ← List.append_assoc,
      port_command hc]
  case network s digits h hp =>
    have head : (s ++ 58 :: (digits ++ 58 :: command)).head? ≠ some 91 := by
      rw [List.head?_append_of_ne_nil _ h.nonempty]
      exact h.unbracketed
    rw [List.append_assoc, List.cons_append, address_append pre head h.colonFree, Option.map_some,
      Option.getD_some, ← List.append_assoc, port_digits _ hp ne, List.append_assoc]
  case bracketed s digits h hp =>
    have text : pre ++ (91 :: (s ++ 93 :: 58 :: digits) ++ 58 :: command) =
        pre ++ 91 :: (s ++ 93 :: 58 :: (digits ++ 58 :: command)) := by simp
    have serial : pre ++ 91 :: (s ++ 93 :: 58 :: (digits ++ 58 :: command)) =
        (pre ++ 91 :: (s ++ [93])) ++ 58 :: (digits ++ 58 :: command) := by simp
    rw [text, address_bracketed h, Option.map_some, Option.getD_some, serial, port_digits _ hp ne]
    simp

theorem eq_of_prefix_append (hw : 58 ∉ w) (hs : 58 ∉ s) (h : w ++ [58] <+: s ++ 58 :: rest) : w = s := by
  obtain ⟨tail, ht⟩ := h
  rw [List.append_assoc, List.singleton_append] at ht
  have length := (findIdx?_append_cons hw).symm.trans (ht ▸ findIdx?_append_cons hs)
  exact List.append_inj_left ht (Option.some.inj length)

theorem Endpoint.not_prefix (h : Endpoint e) (hw : w ∈ reserved) :
    ¬(w ++ [58]).isPrefixOf (e ++ 58 :: rest) := by
  have plain : ∀ w ∈ reserved, 58 ∉ w ∧ (w ++ [58]).head? ≠ some (91 : UInt8) := by decide
  have ⟨colonFree, head⟩ := plain w hw
  rw [List.isPrefixOf_iff_prefix]
  intro hp
  cases h
  case host h => exact h.unreserved (eq_of_prefix_append colonFree h.colonFree hp ▸ hw)
  case network s digits h _ =>
    rw [List.append_assoc, List.cons_append] at hp
    exact h.unreserved (eq_of_prefix_append colonFree h.colonFree hp ▸ hw)
  case bracketed =>
    obtain ⟨tail, ht⟩ := hp
    have := congrArg List.head? ht
    rw [List.head?_append_of_ne_nil _ (by simp)] at this
    exact head this

theorem parse_endpoint (h : Endpoint e) (hc : ¬(command.takeWhile (· != 58)).all isDigit) :
    parse (e ++ 58 :: command) = .parsed e command := by
  have qualifier : prefixes.find? (·.isPrefixOf (e ++ 58 :: command)) = none := by
    have words : ∀ p ∈ prefixes, ∃ w ∈ reserved, p = w ++ [58] := by decide
    rw [List.find?_eq_none]
    intro p hp
    obtain ⟨w, hw, rfl⟩ := words p hp
    exact h.not_prefix hw
  have tcp : ¬(ascii "tcp:").isPrefixOf (e ++ 58 :: command) :=
    h.not_prefix (w := ascii "tcp") (by decide)
  have udp : ¬(ascii "udp:").isPrefixOf (e ++ 58 :: command) :=
    h.not_prefix (w := ascii "udp") (by decide)
  have vsock : ¬(ascii "vsock:").isPrefixOf (e ++ 58 :: command) :=
    h.not_prefix (w := ascii "vsock") (by decide)
  have target := port_endpoint [] h hc
  simp only [List.nil_append, List.length_nil] at target
  simp [parse, qualifier, tcp, udp, vsock, target]

theorem parse_protocol (hp : w ∈ ["tcp:", "udp:"].map ascii) (h : Endpoint e)
    (hc : ¬(command.takeWhile (· != 58)).all isDigit) :
    parse (w ++ (e ++ 58 :: command)) = .parsed (w ++ e) command := by
  have vsock : ¬(ascii "vsock:").isPrefixOf (e ++ 58 :: command) :=
    h.not_prefix (w := ascii "vsock") (by decide)
  have target := port_endpoint w h hc
  have ⟨length, qualifier, protocol⟩ : w.length = 4 ∧
      prefixes.find? (·.isPrefixOf (w ++ (e ++ 58 :: command))) = none ∧
      ((ascii "tcp:").isPrefixOf (w ++ (e ++ 58 :: command)) ||
        (ascii "udp:").isPrefixOf (w ++ (e ++ 58 :: command))) = true := by
    simp only [List.map_cons, List.map_nil, List.mem_cons, List.not_mem_nil, or_false] at hp
    rcases hp with rfl | rfl <;> exact ⟨rfl, rfl, rfl⟩
  have drop : (w ++ (e ++ 58 :: command)).drop 4 = e ++ 58 :: command := length ▸ List.drop_left
  rw [length] at target
  simp [parse, qualifier, protocol, drop, vsock, target]

theorem parse_vsock (hs : 58 ∉ s) (hb : s.head? ≠ some 91) (hp : digits.all isDigit)
    (hc : command ≠ []) : parse (ascii "vsock:" ++ (s ++ 58 :: (digits ++ 58 :: command))) =
      .parsed (ascii "vsock:" ++ (s ++ 58 :: digits)) command := by
  have head : (s ++ 58 :: (digits ++ 58 :: command)).head? ≠ some 91 := by
    cases s
    case nil => simp
    case cons c s => exact hb
  have address := address_append (ascii "vsock:") head hs
  have ported := port_digits (ascii "vsock:" ++ s) hp hc
  rw [List.append_assoc, List.append_assoc] at ported
  rw [show (ascii "vsock:").length = 6 from rfl] at address
  have qualifier (text : Bytes) :
    prefixes.find? (·.isPrefixOf (ascii "vsock:" ++ text)) = none := rfl
  have tcp (text : Bytes) : (ascii "tcp:").isPrefixOf (ascii "vsock:" ++ text) = false := rfl
  have udp (text : Bytes) : (ascii "udp:").isPrefixOf (ascii "vsock:" ++ text) = false := rfl
  have vsock (text : Bytes) : (ascii "vsock:").isPrefixOf (ascii "vsock:" ++ text) = true := rfl
  rw [parse, if_neg (by simp [ascii]), qualifier]
  simp [tcp, udp, vsock, address, -List.length_append, ported]

theorem parse_qualified (hq : w ∈ ["usb:", "product:", "model:", "device:"].map ascii)
    (hv : 58 ∉ value) (hc : command ≠ []) :
    parse (w ++ (value ++ 58 :: command)) = .parsed (w ++ value) command := by
  have found : prefixes.find? (·.isPrefixOf (w ++ (value ++ 58 :: command))) = some w := by
    simp only [List.map_cons, List.map_nil, List.mem_cons, List.not_mem_nil, or_false] at hq
    rcases hq with rfl | rfl | rfl | rfl <;> rfl
  simp only [parse, found, toColon_append hv, Option.map_some, Option.getD_some]
  rw [if_neg (by simp), ← List.append_assoc, finish_append hc]

theorem parse_supported (hs : Supported serial) (hc : ¬(command.takeWhile (· != 58)).all isDigit) :
    parse (serial ++ 58 :: command) = .parsed serial command := by
  have ne : command ≠ [] := by
    rintro rfl
    exact hc rfl
  cases hs
  case endpoint h => exact parse_endpoint h hc
  case protocol hp h => rw [List.append_assoc, parse_protocol hp h hc]
  case vsock h hb hp =>
    rw [List.append_assoc, List.append_assoc, List.cons_append, parse_vsock h hb hp ne]
  case qualified hq hv => rw [List.append_assoc, parse_qualified hq hv ne]

end Serials

theorem formatHostCommand_parses (hs : Supported serial)
    (hc : ¬(command.takeWhile (· != 58)).all isDigit) (type : TransportType) :
    Views.parse (serial ++ 58 :: command) = .ok (some (serial, command)) ∧
    SmartRequest.ofService (formatHostCommand 0 (some serial) type command) =
      .host { service := command, serial } := by
  have parsed := parse_supported hs hc
  constructor
  case left =>
    have finished : ¬Views.Unfinished (serial ++ 58 :: command) := by
      intro hu
      have invalid : parse (serial ++ 58 :: command) = .invalid := by
        rcases hu with h | h | h <;> rw [h] <;> rfl
      cases invalid.symm.trans parsed
    rw [Views.parse_eq _ finished, parsed]
    rfl
  case right =>
    have ne : command ≠ [] := by
      rintro rfl
      exact hc rfl
    have request : formatHostCommand 0 (some serial) type command =
        ascii "host-serial:" ++ (serial ++ 58 :: command) := by
      simp [formatHostCommand, ascii]
    have consumed : (ascii "host-serial:" ++ (serial ++ 58 :: command)).consumePrefix "host-serial:" =
      some (serial ++ 58 :: command) := rfl
    rw [request, SmartRequest.ofService, consumed]
    simp only [parsed, SmartRequest.hostOr, ne, if_false]

theorem formatHostCommand_parses_vsock :
    Supported (ascii "vsock:3:5555") ∧
    Views.parse (ascii "vsock:3:5555:get-state") = .ok (some (ascii "vsock:3:5555", ascii "get-state")) := by
  have supported : Supported (ascii "vsock:" ++ (ascii "3" ++ 58 :: ascii "5555")) :=
    .vsock (by decide) (by decide) (by decide)
  exact ⟨supported, (@formatHostCommand_parses _ (ascii "get-state") supported (by decide) .any).left⟩

end HostService
