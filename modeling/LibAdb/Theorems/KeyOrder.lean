import LibAdb.Execution.HandlePacket

-- The order in which the keys are tried: the queue of a transport is filled at the first token and
-- moves on by one key with each further one.

namespace Looper

variable {s s' : Looper} {t : Tid} {os : Os} {p : Apacket} {k : Key}

-- The only thing that is sent is an `AUTH` packet with these contents.
def Answers (s s' : Looper) (t : Tid) (arg0 : UInt32) (payload : Bytes) : Prop :=
  ∃ p : Apacket, s'.log = s.log ++ [.sent none t p] ∧
    p.kind = some .auth ∧ p.arg0 = arg0 ∧ p.payload = payload

def queue (s : Looper) (t : Tid) : List (Option Key) :=
  ((s.transports t).nextKey s.keys).keys

def signer (s : Looper) (t : Tid) : Option Key :=
  (s.queue t).head?.join

-- A packet with a token on a connection that does not use TLS.
structure Token (s : Looper) (t : Tid) (p : Apacket) : Prop where
  framed : p.payload.length = p.dataLength.toNat
  kind   : p.kind = some .auth
  arg0   : p.arg0 = adbAuthToken
  plain  : (s.transports t).useTls = false
  size   : p.payload.length = tokenSize

theorem answers_sendPacket (hl : s'.log = s.log) (arg0 : UInt32) (payload : Bytes) :
    Answers s (s'.sendPacket none t (.make .auth arg0 0 payload)) t arg0 payload := by
  rw [Answers, sendPacket, emit, hl]
  exact ⟨_, rfl, Command.ofWord_word .auth, rfl, rfl⟩

namespace Token

def authorizing (s : Looper) (t : Tid) : Looper :=
  s.setTransport t { s.transports t with connectionState := .authorizing }

theorem handlePacket_eq (h : Token s t p) :
    s.handlePacket t p os = (authorizing s t).sendAuthResponse t p.payload os := by
  have plain : ¬(s.transports t).useTls = true := by simp [h.plain]
  rw [handlePacket, if_neg (not_not_intro h.framed), h.kind]
  show handleAuth s t p os = _
  rw [handleAuth, if_neg plain, if_pos h.arg0]
  rfl

theorem keys_authorizing (s : Looper) (t : Tid) :
    (((authorizing s t).transports t).nextKey (authorizing s t).keys).keys = s.queue t := by
  simp [authorizing, setTransport, ATransport.nextKey, queue]

theorem key_authorizing (s : Looper) (t : Tid) :
    (((authorizing s t).transports t).nextKey (authorizing s t).keys).key = s.signer t := by
  rw [ATransport.key, keys_authorizing, signer]

theorem signed (h : Token s t p) (hk : s.signer t = some k) (hs : os.rsaSign k p.payload ≠ []) :
    Answers s (s.handlePacket t p os) t adbAuthSignature (os.rsaSign k p.payload) ∧
      ((s.handlePacket t p os).transports t).keys = s.queue t := by
  have signature : authSign k p.payload os = os.rsaSign k p.payload := if_pos h.size
  rw [h.handlePacket_eq, sendAuthResponse]
  simp only [key_authorizing, hk, signature, if_neg hs]
  refine ⟨answers_sendPacket rfl _ _, ?_⟩
  rw [← keys_authorizing]
  simp only [sendPacket, emit, setTransport, if_true]

theorem sendAuthPublickey_transports (s : Looper) (t : Tid) (os : Os) :
    (s.sendAuthPublickey t os).transports = s.transports := by
  rw [sendAuthPublickey]
  split
  case isTrue => rfl
  case isFalse =>
    split
    case isTrue => rfl
    case isFalse => rfl

theorem answers_sendAuthPublickey_iff (hl : s'.log = s.log) :
    Answers s (s'.sendAuthPublickey t os) t adbAuthRsaPublicKey (os.userKey ++ [0]) ↔
      os.androidDir ∧ os.userKey ≠ [] ∧ os.userKey.length < Apacket.maxPayloadV1 := by
  have silent {s₁ : Looper} (h : s₁.log = s.log) :
      ¬Answers s s₁ t adbAuthRsaPublicKey (os.userKey ++ [0]) := by
    rintro ⟨p, sent, -⟩
    rw [h] at sent
    simp at sent
  rw [sendAuthPublickey]
  split
  case isTrue hd =>
    refine iff_of_false (silent hl) ?_
    rintro ⟨dir, -⟩
    simp [dir] at hd
  case isFalse hd =>
    split
    case isTrue hu =>
      refine iff_of_false (silent hl) ?_
      rintro ⟨-, nonempty, short⟩
      simp only [nonempty, decide_false, Bool.false_or, decide_eq_true_eq] at hu
      omega
    case isFalse hu =>
      refine iff_of_true (answers_sendPacket hl _ _) ?_
      simpa using And.intro hd hu

theorem offered (h : Token s t p) (hk : s.signer t = none) :
    ((s.handlePacket t p os).transports t).connectionState = .unauthorized ∧
      (Answers s (s.handlePacket t p os) t adbAuthRsaPublicKey (os.userKey ++ [0]) ↔
        os.androidDir ∧ os.userKey ≠ [] ∧ os.userKey.length < Apacket.maxPayloadV1) := by
  rw [h.handlePacket_eq, sendAuthResponse]
  simp only [key_authorizing, hk]
  refine ⟨?_, answers_sendAuthPublickey_iff rfl⟩
  rw [sendAuthPublickey_transports]
  simp [setTransport]

theorem useTls (h : Token s t p) : ((s.handlePacket t p os).transports t).useTls = false := by
  have plain : (((authorizing s t).transports t).nextKey (authorizing s t).keys).useTls = false := by
    simp [authorizing, setTransport, ATransport.nextKey, h.plain]
  rw [h.handlePacket_eq, sendAuthResponse]
  split
  case h_1 =>
    rw [sendAuthPublickey_transports]
    simpa [setTransport] using plain
  case h_2 =>
    simp only
    split
    case isTrue => simpa [setTransport] using plain
    case isFalse => simpa [setTransport, sendPacket, emit] using plain

end Token

end Looper

-- The tokens of a connection that starts with an empty queue, with what the looper is before each of
-- them. In between anything may happen that leaves the queue alone.
structure TokenExchange (t : Tid) where
  before : Nat → Looper
  packet : Nat → Apacket
  os     : Nat → Os
  fresh  : ((before 0).transports t).keys = []
  token  : ∀ i, Looper.Token (before i) t (packet i)
  signs  : ∀ i, ∀ k ∈ (before 0).keys, (os i).rsaSign k (packet i).payload ≠ []
  kept   : ∀ i, ((before (i + 1)).transports t).keys =
    (((before i).handlePacket t (packet i) (os i)).transports t).keys

namespace TokenExchange

variable {t : Tid} (x : TokenExchange t)

def after (i : Nat) : Looper :=
  (x.before i).handlePacket t (x.packet i) (x.os i)

def known : List Key :=
  (x.before 0).keys

def signer (i : Nat) : Option Key :=
  (x.before i).signer t

theorem queue_eq (hi : i ≤ x.known.length) :
    (x.before i).queue t = (x.known.map some ++ [none]).drop i := by
  induction i
  case zero =>
    rw [Looper.queue, ATransport.nextKey, if_pos x.fresh]
    rfl
  case succ i hq =>
    have tried : i < x.known.length := hi
    have queue := hq (Nat.le_of_lt tried)
    have left : (x.known.map some ++ [none]).drop i =
        some (x.known.get ⟨i, tried⟩) :: (x.known.map some ++ [none]).drop (i + 1) := by
      rw [List.drop_eq_getElem_cons (by simp; omega)]
      simp [tried]
    have key : x.signer i = some (x.known.get ⟨i, tried⟩) := by
      rw [signer, Looper.signer, queue, left]
      rfl
    have signs := x.signs i _ (List.get_mem x.known ⟨i, tried⟩)
    have keys := ((x.token i).signed key signs).2
    rw [queue, left, ← x.kept i] at keys
    rw [Looper.queue, ATransport.nextKey, keys, if_neg (List.cons_ne_nil _ _), List.tail_cons]

theorem signer_eq (hi : i < x.known.length) : x.signer i = some (x.known.get ⟨i, hi⟩) := by
  rw [signer, Looper.signer, x.queue_eq (Nat.le_of_lt hi), List.head?_drop,
    List.getElem?_append_left (by simpa using hi)]
  simp [hi]

theorem signer_last : x.signer x.known.length = none := by
  rw [signer, Looper.signer, x.queue_eq (Nat.le_refl _), List.head?_drop]
  simp

theorem keys_tried_in_order (x : TokenExchange t) :
    (List.range x.known.length).map x.signer = x.known.map some ∧
    (∀ i < x.known.length, ∃ k, x.signer i = some k ∧ Looper.Answers (x.before i) (x.after i) t
      adbAuthSignature ((x.os i).rsaSign k (x.packet i).payload)) ∧
    ((x.after x.known.length).transports t).connectionState = .unauthorized ∧
    (Looper.Answers (x.before x.known.length) (x.after x.known.length) t adbAuthRsaPublicKey
        ((x.os x.known.length).userKey ++ [0]) ↔
      (x.os x.known.length).androidDir ∧ (x.os x.known.length).userKey ≠ [] ∧
        (x.os x.known.length).userKey.length < Apacket.maxPayloadV1) := by
  refine ⟨?_, ?_, (x.token _).offered x.signer_last⟩
  · apply List.ext_getElem
    · simp
    · intro i hi _
      have tried : i < x.known.length := by simpa using hi
      simp [x.signer_eq tried]
  · intro i hi
    have signs := x.signs i _ (List.get_mem x.known ⟨i, hi⟩)
    exact ⟨_, x.signer_eq hi, ((x.token i).signed (x.signer_eq hi) signs).1⟩

section Repeated

variable {s : Looper} {p : Apacket}

def repeated (s : Looper) (t : Tid) (p : Apacket) (os : Os) : Nat → Looper
  | 0 => s
  | n + 1 => (repeated s t p os n).handlePacket t p os

theorem token_repeated (os : Os) (h : Looper.Token s t p) (i : Nat) :
    Looper.Token (repeated s t p os i) t p := by
  induction i
  case zero => exact h
  case succ i hi => exact { hi with plain := hi.useTls }

def ofToken (os : Os) (h : Looper.Token s t p) (fresh : (s.transports t).keys = [])
    (signs : ∀ k ∈ s.keys, os.rsaSign k p.payload ≠ []) : TokenExchange t where
  before   := repeated s t p os
  packet _ := p
  os _     := os
  fresh    := fresh
  token    := token_repeated os h
  signs _  := signs
  kept _   := rfl

end Repeated

def oneKey : Looper where
  keys := [7]

def someToken : Apacket :=
  .make .auth adbAuthToken 0 (List.replicate tokenSize 1)

theorem oneKey_token : Looper.Token oneKey 0 someToken :=
  ⟨by decide, by decide, rfl, rfl, by decide⟩

-- The loaded key signs the first token, and the second one is answered with the user's key.
def offered : TokenExchange 0 :=
  ofToken { rsaSign := fun _ _ => [1], userKey := [9] } oneKey_token rfl (by decide)

theorem keys_tried_then_offered : offered.known = [7] ∧
    Looper.Answers (offered.before 0) (offered.after 0) 0 adbAuthSignature [1] ∧
    Looper.Answers (offered.before 1) (offered.after 1) 0 adbAuthRsaPublicKey [9, 0] := by
  have ⟨_, signed, _, answered⟩ := keys_tried_in_order offered
  have ⟨_, _, first⟩ := signed 0 (by decide)
  exact ⟨rfl, first, answered.mpr (by decide)⟩

-- The host has a key, which was not loaded from the user's key file, and there is no such file.
def unoffered : TokenExchange 0 :=
  ofToken { rsaSign := fun _ _ => [1], userKey := [] } oneKey_token rfl (by decide)

theorem unoffered_silent : unoffered.known = [7] ∧
    (unoffered.after 1).log = (unoffered.before 1).log := by
  decide +kernel

end TokenExchange
