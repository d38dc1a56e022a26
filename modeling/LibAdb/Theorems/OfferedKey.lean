import LibAdb.Execution.Auth

namespace KeyStore

variable {crypto : Crypto} {v v' : KeyStore crypto} {config : AdbAuthConfig} {env : KeyEnvironment}

theorem mem_addKey : k' ∈ (v.addKey k).loaded ↔ k' ∈ v.loaded ∨ k' = k := by
  simp only [addKey]
  split
  case isTrue h =>
    obtain ⟨e, he, hf⟩ := List.any_eq_true.mp h
    have hk : e.2 = k := crypto.hashKey_injective <| (v.hashed e he).symm.trans (beq_iff_eq.mp hf)
    have known : k ∈ v.loaded := List.mem_map.mpr ⟨e, he, hk⟩
    exact ⟨.inl, fun h => h.elim id (· ▸ known)⟩
  case isFalse =>
    simp only [loaded, List.map_append, List.map_cons, List.mem_append, List.mem_cons]
    conv_rhs => rw [← List.takeWhile_append_dropWhile (p := (·.1 < crypto.hashKey k)) (l := v.keys),
      List.map_append, List.mem_append]
    tauto

def keysAt (crypto : Crypto) (d : KeyDisk) (path : Bytes) (allowDir : Bool) : List Key :=
  match d.node path with
  | some (.file _) => (readKeyFile crypto d path).toList
  | some (.directory (some names)) =>
    if allowDir then
      (names.filter isAdbKeyName).filterMap fun name => readKeyFile crypto d (path ++ 47 :: name)
    else []
  | _ => []

@[simp]
theorem addKey_disk : (v.addKey k).disk = v.disk := by
  simp only [addKey]
  split <;> rfl

@[simp]
theorem loadKey_disk : (v.loadKey file).1.disk = v.disk := by
  unfold loadKey
  split <;> simp

theorem mem_loadKey :
    k ∈ (v.loadKey file).1.loaded ↔ k ∈ v.loaded ∨ readKeyFile crypto v.disk file = some k := by
  unfold loadKey
  split
  case h_1 h => simp [h]
  case h_2 k' h => simp [h, mem_addKey, eq_comm]

-- The disk stays, and these keys come to the loaded ones.
def Loads (v v' : KeyStore crypto) (new : Key → Prop) : Prop :=
  v'.disk = v.disk ∧ ∀ k, k ∈ v'.loaded ↔ k ∈ v.loaded ∨ new k

theorem Loads.cons (P : KeyDisk → α → Key → Prop) (first : Loads v w (P v.disk x))
    (rest : Loads w v' fun k => ∃ y ∈ xs, P w.disk y k) :
    Loads v v' fun k => ∃ y ∈ x :: xs, P v.disk y k := by
  refine ⟨rest.left.trans first.left, fun k => (rest.right k).trans ?_⟩
  simp only [first.right, first.left, List.exists_mem_cons_iff, or_assoc]

theorem loadNames_spec (path : Bytes) (names : List Bytes) (b : Bool) :
    Loads v (names.foldl (fun (v, result) name =>
      let (v, ok) := v.loadKey (path ++ 47 :: name)
      (v, result || ok)) (v, b)).1 fun k =>
        ∃ name ∈ names, readKeyFile crypto v.disk (path ++ 47 :: name) = some k := by
  induction names generalizing v b
  case nil => simp [Loads]
  case cons name names ih =>
    exact .cons (fun d name k => readKeyFile crypto d (path ++ 47 :: name) = some k)
      ⟨loadKey_disk, fun _ => mem_loadKey⟩ (ih _)

theorem loadKeys_spec (v : KeyStore crypto) (path : Bytes) (allowDir : Bool) :
    Loads v (v.loadKeys path allowDir).1 (· ∈ keysAt crypto v.disk path allowDir) := by
  unfold Loads loadKeys keysAt
  split
  case h_1 h => simp [h]
  case h_2 h => simp [h]
  case h_3 h => simp [h, mem_loadKey]
  case h_4 names h =>
    split
    case h_1 names =>
      obtain ⟨disk, mem⟩ := loadNames_spec (v := v) path (names.filter isAdbKeyName) false
      refine ⟨disk, fun k => (mem k).trans ?_⟩
      simp [h]
    case h_2 hn => cases allowDir <;> cases names <;> simp_all

theorem loadAll_spec (paths : List Bytes) :
    Loads v (paths.foldl (fun v path => (v.loadKeys path true).1) v) fun k =>
      ∃ path ∈ paths, k ∈ keysAt crypto v.disk path true := by
  induction paths generalizing v
  case nil => simp [Loads]
  case cons path paths ih =>
    exact .cons (fun d path k => k ∈ keysAt crypto d path true) (loadKeys_spec v path true) ih

theorem loadKeyFiles_spec (h : v.loadKeyFiles files = (v', none)) :
    Loads v v' fun k => ∃ file ∈ files, k ∈ keysAt crypto v.disk file true := by
  induction files generalizing v
  case nil =>
    cases h
    simp [Loads]
  case cons file files ih =>
    have first := loadKeys_spec v file true
    unfold loadKeyFiles at h
    split at h
    case h_1 w hw =>
      rw [hw] at first
      exact .cons (fun d file k => k ∈ keysAt crypto d file true) first (ih h)
    case h_2 => cases h

def pemKey (crypto : Crypto) (pem : Bytes) : Option Key :=
  crypto.rsaPrivateKey pem <|> (crypto.privateKey pem).join

theorem loadKeyFromPem_spec (h : v.loadKeyFromPem pem label = (v', none)) :
    Loads v v' (pemKey crypto pem = some ·) := by
  have load (k : Key) (h : (if crypto.hashKey k = [] then
      (v, some (ascii "cannot hash public key for " ++ label)) else (v.addKey k, none)) =
        (v', none)) : Loads v v' (k = ·) := by
    split at h <;> cases h
    simp [Loads, mem_addKey, eq_comm]
  simp only [loadKeyFromPem] at h
  split at h
  case isTrue => cases h
  case isFalse =>
    split at h
    case h_1 k hk => simpa [pemKey, hk] using load k h
    case h_2 => cases h
    case h_3 => cases h
    case h_4 k hn hk => simpa [pemKey, hn, hk] using load k h

theorem loadPrivateKeysPem_spec (h : v.loadPrivateKeysPem i pems = (v', none)) :
    Loads v v' fun k => ∃ pem ∈ pems, pemKey crypto pem = some k := by
  induction pems generalizing v i
  case nil =>
    cases h
    simp [Loads]
  case cons pem pems ih =>
    simp only [loadPrivateKeysPem] at h
    split at h
    case h_1 w hw =>
      exact .cons (fun _ pem k => pemKey crypto pem = some k) (loadKeyFromPem_spec hw) (ih h)
    case h_2 => cases h

theorem mem_loadUserkey : k ∈ (v.loadUserkey env).1.loaded ↔ k ∈ v.loaded ∨
    (v.loadUserkey env).2 ∧
      readKeyFile crypto (v.loadUserkey env).1.disk env.userKeyPath = some k := by
  have key (w : KeyStore crypto) : k ∈ (w.loadKey env.userKeyPath).1.loaded ↔ k ∈ w.loaded ∨
      (w.loadKey env.userKeyPath).2 ∧
        readKeyFile crypto (w.loadKey env.userKeyPath).1.disk env.userKeyPath = some k := by
    rw [mem_loadKey, loadKey_disk]
    have ok (h : readKeyFile crypto w.disk env.userKeyPath = some k) :
        (w.loadKey env.userKeyPath).2 := by simp [loadKey, h]
    exact or_congr_right ⟨fun h => ⟨ok h, h⟩, And.right⟩
  simp only [loadUserkey]
  split
  case h_1 => exact key v
  case h_2 =>
    split
    case isTrue => exact key _
    case isFalse => simp [loaded]

-- The disk after the user's key was generated, if it had to be.
def diskFor (v : KeyStore crypto) (config : AdbAuthConfig) (env : KeyEnvironment) : KeyDisk :=
  if config.useDefaultKeyStore then (v.loadUserkey env).1.disk else v.disk

theorem loadDefaultKeyStore_spec :
    Loads (v.loadUserkey env).1 (v.loadDefaultKeyStore env) fun k =>
      ∃ path ∈ env.getVendorKeys, k ∈ keysAt crypto (v.loadUserkey env).1.disk path true :=
  loadAll_spec _

theorem mem_saveGeneratedKey : (v.saveGeneratedKey file k).1.loaded = v.loaded := by
  simp only [saveGeneratedKey]
  repeat' split
  all_goals rfl

theorem mem_generateEphemeral (h : v.generateEphemeral config env = (v', none)) :
    k ∈ v'.loaded ↔ k ∈ v.loaded ∨ env.ephemeral = some k := by
  simp only [generateEphemeral] at h
  split at h
  case h_1 => cases h
  case h_2 k' hk =>
    have same : v'.loaded = (v.addKey k').loaded := by
      split at h
      case isTrue => cases h; rfl
      case isFalse => rw [← mem_saveGeneratedKey (v := v.addKey k'), h]
    rw [same, mem_addKey, hk, Option.some.injEq, eq_comm (a := k)]

end KeyStore

-- The keys that the configuration names.
inductive AdbAuthConfig.Names {crypto : Crypto} (config : AdbAuthConfig) (v : KeyStore crypto)
    (env : KeyEnvironment) : Key → Prop
  | known (h : k ∈ v.loaded) : Names config v env k
  | user (hd : config.useDefaultKeyStore) (hu : (v.loadUserkey env).2)
    (hk : KeyStore.readKeyFile crypto (v.diskFor config env) env.userKeyPath = some k) :
    Names config v env k
  | vendor (hd : config.useDefaultKeyStore) (hp : path ∈ env.getVendorKeys)
    (hk : k ∈ KeyStore.keysAt crypto (v.diskFor config env) path true) : Names config v env k
  | file (hf : file ∈ config.keyFiles)
    (hk : k ∈ KeyStore.keysAt crypto (v.diskFor config env) file true) : Names config v env k
  | pem (hp : pem ∈ config.privateKeysPem) (hk : KeyStore.pemKey crypto pem = some k) :
    Names config v env k

-- With no such key, one is generated for the process.
def AdbAuthConfig.Provides {crypto : Crypto} (config : AdbAuthConfig) (v : KeyStore crypto)
    (env : KeyEnvironment) (k : Key) : Prop :=
  config.Names v env k ∨ (∀ k', ¬config.Names v env k') ∧ config.generateEphemeralIfEmpty ∧
    env.ephemeral = some k

namespace KeyStore

variable {crypto : Crypto} {v v' : KeyStore crypto} {config : AdbAuthConfig} {env : KeyEnvironment}

theorem names_iff : config.Names v env k ↔
    k ∈ (if config.useDefaultKeyStore then v.loadDefaultKeyStore env else v).loaded ∨
      (∃ file ∈ config.keyFiles, k ∈ keysAt crypto (v.diskFor config env) file true) ∨
      ∃ pem ∈ config.privateKeysPem, pemKey crypto pem = some k := by
  constructor
  case mp =>
    intro h
    cases h
    case known h =>
      refine .inl ?_
      split
      · exact (loadDefaultKeyStore_spec.2 k).mpr (.inl (mem_loadUserkey.mpr (.inl h)))
      · exact h
    case user hd hu hk =>
      rw [diskFor, if_pos hd] at hk
      rw [if_pos hd]
      exact .inl <| (loadDefaultKeyStore_spec.2 k).mpr (.inl (mem_loadUserkey.mpr (.inr ⟨hu, hk⟩)))
    case vendor path hd hp hk =>
      rw [diskFor, if_pos hd] at hk
      rw [if_pos hd]
      exact .inl <| (loadDefaultKeyStore_spec.2 k).mpr (.inr ⟨path, hp, hk⟩)
    case file file hf hk => exact .inr (.inl ⟨file, hf, hk⟩)
    case pem pem hp hk => exact .inr (.inr ⟨pem, hp, hk⟩)
  case mpr =>
    rintro (h | ⟨file, hf, hk⟩ | ⟨pem, hp, hk⟩)
    · split at h
      case isTrue hd =>
        have hdisk : v.diskFor config env = (v.loadUserkey env).1.disk := if_pos hd
        rcases (loadDefaultKeyStore_spec.2 k).mp h with h | ⟨path, hp, hk⟩
        · obtain h | ⟨hu, hk⟩ := mem_loadUserkey.mp h
          · exact .known h
          · exact .user hd hu (hdisk ▸ hk)
        · exact .vendor hd hp (hdisk ▸ hk)
      case isFalse => exact .known h
    · exact .file hf hk
    · exact .pem hp hk

theorem mem_adbAuthInitEx (h : v.adbAuthInitEx config env = (v', none)) :
    k ∈ v'.loaded ↔ config.Provides v env k := by
  have hdisk : (if config.useDefaultKeyStore then v.loadDefaultKeyStore env else v).disk =
      v.diskFor config env := by
    unfold diskFor
    split
    · exact loadDefaultKeyStore_spec.1
    · rfl
  simp only [adbAuthInitEx] at h
  split at h
  case h_1 => cases h
  case h_2 w₁ h₁ =>
    have ⟨disk₁, mem₁⟩ := loadKeyFiles_spec h₁
    split at h
    case h_1 => cases h
    case h_2 w₂ h₂ =>
      have ⟨disk₂, mem₂⟩ := loadPrivateKeysPem_spec h₂
      have named (k : Key) : k ∈ w₂.loaded ↔ config.Names v env k := by
        rw [names_iff, mem₂, mem₁, hdisk, or_assoc]
      have empty : w₂.keys = [] ↔ ∀ k, ¬config.Names v env k := by
        simp only [← named, loaded, ← List.eq_nil_iff_forall_not_mem, List.map_eq_nil_iff]
      unfold AdbAuthConfig.Provides
      split at h
      case isTrue hg =>
        simp only [Bool.and_eq_true, decide_eq_true_eq] at hg
        have none := empty.mp hg.1
        simp only [mem_generateEphemeral h, named, none, hg.2, false_or, not_false_iff,
          implies_true, true_and]
      case isFalse hg =>
        cases h
        simp only [Bool.and_eq_true, decide_eq_true_eq, empty, not_and] at hg
        rw [named]
        exact ⟨.inl, fun h => h.elim id fun ⟨he, hg', _⟩ => absurd hg' (hg he)⟩

theorem mem_adbAuthInotifyUpdate (events : List (KeyDisk × Bytes)) :
    k ∈ (v.adbAuthInotifyUpdate events).loaded ↔
      k ∈ v.loaded ∨ ∃ e ∈ events, k ∈ keysAt crypto e.1 e.2 false := by
  unfold adbAuthInotifyUpdate
  induction events generalizing v
  case nil => simp
  case cons e events ih =>
    have mem := (loadKeys_spec { v with disk := e.1 } e.2 false).2 k
    rw [List.foldl_cons, ih, mem, List.exists_mem_cons_iff, or_assoc]
    rfl

theorem publicKey_sent {s : Looper} (hl : (s.sendAuthResponse t token os).log = s.log ++ es)
    (hs : .sent src u p ∈ es) (ha : p.arg0 = adbAuthRsaPublicKey) :
    os.userKey ≠ [] ∧ p.payload = os.userKey ++ [0] := by
  have silent (h : s.log = s.log ++ es) : False := by
    rw [List.self_eq_append_right.mp h] at hs
    cases hs
  have single {e : Effect} (h : s.log ++ [e] = s.log ++ es) : e = .sent src u p := by
    rw [← List.append_cancel_left h] at hs
    exact (List.mem_singleton.mp hs).symm
  simp only [Looper.sendAuthResponse, Looper.sendAuthPublickey] at hl
  split at hl
  case h_1 =>
    split_ifs at hl with hd hu
    · exact (silent hl).elim
    · exact (silent hl).elim
    · have h := single hl
      simp only [Bool.or_eq_true, decide_eq_true_eq, not_or] at hu
      simp only [Effect.sent.injEq] at h
      rw [← h.2.2]
      exact ⟨hu.1, rfl⟩
  case h_2 =>
    split_ifs at hl
    · exact (silent hl).elim
    · have h := single hl
      simp only [Effect.sent.injEq] at h
      rw [← h.2.2] at ha
      exact absurd (show adbAuthSignature = adbAuthRsaPublicKey from ha) (by decide)

-- The host offers the key in the user's key file, whatever keys it was told to use.
theorem offered_key_loaded_iff {files : KeyDisk} (events : List (KeyDisk × Bytes))
    (ha : v.adbAuthInitEx config env = (v', none))
    (hl : ((v'.adbAuthInotifyUpdate events).sendAuthResponse files env s t token os).log =
      s.log ++ es)
    (hs : .sent src u p ∈ es) (hp : p.arg0 = adbAuthRsaPublicKey) :
    (∃ k ∈ (v'.adbAuthInotifyUpdate events).loaded, ∃ text,
        crypto.calculatePublicKey k = some text ∧ p.payload = text ++ [0]) ↔
      ∃ k, readKeyFile crypto files env.userKeyPath = some k ∧
        (config.Provides v env k ∨ ∃ e ∈ events, k ∈ keysAt crypto e.1 e.2 false) := by
  have ⟨nonempty, payload⟩ := publicKey_sent hl hs hp
  simp only [adbAuthGetUserkey] at nonempty payload
  simp only [mem_adbAuthInotifyUpdate, mem_adbAuthInitEx ha]
  cases hr : readKeyFile crypto files env.userKeyPath
  case none => simp [hr] at nonempty
  case some k₀ =>
    cases ht : crypto.calculatePublicKey k₀
    case none => simp [hr, ht] at nonempty
    case some text₀ =>
      simp only [hr, ht, Option.bind_some, Option.getD_some] at payload
      constructor
      case mp =>
        rintro ⟨k, hk, text, hk', hpay⟩
        have same : text = text₀ := List.append_cancel_right (hpay.symm.trans payload)
        have : k = k₀ := crypto.publicKey_injective k k₀ text₀ (same ▸ hk') ht
        exact ⟨k₀, rfl, this ▸ hk⟩
      case mpr =>
        rintro ⟨k, hk₀, hk⟩
        cases hk₀
        exact ⟨k₀, hk, text₀, ht, payload⟩

-- A library whose keys are told apart by the length of their texts.
def lengthCrypto : Crypto where
  rsaPrivateKey pem := some pem.length
  privateKey _ := none
  privatePem k := List.replicate k 1
  hashKey k := List.replicate (k + 1) 2
  calculatePublicKey k := some (List.replicate (k + 1) 3)
  hashKey_injective k k' h := by simpa using congrArg List.length h
  publicKey_injective k k' text h h' := by
    simpa using congrArg List.length (Option.some.inj (h.trans h'.symm))

def keyFileEnvironment : KeyEnvironment where
  userKeyPath := ascii "adbkey"

def keyFileDisk : KeyDisk where
  node path := if path = ascii "adbkey" then some (.file (some [1, 1])) else none

def lastKeyTried : Looper where
  transports _ := { keys := [some 0, none] }

def respondLast (v : KeyStore lengthCrypto) : List Effect :=
  (v.sendAuthResponse keyFileDisk keyFileEnvironment lastKeyTried 0 [] {}).log

def offers (k : Key) : Effect → Bool
  | .sent _ _ p => p.arg0 == adbAuthRsaPublicKey && p.payload == List.replicate (k + 1) 3 ++ [0]
  | _ => false

theorem exists_of_offers {es : List Effect} (h : es.any (offers k)) : ∃ src u p, .sent src u p ∈ es ∧
    p.arg0 = adbAuthRsaPublicKey ∧ p.payload = List.replicate (k + 1) 3 ++ [0] := by
  obtain ⟨e, he, ho⟩ := List.any_eq_true.mp h
  cases e
  case sent src u p =>
    simp only [offers, Bool.and_eq_true, beq_iff_eq] at ho
    exact ⟨src, u, p, he, ho⟩
  all_goals cases ho

def keyFileStore : KeyStore lengthCrypto where
  disk := keyFileDisk

theorem offered_key_loaded_from_default_store :
    ∃ v, keyFileStore.adbAuthInitEx {} keyFileEnvironment = (v, none) ∧
      ∃ src u p, .sent src u p ∈ respondLast v ∧ p.arg0 = adbAuthRsaPublicKey ∧
        ∃ k ∈ v.loaded, ∃ text,
          lengthCrypto.calculatePublicKey k = some text ∧ p.payload = text ++ [0] := by
  have accepted : (keyFileStore.adbAuthInitEx {} keyFileEnvironment).2 = none := by
    decide +kernel
  have sent : (respondLast (keyFileStore.adbAuthInitEx {} keyFileEnvironment).1).any (offers 2) := by
    decide +kernel
  have user : readKeyFile lengthCrypto keyFileDisk (ascii "adbkey") = some 2 := by decide +kernel
  have named : AdbAuthConfig.Names {} keyFileStore keyFileEnvironment 2 :=
    .user rfl (by decide +kernel) (by decide +kernel)
  have ⟨src, u, p, hs, hp, _⟩ := exists_of_offers sent
  generalize h : keyFileStore.adbAuthInitEx {} keyFileEnvironment = result at accepted hs
  obtain ⟨v, error⟩ := result
  cases accepted
  have hl : ((v.adbAuthInotifyUpdate []).sendAuthResponse keyFileDisk keyFileEnvironment
      lastKeyTried 0 [] {}).log = lastKeyTried.log ++ respondLast v := rfl
  refine ⟨v, rfl, src, u, p, hs, hp, ?_⟩
  exact (offered_key_loaded_iff [] h hl hs hp).mpr ⟨2, user, .inl (.inl named)⟩

def pemConfig : AdbAuthConfig where
  privateKeysPem := [[1, 1, 1]]
  useDefaultKeyStore := false

-- The only key is given as a text, and the one in the user's key file is offered.
theorem offered_key_not_loaded :
    ∃ v, keyFileStore.adbAuthInitEx pemConfig keyFileEnvironment = (v, none) ∧
      ∃ src u p, .sent src u p ∈ respondLast v ∧ p.arg0 = adbAuthRsaPublicKey ∧
        ∀ k ∈ v.loaded, ∀ text, lengthCrypto.calculatePublicKey k = some text →
          p.payload ≠ text ++ [0] := by
  have accepted : (keyFileStore.adbAuthInitEx pemConfig keyFileEnvironment).2 = none := by
    decide +kernel
  have loaded : (keyFileStore.adbAuthInitEx pemConfig keyFileEnvironment).1.loaded = [3] := by
    decide +kernel
  have sent : (respondLast (keyFileStore.adbAuthInitEx pemConfig keyFileEnvironment).1).any
      (offers 2) := by
    decide +kernel
  have ⟨src, u, p, hs, hp, payload⟩ := exists_of_offers sent
  generalize keyFileStore.adbAuthInitEx pemConfig keyFileEnvironment = result at *
  obtain ⟨v, error⟩ := result
  cases accepted
  refine ⟨v, rfl, src, u, p, hs, hp, fun k hk text ht => ?_⟩
  rw [loaded, List.mem_singleton] at hk
  subst hk
  cases ht
  rw [payload]
  decide

end KeyStore
