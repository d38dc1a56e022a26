import LibAdb.Execution.HandlePacket

-- What is at a path. The content of a file that cannot be opened and the names in a directory that
-- cannot be listed are `none`.
inductive KeyNode where
  | file (content : Option Bytes)
  | directory (names : Option (List Bytes))
  | other
  deriving DecidableEq, Repr

structure KeyDisk where
  node    : Bytes → Option KeyNode := fun _ => none
  -- Whether a file can be created, and whether it then takes all of the data.
  creates : Bytes → Bool := fun _ => true
  writes  : Bytes → Bool := fun _ => true

def KeyDisk.write (d : KeyDisk) (file content : Bytes) : KeyDisk :=
  { d with node := fun path => if path = file then some (.file (some content)) else d.node path }

-- The functions of the cryptographic library. A key is an identity here, so that the fingerprint and
-- the text of its public half tell it from the others.
structure Crypto where
  -- `PEM_read_RSAPrivateKey`, and `PEM_read_bio_PrivateKey` with the RSA key in its result.
  rsaPrivateKey       : Bytes → Option Key
  privateKey          : Bytes → Option (Option Key)
  privatePem          : Key → Bytes
  hashKey             : Key → Bytes
  calculatePublicKey  : Key → Option Bytes
  hashKey_injective   : Function.Injective hashKey
  publicKey_injective : ∀ k k' text, calculatePublicKey k = some text →
    calculatePublicKey k' = some text → k = k'

structure AdbAuthConfig where
  keyFiles                 : List Bytes := []
  privateKeysPem           : List Bytes := []
  useDefaultKeyStore       : Bool := true
  generateEphemeralIfEmpty : Bool := true
  saveGeneratedKeyTo       : Bytes := []

-- The path of the user's key, the value of `ADB_VENDOR_KEYS` and the keys that are created when one
-- has to be generated.
structure KeyEnvironment where
  userKeyPath : Bytes
  vendorKeys  : Option Bytes := none
  generated   : Option Key := none
  ephemeral   : Option Key := none

def KeyEnvironment.getVendorKeys (env : KeyEnvironment) : List Bytes :=
  match env.vendorKeys with
  | none => []
  | some paths => (paths.splitOn 58).dedup

-- The loaded keys by their fingerprints.
structure KeyStore (crypto : Crypto) where
  disk   : KeyDisk := {}
  keys   : List (Bytes × Key) := []
  hashed : ∀ e ∈ keys, e.1 = crypto.hashKey e.2 := by simp

namespace KeyStore

variable {crypto : Crypto}

def loaded (v : KeyStore crypto) : List Key :=
  v.keys.map (·.2)

-- A key whose fingerprint is known already is ignored.
def addKey (v : KeyStore crypto) (k : Key) : KeyStore crypto :=
  let fingerprint := crypto.hashKey k
  if v.keys.any (·.1 == fingerprint) then v
  else
    { v with
      keys := v.keys.takeWhile (·.1 < fingerprint) ++
        (fingerprint, k) :: v.keys.dropWhile (·.1 < fingerprint)
      hashed := fun e he => by
        rw [List.mem_append, List.mem_cons] at he
        rcases he with he | rfl | he
        · exact v.hashed e ((List.takeWhile_prefix _).subset he)
        · rfl
        · exact v.hashed e ((List.dropWhile_suffix _).subset he) }

def readKeyFile (crypto : Crypto) (d : KeyDisk) (file : Bytes) : Option Key :=
  match d.node file with
  | some (.file (some content)) => crypto.rsaPrivateKey content
  | _ => none

def loadKey (v : KeyStore crypto) (file : Bytes) : KeyStore crypto × Bool :=
  match readKeyFile crypto v.disk file with
  | none => (v, false)
  | some k => (v.addKey k, true)

def isAdbKeyName (name : Bytes) : Bool :=
  name ≠ ascii "." && name ≠ ascii ".." && (ascii ".adb_key").isSuffixOf name

def loadDirectory (v : KeyStore crypto) (path : Bytes) (names : List Bytes) :
    KeyStore crypto × Bool :=
  (names.filter isAdbKeyName).foldl (fun (v, result) name =>
    let (v, ok) := v.loadKey (path ++ 47 :: name)
    (v, result || ok)) (v, false)

def loadKeys (v : KeyStore crypto) (path : Bytes) (allowDir : Bool) : KeyStore crypto × Bool :=
  match v.disk.node path with
  | none | some .other => (v, false)
  | some (.file _) => v.loadKey path
  | some (.directory names) =>
    match allowDir, names with
    | true, some names => v.loadDirectory path names
    | _, _ => (v, false)

-- The key and, next to it, the text of its public half.
def generateKey (crypto : Crypto) (d : KeyDisk) (file : Bytes) (generated : Option Key) :
    KeyDisk × Bool :=
  match generated, generated.bind crypto.calculatePublicKey with
  | some k, some text =>
    if !d.creates file then (d, false)
    else if !d.writes file then (d.write file [], false)
    else
      let d := d.write file (crypto.privatePem k)
      let file := file ++ ascii ".pub"
      if d.creates file && d.writes file then (d.write file text, true) else (d, false)
  | _, _ => (d, false)

def loadUserkey (v : KeyStore crypto) (env : KeyEnvironment) : KeyStore crypto × Bool :=
  match v.disk.node env.userKeyPath with
  | some _ => v.loadKey env.userKeyPath
  | none =>
    let (disk, ok) := generateKey crypto v.disk env.userKeyPath env.generated
    let v := { v with disk }
    if ok then v.loadKey env.userKeyPath else (v, false)

-- An error of the following functions is the text that is reported.
def loadKeyFromPem (v : KeyStore crypto) (pem label : Bytes) : KeyStore crypto × Option Bytes :=
  let load (k : Key) : KeyStore crypto × Option Bytes :=
    if crypto.hashKey k = [] then (v, some (ascii "cannot hash public key for " ++ label))
    else (v.addKey k, none)
  if pem = [] then (v, some (ascii "empty PEM for " ++ label))
  else match crypto.rsaPrivateKey pem, crypto.privateKey pem with
    | some k, _ => load k
    | none, none => (v, some (ascii "cannot parse PEM private key for " ++ label))
    | none, some none => (v, some (ascii "PEM key for " ++ label ++ ascii " is not an RSA key"))
    | none, some (some k) => load k

def loadKeyFiles (v : KeyStore crypto) : List Bytes → KeyStore crypto × Option Bytes
  | [] => (v, none)
  | file :: files =>
    match v.loadKeys file true with
    | (v, true) => v.loadKeyFiles files
    | (v, false) => (v, some (ascii "cannot load key file '" ++ file ++ ascii "'"))

def loadPrivateKeysPem (v : KeyStore crypto) (i : Nat) : List Bytes → KeyStore crypto × Option Bytes
  | [] => (v, none)
  | pem :: pems =>
    let label := ascii "private_keys_pem[" ++ ascii (toString i) ++ ascii "]"
    match v.loadKeyFromPem pem label with
    | (v, none) => v.loadPrivateKeysPem (i + 1) pems
    | (v, some error) => (v, some error)

def saveGeneratedKey (v : KeyStore crypto) (file : Bytes) (k : Key) :
    KeyStore crypto × Option Bytes :=
  match crypto.calculatePublicKey k with
  | none => (v, some (ascii "cannot calculate public key for save_generated_key_to"))
  | some text =>
    if !v.disk.creates file then
      (v, some (ascii "cannot open '" ++ file ++ ascii "' for writing"))
    else if !v.disk.writes file then
      ({ v with disk := v.disk.write file [] },
        some (ascii "cannot write generated key to '" ++ file ++ ascii "'"))
    else
      let disk := v.disk.write file (crypto.privatePem k)
      let publicFile := file ++ ascii ".pub"
      if disk.creates publicFile && disk.writes publicFile then
        ({ v with disk := disk.write publicFile text }, none)
      else
        ({ v with disk },
          some (ascii "cannot write generated public key to '" ++ file ++ ascii ".pub'"))

def generateEphemeral (v : KeyStore crypto) (config : AdbAuthConfig) (env : KeyEnvironment) :
    KeyStore crypto × Option Bytes :=
  match env.ephemeral with
  | none => (v, some (ascii "failed to generate an ephemeral key"))
  | some k =>
    let v := v.addKey k
    if config.saveGeneratedKeyTo = [] then (v, none)
    else v.saveGeneratedKey config.saveGeneratedKeyTo k

def loadDefaultKeyStore (v : KeyStore crypto) (env : KeyEnvironment) : KeyStore crypto :=
  env.getVendorKeys.foldl (fun v path => (v.loadKeys path true).1) (v.loadUserkey env).1

def adbAuthInitEx (v : KeyStore crypto) (config : AdbAuthConfig) (env : KeyEnvironment) :
    KeyStore crypto × Option Bytes :=
  let v := if config.useDefaultKeyStore then v.loadDefaultKeyStore env else v
  match v.loadKeyFiles config.keyFiles with
  | (v, some error) => (v, some error)
  | (v, none) =>
    match v.loadPrivateKeysPem 0 config.privateKeysPem with
    | (v, some error) => (v, some error)
    | (v, none) =>
      if v.keys = [] && config.generateEphemeralIfEmpty then v.generateEphemeral config env
      else (v, none)

-- The files that are seen in the monitored directories later on, each with the disk at that time.
def adbAuthInotifyUpdate (v : KeyStore crypto) (events : List (KeyDisk × Bytes)) : KeyStore crypto :=
  events.foldl (fun v (disk, path) => ({ v with disk }.loadKeys path false).1) v

def adbAuthGetUserkey (crypto : Crypto) (d : KeyDisk) (env : KeyEnvironment) : Bytes :=
  ((readKeyFile crypto d env.userKeyPath).bind crypto.calculatePublicKey).getD []

-- The answer to a token. `disk` is what the files are at this time.
def sendAuthResponse (v : KeyStore crypto) (disk : KeyDisk) (env : KeyEnvironment) (s : Looper)
    (t : Tid) (token : Bytes) (os : Os) : Looper :=
  Looper.sendAuthResponse { s with keys := v.loaded } t token
    { os with userKey := adbAuthGetUserkey crypto disk env }

end KeyStore
