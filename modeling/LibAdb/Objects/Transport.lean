import LibAdb.Objects.Packet

inductive ConnectionState where
  | connecting
  | authorizing
  | unauthorized
  | noPerm
  | detached
  | offline
  | bootloader
  | device
  | host
  | recovery
  | sideload
  | rescue
  deriving DecidableEq, Repr

def connectionStateIsOnline : ConnectionState → Bool
  | .bootloader | .device | .host | .recovery | .sideload | .rescue => true
  | _ => false

-- A private key by its identity. The null pointer that ends a transport's key list is `none`.
abbrev Key := Nat

structure ATransport where
  serial          : Bytes := []
  connectionState : ConnectionState := .offline
  online          : Bool := false
  product         : Bytes := []
  model           : Bytes := []
  device          : Bytes := []
  useTls          : Bool := false
  protocolVersion : Int := aVersionMin
  maxPayload      : Nat := Apacket.maxPayload
  features        : List Bytes := []
  delayedAck      : Bool := false
  keys            : List (Option Key) := []
  reverseForwards : List (Bytes × Bytes) := []
  -- The handshake threads that `adb_auth_tls_handshake` has detached and that have not run yet.
  handshakes      : Nat := 0
  deriving DecidableEq, Repr

def supportedFeatures : List Bytes :=
  ["shell_v2", "cmd", "stat_v2", "ls_v2", "fixed_push_mkdir", "apex", "abb",
    "fixed_push_symlink_timestamp", "abb_exec", "remount_shell", "track_app", "sendrecv_v2",
    "sendrecv_v2_brotli", "sendrecv_v2_lz4", "sendrecv_v2_zstd", "sendrecv_v2_dry_run_send",
    "openscreen_mdns", "devicetracker_proto_format", "devraw", "app_info", "delayed_ack"].map ascii

def stringToFeatureSet (s : Bytes) : List Bytes :=
  if s = [] then [] else s.splitOn 44

def featureSetToString (features : List Bytes) : Bytes :=
  List.intercalate [44] features

-- `get_connection_string` for a set of features. Each text is printed up to its first NUL.
def connectionString (features : List Bytes) : Bytes :=
  let property := ascii "features=" ++ (featureSetToString features).takeWhile (· != 0)
  ascii "host" ++ ascii "::" ++ (List.intercalate [59] [property]).takeWhile (· != 0)

def canUseFeature (features : List Bytes) (feature : Bytes) : Bool :=
  features.contains feature && supportedFeatures.contains feature

namespace ATransport

def setFeatures (t : ATransport) (s : Bytes) : ATransport :=
  let features := stringToFeatureSet s
  { t with features, delayedAck := canUseFeature features (ascii "delayed_ack") }

def updateVersion (t : ATransport) (version : UInt32) (payload : UInt32) : ATransport :=
  { t with
    protocolVersion := min version.toInt32.toInt aVersion
    maxPayload      := min payload.toNat Apacket.maxPayload }

def parseProp (t : ATransport) (prop : Bytes) : ATransport :=
  match prop.splitOn 61 with
  | [key, value] =>
    if key = ascii "ro.product.name" then { t with product := value }
    else if key = ascii "ro.product.model" then { t with model := value }
    else if key = ascii "ro.product.device" then { t with device := value }
    else if key = ascii "features" then t.setFeatures value
    else t
  | _ => t

def bannerState (type : Bytes) : ConnectionState :=
  if type = ascii "bootloader" then .bootloader
  else if type = ascii "device" then .device
  else if type = ascii "recovery" then .recovery
  else if type = ascii "sideload" then .sideload
  else if type = ascii "rescue" then .rescue
  else .host

-- An empty property is skipped by `parseProp` as well: it has no second piece.
def parseBanner (t : ATransport) (banner : Bytes) : ATransport :=
  let pieces := banner.splitOn 58
  let t := t.setFeatures []
  let t :=
    match pieces with
    | _ :: _ :: props :: _ => (props.splitOn 59).foldl parseProp t
    | _ => t
  { t with connectionState := bannerState (pieces.headD []) }

theorem bannerState_isOnline : connectionStateIsOnline (bannerState type) := by
  grind [bannerState, connectionStateIsOnline]

-- The keys `adb_auth_get_private_keys` hands out end with a null pointer.
def privateKeys (known : List Key) : List (Option Key) :=
  known.map some ++ [none]

def key (t : ATransport) : Option Key :=
  t.keys.head?.join

def nextKey (t : ATransport) (known : List Key) : ATransport :=
  { t with keys := if t.keys = [] then privateKeys known else t.keys.tail }

def reverseLookup (t : ATransport) (remote : Bytes) : Option Bytes :=
  (t.reverseForwards.find? (·.1 == remote)).map (·.2)

def reverseInsert (t : ATransport) (remote loc : Bytes) : ATransport :=
  { t with reverseForwards := (remote, loc) :: t.reverseForwards.filter (·.1 != remote) }

def reverseErase (t : ATransport) (remote : Bytes) : ATransport :=
  { t with reverseForwards := t.reverseForwards.filter (·.1 != remote) }

-- The bookkeeping of `reverse:` requests; `none` is the `LOG(FATAL)` of its last branch.
def updateReverseConfig (t : ATransport) (serviceAddr : Bytes) : Option ATransport :=
  match serviceAddr.consumePrefix "reverse:" with
  | none => some t
  | some addr =>
    match addr.consumePrefix "forward:" with
    | some addr =>
      let norebind := (addr.consumePrefix "norebind:").isSome
      let addr := (addr.consumePrefix "norebind:").getD addr
      match addr.cut 59 with
      | none => some t
      | some (remote, loc) =>
        if norebind && (t.reverseLookup remote).isSome then some t
        else some (t.reverseInsert remote loc)
    | none =>
      match addr.consumePrefix "killforward:" with
      | some addr => if 59 ∈ addr then some t else some (t.reverseErase addr)
      | none =>
        if addr = ascii "killforward-all" then some { t with reverseForwards := [] }
        else if addr = ascii "list-forward" then some t
        else none

def isReverseConfigured (t : ATransport) (localAddr : Bytes) : Bool :=
  t.reverseForwards.any (·.2 == localAddr)

end ATransport
