import LibAdb.Objects.Install
import LibAdb.Execution.SocketSpec

-- The texts of `pm` that the library reads.

def parseFailureCode (output : Bytes) : Bytes :=
  match output.find (ascii "Failure") with
  | none => []
  | some failure =>
    match failure.dropWhile (· != 91) with
    | [] => ascii "FAILURE"
    | _ :: text =>
      let code := text.takeWhile fun c => !(ascii ":] \r\n").contains c
      if code = [] || code.length = text.length then ascii "FAILURE" else code

def statusFromInstallCode (code : Bytes) : Status :=
  if code = [] then .remoteError
  else if (ascii "INSTALL_PARSE_FAILED_").isPrefixOf code then .invalidApk
  else if code = ascii "INSTALL_FAILED_UPDATE_INCOMPATIBLE" then .signatureMismatch
  else if code = ascii "INSTALL_FAILED_VERSION_DOWNGRADE" then .versionDowngrade
  else if code = ascii "INSTALL_FAILED_INSUFFICIENT_STORAGE" then .insufficientStorage
  else if code = ascii "INSTALL_FAILED_INVALID_APK" then .invalidApk
  else if code = ascii "INSTALL_FAILED_MISSING_SPLIT" then .missingSplit
  else .remoteError

-- A marker does not overlap itself, so the search that goes on behind each occurrence visits them
-- all.
def packageNameFromOutput (output : Bytes) : Bytes :=
  let candidates := ["Package ", "package "].flatMap fun marker =>
    output.tails.filterMap fun text =>
      (Bytes.consumePrefix text marker).map fun rest =>
        rest.takeWhile fun c => !(ascii " \t\r\n:;,]").contains c
  (candidates.find? fun name => name.contains 46 && !name.contains 47 && name.length > 2).getD []

def isSuccess (buf : Bytes) : Bool :=
  (ascii "Success").isPrefixOf buf

-- The session id that `install-create` answers, and what is left in the buffer: the last closing
-- bracket is overwritten when there is a bracket of each kind.
def sessionId (buf : Bytes) : Int × Bytes :=
  if isSuccess buf && buf.contains 91 && buf.contains 93 then
    (strtol (buf.afterLast 91), buf.beforeLast 93)
  else (-1, buf)

namespace Installer

def copyBufferSize : Nat := 64 * 1024

-- A round of `copy_to_file`: how much there is to read, how much the write takes, and what the
-- observer says then. Either can fail.
structure CopyRound where
  read   : Option Nat
  write  : Option Nat
  aborts : Bool := false
  deriving DecidableEq, Repr

-- The result and what was written. What the write takes is not looked at.
def copyToFile : List CopyRound → Bytes → Bytes → Option (Bool × Bytes)
  | [], _, _ => none
  | r :: rounds, input, output =>
    match r.read with
    | none => some (false, output)
    | some n =>
      let size := min (n + 1) copyBufferSize
      let block := input.take size
      if block = [] then some (true, output)
      else
        let output := output ++ block.take (r.write.getD 0)
        if r.aborts then some (false, output) else copyToFile rounds (input.drop size) output

def getFeatures : StateM Installer (List Bytes) := fun s =>
  (s.features.head, { s with features := s.features.tail })

def bestInstallMode : StateM Installer InstallMode := do
  return if canUseFeature (← getFeatures) (ascii "cmd") then .stream else .push

def isAbbExecSupported : StateM Installer Bool := do
  return canUseFeature (← getFeatures) (ascii "abb_exec")

def reportStatus (text : Bytes) : StateM Installer Unit :=
  modify fun s => { s with output := s.output ++ text }

def connect (service : Bytes) : StateM Installer (Option Reply) := fun s =>
  let reply := s.replies.head
  (if reply.opened then some reply else none,
    { s with replies := s.replies.tail, sent := s.sent ++ [service] })

def sendAbbExecCommand (args : List Bytes) : StateM Installer (Option Reply) :=
  connect (ascii "abb_exec:" ++ Bytes.join 0 args)

def sendCommand (args : List Bytes) : StateM Installer (Option Reply) := do
  if ← isAbbExecSupported then sendAbbExecCommand args else connect (Bytes.join 32 args)

-- The path of an `install-write`; the name is the one the file gets on the device.
def installWriteArgs (command : Bytes) (size : Nat) (session name : Bytes) : List Bytes :=
  [command, ascii "install-write", ascii "-S", Bytes.decimal size, session, name, ascii "-"]

def installWrite (files : Files) (command session file name : Bytes) :
    StateM Installer (Option Reply) := do
  match files.lookup file with
  | none => return none
  | some st =>
    if files.readable file then
      let reply ← sendCommand (installWriteArgs command st.size session name)
      return reply.filter (·.copied)
    else return none

def streamSplits (files : Files) (command session : Bytes) : List Bytes → StateM Installer Bool
  | [] => return true
  | file :: rest => do
    match ← installWrite files command session file (Bytes.basename file) with
    | none => return false
    | some reply =>
      if isSuccess reply.statusLine then streamSplits files command session rest
      else
        reportStatus reply.statusLine
        return false

-- An argument that is passed on is quoted when the command goes through a shell.
def passthrough (useAbbExec : Bool) (args : List Bytes) : List Bytes :=
  if useAbbExec then args else args.map Bytes.escapeArg

-- One session: it is committed when every file could be written, and abandoned otherwise.
def installSession (files : Files) (command : Bytes) (create splits : List Bytes) :
    StateM Installer Bool := do
  let some created ← sendCommand create | return false
  let (id, buf) := sessionId created.statusLine
  if id < 0 then
    reportStatus buf
    return false
  let success ← streamSplits files command (Bytes.decimal id) splits
  let some finalized ← sendCommand [command,
    ascii (if success then "install-commit" else "install-abandon"), Bytes.decimal id]
    | return false
  if success then
    reportStatus finalized.statusLine
    return isSuccess finalized.statusLine
  else return false

-- `install_multiple_app_streamed` behind its scan of the arguments: `front` are the arguments
-- before the first file.
def installSplits (files : Files) (front splits : List Bytes) (totalSize : Nat) :
    StateM Installer Bool := do
  let useAbbExec ← isAbbExecSupported
  let command ←
    if useAbbExec then pure (ascii "package")
    else do
      if (← bestInstallMode) = .push then pure (ascii "exec:pm")
      else pure (ascii "exec:cmd package")
  installSession files command ([command, ascii "install-create", ascii "-S",
    Bytes.decimal totalSize] ++ passthrough useAbbExec front) splits

def isApk (file : Bytes) : Bool :=
  file.endsWithIgnoreCase ".apk"

def isApex (file : Bytes) : Bool :=
  file.endsWithIgnoreCase ".apex"

def isSplit (file : Bytes) : Bool :=
  isApk file || file.endsWithIgnoreCase ".dm" || file.endsWithIgnoreCase ".fsv_sig"

-- The files at the end of the arguments (given in reverse) with their total size.
def scanSplits (files : Files) : List Bytes → List Bytes → Nat →
    Except Exit (List Bytes × List Bytes × Nat)
  | [], splits, size => return ([], splits, size)
  | file :: rest, splits, size =>
    if isApex file then
      throw (.error (ascii "APEX packages are not compatible with install-multiple"))
    else if isSplit file then
      match files.lookup file with
      | none => throw (.perror (ascii "failed to stat \"" ++ file ++ ascii "\""))
      | some st => scanSplits files rest (file :: splits) (size + st.size)
    else return ((file :: rest).reverse, splits, size)

-- What the host does beside talking to the device can end the process.
abbrev Run := StateT Installer (Except Exit)

instance : MonadLift (StateM Installer) Run where
  monadLift x s := .ok (x s)

def installMultipleAppStreamed (files : Files) (argv : List Bytes) : Run Bool := do
  let (front, splits, size) ← scanSplits files argv.reverse [] 0
  if splits = [] then throw (.error (ascii "need APK file on command line"))
  installSplits files front splits size

-- What the `inc-server` process prints, read by read.
def waitForInstallation (printed : Bytes) : List Bytes → Bool
  | [] => false
  | chunk :: rest =>
    let printed := printed ++ chunk
    if (Bytes.find printed (ascii "Success")).isSome then true
    else match Bytes.find printed (ascii "Failure [") with
      | none => waitForInstallation printed rest
      | some failure =>
        if printed.length ≥ 256 || (failure.drop 9).contains 93 then false
        else waitForInstallation printed rest

namespace Incremental

def canInstall (h : Host) (files : Files) (apks : List Bytes) : Bool :=
  apks.all fun file =>
    (files.lookup file).isSome && (!isApk file || (h.signature files file).isSome)

-- The description of each file that goes into the command, unless a file or its signature is bad.
def describe (h : Host) (files : Files) (apks : List Bytes) : Option (List Bytes) :=
  (List.zipIdx apks).mapM fun (file, i) =>
    match files.lookup file, h.signature files file with
    | none, _ => none
    | some _, some [] => none
    | some st, signature =>
      some (Bytes.join 58 [Bytes.basename file, Bytes.decimal st.size, Bytes.decimal i,
        signature.getD [], ascii "1"])

def install (h : Host) (server : Option (List Bytes)) (files : Files) (apks args : List Bytes) :
    StateM Installer Bool := do
  match describe h files apks with
  | none => return false
  | some described =>
    match ← sendAbbExecCommand
        ([ascii "package", ascii "install-incremental"] ++ args ++ described) with
    | none => return false
    | some _ => return (server.map (waitForInstallation [])).getD false

end Incremental

-- The files are the arguments from the first APK to the last one, whatever stands between them.
def installAppIncremental (h : Host) (server : Option (List Bytes)) (files : Files)
    (argv : List Bytes) (silent : Bool) : StateM Installer Bool := do
  let apks := ((argv.dropWhile (!isApk ·)).reverse.dropWhile (!isApk ·)).reverse
  let args := argv.filter fun arg => !isApk arg && !(ascii "install").isPrefixOf arg
  if apks = [] then return false
  else if silent && !Incremental.canInstall h files apks then return false
  else Incremental.install h server files apks args

-- `ParseBool` answers `kFalse`.
def parsesFalse (s : Bytes) : Bool :=
  ["0", "n", "no", "off", "false"].any (ascii · == s)

-- Whether the host and then the device let an installation be incremental when nothing was asked.
def incrementalByDefault (h : Host) : StateM Installer Bool := do
  if (h.incrementalDefault.map parsesFalse).getD false then return false
  else
    match ← sendAbbExecCommand
        [ascii "settings", ascii "get", ascii "enable_adb_incremental_install_default"] with
    | none => return true
    | some reply => return !parsesFalse reply.statusLine

-- Without a request the modes are the incremental one and, as a fallback, the best other one.
def calculateInstallMode (h : Host) (modeFromArgs : InstallMode) (fastdeploy : Bool)
    (request : CmdlineOption) : Run (InstallMode × Option InstallMode) := do
  if request = .enable && fastdeploy then
    throw (.error (ascii ("--incremental and --fast-deploy options are incompatible. " ++
      "Please choose one")))
  if modeFromArgs ≠ .default then
    if request = .enable then
      throw (.error (ascii "--incremental is not compatible with other installation modes"))
    return (modeFromArgs, none)
  match request with
  | .enable =>
    if ← isAbbExecSupported then return (.incremental, none)
    else throw (.error (ascii "Device doesn't support incremental installations"))
  | .disable => return (← bestInstallMode, none)
  | .none =>
    let incremental ← if ← isAbbExecSupported then incrementalByDefault h else pure false
    let bestMode ← bestInstallMode
    return if incremental then (.incremental, some bestMode) else (bestMode, none)

structure Parsed where
  mode        : InstallMode := .default
  incremental : CmdlineOption := .none
  wait        : Bool := false
  passthrough : List Bytes := []
  deriving DecidableEq, Repr

-- A flag may be abbreviated down to the given length.
def isFlag (flag : String) (least : Nat) (arg : Bytes) : Bool :=
  least ≤ arg.length && arg.isPrefixOf (ascii flag)

def parseArg (p : Parsed) (arg : Bytes) : Parsed :=
  if arg = ascii "--streaming" then { p with mode := .stream }
  else if arg = ascii "--no-streaming" then { p with mode := .push }
  else if isFlag "--incremental" 6 arg then { p with incremental := .enable }
  else if isFlag "--no-incremental" 9 arg then { p with incremental := .disable }
  else if arg = ascii "--wait" then { p with wait := true }
  else { p with passthrough := p.passthrough ++ [arg] }

def parseInstallMode (argv : List Bytes) : Parsed :=
  argv.foldl parseArg {}

def runInstallMode (h : Host) (server : Option (List Bytes)) (files : Files) (argv : List Bytes)
    (mode : InstallMode) (silent : Bool) : Run Bool :=
  match mode with
  | .push | .stream => installMultipleAppStreamed files argv
  | .incremental => installAppIncremental h server files argv silent
  | .default => throw (.error (ascii "invalid install mode"))

def checkStreaming (primary : InstallMode) (fallback : Option InstallMode) : Run Unit := do
  if primary = .stream || fallback = some .stream then
    if (← bestInstallMode) = .push then
      throw (.error (ascii "Attempting to use streaming install on unsupported device"))

def runInstallModes (h : Host) (server : Option (List Bytes)) (files : Files) (argv : List Bytes)
    (primary : InstallMode) (fallback : Option InstallMode) : Run Bool := do
  let done ← runInstallMode h server files argv primary fallback.isSome
  match fallback with
  | none => return done
  | some mode =>
    if !done && mode ≠ primary then runInstallMode h server files argv mode false else return done

def installMultipleApp (h : Host) (server : Option (List Bytes)) (files : Files)
    (argv : List Bytes) : Run Bool := do
  let p := parseInstallMode argv.tail
  let (primary, fallback) ← calculateInstallMode h p.mode false p.incremental
  checkStreaming primary fallback
  runInstallModes h server files p.passthrough primary fallback

-- The splits that one argument of `install-multi-package` lists.
def writePackage (files : Files) (command session : Bytes) (i : Nat) :
    List Bytes → StateM Installer Bool
  | [] => return true
  | split :: rest => do
    let name := Bytes.decimal i ++ ascii "_" ++ Bytes.basename split
    match ← installWrite files command session split name with
    | none => return false
    | some reply =>
      if isSuccess reply.statusLine then writePackage files command session i rest
      else return false

def isPackage (file : Bytes) : Bool :=
  isApk file || isApex file

-- One session for each package. The answer is whether all went well, with the sessions created.
def childSessions (files : Files) (command : Bytes) (create : List Bytes) :
    List (Bytes × Nat) → List Int → StateM Installer (Bool × List Int)
  | [], ids => return (true, ids)
  | (file, i) :: rest, ids => do
    let some created ← sendCommand (if isApex file then create ++ [ascii "--apex"] else create)
      | return (false, ids)
    let (id, buf) := sessionId created.statusLine
    if id < 0 then
      reportStatus (ascii "adb: failed to create multi-package session\n")
      reportStatus buf
      return (false, ids)
    reportStatus (ascii "Created child session ID " ++ Bytes.decimal id ++ ascii ".\n")
    if ← writePackage files command (Bytes.decimal id) i (file.splitOn 58) then
      childSessions files command create rest (ids ++ [id])
    else return (false, ids ++ [id])

def linkSessions (args : List Bytes) : StateM Installer Bool := do
  let some linked ← sendCommand args | return false
  if isSuccess linked.statusLine then return true
  else
    reportStatus (ascii "adb: failed to link sessions (" ++ Bytes.join 32 args ++ ascii ")\n")
    reportStatus linked.statusLine
    return false

def abandonSessions (command : Bytes) : List Int → StateM Installer Unit
  | [] => return
  | id :: rest => do
    reportStatus (ascii "Attempting to abandon session ID " ++ Bytes.decimal id ++ ascii "\n")
    let _ ← sendCommand [command, ascii "install-abandon", Bytes.decimal id]
    abandonSessions command rest

-- The arguments that are passed on to `install-commit` as well.
def commitArgs : List Bytes → List Bytes
  | flag :: value :: rest =>
    if flag = ascii "--staged-ready-timeout" then flag :: value :: commitArgs rest
    else commitArgs (value :: rest)
  | _ => []

def finalizePackages (command : Bytes) (args : List Bytes) (parent : Int) (success : Bool)
    (ids : List Int) : StateM Installer Bool := do
  let some finalized ← sendCommand
    (if success then [command, ascii "install-commit"] ++ commitArgs args ++ [Bytes.decimal parent]
      else [command, ascii "install-abandon", Bytes.decimal parent]) | return false
  if isSuccess finalized.statusLine then
    reportStatus finalized.statusLine
    if success then return true
  else
    reportStatus (ascii "adb: failed to finalize session\n")
    reportStatus finalized.statusLine
  abandonSessions command (ids ++ [parent])
  return false

-- The parent session with one child for each package; `options` are the arguments of every
-- `install-create`.
def packageSessions (files : Files) (command : Bytes) (options args : List Bytes)
    (packages : List (Bytes × Nat)) : StateM Installer Bool := do
  let some created ← sendCommand
    ([command, ascii "install-create", ascii "--multi-package"] ++ options) | return false
  let (parent, buf) := sessionId created.statusLine
  if parent < 0 then
    reportStatus (ascii "adb: failed to create multi-package session\n")
    reportStatus buf
    return false
  reportStatus (ascii "Created parent session ID " ++ Bytes.decimal parent ++ ascii ".\n")
  let (written, ids) ←
    childSessions files command ([command, ascii "install-create"] ++ options) packages []
  let success ←
    if written then linkSessions ([command, ascii "install-add-session", Bytes.decimal parent] ++
      ids.map Bytes.decimal)
    else pure false
  finalizePackages command args parent success ids

-- `install_multi_package` behind its scan; `first` is the index of the first package.
def installPackages (files : Files) (args packages : List Bytes) (first : Nat) :
    StateM Installer Bool := do
  if (← bestInstallMode) = .push then
    reportStatus (ascii "adb: multi-package install is not supported on this device\n")
    return false
  let useAbbExec ← isAbbExecSupported
  let staged := if packages.any isApex then [ascii "--staged"] else []
  packageSessions files (ascii (if useAbbExec then "package" else "exec:cmd package"))
    (passthrough useAbbExec args ++ staged) args (packages.zipIdx first)

def installMultiPackage (files : Files) (argv : List Bytes) : Run Bool := do
  let packages := (argv.reverse.takeWhile isPackage).reverse
  let front := (argv.reverse.dropWhile isPackage).reverse
  if packages = [] then throw (.error (ascii "need APK or APEX files on command line"))
  installPackages files front.tail packages front.length

end Installer

namespace AdbInstaller

def apksTempPrefix : Bytes := ascii "/tmp/libadb_apks_"

def isBundle (path : Bytes) : Bool :=
  path.endsWithIgnoreCase ".apks" || path.endsWithIgnoreCase ".zip"

def isBase (name : Bytes) : Bool :=
  name = ascii "base.apk" || name.startsWithIgnoreCase "base-master"

def tempDir (h : Host) (tick : Nat) : Bytes :=
  apksTempPrefix ++ Bytes.decimal (h.now tick)

def unzip (path dir : Bytes) : Bytes :=
  ascii "unzip -q -o '" ++ path ++ ascii "' -d '" ++ dir ++ ascii "' >/dev/null 2>&1"

def removeCommand (dir : Bytes) : Bytes :=
  ascii "rm -rf '" ++ dir ++ ascii "'"

def removeDir (h : Host) (d : Disk) (dir : Bytes) : Disk :=
  (d.system h (removeCommand dir)).1

-- A bundle is unpacked into a directory named by the time. Of several base files the directory
-- lists, the last one is kept.
def expandBundle (h : Host) (d : Disk) (path : Bytes) : Disk × List Bytes :=
  let dir := tempDir h d.ticks
  let (d, unzipped) := (Disk.mkdirs h { d with ticks := d.ticks + 1 } dir).system h (unzip path dir)
  let names := if unzipped then (d.files.readdir dir).filter Installer.isApk else []
  let base := ((names.filter isBase).getLast?).toList
  let found := (names.filter (!isBase ·)).map fun name => dir ++ ascii "/" ++ name
  let apks := base.map (fun name => dir ++ ascii "/" ++ name) ++ found.mergeSort (· ≤ ·)
  (if apks = [] then removeDir h d dir else d, apks)

def expandAll (h : Host) (d : Disk) : List Bytes → Disk × Option (List Bytes)
  | [] => (d, some [])
  | path :: rest =>
    if isBundle path then
      match expandBundle h d path with
      | (d, []) => (d, none)
      | (d, apks) => ((expandAll h d rest).1, (expandAll h d rest).2.map (apks ++ ·))
    else ((expandAll h d rest).1, (expandAll h d rest).2.map (path :: ·))

def expandApks (h : Host) (d : Disk) (inputs : List Bytes) : Disk × List Bytes :=
  ((expandAll h d inputs).1, (expandAll h d inputs).2.getD [])

def tempDirs (paths : List Bytes) : List Bytes :=
  ((paths.filter apksTempPrefix.isPrefixOf).map (Bytes.beforeLast · 47)).eraseDups

def cleanupExpanded (h : Host) (d : Disk) (paths : List Bytes) : Disk :=
  (tempDirs paths).foldl (removeDir h) d

def argv (flags apks : List Bytes) (multiPackage : Bool) : List Bytes :=
  (ascii (if multiPackage then "install-multi-package" else "install-multiple") ::
    (flags ++ apks)).map (Bytes.cString · [])

def install (h : Host) (e : Attempt) (d : Disk) (paths flags : List Bytes) (multiPackage : Bool) :
    Except Exit (Disk × Bool × Installer) :=
  let s : Installer := { features := e.features, replies := e.replies }
  let (d, apks) := expandApks h d paths
  if apks = [] then .ok (d, false, s)
  else
    let argv := argv flags apks multiPackage
    let run := if multiPackage then Installer.installMultiPackage d.files argv
      else Installer.installMultipleApp h e.server d.files argv
    (run s).map fun (ok, s) => (cleanupExpanded h d apks, ok, s)

end AdbInstaller

namespace Device

-- `quote_arg` appends one character after the other.
def quoteArg (value : Bytes) : Bytes :=
  value.foldl (fun quoted c => if c = 39 then quoted ++ ascii "'\\''" else quoted ++ [c])
    (ascii "'") ++ ascii "'"

def getPropCommand (name : Bytes) : Bytes :=
  ascii "getprop " ++ name

-- The result of an attempt. A failure that the monitor has caused takes its status from there.
def attemptResult (giveUp : Option GiveUp) (ok : Bool) (output : Bytes) : Result :=
  match giveUp with
  | some reason =>
    { status := reason.status, exitCode := -1, error := reason.message, phase := reason.phase,
      output }
  | none =>
    if ok then { phase := .finalize, output }
    else
      let code := parseFailureCode output
      { status := statusFromInstallCode code, exitCode := 1, phase := .commit, remoteCode := code,
        error := if code = [] then ascii "install failed" else code, output }

def trim (s : Bytes) : Bytes :=
  ((s.dropWhile isSpace).reverse.dropWhile isSpace).reverse

-- What `uninstall` makes of the result of its shell command.
def uninstallResult (shell : Result) : Result :=
  if shell.status ≠ .ok then
    { shell with
      phase := .finalize,
      error := if shell.error = [] then ascii "uninstall failed" else shell.error }
  else if (Bytes.find shell.output (ascii "Success")).isSome then { shell with phase := .finalize }
  else
    let code := parseFailureCode shell.output
    { shell with
      phase := .finalize, status := .remoteError, remoteCode := code,
      exitCode := if shell.exitCode = 0 then 1 else shell.exitCode,
      error := if code = [] then ascii "uninstall failed: " ++ trim shell.output else code }

def retriesDowngrade (options : InstallOptions) (r : Result) : Bool :=
  r.status = .versionDowngrade && options.allowDowngradeRetry && !options.allowDowngrade

def reinstallsConflict (options : InstallOptions) (r : Result) : Bool :=
  r.status = .signatureMismatch && options.onConflict = .reinstall

def conflictPackage (options : InstallOptions) (r : Result) : Bytes :=
  if options.packageNameSource ≠ .explicit &&
      (options.packageName = [] || options.packageNameSource = .auto) then
    let detected := packageNameFromOutput r.output
    if detected = [] then options.packageName else detected
  else options.packageName

def failed (status : Status) (error : Bytes) : Result :=
  { status, phase := .prepare, error }

end Device
