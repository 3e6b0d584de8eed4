import PackageBuilder.Library.Effect
import PackageBuilder.Messages
import PackageBuilder.Elapsed

/-! What a run of builder.py depends on, the state it changes, and its calls to the outside. -/
namespace PackageBuilder
open Text Effect

/-- `platform.system()` -/
inductive System
  | linux | darwin | windows | other
  deriving DecidableEq, Repr

inductive Exn
  | systemExit (message : Str)
  | keyError (key : Str)
  | attributeError
  | typeError
  | unboundLocalError (name : Str)
  | unicodeDecodeError
  | calledProcessError (status : Int)
  | fileNotFoundError (path : Str)
  | fileExistsError (path : Str)
  | isADirectoryError (path : Str)
  | unicodeEncodeError
  | valueError -- an embedded null byte
  | osError -- an argument list that is too long
  | connectionError -- BrokenPipeError, ConnectionClosedException, NotConnectedException
  | exception (name : Str)
  deriving DecidableEq, Repr

/-- What a subprocess prints: `bytes2str` always gives a text, a strict decoding (from UTF-8, or by
`open` from the encoding of the node) only when `decodes` holds. -/
structure Output where
  text : Str := []
  decodes : Bool := true
  deriving Repr

/-- What `os.path.exists`, `os.remove` and `os.mkdir` make of an entry. -/
inductive EntryKind
  | file | directory | dangling
  deriving DecidableEq, Repr

/-- What `execve` of Linux does not take as the one argument of a shell. -/
def execveRefuses (cmd : Str) : Option Exn :=
  if Char.ofNat 0 ∈ cmd then some .valueError
  else if 131072 ≤ (cmd.map Char.utf8Size).sum then some .osError
  else none

/-- One subprocess: `elapsed` is in microseconds, and `leaves` says which names it leaves in
the working directory. -/
structure Process where
  status : Int := 0
  output : Output := {}
  elapsed : Nat := 0
  leaves : List Str → List Str := id

/-- The order in which the n-th `os.listdir` returns the entries. -/
structure Listing where
  order : Nat → List Str → List Str := fun _ d => d
  perm : ∀ n d, (order n d).Perm d := by intros; rfl

/-- `unicodedata.normalize('NFKD', ·)`, of which only this matters. -/
structure Normalizer where
  run : Str → Str := id
  ascii : ∀ s, (∀ c ∈ s, c.toNat < 128) → run s = s := by intros; rfl

structure NodeSpec where
  os : Str
  arch : Str
  platform : Str
  pkgType : Str
  deriving Repr

/-- What a run is given: configuration, manifest, files and subprocesses, one field for each
use. `kind` is that of an entry when `main` asks for it, which it does once for a name; `refuses`
tells the commands that no process can be started for, and `encodes` what the encoding of the node
can write. -/
structure Env where
  manifest : Manifest
  builderId : Str
  system : System
  nodeSpec : NodeSpec
  biocVersion : Str
  bbsRCmd : Str
  bbsHome : Str
  spbHome : Str
  scpCmd : Str
  timeoutLimit : Nat
  workingDir : Str
  rVersionRaw : Str := []
  gitClone : Process := {}
  description : Except Exn Dcf
  unsupportedPlatforms : Option Str := none
  packageType : Process := {}
  installDeps : Process := {}
  checkgitclone : Process := {}
  installPkg : Process := {}
  build : Process := {}
  tarballSize : Str → Nat := fun _ => 0
  scp : Process := {}
  check : Process := {}
  biocCheck : Process := {}
  buildbin : Process := {}
  rm : Process := {}
  shell : Str → List Str → List Str := fun _ d => d
  nfkd : Normalizer := {}
  lower : Str → Str := Text.lower
  kind : Str → EntryKind := fun _ => .file
  refuses : Str → Option Exn := execveRefuses
  encodes : Str → Bool := fun _ => true

/-- One call of `stomp.send`, the reconnection after a connection error and the second send;
`none` is success. -/
structure Attempt where
  first : Option Exn := none
  reconnect : Option Exn := none
  second : Option Exn := none
  deriving DecidableEq, Repr

def Attempt.accepted (a : Attempt) : Bool :=
  match a.first with
  | none => true
  | some e => e == .connectionError && a.reconnect.isNone && a.second.isNone

/-- What happens around a run: exceptions out of the code before its n-th `send_message`, the
broker, the order of directory listings, and whether the working directory has been removed before
the n-th of them. The one stretch of code guarded by a bare `except` with nothing sent in it after
its send has a field of its own. -/
structure World where
  raises : Nat → Option Exn := fun _ => none
  raisesInDcf : Option Exn := none
  broker : Nat → Attempt := fun _ => {}
  listdir : Listing := {}
  gone : Nat → Bool := fun _ => false

/-- The same world without failures. -/
def World.calm (w : World) : World := { listdir := w.listdir }

structure World.Quiet (w : World) : Prop where
  raises : ∀ n, w.raises n = none
  raisesInDcf : w.raisesInDcf = none
  broker : ∀ n, (w.broker n).accepted = true
  there : ∀ n, w.gone n = false

/-- The globals of the module, the working directory, and what the run has shown so far:
the events the broker accepted, the commands handed to the shell, and the answers of
`get_source_tarball_name` with the directory each was found in. -/
structure St where
  cwd : List Str
  events : List Event := []
  commands : List Str := []
  named : List (List Str × Option Str) := []
  sends : Nat := 0
  listings : Nat := 0
  exiting : Bool := false
  buildOut : Str := []
  longBuild : Bool := false
  pkgTypeViews : Str := []
  warnings : Bool := false
  gitcloneRetcode : Int := 0
  svnUrlGlobal : Option Str := none
  callcount : Nat := 1

section
variable (s : St)

def addEntry (name : Str) (d : List Str) : List Str := if name ∈ d then d else d ++ [name]

@[simps] def St.opened (name : Str) : St := { s with cwd := addEntry name s.cwd }

@[simps] def St.removed (name : Str) : St := { s with cwd := s.cwd.filter (· ≠ name) }

@[simps] def St.ran (cmd : Str) (leaves : List Str → List Str) : St :=
  { s with commands := s.commands ++ [cmd], cwd := leaves s.cwd }

@[simps] def St.listed : St := { s with listings := s.listings + 1 }

@[simps] def St.answered (tarball : Option Str) : St :=
  { s with named := s.named ++ [(s.cwd, tarball)] }

@[simps] def St.called : St := { s with callcount := s.callcount + 1 }

@[simps] def St.tried : St := { s with sends := s.sends + 1 }

@[simps] def St.accepted (e : Event) : St := { s with events := s.events ++ [e] }

@[simps] def St.onUrl (url : Str) : St := { s with svnUrlGlobal := some url }

@[simps] def St.typed (views : Str) (long : Bool) : St :=
  { s with pkgTypeViews := views, longBuild := s.longBuild || long }

@[simps] def St.built (out : Str) : St := { s with buildOut := out }

@[simps] def St.warned (warnings : Bool) : St := { s with warnings := warnings }

@[simps] def St.cloneChecked (retcode : Int) : St := { s with gitcloneRetcode := retcode }

@[simps] def St.exits : St := { s with exiting := true }

end

/-- A package with nothing wrong on a Linux node. -/
def spbtest : Env where
  manifest := {
    svnUrl := "https://git.bioconductor.org/packages/spbtest5"
    jobId := "spbtest5_20230208"
    clientId := "single_package_builder_github:3145:spbtest5"
    biocVersion := some "3.20"
    newpackage := some "True" }
  builderId := "nebbiolo1"
  system := .linux
  nodeSpec := { os := "Linux", arch := "x86_64", platform := "x86_64", pkgType := "source" }
  biocVersion := "3.20"
  bbsRCmd := "/R/bin/R"
  bbsHome := "/BBS"
  spbHome := "/spb"
  scpCmd := "scp"
  timeoutLimit := 2400
  workingDir := "/jobs/3145/17ff114b"
  gitClone := { leaves := addEntry "spbtest5" }
  description := .ok [("Package", "spbtest5"), ("Version", "0.99.0"), ("biocViews", "Software")]
  packageType := { output := { text := "Software" } }
  build := { leaves := addEntry "spbtest5_0.99.0.tar.gz" }

abbrev Builder := Prog (Env × World) Exn St

def environment : Builder Env := do return (← read).1

/-- `open(name, "w")` -/
def openW (name : Str) : Builder Unit := modify (·.opened name)

/-- A link to nothing does not exist. -/
def osPathExists (name : Str) : Builder Bool := do
  let env ← environment
  return decide (name ∈ (← get).cwd ∧ env.kind name ≠ .dangling)

def osRemove (name : Str) : Builder Unit := do
  let env ← environment
  if env.kind name = .directory then
    throw (.isADirectoryError name)
  modify (·.removed name)

/-- `if os.path.exists(name): os.remove(name)` -/
def removeExisting (name : Str) : Builder Unit := do
  if ← osPathExists name then
    osRemove name

def osMkdir (name : Str) : Builder Unit := do
  if name ∈ (← get).cwd then
    throw (.fileExistsError name)
  modify (·.opened name)

/-- `os.listdir(os.getcwd())` -/
def osListdir : Builder (List Str) := do
  let w := (← read).2
  let s ← get
  modify (·.listed)
  if w.gone s.listings then
    throw (.fileNotFoundError ".")
  return w.listdir.order s.listings s.cwd

/-- `subprocess.call(cmd, shell=True)`, also for `Popen` and `wait`. -/
def call (cmd : Str) (p : Process) : Builder Int := do
  let env ← environment
  match env.refuses cmd with
  | some e => throw e
  | none =>
    modify (·.ran cmd p.leaves)
    return p.status

/-- `os.system(cmd)` for `rm -rf` and the name of an existing directory, which can be started. -/
def osSystem (cmd : Str) : Builder Unit := do
  let env ← environment
  modify (·.ran cmd (env.shell cmd))

/-- `_call` of the source. Without a shell the whole string is the program's name, except on
Windows. -/
def callCommand (commandStr : Str) (shell : Bool) : Builder Int := do
  let env ← environment
  if env.system = .windows then
    let n : Int := (← get).callcount
    openW (str n ++ "out.txt")
    openW (str n ++ "err.txt")
    modify (·.called)
    call commandStr env.rm
  else if shell then
    call commandStr env.rm
  else
    throw (.fileNotFoundError commandStr)

/-- The exceptions of `raises` are those of `main`. -/
def nextAttempt : Builder (Option Exn × Attempt) := do
  let w := (← read).2
  let s ← get
  modify (·.tried)
  return (if s.exiting then none else w.raises s.sends, w.broker s.sends)

/-- The keys `send_message` adds, and its normalised body. -/
def Event.stamp (env : Env) (e : Event) : Event :=
  { e with
    builderId := env.builderId
    clientId := env.manifest.clientId
    jobId := env.manifest.jobId
    body := e.body.map env.nfkd.run }

def sendMessage (msg : Event) : Builder Unit := do
  let env ← environment
  let (fault, attempt) ← nextAttempt
  match fault with
  | some e => throw e
  | none =>
    match attempt.first with
    | none => modify (·.accepted (msg.stamp env))
    | some e =>
      if e = .connectionError then
        match attempt.reconnect, attempt.second with
        | none, none => modify (·.accepted (msg.stamp env))
        | some e2, _ => throw e2
        | none, some e2 => throw e2
      else
        throw e

end PackageBuilder
