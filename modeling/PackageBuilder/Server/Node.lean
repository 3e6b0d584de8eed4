import PackageBuilder.Library.FileTree
import PackageBuilder.Library.Interleaving
import PackageBuilder.Builder.Build

/-! A build node: the requests it receives, the jobs tree they share, and what the handlers and
builders of server.py see of each other. -/
namespace PackageBuilder
open Text FileTree

/-- The body of a message, a JSON object; `none` for a missing key. -/
structure Request where
  jobId : Option Str
  clientId : Option Str
  biocVersion : Option Str
  svnUrl : Option Str
  commitId : Option Str := none
  newpackage : Option Str := none
  deriving DecidableEq, Repr

/-- A name that is one component of a path, and neither of the two that are always there. -/
def isPlain (name : Str) : Bool :=
  name ≠ [] && '/' ∉ name && '\x00' ∉ name && name ≠ "." && name ≠ ".."

namespace Request

/-- `received_obj['client_id'].rsplit(":")[1]` -/
def issue? (r : Request) : Option Str := r.clientId.bind fun clientId => (clientId.splitOn ':')[1]?

def issue (r : Request) : Str := r.issue?.getD []

def runDir (r : Request) : Str := r.commitId.getD (r.jobId.getD [])

def urlParts (r : Request) : Nat := (r.svnUrl.map fun url => (url.splitOn '/').length).getD 0

/-- What `setup` of builder.py makes of the body. -/
def manifest? (r : Request) : Option Manifest := do
  let svnUrl ← r.svnUrl
  let jobId ← r.jobId
  let clientId ← r.clientId
  return {
    svnUrl := strip svnUrl, jobId, clientId,
    biocVersion := r.biocVersion, newpackage := r.newpackage }

def packageName (r : Request) : Str := (r.manifest?.map Manifest.packageName).getD []

structure WellFormed (r : Request) : Prop where
  jobId : r.jobId.any isPlain = true
  issue : r.issue?.any isPlain = true
  biocVersion : r.biocVersion.isSome = true
  svnUrl : 5 ≤ r.urlParts
  commitId : r.commitId.all isPlain = true

instance (r : Request) : Decidable r.WellFormed :=
  decidable_of_iff (r.jobId.any isPlain = true ∧ r.issue?.any isPlain = true ∧
      r.biocVersion.isSome = true ∧ 5 ≤ r.urlParts ∧ r.commitId.all isPlain = true)
    ⟨fun ⟨a, b, c, d, e⟩ => ⟨a, b, c, d, e⟩, fun ⟨a, b, c, d, e⟩ => ⟨a, b, c, d, e⟩⟩

theorem WellFormed.issue_isSome {r : Request} (h : r.WellFormed) : r.issue?.isSome = true := by
  have hi := h.issue
  rcases hq : r.issue? with _ | x
  · rw [hq] at hi
    cases hi
  · rfl

end Request

/-- The directories a handler makes where they are missing, below `spb_home`. -/
inductive Level
  | jobs | issue | libs | run
  deriving DecidableEq, Repr

instance : Fintype Level := ⟨{.jobs, .issue, .libs, .run}, fun d => by cases d <;> decide⟩

def Request.dir (r : Request) : Level → List Str
  | .jobs => ["jobs"]
  | .issue => ["jobs", r.issue]
  | .libs => ["jobs", r.issue, "R-libs"]
  | .run => ["jobs", r.issue, r.runDir]

/-- The level whose directory holds this one. -/
def Level.parent : Level → Option Level
  | .jobs => none
  | .issue => some .jobs
  | .libs | .run => some .issue

theorem dir_dropLast (r : Request) (d : Level) :
    (r.dir d).dropLast = (d.parent.map r.dir).getD [] := by
  cases d <;> rfl

/-- `working_dir` of the builder. -/
abbrev Request.workingDir (r : Request) : List Str := r.dir .run

/-- A file in the working directory. -/
def Request.path (r : Request) (name : Str) : List Str := r.workingDir ++ [name]

/-- Where R keeps an installed package. -/
def Request.libPath (r : Request) (package : Str) : List Str := r.dir .libs ++ [package]

/-- What a file holds: the body of a message, the log of a builder, the report of a check, or
anything else. A clone or an installed package counts as one file. -/
inductive Content (ν : Type)
  | message (r : Request)
  | log
  | report (x : ν)
  | data (x : ν)
  deriving DecidableEq, Repr

/-- A job writes no message but its own. -/
def JobEntry {ν : Type} (r : Request) (e : Entry (Content ν)) : Prop :=
  ∀ q, e = .file (.message q) → q = r

/-- The installed packages that R finds, by their names. -/
abbrev Packages (ν : Type) := Str → Option ν

/-- What git and R do for one job: the clone of a URL, the packages that installPkgDeps.R leaves in
R-libs, the installed package and the tarball with its name that are made of the sources, the output
of the build, and the report of the check of a tarball against an installed copy. -/
structure Tools (ν : Type) where
  cloneDir : Str → Str
  fetch : Str → Option ν
  deps : ν → Packages ν → List (Str × ν) := fun _ _ => []
  install : ν → Packages ν → Option ν
  build : ν → Packages ν → Option (Str × ν)
  output : Option ν → Packages ν → ν
  report : Option ν → Option ν → Packages ν → ν

/-- A job may leave a package of this name in R-libs: its own or a dependency. -/
def Tools.Leaves {ν : Type} (tools : Tools ν) (package name : Str) : Prop :=
  name = package ∨ ∃ x lib, ∃ p ∈ tools.deps x lib, p.1 = name

/-- Whether the broker accepts what a handler sends. -/
structure Answers where
  greeting : Bool := true
  reply : Bool := true
  deriving DecidableEq, Repr

section
variable {ν : Type} (t : Tree Str (Content ν))

def data? (p : List Str) : Option ν :=
  match content t p with
  | some (.data x) => some x
  | _ => none

/-- The packages in the R-libs of a request. -/
def libraryOf (r : Request) : Packages ν := fun name => data? t (r.libPath name)

end

/-- What a node is given: for each request, the answers of the broker to its handler, and the run
and the tools of the builder launched for it, with the packages that R finds there. -/
structure Site (ι ν : Type) where
  builderId : Str
  message : ι → Request
  answers : ι → Answers := fun _ => {}
  run : ι → Env × World × List Str
  tools : ι → Tools ν
  finds : ι → Tree Str (Content ν) → Packages ν := fun i t => libraryOf t (message i)

/-- What all handlers and builders share: the jobs tree, the builders launched, and the events
topic with the job of each event. -/
structure Node (ι ν : Type) where
  tree : Tree Str (Content ν)
  launched : List ι := []
  topic : List (ι × Event) := []

section
variable {ι ν : Type} (n : Node ι ν)

def Node.launch (i : ι) : Node ι ν := { n with launched := n.launched ++ [i] }

def Node.send (i : ι) (e : Event) : Node ι ν := { n with topic := n.topic ++ [(i, e)] }

def Node.on (t : Tree Str (Content ν)) : Node ι ν := { n with tree := t }

/-- The events of one job on the topic. -/
def Node.eventsOf [DecidableEq ι] (i : ι) : List Event :=
  (n.topic.filter fun x => x.1 = i).map Prod.snd

end

/-- The acknowledgement of a request. -/
def gotRequest (builderId : Str) (r : Request) : Event where
  builderId := builderId
  status := .gotBuildRequest
  body := some "Got build request..."
  firstMessage := some true
  jobId := r.jobId.getD []
  clientId := r.clientId.getD []
  biocVersion := r.biocVersion

end PackageBuilder
