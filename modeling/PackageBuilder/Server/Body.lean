import PackageBuilder.Library.Effect
import PackageBuilder.Library.FileCalls
import PackageBuilder.Server.Node

/-! `do_work` of server.py on any message body, with the jobs tree as the file system sees it. -/
namespace PackageBuilder
open Text FileTree Posix Effect

inductive Json
  | null
  | bool (b : Bool)
  | number (text : Str)
  | string (s : Str)
  | array (items : List Json)
  | object (fields : List (Str × Json))

/-- What `json.loads` makes of a text: deep nesting raises no `ValueError`. -/
inductive Loaded
  | value (j : Json)
  | valueError
  | recursionError

/-- The configuration of a server, what it calls, and what the operating system and the broker
answer. -/
structure Server extends Caller where
  spbHome : Str
  absolute : spbHome.head? = some '/'
  builderId : Str
  loads : Str → Loaded
  spawns : Bool := true
  answers : Answers := {}

inductive Raised
  | keyError | attributeError | indexError | typeError | valueError | osError | recursionError
  | notSent
  deriving DecidableEq, Repr

/-- The file system and the calls that changed it or found it as it should be, the builders
launched with their arguments, and what was sent to the events topic. -/
structure WorkState where
  tree : Tree Str Str
  calls : List (Call Str) := []
  launched : List (Str × Str) := []
  events : List Json := []

abbrev Work := Prog Server Raised WorkState

@[simps] def WorkState.called (s : WorkState) (t : Tree Str Str) (c : Call Str) : WorkState :=
  { s with tree := t, calls := s.calls ++ [c] }

@[simps] def WorkState.launch (s : WorkState) (manifest version : Str) : WorkState :=
  { s with launched := s.launched ++ [(manifest, version)] }

@[simps] def WorkState.send (s : WorkState) (e : Json) : WorkState := { s with events := s.events ++ [e] }

def fileCall (c : Call Str) : Work Unit := do
  match c.apply (← read).toCaller (← get).tree with
  | some t => modify (·.called t c)
  | none => throw .osError

/-- `if not os.path.exists(path): os.mkdir(path)` -/
abbrev ensureDir (path : Str) : Work Unit := fileCall (.ensure path)

abbrev writeFile (path content : Str) : Work Unit := fileCall (.write path content)

/-- `received_obj.get(key)` -/
def field? (o : List (Str × Json)) (key : Str) : Option Json := List.lookup key o

/-- A value, or an exception. -/
def orRaise {α : Type} (x : Option α) (e : Raised) : Work α :=
  match x with
  | some v => pure v
  | none => throw e

def Json.text? : Json → Option Str
  | .string s => some s
  | _ => none

/-- `received_obj[key]` -/
def item (o : List (Str × Json)) (key : Str) : Work Json := orRaise (field? o key) .keyError

def jobsDir (srv : Server) : Str := pathJoin srv.spbHome "jobs"

def gotRequestObject (srv : Server) (jobId clientId version : Json) : Json :=
  .object [("builder_id", .string srv.builderId), ("status", .string "Got Build Request"),
    ("body", .string "Got build request..."), ("first_message", .bool true), ("job_id", jobId),
    ("client_id", clientId), ("bioc_version", version)]

/-- `subprocess.Popen` of `python -m workers.builder` -/
def launchBuilder (manifest : Str) (version : Json) : Work Unit := do
  let arg ← orRaise version.text? .typeError
  let srv ← read
  if srv.accepts arg then
    if srv.spawns then modify (·.launch manifest arg) else throw .osError
  else
    throw .valueError

/-- `stomp.send` to the events topic -/
def sendReply (e : Json) : Work Unit := do
  if (← read).answers.reply then modify (·.send e) else throw .notSent

/-- The `try` block of `do_work` from the URL on, up to `blderProcess.wait()`. The environment
variables it sets come from the configuration. -/
def serveRun (o : List (Str × Json)) (body : Str) (jobId clientId biocVersion : Json)
    (jobDirMain : Str) : Work Unit := do
  let srv ← read
  let svnUrl ← item o "svn_url"
  let svnText ← orRaise svnUrl.text? .attributeError
  let urlName := svnText.splitOn '/'
  let _ ← orRaise urlName[3]? .indexError
  let _ ← orRaise urlName[4]? .indexError
  let runDir ← orRaise ((field? o "commit_id").getD jobId).text? .typeError
  let jobDir := pathJoin jobDirMain runDir
  ensureDir jobDir
  let jobFilename := pathJoin (pathJoin srv.spbHome jobDir) "manifest.json"
  writeFile jobFilename body
  writeFile (pathJoin jobDir "builder.log") []
  launchBuilder jobFilename biocVersion
  sendReply (gotRequestObject srv jobId clientId biocVersion)

/-- The `try` block of `do_work`. -/
def serve (o : List (Str × Json)) (body : Str) : Work Unit := do
  let srv ← read
  let jobId ← item o "job_id"
  let clientId ← item o "client_id"
  let clientText ← orRaise clientId.text? .attributeError
  let jobBase ← orRaise (clientText.splitOn ':')[1]? .indexError
  let biocVersion ← item o "bioc_version"
  ensureDir (jobsDir srv)
  let jobDirMain := pathJoin (jobsDir srv) jobBase
  ensureDir jobDirMain
  ensureDir (pathJoin jobDirMain "R-libs")
  serveRun o body jobId clientId biocVersion jobDirMain

/-- A message without `job_id` is only logged, and so is any exception in the `try` block. -/
def doWorkBody (body : Str) : Work Unit := do
  let srv ← read
  if srv.answers.greeting then
    match srv.loads body with
    | .valueError => pure ()
    | .recursionError => throw .recursionError
    | .value (.object o) =>
      if (field? o "job_id").isSome then
        tryCatch (serve o body) fun _ => pure ()
      else
        pure ()
    | .value _ => throw .attributeError
  else
    throw .notSent

/-- What is left of a message. -/
def Server.after (srv : Server) (t : Tree Str Str) (body : Str) : Except Raised Unit × WorkState :=
  exec (doWorkBody body) srv { tree := t }

/-- The issue, if the fields that are read before the first directory are good. -/
def issueOf (o : List (Str × Json)) : Option Str :=
  if (field? o "job_id").isSome ∧ (field? o "bioc_version").isSome then
    ((field? o "client_id").bind Json.text?).bind fun clientId => (clientId.splitOn ':')[1]?
  else
    none

/-- The name of the run directory, if the URL is good and the name a string. -/
def runDirOf (o : List (Str × Json)) : Option Str :=
  if ((field? o "svn_url").bind Json.text?).any fun url => 5 ≤ (url.splitOn '/').length then
    ((field? o "commit_id").or (field? o "job_id")).bind Json.text?
  else
    none

/-- The builder can be launched with this version. -/
def Launches (srv : Server) (o : List (Str × Json)) : Prop :=
  srv.spawns = true ∧ ((field? o "bioc_version").bind Json.text?).any srv.accepts = true

def Complete (srv : Server) (o : List (Str × Json)) : Prop :=
  (issueOf o).isSome = true ∧ (runDirOf o).isSome = true ∧ Launches srv o

def issuePath (srv : Server) (issue : Str) : Str := pathJoin (jobsDir srv) issue

def runPath (srv : Server) (issue runDir : Str) : Str := pathJoin (issuePath srv issue) runDir

def manifestPath (srv : Server) (issue runDir : Str) : Str :=
  pathJoin (pathJoin srv.spbHome (runPath srv issue runDir)) "manifest.json"

def runCalls (srv : Server) (issue runDir body : Str) : List (Call Str) :=
  [.ensure (runPath srv issue runDir), .write (manifestPath srv issue runDir) body,
    .write (pathJoin (runPath srv issue runDir) "builder.log") []]

def runPlan (srv : Server) (o : List (Str × Json)) (body issue : Str) : List (Call Str) :=
  (runDirOf o).elim [] fun runDir => runCalls srv issue runDir body

/-- The calls that a request leads to, if none raises. -/
def plan (srv : Server) (o : List (Str × Json)) (body : Str) : List (Call Str) :=
  (issueOf o).elim [] fun issue =>
    .ensure (jobsDir srv) :: .ensure (issuePath srv issue) ::
      .ensure (pathJoin (issuePath srv issue) "R-libs") :: runPlan srv o body issue

/-- From `s` to `s'`, the calls were made as far as they go, and a builder was launched after them
if and only if `good` holds. -/
structure Carries (srv : Server) (cs : List (Call Str)) (good : Prop) (s s' : WorkState) : Prop where
  tree : s'.tree = (applyAll srv.toCaller s.tree cs).1
  launched : good ∧ (applyAll srv.toCaller s.tree cs).2 = true →
    s'.calls = s.calls ++ cs ∧ s'.launched ≠ s.launched
  rejected : ¬ (good ∧ (applyAll srv.toCaller s.tree cs).2 = true) →
    s'.launched = s.launched ∧ s'.events = s.events

section
variable {srv : Server} {s s' : WorkState} {o : List (Str × Json)} {body : Str}
  {cs : List (Call Str)} {c : Call Str} {good : Prop}

theorem Carries.stops (h : ¬ good) : Carries srv [] good s s :=
  ⟨rfl, fun hg => absurd hg.1 h, fun _ => ⟨rfl, rfl⟩⟩

theorem Carries.raises (h : c.apply srv.toCaller s.tree = none) :
    Carries srv (c :: cs) good s s := by
  constructor <;> simp [applyAll, h]

theorem Carries.called {t : Tree Str Str} (h : c.apply srv.toCaller s.tree = some t)
    (hf : Carries srv cs good (s.called t c) s') : Carries srv (c :: cs) good s s' := by
  obtain ⟨ht, hl, hr⟩ := hf
  constructor <;> simp only [applyAll, h]
  · exact ht
  · intro hg
    obtain ⟨hc, hn⟩ := hl hg
    exact ⟨by simpa using hc, hn⟩
  · exact hr

theorem exec_orRaise {α β : Type} (x : Option α) (e : Raised) (k : α → Work β) :
    exec (orRaise x e >>= k) srv s =
      match x with
      | some v => exec (k v) srv s
      | none => (.error e, s) := by
  rcases x <;> rfl

/-- A call of the file system, and what comes after it. -/
theorem Carries.fileCall {k : Unit → Work Unit}
    (h : ∀ s, Carries srv cs good s (exec (k ()) srv s).2) :
    Carries srv (c :: cs) good s (exec (fileCall c >>= k) srv s).2 := by
  have he : exec (PackageBuilder.fileCall c >>= k) srv s =
      match c.apply srv.toCaller s.tree with
      | some t => exec (k ()) srv (s.called t c)
      | none => (.error .osError, s) := by
    simp only [PackageBuilder.fileCall, exec_bind, exec_read, exec_get]
    rcases c.apply srv.toCaller s.tree <;> simp
  rw [he]
  rcases hc : c.apply srv.toCaller s.tree with _ | t
  · exact .raises hc
  · exact .called hc (h _)

/-- Of the last two steps, only the first can fail without a builder. -/
theorem launch_carries {manifest : Str} {version e : Json} :
    Carries srv [] (srv.spawns = true ∧ version.text?.any srv.accepts = true) s
      (exec (do launchBuilder manifest version; sendReply e) srv s).2 := by
  simp only [launchBuilder, sendReply, bind_assoc, exec_orRaise]
  rcases version.text? with _ | arg
  · exact .stops (by simp)
  · rcases ha : srv.accepts arg <;> rcases hs : srv.spawns <;> rcases hr : srv.answers.reply <;>
      constructor <;> simp [exec_bind, applyAll, ha, hs, hr]

theorem serveRun_carries {jobId clientId version : Json} {issue : Str}
    (hj : field? o "job_id" = some jobId) (hv : field? o "bioc_version" = some version) :
    Carries srv (runPlan srv o body issue) ((runDirOf o).isSome = true ∧ Launches srv o) s
      (exec (serveRun o body jobId clientId version (issuePath srv issue)) srv s).2 := by
  unfold serveRun item
  rw [exec_bind, exec_read]
  simp only [exec_orRaise]
  have hno : runDirOf o = none → Carries srv (runPlan srv o body issue)
      ((runDirOf o).isSome = true ∧ Launches srv o) s s := by
    intro hr
    rw [runPlan, hr]
    exact .stops (by simp)
  rcases h1 : field? o "svn_url" with _ | url
  · exact hno (by simp [runDirOf, h1])
  simp only
  rcases h2 : url.text? with _ | text
  · exact hno (by simp [runDirOf, h1, h2])
  simp only
  rcases h3 : (text.splitOn '/')[3]? with _ | user
  · refine hno (by simp [runDirOf, h1, h2] at h3 ⊢; omega)
  simp only
  rcases h4 : (text.splitOn '/')[4]? with _ | pkg
  · refine hno (by simp [runDirOf, h1, h2] at h4 ⊢; omega)
  have hrun : runDirOf o = ((field? o "commit_id").getD jobId).text? := by
    have hlen : 5 ≤ (text.splitOn '/').length := by
      have := (List.getElem?_eq_some_iff.mp h4).1
      omega
    simp only [runDirOf, h1, h2, hj, Option.bind_some, Option.any_some, hlen]
    rcases field? o "commit_id" <;> rfl
  simp only
  rcases h5 : ((field? o "commit_id").getD jobId).text? with _ | runDir
  · exact hno (hrun.trans h5)
  have hlaunch : ((runDirOf o).isSome = true ∧ Launches srv o) =
      (srv.spawns = true ∧ version.text?.any srv.accepts = true) := by
    simp [hrun, h5, Launches, hv]
  rw [hlaunch, runPlan, hrun, h5]
  apply Carries.fileCall
  intro s
  apply Carries.fileCall
  intro s
  apply Carries.fileCall
  intro s
  exact launch_carries

/-- A request does to the file system what its plan says, and launches a builder if and only if
all its fields are good and no call raises. -/
theorem serve_carries :
    Carries srv (plan srv o body) (Complete srv o) s (exec (serve o body) srv s).2 := by
  unfold serve item
  rw [exec_bind, exec_read]
  simp only [exec_orRaise]
  have hno : issueOf o = none → Carries srv (plan srv o body) (Complete srv o) s s := by
    intro hi
    rw [plan, hi]
    exact .stops (by simp [Complete, hi])
  rcases h1 : field? o "job_id" with _ | jobId
  · exact hno (by simp [issueOf, h1])
  rcases h2 : field? o "client_id" with _ | clientId
  · exact hno (by simp [issueOf, h2])
  simp only
  rcases h3 : clientId.text? with _ | text
  · exact hno (by simp [issueOf, h2, h3])
  simp only
  rcases h4 : (text.splitOn ':')[1]? with _ | issue
  · exact hno (by simp [issueOf, h2, h3, h4])
  simp only
  rcases h5 : field? o "bioc_version" with _ | version
  · exact hno (by simp [issueOf, h5])
  have hi : issueOf o = some issue := by simp [issueOf, h1, h2, h3, h4, h5]
  have hgood : Complete srv o = ((runDirOf o).isSome = true ∧ Launches srv o) := by
    simp [Complete, hi]
  rw [plan, hi, hgood]
  apply Carries.fileCall
  intro s
  apply Carries.fileCall
  intro s
  apply Carries.fileCall
  intro s
  exact serveRun_carries h1 h5

end

end PackageBuilder
