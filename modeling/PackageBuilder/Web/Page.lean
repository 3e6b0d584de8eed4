import PackageBuilder.Library.Framing
import PackageBuilder.Messages

/-! The page of the front end (packagebuilder.js): what it makes of the messages that reach it. -/
namespace PackageBuilder
open Text

/-- The name of a host that stays as it is in a selector, and is not the one in the templates: the
script never finds the elements of a name with a dot in it. -/
structure NodeName where
  text : Str
  plain : ∀ c ∈ text, c.isAlphanum = true ∨ c = '-'
  noTemplate : text ≠ "NODENAME"
  deriving DecidableEq

/-- The cases of the listener of `message` events. -/
inductive Topic
  | svnInfo | dcfInfo | nodeInfo | buildNotRequired | building | checking | clearCheckConsole
  | buildingbin | complete | postProcessing | postProcessingComplete | buildFailed | rCmd
  | rBuildbinCmd | buildComplete | buildbinComplete | invalidUrl | checkCmd | checkComplete
  | startingBuildbin | skipBuildbin | other
  deriving DecidableEq, Repr

/-- What the page parses a message to, `none` for a key that it lacks. -/
structure Received where
  status : Topic
  node : NodeName
  body : Option Str := none
  time : Option Str := none
  elapsedTime : Option Str := none
  resultCode : Option Int := none
  retcode : Option Int := none
  result : Option Int := none
  warnings : Bool := false
  filesize : Option Str := none
  buildProduct : Option Str := none
  url : Option Str := none
  os : Option Str := none
  arch : Option Str := none
  rVersion : Option Str := none
  jobId : Option Str := none
  packageName : Option Str := none
  version : Option Str := none
  maintainer : Option Str := none
  svnUrl : Option Str := none
  lastChangedRev : Option Str := none
  revision : Option Str := none
  lastChangedDate : Option Str := none

/-- `message['maintainer'].split(" <")[0]` -/
def maintainerName (s : Str) : Str := (Framing.cut " <" s).elim s Prod.fst

namespace Received
variable (x : Received)

/-- The texts that are put into elements. -/
def texts : List Str :=
  [x.body, x.time, x.elapsedTime, x.filesize, x.buildProduct, x.url, x.os, x.arch, x.rVersion,
    x.jobId, x.packageName, x.version, x.maintainer.map maintainerName, x.svnUrl, x.lastChangedRev,
    x.revision, x.lastChangedDate].filterMap id

/-- The texts that the attribute of a link is made of. -/
def linked : List Str := [x.buildProduct, x.url].filterMap id

/-- jQuery takes the texts for HTML, so they must not begin a tag, or end the attribute. -/
def Plain : Prop := (∀ t ∈ x.texts, '<' ∉ t) ∧ ∀ t ∈ x.linked, '\'' ∉ t

instance : Decidable x.Plain := inferInstanceAs (Decidable (_ ∧ _))

variable {x}

theorem Plain.of_textless (ht : x.texts = []) (hl : x.linked = []) : x.Plain := by
  constructor
  · intro t hm
    rw [ht] at hm
    cases hm
  · intro t hm
    rw [hl] at hm
    cases hm

end Received

/-- A message whose texts are shown as they are. -/
structure Notice extends Received where
  plain : toReceived.Plain

inductive PageStage
  | build | check | buildbin | postprocessing
  deriving DecidableEq, Repr

inductive Badge
  | ok | error | warnings | inProgress | skipped
  deriving DecidableEq, Repr

def Badge.className : Badge → Str
  | .ok => "OK"
  | .error => "ERROR"
  | .warnings => "WARNINGS"
  | .inProgress => "IN_PROGRESS"
  | .skipped => "skipped"

/-- The classes that `handleEvent` removes. -/
def badgeClasses : List Str := ["OK", "ERROR", "WARNINGS", "IN_PROGRESS", "skipped", "TIMEOUT"]

/-- An element that the script selects, with the pieces of text that were put into it. -/
structure Element where
  id : Str := []
  classes : List Str := []
  content : List Str := []
  deriving DecidableEq, Repr

/-- In the order they were added: no identifier is in a row and in a summary, so the first element of
an identifier is the same as in the page. -/
abbrev Document := List Element

/-- `jQuery("#" + id)` is the first element. -/
def byId (id : Str) (f : Element → Element) : Document → Document
  | [] => []
  | e :: d => if e.id = id then f e :: d else e :: byId id f d

/-- `jQuery("." + c)` -/
def byClass (c : Str) (f : Element → Element) (d : Document) : Document :=
  d.map fun e => if c ∈ e.classes then f e else e

namespace Element

/-- `html` without a value only reads. -/
def html (v : Option Str) (e : Element) : Element := { e with content := v.elim e.content ([·]) }

def append (v : Option Str) (e : Element) : Element := { e with content := e.content ++ v.toList }

def addClass (c : Str) (e : Element) : Element :=
  if c ∈ e.classes then e else { e with classes := e.classes ++ [c] }

def removeClass (cs : List Str) (e : Element) : Element :=
  { e with classes := e.classes.filter (· ∉ cs) }

end Element

/-- The identifier of an element of a node. -/
def nodeId (node : NodeName) (name : Str) : Str := node.text ++ '_' :: name

def PageStage.mark : PageStage → Str
  | .build => "EVENT"
  | .check => "CHECK_EVENT"
  | .buildbin => "BUILDBIN_EVENT"
  | .postprocessing => "POSTPROCESSING_EVENT"

/-- The class of the badges of a stage. -/
def selector (node : NodeName) (stage : PageStage) : Str := nodeId node stage.mark

def badgeElement (node : NodeName) (id : Str) (stage : PageStage) (content : List Str) : Element where
  id := id
  classes := [Badge.inProgress.className, selector node stage]
  content := content

/-- `#appendMe`, without the elements that the script never selects. -/
def appendMe (node : NodeName) : Document :=
  [{ id := "nodeinfo_" ++ node.text },
    badgeElement node [] .build ["&nbsp;IN&nbsp;PROGRESS&nbsp;"],
    badgeElement node (nodeId node "check_event") .check [],
    badgeElement node (nodeId node "buildbin_event") .buildbin [],
    badgeElement node (nodeId node "postprocessing_event") .postprocessing []]

/-- `#summary_template`, likewise. -/
def summaryTemplate (node : NodeName) : Document :=
  [{ id := nodeId node "package_name" }, { id := nodeId node "version" },
    { id := nodeId node "r_version" }, { id := nodeId node "command" },
    { id := nodeId node "check_command" }, { id := nodeId node "buildbin_command" },
    { id := nodeId node "started_at" }, { id := nodeId node "ended_at" },
    { id := nodeId node "elapsed_time" }, { id := nodeId node "ret_code" },
    badgeElement node (nodeId node "status") .build ["&nbsp;IN&nbsp;PROGRESS&nbsp;"],
    { id := nodeId node "build_product" }, { id := nodeId node "file_size" },
    { id := nodeId node "build_id" }, { id := nodeId node "post_processing" },
    { id := nodeId node "install_command" }, { id := nodeId node "console" },
    { id := nodeId node "check_console" }, { id := nodeId node "buildbin_console" }]

/-- The variables of the script, whether `#initially_hidden` is hidden, and the document. -/
structure Page where
  gotSvnInfo : Bool := false
  gotDcfInfo : Bool := false
  handledInvalidUrl : Bool := false
  packageName : Option Str := none
  hidden : Bool := false
  document : Document

namespace Page

def html (id : Str) (v : Option Str) (p : Page) : Page :=
  { p with document := byId id (·.html v) p.document }

def append (id : Str) (v : Option Str) (p : Page) : Page :=
  { p with document := byId id (·.append v) p.document }

/-- What `+` makes of a key that a message lacks. -/
def shown (v : Option Str) : Str := v.getD "undefined"

/-- The script that is shown to install a package. -/
def installCommand (source command : Str) (p : Page) : Str :=
  "source(\"" ++ source ++ "\")\n" ++ command ++ "(\"" ++ shown p.packageName ++ "\")"

def courseInstall (p : Page) : Str :=
  p.installCommand "http://bioconductor.org/course-packages/courseInstall.R" "courseInstall"

def pkgInstall (p : Page) : Str :=
  p.installCommand "http://bioconductor.org/scratch-repos/pkgInstall.R" "pkgInstall"

/-- The stages that are skipped after an error in one. -/
def skippedAfter : PageStage → List PageStage
  | .build => [.check, .buildbin, .postprocessing]
  | .check | .buildbin => [.postprocessing]
  | .postprocessing => []

/-- `handleEvent`, but for the calls of itself. -/
def setBadge (event : Badge) (node : NodeName) (stage : PageStage) (p : Page) : Page :=
  let label : Str := "&nbsp;&nbsp;" ++ replaceAll (lit "_") "&nbsp;" event.className ++ "&nbsp;&nbsp;"
  { p with
    document := byClass (selector node stage) (·.html (some label))
      (byClass (selector node stage) (·.addClass event.className)
        (byClass (selector node stage) (·.removeClass badgeClasses) p.document)) }

def handleEvent (event : Badge) (node : NodeName) (stage : PageStage) (p : Page) : Page :=
  let p := p.setBadge event node stage
  if event = .error then (skippedAfter stage).foldl (fun p s => p.setBadge .skipped node s) p else p

def handleSvnInfo (x : Notice) (p : Page) : Page :=
  if p.gotSvnInfo then p
  else
    { p with gotSvnInfo := true }
      |>.html "svn_info_snapshot_date" x.time
      |>.html "svn_info_svn_url" x.svnUrl
      |>.html "svn_last_changed_rev" x.lastChangedRev
      |>.html "svn_revision" x.revision
      |>.html "svn_last_changed_date" x.lastChangedDate

def handleClearCheckConsole (x : Notice) (p : Page) : Page :=
  p.html (nodeId x.node "check_console") (some [])

/-- What `handleDcfInfo` shows of the node. -/
def showVersion (x : Notice) (p : Page) : Page :=
  p |>.html (nodeId x.node "package_name") x.packageName
    |>.html (nodeId x.node "version") x.version

/-- Without a maintainer, the first message raises where its name is to be shown. -/
def handleDcfInfo (x : Notice) (p : Page) : Page :=
  if p.gotDcfInfo then p.showVersion x
  else
    let p := { p with gotDcfInfo := true, packageName := x.packageName }
      |>.html "package_name" x.packageName
      |>.html "package_version" x.version
    match x.maintainer with
    | none => p
    | some maintainer =>
      p |>.html "package_maintainer" (some (maintainerName maintainer))
        |>.showVersion x

def gotNewNode (x : Notice) (p : Page) : Page :=
  let p := { p with document := p.document ++ appendMe x.node }
    |>.html ("nodeinfo_" ++ x.node.text) (some (shown x.os ++ '/' :: shown x.arch))
  { p with document := p.document ++ summaryTemplate x.node }
    |>.html (nodeId x.node "r_version") x.rVersion
    |>.html (nodeId x.node "build_id") x.jobId

def handleBuildNotRequired (x : Notice) (p : Page) : Page :=
  p |>.append (nodeId x.node "console") x.body
    |>.html (nodeId x.node "install_command") (some p.courseInstall)
    |>.handleEvent .skipped x.node .build

/-- The output of a stage. -/
def handleOutput (console : Str) (x : Notice) (p : Page) : Page :=
  p.append (nodeId x.node console) x.body

def handleBuilding : Notice → Page → Page := handleOutput "console"
def handleChecking : Notice → Page → Page := handleOutput "check_console"
def handleBuildingBin : Notice → Page → Page := handleOutput "buildbin_console"

def handleComplete (x : Notice) (p : Page) : Page :=
  p.handleEvent (if x.result = some 0 then .ok else .error) x.node .postprocessing

def handleRBuildBinCmd (x : Notice) (p : Page) : Page :=
  p.html (nodeId x.node "buildbin_command") x.body

/-- What a return code and the warnings say of a stage. -/
def statusOf (x : Notice) : Badge :=
  if x.resultCode = some 0 then if x.warnings then .warnings else .ok else .error

/-- The end of a stage that builds. -/
def handleBuilt (stage : PageStage) (x : Notice) (p : Page) : Page :=
  p |>.html (nodeId x.node "ended_at") x.time
    |>.html (nodeId x.node "elapsed_time") x.elapsedTime
    |>.html (nodeId x.node "ret_code") (x.resultCode.map str)
    |>.handleEvent (statusOf x) x.node stage

def handleBuildComplete : Notice → Page → Page := handleBuilt .build
def handleBuildBinComplete : Notice → Page → Page := handleBuilt .buildbin

/-- What `if (message[key])` takes for true. -/
def given : Option Str → Option Str
  | some [] | none => none
  | some s => some s

/-- The part of `handlePostProcessing` that only writes text. -/
def showStep (body : Option Str) (x : Notice) (p : Page) : Page :=
  let console := nodeId x.node "post_processing"
  let p := p.append console (some (shown body ++ "..."))
  let p :=
    if body = some "Synced repository to website" ∨ body = some "Skipped synchronization step" then
      p.append console (some "DONE.")
    else p
  let p :=
    match given x.buildProduct, given x.url with
    | some product, some url =>
      let link := "<a href='" ++ url ++ '/' :: product ++ "'>" ++ product ++ "</a>"
      let script := if ("scratch" : Str) <:+: url then p.pkgInstall else p.courseInstall
      p |>.html (nodeId x.node "build_product") (some link)
        |>.html (nodeId x.node "install_command") (some script)
    | _, _ => p
  match given x.filesize with
  | some size => p.html (nodeId x.node "file_size") (some size)
  | none => p

def handlePostProcessing (x : Notice) (p : Page) : Page :=
  if x.retcode ≠ some 0 then
    p |>.handleEvent .error x.node .postprocessing
      |>.showStep (some ("ERROR during step: " ++ shown x.body)) x
  else p.showStep x.body x

def handlePostProcessingComplete (x : Notice) (p : Page) : Page :=
  p.handleEvent (if x.retcode ≠ some 0 then .error else .ok) x.node .postprocessing

def handleBuildFailed (x : Notice) (p : Page) : Page := p.handleEvent .error x.node .build

def handleBuildStart (x : Notice) (p : Page) : Page :=
  p |>.html (nodeId x.node "command") x.body
    |>.html (nodeId x.node "started_at") x.time

def handleInvalidUrl (x : Notice) (p : Page) : Page :=
  if p.handledInvalidUrl then p
  else { p with handledInvalidUrl := true, hidden := true } |>.html "error" x.body

def handleCheckCmd (x : Notice) (p : Page) : Page :=
  p |>.html (nodeId x.node "check_command") x.body
    |>.handleEvent .inProgress x.node .check

def handleStartingBuildBin (x : Notice) (p : Page) : Page :=
  p.handleEvent .inProgress x.node .buildbin

def handleSkipBuildBin (x : Notice) (p : Page) : Page := p.handleEvent .skipped x.node .buildbin

def handleCheckComplete (x : Notice) (p : Page) : Page := p.handleEvent (statusOf x) x.node .check

/-- The listener of `message` events. -/
def step (p : Page) (x : Notice) : Page :=
  match x.status with
  | .svnInfo => p.handleSvnInfo x
  | .dcfInfo => p.handleDcfInfo x
  | .nodeInfo => p.gotNewNode x
  | .buildNotRequired => p.handleBuildNotRequired x
  | .building => p.handleBuilding x
  | .checking => p.handleChecking x
  | .clearCheckConsole => p.handleClearCheckConsole x
  | .buildingbin => p.handleBuildingBin x
  | .complete => p.handleComplete x
  | .postProcessing => p.handlePostProcessing x
  | .postProcessingComplete => p.handlePostProcessingComplete x
  | .buildFailed => p.handleBuildFailed x
  | .rCmd => p.handleBuildStart x
  | .rBuildbinCmd => p.handleRBuildBinCmd x
  | .buildComplete => p.handleBuildComplete x
  | .buildbinComplete => p.handleBuildBinComplete x
  | .invalidUrl => p.handleInvalidUrl x
  | .checkCmd => p.handleCheckCmd x
  | .checkComplete => p.handleCheckComplete x
  | .startingBuildbin => p.handleStartingBuildBin x
  | .skipBuildbin => p.handleSkipBuildBin x
  | .other => p

/-- The page as it is loaded. -/
def start : Page where
  document :=
    [{ id := "error" }, { id := "svn_info_snapshot_date" }, { id := "svn_info_svn_url" },
      { id := "svn_last_changed_rev" }, { id := "svn_revision" }, { id := "svn_last_changed_date" }]

def run (xs : List Notice) : Page := xs.foldl step start

end Page

end PackageBuilder
