import PackageBuilder.Builder.Stages

/-! The source build, the check and the binary build of builder.py, its exit handler and its
main program. -/
namespace PackageBuilder
open Text Effect

/-- The test `get_source_tarball_name` makes on each entry. -/
def isTarball (pkgname file : Str) : Bool :=
  decide (pkgname <:+: file) && decide ((".tar.gz" : Str) <:+: file) &&
    !decide ((".orig" : Str) <:+: file)

def tarballPkgname (m : Manifest) : Str := replaceAll (lit ".tar.gz") "" m.packageName

def getSourceTarballName : Builder (Option Str) := do
  let env ← environment
  let files ← osListdir
  let tarball := files.find? (isTarball (tarballPkgname env.manifest))
  modify (·.answered tarball)
  return tarball

/-- `%s` of a name that may be `None`. -/
def showName : Option Str → Str
  | some name => name
  | none => "None"

/-- `tarball.split("_")[0]` -/
def stem (tarball : Str) : Str := (tarball.splitOn '_').headD []

/-- It raises on `None`. -/
def tarballStem : Option Str → Builder Str
  | some tarball => pure (stem tarball)
  | none => throw .attributeError

def timeoutLimit (env : Env) (longBuild : Bool) : Nat :=
  if longBuild then 10800 else env.timeoutLimit

def banner (title : Str) : Str :=
  "\n===============================\n\n " ++ title ++ "\n\n===============================\n\n"

def timeoutNote (what : Str) (retcode : Int) (secs : Nat) (unit : Str) : Str :=
  if retcode = -9 then
    " ERROR\nTIMEOUT: " ++ what ++ " exceeded " ++ natStr (secs / 60) ++ unit ++ "\n\n\n"
  else ""

/-- What R.out or Rbuildbin.out holds in the end. -/
def buildText (limit : Nat) (p : Process) : Str :=
  banner "R CMD BUILD" ++ p.output.text ++ timeoutNote "R CMD build" p.status limit " mins"

def buildProcess (env : Env) (sourceBuild : Bool) : Process :=
  if sourceBuild then env.build else env.buildbin

def buildOutfile (sourceBuild : Bool) : Str := if sourceBuild then "R.out" else "Rbuildbin.out"

def doBuild (cmd : Str) (sourceBuild : Bool) : Builder Int := do
  let env ← environment
  openFresh (buildOutfile sourceBuild)
  let retcode ← call cmd (buildProcess env sourceBuild)
  let limit := timeoutLimit env (← get).longBuild
  modify (·.built (buildText limit (buildProcess env sourceBuild)))
  return retcode

/-- `if not os.path.exists(libdir): os.mkdir(libdir)` -/
def makeMissing (libdir : Str) : Builder Unit := do
  if ← osPathExists libdir then
    pure ()
  else
    osMkdir libdir

def winLibdir (tarball : Str) : Str := stem tarball ++ ".buildbin-libdir"

def winBuildbinCmd (env : Env) (tarball : Option Str) (libdir : Str) : Str :=
  env.bbsRCmd ++ " CMD INSTALL --build --library=" ++ libdir ++ " " ++ showName tarball

def winBuildbin : Builder Int := do
  let env ← environment
  let tarball ← getSourceTarballName
  let pkg ← tarballStem tarball
  let libdir := pkg ++ ".buildbin-libdir"
  if ← osPathExists libdir then
    let _ ← callCommand ("rm -rf " ++ libdir) false
  makeMissing libdir
  let cmd := winBuildbinCmd env tarball libdir
  sendMessage { status := .rBuildbinCmd, body := some cmd }
  doBuild cmd false

/-- The type of a binary build does not come from the node's specification. -/
def binaryType : System → Str
  | .darwin => "mac.binary"
  | .windows => "win.binary"
  | .linux | .other => "source"

def buildCmd (env : Env) : Str :=
  env.bbsRCmd ++ " CMD build --keep-empty-dirs --no-resave-data " ++ env.manifest.packageName

def buildUniversalCmd (env : Env) (tarball : Option Str) : Str :=
  env.bbsHome ++ "/utils/build-universal.sh " ++ showName tarball ++ " " ++ env.bbsRCmd ++ " " ++
    "libdir"

/-- `r_cmd`, or `none` where no branch assigns it. -/
def buildCommand (sourceBuild : Bool) (pkgType : Str) : Builder (Option Str) := do
  let env ← environment
  if sourceBuild then
    return some (buildCmd env)
  else if pkgType = "mac.binary" then
    let libdir : Str := "libdir"
    if ← osPathExists libdir then
      let _ ← callCommand ("rm -rf " ++ libdir) false
    makeMissing libdir
    let tarball ← getSourceTarballName
    return some (buildUniversalCmd env tarball)
  else
    return none

def runBuild (sourceBuild : Bool) (pkgType : Str) (rCmd : Option Str) : Builder Int := do
  if !sourceBuild && pkgType = "win.binary" then
    winBuildbin
  else
    match rCmd with
    | none => throw (.unboundLocalError "r_cmd")
    | some cmd =>
      sendMessage {
        status := if sourceBuild then .rCmd else .rBuildbinCmd, body := some cmd }
      doBuild cmd sourceBuild

def hasLine (mark : Str) (out : Str) : Bool :=
  (out.splitOn '\n').any fun line => decide (mark <:+: line)

/-- The return code of a build after the scan of its output and the time rule. -/
def buildRetcode (env : Env) (longBuild : Bool) (out : Str) (secs : Nat) (retcode : Int) : Int :=
  let retcode := if hasLine "ERROR:" out then 1 else retcode
  if timeoutLimit env longBuild ≤ secs then -9 else retcode

/-- `os.path.getsize(tarname)` -/
def osPathGetsize (tarname : Str) : Builder Nat := do
  let env ← environment
  if env.kind tarname = .dangling then
    throw (.fileNotFoundError tarname)
  return env.tarballSize tarname

def reportsUrl : Str := "webadmin@master.bioconductor.org:/extra/www/bioc/spb_reports"

def copyCmd (env : Env) (tarname : Str) : Str :=
  env.scpCmd ++ " " ++ tarname ++ " " ++ reportsUrl ++ "/" ++ tarname

/-- Size and copy of a built tarball; `os.path.getsize` raises on `None`, before the later
test for it. -/
def uploadTarball (tarname : Option Str) : Builder Unit := do
  let env ← environment
  match tarname with
  | none => throw .typeError
  | some tarname =>
    let rawsize ← osPathGetsize tarname
    sendMessage {
      status := .postProcessing
      retcode := some 0
      body := some ("Determining package size complete: " ++
        formatFixed 4 (rawsize / (1024 * 1024)) ++ "MB. ")
      filesize := some (formatFixed 2 (rawsize / 1024)) }
    let scpCode ← call (copyCmd env tarname) env.scp
    sendMessage {
      status := .postProcessing
      retcode := some scpCode
      body := some "Adding Build Product Information to Database."
      buildProduct := some tarname }

/-- `build_package` after the build itself. -/
def reportBuild (sourceBuild : Bool) (retcode : Int) : Builder Int := do
  let env ← environment
  let elapsed := (buildProcess env sourceBuild).elapsed
  sendMessage {
    status := .postProcessing
    retcode := some retcode
    body := some ("Build Package status: " ++ str retcode ++ ". ") }
  let out := (← get).buildOut
  modify (·.warned (hasLine "WARNING:" out))
  let retcode := buildRetcode env (← get).longBuild out (seconds elapsed) retcode
  let tarname ← getSourceTarballName
  if retcode = 0 ∧ sourceBuild then
    uploadTarball tarname
  sendMessage { status := if sourceBuild then .building else .buildingbin, body := some out }
  let warnings := (← get).warnings
  sendMessage {
    status := if sourceBuild then .buildComplete else .buildbinComplete
    retcode := some retcode
    warnings := some warnings
    body := some ("Build completed with status " ++ str retcode)
    elapsedTime := some (elapsedTime elapsed) }
  return if retcode = -4 ∨ retcode = -6 then 0 else retcode

def completeBuild (sourceBuild : Bool) (pkgType : Str) (rCmd : Option Str) : Builder Int := do
  sendMessage {
    status := .preprocessing, retcode := some 0, body := some "Starting Build package. " }
  let retcode ← runBuild sourceBuild pkgType rCmd
  reportBuild sourceBuild retcode

def buildPackage (sourceBuild : Bool) : Builder Int := do
  let env ← environment
  if !sourceBuild && env.nodeSpec.pkgType = "source" then
    sendMessage { status := .skipBuildbin, body := some "skipped" }
    return 0
  else if sourceBuild then
    let rCmd ← buildCommand true env.nodeSpec.pkgType
    completeBuild true env.nodeSpec.pkgType rCmd
  else
    let pkgType := binaryType env.system
    sendMessage { status := .startingBuildbin, body := some "" }
    let rCmd ← buildCommand false pkgType
    completeBuild false pkgType rCmd

/-- Over ten minutes is too slow for a software package. -/
def slowCheck (views : Str) (secs : Nat) : Bool := 600 ≤ secs && views == "Software"

/-- The status of R CMD check after both time rules. -/
def checkRetcode1 (limit : Nat) (views : Str) (secs : Nat) (status : Int) : Int :=
  let retcode1 := if slowCheck views secs then -4 else status
  if limit ≤ secs then -9 else retcode1

def checkRetcode2 (limit secs : Nat) (status : Int) : Int :=
  if limit ≤ secs then -9 else status

/-- The verdict of a check from its three statuses. -/
def checkVerdict (retcode1 retcode2 gitcloneRetcode : Int) : Int :=
  if retcode1 = 0 ∧ retcode2 = 0 ∧ gitcloneRetcode = 0 then 0
  else if retcode1 = -4 ∧ retcode2 = 0 ∧ gitcloneRetcode = 0 then -4
  else if retcode1 = -9 ∨ retcode2 = -9 then -9
  else 1

def lineWarns (line : Str) : Bool :=
  decide (("WARNING" : Str) <:+ rstrip line) || decide (("WARNING:" : Str) <:+: line)

def checkWarns (out : Str) : Bool := (out.splitOn '\n').any lineWarns

/-- `warntime` is only set by the rule about slow checks. -/
def warntimeNote (retcode1 : Int) (slow : Bool) : Builder Unit := do
  if retcode1 = -4 ∧ !slow then
    throw (.unboundLocalError "warntime")

/-- The lines of CheckGitClone.out, read as text. -/
def readGitClone (p : Process) : Builder Str :=
  if p.output.decodes then pure (universalNewlines p.output.text) else throw .unicodeDecodeError

/-- `out_fh.write` of a banner with this name in it. -/
def writeName (name : Str) : Builder Unit := do
  let env ← environment
  if !env.encodes name then
    throw .unicodeEncodeError

/-- What Rcheck.out holds in the end. -/
def checkText (env : Env) (label gitcheck : Str) (retcode1 retcode2 : Int) : Str :=
  banner ("BiocCheckGitClone('" ++ env.manifest.packageName ++ "')") ++ gitcheck ++ "\n\n\n" ++
  banner "R CMD CHECK" ++ env.check.output.text ++
  timeoutNote "R CMD check" retcode1 (seconds env.check.elapsed) " mins" ++
  (if retcode1 = -4 then (" WARNING: R CMD check exceeded 10 min requirement\n\n\n" : Str)
    else "") ++ "\n\n\n" ++
  banner ("BiocCheck('" ++ label ++ "')") ++ env.biocCheck.output.text ++
  timeoutNote "BiocCheck" retcode2 (seconds env.biocCheck.elapsed) "mins"

/-- `cmdCheck.split(" ")[-1]` -/
def lastWord (cmd : Str) : Str := (cmd.splitOn ' ').getLastD []

def doCheck (cmdCheck cmdBiocCheck : Str) : Builder Int := do
  let env ← environment
  let s ← get
  let limit := timeoutLimit env s.longBuild
  removeExisting "Rcheck.out"
  sendMessage {
    status := .writeGitclone, body := some "writing bioccheckgitclone results" }
  openW "Rcheck.out"
  writeName env.manifest.packageName
  let gitcheck ← readGitClone env.checkgitclone
  sendMessage { status := .rCheck, body := some "starting R CMD check" }
  let status1 ← call cmdCheck env.check
  let secs := seconds env.check.elapsed
  let retcode1 := checkRetcode1 limit s.pkgTypeViews secs status1
  warntimeNote retcode1 (slowCheck s.pkgTypeViews secs)
  sendMessage { status := .biocCheck, body := some "starting BiocCheck" }
  let label := lastWord cmdCheck
  writeName label
  let status2 ← call cmdBiocCheck env.biocCheck
  let retcode2 := checkRetcode2 limit (seconds env.biocCheck.elapsed) status2
  let out := checkText env label gitcheck retcode1 retcode2
  -- a local of the function, not the module's flag
  let warnings := checkWarns out
  let retcode := checkVerdict retcode1 retcode2 s.gitcloneRetcode
  sendMessage {
    status := .checkComplete
    retcode := some retcode
    warnings := some warnings
    body := some "Check completed"
    elapsedTime := some (elapsedTime env.check.elapsed) }
  sendMessage { status := .checking, body := some out }
  return retcode

def checkCmd (env : Env) (tarball : Str) : Str :=
  env.bbsRCmd ++ " CMD check --no-vignettes --timings --library=" ++ libDir env ++
    " --install=check:" ++ installOutputFile env ++ " " ++
    (if env.system = .windows then ("--no-multiarch" : Str) else []) ++ " " ++ tarball

def biocCheckCmd (env : Env) (tarball : Str) : Str :=
  rscriptBinary env ++ " " ++ pathJoin env.spbHome "BiocCheckScript.R" ++ " " ++ tarball ++ " " ++
    env.manifest.newpackage.getD "True"

def checkPackage : Builder Int := do
  let env ← environment
  sendMessage { status := .startingCheck, body := some "" }
  let tarball ← getSourceTarballName
  let _ ← tarballStem tarball
  let cmdCheck := checkCmd env (showName tarball)
  sendMessage {
    status := .checkCmd
    body := some ("BiocCheckGitClone('" ++ env.manifest.packageName ++ "')  &&  " ++ cmdCheck ++
      "  &&  BiocCheck('" ++ showName tarball ++ "',  `new-package`=TRUE)") }
  sendMessage {
    status := .preprocessing, retcode := some 0, body := some "Starting Check package. " }
  let retcode ← doCheck cmdCheck (biocCheckCmd env (showName tarball))
  sendMessage {
    status := .postProcessing
    retcode := some retcode
    body := some (if retcode = -4 then ("WARNING: check time exceeded 10 min. " : Str)
      else "Checking Package status: " ++ str retcode ++ ". ") }
  return retcode

def cleanUpWindows (pathTar : Str) : Builder Unit := do
  removeExisting (replaceAll (lit ".tar.gz") ".zip" pathTar)
  let libDir := winLibdir pathTar
  if ← osPathExists libDir then
    osSystem ("rm -rf " ++ libDir)
  removeExisting "1err.txt"
  removeExisting "1out.txt"
  removeExisting "2err.txt"
  removeExisting "2out.txt"

def cleanUpDarwin (pathTar : Str) : Builder Unit := do
  removeExisting (replaceAll (lit ".tar.gz") ".tgz" pathTar)
  if ← osPathExists "libdir" then
    osSystem "rm -rf libdir"

def cleanUpDir : Builder Unit := do
  let env ← environment
  let pkgDirName := env.manifest.packageName
  let tarball ← getSourceTarballName
  let pathTar := tarball.getD (pkgDirName ++ ".tar.gz")
  removeExisting pathTar
  if env.system = .windows then
    cleanUpWindows pathTar
  if env.system = .darwin then
    cleanUpDarwin pathTar
  if ← osPathExists pkgDirName then
    osSystem ("rm -rf " ++ pkgDirName)

def onexit : Builder Unit := do
  modify (·.exits)
  let url := (← get).svnUrlGlobal.getD "undefined"
  cleanUpDir
  sendMessage {
    status := .autoexit
    body := some "builder.py exited"
    retcode := some (-1)
    svnUrl := some url }

def checkVersion : Builder Unit := do
  let env ← environment
  match env.manifest.biocVersion with
  | none => throw (.keyError "bioc_version")
  | some v => if v ≠ env.biocVersion then throw (.systemExit "BioC version not supported")

/-- The last two events of a run that got through. -/
def sendNormalEnd : Builder Unit := do
  sendMessage {
    status := .postProcessingComplete
    retcode := some 0
    body := some "Post-processing complete." }
  let warnings := (← get).warnings
  sendMessage {
    status := .normalEnd
    body := some (if warnings then ("Build completed with warnings." : Str)
      else "Build successful.") }

/-- What follows a source build that returned 0. -/
def checkAndFinish : Builder Unit := do
  modify (·.warned false)
  let _ ← checkPackage
  let _ ← buildPackage false
  sendNormalEnd

/-- The run from `get_dcf_info` on. -/
def buildAndCheck : Builder Unit := do
  checkPlatform
  getPackageType
  let _ ← installPkgDeps
  let gitcloneRetcode ← checkgitclone
  modify (·.cloneChecked gitcloneRetcode)
  let _ ← installPkg
  let result ← buildPackage true
  if result = 0 then
    checkAndFinish

/-- The run up to `get_dcf_info`. -/
def fetchPackage : Builder Unit := do
  checkVersion
  sendMessage { status := .builderStarted }
  getNodeInfo
  gitClone

def main : Builder Unit := do
  fetchPackage
  getDcfInfo
  buildAndCheck

/-- A whole run after `setup` and the first connection: an exception out of `main` only ends it
early, and `onexit` follows in every case. -/
def builderRun (env : Env) (w : World) (cwd : List Str) : St :=
  (exec onexit (env, w) (exec main (env, w) { cwd }).2).2

end PackageBuilder
