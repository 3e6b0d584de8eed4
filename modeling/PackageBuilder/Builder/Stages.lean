import PackageBuilder.Builder.Environment

/-! The stages of builder.py before the source build. -/
namespace PackageBuilder
open Text Effect

def getRVersion (raw : Str) : Str :=
  replaceAll (lit "R version ") "" ((raw.splitOn '\n').headD [])

def getNodeInfo : Builder Unit := do
  let env ← environment
  sendMessage {
    status := .nodeInfo
    rVersion := some (getRVersion env.rVersionRaw)
    os := some env.nodeSpec.os
    arch := some env.nodeSpec.arch
    platform := some env.nodeSpec.platform
    body := some "node_info"
    biocVersion := some env.biocVersion }

/-- `setup` strips the URL of the manifest it loads. -/
def Manifest.load (m : Manifest) : Manifest := { m with svnUrl := strip m.svnUrl }

/-- The pattern of the source, a slash at the end, cannot meet a final newline: the URL was
stripped. -/
def gitUrl (svnUrl : Str) : Str :=
  let url := if ("/" : Str) <:+ svnUrl then svnUrl.dropLast else svnUrl
  if (".git" : Str) <:+ url then url else url ++ ".git"

def gitCmd (svnUrl : Str) : Str :=
  "git clone " ++ gitUrl svnUrl ++ " --branch devel --single-branch --depth 1"

def gitClone : Builder Unit := do
  let env ← environment
  let cmd := gitCmd env.manifest.svnUrl
  sendMessage { status := .gitCmd, body := some cmd }
  sendMessage { status := .preprocessing, retcode := some 0, body := some "Starting Git clone. " }
  let retcode ← call cmd env.gitClone
  if retcode ≠ 0 then
    sendMessage {
      status := .buildComplete
      retcode := some retcode
      warnings := some false
      body := some ("Git clone Failed with status " ++ str retcode)
      elapsedTime := some "NA" }
    sendMessage {
      status := .postProcessing, retcode := some retcode, body := some "Git clone Failed. " }
    throw (.systemExit "git clone failed")
  else
    sendMessage {
      status := .postProcessing, retcode := some retcode, body := some "Finished Git clone. " }
    sendMessage {
      status := .gitResult
      result := some retcode
      body := some ("git clone completed with status " ++ str retcode) }

def lookupKey (d : Dcf) (key : Str) : Builder Str :=
  match d.get? key with
  | some v => pure v
  | none => throw (.keyError key)

def parseDcf : Builder Dcf := do
  match (← environment).description with
  | .ok d => pure d
  | .error e => throw e

def sendDcfInfo (d : Dcf) : Builder Unit := do
  let maintainer := (d.get? "Maintainer").getD "unknown"
  let package ← lookupKey d "Package"
  let version ← lookupKey d "Version"
  sendMessage {
    status := .dcfInfo
    packageName := some package
    maintainer := some maintainer
    version := some version }

/-- An exception between the `dcf_info` send and the end of its `try` block. -/
def interrupted : Builder Unit := do
  match (← read).2.raisesInDcf with
  | some e => throw e
  | none => pure ()

/-- Both failures of `get_dcf_info` are reported alike. -/
def reportDcfFailure (body : Str) : Builder Unit := do
  sendMessage {
    status := .buildComplete
    retcode := some 1
    warnings := some false
    body := some body
    elapsedTime := some "NA" }
  sendMessage { status := .postProcessing, retcode := some 1, body := some body }

/-- The `try` block of `get_dcf_info`. -/
def readDcfInfo : Builder Str := do
  let d ← parseDcf
  sendDcfInfo d
  interrupted
  lookupKey d "Package"

/-- The bare `except` of `get_dcf_info`. -/
def dcfUnreadable : Builder Str := do
  reportDcfFailure "get_dcf_info failed; could not open. "
  throw (.systemExit "Exiting get_dcf_info check failed")

def checkDescName (descName : Str) : Builder Unit := do
  let packageName := (← environment).manifest.packageName
  if packageName ≠ descName then
    reportDcfFailure ("ERROR: Repository name: '" ++ packageName ++
      "' and DESCRIPTION Package: '" ++ descName ++ "' do not match. ")
    throw (.systemExit "Exiting get_dcf_info check failed")

def getDcfInfo : Builder Unit := do
  let env ← environment
  modify (·.onUrl env.manifest.svnUrl)
  let descName ← tryCatch readDcfInfo fun _ => dcfUnreadable
  checkDescName descName

/-- `key in [x.strip().lower() for x in unsupport.split(",")]` on this system. -/
def isUnsupported (env : Env) (mySys : System) (key : Str) : Bool :=
  match env.unsupportedPlatforms with
  | some unsupport =>
    env.system == mySys && decide (key ∈ (unsupport.splitOn ',').map fun x => env.lower (strip x))
  | none => false

def exitOut (env : Env) : Bool :=
  isUnsupported env env.system env.builderId || isUnsupported env .linux "linux" ||
    isUnsupported env .darwin "mac" || isUnsupported env .windows "win"

def checkPlatform : Builder Unit := do
  let env ← environment
  if exitOut env then
    sendMessage {
      status := .unsupported
      retcode := some 0
      warnings := some false
      body := some "Unsupported Platform"
      elapsedTime := some "NA" }
    sendMessage {
      status := .postProcessing, retcode := some 0, body := some "Unsupported Platform. " }
    throw (.systemExit "unsupported platform")

/-- `subprocess.check_output(cmd, shell=True).decode()` -/
def checkOutput (cmd : Str) (p : Process) : Builder Str := do
  let retcode ← call cmd p
  if retcode ≠ 0 then
    throw (.calledProcessError retcode)
  else if p.output.decodes then
    return p.output.text
  else
    throw .unicodeDecodeError

def rscriptBinary (env : Env) : Str := pathJoin (dirname env.bbsRCmd) "Rscript"

def packageTypeCmd (env : Env) (biocViews : Str) : Str :=
  rscriptBinary env ++ " --vanilla --no-save --no-restore " ++
    pathJoin env.spbHome "getPackageType.R" ++ " " ++ replaceAll (lit ",") "" biocViews

def setPackageType (views : Str) (long : Bool) : Builder Unit :=
  modify (·.typed views long)

/-- The last branch: the only `KeyError` of its `try` block is a missing biocViews. -/
def guessPackageType (d : Dcf) : Builder Unit := do
  let env ← environment
  match d.get? "biocViews" with
  | some views =>
    let out ← checkOutput (packageTypeCmd env views) env.packageType
    setPackageType out (out == "ExperimentData")
  | none => setPackageType "Software" false

def getPackageType : Builder Unit := do
  let env ← environment
  let d ← parseDcf
  let biocType := (d.get? "BiocType").getD "Software"
  setPackageType biocType false
  let biocType := env.lower biocType
  if biocType = "workflow" then
    setPackageType "Workflow" true
  else if biocType = "book" then
    setPackageType "Book" true
  else if biocType = "docker" then
    sendMessage {
      status := .unsupported
      retcode := some 0
      warnings := some false
      body := some "Docker Container"
      elapsedTime := some "NA" }
    sendMessage {
      status := .postProcessing, retcode := some 0, body := some "Docker Container. " }
    throw (.systemExit "docker container")
  else
    guessPackageType d
  let s ← get
  sendMessage {
    status := .postProcessing
    retcode := some 0
    body := some ("Package type: " ++ s.pkgTypeViews ++ ". ") }

def depFields : List Str := ["Depends", "Imports", "Suggests", "Enhances", "LinkingTo"]

/-- `'%s=@@%s@@; ' % (field, DESCRIPTION[field])`, nothing for a missing field. -/
def depArg (d : Dcf) (field : Str) : Str :=
  match d.get? field with
  | some v => field ++ "=@@" ++ v ++ "@@; "
  | none => []

def depArgs (d : Dcf) : Str := depFields.flatMap (depArg d)

/-- The one argument that carries all dependency fields to installPkgDeps.R. -/
def encodeDeps (d : Dcf) : Str :=
  let args := depArgs d
  strip (if strip args = [] then "None=1" else args)

def installDepsLog (env : Env) : Str := env.workingDir ++ "/installDeps.log"

def installDepsCmd (env : Env) (d : Dcf) : Str :=
  rscriptBinary env ++ " --vanilla --no-save --no-restore " ++
    pathJoin env.spbHome "installPkgDeps.R" ++ "  --args \"" ++ encodeDeps d ++ "\" > " ++
    installDepsLog env ++ " 2>&1"

/-- The two events around a subprocess that does not stop the run. -/
def reported (start : Str) (finish : Int → Str) (run : Builder Int) : Builder Int := do
  sendMessage { status := .preprocessing, retcode := some 0, body := some start }
  let retcode ← run
  sendMessage {
    status := .postProcessing, retcode := some retcode, body := some (finish retcode) }
  return retcode

def installPkgDeps : Builder Int := do
  let env ← environment
  let d ← parseDcf
  reported "Installing dependencies. "
    (fun retcode => "Installing dependency status: " ++ str retcode ++ ". ")
    (call (installDepsCmd env d) env.installDeps)

/-- A fresh file: what it held before is removed first. -/
def openFresh (outfile : Str) : Builder Unit := do
  removeExisting outfile
  openW outfile

def checkgitcloneCmd (env : Env) : Str :=
  rscriptBinary env ++ " " ++ pathJoin env.spbHome "BiocCheckGitCloneScript.R" ++ " " ++
    pathJoin env.workingDir env.manifest.packageName

def checkgitclone : Builder Int := do
  let env ← environment
  reported "Checking Git Clone. "
    (fun retcode => "Checking git clone status: " ++ str retcode ++ ". ")
    (do
      openFresh "CheckGitClone.out"
      call (checkgitcloneCmd env) env.checkgitclone)

def libDir (env : Env) : Str := pathJoin (dirname env.workingDir) "R-libs"

def installOutputFile (env : Env) : Str :=
  pathJoin env.workingDir (env.manifest.packageName ++ ".install-out.txt")

def installPkgCmd (env : Env) : Str :=
  env.bbsRCmd ++ " CMD INSTALL --library=" ++ libDir env ++ " " ++
    pathJoin env.workingDir env.manifest.packageName ++ " > " ++ installOutputFile env ++ " 2>&1"

def installPkg : Builder Int := do
  let env ← environment
  reported ("Installing package: " ++ env.manifest.packageName ++ ". ")
    (fun retcode => "Installing package status: " ++ str retcode ++ ". ")
    (call (installPkgCmd env) env.installPkg)

end PackageBuilder
