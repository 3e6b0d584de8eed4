import PackageBuilder.Library.Text

/-! The manifest a builder reads and the events that server and builder publish. -/
namespace PackageBuilder
open Text

/-- The `status` texts of the events topic, in the order a full run first sends them. -/
inductive Status
  | gotBuildRequest | builderStarted | nodeInfo | gitCmd | preprocessing | postProcessing
  | gitResult | dcfInfo | unsupported | rCmd | building | buildComplete
  | startingCheck | checkCmd | writeGitclone | rCheck | biocCheck | checkComplete | checking
  | skipBuildbin | startingBuildbin | rBuildbinCmd | buildingbin | buildbinComplete
  | postProcessingComplete | normalEnd | autoexit
  deriving DecidableEq, Repr

/-- One JSON object on the events topic; the time stamp is left out. -/
structure Event where
  status : Status
  body : Option Str := none
  retcode : Option Int := none
  warnings : Option Bool := none
  elapsedTime : Option Str := none
  result : Option Int := none
  filesize : Option Str := none
  buildProduct : Option Str := none
  svnUrl : Option Str := none
  rVersion : Option Str := none
  os : Option Str := none
  arch : Option Str := none
  platform : Option Str := none
  biocVersion : Option Str := none
  packageName : Option Str := none
  maintainer : Option Str := none
  version : Option Str := none
  firstMessage : Option Bool := none
  builderId : Str := []
  clientId : Str := []
  jobId : Str := []
  deriving DecidableEq, Repr

/-- The keys of `manifest.json` that the builder reads; `newpackage` is kept as `%s` prints it,
and an absent `bioc_version` is `none`. -/
structure Manifest where
  svnUrl : Str
  jobId : Str
  clientId : Str
  biocVersion : Option Str
  newpackage : Option Str := none
  deriving DecidableEq, Repr

/-- `manifest['job_id'].split("_")[0]` -/
def Manifest.packageName (m : Manifest) : Str := (m.jobId.splitOn '_').headD []

/-- A parsed DESCRIPTION: its fields in order. -/
abbrev Dcf := List (Str × Str)

def Dcf.get? (d : Dcf) (key : Str) : Option Str := List.lookup key d

end PackageBuilder
