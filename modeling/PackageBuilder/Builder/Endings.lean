import PackageBuilder.Builder.Script

/-! The places where a run of builder.py can end, and the statuses it has sent by then. -/
namespace PackageBuilder
open Text Effect

inductive Ending
  | wrongVersion | cloneUnstarted | cloneFailed | dcfUnreadable | nameMismatch
  | unsupportedPlatform | docker | typeUnknown | depsUnstarted | cloneCheckUnstarted
  | installUnstarted | buildUnstarted | tarballMissing | copyUnstarted | buildFailed
  | nothingToCheck | checkFileKept | cloneCheckUnreadable | checkStopped | biocCheckUnstarted
  | binLibdirLeft | binStopped | binUnstarted | binSkipped | binBuilt
  deriving DecidableEq, Repr

def binEnding (env : Env) (o : Listing) (d : List Str) : Ending :=
  if env.nodeSpec.pkgType = "source" then .binSkipped
  else
    match binStart env o 2 1 d with
    | .libdirLeft => .binLibdirLeft
    | .stopped => .binStopped
    | .commanded cmd d' => if Startable env "Rbuildbin.out" cmd d' then .binBuilt else .binUnstarted

def checkEnding (env : Env) (o : Listing) (long : Bool) (views : Str) (d : List Str) : Ending :=
  match tarballIn env o 1 d with
  | none => .nothingToCheck
  | some tarball =>
    if ¬ Replaceable env "Rcheck.out" d then .checkFileKept
    else if ¬ CloneCheckReads env then .cloneCheckUnreadable
    else if ¬ RCheckPasses env long views tarball then .checkStopped
    else if ¬ BiocCheckStarts env tarball then .biocCheckUnstarted
    else binEnding env o (dirChecked env d)

def buildEnding (env : Env) (o : Listing) (long : Bool) (views : Str) (d : List Str) : Ending :=
  if ¬ Startable env "R.out" (buildCmd env) d then .buildUnstarted
  else if retcodeOf env long true = 0 ∧ ¬ Copied env o 0 (dirBuilt env d) then
    if sizedIn env o 0 (dirBuilt env d) = none then .tarballMissing else .copyUnstarted
  else if proceedCode (retcodeOf env long true) = 0 then
    checkEnding env o long views (dirUploaded env long d)
  else .buildFailed

def installEnding (env : Env) (o : Listing) (long : Bool) (views : Str) (d : List Str) : Ending :=
  if ¬ DepsStart env then .depsUnstarted
  else if ¬ CloneCheckStarts env d then .cloneCheckUnstarted
  else if env.refuses (installPkgCmd env) ≠ none then .installUnstarted
  else buildEnding env o long views (dirInstalled env d)

def typeEnding (env : Env) (o : Listing) (d : List Str) : Ending :=
  if exitOut env then .unsupportedPlatform
  else
    match packageKind env with
    | .docker => .docker
    | .unknown => .typeUnknown
    | .known views long => installEnding env o long views (dirTyped env d)

def ending (env : Env) (o : Listing) (d : List Str) : Ending :=
  if env.manifest.biocVersion ≠ some env.biocVersion then .wrongVersion
  else if env.refuses (gitCmd env.manifest.svnUrl) ≠ none then .cloneUnstarted
  else if env.gitClone.status ≠ 0 then .cloneFailed
  else
    match dcfName env with
    | none => .dcfUnreadable
    | some name =>
      if env.manifest.packageName ≠ name then .nameMismatch
      else typeEnding env o (env.gitClone.leaves d)

/-- The source build was copied. -/
def uploaded (env : Env) : Bool :=
  match packageKind env with
  | .known _ long => retcodeOf env long true == 0
  | .docker | .unknown => false

def fetchStatuses : List Status := [.builderStarted, .nodeInfo, .gitCmd, .preprocessing]

def failStatuses : List Status := [.buildComplete, .postProcessing]

def readStatuses : List Status :=
  fetchStatuses ++ [.postProcessing, .gitResult, .dcfInfo]

def typedStatuses : List Status := readStatuses ++ [.postProcessing]

def installedStatuses : List Status :=
  typedStatuses ++ [.preprocessing, .postProcessing, .preprocessing, .postProcessing,
    .preprocessing, .postProcessing]

def toldStatuses : List Status := installedStatuses ++ [.preprocessing, .rCmd]

def buildStatuses : List Status := toldStatuses ++ [.postProcessing]

def completeStatuses (up : Bool) : List Status :=
  buildStatuses ++ (if up then [.postProcessing, .postProcessing] else []) ++
    [.building, .buildComplete]

def announcedStatuses (up : Bool) : List Status :=
  completeStatuses up ++ [.startingCheck, .checkCmd, .preprocessing]

def checkStatuses (up : Bool) : List Status := announcedStatuses up ++ [.writeGitclone]

def checkedStatuses (up : Bool) : List Status :=
  checkStatuses up ++ [.rCheck, .biocCheck, .checkComplete, .checking, .postProcessing]

def Ending.statuses (up : Bool) : Ending → List Status
  | .wrongVersion => []
  | .cloneUnstarted => fetchStatuses
  | .cloneFailed => fetchStatuses ++ failStatuses
  | .dcfUnreadable => fetchStatuses ++ [.postProcessing, .gitResult] ++ failStatuses
  | .nameMismatch => readStatuses ++ failStatuses
  | .unsupportedPlatform | .docker => readStatuses ++ [.unsupported, .postProcessing]
  | .typeUnknown => readStatuses
  | .depsUnstarted => typedStatuses ++ [.preprocessing]
  | .cloneCheckUnstarted => typedStatuses ++ [.preprocessing, .postProcessing, .preprocessing]
  | .installUnstarted => typedStatuses ++
      [.preprocessing, .postProcessing, .preprocessing, .postProcessing, .preprocessing]
  | .buildUnstarted => toldStatuses
  | .tarballMissing => buildStatuses
  | .copyUnstarted => buildStatuses ++ [.postProcessing]
  | .buildFailed => completeStatuses false
  | .nothingToCheck => completeStatuses up ++ [.startingCheck]
  | .checkFileKept => announcedStatuses up
  | .cloneCheckUnreadable => checkStatuses up
  | .checkStopped => checkStatuses up ++ [.rCheck]
  | .biocCheckUnstarted => checkStatuses up ++ [.rCheck, .biocCheck]
  | .binLibdirLeft => checkedStatuses up ++ [.startingBuildbin]
  | .binStopped => checkedStatuses up ++ [.startingBuildbin, .preprocessing]
  | .binUnstarted => checkedStatuses up ++ [.startingBuildbin, .preprocessing, .rBuildbinCmd]
  | .binSkipped => checkedStatuses up ++ [.skipBuildbin, .postProcessingComplete, .normalEnd]
  | .binBuilt => checkedStatuses up ++ [.startingBuildbin, .preprocessing, .rBuildbinCmd,
      .postProcessing, .buildingbin, .buildbinComplete, .postProcessingComplete, .normalEnd]

variable {env : Env} {o : Listing} {long : Bool} {views : Str} {d : List Str} {up : Bool}

theorem binScript_statuses :
    checkedStatuses up ++ (binScript env o long d).map Mark.status =
      (binEnding env o d).statuses up := by
  rw [binScript, binEnding]
  split_ifs with hp
  · rfl
  · rcases binStart env o 2 1 d with _ | _ | ⟨cmd, d'⟩
    · rfl
    · rfl
    · dsimp only
      split_ifs <;> rfl

theorem checkScript_statuses :
    completeStatuses up ++ (checkScript env o long views d).map Mark.status =
      (checkEnding env o long views d).statuses up := by
  rw [checkScript, checkEnding]
  rcases tarballIn env o 1 d with _ | tarball
  · rfl
  by_cases hr : Replaceable env "Rcheck.out" d
  · by_cases hu : CloneCheckReads env
    · by_cases hp : RCheckPasses env long views tarball
      · by_cases hb : BiocCheckStarts env tarball
        · simp only [hr, hu, hp, hb, not_true, if_true, if_false]
          rw [← @binScript_statuses env o long]
          simp [openCheckMarks, announceMarks, checkedMarks, checkedStatuses, checkStatuses,
            announcedStatuses]
        · simp [hr, hu, hp, hb, openCheckMarks, announceMarks, Ending.statuses, checkStatuses,
            announcedStatuses]
      · simp [hr, hu, hp, openCheckMarks, announceMarks, Ending.statuses, checkStatuses,
          announcedStatuses]
    · simp [hr, hu, openCheckMarks, announceMarks, Ending.statuses, checkStatuses,
        announcedStatuses]
  · simp [hr, announceMarks, Ending.statuses, announcedStatuses]

theorem buildScript_statuses :
    installedStatuses ++ (buildScript env o long views d).map Mark.status =
      (buildEnding env o long views d).statuses (retcodeOf env long true == 0) := by
  have ht : toldStatuses = installedStatuses ++ toldMarks.map Mark.status := rfl
  have hb : buildStatuses = installedStatuses ++ (compileMarks env).map Mark.status := rfl
  rw [buildScript, buildEnding]
  by_cases hs : Startable env "R.out" (buildCmd env) d
  · by_cases h : retcodeOf env long true = 0 ∧ ¬ Copied env o 0 (dirBuilt env d)
    · by_cases hz : sizedIn env o 0 (dirBuilt env d) = none <;>
        simp [hs, h, hz, Ending.statuses, hb]
    by_cases hp : proceedCode (retcodeOf env long true) = 0
    · rw [if_pos hs, if_neg (not_not.mpr hs), if_neg h, if_neg h, if_pos hp, if_pos hp,
        ← @checkScript_statuses env o]
      by_cases hr : retcodeOf env long true = 0 <;>
        simp [hr, completeStatuses, builtMarks, uploadMarks, hb]
    · have hr : retcodeOf env long true ≠ 0 := fun hr => hp (by rw [hr]; rfl)
      simp [hs, hp, hr, Ending.statuses, completeStatuses, builtMarks, hb]
  · simp [hs, Ending.statuses, ht]

theorem typedScript_statuses :
    typedStatuses ++ (typedScript env o long views d).map Mark.status =
      (installEnding env o long views d).statuses (retcodeOf env long true == 0) := by
  rw [typedScript, installEnding]
  by_cases hd : DepsStart env
  · by_cases hc : CloneCheckStarts env d
    · by_cases hp : env.refuses (installPkgCmd env) = none
      · simp only [hd, hc, hp, ne_eq, not_true, if_true, if_false]
        rw [← @buildScript_statuses env o long views (dirInstalled env d)]
        simp [installedStatuses, reportMarks]
      · simp [hd, hc, hp, reportMarks, startedMarks, Ending.statuses]
    · simp [hd, hc, reportMarks, startedMarks, Ending.statuses]
  · simp [hd, startedMarks, Ending.statuses]

theorem typeScript_statuses :
    readStatuses ++ (typeScript env o d).map Mark.status =
      (typeEnding env o d).statuses (uploaded env) := by
  rw [typeScript, typeEnding]
  split_ifs with hx
  · rfl
  · rcases hk : packageKind env with _ | _ | ⟨views, long⟩
    · rfl
    · simp [Ending.statuses]
    · have hb := @typedScript_statuses env o long views (dirTyped env d)
      rw [uploaded, hk]
      simp only [← hb]
      simp [typedStatuses]

theorem dcfScript_statuses (hv : env.manifest.biocVersion = some env.biocVersion)
    (hc : Cloned env) :
    fetchStatuses ++ [.postProcessing, .gitResult] ++
        (dcfScript env o (env.gitClone.leaves d)).map Mark.status =
      (ending env o d).statuses (uploaded env) := by
  rw [dcfScript, ending]
  obtain ⟨hg, hc⟩ := hc
  rcases hd : dcfName env with _ | name
  · simp [hv, hg, hc, Ending.statuses, failMarks, failStatuses]
  · by_cases hp : env.manifest.packageName = name
    · simp only [hv, hg, hc, hp, ne_eq, not_true, if_false]
      rw [← @typeScript_statuses env o]
      simp [readStatuses]
    · simp [hv, hg, hc, hp, Ending.statuses, readStatuses, failMarks, failStatuses]

/-- The statuses of a calm run are those of its ending. -/
theorem script_statuses (env : Env) (o : Listing) (d : List Str) :
    (script env o d).map Mark.status = (ending env o d).statuses (uploaded env) := by
  by_cases hv : env.manifest.biocVersion = some env.biocVersion
  · by_cases hc : Cloned env
    · rw [← dcfScript_statuses hv hc]
      simp [script, hv, hc, startMarks, clonedMarks, fetchStatuses]
    · by_cases hg : env.refuses (gitCmd env.manifest.svnUrl) = none
      · have hs : env.gitClone.status ≠ 0 := fun hs => hc ⟨hg, hs⟩
        simp [script, ending, hv, hc, hg, hs, startMarks, failMarks, Ending.statuses, fetchStatuses,
          failStatuses]
      · simp [script, ending, hv, hc, hg, startMarks, Ending.statuses, fetchStatuses]
  · simp [script, ending, hv, Ending.statuses]

end PackageBuilder
