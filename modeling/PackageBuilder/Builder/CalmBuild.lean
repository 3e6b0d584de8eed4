import PackageBuilder.Builder.Calm

/-! The source build, the check and the binary build in a calm world. -/
namespace PackageBuilder
open Text Effect

variable {env : Env} {w : World} {s : St}

/-- The output, the return code and the warnings flag of a build. -/
def outputOf (env : Env) (long sourceBuild : Bool) : Str :=
  buildText (timeoutLimit env long) (buildProcess env sourceBuild)

def retcodeOf (env : Env) (long sourceBuild : Bool) : Int :=
  buildRetcode env long (outputOf env long sourceBuild)
    (seconds (buildProcess env sourceBuild).elapsed) (buildProcess env sourceBuild).status

def warnsOf (env : Env) (long sourceBuild : Bool) : Bool :=
  hasLine "WARNING:" (outputOf env long sourceBuild)

/-- Return codes that only warn count as success for what follows. -/
def proceedCode (retcode : Int) : Int := if retcode = -4 ∨ retcode = -6 then 0 else retcode

/-- The build ended in time with one of these codes and printed no error. -/
def BuildEnds (env : Env) (long : Bool) (codes : List Int) : Prop :=
  env.build.status ∈ codes ∧ hasLine "ERROR:" (outputOf env long true) = false ∧
    seconds env.build.elapsed < timeoutLimit env long

instance (env : Env) (long : Bool) (codes : List Int) : Decidable (BuildEnds env long codes) :=
  inferInstanceAs (Decidable (_ ∧ _))

theorem retcodeOf_eq_zero {env : Env} {long : Bool} :
    retcodeOf env long true = 0 ↔ BuildEnds env long [0] := by
  rcases hl : hasLine "ERROR:" (outputOf env long true) <;>
    by_cases ht : timeoutLimit env long ≤ seconds env.build.elapsed <;>
    simp [retcodeOf, buildRetcode, BuildEnds, buildProcess, hl, ht]
  · omega

theorem proceedCode_eq_zero {env : Env} {long : Bool} :
    proceedCode (retcodeOf env long true) = 0 ↔ BuildEnds env long [0, -4, -6] := by
  rcases hl : hasLine "ERROR:" (outputOf env long true) <;>
    by_cases ht : timeoutLimit env long ≤ seconds env.build.elapsed <;>
    simp [proceedCode, retcodeOf, buildRetcode, BuildEnds, buildProcess, hl, ht]
  · omega

def builtMarks (env : Env) (long : Bool) : List Mark :=
  [{ status := .building },
    { status := .buildComplete, retcode := some (retcodeOf env long true),
      warnings := some (warnsOf env long true) }]

def uploadMarks (env : Env) : List Mark :=
  [{ status := .postProcessing, retcode := some 0 },
    { status := .postProcessing, retcode := some env.scp.status }]

section
variable {cmd : Str} {sourceBuild : Bool}

theorem exec_doBuild (h : Startable env (buildOutfile sourceBuild) cmd s.cwd) :
    exec (doBuild cmd sourceBuild) (env, w) s = (.ok (buildProcess env sourceBuild).status,
      (((s.cleared env (buildOutfile sourceBuild)).opened (buildOutfile sourceBuild)).ran cmd
        (buildProcess env sourceBuild).leaves).built (outputOf env s.longBuild sourceBuild)) := by
  simp [doBuild, exec_bind, exec_openFresh, exec_call, h.1, h.2, outputOf]

/-- A build that cannot be started says nothing. -/
theorem exec_doBuild_stuck (h : ¬ Startable env (buildOutfile sourceBuild) cmd s.cwd) :
    ∃ e s', exec (doBuild cmd sourceBuild) (env, w) s = (.error e, s') ∧
      s'.view.marks = s.view.marks := by
  by_cases hr : Replaceable env (buildOutfile sourceBuild) s.cwd
  · obtain ⟨e, he⟩ := Option.ne_none_iff_exists'.mp fun hc => h ⟨hr, hc⟩
    exact ⟨e, _, by
      simp [doBuild, exec_bind, exec_openFresh, hr, exec_call_refused he]; rfl, by simp⟩
  · exact ⟨.isADirectoryError (buildOutfile sourceBuild), _, by
      simp [doBuild, exec_bind, exec_openFresh_stuck, hr], rfl⟩

end

/-- The tarball whose size can be asked for. -/
def sizedIn (env : Env) (o : Listing) (n : Nat) (d : List Str) : Option Str :=
  (tarballIn env o n d).filter fun tarname => env.kind tarname ≠ .dangling

/-- The tarball of a build is there, and its copy can be started. -/
def Copied (env : Env) (o : Listing) (n : Nat) (d : List Str) : Prop :=
  ∃ tarname ∈ sizedIn env o n d, env.refuses (copyCmd env tarname) = none

instance (env : Env) (o : Listing) (n : Nat) (d : List Str) : Decidable (Copied env o n d) :=
  inferInstanceAs (Decidable (∃ tarname ∈ sizedIn env o n d, _))

theorem of_sizedIn {o : Listing} {n : Nat} {d : List Str} {tarname : Str}
    (h : tarname ∈ sizedIn env o n d) :
    tarballIn env o n d = some tarname ∧ env.kind tarname ≠ .dangling := by
  simpa [sizedIn, Option.filter_eq_some_iff] using h

section
variable {long : Bool} (hl : s.longBuild = long) (ho : s.buildOut = outputOf env long true)
include hl ho

theorem reportBuild_does
    (hr : retcodeOf env long true = 0 → Copied env w.listdir s.listings s.cwd) :
    Does (reportBuild true env.build.status) env w s (.ok (proceedCode (retcodeOf env long true)))
      { s.view with
        marks := s.view.marks ++ { status := .postProcessing, retcode := some env.build.status } ::
          ((if retcodeOf env long true = 0 then uploadMarks env else []) ++ builtMarks env long)
        cwd := if retcodeOf env long true = 0 then env.scp.leaves s.view.cwd else s.view.cwd
        listings := s.view.listings + 1
        warnings := warnsOf env long true } := by
  have hc : buildRetcode env long (outputOf env long true) (seconds env.build.elapsed)
      env.build.status = retcodeOf env long true := rfl
  by_cases h : retcodeOf env long true = 0
  · obtain ⟨t, ht, hcopy⟩ := hr h
    obtain ⟨ht, hk⟩ := of_sizedIn ht
    simp [Yields, reportBuild, uploadTarball, osPathGetsize, exec_bind, exec_call, buildProcess, hl,
      ho, hc, h, ht, hk, hcopy, Event.mark, Event.stamp, builtMarks, uploadMarks, warnsOf,
      proceedCode]
  · simp [Yields, reportBuild, exec_bind, buildProcess, hl, ho, hc, h, Event.mark,
      Event.stamp, builtMarks, warnsOf, proceedCode]

theorem reportBuild_missing (hr : retcodeOf env long true = 0)
    (ht : sizedIn env w.listdir s.listings s.cwd = none) :
    Stops (reportBuild true env.build.status) env w s
      [{ status := .postProcessing, retcode := some env.build.status }] := by
  have hc : buildRetcode env long (outputOf env long true) (seconds env.build.elapsed)
      env.build.status = retcodeOf env long true := rfl
  rcases hn : tarballIn env w.listdir s.listings s.cwd with _ | t
  · exact ⟨.typeError, _, by
      simp [Yields, reportBuild, uploadTarball, exec_bind, buildProcess, hl, ho, hc, hr, hn]
      rfl, by simp [Event.mark, Event.stamp]⟩
  · have hk : env.kind t = .dangling := by simpa [sizedIn, hn, Option.filter_eq_none_iff] using ht
    exact ⟨.fileNotFoundError t, _, by
      simp [Yields, reportBuild, uploadTarball, osPathGetsize, exec_bind, buildProcess, hl, ho, hc,
        hr, hn, hk]
      rfl, by simp [Event.mark, Event.stamp]⟩

theorem reportBuild_uncopied {t : Str} (hr : retcodeOf env long true = 0)
    (ht : t ∈ sizedIn env w.listdir s.listings s.cwd) (hcopy : env.refuses (copyCmd env t) ≠ none) :
    Stops (reportBuild true env.build.status) env w s
      [{ status := .postProcessing, retcode := some env.build.status },
        { status := .postProcessing, retcode := some 0 }] := by
  have hc : buildRetcode env long (outputOf env long true) (seconds env.build.elapsed)
      env.build.status = retcodeOf env long true := rfl
  obtain ⟨ht, hk⟩ := of_sizedIn ht
  obtain ⟨e, he⟩ := Option.ne_none_iff_exists'.mp hcopy
  exact ⟨e, _, by
    simp [Yields, reportBuild, uploadTarball, osPathGetsize, exec_bind, exec_call_refused he,
      buildProcess, hl, ho, hc, hr, ht, hk]
    rfl, by simp [Event.mark, Event.stamp]⟩

end

def dirBuilt (env : Env) (d : List Str) : List Str := env.build.leaves (fresh env "R.out" d)

/-- The source build up to its command. -/
def toldMarks : List Mark :=
  [{ status := .preprocessing, retcode := some 0 }, { status := .rCmd }]

/-- The source build up to its output. -/
def compileMarks (env : Env) : List Mark :=
  toldMarks ++ [{ status := .postProcessing, retcode := some env.build.status }]

section
variable (h : Startable env "R.out" (buildCmd env) s.cwd)
include h

variable (w) in
theorem buildPackage_goes_on :
    ∃ s', s'.view = { s.view with
        marks := s.view.marks ++ toldMarks
        cwd := dirBuilt env s.view.cwd
        buildOut := outputOf env s.longBuild true } ∧
      exec (buildPackage true) (env, w.calm) s =
        exec (reportBuild true env.build.status) (env, w.calm) s' := by
  have hb : Startable env (buildOutfile true) (buildCmd env) s.cwd := h
  refine ⟨?_, ?_, ?_⟩
  rotate_left 2
  · simp [buildPackage, buildCommand, completeBuild, runBuild, exec_doBuild, exec_bind, hb,
      buildProcess]
    rfl
  · simp [Event.mark, Event.stamp, toldMarks, dirBuilt, fresh, buildOutfile]

variable {long : Bool} (hl : s.longBuild = long)
include hl

theorem buildPackage_does
    (hr : retcodeOf env long true = 0 → Copied env w.listdir s.listings (dirBuilt env s.cwd)) :
    Does (buildPackage true) env w s (.ok (proceedCode (retcodeOf env long true))) { s.view with
      marks := s.view.marks ++ (compileMarks env ++
        ((if retcodeOf env long true = 0 then uploadMarks env else []) ++ builtMarks env long))
      cwd := if retcodeOf env long true = 0 then env.scp.leaves (dirBuilt env s.view.cwd)
        else dirBuilt env s.view.cwd
      listings := s.view.listings + 1
      buildOut := outputOf env long true
      warnings := warnsOf env long true } := by
  obtain ⟨s', hv, he⟩ := buildPackage_goes_on w h
  have hl' : s'.longBuild = long := (congrArg View.longBuild hv).trans hl
  have ho : s'.buildOut = outputOf env long true := (congrArg View.buildOut hv).trans (by rw [hl])
  have hd : s'.cwd = dirBuilt env s.cwd := congrArg View.cwd hv
  have hn : s'.listings = s.listings := congrArg View.listings hv
  have hreport := reportBuild_does (w := w) hl' ho (by rwa [hd, hn])
  rw [Does, Yields, he]
  rw [Does, Yields, hv] at hreport
  simpa [hl, compileMarks] using hreport

/-- What stops the report of a build stops the build. -/
theorem buildPackage_stops {l : List Mark}
    (hr : ∀ s' : St, s'.longBuild = long → s'.buildOut = outputOf env long true →
      s'.cwd = dirBuilt env s.cwd → s'.listings = s.listings →
        Stops (reportBuild true env.build.status) env w s' l) :
    Stops (buildPackage true) env w s (toldMarks ++ l) := by
  obtain ⟨s', hv, he⟩ := buildPackage_goes_on w h
  obtain ⟨e, v, hstop, hm⟩ := hr s' ((congrArg View.longBuild hv).trans hl)
    ((congrArg View.buildOut hv).trans (by rw [hl])) (congrArg View.cwd hv)
    (congrArg View.listings hv)
  refine ⟨e, v, by rwa [Does, Yields, he], ?_⟩
  rw [hm, hv, List.append_assoc]

theorem buildPackage_missing (hr : retcodeOf env long true = 0)
    (ht : sizedIn env w.listdir s.listings (dirBuilt env s.cwd) = none) :
    Stops (buildPackage true) env w s (compileMarks env) := by
  refine buildPackage_stops h hl fun s' hl' ho hd hn => reportBuild_missing hl' ho hr ?_
  rw [hd, hn, ht]

theorem buildPackage_uncopied {t : Str} (hr : retcodeOf env long true = 0)
    (ht : t ∈ sizedIn env w.listdir s.listings (dirBuilt env s.cwd))
    (hcopy : env.refuses (copyCmd env t) ≠ none) :
    Stops (buildPackage true) env w s
      (compileMarks env ++ [{ status := .postProcessing, retcode := some 0 }]) := by
  rw [compileMarks, List.append_assoc]
  refine buildPackage_stops h hl fun s' hl' ho hd hn => reportBuild_uncopied hl' ho hr ?_ hcopy
  rwa [hd, hn]

end

theorem buildPackage_unstarted (h : ¬ Startable env "R.out" (buildCmd env) s.cwd) :
    Stops (buildPackage true) env w s toldMarks := by
  let s' : St := (s.sent env {
    status := .preprocessing
    retcode := some 0
    body := some "Starting Build package. " }).sent env {
      status := .rCmd
      body := some (buildCmd env) }
  have hb : ¬ Startable env (buildOutfile true) (buildCmd env) s'.cwd := h
  obtain ⟨e, s'', he, hm⟩ := exec_doBuild_stuck (w := w.calm) hb
  refine ⟨e, s''.view, ?_, ?_⟩
  · simp [Yields, buildPackage, buildCommand, completeBuild, runBuild, exec_bind, s', he]
  · rw [hm]
    simp [s', Event.mark, Event.stamp, toldMarks]

def firstRetcode (env : Env) (long : Bool) (views : Str) : Int :=
  checkRetcode1 (timeoutLimit env long) views (seconds env.check.elapsed) env.check.status

def secondRetcode (env : Env) (long : Bool) : Int :=
  checkRetcode2 (timeoutLimit env long) (seconds env.biocCheck.elapsed) env.biocCheck.status

/-- R CMD check ended with -4, in time, although it was not slow. -/
def warntimeUnset (env : Env) (long : Bool) (views : Str) : Prop :=
  env.check.status = -4 ∧ seconds env.check.elapsed < timeoutLimit env long ∧
    slowCheck views (seconds env.check.elapsed) = false

instance (env : Env) (long : Bool) (views : Str) : Decidable (warntimeUnset env long views) :=
  inferInstanceAs (Decidable (_ ∧ _))

theorem warntimeUnset_iff {env : Env} {long : Bool} {views : Str} :
    warntimeUnset env long views ↔
      firstRetcode env long views = -4 ∧ slowCheck views (seconds env.check.elapsed) = false := by
  rcases hs : slowCheck views (seconds env.check.elapsed) <;>
    by_cases ht : timeoutLimit env long ≤ seconds env.check.elapsed <;>
    simp [warntimeUnset, firstRetcode, checkRetcode1, hs, ht]
  omega

def verdict (env : Env) (long : Bool) (views : Str) : Int :=
  checkVerdict (firstRetcode env long views) (secondRetcode env long) env.checkgitclone.status

/-- The name of the tarball in the last banner of Rcheck.out. -/
def checkLabel (env : Env) (tarball : Str) : Str := lastWord (checkCmd env tarball)

/-- The warnings flag of the check of a tarball. -/
def checkWarnsOf (env : Env) (long : Bool) (views tarball : Str) : Bool :=
  checkWarns (checkText env (checkLabel env tarball)
    (universalNewlines env.checkgitclone.output.text) (firstRetcode env long views)
    (secondRetcode env long))

/-- The results of the clone check can be copied to Rcheck.out. -/
def CloneCheckReads (env : Env) : Prop :=
  env.encodes env.manifest.packageName = true ∧ env.checkgitclone.output.decodes = true

/-- R CMD check is started, and its status finds the variables of its branch. -/
def RCheckPasses (env : Env) (long : Bool) (views tarball : Str) : Prop :=
  env.refuses (checkCmd env tarball) = none ∧ ¬ warntimeUnset env long views

def BiocCheckStarts (env : Env) (tarball : Str) : Prop :=
  env.encodes (checkLabel env tarball) = true ∧ env.refuses (biocCheckCmd env tarball) = none

instance (env : Env) : Decidable (CloneCheckReads env) := inferInstanceAs (Decidable (_ ∧ _))

instance (env : Env) (long : Bool) (views tarball : Str) :
    Decidable (RCheckPasses env long views tarball) :=
  inferInstanceAs (Decidable (_ ∧ _))

instance (env : Env) (tarball : Str) : Decidable (BiocCheckStarts env tarball) :=
  inferInstanceAs (Decidable (_ ∧ _))

/-- The check up to its first file. -/
def announceMarks : List Mark :=
  [{ status := .checkCmd }, { status := .preprocessing, retcode := some 0 }]

/-- The check up to the copy of the clone check's results. -/
def openCheckMarks : List Mark := announceMarks ++ [{ status := .writeGitclone }]

def checkedMarks (env : Env) (long : Bool) (views tarball : Str) : List Mark :=
  [{ status := .biocCheck },
    { status := .checkComplete, retcode := some (verdict env long views),
      warnings := some (checkWarnsOf env long views tarball) },
    { status := .checking },
    { status := .postProcessing, retcode := some (verdict env long views) }]

def dirChecked (env : Env) (d : List Str) : List Str :=
  env.biocCheck.leaves (env.check.leaves (fresh env "Rcheck.out" d))

theorem checkPackage_no_tarball (ht : hasTarball env s.cwd = false) :
    Stops checkPackage env w s [{ status := .startingCheck }] := by
  have hn := tarballIn_eq_none (o := w.listdir) (n := s.listings).mpr ht
  exact ⟨.attributeError, _, by simp [Yields, checkPackage, tarballStem, exec_bind, hn]; rfl, by
    simp [Event.mark, Event.stamp]⟩

section
variable {tarball : Str} (ht : tarballIn env w.listdir s.listings s.cwd = some tarball)
include ht

theorem checkPackage_stuck (hr : ¬ Replaceable env "Rcheck.out" s.cwd) :
    Stops checkPackage env w s ({ status := .startingCheck } :: announceMarks) :=
  ⟨.isADirectoryError "Rcheck.out", _, by
    simp [Yields, checkPackage, tarballStem, doCheck, exec_removeExisting_stuck, exec_bind, ht, hr]
    rfl, by simp [Event.mark, Event.stamp, announceMarks]⟩

variable (hr : Replaceable env "Rcheck.out" s.cwd)
include hr

theorem checkPackage_unreadable (hu : ¬ CloneCheckReads env) :
    Stops checkPackage env w s ({ status := .startingCheck } :: openCheckMarks) := by
  rcases he : env.encodes env.manifest.packageName
  · exact ⟨.unicodeEncodeError, _, by
      simp [Yields, checkPackage, tarballStem, doCheck, exec_removeExisting, writeName, exec_bind,
        ht, hr, he]
      rfl, by simp [Event.mark, Event.stamp, openCheckMarks, announceMarks]⟩
  · have hd : env.checkgitclone.output.decodes = false := by simpa [CloneCheckReads, he] using hu
    exact ⟨.unicodeDecodeError, _, by
      simp [Yields, checkPackage, tarballStem, doCheck, exec_removeExisting, writeName,
        readGitClone, exec_bind, ht, hr, he, hd]
      rfl, by simp [Event.mark, Event.stamp, openCheckMarks, announceMarks]⟩

variable (hu : CloneCheckReads env) {long : Bool} {views : Str} (hl : s.longBuild = long)
  (hv : s.pkgTypeViews = views)
include hu hl hv

theorem checkPackage_unchecked (hp : ¬ RCheckPasses env long views tarball) :
    Stops checkPackage env w s
      ({ status := .startingCheck } :: (openCheckMarks ++ [{ status := .rCheck }])) := by
  rcases hc : env.refuses (checkCmd env tarball) with _ | e
  · obtain ⟨hw, hs⟩ := warntimeUnset_iff.mp (not_not.mp fun hw => hp ⟨hc, hw⟩)
    rw [firstRetcode] at hw
    exact ⟨.unboundLocalError "warntime", _, by
      simp [Yields, checkPackage, tarballStem, doCheck, exec_removeExisting, writeName,
        readGitClone, warntimeNote, showName, exec_bind, exec_call, ht, hr, hu.1, hu.2, hl, hv, hc,
        hw, hs]
      rfl, by simp [Event.mark, Event.stamp, openCheckMarks, announceMarks]⟩
  · exact ⟨e, _, by
      simp [Yields, checkPackage, tarballStem, doCheck, exec_removeExisting, writeName,
        readGitClone, showName, exec_bind, exec_call_refused hc, ht, hr, hu.1, hu.2]
      rfl, by simp [Event.mark, Event.stamp, openCheckMarks, announceMarks]⟩

variable (hp : RCheckPasses env long views tarball)
include hp

theorem checkPackage_unfinished (hb : ¬ BiocCheckStarts env tarball) :
    Stops checkPackage env w s ({ status := .startingCheck } ::
      (openCheckMarks ++ [{ status := .rCheck }, { status := .biocCheck }])) := by
  obtain ⟨hc, hw⟩ := hp
  rw [warntimeUnset_iff, firstRetcode] at hw
  have hlabel : lastWord (checkCmd env tarball) = checkLabel env tarball := rfl
  rcases he : env.encodes (checkLabel env tarball)
  · exact ⟨.unicodeEncodeError, _, by
      simp [Yields, checkPackage, tarballStem, doCheck, exec_removeExisting, writeName,
        readGitClone, warntimeNote, showName, exec_bind, exec_call, ht, hr, hu.1, hu.2, hl, hv, hc,
        hw, hlabel, he]
      rfl, by simp [Event.mark, Event.stamp, openCheckMarks, announceMarks]⟩
  · obtain ⟨e, hx⟩ := Option.ne_none_iff_exists'.mp fun hx => hb ⟨he, hx⟩
    exact ⟨e, _, by
      simp [Yields, checkPackage, tarballStem, doCheck, exec_removeExisting, writeName,
        readGitClone, warntimeNote, showName, exec_bind, exec_call, exec_call_refused hx, ht, hr,
        hu.1, hu.2, hl, hv, hc, hw, hlabel, he]
      rfl, by simp [Event.mark, Event.stamp, openCheckMarks, announceMarks]⟩

theorem checkPackage_does (hg : s.gitcloneRetcode = env.checkgitclone.status)
    (hb : BiocCheckStarts env tarball) :
    Does checkPackage env w s (.ok (verdict env long views)) { s.view with
      marks := s.view.marks ++ { status := .startingCheck } :: (openCheckMarks ++
        { status := .rCheck } :: checkedMarks env long views tarball)
      cwd := dirChecked env s.view.cwd
      listings := s.view.listings + 1 } := by
  obtain ⟨hc, hw⟩ := hp
  obtain ⟨he, hx⟩ := hb
  have h1 : checkRetcode1 (timeoutLimit env long) views (seconds env.check.elapsed)
      env.check.status = firstRetcode env long views := rfl
  have h2 : checkRetcode2 (timeoutLimit env long) (seconds env.biocCheck.elapsed)
      env.biocCheck.status = secondRetcode env long := rfl
  have hlabel : lastWord (checkCmd env tarball) = checkLabel env tarball := rfl
  rw [warntimeUnset_iff] at hw
  simp [Yields, checkPackage, tarballStem, doCheck, exec_removeExisting, writeName, readGitClone,
    warntimeNote, exec_bind, exec_call, hl, hv, hg, ht, hr, hu.1, hu.2, h1, h2, hw, hc, hx, hlabel,
    he, showName, Event.mark, Event.stamp, verdict, openCheckMarks, announceMarks, checkedMarks,
    checkWarnsOf, dirChecked, fresh]

end

/-- In the calm world the stage returns, has said `l` and leaves the flag at `b`. -/
def Passes {α : Type} (m : Builder α) (env : Env) (w : World) (s : St) (l : List Mark) (b : Bool) :
    Prop :=
  ∃ a v, Does m env w s (.ok a) v ∧ v.marks = s.view.marks ++ l ∧ v.warnings = b

def binBuiltMarks (env : Env) (long : Bool) : List Mark :=
  [{ status := .rBuildbinCmd },
    { status := .postProcessing, retcode := some env.buildbin.status },
    { status := .buildingbin },
    { status := .buildbinComplete, retcode := some (retcodeOf env long false),
      warnings := some (warnsOf env long false) }]

theorem buildPackage_skips (h : env.nodeSpec.pkgType = "source") :
    Passes (buildPackage false) env w s [{ status := .skipBuildbin }] s.warnings :=
  ⟨0, _, by simp [Yields, buildPackage, exec_bind, h]; rfl, by simp [Event.mark, Event.stamp], rfl⟩

/-- The tail of a binary build, wherever the output came from. -/
theorem reportBuild_bin {long : Bool} (hl : s.longBuild = long)
    (ho : s.buildOut = outputOf env long false) :
    Passes (reportBuild false env.buildbin.status) env w s
      (binBuiltMarks env long).tail (warnsOf env long false) := by
  have hc : buildRetcode env long (outputOf env long false) (seconds env.buildbin.elapsed)
      env.buildbin.status = retcodeOf env long false := rfl
  exact ⟨proceedCode (retcodeOf env long false), _, by
    simp [Yields, reportBuild, exec_bind, buildProcess, hl, ho, hc, proceedCode]; rfl, by
    simp [Event.mark, Event.stamp, binBuiltMarks, warnsOf], by simp [warnsOf]⟩

/-- How far a binary build gets: to the preparation of its library, to its announcement, or to a
command in some directory. -/
inductive BinStart
  | libdirLeft | stopped | commanded (cmd : Str) (d : List Str)

/-- The directory in which the library of the binary build on Windows is missing or emptied, after
so many calls. -/
def dirWin (env : Env) (calls : Nat) (libdir : Str) (d : List Str) : List Str :=
  addEntry libdir (if libdir ∈ d then
    env.rm.leaves (addEntry (str calls ++ "err.txt") (addEntry (str calls ++ "out.txt") d)) else d)

/-- `rm -rf libdir` without a shell raises, `os.mkdir` raises for a link to nothing, and Windows
needs a tarball; on Linux no branch assigns a command. -/
def binStart (env : Env) (o : Listing) (n calls : Nat) (d : List Str) : BinStart :=
  match env.system with
  | .darwin =>
    if ("libdir" : Str) ∈ d then .libdirLeft
    else .commanded (buildUniversalCmd env (tarballIn env o n (addEntry "libdir" d)))
      (addEntry "libdir" d)
  | .windows =>
    match tarballIn env o n d with
    | none => .stopped
    | some t =>
      if winLibdir t ∈ d ∧ (env.kind (winLibdir t) = .dangling ∨
          env.refuses ("rm -rf " ++ winLibdir t) ≠ none) then .stopped
      else .commanded (winBuildbinCmd env (some t) (winLibdir t)) (dirWin env calls (winLibdir t) d)
  | .linux | .other => .stopped

@[simp] theorem binaryType_mac (system : System) :
    binaryType system = ofString "mac.binary" ↔ system = .darwin := by
  cases system <;> decide

@[simp] theorem binaryType_win (system : System) :
    binaryType system = ofString "win.binary" ↔ system = .windows := by
  cases system <;> decide

section
variable (hp : env.nodeSpec.pkgType ≠ "source")
include hp

theorem buildPackage_bin_left
    (hb : binStart env w.listdir s.listings s.callcount s.cwd = .libdirLeft) :
    Stops (buildPackage false) env w s [{ status := .startingBuildbin }] := by
  rw [binStart] at hb
  rcases hy : env.system <;> rw [hy] at hb
  case darwin =>
    have hd : ("libdir" : Str) ∈ s.cwd := by
      by_contra hd
      simp [hd] at hb
    by_cases hk : env.kind "libdir" = .dangling
    · exact ⟨.fileExistsError "libdir", _, by
        simp [Yields, buildPackage, buildCommand, makeMissing, osMkdir, exec_bind, hp, hy, hd, hk]
        rfl, by simp [Event.mark, Event.stamp]⟩
    · exact ⟨.fileNotFoundError "rm -rf libdir", _, by
        simp [Yields, buildPackage, buildCommand, callCommand, exec_bind, hp, hy, hd, hk]
        exact ⟨rfl, rfl⟩, by simp [Event.mark, Event.stamp]⟩
  case windows =>
    dsimp only at hb
    split at hb
    · cases hb
    · split at hb <;> cases hb
  all_goals cases hb

/-- The state in which the binary build is prepared. -/
def St.announcedBin (s : St) (env : Env) : St :=
  (s.sent env { status := .startingBuildbin, body := some "" }).sent env {
    status := .preprocessing, retcode := some 0, body := some "Starting Build package. " }

omit hp in
theorem winBuildbin_stops (hy : env.system = .windows)
    (hb : binStart env w.listdir s.listings s.callcount s.cwd = .stopped) :
    ∃ e s', exec winBuildbin (env, w.calm) s = (.error e, s') ∧ s'.view.marks = s.view.marks := by
  rw [binStart, hy] at hb
  dsimp only at hb
  rcases ht : tarballIn env w.listdir s.listings s.cwd with _ | t
  · exact ⟨.attributeError, _, by simp [winBuildbin, tarballStem, exec_bind, ht]; rfl, by rfl⟩
  · have hlib : stem t ++ ofString ".buildbin-libdir" = winLibdir t := rfl
    rw [ht] at hb
    dsimp only at hb
    split at hb
    next hd =>
      obtain ⟨hd, hk⟩ := hd
      by_cases hdangling : env.kind (winLibdir t) = .dangling
      · exact ⟨.fileExistsError (winLibdir t), _, by
          simp [winBuildbin, tarballStem, makeMissing, osMkdir, exec_bind, ht, hlib, hd, hdangling]
          rfl, by rfl⟩
      · obtain ⟨e, he⟩ := Option.ne_none_iff_exists'.mp (hk.resolve_left hdangling)
        exact ⟨e, _, by
          simp [winBuildbin, tarballStem, callCommand, exec_bind, exec_call_refused he, ht, hy,
            hlib, hd, hdangling]
          rfl, by rfl⟩
    next => cases hb

theorem buildPackage_bin_stopped
    (hb : binStart env w.listdir s.listings s.callcount s.cwd = .stopped) :
    Stops (buildPackage false) env w s [{ status := .startingBuildbin },
      { status := .preprocessing, retcode := some 0 }] := by
  rcases hy : env.system
  case darwin =>
    rw [binStart, hy] at hb
    dsimp only at hb
    split at hb <;> cases hb
  case windows =>
    obtain ⟨e, s', he, hm⟩ := winBuildbin_stops (s := s.announcedBin env) hy hb
    simp only [St.announcedBin] at he hm
    exact ⟨e, s'.view, by
      simp [Yields, buildPackage, buildCommand, completeBuild, runBuild, exec_bind, hp, hy, he], by
      rw [hm]
      simp [Event.mark, Event.stamp]⟩
  all_goals
    exact ⟨.unboundLocalError "r_cmd", _, by
      simp [Yields, buildPackage, buildCommand, completeBuild, runBuild, exec_bind, hp, hy]
      rfl, by simp [Event.mark, Event.stamp]⟩

omit hp in
theorem addEntry_of_mem {name : Str} {d : List Str} (h : name ∈ d) : addEntry name d = d := if_pos h

omit hp in
theorem winBuildbin_goes_on {cmd : Str} {d : List Str} (hy : env.system = .windows)
    (hb : binStart env w.listdir s.listings s.callcount s.cwd = .commanded cmd d) :
    ∃ s', s'.view.marks = s.view.marks ++ [{ status := .rBuildbinCmd }] ∧ s'.cwd = d ∧
      s'.longBuild = s.longBuild ∧
      exec winBuildbin (env, w.calm) s = exec (doBuild cmd false) (env, w.calm) s' := by
  rw [binStart, hy] at hb
  dsimp only at hb
  rcases ht : tarballIn env w.listdir s.listings s.cwd with _ | t
  · rw [ht] at hb
    cases hb
  have hlib : stem t ++ ofString ".buildbin-libdir" = winLibdir t := rfl
  rw [ht] at hb
  dsimp only at hb
  split at hb
  · cases hb
  next hn =>
    cases hb
    by_cases hd : winLibdir t ∈ s.cwd
    · -- the library of an earlier build is removed first
      obtain ⟨hk, hc⟩ : env.kind (winLibdir t) ≠ .dangling ∧
          env.refuses ("rm -rf " ++ winLibdir t) = none := by
        simpa [hd, not_or] using hn
      by_cases hin : winLibdir t ∈ env.rm.leaves
        (addEntry (str s.callcount ++ "err.txt") (addEntry (str s.callcount ++ "out.txt") s.cwd))
      · refine ⟨?_, ?_, ?_, ?_, ?_⟩
        rotate_left 4
        · simp [winBuildbin, tarballStem, makeMissing, callCommand, exec_bind, exec_call hc, ht, hy,
            hlib, hd, hk, hin]
          rfl
        all_goals simp [Event.mark, Event.stamp, dirWin, hd, addEntry_of_mem hin]
      · refine ⟨?_, ?_, ?_, ?_, ?_⟩
        rotate_left 4
        · simp [winBuildbin, tarballStem, makeMissing, osMkdir, callCommand, exec_bind, exec_call hc,
            ht, hy, hlib, hd, hk, hin]
          rfl
        all_goals simp [Event.mark, Event.stamp, dirWin, hd]
    · refine ⟨?_, ?_, ?_, ?_, ?_⟩
      rotate_left 4
      · simp [winBuildbin, tarballStem, makeMissing, osMkdir, exec_bind, ht, hlib, hd]
        rfl
      all_goals simp [Event.mark, Event.stamp, dirWin, hd]

variable {cmd : Str} {d : List Str}
  (hb : binStart env w.listdir s.listings s.callcount s.cwd = .commanded cmd d)
include hb

/-- What a binary build says up to its command. -/
def binToldMarks : List Mark :=
  [{ status := .startingBuildbin }, { status := .preprocessing, retcode := some 0 },
    { status := .rBuildbinCmd }]

theorem buildPackage_bin_goes_on : ∃ s', s'.view.marks = s.view.marks ++ binToldMarks ∧ s'.cwd = d ∧
    s'.longBuild = s.longBuild ∧ exec (buildPackage false) (env, w.calm) s =
      exec (doBuild cmd false >>= fun retcode => reportBuild false retcode) (env, w.calm) s' := by
  rcases hy : env.system
  case darwin =>
    rw [binStart, hy] at hb
    dsimp only at hb
    split at hb
    · cases hb
    next hd =>
      cases hb
      refine ⟨?_, ?_, ?_, ?_, ?_⟩
      rotate_left 4
      · simp [buildPackage, buildCommand, makeMissing, osMkdir, completeBuild, runBuild, exec_bind,
          hp, hy, hd]
        rfl
      all_goals simp [binToldMarks, Event.mark, Event.stamp]
  case windows =>
    obtain ⟨s', hm, hd, hl, he⟩ := winBuildbin_goes_on (s := s.announcedBin env) hy hb
    refine ⟨s', ?_, hd, by simpa [St.announcedBin] using hl, ?_⟩
    · rw [hm]
      simp [St.announcedBin, binToldMarks, Event.mark, Event.stamp]
    · simp only [St.announcedBin] at he
      simp [buildPackage, buildCommand, completeBuild, runBuild, exec_bind, hp, hy, he]
  all_goals
    rw [binStart, hy] at hb
    cases hb

theorem buildPackage_bin_unstarted (h : ¬ Startable env "Rbuildbin.out" cmd d) :
    Stops (buildPackage false) env w s binToldMarks := by
  obtain ⟨s', hm, hd, -, he⟩ := buildPackage_bin_goes_on hp hb
  have hs : ¬ Startable env (buildOutfile false) cmd s'.cwd := by rw [hd]; exact h
  obtain ⟨e, s'', hx, hm'⟩ := exec_doBuild_stuck (w := w.calm) hs
  refine ⟨e, s''.view, ?_, by rw [hm', hm]⟩
  rw [Does, Yields, he, exec_bind, hx]
  exact ⟨rfl, rfl⟩

theorem buildPackage_bin_passes {long : Bool} (h : Startable env "Rbuildbin.out" cmd d)
    (hl : s.longBuild = long) :
    Passes (buildPackage false) env w s ({ status := .startingBuildbin } ::
      { status := .preprocessing, retcode := some 0 } :: binBuiltMarks env long)
      (warnsOf env long false) := by
  obtain ⟨s', hm, hd, hl', he⟩ := buildPackage_bin_goes_on hp hb
  have hs : Startable env (buildOutfile false) cmd s'.cwd := by rw [hd]; exact h
  let s'' : St := (((s'.cleared env (buildOutfile false)).opened (buildOutfile false)).ran cmd
    (buildProcess env false).leaves).built (outputOf env s'.longBuild false)
  have ho : s''.buildOut = outputOf env long false := by simp only [s'', St.built_buildOut, hl', hl]
  have hlong : s''.longBuild = long := hl'.trans hl
  obtain ⟨a, v, hx, hv, hw⟩ := reportBuild_bin (w := w) hlong ho
  refine ⟨a, v, ?_, ?_, hw⟩
  · rw [Does, Yields, he, exec_bind, exec_doBuild hs]
    exact hx
  · have hm' : s''.view.marks = s'.view.marks := rfl
    rw [hv, hm', hm, List.append_assoc]
    rfl

end

end PackageBuilder
