import PackageBuilder.Builder.CalmBuild

/-! The script of a run: which marks builder.py leaves in a calm world, as one function of what
the run is given. -/
namespace PackageBuilder
open Text Effect

def summaryText (warned : Bool) : Str :=
  if warned then "Build completed with warnings." else "Build successful."

def finishMarks (warned : Bool) : List Mark :=
  [{ status := .postProcessingComplete, retcode := some 0 },
    { status := .normalEnd, summary := some (summaryText warned) }]

def binScript (env : Env) (o : Listing) (long : Bool) (d : List Str) : List Mark :=
  if env.nodeSpec.pkgType = "source" then
    { status := .skipBuildbin } :: finishMarks false
  else
    match binStart env o 2 1 d with
    | .libdirLeft => [{ status := .startingBuildbin }]
    | .stopped =>
      [{ status := .startingBuildbin }, { status := .preprocessing, retcode := some 0 }]
    | .commanded cmd d' =>
      if Startable env "Rbuildbin.out" cmd d' then
        { status := .startingBuildbin } :: { status := .preprocessing, retcode := some 0 } ::
          (binBuiltMarks env long ++ finishMarks (warnsOf env long false))
      else binToldMarks

def checkScript (env : Env) (o : Listing) (long : Bool) (views : Str) (d : List Str) : List Mark :=
  { status := .startingCheck } ::
    match tarballIn env o 1 d with
    | none => []
    | some tarball =>
      if Replaceable env "Rcheck.out" d then
        openCheckMarks ++
          if CloneCheckReads env then
            { status := .rCheck } ::
              if RCheckPasses env long views tarball then
                if BiocCheckStarts env tarball then
                  checkedMarks env long views tarball ++ binScript env o long (dirChecked env d)
                else [{ status := .biocCheck }]
              else []
          else []
      else announceMarks

/-- The directory after the source build and its copy. -/
def dirUploaded (env : Env) (long : Bool) (d : List Str) : List Str :=
  if retcodeOf env long true = 0 then env.scp.leaves (dirBuilt env d) else dirBuilt env d

def buildScript (env : Env) (o : Listing) (long : Bool) (views : Str) (d : List Str) : List Mark :=
  if Startable env "R.out" (buildCmd env) d then
    compileMarks env ++
      if retcodeOf env long true = 0 ∧ ¬ Copied env o 0 (dirBuilt env d) then
        if sizedIn env o 0 (dirBuilt env d) = none then []
        else [{ status := .postProcessing, retcode := some 0 }]
      else
        (if retcodeOf env long true = 0 then uploadMarks env else []) ++ builtMarks env long ++
          if proceedCode (retcodeOf env long true) = 0 then
            checkScript env o long views (dirUploaded env long d)
          else []
  else toldMarks

/-- The command that installs the dependencies can be started. -/
def DepsStart (env : Env) : Prop :=
  ∀ d, env.description = .ok d → env.refuses (installDepsCmd env d) = none

instance (env : Env) : Decidable (DepsStart env) :=
  match h : env.description with
  | .ok d => decidable_of_iff (env.refuses (installDepsCmd env d) = none) (by simp [DepsStart, h])
  | .error _ => .isTrue (by simp [DepsStart, h])

/-- The clone check can be started in the directory that the installation of the dependencies
leaves. -/
def CloneCheckStarts (env : Env) (d : List Str) : Prop :=
  Startable env "CheckGitClone.out" (checkgitcloneCmd env) (env.installDeps.leaves d)

instance (env : Env) (d : List Str) : Decidable (CloneCheckStarts env d) :=
  inferInstanceAs (Decidable (Startable ..))

def installMarks (env : Env) : List Mark :=
  reportMarks env.installDeps.status ++ reportMarks env.checkgitclone.status ++
    reportMarks env.installPkg.status

/-- The directory when the source build starts, from the one in which the type was found. -/
def dirInstalled (env : Env) (d : List Str) : List Str :=
  env.installPkg.leaves (env.checkgitclone.leaves
    (fresh env "CheckGitClone.out" (env.installDeps.leaves d)))

def typedScript (env : Env) (o : Listing) (long : Bool) (views : Str) (d : List Str) :
    List Mark :=
  if DepsStart env then
    reportMarks env.installDeps.status ++
      if CloneCheckStarts env d then
        reportMarks env.checkgitclone.status ++
          if env.refuses (installPkgCmd env) = none then
            reportMarks env.installPkg.status ++ buildScript env o long views (dirInstalled env d)
          else startedMarks
      else startedMarks
  else startedMarks

def typeScript (env : Env) (o : Listing) (d : List Str) : List Mark :=
  if exitOut env then unsupportedMarks
  else
    match packageKind env with
    | .docker => unsupportedMarks
    | .unknown => []
    | .known views long =>
      { status := .postProcessing, retcode := some 0 } ::
        typedScript env o long views (dirTyped env d)

def dcfScript (env : Env) (o : Listing) (d : List Str) : List Mark :=
  match dcfName env with
  | none => failMarks 1
  | some name =>
    { status := .dcfInfo } ::
      if env.manifest.packageName ≠ name then failMarks 1 else typeScript env o d

/-- The clone can be started, and succeeds. -/
def Cloned (env : Env) : Prop :=
  env.refuses (gitCmd env.manifest.svnUrl) = none ∧ env.gitClone.status = 0

instance (env : Env) : Decidable (Cloned env) := inferInstanceAs (Decidable (_ ∧ _))

def script (env : Env) (o : Listing) (d : List Str) : List Mark :=
  if env.manifest.biocVersion = some env.biocVersion then
    startMarks ++
      if Cloned env then clonedMarks ++ dcfScript env o (env.gitClone.leaves d)
      else if env.refuses (gitCmd env.manifest.svnUrl) = none then failMarks env.gitClone.status
      else []
  else []

variable {α β : Type} {m : Builder α} {k : α → Builder β} {env : Env} {w : World} {s : St} {a : α}
  {v : View} {l l' : List Mark}

/-- In the calm world the stage says `l`, however it ends. -/
def Tells (m : Builder α) (env : Env) (w : World) (s : St) (l : List Mark) : Prop :=
  (exec m (env, w.calm) s).2.view.marks = s.view.marks ++ l

theorem Stops.tells (h : Stops m env w s l) : Tells m env w s l := by
  obtain ⟨e, v, h, hv⟩ := h
  rw [Tells, h.2, hv]

theorem Does.tells (hm : Does m env w s (.ok a) v) (hv : v.marks = s.view.marks ++ l)
    (hk : ∀ s', s'.view = v → Tells (k a) env w s' l') : Tells (m >>= k) env w s (l ++ l') := by
  obtain ⟨s', hs, he⟩ := hm.goes_on (k := k)
  rw [Tells, he, hk s' hs, hs, hv, List.append_assoc]

theorem Tells.congr (h : Tells m env w s l) (e : l = l') : Tells m env w s l' := e ▸ h

theorem summary_kept (env : Env) (b : Bool) :
    env.nfkd.run (summaryText b) = summaryText b := by
  apply env.nfkd.ascii
  cases b <;> simp [summaryText, ofString]

theorem sendNormalEnd_tells : Tells sendNormalEnd env w s (finishMarks s.warnings) := by
  have h := summary_kept env s.warnings
  rw [summaryText] at h
  simp [Tells, sendNormalEnd, exec_bind, Event.mark, Event.stamp, finishMarks, summaryText, h]

theorem Passes.tells {b : Bool} (hm : Passes m env w s l b)
    (hk : ∀ a s', s'.view.warnings = b → Tells (k a) env w s' l') :
    Tells (m >>= k) env w s (l ++ l') := by
  obtain ⟨a, v, hm, hv, hb⟩ := hm
  refine Does.tells hm hv fun s' hs => hk a s' ?_
  rw [hs, hb]

theorem bin_tells {long : Bool} (hn : s.listings = 2) (hcalls : s.callcount = 1)
    (hw : s.warnings = false) (hl : s.longBuild = long) :
    Tells (buildPackage false >>= fun _ => sendNormalEnd) env w s
      (binScript env w.listdir long s.cwd) := by
  rw [binScript]
  split_ifs with hp
  · refine Passes.tells (buildPackage_skips hp) fun _ s' hb => ?_
    rw [← hw, ← show s'.warnings = s.warnings from hb]
    exact sendNormalEnd_tells
  · have hstart : binStart env w.listdir s.listings s.callcount s.cwd =
        binStart env w.listdir 2 1 s.cwd := by rw [hn, hcalls]
    rcases hb : binStart env w.listdir 2 1 s.cwd with _ | _ | ⟨cmd, d⟩ <;> rw [hb] at hstart
    · exact (buildPackage_bin_left hp hstart).bind.tells
    · exact (buildPackage_bin_stopped hp hstart).bind.tells
    · dsimp only
      split_ifs with hs
      · refine Passes.tells (buildPackage_bin_passes hp hstart hs hl) fun _ s' hb => ?_
        rw [← show s'.warnings = warnsOf env long false from hb]
        exact sendNormalEnd_tells
      · exact (buildPackage_bin_unstarted hp hstart hs).bind.tells

theorem check_tells {long : Bool} {views : Str} (hn : s.listings = 1) (hcalls : s.callcount = 1)
    (hl : s.longBuild = long) (hv : s.pkgTypeViews = views)
    (hg : s.gitcloneRetcode = env.checkgitclone.status) :
    Tells checkAndFinish env w s (checkScript env w.listdir long views s.cwd) := by
  have hw : Does (modify (·.warned false)) env w s (.ok ()) { s.view with warnings := false } :=
    ⟨rfl, rfl⟩
  refine (hw.tells (by simp) fun s₁ hs => ?_).congr
    (l := [] ++ checkScript env w.listdir long views s.cwd) rfl
  have hd : s₁.cwd = s.cwd := congrArg View.cwd hs
  replace hn : s₁.listings = 1 := (congrArg View.listings hs).trans hn
  replace hcalls : s₁.callcount = 1 := (congrArg View.callcount hs).trans hcalls
  replace hl : s₁.longBuild = long := (congrArg View.longBuild hs).trans hl
  replace hv : s₁.pkgTypeViews = views := (congrArg View.views hs).trans hv
  replace hg : s₁.gitcloneRetcode = env.checkgitclone.status :=
    (congrArg View.gitclone hs).trans hg
  rw [← hd, checkScript]
  rcases ht : tarballIn env w.listdir 1 s₁.cwd with _ | tarball
  · exact (checkPackage_no_tarball (w := w) (tarballIn_eq_none.mp ht)).bind.tells
  have ht' : tarballIn env w.listdir s₁.listings s₁.cwd = some tarball := by rw [hn, ht]
  dsimp only
  split_ifs with hr hu hp hb
  · have h := checkPackage_does (w := w) ht' hr hu hl hv hp hg hb
    refine (h.tells rfl fun s₂ hs₂ => ?_).congr
      (l := _ ++ binScript env w.listdir long (dirChecked env s₁.cwd)) (by simp)
    have hd₂ : s₂.cwd = dirChecked env s₁.cwd := congrArg View.cwd hs₂
    have hw₂ : s₂.warnings = false :=
      (congrArg View.warnings hs₂).trans (congrArg View.warnings hs)
    rw [← hd₂]
    exact bin_tells ((congrArg View.listings hs₂).trans (congrArg (· + 1) hn))
      ((congrArg View.callcount hs₂).trans hcalls) hw₂ ((congrArg View.longBuild hs₂).trans hl)
  · exact (checkPackage_unfinished ht' hr hu hl hv hp hb).bind.tells
  · exact (checkPackage_unchecked ht' hr hu hl hv hp).bind.tells
  · exact (checkPackage_unreadable ht' hr hu).bind.tells.congr (by simp)
  · exact (checkPackage_stuck ht' hr).bind.tells

theorem build_tells {long : Bool} {views : Str} (hn : s.listings = 0) (hcalls : s.callcount = 1)
    (hl : s.longBuild = long) (hv : s.pkgTypeViews = views)
    (hg : s.gitcloneRetcode = env.checkgitclone.status) :
    Tells (buildPackage true >>= fun result => if result = 0 then checkAndFinish else pure ()) env w
      s (buildScript env w.listdir long views s.cwd) := by
  rw [buildScript]
  by_cases hs : Startable env "R.out" (buildCmd env) s.cwd
  · rw [if_pos hs]
    by_cases h : retcodeOf env long true = 0 ∧ ¬ Copied env w.listdir 0 (dirBuilt env s.cwd)
    · rw [if_pos h]
      split_ifs with hz
      · exact (buildPackage_missing hs hl h.1 (by rw [hn, hz])).bind.tells.congr (by simp)
      · obtain ⟨t, ht⟩ := Option.ne_none_iff_exists'.mp hz
        have hcopy : env.refuses (copyCmd env t) ≠ none := fun hc => h.2 ⟨t, ht, hc⟩
        rw [← hn] at ht
        exact (buildPackage_uncopied hs hl h.1 ht hcopy).bind.tells
    · have hcopied : retcodeOf env long true = 0 →
          Copied env w.listdir s.listings (dirBuilt env s.cwd) := by
        rw [hn]
        exact fun hr => not_not.mp fun hc => h ⟨hr, hc⟩
      have hb := buildPackage_does (w := w) hs hl hcopied
      rw [if_neg h, ← List.append_assoc]
      refine hb.tells rfl fun s₁ h₁ => ?_
      split_ifs with hp
      · have hd : s₁.cwd = dirUploaded env long s.cwd := congrArg View.cwd h₁
        rw [← hd]
        exact check_tells ((congrArg View.listings h₁).trans (congrArg (· + 1) hn))
          ((congrArg View.callcount h₁).trans hcalls) ((congrArg View.longBuild h₁).trans hl)
          ((congrArg View.views h₁).trans hv) ((congrArg View.gitclone h₁).trans hg)
      · simp [Tells]
  · rw [if_neg hs]
    exact (buildPackage_unstarted hs).bind.tells

theorem install_tells {views : Str} {long : Bool} (h : packageKind env = .known views long)
    (hn : s.listings = 0) (hcalls : s.callcount = 1) (hl : s.longBuild = long)
    (hv : s.pkgTypeViews = views) :
    Tells (do
      let _ ← installPkgDeps
      let gitcloneRetcode ← checkgitclone
      modify (·.cloneChecked gitcloneRetcode)
      let _ ← installPkg
      let result ← buildPackage true
      if result = 0 then checkAndFinish) env w s
      (typedScript env w.listdir long views s.cwd) := by
  obtain ⟨d, hd⟩ := description_of_known h
  have hdeps : DepsStart env ↔ env.refuses (installDepsCmd env d) = none := by simp [DepsStart, hd]
  rw [typedScript]
  split_ifs with hs hc hp
  rotate_left 3
  · exact (installPkgDeps_stops hd (hdeps.not.mp hs)).bind.tells
  all_goals
    refine (installPkgDeps_does hd (hdeps.mp hs)).tells rfl fun s₁ h₁ => ?_
    have h₁d : s₁.cwd = env.installDeps.leaves s.cwd := congrArg View.cwd h₁
  rotate_left 2
  · exact (checkgitclone_stops (by rw [h₁d]; exact hc)).bind.tells
  all_goals
    refine (checkgitclone_does (by rw [h₁d]; exact hc)).tells rfl fun s₂ h₂ => ?_
    have hg : Does (modify (·.cloneChecked env.checkgitclone.status)) env w s₂ (.ok ())
        { s₂.view with gitclone := env.checkgitclone.status } := ⟨rfl, rfl⟩
    refine hg.tells (l := []) (by simp) fun s₃ h₃ => ?_
  · refine (installPkg_does hp).tells rfl fun s₄ h₄ => ?_
    rw [h₃, h₂, h₁] at h₄
    have hc : s₄.cwd = dirInstalled env s.cwd := congrArg View.cwd h₄
    rw [← hc]
    exact build_tells ((congrArg View.listings h₄).trans hn)
      ((congrArg View.callcount h₄).trans hcalls) ((congrArg View.longBuild h₄).trans hl)
      ((congrArg View.views h₄).trans hv) (congrArg View.gitclone h₄)
  · exact (installPkg_stops hp).bind.tells

theorem buildAndCheck_tells (hn : s.listings = 0) (hcalls : s.callcount = 1)
    (hl : s.longBuild = false) :
    Tells buildAndCheck env w s (typeScript env w.listdir s.cwd) := by
  rcases hx : exitOut env
  · have ht : typeScript env w.listdir s.cwd = [] ++ typeScript env w.listdir s.cwd := rfl
    rw [ht]
    refine (checkPlatform_does hx).tells (by simp) fun s₁ h₁ => ?_
    rcases hk : packageKind env with _ | _ | ⟨views, long⟩
    · exact (getPackageType_docker hk).bind.tells.congr (by simp [typeScript, hx, hk])
    · exact (getPackageType_unknown hk).bind.tells.congr (by simp [typeScript, hx, hk])
    · refine ((getPackageType_does hk).tells rfl fun s₂ h₂ => ?_).congr
        (l := _ ++ typedScript env w.listdir long views (dirTyped env s.cwd))
        (by simp [typeScript, hx, hk])
      rw [h₁] at h₂
      have hc : s₂.cwd = dirTyped env s.cwd := congrArg View.cwd h₂
      rw [← hc]
      refine install_tells hk ((congrArg View.listings h₂).trans hn)
        ((congrArg View.callcount h₂).trans hcalls) ((congrArg View.longBuild h₂).trans ?_)
        (congrArg View.views h₂)
      simp [show s.view.longBuild = false from hl]
  · exact (checkPlatform_stops hx).bind.tells.congr (by simp [typeScript, hx])

theorem fetchPackage_does (hv : env.manifest.biocVersion = some env.biocVersion)
    (hc : Cloned env) :
    Does fetchPackage env w s (.ok ()) { s.view with
      marks := s.view.marks ++ (startMarks ++ clonedMarks)
      cwd := env.gitClone.leaves s.view.cwd } := by
  refine (checkVersion_does hv).bind fun s₁ h₁ => ?_
  refine builderStarted_does.bind fun s₂ h₂ => ?_
  refine getNodeInfo_does.bind fun s₃ h₃ => ?_
  have hview : s₃.view = s.view.say [{ status := .builderStarted }, { status := .nodeInfo }] := by
    simp [h₃, h₂, h₁, View.say]
  have hclone := gitClone_does (w := w) (s := s₃) hc.1 hc.2
  rw [hview] at hclone
  simpa [View.say, startMarks] using hclone

theorem fetchPackage_stops (hv : env.manifest.biocVersion = some env.biocVersion)
    (hc : ¬ Cloned env) :
    Stops fetchPackage env w s (startMarks ++
      if env.refuses (gitCmd env.manifest.svnUrl) = none then failMarks env.gitClone.status
      else []) := by
  refine (checkVersion_does hv).stops (l := []) (by simp) fun _ _ => ?_
  refine builderStarted_does.stops rfl fun _ _ => ?_
  refine getNodeInfo_does.stops rfl fun _ _ => ?_
  split_ifs with hg
  · exact gitClone_stops hg fun hs => hc ⟨hg, hs⟩
  · exact gitClone_refused hg

theorem getDcfInfo_tells (hn : s.listings = 0) (hcalls : s.callcount = 1)
    (hl : s.longBuild = false) :
    Tells (getDcfInfo >>= fun _ => buildAndCheck) env w s (dcfScript env w.listdir s.cwd) := by
  rcases hd : dcfName env with _ | name
  · exact (getDcfInfo_unreadable hd).bind.tells.congr (by simp [dcfScript, hd])
  by_cases hp : env.manifest.packageName = name
  · have hd' : dcfName env = some env.manifest.packageName := by rw [hd, hp]
    refine ((getDcfInfo_does hd').tells rfl fun s₁ h₁ => ?_).congr
      (l := [{ status := .dcfInfo }] ++ typeScript env w.listdir s.cwd) (by simp [dcfScript, hd, hp])
    have hc : s₁.cwd = s.cwd := congrArg View.cwd h₁
    rw [← hc]
    exact buildAndCheck_tells ((congrArg View.listings h₁).trans hn)
      ((congrArg View.callcount h₁).trans hcalls) ((congrArg View.longBuild h₁).trans hl)
  · exact (getDcfInfo_mismatch hd hp).bind.tells.congr (by simp [dcfScript, hd, hp])

/-- Without failures, a run says exactly what its script says. -/
theorem main_marks (env : Env) (w : World) (cwd : List Str) :
    (exec main (env, w.calm) { cwd }).2.events.map Event.mark = script env w.listdir cwd := by
  have h : Tells main env w { cwd } (script env w.listdir cwd) := by
    by_cases hv : env.manifest.biocVersion = some env.biocVersion
    · by_cases hc : Cloned env
      · refine ((fetchPackage_does hv hc).tells rfl fun s₁ h₁ => ?_).congr
          (l := _ ++ dcfScript env w.listdir (env.gitClone.leaves cwd))
          (by simp [script, hv, hc])
        have hd : s₁.cwd = env.gitClone.leaves cwd := congrArg View.cwd h₁
        rw [← hd]
        exact getDcfInfo_tells (congrArg View.listings h₁) (congrArg View.callcount h₁)
          (congrArg View.longBuild h₁)
      · exact (fetchPackage_stops hv hc).bind.tells.congr (by simp [script, hv, hc])
    · exact (checkVersion_stops hv).bind.bind.tells.congr (by simp [script, hv])
  exact h

end PackageBuilder
