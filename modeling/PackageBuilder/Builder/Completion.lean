import PackageBuilder.Builder.Protocol

/-! Which runs complete every stage they announce. -/
namespace PackageBuilder
open Text Effect Trace

/-- What a finished run owes its consumers. -/
structure Completed (l : List Status) : Prop where
  verdict : l.count .buildComplete + l.count .unsupported = 1
  checks : Each (fun _ x q => x = .startingCheck → q.count .checkComplete = 1) l
  bins : Each (fun _ x q => x = .startingBuildbin → q.count .buildbinComplete = 1) l

instance (l : List Status) : Decidable (Completed l) :=
  decidable_of_iff
    (l.count .buildComplete + l.count .unsupported = 1 ∧
      Each (fun _ x q => x = .startingCheck → q.count .checkComplete = 1) l ∧
      Each (fun _ x q => x = .startingBuildbin → q.count .buildbinComplete = 1) l)
    ⟨fun ⟨hv, hc, hb⟩ => ⟨hv, hc, hb⟩, fun h => ⟨h.verdict, h.checks, h.bins⟩⟩

/-- The binary build is skipped, or comes to a command that can be started. -/
def BinCompletes (env : Env) (o : Listing) (d : List Str) : Prop :=
  env.nodeSpec.pkgType = "source" ∨
    ∃ cmd d', binStart env o 2 1 d = .commanded cmd d' ∧ Startable env "Rbuildbin.out" cmd d'

/-- The directory `d` of the check of a tarball, and what its helpers gave, let it and the binary
build finish. -/
structure CheckCompletes (env : Env) (o : Listing) (long : Bool) (views : Str) (d : List Str)
    (tarball : Str) : Prop where
  found : tarballIn env o 1 d = some tarball
  replaceable : Replaceable env "Rcheck.out" d
  readable : CloneCheckReads env
  check : RCheckPasses env long views tarball
  biocCheck : BiocCheckStarts env tarball
  bin : BinCompletes env o (dirChecked env d)

/-- A build is started, one that succeeds leaves a tarball to copy, and its check finishes. -/
structure BuildCompletes (env : Env) (o : Listing) (long : Bool) (views : Str) (d : List Str) :
    Prop where
  starts : Startable env "R.out" (buildCmd env) d
  copied : BuildEnds env long [0] → Copied env o 0 (dirBuilt env d)
  check : BuildEnds env long [0, -4, -6] →
    ∃ tarball, CheckCompletes env o long views (dirUploaded env long d) tarball

/-- The commands before the build can be started. -/
structure InstallCompletes (env : Env) (o : Listing) (long : Bool) (views : Str) (d : List Str) :
    Prop where
  deps : DepsStart env
  cloneCheck : CloneCheckStarts env d
  package : env.refuses (installPkgCmd env) = none
  build : BuildCompletes env o long views (dirInstalled env d)

/-- The clone is started, and a package that is cloned, well described and supported gets a package
type, and its build completes. -/
def Completes (env : Env) (o : Listing) (d : List Str) : Prop :=
  env.refuses (gitCmd env.manifest.svnUrl) = none ∧
    (env.gitClone.status = 0 → dcfName env = some env.manifest.packageName → exitOut env = false →
      match packageKind env with
      | .docker => True
      | .unknown => False
      | .known views long =>
        InstallCompletes env o long views (dirTyped env (env.gitClone.leaves d)))

/-- The endings that leave nothing open. -/
def completeEndings : List Ending :=
  [.cloneFailed, .dcfUnreadable, .nameMismatch, .unsupportedPlatform, .docker, .buildFailed,
    .binSkipped, .binBuilt]

theorem completed_ending (e : Ending) (up : Bool) :
    Completed (e.statuses up) ↔ e ∈ completeEndings := by
  cases e <;> cases up <;> decide

variable {env : Env} {o : Listing} {long : Bool} {views : Str} {d : List Str}

/-- A guard whose branch leaves something open has to hold. -/
theorem guard_complete {c : Prop} [Decidable c] {e e' : Ending} (he : e ∉ completeEndings) :
    (if ¬c then e else e') ∈ completeEndings ↔ c ∧ e' ∈ completeEndings := by
  by_cases hc : c <;> simp [hc, he]

theorem binEnding_complete : binEnding env o d ∈ completeEndings ↔ BinCompletes env o d := by
  rw [binEnding, BinCompletes]
  split_ifs with hp
  · exact ⟨fun _ => .inl hp, fun _ => by decide⟩
  rw [or_iff_right hp]
  rcases binStart env o 2 1 d with _ | _ | ⟨cmd, d'⟩
  · simp [completeEndings]
  · simp [completeEndings]
  · by_cases hs : Startable env "Rbuildbin.out" cmd d' <;> simp [hs, completeEndings]

theorem checkEnding_complete : checkEnding env o long views d ∈ completeEndings ↔
    ∃ tarball, CheckCompletes env o long views d tarball := by
  rw [checkEnding]
  rcases ht : tarballIn env o 1 d with _ | tarball
  · refine iff_of_false (by simp [completeEndings]) ?_
    rintro ⟨_, h⟩
    exact absurd (h.found.symm.trans ht) (by simp)
  dsimp only
  rw [guard_complete (by decide), guard_complete (by decide), guard_complete (by decide),
    guard_complete (by decide), binEnding_complete]
  constructor
  · rintro ⟨hr, hu, hp, hb, hbin⟩
    exact ⟨tarball, ht, hr, hu, hp, hb, hbin⟩
  · rintro ⟨t, h⟩
    obtain rfl : t = tarball := Option.some.inj (h.found.symm.trans ht)
    exact ⟨h.replaceable, h.readable, h.check, h.biocCheck, h.bin⟩

theorem buildEnding_complete :
    buildEnding env o long views d ∈ completeEndings ↔ BuildCompletes env o long views d := by
  have hz := @retcodeOf_eq_zero env long
  have hp := @proceedCode_eq_zero env long
  rw [buildEnding, guard_complete (by decide)]
  constructor
  · rintro ⟨hs, h⟩
    by_cases hc : retcodeOf env long true = 0 ∧ ¬Copied env o 0 (dirBuilt env d)
    · rw [if_pos hc] at h
      split_ifs at h <;> simp [completeEndings] at h
    rw [if_neg hc] at h
    refine ⟨hs, fun hb => ?_, fun hb => ?_⟩
    · by_contra hcopy
      exact hc ⟨hz.mpr hb, hcopy⟩
    · rw [if_pos (hp.mpr hb)] at h
      exact checkEnding_complete.mp h
  · rintro ⟨hs, ht, hc⟩
    refine ⟨hs, ?_⟩
    rw [if_neg fun h => h.2 (ht (hz.mp h.1))]
    split_ifs with h
    · exact checkEnding_complete.mpr (hc (hp.mp h))
    · decide

theorem installEnding_complete :
    installEnding env o long views d ∈ completeEndings ↔ InstallCompletes env o long views d := by
  rw [installEnding, guard_complete (by decide), guard_complete (by decide),
    guard_complete (by decide), buildEnding_complete]
  constructor
  · rintro ⟨hd, hc, hp, hb⟩
    exact ⟨hd, hc, hp, hb⟩
  · rintro ⟨hd, hc, hp, hb⟩
    exact ⟨hd, hc, hp, hb⟩

theorem typeEnding_complete (hx : exitOut env = false) :
    typeEnding env o d ∈ completeEndings ↔
      match packageKind env with
      | .docker => True
      | .unknown => False
      | .known views long => InstallCompletes env o long views (dirTyped env d) := by
  rw [typeEnding, if_neg (by simp [hx])]
  rcases packageKind env with _ | _ | ⟨views, long⟩
  · simp [completeEndings]
  · simp [completeEndings]
  · exact installEnding_complete

theorem ending_complete (hv : env.manifest.biocVersion = some env.biocVersion) :
    ending env o d ∈ completeEndings ↔ Completes env o d := by
  rw [ending, if_neg (by simpa using hv), Completes]
  by_cases hg : env.refuses (gitCmd env.manifest.svnUrl) = none
  · rw [if_neg (not_not.mpr hg)]
    by_cases hc : env.gitClone.status = 0
    · rw [if_neg (by simpa using hc)]
      rcases hd : dcfName env with _ | name
      · simp [hg, completeEndings]
      by_cases hn : env.manifest.packageName = name
      · rcases hx : exitOut env
        · simpa [hg, hc, hn] using typeEnding_complete hx
        · simp [hg, hn, hx, typeEnding, completeEndings]
      · simp [hg, hn, Ne.symm hn, completeEndings]
    · simp [hg, hc, completeEndings]
  · simp [hg, completeEndings]

/-- The statuses a run sends before its `autoexit`. -/
def St.announced (s : St) : List Status := s.statuses.takeWhile (· ≠ .autoexit)

theorem quiet_announced (w : World) (hw : w.Quiet) (cwd : List Str) :
    (builderRun env w cwd).announced = (ending env w.listdir cwd).statuses (uploaded env) := by
  have hn : ∀ x ∈ (ending env w.listdir cwd).statuses (uploaded env),
      decide (x ≠ .autoexit) = true := by
    intro x hx
    exact decide_eq_true fun he => (ending_orderly _ _).running (he ▸ hx)
  rw [St.announced, quiet_statuses hw, List.takeWhile_append_of_pos hn]
  split <;> simp

/-- A run in a quiet world completes its stages exactly when its inputs let it. -/
theorem stages_completed_iff (env : Env) (w : World) (cwd : List Str) (hw : w.Quiet)
    (hv : env.manifest.biocVersion = some env.biocVersion) :
    Completed (builderRun env w cwd).announced ↔ Completes env w.listdir cwd := by
  rw [quiet_announced w hw, completed_ending, ending_complete hv]

theorem stages_completed_spbtest :
    Completed (builderRun spbtest {} []).announced ↔ Completes spbtest {} [] :=
  stages_completed_iff spbtest {} [] ⟨fun _ => rfl, rfl, fun _ => rfl, fun _ => rfl⟩ rfl

/-- The same package when getPackageType.R fails. -/
def untyped : Env := { spbtest with packageType := { status := 1 } }

/-- The same package when its clone brings a directory R.out. -/
def named : Env :=
  { spbtest with
    gitClone := { leaves := fun d => addEntry "R.out" (addEntry "spbtest5" d) }
    kind := fun name => if name = "R.out" then .directory else .file }

theorem untyped_not_completed : ¬ Completed (builderRun untyped {} []).announced ∧
    ¬ Completed (builderRun named {} []).announced := by
  have hw : World.Quiet {} := ⟨fun _ => rfl, rfl, fun _ => rfl, fun _ => rfl⟩
  rw [quiet_announced {} hw, quiet_announced {} hw]
  decide +kernel

end PackageBuilder
