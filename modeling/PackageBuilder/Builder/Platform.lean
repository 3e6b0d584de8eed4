import PackageBuilder.Builder.CalmBuild

/-! Which nodes a package excludes with its option UnsupportedPlatforms. -/
namespace PackageBuilder
open Text Effect

/-- The entries of the option, trimmed. -/
def platformEntries (env : Env) : List Str :=
  match env.unsupportedPlatforms with
  | some unsupport => (unsupport.splitOn ',').map strip
  | none => []

/-- The word of the option for a node's own operating system. -/
def System.word : System → Option Str
  | .linux => some "linux"
  | .darwin => some "mac"
  | .windows => some "win"
  | .other => none

/-- Some entry names the system of this node. -/
def NamesSystem (env : Env) : Prop :=
  ∃ entry ∈ platformEntries env, env.system.word = some (env.lower entry)

/-- The package excludes this node, letter case aside. -/
def Excluded (env : Env) : Prop :=
  (∃ entry ∈ platformEntries env, env.lower entry = env.lower env.builderId) ∨ NamesSystem env

def unsupportedEvent : Event := {
  status := .unsupported
  retcode := some 0
  warnings := some false
  body := some "Unsupported Platform"
  elapsedTime := some "NA" }

/-- The state after both events of the exit: nothing was run, and the directory is as before. -/
def St.reportedUnsupported (s : St) (env : Env) : St :=
  (s.sent env unsupportedEvent).sent env {
    status := .postProcessing, retcode := some 0, body := some "Unsupported Platform. " }

/-- From the platform check on, the run only reports that the platform is unsupported. -/
def ExitsUnsupported (env : Env) (w : World) (s : St) : Prop :=
  exec buildAndCheck (env, w) s =
    (.error (.systemExit "unsupported platform"), s.reportedUnsupported env)

section
variable {env : Env} {w : World} {s : St}

theorem isUnsupported_iff {mySys : System} {key : Str} : isUnsupported env mySys key = true ↔
    env.system = mySys ∧ ∃ entry ∈ platformEntries env, env.lower entry = key := by
  rcases hu : env.unsupportedPlatforms with _ | unsupport <;>
    simp [isUnsupported, platformEntries, hu]

/-- The code asks for the id as it is configured. -/
theorem exitOut_iff : exitOut env = true ↔
    (∃ entry ∈ platformEntries env, env.lower entry = env.builderId) ∨ NamesSystem env := by
  simp only [exitOut, Bool.or_eq_true, isUnsupported_iff, NamesSystem]
  cases env.system <;> simp [System.word, eq_comm]

/-- The run once the package type is known. -/
def installAndBuild : Builder Unit := do
  let _ ← installPkgDeps
  let gitcloneRetcode ← checkgitclone
  modify (·.cloneChecked gitcloneRetcode)
  let _ ← installPkg
  let result ← buildPackage true
  if result = 0 then
    checkAndFinish

instance : Sequential installAndBuild := by unfold installAndBuild; infer_instance

theorem exec_checkPlatform_excluded (h : exitOut env = true) :
    exec buildAndCheck (env, w.calm) s =
      (.error (.systemExit "unsupported platform"), s.reportedUnsupported env) := by
  simp [buildAndCheck, checkPlatform, exec_bind, h, St.reportedUnsupported, unsupportedEvent]

theorem exec_checkPlatform_passed (h : exitOut env = false) :
    exec buildAndCheck (env, w.calm) s =
      exec (getPackageType >>= fun _ => installAndBuild) (env, w.calm) s := by
  simp [buildAndCheck, installAndBuild, checkPlatform, exec_bind, h]

theorem marks_reportedUnsupported (s : St) (env : Env) :
    (s.reportedUnsupported env).view.marks = s.view.marks ++ unsupportedMarks := by
  simp [St.reportedUnsupported, unsupportedEvent, Event.mark, Event.stamp, unsupportedMarks]

theorem exec_getPackageType_docker (h : packageKind env = .docker) :
    (exec getPackageType (env, w.calm) s).1 = .error (.systemExit "docker container") := by
  rcases hd : env.description with e | d
  · simp [packageKind, hd] at h
  · simp only [packageKind, hd, packageKindOf] at h
    generalize hb : env.lower ((d.get? "BiocType").getD "Software") = biocType at h
    split_ifs at h with h1 h2 h3
    rw [h3] at h1 h2 hb
    simp [getPackageType, parseDcf, setPackageType, exec_bind, hd, hb, h1, h2]

/-- Past the check, no run ends as if it had been stopped there. -/
theorem not_exitsUnsupported (h : exitOut env = false) : ¬ ExitsUnsupported env w.calm s := by
  intro hx
  rw [ExitsUnsupported, exec_checkPlatform_passed h] at hx
  have hm := marks_reportedUnsupported s env
  rcases hk : packageKind env with _ | _ | ⟨views, long⟩
  · -- a docker package stops with another message
    have hd := exec_getPackageType_docker (w := w) (s := s) hk
    rw [exec_bind] at hx
    rcases he : exec getPackageType (env, w.calm) s with ⟨x, s'⟩
    rw [he] at hd hx
    cases hd
    have hmsg := congrArg Prod.fst hx
    simp [ofString] at hmsg
  · obtain ⟨e, v, ⟨-, hv⟩, hl⟩ :=
      (getPackageType_unknown (w := w) (s := s) hk).bind (k := fun _ => installAndBuild)
    rw [hx] at hv
    rw [hv, hl] at hm
    simp [unsupportedMarks] at hm
  · -- the type is reported first
    obtain ⟨s', hs, he⟩ :=
      (getPackageType_does (w := w) (s := s) hk).goes_on (k := fun _ => installAndBuild)
    have hgrow := (cutShort installAndBuild).grows (env, w.calm) s'
    rw [← he, hx] at hgrow
    have hp : s'.view.marks <+: (s.reportedUnsupported env).view.marks := hgrow.map Event.mark
    rw [hs, hm] at hp
    simpa [unsupportedMarks] using (List.prefix_append_right_inj _).mp hp

theorem exitsUnsupported_iff : ExitsUnsupported env w.calm s ↔ exitOut env = true := by
  constructor
  · intro h
    by_contra hx
    exact not_exitsUnsupported (by simpa using hx) h
  · exact exec_checkPlatform_excluded

/-- The decision is right unless the id has capital letters and only the id is named. -/
theorem exits_iff_excluded_iff (env : Env) (w : World) (s : St)
    (hlower : ∀ t, env.lower (env.lower t) = env.lower t) :
    (ExitsUnsupported env w.calm s ↔ Excluded env) ↔
      env.lower env.builderId = env.builderId ∨ NamesSystem env ∨
        ∀ entry ∈ platformEntries env, env.lower entry ≠ env.lower env.builderId := by
  rw [exitsUnsupported_iff, exitOut_iff, Excluded]
  constructor
  · intro h
    by_contra hc
    obtain ⟨hid, hsys, hentry⟩ : env.lower env.builderId ≠ env.builderId ∧ ¬ NamesSystem env ∧
        ∃ entry ∈ platformEntries env, env.lower entry = env.lower env.builderId := by
      simpa [not_or] using hc
    obtain ⟨entry, -, he⟩ := (h.mpr (.inl hentry)).resolve_right hsys
    exact hid (by rw [← he, hlower])
  · rintro (hid | hsys | hnone)
    · rw [hid]
    · exact ⟨fun _ => .inr hsys, fun _ => .inr hsys⟩
    · constructor
      · rintro (⟨entry, hmem, he⟩ | hsys)
        · exact absurd (by rw [← he, hlower]) (hnone entry hmem)
        · exact .inr hsys
      · rintro (⟨entry, hmem, he⟩ | hsys)
        · exact absurd he (hnone entry hmem)
        · exact .inr hsys

theorem lower_lower (t : Str) : lower (lower t) = lower t := by
  simp [lower]

/-- A package that excludes two nodes, each in a spelling of its own. -/
def excluding : Env :=
  { spbtest with unsupportedPlatforms := some "Nebbiolo1 , phs-its-lion-test-macbook" }

theorem exits_iff_excluded_nebbiolo1 :
    ExitsUnsupported excluding (World.calm {}) { cwd := [] } ↔ Excluded excluding :=
  (exits_iff_excluded_iff excluding {} { cwd := [] } lower_lower).mpr (.inl rfl)

/-- The node id of the source that has capital letters. -/
def onMacBook : Env :=
  { excluding with builderId := "PHS-ITs-Lion-Test-MacBook", system := .darwin }

theorem onMacBook_goes_on :
    Excluded onMacBook ∧ ¬ ExitsUnsupported onMacBook (World.calm {}) { cwd := [] } := by
  constructor
  · exact .inl ⟨"phs-its-lion-test-macbook", by decide +kernel, by decide +kernel⟩
  · exact not_exitsUnsupported (by decide +kernel)

end
end PackageBuilder
