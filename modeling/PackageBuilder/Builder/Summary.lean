import PackageBuilder.Builder.Completion

/-! When the last message of a run agrees with its stages. -/
namespace PackageBuilder
open Text Effect Trace

/-- The events that report the end of a stage. -/
def stageEvents : List Status := [.buildComplete, .checkComplete, .buildbinComplete]

/-- No stage was reported with warnings. -/
def Clean (l : List Event) : Prop :=
  ∀ e ∈ l, e.status ∈ stageEvents → e.warnings = some false

/-- Every `normal_end` says what the stages say. -/
def Agrees (l : List Event) : Prop :=
  ∀ e ∈ l, e.status = .normalEnd → (e.body = some "Build successful." ↔ Clean l) ∧
    (¬ Clean l → e.body = some "Build completed with warnings.")

instance (l : List Event) : Decidable (Clean l) :=
  inferInstanceAs (Decidable (∀ e ∈ l, e.status ∈ stageEvents → e.warnings = some false))

instance (l : List Event) : Decidable (Agrees l) :=
  inferInstanceAs (Decidable (∀ e ∈ l, e.status = .normalEnd →
    (e.body = some (ofString "Build successful.") ↔ Clean l) ∧
      (¬ Clean l → e.body = some (ofString "Build completed with warnings."))))

def CleanMarks (l : List Mark) : Prop :=
  ∀ m ∈ l, m.status ∈ stageEvents → m.warnings = some false

instance (l : List Mark) : Decidable (CleanMarks l) :=
  inferInstanceAs (Decidable (∀ m ∈ l, m.status ∈ stageEvents → m.warnings = some false))

theorem clean_iff (l : List Event) : Clean l ↔ CleanMarks (l.map Event.mark) := by
  simp [Clean, CleanMarks, Event.mark]

/-- The flag of the summary agrees if it is set exactly when a stage warned. -/
theorem agrees_of_marks {l : List Event} {front rest : List Mark} {b : Bool}
    (hl : l.map Event.mark =
      front ++ { status := .normalEnd, summary := some (summaryText b) } :: rest)
    (hf : ∀ m ∈ front, m.status ≠ .normalEnd) (hr : ∀ m ∈ rest, m.status = .autoexit) :
    Agrees l ↔ (b = false ↔ CleanMarks front) := by
  have hc : Clean l ↔ CleanMarks front := by
    have hn : ∀ m ∈ rest, m.status ∈ stageEvents → m.warnings = some false := by
      intro m hm hs
      rw [hr m hm] at hs
      exact absurd hs (by decide)
    rw [clean_iff, hl]
    constructor
    · intro h m hm
      exact h m (List.mem_append_left _ hm)
    · intro h m hm
      rcases List.mem_append.mp hm with hm | hm
      · exact h m hm
      rcases List.mem_cons.mp hm with rfl | hm
      · exact fun hs => absurd hs (by simp [stageEvents])
      · exact hn m hm
  have hb : ∀ e ∈ l, e.status = .normalEnd → e.body = some (summaryText b) := by
    intro e he hs
    have hm : e.mark ∈ l.map Event.mark := List.mem_map_of_mem he
    rw [hl, List.mem_append, List.mem_cons] at hm
    rcases hm with hm | hm | hm
    · exact absurd hs (hf e.mark hm)
    · simpa [Event.mark, hs] using congrArg Mark.summary hm
    · exact absurd ((hr e.mark hm).symm.trans hs) (by decide)
  have hx : ∃ e ∈ l, e.status = .normalEnd := by
    have hm : (⟨.normalEnd, none, none, some (summaryText b)⟩ : Mark) ∈ l.map Event.mark := by
      simp [hl]
    obtain ⟨e, he, hm⟩ := List.mem_map.mp hm
    exact ⟨e, he, congrArg Mark.status hm⟩
  rw [← hc]
  constructor
  · intro h
    obtain ⟨e, he, hs⟩ := hx
    have h := (h e he hs).1
    rw [hb e he hs] at h
    rw [← h]
    cases b <;> decide
  · intro h e he hs
    rw [hb e he hs, ← h]
    cases b <;> decide

/-- The binary build ran and its output warns. -/
def binWarned (env : Env) (long : Bool) : Bool :=
  env.nodeSpec.pkgType ≠ "source" && warnsOf env long false

def binFront (env : Env) (long : Bool) : List Mark :=
  if env.nodeSpec.pkgType = "source" then [{ status := .skipBuildbin }]
  else
    { status := .startingBuildbin } :: { status := .preprocessing, retcode := some 0 } ::
      binBuiltMarks env long

/-- Everything a run says before its `normal_end`. -/
def frontMarks (env : Env) (long : Bool) (views tarball : Str) : List Mark :=
  startMarks ++ clonedMarks ++ { status := .dcfInfo } ::
    { status := .postProcessing, retcode := some 0 } :: (installMarks env ++ compileMarks env ++
      (if retcodeOf env long true = 0 then uploadMarks env else []) ++ builtMarks env long ++
      { status := .startingCheck } :: (openCheckMarks ++ { status := .rCheck } ::
        (checkedMarks env long views tarball ++ binFront env long ++
          [{ status := .postProcessingComplete, retcode := some 0 }])))

variable {env : Env} {o : Listing} {long : Bool} {views tarball : Str} {d : List Str}

theorem frontMarks_statuses : ∀ m ∈ frontMarks env long views tarball, m.status ≠ .normalEnd := by
  intro m hm
  have hs := List.mem_map_of_mem (f := Mark.status) hm
  rw [frontMarks, binFront] at hs
  intro he
  rw [he] at hs
  split_ifs at hs <;>
    exact absurd hs (by simp [startMarks, clonedMarks, installMarks, reportMarks, toldMarks,
      compileMarks, uploadMarks, announceMarks, builtMarks, openCheckMarks, checkedMarks, binBuiltMarks])

theorem frontMarks_clean : CleanMarks (frontMarks env long views tarball) ↔
    warnsOf env long true = false ∧ checkWarnsOf env long views tarball = false ∧
      binWarned env long = false := by
  by_cases hp : env.nodeSpec.pkgType = "source" <;>
    by_cases hr : retcodeOf env long true = 0 <;>
    simp [CleanMarks, frontMarks, binFront, binWarned, hp, hr, startMarks, clonedMarks,
      installMarks, reportMarks, toldMarks, compileMarks, uploadMarks, builtMarks, announceMarks,
      openCheckMarks, checkedMarks, binBuiltMarks, stageEvents]

/-- The ending of a run that sends `normal_end`. -/
def Ending.normal (e : Ending) : Prop := e = .binSkipped ∨ e = .binBuilt

theorem normal_iff (e : Ending) (up : Bool) : .normalEnd ∈ e.statuses up ↔ e.normal := by
  unfold Ending.normal
  cases e <;> cases up <;> decide

/-- A guard whose branch does not end normally has to hold. -/
theorem guard_normal {c : Prop} [Decidable c] {e e' : Ending} (he : ¬ e.normal) :
    (if ¬c then e else e').normal ↔ c ∧ e'.normal := by
  by_cases hc : c <;> simp [hc, he]

theorem binScript_normal (h : (binEnding env o d).normal) :
    binScript env o long d = binFront env long ++ finishMarks (binWarned env long) := by
  rw [binEnding] at h
  split_ifs at h with hp
  · simp [binScript, binFront, binWarned, hp]
  rcases hb : binStart env o 2 1 d with _ | _ | ⟨cmd, d'⟩
  · simp [hb, Ending.normal] at h
  · simp [hb, Ending.normal] at h
  · by_cases hs : Startable env "Rbuildbin.out" cmd d'
    · simp [binScript, binFront, binWarned, hp, hb, hs]
    · simp [hb, hs, Ending.normal] at h

theorem checkScript_normal (h : (checkEnding env o long views d).normal) :
    ∃ tarball, tarballIn env o 1 d = some tarball ∧
      checkScript env o long views d = { status := .startingCheck } :: (openCheckMarks ++
        { status := .rCheck } :: (checkedMarks env long views tarball ++ binFront env long ++
          finishMarks (binWarned env long))) := by
  rw [checkEnding] at h
  rcases ht : tarballIn env o 1 d with _ | tarball
  · simp [ht, Ending.normal] at h
  simp only [ht] at h
  rw [guard_normal (by simp [Ending.normal]), guard_normal (by simp [Ending.normal]),
    guard_normal (by simp [Ending.normal]), guard_normal (by simp [Ending.normal])] at h
  obtain ⟨hr, hu, hp, hb, hbin⟩ := h
  refine ⟨tarball, rfl, ?_⟩
  rw [List.append_assoc, ← binScript_normal hbin]
  simp [checkScript, ht, hr, hu, hp, hb]

theorem buildScript_normal (h : (buildEnding env o long views d).normal) :
    ∃ tarball, tarballIn env o 1 (dirUploaded env long d) = some tarball ∧
      buildScript env o long views d = compileMarks env ++
        (if retcodeOf env long true = 0 then uploadMarks env else []) ++ builtMarks env long ++
        { status := .startingCheck } :: (openCheckMarks ++ { status := .rCheck } ::
          (checkedMarks env long views tarball ++ binFront env long ++
            finishMarks (binWarned env long))) := by
  rw [buildEnding, guard_normal (by simp [Ending.normal])] at h
  obtain ⟨hs, h⟩ := h
  by_cases hc : retcodeOf env long true = 0 ∧ ¬Copied env o 0 (dirBuilt env d)
  · rw [if_pos hc] at h
    split_ifs at h <;> simp [Ending.normal] at h
  rw [if_neg hc] at h
  split_ifs at h with hp
  · obtain ⟨tarball, hn, hcheck⟩ := checkScript_normal h
    exact ⟨tarball, hn, by rw [buildScript, if_pos hs, if_neg hc, if_pos hp, hcheck]; simp⟩
  · simp [Ending.normal] at h

theorem typedScript_normal (h : (installEnding env o long views d).normal) :
    typedScript env o long views d =
      installMarks env ++ buildScript env o long views (dirInstalled env d) ∧
    (buildEnding env o long views (dirInstalled env d)).normal := by
  rw [installEnding, guard_normal (by simp [Ending.normal]), guard_normal (by simp [Ending.normal]),
    guard_normal (by simp [Ending.normal])] at h
  obtain ⟨hd, hc, hp, h⟩ := h
  exact ⟨by simp [typedScript, installMarks, hd, hc, hp], h⟩

/-- Where the check of a run looks for its tarball. -/
def checkedIn (env : Env) (long : Bool) (d : List Str) : List Str :=
  dirUploaded env long (dirInstalled env (dirTyped env (env.gitClone.leaves d)))

theorem script_normal (h : (ending env o d).normal) : ∃ long views tarball,
    packageKind env = .known views long ∧ tarballIn env o 1 (checkedIn env long d) = some tarball ∧
      script env o d = frontMarks env long views tarball ++
        [{ status := .normalEnd, summary := some (summaryText (binWarned env long)) }] := by
  rw [ending] at h
  split_ifs at h with hv hg hc
  · simp [Ending.normal] at h
  · simp [Ending.normal] at h
  · simp [Ending.normal] at h
  rcases hd : dcfName env with _ | name
  · simp [hd, Ending.normal] at h
  by_cases hn : env.manifest.packageName = name
  · rcases hx : exitOut env
    · rcases hk : packageKind env with _ | _ | ⟨views, long⟩
      · simp [hd, hn, hx, hk, typeEnding, Ending.normal] at h
      · simp [hd, hn, hx, hk, typeEnding, Ending.normal] at h
      · simp [hd, hn, hx, hk, typeEnding] at h
        obtain ⟨hi, h⟩ := typedScript_normal h
        obtain ⟨tarball, ht, hs⟩ := buildScript_normal h
        refine ⟨long, views, tarball, rfl, ht, ?_⟩
        have hv : env.manifest.biocVersion = some env.biocVersion := by simpa using hv
        have hcloned : Cloned env := ⟨by simpa using hg, by simpa using hc⟩
        simp [script, dcfScript, typeScript, frontMarks, finishMarks, hv, hcloned, hd, hn, hx, hk,
          hi, hs]
    · simp [hd, hn, hx, typeEnding, Ending.normal] at h
  · simp [hd, hn, Ending.normal] at h

theorem normalEnd_last (e : Ending) (up : Bool) :
    Each (fun _ x q => x = .normalEnd → q = []) (e.statuses up) := by
  cases e <;> cases up <;> decide

/-- A run that is cut short before its end does not say `normal_end`. -/
theorem main_normal {w : World} (h : .normalEnd ∈ (exec main (env, w) { cwd := d }).2.statuses) :
    (ending env w.listdir d).normal ∧ (exec main (env, w) { cwd := d }).2.events =
      (exec main (env, w.calm) { cwd := d }).2.events := by
  have hc := calm_statuses env w d
  rcases main_cases env w { cwd := d } with (heq | ⟨-, t, hp⟩) | ⟨s₁, s₂, hw, hf, hb⟩
  · rw [heq, hc] at h
    exact ⟨(normal_iff _ _).mp h, by rw [heq]⟩
  · have hs : (ending env w.listdir d).statuses (uploaded env) =
        (exec main (env, w) { cwd := d }).2.statuses ++ t.map Event.status := by
      rw [← hc, St.statuses, ← hp, List.map_append]
      rfl
    refine ⟨(normal_iff _ (uploaded env)).mp (by rw [hs]; exact List.mem_append_left _ h), ?_⟩
    obtain ⟨a, b, hab⟩ := List.append_of_mem h
    rw [hab, List.append_assoc, List.cons_append] at hs
    have ht : b ++ t.map Event.status = [] := normalEnd_last _ _ _ _ _ hs rfl
    have ht : t = [] := by simpa using (List.append_eq_nil_iff.mp ht).2
    rw [← hp, ht, List.append_nil]
  · obtain ⟨e, he, hp⟩ := blamed_statuses hf hb
    rw [main_blamed hw hb] at h
    have hn := (normal_iff e false).mp (hp.subset h)
    rcases he with rfl | rfl <;> simp [Ending.normal] at hn

/-- The binary build warned, or no earlier stage did. -/
def FlagTells (env : Env) (o : Listing) (d : List Str) : Prop :=
  ∃ long views tarball, packageKind env = .known views long ∧
    tarballIn env o 1 (checkedIn env long d) = some tarball ∧
    (binWarned env long = true ∨
      warnsOf env long true = false ∧ checkWarnsOf env long views tarball = false)

/-- The last message agrees with the stages exactly when the flag of the binary build tells. -/
theorem summary_agrees_iff (env : Env) (w : World) (cwd : List Str)
    (h : .normalEnd ∈ (builderRun env w cwd).statuses) :
    Agrees (builderRun env w cwd).events ↔ FlagTells env w.listdir cwd := by
  have hr := builderRun_events env w cwd
  have hm : .normalEnd ∈ (exec main (env, w) { cwd }).2.statuses := by
    rw [St.statuses, hr, List.map_append, List.mem_append] at h
    refine h.resolve_right fun hx => ?_
    obtain ⟨e, he, hs⟩ := List.mem_map.mp hx
    exact absurd ((lastEvents_status e he).symm.trans hs) (by decide)
  obtain ⟨hn, he⟩ := main_normal hm
  obtain ⟨long, views, tarball, hk, ht, hs⟩ := script_normal hn
  have hl : (builderRun env w cwd).events.map Event.mark = frontMarks env long views tarball ++
      { status := .normalEnd, summary := some (summaryText (binWarned env long)) } ::
        (lastEvents env w cwd).map Event.mark := by
    rw [hr, List.map_append, he, main_marks, hs, List.append_assoc, List.singleton_append]
  rw [agrees_of_marks hl frontMarks_statuses (by
    intro m hm
    obtain ⟨e, he, rfl⟩ := List.mem_map.mp hm
    exact lastEvents_status e he), frontMarks_clean]
  have hf : FlagTells env w.listdir cwd ↔ (binWarned env long = true ∨
      warnsOf env long true = false ∧ checkWarnsOf env long views tarball = false) := by
    constructor
    · rintro ⟨long', views', tarball', hk', ht', h⟩
      rw [hk] at hk'
      cases hk'
      rw [ht] at ht'
      cases ht'
      exact h
    · exact fun h => ⟨long, views, tarball, hk, ht, h⟩
  rw [hf]
  rcases binWarned env long <;> simp

theorem summary_agrees_spbtest :
    Agrees (builderRun spbtest {} []).events ↔ FlagTells spbtest {} [] :=
  summary_agrees_iff spbtest {} [] (by decide +kernel)

/-- The same package with a warning in the output of its source build. -/
def warned : Env :=
  { spbtest with build := { spbtest.build with output := { text := "WARNING: no vignette" } } }

theorem warned_disagrees : ¬ Agrees (builderRun warned {} []).events := by
  decide +kernel

end PackageBuilder
