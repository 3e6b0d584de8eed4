import PackageBuilder.Builder.Cut

/-! What each stage of a run in a calm world does, as far as the event protocol and the later
stages can see it. -/
namespace PackageBuilder
open Text Effect

/-- What the consumers' state machines read of an event. -/
structure Mark where
  status : Status
  retcode : Option Int := none
  warnings : Option Bool := none
  summary : Option Str := none
  deriving DecidableEq, Repr

def Event.mark (e : Event) : Mark :=
  ⟨e.status, e.retcode, e.warnings, if e.status = .normalEnd then e.body else none⟩

/-- The part of the state that decides how a run goes on and what it reports. -/
structure View where
  marks : List Mark
  cwd : List Str
  listings : Nat
  longBuild : Bool
  views : Str
  gitclone : Int
  warnings : Bool
  buildOut : Str
  callcount : Nat

def St.view (s : St) : View :=
  ⟨s.events.map Event.mark, s.cwd, s.listings, s.longBuild, s.pkgTypeViews, s.gitcloneRetcode,
    s.warnings, s.buildOut, s.callcount⟩

section
variable (s : St) (env : Env)

@[simp] theorem view_sent (e : Event) : (s.sent env e).view =
    { s.view with marks := s.view.marks ++ [(e.stamp env).mark] } := by
  simp only [St.view, St.sent, St.accepted, St.tried, List.map_append, List.map_cons, List.map_nil]

@[simp] theorem view_opened (name : Str) :
    (s.opened name).view = { s.view with cwd := addEntry name s.view.cwd } := rfl

@[simp] theorem view_removed (name : Str) :
    (s.removed name).view = { s.view with cwd := s.view.cwd.filter (· ≠ name) } := rfl

@[simp] theorem view_ran (cmd : Str) (leaves : List Str → List Str) :
    (s.ran cmd leaves).view = { s.view with cwd := leaves s.view.cwd } := rfl

@[simp] theorem view_listed :
    s.listed.view = { s.view with listings := s.view.listings + 1 } := rfl

@[simp] theorem view_answered (t : Option Str) : (s.answered t).view = s.view := rfl

@[simp] theorem view_called :
    s.called.view = { s.view with callcount := s.view.callcount + 1 } := rfl

@[simp] theorem view_onUrl (url : Str) : (s.onUrl url).view = s.view := rfl

@[simp] theorem view_typed (views : Str) (long : Bool) : (s.typed views long).view =
    { s.view with views := views, longBuild := s.view.longBuild || long } := rfl

@[simp] theorem view_built (out : Str) :
    (s.built out).view = { s.view with buildOut := out } := rfl

@[simp] theorem view_warned (b : Bool) :
    (s.warned b).view = { s.view with warnings := b } := rfl

@[simp] theorem view_cloneChecked (n : Int) :
    (s.cloneChecked n).view = { s.view with gitclone := n } := rfl

end

/-- What `if os.path.exists(name): os.remove(name)` leaves, if it does not raise. -/
def cleared (env : Env) (name : Str) (d : List Str) : List Str :=
  if env.kind name = .dangling then d else d.filter (· ≠ name)

theorem cleared_of_not_mem {env : Env} {name : Str} {d : List Str} (h : name ∉ d) :
    cleared env name d = d := by
  rw [cleared, List.filter_eq_self.mpr, ite_self]
  rintro x hx
  simpa using ne_of_mem_of_not_mem hx h

/-- The directory with a fresh file in it. -/
def fresh (env : Env) (name : Str) (d : List Str) : List Str := addEntry name (cleared env name d)

/-- The name is free, or one that `os.remove` takes. -/
def Replaceable (env : Env) (name : Str) (d : List Str) : Prop :=
  name ∈ d → env.kind name ≠ .directory

instance (env : Env) (name : Str) (d : List Str) : Decidable (Replaceable env name d) :=
  inferInstanceAs (Decidable (_ → _))

@[simps] def St.cleared (s : St) (env : Env) (name : Str) : St :=
  { s with cwd := PackageBuilder.cleared env name s.cwd }

section
variable (s : St) (env : Env) (name : Str)

@[simp] theorem view_cleared :
    (s.cleared env name).view = { s.view with cwd := cleared env name s.view.cwd } := rfl

end

section
variable (r : Env × World) (s : St) (name cmd : Str) (p : Process)

@[simp] theorem exec_environment : exec environment r s = (.ok r.1, s) := rfl
@[simp] theorem exec_openW : exec (openW name) r s = (.ok (), s.opened name) := rfl

@[simp] theorem exec_osPathExists : exec (osPathExists name) r s =
    (.ok (decide (name ∈ s.cwd ∧ r.1.kind name ≠ .dangling)), s) := rfl

theorem exec_osRemove : exec (osRemove name) r s =
    if r.1.kind name = .directory then (.error (.isADirectoryError name), s)
    else (.ok (), s.removed name) := by
  by_cases h : r.1.kind name = .directory <;> simp [osRemove, exec_bind, h]

end

section
variable {env : Env} {w : World} {s : St} {name cmd : Str} {p : Process} {e : Exn}

theorem exec_removeExisting (h : Replaceable env name s.cwd) :
    exec (removeExisting name) (env, w) s = (.ok (), s.cleared env name) := by
  by_cases hn : name ∈ s.cwd
  · have hd : env.kind name ≠ .directory := h hn
    by_cases hk : env.kind name = .dangling <;>
      simp [removeExisting, exec_bind, exec_osRemove, hn, hd, hk, St.cleared, cleared, St.removed]
  · simp [removeExisting, exec_bind, hn, St.cleared, cleared_of_not_mem hn]

theorem exec_removeExisting_stuck (h : ¬ Replaceable env name s.cwd) :
    exec (removeExisting name) (env, w) s = (.error (.isADirectoryError name), s) := by
  obtain ⟨hn, hd⟩ : name ∈ s.cwd ∧ env.kind name = .directory := by simpa [Replaceable] using h
  simp [removeExisting, exec_bind, exec_osRemove, hn, hd]

theorem exec_openFresh (h : Replaceable env name s.cwd) :
    exec (openFresh name) (env, w) s = (.ok (), (s.cleared env name).opened name) := by
  simp [openFresh, exec_bind, exec_removeExisting h]

theorem exec_openFresh_stuck (h : ¬ Replaceable env name s.cwd) :
    exec (openFresh name) (env, w) s = (.error (.isADirectoryError name), s) := by
  simp [openFresh, exec_bind, exec_removeExisting_stuck h]

theorem exec_call (h : env.refuses cmd = none) :
    exec (call cmd p) (env, w) s = (.ok p.status, s.ran cmd p.leaves) := by
  simp [call, exec_bind, h]

theorem exec_call_refused (h : env.refuses cmd = some e) :
    exec (call cmd p) (env, w) s = (.error e, s) := by
  simp [call, exec_bind, h]

end

def hasTarball (env : Env) (d : List Str) : Bool :=
  d.any (isTarball (tarballPkgname env.manifest))

theorem tarballIn_eq_none {env : Env} {o : Listing} {n : Nat} {d : List Str} :
    tarballIn env o n d = none ↔ hasTarball env d = false := by
  simp only [tarballIn, hasTarball, List.find?_eq_none, List.any_eq_false]
  exact forall_congr' fun x => by rw [(o.perm n d).mem_iff]

@[simp] theorem calm_listdir (w : World) : w.calm.listdir = w.listdir := rfl

/-- Runs of a stage in the calm world, seen through `St.view`. -/
abbrev Does {α : Type} (m : Builder α) (env : Env) (w : World) (s : St) (x : Except Exn α)
    (v : View) : Prop :=
  Yields St.view m (env, w.calm) s x v

/-- In the calm world the stage says `l` and then raises. -/
def Stops {α : Type} (m : Builder α) (env : Env) (w : World) (s : St) (l : List Mark) : Prop :=
  ∃ e v, Does m env w s (.error e) v ∧ v.marks = s.view.marks ++ l

def View.say (v : View) (l : List Mark) : View := { v with marks := v.marks ++ l }

section
variable {α β : Type} {m : Builder α} {k : α → Builder β} {env : Env} {w : World} {s : St} {a : α}
  {v : View} {l l' : List Mark}

theorem Stops.bind (hm : Stops m env w s l) : Stops (m >>= k) env w s l := by
  obtain ⟨e, v, hm, hv⟩ := hm
  exact ⟨e, v, hm.bind_error, hv⟩

theorem Does.stops (hm : Does m env w s (.ok a) v) (hv : v.marks = s.view.marks ++ l)
    (hk : ∀ s', s'.view = v → Stops (k a) env w s' l') : Stops (m >>= k) env w s (l ++ l') := by
  obtain ⟨s', hs, he⟩ := hm.goes_on (k := k)
  obtain ⟨e, v', hk, hv'⟩ := hk s' hs
  refine ⟨e, v', ?_, by rw [hv', hs, hv, List.append_assoc]⟩
  rw [Does, Yields, he]
  exact hk

end

variable {env : Env} {w : World} {s : St}

def failMarks (retcode : Int) : List Mark :=
  [{ status := .buildComplete, retcode, warnings := some false },
    { status := .postProcessing, retcode }]

def unsupportedMarks : List Mark :=
  [{ status := .unsupported, retcode := some 0, warnings := some false },
    { status := .postProcessing, retcode := some 0 }]

def startMarks : List Mark :=
  [{ status := .builderStarted }, { status := .nodeInfo }, { status := .gitCmd },
    { status := .preprocessing, retcode := some 0 }]

def clonedMarks : List Mark :=
  [{ status := .postProcessing, retcode := some 0 }, { status := .gitResult }]

/-- The two marks around a subprocess that ends with `retcode`. -/
def reportMarks (retcode : Int) : List Mark :=
  [{ status := .preprocessing, retcode := some 0 }, { status := .postProcessing, retcode }]

theorem checkVersion_does (h : env.manifest.biocVersion = some env.biocVersion) :
    Does checkVersion env w s (.ok ()) s.view := by
  simp [Yields, checkVersion, exec_bind, h]

theorem checkVersion_stops (h : env.manifest.biocVersion ≠ some env.biocVersion) :
    Stops checkVersion env w s [] := by
  rcases hv : env.manifest.biocVersion with _ | v
  · exact ⟨.keyError "bioc_version", s.view, by simp [Yields, checkVersion, exec_bind, hv], by simp⟩
  · rw [hv] at h
    have h : v ≠ env.biocVersion := fun e => h (e ▸ rfl)
    exact ⟨.systemExit "BioC version not supported", s.view, by
      simp [Yields, checkVersion, exec_bind, hv, h], by simp⟩

theorem builderStarted_does : Does (sendMessage { status := .builderStarted }) env w s (.ok ())
    (s.view.say [{ status := .builderStarted }]) := by
  simp [Yields, View.say, Event.mark, Event.stamp]

theorem getNodeInfo_does : Does getNodeInfo env w s (.ok ())
    (s.view.say [{ status := .nodeInfo }]) := by
  simp [Yields, getNodeInfo, exec_bind, View.say, Event.mark, Event.stamp]

theorem gitClone_does (hg : env.refuses (gitCmd env.manifest.svnUrl) = none)
    (h : env.gitClone.status = 0) :
    Does gitClone env w s (.ok ()) { s.view with
      marks := s.view.marks ++ ({ status := .gitCmd } ::
        { status := .preprocessing, retcode := some 0 } :: clonedMarks)
      cwd := env.gitClone.leaves s.view.cwd } := by
  simp [Yields, gitClone, exec_bind, exec_call hg, h, Event.mark, Event.stamp, clonedMarks]

theorem gitClone_stops (hg : env.refuses (gitCmd env.manifest.svnUrl) = none)
    (h : env.gitClone.status ≠ 0) :
    Stops gitClone env w s ({ status := .gitCmd } ::
      { status := .preprocessing, retcode := some 0 } :: failMarks env.gitClone.status) :=
  ⟨.systemExit "git clone failed", _, by
    simp [Yields, gitClone, exec_bind, exec_call hg, h]; rfl, by
    simp [Event.mark, Event.stamp, failMarks]⟩

theorem gitClone_refused (hg : env.refuses (gitCmd env.manifest.svnUrl) ≠ none) :
    Stops gitClone env w s
      [{ status := .gitCmd }, { status := .preprocessing, retcode := some 0 }] := by
  obtain ⟨e, he⟩ := Option.ne_none_iff_exists'.mp hg
  exact ⟨e, _, by simp [Yields, gitClone, exec_bind, exec_call_refused he]; rfl, by
    simp [Event.mark, Event.stamp]⟩

/-- The package name `get_dcf_info` reads, or `none` if it cannot read it or the version. -/
def dcfName (env : Env) : Option Str :=
  match env.description with
  | .error _ => none
  | .ok d => (d.get? "Version").bind fun _ => d.get? "Package"

@[simp] theorem exec_interrupted_calm :
    exec interrupted (env, w.calm) s = (.ok (), s) := by
  simp [exec_interrupted, World.calm]

theorem reportDcfFailure_does (body : Str) :
    Does (reportDcfFailure body) env w s (.ok ()) (s.view.say (failMarks 1)) := by
  simp [Yields, reportDcfFailure, exec_bind, Event.mark, Event.stamp, failMarks, View.say]

theorem readDcfInfo_does {name : Str} (h : dcfName env = some name) :
    Does readDcfInfo env w s (.ok name) (s.view.say [{ status := .dcfInfo }]) := by
  rcases hd : env.description with e | d
  · simp [dcfName, hd] at h
  · rcases hp : d.get? "Package" with _ | package <;> rcases hv : d.get? "Version" with _ | version <;>
      simp [dcfName, hd, hp, hv] at h
    subst h
    simp [Yields, readDcfInfo, parseDcf, sendDcfInfo, lookupKey, exec_bind, hd, hp, hv,
      Event.mark, Event.stamp, View.say]

/-- An unreadable DESCRIPTION is found out before anything is sent. -/
theorem readDcfInfo_fails (h : dcfName env = none) :
    ∃ e, exec readDcfInfo (env, w) s = (.error e, s) := by
  rcases hd : env.description with e | d
  · exact ⟨e, by simp [readDcfInfo, parseDcf, exec_bind, hd]⟩
  · rcases hp : d.get? "Package" with _ | package
    · exact ⟨_, by simp [readDcfInfo, parseDcf, sendDcfInfo, lookupKey, exec_bind, hd, hp]; rfl⟩
    · rcases hv : d.get? "Version" with _ | version
      · exact ⟨_, by simp [readDcfInfo, parseDcf, sendDcfInfo, lookupKey, exec_bind, hd, hp, hv]; rfl⟩
      · simp [dcfName, hd, hp, hv] at h

theorem Does.uncaught {α : Type} {m : Builder α} {h : Exn → Builder α} {a : α} {v : View}
    (hm : Does m env w s (.ok a) v) : Does (tryCatch m h) env w s (.ok a) v := by
  obtain ⟨hx, hv⟩ := hm
  rcases hs : exec m (env, w.calm) s with ⟨x, s'⟩
  rw [hs] at hx hv
  cases hx
  rw [Does, Yields, exec_tryCatch, hs]
  exact ⟨rfl, hv⟩

theorem Does.caught {α : Type} {m : Builder α} {h : Exn → Builder α} {e : Exn}
    {x : Except Exn α} {v v' : View} (hm : Does m env w s (.error e) v)
    (hh : ∀ s', s'.view = v → Does (h e) env w s' x v') : Does (tryCatch m h) env w s x v' := by
  obtain ⟨hx, hv⟩ := hm
  rcases hs : exec m (env, w.calm) s with ⟨y, s'⟩
  rw [hs] at hx hv
  cases hx
  rw [Does, Yields, exec_tryCatch, hs]
  exact hh s' hv

theorem getDcfInfo_does (h : dcfName env = some env.manifest.packageName) :
    Does getDcfInfo env w s (.ok ()) (s.view.say [{ status := .dcfInfo }]) := by
  have hr : Does readDcfInfo env w (s.onUrl env.manifest.svnUrl) (.ok env.manifest.packageName)
      (s.view.say [{ status := .dcfInfo }]) := readDcfInfo_does h
  have hc : ∀ s', s'.view = s.view.say [{ status := .dcfInfo }] →
      Does (checkDescName env.manifest.packageName) env w s' (.ok ())
        (s.view.say [{ status := .dcfInfo }]) := by
    intro s' hs
    simp [Yields, checkDescName, exec_bind, hs]
  exact hr.uncaught.bind hc

theorem getDcfInfo_mismatch {name : Str} (h : dcfName env = some name)
    (hn : env.manifest.packageName ≠ name) :
    Stops getDcfInfo env w s ({ status := .dcfInfo } :: failMarks 1) := by
  have hr : Does readDcfInfo env w (s.onUrl env.manifest.svnUrl) (.ok name)
      (s.view.say [{ status := .dcfInfo }]) := readDcfInfo_does h
  refine ⟨.systemExit "Exiting get_dcf_info check failed",
    s.view.say ({ status := .dcfInfo } :: failMarks 1), hr.uncaught.bind fun s' hs => ?_, rfl⟩
  simp [Yields, checkDescName, reportDcfFailure, exec_bind, hn, hs, View.say, Event.mark,
    Event.stamp, failMarks]

theorem getDcfInfo_unreadable (h : dcfName env = none) :
    Stops getDcfInfo env w s (failMarks 1) := by
  obtain ⟨e, hr⟩ := readDcfInfo_fails (s := s.onUrl env.manifest.svnUrl) (w := w.calm) h
  have hr : Does readDcfInfo env w (s.onUrl env.manifest.svnUrl) (.error e) s.view := by
    rw [Does, Yields, hr]
    exact ⟨rfl, rfl⟩
  refine ⟨.systemExit "Exiting get_dcf_info check failed", s.view.say (failMarks 1),
    (hr.caught fun s' hs => ?_).bind_error, rfl⟩
  have hs : s'.view = s.view := hs
  rw [← hs]
  exact (reportDcfFailure_does _).bind fun _ hr => ⟨rfl, hr⟩

theorem checkPlatform_does (h : exitOut env = false) :
    Does checkPlatform env w s (.ok ()) s.view := by
  simp [Yields, checkPlatform, exec_bind, h]

theorem checkPlatform_stops (h : exitOut env = true) :
    Stops checkPlatform env w s unsupportedMarks :=
  ⟨.systemExit "unsupported platform", _, by simp [Yields, checkPlatform, exec_bind, h]; rfl, by
    simp [Event.mark, Event.stamp, unsupportedMarks]⟩

/-- What `getPackageType` makes of the DESCRIPTION. -/
inductive PackageKind
  | docker
  | unknown
  | known (views : Str) (long : Bool)

/-- The biocViews for which getPackageType.R is run. -/
def viewsAsked (env : Env) (d : Dcf) : Option Str :=
  if env.lower ((d.get? "BiocType").getD "Software") ∈ (["workflow", "book", "docker"] : List Str)
  then none else d.get? "biocViews"

/-- getPackageType.R cannot be started on the biocViews, fails, or prints what is not UTF-8. -/
def TypeFails (env : Env) (d : Dcf) : Prop :=
  (∃ views ∈ d.get? "biocViews", env.refuses (packageTypeCmd env views) ≠ none) ∨
    env.packageType.status ≠ 0 ∨ env.packageType.output.decodes = false

instance (env : Env) (d : Dcf) : Decidable (TypeFails env d) :=
  inferInstanceAs (Decidable (_ ∨ _))

def packageKindOf (env : Env) (d : Dcf) : PackageKind :=
  let biocType := env.lower ((d.get? "BiocType").getD "Software")
  if biocType = "workflow" then .known "Workflow" true
  else if biocType = "book" then .known "Book" true
  else if biocType = "docker" then .docker
  else if d.get? "biocViews" = none then .known "Software" false
  else if TypeFails env d then .unknown
  else .known env.packageType.output.text (env.packageType.output.text == "ExperimentData")

def packageKind (env : Env) : PackageKind :=
  match env.description with
  | .error _ => .unknown
  | .ok d => packageKindOf env d

def dirTyped (env : Env) (d : List Str) : List Str :=
  match env.description with
  | .error _ => d
  | .ok dcf => if (viewsAsked env dcf).isSome then env.packageType.leaves d else d

theorem getPackageType_does {views : Str} {long : Bool} (h : packageKind env = .known views long) :
    Does getPackageType env w s (.ok ()) { s.view with
      marks := s.view.marks ++ [{ status := .postProcessing, retcode := some 0 }]
      cwd := dirTyped env s.view.cwd
      views := views
      longBuild := s.view.longBuild || long } := by
  rcases hd : env.description with e | d
  · simp [packageKind, hd] at h
  · simp only [packageKind, hd, packageKindOf] at h
    generalize hb : env.lower ((d.get? "BiocType").getD "Software") = biocType at h
    split_ifs at h with h1 h2 h3 h4 h5
    · cases h
      simp [Yields, getPackageType, parseDcf, setPackageType, exec_bind, hd, hb, h1, dirTyped,
        viewsAsked, Event.mark, Event.stamp]
    · cases h
      rw [h2] at h1 hb
      simp [Yields, getPackageType, parseDcf, setPackageType, exec_bind, hd, hb, h1, dirTyped,
        viewsAsked, Event.mark, Event.stamp]
    · cases h
      simp [Yields, getPackageType, guessPackageType, parseDcf, setPackageType, exec_bind, hd, hb,
        h1, h2, h3, h4, dirTyped, viewsAsked, Event.mark, Event.stamp]
    · obtain ⟨text, ht⟩ := Option.ne_none_iff_exists'.mp h4
      obtain ⟨hc, hs, hu⟩ : env.refuses (packageTypeCmd env text) = none ∧
          env.packageType.status = 0 ∧ env.packageType.output.decodes = true := by
        simpa [TypeFails, ht] using h5
      cases h
      simp [Yields, getPackageType, guessPackageType, checkOutput, parseDcf, setPackageType,
        exec_bind, exec_call hc, hd, hb, h1, h2, h3, ht, hs, hu, dirTyped, viewsAsked, Event.mark,
        Event.stamp]

theorem getPackageType_docker (h : packageKind env = .docker) :
    Stops getPackageType env w s unsupportedMarks := by
  rcases hd : env.description with e | d
  · simp [packageKind, hd] at h
  · simp only [packageKind, hd, packageKindOf] at h
    generalize hb : env.lower ((d.get? "BiocType").getD "Software") = biocType at h
    split_ifs at h with h1 h2 h3
    rw [h3] at h1 h2 hb
    exact ⟨.systemExit "docker container", _, by
      simp [Yields, getPackageType, parseDcf, setPackageType, exec_bind, hd, hb, h1, h2]; rfl, by
      simp [Event.mark, Event.stamp, unsupportedMarks]⟩

theorem getPackageType_unknown (h : packageKind env = .unknown) :
    Stops getPackageType env w s [] := by
  rcases hd : env.description with e | d
  · exact ⟨e, s.view, by simp [Yields, getPackageType, parseDcf, exec_bind, hd], by simp⟩
  · simp only [packageKind, hd, packageKindOf] at h
    generalize hb : env.lower ((d.get? "BiocType").getD "Software") = biocType at h
    split_ifs at h with h1 h2 h3 h4 h5
    obtain ⟨text, ht⟩ := Option.ne_none_iff_exists'.mp h4
    rcases hc : env.refuses (packageTypeCmd env text) with _ | e
    · by_cases hs : env.packageType.status = 0
      · have hu : env.packageType.output.decodes = false := by simpa [TypeFails, ht, hc, hs] using h5
        exact ⟨.unicodeDecodeError, _, by
          simp [Yields, getPackageType, guessPackageType, checkOutput, parseDcf, setPackageType,
            exec_bind, exec_call hc, hd, hb, h1, h2, h3, ht, hs, hu]; rfl, by simp⟩
      · exact ⟨.calledProcessError env.packageType.status, _, by
          simp [Yields, getPackageType, guessPackageType, checkOutput, parseDcf, setPackageType,
            exec_bind, exec_call hc, hd, hb, h1, h2, h3, ht, hs]; rfl, by simp⟩
    · exact ⟨e, _, by
        simp [Yields, getPackageType, guessPackageType, checkOutput, parseDcf, setPackageType,
          exec_bind, exec_call_refused hc, hd, hb, h1, h2, h3, ht]; rfl, by simp⟩

theorem description_of_known {views : Str} {long : Bool} (h : packageKind env = .known views long) :
    ∃ d, env.description = .ok d := by
  rcases hd : env.description with e | d
  · simp [packageKind, hd] at h
  · exact ⟨d, rfl⟩

/-- The first of the two marks, of a subprocess that cannot be started. -/
def startedMarks : List Mark := [{ status := .preprocessing, retcode := some 0 }]

theorem installPkgDeps_does {d : Dcf} (h : env.description = .ok d)
    (hc : env.refuses (installDepsCmd env d) = none) :
    Does installPkgDeps env w s (.ok env.installDeps.status) { s.view with
      marks := s.view.marks ++ reportMarks env.installDeps.status
      cwd := env.installDeps.leaves s.view.cwd } := by
  simp [Yields, installPkgDeps, reported, parseDcf, exec_bind, exec_call hc, h, Event.mark,
    Event.stamp, reportMarks]

theorem installPkgDeps_stops {d : Dcf} (h : env.description = .ok d)
    (hc : env.refuses (installDepsCmd env d) ≠ none) :
    Stops installPkgDeps env w s startedMarks := by
  obtain ⟨e, he⟩ := Option.ne_none_iff_exists'.mp hc
  exact ⟨e, _, by
    simp [Yields, installPkgDeps, reported, parseDcf, exec_bind, exec_call_refused he, h]; rfl, by
    simp [Event.mark, Event.stamp, startedMarks]⟩

/-- A command whose output goes to a fresh file of the working directory can be started there. -/
def Startable (env : Env) (outfile cmd : Str) (d : List Str) : Prop :=
  Replaceable env outfile d ∧ env.refuses cmd = none

instance (env : Env) (outfile cmd : Str) (d : List Str) :
    Decidable (Startable env outfile cmd d) :=
  inferInstanceAs (Decidable (_ ∧ _))

theorem checkgitclone_does (h : Startable env "CheckGitClone.out" (checkgitcloneCmd env) s.cwd) :
    Does checkgitclone env w s (.ok env.checkgitclone.status) { s.view with
      marks := s.view.marks ++ reportMarks env.checkgitclone.status
      cwd := env.checkgitclone.leaves (fresh env "CheckGitClone.out" s.view.cwd) } := by
  simp [Yields, checkgitclone, reported, exec_bind, exec_openFresh, exec_call, h.1, h.2, Event.mark,
    Event.stamp, reportMarks, fresh]

theorem checkgitclone_stops
    (h : ¬ Startable env "CheckGitClone.out" (checkgitcloneCmd env) s.cwd) :
    Stops checkgitclone env w s startedMarks := by
  by_cases hr : Replaceable env "CheckGitClone.out" s.cwd
  · obtain ⟨e, he⟩ := Option.ne_none_iff_exists'.mp fun hc => h ⟨hr, hc⟩
    exact ⟨e, _, by
      simp [Yields, checkgitclone, reported, exec_bind, exec_openFresh, hr, exec_call_refused he]
      rfl, by simp [Event.mark, Event.stamp, startedMarks]⟩
  · exact ⟨.isADirectoryError "CheckGitClone.out", _, by
      simp [Yields, checkgitclone, reported, exec_bind, exec_openFresh_stuck, hr]
      rfl, by simp [Event.mark, Event.stamp, startedMarks]⟩

theorem installPkg_does (hc : env.refuses (installPkgCmd env) = none) :
    Does installPkg env w s (.ok env.installPkg.status) { s.view with
      marks := s.view.marks ++ reportMarks env.installPkg.status
      cwd := env.installPkg.leaves s.view.cwd } := by
  simp [Yields, installPkg, reported, exec_bind, exec_call hc, Event.mark, Event.stamp, reportMarks]

theorem installPkg_stops (hc : env.refuses (installPkgCmd env) ≠ none) :
    Stops installPkg env w s startedMarks := by
  obtain ⟨e, he⟩ := Option.ne_none_iff_exists'.mp hc
  exact ⟨e, _, by simp [Yields, installPkg, reported, exec_bind, exec_call_refused he]; rfl, by
    simp [Event.mark, Event.stamp, startedMarks]⟩

end PackageBuilder
