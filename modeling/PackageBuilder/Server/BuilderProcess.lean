import PackageBuilder.Server.Node

/-! What a launched builder reads and writes in the jobs tree, one stage of builder.py at a
time. -/
namespace PackageBuilder
open Text FileTree

inductive Stage
  | setup | gitClone | getDcfInfo | installDeps | installPkg | doBuild | reportBuild | doCheck
  | reportCheck
  | cleanUpDir
  deriving DecidableEq, Repr

def stages : List Stage :=
  [.setup, .gitClone, .getDcfInfo, .installDeps, .installPkg, .doBuild, .reportBuild, .doCheck,
    .reportCheck, .cleanUpDir]

/-- A builder: the message it loaded as its manifest, what it cloned, installed and built, the
tarball it found and the output it reported, the copy of the package its check found in R-libs,
and the report of that check. -/
structure BuilderProcess (ν : Type) where
  todo : List Stage := stages
  body : Option Request := none
  clone : Option ν := none
  installed : Option ν := none
  built : Bool := false
  tarball : Option (Str × Option ν) := none
  output : Option ν := none
  library : Option ν := none
  report : Option ν := none
  deriving DecidableEq, Repr

def BuilderProcess.manifest? {ν : Type} (b : BuilderProcess ν) : Option Manifest :=
  b.body.bind Request.manifest?

section
variable {ν : Type} (t : Tree Str (Content ν))

def message? (p : List Str) : Option Request :=
  match content t p with
  | some (.message r) => some r
  | _ => none

def report? (p : List Str) : Option ν :=
  match content t p with
  | some (.report x) => some x
  | _ => none

/-- `get_source_tarball_name` in the directory of `r`, in the order of the entries. -/
def sourceTarball (r : Request) (m : Manifest) : Option Str :=
  (names t r.workingDir).find? (isTarball (tarballPkgname m))

/-- Packages that are installed into the R-libs of `r`. -/
def addPackages (r : Request) (ps : List (Str × ν)) : Tree Str (Content ν) :=
  ps.foldl (fun t p => write t (r.libPath p.1) (.data p.2)) t

/-- A tarball that was built is put into the working directory. -/
def addTarball (r : Request) : Option (Str × ν) → Tree Str (Content ν)
  | some (name, x) => write t (r.path name) (.data x)
  | none => t

/-- The tarball that was found, or the name it should have, goes first. -/
def cleanUp (r : Request) (m : Manifest) : Tree Str (Content ν) :=
  let pathTar := (sourceTarball t r m).getD (m.packageName ++ ".tar.gz")
  rmTree (rmTree t (r.path pathTar)) (r.path m.packageName)

end

/-- The package under test is not among those that R finds for it. -/
def others {ν : Type} (m : Manifest) (lib : Packages ν) : Packages ν :=
  fun name => if name = m.packageName then none else lib name

section
variable {ν : Type} (tools : Tools ν) (r : Request) (lib : Packages ν)

/-- A stage after `setup`, with the manifest that was loaded; `none` ends the program. -/
def runStage (m : Manifest) (b : BuilderProcess ν) (t : Tree Str (Content ν)) :
    Stage → Option (BuilderProcess ν × Tree Str (Content ν))
  | .setup => none
  | .gitClone =>
    let cloneDir := r.path (tools.cloneDir m.svnUrl)
    -- git refuses a directory that is there
    if present t cloneDir then none
    else (tools.fetch m.svnUrl).map fun x => ({ b with clone := some x }, write t cloneDir (.data x))
  | .getDcfInfo => (data? t (r.path m.packageName)).map fun _ => (b, t)
  | .installDeps =>
    (data? t (r.path m.packageName)).map fun x => (b, addPackages t r (tools.deps x lib))
  | .installPkg =>
    match (data? t (r.path m.packageName)).bind (tools.install · (others m lib)) with
    | some x => some ({ b with installed := some x }, write t (r.libPath m.packageName) (.data x))
    | none => some (b, t) -- the status is only logged
  | .doBuild =>
    let sources := data? t (r.path m.packageName)
    let product := sources.bind (tools.build · (others m lib))
    let t := write t (r.path "R.out") (.data (tools.output sources (others m lib)))
    some ({ b with built := product.isSome }, addTarball t r product)
  | .reportBuild =>
    let tarball := (sourceTarball t r m).map fun name => (name, data? t (r.path name))
    some ({ b with tarball := tarball, output := data? t (r.path "R.out") }, t)
  | .doCheck =>
    -- after a failed build, `main` is over
    if b.built then
      (sourceTarball t r m).map fun name =>
        let library := data? t (r.libPath m.packageName)
        let report := tools.report (data? t (r.path name)) library (others m lib)
        ({ b with library := library }, write t (r.path "Rcheck.out") (.report report))
    else none
  | .reportCheck => some ({ b with report := report? t (r.path "Rcheck.out") }, t)
  | .cleanUpDir => some (b, cleanUp t r m)

def stage (b : BuilderProcess ν) (t : Tree Str (Content ν)) :
    Stage → Option (BuilderProcess ν × Tree Str (Content ν))
  | .setup =>
    (message? t (r.path "manifest.json")).bind fun q =>
      q.manifest?.map fun _ => ({ b with body := some q }, t)
  | x => b.manifest?.bind fun m => runStage tools r lib m b t x

/-- An exception or the end of `main` leaves the exit handler, once `setup` is over. -/
def BuilderProcess.exit (b : BuilderProcess ν) : BuilderProcess ν :=
  { b with todo := if b.body.isSome ∧ 1 < b.todo.length then [.cleanUpDir] else [] }

def builderStep : BuilderProcess ν × Tree Str (Content ν) →
    BuilderProcess ν × Tree Str (Content ν)
  | (b, t) =>
    match b.todo with
    | [] => (b, t)
    | x :: rest =>
      match stage tools r lib b t x with
      | some (b', t') => ({ b' with todo := rest }, t')
      | none => (b.exit, t)

end

section
variable {ν : Type} {tools : Tools ν} {r : Request} {lib : Packages ν} {m : Manifest}
  {b b' : BuilderProcess ν} {t t' : Tree Str (Content ν)} {x : Stage}

/-- The paths a builder may change: those in its directory, and what it installs into R-libs. -/
def BuilderPath (tools : Tools ν) (r : Request) (b : BuilderProcess ν) (p : List Str) : Prop :=
  (∃ name, p = r.path name) ∨
    ∃ m name, b.manifest? = some m ∧ tools.Leaves m.packageName name ∧ p = r.libPath name

theorem addPackages_touches (ps : List (Str × ν)) {P : List Str → Prop}
    (h : Touched P (JobEntry r) t t') (hP : ∀ p ∈ ps, P (r.libPath p.1)) :
    Touched P (JobEntry r) t (addPackages t' r ps) := by
  induction ps generalizing t' with
  | nil => exact h
  | cons p ps ih =>
    apply ih
    · exact h.put (hP p List.mem_cons_self) (by simp [JobEntry])
    · exact fun q hq => hP q (List.mem_cons_of_mem p hq)

theorem addTarball_touches (product : Option (Str × ν)) {P : List Str → Prop}
    (h : Touched P (JobEntry r) t t') (hP : ∀ name, P (r.path name)) :
    Touched P (JobEntry r) t (addTarball t' r product) := by
  rcases product with _ | ⟨name, y⟩
  · exact h
  · exact h.put (hP name) (by simp [JobEntry])

theorem runStage_touches (hm : b.manifest? = some m)
    (h : runStage tools r lib m b t x = some (b', t')) :
    Touched (BuilderPath tools r b) (JobEntry r) t t' := by
  have hp : ∀ name, BuilderPath tools r b (r.path name) := fun name => .inl ⟨name, rfl⟩
  have hl : ∀ name, tools.Leaves m.packageName name → BuilderPath tools r b (r.libPath name) :=
    fun name hn => .inr ⟨m, name, hm, hn, rfl⟩
  cases x with
  | setup => cases h
  | gitClone =>
    simp only [runStage] at h
    split at h
    · cases h
    · obtain ⟨y, -, hy⟩ := Option.map_eq_some_iff.mp h
      cases hy
      exact (Touched.refl t).put (hp _) (by simp [JobEntry])
  | getDcfInfo =>
    obtain ⟨y, -, hy⟩ := Option.map_eq_some_iff.mp h
    cases hy
    exact .refl t
  | installDeps =>
    obtain ⟨y, -, hy⟩ := Option.map_eq_some_iff.mp h
    cases hy
    exact addPackages_touches _ (.refl t) fun p hp => hl p.1 (.inr ⟨y, lib, p, hp, rfl⟩)
  | installPkg =>
    simp only [runStage] at h
    split at h <;> cases h
    · exact (Touched.refl t).put (hl _ (.inl rfl)) (by simp [JobEntry])
    · exact .refl t
  | doBuild =>
    cases h
    exact addTarball_touches _ ((Touched.refl t).put (hp _) (by simp [JobEntry])) hp
  | reportBuild =>
    cases h
    exact .refl t
  | doCheck =>
    simp only [runStage] at h
    split at h
    · obtain ⟨y, -, hy⟩ := Option.map_eq_some_iff.mp h
      cases hy
      exact (Touched.refl t).put (hp _) (by simp [JobEntry])
    · cases h
  | reportCheck =>
    cases h
    exact .refl t
  | cleanUpDir =>
    cases h
    exact ((Touched.refl t).rmTree (hp _)).rmTree (hp _)

theorem stage_touches (h : stage tools r lib b t x = some (b', t')) :
    Touched (BuilderPath tools r b) (JobEntry r) t t' := by
  cases x with
  | setup =>
    obtain ⟨q, -, hq⟩ := Option.bind_eq_some_iff.mp h
    obtain ⟨m, -, hm⟩ := Option.map_eq_some_iff.mp hq
    cases hm
    exact .refl t
  | _ =>
    obtain ⟨m, hm, hs⟩ := Option.bind_eq_some_iff.mp h
    exact runStage_touches hm hs

theorem runStage_body (h : runStage tools r lib m b t x = some (b', t')) : b'.body = b.body := by
  cases x with
  | setup => cases h
  | gitClone =>
    simp only [runStage] at h
    split at h
    · cases h
    · obtain ⟨y, -, hy⟩ := Option.map_eq_some_iff.mp h
      cases hy
      rfl
  | getDcfInfo | installDeps =>
    obtain ⟨y, -, hy⟩ := Option.map_eq_some_iff.mp h
    cases hy
    rfl
  | installPkg =>
    simp only [runStage] at h
    split at h <;> cases h <;> rfl
  | doCheck =>
    simp only [runStage] at h
    split at h
    · obtain ⟨y, -, hy⟩ := Option.map_eq_some_iff.mp h
      cases hy
      rfl
    · cases h
  | doBuild | reportBuild | reportCheck | cleanUpDir =>
    cases h
    rfl

/-- Only `setup` loads a manifest, the one in the builder's directory. -/
theorem stage_body (h : stage tools r lib b t x = some (b', t')) :
    b'.body = b.body ∨ ∃ q, message? t (r.path "manifest.json") = some q ∧ b'.body = some q := by
  cases x with
  | setup =>
    obtain ⟨q, hq, hm⟩ := Option.bind_eq_some_iff.mp h
    obtain ⟨m, -, hm⟩ := Option.map_eq_some_iff.mp hm
    cases hm
    exact .inr ⟨q, hq, rfl⟩
  | _ =>
    obtain ⟨m, -, hs⟩ := Option.bind_eq_some_iff.mp h
    exact .inl (runStage_body hs)

/-- All a builder can do in one turn. -/
inductive BuilderTurn (tools : Tools ν) (r : Request) (lib : Packages ν) (b : BuilderProcess ν)
    (t : Tree Str (Content ν)) : BuilderProcess ν × Tree Str (Content ν) → Prop
  | idle : b.todo = [] → BuilderTurn tools r lib b t (b, t)
  | exits {x rest} : b.todo = x :: rest → stage tools r lib b t x = none →
    BuilderTurn tools r lib b t (b.exit, t)
  | goes {x rest b' t'} : b.todo = x :: rest → stage tools r lib b t x = some (b', t') →
    BuilderTurn tools r lib b t ({ b' with todo := rest }, t')

theorem builderStep_turn (b : BuilderProcess ν) (t : Tree Str (Content ν)) :
    BuilderTurn tools r lib b t (builderStep tools r lib (b, t)) := by
  rcases hb : b.todo with _ | ⟨x, rest⟩
  · have hi : BuilderTurn tools r lib b t (b, t) := .idle hb
    simpa [builderStep, hb] using hi
  · rcases hs : stage tools r lib b t x with _ | ⟨b', t'⟩
    · simpa [builderStep, hb, hs] using BuilderTurn.exits hb hs
    · simpa [builderStep, hb, hs] using BuilderTurn.goes hb hs

theorem builderStep_body (tools : Tools ν) (r : Request) (lib : Packages ν) (b : BuilderProcess ν)
    (t : Tree Str (Content ν)) :
    (builderStep tools r lib (b, t)).1.body = b.body ∨ ∃ q,
      message? t (r.path "manifest.json") = some q ∧
      (builderStep tools r lib (b, t)).1.body = some q := by
  have h : BuilderTurn tools r lib b t (builderStep tools r lib (b, t)) := builderStep_turn b t
  generalize builderStep tools r lib (b, t) = a at h ⊢
  cases h with
  | idle | exits => exact .inl rfl
  | goes _ hs =>
    rcases stage_body hs with he | ⟨q, hq, he⟩
    · exact .inl he
    · exact .inr ⟨q, hq, he⟩

theorem builderStep_touches (b : BuilderProcess ν) (t : Tree Str (Content ν)) :
    Touched (BuilderPath tools r b) (JobEntry r) t (builderStep tools r lib (b, t)).2 := by
  have h : BuilderTurn tools r lib b t (builderStep tools r lib (b, t)) := builderStep_turn b t
  generalize builderStep tools r lib (b, t) = a at h ⊢
  cases h with
  | idle => exact .refl t
  | exits => exact .refl t
  | goes _ hs => exact stage_touches hs

end
end PackageBuilder
