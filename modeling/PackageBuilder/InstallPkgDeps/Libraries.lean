import PackageBuilder.Library.Effect
import PackageBuilder.InstallPkgDeps.Arguments

/-! What installPkgDeps.R installs, and where it stops. -/
namespace PackageBuilder
open Text Effect

/-- A library of R: the names in its directory, and the packages that are installed there, each in
a directory of its name. -/
structure PkgLibrary where
  entries : List Str
  installed : List Str
  installed_sub : installed ⊆ entries

/-- The second library has all of the first one. -/
structure Extends (l l' : PkgLibrary) : Prop where
  entries : l.entries ⊆ l'.entries
  installed : l.installed ⊆ l'.installed

/-- The calls that install packages. -/
inductive Install
  | cran (pkg : Str)
  | version
  | bioc (pkgs : List Str) (source : Bool)
  | git (url : Str)
  | update
  deriving DecidableEq, Repr

/-- What a run of the script is given: the R libraries (`.libPaths()[-1]`), the platform, the
option `pkgType`, whether BiocManager has the wanted version, and what the n-th call that installs
adds to the package library. -/
structure RSession where
  rLibs : List PkgLibrary
  windows : Bool
  pkgType : Str
  current : Bool
  add : Nat → Install → PkgLibrary → PkgLibrary
  grows : ∀ n c l, Extends l (add n c l)

/-- The package library (`.libPaths()[1]`) and the calls so far. -/
structure RState where
  pkgLib : PkgLibrary
  calls : List Install := []

/-- An exception is the message of a `stop`. -/
abbrev Script := Prog RSession Str RState

inductive LibLoc
  | pkg | r | all
  deriving DecidableEq, Repr

section
variable (e : RSession) (s : RState)

def libsAt : LibLoc → List PkgLibrary
  | .pkg => [s.pkgLib]
  | .r => e.rLibs
  | .all => s.pkgLib :: e.rLibs

def entriesAt (loc : LibLoc) : List Str := (libsAt e s loc).flatMap PkgLibrary.entries

def installedAt (loc : LibLoc) : List Str := (libsAt e s loc).flatMap PkgLibrary.installed

@[simps] def RState.add (c : Install) : RState where
  pkgLib := e.add s.calls.length c s.pkgLib
  calls := s.calls ++ [c]

end

/-- `dir(lib.loc)` -/
def dirNames (loc : LibLoc) : Script (List Str) := do
  return entriesAt (← read) (← get) loc

/-- `rownames(installed.packages(lib.loc))` -/
def installedPackages (loc : LibLoc) : Script (List Str) := do
  return installedAt (← read) (← get) loc

def install (c : Install) : Script Unit := do
  let e ← read
  modify (·.add e c)

def missingMessage (pkgs installed : List Str) (label : Str) : Str :=
  "'" ++ label ++ "' missing packages: " ++
    (", " : Str).intercalate (pkgs.filter (· ∉ installed)).eraseDups

def validateInstallation (pkgs : List Str) (loc : LibLoc) (label : Str) : Script Unit := do
  let installed ← installedPackages loc
  if ∀ p ∈ pkgs, p ∈ installed then pure () else throw (missingMessage pkgs installed label)

def spbPkgs : List Str :=
  ["graph", "biocViews", "knitr", "knitrBootstrap",
    "devtools", "codetools", "httr", "curl", "optparse",
    "GenomicFeatures", "ShortRead", "VariantAnnotation",
    "dplyr", "biocViews", "BiocCheck"]

def setupManagers : Script Unit := do
  install (.cran "yaml")
  install (.cran "BiocManager")
  let e ← read
  if e.current then pure () else install .version

def installNeeded (neededPkgs : List Str) : Script Unit := do
  let pkgsAlready2 ← dirNames .pkg
  let neededPkgs2 := neededPkgs.filter (· ∉ pkgsAlready2)
  if neededPkgs2 = [] then pure () else install (.bioc neededPkgs2 false)

/-- If some were found in the R libraries. -/
def validateFound (foundPkgs : List Str) : Script Unit :=
  if foundPkgs = [] then pure () else validateInstallation foundPkgs .r "SPB_pkgs2"

def checkNeeded (pkgsAlready : List Str) : Script Unit :=
  let neededPkgs := spbPkgs.filter (· ∉ pkgsAlready)
  if neededPkgs = [] then
    validateInstallation spbPkgs .r "SPB_pkgs"
  else do
    installNeeded neededPkgs
    validateInstallation neededPkgs .pkg "SPB_pkgs"
    validateFound (spbPkgs.filter (· ∈ pkgsAlready))

/-- Up to the first validation. -/
def checkSpbPkgs : Script (List Str) := do
  setupManagers
  let pkgsAlready ← dirNames .r
  checkNeeded pkgsAlready
  return pkgsAlready

def installRemotes (pkgsAlready : List Str) : Script Unit := do
  let pkgsAlready2 ← dirNames .pkg
  if ofString "remotes" ∈ pkgsAlready ∨ ofString "remotes" ∈ pkgsAlready2 then pure ()
  else install (.bioc ["remotes"] false)

/-- Where there are binaries, they are tried first. -/
def installBinaries (pkgDeps : List Str) : Script Unit := do
  let e ← read
  if e.pkgType = "source" then pure () else install (.bioc pkgDeps false)

/-- Sources for what is still missing. -/
def installSources (pkgDeps : List Str) : Script Unit := do
  let ip ← installedPackages .all
  let deps := pkgDeps.filter (· ∉ ip)
  if deps = [] then pure () else install (.bioc deps true)

def installBiocCheck (pkgsAlready : List Str) : Script Unit := do
  installRemotes pkgsAlready
  install (.git "https://git.bioconductor.org/packages/BiocCheck")

def installDeps (deps : List Str) : Script Unit := do
  let ip ← installedPackages .all
  let e ← read
  let blacklist := ofString "R" :: ip ++ if e.windows then [ofString "multicore"] else []
  let pkgDeps := (deps.map stripVersion).filter (· ∉ blacklist)
  installBinaries pkgDeps
  installSources pkgDeps
  validateInstallation pkgDeps .pkg "pkg_deps"

/-- From the first validation to the second one. -/
def checkDeps (pkgsAlready deps : List Str) : Script Unit := do
  installBiocCheck pkgsAlready
  installDeps deps

/-- The script, for the dependencies it decoded; an error of `update.packages` is caught. -/
def installScript (deps : List Str) : Script Unit := do
  let pkgsAlready ← checkSpbPkgs
  checkDeps pkgsAlready deps
  install .update

section
variable (e : RSession)

def rEntries : List Str := e.rLibs.flatMap PkgLibrary.entries

def rInstalled : List Str := e.rLibs.flatMap PkgLibrary.installed

variable (s : RState) (deps : List Str)

/-- The state at the first validation. -/
def atSpbCheck : RState := (exec checkSpbPkgs e s).2

/-- The state at the second one, which a run reaches if the first one lets it. -/
def atDepsCheck : RState := (exec (checkDeps (rEntries e) deps) e (atSpbCheck e s)).2

/-- The script runs to its end. -/
def RunsToEnd : Prop := Ends (installScript deps) e s

/-- What is looked for by `dir` in the R libraries is validated there, the rest in the package
library. -/
def SpbValid (l : PkgLibrary) : Prop :=
  ∀ p ∈ spbPkgs, if p ∈ rEntries e then p ∈ rInstalled e else p ∈ l.installed

def SpbInstalled (l : PkgLibrary) : Prop := ∀ p ∈ spbPkgs, p ∈ l.installed ∨ p ∈ rInstalled e

def DepsInstalled (l : PkgLibrary) : Prop :=
  ∀ p ∈ deps.map stripVersion, p ≠ "R" → ¬ (e.windows = true ∧ p = "multicore") →
    p ∈ l.installed ∨ p ∈ rInstalled e

/-- Every package of `SPB_pkgs` that is found in an R library is installed in one. -/
def NoStray : Prop := ∀ p ∈ spbPkgs, p ∈ rEntries e → p ∈ rInstalled e

/-- At its validation, every package that is needed is installed in some library. -/
def AllInstalled : Prop :=
  SpbInstalled e (atSpbCheck e s).pkgLib ∧ DepsInstalled e deps (atDepsCheck e s deps).pkgLib

end

theorem Extends.refl (l : PkgLibrary) : Extends l l := ⟨fun _ h => h, fun _ h => h⟩

theorem Extends.trans {l l' l'' : PkgLibrary} (h : Extends l l') (h' : Extends l' l'') : Extends l l'' :=
  ⟨fun _ hp => h'.entries (h.entries hp), fun _ hp => h'.installed (h.installed hp)⟩

/-- The program always goes on, with a package library that may have grown. -/
def Adds {α : Type} (m : Script α) : Prop :=
  ∀ e s, ∃ a s', exec m e s = (.ok a, s') ∧ Extends s.pkgLib s'.pkgLib

section
variable {α β : Type} {e : RSession} {s : RState} {loc : LibLoc} {pkgs deps : List Str}
  {label : Str}

@[simp] theorem exec_dirNames : exec (dirNames loc) e s = (.ok (entriesAt e s loc), s) := rfl

@[simp] theorem exec_installedPackages :
    exec (installedPackages loc) e s = (.ok (installedAt e s loc), s) := rfl

@[simp] theorem exec_install {c : Install} : exec (install c) e s = (.ok (), s.add e c) := rfl

theorem exec_validateInstallation : exec (validateInstallation pkgs loc label) e s =
    (if ∀ p ∈ pkgs, p ∈ installedAt e s loc then .ok ()
      else .error (missingMessage pkgs (installedAt e s loc) label), s) := by
  rw [validateInstallation, exec_bind, exec_installedPackages]
  simp only [exec_ite, exec_pure, exec_throw]
  split <;> rfl

theorem Adds.pure (a : α) : Adds (pure a : Script α) := fun _ s => ⟨a, s, rfl, .refl _⟩

theorem Adds.read : Adds (read : Script RSession) := fun e s => ⟨e, s, rfl, .refl _⟩

theorem Adds.dirNames : Adds (dirNames loc) := fun _ s => ⟨_, s, rfl, .refl _⟩

theorem Adds.installedPackages : Adds (installedPackages loc) := fun _ s => ⟨_, s, rfl, .refl _⟩

theorem Adds.install (c : Install) : Adds (install c) :=
  fun e s => ⟨(), s.add e c, rfl, e.grows _ c s.pkgLib⟩

theorem Adds.bind {m : Script α} {k : α → Script β} (hm : Adds m) (hk : ∀ a, Adds (k a)) :
    Adds (m >>= k) := by
  intro e s
  obtain ⟨a, s₁, h₁, hg⟩ := hm e s
  obtain ⟨b, s₂, h₂, hg'⟩ := hk a e s₁
  refine ⟨b, s₂, ?_, hg.trans hg'⟩
  rw [exec_bind, h₁]
  exact h₂

theorem Adds.ite {c : Prop} [Decidable c] {m n : Script α} (hm : Adds m) (hn : Adds n) :
    Adds (if c then m else n) := by
  split
  · exact hm
  · exact hn

theorem adds_setupManagers : Adds setupManagers :=
  (Adds.install _).bind fun _ => (Adds.install _).bind fun _ =>
    Adds.read.bind fun _ => .ite (.pure ()) (.install _)

theorem adds_installNeeded : Adds (installNeeded pkgs) :=
  Adds.dirNames.bind fun _ => .ite (.pure ()) (.install _)

theorem adds_installRemotes : Adds (installRemotes pkgs) :=
  Adds.dirNames.bind fun _ => .ite (.pure ()) (.install _)

theorem adds_installBinaries : Adds (installBinaries pkgs) :=
  Adds.read.bind fun _ => .ite (.pure ()) (.install _)

theorem adds_installSources : Adds (installSources pkgs) :=
  Adds.installedPackages.bind fun _ => .ite (.pure ()) (.install _)

/-- Programs that only add do not decide whether a run comes to its end. -/
theorem Adds.ends_bind {m : Script Unit} {k : Unit → Script β} (hm : Adds m) :
    (Ends (m >>= k) e s ↔ Ends (k ()) e (exec m e s).2) ∧
      (exec (m >>= k) e s).2 = (exec (k ()) e (exec m e s).2).2 := by
  obtain ⟨a, s', h, -⟩ := hm e s
  simp [Ends, exec_bind, h]

theorem ends_validateInstallation : Ends (validateInstallation pkgs loc label) e s ↔
    ∀ p ∈ pkgs, p ∈ installedAt e s loc := by
  rw [Ends, exec_validateInstallation]
  split_ifs with h
  · exact iff_of_true ⟨(), rfl⟩ h
  · exact iff_of_false (fun ⟨_, ha⟩ => nomatch ha) h

theorem ends_validate_bind {k : Unit → Script β} :
    Ends (validateInstallation pkgs loc label >>= k) e s ↔
      (∀ p ∈ pkgs, p ∈ installedAt e s loc) ∧ Ends (k ()) e s := by
  rw [Ends, exec_bind, exec_validateInstallation]
  split_ifs with h
  · exact (and_iff_right h).symm
  · exact iff_of_false (fun ⟨_, ha⟩ => nomatch ha) fun hk => h hk.1

/-- A validation installs nothing. -/
theorem state_validate_bind {k : Unit → Script β} (hk : (exec (k ()) e s).2 = s) :
    (exec (validateInstallation pkgs loc label >>= k) e s).2 = s := by
  rw [exec_bind, exec_validateInstallation]
  split_ifs
  · exact hk
  · rfl

theorem ends_validateFound : Ends (validateFound pkgs) e s ↔ ∀ p ∈ pkgs, p ∈ rInstalled e := by
  rw [validateFound]
  split_ifs with h
  · simp [h, Ends]
  · exact ends_validateInstallation

theorem state_validateFound : (exec (validateFound pkgs) e s).2 = s := by
  rw [validateFound]
  split_ifs
  · rfl
  · rw [exec_validateInstallation]

theorem checkNeeded_ends : Ends (checkNeeded (rEntries e)) e s ↔
    SpbValid e (exec (checkNeeded (rEntries e)) e s).2.pkgLib := by
  rw [checkNeeded]
  split_ifs with hn
  · have hall : ∀ p ∈ spbPkgs, p ∈ rEntries e := by
      intro p hp
      simpa using List.filter_eq_nil_iff.mp hn p hp
    rw [ends_validateInstallation, SpbValid]
    refine forall₂_congr fun p hp => ?_
    rw [if_pos (hall p hp)]
    rfl
  · generalize hk : (fun _ => do
      validateInstallation (spbPkgs.filter (· ∉ rEntries e)) .pkg "SPB_pkgs"
      validateFound (spbPkgs.filter (· ∈ rEntries e)) : Unit → Script Unit) = k
    obtain ⟨hends, hstate⟩ : (Ends (installNeeded (spbPkgs.filter (· ∉ rEntries e)) >>= k) e s ↔ _) ∧
      _ := adds_installNeeded.ends_bind
    rw [hends, hstate, ← hk, ends_validate_bind, state_validate_bind state_validateFound,
      ends_validateFound, SpbValid]
    simp only [List.mem_filter, decide_eq_true_eq, and_imp]
    constructor
    · rintro ⟨hneeded, hfound⟩ p hp
      split_ifs with hr
      · exact hfound p hp hr
      · simpa [installedAt, libsAt] using hneeded p hp hr
    · intro h
      refine ⟨fun p hp hr => ?_, fun p hp hr => ?_⟩
      · have hp' := h p hp
        rw [if_neg hr] at hp'
        simpa [installedAt, libsAt] using hp'
      · have hp' := h p hp
        rwa [if_pos hr] at hp'

/-- Up to the first validation, with the package library at that time. -/
theorem checkSpbPkgs_exec : exec checkSpbPkgs e s =
    ((exec (checkNeeded (rEntries e)) e (exec setupManagers e s).2).1.map fun _ => rEntries e,
      (exec (checkNeeded (rEntries e)) e (exec setupManagers e s).2).2) := by
  obtain ⟨a, s₀, h₀, -⟩ := adds_setupManagers e s
  have hr : entriesAt e s₀ .r = rEntries e := rfl
  simp only [checkSpbPkgs, exec_bind, h₀, exec_dirNames, hr]
  rcases exec (checkNeeded (rEntries e)) e s₀ with ⟨_ | _, s₁⟩ <;> rfl

theorem checkSpbPkgs_ends : (exec checkSpbPkgs e s).1 = .ok (rEntries e) ↔
    SpbValid e (atSpbCheck e s).pkgLib := by
  rw [atSpbCheck, checkSpbPkgs_exec, ← checkNeeded_ends]
  rcases h : exec (checkNeeded (rEntries e)) e (exec setupManagers e s).2 with ⟨_ | _, s₁⟩ <;>
    simp [Ends, h, Except.map]

/-- The dependencies that are neither installed nor left out. -/
def pkgDeps (e : RSession) (s : RState) (deps : List Str) : List Str :=
  (deps.map stripVersion).filter
    (· ∉ ofString "R" :: installedAt e s .all ++ if e.windows then [ofString "multicore"] else [])

theorem mem_pkgDeps {p : Str} : p ∈ pkgDeps e s deps ↔ p ∈ deps.map stripVersion ∧ p ≠ "R" ∧
    ¬ (e.windows = true ∧ p = "multicore") ∧ p ∉ s.pkgLib.installed ∧ p ∉ rInstalled e := by
  have hall : p ∈ installedAt e s .all ↔ p ∈ s.pkgLib.installed ∨ p ∈ rInstalled e := by
    simp [installedAt, libsAt, rInstalled]
  rw [pkgDeps, List.mem_filter, decide_eq_true_eq, List.cons_append, List.mem_cons, List.mem_append,
    hall]
  cases e.windows <;> simp
  tauto

theorem installDeps_exec (e : RSession) (s : RState) (deps : List Str) : ∃ s', Extends s.pkgLib s'.pkgLib ∧
    exec (installDeps deps) e s =
      exec (validateInstallation (pkgDeps e s deps) .pkg "pkg_deps") e s' := by
  have hadds : Adds (installBinaries (pkgDeps e s deps) >>= fun _ =>
      installSources (pkgDeps e s deps)) :=
    adds_installBinaries.bind fun _ => adds_installSources
  obtain ⟨_, s', h, hg⟩ := hadds e s
  refine ⟨s', hg, ?_⟩
  have hrest : exec (installDeps deps) e s = exec (installBinaries (pkgDeps e s deps) >>= fun _ =>
      installSources (pkgDeps e s deps) >>= fun _ =>
        validateInstallation (pkgDeps e s deps) .pkg "pkg_deps") e s := by
    simp only [installDeps, exec_bind, exec_installedPackages, exec_read, pkgDeps]
  rw [hrest, ← bind_assoc, exec_bind, h]

theorem installDeps_ends : Ends (installDeps deps) e s ↔
    DepsInstalled e deps (exec (installDeps deps) e s).2.pkgLib := by
  obtain ⟨s', hg, h⟩ := installDeps_exec e s deps
  have hstate : (exec (installDeps deps) e s).2 = s' := by rw [h, exec_validateInstallation]
  have hpkg : ∀ p, p ∈ installedAt e s' .pkg ↔ p ∈ s'.pkgLib.installed := by
    simp [installedAt, libsAt]
  rw [hstate, Ends, h, ← Ends, ends_validateInstallation]
  simp only [hpkg, mem_pkgDeps]
  constructor
  · intro hvalid p hp hR hm
    by_cases hr : p ∈ rInstalled e
    · exact .inr hr
    · left
      by_cases hl : p ∈ s.pkgLib.installed
      · exact hg.installed hl
      · exact hvalid p ⟨hp, hR, hm, hl, hr⟩
  · rintro hinst p ⟨hp, hR, hm, -, hr⟩
    exact (hinst p hp hR hm).resolve_right hr

theorem checkDeps_ends {pkgsAlready : List Str} : Ends (checkDeps pkgsAlready deps) e s ↔
    DepsInstalled e deps (exec (checkDeps pkgsAlready deps) e s).2.pkgLib := by
  have hadds : Adds (installBiocCheck pkgsAlready) := adds_installRemotes.bind fun _ => .install _
  obtain ⟨hends, hstate⟩ : (Ends (checkDeps pkgsAlready deps) e s ↔ _) ∧ _ := hadds.ends_bind
  rw [hends, checkDeps, hstate, installDeps_ends]

theorem runsToEnd_iff_ends : RunsToEnd e s deps ↔ (exec checkSpbPkgs e s).1 = .ok (rEntries e) ∧
    Ends (checkDeps (rEntries e) deps) e (atSpbCheck e s) := by
  have hlast : ∀ s₁, Ends (checkDeps (rEntries e) deps >>= fun _ => install .update) e s₁ ↔
      Ends (checkDeps (rEntries e) deps) e s₁ := by
    intro s₁
    simp only [Ends, exec_bind]
    rcases exec (checkDeps (rEntries e) deps) e s₁ with ⟨_ | _, s₂⟩ <;> simp
  rw [RunsToEnd, installScript, Ends, exec_bind, atSpbCheck, checkSpbPkgs_exec]
  rcases exec (checkNeeded (rEntries e)) e (exec setupManagers e s).2 with ⟨m | _, s₁⟩
  · simp [Except.map]
  · have hl := hlast s₁
    rw [Ends] at hl
    simpa [Except.map] using hl

theorem spbInstalled_of_valid {l : PkgLibrary} (h : SpbValid e l) : SpbInstalled e l := by
  intro p hp
  have hp' := h p hp
  split_ifs at hp'
  · exact .inr hp'
  · exact .inl hp'

theorem noStray_of_valid {l : PkgLibrary} (h : SpbValid e l) : NoStray e := by
  intro p hp hr
  have hp' := h p hp
  rwa [if_pos hr] at hp'

theorem valid_of_noStray {l : PkgLibrary} (hn : NoStray e) (h : SpbInstalled e l) :
    SpbValid e l := by
  have hsub : ∀ p, p ∈ rInstalled e → p ∈ rEntries e := by
    intro p hp
    obtain ⟨l, hl, hp⟩ := List.mem_flatMap.mp hp
    exact List.mem_flatMap.mpr ⟨l, hl, l.installed_sub hp⟩
  intro p hp
  split_ifs with hr
  · exact hn p hp hr
  · exact (h p hp).resolve_right fun hi => hr (hsub p hi)

/-- The script comes to its end if and only if at the first validation every package of
`SPB_pkgs` is installed where it is looked for, and at the second one every dependency is installed
somewhere. This says the same as that all are installed somewhere, unless all of them are while an
R library has a directory of one of the packages without the package. -/
theorem runsToEnd_iff (e : RSession) (s : RState) (deps : List Str) :
    (RunsToEnd e s deps ↔ SpbValid e (atSpbCheck e s).pkgLib ∧
      DepsInstalled e deps (atDepsCheck e s deps).pkgLib) ∧
    ((RunsToEnd e s deps ↔ AllInstalled e s deps) ↔ NoStray e ∨ ¬ AllInstalled e s deps) := by
  have hmain : RunsToEnd e s deps ↔ SpbValid e (atSpbCheck e s).pkgLib ∧
      DepsInstalled e deps (atDepsCheck e s deps).pkgLib := by
    rw [runsToEnd_iff_ends, checkSpbPkgs_ends, checkDeps_ends]
    rfl
  refine ⟨hmain, ?_⟩
  rw [hmain]
  constructor
  · intro h
    by_cases hall : AllInstalled e s deps
    · exact .inl (noStray_of_valid (h.mpr hall).1)
    · exact .inr hall
  · rintro (hn | hall)
    · exact and_congr_left fun _ => ⟨spbInstalled_of_valid, valid_of_noStray hn⟩
    · exact iff_of_false (fun h => hall ⟨spbInstalled_of_valid h.1, h.2⟩) hall

end

/-- A node on which nothing more can be installed; in its R library the installation of knitr was
cut short. -/
def knitrBroken : RSession where
  rLibs := [{
    entries := spbPkgs
    installed := spbPkgs.filter (· ≠ "knitr")
    installed_sub := fun _ h => List.mem_of_mem_filter h }]
  windows := false
  pkgType := "source"
  current := true
  add _ _ l := l
  grows _ _ l := .refl l

/-- The package library has knitr. -/
def knitrInstalled : RState where
  pkgLib := { entries := ["knitr"], installed := ["knitr"], installed_sub := fun _ h => h }

theorem knitr_rejected : ¬ (RunsToEnd knitrBroken knitrInstalled [] ↔
    AllInstalled knitrBroken knitrInstalled []) := by
  intro h
  have hall : AllInstalled knitrBroken knitrInstalled [] := by
    refine ⟨?_, by simp [DepsInstalled]⟩
    unfold SpbInstalled
    decide +kernel
  obtain ⟨_, hend⟩ := h.mpr hall
  have hstop : (exec (installScript []) knitrBroken knitrInstalled).1.toOption = none := by
    decide +kernel
  rw [hend] at hstop
  cases hstop

end PackageBuilder
