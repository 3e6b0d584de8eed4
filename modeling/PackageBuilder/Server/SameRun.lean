import PackageBuilder.Builder.Protocol
import PackageBuilder.Library.Listing
import PackageBuilder.Server.System

/-! The builder in the jobs tree and the run of builder.py with the same tools come to the same
end. -/
namespace PackageBuilder
open Text Effect FileTree

/-- The directory after a new file, at the end of its listing. -/
def renewed (name : Str) (d : List Str) : List Str := d.filter (· ≠ name) ++ [name]

section
variable {ν : Type} (tools : Tools ν) (find : Tree Str (Content ν) → Packages ν) (r : Request)
  (m : Manifest) (t : Tree Str (Content ν))

/-- The jobs tree after the clone, if git makes one. -/
def clonedTree : Option (Tree Str (Content ν)) :=
  let cloneDir := r.path (tools.cloneDir m.svnUrl)
  if present t cloneDir then none
  else (tools.fetch m.svnUrl).map fun x => write t cloneDir (.data x)

/-- The sources where `main` looks for them. -/
def sourcesIn : Option ν := data? t (r.path m.packageName)

/-- The packages that `main` has R look for. -/
def foundIn : Packages ν := others m (find t)

def depsTree : Tree Str (Content ν) :=
  match sourcesIn r m t with
  | some x => addPackages t r (tools.deps x (find t))
  | none => t

def installedTree : Tree Str (Content ν) :=
  let t := depsTree tools find r m t
  match (sourcesIn r m t).bind (tools.install · (foundIn find m t)) with
  | some x => write t (r.libPath m.packageName) (.data x)
  | none => t

def productIn : Option (Str × ν) :=
  let t := installedTree tools find r m t
  (sourcesIn r m t).bind (tools.build · (foundIn find m t))

def builtTree : Tree Str (Content ν) :=
  let t' := installedTree tools find r m t
  addTarball (write t' (r.path "R.out") (.data (tools.output (sourcesIn r m t') (foundIn find m t'))))
    r (productIn tools find r m t)

/-- Subprocesses that can be started, do what the tools do to a software package and report nothing
else, in a directory of files. -/
def Tools.env (base : Env) : Env :=
  { base with
    manifest := m
    gitClone :=
      match clonedTree tools r m t with
      | some _ => { leaves := renewed (tools.cloneDir m.svnUrl) }
      | none => { status := 128 }
    description :=
      match (clonedTree tools r m t).bind (sourcesIn r m) with
      | some _ => .ok [("Package", m.packageName), ("Version", "0.99.0")]
      | none => .error (.fileNotFoundError "DESCRIPTION")
    unsupportedPlatforms := none
    packageType := {}
    installDeps := {}
    checkgitclone := {}
    installPkg := {}
    build :=
      match (clonedTree tools r m t).bind (productIn tools find r m) with
      | some (name, _) => { leaves := renewed name }
      | none => { status := 1 }
    scp := {}
    check := {}
    biocCheck := {}
    lower := Text.lower
    kind := fun _ => .file
    refuses := fun _ => none
    encodes := fun _ => true }

end

/-- Where a builder has ended. -/
def BuilderProcess.ending {ν : Type} (b : BuilderProcess ν) : Ending :=
  if b.clone.isNone then .cloneFailed
  else if b.output.isNone then .dcfUnreadable
  else if b.built = false then .buildFailed
  else if b.tarball.isNone then .tarballMissing
  else .binSkipped

section
variable {ν : Type} {tools : Tools ν} {find : Tree Str (Content ν) → Packages ν} {r : Request}
  {m : Manifest} {t t₁ : Tree Str (Content ν)}
  {q : Request} {base : Env}

section
variable {b b' b'' : BuilderProcess ν} {t' : Tree Str (Content ν)} {x : Stage} {rest : List Stage}
  {k : ℕ}

/-- A turn of a builder for which R finds the packages that `find` says. -/
def findingStep (tools : Tools ν) (find : Tree Str (Content ν) → Packages ν) (r : Request)
    (a : BuilderProcess ν × Tree Str (Content ν)) : BuilderProcess ν × Tree Str (Content ν) :=
  builderStep tools r (find a.2) a

/-- The builder after `k` turns. -/
def builderAfter (tools : Tools ν) (find : Tree Str (Content ν) → Packages ν) (r : Request) (k : ℕ)
    (a : BuilderProcess ν × Tree Str (Content ν)) : BuilderProcess ν :=
  ((findingStep tools find r)^[k] a).1

theorem after_goes (hb : b.todo = x :: rest) (hs : stage tools r (find t) b t x = some (b', t'))
    (hn : { b' with todo := rest } = b'') :
    builderAfter tools find r (k + 1) (b, t) = builderAfter tools find r k (b'', t') := by
  simp [builderAfter, findingStep, builderStep, hb, hs, hn]

theorem after_done (hb : b.todo = []) : builderAfter tools find r k (b, t) = b := by
  have hfix : findingStep tools find r (b, t) = (b, t) := by simp [findingStep, builderStep, hb]
  simp [builderAfter, Function.iterate_fixed hfix]

theorem stage_runs (hb : b.body = some q) (hm : q.manifest? = some m) (hx : x ≠ .setup) :
    stage tools r (find t) b t x = runStage tools r (find t) m b t x := by
  have hm' : b.manifest? = some m := by simp [BuilderProcess.manifest?, hb, hm]
  cases x <;> simp_all [stage]

theorem after_runs (hb : b.todo = x :: rest) (hq : b.body = some q) (hm : q.manifest? = some m)
    (hs : runStage tools r (find t) m b t x = some (b', t')) (hn : { b' with todo := rest } = b'') :
    builderAfter tools find r (k + 1) (b, t) = builderAfter tools find r k (b'', t') := by
  have hx : x ≠ .setup := by
    rintro rfl
    cases hs
  exact after_goes hb ((stage_runs hq hm hx).trans hs) hn

/-- A builder that stops early only cleans up. -/
theorem after_stops (hb : b.todo = x :: rest) (hr : rest ≠ []) (hx : x ≠ .setup)
    (hq : b.body = some q) (hm : q.manifest? = some m) (hs : runStage tools r (find t) m b t x = none) :
    builderAfter tools find r (k + 2) (b, t) = { b with todo := [] } := by
  have hstop : stage tools r (find t) b t x = none := (stage_runs hq hm hx).trans hs
  have hexit : findingStep tools find r (b, t) = ({ b with todo := [.cleanUpDir] }, t) := by
    simp only [findingStep, builderStep, hb, hstop, BuilderProcess.exit]
    simp [hq, hr]
  have hlast : builderAfter tools find r (k + 1) ({ b with todo := [.cleanUpDir] }, t) =
      builderAfter tools find r k ({ b with todo := [] }, cleanUp t r m) :=
    after_runs rfl hq hm rfl rfl
  have hdone : builderAfter tools find r k ({ b with todo := [] }, cleanUp t r m) =
      { b with todo := [] } :=
    after_done rfl
  rw [← hdone, ← hlast]
  simp only [builderAfter, Function.iterate_succ_apply, hexit]

/-- The check and what follows it change nothing of what was reported before. -/
theorem after_check (he : b' = builderAfter tools find r 3 (b, t))
    (hb : b.todo = [.doCheck, .reportCheck, .cleanUpDir]) (hq : b.body = some q)
    (hm : q.manifest? = some m) : ∃ library report,
      b' = { b with todo := [], library := library, report := report } := by
  rw [he]
  rcases hs : runStage tools r (find t) m b t .doCheck with _ | ⟨b₁, t₁⟩
  · exact ⟨b.library, b.report, after_stops hb (by simp) (by simp) hq hm hs⟩
  · obtain ⟨library, rfl⟩ : ∃ library, b₁ = { b with library := library } := by
      simp only [runStage] at hs
      split_ifs at hs
      obtain ⟨name, -, hn⟩ := Option.map_eq_some_iff.mp hs
      exact ⟨_, (congrArg Prod.fst hn).symm⟩
    refine ⟨library, report? t₁ (r.path "Rcheck.out"), ?_⟩
    refine Eq.trans (after_runs hb hq hm hs rfl) ?_
    refine Eq.trans (after_runs (x := .reportCheck) rfl hq hm rfl rfl) ?_
    refine Eq.trans (after_runs (x := .cleanUpDir) rfl hq hm rfl rfl) ?_
    exact after_done rfl

end

theorem output_written : (data? (builtTree tools find r m t₁) (r.path "R.out")).isSome = true := by
  have hw : ∀ (t : Tree Str (Content ν)) (x : ν), data? (write t (r.path "R.out") (.data x))
      (r.path "R.out") = some x := by
    simp [data?, content, write]
  rcases hp : productIn tools find r m t₁ with _ | ⟨name, x⟩
  · simp [builtTree, addTarball, hp, hw]
  · by_cases hn : r.path name = r.path "R.out"
    · simp [builtTree, addTarball, hp, hn, hw]
    · simp [builtTree, addTarball, hp, data?, content, write, entry_put, hn]

theorem fresh_files {d : List Str} {x : Str} {env : Env} (hk : env.kind x = .file) :
    fresh env x d = renewed x d := by
  simp [fresh, cleared, addEntry, renewed, hk]

theorem filter_renewed {T : Str → Bool} {d : List Str} {x : Str} :
    (renewed x d).filter T = (d.filter T).filter (· ≠ x) ++ if T x then [x] else [] := by
  have hcomm : (d.filter (· ≠ x)).filter T = (d.filter T).filter (· ≠ x) := by
    simp only [List.filter_filter, Bool.and_comm]
  rw [renewed, List.filter_append, hcomm]
  by_cases hx : T x = true <;> simp [hx]

theorem filter_renewed_other {T : Str → Bool} {d : List Str} {x : Str} (hx : T x = false) :
    (renewed x d).filter T = d.filter T := by
  have hne : ∀ y ∈ d.filter T, y ≠ x := by
    rintro y hy rfl
    exact Bool.false_ne_true (hx.symm.trans (List.mem_filter.mp hy).2)
  have hall : (d.filter T).filter (· ≠ x) = d.filter T :=
    List.filter_eq_self.mpr fun y hy => by simpa using hne y hy
  simp only [filter_renewed, hall, hx]
  simp

theorem names_addPackages (hr : r.runDir ≠ "R-libs") (ps : List (Str × ν)) :
    names (addPackages t r ps) r.workingDir = names t r.workingDir := by
  induction ps generalizing t with
  | nil => rfl
  | cons p ps ih =>
    have hlib : (r.libPath p.1).dropLast ≠ r.workingDir := by
      simpa [Request.libPath, Request.dir] using Ne.symm hr
    exact ih.trans (names_put_other hlib)

/-- What the builds have left in the working directory. -/
theorem names_built {name : Str} {x : ν} (hr : r.runDir ≠ "R-libs")
    (hc : clonedTree tools r m t = some t₁) (hp : productIn tools find r m t₁ = some (name, x)) :
    names (builtTree tools find r m t₁) r.workingDir = renewed name (renewed "R.out"
      (renewed (tools.cloneDir m.svnUrl) (names t r.workingDir))) := by
  have hlib : (r.libPath m.packageName).dropLast ≠ r.workingDir := by
    simpa [Request.libPath, Request.dir] using Ne.symm hr
  have hdeps : names (depsTree tools find r m t₁) r.workingDir = names t₁ r.workingDir := by
    rw [depsTree]
    split
    · exact names_addPackages hr _
    · rfl
  have hinstalled : names (installedTree tools find r m t₁) r.workingDir = names t₁ r.workingDir := by
    rw [installedTree]
    split
    · exact (names_put_other hlib).trans hdeps
    · exact hdeps
  have hcloned : names t₁ r.workingDir =
      renewed (tools.cloneDir m.svnUrl) (names t r.workingDir) := by
    simp only [clonedTree] at hc
    split_ifs at hc
    obtain ⟨y, -, rfl⟩ := Option.map_eq_some_iff.mp hc
    rw [write, Request.path, names_put, renewed]
  simp only [builtTree, hp, addTarball, Request.path, write]
  rw [names_put, names_put, hinstalled, hcloned]
  simp only [renewed]

section
variable {o : Listing} {d : List Str} (hv : m.biocVersion = some base.biocVersion)
include hv

theorem env_unclonable (hc : clonedTree tools r m t = none) :
    ending (tools.env find r m t base) o d = .cloneFailed := by
  simp [ending, Tools.env, hc, hv]

theorem env_unreadable (hc : clonedTree tools r m t = some t₁) (hs : sourcesIn r m t₁ = none) :
    ending (tools.env find r m t base) o d = .dcfUnreadable := by
  simp [ending, Tools.env, hc, hs, hv, dcfName]

omit hv in
theorem env_description {z : ν} (hc : clonedTree tools r m t = some t₁)
    (hs : sourcesIn r m t₁ = some z) : (tools.env find r m t base).description =
      .ok [("Package", m.packageName), ("Version", "0.99.0")] := by
  simp [Tools.env, hc, hs]

omit hv in
theorem env_kind {z : ν} (hc : clonedTree tools r m t = some t₁)
    (hs : sourcesIn r m t₁ = some z) :
    packageKind (tools.env find r m t base) = .known "Software" false := by
  simp only [packageKind, env_description hc hs]
  rfl

omit hv in
/-- No command and no file is in the way. -/
theorem env_starts {name cmd : Str} : Startable (tools.env find r m t base) name cmd d :=
  ⟨fun _ => (nofun : EntryKind.file ≠ .directory), rfl⟩

theorem env_builds {z : ν} (hc : clonedTree tools r m t = some t₁) (hs : sourcesIn r m t₁ = some z) :
    ending (tools.env find r m t base) o d =
      buildEnding (tools.env find r m t base) o false "Software" (renewed "CheckGitClone.out"
        (renewed (tools.cloneDir m.svnUrl) d)) := by
  have hg : (tools.env find r m t base).gitClone = { leaves := renewed (tools.cloneDir m.svnUrl) } := by
    simp [Tools.env, hc]
  have hd : (tools.env find r m t base).description =
      .ok [("Package", m.packageName), ("Version", "0.99.0")] :=
    env_description hc hs
  have hn : dcfName (tools.env find r m t base) = some m.packageName := by
    simp only [dcfName, hd]
    rfl
  have hk : packageKind (tools.env find r m t base) = .known "Software" false := env_kind hc hs
  have hx : exitOut (tools.env find r m t base) = false := by
    simp [exitOut, isUnsupported, Tools.env]
  have hdir : dirInstalled (tools.env find r m t base) (dirTyped (tools.env find r m t base)
      (renewed (tools.cloneDir m.svnUrl) d)) =
        renewed "CheckGitClone.out" (renewed (tools.cloneDir m.svnUrl) d) := by
    rw [dirInstalled, fresh_files rfl]
    simp only [dirTyped, hd]
    rfl
  have hb : (tools.env find r m t base).manifest.biocVersion = some (tools.env find r m t base).biocVersion :=
    hv
  have hdeps : DepsStart (tools.env find r m t base) := fun _ _ => rfl
  have hclone : CloneCheckStarts (tools.env find r m t base) (dirTyped (tools.env find r m t base)
      (renewed (tools.cloneDir m.svnUrl) d)) := env_starts
  have hinstall : (tools.env find r m t base).refuses (installPkgCmd (tools.env find r m t base)) = none := rfl
  have hgit : (tools.env find r m t base).refuses (gitCmd (tools.env find r m t base).manifest.svnUrl) =
      none := rfl
  rw [← hdir]
  simp only [ending, hb, hgit, hg, hn, typeEnding, hk, hx, installEnding, hdeps, hclone, hinstall]
  simp [Tools.env]

end

theorem env_fails {o : Listing} {d : List Str}
    (hp : (clonedTree tools r m t).bind (productIn tools find r m) = none) :
    buildEnding (tools.env find r m t base) o false "Software" d = .buildFailed := by
  have hb : (tools.env find r m t base).build = { status := 1 } := by simp [Tools.env, hp]
  have hr₀ : ¬ retcodeOf (tools.env find r m t base) false true = 0 := by
    simp [retcodeOf_eq_zero, BuildEnds, hb]
  have hp₀ : ¬ proceedCode (retcodeOf (tools.env find r m t base) false true) = 0 := by
    simp [proceedCode_eq_zero, BuildEnds, hb]
  simp [buildEnding, env_starts, hr₀, hp₀]

/-- Where every file can be measured and every copy started, a tarball is enough. -/
theorem env_copied {o : Listing} {n : ℕ} {d : List Str} :
    Copied (tools.env find r m t base) o n d ↔ hasTarball (tools.env find r m t base) d = true := by
  have hs : sizedIn (tools.env find r m t base) o n d = tarballIn (tools.env find r m t base) o n d := by
    rw [sizedIn]
    cases tarballIn (tools.env find r m t base) o n d <;> rfl
  have hc : ∀ x, (tools.env find r m t base).refuses (copyCmd (tools.env find r m t base) x) = none :=
    fun _ => rfl
  have hnone : tarballIn (tools.env find r m t base) o n d = none ↔
      hasTarball (tools.env find r m t base) d = false :=
    tarballIn_eq_none
  rw [Copied, hs]
  constructor
  · rintro ⟨x, hx, -⟩
    by_contra hn
    rw [hnone.mpr (by simpa using hn)] at hx
    cases hx
  · intro h
    obtain ⟨x, hx⟩ := Option.ne_none_iff_exists'.mp fun hn => by
      rw [hnone.mp hn] at h
      cases h
    exact ⟨x, hx, hc x⟩

theorem env_succeeds {o : Listing} {d : List Str} {name : Str} {y : ν} (ht : 0 < base.timeoutLimit)
    (hs : base.nodeSpec.pkgType = "source")
    (hp : (clonedTree tools r m t).bind (productIn tools find r m) = some (name, y)) :
    retcodeOf (tools.env find r m t base) false true = 0 ∧
      buildEnding (tools.env find r m t base) o false "Software" d =
        if hasTarball (tools.env find r m t base) (renewed name (renewed "R.out" d)) = true then
          .binSkipped
        else .tarballMissing := by
  have hb : (tools.env find r m t base).build = { leaves := renewed name } := by simp [Tools.env, hp]
  have hout : outputOf (tools.env find r m t base) false true = banner "R CMD BUILD" := by
    have he : ofString "" = [] := rfl
    simp [outputOf, buildText, buildProcess, hb, timeoutNote, he]
  have hr₀ : retcodeOf (tools.env find r m t base) false true = 0 := by
    rw [retcodeOf_eq_zero, BuildEnds, hout, hb]
    exact ⟨by simp, by decide +kernel, by simpa [seconds, timeoutLimit, Tools.env] using ht⟩
  refine ⟨hr₀, ?_⟩
  have hd : dirBuilt (tools.env find r m t base) d = renewed name (renewed "R.out" d) := by
    rw [dirBuilt, hb, fresh_files rfl]
  have hu : dirUploaded (tools.env find r m t base) false d = renewed name (renewed "R.out" d) := by
    simp only [dirUploaded, hr₀, if_true, hd]
    rfl
  rcases hh : hasTarball (tools.env find r m t base) (renewed name (renewed "R.out" d))
  · have hnone : sizedIn (tools.env find r m t base) o 0 (renewed name (renewed "R.out" d)) = none := by
      rw [sizedIn, tarballIn_eq_none.mpr hh]
      rfl
    simp [buildEnding, env_starts, hr₀, hd, env_copied, hh, hnone]
  · obtain ⟨x, hx⟩ := Option.ne_none_iff_exists'.mp fun hn => by
      rw [(tarballIn_eq_none (o := o) (n := 1)).mp hn] at hh
      cases hh
    have hc : checkEnding (tools.env find r m t base) o false "Software"
        (renewed name (renewed "R.out" d)) = .binSkipped := by
      have hreplace : Replaceable (tools.env find r m t base) "Rcheck.out"
          (renewed name (renewed "R.out" d)) := fun _ h => by cases h
      have hread : CloneCheckReads (tools.env find r m t base) := ⟨rfl, rfl⟩
      have hpass : RCheckPasses (tools.env find r m t base) false "Software" x :=
        ⟨rfl, by simp [warntimeUnset, Tools.env]⟩
      have hbioc : BiocCheckStarts (tools.env find r m t base) x := ⟨rfl, rfl⟩
      have hn : (tools.env find r m t base).nodeSpec.pkgType = "source" := hs
      simp [checkEnding, hx, hreplace, hread, hpass, hbioc, binEnding, hn]
    simp [buildEnding, env_starts, hr₀, hd, env_copied, hh, hu, hc, proceedCode]

/-- The file that only the run of builder.py writes is no tarball. -/
theorem hasTarball_iff {d : List Str} {name : Str} {env : Env} (he : env.manifest = m)
    (hd : names (builtTree tools find r m t₁) r.workingDir = renewed name (renewed "R.out" d)) :
    hasTarball env (renewed name (renewed "R.out" (renewed "CheckGitClone.out" d))) = true ↔
      (sourceTarball (builtTree tools find r m t₁) r m).isSome = true := by
  have hno : ∀ file : Str, decide ((".tar.gz" : Str) <:+: file) = false →
      isTarball (tarballPkgname m) file = false := by
    intro file hf
    simp [isTarball, hf]
  have hout := hno "R.out" (by decide +kernel)
  have hclone := hno "CheckGitClone.out" (by decide +kernel)
  have hfind : ∀ l : List Str, (l.find? (isTarball (tarballPkgname m))).isSome =
      l.any (isTarball (tarballPkgname m)) := by
    intro l
    rw [Bool.eq_iff_iff, List.find?_isSome, List.any_eq_true]
  have hsame : (renewed name (renewed "R.out" (renewed "CheckGitClone.out" d))).filter
        (isTarball (tarballPkgname m)) =
      (renewed name (renewed "R.out" d)).filter (isTarball (tarballPkgname m)) := by
    rw [filter_renewed, filter_renewed_other hout, filter_renewed_other hclone, filter_renewed,
      filter_renewed_other hout]
  have hself : ∀ l : List Str, (l.filter (isTarball (tarballPkgname m))).any
      (isTarball (tarballPkgname m)) = l.any (isTarball (tarballPkgname m)) := by
    simp [List.any_filter]
  rw [sourceTarball, hd, hfind, hasTarball, he, ← hself, hsame, hself]

/-- All turns of a builder. -/
def builderEnd (tools : Tools ν) (find : Tree Str (Content ν) → Packages ν) (r : Request)
    (t : Tree Str (Content ν)) : BuilderProcess ν :=
  builderAfter tools find r 10 ({}, t)

variable (hq : message? t (r.path "manifest.json") = some q) (hm : q.manifest? = some m)
include hq hm

theorem end_setup : builderEnd tools find r t =
    builderAfter tools find r 9 ({ todo := stages.tail, body := some q }, t) := by
  have hs : stage tools r (find t) {} t .setup = some ({ body := some q }, t) := by simp [stage, hq, hm]
  exact after_goes rfl hs rfl

theorem end_unclonable (hc : clonedTree tools r m t = none) :
    builderEnd tools find r t = { todo := [], body := some q } := by
  have hs : runStage tools r (find t) m { todo := stages.tail, body := some q } t .gitClone = none := by
    simp only [clonedTree] at hc
    simp only [runStage]
    split_ifs at hc ⊢ with hp
    · rfl
    · simpa using hc
  rw [end_setup hq hm]
  exact after_stops rfl (by simp) (by simp) rfl hm hs

theorem end_cloned (hc : clonedTree tools r m t = some t₁) : ∃ y, builderEnd tools find r t =
    builderAfter tools find r 8 ({ todo := stages.tail.tail, body := some q, clone := some y }, t₁) := by
  simp only [clonedTree] at hc
  split_ifs at hc with hp
  obtain ⟨y, hy, rfl⟩ := Option.map_eq_some_iff.mp hc
  have hs : runStage tools r (find t) m { todo := stages.tail, body := some q } t .gitClone =
      some ({ todo := stages.tail, body := some q, clone := some y },
        write t (r.path (tools.cloneDir m.svnUrl)) (.data y)) := by
    simp [runStage, hp, hy]
  refine ⟨y, ?_⟩
  rw [end_setup hq hm]
  exact after_runs rfl rfl hm hs rfl

theorem end_unreadable (hc : clonedTree tools r m t = some t₁) (hs : sourcesIn r m t₁ = none) :
    ∃ y, builderEnd tools find r t = { todo := [], body := some q, clone := some y } := by
  obtain ⟨y, hy⟩ := end_cloned hq hm hc
  have hstop : runStage tools r (find t₁) m
      { todo := stages.tail.tail, body := some q, clone := some y } t₁
      .getDcfInfo = none := by
    simpa [runStage, sourcesIn] using hs
  refine ⟨y, ?_⟩
  rw [hy]
  exact after_stops rfl (by simp) (by simp) rfl hm hstop

/-- Up to the source build. -/
theorem end_built {z : ν} (hc : clonedTree tools r m t = some t₁) (hs : sourcesIn r m t₁ = some z) :
    ∃ y i, builderEnd tools find r t = builderAfter tools find r 4 ({
      todo := [.reportBuild, .doCheck, .reportCheck, .cleanUpDir], body := some q, clone := some y
      installed := i, built := (productIn tools find r m t₁).isSome }, builtTree tools find r m t₁) := by
  obtain ⟨y, hy⟩ := end_cloned hq hm hc
  have hdeps : ∀ b : BuilderProcess ν, runStage tools r (find t₁) m b t₁ .installDeps =
      some (b, depsTree tools find r m t₁) := by
    intro b
    rw [depsTree, hs]
    simp only [sourcesIn] at hs
    simp [runStage, hs]
  obtain ⟨i, hi⟩ : ∃ i, ∀ b : BuilderProcess ν, b.installed = none →
      runStage tools r (find (depsTree tools find r m t₁)) m b (depsTree tools find r m t₁)
        .installPkg = some ({ b with installed := i }, installedTree tools find r m t₁) := by
    rcases hx : (sourcesIn r m (depsTree tools find r m t₁)).bind
        (tools.install · (foundIn find m (depsTree tools find r m t₁))) with _ | x
    · refine ⟨none, ?_⟩
      rintro ⟨_, _, _, _, _, _, _, _, _⟩ ⟨⟩
      simp only [sourcesIn, foundIn] at hx
      simp [runStage, installedTree, sourcesIn, foundIn, hx]
    · refine ⟨some x, fun b _ => ?_⟩
      simp only [sourcesIn, foundIn] at hx
      simp [runStage, installedTree, sourcesIn, foundIn, hx]
  refine ⟨y, i, ?_⟩
  have hread : runStage tools r (find t₁) m
      { todo := stages.tail.tail, body := some q, clone := some y } t₁ .getDcfInfo =
        some ({ todo := stages.tail.tail, body := some q, clone := some y }, t₁) := by
    simp only [sourcesIn] at hs
    simp [runStage, hs]
  have hbuild : ∀ b : BuilderProcess ν,
      runStage tools r (find (installedTree tools find r m t₁)) m b
        (installedTree tools find r m t₁) .doBuild =
          some ({ b with built := (productIn tools find r m t₁).isSome },
            builtTree tools find r m t₁) :=
    fun _ => rfl
  rw [hy, after_runs rfl rfl hm hread rfl, after_runs rfl rfl hm (hdeps _) rfl,
    after_runs rfl rfl hm (hi _ rfl) rfl, after_runs rfl rfl hm (hbuild _) rfl]

/-- The tarball that a builder finds, and what becomes of it. -/
theorem end_reported {z : ν} (hc : clonedTree tools r m t = some t₁)
    (hs : sourcesIn r m t₁ = some z) : (builderEnd tools find r t).todo = [] ∧
      (builderEnd tools find r t).clone.isSome = true ∧ (builderEnd tools find r t).output.isSome = true ∧
      (builderEnd tools find r t).built = (productIn tools find r m t₁).isSome ∧
      (builderEnd tools find r t).tarball.map Prod.fst = sourceTarball (builtTree tools find r m t₁) r m := by
  obtain ⟨y, i, hy⟩ := end_built hq hm hc hs
  have hreport : ∀ b : BuilderProcess ν, runStage tools r (find (builtTree tools find r m t₁)) m b
      (builtTree tools find r m t₁) .reportBuild =
      some ({ b with
        tarball := (sourceTarball (builtTree tools find r m t₁) r m).map fun name =>
          (name, data? (builtTree tools find r m t₁) (r.path name))
        output := data? (builtTree tools find r m t₁) (r.path "R.out") }, builtTree tools find r m t₁) :=
    fun _ => rfl
  rw [after_runs rfl rfl hm (hreport _) rfl] at hy
  obtain ⟨library, report, hlast⟩ := after_check hy rfl rfl hm
  rw [hlast]
  refine ⟨rfl, rfl, output_written, rfl, ?_⟩
  simp [Function.comp_def]

/-- Both stop at the same place, with the same source build. -/
theorem same_ending (base : Env) (hv : m.biocVersion = some base.biocVersion)
    (hs : base.nodeSpec.pkgType = "source") (ht : 0 < base.timeoutLimit)
    (hr : r.runDir ≠ "R-libs") (o : Listing) : (builderEnd tools find r t).todo = [] ∧
      (ending (tools.env find r m t base) o (names t r.workingDir)).statuses
          (uploaded (tools.env find r m t base)) =
        (builderEnd tools find r t).ending.statuses (builderEnd tools find r t).built := by
  rcases hc : clonedTree tools r m t with _ | t₁
  · rw [env_unclonable hv hc, end_unclonable hq hm hc]
    exact ⟨rfl, rfl⟩
  rcases hz : sourcesIn r m t₁ with _ | z
  · obtain ⟨y, hy⟩ := end_unreadable hq hm hc hz
    rw [env_unreadable hv hc hz, hy]
    exact ⟨rfl, rfl⟩
  obtain ⟨htodo, hclone, hout, hbuilt, htar⟩ := end_reported hq hm hc hz
  have hclone' : (builderEnd tools find r t).clone.isNone = false := by simpa using hclone
  have hout' : (builderEnd tools find r t).output.isNone = false := by simpa using hout
  have hup : uploaded (tools.env find r m t base) =
      (retcodeOf (tools.env find r m t base) false true == 0) := by
    rw [uploaded, env_kind hc hz]
  refine ⟨htodo, ?_⟩
  rw [env_builds hv hc hz, hup, hbuilt]
  rcases hp : productIn tools find r m t₁ with _ | ⟨name, x⟩
  · have hfail : (clonedTree tools r m t).bind (productIn tools find r m) = none := by simp [hc, hp]
    have hend : (builderEnd tools find r t).ending = .buildFailed := by
      simp [BuilderProcess.ending, hclone', hout', hbuilt, hp]
    rw [env_fails hfail, hend]
    rfl
  · have hdone : (clonedTree tools r m t).bind (productIn tools find r m) = some (name, x) := by
      simp [hc, hp]
    obtain ⟨hretcode, hbuild⟩ := env_succeeds (o := o) (d := renewed "CheckGitClone.out"
      (renewed (tools.cloneDir m.svnUrl) (names t r.workingDir))) ht hs hdone
    have he : (tools.env find r m t base).manifest = m := rfl
    have hiff := hasTarball_iff he (names_built hr hc hp)
    have hsame : (builderEnd tools find r t).tarball.isNone =
        !(sourceTarball (builtTree tools find r m t₁) r m).isSome := by
      rw [← htar]
      cases (builderEnd tools find r t).tarball <;> rfl
    rw [hbuild, hretcode]
    rcases hf : (sourceTarball (builtTree tools find r m t₁) r m).isSome
    · have hend : (builderEnd tools find r t).ending = .tarballMissing := by
        simp [BuilderProcess.ending, hclone', hout', hbuilt, hp, hsame, hf]
      rw [if_neg (by rw [hiff, hf]; simp), hend]
      rfl
    · have hend : (builderEnd tools find r t).ending = .binSkipped := by
        simp [BuilderProcess.ending, hclone', hout', hbuilt, hp, hsame, hf]
      rw [if_pos (hiff.mpr hf), hend]
      rfl

end

/-- A builder that a node launches and the run of builder.py on what its tools do send the same
statuses, wherever they stop. -/
theorem builder_same_end (tools : Tools ν) (find : Tree Str (Content ν) → Packages ν) (r q : Request)
    (m : Manifest) (t : Tree Str (Content ν)) (base : Env) (w : World)
    (hq : message? t (r.path "manifest.json") = some q) (hm : q.manifest? = some m)
    (hv : m.biocVersion = some base.biocVersion) (hs : base.nodeSpec.pkgType = "source")
    (ht : 0 < base.timeoutLimit) (hr : r.runDir ≠ "R-libs") (hw : w.Quiet) :
    (builderEnd tools find r t).todo = [] ∧
      (builderRun (tools.env find r m t base) w (names t r.workingDir)).statuses =
        (builderEnd tools find r t).ending.statuses (builderEnd tools find r t).built ++
          [.autoexit] := by
  obtain ⟨htodo, hsame⟩ : (builderEnd tools find r t).todo = [] ∧ _ :=
    same_ending hq hm base hv hs ht hr w.listdir
  refine ⟨htodo, ?_⟩
  have hreturns : ∀ s, cleanUpReturns (tools.env find r m t base) w s = true := fun s =>
    (cleanUpReturns_iff (deletionsSucceed_of_files (fun _ h => by cases h) w s)).mpr (hw.there _)
  rw [quiet_statuses hw, hsame, if_pos (hreturns _)]

/-- The jobs tree that the handler of the first commit leaves. -/
def acceptedTree : Tree Str (Content ℕ) :=
  (twoCommits.after issueTree (List.replicate 14 (false, .handler))).shared.tree

def acceptedManifest : Manifest :=
  { spbtest.manifest with
    svnUrl := "https://github.com/Bioconductor/spbtest5", newpackage := none }

theorem builder_same_end_twoCommits :
    (builderRun ((twoCommits.tools false).env (twoCommits.finds false) (twoCommits.message false)
        acceptedManifest acceptedTree spbtest) {}
        (names acceptedTree (twoCommits.message false).workingDir)).statuses =
      Ending.binSkipped.statuses true ++ [.autoexit] :=
  (builder_same_end (twoCommits.tools false) (twoCommits.finds false) (twoCommits.message false)
    (twoCommits.message false) acceptedManifest acceptedTree spbtest {} (by decide +kernel)
    (by decide +kernel) rfl rfl (by decide) (by decide +kernel)
    ⟨fun _ => rfl, rfl, fun _ => rfl, fun _ => rfl⟩).2.trans (by decide +kernel)

end PackageBuilder
