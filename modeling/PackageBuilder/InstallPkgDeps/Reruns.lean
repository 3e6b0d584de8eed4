import PackageBuilder.InstallPkgDeps.Libraries

/-! Runs of installPkgDeps.R one after another, into the package library of one issue. -/
namespace PackageBuilder
open Text Effect

/-- What a run leaves, also where it stops. -/
def ranScript (e : RSession) (deps : List Str) (s : RState) : RState :=
  (exec (installScript deps) e s).2

/-- The state after some runs, each in a session of its own. -/
def ranScripts (s : RState) (xs : List (RSession × List Str)) : RState :=
  xs.foldl (fun s x => ranScript x.1 x.2 s) s

/-- The library is still there, and the packages of later calls are allowed. -/
structure Steady (l : PkgLibrary) (old : List Install) (allowed : List Str → Prop) (s : RState) :
    Prop where
  library : Extends l s.pkgLib
  calls : ∃ cs, s.calls = old ++ cs ∧ ∀ pkgs source, .bioc pkgs source ∈ cs → allowed pkgs

/-- The packages that a run may ask for, once the library is there. -/
structure Allows (e : RSession) (l : PkgLibrary) (allowed : List Str → Prop) (deps : List Str) :
    Prop where
  remotes : allowed ["remotes"]
  needed : ∀ l', Extends l l' → ∀ p ∈ spbPkgs, p ∉ rEntries e → p ∉ l'.entries → ∀ pkgs, allowed pkgs
  asked : ∀ s, Extends l s.pkgLib → allowed (pkgDeps e s deps)
  missing : ∀ s, Extends l s.pkgLib → ∀ p ∈ pkgDeps e s deps, ∀ pkgs, allowed pkgs

section
variable {α : Type} {e e' : RSession} {s : RState} {l l' : PkgLibrary} {old : List Install}
  {allowed : List Str → Prop} {c : Install} {loc : LibLoc} {pkgs deps deps' : List Str} {label : Str}

theorem steady_install (hc : ∀ pkgs source, c = .bioc pkgs source → allowed pkgs) :
    Keeps (Steady l old allowed) e (install c) := by
  rintro s ⟨hl, cs, hcs, hall⟩
  refine ⟨hl.trans (e.grows _ c _), cs ++ [c], ?_, ?_⟩
  · rw [exec_install, RState.add_calls, hcs, List.append_assoc]
  · intro pkgs source hm
    rcases List.mem_append.mp hm with hm | hm
    · exact hall pkgs source hm
    · exact hc pkgs source (List.mem_singleton.mp hm).symm

theorem steady_validate : Keeps (Steady l old allowed) e (validateInstallation pkgs loc label) := by
  intro s hs
  rw [exec_validateInstallation]
  exact hs

theorem steady_setupManagers : Keeps (Steady l old allowed) e setupManagers := by
  refine .bind (steady_install nofun) fun _ => .bind (steady_install nofun) fun _ => ?_
  refine .bind (fun _ hs => hs) fun e => ?_
  split
  · exact fun _ hs => hs
  · exact steady_install nofun

theorem steady_installNeeded (ha : Allows e l allowed deps) :
    Keeps (Steady l old allowed) e (installNeeded (spbPkgs.filter (· ∉ rEntries e))) := by
  intro s hs
  rw [installNeeded, exec_bind, exec_dirNames]
  simp only [exec_ite, exec_pure]
  split
  · exact hs
  next hne =>
    refine steady_install ?_ s hs
    rintro _ _ ⟨⟩
    obtain ⟨p, hp⟩ := List.exists_mem_of_ne_nil _ hne
    simp only [List.mem_filter, decide_eq_true_eq] at hp
    exact ha.needed s.pkgLib hs.library p hp.1.1 hp.1.2 (by simpa [entriesAt, libsAt] using hp.2) _

theorem steady_checkNeeded (ha : Allows e l allowed deps) :
    Keeps (Steady l old allowed) e (checkNeeded (rEntries e)) := by
  rw [checkNeeded]
  split
  · exact steady_validate
  · refine .bind (steady_installNeeded ha) fun _ => .bind steady_validate fun _ => ?_
    rw [validateFound]
    split
    · exact fun _ hs => hs
    · exact steady_validate

theorem steady_checkSpbPkgs (ha : Allows e l allowed deps) :
    Keeps (Steady l old allowed) e checkSpbPkgs := by
  intro s hs
  rw [checkSpbPkgs_exec]
  exact steady_checkNeeded ha _ (steady_setupManagers s hs)

theorem steady_installBiocCheck (ha : Allows e l allowed deps) :
    Keeps (Steady l old allowed) e (installBiocCheck pkgs) := by
  refine .bind (.bind (fun _ hs => hs) fun _ => ?_) fun _ => steady_install nofun
  split
  · exact fun _ hs => hs
  · refine steady_install ?_
    rintro _ _ ⟨⟩
    exact ha.remotes

theorem exec_installDeps : exec (installDeps deps) e s = exec (do
    installBinaries (pkgDeps e s deps)
    installSources (pkgDeps e s deps)
    validateInstallation (pkgDeps e s deps) .pkg "pkg_deps") e s := by
  simp only [installDeps, exec_bind, exec_installedPackages, exec_read, pkgDeps]

theorem steady_installDeps (ha : Allows e l allowed deps) :
    Keeps (Steady l old allowed) e (installDeps deps) := by
  intro s hs
  rw [exec_installDeps]
  have hall : allowed (pkgDeps e s deps) := ha.asked s hs.library
  have hmissing := ha.missing s hs.library
  generalize pkgDeps e s deps = ps at hall hmissing
  refine Keeps.bind ?_ (fun _ => .bind ?_ fun _ => steady_validate) s hs
  · refine .bind (fun _ hs => hs) fun e => ?_
    split
    · exact fun _ hs => hs
    · refine steady_install ?_
      rintro _ _ ⟨⟩
      exact hall
  · refine .bind (fun _ hs => hs) fun ip => ?_
    by_cases hnil : ps.filter (· ∉ ip) = []
    · simp only [hnil, if_true]
      exact fun _ hs => hs
    · simp only [hnil, if_false]
      refine steady_install ?_
      rintro _ _ ⟨⟩
      obtain ⟨p, hp⟩ := List.exists_mem_of_ne_nil _ hnil
      exact hmissing p (List.mem_of_mem_filter hp) _

theorem steady_checkDeps (ha : Allows e l allowed deps) :
    Keeps (Steady l old allowed) e (checkDeps pkgs deps) :=
  .bind (steady_installBiocCheck ha) fun _ => steady_installDeps ha

theorem steady_installScript (ha : Allows e l allowed deps) :
    Keeps (Steady l old allowed) e (installScript deps) := by
  exact .bind (steady_checkSpbPkgs ha) fun _ => .bind (steady_checkDeps ha) fun _ =>
    steady_install nofun

theorem allows_any : Allows e l (fun _ => True) deps :=
  ⟨trivial, fun _ _ _ _ _ _ _ => trivial, fun _ _ => trivial, fun _ _ _ _ _ => trivial⟩

theorem extends_of_steady {m : Script α}
    (hm : Keeps (Steady s.pkgLib s.calls fun _ => True) e m) :
    Extends s.pkgLib (exec m e s).2.pkgLib :=
  (hm s ⟨.refl _, [], by simp, fun _ _ _ => trivial⟩).library

/-- No run loses a package, wherever it stops. -/
theorem ranScript_extends (e : RSession) (deps : List Str) (s : RState) :
    Extends s.pkgLib (ranScript e deps s).pkgLib :=
  extends_of_steady (steady_installScript allows_any)

theorem ranScripts_extends (s : RState) (xs : List (RSession × List Str)) :
    Extends s.pkgLib (ranScripts s xs).pkgLib := by
  induction xs generalizing s with
  | nil => exact .refl _
  | cons x xs ih => exact (ranScript_extends x.1 x.2 s).trans (ih _)

theorem SpbValid.mono (h : SpbValid e l) (hl : Extends l l') (hlibs : e'.rLibs = e.rLibs) :
    SpbValid e' l' := by
  have he : rEntries e' = rEntries e := by rw [rEntries, hlibs, rEntries]
  have hi : rInstalled e' = rInstalled e := by rw [rInstalled, hlibs, rInstalled]
  intro p hp
  have hp' := h p hp
  rw [he, hi]
  split_ifs at hp' ⊢
  · exact hp'
  · exact hl.installed hp'

theorem DepsInstalled.mono (h : DepsInstalled e deps l) (hl : Extends l l')
    (hlibs : e'.rLibs = e.rLibs) (hwin : e'.windows = e.windows) (hsub : deps' ⊆ deps) :
    DepsInstalled e' deps' l' := by
  have hi : rInstalled e' = rInstalled e := by rw [rInstalled, hlibs, rInstalled]
  intro p hp hR hm
  rw [hwin] at hm
  rw [hi]
  exact (h p (List.map_subset _ hsub hp) hR hm).imp_left fun hp => hl.installed hp

/-- What a run found at its validations is still there at its end. -/
theorem valid_ranScript (h : RunsToEnd e s deps) : SpbValid e (ranScript e deps s).pkgLib ∧
    DepsInstalled e deps (ranScript e deps s).pkgLib := by
  obtain ⟨hspb, hdeps⟩ := runsToEnd_iff_ends.mp h
  have hran : ranScript e deps s = (atDepsCheck e s deps).add e .update := by
    obtain ⟨_, hok⟩ := hdeps
    have h₁ : exec checkSpbPkgs e s = (.ok (rEntries e), atSpbCheck e s) := Prod.ext hspb rfl
    have h₂ : exec (checkDeps (rEntries e) deps) e (atSpbCheck e s) = (.ok _, atDepsCheck e s deps) :=
      Prod.ext hok rfl
    rw [ranScript, installScript, exec_bind, h₁]
    simp only [exec_bind, h₂, exec_install]
  have hupdate : Extends (atDepsCheck e s deps).pkgLib (ranScript e deps s).pkgLib := by
    rw [hran, RState.add_pkgLib]
    exact e.grows _ _ _
  have hchecks : Extends (atSpbCheck e s).pkgLib (atDepsCheck e s deps).pkgLib :=
    extends_of_steady (steady_checkDeps allows_any)
  exact ⟨(checkSpbPkgs_ends.mp hspb).mono (hchecks.trans hupdate) rfl,
    (checkDeps_ends.mp hdeps).mono hupdate rfl rfl (List.Subset.refl deps)⟩

/-- Only remotes may be asked for again. -/
theorem allows_again (hspb : SpbValid e l) (hdeps : DepsInstalled e deps l) :
    Allows e l (fun pkgs : List Str => pkgs = [] ∨ pkgs = ["remotes"]) deps := by
  have hnone : ∀ s, Extends l s.pkgLib → pkgDeps e s deps = [] := by
    intro s hs
    rw [List.eq_nil_iff_forall_not_mem]
    intro p hp
    obtain ⟨hm, hR, hw, hl, hr⟩ := mem_pkgDeps.mp hp
    rcases hdeps p hm hR hw with hi | hi
    · exact hl (hs.installed hi)
    · exact hr hi
  refine ⟨.inr rfl, ?_, fun s hs => .inl (hnone s hs), ?_⟩
  · intro l' hl p hp hr he
    have hp' := hspb p hp
    rw [if_neg hr] at hp'
    exact absurd (l'.installed_sub (hl.installed hp')) he
  · intro s hs p hp
    rw [hnone s hs] at hp
    cases hp

/-- Once a run came to its end, the script comes to its end again for the same dependencies,
whatever other runs there are in between, and installs none of them and none of `SPB_pkgs`
again. -/
theorem runs_again (e : RSession) (s : RState) (deps : List Str) (hend : RunsToEnd e s deps)
    (xs : List (RSession × List Str)) (e' : RSession) (deps' : List Str)
    (hlibs : e'.rLibs = e.rLibs) (hwin : e'.windows = e.windows) (hsub : deps' ⊆ deps) :
    RunsToEnd e' (ranScripts (ranScript e deps s) xs) deps' ∧
      ∃ cs, (ranScript e' deps' (ranScripts (ranScript e deps s) xs)).calls =
          (ranScripts (ranScript e deps s) xs).calls ++ cs ∧
        ∀ (pkgs : List Str) source, .bioc pkgs source ∈ cs → pkgs = [] ∨ pkgs = ["remotes"] := by
  set s' := ranScripts (ranScript e deps s) xs
  have hx : Extends (ranScript e deps s).pkgLib s'.pkgLib := ranScripts_extends _ xs
  obtain ⟨hspb, hdeps⟩ := valid_ranScript hend
  have hspb' : SpbValid e' s'.pkgLib := hspb.mono hx hlibs
  have hdeps' : DepsInstalled e' deps' s'.pkgLib := hdeps.mono hx hlibs hwin hsub
  constructor
  · have hfirst : Extends s'.pkgLib (atSpbCheck e' s').pkgLib :=
      extends_of_steady (steady_checkSpbPkgs (allows_any : Allows e' s'.pkgLib _ deps'))
    have hsecond : Extends (atSpbCheck e' s').pkgLib (atDepsCheck e' s' deps').pkgLib :=
      extends_of_steady (steady_checkDeps allows_any)
    exact runsToEnd_iff_ends.mpr ⟨checkSpbPkgs_ends.mpr (hspb'.mono hfirst rfl),
      checkDeps_ends.mpr
        (hdeps'.mono (hfirst.trans hsecond) rfl rfl (List.Subset.refl deps'))⟩
  · have hs : Steady s'.pkgLib s'.calls (fun pkgs : List Str => pkgs = [] ∨ pkgs = ["remotes"]) s' :=
      ⟨.refl _, [], by simp, nofun⟩
    exact (steady_installScript (allows_again hspb' hdeps') s' hs).calls

end

/-- The packages come with the names they were asked for. -/
def PkgLibrary.with (l : PkgLibrary) (pkgs : List Str) : PkgLibrary where
  entries := l.entries ++ pkgs
  installed := l.installed ++ pkgs
  installed_sub _ hp := List.mem_append.mpr ((List.mem_append.mp hp).imp_left (l.installed_sub ·))

def asked : Install → List Str
  | .cran pkg => [pkg]
  | .bioc pkgs _ => pkgs
  | _ => []

/-- A node whose R library has all of `SPB_pkgs` but knitr; it builds from source. -/
def sourceNode : RSession where
  rLibs := [⟨spbPkgs.filter (· ≠ "knitr"), spbPkgs.filter (· ≠ "knitr"), List.Subset.refl _⟩]
  windows := false
  pkgType := "source"
  current := true
  add _ c l := l.with (asked c)
  grows _ _ _ := ⟨fun _ hp => List.mem_append_left _ hp, fun _ hp => List.mem_append_left _ hp⟩

def emptyLibrary : RState where
  pkgLib := ⟨[], [], nofun⟩

/-- The second commit has one more dependency. -/
def afterTwoCommits : RState :=
  ranScripts (ranScript sourceNode ["IRanges (>= 2.0)", "XVector"] emptyLibrary)
    [(sourceNode, ["IRanges", "XVector", "Biostrings"])]

theorem runs_again_afterTwoCommits : RunsToEnd sourceNode afterTwoCommits ["XVector"] ∧
    ∃ cs, (ranScript sourceNode ["XVector"] afterTwoCommits).calls = afterTwoCommits.calls ++ cs ∧
      ∀ (pkgs : List Str) source, .bioc pkgs source ∈ cs → pkgs = [] ∨ pkgs = ["remotes"] :=
  runs_again sourceNode emptyLibrary ["IRanges (>= 2.0)", "XVector"] ⟨(), by decide +kernel⟩
    [(sourceNode, ["IRanges", "XVector", "Biostrings"])] sourceNode ["XVector"] rfl rfl (by simp)

end PackageBuilder
