import PackageBuilder.Library.Triple
import PackageBuilder.Builder.ShellCommands
import PackageBuilder.Builder.Tarball

/-! The commands that a run of builder.py hands to the shell, in order. -/
namespace PackageBuilder
open Text Effect Shell

/-- The text in a command comes from the DESCRIPTION, or is the name of a tarball. -/
def ShellCommand.Given (env : Env) : ShellCommand → Prop
  | .packageType views => ∃ d : Dcf, env.description = .ok d ∧ d.get? "biocViews" = some views
  | .installDeps d => env.description = .ok d
  | .scp t | .check t | .biocCheck t | .buildUniversal (some t) =>
    isTarball (tarballPkgname env.manifest) t = true
  | _ => True

/-- Which command may come next before the exit handler. -/
inductive MayFollow : Option ShellCommand → ShellCommand → Prop
  | gitClone : MayFollow none .gitClone
  | packageType {views} : MayFollow (some .gitClone) (.packageType views)
  | installDeps {d} : MayFollow (some .gitClone) (.installDeps d)
  | installDepsTyped {views d} : MayFollow (some (.packageType views)) (.installDeps d)
  | checkgitclone {d} : MayFollow (some (.installDeps d)) .checkgitclone
  | installPkg : MayFollow (some .checkgitclone) .installPkg
  | build : MayFollow (some .installPkg) .build
  | scp {t} : MayFollow (some .build) (.scp t)
  | check {t} : MayFollow (some .build) (.check t)
  | checkCopied {t t'} : MayFollow (some (.scp t)) (.check t')
  | biocCheck {t} : MayFollow (some (.check t)) (.biocCheck t)
  | buildUniversal {t o} : MayFollow (some (.biocCheck t)) (.buildUniversal o)

/-- The commands of a run, each after one that it may follow. -/
inductive Ran (env : Env) : List ShellCommand → Prop
  | start : Ran env []
  | next {ks k} : Ran env ks → MayFollow ks.getLast? k → k.Given env → Ran env (ks ++ [k])

/-- The run so far, whose last command has `p`. -/
def Ordered (env : Env) (p : Option ShellCommand → Prop) (s : St) : Prop :=
  ∃ ks, s.commands = ks.map (ShellCommand.text env) ∧ Ran env ks ∧ p ks.getLast?

/-- From a last command with `p`, the program returns with `Q` or raises. -/
abbrev From {α : Type} (env : Env) (w : World) (p : Option ShellCommand → Prop) (m : Builder α)
    (Q : α → St → Prop) : Prop :=
  Triple (env, w) (Ordered env p) m Q (Ordered env fun _ => True)

/-- The program goes on from a last command with `p` to one with `q`, or raises. -/
abbrev Proceeds {α : Type} (env : Env) (w : World) (p : Option ShellCommand → Prop) (m : Builder α)
    (q : Option ShellCommand → Prop) : Prop :=
  From env w p m fun _ => Ordered env q

class Mute {α : Type} (m : Builder α) : Prop where
  same : ∀ r s, (exec m r s).2.commands = s.commands

section
variable {α β : Type} {m : Builder α} {k : α → Builder β} {msg : Event} {name : Str}

instance (a : α) : Mute (pure a : Builder α) := ⟨fun _ _ => rfl⟩
instance (e : Exn) : Mute (throw e : Builder α) := ⟨fun _ _ => rfl⟩
instance : Mute environment := ⟨fun _ _ => rfl⟩
instance : Mute (get : Builder St) := ⟨fun _ _ => rfl⟩
instance : Mute (openW name) := ⟨fun _ _ => rfl⟩
instance : Mute (modify fun s => s.removed name) := ⟨fun _ _ => rfl⟩
instance : Mute (osPathExists name) := ⟨fun _ _ => rfl⟩

instance : Mute getSourceTarballName where
  same r s := by
    rw [exec_getSourceTarballName]
    split <;> rfl

instance [hm : Mute m] [hk : ∀ a, Mute (k a)] : Mute (m >>= k) where
  same r s := by
    have h := hm.same r s
    simp only [exec_bind]
    rcases hx : exec m r s with ⟨_ | a, s'⟩ <;> rw [hx] at h
    · exact h
    · exact ((hk a).same r s').trans h

instance (c : Prop) [Decidable c] (m n : Builder α) [hm : Mute m] [hn : Mute n] :
    Mute (if c then m else n) := by
  split
  · exact hm
  · exact hn

instance : Mute (modify fun s => s.opened name) := ⟨fun _ _ => rfl⟩
instance : Mute (osRemove name) := by unfold osRemove; infer_instance
instance : Mute (osMkdir name) := by unfold osMkdir; infer_instance
instance : Mute (removeExisting name) := by unfold removeExisting; infer_instance
instance : Mute (makeMissing name) := by unfold makeMissing; infer_instance
instance : Mute (osPathGetsize name) := by unfold osPathGetsize; infer_instance
instance : Mute (writeName name) := by unfold writeName; infer_instance

theorem mute_environment {k : Env → Builder β} (h : ∀ env, Mute (k env)) :
    Mute (environment >>= k) :=
  inferInstance

instance : Mute (sendMessage msg) where
  same r s := by
    rcases exec_sendMessage msg r.1 r.2 s with ⟨h, -⟩ | ⟨⟨e, h⟩, -⟩ <;> rw [h] <;> rfl

instance : Mute interrupted where
  same r s := by
    rw [exec_interrupted]

instance (f : Exn → Builder α) [hm : Mute m] [hf : ∀ e, Mute (f e)] : Mute (tryCatch m f) where
  same r s := by
    have h := hm.same r s
    simp only [exec_tryCatch]
    rcases hx : exec m r s with ⟨e | _, s'⟩ <;> rw [hx] at h
    · exact ((hf e).same r s').trans h
    · exact h

end

instance : Mute checkVersion := by
  unfold checkVersion
  exact mute_environment fun env => by split <;> infer_instance

instance : Mute parseDcf := by
  unfold parseDcf
  exact mute_environment fun env => by split <;> infer_instance

instance (d : Dcf) (key : Str) : Mute (lookupKey d key) := by
  unfold lookupKey; split <;> infer_instance

instance : Mute getNodeInfo := by unfold getNodeInfo; infer_instance
instance (d : Dcf) : Mute (sendDcfInfo d) := by unfold sendDcfInfo; dsimp only; infer_instance
instance : Mute readDcfInfo := by unfold readDcfInfo; infer_instance
instance (body : Str) : Mute (reportDcfFailure body) := by unfold reportDcfFailure; infer_instance
instance : Mute dcfUnreadable := by unfold dcfUnreadable; infer_instance

instance (name : Str) : Mute (checkDescName name) := by
  unfold checkDescName; dsimp only; infer_instance

instance (url : Str) : Mute (modify fun s => s.onUrl url) := ⟨fun _ _ => rfl⟩
instance (views : Str) (b : Bool) : Mute (modify fun s => s.typed views b) := ⟨fun _ _ => rfl⟩
instance (out : Str) : Mute (modify fun s => s.built out) := ⟨fun _ _ => rfl⟩
instance (b : Bool) : Mute (modify fun s => s.warned b) := ⟨fun _ _ => rfl⟩
instance (n : Int) : Mute (modify fun s => s.cloneChecked n) := ⟨fun _ _ => rfl⟩

instance (views : Str) (b : Bool) : Mute (setPackageType views b) := by
  unfold setPackageType; infer_instance

instance : Mute getDcfInfo := by unfold getDcfInfo; infer_instance
instance : Mute checkPlatform := by unfold checkPlatform; infer_instance
instance (name : Str) : Mute (openFresh name) := by unfold openFresh; infer_instance
instance : Mute sendNormalEnd := by unfold sendNormalEnd; dsimp only; infer_instance
instance (t : Option Str) : Mute (tarballStem t) := by unfold tarballStem; split <;> infer_instance
instance (n : Int) (b : Bool) : Mute (warntimeNote n b) := by unfold warntimeNote; infer_instance
instance (p : Process) : Mute (readGitClone p) := by unfold readGitClone; infer_instance

section
variable {env : Env} {w : World} {α β : Type} {m : Builder α} {f : α → Builder β}
  {p q q' : Option ShellCommand → Prop} {Q : β → St → Prop} {k : ShellCommand} {o : Option Str}

theorem Ordered.any {s : St} (h : Ordered env p s) : Ordered env (fun _ => True) s := by
  obtain ⟨ks, hs, hr, -⟩ := h
  exact ⟨ks, hs, hr, trivial⟩

theorem mute_keeps (P : List Str → Prop) [hm : Mute m] :
    Keeps (fun s => P s.commands) (env, w) m := by
  intro s hs
  rw [hm.same]
  exact hs

theorem mute [Mute m] : Proceeds env w p m p :=
  .of_keeps (mute_keeps fun cs => ∃ ks : List ShellCommand,
    cs = ks.map (ShellCommand.text env) ∧ Ran env ks ∧ p ks.getLast?) fun _ => Ordered.any

theorem Proceeds.weaken (h : Proceeds env w p m q) (hq : ∀ last, q last → q' last) :
    Proceeds env w p m q' := by
  refine Triple.mono h (fun _ hs => hs) ?_ fun _ hs => hs
  rintro _ s ⟨ks, hs, hr, hl⟩
  exact ⟨ks, hs, hr, hq _ hl⟩

theorem mute_to [Mute m] (hq : ∀ last, p last → q last) : Proceeds env w p m q :=
  Proceeds.weaken mute hq

/-- A program without a command, and what is known of the value it returns. -/
theorem mute_bind [Mute m] {V : α → Prop} (hV : ∀ s a, (exec m (env, w) s).1 = .ok a → V a)
    (hf : ∀ a, V a → From env w p (f a) Q) : From env w p (m >>= f) Q := by
  refine Triple.bind (mute.returns hV) fun a => ?_
  rintro s ⟨ha, hs⟩
  exact hf a ha s hs

theorem environment_bind {f : Env → Builder β} {P E : St → Prop}
    (hf : Triple (env, w) P (f env) Q E) : Triple (env, w) P (environment >>= f) Q E :=
  fun s hs => hf s hs

theorem call_proceeds {process : Process} (hk : ∀ last, p last → MayFollow last k)
    (hg : k.Given env) : Proceeds env w p (call (k.text env) process) (· = some k) := by
  rintro s ⟨ks, hs, hr, hp⟩
  have hran : Ordered env (· = some k) (s.ran (k.text env) process.leaves) :=
    ⟨ks ++ [k], by simp [hs], .next hr (hk _ hp) hg, by simp⟩
  rcases he : env.refuses (k.text env) with _ | e
  · rw [exec_call he]
    refine ⟨?_, nofun⟩
    rintro _ ⟨⟩
    exact hran
  · rw [exec_call_refused he]
    exact ⟨nofun, fun _ _ => ⟨ks, hs, hr, trivial⟩⟩

theorem parseDcf_bind {f : Dcf → Builder β}
    (hf : ∀ d, env.description = .ok d → From env w p (f d) Q) :
    From env w p (parseDcf >>= f) Q := by
  refine mute_bind (V := fun d => env.description = .ok d) ?_ hf
  intro s d h
  rcases hd : env.description with e | d' <;> simp [parseDcf, exec_bind, environment, hd] at h
  rw [h]

/-- What is found is the name of a tarball. -/
theorem tarball_bind {f : Option Str → Builder β}
    (hf : ∀ o : Option Str, (∀ t, o = some t → isTarball (tarballPkgname env.manifest) t = true) →
      From env w p (f o) Q) :
    From env w p (getSourceTarballName >>= f) Q := by
  refine mute_bind (V := fun o : Option Str =>
    ∀ t, o = some t → isTarball (tarballPkgname env.manifest) t = true) ?_ hf
  intro s o ho t ht
  rw [exec_getSourceTarballName] at ho
  split at ho
  · cases ho
  · cases ho
    exact (of_tarballIn ht).2

theorem reported_proceeds {start : Str} {finish : Int → Str} {run : Builder Int}
    (h : Proceeds env w p run q) : Proceeds env w p (reported start finish run) q :=
  mute.bind fun _ => h.bind fun _ => mute

theorem gitClone_proceeds : Proceeds env w (· = none) gitClone (· = some .gitClone) := by
  refine environment_bind <| mute.bind fun _ => mute.bind fun _ => ?_
  refine (call_proceeds (k := .gitClone) ?_ trivial).bind fun _ => mute
  rintro _ rfl
  exact .gitClone

theorem checkOutput_proceeds {process : Process} (hk : ∀ last, p last → MayFollow last k)
    (hg : k.Given env) : Proceeds env w p (checkOutput (k.text env) process) (· = some k) :=
  (call_proceeds hk hg).bind fun _ => mute

/-- After the type of the package is known. -/
def Typed (last : Option ShellCommand) : Prop :=
  last = some .gitClone ∨ ∃ views, last = some (.packageType views)

theorem guessPackageType_proceeds {d : Dcf} (hd : env.description = .ok d) :
    Proceeds env w (· = some .gitClone) (guessPackageType d) Typed := by
  refine environment_bind ?_
  rcases hv : d.get? "biocViews" with _ | views
  · exact mute_to fun _ h => .inl h
  · refine (checkOutput_proceeds (k := .packageType views) ?_ ⟨d, hd, hv⟩).bind fun _ => ?_
    · rintro _ rfl
      exact .packageType
    · exact mute_to fun _ h => .inr ⟨views, h⟩

theorem getPackageType_proceeds : Proceeds env w (· = some .gitClone) getPackageType Typed := by
  have hnone : ∀ {α : Type} {m : Builder α} [Mute m],
      Proceeds env w (· = some .gitClone) m Typed :=
    mute_to fun _ h => .inl h
  refine environment_bind <| parseDcf_bind fun d hd => mute.bind fun _ => ?_
  refine .ite (fun _ => hnone) fun _ => .ite (fun _ => hnone) fun _ => ?_
  refine .ite (fun _ => hnone) fun _ => ?_
  exact (guessPackageType_proceeds hd).bind fun _ => mute

theorem installPkgDeps_proceeds :
    Proceeds env w Typed installPkgDeps (fun last => ∃ d, last = some (.installDeps d)) := by
  refine environment_bind <| parseDcf_bind fun d hd => reported_proceeds ?_
  refine Proceeds.weaken (call_proceeds (k := .installDeps d) ?_ hd) fun _ h => ⟨d, h⟩
  rintro _ (rfl | ⟨views, rfl⟩)
  · exact .installDeps
  · exact .installDepsTyped

theorem checkgitclone_proceeds : Proceeds env w (fun last => ∃ d, last = some (.installDeps d))
    checkgitclone (· = some .checkgitclone) := by
  refine environment_bind <| reported_proceeds <| mute.bind fun _ => ?_
  refine call_proceeds (k := .checkgitclone) ?_ trivial
  rintro _ ⟨d, rfl⟩
  exact .checkgitclone

theorem installPkg_proceeds :
    Proceeds env w (· = some .checkgitclone) installPkg (· = some .installPkg) := by
  refine environment_bind <| reported_proceeds <| call_proceeds (k := .installPkg) ?_ trivial
  rintro _ rfl
  exact .installPkg

theorem doBuild_proceeds {b : Bool} (hk : ∀ last, p last → MayFollow last k) (hg : k.Given env) :
    Proceeds env w p (doBuild (k.text env) b) (· = some k) :=
  environment_bind <| mute.bind fun _ => (call_proceeds hk hg).bind fun _ => mute

theorem runBuild_proceeds {b : Bool} {pkgType : Str}
    (hw : ¬ ((!b && pkgType = "win.binary") = true)) (hk : ∀ last, p last → MayFollow last k)
    (hg : k.Given env) :
    Proceeds env w p (runBuild b pkgType (some (k.text env))) (· = some k) := by
  rw [runBuild, if_neg hw]
  exact mute.bind fun _ => doBuild_proceeds hk hg

/-- After a build that may have been copied. -/
def Built (last : Option ShellCommand) : Prop := last = some .build ∨ ∃ t, last = some (.scp t)

theorem uploadTarball_proceeds
    (ho : ∀ t, o = some t → isTarball (tarballPkgname env.manifest) t = true) :
    Proceeds env w (· = some .build) (uploadTarball o) Built := by
  refine environment_bind ?_
  cases o with
  | none => exact .throw fun _ => Ordered.any
  | some t =>
    refine mute.bind fun _ => mute.bind fun _ => ?_
    refine (call_proceeds (k := .scp t) ?_ (ho t rfl)).bind fun _ => ?_
    · rintro _ rfl
      exact .scp
    · exact mute_to fun _ h => .inr ⟨t, h⟩

theorem reportBuild_proceeds {n : Int} :
    Proceeds env w (· = some .build) (reportBuild true n) Built := by
  refine environment_bind <| mute.bind fun _ => mute.bind fun _ => mute.bind fun _ => ?_
  refine mute.bind fun _ => tarball_bind fun o ho => .ite (fun _ => ?_) fun _ => ?_
  · exact (uploadTarball_proceeds ho).bind fun _ => mute
  · exact mute_to fun _ h => .inl h

/-- The binary build is not copied. -/
theorem reportBuild_mute {n : Int} : Proceeds env w p (reportBuild false n) p := by
  refine environment_bind <| mute.bind fun _ => mute.bind fun _ => mute.bind fun _ => ?_
  refine mute.bind fun _ => mute.bind fun _ => .ite (fun h => ?_) fun _ => mute
  simp at h

theorem buildCommand_source {pkgType : Str} : From env w p (buildCommand true pkgType) fun rCmd s =>
    rCmd = some (ShellCommand.build.text env) ∧ Ordered env p s :=
  environment_bind <| .ite (fun _ => .pure fun _ hs => ⟨rfl, hs⟩) fun h => absurd rfl h

theorem buildPackage_proceeds :
    Proceeds env w (· = some .installPkg) (buildPackage true) Built := by
  refine environment_bind <| .ite (fun h => ?_) fun _ => .ite (fun _ => ?_) fun h => ?_
  · simp at h
  · refine Triple.bind (buildCommand_source (p := (· = some .installPkg))) fun rCmd => ?_
    rintro s ⟨rfl, hs⟩
    refine (mute.bind fun _ => (runBuild_proceeds (k := .build) (by simp) ?_ trivial).bind fun _ =>
      reportBuild_proceeds) s hs
    rintro _ rfl
    exact .build
  · simp at h

/-- After the package was checked. -/
def Checked (last : Option ShellCommand) : Prop := ∃ t, last = some (.biocCheck t)

theorem callCommand_raises (hs : env.system ≠ .windows) {cmd : Str} {R : Int → St → Prop} :
    From env w p (callCommand cmd false) R := by
  refine environment_bind <| .ite (fun h => absurd h hs) fun _ => .ite (fun h => ?_) fun _ => ?_
  · simp at h
  · exact .throw fun _ => Ordered.any

theorem buildCommand_universal (hs : env.system ≠ .windows) :
    From env w p (buildCommand false "mac.binary") fun rCmd s =>
      (∃ o, rCmd = some ((ShellCommand.buildUniversal o).text env) ∧
        (ShellCommand.buildUniversal o).Given env) ∧ Ordered env p s := by
  refine environment_bind <| .ite (fun h => ?_) fun _ => .ite (fun _ => ?_) fun h => absurd rfl h
  · simp at h
  · refine mute.bind fun there => .ite (fun _ => ?_) fun _ => ?_
    · exact Triple.bind (callCommand_raises hs (R := fun _ _ => False)) fun _ _ h => h.elim
    · refine mute.bind fun _ => tarball_bind fun o ho => .pure fun s hs => ⟨⟨o, rfl, ?_⟩, hs⟩
      cases o with
      | none => trivial
      | some t => exact ho t rfl

theorem buildCommand_none : From env w p (buildCommand false "source") fun rCmd s =>
    rCmd = none ∧ Ordered env p s := by
  refine environment_bind <| .ite (fun h => ?_) fun _ => .ite (fun h => ?_) fun _ => ?_
  · simp at h
  · exact absurd h (by decide)
  · exact .pure fun _ hs => ⟨rfl, hs⟩

theorem buildbin_proceeds (hs : env.system ≠ .windows) :
    Proceeds env w Checked (buildPackage false) fun _ => True := by
  refine environment_bind <| .ite (fun _ => ?_) fun _ => .ite (fun h => ?_) fun _ => ?_
  · exact mute_to fun _ _ => trivial
  · simp at h
  refine mute.bind fun _ => ?_
  by_cases hd : env.system = .darwin
  · have ht : binaryType env.system = "mac.binary" := by rw [hd, binaryType]
    rw [ht]
    refine Triple.bind (buildCommand_universal hs) fun rCmd => ?_
    rintro s ⟨⟨o, rfl, ho⟩, hs⟩
    refine (mute.bind fun _ => (runBuild_proceeds (k := .buildUniversal o) (by decide) ?_ ho).bind
      fun _ => ?_) s hs
    · rintro _ ⟨t, rfl⟩
      exact .buildUniversal
    · exact Proceeds.weaken reportBuild_mute fun _ _ => trivial
  · have ht : binaryType env.system = "source" := by
      rcases he : env.system <;> simp_all [binaryType]
    rw [ht]
    refine Triple.bind (buildCommand_none (p := Checked)) fun rCmd => ?_
    rintro s ⟨rfl, hs⟩
    exact (mute.bind fun _ => .throw_bind fun _ => Ordered.any) s hs

theorem doCheck_proceeds {t : Str} (ht : isTarball (tarballPkgname env.manifest) t = true) :
    Proceeds env w Built (doCheck (checkCmd env t) (biocCheckCmd env t))
      (· = some (.biocCheck t)) := by
  refine environment_bind <| mute.bind fun _ => mute.bind fun _ => mute.bind fun _ => ?_
  refine mute.bind fun _ => mute.bind fun _ => mute.bind fun _ => mute.bind fun _ => ?_
  refine (call_proceeds (k := .check t) ?_ ht).bind fun _ => ?_
  · rintro _ (rfl | ⟨t', rfl⟩)
    · exact .check
    · exact .checkCopied
  refine mute.bind fun _ => mute.bind fun _ => mute.bind fun _ => ?_
  refine (call_proceeds (k := .biocCheck t) ?_ ht).bind fun _ => mute
  rintro _ rfl
  exact .biocCheck

theorem checkPackage_proceeds : Proceeds env w Built checkPackage Checked := by
  refine environment_bind <| mute.bind fun _ => tarball_bind fun o ho => ?_
  cases o with
  | none => exact .throw_bind fun _ => Ordered.any
  | some t =>
    refine mute.bind fun _ => mute.bind fun _ => mute.bind fun _ => ?_
    refine (doCheck_proceeds (ho t rfl)).bind fun _ => ?_
    exact mute_to fun _ h => ⟨t, h⟩

theorem checkAndFinish_proceeds (hs : env.system ≠ .windows) :
    Proceeds env w Built checkAndFinish fun _ => True :=
  mute.bind fun _ => checkPackage_proceeds.bind fun _ => (buildbin_proceeds hs).bind fun _ => mute

theorem buildAndCheck_proceeds (hs : env.system ≠ .windows) :
    Proceeds env w (· = some .gitClone) buildAndCheck fun _ => True := by
  refine mute.bind fun _ => getPackageType_proceeds.bind fun _ => ?_
  refine installPkgDeps_proceeds.bind fun _ => checkgitclone_proceeds.bind fun _ => ?_
  refine mute.bind fun _ => installPkg_proceeds.bind fun _ => ?_
  refine buildPackage_proceeds.bind fun _ => .ite (fun _ => checkAndFinish_proceeds hs) fun _ => ?_
  exact mute_to fun _ _ => trivial

theorem main_proceeds (hs : env.system ≠ .windows) :
    Proceeds env w (· = none) main fun _ => True := by
  have hfetch : Proceeds env w (· = none) fetchPackage (· = some .gitClone) :=
    mute.bind fun _ => mute.bind fun _ => mute.bind fun _ => gitClone_proceeds
  exact hfetch.bind fun _ => mute.bind fun _ => buildAndCheck_proceeds hs

/-- After the commands `cs`, the exit handler has run some of `l`. -/
def Exits (env : Env) (cs : List Str) (l : List ShellCommand) (s : St) : Prop :=
  ∃ xs : List ShellCommand, xs.Sublist l ∧ s.commands = cs ++ xs.map (ShellCommand.text env)

def exitCommands : List ShellCommand := [.removeLibdir, .removeClone]

variable {cs : List Str} {l : List ShellCommand}

theorem mute_exits [Mute m] (hl : l.Sublist exitCommands) : Triple (env, w) (Exits env cs l) m
    (fun _ => Exits env cs l) (Exits env cs exitCommands) := by
  refine .of_keeps (mute_keeps fun cmds => ∃ xs : List ShellCommand, xs.Sublist l ∧
    cmds = cs ++ xs.map (ShellCommand.text env)) ?_
  rintro s ⟨xs, hx, he⟩
  exact ⟨xs, hx.trans hl, he⟩

theorem osSystem_exits : Triple (env, w) (Exits env cs l) (osSystem (k.text env))
    (fun _ => Exits env cs (l ++ [k])) (Exits env cs exitCommands) := by
  rintro s ⟨xs, hx, he⟩
  refine ⟨fun _ _ => ⟨xs ++ [k], hx.append_right [k], ?_⟩, nofun⟩
  simp [osSystem, exec_bind, environment, he]

theorem Exits.mono {l' : List ShellCommand} {s : St} (h : Exits env cs l s) (hl : l.Sublist l') :
    Exits env cs l' s := by
  obtain ⟨xs, hx, he⟩ := h
  exact ⟨xs, hx.trans hl, he⟩

theorem cleanUpDarwin_exits {pathTar : Str} : Triple (env, w) (Exits env cs [])
    (cleanUpDarwin pathTar) (fun _ => Exits env cs [.removeLibdir])
    (Exits env cs exitCommands) := by
  refine Triple.bind (mute_exits (by simp)) fun _ => .bind (mute_exits (by simp)) fun there => ?_
  refine .ite (fun _ => osSystem_exits (k := .removeLibdir)) fun _ => ?_
  exact .pure fun s hs => hs.mono (by simp)

theorem cleanUpDir_exits (hs : env.system ≠ .windows) : Triple (env, w) (Exits env cs [])
    cleanUpDir (fun _ => Exits env cs exitCommands) (Exits env cs exitCommands) := by
  have hlast : Triple (env, w) (Exits env cs [.removeLibdir]) (do
      if ← osPathExists env.manifest.packageName then
        osSystem ("rm -rf " ++ env.manifest.packageName)) (fun _ => Exits env cs exitCommands)
      (Exits env cs exitCommands) := by
    refine Triple.bind (mute_exits (by simp [exitCommands])) fun there => ?_
    refine .ite (fun _ => ?_) fun _ => ?_
    · exact osSystem_exits (k := .removeClone)
    · exact .pure fun s hs => hs.mono (by simp [exitCommands])
  refine environment_bind <| .bind (mute_exits (by simp)) fun o => ?_
  refine .bind (mute_exits (by simp)) fun _ => ?_
  refine .ite (fun h => absurd h hs) fun _ => .ite (fun _ => ?_) fun _ => ?_
  · exact cleanUpDarwin_exits.bind fun _ => hlast
  · exact hlast.mono (fun s hs => hs.mono (by simp)) (fun _ _ h => h) fun _ h => h

theorem onexit_exits (hs : env.system ≠ .windows) :
    Triple (env, w) (Exits env cs []) onexit (fun _ => Exits env cs exitCommands)
      (Exits env cs exitCommands) := by
  have hexits : Mute (modify fun s => s.exits) := ⟨fun _ _ => rfl⟩
  refine .bind (mute_exits (by simp)) fun _ => .bind (mute_exits (by simp)) fun _ => ?_
  exact (cleanUpDir_exits hs).bind fun _ => mute_exits (List.Sublist.refl _)

def ShellCommand.place : ShellCommand → Nat
  | .gitClone => 0
  | .packageType _ => 1
  | .installDeps _ => 2
  | .checkgitclone => 3
  | .installPkg => 4
  | .build => 5
  | .scp _ => 6
  | .check _ => 7
  | .biocCheck _ => 8
  | .buildUniversal _ => 9
  | .removeLibdir => 10
  | .removeClone => 11

theorem mayFollow_place {k' : ShellCommand} (h : MayFollow (some k) k') : k.place < k'.place := by
  cases h <;> simp [ShellCommand.place]

/-- What follows the last command follows all of them. -/
theorem Ran.before {ks : List ShellCommand} (h : Ran env ks) :
    (ks.map ShellCommand.place).Pairwise (· < ·) ∧
      ∀ k', MayFollow ks.getLast? k' → ∀ k ∈ ks, k.place < k'.place := by
  induction h with
  | start => exact ⟨.nil, nofun⟩
  | @next ks k hr hf hg ih =>
    obtain ⟨hpair, hlast⟩ := ih
    constructor
    · simpa [List.pairwise_append, hpair] using hlast k hf
    · intro k' hk' x hx
      have hlt : k.place < k'.place := mayFollow_place (by simpa using hk')
      rcases List.mem_append.mp hx with hx | hx
      · have := hlast k hf x hx
        omega
      · obtain rfl := List.mem_singleton.mp hx
        exact hlt

/-- On a node with a shell by the rules of POSIX, the commands of a run are in a fixed order, each
at most once, and two more may come from the exit handler, whatever happens in the run; and the
shell makes of all of them what is meant if and only if the text in each of them means itself. -/
theorem run_commands (hc : Configured env) (hs : env.system ≠ .windows) (w : World)
    (cwd : List Str) : ∃ ks xs,
      (builderRun env w cwd).commands = (ks ++ xs).map (ShellCommand.text env) ∧
      Ran env ks ∧ (ks.map ShellCommand.place).Pairwise (· < ·) ∧ xs.Sublist exitCommands ∧
      ∀ stays : ShellCommand → List (Char × Bool) → Bool,
        (∀ k ∈ ks ++ xs, parse (stays k) (k.text env) = some (k.lexemes env)) ↔
          ∀ k ∈ ks ++ xs, k.Literal env (stays k) := by
  have hstart : Ordered env (· = none) { cwd } := ⟨[], rfl, .start, rfl⟩
  obtain ⟨ks, hks, hran, -⟩ := (main_proceeds (w := w) hs).state (fun _ _ h => h) hstart
  have hexit : Exits env (ks.map (ShellCommand.text env)) [] (exec main (env, w) { cwd }).2 :=
    ⟨[], List.Sublist.refl _, by simp [hks]⟩
  obtain ⟨xs, hxs, hrun⟩ := (onexit_exits (w := w) hs).state (fun _ _ h => h) hexit
  refine ⟨ks, xs, by simp [builderRun, hrun], hran, hran.before.1, hxs, fun stays => ?_⟩
  exact forall₂_congr fun k _ => reads_iff hc hs k

theorem run_commands_spbtest : ∃ ks xs,
    (builderRun spbtest {} []).commands = (ks ++ xs).map (ShellCommand.text spbtest) ∧
      Ran spbtest ks ∧ (ks.map ShellCommand.place).Pairwise (· < ·) ∧ xs.Sublist exitCommands ∧
      ∀ stays : ShellCommand → List (Char × Bool) → Bool,
        (∀ k ∈ ks ++ xs, parse (stays k) (k.text spbtest) = some (k.lexemes spbtest)) ↔
          ∀ k ∈ ks ++ xs, k.Literal spbtest (stays k) :=
  run_commands (by decide +kernel) (by decide) {} []

end
end PackageBuilder
