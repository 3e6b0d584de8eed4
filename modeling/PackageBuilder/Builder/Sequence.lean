import PackageBuilder.Builder.Build

/-! Every stage of builder.py is a sequence of a few primitive steps, and so is everything
around the one handler in `get_dcf_info`. -/
namespace PackageBuilder
open Text Effect

/-- The steps that look at the world or leave a trace, and changes of the rest of the state. -/
inductive Primitive : (α : Type) → Builder α → Prop
  | environment : Primitive Env environment
  | state : Primitive St get
  | change (f : St → St) : (∀ s, (f s).events = s.events) → (∀ s, (f s).sends = s.sends) →
    (∀ s, (f s).named = s.named) → Primitive Unit (modify f)
  | send (msg : Event) : Primitive Unit (sendMessage msg)
  | tarball : Primitive (Option Str) getSourceTarballName
  | interrupted : Primitive Unit interrupted

abbrev Sequential {α : Type} (m : Builder α) : Prop := Composed Primitive m

instance : Sequential environment := .prim .environment
instance : Sequential (get : Builder St) := .prim .state
instance (msg : Event) : Sequential (sendMessage msg) := .prim (.send msg)

theorem sequential_environment {α : Type} {k : Env → Builder α} (h : ∀ env, Sequential (k env)) :
    Sequential (environment >>= k) :=
  composed_bind environment k

section
variable (name cmd : Str) (leaves : List Str → List Str) (p : Process) (b : Bool) (n : Int)

instance : Sequential (modify fun s => s.onUrl name) :=
  .prim (.change _ (fun _ => rfl) (fun _ => rfl) fun _ => rfl)
instance : Sequential (modify fun s => s.typed name b) :=
  .prim (.change _ (fun _ => rfl) (fun _ => rfl) fun _ => rfl)
instance : Sequential (modify fun s => s.built name) :=
  .prim (.change _ (fun _ => rfl) (fun _ => rfl) fun _ => rfl)
instance : Sequential (modify fun s => s.warned b) :=
  .prim (.change _ (fun _ => rfl) (fun _ => rfl) fun _ => rfl)
instance : Sequential (modify fun s => s.cloneChecked n) :=
  .prim (.change _ (fun _ => rfl) (fun _ => rfl) fun _ => rfl)
instance : Sequential (modify fun s => s.called) :=
  .prim (.change _ (fun _ => rfl) (fun _ => rfl) fun _ => rfl)
instance : Sequential (modify fun s => s.exits) :=
  .prim (.change _ (fun _ => rfl) (fun _ => rfl) fun _ => rfl)
instance : Sequential (modify fun s => s.ran cmd leaves) :=
  .prim (.change _ (fun _ => rfl) (fun _ => rfl) fun _ => rfl)
instance : Sequential (openW name) := .prim (.change _ (fun _ => rfl) (fun _ => rfl) fun _ => rfl)
instance : Sequential (modify fun s => s.opened name) :=
  .prim (.change _ (fun _ => rfl) (fun _ => rfl) fun _ => rfl)
instance : Sequential (modify fun s => s.removed name) :=
  .prim (.change _ (fun _ => rfl) (fun _ => rfl) fun _ => rfl)
instance : Sequential (osPathExists name) := by unfold osPathExists; infer_instance
instance : Sequential (osRemove name) := by unfold osRemove; infer_instance
instance : Sequential (removeExisting name) := by unfold removeExisting; infer_instance
instance : Sequential (osMkdir name) := by unfold osMkdir; infer_instance
instance : Sequential (osPathGetsize name) := by unfold osPathGetsize; infer_instance
instance : Sequential (makeMissing name) := by unfold makeMissing; infer_instance
instance : Sequential (writeName name) := by unfold writeName; infer_instance

instance : Sequential (call cmd p) := by
  unfold call
  refine sequential_environment fun env => ?_
  split <;> infer_instance

instance : Sequential (osSystem cmd) := by unfold osSystem; infer_instance
instance : Sequential (callCommand cmd b) := by unfold callCommand; dsimp only; infer_instance
instance : Sequential (openFresh name) := by unfold openFresh; infer_instance

end

set_option synthInstance.maxSize 8000

instance : Sequential checkVersion := by
  unfold checkVersion
  refine sequential_environment fun env => ?_
  split <;> infer_instance

instance : Sequential getNodeInfo := by unfold getNodeInfo; infer_instance
instance : Sequential gitClone := by unfold gitClone; dsimp only; infer_instance
instance : Sequential fetchPackage := by unfold fetchPackage; infer_instance
instance : Sequential checkPlatform := by unfold checkPlatform; infer_instance

instance : Sequential parseDcf := by
  unfold parseDcf
  refine sequential_environment fun env => ?_
  split <;> infer_instance

instance (d : Dcf) (key : Str) : Sequential (lookupKey d key) := by
  unfold lookupKey; split <;> infer_instance

instance (d : Dcf) : Sequential (sendDcfInfo d) := by unfold sendDcfInfo; dsimp only; infer_instance

instance : Sequential interrupted := .prim .interrupted
instance : Sequential readDcfInfo := by unfold readDcfInfo; infer_instance

instance (body : Str) : Sequential (reportDcfFailure body) := by
  unfold reportDcfFailure; infer_instance

instance : Sequential dcfUnreadable := by unfold dcfUnreadable; infer_instance

instance (descName : Str) : Sequential (checkDescName descName) := by
  unfold checkDescName; dsimp only; infer_instance

instance (cmd : Str) (p : Process) : Sequential (checkOutput cmd p) := by
  unfold checkOutput; infer_instance

instance (views : Str) (long : Bool) : Sequential (setPackageType views long) := by
  unfold setPackageType; infer_instance

instance (d : Dcf) : Sequential (guessPackageType d) := by
  unfold guessPackageType
  refine sequential_environment fun env => ?_
  split <;> infer_instance

instance : Sequential getPackageType := by unfold getPackageType; dsimp only; infer_instance

instance (start : Str) (finish : Int → Str) (run : Builder Int) [Sequential run] :
    Sequential (reported start finish run) := by
  unfold reported; infer_instance

instance : Sequential installPkgDeps := by unfold installPkgDeps; infer_instance
instance : Sequential checkgitclone := by unfold checkgitclone; infer_instance
instance : Sequential installPkg := by unfold installPkg; infer_instance

instance : Sequential getSourceTarballName := .prim .tarball

instance (tarball : Option Str) : Sequential (tarballStem tarball) := by
  unfold tarballStem; split <;> infer_instance

instance (cmd : Str) (b : Bool) : Sequential (doBuild cmd b) := by
  unfold doBuild; dsimp only; infer_instance

instance : Sequential winBuildbin := by unfold winBuildbin; dsimp only; infer_instance

instance (b : Bool) (pkgType : Str) : Sequential (buildCommand b pkgType) := by
  unfold buildCommand; dsimp only; infer_instance

instance (b : Bool) (pkgType : Str) (cmd : Option Str) : Sequential (runBuild b pkgType cmd) := by
  unfold runBuild
  split
  · infer_instance
  · split <;> infer_instance

instance (tarname : Option Str) : Sequential (uploadTarball tarname) := by
  unfold uploadTarball
  refine sequential_environment fun env => ?_
  split <;> infer_instance

instance (b : Bool) (n : Int) : Sequential (reportBuild b n) := by
  unfold reportBuild; dsimp only; infer_instance

instance (b : Bool) (pkgType : Str) (cmd : Option Str) :
    Sequential (completeBuild b pkgType cmd) := by
  unfold completeBuild; infer_instance

instance (b : Bool) : Sequential (buildPackage b) := by
  unfold buildPackage; dsimp only; infer_instance

instance (p : Process) : Sequential (readGitClone p) := by unfold readGitClone; infer_instance

instance (n : Int) (slow : Bool) : Sequential (warntimeNote n slow) := by
  unfold warntimeNote; infer_instance

instance (c d : Str) : Sequential (doCheck c d) := by unfold doCheck; dsimp only; infer_instance
instance : Sequential checkPackage := by unfold checkPackage; dsimp only; infer_instance
instance : Sequential sendNormalEnd := by unfold sendNormalEnd; dsimp only; infer_instance
instance : Sequential checkAndFinish := by unfold checkAndFinish; infer_instance
instance : Sequential buildAndCheck := by unfold buildAndCheck; infer_instance

instance (pathTar : Str) : Sequential (cleanUpWindows pathTar) := by
  unfold cleanUpWindows; dsimp only; infer_instance

instance (pathTar : Str) : Sequential (cleanUpDarwin pathTar) := by
  unfold cleanUpDarwin; infer_instance

instance : Sequential cleanUpDir := by unfold cleanUpDir; dsimp only; infer_instance

instance : Sequential onexit := by unfold onexit; dsimp only; infer_instance

end PackageBuilder
