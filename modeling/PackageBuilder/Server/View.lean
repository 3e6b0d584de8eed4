import PackageBuilder.Server.BuilderProcess

/-! What a job sees of the jobs tree, and that its builder depends on no more than that. -/
namespace PackageBuilder
open Text FileTree

variable {ν : Type}

/-- The report of a check depends on the copy in R-libs. -/
def Content.hideReport : Content ν → Content ν
  | .report _ => .log
  | x => x

/-- What a job sees with its package in R-libs (`lib`), or without it. -/
def Content.seen (lib : Bool) (x : Content ν) : Content ν := if lib then x else x.hideReport

def Sees (lib : Bool) (r : Request) (p : List Str) : Prop :=
  r.workingDir <+: p ∨ lib = true ∧ p = r.libPath r.packageName

instance (lib : Bool) (r : Request) : DecidablePred (Sees lib r) :=
  fun _ => inferInstanceAs (Decidable (_ ∨ _))

def seenTree (lib : Bool) (r : Request) (t : Tree Str (Content ν)) : Tree Str (Content ν) :=
  part t (Sees lib r) (Content.seen lib)

/-- Without R-libs, what the check finds and reports is left out. -/
def BuilderProcess.seen (lib : Bool) (b : BuilderProcess ν) : BuilderProcess ν :=
  if lib then b else { b with library := none, report := none }

def seen (lib : Bool) (r : Request) (a : BuilderProcess ν × Tree Str (Content ν)) :
    BuilderProcess ν × Tree Str (Content ν) :=
  (a.1.seen lib, seenTree lib r a.2)

variable {lib : Bool} {r q : Request} {t t' : Tree Str (Content ν)} {p : List Str} {name : Str}
  {b b' : BuilderProcess ν} {m : Manifest} {tools : Tools ν} {x : ν} {found : Packages ν}

theorem sees_path (r : Request) (name : Str) : Sees lib r (r.path name) :=
  .inl (List.prefix_append _ _)

theorem seenTree_present (h : Sees lib r p) : present (seenTree lib r t) p = present t p :=
  present_part h

theorem seenTree_content (h : Sees lib r p) :
    content (seenTree lib r t) p = (content t p).map (Content.seen lib) :=
  content_part h

theorem seenTree_message (h : Sees lib r p) : message? (seenTree lib r t) p = message? t p := by
  rw [message?, seenTree_content h, message?]
  rcases content t p with _ | x
  · rfl
  · cases lib <;> cases x <;> rfl

theorem seenTree_data (h : Sees lib r p) : data? (seenTree lib r t) p = data? t p := by
  rw [data?, seenTree_content h, data?]
  rcases content t p with _ | x
  · rfl
  · cases lib <;> cases x <;> rfl

theorem seenTree_report (h : Sees true r p) : report? (seenTree true r t) p = report? t p := by
  rw [report?, seenTree_content h, report?]
  rcases content t p with _ | x <;> rfl

theorem seenTree_tarball : sourceTarball (seenTree lib r t) r m = sourceTarball t r m := by
  unfold sourceTarball seenTree
  rw [names_part]
  intro p hp _
  exact .inl (hp ▸ List.dropLast_prefix p)

theorem seenTree_rmTree : seenTree lib r (rmTree t p) = rmTree (seenTree lib r t) p := part_rmTree

/-- What is seen of a tree after a change depends on what was seen of it before. -/
theorem seenTree_put_congr (h : seenTree lib r t = seenTree lib r t') {e e' : Entry (Content ν)}
    (he : e.map (Content.seen lib) = e'.map (Content.seen lib)) :
    seenTree lib r (put t p e) = seenTree lib r (put t' p e') := by
  unfold seenTree at h ⊢
  by_cases hp : Sees lib r p
  · rw [part_put hp, part_put hp, h, he]
  · rw [part_put_other hp, part_put_other hp, h]

theorem seenTree_write_congr (h : seenTree lib r t = seenTree lib r t') {x y : Content ν}
    (hx : x.seen lib = y.seen lib) :
    seenTree lib r (write t p x) = seenTree lib r (write t' p y) :=
  seenTree_put_congr h (congrArg Entry.file hx)

theorem seenTree_rmTree_congr (h : seenTree lib r t = seenTree lib r t') :
    seenTree lib r (rmTree t p) = seenTree lib r (rmTree t' p) := by
  rw [seenTree_rmTree, seenTree_rmTree, h]

section
variable (h : seenTree lib r t = seenTree lib r t')
include h

theorem present_congr (hp : Sees lib r p) : present t p = present t' p := by
  rw [← seenTree_present hp, h, seenTree_present hp]

theorem message_congr (hp : Sees lib r p) : message? t p = message? t' p := by
  rw [← seenTree_message hp, h, seenTree_message hp]

theorem data_congr (hp : Sees lib r p) : data? t p = data? t' p := by
  rw [← seenTree_data hp, h, seenTree_data hp]

theorem tarball_congr : sourceTarball t r m = sourceTarball t' r m := by
  have hs := congrArg (fun t => sourceTarball t r m) h
  simpa only [seenTree_tarball] using hs

end

section
variable (b) (todo : List Stage) (body : Option Request) (x : ν) (built : Bool)
  (tarball : Option (Str × Option ν)) (y : Option ν)

@[simp] theorem seen_todo : (b.seen lib).todo = b.todo := by cases lib <;> rfl
@[simp] theorem seen_body : (b.seen lib).body = b.body := by cases lib <;> rfl
@[simp] theorem seen_built : (b.seen lib).built = b.built := by cases lib <;> rfl

@[simp] theorem seen_set_todo :
    BuilderProcess.seen lib { b with todo } = { b.seen lib with todo } := by cases lib <;> rfl
@[simp] theorem seen_set_body :
    BuilderProcess.seen lib { b with body } = { b.seen lib with body } := by cases lib <;> rfl
@[simp] theorem seen_set_clone :
    BuilderProcess.seen lib { b with clone := y } = { b.seen lib with clone := y } := by
  cases lib <;> rfl
@[simp] theorem seen_set_installed :
    BuilderProcess.seen lib { b with installed := y } = { b.seen lib with installed := y } := by
  cases lib <;> rfl
@[simp] theorem seen_set_built :
    BuilderProcess.seen lib { b with built } = { b.seen lib with built } := by cases lib <;> rfl
@[simp] theorem seen_set_output :
    BuilderProcess.seen lib { b with tarball, output := y } =
      { b.seen lib with tarball, output := y } := by cases lib <;> rfl
@[simp] theorem seen_set_library :
    BuilderProcess.seen false { b with library := y } = b.seen false := rfl
@[simp] theorem seen_set_report :
    BuilderProcess.seen false { b with report := y } = b.seen false := rfl
@[simp] theorem seen_exit : b.exit.seen lib = (b.seen lib).exit := by cases lib <;> rfl

end

theorem addTarball_congr (h : seenTree lib r t = seenTree lib r t') (product : Option (Str × ν)) :
    seenTree lib r (addTarball t r product) = seenTree lib r (addTarball t' r product) := by
  rcases product with _ | ⟨name, y⟩
  · exact h
  · exact seenTree_write_congr h rfl

theorem addPackages_congr (h : seenTree lib r t = seenTree lib r t') (ps : List (Str × ν)) :
    seenTree lib r (addPackages t r ps) = seenTree lib r (addPackages t' r ps) := by
  induction ps generalizing t t' with
  | nil => exact h
  | cons p ps ih => exact ih (seenTree_write_congr h rfl)

theorem cleanUp_congr (h : seenTree lib r t = seenTree lib r t') :
    seenTree lib r (cleanUp t r m) = seenTree lib r (cleanUp t' r m) := by
  simp only [cleanUp, tarball_congr h]
  exact seenTree_rmTree_congr (seenTree_rmTree_congr h)

/-- One stage of two builders that see the same and find the same packages. -/
theorem runStage_congr (hb : b.seen lib = b'.seen lib) (h : seenTree lib r t = seenTree lib r t')
    (hm : m.packageName = r.packageName) (x : Stage) :
    (runStage tools r found m b t x).map (seen lib r) =
      (runStage tools r found m b' t' x).map (seen lib r) := by
  have hdata : ∀ name, data? t (r.path name) = data? t' (r.path name) :=
    fun name => data_congr h (sees_path r name)
  cases x with
  | setup => rfl
  | gitClone =>
    simp only [runStage, present_congr h (sees_path r _)]
    split
    · rfl
    · rcases tools.fetch m.svnUrl with _ | y
      · rfl
      · simp [seen, hb, seenTree_write_congr h rfl]
  | getDcfInfo =>
    simp only [runStage, hdata]
    rcases data? t' (r.path m.packageName) with _ | y
    · rfl
    · simp [seen, hb, h]
  | installDeps =>
    simp only [runStage, hdata]
    rcases data? t' (r.path m.packageName) with _ | y
    · rfl
    · simp [seen, hb, addPackages_congr h]
  | installPkg =>
    simp only [runStage, hdata]
    rcases (data? t' (r.path m.packageName)).bind (tools.install · (others m found)) with _ | y
    · simp [seen, hb, h]
    · simp [seen, hb, seenTree_write_congr h rfl]
  | doBuild =>
    simp [runStage, hdata, seen, hb, addTarball_congr (seenTree_write_congr h rfl)]
  | reportBuild => simp [runStage, hdata, tarball_congr h, seen, hb, h]
  | doCheck =>
    have hbuilt : b.built = b'.built := by simpa using congrArg BuilderProcess.built hb
    by_cases hok : b.built = true
    · simp only [runStage, if_pos hok, if_pos (hbuilt ▸ hok), tarball_congr h, hdata]
      rcases sourceTarball t' r m with _ | name
      · rfl
      · cases lib with
        | true =>
          have hl : data? t (r.libPath m.packageName) = data? t' (r.libPath m.packageName) :=
            data_congr h (.inr ⟨rfl, by rw [hm]⟩)
          obtain rfl : b = b' := hb
          simp [seen, hl, seenTree_write_congr h rfl]
        | false =>
          have hw : ∀ x y : ν, seenTree false r (write t (r.path "Rcheck.out") (.report x)) =
              seenTree false r (write t' (r.path "Rcheck.out") (.report y)) :=
            fun x y => seenTree_write_congr h rfl
          simp only [Option.map_some, seen, seen_set_library]
          rw [hb, hw]
    · simp only [runStage, if_neg hok, if_neg (hbuilt ▸ hok), Option.map_none]
  | reportCheck =>
    cases lib with
    | true =>
      have hr : report? t (r.path "Rcheck.out") = report? t' (r.path "Rcheck.out") := by
        rw [← seenTree_report (sees_path r _), h, seenTree_report (sees_path r _)]
      obtain rfl : b = b' := hb
      simp [runStage, seen, hr, h]
    | false => simp [runStage, seen, hb, h]
  | cleanUpDir => simp [runStage, seen, hb, cleanUp_congr h]

theorem stage_congr (hb : b.seen lib = b'.seen lib) (h : seenTree lib r t = seenTree lib r t')
    (hbody : ∀ q, b.body = some q → q = r) (x : Stage) :
    (stage tools r found b t x).map (seen lib r) =
      (stage tools r found b' t' x).map (seen lib r) := by
  have hsame : b.body = b'.body := by simpa using congrArg BuilderProcess.body hb
  cases x with
  | setup =>
    simp only [stage, message_congr h (sees_path r "manifest.json")]
    rcases message? t' (r.path "manifest.json") with _ | q
    · rfl
    · rcases hq : q.manifest? with _ | m
      · simp [hq]
      · simp [hq, seen, hb, h]
  | _ =>
    simp only [stage, BuilderProcess.manifest?, ← hsame]
    rcases hq : b.body with _ | q
    · rfl
    · rcases hm : q.manifest? with _ | m
      · simp [hm]
      · have hname : m.packageName = r.packageName := by
          rw [← hbody q hq, Request.packageName, hm]
          rfl
        simpa [hm] using runStage_congr hb h hname _

/-- What a builder does in a turn depends only on what it sees and on the packages it finds. -/
theorem builderStep_congr (hb : b.seen lib = b'.seen lib)
    (h : seenTree lib r t = seenTree lib r t') (hbody : ∀ q, b.body = some q → q = r) :
    seen lib r (builderStep tools r found (b, t)) =
      seen lib r (builderStep tools r found (b', t')) := by
  have htodo : b.todo = b'.todo := by simpa using congrArg BuilderProcess.todo hb
  rcases hx : b.todo with _ | ⟨x, rest⟩
  · simp [builderStep, ← htodo, hx, seen, hb, h]
  · have hs : (stage tools r found b t x).map (seen lib r) =
        (stage tools r found b' t' x).map (seen lib r) :=
      stage_congr hb h hbody x
    rcases h₁ : stage tools r found b t x with _ | ⟨b₁, t₁⟩ <;>
      rcases h₂ : stage tools r found b' t' x with _ | ⟨b₂, t₂⟩ <;> rw [h₁, h₂] at hs
    · simp only [builderStep, ← htodo, hx, h₁, h₂, seen, seen_exit, hb, h]
    · cases hs
    · cases hs
    · obtain ⟨hb₁, ht₁⟩ := Prod.mk.inj (Option.some.inj hs)
      simp only [builderStep, ← htodo, hx, h₁, h₂, seen, seen_set_todo]
      rw [ht₁]
      exact congrArg (fun b : BuilderProcess ν => ({ b with todo := rest }, _)) hb₁

end PackageBuilder
