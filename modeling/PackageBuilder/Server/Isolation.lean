import PackageBuilder.Server.Alone
import PackageBuilder.Server.Besides

/-! What jobs with directories of their own report does not depend on each other. -/
namespace PackageBuilder
open Text FileTree Interleaving

variable {ι ν : Type} [DecidableEq ι] [DecidableEq ν]

/-- The package of a job alone on its way from the clone to the check. -/
structure Installs (tools : Tools ν) (r : Request) (m : Manifest) (b : BuilderProcess ν)
    (t : Tree Str (Content ν)) : Prop where
  todo : b.todo <:+ stages
  cloned : .gitClone ∉ b.todo → .installPkg ∈ b.todo →
    ∃ y, tools.fetch m.svnUrl = some y ∧ data? t (r.path m.packageName) = some y
  before : .installPkg ∈ b.todo → b.installed = none
  installed : ∀ x, b.installed = some x →
    ∃ y lib, tools.fetch m.svnUrl = some y ∧ tools.install y lib = some x
  kept : ∀ x, b.installed = some x → .doCheck ∈ b.todo →
    data? t (r.libPath m.packageName) = some x
  unchecked : .doCheck ∈ b.todo → b.library = none
  found : ∀ x z, b.installed = some x → b.library = some z → z = x

variable {s : Site ι ν} {i : ι} {n : Node ι ν} {l : Job ν} {k : Thread}
  {tools : Tools ν} {r : Request} {found : Packages ν} {m : Manifest} {b b' : BuilderProcess ν}
  {t t' : Tree Str (Content ν)} {x : Stage} {rest : List Stage}

omit [DecidableEq ν] in
theorem installs_start (t : Tree Str (Content ν)) : Installs tools r m {} t where
  todo := List.suffix_rfl
  cloned h := absurd (show Stage.gitClone ∈ stages by decide) h
  before _ := rfl
  installed := nofun
  kept := nofun
  unchecked _ := rfl
  found := nofun

/-- What is left to do after a stage. -/
theorem stages_after {P : List Stage → Prop} [DecidablePred P]
    (hall : ∀ y ∈ stages.tails, y.head? = some x → P y.tail) (h : x :: rest <:+ stages) : P rest :=
  hall (x :: rest) ((List.mem_tails _ _).mpr h) rfl

omit [DecidableEq ν] in
theorem data_write_self {p : List Str} {y : ν} : data? (write t p (.data y)) p = some y := by
  simp [data?, content, write]

omit [DecidableEq ν] in
theorem data_write_ne {p q : List Str} {y : Content ν} (h : p ≠ q) :
    data? (write t p y) q = data? t q := by
  simp [data?, content, write, entry_put_ne h]

omit [DecidableEq ν] in
theorem path_ne_libPath (hr : r.runDir ≠ "R-libs") (file name : Str) :
    r.path file ≠ r.libPath name := by
  intro he
  simp [Request.path, Request.libPath, Request.dir] at he
  exact hr he.1

omit [DecidableEq ν] in
/-- The dependencies leave the run directory alone. -/
theorem addPackages_keeps (hr : r.runDir ≠ "R-libs") (ps : List (Str × ν)) (file : Str) :
    data? (addPackages t r ps) (r.path file) = data? t (r.path file) := by
  induction ps generalizing t with
  | nil => rfl
  | cons p ps ih => exact ih.trans (data_write_ne (path_ne_libPath hr file p.1).symm)

omit [DecidableEq ν] in
/-- The build writes nothing into R-libs. -/
theorem doBuild_keeps (hr : r.runDir ≠ "R-libs") {y : ν} {product : Option (Str × ν)} (name : Str) :
    data? (addTarball (write t (r.path "R.out") (.data y)) r product) (r.libPath name) =
      data? t (r.libPath name) := by
  have hne : ∀ file, r.path file ≠ r.libPath name := fun file => path_ne_libPath hr file name
  rcases product with _ | ⟨file, z⟩
  · exact data_write_ne (hne _)
  · rw [addTarball, data_write_ne (hne _), data_write_ne (hne _)]

omit [DecidableEq ν] in
/-- A stage that is none of the clone, the installations and the check. -/
theorem Installs.keep (h : Installs tools r m b t) (htodo : b.todo = x :: rest)
    (hx : x ≠ .gitClone) (hi : b'.installed = b.installed) (hl : b'.library = b.library)
    (hsources : .installPkg ∈ rest → data? t' (r.path m.packageName) = data? t (r.path m.packageName))
    (hlib : data? t' (r.libPath m.packageName) = data? t (r.libPath m.packageName)) :
    Installs tools r m { b' with todo := rest } t' := by
  have hin : ∀ y ∈ rest, y ∈ b.todo := fun y hy => htodo ▸ List.mem_cons_of_mem x hy
  constructor
  · exact (List.suffix_cons x rest).trans (htodo ▸ h.todo)
  · intro hg hm
    have hg' : .gitClone ∉ b.todo := by
      rw [htodo]
      exact fun hmem => hg ((List.mem_cons.mp hmem).resolve_left fun he => hx he.symm)
    obtain ⟨y, hy, hd⟩ := h.cloned hg' (hin _ hm)
    exact ⟨y, hy, (hsources hm).trans hd⟩
  · exact fun hm => hi.trans (h.before (hin _ hm))
  · exact fun y hy => h.installed y (hi ▸ hy)
  · exact fun y hy hm => hlib.trans (h.kept y (hi ▸ hy) (hin _ hm))
  · exact fun hm => hl.trans (h.unchecked (hin _ hm))
  · exact fun y z hy hz => h.found y z (hi ▸ hy) (hl ▸ hz)

omit [DecidableEq ν] in
theorem Installs.runStage (h : Installs tools r m b t) (hr : r.runDir ≠ "R-libs")
    (hclone : tools.cloneDir m.svnUrl = m.packageName) (htodo : b.todo = x :: rest)
    (hs : runStage tools r found m b t x = some (b', t')) :
    Installs tools r m { b' with todo := rest } t' := by
  have hsuf : x :: rest <:+ stages := htodo ▸ h.todo
  have hrest : rest <:+ stages := (List.suffix_cons x rest).trans hsuf
  have hx : x ∈ b.todo := htodo ▸ List.mem_cons_self
  cases x with
  | setup => cases hs
  | gitClone =>
    simp only [PackageBuilder.runStage] at hs
    split at hs
    · cases hs
    · obtain ⟨y, hy, he⟩ := Option.map_eq_some_iff.mp hs
      cases he
      have hinst : b.installed = none :=
        h.before (htodo ▸ List.mem_cons_of_mem _
          (stages_after (P := fun l => Stage.installPkg ∈ l) (by decide) hsuf))
      have hlib : b.library = none :=
        h.unchecked (htodo ▸ List.mem_cons_of_mem _
          (stages_after (P := fun l => Stage.doCheck ∈ l) (by decide) hsuf))
      refine ⟨hrest, ?_, fun _ => hinst, ?_, ?_, fun _ => hlib, ?_⟩
      · exact fun _ _ => ⟨y, hy, by rw [hclone, data_write_self]⟩
      · exact fun z hz => absurd (hinst.symm.trans hz) (by simp)
      · exact fun z hz => absurd (hinst.symm.trans hz) (by simp)
      · exact fun z _ hz => absurd (hinst.symm.trans hz) (by simp)
  | getDcfInfo =>
    obtain ⟨y, -, he⟩ := Option.map_eq_some_iff.mp hs
    cases he
    exact h.keep htodo (by simp) rfl rfl (fun _ => rfl) rfl
  | installDeps =>
    obtain ⟨y, -, he⟩ := Option.map_eq_some_iff.mp hs
    cases he
    have hinst : b.installed = none :=
      h.before (htodo ▸ List.mem_cons_of_mem _
        (stages_after (P := fun l => Stage.installPkg ∈ l) (by decide) hsuf))
    have hcloned : .gitClone ∉ b.todo := by
      rw [htodo]
      exact fun hm => (List.mem_cons.mp hm).elim (by simp)
        (stages_after (P := fun l => Stage.gitClone ∉ l) (by decide) hsuf)
    refine ⟨hrest, ?_, fun _ => hinst, h.installed, ?_,
      fun hm => h.unchecked (htodo ▸ List.mem_cons_of_mem _ hm), h.found⟩
    · intro _ hm
      obtain ⟨z, hz, hd⟩ := h.cloned hcloned (htodo ▸ List.mem_cons_of_mem _ hm)
      exact ⟨z, hz, (addPackages_keeps hr _ _).trans hd⟩
    · exact fun z hz => absurd (hinst.symm.trans hz) (by simp)
  | installPkg =>
    have hinst := h.before hx
    have hlib : b.library = none :=
      h.unchecked (htodo ▸ List.mem_cons_of_mem _
        (stages_after (P := fun l => Stage.doCheck ∈ l) (by decide) hsuf))
    have hcloned : .gitClone ∉ b.todo := by
      rw [htodo]
      exact fun hm => (List.mem_cons.mp hm).elim (by simp)
        (stages_after (P := fun l => Stage.gitClone ∉ l) (by decide) hsuf)
    have hgone : .installPkg ∉ rest :=
      stages_after (P := fun l => Stage.installPkg ∉ l) (by decide) hsuf
    obtain ⟨y, hy, hd⟩ := h.cloned hcloned hx
    simp only [PackageBuilder.runStage, hd, Option.bind_some] at hs
    rcases hz : tools.install y (others m found) with _ | z
    · rw [hz] at hs
      cases hs
      exact h.keep htodo (by simp) rfl rfl (fun _ => rfl) rfl
    · rw [hz] at hs
      cases hs
      refine ⟨hrest, fun _ hm => absurd hm hgone, fun hm => absurd hm hgone, ?_, ?_, fun _ => hlib, ?_⟩
      · rintro _ ⟨⟩
        exact ⟨y, others m found, hy, hz⟩
      · rintro _ ⟨⟩ _
        exact data_write_self
      · exact fun _ w _ hw => absurd (hlib.symm.trans hw) (by simp)
  | doBuild =>
    cases hs
    have hgone : .installPkg ∉ rest :=
      stages_after (P := fun l => Stage.installPkg ∉ l) (by decide) hsuf
    exact h.keep htodo (by simp) rfl rfl (fun hm => absurd hm hgone) (doBuild_keeps hr _)
  | reportBuild =>
    cases hs
    exact h.keep htodo (by simp) rfl rfl (fun _ => rfl) rfl
  | doCheck =>
    have hgone : .doCheck ∉ rest := stages_after (P := fun l => Stage.doCheck ∉ l) (by decide) hsuf
    have hgone' : .installPkg ∉ rest :=
      stages_after (P := fun l => Stage.installPkg ∉ l) (by decide) hsuf
    simp only [PackageBuilder.runStage] at hs
    split at hs
    · obtain ⟨name, -, he⟩ := Option.map_eq_some_iff.mp hs
      cases he
      refine ⟨hrest, fun _ hm => absurd hm hgone', fun hm => absurd hm hgone', h.installed,
        fun _ _ hm => absurd hm hgone, fun hm => absurd hm hgone, ?_⟩
      intro y z hy hz
      have hk := h.kept y hy hx
      exact Option.some.inj (hz.symm.trans hk)
    · cases hs
  | reportCheck =>
    cases hs
    exact h.keep htodo (by simp) rfl rfl (fun _ => rfl) rfl
  | cleanUpDir =>
    cases hs
    have hgone : .doCheck ∉ rest := stages_after (P := fun l => Stage.doCheck ∉ l) (by decide) hsuf
    have hgone' : .installPkg ∉ rest :=
      stages_after (P := fun l => Stage.installPkg ∉ l) (by decide) hsuf
    exact ⟨hrest, fun _ hm => absurd hm hgone', fun hm => absurd hm hgone', h.installed,
      fun _ _ hm => absurd hm hgone, fun hm => absurd hm hgone, h.found⟩

omit [DecidableEq ν] in
theorem Installs.stage (h : Installs tools r m b t) (hr : r.runDir ≠ "R-libs")
    (hbody : ∀ q, b.body = some q → q = r) (hm : r.manifest? = some m)
    (hclone : tools.cloneDir m.svnUrl = m.packageName) (htodo : b.todo = x :: rest)
    (hs : stage tools r found b t x = some (b', t')) :
    Installs tools r m { b' with todo := rest } t' := by
  cases x with
  | setup =>
    obtain ⟨q, -, hq⟩ := Option.bind_eq_some_iff.mp hs
    obtain ⟨m', -, he⟩ := Option.map_eq_some_iff.mp hq
    cases he
    exact h.keep htodo (by simp) rfl rfl (fun _ => rfl) rfl
  | _ =>
    obtain ⟨m', hm', hs⟩ := Option.bind_eq_some_iff.mp hs
    obtain ⟨q, hq, hqm⟩ := Option.bind_eq_some_iff.mp hm'
    rw [hbody q hq, hm] at hqm
    cases hqm
    exact h.runStage hr hclone htodo hs

omit [DecidableEq ν] in
theorem Installs.exit (h : Installs tools r m b t) : Installs tools r m b.exit t := by
  have htodo : b.exit.todo = [.cleanUpDir] ∨ b.exit.todo = [] := by
    simp only [BuilderProcess.exit]
    split
    · exact .inl rfl
    · exact .inr rfl
  have hno : ∀ y, y ≠ Stage.cleanUpDir → y ∉ b.exit.todo := by
    intro y hy
    rcases htodo with he | he <;> rw [he] <;> simp [hy]
  have hi : .installPkg ∉ b.exit.todo := hno _ (by simp)
  have hc : .doCheck ∉ b.exit.todo := hno _ (by simp)
  refine ⟨?_, fun _ hm => absurd hm hi, fun hm => absurd hm hi, h.installed,
    fun _ _ hm => absurd hm hc, fun hm => absurd hm hc, h.found⟩
  rcases htodo with he | he <;> rw [he] <;> decide

omit [DecidableEq ν] in
theorem Installs.turn (h : Installs tools r m b t) (hr : r.runDir ≠ "R-libs")
    (hbody : ∀ q, b.body = some q → q = r) (hm : r.manifest? = some m)
    (hclone : tools.cloneDir m.svnUrl = m.packageName) :
    Installs tools r m (builderStep tools r found (b, t)).1
      (builderStep tools r found (b, t)).2 := by
  have ht : BuilderTurn tools r found b t (builderStep tools r found (b, t)) :=
    builderStep_turn b t
  generalize builderStep tools r found (b, t) = a at ht ⊢
  cases ht with
  | idle => exact h
  | exits => exact h.exit
  | goes htodo hs => exact h.stage hr hbody hm hclone htodo hs

/-- A job alone: its builder only starts once it is launched. -/
structure AloneInstalls (s : Site ι ν) (i : ι) (m : Manifest) (a : Job ν × Node ι ν) : Prop where
  straight : Straight s i a
  unlaunched : i ∉ a.2.launched → a.1.builder = {}
  installs : Installs (s.tools i) (s.message i) m a.1.builder a.2.tree

omit [DecidableEq ι] in
/-- Once its builder is launched, a handler leaves the jobs tree alone. -/
theorem handlerStep_launched {h : Handler} (hs : h.todo <:+ requestActions)
    (hl : .launch ∉ h.todo) : (handlerStep s i (h, n)).2.tree = n.tree := by
  have ht : HandlerTurn s i h n (handlerStep s i (h, n)) := handlerStep_turn h n
  generalize handlerStep s i (h, n) = a at ht ⊢
  cases ht with
  | idle | tests | raises => rfl
  | @goes a rest n' _ htodo _ hp =>
    have hall : ∀ l ∈ requestActions.tails, .launch ∉ l → ∀ a ∈ l.head?, a = .reply := by decide
    have ha := hall h.todo ((List.mem_tails _ _).mpr hs) hl a (by rw [htodo]; rfl)
    subst ha
    simp only [perform] at hp
    split at hp <;> cases hp
    rfl

theorem AloneInstalls.own (ha : Apart s) (hm : (s.message i).manifest? = some m)
    (hclone : (s.tools i).cloneDir m.svnUrl = m.packageName) (k : Thread)
    {a : Job ν × Node ι ν} (h : AloneInstalls s i m a) : AloneInstalls s i m (jobStep s i k a) := by
  obtain ⟨l, n⟩ := a
  have hst : Straight s i (jobStep s i k (l, n)) := straight_own ha h.straight k
  have hstart : ∀ t, i ∉ n.launched → Installs (s.tools i) (s.message i) m l.builder t := by
    intro t hl
    rw [h.unlaunched hl]
    exact installs_start t
  cases k with
  | handler =>
    refine ⟨hst, ?_, ?_⟩
    · intro hl
      obtain ⟨c, es, hlog, -⟩ := jobStep_logs s i .handler l n
      refine h.unlaunched fun hl' => hl ?_
      rw [hlog]
      exact List.mem_append_left _ hl'
    · by_cases hl : i ∈ n.launched
      · have ht := handlerStep_launched (s := s) (i := i) (n := n) h.straight.suffix
          (h.straight.launched ha hl)
        simp only [jobStep, ht]
        exact h.installs
      · exact hstart _ hl
  | builder =>
    by_cases hl : i ∈ n.launched
    · simp only [jobStep, if_pos hl] at hst ⊢
      exact ⟨hst, fun hl' => absurd hl hl',
        h.installs.turn (ha.libs i) h.straight.body hm hclone⟩
    · simp only [jobStep, if_neg hl] at hst ⊢
      exact h
  | sender =>
    obtain ⟨hb, ht, hl⟩ := jobStep_sender (s := s) (i := i) l n
    refine ⟨hst, ?_, ?_⟩
    · rw [hb, hl]
      exact h.unlaunched
    · rw [hb, ht]
      exact h.installs

omit [DecidableEq ι] [DecidableEq ν] in
theorem apart_finding (ha : Apart s) (found : Packages ν) : Apart (s.finding found) :=
  ⟨ha.wellFormed, ha.dirs, ha.libs⟩

omit [DecidableEq ν] in
/-- What R finds does not matter for what is known of a job. -/
theorem aloneInstalls_finding {a : Job ν × Node ι ν} :
    AloneInstalls (s.finding found) i m a ↔ AloneInstalls s i m a := by
  constructor
  · rintro ⟨⟨hs, ⟨hl, ha, ho⟩, hm, hb⟩, hu, hi⟩
    exact ⟨⟨hs, ⟨hl, ha, ho⟩, hm, hb⟩, hu, hi⟩
  · rintro ⟨⟨hs, ⟨hl, ha, ho⟩, hm, hb⟩, hu, hi⟩
    exact ⟨⟨hs, ⟨hl, ha, ho⟩, hm, hb⟩, hu, hi⟩

theorem alone_installs (ha : Apart s) (hm : (s.message i).manifest? = some m)
    (hclone : (s.tools i).cloneDir m.svnUrl = m.packageName) (t : Tree Str (Content ν))
    (ys : List (Thread × Packages ν)) : AloneInstalls s i m (s.alone t i ys) := by
  induction ys using List.reverseRecOn with
  | nil => exact ⟨straight_start ha t i, fun _ => rfl, installs_start t⟩
  | append_singleton ys y ih =>
    rw [Site.alone, List.foldl_append, ← Site.alone]
    exact aloneInstalls_finding.mp
      ((aloneInstalls_finding.mpr ih).own (apart_finding ha y.2) hm hclone y.1)

/-- Two packages of one issue, and what is made of each with the packages it depends on. -/
def twoPackages : Site Bool ℕ where
  builderId := "nebbiolo1"
  message later :=
    if later then {
      jobId := some "spbtest6_20230209"
      clientId := some "single_package_builder_github:3145:spbtest6"
      biocVersion := some "3.20"
      svnUrl := some "https://github.com/Bioconductor/spbtest6"
      commitId := some "2acf0f2c" }
    else submission "spbtest5_20230208" "17ff114b"
  run _ := (spbtest, {}, [])
  tools later := {
    cloneDir := fun _ => if later then "spbtest6" else "spbtest5"
    fetch := fun _ => some (if later then 1 else 0)
    deps := fun _ lib => if (lib "BiocGenerics").isSome then [] else [("BiocGenerics", 2)]
    install := fun sources lib => some (sources + (lib "BiocGenerics").getD 0)
    build := fun sources _ =>
      some (if later then "spbtest6_0.99.0.tar.gz" else "spbtest5_0.99.0.tar.gz", sources)
    output := fun sources _ => sources.getD 0
    report := fun _ library lib => library.getD 0 + (lib "BiocGenerics").getD 0 }

theorem twoPackages_apart : Apart twoPackages where
  wellFormed := by decide +kernel
  dirs := by decide +kernel
  libs := by decide +kernel

def untouched : Besides Bool ℕ := fun _ _ t => t

theorem twoPackages_tame : Tame twoPackages spbtest (fun _ _ => false) untouched where
  plain := by decide +kernel
  leaves _ _ _ _ := rfl

theorem twoPackages_ownLib : OwnLib twoPackages true := by
  rintro j hj - (hn | ⟨x, lib, p, hp, hn⟩)
  · obtain rfl : j = false := by simpa using hj
    exact absurd hn (by decide +kernel)
  · have hname : p.1 = "BiocGenerics" := by
      simp only [twoPackages] at hp
      split at hp
      · cases hp
      · rw [List.mem_singleton.mp hp]
    rw [hname] at hn
    exact absurd hn (by decide +kernel)

/-- Both jobs up to their checks, one after the other at every stage. -/
def bothChecked : List (Bool × Thread) :=
  List.replicate 14 (true, .handler) ++ List.replicate 14 (false, .handler) ++
    (List.replicate 9 [(false, .builder), (true, .builder)]).flatten

/-- The builder of the later one. -/
def laterBuilder : BuilderProcess ℕ :=
  ((twoPackages.reached untouched issueTree bothChecked).parts true).builder

/-- The two commits of one package, both installed into the R-libs of their issue. -/
def installRace : List (Bool × Thread) :=
  List.replicate 14 (true, .handler) ++ List.replicate 14 (false, .handler) ++
    List.replicate 5 (true, .builder) ++ List.replicate 5 (false, .builder) ++
    List.replicate 3 (true, .builder)

/-- Two submissions of one commit. -/
def oneCommit : Site Bool ℕ :=
  { twoCommits with
    message := fun later =>
      submission (if later then "spbtest5_20230209" else "spbtest5_20230208") "17ff114b" }

end PackageBuilder
