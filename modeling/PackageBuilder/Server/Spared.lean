import PackageBuilder.CleanUpRuns
import PackageBuilder.Server.Isolation

/-! Builds of a node while cleanUpIssues.py runs. -/
namespace PackageBuilder
open Text FileTree Interleaving

variable {ι ν : Type} [DecidableEq ι] [DecidableEq ν]

/-- A run of a node with runs of the script between any of its turns, each of which leaves the
directories of one job there, and the turns of this job with the packages that R finds for it. -/
inductive NodeRun (s : Site ι ν) (step : Program ι Thread (Job ν) (Node ι ν)) (i : ι)
    (t : Tree Str (Content ν)) :
    List (Thread × Packages ν) → Config ι (Job ν) (Node ι ν) → Prop
  | start : NodeRun s step i t [] (s.start t)
  | turn {ys c} (x : ι × Thread) (hr : NodeRun s step i t ys c) :
    NodeRun s step i t (ys ++ if x.1 = i then [(x.2, s.finds i c.shared.tree)] else [])
      (act step c x)
  | cleanUp {ys c} (h : CleanUpHost (Content ν)) (issues : ClosedIssues)
    (fs : FileSystem Str (Content ν)) (ht : fs.tree = c.shared.tree)
    (hreads : ReadsPaths h fs.tree issues)
    (hkeep : ∀ d, entry (afterCleanUp h issues fs).tree ((s.message i).dir d) =
      entry fs.tree ((s.message i).dir d))
    (hr : NodeRun s step i t ys c) :
    NodeRun s step i t ys { c with shared := c.shared.on (afterCleanUp h issues fs).tree }

variable {s : Site ι ν} {i j : ι} {t t' : Tree Str (Content ν)} {fs : FileSystem Str (Content ν)}
  {h : CleanUpHost (Content ν)} {issues : ClosedIssues} {lib : Bool} {r : Request} {n : Node ι ν}
  {l : Job ν} {v : Job ν × Node ι ν} {p q : List Str} {ps : List (List Str)}

omit [DecidableEq ν] in
theorem seenTree_removeAll
    (hps : ∀ p ∈ ps, p ≠ [] ∧ (entry fs.tree p = none ∨ ∀ q, p <+: q → ¬ Sees lib r q)) :
    seenTree lib r (fs.removeAll ps).tree = seenTree lib r fs.tree := by
  induction ps generalizing fs with
  | nil => rfl
  | cons p ps ih =>
    obtain ⟨hne, hp⟩ := hps p List.mem_cons_self
    have hrest : ∀ p' ∈ ps, p' ≠ [] ∧
        (entry (fs.remove p).tree p' = none ∨ ∀ q, p' <+: q → ¬ Sees lib r q) := by
      intro p' hp'
      obtain ⟨hne', h'⟩ := hps p' (List.mem_cons_of_mem p hp')
      refine ⟨hne', h'.imp_left fun he => ?_⟩
      rw [remove_tree, entry_rmTree, he, ite_self]
    rw [removeAll_cons, ih hrest]
    rcases hp with he | hu
    · rw [remove_eq_self he hne]
    · exact part_rmTree_other hu

omit [DecidableEq ν] in
/-- What a run of the script removes on the way to what a job sees is a directory of the job. -/
theorem removed_is_dir {ms : List Nat} (hp : p ∈ (h.order (issueNums h issues)).map issueDir ++
      ms.flatMap (drops h fs.tree)) (hq : Sees lib r q) (hpq : p <+: q) : ∃ d, p = r.dir d := by
  rcases List.mem_append.mp hp with hp | hp
  · obtain ⟨m, -, rfl⟩ := List.mem_map.mp hp
    refine ⟨.issue, ?_⟩
    have hpre : r.dir .issue <+: q := by
      rcases hq with hw | ⟨-, rfl⟩
      · exact List.IsPrefix.trans ⟨[r.runDir], rfl⟩ hw
      · exact ⟨[("R-libs" : Str), r.packageName], rfl⟩
    exact (List.prefix_of_prefix_length_le hpq hpre le_rfl).eq_of_length rfl
  · obtain ⟨m, -, hp⟩ := List.mem_flatMap.mp hp
    obtain ⟨x, hx, rfl⟩ := List.mem_map.mp hp
    rcases hq with hw | ⟨-, rfl⟩
    · exact ⟨.run, (List.prefix_of_prefix_length_le hpq hw le_rfl).eq_of_length rfl⟩
    · have hpre : r.dir .libs <+: r.libPath r.packageName := ⟨[r.packageName], rfl⟩
      exact ⟨.libs, (List.prefix_of_prefix_length_le hpq hpre le_rfl).eq_of_length rfl⟩

/-- What a job sees is left where its directories are. -/
theorem seenTree_cleanUp (hreads : ReadsPaths h fs.tree issues)
    (hkeep : ∀ d, entry (afterCleanUp h issues fs).tree (r.dir d) = entry fs.tree (r.dir d)) :
    seenTree lib r (afterCleanUp h issues fs).tree = seenTree lib r fs.tree := by
  have he := afterCleanUp_eq hreads
  rw [he]
  apply seenTree_removeAll
  intro p hp
  have hne : p ≠ [] := by
    rcases List.mem_append.mp hp with hm | hm
    · obtain ⟨m, -, rfl⟩ := List.mem_map.mp hm
      simp [issueDir]
    · obtain ⟨m, -, hm⟩ := List.mem_flatMap.mp hm
      obtain ⟨x, -, rfl⟩ := List.mem_map.mp hm
      simp [issueDir]
  refine ⟨hne, Classical.or_iff_not_imp_left.mpr fun hthere q hpq hq => hthere ?_⟩
  obtain ⟨d, rfl⟩ := removed_is_dir hp hq hpq
  rw [← hkeep d, he, entry_removeAll, if_pos ⟨_, hp, List.prefix_rfl⟩]

theorem message_cleanUp {m : Request} (hreads : ReadsPaths h fs.tree issues)
    (hm : message? (afterCleanUp h issues fs).tree p = some m) :
    message? fs.tree p = some m := by
  have he := afterCleanUp_eq hreads
  rw [message_eq_some, he, entry_removeAll] at hm
  split at hm
  · cases hm
  · exact message_eq_some.mpr hm

theorem natStr_issue {n : Nat} {d : Level} (hp : issueDir n <+: r.dir d) :
    natStr n = r.issue := by
  cases d with
  | jobs => exact absurd hp.length_le (by simp [issueDir, Request.dir])
  | _ => simpa [issueDir, Request.dir] using hp

/-- A run of the script leaves the directories of a job if the issue is not in the answer, or is
young and the run directory, if it is there, was modified last. -/
theorem cleanUp_spares (hreads : ReadsPaths h fs.tree issues)
    (hissue : ∀ k ∈ issues.list, natStr k.number = r.issue → diffDays h k < 31 ∧
      (entry fs.tree r.workingDir = none ∨
        (orderList h fs.tree (r.dir .issue)).getLast? = some r.runDir)) (d : Level) :
    entry (afterCleanUp h issues fs).tree (r.dir d) = entry fs.tree (r.dir d) := by
  have he := afterCleanUp_eq hreads
  rw [he, entry_removeAll]
  split
  next hp =>
    obtain ⟨p, hp, hpd⟩ := hp
    rcases List.mem_append.mp hp with hp | hp
    · -- an old issue
      obtain ⟨m, hm, rfl⟩ := List.mem_map.mp hp
      obtain ⟨k, hk, hd, rfl⟩ := mem_issueNums.mp ((h.order_perm _).mem_iff.mp hm)
      have := (hissue k hk (natStr_issue hpd)).1
      omega
    · obtain ⟨m, hm, hp⟩ := List.mem_flatMap.mp hp
      obtain ⟨k, hk, hd, rfl⟩ := mem_closeNums.mp (of_mem_trimmedNums hm).1
      obtain ⟨x, hx, rfl⟩ := List.mem_map.mp hp
      have hname : natStr k.number = r.issue := natStr_issue ((List.prefix_append _ _).trans hpd)
      have hdir : issueDir k.number = r.dir .issue := by rw [issueDir, hname]; rfl
      rw [hdir] at hx hpd
      have hlibs := (mem_orderList.mp (List.mem_of_mem_dropLast hx)).1
      cases d with
      | jobs | issue => exact absurd hpd.length_le (by simp [Request.dir])
      | libs => exact absurd (by simpa [Request.dir] using hpd) hlibs
      | run =>
        obtain rfl : x = r.runDir := by simpa [Request.dir] using hpd
        rcases (hissue k hk hname).2 with hnone | hlast
        · exact hnone.symm
        · obtain ⟨ys, hys⟩ := List.getLast?_eq_some_iff.mp hlast
          have hnd : (orderList h fs.tree (r.dir .issue)).Nodup := nodup_orderList
          rw [hys] at hx hnd
          rw [List.dropLast_concat] at hx
          exact absurd rfl ((List.nodup_append.mp hnd).2.2 _ hx _ (by simp))
  next => rfl

theorem Straight.cleanUp (hs : Straight s j (l, n)) (ht : fs.tree = n.tree)
    (hreads : ReadsPaths h fs.tree issues) :
    Straight s j (l, n.on (afterCleanUp h issues fs).tree) where
  suffix := hs.suffix
  records := ⟨hs.records.launched, hs.records.acked, hs.records.outbox⟩
  manifest hw q hq := hs.manifest hw q (ht ▸ message_cleanUp hreads hq)
  body := hs.body

omit [DecidableEq ι] in
theorem Follows.cleanUp (hf : Follows lib s i (l, n) v) (ht : fs.tree = n.tree)
    (hreads : ReadsPaths h fs.tree issues)
    (hkeep : ∀ d, entry (afterCleanUp h issues fs).tree ((s.message i).dir d) =
      entry fs.tree ((s.message i).dir d)) :
    Follows lib s i (l, n.on (afterCleanUp h issues fs).tree) v := by
  rcases hf with hd | hm
  · exact .inl hd
  · refine .inr ⟨hm.todo, hm.dropped, hm.builder, ?_, hm.launched, hm.dirs.same ?_ fun _ => rfl⟩
    · have hseen : seenTree lib (s.message i) (afterCleanUp h issues fs).tree =
          seenTree lib (s.message i) fs.tree := seenTree_cleanUp hreads hkeep
      exact hseen.trans (ht ▸ hm.tree)
    · intro d
      exact (hkeep d).trans (by rw [ht])

/-- A job among others and between runs of the script does, as far as it goes, what it does
alone. -/
theorem nodeRun_follows (ha : Apart s) (hlib : lib = true → OwnLib s i)
    {ys : List (Thread × Packages ν)} {c : Config ι (Job ν) (Node ι ν)}
    (hr : NodeRun s (jobStep s) i t ys c) :
    (∀ j, Straight s j (c.view j)) ∧ Follows lib s i (c.view i) (s.alone t i ys) := by
  induction hr with
  | start => exact ⟨straight_start ha t, (follows_run ha hlib t []).2⟩
  | @turn ys c x hr ih =>
    obtain ⟨hs, hf⟩ := ih
    have hview : ∀ j, Straight s j ((act (jobStep s) c x).view j) := by
      intro j
      by_cases hj : j = x.1
      · subst hj
        rw [view_act_self]
        exact straight_own ha (hs x.1) x.2
      · rw [view_act_other hj]
        exact straight_other ha hj (hs j) (hs x.1) x.2
    refine ⟨hview, ?_⟩
    by_cases hi : x.1 = i
    · subst hi
      rw [if_pos rfl, Site.alone, List.foldl_append, view_act_self]
      exact follows_own ha x.2 (hs x.1) hf
    · rw [if_neg hi, List.append_nil, view_act_other (Ne.symm hi)]
      exact follows_other ha hlib (Ne.symm hi) (hs x.1) x.2 hf
  | cleanUp h issues fs ht hreads hkeep hr ih =>
    obtain ⟨hs, hf⟩ := ih
    exact ⟨fun j => (hs j).cleanUp ht hreads, hf.cleanUp ht hreads hkeep⟩

/-- Runs of cleanUpIssues.py at any time that leave the directories of a job do not change what its
builder does, up to its check, or all of it if no other job leaves a package of that name in the
R-libs of its issue. -/
theorem job_spared (ha : Apart s) {node : Env} {stays : ι → List (Char × Bool) → Bool}
    {besides : Besides ι ν} (hb : Tame s node stays besides) {ys : List (Thread × Packages ν)}
    {c : Config ι (Job ν) (Node ι ν)} (hr : NodeRun s (nodeStep s besides) i t ys c)
    (hl : i ∈ c.shared.launched) :
    (∀ q, (c.parts i).builder.body = some q → q = s.message i) ∧
    (c.parts i).builder.seen false = (s.alone t i ys).1.builder.seen false ∧
    (OwnLib s i → (c.parts i).builder = (s.alone t i ys).1.builder) := by
  rw [hb.nodeStep] at hr
  have hmatch : ∀ lib : Bool, (lib = true → OwnLib s i) →
      Match lib s i (c.view i) (s.alone t i ys) := by
    intro lib hlib
    exact (nodeRun_follows ha hlib hr).2.resolve_left fun hd => hd.2 hl
  have hno : false = true → OwnLib s i := by simp
  exact ⟨((nodeRun_follows ha hno hr).1 i).body, (hmatch false hno).builder,
    fun hown => (hmatch true fun _ => hown).builder⟩

theorem NodeRun.turns {step : Program ι Thread (Job ν) (Node ι ν)} {ys : List (Thread × Packages ν)}
    {c : Config ι (Job ν) (Node ι ν)} (hr : NodeRun s step i t ys c) (xs : List (ι × Thread)) :
    NodeRun s step i t (ys ++ met step (fun n => s.finds i n.tree) i c xs) (run step c xs) := by
  induction xs using List.reverseRecOn with
  | nil => simpa [met] using hr
  | append_singleton xs x ih =>
    rw [run_concat, met_concat, ← List.append_assoc]
    exact ih.turn x

/-- The state when the builder of the later commit is launched. -/
def launchedNode : Config Bool (Job ℕ) (Node Bool ℕ) :=
  twoCommits.reached untouched issueTree (List.replicate 14 (true, .handler))

def launchedTree : FileSystem Str (Content ℕ) where
  tree := launchedNode.shared.tree
  nodup := by decide +kernel
  rooted := by decide +kernel

theorem twoCommits_apart : Apart twoCommits where
  wellFormed := by decide +kernel
  dirs := by decide +kernel
  libs := by decide +kernel

theorem twoCommits_tame : Tame twoCommits spbtest (fun _ _ => false) untouched where
  plain := by decide +kernel
  leaves _ _ _ _ := rfl

/-- Its builder works on while the script trims the directory of its issue. -/
theorem job_spared_twoCommits : ∃ (ys : List (Thread × Packages ℕ))
    (c : Config Bool (Job ℕ) (Node Bool ℕ)), (c.parts true).builder.report = some 1 ∧
      (c.parts true).builder.seen false =
        (twoCommits.alone issueTree true ys).1.builder.seen false := by
  have hlaunched : NodeRun twoCommits (nodeStep twoCommits untouched) true issueTree _ launchedNode :=
    NodeRun.start.turns (List.replicate 14 (true, .handler))
  have hreads : ReadsPaths tenDaysLater launchedTree.tree issue3145 := by decide +kernel
  have hkeep : ∀ d, entry (afterCleanUp tenDaysLater issue3145 launchedTree).tree
      ((twoCommits.message true).dir d) = entry launchedTree.tree ((twoCommits.message true).dir d) := by
    apply cleanUp_spares hreads
    intro k hk _
    obtain rfl : k = { number := 3145, closedAt := 0 } := by simpa [issue3145] using hk
    exact ⟨by decide +kernel, .inr (by decide +kernel)⟩
  have hrun := (hlaunched.cleanUp tenDaysLater issue3145 launchedTree rfl hreads hkeep).turns
    (List.replicate 10 (true, .builder))
  exact ⟨_, _, by decide +kernel,
    (job_spared twoCommits_apart twoCommits_tame hrun (by decide +kernel)).2.1⟩

end PackageBuilder
