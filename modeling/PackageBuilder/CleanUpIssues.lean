import PackageBuilder.Duration
import PackageBuilder.RemoveCommand

/-! cleanUpIssues.py: what it removes below the jobs directory. -/
namespace PackageBuilder
open Text FileTree Posix Shell

/-- An issue in the answer of GitHub: `closed_at` in seconds of UTC. -/
structure ClosedIssue where
  number : Nat
  closedAt : Int
  deriving DecidableEq, Repr

/-- The answer, in which a number stands for one issue. -/
structure ClosedIssues where
  list : List ClosedIssue
  consistent : ∀ k ∈ list, ∀ k' ∈ list, k.number = k'.number → k = k'

/-- The time, and the local clock of the host before or after UTC, in microseconds; the order in
which a set is gone through; the modification times; the command interpreter; and what `rm -rf`
does with an operand that is not below spb_home, where the script's tree is. -/
structure CleanUpHost (α : Type) extends Interpreter α where
  now : Int
  utcOffset : Int
  offset_bounds : -12 * 3600000000 ≤ utcOffset ∧ utcOffset ≤ 14 * 3600000000
  order : List Nat → List Nat
  order_perm : ∀ l, (order l).Perm l
  mtime : List Str → Int
  spbHome : Str
  elsewhere : Str → FileSystem Str α → FileSystem Str α := fun _ fs => fs

/-- What ends the script early. -/
inductive CleanUpFailure
  | notADirectory | popFromEmpty
  deriving DecidableEq, Repr

def issueDir (number : Nat) : List Str := ["jobs", natStr number]

section
variable {α : Type} (h : CleanUpHost α)

/-- `diff_date.days` -/
def diffDays (k : ClosedIssue) : Int :=
  (h.now + h.utcOffset - k.closedAt * 1000000) / 86400000000

def issueNums (issues : ClosedIssues) : List Nat :=
  ((issues.list.filter fun k => 30 < diffDays h k).map ClosedIssue.number).dedup

def closeNums (issues : ClosedIssues) : List Nat :=
  ((issues.list.filter fun k => ¬ 30 < diffDays h k).map ClosedIssue.number).dedup

/-- `sorted_ls` -/
def sortedLs (t : Tree Str α) (path : List Str) : List Str :=
  (names t path).insertionSort fun a b => h.mtime (path ++ [a]) ≤ h.mtime (path ++ [b])

def orderList (t : Tree Str α) (path : List Str) : List Str :=
  (sortedLs h t path).filter (· ≠ "R-libs")

/-- `pkg_rm` -/
def pkgRm (number : Nat) : Str := pathJoin (pathJoin h.spbHome "jobs") (natStr number)

variable [DecidableEq α]

/-- `rm -rf` of one operand. -/
def CleanUpHost.operand (fs : FileSystem Str α) (x : Str) : FileSystem Str α :=
  if pathJoin h.spbHome "" <+: x then rmOperand [] fs (x.drop (pathJoin h.spbHome "").length)
  else h.elsewhere x fs

/-- `subprocess.call("rm -rf " + path, shell=True)` -/
def CleanUpHost.rmrf (fs : FileSystem Str α) (path : Str) : FileSystem Str α :=
  h.command h.operand fs ("rm -rf " ++ path)

/-- The first pass, for one issue. -/
def removeIssue (fs : FileSystem Str α) (number : Nat) : FileSystem Str α :=
  if present fs.tree (issueDir number) then h.rmrf fs (pkgRm h number) else fs

/-- The second pass, for one issue: `pop` takes the last one off the list. -/
def trimIssue (fs : FileSystem Str α) (number : Nat) :
    Except CleanUpFailure (FileSystem Str α) :=
  if present fs.tree (issueDir number) then
    if entry fs.tree (issueDir number) = some .dir then
      if orderList h fs.tree (issueDir number) = [] then
        .error .popFromEmpty
      else
        .ok ((orderList h fs.tree (issueDir number)).dropLast.foldl
          (fun fs subdir => h.rmrf fs (pathJoin (pkgRm h number) subdir)) fs)
    else
      .error .notADirectory
  else
    .ok fs

/-- The script. -/
def cleanUpIssues (issues : ClosedIssues) (fs : FileSystem Str α) :
    Except CleanUpFailure (FileSystem Str α) :=
  (h.order (closeNums h issues)).foldlM (trimIssue h)
    ((h.order (issueNums h issues)).foldl (removeIssue h) fs)

end

section
variable {α : Type} (h : CleanUpHost α) (t : Tree Str α)

/-- Each command of the second pass for an issue has the path for its only operand. -/
def ReadsDrops (n : Nat) : Prop :=
  ∀ x ∈ (orderList h t (issueDir n)).dropLast,
    IsFileName x ∧ h.ReadsOperand (pathJoin (pkgRm h n) x)

/-- Each command of the script has the path for its only operand. -/
structure ReadsPaths (issues : ClosedIssues) : Prop where
  old : ∀ n ∈ issueNums h issues, entry t (issueDir n) ≠ none → h.ReadsOperand (pkgRm h n)
  drops : ∀ n ∈ closeNums h issues, ReadsDrops h t n

instance (n : Nat) : Decidable (ReadsDrops h t n) :=
  inferInstanceAs (Decidable (∀ x ∈ (orderList h t (issueDir n)).dropLast, _ ∧ _))

instance (issues : ClosedIssues) [DecidableEq α] : Decidable (ReadsPaths h t issues) :=
  decidable_of_iff
    ((∀ n ∈ issueNums h issues, entry t (issueDir n) ≠ none → h.ReadsOperand (pkgRm h n)) ∧
      ∀ n ∈ closeNums h issues, ReadsDrops h t n)
    ⟨fun ⟨a, b⟩ => ⟨a, b⟩, fun ⟨a, b⟩ => ⟨a, b⟩⟩

end

section
variable {α : Type} {h : CleanUpHost α} {issues : ClosedIssues} {fs fs' : FileSystem Str α}
  {t t' : Tree Str α} {m n : Nat} {ns : List Nat} {x y : Str} {q : List Str}

theorem natStr_injective (he : natStr m = natStr n) : m = n := by
  have hd := congrArg digitsValue he
  simpa using hd

theorem issueDir_diverge (hmn : m ≠ n) (r : List Str) : Diverge (issueDir m ++ r) (issueDir n) := by
  have hne : natStr m ≠ natStr n := fun he => hmn (natStr_injective he)
  exact diverge_append (d := [("jobs" : Str)]) (r := r) hne

/-- What the second pass removes of an issue. -/
def drops (h : CleanUpHost α) (t : Tree Str α) (n : Nat) : List (List Str) :=
  (orderList h t (issueDir n)).dropLast.map (issueDir n ++ [·])

/-- The second pass gets through this issue. -/
def Poppable (h : CleanUpHost α) (t : Tree Str α) (n : Nat) : Prop :=
  entry t (issueDir n) ≠ none →
    entry t (issueDir n) = some .dir ∧ orderList h t (issueDir n) ≠ []

theorem mem_orderList :
    x ∈ orderList h t q ↔ x ≠ "R-libs" ∧ entry t (q ++ [x]) ≠ none := by
  rw [orderList, List.mem_filter, sortedLs, List.mem_insertionSort, mem_names_iff]
  simp [and_comm]

theorem orderList_absent (ha : entry fs.tree (issueDir n) = none) :
    orderList h fs.tree (issueDir n) = [] := by
  rw [List.eq_nil_iff_forall_not_mem]
  intro x hx
  refine entry_of_prefix (mem_orderList.mp hx).2 (List.prefix_append _ _) ?_ ha
  simp [issueDir]

theorem orderList_same (hs : SameBelow (issueDir n) t t') :
    orderList h t' (issueDir n) = orderList h t (issueDir n) := by
  rw [orderList, orderList, sortedLs, sortedLs, hs.names_eq]

theorem drops_same (hs : SameBelow (issueDir n) t t') : drops h t' n = drops h t n := by
  rw [drops, drops, orderList_same hs]

theorem poppable_same (hs : SameBelow (issueDir n) t t') : Poppable h t' n ↔ Poppable h t n := by
  rw [Poppable, Poppable, orderList_same hs, hs.entry_eq List.prefix_rfl]

theorem drops_diverge (hmn : m ≠ n) : ∀ p ∈ drops h t m, Diverge p (issueDir n) := by
  intro p hp
  obtain ⟨x, -, rfl⟩ := List.mem_map.mp hp
  exact issueDir_diverge hmn [x]

theorem readsDrops_same (hs : SameBelow (issueDir n) t t') :
    ReadsDrops h t' n ↔ ReadsDrops h t n := by
  rw [ReadsDrops, ReadsDrops, orderList_same hs]

theorem natStr_isFileName (n : Nat) : IsFileName (natStr n) := by
  have hdot : '.' ∉ natStr n := not_mem_natStr rfl
  refine ⟨⟨?_, ?_, ?_⟩, not_mem_natStr rfl⟩
  · rw [natStr_eq]
    exact Nat.toDigits_ne_nil
  · intro he
    exact hdot (he ▸ by decide)
  · intro he
    exact hdot (he ▸ by decide)

theorem issueDir_fileNames (n : Nat) : ∀ c ∈ issueDir n, IsFileName c := by
  intro c hc
  rcases List.mem_cons.mp hc with rfl | hc
  · decide
  · exact List.mem_singleton.mp hc ▸ natStr_isFileName n

theorem pkgRm_eq (h : CleanUpHost α) (n : Nat) :
    pkgRm h n = pathJoin h.spbHome "" ++ ['/'].intercalate (issueDir n) := by
  have hjobs : IsFileName ("jobs" : Str) := by decide
  rw [pkgRm, pathJoin_fileName hjobs, pathJoin_join hjobs (natStr_isFileName n)]
  simp [issueDir]

theorem newpath_eq (h : CleanUpHost α) (n : Nat) (hx : IsFileName x) : pathJoin (pkgRm h n) x =
    pathJoin h.spbHome "" ++ ['/'].intercalate (issueDir n ++ [x]) := by
  have htext : pkgRm h n = pathJoin h.spbHome "" ++ ("jobs/" : Str) ++ natStr n := by
    rw [pkgRm_eq]
    simp [issueDir, ofString]
  rw [htext, pathJoin_join (natStr_isFileName n) hx]
  simp [issueDir, ofString]

/-- One issue is left alone by what the second pass removes of the others. -/
theorem drops_same_others (hn : (n :: ns).Nodup) : ∀ m ∈ ns,
    SameBelow (issueDir m) fs.tree (fs.removeAll (drops h fs.tree n)).tree := by
  intro m hm
  have hnm : n ≠ m := by
    rintro rfl
    exact (List.nodup_cons.mp hn).1 hm
  exact sameBelow_removeAll (drops_diverge hnm)

variable [DecidableEq α]

theorem rmrf_eq {p : List Str} (hp : ∀ c ∈ p, IsFileName c) (hne : p ≠ [])
    (hr : h.ReadsOperand (pathJoin h.spbHome "" ++ ['/'].intercalate p)) :
    h.rmrf fs (pathJoin h.spbHome "" ++ ['/'].intercalate p) = fs.remove p := by
  rw [CleanUpHost.rmrf, command_operand hr, CleanUpHost.operand, if_pos (List.prefix_append _ _),
    List.drop_left, rmOperand_path hp hne]

theorem removeIssue_eq (hr : entry fs.tree (issueDir n) ≠ none → h.ReadsOperand (pkgRm h n)) :
    removeIssue h fs n = fs.remove (issueDir n) := by
  unfold removeIssue
  split
  next hp =>
    have hread := hr (present_iff.mp hp)
    rw [pkgRm_eq] at hread ⊢
    exact rmrf_eq (issueDir_fileNames n) (by simp [issueDir]) hread
  next hn => exact (remove_eq_self (by simpa [present] using hn) (by simp [issueDir])).symm

/-- The first pass. -/
theorem removeIssues_eq
    (hr : ∀ n ∈ ns, entry fs.tree (issueDir n) ≠ none → h.ReadsOperand (pkgRm h n)) :
    ns.foldl (removeIssue h) fs = fs.removeAll (ns.map issueDir) := by
  induction ns generalizing fs with
  | nil => rfl
  | cons n ns ih =>
    rw [List.foldl_cons, removeIssue_eq (hr n List.mem_cons_self), ih, List.map_cons,
      removeAll_cons]
    intro m hm he
    refine hr m (List.mem_cons_of_mem n hm) fun hnone => he ?_
    rw [remove_tree, entry_rmTree, hnone, ite_self]

theorem rmrfs_eq {xs : List Str}
    (hr : ∀ x ∈ xs, IsFileName x ∧ h.ReadsOperand (pathJoin (pkgRm h n) x)) :
    xs.foldl (fun fs subdir => h.rmrf fs (pathJoin (pkgRm h n) subdir)) fs =
      fs.removeAll (xs.map (issueDir n ++ [·])) := by
  induction xs generalizing fs with
  | nil => rfl
  | cons x xs ih =>
    obtain ⟨⟨hx, hread⟩, hxs⟩ := List.forall_mem_cons.mp hr
    rw [newpath_eq h n hx] at hread
    have hnames : ∀ c ∈ issueDir n ++ [x], IsFileName c :=
      List.forall_mem_append.mpr ⟨issueDir_fileNames n, by simpa using hx⟩
    rw [List.foldl_cons, newpath_eq h n hx, rmrf_eq hnames (by simp) hread, ih hxs, List.map_cons,
      removeAll_cons]

theorem trimIssue_ok (hp : Poppable h fs.tree n) (hr : ReadsDrops h fs.tree n) :
    trimIssue h fs n = .ok (fs.removeAll (drops h fs.tree n)) := by
  unfold trimIssue
  split
  next ht =>
    obtain ⟨hd, ho⟩ := hp (present_iff.mp ht)
    rw [if_pos hd, if_neg ho, rmrfs_eq hr]
    rfl
  next ht =>
    rw [drops, orderList_absent (by simpa [present] using ht)]
    rfl

theorem trimIssue_error (hp : ¬ Poppable h fs.tree n) : ∃ e, trimIssue h fs n = .error e := by
  rw [Poppable, Classical.not_imp] at hp
  unfold trimIssue
  rw [if_pos (present_iff.mpr hp.1)]
  split
  next hd =>
    have ho : orderList h fs.tree (issueDir n) = [] := by
      by_contra ho
      exact hp.2 ⟨hd, ho⟩
    exact ⟨_, if_pos ho⟩
  next => exact ⟨_, rfl⟩

/-- The second pass, over different issues, removes what each of them has too much at its
beginning. -/
theorem trimIssues_ok (hn : ns.Nodup) (hp : ∀ n ∈ ns, Poppable h fs.tree n)
    (hr : ∀ n ∈ ns, ReadsDrops h fs.tree n) :
    ns.foldlM (trimIssue h) fs = .ok (fs.removeAll (ns.flatMap (drops h fs.tree))) := by
  induction ns generalizing fs with
  | nil => rfl
  | cons n ns ih =>
    have hsame : ∀ m ∈ ns, SameBelow (issueDir m) fs.tree
        (fs.removeAll (drops h fs.tree n)).tree := drops_same_others hn
    rw [List.foldlM_cons, trimIssue_ok (hp n List.mem_cons_self) (hr n List.mem_cons_self)]
    have hpop : ∀ m ∈ ns, Poppable h (fs.removeAll (drops h fs.tree n)).tree m := fun m hm =>
      (poppable_same (hsame m hm)).mpr (hp m (List.mem_cons_of_mem n hm))
    have hreads : ∀ m ∈ ns, ReadsDrops h (fs.removeAll (drops h fs.tree n)).tree m := fun m hm =>
      (readsDrops_same (hsame m hm)).mpr (hr m (List.mem_cons_of_mem n hm))
    have hdrops : ns.flatMap (drops h (fs.removeAll (drops h fs.tree n)).tree) =
        ns.flatMap (drops h fs.tree) :=
      List.flatMap_congr fun m hm => drops_same (hsame m hm)
    rw [List.flatMap_cons, removeAll_append, ← hdrops]
    exact ih (List.nodup_cons.mp hn).2 hpop hreads

theorem trimIssues_poppable (hn : ns.Nodup) (hr : ∀ n ∈ ns, ReadsDrops h fs.tree n)
    (hok : ns.foldlM (trimIssue h) fs = .ok fs') : ∀ n ∈ ns, Poppable h fs.tree n := by
  induction ns generalizing fs with
  | nil => exact nofun
  | cons n ns ih =>
    have hsame : ∀ m ∈ ns, SameBelow (issueDir m) fs.tree
        (fs.removeAll (drops h fs.tree n)).tree := drops_same_others hn
    rw [List.foldlM_cons] at hok
    by_cases hp : Poppable h fs.tree n
    · rw [trimIssue_ok hp (hr n List.mem_cons_self)] at hok
      have hreads : ∀ m ∈ ns, ReadsDrops h (fs.removeAll (drops h fs.tree n)).tree m :=
        fun m hm => (readsDrops_same (hsame m hm)).mpr (hr m (List.mem_cons_of_mem n hm))
      intro m hm
      rcases List.mem_cons.mp hm with rfl | hm
      · exact hp
      · exact (poppable_same (hsame m hm)).mp (ih (List.nodup_cons.mp hn).2 hreads hok m hm)
    · obtain ⟨e, he⟩ := trimIssue_error hp
      rw [he] at hok
      cases hok

end

section
variable {α : Type} (h : CleanUpHost α)

/-- Closed less than 30 days before the true time. -/
def Young (k : ClosedIssue) : Prop := h.now - k.closedAt * 1000000 < 30 * 86400000000

/-- A directory of one commit or job. -/
def RunDir (t : Tree Str α) (d : List Str) (x : Str) : Prop :=
  x ≠ "R-libs" ∧ entry t (d ++ [x]) = some .dir

/-- `kept` is a run directory that was modified last, or there is none. -/
def Latest (t : Tree Str α) (d : List Str) : Option Str → Prop
  | some y => RunDir t d y ∧ ∀ x, RunDir t d x → h.mtime (d ++ [x]) ≤ h.mtime (d ++ [y])
  | none => ∀ x, ¬ RunDir t d x

/-- A directory keeps itself, its R-libs and one run directory, and loses all else. -/
def Trimmed (t t' : Tree Str α) (d : List Str) : Prop :=
  entry t' d = entry t d ∧ (∀ q, d ++ [("R-libs" : Str)] <+: q → entry t' q = entry t q) ∧
    ∃ kept, Latest h t d kept ∧ ∀ x : Str, x ≠ "R-libs" → ∀ q, d ++ [x] <+: q →
      entry t' q = if kept = some x then entry t q else none

structure CleanedUp (issues : ClosedIssues) (t t' : Tree Str α) : Prop where
  young : ∀ k ∈ issues.list, Young h k → entry t (issueDir k.number) ≠ none →
    entry t' (issueDir k.number) ≠ none
  old : ∀ k ∈ issues.list, 31 ≤ diffDays h k → ∀ q, issueDir k.number <+: q → entry t' q = none
  trimmed : ∀ k ∈ issues.list, diffDays h k < 31 → entry t (issueDir k.number) ≠ none →
    Trimmed h t t' (issueDir k.number)
  others : ∀ q, (∀ k ∈ issues.list, ¬ issueDir k.number <+: q) → entry t' q = entry t q

/-- The script gets through the list, and does what it should. -/
def CleansUp [DecidableEq α] (issues : ClosedIssues) (fs : FileSystem Str α) : Prop :=
  ∃ fs', cleanUpIssues h issues fs = .ok fs' ∧ CleanedUp h issues fs.tree fs'.tree

/-- Where an issue to be trimmed has an entry, it is a directory, and of what it holds besides
R-libs, what comes last by modification time (and then by `os.listdir`) is a directory. -/
def Trimmable (issues : ClosedIssues) (t : Tree Str α) : Prop :=
  ∀ k ∈ issues.list, diffDays h k < 31 → entry t (issueDir k.number) ≠ none →
    entry t (issueDir k.number) = some .dir ∧
      ∃ y, (orderList h t (issueDir k.number)).getLast? = some y ∧
        entry t (issueDir k.number ++ [y]) = some .dir

end

section
variable {α : Type} {h : CleanUpHost α} {issues : ClosedIssues} {fs fs' : FileSystem Str α}
  {t t' : Tree Str α} {k : ClosedIssue} {m n : Nat} {ns : List Nat} {x y : Str} {d q : List Str}

/-- No clock is a day ahead. -/
theorem young_diffDays (hk : Young h k) : diffDays h k < 31 := by
  have := h.offset_bounds.2
  rw [Young] at hk
  rw [diffDays]
  omega

theorem mem_issueNums : n ∈ issueNums h issues ↔
    ∃ k ∈ issues.list, 31 ≤ diffDays h k ∧ k.number = n := by
  simp only [issueNums, List.mem_dedup, List.mem_map, List.mem_filter, decide_eq_true_eq, and_assoc]
  rfl

theorem mem_closeNums : n ∈ closeNums h issues ↔
    ∃ k ∈ issues.list, diffDays h k < 31 ∧ k.number = n := by
  simp only [closeNums, List.mem_dedup, List.mem_map, List.mem_filter, decide_eq_true_eq, and_assoc]
  constructor
  · rintro ⟨k, hk, hd, hn⟩
    exact ⟨k, hk, by omega, hn⟩
  · rintro ⟨k, hk, hd, hn⟩
    exact ⟨k, hk, by omega, hn⟩

theorem closeNums_not_issueNums (hn : n ∈ closeNums h issues) : n ∉ issueNums h issues := by
  intro hi
  obtain ⟨k, hk, hd, hkn⟩ := mem_closeNums.mp hn
  obtain ⟨k', hk', hd', rfl⟩ := mem_issueNums.mp hi
  obtain rfl := issues.consistent k hk k' hk' hkn
  omega

/-- What both passes remove, in their order. -/
def removals (h : CleanUpHost α) (issues : ClosedIssues) (t : Tree Str α) : List (List Str) :=
  (h.order (issueNums h issues)).map issueDir ++
    (h.order (closeNums h issues)).flatMap (drops h t)

theorem mem_removals {p : List Str} : p ∈ removals h issues t ↔
    (∃ n ∈ issueNums h issues, p = issueDir n) ∨ ∃ n ∈ closeNums h issues, p ∈ drops h t n := by
  simp only [removals, List.mem_append, List.mem_map, List.mem_flatMap,
    (h.order_perm _).mem_iff, eq_comm]

/-- What the first pass removes is not what the second is about. -/
theorem firstPass_same (hn : n ∈ closeNums h issues) : SameBelow (issueDir n) fs.tree
    (fs.removeAll ((h.order (issueNums h issues)).map issueDir)).tree := by
  apply sameBelow_removeAll
  intro p hp
  obtain ⟨m, hm, rfl⟩ := List.mem_map.mp hp
  have hmn : m ≠ n := by
    rintro rfl
    exact closeNums_not_issueNums hn ((h.order_perm _).mem_iff.mp hm)
  simpa using issueDir_diverge hmn []

theorem mem_order_closeNums : n ∈ h.order (closeNums h issues) ↔ n ∈ closeNums h issues :=
  (h.order_perm _).mem_iff

theorem nodup_order_closeNums : (h.order (closeNums h issues)).Nodup :=
  (h.order_perm _).nodup_iff.mpr (List.nodup_dedup _)

theorem firstPass_reads (hr : ReadsPaths h fs.tree issues) :
    ∀ n ∈ h.order (closeNums h issues),
      ReadsDrops h (fs.removeAll ((h.order (issueNums h issues)).map issueDir)).tree n := by
  intro n hn
  have hclose := mem_order_closeNums.mp hn
  exact (readsDrops_same (firstPass_same hclose)).mpr (hr.drops n hclose)

section
variable [DecidableEq α]

theorem firstPass_eq (hr : ReadsPaths h fs.tree issues) :
    (h.order (issueNums h issues)).foldl (removeIssue h) fs =
      fs.removeAll ((h.order (issueNums h issues)).map issueDir) :=
  removeIssues_eq fun n hn => hr.old n ((h.order_perm _).mem_iff.mp hn)

theorem cleanUp_ok (hr : ReadsPaths h fs.tree issues)
    (hp : ∀ n ∈ closeNums h issues, Poppable h fs.tree n) :
    cleanUpIssues h issues fs = .ok (fs.removeAll (removals h issues fs.tree)) := by
  have hdrops : (h.order (closeNums h issues)).flatMap
      (drops h (fs.removeAll ((h.order (issueNums h issues)).map issueDir)).tree) =
        (h.order (closeNums h issues)).flatMap (drops h fs.tree) :=
    List.flatMap_congr fun n hn => drops_same (firstPass_same (mem_order_closeNums.mp hn))
  have hpop : ∀ n ∈ h.order (closeNums h issues),
      Poppable h (fs.removeAll ((h.order (issueNums h issues)).map issueDir)).tree n := by
    intro n hn
    have hclose := mem_order_closeNums.mp hn
    exact (poppable_same (firstPass_same hclose)).mpr (hp n hclose)
  rw [cleanUpIssues, firstPass_eq hr,
    trimIssues_ok nodup_order_closeNums hpop (firstPass_reads hr), hdrops, removals,
    removeAll_append]

theorem cleanUp_poppable (hr : ReadsPaths h fs.tree issues)
    (hok : cleanUpIssues h issues fs = .ok fs') :
    ∀ n ∈ closeNums h issues, Poppable h fs.tree n := by
  intro n hn
  rw [cleanUpIssues, firstPass_eq hr] at hok
  have hp := trimIssues_poppable nodup_order_closeNums (firstPass_reads hr) hok n
    (mem_order_closeNums.mpr hn)
  exact (poppable_same (firstPass_same hn)).mp hp

end

/-- Of an issue that is trimmed, only what is dropped goes. -/
theorem entry_trimmed (hn : n ∈ closeNums h issues) (hq : issueDir n <+: q) :
    entry (fs.removeAll (removals h issues fs.tree)).tree q =
      if ∃ p ∈ drops h fs.tree n, p <+: q then none else entry fs.tree q := by
  rw [entry_removeAll]
  refine if_congr ?_ rfl rfl
  constructor
  · rintro ⟨p, hp, hpq⟩
    rcases mem_removals.mp hp with ⟨m, hm, rfl⟩ | ⟨m, hm, hp⟩
    · have hmn : m ≠ n := by
        rintro rfl
        exact closeNums_not_issueNums hn hm
      have hd := issueDir_diverge hmn [] q
      rw [List.append_nil] at hd
      exact absurd hq (hd hpq)
    · by_cases hmn : m = n
      · exact ⟨p, hmn ▸ hp, hpq⟩
      · exact absurd hq (drops_diverge hmn p hp q hpq)
  · rintro ⟨p, hp, hpq⟩
    exact ⟨p, mem_removals.mpr (.inr ⟨n, hn, hp⟩), hpq⟩

theorem eq_of_prefixes (hx : d ++ [x] <+: q) (hy : d ++ [y] <+: q) : x = y := by
  obtain ⟨a, rfl⟩ := hx
  obtain ⟨b, hb⟩ := hy
  simp at hb
  exact hb.1.symm

theorem dropped_iff (hx : issueDir n ++ [x] <+: q) :
    (∃ p ∈ drops h t n, p <+: q) ↔ x ∈ (orderList h t (issueDir n)).dropLast := by
  constructor
  · rintro ⟨p, hp, hpq⟩
    obtain ⟨y, hy, rfl⟩ := List.mem_map.mp hp
    exact eq_of_prefixes hpq hx ▸ hy
  · intro hm
    exact ⟨_, List.mem_map_of_mem hm, hx⟩

theorem pairwise_orderList :
    (orderList h t d).Pairwise fun a b => h.mtime (d ++ [a]) ≤ h.mtime (d ++ [b]) := by
  have : Std.Total fun a b : Str => h.mtime (d ++ [a]) ≤ h.mtime (d ++ [b]) :=
    ⟨fun _ _ => le_total _ _⟩
  have : IsTrans Str fun a b => h.mtime (d ++ [a]) ≤ h.mtime (d ++ [b]) :=
    ⟨fun _ _ _ => le_trans⟩
  exact (List.pairwise_insertionSort _ _).filter _

theorem nodup_orderList : (orderList h fs.tree d).Nodup := by
  apply List.Nodup.filter
  exact ((List.perm_insertionSort _ _).nodup_iff).mpr (nodup_names fs.nodup)

/-- What comes last is a latest run directory, if it is a directory at all. -/
theorem latest_of_last (hy : (orderList h t d).getLast? = some y)
    (hdir : entry t (d ++ [y]) = some .dir) : Latest h t d (some y) := by
  obtain ⟨ys, hys⟩ := List.getLast?_eq_some_iff.mp hy
  have hmem : y ∈ orderList h t d := by simp [hys]
  refine ⟨⟨(mem_orderList.mp hmem).1, hdir⟩, fun x hx => ?_⟩
  have hxm : x ∈ orderList h t d := mem_orderList.mpr ⟨hx.1, by simp [hx.2]⟩
  have hp : (orderList h t d).Pairwise fun a b => h.mtime (d ++ [a]) ≤ h.mtime (d ++ [b]) :=
    pairwise_orderList
  rw [hys] at hxm hp
  rcases List.mem_append.mp hxm with hxm | hxm
  · exact (List.pairwise_append.mp hp).2.2 x hxm y (by simp)
  · obtain rfl := List.mem_singleton.mp hxm
    exact le_rfl

theorem trimmed_of_last (hn : n ∈ closeNums h issues)
    (hy : (orderList h fs.tree (issueDir n)).getLast? = some y)
    (hdir : entry fs.tree (issueDir n ++ [y]) = some .dir) :
    Trimmed h fs.tree (fs.removeAll (removals h issues fs.tree)).tree (issueDir n) := by
  have hbelow : ∀ {x : Str} {q : List Str}, issueDir n ++ [x] <+: q → issueDir n <+: q :=
    fun hx => (List.prefix_append _ _).trans hx
  refine ⟨?_, ?_, some y, latest_of_last hy hdir, ?_⟩
  · rw [entry_trimmed hn List.prefix_rfl, if_neg]
    rintro ⟨p, hp, hpq⟩
    obtain ⟨x, -, rfl⟩ := List.mem_map.mp hp
    exact absurd hpq.length_le (by simp)
  · intro q hq
    rw [entry_trimmed hn (hbelow hq), if_neg]
    rw [dropped_iff hq]
    intro hm
    exact (mem_orderList.mp (List.mem_of_mem_dropLast hm)).1 rfl
  · intro x hx q hq
    obtain ⟨ys, hys⟩ := List.getLast?_eq_some_iff.mp hy
    have hnd : (orderList h fs.tree (issueDir n)).Nodup := nodup_orderList
    rw [entry_trimmed hn (hbelow hq), if_congr (dropped_iff hq) rfl rfl]
    rw [hys] at hnd ⊢
    rw [List.dropLast_concat]
    by_cases hxy : y = x
    · subst hxy
      have hnot : y ∉ ys := fun hm => (List.nodup_append.mp hnd).2.2 y hm y (by simp) rfl
      simp [hnot]
    · simp only [Option.some.injEq, hxy, if_false]
      split
      · rfl
      next hm =>
        -- what was not listed was not there
        by_contra hne
        have hx' : x ∈ orderList h fs.tree (issueDir n) :=
          mem_orderList.mpr ⟨hx, entry_of_prefix hne hq (by simp)⟩
        rw [hys] at hx'
        rcases List.mem_append.mp hx' with hx' | hx'
        · exact hm hx'
        · exact hxy (List.mem_singleton.mp hx').symm

end

/-- Ten days after the epoch, in UTC. -/
def tenDaysLater {α : Type} : CleanUpHost α where
  words := commandWords fun _ => false
  now := 10 * 86400000000
  utcOffset := 0
  offset_bounds := by decide
  order l := l
  order_perm _ := .refl _
  mtime _ := 0
  spbHome := "/home/biocbuild/spb"

def issue3145 : ClosedIssues where
  list := [{ number := 3145, closedAt := 0 }]
  consistent := by decide

/-- Two run directories of issue 3145. -/
def twoRuns : FileSystem Str Unit where
  tree := [(["jobs"], .dir), (["jobs", "3145"], .dir), (["jobs", "3145", "R-libs"], .dir),
    (["jobs", "3145", "17ff114b"], .dir), (["jobs", "3145", "2acf0f2c"], .dir)]
  nodup := by decide
  rooted := by decide

/-- What an issue has whose only request was rejected. -/
def libsOnly : FileSystem Str Unit where
  tree := [(["jobs"], .dir), (["jobs", "3145"], .dir), (["jobs", "3145", "R-libs"], .dir)]
  nodup := by decide
  rooted := by decide

/-- The job id of one of two runs has a blank. -/
def blankRun : FileSystem Str Unit where
  tree := [(["jobs"], .dir), (["jobs", "3145"], .dir), (["jobs", "3145", "R-libs"], .dir),
    (["jobs", "3145", "spb test5_20230208"], .dir), (["jobs", "3145", "2acf0f2c"], .dir)]
  nodup := by decide
  rooted := by decide

end PackageBuilder
