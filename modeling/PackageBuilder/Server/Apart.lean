import PackageBuilder.Server.System
import PackageBuilder.Server.View

/-! What jobs with directories of their own leave alone of each other's. -/
namespace PackageBuilder
open Text FileTree Interleaving

variable {ι ν : Type}

/-- Every run has a directory of its own, which is not the R-libs of its issue. -/
structure Apart (s : Site ι ν) : Prop where
  wellFormed : ∀ i, (s.message i).WellFormed
  dirs : ∀ i j, i ≠ j → (s.message i).workingDir ≠ (s.message j).workingDir
  libs : ∀ i, (s.message i).runDir ≠ "R-libs"

/-- No other job leaves a package of this name, its own or a dependency, in the same R-libs. -/
def OwnLib (s : Site ι ν) (i : ι) : Prop :=
  ∀ j, j ≠ i → (s.message j).issue = (s.message i).issue →
    ¬ (s.tools j).Leaves (s.message j).packageName (s.message i).packageName

variable {s : Site ι ν} {i j : ι} {n : Node ι ν} {l m : Job ν} {k : Thread} {lib : Bool}
  {a : Job ν × Node ι ν} {p : List Str} {d : Level}

theorem workingDir_eq {r q : Request} {name : Str} (h : r.workingDir <+: q.path name) :
    r.workingDir = q.workingDir := by
  have he : r.workingDir = (q.path name).take 3 := by
    rw [List.prefix_iff_eq_take.mp h]
    rfl
  simpa [Request.path, Request.dir] using he

/-- The paths a job changes are not seen by another. -/
theorem jobPath_unseen (ha : Apart s) (hij : i ≠ j) (hlib : lib = true → OwnLib s i)
    (hbody : ∀ q, m.builder.body = some q → q = s.message j) (hp : JobPath s j m p)
    {q : List Str} (hq : p <+: q) : ¬ Sees lib (s.message i) q := by
  have hlen := hp.length
  rintro (hw | ⟨hl, rfl⟩)
  · have hpre : (s.message i).workingDir <+: p := by
      apply List.prefix_of_prefix_length_le hw hq
      rw [hlen]
      exact (dir_length _ .run).trans (by decide)
    rcases hp with ⟨name, rfl⟩ | ⟨m', name, -, -, rfl⟩
    · exact ha.dirs i j hij (workingDir_eq hpre)
    · have he := List.prefix_iff_eq_take.mp hpre
      simp [Request.libPath, Request.dir] at he
      exact ha.libs i he.2
  · have he : p = (s.message i).libPath (s.message i).packageName :=
      hq.eq_of_length (by rw [hlen]; rfl)
    rcases hp with ⟨name, rfl⟩ | ⟨m', name, hm, hleft, rfl⟩
    · simp [Request.path, Request.libPath, Request.dir] at he
      exact ha.libs j he.2.1
    · obtain ⟨q, hq, hm⟩ := Option.bind_eq_some_iff.mp hm
      have hname : m'.packageName = (s.message j).packageName := by
        rw [← hbody q hq, Request.packageName, hm]
        rfl
      simp [Request.libPath, Request.dir] at he
      rw [hname, he.2] at hleft
      exact hlib hl j hij.symm he.1 hleft

theorem dir_unseen (ha : Apart s) (hij : i ≠ j) : ¬ Sees lib (s.message i) ((s.message j).dir d) := by
  have hlen := dir_length (s.message j) d
  rintro (hw | ⟨-, hl⟩)
  · have he : (s.message i).workingDir = (s.message j).dir d := hw.eq_of_length_le hlen
    cases d with
    | jobs | issue => simp [Request.dir] at he
    | libs =>
      simp [Request.dir] at he
      exact ha.libs i he.2
    | run => exact ha.dirs i j hij he
  · rw [hl] at hlen
    simp [Request.libPath, Request.dir] at hlen

theorem level_unseen (ha : Apart s) (hd : d ≠ .run) :
    ¬ Sees lib (s.message i) ((s.message i).dir d) := by
  have hlen := dir_length (s.message i) d
  rintro (hw | ⟨-, hl⟩)
  · have he : (s.message i).workingDir = (s.message i).dir d := hw.eq_of_length_le hlen
    cases d with
    | jobs | issue => simp [Request.dir] at he
    | libs =>
      simp [Request.dir] at he
      exact ha.libs i he
    | run => exact hd rfl
  · rw [hl] at hlen
    simp [Request.libPath, Request.dir] at hlen

theorem message_eq_some {t : Tree Str (Content ν)} {q : Request} :
    message? t p = some q ↔ entry t p = some (.file (.message q)) := by
  unfold message? content
  rcases entry t p with _ | (_ | (_ | _ | _ | _)) <;> simp

variable [DecidableEq ι] [DecidableEq ν]

/-- What a job sees of the tree is not changed by the others. -/
theorem seenTree_other (ha : Apart s) (hij : i ≠ j) (hlib : lib = true → OwnLib s i)
    (hbody : ∀ q, m.builder.body = some q → q = s.message j) (k : Thread) (n : Node ι ν) :
    seenTree lib (s.message i) (jobStep s j k (m, n)).2.tree = seenTree lib (s.message i) n.tree := by
  rcases jobStep_tree s j k m n with ht | ⟨-, d, -, hm⟩
  · exact ht.part_eq fun p hp q hq => jobPath_unseen ha hij hlib hbody hp hq
  · obtain ⟨-, -, ht⟩ := mkdir_eq_some.mp hm
    rw [ht]
    exact part_put_other (dir_unseen ha hij)

/-- A job writes no message but its own. -/
theorem jobStep_message {q : Request} (k : Thread) (l : Job ν) (n : Node ι ν)
    (h : message? (jobStep s i k (l, n)).2.tree p = some q) :
    message? n.tree p = some q ∨ q = s.message i := by
  rw [message_eq_some] at h ⊢
  rcases jobStep_tree s i k l n with ht | ⟨-, d, -, hm⟩
  · rcases ht.entry_cases h with he | he
    · exact .inl he
    · exact .inr (he q rfl)
  · obtain ⟨-, -, ht⟩ := mkdir_eq_some.mp hm
    rw [ht, entry_put] at h
    split at h
    · cases h
    · exact .inl h

/-- What holds of every job when the run directories are apart. -/
structure Straight (s : Site ι ν) (i : ι) (a : Job ν × Node ι ν) : Prop where
  suffix : a.1.handler.todo <:+ requestActions
  records : Records s i a.1 a.2
  manifest : .writeManifest ∉ a.1.handler.todo →
    ∀ q, message? a.2.tree ((s.message i).path "manifest.json") = some q → q = s.message i
  body : ∀ q, a.1.builder.body = some q → q = s.message i

omit [DecidableEq ι] in
theorem handlerStep_suffix (h : Handler) (n : Node ι ν) :
    (handlerStep s i (h, n)).1.todo <:+ h.todo := by
  have ht : HandlerTurn s i h n (handlerStep s i (h, n)) := handlerStep_turn h n
  generalize handlerStep s i (h, n) = a at ht ⊢
  cases ht with
  | idle | tests | raises => exact List.suffix_rfl
  | goes _ htodo => exact htodo ▸ List.suffix_cons _ _

omit [DecidableEq ι] in
/-- The message is in its place once it has been written. -/
theorem handlerStep_writes {h : Handler} (hm : .writeManifest ∈ h.todo)
    (hm' : .writeManifest ∉ (handlerStep s i (h, n)).1.todo) :
    (handlerStep s i (h, n)).2.tree =
      write n.tree ((s.message i).path "manifest.json") (.message (s.message i)) := by
  have ht : HandlerTurn s i h n (handlerStep s i (h, n)) := handlerStep_turn h n
  generalize handlerStep s i (h, n) = a at ht hm' ⊢
  cases ht with
  | idle | tests | raises => exact absurd hm hm'
  | @goes a rest n' _ htodo _ hp =>
    rw [htodo] at hm
    rcases List.mem_cons.mp hm with rfl | hrest
    · cases hp
      rfl
    · exact absurd hrest hm'

omit [DecidableEq ν] in
theorem Straight.launched (hs : Straight s i a) (ha : Apart s) (hl : i ∈ a.2.launched) :
    .launch ∉ a.1.handler.todo := by
  have hr := hs.records.launched
  rw [doWork_wellFormed (ha.wellFormed i)] at hr
  have hone : requestActions.count .launch = 1 := by decide
  have hpos := List.count_pos_iff.mpr hl
  exact List.count_eq_zero.mp (by omega)

omit [DecidableEq ν] in
theorem Straight.written (hs : Straight s i a) (ha : Apart s) (hl : i ∈ a.2.launched) :
    .writeManifest ∉ a.1.handler.todo := by
  have hall : ∀ x ∈ requestActions.tails, .launch ∉ x → .writeManifest ∉ x := by decide
  exact hall _ ((List.mem_tails _ _).mpr hs.suffix) (hs.launched ha hl)

theorem straight_own (ha : Apart s) (hs : Straight s i (l, n)) (k : Thread) :
    Straight s i (jobStep s i k (l, n)) := by
  constructor
  · by_cases hk : k = .handler
    · subst hk
      exact (handlerStep_suffix l.handler n).trans hs.suffix
    · rw [jobStep_handler hk]
      exact hs.suffix
  · exact records_own k (l, n) hs.records
  · intro hm q hq
    by_cases hw : .writeManifest ∈ l.handler.todo
    · by_cases hk : k = .handler
      · subst hk
        rw [message_eq_some] at hq
        simp only [jobStep] at hq hm
        rw [handlerStep_writes hw hm, write, entry_put_self] at hq
        cases hq
        rfl
      · rw [jobStep_handler hk] at hm
        exact absurd hw hm
    · rcases jobStep_message k l n hq with ho | he
      · exact hs.manifest hw q ho
      · exact he
  · intro q hq
    cases k with
    | handler => exact hs.body q hq
    | builder =>
      simp only [jobStep] at hq
      split at hq
      · rename_i hl
        rcases builderStep_body (s.tools i) (s.message i)
            (s.finds i n.tree) l.builder n.tree with he | ⟨q', hq', he⟩
        · exact hs.body q (he ▸ hq)
        · rw [he] at hq
          cases hq
          exact hs.manifest (hs.written ha hl) q hq'
      · exact hs.body q hq
    | sender =>
      simp only [jobStep] at hq
      split at hq
      · split at hq <;> exact hs.body q hq
      · exact hs.body q hq

theorem straight_other (ha : Apart s) (hij : i ≠ j) (hs : Straight s i (l, n))
    (hm : Straight s j (m, n)) (k : Thread) :
    Straight s i (l, (jobStep s j k (m, n)).2) where
  suffix := hs.suffix
  records := records_other hij k l m n hs.records
  manifest hw q hq := by
    have hlib : false = true → OwnLib s i := by simp
    have ht : seenTree false (s.message i) (jobStep s j k (m, n)).2.tree =
        seenTree false (s.message i) n.tree := seenTree_other ha hij hlib hm.body k n
    rw [message_congr ht (sees_path _ _)] at hq
    exact hs.manifest hw q hq
  body := hs.body

end PackageBuilder
