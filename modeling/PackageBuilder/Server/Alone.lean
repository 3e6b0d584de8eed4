import PackageBuilder.Server.Apart

/-! A job among others that leave its files alone does what it does alone. -/
namespace PackageBuilder
open Text FileTree Interleaving

variable {ι ν : Type}

namespace Site

/-- The node where R finds just these packages. -/
def finding (s : Site ι ν) (found : Packages ν) : Site ι ν := { s with finds := fun _ _ => found }

variable [DecidableEq ι] [DecidableEq ν] (s : Site ι ν) (t : Tree Str (Content ν)) (i : ι)

/-- A turn of a job that is alone. -/
def turn (v : Job ν × Node ι ν) (y : Thread × Packages ν) : Job ν × Node ι ν :=
  jobStep (s.finding y.2) i y.1 v

/-- A job alone, with the packages that R finds for it in each of its turns. -/
def alone (ys : List (Thread × Packages ν)) : Job ν × Node ι ν :=
  ys.foldl (s.turn i) ((s.start t).view i)

/-- The turns of a job in a run, with the packages that R finds for it. -/
def met (step : Program ι Thread (Job ν) (Node ι ν)) (xs : List (ι × Thread)) :
    List (Thread × Packages ν) :=
  Interleaving.met step (fun n => s.finds i n.tree) i (s.start t) xs

end Site

/-- Other jobs may have made a directory that the job alone has not made yet. -/
def Covers (t t' : Tree Str (Content ν)) (p : List Str) : Prop :=
  entry t p = entry t' p ∨
    entry t' p = none ∧ entry t p = some .dir ∧ IsDir t p.dropLast

/-- A handler among others (`h`, `t`) and the same handler alone (`h'`, `t'`): they may differ in
who makes the shared directories. -/
structure DirsMatch (s : Site ι ν) (i : ι) (h h' : Handler) (t t' : Tree Str (Content ν)) :
    Prop where
  levels : ∀ d, d ≠ .run → Covers t t' ((s.message i).dir d)
  run : entry t (s.message i).workingDir = none ↔ entry t' (s.message i).workingDir = none
  passed : ∀ d, d ≠ .run → .ensure d ∉ h.todo → entry t' ((s.message i).dir d) ≠ none
  absent : h.absent = none ↔ h'.absent = none
  tested : ∀ d b b', h.todo.head? = some (.ensure d) → h.absent = some b → h'.absent = some b' →
    (b = true → b' = true) ∧ (b = false → entry t ((s.message i).dir d) ≠ none) ∧
      (b' = true ↔ entry t' ((s.message i).dir d) = none)

/-- A job among others and the same job alone. -/
structure Match (lib : Bool) (s : Site ι ν) (i : ι) (u v : Job ν × Node ι ν) : Prop where
  todo : u.1.handler.todo = v.1.handler.todo
  dropped : u.1.handler.dropped = v.1.handler.dropped
  builder : u.1.builder.seen lib = v.1.builder.seen lib
  tree : seenTree lib (s.message i) u.2.tree = seenTree lib (s.message i) v.2.tree
  launched : i ∈ u.2.launched ↔ i ∈ v.2.launched
  dirs : DirsMatch s i u.1.handler v.1.handler u.2.tree v.2.tree

/-- The job alone goes on where its handler among others is dropped by the `mkdir` of another. -/
def Follows (lib : Bool) (s : Site ι ν) (i : ι) (u v : Job ν × Node ι ν) : Prop :=
  (u.1.handler.dropped = true ∧ i ∉ u.2.launched) ∨ Match lib s i u v

variable {s : Site ι ν} {i j : ι} {h h' : Handler} {t t' t₁ t₁' : Tree Str (Content ν)}
  {d : Level} {k : Thread} {lib : Bool} {n n' : Node ι ν} {l m : Job ν} {u v : Job ν × Node ι ν}

theorem isDir_mono (hmono : ∀ d, entry t ((s.message i).dir d) = some .dir →
      entry t₁ ((s.message i).dir d) = some .dir) (d : Level)
    (hd : IsDir t ((s.message i).dir d).dropLast) : IsDir t₁ ((s.message i).dir d).dropLast := by
  rw [dir_dropLast] at hd ⊢
  rcases hp : d.parent with _ | d'
  · exact .inl rfl
  · rw [hp] at hd
    rcases hd with he | he
    · cases d' <;> cases he
    · exact .inr (hmono d' he)

/-- A level whose entry is changed in neither tree, or has become the same in both. -/
theorem Covers.step (hc : Covers t t' ((s.message i).dir d))
    (hmono : ∀ d, entry t ((s.message i).dir d) = some .dir →
      entry t₁ ((s.message i).dir d) = some .dir)
    (hd : (entry t₁ ((s.message i).dir d) = entry t ((s.message i).dir d) ∧
        entry t₁' ((s.message i).dir d) = entry t' ((s.message i).dir d)) ∨
      entry t₁ ((s.message i).dir d) = entry t₁' ((s.message i).dir d)) :
    Covers t₁ t₁' ((s.message i).dir d) := by
  rcases hd with ⟨h₁, h₂⟩ | he
  · rcases hc with hs | ⟨hn, hdir, hp⟩
    · exact .inl (by rw [h₁, h₂, hs])
    · exact .inr ⟨by rw [h₂, hn], by rw [h₁, hdir], isDir_mono hmono d hp⟩
  · exact .inl he

/-- The directory that holds the next one is the same in both trees. -/
theorem DirsMatch.parent (hd : DirsMatch s i h h' t t') (hs : h.todo <:+ requestActions)
    (hn : h.todo.head? = some (.ensure d)) :
    IsDir t ((s.message i).dir d).dropLast ↔ IsDir t' ((s.message i).dir d).dropLast := by
  rw [dir_dropLast]
  rcases hp : d.parent with _ | d'
  · simp [IsDir]
  · have hr : d' ≠ .run := by
      cases d <;> cases hp <;> decide
    have he := hd.passed d' hr (ensure_parent hs hn hp)
    rcases hd.levels d' hr with hs | ⟨hnone, -⟩
    · simp [IsDir, hs]
    · exact absurd hnone he

section
variable [DecidableEq ι] [DecidableEq ν]

theorem follows_other (ha : Apart s) (hlib : lib = true → OwnLib s i) (hij : i ≠ j)
    (hj : Straight s j (m, n)) (k : Thread) (hf : Follows lib s i (l, n) v) :
    Follows lib s i (l, (jobStep s j k (m, n)).2) v := by
  obtain ⟨c, -, hl, -⟩ := jobStep_logs s j k m n
  have hlaunched : i ∈ (jobStep s j k (m, n)).2.launched ↔ i ∈ n.launched := by
    rw [hl, List.mem_append]
    constructor
    · rintro (hm | hm)
      · exact hm
      · exact absurd (List.eq_of_mem_replicate hm) hij
    · exact .inl
  have hdir := fun d => jobStep_dir (s := s) (i := j) (s.message i) d k m n
  have hmono : ∀ d, entry n.tree ((s.message i).dir d) = some .dir →
      entry (jobStep s j k (m, n)).2.tree ((s.message i).dir d) = some .dir := by
    intro d he
    rcases hdir d with hs | ⟨-, -, hs, -⟩
    · exact hs.trans he
    · exact hs
  rcases hf with ⟨hd, hn⟩ | hm
  · exact .inl ⟨hd, fun h => hn (hlaunched.mp h)⟩
  · refine .inr ⟨hm.todo, hm.dropped, hm.builder, ?_, hlaunched.trans hm.launched, ?_⟩
    · exact (seenTree_other ha hij hlib hj.body k n).trans hm.tree
    · refine ⟨?_, ?_, hm.dirs.passed, hm.dirs.absent, ?_⟩
      · intro d hd
        rcases hdir d with hs | ⟨-, hnone, hs, hp, -⟩
        · exact (hm.dirs.levels d hd).step hmono (.inl ⟨hs, rfl⟩)
        · rcases hm.dirs.levels d hd with he | ⟨-, he, -⟩
          · exact .inr ⟨he.symm.trans hnone, hs, isDir_mono hmono d hp⟩
          · rw [hnone] at he
            cases he
      · rcases hdir .run with hs | ⟨-, -, -, -, d', -, hd'⟩
        · rw [hs]
          exact hm.dirs.run
        · have hu : ¬ Sees lib (s.message i) ((s.message j).dir d') := dir_unseen ha hij
          exact absurd (.inl (hd' ▸ List.prefix_rfl)) hu
      · intro d b b' hn hb hb'
        obtain ⟨h1, h2, h3⟩ := hm.dirs.tested d b b' hn hb hb'
        refine ⟨h1, fun hf => ?_, h3⟩
        rcases hdir d with hs | ⟨-, -, hs, -⟩
        · exact hs ▸ h2 hf
        · rw [hs]
          simp

omit [DecidableEq ι] in
/-- Any other step does the same in both. -/
theorem perform_alike {a : Action} (ha : ∀ d, a ≠ .ensure d) (x y : Option Bool)
    (ht : seenTree lib (s.message i) n.tree = seenTree lib (s.message i) n'.tree)
    (hl : i ∈ n.launched ↔ i ∈ n'.launched) :
    (perform s i x n a = none ∧ perform s i y n' a = none) ∨
    ∃ n₁ n₁', perform s i x n a = some n₁ ∧ perform s i y n' a = some n₁' ∧
      seenTree lib (s.message i) n₁.tree = seenTree lib (s.message i) n₁'.tree ∧
      (i ∈ n₁.launched ↔ i ∈ n₁'.launched) ∧
      (∀ d, entry n₁.tree ((s.message i).dir d) = entry n.tree ((s.message i).dir d)) ∧
      ∀ d, entry n₁'.tree ((s.message i).dir d) = entry n'.tree ((s.message i).dir d) := by
  have hpath : ∀ (t : Tree Str (Content ν)) name e d,
      entry (put t ((s.message i).path name) e) ((s.message i).dir d) =
        entry t ((s.message i).dir d) := by
    intro t name e d
    apply entry_put_ne
    intro he
    have hlen := dir_length (s.message i) d
    rw [← he] at hlen
    simp [Request.path, Request.dir] at hlen
  cases a with
  | ensure d => exact absurd rfl (ha d)
  | greet | readFields | readUrl =>
    simp only [perform]
    split
    · exact .inr ⟨n, n', rfl, rfl, ht, hl, fun _ => rfl, fun _ => rfl⟩
    · exact .inl ⟨rfl, rfl⟩
  | writeManifest | openLog =>
    exact .inr ⟨_, _, rfl, rfl, seenTree_write_congr ht rfl, hl, hpath _ _ _, hpath _ _ _⟩
  | launch =>
    refine .inr ⟨_, _, rfl, rfl, ht, ?_, fun _ => rfl, fun _ => rfl⟩
    simp [Node.launch]
  | reply =>
    simp only [perform]
    split
    · exact .inr ⟨_, _, rfl, rfl, ht, hl, fun _ => rfl, fun _ => rfl⟩
    · exact .inl ⟨rfl, rfl⟩

omit [DecidableEq ι] [DecidableEq ν] in
/-- A handler that has done a step in both. -/
theorem Match.goes {n₁ n₁' : Node ι ν} {a : Action} {rest : List Action} {l' : Job ν}
    (hm : Match lib s i (l, n) (l', n')) (htodo : l.handler.todo = a :: rest)
    (ht : seenTree lib (s.message i) n₁.tree = seenTree lib (s.message i) n₁'.tree)
    (hl : i ∈ n₁.launched ↔ i ∈ n₁'.launched)
    (hlevels : ∀ d, d ≠ .run → Covers n₁.tree n₁'.tree ((s.message i).dir d))
    (hrun : entry n₁.tree (s.message i).workingDir = none ↔
      entry n₁'.tree (s.message i).workingDir = none)
    (hold : ∀ d, d ≠ .run → entry n'.tree ((s.message i).dir d) ≠ none →
      entry n₁'.tree ((s.message i).dir d) ≠ none)
    (hnew : ∀ d, d ≠ .run → a = .ensure d → entry n₁'.tree ((s.message i).dir d) ≠ none) :
    Match lib s i ({ l with handler := { todo := rest } }, n₁)
      ({ l' with handler := { todo := rest } }, n₁') := by
  refine ⟨rfl, rfl, hm.builder, ht, hl, hlevels, hrun, ?_, Iff.rfl, by simp⟩
  intro d hd hmem
  by_cases ha : a = .ensure d
  · exact hnew d hd ha
  · apply hold d hd
    apply hm.dirs.passed d hd
    rw [htodo]
    exact fun hin => hmem ((List.mem_cons.mp hin).resolve_left fun he => ha he.symm)

omit [DecidableEq ι] [DecidableEq ν] in
theorem Match.drops {l' : Job ν} (hm : Match lib s i (l, n) (l', n')) :
    Match lib s i ({ l with handler := l.handler.drop }, n)
      ({ l' with handler := l'.handler.drop }, n') :=
  ⟨hm.todo, rfl, hm.builder, hm.tree, hm.launched, hm.dirs.levels, hm.dirs.run, hm.dirs.passed,
    hm.dirs.absent, hm.dirs.tested⟩

omit [DecidableEq ι] [DecidableEq ν] in
theorem match_tests {l' : Job ν} {rest : List Action} (hm : Match lib s i (l, n) (l', n'))
    (htodo : l.handler.todo = .ensure d :: rest) :
    Match lib s i
      ({ l with handler := l.handler.tested (!present n.tree ((s.message i).dir d)) }, n)
      ({ l' with handler := l'.handler.tested (!present n'.tree ((s.message i).dir d)) }, n') := by
  refine ⟨hm.todo, hm.dropped, hm.builder, hm.tree, hm.launched, hm.dirs.levels, hm.dirs.run,
    hm.dirs.passed, by simp, ?_⟩
  intro d' b b' hn hb hb'
  obtain rfl : d = d' := by simpa [htodo] using hn
  have hbp : b = !present n.tree ((s.message i).dir d) := (Option.some.inj hb).symm
  have hbp' : b' = !present n'.tree ((s.message i).dir d) := (Option.some.inj hb').symm
  have hnone : entry n.tree ((s.message i).dir d) = none →
      entry n'.tree ((s.message i).dir d) = none := by
    by_cases hr : d = .run
    · subst hr
      exact hm.dirs.run.mp
    · rcases hm.dirs.levels d hr with hs | ⟨-, hdir, -⟩
      · exact fun h => hs ▸ h
      · exact fun h => absurd (hdir.symm.trans h) (by simp)
  refine ⟨?_, ?_, ?_⟩
  · intro ht
    simp only [hbp, Bool.not_eq_true', not_present_iff] at ht
    simp [hbp', not_present_iff, hnone ht]
  · intro hf
    simpa [hbp, present_iff] using hf
  · simp [hbp', not_present_iff]

/-- The `mkdir` of a directory, where it is missing for the job alone. -/
theorem follows_mkdir (ha : Apart s) (hu : Straight s i (l, n)) {l' : Job ν} {rest : List Action}
    (hm : Match lib s i (l, n) (l', n')) (hd : l.handler.dropped = false)
    (htodo : l.handler.todo = .ensure d :: rest) {b b' : Bool} (hb : l.handler.absent = some b)
    (hb' : l'.handler.absent = some b') :
    Follows lib s i (jobStep s i .handler (l, n)) (jobStep s i .handler (l', n')) := by
  have hhead : l.handler.todo.head? = some (.ensure d) := by rw [htodo]; rfl
  have hparent := hm.dirs.parent hu.suffix hhead
  obtain ⟨h1, h2, h3⟩ := hm.dirs.tested d b b' hhead hb hb'
  have hstep : ∀ {n₁ : Node ι ν}, perform s i (some b) n (.ensure d) = some n₁ →
      jobStep s i .handler (l, n) = ({ l with handler := { todo := rest } }, n₁) := by
    intro n₁ hp
    rw [jobStep, handlerStep_goes hd htodo (by simp [hb]) (hb ▸ hp)]
  have hstep' : ∀ {n₁ : Node ι ν}, perform s i (some b') n' (.ensure d) = some n₁ →
      jobStep s i .handler (l', n') = ({ l' with handler := { todo := rest } }, n₁) := by
    intro n₁ hp
    rw [jobStep, handlerStep_goes (hm.dropped ▸ hd) (hm.todo ▸ htodo) (by simp [hb'])
      (hb' ▸ hp)]
  have hskip : ∀ n : Node ι ν, perform s i (some false) n (.ensure d) = some n := fun _ => rfl
  have hmake : ∀ {n : Node ι ν}, entry n.tree ((s.message i).dir d) = none →
      IsDir n.tree ((s.message i).dir d).dropLast → perform s i (some true) n (.ensure d) =
        some (n.on (put n.tree ((s.message i).dir d) .dir)) := by
    intro n he hp
    simp [perform, mkdir_eq_some.mpr ⟨he, hp, rfl⟩]
  by_cases hnone' : entry n'.tree ((s.message i).dir d) = none
  · obtain rfl : b' = true := h3.mpr hnone'
    by_cases hnone : entry n.tree ((s.message i).dir d) = none
    · obtain rfl : b = true := by
        by_contra hf
        exact h2 (Bool.not_eq_true _ ▸ hf) hnone
      right
      by_cases hp : IsDir n.tree ((s.message i).dir d).dropLast
      · -- missing in both trees
        rw [hstep (hmake hnone hp), hstep' (hmake hnone' (hparent.mp hp))]
        have hput : ∀ (t : Tree Str (Content ν)) d', entry t ((s.message i).dir d') = some .dir →
            entry (put t ((s.message i).dir d) .dir) ((s.message i).dir d') = some .dir := by
          intro t d' he
          rw [entry_put]
          split
          · rfl
          · exact he
        apply hm.goes htodo
        · exact seenTree_put_congr hm.tree rfl
        · exact hm.launched
        · intro d' hd'
          apply (hm.dirs.levels d' hd').step (fun d' he => hput _ d' he)
          simp only [Node.on, entry_put]
          split
          · exact .inr rfl
          · exact .inl ⟨rfl, rfl⟩
        · simp only [Node.on, entry_put]
          split
          · exact ⟨by simp, by simp⟩
          · exact hm.dirs.run
        · intro d' _ he
          simp only [Node.on, entry_put]
          split
          · simp
          · exact he
        · rintro d' _ ⟨⟩
          simp [Node.on]
      · -- and so is what should hold it
        have hno : ∀ {n : Node ι ν}, ¬ IsDir n.tree ((s.message i).dir d).dropLast →
            perform s i (some true) n (.ensure d) = none := by
          intro n hp
          have hmk : mkdir n.tree ((s.message i).dir d) = none := if_neg fun h => hp h.2
          simp [perform, hmk]
        have hd' : l'.handler.dropped = false := hm.dropped ▸ hd
        rw [jobStep, jobStep, handlerStep_raises hd htodo (by simp [hb]) (hb ▸ hno hp),
          handlerStep_raises hd' (hm.todo ▸ htodo) (by simp [hb'])
            (hb' ▸ hno fun h => hp (hparent.mpr h))]
        exact hm.drops
    · -- another job has made it
      have hr : d ≠ .run := by
        rintro rfl
        exact hnone (hm.dirs.run.mpr hnone')
      obtain ⟨hdir, hp⟩ : entry n.tree ((s.message i).dir d) = some .dir ∧
          IsDir n.tree ((s.message i).dir d).dropLast := by
        rcases hm.dirs.levels d hr with hs | ⟨-, hdir, hp⟩
        · exact absurd (hs.trans hnone') hnone
        · exact ⟨hdir, hp⟩
      cases b with
      | true =>
        left
        have hno : perform s i (some true) n (.ensure d) = none := by
          simp [perform, mkdir_eq_none hnone]
        rw [jobStep, handlerStep_raises hd htodo (by simp [hb]) (hb ▸ hno)]
        refine ⟨rfl, fun hl => hu.launched ha hl ?_⟩
        have hc := ensure_launch hu.suffix hhead
        exact List.count_pos_iff.mp (by rw [hc]; decide)
      | false =>
        right
        rw [hstep (hskip n), hstep' (hmake hnone' (hparent.mp hp))]
        have hun : ¬ Sees lib (s.message i) ((s.message i).dir d) := level_unseen ha hr
        apply hm.goes htodo
        · exact hm.tree.trans (part_put_other hun).symm
        · exact hm.launched
        · intro d' hd'
          apply (hm.dirs.levels d' hd').step fun _ he => he
          simp only [Node.on, entry_put]
          split
          · rename_i he
            right
            rw [← he, hdir]
          · exact .inl ⟨trivial, rfl⟩
        · have hne : (s.message i).dir d ≠ (s.message i).workingDir :=
            fun he => hun (.inl (he ▸ List.prefix_rfl))
          rw [Node.on, entry_put_ne hne]
          exact hm.dirs.run
        · intro d' _ he
          simp only [Node.on, entry_put]
          split
          · simp
          · exact he
        · rintro d' _ ⟨⟩
          simp [Node.on]
  · -- there in both trees
    obtain rfl : b' = false := Bool.eq_false_iff.mpr fun h => hnone' (h3.mp h)
    obtain rfl : b = false := Bool.eq_false_iff.mpr fun h => by cases h1 h
    right
    rw [hstep (hskip n), hstep' (hskip n')]
    apply hm.goes htodo hm.tree hm.launched hm.dirs.levels hm.dirs.run fun _ _ h => h
    rintro d' _ ⟨⟩
    exact hnone'

theorem follows_handler (ha : Apart s) (hu : Straight s i u) (hm : Match lib s i u v) :
    Follows lib s i (jobStep s i .handler u) (jobStep s i .handler v) := by
  obtain ⟨l, n⟩ := u
  obtain ⟨l', n'⟩ := v
  by_cases hidle : l.handler.dropped = true ∨ l.handler.todo = []
  · right
    have hidle' : l'.handler.dropped = true ∨ l'.handler.todo = [] := by
      rw [← hm.dropped, ← hm.todo]
      exact hidle
    simp only [jobStep, handlerStep_idle hidle, handlerStep_idle hidle']
    exact hm
  · obtain ⟨hd, hne⟩ := not_or.mp hidle
    replace hd : l.handler.dropped = false := Bool.not_eq_true _ ▸ hd
    have hd' : l'.handler.dropped = false := hm.dropped ▸ hd
    obtain ⟨a, rest, htodo⟩ := List.exists_cons_of_ne_nil hne
    have htodo' : l'.handler.todo = a :: rest := hm.todo ▸ htodo
    by_cases he : ∃ d, a = .ensure d
    · obtain ⟨d, rfl⟩ := he
      rcases hb : l.handler.absent with _ | b
      · right
        simp only [jobStep, handlerStep_tests hd htodo hb,
          handlerStep_tests hd' htodo' (hm.dirs.absent.mp hb)]
        exact match_tests hm htodo
      · rcases hb' : l'.handler.absent with _ | b'
        · rw [hm.dirs.absent.mpr hb'] at hb
          cases hb
        · exact follows_mkdir ha hu hm hd htodo hb hb'
    · right
      have hne : ∀ d, a ≠ .ensure d := fun d h => he ⟨d, h⟩
      have hab : ∀ d, a = .ensure d → l.handler.absent ≠ none := fun d h => absurd h (hne d)
      have hab' : ∀ d, a = .ensure d → l'.handler.absent ≠ none := fun d h => absurd h (hne d)
      rcases perform_alike hne l.handler.absent l'.handler.absent hm.tree hm.launched with
        ⟨hp, hp'⟩ | ⟨n₁, n₁', hp, hp', ht, hl, hs, hs'⟩
      · simp only [jobStep, handlerStep_raises hd htodo hab hp,
          handlerStep_raises hd' htodo' hab' hp']
        exact hm.drops
      · simp only [jobStep, handlerStep_goes hd htodo hab hp, handlerStep_goes hd' htodo' hab' hp']
        apply hm.goes htodo ht hl
        · intro d hdr
          exact (hm.dirs.levels d hdr).step (fun d => hs d ▸ id) (.inl ⟨hs d, hs' d⟩)
        · rw [hs .run, hs' .run]
          exact hm.dirs.run
        · intro d _
          rw [hs' d]
          exact id
        · exact fun d _ h => absurd h (hne d)

omit [DecidableEq ι] [DecidableEq ν] in
/-- Where no directory changes. -/
theorem DirsMatch.same {t t' t₁ t₁' : Tree Str (Content ν)} (hd : DirsMatch s i h h' t t')
    (ht : ∀ d, entry t₁ ((s.message i).dir d) = entry t ((s.message i).dir d))
    (ht' : ∀ d, entry t₁' ((s.message i).dir d) = entry t' ((s.message i).dir d)) :
    DirsMatch s i h h' t₁ t₁' := by
  refine ⟨?_, ?_, ?_, hd.absent, ?_⟩
  · intro d hr
    exact (hd.levels d hr).step (fun d he => (ht d).trans he) (.inl ⟨ht d, ht' d⟩)
  · rw [ht .run, ht' .run]
    exact hd.run
  · intro d hr hm
    rw [ht' d]
    exact hd.passed d hr hm
  · intro d b b' hn hb hb'
    rw [ht d, ht' d]
    exact hd.tested d b b' hn hb hb'

theorem jobStep_dir_same (hk : k ≠ .handler) (l : Job ν) (n : Node ι ν) (d : Level) :
    entry (jobStep s i k (l, n)).2.tree ((s.message i).dir d) =
      entry n.tree ((s.message i).dir d) :=
  (jobStep_dir (s.message i) d k l n).resolve_right fun h => hk h.1

/-- The builder finds the same packages in both. -/
theorem follows_builder (hu : Straight s i u) (hm : Match lib s i u v) :
    Match lib s i (jobStep s i .builder u) (s.turn i v (.builder, s.finds i u.2.tree)) := by
  obtain ⟨l, n⟩ := u
  obtain ⟨l', n'⟩ := v
  have hk : Thread.builder ≠ .handler := by decide
  have hdirs := hm.dirs.same (jobStep_dir_same hk l n)
    (jobStep_dir_same (s := s.finding (s.finds i n.tree)) hk l' n')
  by_cases hl : i ∈ n.launched
  · have hl' : i ∈ n'.launched := hm.launched.mp hl
    have hs : seen lib (s.message i)
          (builderStep (s.tools i) (s.message i) (s.finds i n.tree) (l.builder, n.tree)) =
        seen lib (s.message i)
          (builderStep (s.tools i) (s.message i) (s.finds i n.tree) (l'.builder, n'.tree)) :=
      builderStep_congr hm.builder hm.tree hu.body
    obtain ⟨hb, ht⟩ := Prod.mk.inj hs
    simp only [Site.turn, Site.finding, jobStep, if_pos hl, if_pos hl'] at hdirs ⊢
    exact ⟨hm.todo, hm.dropped, hb, ht, hm.launched, hdirs⟩
  · have hl' : i ∉ n'.launched := fun h => hl (hm.launched.mpr h)
    simp only [Site.turn, Site.finding, jobStep, if_neg hl, if_neg hl']
    exact hm

/-- Sending changes nothing that a job looks at. -/
theorem jobStep_sender (l : Job ν) (n : Node ι ν) :
    (jobStep s i .sender (l, n)).1.builder = l.builder ∧
      (jobStep s i .sender (l, n)).2.tree = n.tree ∧
      (jobStep s i .sender (l, n)).2.launched = n.launched := by
  simp only [jobStep]
  split
  · split <;> exact ⟨rfl, rfl, rfl⟩
  · exact ⟨rfl, rfl, rfl⟩

theorem follows_sender (hm : Match lib s i u v) :
    Match lib s i (jobStep s i .sender u) (jobStep s i .sender v) := by
  obtain ⟨l, n⟩ := u
  obtain ⟨l', n'⟩ := v
  obtain ⟨hb, ht, hl⟩ := jobStep_sender (s := s) (i := i) l n
  obtain ⟨hb', ht', hl'⟩ := jobStep_sender (s := s) (i := i) l' n'
  have hk : Thread.sender ≠ .handler := by decide
  have hh := jobStep_handler (s := s) (i := i) (n := n) (l := l) hk
  have hh' := jobStep_handler (s := s) (i := i) (n := n') (l := l') hk
  constructor
  · rw [hh, hh', hm.todo]
  · rw [hh, hh', hm.dropped]
  · rw [hb, hb', hm.builder]
  · rw [ht, ht', hm.tree]
  · rw [hl, hl', hm.launched]
  · rw [hh, hh', ht, ht']
    exact hm.dirs

theorem follows_own (ha : Apart s) (k : Thread) (hu : Straight s i u) (hf : Follows lib s i u v) :
    Follows lib s i (jobStep s i k u) (s.turn i v (k, s.finds i u.2.tree)) := by
  rcases hf with ⟨hd, hl⟩ | hm
  · left
    obtain ⟨l, n⟩ := u
    cases k with
    | handler =>
      simp only [jobStep, handlerStep_idle (.inl hd)]
      exact ⟨hd, hl⟩
    | builder =>
      simp only [jobStep, if_neg hl]
      exact ⟨hd, hl⟩
    | sender =>
      have hk : Thread.sender ≠ .handler := by decide
      rw [(jobStep_sender l n).2.2, jobStep_handler hk]
      exact ⟨hd, hl⟩
  · cases k with
    | handler => exact follows_handler ha hu hm
    | builder => exact .inr (follows_builder hu hm)
    | sender => exact .inr (follows_sender hm)

omit [DecidableEq ι] [DecidableEq ν] in
theorem start_todo (ha : Apart s) (t : Tree Str (Content ν)) (i : ι) :
    ((s.start t).view i).1.handler.todo = requestActions :=
  doWork_wellFormed (ha.wellFormed i)

theorem straight_start (ha : Apart s) (t : Tree Str (Content ν)) (i : ι) :
    Straight s i ((s.start t).view i) where
  suffix := start_todo ha t i ▸ List.suffix_rfl
  records := records s t [] i
  manifest hm := by
    rw [start_todo ha t i] at hm
    exact absurd (by decide) hm
  body := nofun

/-- A job among others, as far as it goes, does what it does alone with the packages it meets. -/
theorem follows_run (ha : Apart s) (hlib : lib = true → OwnLib s i) (t : Tree Str (Content ν))
    (xs : List (ι × Thread)) : Straight s i ((s.after t xs).view i) ∧
      Follows lib s i ((s.after t xs).view i) (s.alone t i (s.met t i (jobStep s) xs)) := by
  have hown : ∀ i k a, Straight s i a → Straight s i (jobStep s i k a) :=
    fun _ k _ hs => straight_own ha hs k
  have hother : ∀ i j k l m n, i ≠ j → Straight s i (l, n) → Straight s j (m, n) →
      Straight s i (l, (jobStep s j k (m, n)).2) :=
    fun _ _ k _ _ _ hij hs hm => straight_other ha hij hs hm k
  have hsim : ∀ k u v, Straight s i u → Follows lib s i u v →
      Follows lib s i (jobStep s i k u) (s.turn i v (k, s.finds i u.2.tree)) :=
    fun k _ _ hu hf => follows_own ha k hu hf
  have hframe : ∀ j k l m n v, i ≠ j → Straight s i (l, n) → Straight s j (m, n) →
      Follows lib s i (l, n) v → Follows lib s i (l, (jobStep s j k (m, n)).2) v :=
    fun _ k _ _ _ _ hij _ hj hf => follows_other ha hlib hij hj k hf
  have hstart : Follows lib s i ((s.start t).view i) ((s.start t).view i) := by
    refine .inr ⟨rfl, rfl, rfl, rfl, Iff.rfl, fun _ _ => .inl rfl, Iff.rfl, ?_, Iff.rfl,
      fun _ _ _ _ hb => by cases hb⟩
    intro d _ hm
    rw [start_todo ha t i] at hm
    exact absurd (by cases d <;> decide) hm
  exact ⟨view_invariant hown hother (straight_start ha t) i,
    run_simulates (fun k found v => s.turn i v (k, found)) hown hother hsim hframe
      (straight_start ha t) hstart⟩

end

end PackageBuilder
