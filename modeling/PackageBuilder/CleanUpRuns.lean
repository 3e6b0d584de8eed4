import PackageBuilder.CleanUpIssues

/-! Runs of cleanUpIssues.py one after another, some of them cut short by an exception: what
becomes of the directory of an issue. -/
namespace PackageBuilder
open Text FileTree

section
variable {α : Type} [DecidableEq α] (h : CleanUpHost α)

/-- What the second pass leaves, also where it raises. -/
def trimAll (fs : FileSystem Str α) : List Nat → FileSystem Str α
  | [] => fs
  | n :: ns =>
    match trimIssue h fs n with
    | .ok fs' => trimAll fs' ns
    | .error _ => fs

/-- What a run of the script leaves. -/
def afterCleanUp (issues : ClosedIssues) (fs : FileSystem Str α) : FileSystem Str α :=
  trimAll h ((h.order (issueNums h issues)).foldl (removeIssue h) fs)
    (h.order (closeNums h issues))

instance (t : Tree Str α) (n : Nat) : Decidable (Poppable h t n) :=
  inferInstanceAs (Decidable (_ → _))

/-- The issues that the second pass comes to and gets through. -/
def trimmedNums (issues : ClosedIssues) (t : Tree Str α) : List Nat :=
  (h.order (closeNums h issues)).takeWhile (Poppable h t ·)

end

/-- A run of the script, or a change by anything else. -/
inductive Happening (α : Type)
  | cleanUp (h : CleanUpHost α) (issues : ClosedIssues)
  | other (fs : FileSystem Str α)

/-- What has become of the directory of an issue: it is as it was, only R-libs and one more of its
entries are left, or nothing is. -/
inductive Standing
  | whole | trimmed (kept : Str) | gone
  deriving DecidableEq, Repr

/-- Of a directory, R-libs and one more entry are left. -/
structure TrimmedTo {α : Type} (t t' : Tree Str α) (d : List Str) (kept : Str) : Prop where
  itself : entry t' d = entry t d
  left : ∀ x : Str, x = "R-libs" ∨ x = kept → ∀ q, d ++ [x] <+: q → entry t' q = entry t q
  dropped : ∀ x : Str, x ≠ "R-libs" → x ≠ kept → ∀ q, d ++ [x] <+: q → entry t' q = none

def Stands {α : Type} (t t' : Tree Str α) (d : List Str) : Standing → Prop
  | .whole => SameBelow d t t'
  | .trimmed kept => TrimmedTo t t' d kept
  | .gone => ∀ q, d <+: q → entry t' q = none

section
variable {α : Type} [DecidableEq α] {h : CleanUpHost α} {issues : ClosedIssues}
  {fs fs' : FileSystem Str α} {t t' t'' : Tree Str α} {n : Nat} {ns : List Nat} {x y : Str}
  {d q : List Str} {xs ys zs : List (Happening α)} {st : Standing}

def happen (fs : FileSystem Str α) : Happening α → FileSystem Str α
  | .cleanUp h issues => afterCleanUp h issues fs
  | .other fs' => fs'

def history (fs : FileSystem Str α) (xs : List (Happening α)) : FileSystem Str α :=
  xs.foldl happen fs

omit [DecidableEq α] in
theorem takeWhile_congr {f g : Nat → Bool} (hfg : ∀ m ∈ ns, f m = g m) :
    ns.takeWhile f = ns.takeWhile g := by
  induction ns with
  | nil => rfl
  | cons n ns ih =>
    obtain ⟨hn, hns⟩ := List.forall_mem_cons.mp hfg
    rw [List.takeWhile_cons, List.takeWhile_cons, hn, ih hns]

/-- The second pass goes through the issues in order, up to the first that is not in order. -/
theorem trimAll_eq (hn : ns.Nodup) (hr : ∀ n ∈ ns, ReadsDrops h fs.tree n) : trimAll h fs ns =
    fs.removeAll ((ns.takeWhile (Poppable h fs.tree ·)).flatMap (drops h fs.tree)) := by
  induction ns generalizing fs with
  | nil => rfl
  | cons n ns ih =>
    by_cases hp : Poppable h fs.tree n
    · have hsame : ∀ m ∈ ns, SameBelow (issueDir m) fs.tree
          (fs.removeAll (drops h fs.tree n)).tree := drops_same_others hn
      have hreads : ∀ m ∈ ns, ReadsDrops h (fs.removeAll (drops h fs.tree n)).tree m :=
        fun m hm => (readsDrops_same (hsame m hm)).mpr (hr m (List.mem_cons_of_mem n hm))
      have hwhile : ns.takeWhile (Poppable h (fs.removeAll (drops h fs.tree n)).tree ·) =
          ns.takeWhile (Poppable h fs.tree ·) :=
        takeWhile_congr fun m hm => decide_eq_decide.mpr (poppable_same (hsame m hm))
      have hdrops : (ns.takeWhile (Poppable h fs.tree ·)).flatMap
          (drops h (fs.removeAll (drops h fs.tree n)).tree) =
            (ns.takeWhile (Poppable h fs.tree ·)).flatMap (drops h fs.tree) :=
        List.flatMap_congr fun m hm => drops_same (hsame m ((List.takeWhile_prefix _).subset hm))
      rw [trimAll, trimIssue_ok hp (hr n List.mem_cons_self),
        List.takeWhile_cons_of_pos (by simpa using hp), List.flatMap_cons, removeAll_append, ← hdrops,
        ← hwhile]
      exact ih (List.nodup_cons.mp hn).2 hreads
    · obtain ⟨e, he⟩ := trimIssue_error hp
      rw [trimAll, he, List.takeWhile_cons_of_neg (by simpa using hp)]
      rfl

/-- A run removes the old issues, and trims others up to the first that is not in order. -/
theorem afterCleanUp_eq (hr : ReadsPaths h fs.tree issues) : afterCleanUp h issues fs =
    fs.removeAll ((h.order (issueNums h issues)).map issueDir ++
      (trimmedNums h issues fs.tree).flatMap (drops h fs.tree)) := by
  have hwhile : (h.order (closeNums h issues)).takeWhile
      (Poppable h (fs.removeAll ((h.order (issueNums h issues)).map issueDir)).tree ·) =
        trimmedNums h issues fs.tree :=
    takeWhile_congr fun n hn => decide_eq_decide.mpr
      (poppable_same (firstPass_same (mem_order_closeNums.mp hn)))
  have hdrops : (trimmedNums h issues fs.tree).flatMap
      (drops h (fs.removeAll ((h.order (issueNums h issues)).map issueDir)).tree) =
        (trimmedNums h issues fs.tree).flatMap (drops h fs.tree) :=
    List.flatMap_congr fun n hn => drops_same
      (firstPass_same (mem_order_closeNums.mp ((List.takeWhile_prefix _).subset hn)))
  rw [afterCleanUp, firstPass_eq hr, trimAll_eq nodup_order_closeNums (firstPass_reads hr), hwhile,
    hdrops, removeAll_append]

theorem of_mem_trimmedNums (hn : n ∈ trimmedNums h issues t) :
    n ∈ closeNums h issues ∧ Poppable h t n := by
  refine ⟨mem_order_closeNums.mp ((List.takeWhile_prefix _).subset hn), ?_⟩
  simpa using List.mem_takeWhile_imp hn

/-- A run that gets through comes to all issues that are not old. -/
theorem trimmedNums_of_ok (hr : ReadsPaths h fs.tree issues)
    (hok : cleanUpIssues h issues fs = .ok fs') :
    n ∈ trimmedNums h issues fs.tree ↔ n ∈ closeNums h issues := by
  have hall : trimmedNums h issues fs.tree = h.order (closeNums h issues) :=
    List.takeWhile_eq_self_iff.mpr fun m hm => by
      simpa using cleanUp_poppable hr hok m (mem_order_closeNums.mp hm)
  rw [hall, mem_order_closeNums]

/-- What a run does to the directory of one issue. -/
theorem afterCleanUp_issue (hr : ReadsPaths h fs.tree issues) (n : Nat) :
    (n ∈ issueNums h issues ∧
      ∀ q, issueDir n <+: q → entry (afterCleanUp h issues fs).tree q = none) ∨
    n ∉ issueNums h issues ∧ n ∉ trimmedNums h issues fs.tree ∧
      SameBelow (issueDir n) fs.tree (afterCleanUp h issues fs).tree ∨
    n ∉ issueNums h issues ∧ n ∈ trimmedNums h issues fs.tree ∧
      ∀ q, issueDir n <+: q → entry (afterCleanUp h issues fs).tree q =
        if ∃ p ∈ drops h fs.tree n, p <+: q then none else entry fs.tree q := by
  rw [afterCleanUp_eq hr]
  by_cases hold : n ∈ issueNums h issues
  · refine .inl ⟨hold, fun q hq => ?_⟩
    rw [entry_removeAll, if_pos]
    refine ⟨issueDir n, List.mem_append_left _ (List.mem_map_of_mem ?_), hq⟩
    exact (h.order_perm _).mem_iff.mpr hold
  have hother : ∀ p ∈ (h.order (issueNums h issues)).map issueDir, Diverge p (issueDir n) := by
    intro p hp
    obtain ⟨m, hm, rfl⟩ := List.mem_map.mp hp
    have hmn : m ≠ n := by
      rintro rfl
      exact hold ((h.order_perm _).mem_iff.mp hm)
    simpa using issueDir_diverge hmn []
  by_cases hn : n ∈ trimmedNums h issues fs.tree
  · refine .inr (.inr ⟨hold, hn, fun q hq => ?_⟩)
    rw [entry_removeAll]
    refine if_congr ⟨?_, ?_⟩ rfl rfl
    · rintro ⟨p, hp, hpq⟩
      rcases List.mem_append.mp hp with hp | hp
      · exact absurd hq (hother p hp q hpq)
      · obtain ⟨m, hm, hp⟩ := List.mem_flatMap.mp hp
        by_cases hmn : m = n
        · exact ⟨p, hmn ▸ hp, hpq⟩
        · exact absurd hq (drops_diverge hmn p hp q hpq)
    · rintro ⟨p, hp, hpq⟩
      exact ⟨p, List.mem_append_right _ (List.mem_flatMap.mpr ⟨n, hn, hp⟩), hpq⟩
  · refine .inr (.inl ⟨hold, hn, ?_⟩)
    apply sameBelow_removeAll
    intro p hp
    rcases List.mem_append.mp hp with hp | hp
    · exact hother p hp
    · obtain ⟨m, hm, hp⟩ := List.mem_flatMap.mp hp
      have hmn : m ≠ n := by
        rintro rfl
        exact hn hm
      exact drops_diverge hmn p hp

theorem history_concat (x : Happening α) : history fs (xs ++ [x]) = happen (history fs xs) x := by
  simp [history]

omit [DecidableEq α] in
theorem Stands.same (hs : Stands t t' d st) (h : SameBelow d t' t'') : Stands t t'' d st := by
  have hbelow : ∀ {x : Str} {q : List Str}, d ++ [x] <+: q → d <+: q :=
    fun hx => (List.prefix_append _ _).trans hx
  cases st with
  | whole => exact SameBelow.trans hs h
  | trimmed kept =>
    refine ⟨?_, fun x hx q hq => ?_, fun x hx hk q hq => ?_⟩
    · rw [h.entry_eq List.prefix_rfl, hs.itself]
    · rw [h.entry_eq (hbelow hq), hs.left x hx q hq]
    · rw [h.entry_eq (hbelow hq), hs.dropped x hx hk q hq]
  | gone =>
    intro q hq
    rw [h.entry_eq hq]
    exact hs q hq

omit [DecidableEq α] in
/-- The first run that comes to an issue leaves the entry that is last then. -/
theorem Stands.trim (hs : SameBelow (issueDir n) fs.tree fs'.tree)
    (hy : (orderList h fs.tree (issueDir n)).getLast? = some y)
    (ht : ∀ q, issueDir n <+: q → entry t q =
      if ∃ p ∈ drops h fs'.tree n, p <+: q then none else entry fs'.tree q) :
    Stands fs.tree t (issueDir n) (.trimmed y) := by
  obtain ⟨ys, hys⟩ := List.getLast?_eq_some_iff.mp hy
  have hnd : (orderList h fs.tree (issueDir n)).Nodup := nodup_orderList
  rw [hys] at hnd
  have hdrop : (orderList h fs'.tree (issueDir n)).dropLast = ys := by
    rw [orderList_same hs, hys, List.dropLast_concat]
  have hbelow : ∀ {x : Str} {q : List Str}, issueDir n ++ [x] <+: q → issueDir n <+: q :=
    fun hx => (List.prefix_append _ _).trans hx
  have hat : ∀ {x : Str} {q : List Str}, issueDir n ++ [x] <+: q →
      entry t q = if x ∈ ys then none else entry fs.tree q := by
    intro x q hx
    rw [ht q (hbelow hx), if_congr (dropped_iff hx) rfl rfl, hdrop, hs.entry_eq (hbelow hx)]
  refine ⟨?_, fun x hx q hq => ?_, fun x hx hk q hq => ?_⟩
  · rw [ht _ List.prefix_rfl, if_neg, hs.entry_eq List.prefix_rfl]
    rintro ⟨p, hp, hpq⟩
    obtain ⟨x, -, rfl⟩ := List.mem_map.mp hp
    exact absurd hpq.length_le (by simp)
  · rw [hat hq, if_neg]
    rcases hx with rfl | rfl
    · intro hm
      have ho : ofString "R-libs" ∈ orderList h fs.tree (issueDir n) := by simp [hys, hm]
      exact (mem_orderList.mp ho).1 rfl
    · exact fun hm => (List.nodup_append.mp hnd).2.2 x hm x (by simp) rfl
  · rw [hat hq]
    split
    · rfl
    next hm =>
      by_contra hne
      have ho : x ∈ orderList h fs.tree (issueDir n) :=
        mem_orderList.mpr ⟨hx, entry_of_prefix hne hq (by simp)⟩
      rw [hys] at ho
      rcases List.mem_append.mp ho with ho | ho
      · exact hm ho
      · exact hk (List.mem_singleton.mp ho)

omit [DecidableEq α] in
/-- A later run finds nothing more to drop. -/
theorem Stands.trim_again (hs : Stands t fs.tree (issueDir n) (.trimmed y)) :
    drops h fs.tree n = [] := by
  have hone : ∀ x ∈ orderList h fs.tree (issueDir n), x = y := by
    intro x hx
    obtain ⟨hne, hx⟩ := mem_orderList.mp hx
    by_contra hxy
    exact hx (hs.dropped x hne hxy _ List.prefix_rfl)
  have hnd : (orderList h fs.tree (issueDir n)).Nodup := nodup_orderList
  rw [drops, List.map_eq_nil_iff, ← List.length_eq_zero_iff, List.length_dropLast]
  rcases ho : orderList h fs.tree (issueDir n) with _ | ⟨a, _ | ⟨b, l⟩⟩
  · rfl
  · rfl
  · rw [ho] at hone hnd
    have hab : a = b := by rw [hone a (by simp), hone b (by simp)]
    simp [hab] at hnd

omit [DecidableEq α] in
/-- What is gone stays away. -/
theorem Stands.unchanged (hs : Stands t t' d st) (h : ∀ q, d <+: q → entry t'' q = entry t' q)
    (hst : st ≠ .whole) : Stands t t'' d st := by
  have hbelow : ∀ {x : Str} {q : List Str}, d ++ [x] <+: q → d <+: q :=
    fun hx => (List.prefix_append _ _).trans hx
  cases st with
  | whole => exact absurd rfl hst
  | trimmed kept =>
    refine ⟨?_, fun x hx q hq => ?_, fun x hx hk q hq => ?_⟩
    · rw [h d List.prefix_rfl, hs.itself]
    · rw [h q (hbelow hq), hs.left x hx q hq]
    · rw [h q (hbelow hq), hs.dropped x hx hk q hq]
  | gone =>
    intro q hq
    rw [h q hq]
    exact hs q hq

/-- No run of the script has come to the issue. -/
def Untrimmed (n : Nat) (fs : FileSystem Str α) (xs : List (Happening α)) : Prop :=
  ∀ ys h issues zs, xs = ys ++ .cleanUp h issues :: zs →
    n ∉ trimmedNums h issues (history fs ys).tree

/-- The first run that came to the issue left `y`, which was last then, and since that run nothing
below the issue has changed. -/
structure TrimmedOnce (n : Nat) (fs : FileSystem Str α) (xs ys : List (Happening α))
    (h : CleanUpHost α) (issues : ClosedIssues) (zs : List (Happening α)) (y : Str) : Prop where
  run : xs = ys ++ .cleanUp h issues :: zs
  first : Untrimmed n fs ys
  comes : n ∈ trimmedNums h issues (history fs ys).tree
  last : (orderList h (history fs ys).tree (issueDir n)).getLast? = some y
  since : ∀ us, us <+: zs → ∀ q, issueDir n <+: q →
    entry (history fs (ys ++ .cleanUp h issues :: us)).tree q = entry (history fs xs).tree q

/-- What became of the directory of an issue, and why. -/
structure Fate (n : Nat) (fs : FileSystem Str α) (xs : List (Happening α)) (st : Standing) :
    Prop where
  stands : Stands fs.tree (history fs xs).tree (issueDir n) st
  gone : st = .gone ↔ ∃ h issues, .cleanUp h issues ∈ xs ∧ n ∈ issueNums h issues
  trimmed : ∀ y, st = .trimmed y → ∃ ys h issues zs, TrimmedOnce n fs xs ys h issues zs y
  whole : st = .whole → entry fs.tree (issueDir n) ≠ none → Untrimmed n fs xs

omit [DecidableEq α] in
theorem exists_cleanUp {P : CleanUpHost α → ClosedIssues → Prop} :
    (∃ h' issues', .cleanUp h' issues' ∈ xs ++ [.cleanUp h issues] ∧ P h' issues') ↔
      (∃ h' issues', .cleanUp h' issues' ∈ xs ∧ P h' issues') ∨ P h issues := by
  constructor
  · rintro ⟨h', issues', hm, hP⟩
    rcases List.mem_append.mp hm with hm | hm
    · exact .inl ⟨h', issues', hm, hP⟩
    · obtain ⟨rfl, rfl⟩ := Happening.cleanUp.inj (List.mem_singleton.mp hm)
      exact .inr hP
  · rintro (⟨h', issues', hm, hP⟩ | hP)
    · exact ⟨h', issues', List.mem_append_left _ hm, hP⟩
    · exact ⟨h, issues, by simp, hP⟩

omit [DecidableEq α] in
/-- A run among the first ones, or the last. -/
theorem split_concat {x z : Happening α} (hx : xs ++ [x] = ys ++ z :: zs) :
    (ys = xs ∧ z = x) ∨ ∃ zs', xs = ys ++ z :: zs' := by
  rcases List.eq_nil_or_concat' zs with rfl | ⟨zs', w, rfl⟩
  · obtain ⟨h₁, h₂⟩ := List.append_inj' hx rfl
    exact .inl ⟨h₁.symm, (List.singleton_inj.mp h₂).symm⟩
  · rw [← List.cons_append, ← List.append_assoc] at hx
    exact .inr ⟨zs', (List.append_inj' hx rfl).1⟩

/-- What happens later leaves the issue as it is. -/
theorem TrimmedOnce.concat (ho : TrimmedOnce n fs xs ys h issues zs y) {x : Happening α}
    (hs : ∀ q, issueDir n <+: q →
      entry (history fs (xs ++ [x])).tree q = entry (history fs xs).tree q) :
    TrimmedOnce n fs (xs ++ [x]) ys h issues (zs ++ [x]) y where
  run := by rw [ho.run]; simp
  first := ho.first
  comes := ho.comes
  last := ho.last
  since us hus q hq := by
    rcases List.prefix_concat_iff.mp hus with rfl | hus
    · rw [ho.run]
      simp
    · rw [hs q hq, ho.since us hus q hq]

theorem Untrimmed.concat (hu : Untrimmed n fs xs) {x : Happening α}
    (hx : ∀ h issues, x = .cleanUp h issues → n ∉ trimmedNums h issues (history fs xs).tree) :
    Untrimmed n fs (xs ++ [x]) := by
  intro ys h issues zs hsplit
  rcases split_concat hsplit with ⟨rfl, hlast⟩ | ⟨zs', hxs⟩
  · exact hx h issues hlast.symm
  · exact hu ys h issues zs' hxs

/-- A step after which the issue is as it was, and that is no run which comes to it. -/
theorem Fate.passed (hf : Fate n fs xs st) {x : Happening α}
    (hs : SameBelow (issueDir n) (history fs xs).tree (history fs (xs ++ [x])).tree)
    (hx : ∀ h issues, x = .cleanUp h issues → n ∉ issueNums h issues ∧
      n ∉ trimmedNums h issues (history fs xs).tree) : Fate n fs (xs ++ [x]) st := by
  refine ⟨hf.stands.same hs, hf.gone.trans ?_, fun y hy => ?_, fun hst he => ?_⟩
  · constructor
    · rintro ⟨h, issues, hm, hn⟩
      exact ⟨h, issues, List.mem_append_left _ hm, hn⟩
    · rintro ⟨h, issues, hm, hn⟩
      rcases List.mem_append.mp hm with hm | hm
      · exact ⟨h, issues, hm, hn⟩
      · exact absurd hn (hx h issues (List.mem_singleton.mp hm).symm).1
  · obtain ⟨ys, h, issues, zs, ho⟩ := hf.trimmed y hy
    exact ⟨ys, h, issues, zs ++ [x], ho.concat fun q hq => hs.entry_eq hq⟩
  · exact (hf.whole hst he).concat fun h issues hxe => (hx h issues hxe).2

omit [DecidableEq α] in
/-- Nothing below a directory that is not there. -/
theorem sameBelow_absent (he : entry fs.tree d = none) (he' : entry fs'.tree d = none)
    (hd : d ≠ []) : SameBelow d fs.tree fs'.tree := by
  have hnil : ∀ fs : FileSystem Str α, entry fs.tree d = none → part fs.tree (d <+: ·) id = [] := by
    intro fs he
    rw [part, List.map_eq_nil_iff, List.filter_eq_nil_iff]
    intro q hq hdq
    refine entry_of_prefix (entry_ne_none_iff.mpr (List.mem_map_of_mem hq)) ?_ hd he
    simpa using hdq
  rw [SameBelow, hnil fs he, hnil fs' he']

/-- The first run that comes to the issue, which is not old. -/
theorem Fate.first (hf : Fate n fs xs .whole) (hold : n ∉ issueNums h issues)
    (hcomes : n ∈ trimmedNums h issues (history fs xs).tree)
    (ht : ∀ q, issueDir n <+: q → entry (afterCleanUp h issues (history fs xs)).tree q =
      if ∃ p ∈ drops h (history fs xs).tree n, p <+: q then none
      else entry (history fs xs).tree q) :
    ∃ st', Fate n fs (xs ++ [.cleanUp h issues]) st' := by
  have hnot : ∀ {st' : Standing}, st' ≠ .gone → (st' = .gone ↔ ∃ h' issues',
      .cleanUp h' issues' ∈ xs ++ [.cleanUp h issues] ∧ n ∈ issueNums h' issues') := by
    intro st' hst
    rw [exists_cleanUp, or_iff_left hold]
    exact iff_of_false hst (hf.gone.not.mp (by simp))
  by_cases he : entry (history fs xs).tree (issueDir n) = none
  · have he' : entry (afterCleanUp h issues (history fs xs)).tree (issueDir n) = none := by
      rw [ht _ List.prefix_rfl, he, ite_self]
    have hstart : entry fs.tree (issueDir n) = none := by
      rw [← hf.stands.entry_eq List.prefix_rfl, he]
    refine ⟨.whole, ?_, hnot (by simp), by simp, fun _ hne => absurd hstart hne⟩
    rw [history_concat]
    exact hf.stands.same (sameBelow_absent he he' (by simp [issueDir]))
  · have hne : entry fs.tree (issueDir n) ≠ none := by
      rwa [← hf.stands.entry_eq List.prefix_rfl]
    obtain ⟨-, hlist⟩ := (of_mem_trimmedNums hcomes).2 he
    obtain ⟨y, hy⟩ := Option.ne_none_iff_exists'.mp (mt List.getLast?_eq_none_iff.mp hlist)
    have hyf : (orderList h fs.tree (issueDir n)).getLast? = some y := by
      rw [← orderList_same hf.stands]
      exact hy
    refine ⟨.trimmed y, ?_, hnot (by simp), ?_, by simp⟩
    · rw [history_concat]
      exact Stands.trim hf.stands hyf ht
    · rintro y' ⟨⟩
      refine ⟨xs, h, issues, [], rfl, hf.whole rfl hne, hcomes, hy, fun us hus q _ => ?_⟩
      rw [List.prefix_nil.mp hus]

/-- A later run that comes to the issue. -/
theorem Fate.again (hf : Fate n fs xs st) (hst : st ≠ .whole) (hold : n ∉ issueNums h issues)
    (ht : ∀ q, issueDir n <+: q → entry (afterCleanUp h issues (history fs xs)).tree q =
      if ∃ p ∈ drops h (history fs xs).tree n, p <+: q then none
      else entry (history fs xs).tree q) :
    Fate n fs (xs ++ [.cleanUp h issues]) st := by
  have hsame : ∀ q, issueDir n <+: q →
      entry (history fs (xs ++ [.cleanUp h issues])).tree q = entry (history fs xs).tree q := by
    intro q hq
    rw [history_concat, happen, ht q hq]
    cases st with
    | whole => exact absurd rfl hst
    | trimmed y => rw [Stands.trim_again hf.stands, if_neg (by simp)]
    | gone => rw [hf.stands q hq, ite_self]
  refine ⟨hf.stands.unchanged hsame hst, ?_, fun y hy => ?_, fun hs => absurd hs hst⟩
  · rw [exists_cleanUp, or_iff_left hold]
    exact hf.gone
  · obtain ⟨ys, h', issues', zs, ho⟩ := hf.trimmed y hy
    exact ⟨ys, h', issues', zs ++ [.cleanUp h issues], ho.concat hsame⟩

theorem Fate.cleanUp (hf : Fate n fs xs st) (hr : ReadsPaths h (history fs xs).tree issues) :
    ∃ st', Fate n fs (xs ++ [.cleanUp h issues]) st' := by
  rcases afterCleanUp_issue hr n with ⟨hold, hnone⟩ | ⟨hold, hskip, hsame⟩ | ⟨hold, hcomes, ht⟩
  · refine ⟨.gone, ?_, iff_of_true rfl (exists_cleanUp.mpr (.inr hold)), nofun, nofun⟩
    rw [history_concat]
    exact hnone
  · refine ⟨st, hf.passed ?_ ?_⟩
    · rw [history_concat]
      exact hsame
    · intro h' issues' he
      obtain ⟨rfl, rfl⟩ := Happening.cleanUp.inj he
      exact ⟨hold, hskip⟩
  · by_cases hst : st = .whole
    · subst hst
      exact hf.first hold hcomes ht
    · exact ⟨st, hf.again hst hold ht⟩

/-- Whatever else happens outside of it, the directory of an issue is removed by the first run that
finds the issue old. Before that, the first run that comes to it leaves R-libs and what was modified
last, and no other run changes it. -/
theorem issue_life (n : Nat) (fs : FileSystem Str α) (xs : List (Happening α))
    (hreads : ∀ ys h issues zs, xs = ys ++ .cleanUp h issues :: zs →
      ReadsPaths h (history fs ys).tree issues)
    (hother : ∀ ys fs' zs, xs = ys ++ .other fs' :: zs →
      SameBelow (issueDir n) (history fs ys).tree fs'.tree) :
    ∃ st, Fate n fs xs st ∧ (st = .whole → entry fs.tree (issueDir n) ≠ none →
      ∀ ys h issues zs fs', xs = ys ++ .cleanUp h issues :: zs →
        cleanUpIssues h issues (history fs ys) = .ok fs' → n ∉ closeNums h issues) := by
  suffices hfate : ∃ st, Fate n fs xs st by
    obtain ⟨st, hf⟩ := hfate
    refine ⟨st, hf, fun hst he ys h issues zs fs' hx hok hn => ?_⟩
    exact hf.whole hst he ys h issues zs hx ((trimmedNums_of_ok (hreads ys h issues zs hx) hok).mpr hn)
  induction xs using List.reverseRecOn with
  | nil =>
    refine ⟨.whole, rfl, by simp, nofun, fun _ _ ys h issues zs hx => ?_⟩
    simp at hx
  | append_singleton xs x ih =>
    obtain ⟨st, hf⟩ := ih (fun ys h issues zs hx => hreads ys h issues (zs ++ [x]) (by rw [hx]; simp))
      fun ys fs' zs hx => hother ys fs' (zs ++ [x]) (by rw [hx]; simp)
    cases x with
    | other fs' =>
      refine ⟨st, hf.passed ?_ (by simp)⟩
      rw [history_concat]
      exact hother xs fs' [] rfl
    | cleanUp h issues => exact hf.cleanUp (hreads xs h issues [] rfl)

end

theorem issue_life_twoRuns :
    ∃ st, Fate 3145 twoRuns [.other twoRuns, .cleanUp tenDaysLater issue3145] st ∧
      (st = .whole → entry twoRuns.tree (issueDir 3145) ≠ none → ∀ ys h issues zs fs',
        [.other twoRuns, .cleanUp tenDaysLater issue3145] = ys ++ .cleanUp h issues :: zs →
          cleanUpIssues h issues (history twoRuns ys) = .ok fs' → 3145 ∉ closeNums h issues) := by
  apply issue_life
  · intro ys h issues zs hx
    rcases ys with _ | ⟨y, _ | ⟨y', ys⟩⟩
    · cases hx
    · cases hx
      decide +kernel
    · simp at hx
  · intro ys fs' zs hx
    rcases ys with _ | ⟨y, _ | ⟨y', ys⟩⟩
    · cases hx
      rfl
    · cases hx
    · simp at hx

example : names (history twoRuns [.cleanUp tenDaysLater issue3145]).tree (issueDir 3145) =
    ["R-libs", "2acf0f2c"] := by decide +kernel

end PackageBuilder
