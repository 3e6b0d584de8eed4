import PackageBuilder.Library.Posix

/-! Sequences of calls that make directories where they are missing and write files, each call
made only if the ones before it did not raise. -/
namespace Posix
open Text FileTree

/-- Where path names start from, and which the operating system takes at all. -/
structure Caller where
  cwd : List Str := []
  accepts : Str → Bool := fun s => '\x00' ∉ s

/-- The write of a file is one step: if it raises, it has changed nothing. -/
inductive Call (α : Type)
  | ensure (path : Str)
  | write (path : Str) (x : α)

section
variable {α : Type} [DecidableEq α] (u : Caller)

def Call.path : Call α → Str
  | .ensure path => path
  | .write path _ => path

def Call.target (c : Call α) : List Str := location u.cwd c.path

def Call.IsWrite : Call α → Prop
  | .ensure _ => False
  | .write _ _ => True

/-- The tree after `if not os.path.exists(path): os.mkdir(path)` or the write of a file, `none`
when the call raises. `os.path.exists` is false for a name that the system does not take. -/
def Call.apply (t : Tree Str α) : Call α → Option (Tree Str α)
  | .ensure path =>
    if u.accepts path = false then none
    else if pathExists t u.cwd path then some t
    else osMkdir t u.cwd path
  | .write path x => if u.accepts path then openWrite t u.cwd path x else none

/-- The tree after the calls up to the first that raises, and whether none did. -/
def applyAll (t : Tree Str α) : List (Call α) → Tree Str α × Bool
  | [] => (t, true)
  | c :: cs =>
    match c.apply u t with
    | some t' => applyAll t' cs
    | none => (t, false)

/-- What the call is to make is there already. -/
def Call.Found (t : Tree Str α) : Call α → Prop
  | .ensure path => pathExists t u.cwd path = true
  | .write path x => entry t (location u.cwd path) = some (.file x)

/-- Up to the first call that raises, every call finds what it is to make. -/
def Idle (t : Tree Str α) : List (Call α) → Prop
  | [] => True
  | c :: cs => ∀ t', c.apply u t = some t' → c.Found u t ∧ Idle t' cs

end

section
variable {α : Type} [DecidableEq α] {u : Caller} {t t' : Tree Str α} {c : Call α}
  {cs : List (Call α)} {p d : List Str} {ns : List Str} {e : Entry α}

/-- All a call can do. -/
theorem apply_cases (h : c.apply u t = some t') :
    (c.Found u t ∧ t' = t ∧ ¬ c.IsWrite) ∨
    (entry t (c.target u) = none ∧ t' = put t (c.target u) .dir ∧ ¬ c.IsWrite ∧ ¬ c.Found u t) ∨
    ∃ path x, c = .write path x ∧ entry t (c.target u) ≠ some .dir ∧
      t' = put t (c.target u) (.file x) := by
  cases c with
  | ensure path =>
    simp only [Call.apply] at h
    split at h
    · cases h
    split at h
    · cases h
      exact .inl ⟨‹_›, rfl, id⟩
    · obtain ⟨he, ht⟩ := osMkdir_eq h
      exact .inr (.inl ⟨he, ht, id, ‹_›⟩)
  | write path x =>
    simp only [Call.apply] at h
    split at h
    · obtain ⟨he, ht⟩ := openWrite_eq h
      exact .inr (.inr ⟨path, x, rfl, he, ht⟩)
    · cases h

theorem apply_other (h : c.apply u t = some t') (hp : c.target u ≠ p) : entry t' p = entry t p := by
  rcases apply_cases h with ⟨-, rfl, -⟩ | ⟨-, rfl, -⟩ | ⟨_, _, -, -, rfl⟩
  · rfl
  · exact entry_put_ne hp
  · exact entry_put_ne hp

/-- A call keeps every entry, unless it writes a file in the place of a file. -/
theorem apply_keeps (h : c.apply u t = some t') (he : entry t p = some e)
    (hw : e = .dir ∨ (c.IsWrite → c.target u ≠ p)) : entry t' p = some e := by
  by_cases hp : c.target u = p
  · subst hp
    rcases apply_cases h with ⟨-, rfl, -⟩ | ⟨hn, -⟩ | ⟨path, x, rfl, hd, -⟩
    · exact he
    · rw [hn] at he
      cases he
    · rcases hw with rfl | hw
      · exact absurd he hd
      · exact absurd rfl (hw trivial)
  · rw [apply_other h hp, he]

theorem apply_found (h : c.apply u t = some t') (hf : c.Found u t) : entry t' p = entry t p := by
  rcases apply_cases h with ⟨-, rfl, -⟩ | ⟨-, -, -, hn⟩ | ⟨path, x, rfl, -, rfl⟩
  · rfl
  · exact absurd hf hn
  · rw [entry_put]
    split
    next hp => exact hp ▸ hf.symm
    next => rfl

/-- A call that does not find what it is to make leaves something new. -/
theorem apply_new (h : c.apply u t = some t') (hf : ¬ c.Found u t) :
    ∃ e, entry t' (c.target u) = some e ∧ entry t (c.target u) ≠ some e ∧
      (e = .dir ∨ c.IsWrite) := by
  rcases apply_cases h with ⟨hn, -⟩ | ⟨hn, rfl, -⟩ | ⟨path, x, rfl, -, rfl⟩
  · exact absurd hn hf
  · refine ⟨.dir, entry_put_self, ?_, .inl rfl⟩
    rw [hn]
    exact nofun
  · exact ⟨.file x, entry_put_self, hf, .inr trivial⟩

/-- The same over a sequence. -/
theorem applyAll_keeps (he : entry t p = some e)
    (hw : e = .dir ∨ ∀ c ∈ cs, c.IsWrite → c.target u ≠ p) :
    entry (applyAll u t cs).1 p = some e := by
  induction cs generalizing t with
  | nil => exact he
  | cons c cs ih =>
    simp only [applyAll]
    split
    next t' ht =>
      refine ih (apply_keeps ht he ?_) ?_
      · exact hw.imp_right fun hw => hw c List.mem_cons_self
      · exact hw.imp_right fun hw c' hc' => hw c' (List.mem_cons_of_mem c hc')
    next => exact he

theorem applyAll_other (hp : ∀ c ∈ cs, c.target u ≠ p) :
    entry (applyAll u t cs).1 p = entry t p := by
  induction cs generalizing t with
  | nil => rfl
  | cons c cs ih =>
    simp only [applyAll]
    split
    next t' ht =>
      rw [ih fun c' hc' => hp c' (List.mem_cons_of_mem c hc')]
      exact apply_other ht (hp c List.mem_cons_self)
    next => rfl

/-- Nothing that a call makes is undone by the ones after it: the tree ends as it began if and
only if there was nothing to make. -/
theorem applyAll_same_iff
    (hw : cs.Pairwise fun c c' => c.IsWrite → c'.IsWrite → c'.target u ≠ c.target u) :
    (∀ p, entry (applyAll u t cs).1 p = entry t p) ↔ Idle u t cs := by
  induction cs generalizing t with
  | nil => simp [applyAll, Idle]
  | cons c cs ih =>
    obtain ⟨hc, hcs⟩ := List.pairwise_cons.mp hw
    simp only [applyAll, Idle]
    rcases ht : c.apply u t with _ | t'
    · simp
    · have hrest := ih hcs (t := t')
      constructor
      · intro hsame t₂ h₂
        cases h₂
        by_cases hf : c.Found u t
        · refine ⟨hf, hrest.mp fun p => ?_⟩
          rw [hsame p, apply_found ht hf]
        · obtain ⟨e, he, hne, hk⟩ := apply_new ht hf
          have hend : entry (applyAll u t' cs).1 (c.target u) = some e :=
            applyAll_keeps he (hk.imp_right fun hcw c' hc' => hc c' hc' hcw)
          exact absurd ((hsame _).symm.trans hend) hne
      · intro hidle p
        obtain ⟨hf, hi⟩ := hidle t' rfl
        rw [hrest.mpr hi p, apply_found ht hf]

/-- Every directory stays one. -/
def Grows (t t' : Tree Str α) : Prop := ∀ p, IsDir t p → IsDir t' p

theorem walk_grows (hg : Grows t t') (h : walk t d ns = some p) : walk t' d ns = some p := by
  induction ns generalizing d with
  | nil => exact h
  | cons n ns ih =>
    simp only [walk] at h ⊢
    split at h
    next hd =>
      rw [if_pos (hg d hd)]
      exact ih h
    next => cases h

theorem resolve_of_walk {cwd : List Str} {path : Str} (hne : path ≠ [])
    (h : walk t (root cwd path) (components path) = some p) : resolve t cwd path = some p := by
  rw [resolve, if_neg hne, h]

theorem resolve_grows {cwd : List Str} {path : Str} (hg : Grows t t')
    (h : resolve t cwd path = some p) : resolve t' cwd path = some p := by
  rw [resolve] at h
  split at h
  next => cases h
  next hne => exact resolve_of_walk hne (walk_grows hg h)

theorem walk_append {ns' : List Str} :
    walk t d (ns ++ ns') = (walk t d ns).bind fun q => walk t q ns' := by
  induction ns generalizing d with
  | nil => rfl
  | cons n ns ih =>
    simp only [List.cons_append, walk]
    split
    · exact ih
    · rfl

theorem apply_grows (h : c.apply u t = some t') : Grows t t' := by
  rintro p (rfl | hp)
  · exact .inl rfl
  · exact .inr (apply_keeps h hp (.inl rfl))

theorem applyAll_grows : Grows t (applyAll u t cs).1 := by
  rintro p (rfl | hp)
  · exact .inl rfl
  · exact .inr (applyAll_keeps hp (.inl rfl))

theorem walk_blank (hd : IsDir t d) (h : ∀ n ∈ ns, n = []) : walk t d ns = some d := by
  induction ns with
  | nil => rfl
  | cons n ns ih =>
    obtain rfl : n = [] := h n List.mem_cons_self
    rw [walk, if_pos hd]
    exact ih fun n' hn' => h n' (List.mem_cons_of_mem _ hn')

/-- The entry that a name is about is where the name leads. -/
theorem walk_leaf (h : leaf t d ns = some p) (hp : IsDir t p.dropLast) :
    walk t d ns = some p := by
  rcases List.eq_nil_or_concat ns with rfl | ⟨ds, n, rfl⟩
  · cases h
  · simp only [leaf, List.concat_eq_append, List.getLast?_concat, List.dropLast_concat] at h
    split at h
    next hn =>
      obtain ⟨q, hq, rfl⟩ := Option.map_eq_some_iff.mp h
      rw [List.dropLast_concat] at hp
      rw [List.concat_eq_append, walk_append, hq]
      simp [walk, hp, enter_names hn]
    next => cases h

theorem leaf_ne_nil (h : leaf t d ns = some p) : ns ≠ [] := by
  rintro rfl
  cases h

/-- After a call that does not raise, its path name leads to its target. -/
theorem apply_resolves (h : c.apply u t = some t') :
    resolve t' u.cwd c.path = some (c.target u) := by
  suffices hs : ∃ q, resolve t' u.cwd c.path = some q by
    obtain ⟨q, hq⟩ := hs
    rw [hq, resolve_eq hq, Call.target]
  have hg := apply_grows h
  cases c with
  | ensure path =>
    simp only [Call.apply] at h
    split at h
    · cases h
    split at h
    next he =>
      cases h
      rcases hr : resolve t u.cwd path with _ | q
      · simp [pathExists, hr] at he
      · exact ⟨q, hr⟩
    next =>
      obtain ⟨q, hl, hm⟩ := Option.bind_eq_some_iff.mp h
      obtain ⟨-, hd, rfl⟩ := mkdir_eq_some.mp hm
      have hw := walk_grows hg (walk_leaf hl hd)
      have hsplit := List.rdropWhile_append_rtakeWhile (p := fun n : Str => decide (n = []))
        (l := components path)
      have hne : path ≠ [] := by
        rintro rfl
        exact leaf_ne_nil hl rfl
      refine ⟨q, resolve_of_walk hne ?_⟩
      rw [Call.path, ← hsplit, walk_append, hw]
      refine walk_blank (.inr entry_put_self) fun n hn => ?_
      simpa using List.mem_rtakeWhile_imp hn
  | write path x =>
    simp only [Call.apply] at h
    split at h
    next =>
      obtain ⟨q, hl, hm⟩ := Option.bind_eq_some_iff.mp h
      split at hm
      next hd =>
        have hne : path ≠ [] := by
          rintro rfl
          cases hl
        exact ⟨q, resolve_of_walk hne (walk_grows hg (walk_leaf hl hd.2))⟩
      next => cases hm
    next => cases h

/-- When no call raises, all their names lead to their targets in the end. -/
theorem applyAll_resolves (h : applyAll u t cs = (t', true)) :
    ∀ c ∈ cs, resolve t' u.cwd c.path = some (c.target u) := by
  induction cs generalizing t with
  | nil => exact nofun
  | cons c cs ih =>
    simp only [applyAll] at h
    split at h
    next t₁ ht =>
      intro c' hc'
      rcases List.mem_cons.mp hc' with rfl | hc'
      · have hg : Grows t₁ (applyAll u t₁ cs).1 := applyAll_grows
        rw [h] at hg
        exact resolve_grows hg (apply_resolves ht)
      · exact ih h c' hc'
    next => cases h

end
end Posix
