import PackageBuilder.Library.FileTree

/-! File systems, in which every entry has one path and lies in a directory: their listings, and
removals of several entries. -/
namespace FileTree

/-- A tree that a file system can hold. -/
@[ext] structure FileSystem (ν α : Type) [DecidableEq ν] where
  tree : Tree ν α
  nodup : (tree.map Prod.fst).Nodup
  rooted : ∀ q ∈ tree, q.1 ≠ [] ∧ IsDir tree q.1.dropLast

section
variable {ν α : Type} [DecidableEq ν] {t : Tree ν α} {p q d : List ν} {x : ν} {e : Entry α}

theorem entry_ne_none_iff : entry t p ≠ none ↔ p ∈ t.map Prod.fst := by
  induction t with
  | nil => simp
  | cons r t ih =>
    rw [entry_cons, List.map_cons, List.mem_cons, ← ih]
    split
    next h => simp [h]
    next h => simp [Ne.symm h]

theorem mem_of_entry (h : entry t p = some e) : (p, e) ∈ t := by
  induction t with
  | nil => cases h
  | cons r t ih =>
    rw [entry_cons] at h
    split at h
    next hr =>
      cases h
      exact List.mem_cons.mpr (.inl (by rw [← hr]))
    next => exact List.mem_cons_of_mem r (ih h)

theorem names_eq :
    names t d = (t.map Prod.fst).filterMap fun q => if q.dropLast = d then q.getLast? else none := by
  rw [List.filterMap_map]
  rfl

theorem mem_names_iff : x ∈ names t d ↔ entry t (d ++ [x]) ≠ none := by
  rw [names_eq, entry_ne_none_iff, List.mem_filterMap]
  constructor
  · rintro ⟨q, hq, hx⟩
    split at hx
    next hd =>
      rw [← hd, List.dropLast_append_getLast? x hx]
      exact hq
    next => cases hx
  · intro hq
    exact ⟨_, hq, by simp⟩

/-- An entry that is put into a directory is listed last. -/
theorem names_put : names (put t (d ++ [x]) e) d = (names t d).filter (· ≠ x) ++ [x] := by
  have hfilter : names (t.filter fun p => p.1 ≠ d ++ [x]) d = (names t d).filter (· ≠ x) := by
    simp only [names, List.filterMap_filter, List.filter_filterMap]
    congr 1
    funext p
    by_cases hd : p.1.dropLast = d
    · rcases hl : p.1.getLast? with _ | y
      · simp [hd]
      · have hp : p.1 = d ++ [x] ↔ y = x := by
          rw [← hd, ← List.dropLast_append_getLast? y hl]
          simp
        by_cases hy : y = x <;> simp [hd, hp, hy, Option.filter]
    · simp [hd]
  rw [← hfilter, put, names, List.filterMap_append]
  simp [names]

theorem names_put_other (hp : p.dropLast ≠ d) : names (put t p e) d = names t d := by
  have hfilter : names (t.filter fun q => q.1 ≠ p) d = names t d := by
    simp only [names, List.filterMap_filter]
    congr 1
    funext q
    by_cases hq : q.1 = p
    · simp [hq, hp]
    · simp [hq]
  rw [← hfilter, put, names, List.filterMap_append]
  simp [names, hp]

theorem nodup_names (h : (t.map Prod.fst).Nodup) : (names t d).Nodup := by
  rw [names_eq]
  apply h.filterMap
  intro q q' y hy hy'
  simp only [Option.mem_def] at hy hy'
  split at hy
  next hd =>
    split at hy'
    next hd' =>
      rw [← List.dropLast_append_getLast? y hy, ← List.dropLast_append_getLast? y hy', hd, hd']
    next => cases hy'
  next => cases hy

variable {fs : FileSystem ν α}

/-- What holds an entry is there. -/
theorem entry_of_prefix (hq : entry fs.tree q ≠ none) (h : p <+: q) (hp : p ≠ []) :
    entry fs.tree p ≠ none := by
  obtain ⟨r, rfl⟩ := h
  induction r using List.reverseRecOn with
  | nil => simpa using hq
  | append_singleton r x ih =>
    obtain ⟨e, he⟩ := Option.ne_none_iff_exists'.mp hq
    have hd := (fs.rooted _ (mem_of_entry he)).2
    rw [← List.append_assoc, List.dropLast_concat] at hd
    rcases hd with hd | hd
    · simp [hp] at hd
    · exact ih (by simp [hd])

/-- What holds an entry is a directory. -/
theorem isDir_of_prefix (hq : entry fs.tree q ≠ none) (h : p <+: q) (hpq : p ≠ q) :
    IsDir fs.tree p := by
  obtain ⟨_ | ⟨x, r⟩, rfl⟩ := h
  · simp at hpq
  have hx : entry fs.tree (p ++ [x]) ≠ none := by
    refine entry_of_prefix hq ?_ (by simp)
    simp
  obtain ⟨e, he⟩ := Option.ne_none_iff_exists'.mp hx
  simpa using (fs.rooted _ (mem_of_entry he)).2

/-- `rm -rf` -/
def FileSystem.remove (fs : FileSystem ν α) (p : List ν) : FileSystem ν α where
  tree := rmTree fs.tree p
  nodup := fs.nodup.sublist (List.filter_sublist.map _)
  rooted := by
    intro q hq
    obtain ⟨hm, hn⟩ := List.mem_filter.mp hq
    obtain ⟨hne, hd⟩ := fs.rooted q hm
    refine ⟨hne, hd.imp_right fun hd => ?_⟩
    rw [entry_rmTree_other, hd]
    intro hp
    simp [hp.trans (List.dropLast_prefix q.1)] at hn

/-- Nothing is removed where nothing is. -/
theorem remove_eq_self (h : entry fs.tree p = none) (hp : p ≠ []) : fs.remove p = fs := by
  apply FileSystem.ext
  refine List.filter_eq_self.mpr fun q hq => ?_
  rw [decide_eq_true_iff]
  intro hpq
  exact entry_of_prefix (entry_ne_none_iff.mpr (List.mem_map_of_mem hq)) hpq hp h

@[simp] theorem remove_tree : (fs.remove p).tree = rmTree fs.tree p := rfl

def FileSystem.removeAll (fs : FileSystem ν α) (ps : List (List ν)) : FileSystem ν α :=
  ps.foldl FileSystem.remove fs

@[simp] theorem removeAll_cons {ps : List (List ν)} :
    fs.removeAll (p :: ps) = (fs.remove p).removeAll ps := rfl

theorem removeAll_append {ps ps' : List (List ν)} :
    fs.removeAll (ps ++ ps') = (fs.removeAll ps).removeAll ps' :=
  List.foldl_append

theorem entry_removeAll {ps : List (List ν)} :
    entry (fs.removeAll ps).tree q = if ∃ p ∈ ps, p <+: q then none else entry fs.tree q := by
  induction ps generalizing fs with
  | nil => simp [FileSystem.removeAll]
  | cons p ps ih =>
    rw [removeAll_cons, ih, remove_tree, entry_rmTree]
    by_cases hp : p <+: q <;> simp [hp]

/-- Two trees that are the same from `d` on, in the order of their entries too. -/
def SameBelow (d : List ν) (t t' : Tree ν α) : Prop :=
  part t' (d <+: ·) id = part t (d <+: ·) id

end

section
variable {ν α : Type} [DecidableEq ν] {t t' t'' : Tree ν α} {p q d : List ν}
  {fs : FileSystem ν α}

theorem SameBelow.trans (h : SameBelow d t t') (h' : SameBelow d t' t'') : SameBelow d t t'' :=
  Eq.trans h' h

theorem SameBelow.entry_eq (h : SameBelow d t t') (hq : d <+: q) : entry t' q = entry t q := by
  have hid : ∀ e : Option (Entry α), e.map (Entry.map id) = e := by
    rintro (_ | _ | _) <;> rfl
  have he := congrArg (entry · q) h
  simpa only [entry_part hq, hid] using he

theorem SameBelow.names_eq (h : SameBelow d t t') : names t' d = names t d := by
  have hkeep : ∀ q : List ν, q.dropLast = d → q ≠ [] → d <+: q := by
    rintro q rfl -
    exact List.dropLast_prefix q
  have hn := congrArg (names · d) h
  simpa only [names_part hkeep] using hn

/-- Two paths with no common continuation. -/
def Diverge (p d : List ν) : Prop := ∀ q, p <+: q → ¬ d <+: q

theorem sameBelow_rmTree (h : Diverge p d) : SameBelow d t (rmTree t p) :=
  part_rmTree_other h

theorem sameBelow_removeAll {ps : List (List ν)} (h : ∀ p ∈ ps, Diverge p d) :
    SameBelow d fs.tree (fs.removeAll ps).tree := by
  induction ps generalizing fs with
  | nil => exact rfl
  | cons p ps ih =>
    have hp : SameBelow d fs.tree (fs.remove p).tree := sameBelow_rmTree (h p List.mem_cons_self)
    exact hp.trans (ih fun p' hp' => h p' (List.mem_cons_of_mem p hp'))

omit [DecidableEq ν] in
theorem diverge_append {x y : ν} {r : List ν} (h : x ≠ y) : Diverge (d ++ x :: r) (d ++ [y]) := by
  rintro q ⟨a, rfl⟩ ⟨b, hb⟩
  simp [Ne.symm h] at hb

end
end FileTree
