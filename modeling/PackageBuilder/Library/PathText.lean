import PackageBuilder.Library.FileCalls

/-! The text of path names: the absolute name of an entry, and what `os.path.dirname` makes of
names. -/
namespace Posix
open Text FileTree

section
variable {α : Type} [DecidableEq α] {t : Tree Str α} {cwd d p : List Str}

/-- The absolute path name of an entry, as `os.getcwd` gives it. -/
def pathText (p : List Str) : Str := if p = [] then ['/'] else p.flatMap ('/' :: ·)

theorem pathText_ne_nil : pathText p ≠ [] := by
  unfold pathText
  split
  · exact List.cons_ne_nil _ _
  · cases p <;> simp_all

theorem pathText_concat (p : List Str) (c : Str) :
    pathText (p ++ [c]) = p.flatMap ('/' :: ·) ++ '/' :: c := by
  simp [pathText]

theorem intercalate_slashes (p : List Str) :
    ['/'].intercalate ([] :: p) = p.flatMap ('/' :: ·) := by
  have hgo : ∀ c : Str, ['/'].intercalate (c :: p) = c ++ p.flatMap ('/' :: ·) := by
    induction p with
    | nil => intro c; simp
    | cons d p ih =>
      intro c
      rw [List.intercalate_cons_cons, ih, List.flatMap_cons]
      simp
  exact hgo []

theorem components_slashes (h : ∀ c ∈ p, '/' ∉ c) : components (p.flatMap ('/' :: ·)) = [] :: p := by
  rw [← intercalate_slashes]
  apply List.splitOn_intercalate
  · simpa using h
  · exact List.cons_ne_nil _ _

theorem location_pathText (h : ∀ c ∈ p, IsFileName c) : location cwd (pathText p) = p := by
  cases p with
  | nil => rfl
  | cons c p =>
    have htext : pathText (c :: p) = (c :: p).flatMap ('/' :: ·) := if_neg (List.cons_ne_nil c p)
    have hroot : root cwd (pathText (c :: p)) = [] := by rw [htext]; rfl
    rw [location, hroot, htext, components_slashes fun c hc => (h c hc).2]
    exact normal_fileNames h

theorem dirname_slash {base name : Str} (hn : '/' ∉ name) : dirname (base ++ '/' :: name) =
    if base.all (· == '/') then base ++ ['/'] else base.rdropWhile (· == '/') := by
  have hhead : (base ++ '/' :: name).rdropWhile (· != '/') = base ++ ['/'] := by
    have hpos : ∀ c ∈ name.reverse, (c != '/') = true := by
      intro c hc
      rw [bne_iff_ne]
      rintro rfl
      exact hn (List.mem_reverse.mp hc)
    rw [List.rdropWhile, List.reverse_append, List.reverse_cons, List.append_assoc,
      List.dropWhile_append_of_pos hpos]
    simp
  rw [dirname, hhead, List.rdropWhile_concat_pos _ _ _ (by decide)]
  simp

theorem dirname_pathText (h : ∀ c ∈ p, IsFileName c) : dirname (pathText p) = pathText p.dropLast := by
  rcases List.eq_nil_or_concat p with rfl | ⟨q, c, rfl⟩
  · rfl
  rw [List.concat_eq_append] at h ⊢
  obtain ⟨hq, hc⟩ := List.forall_mem_append.mp h
  rw [pathText_concat, dirname_slash (hc c List.mem_cons_self).2, List.dropLast_concat]
  rcases List.eq_nil_or_concat q with rfl | ⟨q, e, rfl⟩
  · rfl
  · -- the text of the directory ends with a letter of its name
    rw [List.concat_eq_append] at hq ⊢
    have he : IsFileName e := hq e (List.mem_append_right q List.mem_cons_self)
    obtain ⟨name, l, rfl⟩ := (List.eq_nil_or_concat e).resolve_left he.1.1
    have hl : l ≠ '/' := by
      rintro rfl
      exact he.2 (by simp)
    have htext : pathText (q ++ [name.concat l]) =
        q.flatMap ('/' :: ·) ++ '/' :: name ++ [l] := by
      rw [pathText_concat]
      simp
    have hflat : (q ++ [name.concat l]).flatMap ('/' :: ·) =
        q.flatMap ('/' :: ·) ++ '/' :: name ++ [l] := by simp
    rw [htext, hflat, List.rdropWhile_concat_neg _ _ _ (by simpa using hl), if_neg (by simp [hl])]

theorem slash_not_mem_components {path : Str} : ∀ c ∈ components path, '/' ∉ c := by
  induction path with
  | nil => simp [components]
  | cons x path ih =>
    rw [components, List.splitOn_cons_eq_if_modifyHead]
    split
    next => simpa using ih
    next hx =>
      have hx : x ≠ '/' := by simpa using hx
      rcases hs : path.splitOn '/' with _ | ⟨c, cs⟩
      · simp
      · rw [components, hs, List.forall_mem_cons] at ih
        rw [List.modifyHead_cons, List.forall_mem_cons]
        exact ⟨by simpa [Ne.symm hx] using ih.1, ih.2⟩

/-- An absolute path name leads to file names. -/
theorem location_isFileName {path : Str} (h : path.head? = some '/') :
    ∀ c ∈ location cwd path, IsFileName c := by
  have hgo : ∀ (cs d : List Str), (∀ c ∈ cs, '/' ∉ c) → (∀ c ∈ d, IsFileName c) →
      ∀ c ∈ normal d cs, IsFileName c := by
    intro cs
    induction cs with
    | nil => exact fun _ _ hd => hd
    | cons n cs ih =>
      intro d hn hd
      obtain ⟨hn, hcs⟩ := List.forall_mem_cons.mp hn
      refine ih (enter d n) hcs ?_
      unfold enter
      split_ifs with h1 h2
      · exact hd
      · exact fun c hc => hd c (List.dropLast_subset d hc)
      · rw [List.forall_mem_append]
        rw [not_or] at h1
        exact ⟨hd, by simpa using ⟨⟨h1.1, h1.2, h2⟩, hn⟩⟩
  rw [location, root, if_pos h]
  exact hgo _ _ slash_not_mem_components (by simp)

theorem components_replicate (x : Str) (k : ℕ) :
    components (x ++ List.replicate k '/') = components x ++ List.replicate k [] := by
  induction k with
  | zero => simp
  | succ k ih =>
    rw [List.replicate_succ', ← List.append_assoc, components, List.splitOn_append_cons_self,
      List.splitOn_nil, ← components, ih, List.replicate_succ', List.append_assoc]

/-- The directory of a file that a path name leads to. -/
theorem resolve_dirname {base name : Str} (hn : '/' ∉ name)
    (h : resolve t cwd (base ++ '/' :: name) = some p) :
    ∃ q, resolve t cwd (dirname (base ++ '/' :: name)) = some q ∧ IsDir t q ∧ p = enter q name := by
  have hwalk : walk t (root cwd (base ++ '/' :: name)) (components base ++ [name]) = some p := by
    rw [resolve, if_neg (by simp)] at h
    rw [components, List.splitOn_append_cons_self, List.splitOn_eq_singleton hn] at h
    exact h
  rw [walk_append] at hwalk
  obtain ⟨q, hq, hp⟩ := Option.bind_eq_some_iff.mp hwalk
  simp only [walk] at hp
  split at hp
  next hd =>
    refine ⟨q, ?_, hd, (Option.some.inj hp).symm⟩
    rw [dirname_slash hn]
    split
    next hall =>
      have hroot : root cwd (base ++ ['/']) = root cwd (base ++ '/' :: name) := by
        cases base <;> rfl
      refine resolve_of_walk (by simp) ?_
      rw [hroot, components, List.splitOn_append_cons_self, List.splitOn_nil, walk_append, hq]
      exact walk_blank hd (by simp)
    next hall =>
      have hsplit := List.rdropWhile_append_rtakeWhile (p := (· == '/')) (l := base)
      have hslashes : base.rtakeWhile (· == '/') =
          List.replicate (base.rtakeWhile (· == '/')).length '/' := by
        rw [List.eq_replicate_iff]
        refine ⟨rfl, fun c hc => ?_⟩
        simpa using List.mem_rtakeWhile_imp hc
      have hne : base.rdropWhile (· == '/') ≠ [] := by
        intro he
        exact hall (List.all_eq_true.mpr (List.rdropWhile_eq_nil_iff.mp he))
      have hcomp : components base = components (base.rdropWhile (· == '/')) ++
          List.replicate (base.rtakeWhile (· == '/')).length [] := by
        conv_lhs => rw [← hsplit, hslashes]
        exact components_replicate _ _
      have hroot : root cwd (base.rdropWhile (· == '/')) = root cwd (base ++ '/' :: name) := by
        obtain ⟨c, x, hx⟩ := List.exists_cons_of_ne_nil hne
        have hhead : base.head? = some c := by
          rw [← hsplit, hx]
          rfl
        rw [root, root, hx, List.head?_append, hhead]
        rfl
      refine resolve_of_walk hne ?_
      rw [hroot]
      rw [hcomp, walk_append] at hq
      obtain ⟨q', hq', hb⟩ := Option.bind_eq_some_iff.mp hq
      have hblank : normal q' (List.replicate (base.rtakeWhile (· == '/')).length []) = q' :=
        normal_blank fun c hc => List.eq_of_mem_replicate hc
      rw [walk_eq hb, hblank]
      exact hq'
  next => cases hp

end
end Posix
