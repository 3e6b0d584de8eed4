import PackageBuilder.Library.Text
import PackageBuilder.Library.Listing

/-! Path names of POSIX over a file tree without links, and the calls of Python's os module that
take them. -/
namespace Posix
open Text FileTree

/-- One component of a path name, from the directory `d`. -/
def enter (d : List Str) (c : Str) : List Str :=
  if c = [] ∨ c = "." then d else if c = ".." then d.dropLast else d ++ [c]

/-- Where components lead if there is a directory for each but the last. -/
def normal (d cs : List Str) : List Str := cs.foldl enter d

abbrev components (path : Str) : List Str := path.splitOn '/'

/-- The directory a path name starts from. -/
def root (cwd : List Str) (path : Str) : List Str := if path.head? = some '/' then [] else cwd

/-- Where a path name leads, by its text alone. -/
def location (cwd : List Str) (path : Str) : List Str := normal (root cwd path) (components path)

/-- A component that names an entry of its directory. -/
def Names (c : Str) : Prop := c ≠ [] ∧ c ≠ "." ∧ c ≠ ".."

instance (c : Str) : Decidable (Names c) := inferInstanceAs (Decidable (_ ∧ _))

section
variable {α : Type} [DecidableEq α] (t : Tree Str α) (cwd : List Str)

/-- Path resolution: every component is looked up in a directory. -/
def walk (d : List Str) : List Str → Option (List Str)
  | [] => some d
  | c :: cs => if IsDir t d then walk (enter d c) cs else none

/-- The empty path name leads nowhere. -/
def resolve (path : Str) : Option (List Str) :=
  if path = [] then none else walk t (root cwd path) (components path)

/-- `os.path.exists` -/
def pathExists (path : Str) : Bool :=
  match resolve t cwd path with
  | some p => decide (p = []) || present t p
  | none => false

/-- The entry that components name, which may be missing. -/
def leaf (d cs : List Str) : Option (List Str) :=
  match cs.getLast? with
  | none => none
  | some c => if Names c then (walk t d cs.dropLast).map (· ++ [c]) else none

/-- `os.mkdir`, which takes slashes at the end of a name. -/
def osMkdir (path : Str) : Option (Tree Str α) :=
  (leaf t (root cwd path) ((components path).rdropWhile (· = []))).bind (mkdir t)

/-- `open(path, "w")`, a write and the close. -/
def openWrite (path : Str) (x : α) : Option (Tree Str α) :=
  (leaf t (root cwd path) (components path)).bind fun p =>
    if entry t p ≠ some .dir ∧ IsDir t p.dropLast then some (write t p x) else none

end

section
variable {α : Type} [DecidableEq α] {t t' : Tree Str α} {cwd d p q : List Str} {cs : List Str}
  {c path : Str} {x : α}

theorem enter_names (h : Names c) : enter d c = d ++ [c] := by
  simp [enter, h.1, h.2.1, h.2.2]

theorem normal_append (cs cs' : List Str) : normal d (cs ++ cs') = normal (normal d cs) cs' :=
  List.foldl_append

/-- Resolution finds what the text says. -/
theorem walk_eq (h : walk t d cs = some p) : p = normal d cs := by
  induction cs generalizing d with
  | nil => exact (Option.some.inj h).symm
  | cons c cs ih =>
    simp only [walk] at h
    split at h
    · exact ih h
    · cases h

theorem resolve_eq (h : resolve t cwd path = some p) : p = location cwd path := by
  simp only [resolve] at h
  split at h
  · cases h
  · exact walk_eq h

theorem leaf_eq (h : leaf t d cs = some p) : p = normal d cs := by
  rcases List.eq_nil_or_concat cs with rfl | ⟨cs, c, rfl⟩
  · cases h
  · simp only [leaf, List.concat_eq_append, List.getLast?_concat, List.dropLast_concat] at h
    split at h
    next hc =>
      obtain ⟨q, hq, rfl⟩ := Option.map_eq_some_iff.mp h
      rw [List.concat_eq_append, normal_append, walk_eq hq]
      exact (enter_names hc).symm
    next => cases h

theorem normal_blank (h : ∀ c ∈ cs, c = []) : normal d cs = d := by
  induction cs with
  | nil => rfl
  | cons c cs ih =>
    have hc : c = [] := h c List.mem_cons_self
    rw [normal, List.foldl_cons, enter, if_pos (.inl hc)]
    exact ih fun c' hc' => h c' (List.mem_cons_of_mem c hc')

/-- Slashes at the end of a name do not matter. -/
theorem normal_rdropWhile : normal d (cs.rdropWhile (· = [])) = normal d cs := by
  have h := List.rdropWhile_append_rtakeWhile (p := fun c : Str => decide (c = [])) (l := cs)
  have hblank : ∀ d, normal d (cs.rtakeWhile (· = [])) = d := by
    intro d
    apply normal_blank
    intro c hc
    simpa using List.mem_rtakeWhile_imp hc
  conv_rhs => rw [← h]
  rw [normal_append, hblank]

theorem osMkdir_eq (h : osMkdir t cwd path = some t') :
    entry t (location cwd path) = none ∧ t' = put t (location cwd path) .dir := by
  obtain ⟨p, hp, hm⟩ := Option.bind_eq_some_iff.mp h
  have hl : p = location cwd path := (leaf_eq hp).trans normal_rdropWhile
  obtain ⟨he, -, ht⟩ := mkdir_eq_some.mp hm
  rw [← hl]
  exact ⟨he, ht⟩

theorem openWrite_eq (h : openWrite t cwd path x = some t') :
    entry t (location cwd path) ≠ some .dir ∧ t' = write t (location cwd path) x := by
  obtain ⟨p, hp, hm⟩ := Option.bind_eq_some_iff.mp h
  rw [← show p = location cwd path from leaf_eq hp]
  split at hm
  next hd => exact ⟨hd.1, (Option.some.inj hm).symm⟩
  next => cases hm

/-- `rm -rf` of one operand: `.`, `..` and the root are refused, and what is missing is passed
over. -/
def rmOperand (cwd : List Str) (fs : FileSystem Str α) (x : Str) : FileSystem Str α :=
  match leaf fs.tree (root cwd x) ((components x).rdropWhile (· = [])) with
  | some p => fs.remove p
  | none => fs

/-- `os.remove`, which takes no directory. -/
def removeFile (cwd : List Str) (fs : FileSystem Str α) (path : Str) : Option (FileSystem Str α) :=
  (leaf fs.tree (root cwd path) (components path)).bind fun p =>
    match entry fs.tree p with
    | some (.file _) => some (fs.remove p)
    | _ => none

/-- What a directory may call an entry. -/
def IsFileName (c : Str) : Prop := Names c ∧ '/' ∉ c

instance (c : Str) : Decidable (IsFileName c) := inferInstanceAs (Decidable (_ ∧ _))

theorem root_plain (h : '/' ∉ path) : root cwd path = cwd := by
  rw [root, if_neg]
  exact fun he => h (List.mem_of_mem_head? he)

theorem components_plain (h : '/' ∉ path) : components path = [path] :=
  List.splitOn_eq_singleton h

theorem pathExists_plain (h : '/' ∉ path) (hd : IsDir t cwd) : pathExists t cwd path = true ↔
    path ≠ [] ∧ (enter cwd path = [] ∨ present t (enter cwd path) = true) := by
  rw [pathExists, resolve]
  by_cases hp : path = []
  · simp [hp]
  · simp [hp, root_plain h, components_plain h, walk, hd]

theorem leaf_plain (h : '/' ∉ path) :
    leaf t (root cwd path) (components path) = if Names path then some (cwd ++ [path]) else none := by
  simp [leaf, components_plain h, root_plain h, walk]

theorem rmOperand_plain {fs : FileSystem Str α} (h : '/' ∉ path) :
    rmOperand cwd fs path = if Names path then fs.remove (cwd ++ [path]) else fs := by
  by_cases hp : path = []
  · subst hp
    rfl
  · have hc : (components path).rdropWhile (· = []) = components path := by
      rw [components_plain h, List.rdropWhile_singleton]
      simp [hp]
    rw [rmOperand, hc, leaf_plain h]
    by_cases hn : Names path <;> simp [hn]

theorem normal_fileNames (h : ∀ c ∈ p, IsFileName c) : normal d p = d ++ p := by
  induction p generalizing d with
  | nil => exact (List.append_nil d).symm
  | cons c p ih =>
    obtain ⟨hc, hp⟩ := List.forall_mem_cons.mp h
    rw [normal, List.foldl_cons, enter_names hc.1]
    exact (ih hp).trans (List.append_assoc d [c] p)

/-- The way to an entry. -/
theorem walk_of_entry {fs : FileSystem Str α} {p : List Str} (hp : ∀ c ∈ p, Names c)
    (he : entry fs.tree (d ++ p ++ [c]) ≠ none) : walk fs.tree d p = some (d ++ p) := by
  induction p generalizing d with
  | nil => simp [walk]
  | cons c p ih =>
    obtain ⟨hc, hp⟩ := List.forall_mem_cons.mp hp
    have hd : IsDir fs.tree d := isDir_of_prefix he (by simp) (by simp)
    rw [walk, if_pos hd, enter_names hc, ih hp (by simpa using he)]
    simp

/-- A path name without superfluous parts, from the root. -/
theorem rmOperand_path {fs : FileSystem Str α} {p : List Str} (hp : ∀ c ∈ p, IsFileName c)
    (hne : p ≠ []) : rmOperand [] fs (['/'].intercalate p) = fs.remove p := by
  have hcomp : components (['/'].intercalate p) = p :=
    List.splitOn_intercalate _ (fun c hc => (hp c hc).2) hne
  have hroot : root [] (['/'].intercalate p) = [] := ite_self _
  obtain ⟨q, c, rfl⟩ := (List.eq_nil_or_concat' p).resolve_left hne
  obtain ⟨hq, hc⟩ := List.forall_mem_append.mp hp
  have hname : Names c := (hc c (by simp)).1
  have hlast : (q ++ [c]).rdropWhile (· = []) = q ++ [c] := by
    rw [List.rdropWhile_concat_neg _ _ _ (by simpa using hname.1)]
  rw [rmOperand, hroot, hcomp, hlast, leaf, List.getLast?_concat, List.dropLast_concat]
  simp only [if_pos hname]
  by_cases he : entry fs.tree (q ++ [c]) = none
  · rcases hw : walk fs.tree [] q with _ | r
    · exact (remove_eq_self he (by simp)).symm
    · have hr : r = normal [] q := walk_eq hw
      rw [hr, normal_fileNames hq]
      rfl
  · rw [walk_of_entry (fun x hx => (hq x hx).1) he]
    rfl

theorem removeFile_plain {fs fs' : FileSystem Str α} (h : '/' ∉ path)
    (hr : removeFile cwd fs path = some fs') : Names path ∧ fs' = fs.remove (cwd ++ [path]) := by
  rw [removeFile, leaf_plain h] at hr
  split at hr
  next hn =>
    rw [Option.bind_some] at hr
    split at hr
    · exact ⟨hn, (Option.some.inj hr).symm⟩
    · cases hr
  next => cases hr

/-- A join is the first part with its slash, and the name. -/
theorem pathJoin_fileName {base name : Str} (hn : IsFileName name) :
    pathJoin base name = pathJoin base "" ++ name := by
  have hhead : name.head? ≠ some '/' := fun he => hn.2 (List.mem_of_mem_head? he)
  have hnil : ("" : Str).head? ≠ some '/' := by decide
  rw [pathJoin, if_neg hhead, pathJoin, if_neg hnil]
  split <;> simp [ofString]

/-- A join onto a name. -/
theorem pathJoin_join {base c name : Str} (hc : IsFileName c) (hn : IsFileName name) :
    pathJoin (base ++ c) name = base ++ c ++ '/' :: name := by
  have hhead : name.head? ≠ some '/' := fun he => hn.2 (List.mem_of_mem_head? he)
  obtain ⟨w, l, rfl⟩ := (List.eq_nil_or_concat' c).resolve_left hc.1.1
  have hl : l ≠ '/' := by
    rintro rfl
    exact hc.2 (by simp)
  rw [pathJoin, if_neg hhead, if_neg (by simp [hl])]

/-- The text of a join names an entry in what the first part leads to. -/
theorem location_join {base name : Str} (hb : base ≠ []) (hn : '/' ∉ name) :
    location cwd (pathJoin base name) = enter (location cwd base) name := by
  have hhead : name.head? ≠ some '/' := fun he => hn (List.mem_of_mem_head? he)
  have hroot : root cwd (base ++ '/' :: name) = root cwd base ∧
      root cwd (base ++ name) = root cwd base := by
    cases base with
    | nil => exact absurd rfl hb
    | cons _ _ => exact ⟨rfl, rfl⟩
  simp only [pathJoin, if_neg hhead, hb, false_or]
  split
  next hlast =>
    obtain ⟨base', rfl⟩ := List.getLast?_eq_some_iff.mp hlast
    have hsplit : components (base' ++ ['/'] ++ name) = components base' ++ [name] := by
      rw [components, List.append_assoc, List.singleton_append, List.splitOn_append_cons_self,
        List.splitOn_eq_singleton hn]
    have hbase : components (base' ++ ['/']) = components base' ++ [[]] := by
      rw [components, List.splitOn_append_cons_self, List.splitOn_nil]
    rw [location, hroot.2, hsplit, location, hbase, normal_append, normal_append]
    rfl
  next =>
    rw [location, hroot.1, components, List.splitOn_append_cons_self,
      List.splitOn_eq_singleton hn, normal_append]
    rfl

end
end Posix
