import PackageBuilder.Library.Patterns
import PackageBuilder.RemoveCommand
import PackageBuilder.Builder.Build
import PackageBuilder.FrontEnd

/-! What `clean_up_dir` of builder.py removes from the file system. -/
namespace PackageBuilder
open Text FileTree Posix Shell

/-- The system of a node and its command interpreter. -/
structure CommandHost (α : Type) extends Interpreter α where
  system : System

/-- The directory a builder runs in, with its file system and the order of `os.listdir`. -/
structure WorkingDir (α : Type) extends FileSystem Str α where
  cwd : List Str
  isDir : IsDir tree cwd
  named : ∀ q ∈ tree, ∀ x ∈ q.1, IsFileName x
  order : List Str → List Str := id
  order_perm : ∀ l, (order l).Perm l := by intro l; rfl

/-- The tarball that `get_source_tarball_name` finds, or the name that it should have. -/
def WorkingDir.pathTar {α : Type} (m : Manifest) (d : WorkingDir α) : Str :=
  ((d.order (names d.tree d.cwd)).find? (isTarball (tarballPkgname m))).getD
    (m.packageName ++ ".tar.gz")

def buildbinLibdir (tarball : Str) : Str := (tarball.splitOn '_').headD [] ++ ".buildbin-libdir"

def callLogs : List Str := ["1err.txt", "1out.txt", "2err.txt", "2out.txt"]

section
variable {α : Type} [DecidableEq α] (h : CommandHost α) (m : Manifest) (d : WorkingDir α)
  (cwd : List Str) (fs : FileSystem Str α)

/-- `if os.path.exists(path): os.remove(path)` -/
def removeIfThere (path : Str) : Option (FileSystem Str α) :=
  if pathExists fs.tree cwd path then removeFile cwd fs path else some fs

/-- `if os.path.exists(path): os.system("rm -rf " + path)` -/
def removeDirIfThere (path : Str) : FileSystem Str α :=
  if pathExists fs.tree cwd path then h.command (rmOperand cwd) fs ("rm -rf " ++ path) else fs

def removeOnWindows (pathTar : Str) : Option (FileSystem Str α) :=
  if h.system = .windows then do
    let fs ← removeIfThere cwd fs (replaceAll (lit ".tar.gz") ".zip" pathTar)
    callLogs.foldlM (removeIfThere cwd) (removeDirIfThere h cwd fs (buildbinLibdir pathTar))
  else some fs

def removeOnDarwin (pathTar : Str) : Option (FileSystem Str α) :=
  if h.system = .darwin then do
    let fs ← removeIfThere cwd fs (replaceAll (lit ".tar.gz") ".tgz" pathTar)
    return removeDirIfThere h cwd fs "libdir"
  else some fs

/-- `clean_up_dir`: `none` when `os.remove` raises. -/
def WorkingDir.cleanUp : Option (FileSystem Str α) := do
  let pathTar := d.pathTar m
  let fs ← removeIfThere d.cwd d.toFileSystem pathTar
  let fs ← removeOnWindows h d.cwd fs pathTar
  let fs ← removeOnDarwin h d.cwd fs pathTar
  return removeDirIfThere h d.cwd fs m.packageName

end

/-- The binary archive of a tarball and the library it is installed in. -/
def builtFrom (sys : System) (tarball : Str) : List Str :=
  match sys with
  | .windows => [replaceAll (lit ".tar.gz") ".zip" tarball, buildbinLibdir tarball]
  | .darwin => [replaceAll (lit ".tar.gz") ".tgz" tarball, "libdir"]
  | .linux | .other => []

section
variable {α : Type} (h : CommandHost α) (m : Manifest) (d : WorkingDir α)

/-- The tarballs of the package, what is built from them, and the clone. -/
def Leftover (x : Str) : Prop :=
  isTarball (tarballPkgname m) x = true ∨
    (∃ t ∈ names d.tree d.cwd, isTarball (tarballPkgname m) t = true ∧ x ∈ builtFrom h.system t) ∨
    x = m.packageName

instance (x : Str) : Decidable (Leftover h m d x) := inferInstanceAs (Decidable (_ ∨ _ ∨ _))

/-- All names that `clean_up_dir` removes in the working directory. -/
def removedNames : List Str :=
  d.pathTar m :: builtFrom h.system (d.pathTar m) ++
    (if h.system = .windows then callLogs else []) ++ [m.packageName]

/-- What is there and meant to go is what `clean_up_dir` removes. -/
def Accounted : Prop :=
  ∀ x ∈ names d.tree d.cwd, Leftover h m d x ↔ x ∈ removedNames h m d

instance : Decidable (Accounted h m d) := inferInstanceAs (Decidable (∀ _ ∈ _, _ ↔ _))

/-- The directories that it removes by a command. -/
def commandDirs : List Str :=
  (match h.system with
    | .windows => [buildbinLibdir (d.pathTar m)]
    | .darwin => ["libdir"]
    | .linux | .other => []) ++ [m.packageName]

def IsSeparator (sys : System) (c : Char) : Prop := c = '/' ∨ sys = .windows ∧ (c = '\\' ∨ c = ':')

variable [DecidableEq α]

/-- Nothing of the job is left, and nothing else is touched. -/
structure CleanExit : Prop where
  complete : ∀ fs, d.cleanUp h m = some fs →
    ∀ x, Leftover h m d x → entry fs.tree (d.cwd ++ [x]) = none
  frame : ∀ fs, d.cleanUp h m = some fs →
    ∀ q, (∀ x, Leftover h m d x → ¬ d.cwd ++ [x] <+: q) → entry fs.tree q = entry d.tree q

/-- The package is not named by a longer path, and each command has the directory for its only
operand. -/
structure Readable : Prop where
  separate : ∀ c ∈ m.packageName, ¬ IsSeparator h.system c
  operands : ∀ x ∈ commandDirs h m d, pathExists d.tree d.cwd x = true → h.ReadsOperand x

end

section
variable {α : Type} {h : CommandHost α} {m : Manifest} {d : WorkingDir α}
  {fs fs' : FileSystem Str α} {x : Str} {xs : List Str} {p : List Str}

/-- The file system after some names are removed from the working directory. -/
def WorkingDir.without (d : WorkingDir α) (xs : List Str) : FileSystem Str α :=
  d.toFileSystem.removeAll (xs.map (d.cwd ++ [·]))

theorem without_append {xs ys : List Str} :
    d.without (xs ++ ys) = (d.without xs).removeAll (ys.map (d.cwd ++ [·])) := by
  rw [WorkingDir.without, List.map_append, removeAll_append]
  rfl

theorem without_snoc : d.without (xs ++ [x]) = (d.without xs).remove (d.cwd ++ [x]) :=
  without_append

theorem entry_without : entry (d.without xs).tree p =
    if ∃ x ∈ xs, d.cwd ++ [x] <+: p then none else entry d.tree p := by
  simp [WorkingDir.without, entry_removeAll]

theorem without_isDir : IsDir (d.without xs).tree d.cwd := by
  refine d.isDir.imp_right fun hd => ?_
  rw [entry_without, if_neg, hd]
  rintro ⟨x, -, hx⟩
  have hl := hx.length_le
  simp at hl

theorem fileName_of_entry (he : entry d.tree (d.cwd ++ [x]) ≠ none) : IsFileName x := by
  obtain ⟨e, he⟩ := Option.ne_none_iff_exists'.mp he
  exact d.named _ (mem_of_entry he) x (by simp)

theorem entry_of_without (he : entry (d.without xs).tree p ≠ none) : entry d.tree p ≠ none := by
  rw [entry_without] at he
  split at he
  · exact absurd rfl he
  · exact he

/-- What is not there need not be removed. -/
theorem without_snoc_eq_self (hx : entry (d.without xs).tree (d.cwd ++ [x]) = none) :
    d.without (xs ++ [x]) = d.without xs := by
  rw [without_snoc]
  exact remove_eq_self hx (by simp)

variable [DecidableEq α]

theorem pathExists_of_without (hx : '/' ∉ x)
    (he : pathExists (d.without xs).tree d.cwd x = true) : pathExists d.tree d.cwd x = true := by
  rw [pathExists_plain hx without_isDir] at he
  rw [pathExists_plain hx d.isDir]
  refine ⟨he.1, he.2.imp_right fun hp => ?_⟩
  rw [present_iff] at hp ⊢
  exact entry_of_without hp

theorem entry_of_not_pathExists (hx : '/' ∉ x)
    (he : pathExists (d.without xs).tree d.cwd x = false) :
    entry (d.without xs).tree (d.cwd ++ [x]) = none := by
  by_contra hn
  have hname : Names x := (fileName_of_entry (entry_of_without hn)).1
  have hd : IsDir (d.without xs).tree d.cwd := without_isDir
  have hp := (pathExists_plain hx hd).not.mp (by simp [he])
  rw [enter_names hname, present_iff] at hp
  exact hp ⟨hname.1, .inr hn⟩

theorem removeIfThere_eq (hx : '/' ∉ x)
    (hr : removeIfThere d.cwd (d.without xs) x = some fs) : fs = d.without (xs ++ [x]) := by
  rw [removeIfThere] at hr
  split at hr
  · rw [without_snoc]
    exact (removeFile_plain hx hr).2
  next he =>
    rw [without_snoc_eq_self (entry_of_not_pathExists hx (by simpa using he))]
    exact (Option.some.inj hr).symm

theorem removeDirIfThere_eq (hx : '/' ∉ x)
    (ho : pathExists d.tree d.cwd x = true → h.ReadsOperand x) :
    removeDirIfThere h d.cwd (d.without xs) x = d.without (xs ++ [x]) := by
  rw [removeDirIfThere]
  split
  next he =>
    rw [command_operand (ho (pathExists_of_without hx he))]
    have hr : rmOperand d.cwd (d.without xs) x = d.without (xs ++ [x]) := by
      rw [rmOperand_plain hx]
      split
      · exact without_snoc.symm
      next hn =>
        refine (without_snoc_eq_self ?_).symm
        by_contra he
        exact hn (fileName_of_entry (entry_of_without he)).1
    exact hr
  next he => exact (without_snoc_eq_self (entry_of_not_pathExists hx (by simpa using he))).symm

/-- Several removals of files, one after the other. -/
theorem removeFiles_eq {ys : List Str} (hy : ∀ y ∈ ys, '/' ∉ y)
    (hr : ys.foldlM (removeIfThere d.cwd) (d.without xs) = some fs) : fs = d.without (xs ++ ys) := by
  induction ys generalizing xs with
  | nil =>
    rw [List.append_nil]
    exact (Option.some.inj hr).symm
  | cons y ys ih =>
    rw [List.foldlM_cons] at hr
    obtain ⟨fs₁, h₁, h₂⟩ := Option.bind_eq_some_iff.mp hr
    rw [removeIfThere_eq (hy y List.mem_cons_self) h₁] at h₂
    rw [ih (fun y' hy' => hy y' (List.mem_cons_of_mem y hy')) h₂]
    simp

omit [DecidableEq α] in
theorem slash_pathTar (hm : '/' ∉ m.packageName) : '/' ∉ d.pathTar m := by
  rw [WorkingDir.pathTar]
  rcases hf : (d.order (names d.tree d.cwd)).find? (isTarball (tarballPkgname m)) with _ | t
  · have hl : '/' ∉ (".tar.gz" : Str) := by decide
    simp [hm, hl]
  · have hn : t ∈ names d.tree d.cwd := (d.order_perm _).mem_iff.mp (List.mem_of_find?_eq_some hf)
    exact (fileName_of_entry (mem_names_iff.mp hn)).2

theorem slash_buildbinLibdir {t : Str} (ht : '/' ∉ t) : '/' ∉ buildbinLibdir t := by
  have hl : '/' ∉ (".buildbin-libdir" : Str) := by decide
  intro hs
  rcases List.mem_append.mp hs with hs | hs
  · exact ht (headD_splitOn_subset hs)
  · exact hl hs

theorem slash_archive {t new : Str} (ht : '/' ∉ t) (hn : '/' ∉ new) :
    '/' ∉ replaceAll (lit ".tar.gz") new t := by
  intro hs
  exact (mem_of_mem_replaceAll hs).elim hn ht

/-- A run that comes to its end leaves the working directory without these names. -/
theorem cleanUp_eq (hr : Readable h m d) (hc : d.cleanUp h m = some fs) :
    fs = d.without (removedNames h m d) := by
  have hm : '/' ∉ m.packageName := fun hs => hr.separate '/' hs (.inl rfl)
  have ht := slash_pathTar (d := d) hm
  obtain ⟨fs₁, h₁, hc⟩ := Option.bind_eq_some_iff.mp hc
  obtain ⟨fs₂, h₂, hc⟩ := Option.bind_eq_some_iff.mp hc
  obtain ⟨fs₃, h₃, hc⟩ := Option.bind_eq_some_iff.mp hc
  rw [← Option.some.inj hc]
  have hnone : d.toFileSystem = d.without [] := rfl
  have hfirst : fs₁ = d.without [d.pathTar m] := removeIfThere_eq ht (hnone ▸ h₁)
  have hlast : ∀ xs, removeDirIfThere h d.cwd (d.without xs) m.packageName =
      d.without (xs ++ [m.packageName]) := fun xs =>
    removeDirIfThere_eq hm (hr.operands _ (by simp [commandDirs]))
  obtain rfl := hfirst
  suffices hmid : fs₃ = d.without (d.pathTar m :: builtFrom h.system (d.pathTar m) ++
      if h.system = .windows then callLogs else []) by
    rw [hmid, hlast, removedNames]
  cases hsys : h.system with
  | linux | other =>
    simp only [removeOnWindows, removeOnDarwin, hsys, reduceCtorEq, if_false, Option.some.injEq]
      at h₂ h₃
    rw [← h₃, ← h₂]
    rfl
  | darwin =>
    simp only [removeOnWindows, removeOnDarwin, hsys, reduceCtorEq, if_false, if_true,
      Option.some.injEq] at h₂ h₃
    subst h₂
    obtain ⟨fs₄, h₄, h₃⟩ := Option.bind_eq_some_iff.mp h₃
    have hz : '/' ∉ replaceAll (lit ".tar.gz") ".tgz" (d.pathTar m) :=
      slash_archive ht (by decide)
    rw [removeIfThere_eq hz h₄, removeDirIfThere_eq (by decide)
      (hr.operands _ (by simp [commandDirs, hsys]))] at h₃
    simpa [builtFrom] using (Option.some.inj h₃).symm
  | windows =>
    simp only [removeOnWindows, removeOnDarwin, hsys, reduceCtorEq, if_false, if_true,
      Option.some.injEq] at h₂ h₃
    subst h₃
    obtain ⟨fs₄, h₄, h₂⟩ := Option.bind_eq_some_iff.mp h₂
    have hz : '/' ∉ replaceAll (lit ".tar.gz") ".zip" (d.pathTar m) :=
      slash_archive ht (by decide)
    have hlogs : ∀ y ∈ callLogs, '/' ∉ y := by decide
    rw [removeIfThere_eq hz h₄, removeDirIfThere_eq (slash_buildbinLibdir ht)
      (hr.operands _ (by simp [commandDirs, hsys]))] at h₂
    simpa [builtFrom] using removeFiles_eq hlogs h₂

omit [DecidableEq α] in
/-- With one tarball, all is accounted for but the logs of calls on Windows. -/
theorem accounted_of_one {t : Str} (hs : h.system ≠ .windows) (ht : t ∈ names d.tree d.cwd)
    (hp : ∀ y ∈ names d.tree d.cwd, isTarball (tarballPkgname m) y = true ↔ y = t) :
    Accounted h m d := by
  have hm : ∀ y, y ∈ d.order (names d.tree d.cwd) ↔ y ∈ names d.tree d.cwd :=
    fun y => (d.order_perm _).mem_iff
  have htar : d.pathTar m = t := by
    rw [WorkingDir.pathTar]
    rcases hf : (d.order (names d.tree d.cwd)).find? (isTarball (tarballPkgname m)) with _ | y
    · exact absurd ((hp t ht).mpr rfl) (List.find?_eq_none.mp hf t ((hm t).mpr ht))
    · exact (hp y ((hm y).mp (List.mem_of_find?_eq_some hf))).mp (List.find?_some hf)
  intro x hx
  rw [removedNames, htar, if_neg hs, List.append_nil, List.mem_append, List.mem_cons,
    List.mem_singleton, or_assoc]
  refine or_congr (hp x hx) (or_congr ⟨?_, fun hb => ⟨t, ht, (hp t ht).mpr rfl, hb⟩⟩ Iff.rfl)
  rintro ⟨y, hy, hyp, hb⟩
  exact (hp y hy).mp hyp ▸ hb

end

section
variable {α : Type} [DecidableEq α] {h : CommandHost α} {m : Manifest} {d : WorkingDir α} {x : Str}

theorem plain_of_packageName (hl : IsPackageName x) :
    isPlainWord x = true ∧ x.head? ≠ some '-' := by
  obtain ⟨c, hc, ha⟩ := hl.first
  have hne : ∀ e : Char, e.isAlpha = false → x.head? ≠ some e := by
    rintro e he hx
    rw [hx] at hc
    cases hc
    simp [he] at ha
  refine ⟨?_, hne _ rfl⟩
  have hall : ∀ e ∈ x, kind e = .plain ∧ e ∉ ['*', '?', '[', '{'] := by
    intro e he
    rcases hl.chars e he with hal | rfl
    · refine ⟨kind_of_isAlphanum hal, fun hm => ?_⟩
      simp only [List.mem_cons, List.not_mem_nil, or_false] at hm
      rcases hm with rfl | rfl | rfl | rfl <;> simp at hal
    · decide
  have hnil : x ≠ [] := by
    rintro rfl
    simpa using hl.long
  have hbare : expands (bare x) = false := by
    simp only [expands, bare, List.head?_map, List.any_map, Bool.or_eq_false_iff,
      List.any_eq_false, beq_eq_false_iff_ne]
    refine ⟨fun hx => ?_, fun e he => by simpa using (hall e he).2⟩
    obtain ⟨e, he, hx⟩ := Option.map_eq_some_iff.mp hx
    cases hx
    exact hne '~' rfl he
  refine isPlainWord_iff.mpr ⟨?_, hbare⟩
  obtain ⟨c, w, rfl⟩ := List.exists_cons_of_ne_nil hnil
  exact ⟨c, w, rfl, (hall c List.mem_cons_self).1, fun e he =>
    .inl (hall e (List.mem_cons_of_mem c he)).1⟩

/-- On a node with a shell of POSIX every legal package name will do. -/
theorem readable_of_packageName {stays : List (Char × Bool) → Bool}
    (hw : h.words = commandWords stays) (hs : h.system ≠ .windows)
    (hl : IsPackageName m.packageName) : Readable h m d := by
  have hslash : '/' ∉ m.packageName := hl.not_mem rfl (by decide)
  refine ⟨fun c hc hsep => ?_, fun x hx _ => ?_⟩
  · rcases hsep with rfl | ⟨hwin, -⟩
    · exact hslash hc
    · exact hs hwin
  · rw [operand_iff hw]
    have hx' : x = "libdir" ∨ x = m.packageName := by
      cases hsys : h.system <;> simp_all [commandDirs]
    rcases hx' with rfl | rfl
    · exact ⟨literal_of_plain (by decide +kernel), by decide⟩
    · exact (plain_of_packageName hl).imp_left literal_of_plain

theorem not_cleanExit_of_gone
    (hc : (d.cleanUp h m).map (fun fs => entry fs.tree (d.cwd ++ [x])) = some none)
    (hx : ¬ Leftover h m d x) (he : entry d.tree (d.cwd ++ [x]) ≠ none) : ¬ CleanExit h m d := by
  intro hclean
  obtain ⟨fs, hfs, hnone⟩ := Option.map_eq_some_iff.mp hc
  have hsame := hclean.frame fs hfs (d.cwd ++ [x]) fun y hy hpre => by
    obtain rfl : y = x := by simpa using hpre.eq_of_length (by simp)
    exact hx hy
  exact he (hsame.symm.trans hnone)

theorem not_cleanExit_of_left
    (hc : (d.cleanUp h m).any (fun fs => present fs.tree (d.cwd ++ [x])) = true)
    (hx : Leftover h m d x) : ¬ CleanExit h m d := by
  intro hclean
  obtain ⟨fs, hfs, hpresent⟩ := (Option.any_eq_true _ _).mp hc
  rw [present_iff] at hpresent
  exact hpresent (hclean.complete fs hfs x hx)

end

def posixHost (sys : System) : CommandHost Unit := { system := sys, words := commandWords fun _ => false }

/-- The first call on Windows left its output. -/
def windowsDir : WorkingDir Unit where
  tree := [(["job"], .dir), (["job", "spbtest5_0.99.0.tar.gz"], .file ()),
    (["job", "1out.txt"], .file ())]
  nodup := by decide +kernel
  rooted := by decide +kernel
  cwd := ["job"]
  isDir := by decide +kernel
  named := by decide +kernel

/-- An earlier build left its tarball. -/
def rebuiltDir : WorkingDir Unit where
  tree := [(["job"], .dir), (["job", "spbtest5_0.98.0.tar.gz"], .file ()),
    (["job", "spbtest5_0.99.0.tar.gz"], .file ())]
  nodup := by decide +kernel
  rooted := by decide +kernel
  cwd := ["job"]
  isDir := by decide +kernel
  named := by decide +kernel

/-- The directory of a package with a blank in its name. -/
def blankDir : WorkingDir Unit where
  tree := [(["job"], .dir), (["job", "spb test5"], .dir), (["job", "test5"], .dir)]
  nodup := by decide +kernel
  rooted := by decide +kernel
  cwd := ["job"]
  isDir := by decide +kernel
  named := by decide +kernel

/-- A build on macOS that left everything. -/
def macDir : WorkingDir Unit where
  tree := [(["job"], .dir), (["job", "builder.log"], .file ()), (["job", "spbtest5"], .dir),
    (["job", "spbtest5", "DESCRIPTION"], .file ()), (["job", "libdir"], .dir),
    (["job", "spbtest5_0.99.0.tar.gz"], .file ()), (["job", "spbtest5_0.99.0.tgz"], .file ())]
  nodup := by decide +kernel
  rooted := by decide +kernel
  cwd := ["job"]
  isDir := by decide +kernel
  named := by decide +kernel

end PackageBuilder
