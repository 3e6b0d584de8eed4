import PackageBuilder.Builder.Stages

/-! The job id that the front end makes of a repository's URL, and the directory it leads the
builder to. -/
namespace PackageBuilder
open Text

/-- `replace(/\/$/, "")` -/
def dropSlash (url : Str) : Str := if ("/" : Str) <:+ url then url.dropLast else url

/-- `tmp[tmp.length - 1]` -/
def lastComponent (url : Str) : Str := (url.splitOn '/').getLastD []

/-- The `job_id` of the click handler of `start_build_button`. -/
def startBuildJobId (svnUrl timestamp : Str) : Str :=
  let pkg := lastComponent (dropSlash svnUrl)
  let pkg := if (".tar.gz" : Str) <:+ pkg then (pkg.splitOn '_').headD [] else pkg
  pkg ++ "_" ++ timestamp

/-- The directory that `git clone` makes for a URL. -/
def cloneDirectory (url : Str) : Str :=
  let name := lastComponent url
  if (".git" : Str) <:+ name then name.take (name.length - 4) else name

/-- The manifest that a click sends off, as `setup` loads it; the other keys are those of `m`. -/
def startBuild (m : Manifest) (svnUrl timestamp : Str) : Manifest :=
  { m with svnUrl, jobId := startBuildJobId svnUrl timestamp }.load

/-- A name that R accepts for a package. -/
structure IsPackageName (s : Str) : Prop where
  chars : ∀ c ∈ s, c.isAlphanum ∨ c = '.'
  long : 2 ≤ s.length
  first : ∃ c ∈ s.head?, c.isAlpha
  last : s.getLast? ≠ some '.'

/-- A repository URL: anything, a slash, the package, and two optional suffixes. -/
structure RepositoryUrl where
  base : Str
  package : Str
  legal : IsPackageName package
  git : Bool
  slash : Bool

/-- The last component of the URL as it is typed. -/
def RepositoryUrl.component (u : RepositoryUrl) : Str :=
  u.package ++ if u.git then (".git" : Str) else []

def RepositoryUrl.text (u : RepositoryUrl) : Str :=
  u.base ++ '/' :: u.component ++ if u.slash then ("/" : Str) else []

section
variable {s url : Str} {u : RepositoryUrl}

theorem IsPackageName.not_mem {c : Char} (h : IsPackageName s) (hc : c.isAlphanum = false)
    (hp : c ≠ '.') : c ∉ s := by
  intro hs
  rcases h.chars c hs with ha | ha
  · simp [hc] at ha
  · exact hp ha

/-- None of the characters that a URL is taken apart by. -/
structure IsComponent (s : Str) : Prop where
  nonempty : s ≠ []
  noSpace : ∀ c ∈ s, isSpace c = false
  noSlash : '/' ∉ s
  noUnderscore : '_' ∉ s

theorem not_isSpace_of_isAlphanum {c : Char} (h : c.isAlphanum) : isSpace c = false := by
  by_contra hs
  simp only [Bool.not_eq_false, isSpace, decide_eq_true_eq, List.mem_cons, List.not_mem_nil,
    or_false] at hs
  rcases hs with rfl | rfl | rfl | rfl | rfl | rfl | rfl | rfl | rfl | rfl | rfl | rfl | rfl |
    rfl | rfl | rfl | rfl | rfl | rfl | rfl | rfl | rfl | rfl | rfl | rfl | rfl | rfl | rfl |
    rfl <;> revert h <;> decide

theorem IsPackageName.isComponent (h : IsPackageName s) : IsComponent s := by
  refine ⟨?_, ?_, h.not_mem rfl (by decide), h.not_mem rfl (by decide)⟩
  · intro he
    simpa [he] using h.long
  · intro c hc
    rcases h.chars c hc with ha | rfl
    · exact not_isSpace_of_isAlphanum ha
    · rfl

theorem RepositoryUrl.isComponent (u : RepositoryUrl) : IsComponent u.component := by
  have h := u.legal.isComponent
  have hspace : ∀ c ∈ (".git" : Str), isSpace c = false := by simp [ofString, isSpace]
  cases hg : u.git <;> simp only [RepositoryUrl.component, hg]
  · simpa using h
  · refine ⟨by simp [h.nonempty], fun c hc => ?_, ?_, ?_⟩
    · exact (List.mem_append.mp hc).elim (h.noSpace c) (hspace c)
    · simpa [h.noSlash] using (by decide : '/' ∉ (".git" : Str))
    · simpa [h.noUnderscore] using (by decide : '_' ∉ (".git" : Str))

theorem lastComponent_append {base last : Str} (h : '/' ∉ last) :
    lastComponent (base ++ '/' :: last) = last := by
  rw [lastComponent, List.splitOn_append_cons_self, List.splitOn_eq_singleton h]
  simp

theorem not_slash_suffix {base last : Str} (h : IsComponent last) :
    ¬ ("/" : Str) <:+ base ++ '/' :: last := by
  rintro ⟨t, ht⟩
  have hlast := congrArg List.getLast? ht
  have hmem := List.getLast_mem h.nonempty
  simp [ofString, List.getLast?_append, List.getLast?_cons,
    List.getLast?_eq_some_getLast h.nonempty] at hlast
  exact h.noSlash (hlast ▸ hmem)

/-- Both programs take one slash off. -/
theorem dropSlash_text (base : Str) (h : IsComponent s) (slash : Bool) :
    dropSlash (base ++ '/' :: s ++ if slash then ("/" : Str) else []) = base ++ '/' :: s := by
  cases slash
  · simp [dropSlash, not_slash_suffix h]
  · have hs : ("/" : Str) <:+ base ++ '/' :: s ++ ("/" : Str) := List.suffix_append _ _
    simp only [dropSlash, if_true, if_pos hs]
    exact List.dropLast_concat

/-- The white space before a URL stays with its base. -/
theorem strip_text (base : Str) (h : IsComponent s) (slash : Bool) :
    ∃ base', strip (base ++ '/' :: s ++ if slash then ("/" : Str) else []) =
      base' ++ '/' :: s ++ if slash then ("/" : Str) else [] := by
  refine ⟨base.dropWhile isSpace, ?_⟩
  have hleft : (base ++ '/' :: s ++ if slash then ("/" : Str) else []).dropWhile isSpace =
      base.dropWhile isSpace ++ '/' :: s ++ if slash then ("/" : Str) else [] := by
    rw [List.append_assoc, List.dropWhile_append]
    split
    next he =>
      rw [List.isEmpty_iff.mp he]
      rfl
    next => rw [List.append_assoc]
  rw [strip, hleft, rstrip, List.rdropWhile_eq_self_iff]
  intro hne
  cases slash
  · have hmem := List.getLast_mem h.nonempty
    simp [h.nonempty, h.noSpace _ hmem]
  · simp [ofString, isSpace]

theorem jobId_packageName (m : Manifest) (h : IsComponent s) (timestamp : Str)
    (hid : m.jobId = s ++ "_" ++ timestamp) : m.packageName = s := by
  have hid' : m.jobId = s ++ '_' :: timestamp := by simp [hid, ofString]
  rw [Manifest.packageName, hid', List.splitOn_append_cons_self,
    List.splitOn_eq_singleton h.noUnderscore]
  rfl

theorem startBuildJobId_text (u : RepositoryUrl) (timestamp : Str) :
    startBuildJobId u.text timestamp = u.component ++ "_" ++ timestamp := by
  have h := u.isComponent
  simp only [startBuildJobId, RepositoryUrl.text, dropSlash_text u.base h u.slash,
    lastComponent_append h.noSlash]
  split
  · rw [List.splitOn_eq_singleton h.noUnderscore]
    rfl
  · rfl

theorem gitUrl_eq (svnUrl : Str) : gitUrl svnUrl =
    if (".git" : Str) <:+ dropSlash svnUrl then dropSlash svnUrl else dropSlash svnUrl ++ ".git" :=
  rfl

theorem git_suffix_iff {base last : Str} :
    (".git" : Str) <:+ base ++ '/' :: last ↔ (".git" : Str) <:+ last := by
  constructor
  · intro h
    rcases List.suffix_or_suffix_of_suffix h (List.suffix_append base ('/' :: last)) with hs | hs
    · refine (List.suffix_cons_iff.mp hs).resolve_left ?_
      simp [ofString]
    · exact absurd (hs.subset List.mem_cons_self) (by decide)
  · intro h
    exact h.trans ((List.suffix_cons _ _).trans (List.suffix_append _ _))

/-- What git calls the clone, however the URL is typed. -/
theorem cloneDirectory_startBuild (m : Manifest) (u : RepositoryUrl) (timestamp : Str) :
    cloneDirectory (gitUrl (startBuild m u.text timestamp).svnUrl) =
      if (".git" : Str) <:+ u.component then u.component.take (u.component.length - 4)
      else u.component := by
  have h := u.isComponent
  obtain ⟨base, hb⟩ := strip_text u.base h u.slash
  have hurl : dropSlash (startBuild m u.text timestamp).svnUrl = base ++ '/' :: u.component := by
    rw [startBuild, Manifest.load, RepositoryUrl.text, hb, dropSlash_text base h u.slash]
  have hgit : '/' ∉ u.component ++ ".git" := by
    simpa [h.noSlash] using (by decide : '/' ∉ (".git" : Str))
  rw [gitUrl_eq, hurl]
  simp only [git_suffix_iff]
  split
  next hs => simp only [cloneDirectory, lastComponent_append h.noSlash, if_pos hs]
  next hs =>
    have htake : (u.component ++ (".git" : Str)).take
        ((u.component ++ (".git" : Str)).length - 4) = u.component := by
      simp [ofString]
    rw [List.append_assoc, List.cons_append]
    simp only [cloneDirectory, lastComponent_append hgit, if_pos (List.suffix_append _ _), htake]

/-- Job id and clone agree unless the URL is typed with `.git`. -/
theorem job_names_clone_iff (m : Manifest) (u : RepositoryUrl) (timestamp : Str) :
    (startBuild m u.text timestamp).packageName =
        cloneDirectory (gitUrl (startBuild m u.text timestamp).svnUrl) ↔
      ¬ (".git" : Str) <:+ dropSlash u.text := by
  have h := u.isComponent
  have hname : (startBuild m u.text timestamp).packageName = u.component :=
    jobId_packageName _ h timestamp (startBuildJobId_text u timestamp)
  have hdrop : dropSlash u.text = u.base ++ '/' :: u.component := dropSlash_text u.base h u.slash
  rw [hname, cloneDirectory_startBuild, hdrop, git_suffix_iff]
  split
  next hs =>
    have hlen := hs.length_le
    have hfour : (".git" : Str).length = 4 := rfl
    simp only [hs, not_true_eq_false, iff_false]
    intro he
    have hl := congrArg List.length he
    rw [List.length_take] at hl
    omega
  next hs => simp [hs]

/-- The URL that a hosting site offers for cloning. -/
def clonedUrl : RepositoryUrl where
  base := "https://git.bioconductor.org/packages"
  package := "spbtest5"
  legal := {
    chars := by simp [ofString]
    long := by decide
    first := by simp [ofString]
    last := by decide }
  git := true
  slash := false

theorem clonedUrl_not_named :
    (startBuild spbtest.manifest clonedUrl.text "20230208101500").packageName =
        ("spbtest5.git" : Str) ∧
      cloneDirectory (gitUrl (startBuild spbtest.manifest clonedUrl.text "20230208101500").svnUrl) =
        ("spbtest5" : Str) := by
  decide +kernel

end
end PackageBuilder
