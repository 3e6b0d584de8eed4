import PackageBuilder.Library.PathText
import PackageBuilder.Server.Handoff

/-! The files that app.js serves. -/
namespace PackageBuilder
open Text FileTree Posix

/-- What precedes the query of a URL. -/
def beforeQuery (url : Str) : Str := url.takeWhile fun c => c ≠ '?' ∧ c ≠ '#'

/-- The characters that `url.parse` escapes in a path. -/
def escaped : List Char :=
  ['\x7b', '\x7d', '|', '^', '\x60', '<', '>', '"', ' ', '\r', '\n', '\t', '\'']

/-- A URL of a path alone: `url.parse` finds no host in it, and nothing to escape. -/
structure IsPathUrl (url : Str) : Prop where
  absolute : url.head? = some '/'
  noHost : url[1]? ≠ some '/' ∧ url[1]? ≠ some '\\'
  plain : ∀ c ∈ beforeQuery url, c ∉ escaped

def asSlash (c : Char) : Char := if c = '\\' then '/' else c

/-- `url.parse(url).pathname` of such a URL: backslashes count as slashes. -/
def pathname (url : Str) : Str := (beforeQuery url).map asSlash

/-- `path.join(base, part)` for an absolute base: a slash at the end stays. -/
def joinPaths (base part : Str) : Str :=
  let text := base ++ '/' :: part
  let path := pathText (location [] text)
  if text.getLast? = some '/' ∧ path ≠ ['/'] then path ++ ['/'] else path

section
variable (t : Tree Str Str) (path : Str)

/-- `fs.statSync(path).isDirectory()` -/
def isDirectory : Bool := (resolve t [] path).any fun p => IsDir t p

/-- `path.exists`: with a slash at the end, only a directory does. -/
def nodeExists : Bool := pathExists t [] path && (path.getLast? ≠ some '/' || isDirectory t path)

end

structure Response where
  status : ℕ
  contentType : Option Str := none
  body : Str
  deriving DecidableEq, Repr

/-- Where the handler looks for a path of a URL. -/
def filename (cwd : List Str) (uri : Str) : Str := joinPaths (pathText cwd ++ "/public/") uri

/-- `handler`, with the texts of the errors of `fs.readFile`. -/
def handler (t : Tree Str Str) (cwd : List Str) (errorText : Str → Str) (url : Str) : Response :=
  let path := filename cwd (pathname url)
  if nodeExists t path then
    let path := if isDirectory t path then path ++ "/index.html" else path
    match readFile t [] path with
    | some file => { status := 200, body := file }
    | none => { status := 500, contentType := some "text/plain", body := errorText path ++ "\n" }
  else
    { status := 404, contentType := some "text/plain", body := "404 Not Found\n" }

/-- What is above a place are directories. -/
def Reached (t : Tree Str Str) (p : List Str) : Prop := ∀ q, q <+: p → q ≠ p → IsDir t q

/-- A file that can be opened by its path. -/
def Opens (t : Tree Str Str) (p : List Str) (x : Str) : Prop :=
  entry t p = some (.file x) ∧ Reached t p

variable {t : Tree Str Str} {cwd d p q cs : List Str} {uri url x : Str} {errorText : Str → Str}

theorem location_filename (hcwd : ∀ c ∈ cwd, IsFileName c) :
    location [] (pathText cwd ++ "/public/" ++ '/' :: uri) =
      normal (cwd ++ [("public" : Str)]) (components uri) := by
  have htext : pathText cwd ++ "/public/" ++ '/' :: uri =
      pathText cwd ++ '/' :: ("public" ++ '/' :: ([] ++ '/' :: uri)) := by simp [ofString]
  have hroot : ∀ s : Str, root [] s = [] := fun s => by simp [root]
  have hbase : normal [] (components (pathText cwd)) = cwd := by
    have h := @location_pathText [] cwd hcwd
    rwa [location, hroot] at h
  have hpublic : ("public" : Str).splitOn '/' = [("public" : Str)] := components_plain (by decide)
  rw [htext, location, hroot, components, List.splitOn_append_cons_self, List.splitOn_append_cons_self,
    List.splitOn_append_cons_self, normal_append, hbase, hpublic, List.splitOn_nil, normal_append,
    normal_append]
  rfl

theorem normal_below (h : (".." : Str) ∉ cs) : ∃ rest, normal d cs = d ++ rest := by
  induction cs generalizing d with
  | nil => exact ⟨[], (List.append_nil d).symm⟩
  | cons c cs ih =>
    rw [List.mem_cons, not_or] at h
    rw [normal, List.foldl_cons, enter]
    split_ifs with h₁ h₂
    · exact ih h.2
    · exact absurd h₂.symm h.1
    · obtain ⟨rest, hr⟩ := @ih (d ++ [c]) h.2
      exact ⟨c :: rest, by rw [← normal, hr]; simp⟩

theorem walk_names (h : ∀ c ∈ cs, Names c) : walk t d cs = some p ↔
    p = d ++ cs ∧ ∀ q, q <+: cs → q ≠ cs → IsDir t (d ++ q) := by
  induction cs generalizing d with
  | nil => simp [walk, eq_comm]
  | cons c cs ih =>
    obtain ⟨hc, hcs⟩ := List.forall_mem_cons.mp h
    rw [walk, enter_names hc]
    by_cases hd : IsDir t d
    · rw [if_pos hd, ih hcs, List.append_assoc, List.singleton_append]
      refine and_congr_right fun _ => ⟨fun hq q hp hne => ?_, fun hq q hp hne => ?_⟩
      · rcases List.prefix_cons_iff.mp hp with rfl | ⟨r, rfl, hr⟩
        · simpa using hd
        · simpa using hq r hr fun he => hne (by rw [he])
      · have hcons := hq (c :: q) ((List.prefix_cons_inj c).mpr hp) fun he => hne (List.cons.inj he).2
        simpa using hcons
    · rw [if_neg hd]
      constructor
      · intro hn
        cases hn
      · rintro ⟨-, hq⟩
        exact absurd (by simpa using hq [] List.nil_prefix (List.cons_ne_nil c cs).symm) hd

theorem reached_concat {c : Str} : Reached t (p ++ [c]) ↔ Reached t p ∧ IsDir t p := by
  constructor
  · intro h
    refine ⟨fun q hq hne => h q (hq.trans (List.prefix_append p [c])) ?_, h p (List.prefix_append p [c]) ?_⟩
    · rintro rfl
      exact absurd hq.length_le (by simp)
    · exact fun he => absurd (congrArg List.length he) (by simp)
  · rintro ⟨h, hp⟩ q hq hne
    rcases List.prefix_concat_iff.mp hq with he | hq
    · exact absurd he hne
    · by_cases he : q = p
      · exact he ▸ hp
      · exact h q hq he

theorem walk_reached (h : ∀ c ∈ p, IsFileName c) : walk t [] p = some q ↔ q = p ∧ Reached t p :=
  walk_names fun c hc => (h c hc).1

/-- The absolute path of a place, with or without a slash at the end. -/
structure Spells (path : Str) (p : List Str) (slash : Bool) : Prop where
  nonempty : path ≠ []
  components : components path = [] :: (p ++ if slash then [[]] else [])
  ends : path.getLast? = some '/' ↔ slash = true
  names : ∀ c ∈ p, IsFileName c

theorem walk_slash (h : ∀ c ∈ p, IsFileName c) {slash : Bool} :
    walk t [] (p ++ if slash then [[]] else []) = some q ↔
      q = p ∧ Reached t p ∧ (slash = true → IsDir t p) := by
  have hrest : walk t p (if slash then [[]] else []) =
      if slash = true → IsDir t p then some p else none := by
    cases slash
    · rfl
    · by_cases hd : IsDir t p <;> simp [walk, enter, hd]
  rw [walk_append, Option.bind_eq_some_iff]
  simp only [walk_reached h, and_assoc, exists_eq_left, hrest, Option.ite_none_right_eq_some,
    Option.some.injEq]
  constructor
  · rintro ⟨hr, hs, rfl⟩
    exact ⟨rfl, hr, hs⟩
  · rintro ⟨rfl, hr, hs⟩
    exact ⟨hr, hs, rfl⟩

theorem Spells.resolve_eq {slash : Bool} (h : Spells uri p slash) : resolve t [] uri = some q ↔
    q = p ∧ Reached t p ∧ (slash = true → IsDir t p) := by
  rw [resolve, if_neg h.nonempty, h.components, root, ite_self, walk, if_pos (.inl rfl)]
  exact walk_slash h.names

theorem Spells.resolve_index {slash : Bool} (h : Spells uri p slash) :
    resolve t [] (uri ++ "/index.html") = some q ↔
      q = p ++ [("index.html" : Str)] ∧ Reached t p ∧ IsDir t p := by
  have hsplit : Posix.components (uri ++ "/index.html") =
      Posix.components uri ++ [("index.html" : Str)] := by
    have htext : uri ++ "/index.html" = uri ++ '/' :: "index.html" := by simp [ofString]
    have hplain : ("index.html" : Str).splitOn '/' = [("index.html" : Str)] :=
      components_plain (by decide)
    rw [htext, Posix.components, List.splitOn_append_cons_self, hplain]
  have hname : ∀ d : List Str, walk t d [("index.html" : Str)] =
      if IsDir t d then some (d ++ [("index.html" : Str)]) else none := by
    intro d
    rw [walk, enter_names (by decide)]
    rfl
  rw [resolve, if_neg (by simp [ofString]), hsplit, h.components, root, ite_self, List.cons_append, walk,
    if_pos (.inl rfl), walk_append, Option.bind_eq_some_iff]
  have henter : enter [] [] = ([] : List Str) := rfl
  simp only [henter, walk_slash h.names, and_assoc, exists_eq_left, hname,
    Option.ite_none_right_eq_some, Option.some.injEq]
  constructor
  · rintro ⟨hr, -, hd, rfl⟩
    exact ⟨rfl, hr, hd⟩
  · rintro ⟨rfl, hr, hd⟩
    exact ⟨hr, fun _ => hd, hd, rfl⟩

theorem pathText_ends (h : ∀ c ∈ p, IsFileName c) (hp : p ≠ []) :
    (pathText p).getLast? ≠ some '/' := by
  obtain ⟨q, c, rfl⟩ := (List.eq_nil_or_concat p).resolve_left hp
  rw [List.concat_eq_append] at h ⊢
  have hc : IsFileName c := h c (List.mem_append_right q List.mem_cons_self)
  obtain ⟨name, l, rfl⟩ := (List.eq_nil_or_concat c).resolve_left hc.1.1
  have hl : l ≠ '/' := by
    rintro rfl
    exact hc.2 (by simp)
  have htext : pathText (q ++ [name.concat l]) = q.flatMap ('/' :: ·) ++ '/' :: name ++ [l] := by
    rw [pathText_concat]
    simp
  rw [htext, List.getLast?_concat]
  exact fun he => hl (Option.some.inj he)

/-- What a path is joined to spells where it leads. -/
theorem joinPaths_spells {base part : Str} (hb : base.head? = some '/') :
    ∃ slash, Spells (joinPaths base part) (location [] (base ++ '/' :: part)) slash ∧
      (slash = true ↔ (base ++ '/' :: part).getLast? = some '/' ∨
        location [] (base ++ '/' :: part) = []) := by
  have hhead : (base ++ '/' :: part).head? = some '/' := by rw [List.head?_append, hb]; rfl
  have hnames := @location_isFileName [] _ hhead
  simp only [joinPaths]
  generalize location [] (base ++ '/' :: part) = p at hnames
  by_cases hp : p = []
  · subst hp
    have hroot : pathText [] = ['/'] := rfl
    rw [hroot, if_neg fun h => h.2 rfl]
    exact ⟨true, ⟨List.cons_ne_nil _ _, by decide, by decide, hnames⟩, by simp⟩
  · have hcomp : components (pathText p) = [] :: p := by
      rw [pathText, if_neg hp, components_slashes fun c hc => (hnames c hc).2]
    have hroot : pathText p ≠ ['/'] := by
      intro h
      exact pathText_ends hnames hp (by rw [h]; rfl)
    by_cases hs : (base ++ '/' :: part).getLast? = some '/'
    · rw [if_pos ⟨hs, hroot⟩]
      refine ⟨true, ⟨by simp, ?_, by simp, hnames⟩, by simp [hs]⟩
      have h := components_replicate (pathText p) 1
      rwa [hcomp] at h
    · rw [if_neg fun h => hs h.1]
      refine ⟨false, ⟨pathText_ne_nil, by simpa using hcomp, ?_, hnames⟩, ?_⟩
      · simpa using pathText_ends hnames hp
      · simp only [hs, hp, or_self, Bool.false_eq_true]

theorem isDirectory_iff {slash : Bool} (h : Spells uri p slash) :
    isDirectory t uri = true ↔ Reached t p ∧ IsDir t p := by
  constructor
  · intro hd
    rcases hr : resolve t [] uri with _ | q
    · simp [isDirectory, hr] at hd
    · obtain ⟨rfl, hreach, -⟩ := h.resolve_eq.mp hr
      exact ⟨hreach, by simpa [isDirectory, hr] using hd⟩
  · rintro ⟨hreach, hd⟩
    have hr : resolve t [] uri = some p := h.resolve_eq.mpr ⟨rfl, hreach, fun _ => hd⟩
    simp [isDirectory, hr, hd]

theorem readFile_iff : readFile t [] uri = some x ↔
    ∃ q, resolve t [] uri = some q ∧ entry t q = some (.file x) := by
  rw [readFile, Option.bind_eq_some_iff]
  refine exists_congr fun q => and_congr_right fun _ => ?_
  rcases entry t q with _ | _ | y <;> simp

/-- A response with a file is one with the file or the index that the path leads to. -/
theorem handler_ok_iff {slash : Bool} (h : Spells (filename cwd (pathname url)) p slash) :
    handler t cwd errorText url = { status := 200, body := x } ↔
      IsDir t p ∧ Opens t (p ++ [("index.html" : Str)]) x ∨
        slash = false ∧ ¬ IsDir t p ∧ Opens t p x := by
  have hend : (filename cwd (pathname url)).getLast? ≠ some '/' ↔ slash = false := by
    rw [ne_eq, h.ends, Bool.not_eq_true]
  rw [handler]
  by_cases hd : Reached t p ∧ IsDir t p
  · obtain ⟨hreach, hp⟩ := hd
    have hdir := (isDirectory_iff h).mpr ⟨hreach, hp⟩
    have hexists : nodeExists t (filename cwd (pathname url)) = true := by
      have hr : resolve t [] (filename cwd (pathname url)) = some p :=
        h.resolve_eq.mpr ⟨rfl, hreach, fun _ => hp⟩
      have hpresent : pathExists t [] (filename cwd (pathname url)) = true := by
        rw [pathExists, hr]
        rcases hp with rfl | hp
        · rfl
        · simp [present, hp]
      simp [nodeExists, hpresent, hdir]
    have hindex : readFile t [] (filename cwd (pathname url) ++ "/index.html") = some x ↔
        Opens t (p ++ [("index.html" : Str)]) x := by
      rw [readFile_iff, Opens, reached_concat]
      simp only [h.resolve_index, and_assoc, exists_eq_left]
      constructor
      · rintro ⟨-, -, he⟩
        exact ⟨he, hreach, hp⟩
      · rintro ⟨he, -⟩
        exact ⟨hreach, hp, he⟩
    simp only [hexists, hdir, if_true, hp, not_true, true_and, false_and, and_false, or_false]
    rw [← hindex]
    rcases readFile t [] (filename cwd (pathname url) ++ "/index.html") with _ | file <;> simp
  · have hdir : isDirectory t (filename cwd (pathname url)) = false := by
      rw [← Bool.not_eq_true, isDirectory_iff h]
      exact hd
    have hindex : ¬ Opens t (p ++ [("index.html" : Str)]) x := fun ho => hd (reached_concat.mp ho.2)
    have hfile : readFile t [] (filename cwd (pathname url)) = some x ↔
        slash = false ∧ ¬ IsDir t p ∧ Opens t p x := by
      rw [readFile_iff]
      simp only [h.resolve_eq, and_assoc, exists_eq_left]
      constructor
      · rintro ⟨hreach, hs, he⟩
        have hp : ¬ IsDir t p := fun hp => hd ⟨hreach, hp⟩
        exact ⟨by simpa using fun hslash => hp (hs hslash), hp, he, hreach⟩
      · rintro ⟨hs, -, he, hreach⟩
        exact ⟨hreach, fun hslash => absurd (hs.symm.trans hslash) (by decide), he⟩
    have hexists : readFile t [] (filename cwd (pathname url)) = some x →
        nodeExists t (filename cwd (pathname url)) = true := by
      intro hr
      obtain ⟨hs, -, he, hreach⟩ := hfile.mp hr
      have hresolve : resolve t [] (filename cwd (pathname url)) = some p :=
        h.resolve_eq.mpr ⟨rfl, hreach, fun hslash => absurd (hs.symm.trans hslash) (by decide)⟩
      have hpresent : pathExists t [] (filename cwd (pathname url)) = true := by
        rw [pathExists, hresolve]
        simp [present, he]
      simp [nodeExists, hpresent, hend.mpr hs]
    rw [← hfile, or_iff_right fun h => hindex h.2]
    simp only [hdir, Bool.false_eq_true, if_false]
    split
    · rcases readFile t [] (filename cwd (pathname url)) with _ | file <;> simp
    · rename_i hno
      exact ⟨fun he => by simp at he, fun hr => absurd (hexists hr) hno⟩

theorem normal_ups {n : ℕ} (h : d.length ≤ n) : normal d (List.replicate n ("..": Str)) = [] := by
  induction n generalizing d with
  | zero => exact List.length_eq_zero_iff.mp (Nat.le_zero.mp h)
  | succ n ih =>
    rw [List.replicate_succ, normal, List.foldl_cons]
    have hup : enter d ".." = d.dropLast := rfl
    rw [hup]
    exact ih (by rw [List.length_dropLast]; omega)

theorem base_head (cwd : List Str) : (pathText cwd ++ "/public/").head? = some '/' := by
  cases cwd <;> rfl

/-- Letters that a URL may have in a path. -/
def PlainLetter (c : Char) : Prop := c.isAlphanum = true ∨ c ∈ ['-', '_', '.']

theorem plain_letter {l : Char} (h : l = '/' ∨ PlainLetter l) :
    l ≠ '?' ∧ l ≠ '#' ∧ l ≠ '\\' ∧ l ∉ escaped := by
  have hall : ∀ c ∈ '?' :: '#' :: '\\' :: escaped, ¬ (c = '/' ∨ PlainLetter c) := by
    simp [escaped, PlainLetter]
  have hno : l ∉ '?' :: '#' :: '\\' :: escaped := fun hm => hall l hm h
  simpa only [List.mem_cons, not_or] using hno

theorem pathname_plain (h : ∀ l ∈ url, l = '/' ∨ PlainLetter l) :
    beforeQuery url = url ∧ pathname url = url := by
  have hq : beforeQuery url = url := by
    refine List.takeWhile_eq_self_iff.mpr fun l hl => decide_eq_true ?_
    exact ⟨(plain_letter (h l hl)).1, (plain_letter (h l hl)).2.1⟩
  refine ⟨hq, ?_⟩
  rw [pathname, hq]
  exact (List.map_congr_left fun l hl => if_neg (plain_letter (h l hl)).2.2.1).trans (List.map_id url)

def nodeHome : List Str := ["home", "spb"]

/-- The page, and a file outside its directory. -/
def nodeTree : Tree Str Str :=
  [(["home"], .dir), (["home", "spb"], .dir), (["home", "spb", "public"], .dir),
    (["home", "spb", "public", "index.html"], .file "<html></html>"), (["etc"], .dir),
    (["etc", "hostname"], .file "staging.bioconductor.org")]

example : handler nodeTree nodeHome id "/..\\..\\../etc/hostname" =
    { status := 200, body := "staging.bioconductor.org" } := by decide +kernel

example : handler nodeTree nodeHome id "/?svn_url=x" = { status := 200, body := "<html></html>" } := by
  decide +kernel

end PackageBuilder
