import PackageBuilder.Library.PathText
import PackageBuilder.Server.JobPaths

/-! From `do_work` of server.py to `setup` of builder.py: the builder finds what the server made for
it. -/
namespace PackageBuilder
open Text FileTree Posix Effect

/-- What `setup` leaves: the text that it loads as the manifest, the working directory, and the
directories of `R_LIBS_USER`. -/
structure SetUp where
  manifest : Str
  workingDir : Str
  rLibsUser : List Str
  deriving DecidableEq, Repr

section
variable (t : Tree Str Str) (cwd : List Str)

/-- `open(path, "rb")` and `read` -/
def readFile (path : Str) : Option Str :=
  (resolve t cwd path).bind fun p =>
    match entry t p with
    | some (.file x) => some x
    | _ => none

/-- `os.chdir(path)`, with what `os.getcwd` is about afterwards. -/
def chdir (path : Str) : Option (List Str) :=
  (resolve t cwd path).bind fun p => if IsDir t p then some p else none

/-- The libraries of the R installation. -/
def systemLibs (workingDir : List Str) (rHome : Str) : List Str :=
  let sysLib := pathJoin rHome "library"
  let bbsLib := pathJoin rHome "site-library"
  if pathExists t workingDir bbsLib then [bbsLib, sysLib] else [sysLib]

/-- `setup` of builder.py with its first argument, as far as it looks at files; `none` if it
raises. -/
def setup (rHome argument : Str) : Option SetUp := do
  let manifest ← readFile t cwd argument
  let workingDir ← chdir t cwd (dirname argument)
  let packageDir := dirname (pathText workingDir)
  return {
    manifest
    workingDir := pathText workingDir
    rLibsUser := pathJoin packageDir "R-libs" :: systemLibs t workingDir rHome }

end

section
variable {srv : Server} {s s' : WorkState} {t t' : Tree Str Str} {o : List (Str × Json)}
  {body issue runDir : Str} {c : Call Str} {cs : List (Call Str)}

/-- One reply, if any, to the sender of the request. -/
def Replying (srv : Server) (o : List (Str × Json)) (s s' : WorkState) : Prop :=
  s'.events = s.events ∨ ∃ jobId clientId version, field? o "client_id" = some clientId ∧
    s'.events = s.events ++ [gotRequestObject srv jobId clientId version]

/-- The builder that is launched, if any, gets the manifest of the request, and a reply follows it. -/
def Launching (srv : Server) (o : List (Str × Json)) (s s' : WorkState) : Prop :=
  s'.launched = s.launched ∧ s'.events = s.events ∨ ∃ issue runDir version, issueOf o = some issue ∧
    runDirOf o = some runDir ∧ s'.launched = s.launched ++ [(manifestPath srv issue runDir, version)] ∧
      Replying srv o s s'

theorem Launching.none : Launching srv o s s := .inl ⟨rfl, rfl⟩

theorem exec_fileCall {α : Type} {k : Unit → Work α} :
    exec (fileCall c >>= k) srv s = (c.apply srv.toCaller s.tree).elim (.error .osError, s)
      fun t => exec (k ()) srv (s.called t c) := by
  simp only [fileCall, exec_bind, exec_read, exec_get]
  rcases c.apply srv.toCaller s.tree <;> simp

theorem Launching.fileCall {k : Unit → Work Unit}
    (h : ∀ s, Launching srv o s (exec (k ()) srv s).2) :
    Launching srv o s (exec (fileCall c >>= k) srv s).2 := by
  rw [exec_fileCall]
  rcases c.apply srv.toCaller s.tree with _ | t
  · exact .none
  · exact h (s.called t c)

theorem launchBuilder_launching {jobId clientId version : Json} (hi : issueOf o = some issue)
    (hr : runDirOf o = some runDir) (hc : field? o "client_id" = some clientId) :
    Launching srv o s (exec (do
      launchBuilder (manifestPath srv issue runDir) version
      sendReply (gotRequestObject srv jobId clientId version)) srv s).2 := by
  simp only [launchBuilder, sendReply, bind_assoc, exec_orRaise]
  rcases version.text? with _ | arg
  · exact .none
  · have hyes : ∀ {s'}, s'.launched = s.launched ++ [(manifestPath srv issue runDir, arg)] →
        Replying srv o s s' → Launching srv o s s' :=
      fun hl hs => .inr ⟨issue, runDir, arg, hi, hr, hl, hs⟩
    rcases ha : srv.accepts arg <;> rcases hs : srv.spawns <;> rcases hp : srv.answers.reply <;>
      simp [exec_bind, ha, hs, hp]
    case true.true.false => exact hyes rfl (.inl rfl)
    case true.true.true => exact hyes rfl (.inr ⟨jobId, clientId, version, hc, rfl⟩)
    all_goals exact .none

theorem serveRun_launching {jobId clientId version : Json} (hi : issueOf o = some issue)
    (hj : field? o "job_id" = some jobId) (hc : field? o "client_id" = some clientId) :
    Launching srv o s
      (exec (serveRun o body jobId clientId version (issuePath srv issue)) srv s).2 := by
  unfold serveRun item
  rw [exec_bind, exec_read]
  simp only [exec_orRaise]
  rcases h1 : field? o "svn_url" with _ | url
  · exact .none
  simp only
  rcases h2 : url.text? with _ | text
  · exact .none
  simp only
  rcases h3 : (text.splitOn '/')[3]? with _ | user
  · exact .none
  simp only
  rcases h4 : (text.splitOn '/')[4]? with _ | pkg
  · exact .none
  simp only
  rcases h5 : ((field? o "commit_id").getD jobId).text? with _ | runDir
  · exact .none
  have hrun : runDirOf o = some runDir := by
    have hlen : 5 ≤ (text.splitOn '/').length := by
      have := (List.getElem?_eq_some_iff.mp h4).1
      omega
    rw [← h5]
    simp only [runDirOf, h1, h2, hj, Option.bind_some, Option.any_some, hlen]
    rcases field? o "commit_id" <;> rfl
  apply Launching.fileCall
  intro s
  apply Launching.fileCall
  intro s
  apply Launching.fileCall
  intro s
  exact launchBuilder_launching hi hrun hc

theorem serve_launching : Launching srv o s (exec (serve o body) srv s).2 := by
  unfold serve item
  rw [exec_bind, exec_read]
  simp only [exec_orRaise]
  rcases h1 : field? o "job_id" with _ | jobId
  · exact .none
  rcases h2 : field? o "client_id" with _ | clientId
  · exact .none
  simp only
  rcases h3 : clientId.text? with _ | text
  · exact .none
  simp only
  rcases h4 : (text.splitOn ':')[1]? with _ | issue
  · exact .none
  simp only
  rcases h5 : field? o "bioc_version" with _ | version
  · exact .none
  have hi : issueOf o = some issue := by simp [issueOf, h1, h2, h3, h4, h5]
  apply Launching.fileCall
  intro s
  apply Launching.fileCall
  intro s
  apply Launching.fileCall
  intro s
  exact serveRun_launching hi h1 h2

theorem after_launching (hl : srv.loads body = .value (.object o)) :
    Launching srv o { tree := t } (srv.after t body).2 := by
  rw [Server.after, doWorkBody, exec_bind]
  rcases hg : srv.answers.greeting
  · simp only [exec_read, hg]
    exact .none
  simp only [exec_read, hg, hl, if_true]
  split
  next =>
    have hs : Launching srv o { tree := t } (exec (serve o body) srv { tree := t }).2 := serve_launching
    rw [exec_tryCatch]
    rcases he : exec (serve o body) srv { tree := t } with ⟨_ | _, s'⟩ <;> rw [he] at hs <;> exact hs
  next => exact .none

/-- A message has at most one builder launched. -/
theorem after_launched (hl : srv.loads body = .value (.object o))
    (hs : (srv.after t body).2.launched ≠ []) : ∃ issue runDir version, issueOf o = some issue ∧
      runDirOf o = some runDir ∧
      (srv.after t body).2.launched = [(manifestPath srv issue runDir, version)] := by
  rcases after_launching (t := t) hl with ⟨h, -⟩ | ⟨issue, runDir, version, hi, hr, h, -⟩
  · exact absurd h hs
  · exact ⟨issue, runDir, version, hi, hr, h⟩

theorem applyAll_written {α : Type} [DecidableEq α] {u : Caller} {t t' : Tree Str α} {path : Str}
    {x : α} {cs : List (Call α)} (h : applyAll u t cs = (t', true))
    (hw : cs.Pairwise fun c c' => c.IsWrite → c'.IsWrite → c'.target u ≠ c.target u)
    (hc : .write path x ∈ cs) : entry t' (location u.cwd path) = some (.file x) := by
  induction cs generalizing t with
  | nil => cases hc
  | cons c cs ih =>
    obtain ⟨hfirst, hrest⟩ := List.pairwise_cons.mp hw
    simp only [applyAll] at h
    split at h
    next t₁ ht =>
      rcases List.mem_cons.mp hc with rfl | hc
      · have he : entry t₁ (location u.cwd path) = some (.file x) := by
          rcases apply_cases ht with ⟨-, -, hn⟩ | ⟨-, -, hn, -⟩ | ⟨path', x', hp, -, rfl⟩
          · exact absurd trivial hn
          · exact absurd trivial hn
          · cases hp
            exact entry_put_self
        have hk : entry (applyAll u t₁ cs).1 _ = _ := applyAll_keeps he
          (.inr fun c' hc' hw' => hfirst c' hc' trivial hw')
        rwa [h] at hk
      · exact ih h hrest hc
    next => cases h

theorem pathJoin_slash {base name : Str} (hb : base ≠ []) (hn : '/' ∉ name) :
    ∃ base', pathJoin base name = base' ++ '/' :: name := by
  have hhead : name.head? ≠ some '/' := fun he => hn (List.mem_of_mem_head? he)
  simp only [pathJoin, if_neg hhead, hb, false_or]
  split
  next hlast =>
    obtain ⟨base', rfl⟩ := List.getLast?_eq_some_iff.mp hlast
    exact ⟨base', by simp⟩
  next => exact ⟨base, rfl⟩

/-- The builder of an accepted request loads the message as its manifest and works in the directory
that the server made for it; its first library is the one the server made if and only if that
directory is in the directory of the issue. -/
theorem handoff (srv : Server) (t : Tree Str Str) (o : List (Str × Json)) (body rHome : Str)
    (hl : srv.loads body = .value (.object o)) (hs : (srv.after t body).2.launched ≠ []) :
    ∃ issue runDir manifest version lib libs,
      issueOf o = some issue ∧ runDirOf o = some runDir ∧
      (srv.after t body).2.launched = [(manifest, version)] ∧
      setup (srv.after t body).2.tree srv.cwd rHome manifest = some {
        manifest := body
        workingDir := pathText (location srv.cwd (runPath srv issue runDir))
        rLibsUser := lib :: libs } ∧
      (location srv.cwd lib = location srv.cwd (pathJoin (issuePath srv issue) "R-libs") ↔
        (location srv.cwd (runPath srv issue runDir)).dropLast =
          location srv.cwd (issuePath srv issue)) := by
  obtain ⟨issue, runDir, version, hi, hr, hlaunched⟩ := after_launched hl hs
  have hg : srv.answers.greeting = true := by
    by_contra hg
    simp [Server.after, doWorkBody, exec_bind, hg] at hs
  obtain ⟨-, htree, -, hrej⟩ := after_object (t := t) hg hl
  have hall : applyAll srv.toCaller t (plan srv o body) = ((srv.after t body).2.tree, true) := by
    have ha : Accepted srv t o body := by
      by_contra ha
      exact hs (hrej ha).1
    exact Prod.ext htree.symm ha.2
  have hmem : Call.write (manifestPath srv issue runDir) body ∈ plan srv o body := by
    simp [plan, runPlan, hi, hr, runCalls]
  have hwritten := applyAll_written hall plan_apart hmem
  have hresolve := applyAll_resolves hall _ hmem
  have hrun : runPath srv issue runDir ≠ [] := runPath_ne_nil
  obtain ⟨base, hbase⟩ := pathJoin_slash hrun (by decide : '/' ∉ ("manifest.json" : Str))
  rw [← manifestPath_eq] at hbase
  rw [Call.path, Call.target, Call.path, hbase] at hresolve
  obtain ⟨q, hq, hd, hp⟩ := resolve_dirname (by decide) hresolve
  rw [← hbase] at hq hp hresolve
  have hloc : q = location srv.cwd (runPath srv issue runDir) := by
    rw [manifest_location, enter_names (by decide)] at hp
    exact (List.append_cancel_right hp).symm
  subst hloc
  have hnames : ∀ c ∈ location srv.cwd (runPath srv issue runDir), IsFileName c :=
    location_isFileName runPath_absolute
  have hread : readFile (srv.after t body).2.tree srv.cwd (manifestPath srv issue runDir) =
      some body := by
    rw [readFile, hresolve, Option.bind_some, hwritten]
  have hchdir : chdir (srv.after t body).2.tree srv.cwd (dirname (manifestPath srv issue runDir)) =
      some (location srv.cwd (runPath srv issue runDir)) := by
    rw [chdir, hq, Option.bind_some, if_pos hd]
  refine ⟨issue, runDir, manifestPath srv issue runDir, version,
    pathJoin (dirname (pathText (location srv.cwd (runPath srv issue runDir)))) "R-libs",
    systemLibs (srv.after t body).2.tree (location srv.cwd (runPath srv issue runDir)) rHome, hi, hr,
    hlaunched, ?_, ?_⟩
  · rw [setup, hread, hchdir]
    rfl
  · have hlib : location srv.cwd (pathJoin
        (dirname (pathText (location srv.cwd (runPath srv issue runDir)))) "R-libs") =
        (location srv.cwd (runPath srv issue runDir)).dropLast ++ [("R-libs" : Str)] := by
      rw [dirname_pathText hnames, location_join pathText_ne_nil (by decide),
        location_pathText fun c hc => hnames c (List.dropLast_subset _ hc), enter_names (by decide)]
    rw [hlib, location_join issuePath_ne_nil (by decide), enter_names (by decide)]
    exact ⟨List.append_cancel_right, fun h => by rw [h]⟩

theorem handoff_plainRequest : ∃ issue runDir manifest version lib libs,
    issueOf plainRequest = some issue ∧ runDirOf plainRequest = some runDir ∧
    (busyServer.after freshTree plainBody).2.launched = [(manifest, version)] ∧
    setup (busyServer.after freshTree plainBody).2.tree busyServer.cwd "/usr/lib/R" manifest = some {
      manifest := plainBody
      workingDir := pathText (location busyServer.cwd (runPath busyServer issue runDir))
      rLibsUser := lib :: libs } ∧
    (location busyServer.cwd lib =
        location busyServer.cwd (pathJoin (issuePath busyServer issue) "R-libs") ↔
      (location busyServer.cwd (runPath busyServer issue runDir)).dropLast =
        location busyServer.cwd (issuePath busyServer issue)) :=
  handoff busyServer freshTree plainRequest plainBody "/usr/lib/R" plainBody_loads (by decide +kernel)

end
end PackageBuilder
