import PackageBuilder.Server.Rejected

/-! Where the directories and files of an accepted request are. -/
namespace PackageBuilder
open Text FileTree Posix Effect

/-- The entries of one run: the jobs directory, the directory `x` of the issue with its library, and
the run directory `y` with the manifest and the log. -/
def runEntries (jobs : List Str) (x y : Str) : List (List Str) :=
  [jobs, jobs ++ [x], jobs ++ [x] ++ [("R-libs" : Str)], jobs ++ [x] ++ [y],
    jobs ++ [x] ++ [y] ++ [("manifest.json" : Str)], jobs ++ [x] ++ [y] ++ [("builder.log" : Str)]]

/-- The path names of all calls lead to the entries of one run below `<spb_home>/jobs`, whose
directory is not the library, and no other entry has changed. -/
def Inside (srv : Server) (t : Tree Str Str) (body : Str) : Prop :=
  ∃ (jobs : List Str) (x y : Str), resolve (srv.after t body).2.tree srv.cwd (jobsDir srv) = some jobs ∧
    y ≠ "R-libs" ∧
    (srv.after t body).2.calls.map (fun c => resolve (srv.after t body).2.tree srv.cwd c.path) =
      (runEntries jobs x y).map some ∧
    ∀ p, p ∉ runEntries jobs x y → entry (srv.after t body).2.tree p = entry t p

/-- By their text, with `.`, `..` and slashes resolved, the issue is one component below the jobs
directory, and the run directory one below that, other than R-libs. -/
def Contained (srv : Server) (o : List (Str × Json)) : Prop :=
  ∃ issue runDir, issueOf o = some issue ∧ runDirOf o = some runDir ∧
    (∃ x : Str, location srv.cwd (issuePath srv issue) = location srv.cwd (jobsDir srv) ++ [x]) ∧
    ∃ y : Str, y ≠ "R-libs" ∧
      location srv.cwd (runPath srv issue runDir) = location srv.cwd (issuePath srv issue) ++ [y]

section
variable {srv : Server} {t : Tree Str Str} {o : List (Str × Json)} {body issue runDir : Str}

theorem jobsDir_ne_nil : jobsDir srv ≠ [] := by
  have ha := pathJoin_absolute (b := "jobs") srv.absolute
  intro he
  rw [← jobsDir, he] at ha
  cases ha

theorem issuePath_ne_nil : issuePath srv issue ≠ [] := pathJoin_ne_nil jobsDir_ne_nil

/-- Where the six calls of a complete request are. -/
theorem plan_targets (hi : issueOf o = some issue) (hr : runDirOf o = some runDir) :
    (plan srv o body).map (·.target srv.toCaller) =
      [location srv.cwd (jobsDir srv), location srv.cwd (issuePath srv issue),
        location srv.cwd (issuePath srv issue) ++ [("R-libs" : Str)],
        location srv.cwd (runPath srv issue runDir),
        location srv.cwd (runPath srv issue runDir) ++ [("manifest.json" : Str)],
        location srv.cwd (runPath srv issue runDir) ++ [("builder.log" : Str)]] := by
  have hlibs : location srv.cwd (pathJoin (issuePath srv issue) "R-libs") =
      location srv.cwd (issuePath srv issue) ++ [("R-libs" : Str)] := by
    rw [location_join issuePath_ne_nil (by decide), enter_names (by decide)]
  simp only [plan, runPlan, hi, hr, Option.elim, runCalls, List.map_cons, List.map_nil,
    Call.target, Call.path, hlibs, manifest_location, log_location]

/-- What is known of a request that launches a builder. -/
theorem launched_facts (hl : srv.loads body = .value (.object o))
    (hs : (srv.after t body).2.launched ≠ []) :
    ∃ issue runDir, issueOf o = some issue ∧ runDirOf o = some runDir ∧
      (srv.after t body).2.calls = plan srv o body ∧
      (∀ c ∈ plan srv o body,
        resolve (srv.after t body).2.tree srv.cwd c.path = some (c.target srv.toCaller)) ∧
      ∀ p, p ∉ (plan srv o body).map (·.target srv.toCaller) →
        entry (srv.after t body).2.tree p = entry t p := by
  have hg : srv.answers.greeting = true := by
    by_contra hg
    simp [Server.after, doWorkBody, exec_bind, hg] at hs
  obtain ⟨-, htree, hlaunch, hrej⟩ := after_object (t := t) hg hl
  have ha : Accepted srv t o body := by
    by_contra ha
    exact hs (hrej ha).1
  obtain ⟨issue, hi⟩ := Option.isSome_iff_exists.mp ha.1.1
  obtain ⟨runDir, hr⟩ := Option.isSome_iff_exists.mp ha.1.2.1
  refine ⟨issue, runDir, hi, hr, by simpa using (hlaunch ha).1, ?_, ?_⟩
  · rw [htree]
    exact applyAll_resolves (Prod.ext rfl ha.2)
  · intro p hp
    rw [htree]
    apply applyAll_other
    rintro c hc rfl
    exact hp (List.mem_map_of_mem hc)

/-- A request that launches a builder stays inside its own place if and only if its names do. -/
theorem inside_iff (hl : srv.loads body = .value (.object o))
    (hs : (srv.after t body).2.launched ≠ []) : Inside srv t body ↔ Contained srv o := by
  obtain ⟨issue, runDir, hi, hr, hcalls, hres, hother⟩ := launched_facts hl hs
  have hmap : (srv.after t body).2.calls.map
      (fun c => resolve (srv.after t body).2.tree srv.cwd c.path) =
        ((plan srv o body).map (·.target srv.toCaller)).map some := by
    rw [hcalls, List.map_map]
    exact List.map_congr_left hres
  rw [plan_targets hi hr] at hmap hother
  constructor
  · rintro ⟨jobs, x, y, -, hy, hm, -⟩
    rw [hmap] at hm
    simp only [runEntries, List.map_cons, List.map_nil, List.cons.injEq, Option.some.injEq] at hm
    obtain ⟨hj, hx, -, hxy, -⟩ := hm
    exact ⟨issue, runDir, hi, hr, ⟨x, by rw [hx, hj]⟩, y, hy, by rw [hxy, hx]⟩
  · rintro ⟨issue', runDir', hi', hr', ⟨x, hx⟩, y, hy, hxy⟩
    obtain rfl : issue = issue' := Option.some.inj (hi.symm.trans hi')
    obtain rfl : runDir = runDir' := Option.some.inj (hr.symm.trans hr')
    rw [hxy, hx] at hmap hother
    refine ⟨location srv.cwd (jobsDir srv), x, y, ?_, hy, hmap, hother⟩
    have hmem : Call.ensure (jobsDir srv) ∈ plan srv o body := by simp [plan, hi]
    exact hres _ hmem

/-- The path name of each directory of a request. -/
def levelPath (srv : Server) (issue runDir : Str) : Level → Str
  | .jobs => jobsDir srv
  | .issue => issuePath srv issue
  | .libs => pathJoin (issuePath srv issue) "R-libs"
  | .run => runPath srv issue runDir

theorem location_plain {base name : Str} (hb : base ≠ []) (h : isPlain name = true) :
    location srv.cwd (pathJoin base name) = location srv.cwd base ++ [name] := by
  simp only [isPlain, Bool.and_eq_true, decide_eq_true_eq] at h
  obtain ⟨⟨⟨⟨hne, hs⟩, -⟩, hd⟩, hdd⟩ := h
  rw [location_join hb hs, enter_names ⟨hne, hd, hdd⟩]

/-- The directories of a well-formed request are below `spb_home` as `Request.dir` says. -/
theorem location_wellFormed {r : Request} (h : r.WellFormed) (l : Level) :
    location srv.cwd (levelPath srv r.issue r.runDir l) =
      location srv.cwd srv.spbHome ++ r.dir l := by
  have hhome : srv.spbHome ≠ [] := by
    intro he
    have ha := srv.absolute
    rw [he] at ha
    cases ha
  have hjobs : location srv.cwd (jobsDir srv) = location srv.cwd srv.spbHome ++ [("jobs" : Str)] :=
    location_plain hhome (by decide)
  have hissue : isPlain r.issue = true := by
    have hi := h.issue
    rw [Request.issue]
    generalize r.issue? = q at hi ⊢
    cases q with
    | none => cases hi
    | some x => exact hi
  have hrun : isPlain r.runDir = true := by
    have hj := h.jobId
    have hc := h.commitId
    rw [Request.runDir]
    generalize r.jobId = q at hj ⊢
    generalize r.commitId = q' at hc ⊢
    cases q' with
    | some x => exact hc
    | none =>
      cases q with
      | none => cases hj
      | some y => exact hj
  cases l with
  | jobs => exact hjobs
  | issue =>
    rw [levelPath, issuePath, location_plain jobsDir_ne_nil hissue, hjobs]
    simp [Request.dir]
  | libs =>
    rw [levelPath, location_plain issuePath_ne_nil (by decide), issuePath,
      location_plain jobsDir_ne_nil hissue, hjobs]
    simp [Request.dir]
  | run =>
    rw [levelPath, runPath, location_plain issuePath_ne_nil hrun, issuePath,
      location_plain jobsDir_ne_nil hissue, hjobs]
    simp [Request.dir]

end

def upBody : Str :=
  "\x7b\"job_id\": \"spbtest5_20230208\", \"client_id\": " ++
    "\"single_package_builder_github:..:spbtest5\", \"bioc_version\": \"3.17\", " ++
    "\"svn_url\": \"https://github.com/vobencha/spbtest5\"\x7d"

def upRequest : List (Str × Json) :=
  [("job_id", .string "spbtest5_20230208"),
    ("client_id", .string "single_package_builder_github:..:spbtest5"),
    ("bioc_version", .string "3.17"),
    ("svn_url", .string "https://github.com/vobencha/spbtest5")]

def plainBody : Str :=
  "\x7b\"job_id\": \"spbtest5_20230208\", \"client_id\": " ++
    "\"single_package_builder_github:3145:spbtest5\", \"bioc_version\": \"3.17\", " ++
    "\"svn_url\": \"https://github.com/vobencha/spbtest5\"\x7d"

def plainRequest : List (Str × Json) :=
  [("job_id", .string "spbtest5_20230208"),
    ("client_id", .string "single_package_builder_github:3145:spbtest5"),
    ("bioc_version", .string "3.17"),
    ("svn_url", .string "https://github.com/vobencha/spbtest5")]

theorem pkgbuild_absolute : ("/pkgbuild" : Str).head? = some '/' := rfl

/-- A node that reads these two bodies. -/
def busyServer : Server where
  spbHome := "/pkgbuild"
  absolute := pkgbuild_absolute
  builderId := "nebbiolo1"
  loads body :=
    if body = upBody then .value (.object upRequest)
    else if body = plainBody then .value (.object plainRequest)
    else .valueError

theorem plainBody_loads : busyServer.loads plainBody = .value (.object plainRequest) := by
  have hne : plainBody ≠ upBody := by decide +kernel
  simp [busyServer, hne]

theorem inside_iff_plainRequest :
    Inside busyServer freshTree plainBody ↔ Contained busyServer plainRequest :=
  inside_iff plainBody_loads (by decide +kernel)

/-- With `..` for the issue, the run directory is made beside the jobs directory. -/
theorem upRequest_not_inside :
    (busyServer.after freshTree upBody).2.launched ≠ [] ∧ ¬ Inside busyServer freshTree upBody := by
  refine ⟨by decide +kernel, ?_⟩
  rintro ⟨jobs, x, y, hj, -, hm, -⟩
  have hjobs : resolve (busyServer.after freshTree upBody).2.tree busyServer.cwd
      (jobsDir busyServer) = some [("pkgbuild" : Str), ("jobs" : Str)] := by
    decide +kernel
  have hissue : ((busyServer.after freshTree upBody).2.calls.map fun c =>
      resolve (busyServer.after freshTree upBody).2.tree busyServer.cwd c.path)[1]? =
        some (some [("pkgbuild" : Str)]) := by
    decide +kernel
  obtain rfl := Option.some.inj (hjobs.symm.trans hj)
  rw [hm] at hissue
  exact absurd (congrArg List.length (Option.some.inj (Option.some.inj hissue))) (by simp)

end PackageBuilder
