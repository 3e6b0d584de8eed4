import PackageBuilder.Server.Body

/-! What a message that launches no builder leaves behind. -/
namespace PackageBuilder
open Text FileTree Posix Effect

/-- All fields of a request are good, and no call of the file system raises. -/
def Accepted (srv : Server) (t : Tree Str Str) (o : List (Str × Json)) (body : Str) : Prop :=
  Complete srv o ∧ (applyAll srv.toCaller t (plan srv o body)).2 = true

/-- `do_work` ends without an uncaught exception, and if it launched no builder, the tree is as it
was and no event was sent. -/
def Traceless (srv : Server) (t : Tree Str Str) (body : Str) : Prop :=
  (srv.after t body).1 = .ok () ∧
    ((srv.after t body).2.launched = [] →
      (∀ p, entry (srv.after t body).2.tree p = entry t p) ∧ (srv.after t body).2.events = [])

/-- The debug message is sent, and the body is no JSON or an object that is accepted or whose
calls, up to the first that raises, find what they would make. -/
def Harmless (srv : Server) (t : Tree Str Str) (body : Str) : Prop :=
  srv.answers.greeting = true ∧
    match srv.loads body with
    | .valueError => True
    | .recursionError => False
    | .value (.object o) => Accepted srv t o body ∨ Idle srv.toCaller t (plan srv o body)
    | .value _ => False

theorem pathJoin_ne_nil {a b : Str} (ha : a ≠ []) : pathJoin a b ≠ [] := by
  unfold pathJoin
  split
  next hb =>
    rintro rfl
    cases hb
  next => split <;> simp [ha]

theorem pathJoin_absolute {a b : Str} (ha : a.head? = some '/') :
    (pathJoin a b).head? = some '/' := by
  unfold pathJoin
  split
  next hb => exact hb
  next =>
    cases a with
    | nil => cases ha
    | cons c a => split <;> exact ha

section
variable {srv : Server} {t : Tree Str Str} {o : List (Str × Json)} {body issue runDir : Str}

theorem runPath_absolute : (runPath srv issue runDir).head? = some '/' :=
  pathJoin_absolute (pathJoin_absolute (pathJoin_absolute srv.absolute))

theorem runPath_ne_nil : runPath srv issue runDir ≠ [] := by
  intro he
  have h : (runPath srv issue runDir).head? = some '/' := runPath_absolute
  rw [he] at h
  cases h

/-- The second join with `spb_home` drops it. -/
theorem manifestPath_eq :
    manifestPath srv issue runDir = pathJoin (runPath srv issue runDir) "manifest.json" := by
  have hj : pathJoin srv.spbHome (runPath srv issue runDir) = runPath srv issue runDir := by
    rw [pathJoin, if_pos runPath_absolute]
  rw [manifestPath, hj]

theorem location_runFile {name : Str} (hn : Names name) (hs : '/' ∉ name) :
    location srv.cwd (pathJoin (runPath srv issue runDir) name) =
      location srv.cwd (runPath srv issue runDir) ++ [name] := by
  rw [location_join runPath_ne_nil hs, enter_names hn]

theorem manifest_location :
    location srv.cwd (manifestPath srv issue runDir) =
      location srv.cwd (runPath srv issue runDir) ++ [("manifest.json" : Str)] := by
  rw [manifestPath_eq]
  exact location_runFile (by decide) (by decide)

theorem log_location :
    location srv.cwd (pathJoin (runPath srv issue runDir) "builder.log") =
      location srv.cwd (runPath srv issue runDir) ++ [("builder.log" : Str)] :=
  location_runFile (by decide) (by decide)

theorem plan_apart : (plan srv o body).Pairwise fun c c' =>
    c.IsWrite → c'.IsWrite → c'.target srv.toCaller ≠ c.target srv.toCaller := by
  unfold plan runPlan
  rcases issueOf o with _ | issue
  · exact .nil
  rcases runDirOf o with _ | runDir
  · simp [Call.IsWrite]
  · have hne : location srv.cwd (pathJoin (runPath srv issue runDir) "builder.log") ≠
        location srv.cwd (manifestPath srv issue runDir) := by
      rw [manifest_location, log_location]
      intro he
      exact absurd (List.append_cancel_left he) (by decide)
    simp [runCalls, Call.IsWrite, Call.target, Call.path, hne]

theorem plan_of_no_job (h : (field? o "job_id").isSome = false) : plan srv o body = [] := by
  simp [plan, issueOf, h]

theorem after_greeting (h : srv.answers.greeting = false) :
    (srv.after t body).1 = .error .notSent := by
  simp [Server.after, doWorkBody, exec_bind, h]

/-- An object never raises, and its request is served as planned. -/
theorem after_object (hg : srv.answers.greeting = true)
    (hl : srv.loads body = .value (.object o)) :
    (srv.after t body).1 = .ok () ∧
      Carries srv (plan srv o body) (Complete srv o) { tree := t } (srv.after t body).2 := by
  rw [Server.after, doWorkBody, exec_bind]
  simp only [exec_read, hg, hl, if_true]
  split
  next =>
    have hf : Carries srv (plan srv o body) (Complete srv o) { tree := t }
      (exec (serve o body) srv { tree := t }).2 := serve_carries
    rw [exec_tryCatch]
    rcases hx : exec (serve o body) srv { tree := t } with ⟨_ | _, s'⟩
    · rw [hx] at hf
      exact ⟨rfl, hf⟩
    · rw [hx] at hf
      exact ⟨rfl, hf⟩
  next hj =>
    rw [plan_of_no_job (by simpa using hj)]
    refine ⟨rfl, .stops ?_⟩
    simp [Complete, issueOf, hj]

/-- A message leaves no trace if and only if it is accepted, is no JSON, or there was nothing to
make before it failed. -/
theorem traceless_iff (srv : Server) (t : Tree Str Str) (body : Str) :
    Traceless srv t body ↔ Harmless srv t body := by
  unfold Traceless Harmless
  rcases hg : srv.answers.greeting with _ | _
  · simp [after_greeting hg]
  rcases hl : srv.loads body with j | _ | _
  · cases j with
    | object o =>
      obtain ⟨hok, htree, hlaunch, hrej⟩ := after_object (t := t) hg hl
      simp only [true_and, hok]
      by_cases ha : Accepted srv t o body
      · have hn := (hlaunch ha).2
        simp [ha, hn]
      · obtain ⟨h1, h2⟩ := hrej ha
        simp only [htree, h1, h2, ha, and_true, false_or, forall_true_left]
        exact applyAll_same_iff plan_apart
    | _ => simp [Server.after, doWorkBody, exec_bind, hg, hl]
  · simp [Server.after, doWorkBody, exec_bind, hg, hl]
  · simp [Server.after, doWorkBody, exec_bind, hg, hl]

end

/-- A request whose URL has no package. -/
def shortUrlBody : Str :=
  "\x7b\"job_id\": \"spbtest5_20230208\", \"client_id\": " ++
    "\"single_package_builder_github:3145:spbtest5\", \"bioc_version\": \"3.17\", " ++
    "\"svn_url\": \"https://github.com\"\x7d"

def shortUrl : Json :=
  .object [("job_id", .string "spbtest5_20230208"),
    ("client_id", .string "single_package_builder_github:3145:spbtest5"),
    ("bioc_version", .string "3.17"), ("svn_url", .string "https://github.com")]

/-- A node that reads the body `[]` and this one. -/
def freshServer : Server where
  spbHome := "/pkgbuild"
  absolute := rfl
  builderId := "nebbiolo1"
  loads body :=
    if body = "[]" then .value (.array [])
    else if body = shortUrlBody then .value shortUrl
    else .valueError

def freshTree : Tree Str Str := [(["pkgbuild"], .dir)]

/-- A body that is a list is an uncaught exception, and a short URL leaves three directories. -/
theorem badBodies_not_traceless :
    ¬ Traceless freshServer freshTree "[]" ∧ ¬ Traceless freshServer freshTree shortUrlBody := by
  constructor
  · rintro ⟨h, -⟩
    have he : (freshServer.after freshTree "[]").1 ≠ .ok () := by
      exact nofun
    exact he h
  · rintro ⟨-, h⟩
    have hl : (freshServer.after freshTree shortUrlBody).2.launched = [] := by decide +kernel
    have he : entry (freshServer.after freshTree shortUrlBody).2.tree
        ["pkgbuild", "jobs", "3145", "R-libs"] = some .dir := by
      decide +kernel
    rw [(h hl).1] at he
    cases he

end PackageBuilder
