import PackageBuilder.Builder.Summary
import PackageBuilder.Web.Badges

/-! What the page shows of a build: it looks for a `result_code`, and builder.py sends a `retcode`. -/
namespace PackageBuilder
open Text Effect

/-- The case of the listener for a status. -/
def Status.topic : Status → Topic
  | .nodeInfo => .nodeInfo
  | .postProcessing => .postProcessing
  | .dcfInfo => .dcfInfo
  | .rCmd => .rCmd
  | .building => .building
  | .buildComplete => .buildComplete
  | .checkCmd => .checkCmd
  | .checkComplete => .checkComplete
  | .checking => .checking
  | .skipBuildbin => .skipBuildbin
  | .startingBuildbin => .startingBuildbin
  | .rBuildbinCmd => .rBuildbinCmd
  | .buildingbin => .buildingbin
  | .buildbinComplete => .buildbinComplete
  | .postProcessingComplete => .postProcessingComplete
  | .gotBuildRequest | .builderStarted | .gitCmd | .preprocessing | .gitResult | .unsupported
  | .startingCheck | .writeGitclone | .rCheck | .biocCheck | .normalEnd | .autoexit => .other

/-- What the page parses an event to, but for its time stamp. -/
def Event.received (node : NodeName) (e : Event) : Received where
  status := e.status.topic
  node := node
  body := e.body
  elapsedTime := e.elapsedTime
  retcode := e.retcode
  result := e.result
  warnings := e.warnings = some true
  filesize := e.filesize
  buildProduct := e.buildProduct
  os := e.os
  arch := e.arch
  rVersion := e.rVersion
  jobId := some e.jobId
  packageName := e.packageName
  version := e.version
  maintainer := e.maintainer

def Received.untimed (x : Received) : Received := { x with time := none }

/-- The messages of a node are these events. -/
def Shows (node : NodeName) (events : List Event) (xs : List Notice) : Prop :=
  (ofNode node xs).map (fun x => x.toReceived.untimed) = events.map (Event.received node)

/-- The messages that bring these events. -/
def noticesOf (node : NodeName) (events : List Event) : List Notice :=
  events.filterMap fun e =>
    if h : (e.received node).Plain then some { toReceived := e.received node, plain := h } else none

theorem shows_own {node : NodeName} {events : List Event}
    (h : ∀ e ∈ events, (e.received node).Plain) : Shows node events (noticesOf node events) := by
  have hown : ofNode node (noticesOf node events) = noticesOf node events := by
    refine List.filter_eq_self.mpr fun x hx => ?_
    obtain ⟨e, he, hn⟩ := List.mem_filterMap.mp hx
    rw [dif_pos (h e he)] at hn
    obtain rfl := Option.some.inj hn
    exact decide_eq_true rfl
  rw [Shows, hown, noticesOf, List.map_filterMap, List.filterMap_eq_map_iff_forall_eq_some]
  intro e he
  rw [dif_pos (h e he)]
  rfl

/-- What counts of a message for the badges. -/
def Received.bare (x : Received) : Notice where
  status := x.status
  node := x.node
  resultCode := x.resultCode
  retcode := x.retcode
  result := x.result
  warnings := x.warnings
  plain := .of_textless rfl rfl

/-- What counts of an event for the badges. -/
def Mark.notice (node : NodeName) (m : Mark) : Notice where
  status := m.status.topic
  node := node
  retcode := m.retcode
  plain := .of_textless rfl rfl

variable {node : NodeName} {stage : PageStage} {e : Event} {m : Mark} {x : Notice} {xs ys : List Notice}
  {ms ns : List Mark}

theorem tells_bare : x.untimed.bare.tells node stage = x.tells node stage := rfl

theorem announces_bare : x.untimed.bare.announces node = x.announces node := rfl

theorem tells_received :
    (e.received node).bare.tells node stage = (e.mark.notice node).tells node stage := by
  have hv : (e.received node).bare.verdict = (e.mark.notice node).verdict := by
    obtain ⟨status⟩ := e
    cases status <;> rfl
  rw [Notice.tells, Notice.tells, hv]
  rfl

/-- What the badges tell depends on the marks of the events alone. -/
theorem badges_of_marks {events : List Event} (h : Shows node events xs) :
    (Page.run xs).badges node stage =
      (Page.run ((events.map Event.mark).map (Mark.notice node))).badges node stage := by
  have hbare : (Page.run ((ofNode node xs).map fun x => x.toReceived.untimed.bare)).badges node stage =
      (Page.run ((ofNode node xs).map id)).badges node stage :=
    badges_alike (fun _ => announces_bare) fun _ => tells_bare
  have hsplit : ((ofNode node xs).map fun x => x.toReceived.untimed.bare) =
      ((ofNode node xs).map fun x => x.toReceived.untimed).map Received.bare := by
    rw [List.map_map]
    rfl
  rw [← badges_ofNode, ← List.map_id (ofNode node xs), ← hbare, hsplit, h, List.map_map,
    List.map_map]
  exact badges_alike (fun _ => rfl) fun _ => tells_received

/-- The statuses that can say something of a stage. -/
def speakers : PageStage → List Status
  | .build => [.buildComplete]
  | .check => [.buildComplete, .checkCmd, .checkComplete]
  | .buildbin => [.buildComplete, .startingBuildbin, .skipBuildbin, .buildbinComplete]
  | .postprocessing => [.postProcessing, .postProcessingComplete, .buildComplete, .checkComplete,
      .buildbinComplete]

theorem tells_of_silent (h : m.status ∉ speakers stage) : (m.notice node).tells node stage = none := by
  have hs : (m.notice node).tells node stage =
      (m.notice node).verdict.bind (implied · stage) := if_pos rfl
  obtain ⟨status, retcode, warnings, summary⟩ := m
  replace h : status ∉ speakers stage := h
  rw [hs, Notice.verdict]
  by_cases hr : retcode = some 0 <;> cases stage <;> cases status <;>
    first
    | exact (h (by decide)).elim
    | rfl
    | simp [Mark.notice, Status.topic, hr, implied, Page.skippedAfter]

theorem lastVerdict_of_last {b : Badge} (hx : x.tells node stage = some b)
    (h : ∀ y ∈ ys, y.tells node stage = none) : lastVerdict node stage (xs ++ x :: ys) = b := by
  have hnone : ys.filterMap (·.tells node stage) = [] := List.filterMap_eq_nil_iff.mpr h
  have hcons : (x :: ys).filterMap (·.tells node stage) = [b] := by
    rw [List.filterMap_cons, hx, hnone]
  rw [lastVerdict, List.filterMap_append, hcons, List.getLast?_concat, Option.getD_some]

/-- The badges after an announcement and these marks. -/
theorem badges_of_announced (hn : ∀ n ∈ ms, n.status ≠ .nodeInfo) :
    (Page.run (({ status := .builderStarted } :: { status := .nodeInfo } :: ms).map
      (Mark.notice node))).badges node stage =
        List.replicate (copies stage) [(lastVerdict node stage (ms.map (Mark.notice node))).className] := by
  have hquiet : announced node (ms.map (Mark.notice node)) = [] := by
    induction ms with
    | nil => rfl
    | cons n l ih =>
      obtain ⟨hn, hl⟩ := List.forall_mem_cons.mp hn
      have hno : ¬ (n.notice node).announces node = true := by
        have ht : n.status.topic ≠ .nodeInfo := by
          intro ht
          refine hn ?_
          revert ht
          rcases n.status <;> decide
        simp [Notice.announces, Mark.notice, ht]
      rw [List.map_cons, announced, if_neg hno]
      exact ih hl
  have hstart : ¬ (Mark.notice node { status := .builderStarted }).announces node = true := by
    simp [Notice.announces, Mark.notice, Status.topic]
  have hinfo : (Mark.notice node { status := .nodeInfo }).announces node = true := by
    simp [Notice.announces, Mark.notice, Status.topic]
  rw [badges_run, List.map_cons, announced, if_neg hstart, List.map_cons, announced, if_pos hinfo,
    hquiet, List.flatMap_cons]
  exact List.append_nil _

theorem badges_of_last {b : Badge} (hm : (m.notice node).tells node stage = some b)
    (hn : ∀ n ∈ ms ++ m :: ns, n.status ≠ .nodeInfo)
    (hs : ∀ n ∈ ns, n.status ∉ speakers stage) :
    (Page.run (({ status := .builderStarted } :: { status := .nodeInfo } :: (ms ++ m :: ns)).map
      (Mark.notice node))).badges node stage = List.replicate (copies stage) [b.className] := by
  have hlast : lastVerdict node stage ((ms ++ m :: ns).map (Mark.notice node)) = b := by
    rw [List.map_append, List.map_cons]
    refine lastVerdict_of_last hm ?_
    intro y hy
    obtain ⟨n, hn', rfl⟩ := List.mem_map.mp hy
    exact tells_of_silent (hs n hn')
  rw [badges_of_announced hn, hlast]

section
variable (env : Env) (long : Bool) (views tarball : Str)

/-- From the announcement up to the end of the source build. -/
def installed : List Mark :=
  { status := .gitCmd } :: { status := .preprocessing, retcode := some 0 } :: (clonedMarks ++
    { status := .dcfInfo } :: { status := .postProcessing, retcode := some 0 } ::
      (installMarks env ++ compileMarks env ++
        (if retcodeOf env long true = 0 then uploadMarks env else []) ++ [{ status := .building }]))

def buildMark : Mark where
  status := .buildComplete
  retcode := some (retcodeOf env long true)
  warnings := some (warnsOf env long true)

def openedCheck : List Mark :=
  { status := .startingCheck } :: (openCheckMarks ++ [{ status := .rCheck }, { status := .biocCheck }])

def checkMark : Mark where
  status := .checkComplete
  retcode := some (verdict env long views)
  warnings := some (checkWarnsOf env long views tarball)

def closedCheck : List Mark :=
  [{ status := .checking }, { status := .postProcessing, retcode := some (verdict env long views) }]

def doneMark : Mark where
  status := .postProcessingComplete
  retcode := some 0

/-- Everything from the announcement of the node on. -/
def shownMarks (rest : List Mark) : List Mark :=
  installed env long ++ buildMark env long :: (openedCheck ++
    checkMark env long views tarball :: (closedCheck env long views ++
      (binFront env long ++ doneMark :: rest)))

theorem frontMarks_eq (rest : List Mark) : frontMarks env long views tarball ++ rest =
    { status := .builderStarted } :: { status := .nodeInfo } ::
      shownMarks env long views tarball rest := by
  simp [frontMarks, startMarks, shownMarks, installed, builtMarks, buildMark, openedCheck,
    checkedMarks, checkMark, closedCheck, doneMark]

end

/-- Everything a finished run tells, with what follows its `normal_end`. -/
theorem finished_marks {env : Env} {w : World} {cwd : List Str}
    (h : .normalEnd ∈ (builderRun env w cwd).statuses) :
    ∃ long views tarball rest, (∀ m ∈ rest, m.status = .normalEnd ∨ m.status = .autoexit) ∧
      (builderRun env w cwd).events.map Event.mark = frontMarks env long views tarball ++ rest := by
  have hr := builderRun_events env w cwd
  have hm : .normalEnd ∈ (exec main (env, w) { cwd }).2.statuses := by
    rw [St.statuses, hr, List.map_append, List.mem_append] at h
    refine h.resolve_right fun hx => ?_
    obtain ⟨e, he, hs⟩ := List.mem_map.mp hx
    exact absurd ((lastEvents_status e he).symm.trans hs) (by decide)
  obtain ⟨hn, he⟩ := main_normal hm
  obtain ⟨long, views, tarball, -, -, hs⟩ := script_normal hn
  refine ⟨long, views, tarball, _, ?_, by
    rw [hr, List.map_append, he, main_marks, hs, List.append_assoc]⟩
  intro m hm
  rcases List.mem_append.mp hm with hm | hm
  · obtain rfl := List.mem_singleton.mp hm
    exact .inl rfl
  · obtain ⟨e, he, rfl⟩ := List.mem_map.mp hm
    exact .inr (lastEvents_status e he)

theorem statuses_of_finished (env : Env) (long : Bool) (views : Str) {rest : List Mark}
    (hrest : ∀ m ∈ rest, m.status = .normalEnd ∨ m.status = .autoexit) :
    (∀ m ∈ installed env long, m.status ≠ .nodeInfo) ∧
    (∀ m ∈ openedCheck, m.status ≠ .nodeInfo ∧ m.status ∉ speakers .build) ∧
    (∀ m ∈ closedCheck env long views, m.status ≠ .nodeInfo ∧ m.status ∉ speakers .build ∧
      m.status ∉ speakers .check) ∧
    (∀ m ∈ binFront env long, m.status ≠ .nodeInfo ∧ m.status ∉ speakers .build ∧
      m.status ∉ speakers .check) ∧
    ∀ m ∈ rest, m.status ≠ .nodeInfo ∧ ∀ stage, m.status ∉ speakers stage := by
  refine ⟨?_, ?_, ?_, ?_, ?_⟩
  · intro m hm
    have hs := List.mem_map_of_mem (f := Mark.status) hm
    intro he
    rw [he, installed] at hs
    split_ifs at hs <;>
      exact absurd hs (by
        simp [clonedMarks, installMarks, reportMarks, toldMarks, compileMarks, uploadMarks])
  · decide
  · simp [closedCheck, speakers]
  · unfold binFront
    split_ifs <;> simp [binBuiltMarks, speakers]
  · intro m hm
    rcases hrest m hm with h | h <;> rw [h]
    · exact ⟨by decide, fun stage => by cases stage <;> decide⟩
    · exact ⟨by decide, fun stage => by cases stage <;> decide⟩

/-- The last mark of the binary build. -/
theorem binFront_last (env : Env) (long : Bool) (node : NodeName) : ∃ front last,
    binFront env long = front ++ [last] ∧ (Mark.notice node last).tells node .buildbin =
      some (if env.nodeSpec.pkgType = "source" then .skipped else .error) := by
  unfold binFront
  split_ifs
  · exact ⟨[], _, rfl, if_pos rfl⟩
  · exact ⟨[_, _, _, _, _], _, rfl, if_pos rfl⟩

/-- However the messages of other nodes mix with those of a run that ends normally, the page shows
errors of its build and check, and of its binary build unless that was skipped. -/
theorem finished_build_shown (env : Env) (w : World) (cwd : List Str) (node : NodeName)
    (xs : List Notice) (h : .normalEnd ∈ (builderRun env w cwd).statuses)
    (hx : Shows node (builderRun env w cwd).events xs) :
    (Page.run xs).badges node .build = [[Badge.error.className], [Badge.error.className]] ∧
      (Page.run xs).badges node .check = [[Badge.error.className]] ∧
      (Page.run xs).badges node .buildbin = [[Badge.className
        (if env.nodeSpec.pkgType = "source" then .skipped else .error)]] ∧
      (Page.run xs).badges node .postprocessing = [[Badge.ok.className]] := by
  obtain ⟨long, views, tarball, rest, hrest, hmarks⟩ := finished_marks h
  obtain ⟨hinst, hopen, hclosed, hbin, htail⟩ :=
    statuses_of_finished env long views hrest
  obtain ⟨front, last, hlast, htells⟩ := binFront_last env long node
  have hbuild : ((buildMark env long).notice node).tells node .build = some .error := if_pos rfl
  have hcheck : ((checkMark env long views tarball).notice node).tells node .check = some .error :=
    if_pos rfl
  have hpost : (doneMark.notice node).tells node .postprocessing = some .ok := if_pos rfl
  have hnew : ∀ n ∈ shownMarks env long views tarball rest, n.status ≠ .nodeInfo := by
    simp only [shownMarks, List.forall_mem_append, List.forall_mem_cons]
    exact ⟨hinst, by simp [buildMark], fun n hn => (hopen n hn).1, by simp [checkMark],
      fun n hn => (hclosed n hn).1, fun n hn => (hbin n hn).1, by simp [doneMark],
      fun n hn => (htail n hn).1⟩
  rw [frontMarks_eq] at hmarks
  have hgo : ∀ {stage : PageStage} (ms ns : List Mark) {m : Mark} {b : Badge},
      shownMarks env long views tarball rest = ms ++ m :: ns →
      (m.notice node).tells node stage = some b → (∀ n ∈ ns, n.status ∉ speakers stage) →
      (Page.run xs).badges node stage = List.replicate (copies stage) [b.className] := by
    intro stage ms ns m b he hm hs
    rw [he] at hnew
    rw [badges_of_marks hx, hmarks, he]
    exact badges_of_last hm hnew hs
  refine ⟨?_, ?_, ?_, ?_⟩
  · refine hgo _ _ rfl hbuild ?_
    simp only [List.forall_mem_append, List.forall_mem_cons]
    exact ⟨fun n hn => (hopen n hn).2, by simp [checkMark, speakers],
      fun n hn => (hclosed n hn).2.1, fun n hn => (hbin n hn).2.1, by simp [doneMark, speakers],
      fun n hn => (htail n hn).2 _⟩
  · refine hgo (installed env long ++ buildMark env long :: openedCheck)
      (closedCheck env long views ++ (binFront env long ++ doneMark :: rest))
      (by simp [shownMarks]) hcheck ?_
    simp only [List.forall_mem_append, List.forall_mem_cons]
    exact ⟨fun n hn => (hclosed n hn).2.2, fun n hn => (hbin n hn).2.2, by simp [doneMark, speakers],
      fun n hn => (htail n hn).2 _⟩
  · refine hgo (installed env long ++ buildMark env long :: (openedCheck ++
      checkMark env long views tarball :: (closedCheck env long views ++ front)))
      (doneMark :: rest) (by simp [shownMarks, hlast]) htells ?_
    simp only [List.forall_mem_cons]
    exact ⟨by simp [doneMark, speakers], fun n hn => (htail n hn).2 _⟩
  · exact hgo (installed env long ++ buildMark env long :: (openedCheck ++
      checkMark env long views tarball :: (closedCheck env long views ++ binFront env long)))
      rest (by simp [shownMarks]) hpost fun n hn => (htail n hn).2 _

/-- The node of the package that the tests of the builder build. -/
def spbtestNode : NodeName where
  text := "nebbiolo1"
  plain := by simp [ofString]
  noTemplate := by decide +kernel

theorem spbtest_shown :
    let xs := noticesOf spbtestNode (builderRun spbtest {} []).events
    (Page.run xs).badges spbtestNode .build = [[Badge.error.className], [Badge.error.className]] ∧
      (Page.run xs).badges spbtestNode .check = [[Badge.error.className]] ∧
      (Page.run xs).badges spbtestNode .buildbin = [[Badge.className
        (if spbtest.nodeSpec.pkgType = "source" then .skipped else .error)]] ∧
      (Page.run xs).badges spbtestNode .postprocessing = [[Badge.ok.className]] := by
  intro xs
  exact finished_build_shown spbtest {} [] spbtestNode xs (by decide +kernel)
    (shows_own (by decide +kernel))

end PackageBuilder
