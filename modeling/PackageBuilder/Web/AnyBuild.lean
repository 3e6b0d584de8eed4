import PackageBuilder.Builder.Protocol
import PackageBuilder.Web.FinishedBuild

/-! What the page shows of the source build, the check and the binary build of any run. -/
namespace PackageBuilder
open Text Effect

/-- What the page has `handleEvent` called with for one of these stages: with no `result_code`, any
end of a stage is an error. -/
def Status.painted : Status → Option (Badge × PageStage)
  | .buildComplete => some (.error, .build)
  | .checkCmd => some (.inProgress, .check)
  | .checkComplete => some (.error, .check)
  | .startingBuildbin => some (.inProgress, .buildbin)
  | .skipBuildbin => some (.skipped, .buildbin)
  | .buildbinComplete => some (.error, .buildbin)
  | _ => none

/-- What the badges of these stages tell at each ending, `none` where the node was never
announced. -/
def Ending.badge : Ending → PageStage → Option Badge
  | .wrongVersion, _ => none
  | .cloneFailed, stage | .dcfUnreadable, stage | .nameMismatch, stage | .buildFailed, stage
  | .nothingToCheck, stage => some (if stage = .build then .error else .skipped)
  | .cloneUnstarted, _ | .unsupportedPlatform, _ | .docker, _ | .typeUnknown, _ | .depsUnstarted, _
  | .cloneCheckUnstarted, _ | .installUnstarted, _ | .buildUnstarted, _ | .tarballMissing, _
  | .copyUnstarted, _ => some .inProgress
  | .checkFileKept, stage | .cloneCheckUnreadable, stage | .checkStopped, stage
  | .biocCheckUnstarted, stage =>
    some (if stage = .build then .error else if stage = .check then .inProgress else .skipped)
  | .binLibdirLeft, stage | .binStopped, stage | .binUnstarted, stage =>
    some (if stage = .buildbin then .inProgress else .error)
  | .binSkipped, stage => some (if stage = .buildbin then .skipped else .error)
  | .binBuilt, _ => some .error

variable {node : NodeName} {stage : PageStage} {m : Mark} {ms : List Mark} {xs : List Notice}
  {a : NodeName} {b : Badge}

theorem tells_of_status (hs : stage ≠ .postprocessing) :
    (m.notice node).tells node stage = m.status.painted.bind (implied · stage) := by
  have ht : (m.notice node).tells node stage =
      (m.notice node).verdict.bind (implied · stage) := if_pos rfl
  have hpost : ∀ b : Badge, implied (b, .postprocessing) stage = none := by
    intro b
    simp [implied, hs.symm, Page.skippedAfter]
  obtain ⟨status, retcode, warnings, summary⟩ := m
  rw [ht, Notice.verdict]
  cases status
  case postProcessing =>
    by_cases hr : retcode = some 0 <;>
      simp [Mark.notice, Status.topic, Status.painted, hr, hpost]
  case postProcessingComplete => exact hpost _
  all_goals rfl

/-- A mark of which only the status is known. -/
def Status.mark (x : Status) : Mark where
  status := x

/-- The last that statuses tell of a stage. -/
def lastPainted (stage : PageStage) (l : List Status) : Badge :=
  (l.filterMap fun x => x.painted.bind (implied · stage)).getLast?.getD .inProgress

theorem lastVerdict_statuses (hs : stage ≠ .postprocessing) (l : List Status) :
    lastVerdict node stage ((l.map Status.mark).map (Mark.notice node)) = lastPainted stage l := by
  rw [lastVerdict, lastPainted, List.map_map, List.filterMap_map]
  congr 2
  exact List.filterMap_congr fun x _ => tells_of_status hs

/-- For these stages, the statuses of the events are all that matters. -/
theorem badges_of_statuses {events : List Event} (hs : stage ≠ .postprocessing)
    (hx : Shows node events xs) : (Page.run xs).badges node stage =
      (Page.run (((events.map Event.status).map Status.mark).map (Mark.notice node))).badges
        node stage := by
  rw [badges_of_marks hx, List.map_map, List.map_map, List.map_map]
  refine badges_alike (fun e => rfl) fun e => ?_
  have hbare : (e.status.mark.notice node).tells node stage = _ := tells_of_status hs
  exact (tells_of_status hs).trans hbare.symm

theorem badges_of_later {later : List Status} (hs : stage ≠ .postprocessing) (hn : .nodeInfo ∉ later) :
    (Page.run (((.builderStarted :: .nodeInfo :: later).map Status.mark).map
      (Mark.notice node))).badges node stage =
        List.replicate (copies stage) [(lastPainted stage later).className] := by
  have hquiet : ∀ n ∈ later.map Status.mark, n.status ≠ .nodeInfo := by
    intro n hm
    obtain ⟨x, hx, rfl⟩ := List.mem_map.mp hm
    rintro rfl
    exact hn hx
  rw [← @lastVerdict_statuses node stage hs]
  exact badges_of_announced hquiet

/-- What the exit handler adds paints nothing. -/
theorem lastPainted_exits (stage : PageStage) (l : List Status) {l' : List Status}
    (hl : ∀ x ∈ l', x = .autoexit) : lastPainted stage (l ++ l') = lastPainted stage l := by
  have hnone : l'.filterMap (fun x => x.painted.bind (implied · stage)) = [] := by
    refine List.filterMap_eq_nil_iff.mpr fun x hx => ?_
    rw [hl x hx]
    rfl
  rw [lastPainted, List.filterMap_append, hnone, List.append_nil, lastPainted]

/-- A run that ends anywhere but before its first message announces its node once. -/
theorem ending_announced (e : Ending) (up : Bool) : e = .wrongVersion ∧ e.statuses up = [] ∨
    ∃ later, e.statuses up = .builderStarted :: .nodeInfo :: later ∧ .nodeInfo ∉ later ∧
      ∀ stage, stage ≠ .postprocessing → e.badge stage = some (lastPainted stage later) := by
  cases e
  case wrongVersion => exact .inl ⟨rfl, rfl⟩
  all_goals
    refine .inr ⟨_, rfl, ?_, ?_⟩
    · cases up <;> decide
    · intro stage hs
      cases up <;> cases stage <;> first | exact absurd rfl hs | decide

/-- What the page shows after a run without trouble is decided by where it ended. -/
theorem ending_shown (env : Env) (w : World) (cwd : List Str) (node : NodeName) (stage : PageStage)
    (xs : List Notice) (hw : w.Quiet) (hs : stage ≠ .postprocessing)
    (hx : Shows node (builderRun env w cwd).events xs) :
    (Page.run xs).badges node stage = ((ending env w.listdir cwd).badge stage).elim [] fun b =>
      List.replicate (copies stage) [b.className] := by
  obtain ⟨last, hstatuses, hlast⟩ : ∃ last, (builderRun env w cwd).events.map Event.status =
      (ending env w.listdir cwd).statuses (uploaded env) ++ last ∧ ∀ x ∈ last, x = .autoexit := by
    refine ⟨_, quiet_statuses hw, fun x hx => ?_⟩
    split at hx
    · exact List.mem_singleton.mp hx
    · cases hx
  rw [badges_of_statuses hs hx, hstatuses]
  rcases ending_announced (ending env w.listdir cwd) (uploaded env) with
    ⟨he, hnone⟩ | ⟨later, hl, hnew, hb⟩
  · rw [he] at hnone ⊢
    rw [hnone, List.nil_append, badges_run]
    have hquiet : announced node ((last.map Status.mark).map (Mark.notice node)) = [] := by
      clear hstatuses
      induction last with
      | nil => rfl
      | cons x l ih =>
        obtain ⟨rfl, hl⟩ := List.forall_mem_cons.mp hlast
        have hno : ¬ ((Status.autoexit.mark).notice node).announces node = true := by
          simp [Notice.announces, Mark.notice, Status.mark, Status.topic]
        rw [List.map_cons, List.map_cons, announced, if_neg hno]
        exact ih hl
    rw [hquiet]
    rfl
  · have hlater : .nodeInfo ∉ later ++ last := by
      rw [List.mem_append, not_or]
      exact ⟨hnew, fun hm => by cases hlast _ hm⟩
    rw [hl, hb stage hs, Option.elim_some, ← lastPainted_exits stage later hlast]
    exact badges_of_later hs hlater

theorem ending_shown_spbtest :
    (Page.run (noticesOf spbtestNode (builderRun spbtest {} []).events)).badges spbtestNode .check =
      ((ending spbtest {} []).badge .check).elim [] fun b =>
        List.replicate (copies .check) [b.className] :=
  ending_shown spbtest {} [] spbtestNode .check _ ⟨fun _ => rfl, rfl, fun _ => rfl, fun _ => rfl⟩
    (by decide) (shows_own (by decide +kernel))

/-- The badges of build, check and binary build, in the order a page can show them. -/
def pageRows : List (Badge × Badge × Badge) :=
  [(.inProgress, .inProgress, .inProgress), (.error, .skipped, .skipped),
    (.error, .inProgress, .skipped), (.error, .error, .skipped), (.error, .error, .inProgress),
    (.error, .error, .error)]

/-- What is in the statuses of an unfinished run. -/
theorem painted_rows (e : Ending) (up : Bool) : ∀ p ∈ (e.statuses up).inits,
    p = [] ∨ p = [.builderStarted] ∨
      p.take 2 = [.builderStarted, .nodeInfo] ∧ .nodeInfo ∉ p.drop 2 ∧
        (lastPainted .build (p.drop 2), lastPainted .check (p.drop 2),
          lastPainted .buildbin (p.drop 2)) ∈ pageRows := by
  cases e <;> cases up <;> decide

/-- The events of a run, as far as they have come. -/
theorem statuses_of_prefix {env : Env} {w : World} {cwd : List Str} {events : List Event}
    (hp : events <+: (builderRun env w cwd).events) : ∃ (e : Ending) (up : Bool) (p : List Status),
      p ∈ (e.statuses up).inits ∧
        (events.map Event.status = p ∨ events.map Event.status = p ++ [.autoexit]) := by
  obtain ⟨e, up, he⟩ := main_statuses env w cwd
  have hl : events.map Event.status <+: (exec main (env, w) { cwd }).2.statuses ++ [.autoexit] := by
    refine (hp.map Event.status).trans ?_
    rw [builderRun_events, List.map_append]
    refine (List.prefix_append_right_inj _).mpr ?_
    rcases lastEvents_cases env w cwd with h | h <;> rw [h]
    · exact List.nil_prefix
    · exact List.prefix_rfl
  rcases List.prefix_concat_iff.mp hl with hl | hl
  · exact ⟨e, up, _, (List.mem_inits _ _).mpr he, .inr hl⟩
  · exact ⟨e, up, _, (List.mem_inits _ _).mpr (hl.trans he), .inl rfl⟩

/-- Whatever happens to a run, and however much of it has come so far, the page has no badges of its
node or shows one of these rows, and none of them tells of a success. -/
theorem page_rows (env : Env) (w : World) (cwd : List Str) (node : NodeName) (xs : List Notice)
    (events : List Event) (hp : events <+: (builderRun env w cwd).events)
    (hx : Shows node events xs) :
    (∀ stage, stage ≠ .postprocessing → (Page.run xs).badges node stage = []) ∨
      ∃ row ∈ pageRows,
        (Page.run xs).badges node .build = [[row.1.className], [row.1.className]] ∧
        (Page.run xs).badges node .check = [[row.2.1.className]] ∧
        (Page.run xs).badges node .buildbin = [[row.2.2.className]] := by
  obtain ⟨e, up, p, hm, hl⟩ := statuses_of_prefix hp
  have hshown : ∀ stage, stage ≠ .postprocessing → (Page.run xs).badges node stage =
      (Page.run (((events.map Event.status).map Status.mark).map (Mark.notice node))).badges
        node stage := fun stage hs => badges_of_statuses hs hx
  rcases painted_rows e up p hm with rfl | rfl | ⟨ht, hn, hrow⟩
  · left
    intro stage hs
    rw [hshown stage hs]
    rcases hl with hl | hl <;> rw [hl, badges_run] <;> rfl
  · left
    intro stage hs
    rw [hshown stage hs]
    rcases hl with hl | hl <;> rw [hl, badges_run] <;> rfl
  · right
    obtain ⟨later, hlater, hnew, hlast⟩ : ∃ later, events.map Event.status =
        .builderStarted :: .nodeInfo :: later ∧ .nodeInfo ∉ later ∧
          ∀ stage, lastPainted stage later = lastPainted stage (p.drop 2) := by
      rcases hl with hl | hl
      · refine ⟨p.drop 2, ?_, hn, fun _ => rfl⟩
        rw [hl, ← List.take_append_drop 2 p, ht]
        rfl
      · refine ⟨p.drop 2 ++ [.autoexit], ?_, by simpa using hn, fun stage =>
          lastPainted_exits stage _ (by simp)⟩
        rw [hl, ← List.take_append_drop 2 p, ht]
        rfl
    have hbadges : ∀ stage, stage ≠ .postprocessing → (Page.run xs).badges node stage =
        List.replicate (copies stage) [(lastPainted stage (p.drop 2)).className] := by
      intro stage hs
      rw [hshown stage hs, hlater, badges_of_later hs hnew, hlast]
    exact ⟨_, hrow, hbadges .build (by decide), hbadges .check (by decide),
      hbadges .buildbin (by decide)⟩

/-- The eighth message of this run is never sent. -/
theorem page_rows_interrupted :
    let w : World := { raises := fun n => if n = 7 then some (.exception "OSError") else none }
    let xs := noticesOf spbtestNode (builderRun spbtest w []).events
    (∀ stage, stage ≠ .postprocessing → (Page.run xs).badges spbtestNode stage = []) ∨
      ∃ row ∈ pageRows,
        (Page.run xs).badges spbtestNode .build = [[row.1.className], [row.1.className]] ∧
        (Page.run xs).badges spbtestNode .check = [[row.2.1.className]] ∧
        (Page.run xs).badges spbtestNode .buildbin = [[row.2.2.className]] :=
  page_rows spbtest _ [] spbtestNode _ _ List.prefix_rfl (shows_own (by decide +kernel))

end PackageBuilder
