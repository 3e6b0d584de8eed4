import PackageBuilder.Builder.Endings
import PackageBuilder.Builder.Run
import PackageBuilder.Library.Trace

/-! The protocol of the event stream that its consumers rely on. -/
namespace PackageBuilder
open Text Effect Trace

variable {env : Env} {w : World} {s s' : St} {d : List Str}

theorem fetched (h : exec fetchPackage (env, w.calm) s = (.ok (), s')) :
    env.manifest.biocVersion = some env.biocVersion ∧ Cloned env ∧
      s'.view.marks = s.view.marks ++ (startMarks ++ clonedMarks) := by
  by_cases hv : env.manifest.biocVersion = some env.biocVersion
  · by_cases hc : Cloned env
    · have hd := (fetchPackage_does (w := w) (s := s) hv hc).2
      rw [h] at hd
      exact ⟨hv, hc, congrArg View.marks hd⟩
    · obtain ⟨e, v, hd, -⟩ := fetchPackage_stops (w := w) (s := s) hv hc
      rw [Does, Yields, h] at hd
      cases hd.1
  · obtain ⟨e, v, hd, -⟩ := (checkVersion_stops (w := w) (s := s) hv).bind (k := fun _ => do
      sendMessage { status := .builderStarted }
      getNodeInfo
      gitClone)
    have hd : Does fetchPackage env w s (.error e) v := hd
    rw [Does, Yields, h] at hd
    cases hd.1

/-- The reading of a readable DESCRIPTION: one message, and the name. -/
theorem readDcfInfo_readable (h : dcfName env ≠ none) : ∃ msg name, msg.status = .dcfInfo ∧
    ∀ w s, exec readDcfInfo (env, w) s =
      exec (sendMessage msg >>= fun _ => interrupted >>= fun _ => pure name) (env, w) s := by
  rcases hn : env.description with e | d
  · simp [dcfName, hn] at h
  rcases hp : d.get? "Package" with _ | package <;> rcases hv : d.get? "Version" with _ | version <;>
    simp [dcfName, hn, hp, hv] at h
  refine ⟨{
    status := .dcfInfo
    packageName := some package
    maintainer := some ((d.get? "Maintainer").getD "unknown")
    version := some version }, package, rfl, fun w s => ?_⟩
  simp [readDcfInfo, parseDcf, sendDcfInfo, lookupKey, exec_bind, hn, hp, hv]

/-- Why the reading failed: `dcf_info` was not accepted, or an exception followed it. -/
theorem Blames.cases (h : Blames env w s s') :
    s' = (s.onUrl env.manifest.svnUrl).tried ∧ ¬ ((s.exiting = true ∨ w.raises s.sends = none) ∧
        (w.broker s.sends).accepted = true) ∨
      (∃ e, e.status = .dcfInfo ∧ s' = (s.onUrl env.manifest.svnUrl).sent env e) ∧
        w.raisesInDcf ≠ none := by
  obtain ⟨hd, e, he⟩ := h
  obtain ⟨msg, name, hm, hr⟩ := readDcfInfo_readable hd
  rw [hr, exec_bind] at he
  rcases exec_sendMessage msg env w (s.onUrl env.manifest.svnUrl) with ⟨hs, hb⟩ | ⟨⟨e', hs⟩, hb⟩
  · right
    rw [hs] at he
    rcases hi : w.raisesInDcf with _ | e'
    · simp [exec_interrupted, hi] at he
    · simp [exec_interrupted, hi] at he
      exact ⟨⟨msg, hm, he.2.symm⟩, by simp⟩
  · left
    rw [hs] at he
    exact ⟨(Prod.mk.inj he).2.symm, hb⟩

/-- The statuses a run has sent. -/
def St.statuses (s : St) : List Status := s.events.map Event.status

theorem view_statuses (s : St) : s.view.marks.map Mark.status = s.statuses := by
  simp [St.view, St.statuses, Event.mark]

theorem dcfUnreadable_statuses (env : Env) (w : World) (s : St) :
    (exec dcfUnreadable (env, w) s).2.statuses <+: s.statuses ++ failStatuses := by
  have hc : (exec dcfUnreadable (env, w.calm) s).2.statuses = s.statuses ++ failStatuses := by
    have hd : Does dcfUnreadable env w s (.error (.systemExit "Exiting get_dcf_info check failed"))
        (s.view.say (failMarks 1)) := (reportDcfFailure_does _).bind fun _ hs => ⟨rfl, hs⟩
    rw [← view_statuses, hd.2, ← view_statuses s]
    simp [View.say, failMarks, failStatuses]
  rw [← hc]
  rcases (cutShort dcfUnreadable).short (env, w) s with h | ⟨-, h⟩
  · rw [h]
    exact List.prefix_rfl
  · exact h.map Event.status

/-- Where the reading failed, the run says that it could not open the file. -/
theorem blamed_statuses {s₁ s₂ : St} (hf : exec fetchPackage (env, w.calm) { cwd := d } = (.ok (), s₁))
    (hb : Blames env w s₁ s₂) : ∃ e : Ending, (e = .dcfUnreadable ∨ e = .nameMismatch) ∧
      (exec dcfUnreadable (env, w) s₂).2.statuses <+: e.statuses false := by
  have h₁ : s₁.statuses = fetchStatuses ++ [.postProcessing, .gitResult] := by
    rw [← view_statuses, (fetched hf).2.2]
    rfl
  rcases hb.cases with ⟨h₂, -⟩ | ⟨⟨e, he, h₂⟩, -⟩
  · have hs : s₂.statuses = s₁.statuses := by rw [h₂]; rfl
    refine ⟨.dcfUnreadable, .inl rfl, ?_⟩
    rw [Ending.statuses, ← h₁, ← hs]
    exact dcfUnreadable_statuses env w s₂
  · have hs : s₂.statuses = s₁.statuses ++ [.dcfInfo] := by
      rw [h₂]
      simp [St.statuses, Event.stamp, he]
    have hr : readStatuses = s₂.statuses := by rw [hs, h₁]; rfl
    refine ⟨.nameMismatch, .inr rfl, ?_⟩
    rw [Ending.statuses, hr]
    exact dcfUnreadable_statuses env w s₂

theorem calm_statuses (env : Env) (w : World) (cwd : List Str) :
    (exec main (env, w.calm) { cwd }).2.statuses = (ending env w.listdir cwd).statuses (uploaded env) := by
  rw [← script_statuses, ← main_marks, List.map_map]
  rfl

/-- In any world, a run sends a prefix of what some ending of a calm run sends. -/
theorem main_statuses (env : Env) (w : World) (cwd : List Str) :
    ∃ (e : Ending) (up : Bool), (exec main (env, w) { cwd }).2.statuses <+: e.statuses up := by
  rcases main_cases env w { cwd } with h | ⟨s₁, s₂, h, hf, hb⟩
  · refine ⟨ending env w.listdir cwd, uploaded env, ?_⟩
    rw [← calm_statuses env w]
    rcases h with h | ⟨-, h⟩
    · rw [h]
    · exact h.map Event.status
  · obtain ⟨e, -, he⟩ := blamed_statuses hf hb
    rw [← main_blamed h hb] at he
    exact ⟨e, false, he⟩

def checkEvents : List Status :=
  [.startingCheck, .checkCmd, .rCheck, .biocCheck, .checkComplete, .checking]

def binEvents : List Status :=
  [.skipBuildbin, .startingBuildbin, .rBuildbinCmd, .buildingbin, .buildbinComplete]

def endEvents : List Status := [.postProcessingComplete, .normalEnd]

/-- What a stream keeps to until its `autoexit`. -/
structure Orderly (l : List Status) : Prop where
  running : .autoexit ∉ l
  closed : Always (fun past x => x = .preprocessing →
    .preprocessing ∉ past.rtakeWhile (· ≠ .postProcessing)) l
  built : Always (fun past x => x ∈ checkEvents → .buildComplete ∈ past) l
  checked : Always (fun past x => x ∈ binEvents → .checkComplete ∈ past) l
  once : Always (fun past x => x ∈ endEvents → x ∉ past) l
  finished : Always (fun past x => x ∈ endEvents → .checkComplete ∈ past) l
  binDone : Always (fun past x => x ∈ endEvents →
    .skipBuildbin ∈ past ∨ .buildbinComplete ∈ past) l
  ended : Always (fun past x => x = .normalEnd → .postProcessingComplete ∈ past) l

theorem ending_orderly (e : Ending) (up : Bool) : Orderly (e.statuses up) where
  running := by cases e <;> cases up <;> decide
  closed := by cases e <;> cases up <;> decide
  built := by cases e <;> cases up <;> decide
  checked := by cases e <;> cases up <;> decide
  once := by cases e <;> cases up <;> decide
  finished := by cases e <;> cases up <;> decide
  binDone := by cases e <;> cases up <;> decide
  ended := by cases e <;> cases up <;> decide

theorem Orderly.shorten {l l' : List Status} (h : Orderly l) (hp : l' <+: l) : Orderly l' where
  running := fun hx => h.running (hp.subset hx)
  closed := h.closed.shorten hp
  built := h.built.shorten hp
  checked := h.checked.shorten hp
  once := h.once.shorten hp
  finished := h.finished.shorten hp
  binDone := h.binDone.shorten hp
  ended := h.ended.shorten hp

/-- The protocol of a whole stream. -/
structure Protocol (l : List Status) : Prop where
  autoexit_last : ∃ p, l = p ++ [.autoexit] ∧ .autoexit ∉ p
  closed : ∀ p q r, l = p ++ .preprocessing :: (q ++ .preprocessing :: r) → .postProcessing ∈ q
  built : Always (fun past x => x ∈ checkEvents → .buildComplete ∈ past) l
  checked : Always (fun past x => x ∈ binEvents → .checkComplete ∈ past) l
  once : ∀ x ∈ endEvents, l.count x ≤ 1
  finished : Always (fun past x => x ∈ endEvents →
    .checkComplete ∈ past ∧ (.skipBuildbin ∈ past ∨ .buildbinComplete ∈ past)) l
  ended : Always (fun past x => x = .normalEnd → .postProcessingComplete ∈ past) l

/-- An orderly stream and its `autoexit` keep the protocol. -/
theorem Orderly.protocol {l : List Status} (h : Orderly l) : Protocol (l ++ [.autoexit]) where
  autoexit_last := ⟨l, rfl, h.running⟩
  closed p q r hl := by
    have hc : Always (fun past x => x = .preprocessing →
        .preprocessing ∉ past.rtakeWhile (· ≠ .postProcessing)) (l ++ [.autoexit]) :=
      always_append_singleton.mpr ⟨h.closed, nofun⟩
    exact hc.between (by decide) hl
  built := always_append_singleton.mpr ⟨h.built, fun hx => absurd hx (by decide)⟩
  checked := always_append_singleton.mpr ⟨h.checked, fun hx => absurd hx (by decide)⟩
  once x hx := by
    have ho : Always (fun past x => x ∈ endEvents → x ∉ past) (l ++ [.autoexit]) :=
      always_append_singleton.mpr ⟨h.once, fun hx => absurd hx (by decide)⟩
    exact ho.count_le_one hx
  finished := by
    refine always_append_singleton.mpr ⟨fun p x q hl hx => ?_, fun hx => absurd hx (by decide)⟩
    exact ⟨h.finished p x q hl hx, h.binDone p x q hl hx⟩
  ended := always_append_singleton.mpr ⟨h.ended, nofun⟩

theorem Protocol.autoexit_mem {l : List Status} (h : Protocol l) : .autoexit ∈ l := by
  obtain ⟨p, rfl, -⟩ := h.autoexit_last
  simp

theorem accepted_statuses {cwd : List Str} (hb : ∀ n, (w.broker n).accepted = true) :
    (builderRun env w cwd).statuses = (exec main (env, w) { cwd }).2.statuses ++
      if cleanUpReturns env w (exec main (env, w) { cwd }).2 then [.autoexit] else [] := by
  rw [St.statuses, builderRun_events, lastEvents, hb, Bool.and_true, List.map_append]
  split <;> rfl

/-- In a quiet world a run sends what its ending says. -/
theorem quiet_statuses {cwd : List Str} (hw : w.Quiet) :
    (builderRun env w cwd).statuses = (ending env w.listdir cwd).statuses (uploaded env) ++
      if cleanUpReturns env w (exec main (env, w) { cwd }).2 then [.autoexit] else [] := by
  rw [accepted_statuses hw.broker, main_quiet hw, calm_statuses]

/-- As long as the broker accepts it and the exit handler can delete, the stream of a run keeps the
protocol exactly if the working directory is still there for the exit handler to list. -/
theorem stream_protocol_iff (env : Env) (w : World) (cwd : List Str)
    (hb : ∀ n, (w.broker n).accepted = true)
    (hd : DeletionsSucceed env w (exec main (env, w) { cwd }).2) :
    Protocol (builderRun env w cwd).statuses ↔
      w.gone (exec main (env, w) { cwd }).2.listings = false := by
  obtain ⟨e, up, hp⟩ := main_statuses env w cwd
  have ho : Orderly (exec main (env, w) { cwd }).2.statuses := (ending_orderly e up).shorten hp
  rw [← cleanUpReturns_iff hd, accepted_statuses hb]
  constructor
  · intro h
    by_contra hc
    rw [if_neg hc, List.append_nil] at h
    exact ho.running h.autoexit_mem
  · intro hc
    rw [if_pos hc]
    exact ho.protocol

theorem stream_protocol_interrupted :
    let w : World := { raises := fun n => if n = 12 then some (.exception "OSError") else none }
    Protocol (builderRun spbtest w []).statuses ↔
      w.gone (exec main (spbtest, w) { cwd := [] }).2.listings = false :=
  stream_protocol_iff spbtest _ [] (fun _ => rfl) (deletionsSucceed_of_files (fun _ h => by cases h) _ _)

/-- The directory of the issue is removed while the package is checked. -/
theorem removed_no_autoexit : ¬ Protocol
    (builderRun spbtest { gone := fun n => decide (2 ≤ n) } []).statuses := by
  have h : Status.autoexit ∉ (builderRun spbtest { gone := fun n => decide (2 ≤ n) } []).statuses := by
    decide +kernel
  exact fun hp => h hp.autoexit_mem

end PackageBuilder
