import PackageBuilder.Builder.Verdict
import PackageBuilder.Builder.Platform
import PackageBuilder.Duration

/-! What `build_package(True)` returns and reports, and when the check follows. -/
namespace PackageBuilder
open Text Effect

/-- R CMD build exits with 0, prints no error and stays below the limit. -/
def BuildSucceeds (env : Env) (long : Bool) : Prop :=
  env.build.status = 0 ∧ hasLine "ERROR:" env.build.output.text = false ∧
    env.build.elapsed < timeoutLimit env long * 1000000

/-- The end of `main`, from the source build on. -/
def buildThenCheck : Builder Unit := do
  let result ← buildPackage true
  if result = 0 then
    checkAndFinish

/-- If the build returns, its return code, its event and the start of the check all say whether
it succeeded. -/
def GateTold (env : Env) (w : World) (s : St) : Prop :=
  ∀ r s', exec (buildPackage true) (env, w) s = (.ok r, s') →
    (r = 0 ↔ BuildSucceeds env s.longBuild) ∧
    (∃ news e, s'.events = s.events ++ news ∧ news.filter (·.status = .buildComplete) = [e] ∧
      (e.retcode = some 0 ↔ BuildSucceeds env s.longBuild)) ∧
    ∃ more, (exec buildThenCheck (env, w) s).2.events = s'.events ++ more ∧
      (.startingCheck ∈ more.map Event.status ↔ BuildSucceeds env s.longBuild)

/-- When the gate tells of a build that can be started: no death by the signals 4 and 6 passes for
a success, and no day of the elapsed time goes missing. -/
structure GateHolds (env : Env) (o : Listing) (s : St) : Prop where
  signal : Startable env "R.out" (buildCmd env) s.cwd →
    hasLine "ERROR:" env.build.output.text = false →
    seconds env.build.elapsed < timeoutLimit env s.longBuild →
    env.build.status ≠ -4 ∧ env.build.status ≠ -6
  days : Startable env "R.out" (buildCmd env) s.cwd →
    hasLine "ERROR:" env.build.output.text = false →
    seconds env.build.elapsed < timeoutLimit env s.longBuild → env.build.status = 0 →
    Copied env o s.listings (dirBuilt env s.cwd) →
    env.build.elapsed < timeoutLimit env s.longBuild * 1000000

section
variable {env : Env} {w : World} {s : St}

theorem hasLine_iff {mark out : Str} (hn : '\n' ∉ mark) :
    hasLine mark out = true ↔ mark <:+: out := by
  rw [← exists_line_iff hn, hasLine, List.any_eq_true]
  simp

/-- The note about a timeout is no error line. -/
theorem timeoutNote_no_error (retcode : Int) (secs : Nat) :
    ¬ ("ERROR:" : Str) <:+: timeoutNote "R CMD build" retcode secs " mins" := by
  rw [timeoutNote]
  split
  · have hrest : ¬ ("ERROR:" : Str) <:+:
        "R CMD build exceeded " ++ natStr (secs / 60) ++ " mins\n\n\n" := by
      intro h
      have ho : 'O' ∉ natStr (secs / 60) := not_mem_natStr rfl
      have hmem := h.subset (show 'O' ∈ ("ERROR:" : Str) by decide)
      simp [ofString, ho] at hmem
    have ht : (" ERROR\nTIMEOUT: " ++ "R CMD build" ++ " exceeded " ++ natStr (secs / 60) ++
        " mins" ++ "\n\n\n" : Str) = (" ERROR" : Str) ++ '\n' :: (("TIMEOUT:" : Str) ++
          ' ' :: ("R CMD build exceeded " ++ natStr (secs / 60) ++ " mins\n\n\n")) := by
      simp [ofString]
    rw [ht, infix_append_cons (by decide), infix_append_cons (by decide)]
    rintro (h | h | h)
    · revert h
      decide
    · revert h
      decide
    · exact hrest h
  · decide

theorem timeoutNote_cases (what : Str) (retcode : Int) (secs : Nat) (unit : Str) :
    timeoutNote what retcode secs unit = [] ∨
      ∃ rest, timeoutNote what retcode secs unit = ' ' :: rest := by
  rw [timeoutNote]
  split
  · exact .inr ⟨_, rfl⟩
  · exact .inl rfl

theorem banner_error (t : Str) :
    ("ERROR:" : Str) <:+: banner "R CMD BUILD" ++ t ↔ ("ERROR:" : Str) <:+: t := by
  have hb : banner "R CMD BUILD" ++ t =
      (banner "R CMD BUILD").dropLast ++ '\n' :: t := by
    simp [banner, ofString]
  have hn : ¬ ("ERROR:" : Str) <:+: (banner "R CMD BUILD").dropLast := by decide +kernel
  rw [hb, infix_append_cons (by decide)]
  simp [hn]

/-- Neither the banner nor the note adds an error line to the output. -/
theorem outputOf_error {long : Bool} : hasLine "ERROR:" (outputOf env long true) =
    hasLine "ERROR:" env.build.output.text := by
  have hnote := timeoutNote_no_error env.build.status (timeoutLimit env long)
  rw [Bool.eq_iff_iff, hasLine_iff (by decide), hasLine_iff (by decide), outputOf, buildText,
    List.append_assoc, banner_error]
  rcases timeoutNote_cases "R CMD build" env.build.status (timeoutLimit env long) " mins" with
    hn | ⟨rest, hn⟩
  · simp only [buildProcess, if_true, hn, List.append_nil]
  · rw [hn] at hnote
    simp only [buildProcess, if_true, hn]
    rw [infix_append_cons (by decide)]
    constructor
    · rintro (h | h)
      · exact h
      · exact absurd (h.trans (List.suffix_cons ' ' rest).isInfix) hnote
    · exact .inl

theorem retcode_zero_of_succeeds {long : Bool} (h : BuildSucceeds env long) :
    BuildEnds env long [0] := by
  have hs := seconds_le env.build.elapsed
  obtain ⟨h0, he, ht⟩ := h
  exact ⟨by simp [h0], by rw [outputOf_error, he], by omega⟩

variable (env w s) in
/-- Whatever the check does next, its first event stays. -/
theorem checkPackage_starts :
    (s.sent env { status := .startingCheck, body := some "" }).events <+:
      (exec checkPackage (env, w.calm) s).2.events := by
  rw [checkPackage, exec_bind, exec_environment]
  dsimp only
  rw [exec_bind, exec_sendMessage_calm]
  exact (cutShort _).grows (env, w.calm) _

variable (env w s) in
theorem checkAndFinish_starts : ∃ more, (exec checkAndFinish (env, w.calm) s).2.events =
    s.events ++ more ∧ .startingCheck ∈ more.map Event.status := by
  have hp := checkPackage_starts env w (s.warned false)
  have hg : (exec checkPackage (env, w.calm) (s.warned false)).2.events <+:
      (exec checkAndFinish (env, w.calm) s).2.events := by
    rw [checkAndFinish, exec_bind, exec_modify]
    dsimp only
    rw [exec_bind]
    rcases exec checkPackage (env, w.calm) (s.warned false) with ⟨_ | _, s'⟩
    · exact List.prefix_rfl
    · exact (cutShort _).grows (env, w.calm) s'
  obtain ⟨more, hm⟩ := hp.trans hg
  refine ⟨_, by rw [← hm, St.sent_events, List.append_assoc]; rfl, by simp [Event.stamp]⟩

/-- The build is started, and where it succeeds its tarball is copied. -/
def BuildReturns (env : Env) (o : Listing) (s : St) : Prop :=
  Startable env "R.out" (buildCmd env) s.cwd ∧
    (retcodeOf env s.longBuild true = 0 → Copied env o s.listings (dirBuilt env s.cwd))

theorem build_returns_iff : (∃ r s', exec (buildPackage true) (env, w.calm) s = (.ok r, s')) ↔
    BuildReturns env w.listdir s := by
  constructor
  · rintro ⟨r, s', hx⟩
    have hnot : ∀ l, ¬ Stops (buildPackage true) env w s l := by
      rintro l ⟨e, v, ⟨he, -⟩, -⟩
      rw [hx] at he
      cases he
    by_cases hs : Startable env "R.out" (buildCmd env) s.cwd
    rotate_left
    · exact absurd (buildPackage_unstarted hs) (hnot _)
    refine ⟨hs, fun hr => ?_⟩
    rcases ht : sizedIn env w.listdir s.listings (dirBuilt env s.cwd) with _ | t
    · exact absurd (buildPackage_missing hs rfl hr ht) (hnot _)
    · refine ⟨t, ht, ?_⟩
      by_contra hcopy
      exact hnot _ (buildPackage_uncopied hs rfl hr ht hcopy)
  · rintro ⟨hs, h⟩
    have hd := (buildPackage_does (w := w) hs rfl h).1
    exact ⟨_, _, Prod.ext hd rfl⟩

/-- A build that returns: its code, its one report, and whether the check follows. -/
theorem build_returned {r : Int} {s' : St}
    (hx : exec (buildPackage true) (env, w.calm) s = (.ok r, s')) :
    r = proceedCode (retcodeOf env s.longBuild true) ∧
    (∃ news e, s'.events = s.events ++ news ∧ news.filter (·.status = .buildComplete) = [e] ∧
      e.retcode = some (retcodeOf env s.longBuild true)) ∧
    ∃ more, (exec buildThenCheck (env, w.calm) s).2.events = s'.events ++ more ∧
      (.startingCheck ∈ more.map Event.status ↔ r = 0) := by
  obtain ⟨hs, hcopied⟩ := build_returns_iff.mp ⟨r, s', hx⟩
  have hd := buildPackage_does (w := w) hs rfl hcopied
  rw [Does, Yields, hx] at hd
  obtain ⟨hr, hv⟩ := hd
  refine ⟨Except.ok.inj hr, ?_, ?_⟩
  · have hg := (cutShort (buildPackage true)).grows (env, w.calm) s
    rw [hx] at hg
    obtain ⟨news, hn⟩ := hg
    have hm : news.map Event.mark = compileMarks env ++
        ((if retcodeOf env s.longBuild true = 0 then uploadMarks env else []) ++
          builtMarks env s.longBuild) := by
      have hm : s'.events.map Event.mark = s.events.map Event.mark ++ _ := congrArg View.marks hv
      have hn : s.events ++ news = s'.events := hn
      rw [← hn, List.map_append] at hm
      exact List.append_cancel_left hm
    have hf : (news.filter (·.status = .buildComplete)).map Event.mark =
        [⟨.buildComplete, some (retcodeOf env s.longBuild true),
          some (warnsOf env s.longBuild true), none⟩] := by
      have hp : (fun e : Event => decide (e.status = .buildComplete)) =
        (fun m : Mark => decide (m.status = .buildComplete)) ∘ Event.mark := rfl
      rw [hp, ← List.filter_map, hm]
      split <;> simp [toldMarks, compileMarks, uploadMarks, builtMarks]
    obtain ⟨e, he, hme⟩ := List.map_eq_singleton_iff.mp hf
    exact ⟨news, e, hn.symm, he, congrArg Mark.retcode hme⟩
  · rw [buildThenCheck, exec_bind, hx]
    dsimp only
    split
    next h0 =>
      obtain ⟨more, he, hc⟩ := checkAndFinish_starts env w s'
      exact ⟨more, he, by simp [hc, h0]⟩
    next h0 => exact ⟨[], by simp, by simp [h0]⟩

theorem returned_agrees_iff : GateTold env w.calm s ↔
    (BuildReturns env w.listdir s →
      (proceedCode (retcodeOf env s.longBuild true) = 0 ↔ BuildSucceeds env s.longBuild) ∧
      (retcodeOf env s.longBuild true = 0 ↔ BuildSucceeds env s.longBuild)) := by
  constructor
  · intro h hret
    obtain ⟨r, s', hx⟩ := build_returns_iff.mpr hret
    obtain ⟨hr, ⟨news, e, hn, he, hc⟩, -⟩ := build_returned hx
    obtain ⟨h1, ⟨news', e', hn', he', hc'⟩, -⟩ := h r s' hx
    have hnews : news' = news := List.append_cancel_left (hn'.symm.trans hn)
    rw [hnews, he] at he'
    cases he'
    rw [hc, Option.some.injEq] at hc'
    exact ⟨by rw [← hr, h1], hc'⟩
  · intro h r s' hx
    obtain ⟨hr, ⟨news, e, hn, he, hc⟩, more, hm, hs⟩ := build_returned hx
    obtain ⟨h1, h2⟩ := h (build_returns_iff.mp ⟨r, s', hx⟩)
    rw [← hr] at h1
    exact ⟨h1, ⟨news, e, hn, he, by rw [hc, Option.some.injEq, h2]⟩, more, hm, hs.trans h1⟩

/-- Return code, event and gate agree with the build under exactly the conditions of
`GateHolds`. -/
theorem gate_told_iff (env : Env) (w : World) (s : St) :
    GateTold env w.calm s ↔ GateHolds env w.listdir s := by
  rw [returned_agrees_iff, proceedCode_eq_zero]
  have hzero := @retcodeOf_eq_zero env s.longBuild
  simp only [BuildEnds, outputOf_error] at hzero ⊢
  constructor
  · intro h
    refine ⟨fun hs he ht => ?_, fun hs he ht h0 hd => ?_⟩
    · by_contra hc
      have hcode : env.build.status = -4 ∨ env.build.status = -6 := by omega
      have hret : BuildReturns env w.listdir s := ⟨hs, fun hr => by
        have h0 := (hzero.mp hr).1
        simp at h0
        omega⟩
      have h0 := ((h hret).1.mp ⟨by simp; omega, he, ht⟩).1
      omega
    · exact ((h ⟨hs, fun _ => hd⟩).2.mp (hzero.mpr ⟨by simp [h0], he, ht⟩)).2.2
  · rintro h ⟨hs, hret⟩
    have hends : BuildSucceeds env s.longBuild → env.build.status = 0 ∧
        hasLine "ERROR:" env.build.output.text = false ∧
        seconds env.build.elapsed < timeoutLimit env s.longBuild := by
      intro hb
      exact ⟨hb.1, hb.2.1, (retcode_zero_of_succeeds hb).2.2⟩
    have hdone : env.build.status = 0 → hasLine "ERROR:" env.build.output.text = false →
        seconds env.build.elapsed < timeoutLimit env s.longBuild →
        BuildSucceeds env s.longBuild := by
      intro h0 he ht
      exact ⟨h0, he, h.days hs he ht h0 (hret (hzero.mpr ⟨by simp [h0], he, ht⟩))⟩
    refine ⟨⟨?_, fun hb => ?_⟩, ⟨fun hr => ?_, fun hb => ?_⟩⟩
    · rintro ⟨hcode, he, ht⟩
      have hsig := h.signal hs he ht
      have h0 : env.build.status = 0 := by
        simp only [List.mem_cons, List.not_mem_nil, or_false] at hcode
        omega
      exact hdone h0 he ht
    · obtain ⟨h0, he, ht⟩ := hends hb
      exact ⟨by simp [h0], he, ht⟩
    · obtain ⟨h0, he, ht⟩ := hzero.mp hr
      exact hdone (List.mem_singleton.mp h0) he ht
    · obtain ⟨h0, he, ht⟩ := hends hb
      exact hzero.mpr ⟨by simp [h0], he, ht⟩

/-- A build that aborts after a second. -/
def aborted : Env :=
  { spbtest with build := { status := -6, leaves := addEntry "spbtest5_0.99.0.tar.gz" } }

theorem aborted_is_checked : ¬ BuildSucceeds aborted false ∧
    .startingCheck ∈ (exec buildThenCheck (aborted, World.calm {})
      { cwd := ["spbtest5"] }).2.events.map Event.status ∧
    ¬ GateTold aborted (World.calm {}) { cwd := ["spbtest5"] } := by
  refine ⟨fun h => absurd h.1 (by decide), by decide +kernel, fun h => ?_⟩
  have hret : retcodeOf aborted false true ≠ 0 := by decide +kernel
  have hreturns : BuildReturns aborted (World.listdir {}) { cwd := ["spbtest5"] } :=
    ⟨by decide +kernel, fun h0 => absurd h0 hret⟩
  have hs := (returned_agrees_iff.mp h hreturns).1.mp (by decide +kernel)
  exact absurd hs.1 (by decide)

end
end PackageBuilder
