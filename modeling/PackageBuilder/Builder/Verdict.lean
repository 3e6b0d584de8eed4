import PackageBuilder.Builder.CalmBuild

/-! The verdict of a check against the three commands it runs. -/
namespace PackageBuilder
open Text Effect

/-- The command was killed, or took at least `limit` seconds. -/
def TimedOut (limit : Nat) (p : Process) : Prop := p.status = -9 ∨ limit * 1000000 ≤ p.elapsed

/-- The limit is reached by `timedelta.seconds`, which drops whole days. -/
def Late (limit : Nat) (p : Process) : Prop := limit ≤ seconds p.elapsed

instance (limit : Nat) (p : Process) : Decidable (TimedOut limit p) :=
  inferInstanceAs (Decidable (_ ∨ _))

instance (limit : Nat) (p : Process) : Decidable (Late limit p) :=
  inferInstanceAs (Decidable (_ ≤ _))

/-- The verdict a check should come to. -/
def dueVerdict (limit : Nat) (views : Str) (check biocCheck : Process) (gitclone : Int) : Int :=
  if TimedOut limit check ∨ TimedOut limit biocCheck then -9
  else if check.status ≠ 0 ∨ biocCheck.status ≠ 0 ∨ gitclone ≠ 0 then 1
  else if views = "Software" ∧ 600 * 1000000 ≤ check.elapsed then -4
  else 0

/-- `do_check` returns `r` and reports it, with a warning if it is -4. -/
def ChecksAs (cmdCheck cmdBiocCheck : Str) (env : Env) (w : World) (s : St) (r : Int) : Prop :=
  ∃ s' news e, exec (doCheck cmdCheck cmdBiocCheck) (env, w) s = (.ok r, s') ∧
    s'.events = s.events ++ news ∧ news.filter (·.status = .checkComplete) = [e] ∧
    e.retcode = some r ∧ (r = -4 → e.warnings = some true)

/-- The time rule for software packages, as the code applies it. -/
def Slow (env : Env) (s : St) : Prop :=
  slowCheck s.pkgTypeViews (seconds env.check.elapsed) = true

instance (env : Env) (s : St) : Decidable (Slow env s) := inferInstanceAs (Decidable (_ = _))

/-- Rcheck.out can be written anew, and both commands can be started. -/
structure CheckRuns (cmdCheck cmdBiocCheck : Str) (env : Env) (s : St) : Prop where
  replaceable : Replaceable env "Rcheck.out" s.cwd
  readable : CloneCheckReads env
  check : env.refuses cmdCheck = none
  label : env.encodes (lastWord cmdCheck) = true
  biocCheck : env.refuses cmdBiocCheck = none

/-- When the verdict is the due one. -/
structure CheckTold (cmdCheck cmdBiocCheck : Str) (env : Env) (s : St) : Prop where
  runs : CheckRuns cmdCheck cmdBiocCheck env s
  warntime : env.check.status = -4 →
    Late (timeoutLimit env s.longBuild) env.check ∨ Slow env s
  timeout : TimedOut (timeoutLimit env s.longBuild) env.check ∨
      TimedOut (timeoutLimit env s.longBuild) env.biocCheck →
    Late (timeoutLimit env s.longBuild) env.check ∨ (env.check.status = -9 ∧ ¬ Slow env s) ∨
      Late (timeoutLimit env s.longBuild) env.biocCheck ∨ env.biocCheck.status = -9
  failed : env.check.status ≠ 0 → Slow env s →
    ¬ TimedOut (timeoutLimit env s.longBuild) env.check →
    ¬ TimedOut (timeoutLimit env s.longBuild) env.biocCheck →
    env.biocCheck.status ≠ 0 ∨ s.gitcloneRetcode ≠ 0
  slow : s.pkgTypeViews = "Software" → 600 * 1000000 ≤ env.check.elapsed →
    ¬ TimedOut (timeoutLimit env s.longBuild) env.check →
    ¬ TimedOut (timeoutLimit env s.longBuild) env.biocCheck →
    env.check.status = 0 → env.biocCheck.status = 0 → s.gitcloneRetcode = 0 → Slow env s

section
variable {cmdCheck cmdBiocCheck : Str} {env : Env} {w : World} {s : St}

theorem seconds_le (us : Nat) : seconds us * 1000000 ≤ us := by
  simp only [seconds]
  omega

/-- The clock of the code is never ahead. -/
theorem Late.timedOut {limit : Nat} {p : Process} (h : Late limit p) : TimedOut limit p := by
  right
  exact (Nat.mul_le_mul_right 1000000 h).trans (seconds_le p.elapsed)

def checkedRetcode (env : Env) (s : St) : Int :=
  checkRetcode1 (timeoutLimit env s.longBuild) s.pkgTypeViews (seconds env.check.elapsed)
    env.check.status

def checkedRetcode2 (env : Env) (s : St) : Int :=
  checkRetcode2 (timeoutLimit env s.longBuild) (seconds env.biocCheck.elapsed) env.biocCheck.status

/-- The verdict the code comes to, if it finishes. -/
def toldVerdict (env : Env) (s : St) : Int :=
  checkVerdict (checkedRetcode env s) (checkedRetcode2 env s) s.gitcloneRetcode

theorem checkWarns_of_infix {out : Str} (h : ("WARNING:" : Str) <:+: out) :
    checkWarns out = true := by
  obtain ⟨line, hl, hw⟩ := (exists_line_iff (by decide)).mpr h
  rw [checkWarns, List.any_eq_true]
  exact ⟨line, hl, by simp [lineWarns, hw]⟩

theorem checkVerdict_eq_neg_four {r1 r2 g : Int} (h : checkVerdict r1 r2 g = -4) : r1 = -4 := by
  simp only [checkVerdict] at h
  split_ifs at h with h1 h2 h3
  · exact h2.1
  · omega

/-- A check that is only slow says so in its output. -/
theorem checkText_warns {label gitcheck : Str} {r2 : Int} :
    checkWarns (checkText env label gitcheck (-4) r2) = true := by
  apply checkWarns_of_infix
  have hn : ("WARNING:" : Str) <:+:
      (" WARNING: R CMD check exceeded 10 min requirement\n\n\n" : Str) :=
    ⟨" ", " R CMD check exceeded 10 min requirement\n\n\n", by simp [ofString]⟩
  refine hn.trans ?_
  simp only [checkText, if_true]
  iterate 4 refine List.IsInfix.trans ?_ (List.prefix_append _ _).isInfix
  exact (List.suffix_append _ _).isInfix

/-- What `do_check` sends. -/
def checkSends (env : Env) (s : St) (label : Str) : List Event :=
  let out := checkText env label (universalNewlines env.checkgitclone.output.text)
    (checkedRetcode env s) (checkedRetcode2 env s)
  [{ status := .writeGitclone, body := some "writing bioccheckgitclone results" },
    { status := .rCheck, body := some "starting R CMD check" },
    { status := .biocCheck, body := some "starting BiocCheck" },
    { status := .checkComplete
      retcode := some (toldVerdict env s)
      warnings := some (checkWarns out)
      body := some "Check completed"
      elapsedTime := some (elapsedTime env.check.elapsed) },
    { status := .checking, body := some out }]

theorem doCheck_finishes (h : CheckRuns cmdCheck cmdBiocCheck env s)
    (hw : ¬ (checkedRetcode env s = -4 ∧ ¬ Slow env s)) :
    (exec (doCheck cmdCheck cmdBiocCheck) (env, w.calm) s).1 = .ok (toldVerdict env s) ∧
      (exec (doCheck cmdCheck cmdBiocCheck) (env, w.calm) s).2.events = s.events ++
        (checkSends env s (lastWord cmdCheck)).map (·.stamp env) := by
  have h1 : checkRetcode1 (timeoutLimit env s.longBuild) s.pkgTypeViews
      (seconds env.check.elapsed) env.check.status = checkedRetcode env s := rfl
  have h2 : checkRetcode2 (timeoutLimit env s.longBuild) (seconds env.biocCheck.elapsed)
      env.biocCheck.status = checkedRetcode2 env s := rfl
  obtain ⟨hr, hread, hc, hlabel, hb⟩ := h
  rw [Slow, Bool.not_eq_true] at hw
  simp [doCheck, exec_removeExisting, writeName, readGitClone, warntimeNote, exec_bind, exec_call,
    hr, hread.1, hread.2, hc, hlabel, hb, h1, h2, hw, toldVerdict, checkSends]

variable (w) in
theorem doCheck_raises (h : ¬ CheckRuns cmdCheck cmdBiocCheck env s ∨
    (checkedRetcode env s = -4 ∧ ¬ Slow env s)) :
    ∃ e, (exec (doCheck cmdCheck cmdBiocCheck) (env, w.calm) s).1 = .error e := by
  by_cases hr : Replaceable env "Rcheck.out" s.cwd
  rotate_left
  · exact ⟨_, by simp [doCheck, exec_bind, exec_removeExisting_stuck hr]; rfl⟩
  have hopen := exec_removeExisting (w := w.calm) hr
  rcases hn : env.encodes env.manifest.packageName
  · exact ⟨.unicodeEncodeError, by simp [doCheck, writeName, exec_bind, hopen, hn]⟩
  rcases hu : env.checkgitclone.output.decodes
  · exact ⟨.unicodeDecodeError, by simp [doCheck, writeName, readGitClone, exec_bind, hopen, hn, hu]⟩
  rcases hc : env.refuses cmdCheck with _ | e
  rotate_left
  · exact ⟨e, by
      simp [doCheck, writeName, readGitClone, exec_bind, exec_call_refused hc, hopen, hn, hu]⟩
  by_cases hw : checkedRetcode env s = -4 ∧ ¬ Slow env s
  · rw [checkedRetcode, Slow, Bool.not_eq_true] at hw
    exact ⟨.unboundLocalError "warntime", by
      simp [doCheck, writeName, readGitClone, warntimeNote, exec_bind, exec_call hc, hopen, hn, hu,
        hw.1, hw.2]⟩
  have hruns := h.resolve_right hw
  rw [checkedRetcode, Slow, Bool.not_eq_true] at hw
  rcases hlabel : env.encodes (lastWord cmdCheck)
  · exact ⟨.unicodeEncodeError, by
      simp [doCheck, writeName, readGitClone, warntimeNote, exec_bind, exec_call hc, hopen, hn, hu,
        hw, hlabel]⟩
  rcases hb : env.refuses cmdBiocCheck with _ | e
  · exact absurd ⟨hr, ⟨hn, hu⟩, hc, hlabel, hb⟩ hruns
  · exact ⟨e, by
      simp [doCheck, writeName, readGitClone, warntimeNote, exec_bind, exec_call hc,
        exec_call_refused hb, hopen, hn, hu, hw, hlabel]⟩

theorem checksAs_iff {r : Int} : ChecksAs cmdCheck cmdBiocCheck env w.calm s r ↔
    CheckRuns cmdCheck cmdBiocCheck env s ∧ ¬ (checkedRetcode env s = -4 ∧ ¬ Slow env s) ∧
      r = toldVerdict env s := by
  constructor
  · rintro ⟨s', news, e, hx, -, -, -, -⟩
    have hn : CheckRuns cmdCheck cmdBiocCheck env s ∧
        ¬ (checkedRetcode env s = -4 ∧ ¬ Slow env s) := by
      by_contra hc
      rw [not_and_or, not_not] at hc
      obtain ⟨e', he⟩ := doCheck_raises w hc
      rw [hx] at he
      cases he
    have hf := (doCheck_finishes (w := w) hn.1 hn.2).1
    rw [hx] at hf
    exact ⟨hn.1, hn.2, Except.ok.inj hf⟩
  · rintro ⟨hruns, hw, rfl⟩
    obtain ⟨hr, he⟩ := doCheck_finishes (w := w) hruns hw
    refine ⟨_, _, _, Prod.ext hr rfl, he, by simp [checkSends, Event.stamp]; rfl, rfl, ?_⟩
    intro hv
    have h1 := checkVerdict_eq_neg_four hv
    rw [h1]
    exact congrArg some checkText_warns

/-- The code's rules (`A`, `B` late, `S` slow) against the due ones (`T`, `U` timed out, `W` slow),
for any statuses. -/
theorem verdicts_agree_iff {A B T U S W : Prop} [Decidable A] [Decidable B] [Decidable T]
    [Decidable U] [Decidable S] [Decidable W] {s1 s2 g : Int} (hA : A → T) (hB : B → U)
    (hT : s1 = -9 → T) (hU : s2 = -9 → U) (hS : S → W) :
    ¬ ((if A then -9 else if S then -4 else s1) = -4 ∧ ¬ S) ∧
      (if T ∨ U then -9 else if s1 ≠ 0 ∨ s2 ≠ 0 ∨ g ≠ 0 then 1 else if W then -4 else 0) =
        checkVerdict (if A then -9 else if S then -4 else s1) (if B then -9 else s2) g ↔
    (s1 = -4 → A ∨ S) ∧ (T ∨ U → A ∨ (s1 = -9 ∧ ¬ S) ∨ B ∨ s2 = -9) ∧
      (s1 ≠ 0 → S → ¬ T → ¬ U → s2 ≠ 0 ∨ g ≠ 0) ∧
      (W → ¬ T → ¬ U → s1 = 0 → s2 = 0 → g = 0 → S) := by
  rw [checkVerdict]
  by_cases a : A <;> by_cases b : B <;> by_cases c : S <;>
    simp only [a, b, c, if_true, if_false] <;> grind

theorem toldVerdict_due_iff (hr : CheckRuns cmdCheck cmdBiocCheck env s) :
    ¬ (checkedRetcode env s = -4 ∧ ¬ Slow env s) ∧
      dueVerdict (timeoutLimit env s.longBuild) s.pkgTypeViews env.check env.biocCheck
        s.gitcloneRetcode = toldVerdict env s ↔ CheckTold cmdCheck cmdBiocCheck env s := by
  have hslow : Slow env s → s.pkgTypeViews = "Software" ∧ 600 * 1000000 ≤ env.check.elapsed := by
    intro h
    have hsec := seconds_le env.check.elapsed
    simp only [Slow, slowCheck, Bool.and_eq_true, decide_eq_true_eq, beq_iff_eq] at h
    exact ⟨h.2, (Nat.mul_le_mul_right 1000000 h.1).trans hsec⟩
  have ht1 : Late (timeoutLimit env s.longBuild) env.check →
      TimedOut (timeoutLimit env s.longBuild) env.check := Late.timedOut
  have ht2 : Late (timeoutLimit env s.longBuild) env.biocCheck →
      TimedOut (timeoutLimit env s.longBuild) env.biocCheck := Late.timedOut
  have h := verdicts_agree_iff (g := s.gitcloneRetcode) ht1 ht2 Or.inl Or.inl hslow
  refine h.trans ⟨?_, ?_⟩
  · rintro ⟨hnamed, htimeout, hfailed, hslow⟩
    exact ⟨hr, hnamed, htimeout, hfailed, fun hv he => hslow ⟨hv, he⟩⟩
  · rintro ⟨-, hnamed, htimeout, hfailed, hslow⟩
    exact ⟨hnamed, htimeout, hfailed, fun hw => hslow hw.1 hw.2⟩

/-- The check tells what it should under exactly the conditions of `CheckTold`. -/
theorem check_told_iff (cmdCheck cmdBiocCheck : Str) (env : Env) (w : World) (s : St) :
    ChecksAs cmdCheck cmdBiocCheck env w.calm s (dueVerdict (timeoutLimit env s.longBuild)
      s.pkgTypeViews env.check env.biocCheck s.gitcloneRetcode) ↔
        CheckTold cmdCheck cmdBiocCheck env s := by
  rw [checksAs_iff]
  constructor
  · rintro ⟨hr, h⟩
    exact (toldVerdict_due_iff hr).mp h
  · intro h
    exact ⟨h.runs, (toldVerdict_due_iff h.runs).mpr h⟩

/-- A package whose check fails after ten minutes. -/
def slowFailure : Env := { spbtest with check := { status := 1, elapsed := 700000000 } }

theorem slowFailure_not_failed :
    let s : St := { cwd := [], pkgTypeViews := "Software" }
    dueVerdict (timeoutLimit slowFailure s.longBuild) s.pkgTypeViews slowFailure.check
        slowFailure.biocCheck s.gitcloneRetcode = 1 ∧
      ChecksAs (checkCmd slowFailure "spbtest5_0.99.0.tar.gz")
        (biocCheckCmd slowFailure "spbtest5_0.99.0.tar.gz") slowFailure (World.calm {}) s (-4) ∧
      ¬ ChecksAs (checkCmd slowFailure "spbtest5_0.99.0.tar.gz")
        (biocCheckCmd slowFailure "spbtest5_0.99.0.tar.gz") slowFailure (World.calm {}) s 1 := by
  refine ⟨by decide +kernel, checksAs_iff.mpr ?_, fun h => ?_⟩
  · refine ⟨⟨?_, ?_, ?_, ?_, ?_⟩, ?_, ?_⟩ <;> decide +kernel
  · exact absurd (checksAs_iff.mp h).2.2 (by decide +kernel)

end
end PackageBuilder
