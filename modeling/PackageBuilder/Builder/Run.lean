import PackageBuilder.Builder.Script

/-! A whole run in any world: how it can differ from the calm run, and its end. -/
namespace PackageBuilder
open Text Effect

/-- `s'` says no more than `s`. -/
structure Silent (s s' : St) : Prop where
  events : s'.events = s.events
  sends : s'.sends = s.sends
  exiting : s'.exiting = s.exiting

theorem Silent.trans {s₁ s₂ s₃ : St} (h : Silent s₁ s₂) (h' : Silent s₂ s₃) : Silent s₁ s₃ :=
  ⟨h'.events.trans h.events, h'.sends.trans h.sends, h'.exiting.trans h.exiting⟩

/-- The exception of `os.remove` on a directory. -/
def StuckOn (env : Env) (e : Exn) : Prop :=
  ∃ name, e = .isADirectoryError name ∧ env.kind name = .directory

/-- A program that says nothing and raises only where `os.remove` does. -/
class Tidy {α : Type} (m : Builder α) : Prop where
  silent : ∀ r s, Silent s (exec m r s).2
  raises : ∀ r s e, (exec m r s).1 = .error e → StuckOn r.1 e

set_option synthInstance.maxSize 4000

section
variable {α β : Type}

/-- It always returns. -/
theorem Tidy.of_returns {m : Builder α}
    (h : ∀ r s, ∃ a s', exec m r s = (.ok a, s') ∧ Silent s s') : Tidy m where
  silent r s := by
    obtain ⟨a, s', hx, hs⟩ := h r s
    rwa [hx]
  raises r s e he := by
    obtain ⟨a, s', hx, -⟩ := h r s
    rw [hx] at he
    cases he

instance tidy_bind (m : Builder α) (k : α → Builder β) [hm : Tidy m] [hk : ∀ a, Tidy (k a)] :
    Tidy (m >>= k) where
  silent r s := by
    have h := hm.silent r s
    rw [exec_bind]
    rcases hx : exec m r s with ⟨_ | a, s'⟩ <;> rw [hx] at h
    · exact h
    · exact h.trans ((hk a).silent r s')
  raises r s e he := by
    have h := hm.raises r s
    rw [exec_bind] at he
    rcases hx : exec m r s with ⟨e' | a, s'⟩ <;> rw [hx] at h he
    · cases he
      exact h e rfl
    · exact (hk a).raises r s' e he

instance (c : Prop) [Decidable c] (m n : Builder α) [hm : Tidy m] [hn : Tidy n] :
    Tidy (if c then m else n) := by
  split
  · exact hm
  · exact hn

instance (a : α) : Tidy (pure a : Builder α) := .of_returns fun _ s => ⟨a, s, rfl, rfl, rfl, rfl⟩
instance : Tidy environment := .of_returns fun r s => ⟨r.1, s, rfl, rfl, rfl, rfl⟩

variable (name : Str)

instance : Tidy (osRemove name) where
  silent r s := by
    rw [exec_osRemove]
    split <;> exact ⟨rfl, rfl, rfl⟩
  raises r s e he := by
    rw [exec_osRemove] at he
    split at he <;> cases he
    exact ⟨name, rfl, ‹_›⟩

instance : Tidy (osPathExists name) := .of_returns fun _ _ => ⟨_, _, rfl, rfl, rfl, rfl⟩
instance : Tidy (removeExisting name) := by unfold removeExisting; infer_instance
instance : Tidy (osSystem name) := .of_returns fun _ _ => ⟨_, _, rfl, rfl, rfl, rfl⟩
instance : Tidy (cleanUpWindows name) := by unfold cleanUpWindows; dsimp only; infer_instance
instance : Tidy (cleanUpDarwin name) := by unfold cleanUpDarwin; infer_instance

end

/-- A program that is tidy once it has listed the working directory. -/
class Leaving {α : Type} (m : Builder α) : Prop where
  silent : ∀ r s, Silent s (exec m r s).2
  there : ∀ env w s e, w.gone s.listings = false → (exec m (env, w) s).1 = .error e →
    StuckOn env e
  gone : ∀ env w s, w.gone s.listings = true →
    (exec m (env, w) s).1 = .error (.fileNotFoundError ".")

instance {α : Type} (k : Option Str → Builder α) [hk : ∀ o, Tidy (k o)] :
    Leaving (getSourceTarballName >>= k) where
  silent r s := by
    rw [exec_bind, exec_getSourceTarballName]
    by_cases hg : r.2.gone s.listings = true
    · rw [if_pos hg]
      exact ⟨rfl, rfl, rfl⟩
    · rw [if_neg hg]
      have h := (hk (tarballIn r.1 r.2.listdir s.listings s.cwd)).silent r
        (s.listed.answered (tarballIn r.1 r.2.listdir s.listings s.cwd))
      exact ⟨h.events, h.sends, h.exiting⟩
  there env w s e hg he := by
    rw [exec_bind, exec_getSourceTarballName_there hg] at he
    exact (hk _).raises (env, w) _ e he
  gone env w s hg := by rw [exec_bind, exec_getSourceTarballName, if_pos hg]

instance leaving_environment {α : Type} (k : Env → Builder α) [hk : ∀ env, Leaving (k env)] :
    Leaving (environment >>= k) where
  silent r s := (hk r.1).silent r s
  there env w s e hg he := (hk env).there env w s e hg he
  gone env w s hg := (hk env).gone env w s hg

instance : Leaving cleanUpDir := by unfold cleanUpDir; dsimp only; infer_instance

/-- `clean_up_dir` returns when the exit handler calls it. -/
def cleanUpReturns (env : Env) (w : World) (s : St) : Bool := (exec cleanUpDir (env, w) s.exits).1.isOk

/-- No deletion of the exit handler raises. -/
def DeletionsSucceed (env : Env) (w : World) (s : St) : Prop :=
  ∀ name, (exec cleanUpDir (env, w) s.exits).1 ≠ .error (.isADirectoryError name)

/-- Only a directory can be in the way. -/
theorem deletionsSucceed_of_files {env : Env} (h : ∀ name, env.kind name ≠ .directory) (w : World)
    (s : St) : DeletionsSucceed env w s := by
  have hl : Leaving cleanUpDir := inferInstance
  intro name hx
  rcases hg : w.gone s.listings
  · obtain ⟨name', -, hd⟩ := hl.there env w s.exits _ hg hx
    exact h name' hd
  · rw [hl.gone env w s.exits hg] at hx
    cases hx

theorem cleanUpReturns_iff {env : Env} {w : World} {s : St} (hd : DeletionsSucceed env w s) :
    cleanUpReturns env w s = true ↔ w.gone s.listings = false := by
  have hl : Leaving cleanUpDir := inferInstance
  rcases hg : w.gone s.listings
  · rcases hx : (exec cleanUpDir (env, w) s.exits).1 with e | a
    · obtain ⟨name, rfl, -⟩ := hl.there env w s.exits e hg hx
      exact absurd hx (hd name)
    · simp [cleanUpReturns, hx, Except.isOk, Except.toBool]
  · simp [cleanUpReturns, hl.gone env w s.exits hg, Except.isOk, Except.toBool]

/-- The last event of a run. -/
def autoexitEvent (env : Env) (s : St) : Event :=
  Event.stamp env {
    status := .autoexit
    body := some "builder.py exited"
    retcode := some (-1)
    svnUrl := some (s.svnUrlGlobal.getD "undefined") }

/-- After whatever `main` did, the exit handler tries to send one more event, once it has cleaned
up. -/
theorem onexit_events (env : Env) (w : World) (s : St) :
    (exec onexit (env, w) s).2.events = s.events ++
      if cleanUpReturns env w s && (w.broker s.sends).accepted then [autoexitEvent env s] else [] := by
  have hs := (inferInstance : Leaving cleanUpDir).silent (env, w) s.exits
  rcases h : exec cleanUpDir (env, w) s.exits with ⟨e | a, s'⟩
  all_goals
    rw [h] at hs
    have he : s'.events = s.events := hs.events
  · simp [onexit, exec_bind, h, he, cleanUpReturns, Except.isOk, Except.toBool]
  have hn : s'.sends = s.sends := hs.sends
  have hx : s'.exiting = true := hs.exiting
  have hc : cleanUpReturns env w s = true := by simp [cleanUpReturns, h, Except.isOk, Except.toBool]
  have hm := exec_sendMessage {
    status := .autoexit
    body := some "builder.py exited"
    retcode := some (-1)
    svnUrl := some (s.svnUrlGlobal.getD "undefined") } env w s'
  rcases hm with ⟨hm, -, hb⟩ | ⟨⟨e, hm⟩, hb⟩
  · rw [hn] at hb
    simp [onexit, exec_bind, h, hm, he, hb, hc, autoexitEvent]
  · simp [hx, hn] at hb
    simp [onexit, exec_bind, h, hm, he, hb]

/-- What the exit handler adds to the events of `main`. -/
def lastEvents (env : Env) (w : World) (cwd : List Str) : List Event :=
  let s := (exec main (env, w) { cwd }).2
  if cleanUpReturns env w s && (w.broker s.sends).accepted then [autoexitEvent env s] else []

theorem builderRun_events (env : Env) (w : World) (cwd : List Str) :
    (builderRun env w cwd).events = (exec main (env, w) { cwd }).2.events ++ lastEvents env w cwd :=
  onexit_events env w _

theorem lastEvents_cases (env : Env) (w : World) (cwd : List Str) :
    lastEvents env w cwd = [] ∨
      lastEvents env w cwd = [autoexitEvent env (exec main (env, w) { cwd }).2] := by
  simp only [lastEvents]
  split
  · exact .inr rfl
  · exact .inl rfl

theorem lastEvents_status {env : Env} {w : World} {cwd : List Str} :
    ∀ e ∈ lastEvents env w cwd, e.status = .autoexit := by
  intro e he
  rcases lastEvents_cases env w cwd with h | h <;> rw [h] at he
  · cases he
  · rw [List.mem_singleton.mp he]
    rfl

variable {env : Env} {w : World} {s : St}

/-- The bare `except` of `get_dcf_info` took over although the DESCRIPTION can be read: from `s`
the reading ended in `s'`. -/
structure Blames (env : Env) (w : World) (s s' : St) : Prop where
  readable : dcfName env ≠ none
  raised : ∃ e, exec readDcfInfo (env, w) (s.onUrl env.manifest.svnUrl) = (.error e, s')

/-- How a stage in any world compares with the same stage in the calm one. -/
abbrev Similar {α : Type} (m : Builder α) (env : Env) (w : World) (s : St) : Prop :=
  CutAt St.events m (env, w) (env, w.calm) s

theorem similar {α : Type} (m : Builder α) [Sequential m] : Similar m env w s :=
  (cutShort m).short (env, w) s

theorem dcfUnreadable_raises {α : Type} (k : Str → Builder α) (r : Env × World) (s : St) :
    ∃ e, exec (dcfUnreadable >>= k) r s = (.error e, (exec dcfUnreadable r s).2) := by
  rw [exec_bind, dcfUnreadable, exec_bind]
  rcases exec (reportDcfFailure _) r s with ⟨_ | _, s'⟩ <;> exact ⟨_, rfl⟩

theorem getDcfInfo_reads {name : Str} {s' : St}
    (h : exec readDcfInfo (env, w) (s.onUrl env.manifest.svnUrl) = (.ok name, s')) :
    exec getDcfInfo (env, w) s = exec (checkDescName name) (env, w) s' := by
  simp [getDcfInfo, exec_bind, exec_tryCatch, h]

theorem getDcfInfo_unread {e : Exn} {s' : St}
    (h : exec readDcfInfo (env, w) (s.onUrl env.manifest.svnUrl) = (.error e, s')) :
    exec getDcfInfo (env, w) s = exec (dcfUnreadable >>= checkDescName) (env, w) s' := by
  simp [getDcfInfo, exec_bind, exec_tryCatch, h]

theorem getDcfInfo_cases (env : Env) (w : World) (s : St) :
    Similar getDcfInfo env w s ∨ ∃ s', Blames env w s s' := by
  rcases hr : exec readDcfInfo (env, w) (s.onUrl env.manifest.svnUrl) with ⟨e | name, s'⟩
  · by_cases hd : dcfName env = none
    · -- unreadable in every world: only the report of it can be cut short
      left
      obtain ⟨e₁, h₁⟩ := readDcfInfo_fails (w := w) (s := s.onUrl env.manifest.svnUrl) hd
      obtain ⟨e₂, h₂⟩ := readDcfInfo_fails (w := w.calm) (s := s.onUrl env.manifest.svnUrl) hd
      rw [Similar, CutAt, getDcfInfo_unread h₁, getDcfInfo_unread h₂]
      exact similar (dcfUnreadable >>= checkDescName)
    · exact .inr ⟨s', hd, e, hr⟩
  · left
    have hc : exec readDcfInfo (env, w.calm) (s.onUrl env.manifest.svnUrl) = (.ok name, s') := by
      rcases (similar readDcfInfo : Similar readDcfInfo env w (s.onUrl env.manifest.svnUrl)) with
        h | ⟨⟨e, h⟩, -⟩
      · rw [← h, hr]
      · rw [hr] at h
        cases h
    rw [Similar, CutAt, getDcfInfo_reads hr, getDcfInfo_reads hc]
    exact similar (checkDescName name)

theorem quiet {α : Type} (m : Builder α) [Sequential m] (hw : w.Quiet) :
    exec m (env, w) s = exec m (env, w.calm) s :=
  (cutShort m).quiet (env, w) s hw

theorem getDcfInfo_quiet (hw : w.Quiet) :
    exec getDcfInfo (env, w) s = exec getDcfInfo (env, w.calm) s := by
  rcases hr : exec readDcfInfo (env, w) (s.onUrl env.manifest.svnUrl) with ⟨e | name, s'⟩
  · rw [getDcfInfo_unread hr, getDcfInfo_unread ((quiet readDcfInfo hw).symm.trans hr)]
    exact quiet (dcfUnreadable >>= checkDescName) hw
  · rw [getDcfInfo_reads hr, getDcfInfo_reads ((quiet readDcfInfo hw).symm.trans hr)]
    exact quiet (checkDescName name) hw

/-- A quiet world is as good as the calm one. -/
theorem main_quiet (hw : w.Quiet) : exec main (env, w) s = exec main (env, w.calm) s := by
  rw [main, exec_bind, exec_bind, quiet fetchPackage hw]
  rcases exec fetchPackage (env, w.calm) s with ⟨_ | a, s₁⟩
  · rfl
  · simp only [exec_bind, getDcfInfo_quiet hw]
    rcases exec getDcfInfo (env, w.calm) s₁ with ⟨_ | b, s₂⟩
    · rfl
    · exact quiet buildAndCheck hw

theorem getDcfInfo_grows : s.events <+: (exec getDcfInfo (env, w) s).2.events := by
  have hs : s.events = (s.onUrl env.manifest.svnUrl).events := rfl
  have hg := (cutShort readDcfInfo).grows (env, w) (s.onUrl env.manifest.svnUrl)
  rcases hr : exec readDcfInfo (env, w) (s.onUrl env.manifest.svnUrl) with ⟨e | name, s'⟩
  · rw [getDcfInfo_unread hr, hs]
    rw [hr] at hg
    exact hg.trans ((cutShort (dcfUnreadable >>= checkDescName)).grows (env, w) s')
  · rw [getDcfInfo_reads hr, hs]
    rw [hr] at hg
    exact hg.trans ((cutShort (checkDescName name)).grows (env, w) s')

theorem afterFetch_grows :
    s.events <+: (exec (getDcfInfo >>= fun _ => buildAndCheck) (env, w) s).2.events := by
  have hg : s.events <+: (exec getDcfInfo (env, w) s).2.events := getDcfInfo_grows
  rw [exec_bind]
  rcases hd : exec getDcfInfo (env, w) s with ⟨e | a, s'⟩ <;> rw [hd] at hg
  · exact hg
  · exact hg.trans ((cutShort buildAndCheck).grows (env, w) s')

/-- Where the reading fails after the fetch, the run ends in the report of it. -/
theorem main_blamed {s₁ s₂ : St} (h : exec fetchPackage (env, w) s = (.ok (), s₁))
    (hb : Blames env w s₁ s₂) : (exec main (env, w) s).2 = (exec dcfUnreadable (env, w) s₂).2 := by
  obtain ⟨-, e, hr⟩ := hb
  obtain ⟨e', he⟩ := dcfUnreadable_raises checkDescName (env, w) s₂
  have hd : exec (getDcfInfo >>= fun _ => buildAndCheck) (env, w) s₁ =
      (.error e', (exec dcfUnreadable (env, w) s₂).2) := by
    rw [exec_bind, getDcfInfo_unread hr, he]
  rw [main, exec_bind, h]
  exact congrArg Prod.snd hd

/-- A run either is cut short, or its reading of a readable DESCRIPTION failed. -/
theorem main_cases (env : Env) (w : World) (s : St) :
    Similar main env w s ∨ ∃ s₁ s₂, exec fetchPackage (env, w) s = (.ok (), s₁) ∧
      exec fetchPackage (env, w.calm) s = (.ok (), s₁) ∧ Blames env w s₁ s₂ := by
  by_cases hb : ∃ s₁ s₂, exec fetchPackage (env, w) s = (.ok (), s₁) ∧
      exec fetchPackage (env, w.calm) s = (.ok (), s₁) ∧ Blames env w s₁ s₂
  · exact .inr hb
  · left
    refine CutAt.bind (similar fetchPackage) (fun a s₁ h₁ h₂ => ?_) fun a s' => afterFetch_grows
    refine CutAt.bind ?_ (fun a s' _ _ => similar buildAndCheck) fun a s' =>
      (cutShort buildAndCheck).grows (env, w.calm) s'
    rcases getDcfInfo_cases env w s₁ with h | ⟨s₂, h₃⟩
    · exact h
    · exact absurd ⟨s₁, s₂, h₁, h₂, h₃⟩ hb

end PackageBuilder
