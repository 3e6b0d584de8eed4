import PackageBuilder.Builder.Protocol

/-! What a failing broker can make of a run. -/
namespace PackageBuilder
open Text Effect

/-- `l` is a prefix of `full`, or one with an `autoexit` after it. -/
def CutRun (full l : List Event) : Prop :=
  ∃ p, p <+: full ∧ (l = p ∨ ∃ e, e.status = .autoexit ∧ l = p ++ [e])

instance (full l : List Event) : Decidable (CutRun full l) :=
  decidable_of_iff (l <+: full ∨ l.dropLast <+: full ∧ ∃ e ∈ l.getLast?, e.status = .autoexit) (by
    constructor
    · rintro (h | ⟨h, e, he, hs⟩)
      · exact ⟨l, h, .inl rfl⟩
      · exact ⟨l.dropLast, h, .inr ⟨e, hs, (List.dropLast_append_getLast? e he).symm⟩⟩
    · rintro ⟨p, hp, rfl | ⟨e, hs, rfl⟩⟩
      · exact .inl hp
      · exact .inr (by simpa using ⟨hp, hs⟩))

variable {env : Env} {w : World} {s s' : St}

/-- From `s` to `s'`, the broker accepted every message. -/
structure AllSent (w : World) (s s' : St) : Prop where
  le : s.sends ≤ s'.sends
  accepted : ∀ n, s.sends ≤ n → n < s'.sends → (w.broker n).accepted = true

theorem AllSent.refl (w : World) {s s' : St} (h : s'.sends = s.sends) : AllSent w s s' :=
  ⟨by omega, fun n h₁ h₂ => by omega⟩

theorem AllSent.trans {s₁ s₂ s₃ : St} (h : AllSent w s₁ s₂) (h' : AllSent w s₂ s₃) :
    AllSent w s₁ s₃ := by
  refine ⟨h.le.trans h'.le, fun n h₁ h₂ => ?_⟩
  by_cases hn : n < s₂.sends
  · exact h.accepted n h₁ hn
  · exact h'.accepted n (by omega) h₂

theorem allSent_primitive {α : Type} {m : Builder α} (hm : Primitive α m) (a : α)
    (h : exec m (env, w) s = (.ok a, s')) : AllSent w s s' := by
  cases hm with
  | environment | state =>
    cases h
    exact .refl w rfl
  | tarball =>
    rw [exec_getSourceTarballName] at h
    split at h <;> cases h
    exact .refl w rfl
  | change f _ hs _ =>
    cases h
    exact .refl w (hs s)
  | interrupted =>
    rw [exec_interrupted] at h
    obtain ⟨-, rfl⟩ := Prod.mk.inj h
    exact .refl w rfl
  | send msg =>
    rcases exec_sendMessage msg env w s with ⟨he, -, hb⟩ | ⟨⟨e, he⟩, -⟩
    · rw [he] at h
      cases h
      refine ⟨by simp, fun n h₁ h₂ => ?_⟩
      have hn : n = s.sends := by
        rw [St.sent_sends] at h₂
        omega
      rwa [hn]
    · rw [he] at h
      cases h

/-- A stage that returns has had all its messages accepted. -/
theorem allSent {α : Type} (m : Builder α) [hm : Sequential m] {a : α}
    (h : exec m (env, w) s = (.ok a, s')) : AllSent w s s' :=
  hm.returns (fun _ => .refl w rfl) (fun _ _ _ => .trans)
    (fun hp _ a _ h => allSent_primitive hp a h) s a s' h

/-- With its six messages accepted, the fetch is the calm one. -/
theorem fetchPackage_accepted (hv : env.manifest.biocVersion = some env.biocVersion)
    (hc : Cloned env) (hs : s.sends = 0) (hr : ∀ n, w.raises n = none)
    (hb : ∀ n < 6, (w.broker n).accepted = true) :
    ∃ s', exec fetchPackage (env, w) s = (.ok (), s') ∧ s'.sends = 6 := by
  have hm : ∀ msg (t : St), t.sends < 6 →
      exec (sendMessage msg) (env, w) t = (.ok (), t.sent env msg) := fun msg t ht =>
    exec_sendMessage_accepted (.inr (hr _)) (hb _ ht)
  exact ⟨_, by
    simp [fetchPackage, checkVersion, getNodeInfo, gitClone, exec_bind, exec_call hc.1, hv, hc.2, hm,
      hs]
    rfl, by simp [hs]⟩

/-- A world in which only the broker can fail. -/
def brokerWorld (broker : Nat → Attempt) (o : Listing) : World := { broker, listdir := o }

/-- The broker takes everything up to `git_result`, refuses `dcf_info` and takes the next
message, the blame on a DESCRIPTION that can be read. -/
structure Misblames (env : Env) (broker : Nat → Attempt) : Prop where
  version : env.manifest.biocVersion = some env.biocVersion
  cloned : Cloned env
  readable : dcfName env ≠ none
  fetched : ∀ n < 6, (broker n).accepted = true
  refused : (broker 6).accepted = false
  accepted : (broker 7).accepted = true

variable {broker : Nat → Attempt} {o : Listing} {cwd : List Str}

/-- The report of an unreadable DESCRIPTION, when its first message is accepted. -/
theorem dcfUnreadable_accepted (hr : w.raises s.sends = none)
    (hb : (w.broker s.sends).accepted = true) :
    ∃ rest, (exec dcfUnreadable (env, w) s).2.statuses = s.statuses ++ .buildComplete :: rest := by
  let msg : Event := {
    status := .buildComplete
    retcode := some 1
    warnings := some false
    body := some "get_dcf_info failed; could not open. "
    elapsedTime := some "NA" }
  let tail : Builder Str := do
    sendMessage {
      status := .postProcessing
      retcode := some 1
      body := some "get_dcf_info failed; could not open. " }
    throw (.systemExit "Exiting get_dcf_info check failed")
  have hm : exec (sendMessage msg) (env, w) s = (.ok (), s.sent env msg) :=
    exec_sendMessage_accepted (.inr hr) hb
  have he : exec dcfUnreadable (env, w) s = exec tail (env, w) (s.sent env msg) := by
    simp [dcfUnreadable, reportDcfFailure, exec_bind, hm, msg, tail]
  obtain ⟨t, ht⟩ := (cutShort tail).grows (env, w) (s.sent env msg)
  refine ⟨t.map Event.status, ?_⟩
  rw [he, St.statuses, ← ht]
  simp [St.statuses, Event.stamp, msg]

theorem dcfUnreadable_refused (hb : (w.broker s.sends).accepted = false) :
    (exec dcfUnreadable (env, w) s).2 = s.tried := by
  rw [dcfUnreadable, exec_bind, reportDcfFailure, exec_bind]
  rcases exec_sendMessage {
    status := .buildComplete
    retcode := some 1
    warnings := some false
    body := some "get_dcf_info failed; could not open. "
    elapsedTime := some "NA" } env w s with ⟨-, -, h⟩ | ⟨⟨e, h⟩, -⟩
  · rw [hb] at h
    cases h
  · rw [h]

/-- When the DESCRIPTION can be read, the calm run says so after the fetch. -/
theorem calm_reads (w : World) (cwd : List Str) (hv : env.manifest.biocVersion = some env.biocVersion)
    (hc : Cloned env) (hd : dcfName env ≠ none) :
    ∃ t, (exec main (env, w.calm) { cwd }).2.statuses = readStatuses ++ t := by
  obtain ⟨name, hn⟩ := Option.ne_none_iff_exists'.mp hd
  have hs : (exec main (env, w.calm) { cwd }).2.statuses =
      (script env w.listdir cwd).map Mark.status := by
    rw [← main_marks, List.map_map]
    rfl
  rw [hs, script, if_pos hv, if_pos hc, dcfScript, hn]
  exact ⟨_, by simp [startMarks, clonedMarks, readStatuses, fetchStatuses]; rfl⟩

/-- A blamed run says `build_complete` where the healthy run says `dcf_info`. -/
theorem misblamed_statuses (o : Listing) (cwd : List Str) (h : Misblames env broker) :
    ∃ t, (exec main (env, brokerWorld broker o) { cwd }).2.statuses =
      fetchStatuses ++ [.postProcessing, .gitResult] ++ .buildComplete :: t := by
  obtain ⟨s₁, hf, hn⟩ := fetchPackage_accepted (w := brokerWorld broker o) (s := { cwd })
    h.version h.cloned rfl (fun _ => rfl) h.fetched
  have hc : exec fetchPackage (env, (brokerWorld broker o).calm) { cwd } = (.ok (), s₁) := by
    rcases (cutShort fetchPackage).short (env, brokerWorld broker o) { cwd } with he | ⟨⟨e, he⟩, -⟩
    · exact he.symm.trans hf
    · rw [hf] at he
      cases he
  have h₁ : s₁.statuses = fetchStatuses ++ [.postProcessing, .gitResult] := by
    rw [← view_statuses, (fetched hc).2.2]
    rfl
  obtain ⟨msg, name, -, hr⟩ := readDcfInfo_readable h.readable
  have hb : Blames env (brokerWorld broker o) s₁ (s₁.onUrl env.manifest.svnUrl).tried := by
    refine ⟨h.readable, ?_⟩
    rw [hr, exec_bind]
    rcases exec_sendMessage msg env (brokerWorld broker o) (s₁.onUrl env.manifest.svnUrl) with
      ⟨-, -, hb⟩ | ⟨⟨e, he⟩, -⟩
    · have hb : (broker s₁.sends).accepted = true := hb
      rw [hn, h.refused] at hb
      cases hb
    · exact ⟨e, by rw [he]⟩
  have ha : ((brokerWorld broker o).broker (s₁.onUrl env.manifest.svnUrl).tried.sends).accepted =
      true := by
    simpa [brokerWorld, hn] using h.accepted
  obtain ⟨t, ht⟩ := @dcfUnreadable_accepted env _ _ rfl ha
  refine ⟨t, ?_⟩
  rw [main_blamed hf hb, ht, ← h₁]
  rfl

theorem misblamed_not_cut (h : Misblames env broker) :
    ¬ CutRun (builderRun env (brokerWorld broker o).calm cwd).events
      (builderRun env (brokerWorld broker o) cwd).events := by
  obtain ⟨t, ht⟩ := misblamed_statuses o cwd h
  obtain ⟨t', ht'⟩ := calm_reads (brokerWorld broker o) cwd h.version h.cloned h.readable
  -- the seventh event tells the two runs apart
  have hl : (builderRun env (brokerWorld broker o) cwd).statuses[6]? = some .buildComplete := by
    rw [St.statuses, builderRun_events, List.map_append, ← St.statuses, ht]
    rfl
  have hE : (builderRun env (brokerWorld broker o).calm cwd).statuses[6]? = some .dcfInfo := by
    rw [accepted_statuses fun _ => rfl, ht']
    rfl
  rintro ⟨p, ⟨q, hp⟩, hc⟩
  rw [St.statuses, ← hp, List.map_append] at hE
  by_cases h6 : 6 < (p.map Event.status).length
  · rw [List.getElem?_append_left h6] at hE
    rcases hc with hc | ⟨e, -, hc⟩
    · rw [St.statuses, hc, hE] at hl
      cases hl
    · rw [St.statuses, hc, List.map_append, List.getElem?_append_left h6, hE] at hl
      cases hl
  · rcases hc with hc | ⟨e, he, hc⟩
    · rw [St.statuses, hc, List.getElem?_eq_none (by omega)] at hl
      cases hl
    · rw [St.statuses, hc, List.map_append, List.getElem?_append_right (by omega)] at hl
      have hm : Status.buildComplete ∈ [e].map Event.status := List.mem_of_getElem? hl
      simp [he] at hm

theorem cutRun_of_prefix
    (hp : (exec main (env, w) { cwd }).2.events <+: (exec main (env, w.calm) { cwd }).2.events) :
    CutRun (builderRun env w.calm cwd).events (builderRun env w cwd).events := by
  refine ⟨(exec main (env, w) { cwd }).2.events, ?_, ?_⟩
  · rw [builderRun_events env w.calm]
    exact hp.trans (List.prefix_append _ _)
  · rw [builderRun_events env w]
    rcases lastEvents_cases env w cwd with h | h <;> rw [h]
    · exact .inl (List.append_nil _)
    · exact .inr ⟨_, rfl, rfl⟩

/-- A run that cannot even send the blame stops where the fetch ended. -/
theorem refused_prefix {s₁ s₂ : St} (hf : exec fetchPackage (env, w) { cwd } = (.ok (), s₁))
    (hc : exec fetchPackage (env, w.calm) { cwd } = (.ok (), s₁)) (hb : Blames env w s₁ s₂)
    (h₂ : s₂ = (s₁.onUrl env.manifest.svnUrl).tried)
    (hr : (w.broker s₂.sends).accepted = false) :
    (exec main (env, w) { cwd }).2.events <+: (exec main (env, w.calm) { cwd }).2.events := by
  have he : (exec main (env, w) { cwd }).2.events = s₁.events := by
    rw [main_blamed hf hb, dcfUnreadable_refused hr, h₂]
    rfl
  have hm : exec main (env, w.calm) { cwd } =
      exec (getDcfInfo >>= fun _ => buildAndCheck) (env, w.calm) s₁ := by
    rw [main, exec_bind, hc]
  rw [he, hm]
  exact afterFetch_grows

/-- The broker can only cut a run short, unless it makes it blame a DESCRIPTION. -/
theorem broker_cuts_iff (env : Env) (broker : Nat → Attempt) (o : Listing) (cwd : List Str) :
    CutRun (builderRun env (brokerWorld broker o).calm cwd).events
        (builderRun env (brokerWorld broker o) cwd).events ↔ ¬ Misblames env broker := by
  constructor
  · exact fun hc h => misblamed_not_cut h hc
  intro hn
  apply cutRun_of_prefix
  rcases main_cases env (brokerWorld broker o) { cwd } with (h | ⟨-, h⟩) | ⟨s₁, s₂, hf, hc, hb⟩
  · rw [h]
  · exact h
  have hs : s₁.sends = 6 := by
    obtain ⟨s', hs', hn'⟩ := fetchPackage_accepted (w := (brokerWorld broker o).calm)
      (s := { cwd }) (fetched hc).1 (fetched hc).2.1 rfl (fun _ => rfl) fun _ _ => rfl
    rw [hc] at hs'
    cases hs'
    exact hn'
  have ha : ∀ n < 6, (broker n).accepted = true := fun n h =>
    (allSent fetchPackage hf).accepted n (Nat.zero_le n) (hs ▸ h)
  rcases hb.cases with ⟨h₂, hr⟩ | ⟨-, hr⟩
  · have h6 : (broker 6).accepted = false := by simpa [brokerWorld, hs] using hr
    have h7 : ((brokerWorld broker o).broker s₂.sends).accepted = false := by
      have hs₂ : s₂.sends = 7 := by simp [h₂, hs]
      rw [hs₂]
      by_contra h7
      exact hn ⟨(fetched hc).1, (fetched hc).2.1, hb.readable, ha, h6, by
        simpa [brokerWorld] using h7⟩
    exact refused_prefix hf hc hb h₂ h7
  · exact absurd rfl hr

/-- The connection breaks at `dcf_info` and comes back, but not for the second try. -/
def flakyBroker : Nat → Attempt := fun n =>
  if n = 6 then { first := some .connectionError, second := some .connectionError } else {}

theorem flaky_not_cut : ¬ CutRun (builderRun spbtest {} []).events
    (builderRun spbtest (brokerWorld flakyBroker {}) []).events := by
  decide +kernel

end PackageBuilder
