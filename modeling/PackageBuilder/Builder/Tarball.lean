import PackageBuilder.Builder.Run

/-! Which file `get_source_tarball_name` returns over a whole run. -/
namespace PackageBuilder
open Text Effect

/-- `t` is in the directory `d`, and no other entry passes the test of
`get_source_tarball_name`. -/
structure Only (env : Env) (t : Str) (d : List Str) : Prop where
  mem : t ∈ d
  passes : isTarball (tarballPkgname env.manifest) t = true
  unique : ∀ x ∈ d, isTarball (tarballPkgname env.manifest) x = true → x = t

/-- Every call of the run returned `t`. -/
def Kept (t : Str) (s : St) : Prop := ∀ c ∈ s.named, c.2 = some t

def World.listed (w : World) (o : Listing) : World := { w with listdir := o }

variable {env : Env} {w : World} {o : Listing} {s : St} {t : Str} {d cwd : List Str}

theorem tarballIn_of_only (h : Only env t d) (n : Nat) : tarballIn env o n d = some t := by
  rcases hx : tarballIn env o n d with _ | x
  · have hn : hasTarball env d = true := List.any_eq_true.mpr ⟨t, h.mem, h.passes⟩
    rw [tarballIn_eq_none.mp hx] at hn
    cases hn
  · have hm : x ∈ d := (o.perm n d).mem_iff.mp (List.mem_of_find?_eq_some hx)
    rw [h.unique x hm (List.find?_some hx)]

theorem of_tarballIn {n : Nat} (h : tarballIn env o n d = some t) :
    t ∈ d ∧ isTarball (tarballPkgname env.manifest) t = true :=
  ⟨(o.perm n d).mem_iff.mp (List.mem_of_find?_eq_some h), List.find?_some h⟩

/-- A listing that shows `x` first. -/
def firstListing (x : Str) : Listing where
  order _ d := if x ∈ d then x :: d.erase x else d
  perm _ d := by
    split
    · exact (List.perm_cons_erase ‹_›).symm
    · exact .rfl

theorem tarballIn_first {x : Str} {n : Nat} (hm : x ∈ d)
    (hp : isTarball (tarballPkgname env.manifest) x = true) :
    tarballIn env (firstListing x) n d = some x := by
  simp [tarballIn, firstListing, hm, hp]

/-- Every logged answer was found in its directory at some listing. -/
def Answered (env : Env) (o : Listing) (s : St) : Prop :=
  ∀ c ∈ s.named, ∃ n, c.2 = tarballIn env o n c.1

theorem exec_sendMessage_named (msg : Event) :
    (exec (sendMessage msg) (env, w) s).2.named = s.named := by
  rcases exec_sendMessage msg env w s with ⟨h, -⟩ | ⟨⟨e, h⟩, -⟩ <;> rw [h] <;> rfl

theorem answered_primitive {α : Type} {m : Builder α} (hm : Primitive α m) :
    Keeps (Answered env w.listdir) (env, w) m := by
  intro s h
  cases hm with
  | environment | state => exact h
  | change f _ _ hn =>
    rw [Answered, exec_modify, hn]
    exact h
  | send msg =>
    rw [Answered, exec_sendMessage_named]
    exact h
  | interrupted =>
    rw [exec_interrupted]
    exact h
  | tarball =>
    intro c hc
    rw [exec_getSourceTarballName] at hc
    split at hc
    · exact h c hc
    rcases List.mem_append.mp hc with hc | hc
    · exact h c hc
    · cases List.mem_singleton.mp hc
      exact ⟨s.listings, rfl⟩

theorem answered {α : Type} (m : Builder α) [hm : Sequential m] :
    Keeps (Answered env w.listdir) (env, w) m :=
  hm.keeps answered_primitive

theorem getDcfInfo_answered : Keeps (Answered env w.listdir) (env, w) getDcfInfo := by
  have hc : Keeps (Answered env w.listdir) (env, w) (tryCatch readDcfInfo fun _ => dcfUnreadable) :=
    (answered readDcfInfo).tryCatch fun _ => answered dcfUnreadable
  rw [getDcfInfo]
  refine (answered environment).bind fun env' => ?_
  refine (answered (modify fun s => s.onUrl env'.manifest.svnUrl)).bind fun _ => ?_
  exact hc.bind fun name => answered (checkDescName name)

theorem builderRun_answered (env : Env) (w : World) (cwd : List Str) :
    Answered env w.listdir (builderRun env w cwd) := by
  have hm : Keeps (Answered env w.listdir) (env, w) main :=
    (answered fetchPackage).bind fun _ => getDcfInfo_answered.bind fun _ => answered buildAndCheck
  refine answered onexit _ (hm { cwd } ?_)
  exact fun c hc => absurd hc List.not_mem_nil

/-- As long as every call returns `t`, the order of the listings cannot be seen. -/
abbrev Alike (t : Str) (env : Env) (w : World) (o o' : Listing) {α : Type} (m : Builder α) : Prop :=
  Agree St.named (fun c => c.2 = some t) (env, w.listed o) (env, w.listed o') m

theorem exec_sendMessage_listed (msg : Event) (o o' : Listing) :
    exec (sendMessage msg) (env, w.listed o) s = exec (sendMessage msg) (env, w.listed o') s := by
  have hn : exec nextAttempt (env, w.listed o) s = exec nextAttempt (env, w.listed o') s := rfl
  simp only [sendMessage, exec_bind, exec_environment, hn]
  rcases exec nextAttempt (env, w.listed o') s with ⟨_ | ⟨_ | e, ⟨_ | e₁, reconnect, second⟩⟩, s'⟩
  any_goals rfl
  by_cases he : e₁ = .connectionError
  · rcases reconnect with _ | _ <;> rcases second with _ | _ <;> simp [he]
  · simp [he]

theorem alike_primitive {o' : Listing} {α : Type} {m : Builder α} (hm : Primitive α m) :
    Alike t env w o o' m := by
  cases hm with
  | environment | state => exact ⟨fun _ _ => List.prefix_rfl, fun _ _ _ => rfl⟩
  | change f _ _ hn =>
    refine ⟨fun r s => ?_, fun _ _ _ => rfl⟩
    rw [exec_modify, hn]
  | send msg =>
    refine ⟨fun r s => ?_, fun s _ _ => exec_sendMessage_listed msg o o'⟩
    rw [exec_sendMessage_named]
  | interrupted =>
    refine ⟨fun r s => ?_, fun s _ _ => ?_⟩
    · rw [exec_interrupted]
    · rw [exec_interrupted, exec_interrupted]
      rfl
  | tarball =>
    refine ⟨fun r s => ?_, fun s h h' => ?_⟩
    · rw [exec_getSourceTarballName]
      split
      · exact List.prefix_rfl
      · exact List.prefix_append _ _
    rw [exec_getSourceTarballName, exec_getSourceTarballName]
    rw [exec_getSourceTarballName] at h h'
    by_cases hg : w.gone s.listings = true
    · simp [World.listed, hg]
    simp only [World.listed, hg] at h h' ⊢
    have ho : tarballIn env o s.listings s.cwd = some t :=
      h (s.cwd, tarballIn env o s.listings s.cwd) (List.mem_append_right _ List.mem_cons_self)
    have ho' : tarballIn env o' s.listings s.cwd = some t :=
      h' (s.cwd, tarballIn env o' s.listings s.cwd) (List.mem_append_right _ List.mem_cons_self)
    rw [ho, ho']

theorem alike {o' : Listing} {α : Type} (m : Builder α) [hm : Sequential m] :
    Alike t env w o o' m :=
  hm.agree alike_primitive

theorem getDcfInfo_alike {o' : Listing} : Alike t env w o o' getDcfInfo := by
  have hc : Alike t env w o o' (tryCatch readDcfInfo fun _ => dcfUnreadable) :=
    (alike readDcfInfo).tryCatch fun _ => alike dcfUnreadable
  rw [getDcfInfo]
  refine (alike environment).bind fun env' => ?_
  refine (alike (modify fun s => s.onUrl env'.manifest.svnUrl)).bind fun _ => ?_
  exact hc.bind fun name => alike (checkDescName name)

theorem main_alike {o' : Listing} : Alike t env w o o' main :=
  (alike fetchPackage).bind fun _ => getDcfInfo_alike.bind fun _ => alike buildAndCheck

/-- Two runs in which every call returns `t` are the same. -/
theorem builderRun_alike {o' : Listing} (h : Kept t (builderRun env (w.listed o) cwd))
    (h' : Kept t (builderRun env (w.listed o') cwd)) :
    builderRun env (w.listed o) cwd = builderRun env (w.listed o') cwd := by
  have hg : ∀ o, (exec main (env, w.listed o) { cwd }).2.named <+:
      (builderRun env (w.listed o) cwd).named := fun o₁ =>
    (alike onexit : Alike t env w o o' onexit).grows (env, w.listed o₁) _
  have hm := main_alike.same { cwd } (fun c hc => h c ((hg o).subset hc))
    fun c hc => h' c ((hg o').subset hc)
  rw [builderRun, hm]
  refine congrArg Prod.snd ((alike onexit).same _ ?_ h')
  rw [← hm]
  exact h

/-- The calls of a run return `t` for every order of the listings exactly when `t` is the only
entry that passes their test wherever they look. -/
theorem tarball_kept_iff (env : Env) (w : World) (cwd : List Str) (t : Str) :
    (∀ o, Kept t (builderRun env (w.listed o) cwd)) ↔
      ∀ o, ∀ c ∈ (builderRun env (w.listed o) cwd).named, Only env t c.1 := by
  constructor
  · intro h o c hc
    obtain ⟨n, hn⟩ := builderRun_answered env (w.listed o) cwd c hc
    obtain ⟨hm, hp⟩ := of_tarballIn (hn.symm.trans (h o c hc))
    refine ⟨hm, hp, fun x hx hpx => ?_⟩
    -- the same run with `x` listed first reaches the same call
    rw [builderRun_alike (h o) (h (firstListing x))] at hc
    obtain ⟨n', hn'⟩ := builderRun_answered env (w.listed (firstListing x)) cwd c hc
    have hx' : c.2 = some x := hn'.trans (tarballIn_first hx hpx)
    rw [h (firstListing x) c hc] at hx'
    exact (Option.some.inj hx').symm
  · intro h o c hc
    obtain ⟨n, hn⟩ := builderRun_answered env (w.listed o) cwd c hc
    rw [hn]
    exact tarballIn_of_only (h o c hc) n

/-- An earlier run of the same commit was killed before it cleaned up. -/
theorem leftover_tarball_returned :
    ∃ c ∈ (builderRun spbtest {} ["spbtest5_0.98.0.tar.gz"]).named,
      ofString "spbtest5_0.99.0.tar.gz" ∈ c.1 ∧ c.2 = some (ofString "spbtest5_0.98.0.tar.gz") := by
  decide +kernel

end PackageBuilder
