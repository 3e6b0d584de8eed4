import PackageBuilder.Builder.Sequence

/-! Trouble around a run of builder.py only cuts its stages short. -/
namespace PackageBuilder
open Text Effect

/-- The same run in a calm world. -/
def calmed (r : Env × World) : Env × World := (r.1, r.2.calm)

abbrev CutShort {α : Type} (m : Builder α) : Prop :=
  Cut St.events calmed (fun r => r.2.Quiet) m

@[simps!] def St.sent (s : St) (env : Env) (e : Event) : St := s.tried.accepted (e.stamp env)

/-- What one `send_message` does: accepted, or an exception and only its count left. -/
theorem exec_sendMessage (msg : Event) (env : Env) (w : World) (s : St) :
    exec (sendMessage msg) (env, w) s = (.ok (), s.sent env msg) ∧
        (s.exiting = true ∨ w.raises s.sends = none) ∧ (w.broker s.sends).accepted = true ∨
      (∃ e, exec (sendMessage msg) (env, w) s = (.error e, s.tried)) ∧
        ¬ ((s.exiting = true ∨ w.raises s.sends = none) ∧ (w.broker s.sends).accepted = true) := by
  rcases hw : w.broker s.sends with ⟨first, reconnect, second⟩
  rcases hx : s.exiting with _ | _ <;> rcases hr : w.raises s.sends with _ | e
  case false.some =>
    exact .inr ⟨⟨e, by simp [sendMessage, environment, nextAttempt, exec_bind, *]⟩, by simp⟩
  all_goals
    rcases first with _ | e
    · left
      simp [sendMessage, environment, nextAttempt, exec_bind, St.sent, Attempt.accepted, *]
    by_cases he : e = .connectionError
    · rcases reconnect with _ | _ <;> rcases second with _ | _ <;>
        simp [sendMessage, environment, nextAttempt, exec_bind, St.sent, Attempt.accepted, *]
    · simp [sendMessage, environment, nextAttempt, exec_bind, Attempt.accepted, *]

theorem exec_sendMessage_accepted {msg : Event} {env : Env} {w : World} {s : St}
    (hr : s.exiting = true ∨ w.raises s.sends = none) (hb : (w.broker s.sends).accepted = true) :
    exec (sendMessage msg) (env, w) s = (.ok (), s.sent env msg) := by
  rcases exec_sendMessage msg env w s with h | ⟨-, h⟩
  · exact h.1
  · exact absurd ⟨hr, hb⟩ h

@[simp] theorem exec_sendMessage_calm (msg : Event) (env : Env) (w : World) (s : St) :
    exec (sendMessage msg) (env, w.calm) s = (.ok (), s.sent env msg) :=
  exec_sendMessage_accepted (.inr rfl) rfl

theorem cut_sendMessage (msg : Event) : CutShort (sendMessage msg) where
  grows := by
    rintro ⟨env, w⟩ s
    rcases exec_sendMessage msg env w s with ⟨h, -⟩ | ⟨⟨e, h⟩, -⟩ <;> simp [h]
  quiet := by
    rintro ⟨env, w⟩ s hq
    simp only [calmed, exec_sendMessage_calm]
    exact exec_sendMessage_accepted (.inr (hq.raises _)) (hq.broker _)
  short := by
    rintro ⟨env, w⟩ s
    simp only [CutAt, calmed, exec_sendMessage_calm]
    rcases exec_sendMessage msg env w s with ⟨h, -⟩ | ⟨⟨e, h⟩, -⟩
    · exact .inl h
    · exact .inr ⟨⟨e, by rw [h]⟩, by simp [h]⟩

theorem exec_interrupted (env : Env) (w : World) (s : St) :
    exec interrupted (env, w) s =
      (match w.raisesInDcf with | some e => .error e | none => .ok (), s) := by
  rcases h : w.raisesInDcf <;> simp [interrupted, exec_bind, h]

theorem cut_interrupted : CutShort interrupted where
  grows := by
    rintro ⟨env, w⟩ s
    rw [exec_interrupted]
  quiet := by
    rintro ⟨env, w⟩ s hq
    have h : w.raisesInDcf = none := hq.raisesInDcf
    simp [exec_interrupted, h, calmed, World.calm]
  short := by
    rintro ⟨env, w⟩ s
    rcases h : w.raisesInDcf <;> simp [CutAt, exec_interrupted, h, calmed, World.calm]

/-- What `get_source_tarball_name` finds at the n-th listing. -/
def tarballIn (env : Env) (o : Listing) (n : Nat) (d : List Str) : Option Str :=
  (o.order n d).find? (isTarball (tarballPkgname env.manifest))

/-- The call returns unless the working directory is gone. -/
theorem exec_getSourceTarballName (env : Env) (w : World) (s : St) :
    exec getSourceTarballName (env, w) s =
      if w.gone s.listings = true then (.error (.fileNotFoundError "."), s.listed)
      else (.ok (tarballIn env w.listdir s.listings s.cwd),
        s.listed.answered (tarballIn env w.listdir s.listings s.cwd)) := by
  rcases hg : w.gone s.listings <;>
    simp [getSourceTarballName, environment, osListdir, exec_bind, hg, tarballIn]

theorem exec_getSourceTarballName_there {env : Env} {w : World} {s : St}
    (h : w.gone s.listings = false) : exec getSourceTarballName (env, w) s =
      (.ok (tarballIn env w.listdir s.listings s.cwd),
        s.listed.answered (tarballIn env w.listdir s.listings s.cwd)) := by
  rw [exec_getSourceTarballName, if_neg (by simp [h])]

@[simp] theorem exec_getSourceTarballName_calm (env : Env) (w : World) (s : St) :
    exec getSourceTarballName (env, w.calm) s =
      (.ok (tarballIn env w.listdir s.listings s.cwd),
        s.listed.answered (tarballIn env w.listdir s.listings s.cwd)) :=
  exec_getSourceTarballName_there rfl

theorem cut_getSourceTarballName : CutShort getSourceTarballName where
  grows := by
    rintro ⟨env, w⟩ s
    rw [exec_getSourceTarballName]
    split <;> exact List.prefix_rfl
  quiet := by
    rintro ⟨env, w⟩ s hq
    rw [calmed, exec_getSourceTarballName_calm, exec_getSourceTarballName_there (hq.there _)]
  short := by
    rintro ⟨env, w⟩ s
    rw [CutAt, calmed, exec_getSourceTarballName_calm, exec_getSourceTarballName]
    split
    · exact .inr ⟨⟨_, rfl⟩, List.prefix_rfl⟩
    · exact .inl rfl

theorem cut_primitive {α : Type} {m : Builder α} (hm : Primitive α m) : CutShort m := by
  cases hm with
  | environment | state => exact .steady (fun _ _ => rfl) (fun _ _ => rfl)
  | change f he _ _ => exact .steady (fun _ _ => rfl) (fun _ => he)
  | send msg => exact cut_sendMessage msg
  | tarball => exact cut_getSourceTarballName
  | interrupted => exact cut_interrupted

theorem cutShort {α : Type} (m : Builder α) [h : Sequential m] : CutShort m :=
  h.cut cut_primitive

end PackageBuilder
