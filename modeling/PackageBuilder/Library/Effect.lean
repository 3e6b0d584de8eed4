import Mathlib

/-! Programs that read an environment, change a state and may raise an exception, and what a
raised exception can do to the log they write. -/
namespace Effect

variable {ρ ε σ ω α β : Type}

abbrev Prog (ρ ε σ : Type) := ReaderT ρ (ExceptT ε (StateM σ))

/-- The state outlives an exception. -/
def exec (m : Prog ρ ε σ α) (r : ρ) (s : σ) : Except ε α × σ := (m.run r).run.run s

section
variable {r : ρ} {s : σ}

@[simp] theorem exec_pure (a : α) : exec (pure a : Prog ρ ε σ α) r s = (.ok a, s) := rfl

@[simp] theorem exec_throw (e : ε) : exec (throw e : Prog ρ ε σ α) r s = (.error e, s) := rfl

@[simp] theorem exec_read : exec (read : Prog ρ ε σ ρ) r s = (.ok r, s) := rfl

@[simp] theorem exec_get : exec (get : Prog ρ ε σ σ) r s = (.ok s, s) := rfl

@[simp] theorem exec_modify (f : σ → σ) :
    exec (modify f : Prog ρ ε σ Unit) r s = (.ok (), f s) := rfl

theorem exec_bind (m : Prog ρ ε σ α) (k : α → Prog ρ ε σ β) :
    exec (m >>= k) r s =
      match exec m r s with
      | (.ok a, s') => exec (k a) r s'
      | (.error e, s') => (.error e, s') := by
  simp only [exec, ReaderT.run, ExceptT.run, StateT.run, bind, ReaderT.bind, ExceptT.bind,
    ExceptT.mk, StateT.bind, ExceptT.bindCont]
  rcases m r s with ⟨_ | _, _⟩ <;> rfl

@[simp] theorem map_ok (f : α → β) (a : α) : Except.map f (.ok a : Except ε α) = .ok (f a) := rfl

@[simp] theorem exec_map (f : α → β) (m : Prog ρ ε σ α) :
    exec (f <$> m) r s = ((exec m r s).1.map f, (exec m r s).2) := by
  rw [← bind_pure_comp, exec_bind]
  rcases exec m r s with ⟨_ | _, _⟩ <;> rfl

theorem exec_tryCatch (m : Prog ρ ε σ α) (h : ε → Prog ρ ε σ α) :
    exec (tryCatch m h) r s =
      match exec m r s with
      | (.ok a, s') => (.ok a, s')
      | (.error e, s') => exec (h e) r s' := by
  simp only [exec, ReaderT.run, ExceptT.run, StateT.run, tryCatch, tryCatchThe,
    MonadExceptOf.tryCatch, ExceptT.tryCatch, ExceptT.mk, bind, StateT.bind]
  rcases m r s with ⟨_ | _, _⟩ <;> rfl

@[simp] theorem exec_ite (c : Prop) [Decidable c] (m n : Prog ρ ε σ α) :
    exec (if c then m else n) r s = if c then exec m r s else exec n r s := by
  split <;> rfl

end

/-- The program comes to its end. -/
def Ends (m : Prog ρ ε σ α) (r : ρ) (s : σ) : Prop := ∃ a, (exec m r s).1 = .ok a

section
variable (Prim : (α : Type) → Prog ρ ε σ α → Prop)

/-- Programs put together from `Prim` programs by sequence, whatever they branch on. -/
class inductive Composed : {α : Type} → Prog ρ ε σ α → Prop
  | prim {α : Type} {m : Prog ρ ε σ α} : Prim α m → Composed m
  | pure {α : Type} (a : α) : Composed (pure a)
  | throw {α : Type} (e : ε) : Composed (throw e : Prog ρ ε σ α)
  | bind {α β : Type} {m : Prog ρ ε σ α} {k : α → Prog ρ ε σ β} :
    Composed m → (∀ a, Composed (k a)) → Composed (m >>= k)

variable {Prim}

instance (a : α) : Composed Prim (pure a : Prog ρ ε σ α) := .pure a

instance (e : ε) : Composed Prim (throw e : Prog ρ ε σ α) := .throw e

instance composed_bind (m : Prog ρ ε σ α) (k : α → Prog ρ ε σ β) [hm : Composed Prim m]
    [hk : ∀ a, Composed Prim (k a)] : Composed Prim (m >>= k) :=
  .bind hm hk

instance (c : Prop) [Decidable c] (m n : Prog ρ ε σ α) [hm : Composed Prim m]
    [hn : Composed Prim n] : Composed Prim (if c then m else n) := by
  split
  · exact hm
  · exact hn

/-- `P` is an invariant of the program, also when it raises. -/
def Keeps (P : σ → Prop) (r : ρ) (m : Prog ρ ε σ α) : Prop := ∀ s, P s → P (exec m r s).2

section
variable {P : σ → Prop} {r : ρ}

theorem Keeps.bind {m : Prog ρ ε σ α} {k : α → Prog ρ ε σ β} (hm : Keeps P r m)
    (hk : ∀ a, Keeps P r (k a)) : Keeps P r (m >>= k) := by
  intro s hs
  have h := hm s hs
  rw [exec_bind]
  rcases hx : exec m r s with ⟨_ | a, s'⟩ <;> rw [hx] at h
  · exact h
  · exact hk a s' h

theorem Keeps.tryCatch {m : Prog ρ ε σ α} {h : ε → Prog ρ ε σ α} (hm : Keeps P r m)
    (hh : ∀ e, Keeps P r (h e)) : Keeps P r (MonadExcept.tryCatch m h) := by
  intro s hs
  have hp := hm s hs
  rw [exec_tryCatch]
  rcases hx : exec m r s with ⟨e | a, s'⟩ <;> rw [hx] at hp
  · exact hh e s' hp
  · exact hp

theorem Composed.keeps (prim : ∀ {α : Type} {m : Prog ρ ε σ α}, Prim α m → Keeps P r m)
    {m : Prog ρ ε σ α} (hm : Composed Prim m) : Keeps P r m := by
  induction hm with
  | prim h => exact prim h
  | pure a => exact fun s h => h
  | throw e => exact fun s h => h
  | bind _ _ ihm ihk => exact .bind ihm ihk

end

/-- The induction rule for what a program that returns has done. -/
theorem Composed.returns {R : σ → σ → Prop} {r : ρ} (refl : ∀ s, R s s)
    (trans : ∀ s₁ s₂ s₃, R s₁ s₂ → R s₂ s₃ → R s₁ s₃)
    (prim : ∀ {α : Type} {m : Prog ρ ε σ α}, Prim α m →
      ∀ s a s', exec m r s = (.ok a, s') → R s s')
    {m : Prog ρ ε σ α} (hm : Composed Prim m) : ∀ s a s', exec m r s = (.ok a, s') → R s s' := by
  induction hm with
  | prim h => exact prim h
  | pure a =>
    intro s b s' h
    cases h
    exact refl s
  | throw e =>
    intro s b s' h
    cases h
  | @bind α β m k _ _ ihm ihk =>
    intro s b s' h
    rw [exec_bind] at h
    rcases hx : exec m r s with ⟨_ | a, s₁⟩ <;> rw [hx] at h
    · cases h
    · exact trans s s₁ s' (ihm s a s₁ hx) (ihk a s₁ b s' h)

end

section
variable (out : σ → List ω) (calm : ρ → ρ) (Quiet : ρ → Prop)

/-- From `s`, a run in `r` is the one in `r'`, or ends in an exception with a prefix of its log. -/
def CutAt (m : Prog ρ ε σ α) (r r' : ρ) (s : σ) : Prop :=
  exec m r s = exec m r' s ∨
    (∃ e, (exec m r s).1 = .error e) ∧ out (exec m r s).2 <+: out (exec m r' s).2

/-- Trouble in the environment can only cut the run of a program short: the log grows, and a
quiet environment is as good as a calm one. -/
structure Cut (m : Prog ρ ε σ α) : Prop where
  grows : ∀ r s, out s <+: out (exec m r s).2
  quiet : ∀ r s, Quiet r → exec m r s = exec m (calm r) s
  short : ∀ r s, CutAt out m r (calm r) s

variable {out calm Quiet}

theorem CutAt.bind {m : Prog ρ ε σ α} {k : α → Prog ρ ε σ β} {r r' : ρ} {s : σ}
    (hm : CutAt out m r r' s)
    (hk : ∀ a s', exec m r s = (.ok a, s') → exec m r' s = (.ok a, s') → CutAt out (k a) r r' s')
    (hg : ∀ a s', out s' <+: out (exec (k a) r' s').2) : CutAt out (m >>= k) r r' s := by
  rw [CutAt, exec_bind, exec_bind]
  rcases hm with heq | ⟨⟨e, he⟩, hp⟩
  · rw [← heq]
    rcases hx : exec m r s with ⟨_ | a, s'⟩
    · exact .inl rfl
    · exact hk a s' hx (by rw [← heq, hx])
  · -- the other run goes on from here, and only adds to its log
    right
    rcases hx : exec m r s with ⟨x, s'⟩
    rw [hx] at he hp
    cases he
    refine ⟨⟨e, rfl⟩, hp.trans ?_⟩
    rcases exec m r' s with ⟨_ | a, s''⟩
    · exact List.prefix_rfl
    · exact hg a s''

/-- A step that reads nothing troublesome and leaves the log alone. -/
theorem Cut.steady {m : Prog ρ ε σ α} (hc : ∀ r s, exec m r s = exec m (calm r) s)
    (ho : ∀ r s, out (exec m r s).2 = out s) : Cut out calm Quiet m where
  grows r s := by rw [ho]
  quiet r s _ := hc r s
  short r s := .inl (hc r s)

theorem Cut.bind {m : Prog ρ ε σ α} {k : α → Prog ρ ε σ β} (hm : Cut out calm Quiet m)
    (hk : ∀ a, Cut out calm Quiet (k a)) : Cut out calm Quiet (m >>= k) where
  grows r s := by
    rw [exec_bind]
    have h := hm.grows r s
    rcases hx : exec m r s with ⟨_ | a, s'⟩
    · simpa [hx] using h
    · rw [hx] at h
      exact h.trans ((hk a).grows r s')
  quiet r s hq := by
    rw [exec_bind, exec_bind, ← hm.quiet r s hq]
    rcases exec m r s with ⟨_ | a, s'⟩
    · rfl
    · exact (hk a).quiet r s' hq
  short r s := (hm.short r s).bind (fun a s' _ _ => (hk a).short r s')
    fun a s' => (hk a).grows (calm r) s'

variable {Prim : (α : Type) → Prog ρ ε σ α → Prop}

theorem Composed.cut
    (prim : ∀ {α : Type} {m : Prog ρ ε σ α}, Prim α m → Cut out calm Quiet m)
    {m : Prog ρ ε σ α} (hm : Composed Prim m) : Cut out calm Quiet m := by
  induction hm with
  | prim h => exact prim h
  | pure a => exact .steady (fun _ _ => rfl) (fun _ _ => rfl)
  | throw e => exact .steady (fun _ _ => rfl) (fun _ _ => rfl)
  | bind _ _ ihm ihk => exact .bind ihm ihk

end

section
variable (out : σ → List ω) (good : ω → Prop) (r r' : ρ)

/-- Two environments that a program can only tell apart by logging something bad. -/
structure Agree (m : Prog ρ ε σ α) : Prop where
  grows : ∀ r s, out s <+: out (exec m r s).2
  same : ∀ s, (∀ x ∈ out (exec m r s).2, good x) → (∀ x ∈ out (exec m r' s).2, good x) →
    exec m r s = exec m r' s

variable {out good r r'}

theorem Agree.bind {m : Prog ρ ε σ α} {k : α → Prog ρ ε σ β} (hm : Agree out good r r' m)
    (hk : ∀ a, Agree out good r r' (k a)) : Agree out good r r' (m >>= k) := by
  have hg : ∀ r s, out (exec m r s).2 <+: out (exec (m >>= k) r s).2 := by
    intro r s
    rw [exec_bind]
    rcases exec m r s with ⟨_ | a, s'⟩
    · exact List.prefix_rfl
    · exact (hk a).grows r s'
  refine ⟨fun r s => (hm.grows r s).trans (hg r s), fun s h h' => ?_⟩
  have heq := hm.same s (fun x hx => h x ((hg r s).subset hx)) fun x hx => h' x ((hg r' s).subset hx)
  rw [exec_bind] at h h' ⊢
  rw [exec_bind, ← heq]
  rw [← heq] at h'
  rcases hx : exec m r s with ⟨_ | a, s'⟩
  · rfl
  · rw [hx] at h h'
    exact (hk a).same s' h h'

theorem Agree.tryCatch {m : Prog ρ ε σ α} {h : ε → Prog ρ ε σ α} (hm : Agree out good r r' m)
    (hh : ∀ e, Agree out good r r' (h e)) : Agree out good r r' (MonadExcept.tryCatch m h) := by
  have hg : ∀ r s, out (exec m r s).2 <+: out (exec (MonadExcept.tryCatch m h) r s).2 := by
    intro r s
    rw [exec_tryCatch]
    rcases exec m r s with ⟨e | _, s'⟩
    · exact (hh e).grows r s'
    · exact List.prefix_rfl
  refine ⟨fun r s => (hm.grows r s).trans (hg r s), fun s h h' => ?_⟩
  have heq := hm.same s (fun x hx => h x ((hg r s).subset hx)) fun x hx => h' x ((hg r' s).subset hx)
  rw [exec_tryCatch] at h h' ⊢
  rw [exec_tryCatch, ← heq]
  rw [← heq] at h'
  rcases hx : exec m r s with ⟨e | _, s'⟩
  · rw [hx] at h h'
    exact (hh e).same s' h h'
  · rfl

variable {Prim : (α : Type) → Prog ρ ε σ α → Prop}

theorem Composed.agree
    (prim : ∀ {α : Type} {m : Prog ρ ε σ α}, Prim α m → Agree out good r r' m)
    {m : Prog ρ ε σ α} (hm : Composed Prim m) : Agree out good r r' m := by
  induction hm with
  | prim h => exact prim h
  | pure a => exact ⟨fun _ _ => List.prefix_rfl, fun _ _ _ => rfl⟩
  | throw e => exact ⟨fun _ _ => List.prefix_rfl, fun _ _ _ => rfl⟩
  | bind _ _ ihm ihk => exact .bind ihm ihk

end

section
variable {ν : Type} (view : σ → ν)

/-- From `s`, the program ends with `x` in a state seen as `v`. -/
def Yields (m : Prog ρ ε σ α) (r : ρ) (s : σ) (x : Except ε α) (v : ν) : Prop :=
  (exec m r s).1 = x ∧ view (exec m r s).2 = v

variable {view} {m : Prog ρ ε σ α} {k : α → Prog ρ ε σ β} {r : ρ} {s : σ} {a : α} {v w : ν}

/-- After a program that returns, the rest runs from a state seen as it left it. -/
theorem Yields.goes_on (hm : Yields view m r s (.ok a) v) :
    ∃ s', view s' = v ∧ exec (m >>= k) r s = exec (k a) r s' := by
  obtain ⟨hx, hv⟩ := hm
  rcases h : exec m r s with ⟨x, s'⟩
  rw [h] at hx hv
  cases hx
  exact ⟨s', hv, by rw [exec_bind, h]⟩

theorem Yields.bind {y : Except ε β} (hm : Yields view m r s (.ok a) v)
    (hk : ∀ s', view s' = v → Yields view (k a) r s' y w) : Yields view (m >>= k) r s y w := by
  obtain ⟨s', hs, he⟩ := hm.goes_on (k := k)
  rw [Yields, he]
  exact hk s' hs

theorem Yields.bind_error {e : ε} (hm : Yields view m r s (.error e) v) :
    Yields view (m >>= k) r s (.error e) v := by
  obtain ⟨hx, hv⟩ := hm
  rcases h : exec m r s with ⟨x, s'⟩
  rw [h] at hx hv
  cases hx
  rw [Yields, exec_bind, h]
  exact ⟨rfl, hv⟩

end
end Effect
