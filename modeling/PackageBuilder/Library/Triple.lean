import PackageBuilder.Library.Effect

/-! Pre- and postconditions of programs that may raise an exception. -/
namespace Effect

variable {ρ ε σ α β : Type}

/-- From a state with `P` the program returns in one with `Q`, or raises in one with `E`. -/
def Triple (r : ρ) (P : σ → Prop) (m : Prog ρ ε σ α) (Q : α → σ → Prop) (E : σ → Prop) : Prop :=
  ∀ s, P s → (∀ a, (exec m r s).1 = .ok a → Q a (exec m r s).2) ∧
    (∀ e, (exec m r s).1 = .error e → E (exec m r s).2)

section
variable {r : ρ} {P P' : σ → Prop} {Q Q' : α → σ → Prop} {R : β → σ → Prop} {E E' : σ → Prop}
  {m n : Prog ρ ε σ α} {k : α → Prog ρ ε σ β}

theorem Triple.pure {a : α} (h : ∀ s, P s → Q a s) : Triple r P (pure a : Prog ρ ε σ α) Q E := by
  intro s hs
  refine ⟨?_, nofun⟩
  rintro _ ⟨⟩
  exact h s hs

theorem Triple.throw {e : ε} (h : ∀ s, P s → E s) : Triple r P (throw e : Prog ρ ε σ α) Q E :=
  fun s hs => ⟨nofun, fun _ _ => h s hs⟩

theorem Triple.bind (hm : Triple r P m Q E) (hk : ∀ a, Triple r (Q a) (k a) R E) :
    Triple r P (m >>= k) R E := by
  intro s hs
  obtain ⟨hok, herror⟩ := hm s hs
  simp only [exec_bind]
  rcases hx : exec m r s with ⟨e | a, s'⟩ <;> rw [hx] at hok herror
  · exact ⟨nofun, fun _ _ => herror e rfl⟩
  · exact hk a s' (hok a rfl)

theorem Triple.throw_bind {e : ε} (h : ∀ s, P s → E s) :
    Triple r P ((MonadExcept.throw e : Prog ρ ε σ α) >>= k) R E :=
  Triple.bind (Q := fun _ _ => False) (.throw h) fun _ _ hs => hs.elim

theorem Triple.ite {c : Prop} [Decidable c] (hm : c → Triple r P m Q E)
    (hn : ¬ c → Triple r P n Q E) : Triple r P (if c then m else n) Q E := by
  split
  · exact hm ‹_›
  · exact hn ‹_›

/-- The rule of consequence. -/
theorem Triple.mono (h : Triple r P m Q E) (hP : ∀ s, P' s → P s) (hQ : ∀ a s, Q a s → Q' a s)
    (hE : ∀ s, E s → E' s) : Triple r P' m Q' E' := by
  intro s hs
  obtain ⟨hok, herror⟩ := h s (hP s hs)
  exact ⟨fun a ha => hQ a _ (hok a ha), fun e he => hE _ (herror e he)⟩

/-- What a program returns may be known apart from its states. -/
theorem Triple.returns {V : α → Prop} (h : Triple r P m Q E)
    (hV : ∀ s a, (exec m r s).1 = .ok a → V a) : Triple r P m (fun a s => V a ∧ Q a s) E := by
  intro s hs
  obtain ⟨hok, herror⟩ := h s hs
  exact ⟨fun a ha => ⟨hV s a ha, hok a ha⟩, herror⟩

theorem Triple.of_keeps (h : Keeps P r m) (hE : ∀ s, P s → E s) : Triple r P m (fun _ => P) E :=
  fun s hs => ⟨fun _ _ => h s hs, fun _ _ => hE _ (h s hs)⟩

/-- However the program ends. -/
theorem Triple.state (h : Triple r P m Q E) (hQ : ∀ a s, Q a s → E s) {s : σ} (hs : P s) :
    E (exec m r s).2 := by
  obtain ⟨hok, herror⟩ := h s hs
  rcases hx : (exec m r s).1 with e | a
  · exact herror e hx
  · exact hQ a _ (hok a hx)

end
end Effect
