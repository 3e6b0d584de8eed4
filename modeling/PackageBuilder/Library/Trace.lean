import Mathlib

/-! Properties of a finite trace that say what may stand before and after each entry. -/
namespace Trace

variable {α : Type} {l l' : List α} {x : α}

/-- Every entry fits what precedes and what follows it. -/
def Each (ok : List α → α → List α → Prop) (l : List α) : Prop :=
  ∀ p x q, l = p ++ x :: q → ok p x q

/-- Every entry is allowed by what precedes it. -/
abbrev Always (ok : List α → α → Prop) (l : List α) : Prop := Each (fun p x _ => ok p x) l

/-- `Each` for the rest `l` of a trace that starts with `past`. -/
def EachFrom (ok : List α → α → List α → Prop) : List α → List α → Prop
  | _, [] => True
  | past, x :: l => ok past x l ∧ EachFrom ok (past ++ [x]) l

section
variable {ok : List α → α → List α → Prop}

theorem eachFrom_iff {past : List α} :
    EachFrom ok past l ↔ ∀ p x q, l = p ++ x :: q → ok (past ++ p) x q := by
  induction l generalizing past with
  | nil => simp [EachFrom]
  | cons y l ih =>
    rw [EachFrom, ih]
    constructor
    · rintro ⟨hy, h⟩ p x q hl
      cases p with
      | nil =>
        obtain ⟨rfl, rfl⟩ := List.cons.inj hl
        simpa using hy
      | cons z p =>
        obtain ⟨rfl, ht⟩ := List.cons.inj hl
        simpa using h p x q ht
    · intro h
      refine ⟨by simpa using h [] y l rfl, ?_⟩
      intro p x q hl
      simpa using h (y :: p) x q (by rw [hl, List.cons_append])

theorem each_iff_eachFrom : Each ok l ↔ EachFrom ok [] l := by
  rw [eachFrom_iff]
  rfl

instance EachFrom.decidable [∀ p x q, Decidable (ok p x q)] :
    ∀ past l, Decidable (EachFrom ok past l)
  | _, [] => isTrue trivial
  | past, x :: l =>
    have := EachFrom.decidable (past ++ [x]) l
    inferInstanceAs (Decidable (ok past x l ∧ EachFrom ok (past ++ [x]) l))

instance [∀ p x q, Decidable (ok p x q)] : Decidable (Each ok l) :=
  decidable_of_iff _ each_iff_eachFrom.symm

end

section
variable {ok : List α → α → Prop}

theorem Always.shorten (h : Always ok l) (hp : l' <+: l) : Always ok l' := by
  obtain ⟨t, rfl⟩ := hp
  intro p x q hl
  exact h p x (q ++ t) (by rw [hl, List.append_assoc, List.cons_append])

/-- One more entry only has to fit what is there. -/
theorem always_append_singleton : Always ok (l ++ [x]) ↔ Always ok l ∧ ok l x := by
  constructor
  · intro h
    exact ⟨h.shorten (List.prefix_append l [x]), h l x [] rfl⟩
  · rintro ⟨h, hx⟩ p y q hl
    rcases List.eq_nil_or_concat q with rfl | ⟨q, z, rfl⟩
    · obtain ⟨rfl, hy⟩ := List.append_inj' hl rfl
      cases hy
      exact hx
    · rw [List.concat_eq_append, ← List.cons_append, ← List.append_assoc] at hl
      exact h p y q (List.append_inj' hl rfl).1

end

section
variable {y : α} {p q r xs : List α}

theorem suffix_rtakeWhile {P : α → Bool} (h : ∀ z ∈ q, P z = true) :
    q <:+ (p ++ q).rtakeWhile P := by
  refine ⟨(p.reverse.takeWhile P).reverse, ?_⟩
  rw [← List.reverse_reverse (p ++ q), List.rtakeWhile_reverse, List.reverse_append,
    List.takeWhile_append_of_pos (by simpa using h), List.reverse_append, List.reverse_reverse]

variable [DecidableEq α]

/-- If no `x` comes while another is open, a `y` closes it between any two. -/
theorem Always.between (h : Always (fun past z => z = x → x ∉ past.rtakeWhile (· ≠ y)) l)
    (hxy : x ≠ y) (hl : l = p ++ x :: (q ++ x :: r)) : y ∈ q := by
  by_contra hq
  have hc := h (p ++ x :: q) x r (by simp [hl]) rfl
  have hs : x :: q <:+ (p ++ x :: q).rtakeWhile (· ≠ y) := by
    apply suffix_rtakeWhile
    intro z hz
    rcases List.mem_cons.mp hz with rfl | hz
    · simpa using hxy
    · exact decide_eq_true fun he => hq (he ▸ hz)
  exact hc (hs.subset List.mem_cons_self)

theorem Always.count_le_one (h : Always (fun past z => z ∈ xs → z ∉ past) l) (hx : x ∈ xs) :
    l.count x ≤ 1 := by
  induction l using List.reverseRecOn with
  | nil => simp
  | append_singleton l z ih =>
    obtain ⟨hl, hz⟩ := always_append_singleton.mp h
    by_cases hzx : z = x
    · have hn : l.count x = 0 := List.count_eq_zero.mpr (hzx ▸ hz (hzx ▸ hx))
      simp [hn, hzx]
    · simpa [hzx] using ih hl

end
end Trace
