import Mathlib

/-! Components that take turns, each with a state of its own and one state shared by all. -/
namespace Interleaving

structure Config (ι L S : Type) where
  parts : ι → L
  shared : S

/-- What a component does when one of its threads gets a turn. -/
abbrev Program (ι κ L S : Type) := ι → κ → L × S → L × S

variable {ι κ L S : Type}

def Config.view (c : Config ι L S) (i : ι) : L × S := (c.parts i, c.shared)

variable [DecidableEq ι] (step : Program ι κ L S)

def act (c : Config ι L S) (x : ι × κ) : Config ι L S :=
  let r := step x.1 x.2 (c.view x.1)
  { parts := Function.update c.parts x.1 r.1, shared := r.2 }

def run (c : Config ι L S) (xs : List (ι × κ)) : Config ι L S := xs.foldl (act step) c

/-- The turns of one component, with what it reads of the shared state in each. -/
def met {α : Type} (f : S → α) (i : ι) (c : Config ι L S) : List (ι × κ) → List (κ × α)
  | [] => []
  | x :: xs => (if x.1 = i then [(x.2, f c.shared)] else []) ++ met f i (act step c x) xs

variable {step} {c : Config ι L S} {x : ι × κ} {xs ys : List (ι × κ)} {i : ι}

@[simp] theorem run_nil : run step c [] = c := rfl

theorem run_cons : run step c (x :: xs) = run step (act step c x) xs := rfl

theorem run_append : run step c (xs ++ ys) = run step (run step c xs) ys := List.foldl_append

theorem run_concat : run step c (xs ++ [x]) = act step (run step c xs) x := by
  rw [run_append, run_cons, run_nil]

theorem met_concat {α : Type} {f : S → α} : met step f i c (xs ++ [x]) =
    met step f i c xs ++ if x.1 = i then [(x.2, f (run step c xs).shared)] else [] := by
  induction xs generalizing c with
  | nil => simp [met]
  | cons y xs ih => simp [met, ih, run_cons]

@[simp] theorem view_act_self : (act step c x).view x.1 = step x.1 x.2 (c.view x.1) := by
  simp [act, Config.view]

@[simp] theorem parts_act_other (h : i ≠ x.1) : (act step c x).parts i = c.parts i := by
  simp [act, h]

theorem view_act_other (h : i ≠ x.1) :
    (act step c x).view i = (c.parts i, (step x.1 x.2 (c.view x.1)).2) := by
  simp [act, Config.view, h]

/-- What every turn preserves holds after a run. -/
theorem run_invariant {P : Config ι L S → Prop} (hstep : ∀ c, ∀ x ∈ xs, P c → P (act step c x))
    (hc : P c) : P (run step c xs) := by
  induction xs generalizing c with
  | nil => exact hc
  | cons x xs ih =>
    rw [run_cons]
    apply ih
    · intro d y hy
      exact hstep d y (List.mem_cons_of_mem x hy)
    · exact hstep c x List.mem_cons_self hc

/-- An invariant of each component, with the shared state as that component sees it: its own
turns keep it, and so do the turns of any other component that has it. -/
theorem view_invariant {Q : ι → L × S → Prop}
    (hown : ∀ i k a, Q i a → Q i (step i k a))
    (hother : ∀ i j k l m s, i ≠ j → Q i (l, s) → Q j (m, s) → Q i (l, (step j k (m, s)).2))
    (hc : ∀ i, Q i (c.view i)) : ∀ i, Q i ((run step c xs).view i) := by
  apply run_invariant (P := fun c => ∀ i, Q i (c.view i)) _ hc
  intro d x _ hd i
  by_cases hi : i = x.1
  · subst hi
    rw [view_act_self]
    exact hown x.1 x.2 _ (hd x.1)
  · rw [view_act_other hi]
    exact hother i x.1 x.2 _ _ _ hi (hd i) (hd x.1)

/-- A component among others does what it does alone, where it reads the same in each of its turns:
they keep the relation between the two, and the turns of the others, which have the invariant `Q`,
do not disturb it. -/
theorem run_simulates {α : Type} {f : S → α} (turn : κ → α → L × S → L × S) {v : L × S}
    {Q : ι → L × S → Prop} {Sim : L × S → L × S → Prop}
    (hown : ∀ i k a, Q i a → Q i (step i k a))
    (hother : ∀ i j k l m s, i ≠ j → Q i (l, s) → Q j (m, s) → Q i (l, (step j k (m, s)).2))
    (hsim : ∀ k u v, Q i u → Sim u v → Sim (step i k u) (turn k (f u.2) v))
    (hframe : ∀ j k l m s v, i ≠ j → Q i (l, s) → Q j (m, s) → Sim (l, s) v →
      Sim (l, (step j k (m, s)).2) v)
    (hc : ∀ i, Q i (c.view i)) (hv : Sim (c.view i) v) :
    Sim ((run step c xs).view i)
      ((met step f i c xs).foldl (fun v y => turn y.1 y.2 v) v) := by
  induction xs using List.reverseRecOn with
  | nil => exact hv
  | append_singleton xs x ih =>
    have hq : ∀ i, Q i ((run step c xs).view i) := view_invariant hown hother hc
    rw [run_concat, met_concat, List.foldl_append]
    by_cases hi : x.1 = i
    · subst hi
      rw [if_pos rfl, view_act_self]
      exact hsim x.2 _ _ (hq x.1) ih
    · rw [if_neg hi, view_act_other (Ne.symm hi)]
      exact hframe x.1 x.2 _ _ _ _ (Ne.symm hi) (hq i) (hq x.1) ih

end Interleaving
