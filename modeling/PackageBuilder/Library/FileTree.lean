import Mathlib

/-! A file tree as the list of its entries with their paths, and the calls that read and
change it. -/
namespace FileTree

inductive Entry (α : Type)
  | dir
  | file (content : α)
  deriving DecidableEq, Repr

abbrev Tree (ν α : Type) := List (List ν × Entry α)

def Entry.map {α β : Type} (f : α → β) : Entry α → Entry β
  | .dir => .dir
  | .file x => .file (f x)

section
variable {ν α β : Type} [DecidableEq ν] (t : Tree ν α)

def entry (p : List ν) : Option (Entry α) := List.lookup p t

def present (p : List ν) : Bool := (entry t p).isSome

def content (p : List ν) : Option α :=
  match entry t p with
  | some (.file x) => some x
  | _ => none

/-- The root of the tree is a directory, and has no entry. -/
def IsDir (p : List ν) : Prop := p = [] ∨ entry t p = some .dir

instance [DecidableEq α] (p : List ν) : Decidable (IsDir t p) := inferInstanceAs (Decidable (_ ∨ _))

def put (p : List ν) (e : Entry α) : Tree ν α := t.filter (fun q => q.1 ≠ p) ++ [(p, e)]

/-- `none` when the call raises: the path is taken, or its parent is no directory. -/
def mkdir [DecidableEq α] (p : List ν) : Option (Tree ν α) :=
  if present t p = false ∧ IsDir t p.dropLast then some (put t p .dir) else none

def write (p : List ν) (x : α) : Tree ν α := put t p (.file x)

/-- `rm -rf` -/
def rmTree (p : List ν) : Tree ν α := t.filter fun q => ¬ p <+: q.1

/-- The names in a directory, in the order of the entries. -/
def names (d : List ν) : List ν :=
  t.filterMap fun q => if q.1.dropLast = d then q.1.getLast? else none

/-- The entries on some paths, with their contents seen through `f`. -/
def part (keep : List ν → Prop) [DecidablePred keep] (f : α → β) : Tree ν β :=
  (t.filter fun q => keep q.1).map fun q => (q.1, q.2.map f)

end

section
variable {ν α : Type} [DecidableEq ν] {t t' : Tree ν α} {p q d : List ν} {e : Entry α} {x : α}

@[simp] theorem entry_nil : entry ([] : Tree ν α) p = none := rfl

theorem entry_cons {r : List ν × Entry α} :
    entry (r :: t) p = if r.1 = p then some r.2 else entry t p := by
  obtain ⟨q, e⟩ := r
  by_cases h : q = p
  · subst h
    simp [entry]
  · have hb : (p == q) = false := by simpa using fun he => h he.symm
    simp [entry, List.lookup, hb, h]

theorem entry_append : entry (t ++ t') p = (entry t p).or (entry t' p) := by
  induction t with
  | nil => simp
  | cons r t ih =>
    rw [List.cons_append, entry_cons, entry_cons, ih]
    split <;> simp

theorem entry_filter (P : List ν → Bool) :
    entry (t.filter fun q => P q.1) p = if P p then entry t p else none := by
  induction t with
  | nil => simp
  | cons r t ih =>
    rw [entry_cons, List.filter_cons]
    by_cases hp : r.1 = p
    · subst hp
      by_cases hP : P r.1 <;> simp_all [entry_cons]
    · by_cases hP : P r.1 <;> simp_all [entry_cons]

theorem entry_put : entry (put t p e) q = if p = q then some e else entry t q := by
  rw [put, entry_append, entry_filter fun r => decide (r ≠ p)]
  by_cases h : p = q
  · subst h
    simp [entry_cons]
  · have hq : q ≠ p := fun he => h he.symm
    simp [entry_cons, h, hq]

@[simp] theorem entry_put_self : entry (put t p e) p = some e := by simp [entry_put]

theorem entry_put_ne (h : p ≠ q) : entry (put t p e) q = entry t q := by simp [entry_put, h]

theorem entry_rmTree : entry (rmTree t p) q = if p <+: q then none else entry t q := by
  rw [rmTree, entry_filter fun r => decide (¬ p <+: r)]
  by_cases h : p <+: q <;> simp [h]

theorem entry_rmTree_other (h : ¬ p <+: q) : entry (rmTree t p) q = entry t q := by
  simp [entry_rmTree, h]

theorem present_iff : present t p = true ↔ entry t p ≠ none := by
  simp [present, Option.isSome_iff_ne_none]

theorem not_present_iff : present t p = false ↔ entry t p = none := by
  simp [present]

variable [DecidableEq α]

/-- All there is to know about a call of `mkdir` that succeeds. -/
theorem mkdir_eq_some :
    mkdir t p = some t' ↔ entry t p = none ∧ IsDir t p.dropLast ∧ t' = put t p .dir := by
  unfold mkdir
  split
  · rename_i h
    rw [not_present_iff] at h
    constructor
    · intro he
      exact ⟨h.1, h.2, (Option.some.inj he).symm⟩
    · rintro ⟨-, -, rfl⟩
      rfl
  · rename_i h
    rw [not_present_iff] at h
    constructor
    · intro he
      cases he
    · rintro ⟨h1, h2, -⟩
      exact absurd ⟨h1, h2⟩ h

theorem mkdir_eq_none (h : entry t p ≠ none) : mkdir t p = none := by
  cases hm : mkdir t p with
  | none => rfl
  | some t' => exact absurd (mkdir_eq_some.mp hm).1 h

end

section
variable {ν α β : Type} [DecidableEq ν] {t t' : Tree ν α} {p d : List ν} {e : Entry α}
  {keep : List ν → Prop} [DecidablePred keep] {f : α → β}

theorem entry_map (t : Tree ν α) :
    entry (t.map fun q => (q.1, q.2.map f)) p = (entry t p).map (Entry.map f) := by
  induction t with
  | nil => rfl
  | cons r t ih =>
    rw [List.map_cons, entry_cons, entry_cons, ih]
    split <;> simp

theorem entry_part (h : keep p) : entry (part t keep f) p = (entry t p).map (Entry.map f) := by
  rw [part, entry_map, entry_filter fun q => decide (keep q)]
  simp [h]

theorem present_part (h : keep p) : present (part t keep f) p = present t p := by
  simp [present, entry_part h]

theorem content_part (h : keep p) : content (part t keep f) p = (content t p).map f := by
  unfold content
  rw [entry_part h]
  cases entry t p with
  | none => rfl
  | some e => cases e <;> rfl

omit [DecidableEq ν] in
theorem part_filter (t : Tree ν α) (P : List ν → Bool) :
    part (t.filter fun q => P q.1) keep f = (part t keep f).filter fun q => P q.1 := by
  simp only [part, List.filter_map, List.filter_filter, Function.comp_def]
  congr 1
  apply List.filter_congr
  intro q _
  exact Bool.and_comm _ _

theorem part_put (h : keep p) : part (put t p e) keep f = put (part t keep f) p (e.map f) := by
  have hf : part (t.filter fun q => q.1 ≠ p) keep f = (part t keep f).filter fun q => q.1 ≠ p :=
    part_filter t fun q => decide (q ≠ p)
  rw [put, put, ← hf]
  simp [part, h]

/-- A change at a path that is not kept is not seen. -/
theorem part_put_other (h : ¬ keep p) : part (put t p e) keep f = part t keep f := by
  have hp : ([(p, e)] : Tree ν α).filter (fun q => keep q.1) = [] := by simp [h]
  rw [put, part, List.filter_append, hp, List.append_nil, List.filter_filter, part]
  congr 1
  apply List.filter_congr
  intro q _
  by_cases hk : keep q.1
  · have hne : q.1 ≠ p := fun he => h (he ▸ hk)
    simp [hk, hne]
  · simp [hk]

theorem part_rmTree : part (rmTree t p) keep f = rmTree (part t keep f) p :=
  part_filter t fun q => decide (¬ p <+: q)

theorem part_rmTree_other (h : ∀ q, p <+: q → ¬ keep q) :
    part (rmTree t p) keep f = part t keep f := by
  rw [rmTree, part, List.filter_filter, part]
  congr 1
  apply List.filter_congr
  intro q _
  by_cases hk : keep q.1
  · have hne : ¬ p <+: q.1 := fun he => h q.1 he hk
    simp [hk, hne]
  · simp [hk]

theorem names_part (h : ∀ q, q.dropLast = d → q ≠ [] → keep q) :
    names (part t keep f) d = names t d := by
  induction t with
  | nil => rfl
  | cons r t ih =>
    unfold part names at *
    rw [List.filter_cons, List.filterMap_cons]
    by_cases hk : keep r.1
    · simp [hk, List.filterMap_cons, ih]
    · have hn : (if r.1.dropLast = d then r.1.getLast? else none) = none := by
        split
        · rename_i hd
          by_cases hr : r.1 = []
          · simp [hr]
          · exact absurd (h r.1 hd hr) hk
        · rfl
      simp [hk, ih, hn]

end

/-- Some entries are put or removed, all of them at paths with `P`, and put only with `E`. -/
inductive Touched {ν α : Type} [DecidableEq ν] (P : List ν → Prop) (E : Entry α → Prop) :
    Tree ν α → Tree ν α → Prop
  | refl (t : Tree ν α) : Touched P E t t
  | put {t t' : Tree ν α} {p : List ν} {e : Entry α} (h : Touched P E t t') (hp : P p) (he : E e) :
    Touched P E t (put t' p e)
  | rmTree {t t' : Tree ν α} {p : List ν} (h : Touched P E t t') (hp : P p) :
    Touched P E t (rmTree t' p)

section
variable {ν α β : Type} [DecidableEq ν] {P : List ν → Prop} {E : Entry α → Prop}
  {t t' : Tree ν α} {q : List ν} {keep : List ν → Prop} [DecidablePred keep] {f : α → β}

theorem Touched.entry_eq (h : Touched P E t t') (hq : ∀ p, P p → ¬ p <+: q) :
    entry t' q = entry t q := by
  induction h with
  | refl => rfl
  | put _ hp _ ih =>
    rw [entry_put_ne, ih]
    rintro rfl
    exact hq _ hp List.prefix_rfl
  | rmTree _ hp ih => rw [entry_rmTree_other (hq _ hp), ih]

theorem Touched.part_eq (h : Touched P E t t') (hk : ∀ p, P p → ∀ q, p <+: q → ¬ keep q) :
    part t' keep f = part t keep f := by
  induction h with
  | refl => rfl
  | put _ hp _ ih => rw [part_put_other (hk _ hp _ List.prefix_rfl), ih]
  | rmTree _ hp ih => rw [part_rmTree_other (hk _ hp), ih]

/-- An entry that is there was there before or is one of those put. -/
theorem Touched.entry_cases (h : Touched P E t t') {e : Entry α} (he : entry t' q = some e) :
    entry t q = some e ∨ E e := by
  induction h with
  | refl => exact .inl he
  | @put t' p e' _ _ hE ih =>
    rw [entry_put] at he
    split at he
    · cases he
      exact .inr hE
    · exact ih he
  | rmTree _ _ ih =>
    rw [entry_rmTree] at he
    split at he
    · cases he
    · exact ih he

end

example : names [(["a"], .dir), (["a", "b"], .file 1), (["a", "c", "d"], .file 2),
    (["a", "c"], .dir)] ["a"] = ["b", "c"] := by decide

end FileTree
