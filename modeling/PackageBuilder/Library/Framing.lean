import Mathlib

/-! Streams of frames that a separator of several letters ends: the first occurrence of the
separator, splitting at all of them, and streams that arrive in chunks. -/
namespace Framing

variable {α : Type} [DecidableEq α]

/-- What precedes and what follows the first occurrence of `sep`. -/
def cut (sep : List α) : List α → Option (List α × List α)
  | [] => if sep = [] then some ([], []) else none
  | c :: s =>
    if sep <+: c :: s then some ([], (c :: s).drop sep.length)
    else (cut sep s).map fun x => (c :: x.1, x.2)

/-- The counter is what remains to skip of a separator, `acc` the piece read so far, backwards. -/
def piecesGo (sep : List α) : ℕ → List α → List α → List (List α)
  | _, acc, [] => [acc.reverse]
  | k + 1, acc, _ :: s => piecesGo sep k acc s
  | 0, acc, c :: s =>
    if sep <+: c :: s then acc.reverse :: piecesGo sep (sep.length - 1) [] s
    else piecesGo sep 0 (c :: acc) s

/-- The pieces between all occurrences of a separator that is not empty. -/
def pieces (sep s : List α) : List (List α) := piecesGo sep 0 [] s

/-- After `g`, the separator is the first one in the stream. -/
def Free (sep g : List α) : Prop := ¬ sep <:+: g ++ sep.dropLast

instance (sep g : List α) : Decidable (Free sep g) := inferInstanceAs (Decidable (¬ _))

variable {sep g s t acc p : List α} {a b c : α} {k : ℕ} {gs chunks : List (List α)}

omit [DecidableEq α] in
theorem Free.not_infix (h : Free sep g) : ¬ sep <:+: g :=
  fun hs => h (hs.trans (List.prefix_append g sep.dropLast).isInfix)

omit [DecidableEq α] in
theorem Free.tail (h : Free sep (c :: g)) : Free sep g :=
  fun hs => h (hs.trans (List.suffix_cons c _).isInfix)

omit [DecidableEq α] in
theorem dropLast_prefix_frame : g ++ sep.dropLast <+: g ++ sep ++ t :=
  ((List.prefix_append_right_inj g).mpr (List.dropLast_prefix sep)).trans (List.prefix_append _ t)

omit [DecidableEq α] in
/-- A separator at the head of a stream is no later than the one after a free piece. -/
theorem Free.not_prefix (hsep : sep ≠ []) (h : Free sep (c :: g)) :
    ¬ sep <+: c :: (g ++ sep ++ t) := by
  intro hp
  have hshort : c :: g ++ sep.dropLast <+: c :: g ++ sep ++ t := dropLast_prefix_frame
  have hlen : sep.length ≤ (c :: g ++ sep.dropLast).length := by
    have := List.length_pos_of_ne_nil hsep
    simp only [List.cons_append, List.length_cons, List.length_append, List.length_dropLast]
    omega
  exact h (List.prefix_of_prefix_length_le hp hshort hlen).isInfix

theorem cut_free (hsep : sep ≠ []) (h : Free sep g) : cut sep (g ++ sep ++ t) = some (g, t) := by
  induction g with
  | nil =>
    obtain ⟨c, r, rfl⟩ := List.exists_cons_of_ne_nil hsep
    rw [List.nil_append, List.cons_append, cut, if_pos ⟨t, rfl⟩, List.length_cons,
      List.drop_succ_cons, List.drop_left]
  | cons c g ih =>
    have hn : ¬ sep <+: c :: (g ++ sep ++ t) := h.not_prefix hsep
    rw [List.cons_append, List.cons_append, cut, if_neg hn, ih h.tail, Option.map_some]

/-- A stream with the separator in it has a first occurrence. -/
theorem exists_free (hsep : sep ≠ []) (h : sep <:+: s) : ∃ g t, s = g ++ sep ++ t ∧ Free sep g := by
  induction s with
  | nil => exact absurd (List.infix_nil.mp h) hsep
  | cons c s ih =>
    by_cases hp : sep <+: c :: s
    · obtain ⟨t, ht⟩ := hp
      refine ⟨[], t, ht.symm, ?_⟩
      intro hs
      have hl := hs.length_le
      rw [List.nil_append, List.length_dropLast] at hl
      have := List.length_pos_of_ne_nil hsep
      omega
    · obtain ⟨g, t, rfl, hg⟩ := ih ((List.infix_cons_iff.mp h).resolve_left hp)
      refine ⟨c :: g, t, rfl, ?_⟩
      intro hs
      rcases List.infix_cons_iff.mp hs with hs | hs
      · exact hp (hs.trans (dropLast_prefix_frame (g := c :: g)))
      · exact hg hs

theorem piecesGo_skip : piecesGo sep k acc s = piecesGo sep 0 acc (s.drop k) := by
  induction k generalizing s with
  | zero => rfl
  | succ k ih =>
    cases s with
    | nil => rfl
    | cons c s => exact ih

theorem piecesGo_free (hsep : sep ≠ []) (h : Free sep g) :
    piecesGo sep 0 acc (g ++ sep ++ t) = (acc.reverse ++ g) :: pieces sep t := by
  induction g generalizing acc with
  | nil =>
    obtain ⟨c, r, rfl⟩ := List.exists_cons_of_ne_nil hsep
    rw [List.nil_append, List.cons_append, piecesGo, if_pos ⟨t, rfl⟩, piecesGo_skip,
      List.length_cons, Nat.add_sub_cancel, List.drop_left, List.append_nil]
    rfl
  | cons c g ih =>
    have hn : ¬ sep <+: c :: (g ++ sep ++ t) := h.not_prefix hsep
    rw [List.cons_append, List.cons_append, piecesGo, if_neg hn, ih h.tail, List.reverse_cons,
      List.append_assoc]
    rfl

theorem pieces_free (hsep : sep ≠ []) (h : Free sep g) :
    pieces sep (g ++ sep ++ t) = g :: pieces sep t :=
  piecesGo_free hsep h

theorem pieces_absent (h : ¬ sep <:+: s) : pieces sep s = [s] := by
  have hgo : ∀ acc, piecesGo sep 0 acc s = [acc.reverse ++ s] := by
    induction s with
    | nil => simp [piecesGo]
    | cons c s ih =>
      intro acc
      have hp : ¬ sep <+: c :: s := fun hp => h hp.isInfix
      have hs : ¬ sep <:+: s := fun hs => h (hs.trans (List.suffix_cons c s).isInfix)
      rw [piecesGo, if_neg hp, ih hs, List.reverse_cons, List.append_assoc]
      rfl
  exact hgo []

/-- Whole frames are found one by one. -/
theorem pieces_frames (hsep : sep ≠ []) (h : ∀ g ∈ gs, Free sep g) :
    pieces sep (gs.flatMap (· ++ sep) ++ t) = gs ++ pieces sep t := by
  induction gs with
  | nil => rfl
  | cons g gs ih =>
    obtain ⟨hg, hrest⟩ := List.forall_mem_cons.mp h
    rw [List.flatMap_cons, List.append_assoc, pieces_free hsep hg, ih hrest, List.cons_append]

theorem mem_pieces (hsep : sep ≠ []) (h : p ∈ pieces sep s) : p <:+: s ∧ ¬ sep <:+: p := by
  induction hn : s.length using Nat.strong_induction_on generalizing s with
  | h n ih =>
    by_cases hs : sep <:+: s
    · obtain ⟨g, t, rfl, hg⟩ := exists_free hsep hs
      rw [pieces_free hsep hg] at h
      rcases List.mem_cons.mp h with rfl | h
      · exact ⟨⟨[], sep ++ t, by simp⟩, hg.not_infix⟩
      · have ht : t.length < n := by
          rw [← hn, List.length_append, List.length_append]
          have := List.length_pos_of_ne_nil hsep
          omega
        obtain ⟨hp, hfree⟩ := ih t.length ht h rfl
        exact ⟨hp.trans (List.suffix_append (g ++ sep) t).isInfix, hfree⟩
    · rw [pieces_absent hs, List.mem_singleton] at h
      subst h
      exact ⟨List.infix_rfl, hs⟩

omit [DecidableEq α] in
theorem free_pair_iff (hab : a ≠ b) : Free [a, b] g ↔ ¬ [a, b] <:+: g := by
  refine ⟨Free.not_infix, fun h hs => h ?_⟩
  obtain ⟨x, y, hxy⟩ := hs
  rcases List.eq_nil_or_concat y with rfl | ⟨y, z, rfl⟩
  · rw [List.append_nil] at hxy
    have hlast := congrArg List.getLast? hxy
    simp only [List.dropLast_cons_cons, List.dropLast_singleton, List.getLast?_append,
      List.getLast?_cons_cons, List.getLast?_singleton, Option.some_or, Option.some.injEq] at hlast
    exact absurd hlast.symm hab
  · rw [List.concat_eq_append, ← List.append_assoc] at hxy
    exact ⟨x, y, (List.append_inj' hxy rfl).1⟩

section
variable {ls : List (List α)}

omit [DecidableEq α] in
theorem mem_intercalate (h : c ∈ [a].intercalate ls) : c = a ∨ ∃ l ∈ ls, c ∈ l := by
  induction ls with
  | nil => cases h
  | cons l ls ih =>
    cases ls with
    | nil => exact .inr ⟨l, List.mem_cons_self, by simpa using h⟩
    | cons k ls =>
      rw [List.intercalate_cons_cons, List.append_assoc] at h
      rcases List.mem_append.mp h with h | h
      · exact .inr ⟨l, List.mem_cons_self, h⟩
      · rcases List.mem_cons.mp h with rfl | h
        · exact .inl rfl
        · exact (ih h).imp_right fun ⟨m, hm, hc⟩ => ⟨m, List.mem_cons_of_mem l hm, hc⟩

omit [DecidableEq α] in
/-- A doubled letter is not found before the first one. -/
theorem double_infix_iff (ha : a ∉ g) :
    [a, a] <:+: g ++ a :: t ↔ t.head? = some a ∨ [a, a] <:+: t := by
  induction g with
  | nil =>
    rw [List.nil_append, List.infix_cons_iff, List.cons_prefix_cons]
    cases t with
    | nil => simp
    | cons d t => simp [@eq_comm _ a d]
  | cons c g ih =>
    rw [List.mem_cons, not_or] at ha
    have hp : ¬ [a, a] <+: c :: (g ++ a :: t) := fun hp => ha.1 (List.cons_prefix_cons.mp hp).1
    rw [List.cons_append, List.infix_cons_iff, or_iff_right hp, ih ha.2]

omit [DecidableEq α] in
/-- Lines that are not empty are followed by the first doubled line end. -/
theorem free_lines (h : ∀ l ∈ ls, l ≠ [] ∧ a ∉ l) : Free [a, a] ([a].intercalate ls) := by
  induction ls with
  | nil => exact fun hs => absurd hs.length_le (by simp)
  | cons l ls ih =>
    obtain ⟨⟨-, hl⟩, hrest⟩ := List.forall_mem_cons.mp h
    have hend : ∀ t : List α, t ++ [a, a].dropLast = t ++ [a] := fun _ => rfl
    cases ls with
    | nil =>
      rw [Free, hend, List.intercalate_singleton, double_infix_iff hl]
      simp
    | cons k ls =>
      obtain ⟨hk, hka⟩ := hrest k List.mem_cons_self
      obtain ⟨c, k, rfl⟩ := List.exists_cons_of_ne_nil hk
      rw [Free, hend, List.intercalate_cons_cons, List.append_assoc, List.append_assoc,
        List.singleton_append, double_infix_iff hl, not_or]
      refine ⟨?_, ih hrest⟩
      have hhead : ([a].intercalate ((c :: k) :: ls) ++ [a]).head? = some c := by
        cases ls <;> simp [List.intercalate_cons_cons]
      rw [hhead, Option.some.injEq]
      rintro rfl
      exact hka List.mem_cons_self

end

/-- A frame that begins with a letter not in the separator comes out of its chunks as one piece if
and only if the first chunk holds all of it, with the separator or without. -/
theorem piece_of_chunks_iff (hsep : sep ≠ []) (hc : c ∉ sep) (hg : Free sep (c :: g))
    (hne : [] ∉ chunks) (hchunks : chunks.flatten = c :: g ++ sep) :
    (∃ d ∈ chunks, c :: g ∈ pieces sep d) ↔
      chunks.head? = some (c :: g) ∨ chunks.head? = some (c :: g ++ sep) := by
  constructor
  · rintro ⟨d, hd, hp⟩
    obtain ⟨hin, -⟩ := mem_pieces hsep hp
    cases chunks with
    | nil => cases hd
    | cons first rest =>
      rw [List.flatten_cons] at hchunks
      rcases List.mem_cons.mp hd with rfl | hr
      · rw [List.head?_cons, Option.some.injEq, Option.some.injEq]
        rcases List.append_eq_append_iff.mp hchunks with ⟨x, hx, -⟩ | ⟨x, rfl, hx⟩
        · -- the chunk is no shorter than the frame
          have hl := hin.length_le
          rw [hx, List.length_append] at hl
          have hx' : x = [] := List.eq_nil_of_length_eq_zero (by omega)
          exact .inl (by rw [hx, hx', List.append_nil])
        · by_cases hrest : rest.flatten = []
          · exact .inr (by rw [hx, hrest, List.append_nil])
          · -- a part of the separator stays with the frame
            left
            have hpre : x <+: sep.dropLast := by
              rw [hx, List.dropLast_append_of_ne_nil hrest]
              exact List.prefix_append x _
            have hfree : ¬ sep <:+: c :: g ++ x := fun hs =>
              hg (hs.trans ((List.prefix_append_right_inj _).mpr hpre).isInfix)
            rw [pieces_absent hfree, List.mem_singleton] at hp
            exact hp.symm
      · -- a later chunk has too few of the first letter
        exfalso
        obtain ⟨f, first, rfl⟩ := List.exists_cons_of_ne_nil
          fun he => hne (he ▸ List.mem_cons_self (a := first) (l := rest))
        rw [List.cons_append, List.cons_append] at hchunks
        obtain ⟨-, htail⟩ := List.cons.inj hchunks
        have hsub : (c :: g).Sublist (g ++ sep) := by
          rw [← htail]
          exact (hin.sublist.trans (List.sublist_flatten_of_mem hr)).trans
            (List.sublist_append_right first _)
        have hcount := hsub.count_le c
        rw [List.count_cons_self, List.count_append, List.count_eq_zero.mpr hc] at hcount
        omega
  · intro h
    cases chunks with
    | nil => rcases h with h | h <;> cases h
    | cons first rest =>
      refine ⟨first, List.mem_cons_self, ?_⟩
      rw [List.head?_cons, Option.some.injEq, Option.some.injEq] at h
      rcases h with rfl | rfl
      · rw [pieces_absent hg.not_infix]
        exact List.mem_cons_self
      · rw [← List.append_nil (c :: g ++ sep), pieces_free hsep hg]
        exact List.mem_cons_self

end Framing
