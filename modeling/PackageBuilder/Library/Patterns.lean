import PackageBuilder.Library.Text

/-! What replacing and splitting by patterns leave of a text. -/
namespace Text

section
variable {p : Pattern} {new s : Str} {c : Char} {k : Nat}

theorem mem_of_mem_replaceGo (h : c ∈ replaceGo p new k s) : c ∈ new ∨ c ∈ s := by
  induction s generalizing k with
  | nil => simp [replaceGo] at h
  | cons a s ih =>
    cases k with
    | succ k => exact (ih h).imp_right (List.mem_cons_of_mem a)
    | zero =>
      rw [replaceGo] at h
      split at h
      · rcases List.mem_append.mp h with h | h
        · exact .inl h
        · exact (ih h).imp_right (List.mem_cons_of_mem a)
      · rcases List.mem_cons.mp h with rfl | h
        · exact .inr List.mem_cons_self
        · exact (ih h).imp_right (List.mem_cons_of_mem a)

/-- Every character of the result is from the text or from what was put in. -/
theorem mem_of_mem_replaceAll (h : c ∈ replaceAll p new s) : c ∈ new ∨ c ∈ s :=
  mem_of_mem_replaceGo h

/-- `s.split(c)[0]` -/
theorem headD_splitOn_subset : (s.splitOn c).headD [] ⊆ s := by
  by_cases h : c ∈ s
  · obtain ⟨a, b, rfl, ha⟩ := List.eq_append_cons_of_mem h
    rw [List.splitOn_append_cons_self, List.splitOn_eq_singleton ha]
    exact List.subset_append_left a (c :: b)
  · rw [List.splitOn_eq_singleton h]
    exact List.Subset.refl s

end

section
variable {x y s : Str} {p : Char → Bool}

theorem dropWhile_append_of_head (hy : ∀ c ∈ y.head?, p c = false) :
    (x ++ y).dropWhile p = x.dropWhile p ++ y := by
  rw [List.dropWhile_append]
  split
  next h =>
    rw [List.isEmpty_iff.mp h, List.nil_append]
    cases y with
    | nil => rfl
    | cons c y => exact List.dropWhile_cons_of_neg (by simp [hy c rfl])
  next => rfl

theorem rdropWhile_append_of_last (hx : ∀ c ∈ x.getLast?, p c = false) :
    (x ++ y).rdropWhile p = x ++ y.rdropWhile p := by
  rw [List.rdropWhile, List.reverse_append, dropWhile_append_of_head, List.reverse_append,
    List.reverse_reverse]
  · rfl
  · rwa [List.head?_reverse]

theorem drop_takeWhile_length : s.drop (s.takeWhile p).length = s.dropWhile p := by
  induction s with
  | nil => rfl
  | cons a s ih => by_cases ha : p a = true <;> simp [ha, ih]

end

/-- The pattern of a separator and the blanks after it. -/
abbrev separator (mark : Str) : Pattern := seq (lit mark) (many ' ')

abbrev dropBlanks (s : Str) : Str := s.dropWhile (· == ' ')

section
variable {p : Pattern} {new acc mark s x y : Str} {c : Char} {k : Nat}

theorem splitGo_skip : splitGo p k acc s = splitGo p 0 acc (s.drop k) := by
  induction k generalizing s with
  | zero => rfl
  | succ k ih =>
    cases s with
    | nil => rfl
    | cons a s => exact ih

theorem replaceGo_skip : replaceGo p new k s = replaceGo p new 0 (s.drop k) := by
  induction k generalizing s with
  | zero => rfl
  | succ k ih =>
    cases s with
    | nil => rfl
    | cons a s => exact ih

theorem separator_eq : separator mark s =
    if mark <+: s then some (mark.length + ((s.drop mark.length).takeWhile (· == ' ')).length)
    else none := by
  rw [separator, seq, lit]
  split <;> rfl

theorem separator_match (hm : mark ≠ []) : ∃ k, separator mark (mark ++ s) = some (k + 1) ∧
    (mark ++ s).drop (k + 1) = dropBlanks s := by
  obtain ⟨c, mark, rfl⟩ := List.exists_cons_of_ne_nil hm
  refine ⟨mark.length + (s.takeWhile (· == ' ')).length, ?_, ?_⟩
  · rw [separator_eq, if_pos (List.prefix_append _ s), List.drop_left, List.length_cons]
    congr 1
    omega
  · rw [dropBlanks, ← drop_takeWhile_length, List.cons_append, List.drop_succ_cons,
      ← List.drop_drop, List.drop_left]

/-- Text without the separator is read on. -/
theorem splitGo_append (hx : c ∉ x) :
    splitGo (separator [c]) 0 acc (x ++ s) = splitGo (separator [c]) 0 (x.reverse ++ acc) s := by
  induction x generalizing acc with
  | nil => rfl
  | cons a x ih =>
    rw [List.mem_cons, not_or] at hx
    have hn : separator [c] (a :: (x ++ s)) = none := by
      simp [separator_eq, hx.1]
    rw [List.cons_append, splitGo, hn, List.reverse_cons, List.append_assoc]
    exact ih hx.2

theorem splitGo_separator (hx : c ∉ x) :
    splitGo (separator [c]) 0 acc (x ++ c :: s) =
      (acc.reverse ++ x) :: strsplit (separator [c]) (dropBlanks s) := by
  obtain ⟨k, hk, hd⟩ := separator_match (s := s) (List.cons_ne_nil c [])
  rw [splitGo_append hx, splitGo, show separator [c] (c :: s) = some (k + 1) from hk,
    ← show s.drop k = dropBlanks s from hd]
  simp [strsplit, splitGo_skip (k := k)]

theorem strsplit_separator (hx : c ∉ x) : strsplit (separator [c]) (x ++ c :: s) =
    x :: strsplit (separator [c]) (dropBlanks s) :=
  splitGo_separator hx

theorem strsplit_last (hx : c ∉ x) :
    strsplit (separator [c]) x = if x = [] then [] else [x] := by
  have h : splitGo (separator [c]) 0 [] (x ++ []) = splitGo (separator [c]) 0 (x.reverse ++ []) [] :=
    splitGo_append hx
  rw [List.append_nil, List.append_nil] at h
  rw [strsplit, h, splitGo]
  simp

theorem dropBlanks_append (hy : ∃ a ∈ y, a ≠ ' ') : dropBlanks (y ++ s) = dropBlanks y ++ s := by
  rw [dropBlanks, List.dropWhile_append, if_neg]
  rw [List.isEmpty_iff, List.dropWhile_eq_nil_iff]
  obtain ⟨a, ha, hne⟩ := hy
  intro h
  exact hne (by simpa using h a ha)

theorem dropBlanks_ne_nil (hy : ∃ a ∈ y, a ≠ ' ') : dropBlanks y ≠ [] := by
  have h := dropBlanks_append (s := []) hy
  obtain ⟨a, ha, hne⟩ := hy
  rw [ne_eq, List.dropWhile_eq_nil_iff]
  intro h
  exact hne (by simpa using h a ha)

/-- Pieces with a separator between them, none of them blank. -/
theorem strsplit_pieces {xs : List Str} (hx : c ∉ x) (hne : x ≠ [])
    (hxs : ∀ y ∈ xs, c ∉ y ∧ ∃ a ∈ y, a ≠ ' ') :
    strsplit (separator [c]) (x ++ xs.flatMap (c :: ·)) = x :: xs.map dropBlanks := by
  induction xs generalizing x with
  | nil => rw [List.flatMap_nil, List.append_nil, strsplit_last hx, if_neg hne, List.map_nil]
  | cons y xs ih =>
    obtain ⟨⟨hc, hy⟩, hrest⟩ := List.forall_mem_cons.mp hxs
    have hmem : c ∉ dropBlanks y := fun h => hc ((List.dropWhile_sublist _).subset h)
    rw [List.flatMap_cons, List.cons_append, strsplit_separator hx, dropBlanks_append hy,
      ih hmem (dropBlanks_ne_nil hy) hrest, List.map_cons]

/-- Pieces with a separator after each, and a blank after all but the last. -/
theorem strsplit_terminated {xs : List Str} (hc : c ≠ ' ')
    (hxs : ∀ y ∈ xs ++ [x], c ∉ y ∧ y.head? ≠ some ' ') :
    strsplit (separator [c]) (xs.flatMap (· ++ [c, ' ']) ++ (x ++ [c])) = xs ++ [x] := by
  induction xs with
  | nil =>
    obtain ⟨hx, -⟩ := hxs x (by simp)
    rw [List.flatMap_nil, List.nil_append, strsplit_separator hx]
    rfl
  | cons y xs ih =>
    obtain ⟨⟨hy, -⟩, hrest⟩ := List.forall_mem_cons.mp hxs
    have hblank : ∀ t : Str, t.head? ≠ some ' ' → dropBlanks (' ' :: t) = t := by
      intro t ht
      have hb : ∀ a ∈ t.head?, (a == ' ') = false := by
        intro a ha
        rw [beq_eq_false_iff_ne]
        rintro rfl
        exact ht ha
      exact dropWhile_append_of_head (x := [' ']) hb
    have hhead : (xs.flatMap (· ++ [c, ' ']) ++ (x ++ [c])).head? ≠ some ' ' := by
      cases xs with
      | nil =>
        obtain ⟨-, hx⟩ := hrest x (by simp)
        cases x with
        | nil => simpa using hc
        | cons a x => simpa using hx
      | cons z xs =>
        obtain ⟨-, hz⟩ := hrest z (by simp)
        cases z with
        | nil => simpa using hc
        | cons a z => simpa using hz
    have hsplit : (y :: xs).flatMap (· ++ [c, ' ']) ++ (x ++ [c]) =
        y ++ c :: ' ' :: (xs.flatMap (· ++ [c, ' ']) ++ (x ++ [c])) := by
      simp
    rw [hsplit, strsplit_separator hy, hblank _ hhead, ih hrest, List.cons_append]

end

section
variable {s u v t i : Str} {a o c : Char} {p : Char → Bool}

theorem replaceGo_doubled : replaceGo (separator [a, a]) [] 0 (a :: a :: s) =
    replaceGo (separator [a, a]) [] 0 (dropBlanks s) := by
  obtain ⟨k, hk, hd⟩ := separator_match (s := s) (List.cons_ne_nil a [a])
  rw [replaceGo, show separator [a, a] (a :: a :: s) = some (k + 1) from hk,
    ← show (a :: s).drop k = dropBlanks s from hd]
  exact replaceGo_skip

/-- The mark at the end is the only one. -/
theorem replaceGo_closed (ha : a ≠ ' ') (hu : ¬ [a, a] <:+: u) :
    replaceGo (separator [a, a]) [] 0 (u ++ [a, a]) = u := by
  induction u with
  | nil => exact replaceGo_doubled
  | cons b u ih =>
    have hrest : ¬ [a, a] <:+: u := fun h => hu (h.trans (List.suffix_cons b u).isInfix)
    by_cases hp : [a, a] <+: b :: (u ++ [a, a])
    · obtain ⟨rfl, hp'⟩ := List.cons_prefix_cons.mp hp
      cases u with
      | nil =>
        -- half a mark at the end stays, whichever half of the three characters is taken
        rw [List.cons_append, List.nil_append, replaceGo_doubled]
        simp [replaceGo, separator_eq, ha]
      | cons d u =>
        obtain ⟨rfl, -⟩ := List.cons_prefix_cons.mp hp'
        exact absurd ⟨[], u, rfl⟩ hu
    · rw [List.cons_append, replaceGo, separator_eq, if_neg hp, ih hrest]

/-- Marks before and after a text go, with the blanks that follow the first one. -/
theorem replaceAll_marks (ha : a ≠ ' ') (hv : ¬ [a, a] <:+: v) :
    replaceAll (separator [a, a]) [] ([a, a] ++ v ++ [a, a]) = dropBlanks v := by
  have hblanks : dropBlanks (v ++ [a, a]) = dropBlanks v ++ [a, a] :=
    dropWhile_append_of_head (by simpa using ha)
  have hd : ¬ [a, a] <:+: dropBlanks v :=
    fun h => hv (h.trans (List.dropWhile_suffix _).isInfix)
  calc replaceGo (separator [a, a]) [] 0 (a :: a :: (v ++ [a, a]))
    _ = replaceGo (separator [a, a]) [] 0 (dropBlanks (v ++ [a, a])) := replaceGo_doubled
    _ = dropBlanks v := by rw [hblanks, replaceGo_closed ha hd]

/-- Blanks, an opening character, and all up to the first closing one. -/
abbrev bracket (o c : Char) : Pattern := seq (many ' ') (seq (lit [o]) (seq (upTo c) (lit [c])))

theorem bracket_none (h : (dropBlanks s).head? ≠ some o) : bracket o c s = none := by
  have hp : ¬ [o] <+: dropBlanks s := by
    rintro ⟨r, hr⟩
    rw [← hr] at h
    exact h rfl
  simp [bracket, seq, many, lit, drop_takeWhile_length, hp]

theorem bracket_match (h : dropBlanks s = o :: (i ++ c :: t)) (hi : c ∉ i) :
    ∃ k, bracket o c s = some (k + 1) ∧ s.drop (k + 1) = t := by
  have htake : (i ++ c :: t).takeWhile (· != c) = i := by
    rw [List.takeWhile_append_of_pos (by simpa using fun x hx (he : x = c) => hi (he ▸ hx))]
    simp
  have hrest : seq (lit [o]) (seq (upTo c) (lit [c])) (o :: (i ++ c :: t)) =
      some (1 + (i.length + 1)) := by
    have hd : (i ++ c :: t).drop i.length = c :: t := List.drop_left
    simp [seq, lit, upTo, htake, add_comm 1 i.length, hd]
  refine ⟨(s.takeWhile (· == ' ')).length + (i.length + 1), ?_, ?_⟩
  · rw [bracket, seq, many, Option.bind_some, drop_takeWhile_length, show s.dropWhile _ = _ from h,
      hrest, Option.map_some]
    congr 1
    omega
  · rw [add_assoc, ← List.drop_drop, drop_takeWhile_length, show s.dropWhile _ = _ from h]
    simp

theorem rdropWhile_cons (h : ∃ b ∈ a :: u, p b = false) :
    (a :: u).rdropWhile p = a :: u.rdropWhile p := by
  rw [List.rdropWhile, List.rdropWhile, List.reverse_cons, List.dropWhile_append]
  split
  next hu =>
    rw [List.isEmpty_iff] at hu
    have hall : ∀ b ∈ u, p b = true := by simpa using hu
    obtain ⟨b, hb, hpb⟩ := h
    rcases List.mem_cons.mp hb with rfl | hb
    · simp [hu, hpb]
    · simp [hall b hb] at hpb
  next => simp

/-- The first bracket goes, with the blanks before it. -/
theorem replaceFirst_bracket (ho : o ≠ ' ') (hu : o ∉ u) (hi : c ∉ i) :
    replaceFirst (bracket o c) [] (u ++ o :: (i ++ c :: t)) = u.rdropWhile (· == ' ') ++ t := by
  induction u with
  | nil =>
    have hd : dropBlanks (o :: (i ++ c :: t)) = o :: (i ++ c :: t) := by simp [dropBlanks, ho]
    obtain ⟨k, hk, ht⟩ := bracket_match hd hi
    rw [List.nil_append, replaceFirst, hk]
    simpa using ht
  | cons a u ih =>
    rw [List.mem_cons, not_or] at hu
    by_cases hall : ∃ b ∈ a :: u, (b == ' ') = false
    · have hne : ∃ b ∈ a :: u, b ≠ ' ' := by simpa using hall
      have hn : bracket o c (a :: u ++ o :: (i ++ c :: t)) = none := by
        apply bracket_none
        rw [dropBlanks_append hne]
        obtain ⟨b, r, hr⟩ := List.exists_cons_of_ne_nil (dropBlanks_ne_nil hne)
        have hb : b ∈ a :: u := by
          have hm : b ∈ dropBlanks (a :: u) := hr ▸ List.mem_cons_self
          exact (List.dropWhile_sublist _).subset hm
        rw [hr, List.cons_append, List.head?_cons]
        rintro ⟨rfl⟩
        rcases List.mem_cons.mp hb with rfl | hb
        · exact hu.1 rfl
        · exact hu.2 hb
      rw [rdropWhile_cons hall, List.cons_append, replaceFirst, ← List.cons_append, hn, ih hu.2]
      rfl
    · have hblank : ∀ b ∈ a :: u, (b == ' ') = true := by simpa using hall
      have hd : dropBlanks (a :: u ++ o :: (i ++ c :: t)) = o :: (i ++ c :: t) := by
        rw [dropBlanks, List.dropWhile_append_of_pos hblank]
        simp [ho]
      obtain ⟨k, hk, ht⟩ := bracket_match hd hi
      rw [List.rdropWhile_eq_nil_iff.mpr hblank, List.cons_append, replaceFirst,
        ← List.cons_append, hk]
      simpa using ht

theorem replaceFirst_absent (ho : o ∉ u) : replaceFirst (bracket o c) [] u = u := by
  induction u with
  | nil => rfl
  | cons a u ih =>
    have hn : bracket o c (a :: u) = none := by
      apply bracket_none
      intro h
      exact ho ((List.dropWhile_sublist (· == ' ')).subset (List.mem_of_mem_head? h))
    rw [replaceFirst, hn, ih fun h => ho (List.mem_cons_of_mem a h)]

end
end Text
