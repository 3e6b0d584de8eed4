import PackageBuilder.Server.System

/-! When every build request is served, whatever the order of the handlers' steps. -/
namespace PackageBuilder
open Text FileTree Interleaving

variable {ι ν : Type} [DecidableEq ι] [DecidableEq ν]

/-- One builder was launched for the request, and one acknowledgement of it sent. -/
structure Served (s : Site ι ν) (i : ι) (n : Node ι ν) : Prop where
  launched : n.launched.count i = 1
  acknowledged : n.acks i = [gotRequest s.builderId (s.message i)]

def Action.turns : Action → ℕ
  | .ensure _ => 2
  | _ => 1

/-- The turns a handler still needs. -/
def Handler.turnsLeft (h : Handler) : ℕ :=
  match h.todo, h.absent with
  | .ensure _ :: rest, some _ => 1 + (rest.map Action.turns).sum
  | todo, _ => (todo.map Action.turns).sum

/-- Enough turns for any handler. -/
def handlerTurns : ℕ := 15

variable {s : Site ι ν} {i j : ι} {n : Node ι ν} {l : Job ν} {k : Thread} {d : Level}
  {t : Tree Str (Content ν)} {c : Config ι (Job ν) (Node ι ν)} {xs : List (ι × Thread)}

theorem turnsLeft_start (r : Request) : Handler.turnsLeft { todo := doWork r } ≤ handlerTurns := by
  unfold doWork
  split <;> decide

theorem turnsLeft_eq_zero {h : Handler} (hz : h.turnsLeft = 0) : h.todo = [] := by
  obtain ⟨todo, absent, dropped⟩ := h
  rcases todo with _ | ⟨a, rest⟩
  · rfl
  · cases a <;> cases absent <;> simp [Handler.turnsLeft, Action.turns] at hz

omit [DecidableEq ι] in
theorem handlerStep_turns (s : Site ι ν) (i : ι) (h : Handler) (n : Node ι ν) :
    (handlerStep s i (h, n)).1.dropped = true ∨
      (handlerStep s i (h, n)).1.turnsLeft ≤ h.turnsLeft - 1 := by
  have ht : HandlerTurn s i h n (handlerStep s i (h, n)) := handlerStep_turn h n
  generalize handlerStep s i (h, n) = a at ht ⊢
  cases ht with
  | idle hi =>
    rcases hi with hd | hn
    · exact .inl hd
    · right
      simp [Handler.turnsLeft, hn]
  | @tests d rest _ htodo ha =>
    right
    simp only [Handler.turnsLeft, Handler.tested, htodo, ha, List.map_cons, List.sum_cons,
      Action.turns]
    omega
  | raises => exact .inl rfl
  | @goes a rest n' _ htodo ha _ =>
    right
    rcases hab : h.absent with _ | b
    · cases a with
      | ensure d => exact absurd hab (ha d rfl)
      | _ => simp [Handler.turnsLeft, htodo, hab, Action.turns]
    · cases a <;> simp [Handler.turnsLeft, htodo, hab, Action.turns]

/-- Other turns leave a handler alone. -/
theorem handler_act (x : ι × Thread) (hx : x ≠ (i, .handler)) :
    ((act (jobStep s) c x).parts i).handler = (c.parts i).handler := by
  obtain ⟨j, k⟩ := x
  by_cases hij : i = j
  · subst hij
    have hk : k ≠ .handler := fun he => hx (he ▸ rfl)
    simpa [act, Config.view] using jobStep_handler hk
  · rw [parts_act_other hij]

theorem handler_act_self : ((act (jobStep s) c (i, .handler)).parts i).handler =
    (handlerStep s i ((c.parts i).handler, c.shared)).1 := by
  simp [act, jobStep, Config.view]

theorem handler_idle (hx : ∀ x ∈ xs, x ≠ (i, .handler)) :
    ((run (jobStep s) c xs).parts i).handler = (c.parts i).handler := by
  let P : Config ι (Job ν) (Node ι ν) → Prop := fun c' =>
    (c'.parts i).handler = (c.parts i).handler
  refine run_invariant (P := P) ?_ rfl
  intro c' x hm h
  change ((act (jobStep s) c' x).parts i).handler = _
  rw [handler_act x (hx x hm), h]

theorem handler_dropped (hd : (c.parts i).handler.dropped = true) (xs : List (ι × Thread)) :
    ((run (jobStep s) c xs).parts i).handler = (c.parts i).handler := by
  induction xs using List.reverseRecOn with
  | nil => rfl
  | append_singleton xs x ih =>
    rw [run_concat]
    by_cases hx : x = (i, .handler)
    · rw [hx, handler_act_self, ih]
      simp [handlerStep, hd]
    · rw [handler_act x hx, ih]

/-- A handler that gets enough turns ends, if nothing drops it. -/
theorem handler_turns (s : Site ι ν) (c : Config ι (Job ν) (Node ι ν)) (xs : List (ι × Thread)) :
    ((run (jobStep s) c xs).parts i).handler.dropped = true ∨
      ((run (jobStep s) c xs).parts i).handler.turnsLeft ≤
        (c.parts i).handler.turnsLeft - xs.count (i, .handler) := by
  induction xs using List.reverseRecOn with
  | nil => exact .inr (Nat.le_refl _)
  | append_singleton xs x ih =>
    rw [run_concat, List.count_append]
    by_cases hx : x = (i, .handler)
    · rw [hx, handler_act_self]
      rcases ih with hd | hn
      · left
        simp [handlerStep, hd]
      · rcases handlerStep_turns s i _ (run (jobStep s) c xs).shared with hd | hm
        · exact .inl hd
        · right
          have h1 : List.count (i, Thread.handler) [(i, Thread.handler)] = 1 := by simp
          omega
    · rw [handler_act x hx]
      have h0 : List.count (i, Thread.handler) [x] = 0 := by
        simp [hx]
      rcases ih with hd | hn
      · exact .inl hd
      · exact .inr (by omega)

/-- The directories of all requests are directories or missing, and those of the first tree are
still there. -/
structure Grown (s : Site ι ν) (t₀ t : Tree Str (Content ν)) : Prop where
  dirs : ∀ i d, entry t ((s.message i).dir d) = none ∨ entry t ((s.message i).dir d) = some .dir
  kept : ∀ i d, entry t₀ ((s.message i).dir d) ≠ none → entry t ((s.message i).dir d) ≠ none

/-- A handler whose steps so far have done what they should. -/
structure Safe (s : Site ι ν) (i : ι) (h : Handler) (t : Tree Str (Content ν)) : Prop where
  running : h.dropped = false
  suffix : h.todo <:+ requestActions
  made : ∀ d, .ensure d ∉ h.todo → entry t ((s.message i).dir d) = some .dir
  tested : ∀ d b, h.todo.head? = some (.ensure d) → h.absent = some b →
    entry t ((s.message i).dir d) = if b then none else some .dir

/-- The handler of a well-formed request, with a broker that accepts what it sends. -/
structure Good (s : Site ι ν) (i : ι) : Prop where
  wellFormed : (s.message i).WellFormed
  accepted : s.answers i = {}

theorem grown_step {t₀ : Tree Str (Content ν)} (h : Grown s t₀ n.tree) (j : ι) (k : Thread)
    (l : Job ν) : Grown s t₀ (jobStep s j k (l, n)).2.tree := by
  constructor
  · intro i d
    rcases jobStep_dir (s := s) (i := j) (s.message i) d k l n with he | ⟨-, -, hd, -⟩
    · rw [he]
      exact h.dirs i d
    · exact .inr hd
  · intro i d h0
    rcases jobStep_dir (s := s) (i := j) (s.message i) d k l n with he | ⟨-, -, hd, -⟩
    · rw [he]
      exact h.kept i d h0
    · rw [hd]
      simp

omit [DecidableEq ι] [DecidableEq ν] in
/-- A handler only depends on the entries of its own directories. -/
theorem Safe.congr {h : Handler} {t' : Tree Str (Content ν)} (hs : Safe s i h t)
    (ht : ∀ d, entry t' ((s.message i).dir d) = entry t ((s.message i).dir d)) : Safe s i h t' where
  running := hs.running
  suffix := hs.suffix
  made d hd := (ht d).trans (hs.made d hd)
  tested d b hd hb := (ht d).trans (hs.tested d b hd hb)

omit [DecidableEq ι] [DecidableEq ν] in
theorem Safe.parent_isDir {h : Handler} (hs : Safe s i h t) (hd : h.todo.head? = some (.ensure d)) :
    IsDir t ((s.message i).dir d).dropLast := by
  rw [dir_dropLast]
  rcases hp : d.parent with _ | d'
  · exact .inl rfl
  · exact .inr (hs.made d' (ensure_parent hs.suffix hd hp))

omit [DecidableEq ι] in
theorem perform_safe {h : Handler} {a : Action} {rest : List Action} (hg : Good s i)
    (hs : Safe s i h n.tree) (htodo : h.todo = a :: rest) :
    perform s i h.absent n a ≠ none := by
  cases a with
  | greet | reply => simp [perform, hg.accepted]
  | readFields =>
    simp [perform, hg.wellFormed.issue_isSome, hg.wellFormed.biocVersion]
  | readUrl => simp [perform, hg.wellFormed.svnUrl]
  | writeManifest | openLog | launch => simp [perform]
  | ensure d =>
    have hd : h.todo.head? = some (.ensure d) := by rw [htodo]; rfl
    simp only [perform]
    split
    · rename_i ha
      have he := hs.tested d true hd ha
      rw [mkdir_eq_some.mpr ⟨he, hs.parent_isDir hd, rfl⟩]
      simp
    · simp

omit [DecidableEq ι] in
/-- The directory of a level is there once the handler is past that level. -/
theorem perform_makes {h : Handler} {rest : List Action} {n' : Node ι ν}
    (hs : Safe s i h n.tree) (htodo : h.todo = .ensure d :: rest) (ha : h.absent ≠ none)
    (hp : perform s i h.absent n (.ensure d) = some n') :
    entry n'.tree ((s.message i).dir d) = some .dir := by
  have hd : h.todo.head? = some (.ensure d) := by rw [htodo]; rfl
  simp only [perform] at hp
  split at hp
  · obtain ⟨t, ht, rfl⟩ := Option.map_eq_some_iff.mp hp
    obtain ⟨-, -, rfl⟩ := mkdir_eq_some.mp ht
    exact entry_put_self
  · rename_i hb
    cases hp
    rcases hab : h.absent with _ | b
    · exact absurd hab ha
    · have hf : b = false := by
        cases b with
        | true => exact absurd hab hb
        | false => rfl
      exact hs.tested d b hd hab |>.trans (by simp [hf])

theorem safe_own (hg : Good s i) (hs : Safe s i l.handler n.tree)
    (hd : ∀ d, entry n.tree ((s.message i).dir d) = none ∨
      entry n.tree ((s.message i).dir d) = some .dir) (k : Thread) :
    Safe s i (jobStep s i k (l, n)).1.handler (jobStep s i k (l, n)).2.tree := by
  have hentry := fun d => jobStep_dir (s := s) (i := i) (s.message i) d k l n
  by_cases hk : k = .handler
  · subst hk
    have h : HandlerTurn s i l.handler n (handlerStep s i (l.handler, n)) := handlerStep_turn _ n
    simp only [jobStep] at hentry ⊢
    generalize handlerStep s i (l.handler, n) = a at h hentry ⊢
    cases h with
    | idle => exact hs
    | @tests d rest hrun htodo ha =>
      refine ⟨hrun, hs.suffix, hs.made, ?_⟩
      intro d' b hd' hb
      rw [Handler.tested_todo, htodo] at hd'
      cases hd'
      cases hb
      rcases hd d with he | he <;> simp [present, he]
    | raises _ htodo _ hp => exact absurd hp (perform_safe hg hs htodo)
    | @goes a rest n' _ htodo ha hp =>
      have hsuf : rest <:+ l.handler.todo := htodo ▸ List.suffix_cons a rest
      refine ⟨rfl, hsuf.trans hs.suffix, ?_, by simp⟩
      intro d hm
      by_cases had : a = .ensure d
      · subst had
        exact perform_makes hs htodo (ha d rfl) hp
      · have hmade : entry n.tree ((s.message i).dir d) = some .dir := by
          apply hs.made d
          rw [htodo]
          exact fun hmem => hm ((List.mem_cons.mp hmem).resolve_left fun he => had he.symm)
        rcases hentry d with he | ⟨-, -, he, -⟩
        · exact he.trans hmade
        · exact he
  · rw [jobStep_handler hk]
    apply hs.congr
    intro d
    exact (hentry d).resolve_right fun h => hk h.1

/-- What holds of every job in every state when no directory is missing that two share. -/
theorem safe_run {t₀ : Tree Str (Content ν)} (hg : ∀ i, Good s i)
    (hfree : ∀ i j, i ≠ j → ∀ d d', (s.message i).dir d = (s.message j).dir d' →
      entry t₀ ((s.message i).dir d) ≠ none)
    (hc : ∀ i, Safe s i (c.parts i).handler c.shared.tree) (ht : Grown s t₀ c.shared.tree)
    (xs : List (ι × Thread)) (i : ι) :
    Safe s i ((run (jobStep s) c xs).parts i).handler (run (jobStep s) c xs).shared.tree := by
  let Q : ι → Job ν × Node ι ν → Prop := fun i a =>
    Safe s i a.1.handler a.2.tree ∧ Grown s t₀ a.2.tree
  have hown : ∀ i k a, Q i a → Q i (jobStep s i k a) := by
    rintro i k ⟨l, n⟩ ⟨hs, hgr⟩
    exact ⟨safe_own (hg i) hs (hgr.dirs i) k, grown_step hgr i k l⟩
  have hother : ∀ i j k l m n, i ≠ j → Q i (l, n) → Q j (m, n) →
      Q i (l, (jobStep s j k (m, n)).2) := by
    rintro i j k l m n hij ⟨hs, hgr⟩ -
    refine ⟨hs.congr fun d => ?_, grown_step hgr j k m⟩
    rcases jobStep_dir (s := s) (i := j) (s.message i) d k m n with he | ⟨-, hn, -, -, d', -, hd⟩
    · exact he
    · exact absurd hn (hgr.kept i d (hfree i j hij d d' hd.symm))
  exact (view_invariant hown hother (fun i => ⟨hc i, ht⟩) i).1

/-- Other handlers that do not move do not matter. -/
theorem safe_alone (hg : Good s i) (hs : Safe s i (c.parts i).handler c.shared.tree)
    {t₀ : Tree Str (Content ν)} (ht : Grown s t₀ c.shared.tree) (m : ℕ) :
    Safe s i ((run (jobStep s) c (List.replicate m (i, .handler))).parts i).handler
      (run (jobStep s) c (List.replicate m (i, .handler))).shared.tree ∧
    Grown s t₀ (run (jobStep s) c (List.replicate m (i, .handler))).shared.tree := by
  let P : Config ι (Job ν) (Node ι ν) → Prop := fun c =>
    Safe s i (c.parts i).handler c.shared.tree ∧ Grown s t₀ c.shared.tree
  refine run_invariant (P := P) ?_ ⟨hs, ht⟩
  rintro c x hx ⟨hs, ht⟩
  obtain rfl := List.eq_of_mem_replicate hx
  have ho := safe_own hg hs (ht.dirs i) .handler
  exact ⟨by simpa [act, Config.view] using ho, grown_step ht i .handler _⟩

theorem todo_nil (hs : Safe s i ((run (jobStep s) c xs).parts i).handler t)
    (hc : (c.parts i).handler.turnsLeft ≤ handlerTurns) (hx : handlerTurns ≤ xs.count (i, .handler)) :
    ((run (jobStep s) c xs).parts i).handler.todo = [] := by
  rcases handler_turns s c xs (i := i) with hd | hn
  · rw [hs.running] at hd
    cases hd
  · exact turnsLeft_eq_zero (by omega)

omit [DecidableEq ν] in
theorem served_of_done (hg : Good s i) (hr : Records s i l n) (hd : l.handler.todo = []) :
    Served s i n := by
  have hl := hr.launched
  have ha := hr.acked
  rw [doWork_wellFormed hg.wellFormed, hd] at hl ha
  exact ⟨by simpa [requestActions] using hl, by simpa [requestActions] using ha⟩

omit [DecidableEq ι] [DecidableEq ν] in
theorem safe_start (hg : Good s i) (t : Tree Str (Content ν)) :
    Safe s i { todo := doWork (s.message i) } t where
  running := rfl
  suffix := doWork_wellFormed hg.wellFormed ▸ List.suffix_rfl
  made d hd := by
    have hm : Action.ensure d ∈ doWork (s.message i) := by
      rw [doWork_wellFormed hg.wellFormed]
      cases d <;> decide
    exact absurd hm hd
  tested _ _ _ hb := nomatch hb

/-- Somewhere between two states that differ in it, a property changes. -/
theorem exists_change {P : ℕ → Prop} (h0 : ¬ P 0) {m : ℕ} (hm : P m) : ∃ k, ¬ P k ∧ P (k + 1) := by
  by_contra hn
  have hall : ∀ k, ¬ P k := by
    intro k
    induction k with
    | zero => exact h0
    | succ k ih => exact fun hk => hn ⟨k, ih, hk⟩
  exact hall m hm

/-- Alone, a handler comes to the point where it is about to make a directory that is missing. -/
theorem comes_to_mkdir (hg : Good s i) (ht : Grown s t t) (hd : entry t ((s.message i).dir d) = none) :
    ∃ m, Safe s i ((s.after t (List.replicate m (i, .handler))).parts i).handler
        (s.after t (List.replicate m (i, .handler))).shared.tree ∧
      Grown s t (s.after t (List.replicate m (i, .handler))).shared.tree ∧
      ∃ d', ((s.after t (List.replicate m (i, .handler))).parts i).Makes d' ∧
        (s.message i).dir d' = (s.message i).dir d := by
  have hs : ∀ m, Safe s i ((s.after t (List.replicate m (i, .handler))).parts i).handler
      (s.after t (List.replicate m (i, .handler))).shared.tree ∧
      Grown s t (s.after t (List.replicate m (i, .handler))).shared.tree :=
    safe_alone hg (safe_start hg t) ht
  have hend := (hs handlerTurns).1
  have htodo : ((s.after t (List.replicate handlerTurns (i, .handler))).parts i).handler.todo = [] :=
    todo_nil hend (turnsLeft_start _) (by simp)
  have hmade := hend.made d (by rw [htodo]; exact List.not_mem_nil)
  obtain ⟨m, hm, hm'⟩ := exists_change
    (P := fun m => entry (s.after t (List.replicate m (i, .handler))).shared.tree
      ((s.message i).dir d) ≠ none) (fun h => h hd) (by rw [hmade]; simp)
  refine ⟨m, (hs m).1, (hs m).2, ?_⟩
  have hstep : s.after t (List.replicate (m + 1) (i, .handler)) =
      act (jobStep s) (s.after t (List.replicate m (i, .handler))) (i, .handler) := by
    rw [List.replicate_succ', Site.after, run_concat]
    rfl
  rw [hstep] at hm'
  rcases jobStep_dir (s := s) (i := i) (s.message i) d .handler
    ((s.after t (List.replicate m (i, .handler))).parts i)
    (s.after t (List.replicate m (i, .handler))).shared with he | ⟨-, -, -, -, d', h1, h2⟩
  · exact absurd (he.trans (not_not.mp hm)) hm'
  · exact ⟨d', h1, h2⟩

/-- A handler that calls `mkdir` on a directory another one has made is dropped. -/
theorem mkdir_drops (hd : c.shared.tree = t) (hrun : (c.parts i).handler.dropped = false)
    (hm : (c.parts i).Makes d) (he : entry t ((s.message i).dir d) ≠ none) :
    ((act (jobStep s) c (i, .handler)).parts i).handler = (c.parts i).handler.drop := by
  obtain ⟨htodo, ha⟩ := hm
  obtain ⟨rest, hr⟩ : ∃ rest, (c.parts i).handler.todo = .ensure d :: rest := by
    rcases hr : (c.parts i).handler.todo with _ | ⟨a, rest⟩
    · simp [hr] at htodo
    · rw [hr] at htodo
      cases htodo
      exact ⟨rest, rfl⟩
  have hp : perform s i (some true) c.shared (.ensure d) = none := by
    simp [perform, hd, mkdir_eq_none he]
  rw [handler_act_self]
  simp [handlerStep, hrun, hr, ha, hp]

/-- Two handlers that share a directory that is missing can get in each other's way. -/
theorem request_lost (hg : ∀ i, Good s i) (ht : Grown s t t) (hij : i ≠ j) {d d' : Level}
    (hdd : (s.message i).dir d = (s.message j).dir d')
    (he : entry t ((s.message i).dir d) = none) (zs : List (ι × Thread)) :
    ∃ xs, ¬ Served s i (s.after t (xs ++ zs)).shared := by
  obtain ⟨m, hs, hgr, d₁, hmk, hd₁⟩ := comes_to_mkdir (hg i) ht he
  let c := s.after t (List.replicate m (i, .handler))
  let c' := run (jobStep s) c (List.replicate handlerTurns (j, .handler))
  refine ⟨List.replicate m (i, .handler) ++ List.replicate handlerTurns (j, .handler) ++
    [(i, .handler)], ?_⟩
  have hrun : s.after t (List.replicate m (i, .handler) ++ List.replicate handlerTurns (j, .handler)
      ++ [(i, .handler)] ++ zs) = run (jobStep s) (act (jobStep s) c' (i, .handler)) zs := by
    rw [Site.after, run_append, run_concat, run_append]
    rfl
  -- the other handler starts only now, and makes the directory
  have hstart : (c.parts j).handler = { todo := doWork (s.message j) } := by
    apply handler_idle
    intro x hx
    rw [List.eq_of_mem_replicate hx]
    exact fun h => hij (congrArg Prod.fst h)
  have hj : Safe s j (c'.parts j).handler c'.shared.tree :=
    (safe_alone (hg j) (hstart ▸ safe_start (hg j) _) hgr handlerTurns).1
  have htodo : (c'.parts j).handler.todo = [] :=
    todo_nil hj (hstart ▸ turnsLeft_start _) (by simp)
  have hmade : entry c'.shared.tree ((s.message i).dir d₁) ≠ none := by
    rw [hd₁, hdd, hj.made d' (by rw [htodo]; exact List.not_mem_nil)]
    simp
  have hi : (c'.parts i).handler = (c.parts i).handler := by
    apply handler_idle
    intro x hx
    rw [List.eq_of_mem_replicate hx]
    exact fun h => hij (congrArg Prod.fst h).symm
  -- so the first one is dropped before it launches a builder
  have hdrop : ((s.after t (List.replicate m (i, .handler) ++
      List.replicate handlerTurns (j, .handler) ++ [(i, .handler)] ++ zs)).parts i).handler =
      (c.parts i).handler.drop := by
    have hd : ((act (jobStep s) c' (i, .handler)).parts i).handler = (c.parts i).handler.drop := by
      rw [← hi]
      exact mkdir_drops rfl (hi ▸ hs.running) (by rw [Job.Makes, hi]; exact hmk) hmade
    rw [hrun, handler_dropped (by rw [hd]; rfl), hd]
  intro hserved
  have hl := (records s t (List.replicate m (i, .handler) ++
    List.replicate handlerTurns (j, .handler) ++ [(i, .handler)] ++ zs) i).launched
  rw [hdrop, Handler.drop_todo, ensure_launch hs.suffix hmk.1, hserved.launched,
    doWork_wellFormed (hg i).wellFormed] at hl
  exact absurd hl (by decide)

/-- Every request is served in every order of the steps, unless two of them share a directory
that is not there yet. -/
theorem no_request_lost_iff [Fintype ι] (s : Site ι ν) (t : Tree Str (Content ν))
    (hwf : ∀ i, (s.message i).WellFormed) (hb : ∀ i, s.answers i = {})
    (ht : ∀ i d, present t ((s.message i).dir d) → IsDir t ((s.message i).dir d)) :
    (∀ xs, (∀ i, handlerTurns ≤ xs.count (i, .handler)) →
      ∀ i, Served s i (s.after t xs).shared) ↔
    ∀ i j, i ≠ j → ∀ d d', (s.message i).dir d = (s.message j).dir d' →
      present t ((s.message i).dir d) := by
  have hg : ∀ i, Good s i := fun i => ⟨hwf i, hb i⟩
  have hgr : Grown s t t := by
    refine ⟨fun i d => ?_, fun _ _ h => h⟩
    by_cases hp : present t ((s.message i).dir d) = true
    · exact .inr ((ht i d hp).resolve_left (by cases d <;> simp [Request.dir]))
    · exact .inl (not_present_iff.mp (Bool.not_eq_true _ ▸ hp))
  constructor
  · intro hall i j hij d d' hdd
    by_contra hp
    have he := not_present_iff.mp (Bool.not_eq_true _ ▸ hp)
    let zs := Finset.univ.toList.flatMap fun i : ι => List.replicate handlerTurns (i, Thread.handler)
    obtain ⟨xs, hxs⟩ := request_lost hg hgr hij hdd he zs
    apply hxs
    apply hall
    intro i
    have hm : List.replicate handlerTurns (i, Thread.handler) ∈
        Finset.univ.toList.map fun i : ι => List.replicate handlerTurns (i, Thread.handler) :=
      List.mem_map_of_mem (Finset.mem_toList.mpr (Finset.mem_univ i))
    have hz : handlerTurns ≤ zs.count (i, .handler) :=
      List.replicate_sublist_iff.mp (List.sublist_flatten_of_mem hm)
    rw [List.count_append]
    omega
  · intro hshare xs hxs i
    have hfree : ∀ i j, i ≠ j → ∀ d d', (s.message i).dir d = (s.message j).dir d' →
        entry t ((s.message i).dir d) ≠ none := by
      intro i j hij d d' hdd
      exact present_iff.mp (hshare i j hij d d' hdd)
    have hs := safe_run hg hfree (c := s.start t) (fun i => safe_start (hg i) t) hgr xs i
    exact served_of_done (hg i) (records s t xs i) (todo_nil hs (turnsLeft_start _) (hxs i))

theorem no_request_lost_twoCommits : Served twoCommits true (twoCommits.after issueTree
    (List.replicate 15 (true, .handler) ++ List.replicate 15 (false, .handler))).shared :=
  (no_request_lost_iff twoCommits issueTree (by decide +kernel) (fun _ => rfl)
    (by decide +kernel)).mpr (by decide +kernel) _ (by decide) true

/-- One handler has just found the directory jobs missing when the other one makes it. -/
theorem request_lost_at_mkdir : (∀ i, (twoCommits.message i).WellFormed) ∧
    ∃ xs, (∀ i, handlerTurns ≤ xs.count (i, .handler)) ∧
      ¬ Served twoCommits true (twoCommits.after [] xs).shared := by
  refine ⟨by decide +kernel, List.replicate 3 (true, .handler) ++
    List.replicate 15 (false, .handler) ++ List.replicate 15 (true, .handler), by decide, ?_⟩
  intro h
  have hl : (twoCommits.after [] (List.replicate 3 (true, .handler) ++
    List.replicate 15 (false, .handler) ++
    List.replicate 15 (true, .handler))).shared.launched.count true = 0 := by decide +kernel
  rw [h.launched] at hl
  cases hl

end PackageBuilder
