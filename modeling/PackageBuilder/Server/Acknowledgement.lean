import PackageBuilder.Server.System

/-! When the server's acknowledgement is the first event of a job, whatever the order of the
steps. -/
namespace PackageBuilder
open Text FileTree Interleaving

variable {ι ν : Type} [DecidableEq ι] [DecidableEq ν]

/-- If the topic has events of the job, the first is its acknowledgement, and no other is. -/
def AckFirst (s : Site ι ν) (i : ι) (n : Node ι ν) : Prop :=
  n.eventsOf i = [] ∨ ∃ es, n.eventsOf i = gotRequest s.builderId (s.message i) :: es ∧
    ∀ e ∈ es, e.status ≠ .gotBuildRequest

variable {s : Site ι ν} {i j : ι} {n : Node ι ν} {l : Job ν} {k : Thread}
  {t : Tree Str (Content ν)} {c : Config ι (Job ν) (Node ι ν)}

omit [DecidableEq ν] in
theorem AckFirst.acks (h : AckFirst s i n) :
    n.eventsOf i = [] ∨ gotRequest s.builderId (s.message i) ∈ n.acks i := by
  rcases h with h | ⟨es, h, -⟩
  · exact .inl h
  · right
    simp [Node.acks, h, isAck_gotRequest]

theorem doWork_reply (r : Request) : (doWork r).count .reply = (doWork r).count .launch := by
  unfold doWork
  split <;> decide

theorem doWork_reply_le (r : Request) : (doWork r).count .reply ≤ 1 := by
  unfold doWork
  split <;> decide

omit [DecidableEq ν] in
/-- A handler sends its acknowledgement at most once, and it has done so when it is past it. -/
theorem Records.acks_length (h : Records s i l n) : (n.acks i).length +
    l.handler.todo.count .reply = (doWork (s.message i)).count .reply := by
  have ha := congrArg List.length h.acked
  simpa using ha

theorem eventsOf_own {es : List Event}
    (h : (jobStep s i k (l, n)).2.topic = n.topic ++ es.map (i, ·)) :
    (jobStep s i k (l, n)).2.eventsOf i = n.eventsOf i ++ es := by
  simp [Node.eventsOf, h, List.filter_map, Function.comp_def]

/-- One turn keeps the acknowledgement first, if a builder that sends comes after it. -/
theorem ackFirst_own (h : AckFirst s i n) (hr : Records s i l n)
    (hk : k = .sender → i ∈ n.launched → l.outbox ≠ [] → .reply ∉ l.handler.todo) :
    AckFirst s i (jobStep s i k (l, n)).2 := by
  obtain ⟨m, es, -, ht, -, he, -⟩ := jobStep_logs s i k l n
  have hlen := hr.acks_length
  have hle := doWork_reply_le (s.message i)
  rcases he with ⟨rfl, -⟩ | ⟨rfl, hcount⟩ | ⟨rfl, hl, e, hm, rfl, -⟩
  · rw [AckFirst, eventsOf_own ht, List.append_nil]
    exact h
  · -- the acknowledgement: it was still to come, so nothing was there
    have hnil : n.eventsOf i = [] := by
      rcases h.acks with hn | ha
      · exact hn
      · have hpos := List.length_pos_of_mem ha
        omega
    right
    refine ⟨[], by rw [eventsOf_own ht, hnil, List.nil_append], ?_⟩
    intro e he
    cases he
  · -- an event of the builder: the acknowledgement is there
    have hz := List.count_eq_zero.mpr (hk rfl hl (List.ne_nil_of_mem hm))
    have hlaunch := hr.launched
    have hpos := List.count_pos_iff.mpr hl
    have hreply := doWork_reply (s.message i)
    have hacks : n.acks i ≠ [] := by
      intro hn
      rw [hn, List.length_nil] at hlen
      omega
    rcases h with hn | ⟨es, hes, hst⟩
    · simp [Node.acks, hn] at hacks
    · right
      refine ⟨es ++ [e], by rw [eventsOf_own ht, hes, List.cons_append], ?_⟩
      intro e' he'
      rcases List.mem_append.mp he' with hm' | hm'
      · exact hst e' hm'
      · rw [List.mem_singleton.mp hm']
        exact hr.outbox e hm

theorem eventsOf_other (hij : i ≠ j) : (jobStep s j k (l, n)).2.eventsOf i = n.eventsOf i := by
  obtain ⟨m, es, -, ht, -⟩ := jobStep_logs s j k l n
  simp [Node.eventsOf, ht, List.filter_map, Function.comp_def, Ne.symm hij]

/-- Alone, a handler takes one turn after the other. -/
theorem handler_iterates (m : ℕ) (c : Config ι (Job ν) (Node ι ν)) :
    ((run (jobStep s) c (List.replicate m (i, .handler))).parts i).outbox = (c.parts i).outbox ∧
      (((run (jobStep s) c (List.replicate m (i, .handler))).parts i).handler,
        (run (jobStep s) c (List.replicate m (i, .handler))).shared) =
          (handlerStep s i)^[m] ((c.parts i).handler, c.shared) := by
  induction m with
  | zero => exact ⟨rfl, rfl⟩
  | succ m ih =>
    obtain ⟨ho, hs⟩ := ih
    rw [List.replicate_succ', run_concat, Function.iterate_succ_apply', ← hs]
    exact ⟨by simpa [act, jobStep, Config.view] using ho, by simp [act, jobStep, Config.view]⟩

/-- A jobs tree with all directories of a request. -/
def readyTree (r : Request) : Tree Str (Content ν) :=
  [(r.dir .jobs, .dir), (r.dir .issue, .dir), (r.dir .libs, .dir), (r.dir .run, .dir)]

omit [DecidableEq ν] in
theorem readyTree_present (r : Request) (d : Level) :
    present (readyTree r : Tree Str (Content ν)) (r.dir d) = true := by
  rw [present_iff]
  cases d <;> simp [readyTree, entry_cons]

omit [DecidableEq ι] in
/-- Where its directories are there, a handler needs fourteen turns to launch the builder, and the
acknowledgement is still to come. -/
theorem handler_launches (hw : (s.message i).WellFormed) (hg : (s.answers i).greeting = true) :
    ∃ t : Tree Str (Content ν), (handlerStep s i)^[14] ({ todo := doWork (s.message i) },
      { tree := readyTree (s.message i) }) = ({ todo := [.reply] }, { tree := t, launched := [i] }) := by
  rw [doWork_wellFormed hw]
  simp [requestActions, Function.iterate_succ_apply, handlerStep, perform, hg, hw.issue_isSome,
    hw.biocVersion, hw.svnUrl, readyTree_present, Node.on, Node.launch]

omit [DecidableEq ι] in
theorem handlerStep_ungreeted {h : Handler} (hg : (s.answers i).greeting = false)
    (ht : h.todo = requestActions) : (handlerStep s i (h, n)).1.todo = requestActions ∧
      (handlerStep s i (h, n)).2 = n := by
  by_cases hd : h.dropped = true
  · rw [handlerStep_idle (.inl hd)]
    exact ⟨ht, rfl⟩
  · have hp : perform s i h.absent n .greet = none := by simp [perform, hg]
    rw [handlerStep_raises (by simpa using hd) ht (fun _ he => by cases he) hp]
    exact ⟨ht, rfl⟩

/-- A job whose handler is stopped at its greeting stays as it is. -/
theorem jobStep_ungreeted (hg : (s.answers i).greeting = false) (hl : i ∉ n.launched)
    (ht : l.handler.todo = requestActions) (k : Thread) :
    (jobStep s i k (l, n)).1.handler.todo = requestActions ∧ (jobStep s i k (l, n)).2 = n := by
  cases k with
  | handler => exact handlerStep_ungreeted hg ht
  | builder => simp [jobStep, hl, ht]
  | sender =>
    simp only [jobStep, if_neg hl]
    split <;> exact ⟨ht, rfl⟩

theorem ungreeted (hw : (s.message i).WellFormed) (hg : (s.answers i).greeting = false)
    (t : Tree Str (Content ν)) (xs : List (ι × Thread)) :
    ((s.after t xs).view i).1.handler.todo = requestActions ∧
      ((s.after t xs).view i).2.eventsOf i = [] := by
  induction xs using List.reverseRecOn with
  | nil => exact ⟨doWork_wellFormed hw, rfl⟩
  | append_singleton xs x ih =>
    obtain ⟨htodo, hnil⟩ := ih
    obtain ⟨j, k⟩ := x
    rw [Site.after, run_concat]
    by_cases hij : i = j
    · subst hij
      have hl : i ∉ (s.after t xs).shared.launched := by
        have hr := (records s t xs i).launched
        have ht : ((s.after t xs).parts i).handler.todo = requestActions := htodo
        rw [doWork_wellFormed hw, ht] at hr
        exact List.count_eq_zero.mp (by omega)
      obtain ⟨ht, hn⟩ := jobStep_ungreeted hg hl htodo k
      have hview : (act (jobStep s) (s.after t xs) (i, k)).view i =
          jobStep s i k ((s.after t xs).view i) :=
        view_act_self
      exact ⟨hview ▸ ht, hview ▸ hn.symm ▸ hnil⟩
    · rw [view_act_other hij]
      exact ⟨htodo, by rw [eventsOf_other hij]; exact hnil⟩

theorem jobStep_sends {e : Event} {rest : List Event} (ho : l.outbox = e :: rest)
    (hl : i ∈ n.launched) :
    (jobStep s i .sender (l, n)).2.eventsOf i = n.eventsOf i ++ [e] := by
  simp [jobStep, ho, hl, Node.send, Node.eventsOf]

/-- For a well-formed request, the acknowledgement comes first in every order of the steps if and
only if the broker takes nothing from the builder, or the handler is stopped before it launches
one. -/
theorem acknowledged_first_iff (s : Site ι ν) (i : ι) (hw : (s.message i).WellFormed) :
    (∀ t xs, AckFirst s i (s.after t xs).shared) ↔
      s.builderEvents i = [] ∨ (s.answers i).greeting = false := by
  constructor
  · intro h
    by_contra hn
    obtain ⟨hne, hg⟩ := not_or.mp hn
    obtain ⟨e, rest, he⟩ := List.exists_cons_of_ne_nil hne
    obtain ⟨t, ht⟩ := handler_launches (s := s) hw (by simpa using hg)
    obtain ⟨ho, hs⟩ := handler_iterates (s := s) (i := i) 14 (s.start (readyTree (s.message i)))
    have hfirst : (s.after (readyTree (s.message i)) (List.replicate 14 (i, .handler) ++
        [(i, .sender)])).shared.eventsOf i = [e] := by
      obtain ⟨-, hn⟩ := Prod.mk.inj (hs.trans ht)
      have hout : ((run (jobStep s) (s.start (readyTree (s.message i)))
          (List.replicate 14 (i, .handler))).parts i).outbox = e :: rest := ho.trans he
      have hl : i ∈ (run (jobStep s) (s.start (readyTree (s.message i)))
          (List.replicate 14 (i, .handler))).shared.launched := by
        rw [hn]
        exact List.mem_singleton_self i
      rw [Site.after, run_concat]
      exact (jobStep_sends hout hl).trans (by rw [hn]; rfl)
    rcases h (readyTree (s.message i)) (List.replicate 14 (i, .handler) ++ [(i, .sender)]) with
      hnil | ⟨es, hes, -⟩
    · rw [hfirst] at hnil
      cases hnil
    · rw [hfirst] at hes
      obtain rfl := (List.cons.inj hes).1
      have hmem : gotRequest s.builderId (s.message i) ∈ s.builderEvents i := he ▸ List.mem_cons_self
      exact builderEvents_status s i hmem (isAck_gotRequest _ _)
  · rintro (hnone | hg) t xs
    · have hout : ∀ xs, ((s.after t xs).parts i).outbox = [] := by
        intro xs
        refine run_invariant (P := fun c : Config ι (Job ν) (Node ι ν) => (c.parts i).outbox = []) ?_
          hnone
        rintro c ⟨j, k⟩ - hc
        by_cases hij : i = j
        · subst hij
          obtain ⟨m, es, -, -, -, -, ho⟩ := jobStep_logs s i k (c.parts i) c.shared
          rw [hc] at ho
          simpa [act, Config.view] using ho
        · rw [parts_act_other hij]
          exact hc
      induction xs using List.reverseRecOn with
      | nil => exact .inl rfl
      | append_singleton xs x ih =>
        obtain ⟨j, k⟩ := x
        rw [Site.after, run_concat]
        by_cases hij : i = j
        · subst hij
          exact ackFirst_own ih (records s t xs i) fun _ _ ho => absurd (hout xs) ho
        · rw [AckFirst, act, eventsOf_other hij]
          exact ih
    · exact .inl (ungreeted hw hg t xs).2

theorem acknowledged_first_twoCommits :
    ¬ ∀ t xs, AckFirst twoCommits true (twoCommits.after t xs).shared := by
  intro h
  have hstatus : (twoCommits.builderEvents true).map Event.status ≠ [] := by decide +kernel
  rcases (acknowledged_first_iff twoCommits true (by decide +kernel)).mp h with hnone | hg
  · exact hstatus (by rw [hnone]; rfl)
  · cases hg

/-- The broker refuses the acknowledgements. -/
def refusing : Site Bool ℕ := { twoCommits with answers := fun _ => { reply := false } }

/-- The builder sends before the server does, and where the server's send raises, it sends all
the same. -/
theorem builder_comes_first : (∀ i, (twoCommits.message i).WellFormed) ∧
    (¬ AckFirst twoCommits true (twoCommits.after issueTree
      (List.replicate 14 (true, .handler) ++ [(true, .sender)])).shared) ∧
    ¬ AckFirst refusing true (refusing.after issueTree
      (List.replicate 15 (true, .handler) ++ [(true, .sender)])).shared := by
  have hstatus : ((twoCommits.after issueTree (List.replicate 14 (true, .handler) ++
      [(true, .sender)])).shared.eventsOf true).map Event.status = [.builderStarted] := by
    decide +kernel
  have hrefused : ((refusing.after issueTree (List.replicate 15 (true, .handler) ++
      [(true, .sender)])).shared.eventsOf true).map Event.status = [.builderStarted] := by
    decide +kernel
  refine ⟨by decide +kernel, ?_, ?_⟩
  · rintro (hn | ⟨es, hes, -⟩)
    · rw [hn] at hstatus
      cases hstatus
    · rw [hes] at hstatus
      cases hstatus
  · rintro (hn | ⟨es, hes, -⟩)
    · rw [hn] at hrefused
      cases hrefused
    · rw [hes] at hrefused
      cases hrefused

end PackageBuilder
