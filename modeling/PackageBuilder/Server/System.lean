import PackageBuilder.Server.Handler
import PackageBuilder.Server.BuilderProcess
import PackageBuilder.Builder.Protocol

/-! The node as a system of jobs: the handler thread of each request, and the builder it
launches, which works in the jobs tree and sends its events. -/
namespace PackageBuilder
open Text FileTree Interleaving

/-- Whose turn it is in a job. The stages of a builder and its sends are turns of their own, in
any order. -/
inductive Thread
  | handler | builder | sender
  deriving DecidableEq, Repr

structure Job (ν : Type) where
  handler : Handler
  builder : BuilderProcess ν
  outbox : List Event

variable {ι ν : Type} [DecidableEq ι] [DecidableEq ν]

/-- A builder takes turns from its launch on. -/
def jobStep (s : Site ι ν) : Program ι Thread (Job ν) (Node ι ν)
  | i, .handler, (j, n) =>
    let r := handlerStep s i (j.handler, n)
    ({ j with handler := r.1 }, r.2)
  | i, .builder, (j, n) =>
    if i ∈ n.launched then
      let lib := s.finds i n.tree
      let r := builderStep (s.tools i) (s.message i) lib (j.builder, n.tree)
      ({ j with builder := r.1 }, n.on r.2)
    else (j, n)
  | i, .sender, (j, n) =>
    match j.outbox with
    | e :: rest => if i ∈ n.launched then ({ j with outbox := rest }, n.send i e) else (j, n)
    | [] => (j, n)

namespace Site

/-- The events the broker accepts from the builder of a job. -/
def builderEvents (s : Site ι ν) (i : ι) : List Event :=
  (builderRun (s.run i).1 (s.run i).2.1 (s.run i).2.2).events

def start (s : Site ι ν) (t : Tree Str (Content ν)) : Config ι (Job ν) (Node ι ν) where
  parts i := {
    handler := { todo := doWork (s.message i) }, builder := {}, outbox := s.builderEvents i }
  shared := { tree := t }

/-- The state after some turns, from a jobs tree `t`. -/
def after (s : Site ι ν) (t : Tree Str (Content ν)) (xs : List (ι × Thread)) :
    Config ι (Job ν) (Node ι ν) :=
  Interleaving.run (jobStep s) (s.start t) xs

end Site

/-- A submission of spbtest5 to issue 3145. -/
def submission (jobId commitId : Str) : Request where
  jobId := some jobId
  clientId := some "single_package_builder_github:3145:spbtest5"
  biocVersion := some "3.20"
  svnUrl := some "https://github.com/Bioconductor/spbtest5"
  commitId := some commitId

/-- Two commits of one package, with what is made of each. -/
def twoCommits : Site Bool ℕ where
  builderId := "nebbiolo1"
  message later :=
    if later then submission "spbtest5_20230209" "2acf0f2c"
    else submission "spbtest5_20230208" "17ff114b"
  run _ := (spbtest, {}, [])
  tools later := {
    cloneDir := fun _ => "spbtest5"
    fetch := fun _ => some (if later then 1 else 0)
    install := fun sources _ => some sources
    build := fun sources _ => some ("spbtest5_0.99.0.tar.gz", sources)
    output := fun sources _ => sources.getD 0
    report := fun _ library _ => library.getD 0 }

/-- The jobs tree after an earlier run for the issue. -/
def issueTree : Tree Str (Content ℕ) :=
  [(["jobs"], .dir), (["jobs", "3145"], .dir), (["jobs", "3145", "R-libs"], .dir)]

variable {s : Site ι ν} {i j : ι} {n : Node ι ν} {l : Job ν} {k : Thread} {p : List Str}

/-- The paths a job may change but for the directories it makes. -/
def JobPath (s : Site ι ν) (i : ι) (l : Job ν) (p : List Str) : Prop :=
  BuilderPath (s.tools i) (s.message i) l.builder p

/-- The next turn of the handler calls `mkdir`. -/
def Job.Makes (l : Job ν) (d : Level) : Prop :=
  l.handler.todo.head? = some (.ensure d) ∧ l.handler.absent = some true

/-- All a turn does to the tree. -/
theorem jobStep_tree (s : Site ι ν) (i : ι) (k : Thread) (l : Job ν) (n : Node ι ν) :
    Touched (JobPath s i l) (JobEntry (s.message i)) n.tree (jobStep s i k (l, n)).2.tree ∨
      k = .handler ∧ ∃ d, l.Makes d ∧ mkdir n.tree ((s.message i).dir d) =
        some (jobStep s i k (l, n)).2.tree := by
  cases k with
  | handler =>
    have h : HandlerTurn s i l.handler n (handlerStep s i (l.handler, n)) := handlerStep_turn _ n
    simp only [jobStep]
    generalize handlerStep s i (l.handler, n) = a at h ⊢
    cases h with
    | idle | tests | raises => exact .inl (.refl _)
    | goes _ htodo _ hp =>
      rcases perform_tree hp with ht | ⟨d, rfl, ha, hm⟩ | ⟨name, x, hx, ht⟩
      · left
        rw [ht]
        exact .refl _
      · exact .inr ⟨trivial, d, ⟨by rw [htodo]; rfl, ha⟩, hm⟩
      · left
        rw [ht]
        exact (Touched.refl _).put (.inl ⟨name, rfl⟩) hx
  | builder =>
    left
    simp only [jobStep]
    split
    · exact builderStep_touches l.builder n.tree
    · exact .refl _
  | sender =>
    left
    simp only [jobStep]
    split
    · split <;> exact .refl _
    · exact .refl _

omit [DecidableEq ι] [DecidableEq ν] in
theorem JobPath.length (h : JobPath s i l p) : p.length = 4 := by
  rcases h with ⟨name, rfl⟩ | ⟨m, name, -, -, rfl⟩ <;> rfl

theorem dir_length (r : Request) (d : Level) : (r.dir d).length ≤ 3 := by
  cases d <;> simp [Request.dir]

/-- A turn leaves every directory of every request alone, or makes one that is missing. -/
theorem jobStep_dir (r : Request) (d : Level) (k : Thread) (l : Job ν) (n : Node ι ν) :
    entry (jobStep s i k (l, n)).2.tree (r.dir d) = entry n.tree (r.dir d) ∨
      k = .handler ∧ entry n.tree (r.dir d) = none ∧
        entry (jobStep s i k (l, n)).2.tree (r.dir d) = some .dir ∧
        IsDir n.tree (r.dir d).dropLast ∧ ∃ d', l.Makes d' ∧ (s.message i).dir d' = r.dir d := by
  rcases jobStep_tree s i k l n with h | ⟨hk, d', hd', hm⟩
  · left
    apply h.entry_eq
    intro p hp hpre
    have := hp.length
    have := dir_length r d
    have := hpre.length_le
    omega
  · obtain ⟨he, hd, ht⟩ := mkdir_eq_some.mp hm
    rw [ht, entry_put]
    by_cases hdd : (s.message i).dir d' = r.dir d
    · right
      rw [hdd] at he hd
      exact ⟨hk, he, by simp [hdd], hd, d', hd', hdd⟩
    · simp [hdd]

theorem jobStep_handler (hk : k ≠ .handler) : (jobStep s i k (l, n)).1.handler = l.handler := by
  cases k with
  | handler => exact absurd rfl hk
  | builder =>
    simp only [jobStep]
    split <;> rfl
  | sender =>
    simp only [jobStep]
    split
    · split <;> rfl
    · rfl

omit [DecidableEq ι] [DecidableEq ν] in
/-- A builder never acknowledges a request. -/
theorem builderEvents_status (s : Site ι ν) (i : ι) {e : Event} (he : e ∈ s.builderEvents i) :
    e.status ≠ .gotBuildRequest := by
  rcases hr : s.run i with ⟨env, w, cwd⟩
  obtain ⟨x, up, hp⟩ := main_statuses env w cwd
  have hx : .gotBuildRequest ∉ x.statuses up := by cases x <;> cases up <;> decide
  rw [Site.builderEvents, hr, builderRun_events] at he
  rcases List.mem_append.mp he with hm | ha
  · intro hs
    exact hx (hp.subset (hs ▸ List.mem_map_of_mem hm))
  · rw [lastEvents_status e ha]
    decide

def Node.acks (n : Node ι ν) (i : ι) : List Event :=
  (n.eventsOf i).filter fun e => e.status = .gotBuildRequest

/-- The launches and acknowledgements so far, and those still to come. -/
structure Records (s : Site ι ν) (i : ι) (l : Job ν) (n : Node ι ν) : Prop where
  launched : n.launched.count i + l.handler.todo.count .launch =
    (doWork (s.message i)).count .launch
  acked : n.acks i ++ List.replicate (l.handler.todo.count .reply)
      (gotRequest s.builderId (s.message i)) =
    List.replicate ((doWork (s.message i)).count .reply) (gotRequest s.builderId (s.message i))
  outbox : ∀ e ∈ l.outbox, e.status ≠ .gotBuildRequest

theorem isAck_gotRequest (builderId : Str) (r : Request) :
    (gotRequest builderId r).status = .gotBuildRequest := rfl

/-- What a turn adds to the launches and to the topic, all of it for the job itself. -/
theorem jobStep_logs (s : Site ι ν) (i : ι) (k : Thread) (l : Job ν) (n : Node ι ν) :
    ∃ (c : ℕ) (es : List Event),
      (jobStep s i k (l, n)).2.launched = n.launched ++ List.replicate c i ∧
      (jobStep s i k (l, n)).2.topic = n.topic ++ es.map (i, ·) ∧
      c + (jobStep s i k (l, n)).1.handler.todo.count .launch = l.handler.todo.count .launch ∧
      ((es = [] ∧ (jobStep s i k (l, n)).1.handler.todo.count .reply = l.handler.todo.count .reply) ∨
        (es = [gotRequest s.builderId (s.message i)] ∧ l.handler.todo.count .reply =
          (jobStep s i k (l, n)).1.handler.todo.count .reply + 1) ∨
        k = .sender ∧ i ∈ n.launched ∧ ∃ e ∈ l.outbox, es = [e] ∧
          (jobStep s i k (l, n)).1.handler.todo.count .reply = l.handler.todo.count .reply) ∧
      (jobStep s i k (l, n)).1.outbox ⊆ l.outbox := by
  cases k with
  | handler =>
    have h : HandlerTurn s i l.handler n (handlerStep s i (l.handler, n)) := handlerStep_turn _ n
    simp only [jobStep]
    generalize handlerStep s i (l.handler, n) = a at h ⊢
    cases h with
    | idle | tests | raises => exact ⟨0, [], by simp⟩
    | @goes a rest n' _ htodo _ hp =>
      refine ⟨if a = .launch then 1 else 0,
        if a = .reply then [gotRequest s.builderId (s.message i)] else [], ?_, ?_, ?_, ?_, ?_⟩
      · rw [perform_launched hp]
        split <;> rfl
      · rw [perform_topic hp]
        split <;> rfl
      · rw [htodo, List.count_cons, Nat.add_comm]
        simp
      · rw [htodo, List.count_cons]
        by_cases ha : a = .reply <;> simp [ha]
      · exact List.Subset.refl _
  | builder =>
    refine ⟨0, [], ?_⟩
    simp only [jobStep]
    split <;> simp [Node.on]
  | sender =>
    simp only [jobStep]
    split
    · rename_i e rest ho
      split
      · refine ⟨0, [e], ?_⟩
        simp_all [Node.send]
      · exact ⟨0, [], by simp⟩
    · exact ⟨0, [], by simp⟩

theorem records_own (k : Thread) (a : Job ν × Node ι ν) (h : Records s i a.1 a.2) :
    Records s i (jobStep s i k a).1 (jobStep s i k a).2 := by
  obtain ⟨l, n⟩ := a
  obtain ⟨c, es, hl, ht, hc, he, ho⟩ := jobStep_logs s i k l n
  have hev : (jobStep s i k (l, n)).2.acks i =
      n.acks i ++ es.filter fun e => e.status = .gotBuildRequest := by
    simp [Node.acks, Node.eventsOf, ht, List.filter_map, Function.comp_def]
  constructor
  · have hn := h.launched
    rw [hl, List.count_append, List.count_replicate_self]
    simp only at hn
    omega
  · rw [hev, ← h.acked, List.append_assoc]
    congr 1
    rcases he with ⟨rfl, hr⟩ | ⟨rfl, hr⟩ | ⟨-, -, e, hm, rfl, hr⟩
    · simp [hr]
    · simp [hr, isAck_gotRequest, List.replicate_succ]
    · simp [hr, h.outbox e hm]
  · intro e hm
    exact h.outbox e (ho hm)

theorem records_other (hij : i ≠ j) (k : Thread) (l m : Job ν) (n : Node ι ν)
    (h : Records s i l n) : Records s i l (jobStep s j k (m, n)).2 := by
  obtain ⟨c, es, hl, ht, -⟩ := jobStep_logs s j k m n
  have he : (jobStep s j k (m, n)).2.eventsOf i = n.eventsOf i := by
    simp [Node.eventsOf, ht, List.filter_map, Function.comp_def, Ne.symm hij]
  constructor
  · rw [hl, List.count_append, List.count_replicate]
    simpa [Ne.symm hij] using h.launched
  · rw [Node.acks, he]
    exact h.acked
  · exact h.outbox

/-- The records of a job are right in every state of every run. -/
theorem records (s : Site ι ν) (t : Tree Str (Content ν)) (xs : List (ι × Thread)) (i : ι) :
    Records s i ((s.after t xs).parts i) (s.after t xs).shared := by
  refine view_invariant (Q := fun i a => Records s i a.1 a.2)
    (fun _ k a h => records_own k a h) (fun _ _ k l m n hij h _ => records_other hij k l m n h) ?_ i
  intro i
  constructor
  · simp [Site.start, Config.view]
  · simp [Site.start, Config.view, Node.acks, Node.eventsOf]
  · intro e he
    exact builderEvents_status s i he

end PackageBuilder
