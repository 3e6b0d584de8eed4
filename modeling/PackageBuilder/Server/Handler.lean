import PackageBuilder.Server.Node

/-! `do_work` of server.py, one atomic step at a time. -/
namespace PackageBuilder
open Text FileTree

/-- The steps of `do_work` that look at the tree, change what is shared or may raise. -/
inductive Action
  | greet -- the debug message to /topic/keepalive_response
  | readFields
  | ensure (l : Level)
  | readUrl
  | writeManifest
  | openLog
  | launch
  | reply
  deriving DecidableEq, Repr

/-- What follows the reply waits for the builder. -/
def requestActions : List Action :=
  [.greet, .readFields, .ensure .jobs, .ensure .issue, .ensure .libs, .readUrl, .ensure .run,
    .writeManifest, .openLog, .launch, .reply]

/-- A message without `job_id` is only logged. -/
def doWork (r : Request) : List Action := if r.jobId.isSome then requestActions else [.greet]

theorem doWork_wellFormed {r : Request} (h : r.WellFormed) : doWork r = requestActions := by
  have hw := h.jobId
  rcases hq : r.jobId with _ | x
  · rw [hq] at hw
    cases hw
  · simp [doWork, hq]

theorem ensure_parent {todo : List Action} {d d' : Level} (h : todo <:+ requestActions)
    (hd : todo.head? = some (.ensure d)) (hp : d.parent = some d') : .ensure d' ∉ todo := by
  have hall : ∀ x ∈ requestActions.tails, x.head? = some (.ensure d) → .ensure d' ∉ x := by
    cases d <;> cases hp <;> decide
  exact hall todo ((List.mem_tails _ _).mpr h) hd

theorem ensure_launch {todo : List Action} {d : Level} (h : todo <:+ requestActions)
    (hd : todo.head? = some (.ensure d)) : todo.count .launch = 1 := by
  have hall : ∀ x ∈ requestActions.tails, x.head? = some (.ensure d) → x.count .launch = 1 := by
    cases d <;> decide
  exact hall todo ((List.mem_tails _ _).mpr h) hd

/-- A handler thread: `absent` is the result of an `os.path.exists` test just made, and `dropped`
says that an exception has ended the thread. -/
structure Handler where
  todo : List Action
  absent : Option Bool := none
  dropped : Bool := false
  deriving DecidableEq, Repr

@[simps] def Handler.tested (h : Handler) (absent : Bool) : Handler :=
  { h with absent := some absent }

@[simps] def Handler.drop (h : Handler) : Handler := { h with dropped := true }

variable {ι ν : Type} [DecidableEq ν]

/-- What one step makes of the node, `none` when it raises. -/
def perform (s : Site ι ν) (i : ι) (absent : Option Bool) (n : Node ι ν) :
    Action → Option (Node ι ν)
  | .greet => if (s.answers i).greeting then some n else none
  | .readFields =>
    if (s.message i).issue?.isSome ∧ (s.message i).biocVersion.isSome then some n else none
  | .ensure l =>
    if absent = some true then (mkdir n.tree ((s.message i).dir l)).map n.on else some n
  | .readUrl => if 5 ≤ (s.message i).urlParts then some n else none
  | .writeManifest =>
    some (n.on (write n.tree ((s.message i).path "manifest.json") (.message (s.message i))))
  | .openLog => some (n.on (write n.tree ((s.message i).path "builder.log") .log))
  | .launch => some (n.launch i)
  | .reply =>
    if (s.answers i).reply then some (n.send i (gotRequest s.builderId (s.message i))) else none

/-- One turn of a handler thread. The test and the `mkdir` of one directory are two turns. -/
def handlerStep (s : Site ι ν) (i : ι) : Handler × Node ι ν → Handler × Node ι ν
  | (h, n) =>
    if h.dropped then (h, n)
    else
      match h.todo, h.absent with
      | [], _ => (h, n)
      | .ensure l :: _, none => (h.tested (!present n.tree ((s.message i).dir l)), n)
      | a :: rest, absent =>
        match perform s i absent n a with
        | some n' => ({ todo := rest }, n')
        | none => (h.drop, n)

variable {s : Site ι ν} {i : ι} {h : Handler} {n n' : Node ι ν} {a : Action} {absent : Option Bool}

theorem handlerStep_idle (hi : h.dropped = true ∨ h.todo = []) : handlerStep s i (h, n) = (h, n) := by
  rcases hi with hd | ht
  · simp [handlerStep, hd]
  · simp [handlerStep, ht]

theorem handlerStep_tests {d : Level} {rest : List Action} (hd : h.dropped = false)
    (ht : h.todo = .ensure d :: rest) (ha : h.absent = none) :
    handlerStep s i (h, n) = (h.tested (!present n.tree ((s.message i).dir d)), n) := by
  simp [handlerStep, hd, ht, ha]

theorem handlerStep_goes {rest : List Action} (hd : h.dropped = false) (ht : h.todo = a :: rest)
    (ha : ∀ d, a = .ensure d → h.absent ≠ none) (hp : perform s i h.absent n a = some n') :
    handlerStep s i (h, n) = ({ todo := rest }, n') := by
  rcases hab : h.absent with _ | b
  · cases a with
    | ensure d => exact absurd hab (ha d rfl)
    | _ => simp [handlerStep, hd, ht, hab, hab ▸ hp]
  · cases a <;> simp [handlerStep, hd, ht, hab, hab ▸ hp]

theorem handlerStep_raises {rest : List Action} (hd : h.dropped = false) (ht : h.todo = a :: rest)
    (ha : ∀ d, a = .ensure d → h.absent ≠ none) (hp : perform s i h.absent n a = none) :
    handlerStep s i (h, n) = (h.drop, n) := by
  rcases hab : h.absent with _ | b
  · cases a with
    | ensure d => exact absurd hab (ha d rfl)
    | _ => simp [handlerStep, hd, ht, hab, hab ▸ hp]
  · cases a <;> simp [handlerStep, hd, ht, hab, hab ▸ hp]

/-- All a handler can do in one turn. -/
inductive HandlerTurn (s : Site ι ν) (i : ι) (h : Handler) (n : Node ι ν) : Handler × Node ι ν → Prop
  | idle : h.dropped = true ∨ h.todo = [] → HandlerTurn s i h n (h, n)
  | tests {l rest} : h.dropped = false → h.todo = .ensure l :: rest → h.absent = none →
    HandlerTurn s i h n (h.tested (!present n.tree ((s.message i).dir l)), n)
  | raises {a rest} : h.dropped = false → h.todo = a :: rest →
    (∀ l, a = .ensure l → h.absent ≠ none) → perform s i h.absent n a = none →
    HandlerTurn s i h n (h.drop, n)
  | goes {a rest n'} : h.dropped = false → h.todo = a :: rest →
    (∀ l, a = .ensure l → h.absent ≠ none) → perform s i h.absent n a = some n' →
    HandlerTurn s i h n ({ todo := rest }, n')

theorem handlerStep_turn (h : Handler) (n : Node ι ν) :
    HandlerTurn s i h n (handlerStep s i (h, n)) := by
  rcases hd : h.dropped with _ | _
  · rcases ht : h.todo with _ | ⟨a, rest⟩
    · rw [handlerStep_idle (.inr ht)]
      exact .idle (.inr ht)
    · by_cases hl : ∃ d, a = .ensure d ∧ h.absent = none
      · obtain ⟨d, rfl, ha⟩ := hl
        rw [handlerStep_tests hd ht ha]
        exact .tests hd ht ha
      · have ha : ∀ d, a = .ensure d → h.absent ≠ none := fun d he hn => hl ⟨d, he, hn⟩
        rcases hp : perform s i h.absent n a with _ | n'
        · rw [handlerStep_raises hd ht ha hp]
          exact .raises hd ht ha hp
        · rw [handlerStep_goes hd ht ha hp]
          exact .goes hd ht ha hp
  · rw [handlerStep_idle (.inl hd)]
    exact .idle (.inl hd)

theorem perform_tree (h : perform s i absent n a = some n') :
    n'.tree = n.tree ∨ (∃ l, a = .ensure l ∧ absent = some true ∧
      mkdir n.tree ((s.message i).dir l) = some n'.tree) ∨
      ∃ name x, JobEntry (s.message i) (.file x) ∧
        n'.tree = write n.tree ((s.message i).path name) x := by
  cases a with
  | ensure l =>
    simp only [perform] at h
    split at h
    · obtain ⟨t, ht, rfl⟩ := Option.map_eq_some_iff.mp h
      exact .inr (.inl ⟨l, rfl, ‹_›, ht⟩)
    · cases h
      exact .inl rfl
  | writeManifest =>
    cases h
    refine .inr (.inr ⟨_, _, ?_, rfl⟩)
    rintro q ⟨⟩
    rfl
  | openLog =>
    cases h
    exact .inr (.inr ⟨_, .log, by simp [JobEntry], rfl⟩)
  | launch =>
    cases h
    exact .inl rfl
  | _ =>
    left
    simp only [perform] at h
    split at h <;> cases h
    rfl

theorem perform_launched (h : perform s i absent n a = some n') :
    n'.launched = n.launched ++ if a = .launch then [i] else [] := by
  cases a with
  | ensure l =>
    simp only [perform] at h
    split at h
    · obtain ⟨t, -, rfl⟩ := Option.map_eq_some_iff.mp h
      simp [Node.on]
    · cases h
      simp
  | writeManifest | openLog =>
    cases h
    simp [Node.on]
  | launch =>
    cases h
    simp [Node.launch]
  | _ =>
    simp only [perform] at h
    split at h <;> cases h
    simp [Node.send]

theorem perform_topic (h : perform s i absent n a = some n') :
    n'.topic = n.topic ++
      if a = .reply then [(i, gotRequest s.builderId (s.message i))] else [] := by
  cases a with
  | ensure l =>
    simp only [perform] at h
    split at h
    · obtain ⟨t, -, rfl⟩ := Option.map_eq_some_iff.mp h
      simp [Node.on]
    · cases h
      simp
  | writeManifest | openLog =>
    cases h
    simp [Node.on]
  | launch =>
    cases h
    simp [Node.launch]
  | reply =>
    simp only [perform] at h
    split at h <;> cases h
    simp [Node.send]
  | _ =>
    simp only [perform] at h
    split at h <;> cases h
    simp

end PackageBuilder
