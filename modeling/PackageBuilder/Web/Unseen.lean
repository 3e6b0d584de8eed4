import PackageBuilder.Builder.Run
import PackageBuilder.Server.Handoff
import PackageBuilder.Server.JobPaths
import PackageBuilder.Web.Relay

/-! No browser is told of a build: the client id of an accepted request names an issue, and the key
of a browser does not. -/
namespace PackageBuilder
open Text FileTree Effect Stomp

/-- Every event carries the names of its node and of the request. -/
def Stamped (env : Env) (s : St) : Prop :=
  ∀ e ∈ s.events, e.builderId = env.builderId ∧ e.clientId = env.manifest.clientId ∧
    e.jobId = env.manifest.jobId

section
variable {env : Env} {w : World} {s s' : St}

theorem Stamped.of_events (h : Stamped env s) (he : s'.events = s.events) : Stamped env s' := by
  intro e hm
  rw [he] at hm
  exact h e hm

theorem Stamped.sent (h : Stamped env s) (msg : Event) : Stamped env (s.sent env msg) := by
  intro e hm
  rcases List.mem_append.mp hm with hm | hm
  · exact h e hm
  · obtain rfl := List.mem_singleton.mp hm
    exact ⟨rfl, rfl, rfl⟩

theorem stamped_primitive {α : Type} {m : Builder α} (hm : Primitive α m) :
    Keeps (Stamped env) (env, w) m := by
  intro s hs
  cases hm with
  | environment => exact hs
  | state => exact hs
  | change f he _ _ => exact hs.of_events (he s)
  | send msg =>
    rcases exec_sendMessage msg env w s with ⟨h, -⟩ | ⟨⟨e, h⟩, -⟩
    · rw [h]
      exact hs.sent msg
    · rw [h]
      exact hs.of_events rfl
  | tarball =>
    rw [exec_getSourceTarballName]
    split <;> exact hs.of_events rfl
  | interrupted =>
    rw [exec_interrupted]
    exact hs

theorem stamped {α : Type} (m : Builder α) [h : Sequential m] : Keeps (Stamped env) (env, w) m :=
  h.keeps stamped_primitive

theorem main_stamped : Keeps (Stamped env) (env, w) main := by
  refine .bind (stamped fetchPackage) fun _ => .bind ?_ fun _ => stamped buildAndCheck
  refine .bind (stamped environment) fun env => .bind (stamped _) fun _ => ?_
  exact .bind (.tryCatch (stamped readDcfInfo) fun _ => stamped dcfUnreadable) fun name =>
    stamped (checkDescName name)

theorem builderRun_stamped (env : Env) (w : World) (cwd : List Str) :
    Stamped env (builderRun env w cwd) := by
  refine stamped onexit _ (main_stamped _ ?_)
  intro e he
  cases he

end

/-- The text of an event of a build: the reply of a node that launched a builder, or an event of
that builder. -/
inductive OfBuild (js : JavaScript) (text : Str) : Prop
  | reply (srv : Server) (t : Tree Str Str) (body : Str) (o : List (Str × Json)) (e : Json)
    (hl : srv.loads body = .value (.object o)) (he : e ∈ (srv.after t body).2.events)
    (hp : js.parse text = some e)
  | event (srv : Server) (t : Tree Str Str) (body : Str) (o o' : List (Str × Json)) (env : Env)
    (w : World) (cwd : List Str) (e : Event) (hl : srv.loads body = .value (.object o))
    (hs : (srv.after t body).2.launched ≠ [])
    (hc : field? o "client_id" = some (.string env.manifest.clientId))
    (he : e ∈ (builderRun env w cwd).events) (hp : js.parse text = some (.object o'))
    (hk : field? o' "client_id" = some (.string e.clientId))

variable {js : JavaScript} {id text issue c : Str} {o : List (Str × Json)} {xs : List Turn}

theorem colon_of_issueOf (hi : issueOf o = some issue) :
    ∃ c, field? o "client_id" = some (.string c) ∧ ':' ∈ c := by
  have hbind : ((field? o "client_id").bind Json.text?).bind (fun c => (c.splitOn ':')[1]?) =
      some issue := by
    unfold issueOf at hi
    split at hi
    · exact hi
    · cases hi
  obtain ⟨c, hc, hsplit⟩ := Option.bind_eq_some_iff.mp hbind
  obtain ⟨j, hj, htext⟩ := Option.bind_eq_some_iff.mp hc
  have hstring : j = .string c := by
    cases j <;> simp_all [Json.text?]
  refine ⟨c, hstring ▸ hj, ?_⟩
  by_contra hno
  rw [List.splitOn_eq_singleton hno] at hsplit
  cases hsplit

theorem keyOf_string {o' : List (Str × Json)} (hp : js.parse text = some (.object o'))
    (hk : field? o' "client_id" = some (.string c)) : keyOf js text = some (some (some c)) := by
  rw [keyOf, hp, clientIdOf, Option.map_some, hk]
  rfl

/-- The key of an event of a build names an issue. -/
theorem OfBuild.key (h : OfBuild js text) : ∃ c, keyOf js text = some (some (some c)) ∧ ':' ∈ c := by
  cases h with
  | reply srv t body o e hl he hp =>
    rcases after_launching (t := t) hl with ⟨-, h⟩ | ⟨issue, -, -, hi, -, -, h | ⟨j, id, v, hid, h⟩⟩
    · rw [h] at he
      cases he
    · rw [h] at he
      cases he
    · rw [h] at he
      obtain rfl : e = gotRequestObject srv j id v := by simpa using he
      obtain ⟨c, hc, hcolon⟩ := colon_of_issueOf hi
      rw [hc] at hid
      cases hid
      exact ⟨c, keyOf_string hp rfl, hcolon⟩
  | event srv t body o o' env w cwd e hl hs hc he hp hk =>
    obtain ⟨issue, -, -, hi, -⟩ := after_launched hl hs
    obtain ⟨c, hc', hcolon⟩ := colon_of_issueOf hi
    rw [hc] at hc'
    cases hc'
    rw [((builderRun_stamped env w cwd) e he).2.1] at hk
    exact ⟨env.manifest.clientId, keyOf_string hp hk, hcolon⟩

/-- No browser was sent anything, and none has a key that could name an issue. -/
def Unheard (s : Relay) : Prop := s.emitted = [] ∧ ∀ id ∈ s.clients, ':' ∉ id

variable {s : Relay} {rs : List (Reaction Unit)} {x : Turn}

theorem unheard_callback (h : Unheard s) (hb : OfBuild js text) :
    s.callback js text = s := by
  obtain ⟨c, hkey, hcolon⟩ := hb.key
  have hnobody : (s.clients.find? fun cl => addressed js cl text) = none := by
    refine List.find?_eq_none.mpr fun cl hcl => ?_
    rw [addressed, hkey, decide_eq_true_iff]
    intro hk
    obtain rfl : c = socketKey cl := by simpa using hk
    exact h.2 cl hcl (by simpa [socketKey] using hcolon)
  rw [callback_eq, if_neg (by simp [Poison, hkey]), hnobody]
  simp

/-- The events of builds are passed on to nobody. -/
theorem unheard_reactions (h : Unheard s)
    (hb : ∀ text ∈ rs.filterMap bodyOf, OfBuild js text) :
    Unheard (rs.foldl (Relay.react js) s) ∧
      ((rs.foldl (Relay.react js) s).down = true ↔ s.down = true ∨ .raise ∈ rs) := by
  induction rs generalizing s with
  | nil => exact ⟨h, by simp⟩
  | cons r rs ih =>
    rcases hd : s.down
    · cases r with
      | call u m =>
        have hbody : (Reaction.call u m :: rs).filterMap bodyOf = m.body :: rs.filterMap bodyOf :=
          rfl
        rw [hbody, List.forall_mem_cons] at hb
        obtain ⟨hs, hdown⟩ := ih h hb.2
        rw [List.foldl_cons, react_call hd, unheard_callback h hb.1]
        exact ⟨hs, by simp [hdown, hd]⟩
      | raise =>
        rw [List.foldl_cons, react_raise hd, reactions_down rfl]
        exact ⟨h, by simp⟩
    · rw [reactions_down hd]
      exact ⟨h, by simp [hd]⟩

/-- A turn that ends the process though all events are those of builds. -/
def BreaksOff (js : JavaScript) : Turn → Prop
  | .data chunk => .raise ∈ reactionsTo js chunk
  | .stomp .closed => True
  | _ => False

theorem unheard_step (h : Unheard s) (hr : ∀ chunk, s.reactions js chunk = reactionsTo js chunk)
    (hid : ∀ id, x = .connection id → ':' ∉ id)
    (hb : ∀ chunk text, x = .data chunk → text ∈ eventsIn js chunk → OfBuild js text) :
    Unheard (s.step js x) ∧ ((s.step js x).down = true ↔ s.down = true ∨ BreaksOff js x) := by
  rcases hd : s.down
  · have hno : ¬ s.down = true := by simp [hd]
    unfold Relay.step
    rw [if_neg hno]
    cases x with
    | connection id =>
      refine ⟨⟨h.1, ?_⟩, by simp [hd, BreaksOff]⟩
      intro cl hcl
      by_cases hm : id ∈ s.clients
      · exact h.2 cl (by simpa [hm] using hcl)
      · rcases List.mem_append.mp (by simpa [hm] using hcl : cl ∈ s.clients ++ [id]) with hcl | hcl
        · exact h.2 cl hcl
        · exact hid cl (by rw [List.mem_singleton.mp hcl])
    | disconnect id =>
      exact ⟨⟨h.1, fun cl hcl => h.2 cl (List.mem_of_mem_filter hcl)⟩, by simp [hd, BreaksOff]⟩
    | message id msg => exact ⟨h, by simp [hd, BreaksOff]⟩
    | data chunk =>
      obtain ⟨hs, hdown⟩ := unheard_reactions h fun text ht => hb chunk text rfl ht
      simp only [hr, BreaksOff]
      exact ⟨hs, by rw [hdown, hd]⟩
    | stomp y => cases y <;> exact ⟨h, by simp [hd, BreaksOff]⟩
  · rw [step_down hd]
    exact ⟨h, by simp [hd]⟩

/-- What `busyServer` replies to the plain request. -/
def plainReply : Json :=
  gotRequestObject busyServer (.string "spbtest5_20230208")
    (.string "single_package_builder_github:3145:spbtest5") (.string "3.17")

def plainReplyText : Str :=
  "\x7b\"builder_id\": \"nebbiolo1\", \"status\": \"Got Build Request\", " ++
    "\"body\": \"Got build request...\", \"first_message\": true, " ++
    "\"job_id\": \"spbtest5_20230208\", " ++
    "\"client_id\": \"single_package_builder_github:3145:spbtest5\", " ++
    "\"bioc_version\": \"3.17\"\x7d"

/-- On this reply. -/
def replyReader : JavaScript where
  parse s := if s = plainReplyText then some plainReply else none
  stringify _ := plainReplyText
  nul := by
    intro s hs
    rw [if_neg]
    rintro rfl
    exact absurd hs (by decide +kernel)
  noNul _ := by decide +kernel

def oneReply : List Turn := [.connection "7", .data (eventFrame plainReplyText).text]

end PackageBuilder
