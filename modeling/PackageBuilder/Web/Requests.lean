import PackageBuilder.Server.JobPaths
import PackageBuilder.Web.Relay

/-! The requests that app.js publishes for browsers, as the broker and a node read them. -/
namespace PackageBuilder
open Text FileTree Effect Framing Stomp

/-- The share of the connection in a run. -/
def connectionSteps (js : JavaScript) (xs : List Turn) : List (Step Unit) :=
  .call (.subscribe "/topic/builderevents" [] ()) :: xs.filterMap fun
    | .message id msg => some (.call (publishCall js id msg))
    | .stomp (.call _) => none
    | .stomp x => some x
    | _ => none

/-- The requests of a run, in order. -/
def requests (js : JavaScript) (xs : List Turn) : List Command :=
  xs.filterMap fun
    | .message id msg => some (publishCall js id msg).command
    | _ => none

/-- The commands of a run. -/
def relayCommands (js : JavaScript) (xs : List Turn) : List Command :=
  (Call.subscribe "/topic/builderevents" [] ()).command :: requests js xs

/-- The first frame, up to its NUL. -/
def connectText : Str := "CONNECT\nlogin:\npassword:\n\n"

/-- What precedes the text of a request. -/
def sendText : Str := "SEND\ndestination:/topic/buildjobs\n\n"

variable {js : JavaScript} {id msg : Str} {xs : List Turn} {x : Turn}

theorem step_client (hd : (Relay.run js xs).down = false)
    (h : (Relay.run js xs).client = (Connection.new [] []).run (connectionSteps js xs)) :
    (Relay.run js (xs ++ [x])).client =
      (Connection.new [] []).run (connectionSteps js (xs ++ [x])) := by
  have hno : ¬ (Relay.run js xs).down = true := by simp [hd]
  rw [relay_run_concat, connectionSteps, List.filterMap_append, ← List.cons_append, run_append]
  rw [connectionSteps] at h
  rw [← h]
  unfold Relay.step
  rw [if_neg hno]
  cases x with
  | data chunk => exact reactions_frame.2
  | stomp y => cases y <;> rfl
  | _ => rfl

theorem run_client (hup : (Relay.run js xs).down = false) :
    (Relay.run js xs).client = (Connection.new [] []).run (connectionSteps js xs) := by
  induction xs using List.reverseRecOn with
  | nil => rfl
  | append_singleton xs x ih =>
    rw [relay_run_concat] at hup
    exact step_client (up_of_step hup) (ih (up_of_step hup))

theorem issued_connectionSteps : issued (connectionSteps js xs) = relayCommands js xs := by
  have hcons : issued (connectionSteps js xs) =
      (Call.subscribe "/topic/builderevents" [] ()).command :: issued (connectionSteps js xs).tail := rfl
  rw [hcons, relayCommands, connectionSteps, List.tail_cons, issued, List.filterMap_filterMap]
  refine congrArg _ (List.filterMap_congr fun x _ => ?_)
  cases x with
  | stomp y => cases y <;> rfl
  | _ => rfl

theorem nul_outgoing : '\x00' ∈ outgoing js id msg ↔ '\x00' ∈ msg := by
  by_cases hm : '\x00' ∈ msg
  · rw [outgoing, js.nul msg hm]
  · rw [outgoing]
    split
    · rfl
    · rfl
    · simp [js.noNul, hm]
    · simp [js.noNul, hm]

theorem prepareMessage_publish : prepareMessage (publishCall js id msg).command =
    (sendText ++ outgoing js id msg ++ ['\n']) ++ ['\x00'] := by
  simp [prepareMessage, publishCall, Call.command, destined, assign, headerLine, blankLine, sendText,
    ofString]

theorem nul_commandText_publish :
    '\x00' ∈ commandText (publishCall js id msg).command ↔ '\x00' ∈ msg := by
  have ht : commandText (publishCall js id msg).command =
      sendText ++ outgoing js id msg ++ ['\n'] := by
    rw [commandText, prepareMessage_publish, List.dropLast_concat]
  have hhead : '\x00' ∉ sendText := by decide
  rw [ht, List.mem_append, List.mem_append, or_iff_right hhead, nul_outgoing]
  simp

theorem nul_relayCommands : (∀ c ∈ relayCommands js xs, '\x00' ∉ commandText c) ↔
    ∀ id msg, Turn.message id msg ∈ xs → '\x00' ∉ msg := by
  rw [relayCommands, List.forall_mem_cons]
  have hsub : '\x00' ∉ commandText (Call.subscribe "/topic/builderevents" [] ()).command := by decide
  refine Iff.trans (and_iff_right hsub) ⟨?_, ?_⟩
  · intro h id msg hm hn
    refine h _ (List.mem_filterMap.mpr ⟨_, hm, rfl⟩) ?_
    exact nul_commandText_publish.mpr hn
  · intro h c hc
    obtain ⟨x, hx, hxc⟩ := List.mem_filterMap.mp hc
    cases x with
    | message id msg =>
      obtain rfl := Option.some.inj hxc
      rw [nul_commandText_publish]
      exact h id msg hx
    | _ => cases hxc

/-- The commands are written by the first turn of the timer after they were called for. -/
theorem written_flatten (hup : (Relay.run js xs).down = false)
    (hopen : (Relay.run js xs).client.readyState = .open) :
    (Relay.run js (xs ++ [.stomp .timer])).client.written.flatten =
      connectText ++ ['\x00'] ++ (relayCommands js xs).flatMap prepareMessage := by
  have hup' : (Relay.run js (xs ++ [.stomp .timer])).down = false := by
    rw [Bool.eq_false_iff]
    intro hd
    exact (step_down_iff hup).mp hd
  rw [run_client hup] at hopen
  have hs := written_open [] [] (connectionSteps js xs) hopen
  have htimer : connectionSteps js (xs ++ [.stomp .timer]) = connectionSteps js xs ++ [.timer] := by
    rw [connectionSteps, List.filterMap_append, ← List.cons_append]
    rfl
  rw [run_client hup', htimer, run_concat, hs, List.flatten_cons, issued_connectionSteps,
    run_connectFrame, ← List.flatMap_def]
  rfl

/-- On the message of an empty object, sent through socket 7. -/
def emptyRequest : JavaScript where
  parse s := if s = "\x7b\x7d" then some (.object []) else none
  stringify _ := "\x7b\"client_id\":\"_7_\"\x7d"
  nul := by
    intro s hs
    rw [if_neg]
    rintro rfl
    exact absurd hs (by decide)
  noNul _ := by decide

def oneRequest : List Turn := [.connection "7", .message "7" "\x7b\x7d", .stomp .connected]

/-- Any frames without a NUL are what the broker reads of some message of a browser. -/
theorem frames_smuggled (js : JavaScript) (id : Str) (gs : List Str) (hg : ∀ g ∈ gs, '\x00' ∉ g) :
    ∃ msg, pieces ['\x00'] (prepareMessage (publishCall js id msg).command) =
      sendText :: gs ++ [['\n'], []] := by
  have hne : ['\x00'] ≠ ([] : Str) := List.cons_ne_nil _ _
  have hnul : '\x00' ∈ '\x00' :: gs.flatMap (· ++ ['\x00']) := List.mem_cons_self
  refine ⟨'\x00' :: gs.flatMap (· ++ ['\x00']), ?_⟩
  have hout : outgoing js id ('\x00' :: gs.flatMap (· ++ ['\x00'])) =
      '\x00' :: gs.flatMap (· ++ ['\x00']) := by rw [outgoing, js.nul _ hnul]
  have hfree : ∀ g ∈ sendText :: gs ++ [['\n']], Free ['\x00'] g := by
    intro g hm
    rw [free_nul_iff]
    simp only [List.cons_append, List.mem_cons, List.mem_append, List.not_mem_nil, or_false] at hm
    rcases hm with rfl | hm | rfl
    · decide
    · exact hg g hm
    · decide
  have htext : prepareMessage (publishCall js id ('\x00' :: gs.flatMap (· ++ ['\x00']))).command =
      (sendText :: gs ++ [['\n']]).flatMap (· ++ ['\x00']) ++ [] := by
    rw [prepareMessage_publish, hout]
    simp
  rw [htext, pieces_frames hne hfree, pieces_absent (by decide : ¬ ['\x00'] <:+: [])]
  simp

theorem event_smuggled :
    ∃ msg, pieces ['\x00'] (prepareMessage (publishCall emptyRequest "7" msg).command) =
      sendText :: ["SEND\ndestination:/topic/builderevents\n\nnull"] ++ [['\n'], []] :=
  frames_smuggled emptyRequest "7" ["SEND\ndestination:/topic/builderevents\n\nnull"] (by decide)

/-- What is published for a message that `JSON.parse` accepts. -/
def publishedValue (id : Str) : Json → Json
  | .object o => .object (assign o ("client_id" : Str) (.string (socketKey id)))
  | j => j

/-- `json.loads` reads a text as this value, as far as the strings in it go, or gives up on its
depth. -/
def ReadAs (srv : Server) (text : Str) (j : Json) : Prop :=
  srv.loads text = .recursionError ∨ ∃ j', srv.loads text = .value j' ∧
    match j, j' with
    | .object o, .object o' =>
      ∀ key s, field? o key = some (.string s) → field? o' key = some (.string s)
    | .object _, _ | _, .object _ => False
    | _, _ => True

/-- A node makes nothing, launches nothing and says nothing. -/
def Untouched (srv : Server) (t : Tree Str Str) (text : Str) : Prop :=
  (srv.after t text).2.tree = t ∧ (srv.after t text).2.launched = [] ∧
    (srv.after t text).2.events = []

variable {srv : Server} {t : Tree Str Str} {text : Str} {j : Json} {o : List (Str × Json)}

theorem lookup_assign {key : Str} {v : Json} : field? (assign o key v) key = some v := by
  unfold field? assign
  split
  next hm =>
    induction o with
    | nil => cases hm
    | cons h o ih =>
      rw [List.map_cons, List.mem_cons] at hm
      by_cases hk : h.1 = key
      · simp [hk]
      · rcases hm with hm | hm
        · exact absurd hm.symm hk
        · have hne : (key == h.1) = false := by simpa using fun he => hk he.symm
          rw [List.map_cons, if_neg hk, List.lookup_cons, hne]
          exact ih hm
  next hm =>
    rw [List.lookup_append]
    have hnone : List.lookup key o = none := by
      rw [List.lookup_eq_none_iff]
      intro x hx
      simpa using fun he : key = x.1 => hm (he ▸ List.mem_map_of_mem hx)
    simp [hnone]

theorem issueOf_socketKey (hid : ':' ∉ id)
    (hc : field? o "client_id" = some (.string (socketKey id))) : issueOf o = none := by
  have hsplit : (socketKey id).splitOn ':' = [socketKey id] := by
    apply List.splitOn_eq_singleton
    simpa [socketKey] using hid
  unfold issueOf
  split
  · simp [hc, Json.text?, hsplit]
  · rfl

theorem untouched_of_readAs (hid : ':' ∉ id) (h : ReadAs srv text (publishedValue id j)) :
    Untouched srv t text := by
  rcases hg : srv.answers.greeting
  · simp [Untouched, Server.after, doWorkBody, exec_bind, hg]
  rcases h with hl | ⟨j', hl, hj⟩
  · simp [Untouched, Server.after, doWorkBody, exec_bind, hg, hl]
  cases j' with
  | object o' =>
    cases j with
    | object o =>
      obtain ⟨-, htree, -, hrej⟩ := after_object (t := t) hg hl
      have hi : issueOf o' = none := issueOf_socketKey hid (hj _ _ lookup_assign)
      have hplan : plan srv o' text = [] := by rw [plan, hi]; rfl
      obtain ⟨h1, h2⟩ := hrej fun hc => by simp [Complete, hi] at hc
      rw [hplan] at htree
      exact ⟨htree, h1, h2⟩
    | _ => exact hj.elim
  | _ => simp [Untouched, Server.after, doWorkBody, exec_bind, hg, hl]

/-- In every run, a request that reaches a node is rejected without a trace, unless it is a message
that `JSON.parse` rejects, as the browser sent it. -/
theorem requests_rejected (js : JavaScript) (srv : Server) (xs : List Turn)
    (hids : ∀ id msg, Turn.message id msg ∈ xs → ':' ∉ id)
    (hread : ∀ id msg j, Turn.message id msg ∈ xs → js.parse msg = some j →
      ReadAs srv (outgoing js id msg) (publishedValue id j)) :
    ∀ c ∈ requests js xs, (∃ id, Turn.message id c.data ∈ xs ∧ js.parse c.data = none) ∨
      ∀ t, Untouched srv t c.data := by
  intro c hc
  obtain ⟨x, hx, hxc⟩ := List.mem_filterMap.mp hc
  cases x with
  | message id msg =>
    obtain rfl := Option.some.inj hxc
    have hdata : (publishCall js id msg).command.data = outgoing js id msg := rfl
    rw [hdata]
    rcases hj : js.parse msg with _ | j
    · have hout : outgoing js id msg = msg := by rw [outgoing, hj]
      rw [hout]
      exact .inl ⟨id, hx, hj⟩
    · exact .inr fun t => untouched_of_readAs (hids id msg hx) (hread id msg j hx hj)
  | _ => cases hxc

/-- A node that reads this one request. -/
def requestReader : Server where
  spbHome := "/pkgbuild"
  absolute := pkgbuild_absolute
  builderId := "nebbiolo1"
  loads body :=
    if body = "\x7b\"client_id\":\"_7_\"\x7d" then
      .value (.object [("client_id", .string "_7_")])
    else .valueError

theorem one_request_rejected :
    Untouched requestReader freshTree "\x7b\"client_id\":\"_7_\"\x7d" := by
  have hone : ∀ id msg, Turn.message id msg ∈ oneRequest → id = "7" ∧ msg = "\x7b\x7d" := by
    intro id msg hm
    simpa [oneRequest] using hm
  have hread : ∀ id msg j, Turn.message id msg ∈ oneRequest → emptyRequest.parse msg = some j →
      ReadAs requestReader (outgoing emptyRequest id msg) (publishedValue id j) := by
    intro id msg j hm hj
    obtain ⟨rfl, rfl⟩ := hone id msg hm
    obtain rfl := Option.some.inj hj
    exact .inr ⟨.object [("client_id", .string "_7_")], rfl, fun _ _ h => h⟩
  have hids : ∀ id msg, Turn.message id msg ∈ oneRequest → ':' ∉ id := by
    intro id msg hm
    obtain ⟨rfl, -⟩ := hone id msg hm
    decide
  have hc : (publishCall emptyRequest "7" "\x7b\x7d").command ∈ requests emptyRequest oneRequest :=
    List.mem_filterMap.mpr ⟨.message "7" "\x7b\x7d", by simp [oneRequest], rfl⟩
  rcases requests_rejected emptyRequest requestReader oneRequest hids hread _ hc with
    ⟨id, hm, -⟩ | h
  · exact absurd (hone id _ hm).2 (by decide)
  · exact h freshTree

end PackageBuilder
