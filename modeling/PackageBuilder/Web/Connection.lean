import PackageBuilder.Web.Stomp

/-! A connection of stomp.js over its life: the queue of commands, the timer that writes them, and
the socket below. -/
namespace PackageBuilder.Stomp
open Text Framing

/-- `readyState` of the socket. -/
inductive ReadyState
  | opening | open | readOnly | writeOnly | closed
  deriving DecidableEq, Repr

/-- The calls of a client that go through the queue: all but `ack`, which nothing calls. -/
inductive Call (γ : Type)
  | publish (destination data : Str) (headers : List (Str × Str))
  | subscribe (destination : Str) (headers : List (Str × Str)) (callback : γ)
  | unsubscribe (destination : Str)
  | begin (transactionId : Str)
  | commit (transactionId : Str)
  | abort (transactionId : Str)
  | disconnect

def transactionCommand (command transactionId : Str) : Command where
  command := command
  headers := [("transaction", transactionId)]

/-- `headers && (headers["destination"] = destination) || (headers = …)`: an empty destination counts
as false, and the other headers are dropped. -/
def destined (headers : List (Str × Str)) (destination : Str) : List (Str × Str) :=
  if destination = [] then [("destination", destination)]
  else assign headers "destination" destination

def Call.command {γ : Type} : Call γ → Command
  | .publish destination data headers =>
    { command := "SEND", headers := destined headers destination, data }
  | .subscribe destination headers _ =>
    { command := "SUBSCRIBE", headers := destined headers destination }
  | .unsubscribe destination =>
    { command := "UNSUBSCRIBE", headers := [("destination", destination)] }
  | .begin transactionId => transactionCommand "BEGIN" transactionId
  | .commit transactionId => transactionCommand "COMMIT" transactionId
  | .abort transactionId => transactionCommand "ABORT" transactionId
  | .disconnect => { command := "DISCONNECT", headers := [] }

/-- `polling` says that a timer for `processCommands` is set. -/
structure Connection (γ : Type) where
  login : Str := []
  password : Str := []
  readyState : ReadyState := .opening
  commands : List Command := []
  subscriptions : List (Str × Option γ) := []
  written : List Str := []
  polling : Bool := true

inductive Step (γ : Type)
  | call (c : Call γ)
  | connected
  | halfClosed (readable : Bool)
  | closed
  | timer

namespace Connection

variable {γ : Type}

def subscribed (s : List (Str × Option γ)) : Call γ → List (Str × Option γ)
  | .subscribe destination _ callback => assign s destination (some callback)
  | .unsubscribe destination => assign s destination none
  | _ => s

def push (s : Connection γ) (c : Call γ) : Connection γ :=
  { s with
    commands := s.commands ++ [c.command]
    subscriptions := subscribed s.subscriptions c }

def connectFrame (s : Connection γ) : Str :=
  "CONNECT\nlogin:" ++ s.login ++ "\npassword:" ++ s.password ++ ['\n', '\n', '\x00']

/-- The listener of the `connect` event. -/
def connect (s : Connection γ) : Connection γ :=
  { s with readyState := .open, written := s.written ++ [s.connectFrame] }

/-- The loop that transmits what waits. -/
def flush (s : Connection γ) : Connection γ :=
  { s with written := s.written ++ s.commands.map prepareMessage, commands := [] }

/-- Without a new timer, `processCommands` is not called again. -/
def processCommands (s : Connection γ) : Connection γ :=
  if s.readyState = .open then s.flush
  else if s.readyState = .closed then { s with polling := false }
  else s

/-- A socket connects once, and is not open again after it was closed. When the broker ends its half,
the socket is no longer `open`, so the listener of `end` does nothing. -/
def step (s : Connection γ) : Step γ → Connection γ
  | .call c => s.push c
  | .connected => if s.readyState = .opening then s.connect else s
  | .halfClosed readable =>
    if s.readyState = .open then
      { s with readyState := if readable then .readOnly else .writeOnly }
    else s
  | .closed => { s with readyState := .closed }
  | .timer => if s.polling then s.processCommands else s

def run (s : Connection γ) (xs : List (Step γ)) : Connection γ := xs.foldl step s

/-- A new connection. -/
def new (login password : Str) : Connection γ := { login, password }

end Connection

/-- The commands that were called for, in order. -/
def issued {γ : Type} (xs : List (Step γ)) : List Command :=
  xs.filterMap fun
    | .call c => some c.command
    | _ => none

variable {γ : Type} {s : Connection γ} {x : Step γ} {xs ys : List (Step γ)} {cs : List Command}

theorem run_concat : s.run (xs ++ [x]) = (s.run xs).step x := by
  rw [Connection.run, List.foldl_append]
  rfl

theorem run_append : s.run (xs ++ ys) = (s.run xs).run ys := List.foldl_append

/-- Of the commands `cs` so far, those written and those that wait. -/
inductive Orderly (s : Connection γ) (cs : List Command) : Prop
  | waiting : s.readyState ≠ .open → s.written = [] → s.commands = cs → Orderly s cs
  | sending (sent : List Command) : s.readyState ≠ .opening →
    s.written = s.connectFrame :: sent.map prepareMessage → sent ++ s.commands = cs → Orderly s cs

/-- The timer is set as long as the socket is not closed. -/
def Live (s : Connection γ) : Prop := s.readyState ≠ .closed → s.polling = true

theorem processCommands_orderly (h : Orderly s cs) : Orderly s.processCommands cs := by
  rw [Connection.processCommands]
  split_ifs with ho hc
  · -- all that waits is written
    cases h with
    | waiting hn => exact absurd ho hn
    | sending sent hn hw hq =>
      refine .sending cs hn ?_ (List.append_nil cs)
      rw [← hq, List.map_append, Connection.flush, hw, List.cons_append]
      rfl
  · cases h with
    | waiting hn hw hq => exact .waiting hn hw hq
    | sending sent hn hw hq => exact .sending sent hn hw hq
  · exact h

theorem step_orderly (h : Orderly s cs) : Orderly (s.step x) (cs ++ issued [x]) := by
  cases x with
  | call c =>
    cases h with
    | waiting ho hw hc =>
      refine .waiting ho hw ?_
      rw [← hc]
      rfl
    | sending sent ho hw hc =>
      refine .sending sent ho hw ?_
      rw [← hc, List.append_assoc]
      rfl
  | connected =>
    rw [Connection.step, show issued [Step.connected (γ := γ)] = [] from rfl, List.append_nil]
    split
    next hs =>
      cases h with
      | waiting _ hw hc =>
        refine .sending [] (by simp [Connection.connect]) ?_ hc
        rw [Connection.connect, hw]
        rfl
      | sending _ ho => exact absurd hs ho
    next => exact h
  | halfClosed readable =>
    rw [Connection.step, show issued [Step.halfClosed (γ := γ) readable] = [] from rfl,
      List.append_nil]
    split
    next hs =>
      cases h with
      | waiting ho => exact absurd hs ho
      | sending sent _ hw hc => exact .sending sent (by cases readable <;> simp) hw hc
    next => exact h
  | closed =>
    rw [Connection.step, show issued [Step.closed (γ := γ)] = [] from rfl, List.append_nil]
    cases h with
    | waiting _ hw hc => exact .waiting (by simp) hw hc
    | sending sent _ hw hc => exact .sending sent (by simp) hw hc
  | timer =>
    rw [Connection.step, show issued [Step.timer (γ := γ)] = [] from rfl, List.append_nil]
    split
    next => exact processCommands_orderly h
    next => exact h

theorem step_live (h : Live s) : Live (s.step x) := by
  cases x with
  | call c => exact h
  | connected =>
    rw [Connection.step]
    split
    next hs => exact fun _ => h (by simp [hs])
    next => exact h
  | halfClosed readable =>
    rw [Connection.step]
    split
    next hs => exact fun _ => h (by simp [hs])
    next => exact h
  | closed => exact fun hc => absurd rfl hc
  | timer =>
    rw [Connection.step]
    split
    next =>
      rw [Connection.processCommands]
      split_ifs with ho hc
      · exact h
      · exact fun hn => absurd hc hn
      · exact h
    next => exact h

theorem run_orderly (login password : Str) (xs : List (Step γ)) :
    Orderly ((Connection.new login password).run xs) (issued xs) ∧
      Live ((Connection.new login password).run xs) := by
  induction xs using List.reverseRecOn with
  | nil => exact ⟨.waiting (by simp [Connection.run, Connection.new]) rfl rfl, fun _ => rfl⟩
  | append_singleton xs x ih =>
    have hi : issued (xs ++ [x]) = issued xs ++ issued [x] := List.filterMap_append
    rw [run_concat, hi]
    exact ⟨step_orderly ih.1, step_live ih.2⟩

theorem closed_step (h : s.readyState = .closed) :
    (s.step x).readyState = .closed ∧ (s.step x).written = s.written := by
  cases x with
  | call c => exact ⟨h, rfl⟩
  | connected => simp [Connection.step, h]
  | halfClosed readable => simp [Connection.step, h]
  | closed => exact ⟨rfl, rfl⟩
  | timer =>
    rw [Connection.step, Connection.processCommands]
    split_ifs with hp ho
    · simp [h] at ho
    · exact ⟨h, rfl⟩
    · exact ⟨h, rfl⟩

theorem closed_run (h : s.readyState = .closed) : (s.run ys).written = s.written := by
  have hr : (s.run ys).readyState = .closed ∧ (s.run ys).written = s.written := by
    induction ys using List.reverseRecOn with
    | nil => exact ⟨h, rfl⟩
    | append_singleton ys y ih =>
      rw [run_concat]
      obtain ⟨hc, hw⟩ := closed_step (x := y) ih.1
      exact ⟨hc, hw.trans ih.2⟩
  exact hr.2

theorem step_connectFrame : (s.step x).connectFrame = s.connectFrame := by
  cases x with
  | call c => rfl
  | closed => rfl
  | timer =>
    simp only [Connection.step, Connection.processCommands]
    split_ifs <;> rfl
  | connected =>
    simp only [Connection.step]
    split <;> rfl
  | halfClosed readable =>
    simp only [Connection.step]
    split <;> rfl

theorem run_connectFrame : (s.run xs).connectFrame = s.connectFrame := by
  induction xs using List.reverseRecOn with
  | nil => rfl
  | append_singleton xs x ih => rw [run_concat, step_connectFrame, ih]

theorem written_open (login password : Str) (xs : List (Step γ))
    (hopen : ((Connection.new login password).run xs).readyState = .open) :
    (((Connection.new login password).run xs).step .timer).written =
      ((Connection.new login password).run xs).connectFrame ::
        (issued xs).map prepareMessage := by
  obtain ⟨ho, hl⟩ := run_orderly login password xs
  have hp : ((Connection.new login password).run xs).polling = true := hl (by simp [hopen])
  cases ho with
  | waiting hn => exact absurd hopen hn
  | sending sent _ hw hc =>
    rw [Connection.step, if_pos hp, Connection.processCommands, if_pos hopen, Connection.flush, hw,
      ← hc, List.map_append, List.cons_append]

/-- In every run, the socket gets CONNECT and then the commands in the order they were called for,
each once. While it is open, the next turn of the timer writes all that were; once it is closed,
nothing more is ever written. -/
theorem commands_in_order (login password : Str) (xs ys : List (Step γ)) :
    let s := (Connection.new login password).run xs
    (s.written = [] ∧ s.commands = issued xs ∨ ∃ sent,
      s.written = s.connectFrame :: sent.map prepareMessage ∧ sent ++ s.commands = issued xs) ∧
    (s.readyState = .open →
      (s.step .timer).written = s.connectFrame :: (issued xs).map prepareMessage) ∧
    (s.readyState = .closed → (s.run ys).written = s.written) := by
  intro s
  have ho : Orderly s (issued xs) := (run_orderly login password xs).1
  refine ⟨?_, written_open login password xs, closed_run⟩
  cases ho with
  | waiting _ hw hc => exact .inl ⟨hw, hc⟩
  | sending sent _ hw hc => exact .inr ⟨sent, hw, hc⟩

/-- A command up to the NUL that ends it. -/
def commandText (c : Command) : Str := (prepareMessage c).dropLast

theorem prepareMessage_eq (c : Command) : prepareMessage c = commandText c ++ ['\x00'] := by
  have h : prepareMessage c = (c.command ++ "\n" ++ ['\n'].intercalate (c.headers.map headerLine) ++
      blankLine ++ c.data ++ ['\n']) ++ ['\x00'] := by
    rw [prepareMessage, List.append_assoc _ ['\n'] ['\x00']]
    rfl
  rw [commandText, h, List.dropLast_concat]

theorem free_nul_iff {g : Str} : Free ['\x00'] g ↔ '\x00' ∉ g := by
  rw [Free, show g ++ ['\x00'].dropLast = g from List.append_nil g]
  constructor
  · intro h hm
    obtain ⟨a, b, rfl⟩ := List.append_of_mem hm
    exact h ⟨a, b, by simp⟩
  · intro h hs
    exact h (hs.subset List.mem_cons_self)

/-- Taken apart at the NULs, the commands are found again if and only if none has a NUL in it: the
length of a body is not sent. -/
theorem commands_read_iff (cs : List Command) :
    pieces ['\x00'] (cs.flatMap prepareMessage) = cs.map commandText ++ [[]] ↔
      ∀ c ∈ cs, '\x00' ∉ commandText c := by
  have hne : ['\x00'] ≠ ([] : Str) := List.cons_ne_nil _ _
  constructor
  · intro h c hc
    have hm : commandText c ∈ pieces ['\x00'] (cs.flatMap prepareMessage) := by
      rw [h]
      exact List.mem_append_left _ (List.mem_map_of_mem hc)
    intro hn
    obtain ⟨a, b, hab⟩ := List.append_of_mem hn
    exact (mem_pieces hne hm).2 ⟨a, b, by rw [hab]; simp⟩
  · intro h
    have hflat : cs.flatMap prepareMessage = (cs.map commandText).flatMap (· ++ ['\x00']) := by
      rw [List.flatMap_map]
      exact List.flatMap_congr fun c _ => prepareMessage_eq c
    have hfree : ∀ g ∈ cs.map commandText, Free ['\x00'] g := by
      intro g hg
      obtain ⟨c, hc, rfl⟩ := List.mem_map.mp hg
      exact free_nul_iff.mpr (h c hc)
    have hsplit := pieces_frames (t := []) hne hfree
    rw [List.append_nil, pieces_absent (by decide : ¬ ['\x00'] <:+: [])] at hsplit
    rw [hflat, hsplit]

end PackageBuilder.Stomp
