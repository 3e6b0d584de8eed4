import PackageBuilder.Web.Connection
import PackageBuilder.Server.Body

/-! The server of the front end (app.js): it passes the requests of browsers on to the broker, and
the events of builders to the browser that asked for them. -/
namespace PackageBuilder
open Text Framing Stomp

/-- What the versions of Node.js have different: `JSON.parse`, `none` for a SyntaxError, and
`JSON.stringify` (no JSON text has a NUL in it); of which properties of an array a call with a message
raises; and for which arrays the stack is too small to `join` them. -/
structure JavaScript where
  parse : Str → Option Json
  stringify : Json → Str
  raises : Str → Bool := fun _ => false
  overflows : List Json → Bool := fun _ => false
  nul : ∀ s, '\x00' ∈ s → parse s = none
  noNul : ∀ j, '\x00' ∉ stringify j

section
variable (js : JavaScript)

mutual

/-- `String(j)`; `none` where it raises, as for an object whose own `toString` is no function. -/
def Json.toText : Json → Option Str
  | .null => some "null"
  | .bool b => some (if b then "true" else "false")
  | .number text => some text
  | .string s => some s
  | .array items =>
    if js.overflows items then none else (elementTexts items).map ([','].intercalate ·)
  | .object o => if (field? o "toString").isSome then none else some "[object Object]"

/-- What `join` makes of the elements of an array. -/
def elementTexts : List Json → Option (List Str)
  | [] => some []
  | item :: items =>
    match item with
    | .null => (elementTexts items).map ([] :: ·)
    | item => do
      let text ← Json.toText item
      let texts ← elementTexts items
      return text :: texts

end

/-- The text that `m == v` compares `m` with, for an `m` that is no number: `none` if the conversion
raises, as it then does in `"…" + v`, and `some none` for a value that no such `m` is equal to. -/
def comparedText : Option Json → Option (Option Str)
  | none | some .null | some (.bool _) | some (.number _) => some none
  | some j => (j.toText js).map some

end

/-- `"_" + id + "_"` -/
def socketKey (id : Str) : Str := '_' :: id ++ ['_']

/-- The text that is published for the message of a browser. In `obj['client_id'] = clientId`, `null`
raises, and what is no object loses the key again. -/
def outgoing (js : JavaScript) (id msg : Str) : Str :=
  match js.parse msg with
  | none | some .null => msg
  | some (.object o) =>
    js.stringify (.object (assign o ("client_id" : Str) (.string (socketKey id))))
  | some j => js.stringify j

/-- What the listener of `message` events of a socket calls. -/
def publishCall (js : JavaScript) (id msg : Str) : Call Unit :=
  .publish "/topic/buildjobs" (outgoing js id msg) []

/-- `obj['client_id']`, `none` where it raises and the event is dropped. -/
def clientIdOf : Option Json → Option (Option Json)
  | none | some .null => none
  | some (.object o) => some (field? o "client_id")
  | some _ => some none

/-- The loop over the sockets, up to the first whose key is this text. -/
def recipient (text : Option Str) : List Str → Option Str
  | [] => none
  | cl :: clients => if text = some (socketKey cl) then some cl else recipient text clients

/-- The sockets, the connection to the broker, and the messages emitted to each socket; `down` says
that an exception has ended the process. -/
structure Relay where
  clients : List Str := []
  client : Connection Unit
  emitted : List (Str × Str) := []
  down : Bool := false

inductive Turn
  | connection (id : Str)
  | disconnect (id : Str)
  | message (id msg : Str)
  | data (chunk : Str)
  | stomp (x : Step Unit)

namespace Relay

/-- The callback of the subscription. It prints the client id before it compares any. -/
def callback (js : JavaScript) (s : Relay) (body : Str) : Relay :=
  match clientIdOf (js.parse body) with
  | none => s
  | some clientId =>
    match comparedText js clientId with
    | none => { s with down := true }
    | some text =>
      match recipient text s.clients with
      | none => s
      | some cl => { s with emitted := s.emitted ++ [(cl, body)] }

/-- Nobody catches an exception of a listener. -/
def react (js : JavaScript) (s : Relay) (r : Reaction Unit) : Relay :=
  if s.down then s
  else
    match r with
    | .call _ message => s.callback js message.body
    | .raise => { s with down := true }

/-- What a chunk of the broker's stream leads to. -/
def reactions (js : JavaScript) (s : Relay) (chunk : Str) : List (Reaction Unit) :=
  onData js.raises s.client.subscriptions chunk

/-- One turn of the event loop. The listener of `close` calls a method that the socket lacks. -/
def step (js : JavaScript) (s : Relay) (x : Turn) : Relay :=
  if s.down then s
  else
    match x with
    | .connection id => { s with clients := if id ∈ s.clients then s.clients else s.clients ++ [id] }
    | .disconnect id => { s with clients := s.clients.filter (· ≠ id) }
    | .message id msg => { s with client := s.client.push (publishCall js id msg) }
    | .data chunk => (s.reactions js chunk).foldl (react js) s
    | .stomp (.call _) => s
    | .stomp .closed => { s with client := s.client.step .closed, down := true }
    | .stomp x => { s with client := s.client.step x }

def start : Relay where
  client := (Connection.new [] []).push (.subscribe "/topic/builderevents" [] ())

def run (js : JavaScript) (xs : List Turn) : Relay := xs.foldl (step js) start

end Relay

/-- The private channel of one browser. -/
structure Session where
  connected : Bool := false
  received : List Str := []
  deriving DecidableEq, Repr

/-- What the keys of the sockets are compared with for an event, `none` for an event that is dropped
before. -/
def keyOf (js : JavaScript) (body : Str) : Option (Option (Option Str)) :=
  (clientIdOf (js.parse body)).map (comparedText js)

/-- An event for this browser. -/
def addressed (js : JavaScript) (id body : Str) : Bool :=
  keyOf js body = some (some (some (socketKey id)))

/-- An event whose client id has no text. -/
abbrev Poison (js : JavaScript) (body : Str) : Prop := keyOf js body = some none

/-- What a chunk leads to, with the subscription that is made at the start. -/
def reactionsTo (js : JavaScript) (chunk : Str) : List (Reaction Unit) :=
  Relay.start.reactions js chunk

def bodyOf : Reaction Unit → Option Str
  | .call _ message => some message.body
  | .raise => none

/-- The events in a chunk of the broker's stream. -/
def eventsIn (js : JavaScript) (chunk : Str) : List Str := (reactionsTo js chunk).filterMap bodyOf

namespace Session

def step (js : JavaScript) (id : Str) (s : Session) : Turn → Session
  | .connection id' => if id' = id then { s with connected := true } else s
  | .disconnect id' => if id' = id then { s with connected := false } else s
  | .data chunk =>
    if s.connected then
      { s with received := s.received ++ (eventsIn js chunk).filter (addressed js id) }
    else s
  | _ => s

def run (js : JavaScript) (id : Str) (xs : List Turn) : Session := xs.foldl (step js id) {}

end Session

/-- What the relay has for one browser. -/
def Relay.session (s : Relay) (id : Str) : Session where
  connected := decide (id ∈ s.clients)
  received := (s.emitted.filter fun x => x.1 = id).map Prod.snd

variable {js : JavaScript} {s : Relay} {id id' body chunk : Str} {x : Turn} {xs ys : List Turn}
  {r : Reaction Unit} {cls : List Str}

theorem socketKey_injective (h : socketKey id = socketKey id') : id = id' := by
  rw [socketKey, socketKey] at h
  exact List.append_cancel_right (List.cons.inj h).2

theorem recipient_eq {text : Option Str} :
    recipient text cls = cls.find? fun cl => text = some (socketKey cl) := by
  induction cls with
  | nil => rfl
  | cons cl cls ih =>
    rw [recipient, List.find?_cons, ih]
    by_cases h : text = some (socketKey cl) <;> simp [h]

/-- The callback ends the process, or emits the event to the one socket that it is for. -/
theorem callback_eq (js : JavaScript) (s : Relay) (body : Str) : s.callback js body =
    if Poison js body then { s with down := true }
    else { s with
      emitted := s.emitted ++
        ((s.clients.find? fun cl => addressed js cl body).map (·, body)).toList } := by
  have hkey : keyOf js body = (clientIdOf (js.parse body)).map (comparedText js) := rfl
  rw [Relay.callback]
  rcases hc : clientIdOf (js.parse body) with _ | v
  · rw [hc, Option.map_none] at hkey
    have hnobody : (s.clients.find? fun cl => addressed js cl body) = none := by
      simp [addressed, hkey]
    rw [if_neg (by simp [Poison, hkey]), hnobody]
    simp
  · rw [hc, Option.map_some] at hkey
    rcases hv : comparedText js v with _ | text
    · rw [hv] at hkey
      rw [if_pos hkey]
      simp only [hv]
    · rw [hv] at hkey
      have hrec : recipient text s.clients = s.clients.find? fun cl => addressed js cl body := by
        rw [recipient_eq]
        simp [addressed, hkey]
      rw [if_neg (by simp [Poison, hkey])]
      simp only [hv, hrec]
      rcases s.clients.find? fun cl => addressed js cl body with _ | cl <;> simp

/-- An event is for one browser at most. -/
theorem addressed_unique (h : addressed js id body = true) (h' : addressed js id' body = true) :
    id = id' := by
  simp only [addressed, decide_eq_true_eq] at h h'
  rw [h] at h'
  exact socketKey_injective (by simpa using h')

theorem find_addressed :
    (cls.find? fun cl => addressed js cl body) = some id ↔ id ∈ cls ∧ addressed js id body = true := by
  constructor
  · intro h
    exact ⟨List.mem_of_find?_eq_some h, by simpa using List.find?_some h⟩
  · rintro ⟨hm, ha⟩
    rcases hcl : cls.find? fun cl => addressed js cl body with _ | cl
    · exact absurd ha (List.find?_eq_none.mp hcl id hm)
    · have hca : addressed js cl body = true := by simpa using List.find?_some hcl
      rw [addressed_unique hca ha]

/-- A reaction that ends the process. -/
def Deadly (js : JavaScript) : Reaction Unit → Prop
  | .call _ message => Poison js message.body
  | .raise => True

theorem react_down (hd : s.down = true) : s.react js r = s := by
  unfold Relay.react
  rw [if_pos hd]

theorem react_call {u : Unit} {m : Message} (hd : s.down = false) :
    s.react js (.call u m) = s.callback js m.body := by
  rw [Relay.react, if_neg (by simp [hd])]

theorem react_raise (hd : s.down = false) : s.react js .raise = { s with down := true } := by
  rw [Relay.react, if_neg (by simp [hd])]

theorem react_down_iff (hd : s.down = false) : (s.react js r).down = true ↔ Deadly js r := by
  cases r with
  | call u m =>
    rw [react_call hd, callback_eq, Deadly]
    by_cases hp : Poison js m.body
    · rw [if_pos hp]
      exact iff_of_true rfl hp
    · rw [if_neg hp, hd]
      exact iff_of_false Bool.false_ne_true hp
  | raise =>
    rw [react_raise hd]
    exact ⟨fun _ => trivial, fun _ => rfl⟩

theorem react_frame :
    (s.react js r).clients = s.clients ∧ (s.react js r).client = s.client := by
  rcases hd : s.down
  · cases r with
    | call u m =>
      rw [react_call hd, callback_eq]
      split <;> exact ⟨rfl, rfl⟩
    | raise =>
      rw [react_raise hd]
      exact ⟨rfl, rfl⟩
  · rw [react_down hd]
    exact ⟨rfl, rfl⟩

/-- What one reaction adds to the channel of one browser. -/
theorem react_session (hd : s.down = false) (hup : (s.react js r).down = false) :
    (s.react js r).session id = { s.session id with
      received := (s.session id).received ++
        if (s.session id).connected then (bodyOf r).toList.filter (addressed js id) else [] } := by
  have hsafe : ¬ Deadly js r := by
    rw [← react_down_iff hd, hup]
    decide
  cases r with
  | raise => exact absurd trivial hsafe
  | call u m =>
    rw [Deadly] at hsafe
    rw [react_call hd, callback_eq, if_neg hsafe]
    simp only [Relay.session, List.filter_append, List.map_append, decide_eq_true_eq, bodyOf,
      Option.toList_some, List.filter_cons, List.filter_nil]
    congr 2
    by_cases h : id ∈ s.clients ∧ addressed js id m.body = true
    · rw [find_addressed.mpr h]
      simp [h]
    · rcases hf : s.clients.find? fun cl => addressed js cl m.body with _ | cl
      · by_cases hm : id ∈ s.clients <;> simp_all
      · have hne : cl ≠ id := fun hcl => h (find_addressed.mp (hcl ▸ hf))
        by_cases hm : id ∈ s.clients <;> simp_all

variable {rs : List (Reaction Unit)}

theorem reactions_down (hd : s.down = true) : rs.foldl (Relay.react js) s = s := by
  induction rs with
  | nil => rfl
  | cons r rs ih => rw [List.foldl_cons, react_down hd, ih]

theorem reactions_down_iff (hd : s.down = false) :
    (rs.foldl (Relay.react js) s).down = true ↔ ∃ r ∈ rs, Deadly js r := by
  induction rs generalizing s with
  | nil => simp [hd]
  | cons r rs ih =>
    rw [List.foldl_cons, List.exists_mem_cons_iff]
    rcases hr : (s.react js r).down
    · have hsafe : ¬ Deadly js r := by
        rw [← react_down_iff hd, hr]
        decide
      rw [ih hr, or_iff_right hsafe]
    · rw [reactions_down hr, hr]
      exact iff_of_true rfl (.inl ((react_down_iff hd).mp hr))

theorem reactions_session (hd : s.down = false)
    (hup : (rs.foldl (Relay.react js) s).down = false) :
    (rs.foldl (Relay.react js) s).session id = { s.session id with
      received := (s.session id).received ++
        if (s.session id).connected then (rs.filterMap bodyOf).filter (addressed js id)
        else [] } := by
  induction rs generalizing s with
  | nil => simp
  | cons r rs ih =>
    rw [List.foldl_cons] at hup ⊢
    have hr : (s.react js r).down = false := by
      by_contra hr
      rw [Bool.not_eq_false] at hr
      rw [reactions_down hr, hr] at hup
      cases hup
    have hcons : (r :: rs).filterMap bodyOf = (bodyOf r).toList ++ rs.filterMap bodyOf := by
      rcases hb : bodyOf r <;> simp [hb]
    rw [ih hr hup, react_session hd hr, hcons, List.filter_append]
    rcases hc : (s.session id).connected <;> simp [hc]

theorem reactions_frame :
    (rs.foldl (Relay.react js) s).clients = s.clients ∧
      (rs.foldl (Relay.react js) s).client = s.client := by
  induction rs generalizing s with
  | nil => exact ⟨rfl, rfl⟩
  | cons r rs ih =>
    rw [List.foldl_cons, ih.1, ih.2]
    exact react_frame

theorem relay_run_concat : Relay.run js (xs ++ [x]) = (Relay.run js xs).step js x := by
  rw [Relay.run, List.foldl_append]
  rfl

theorem session_run_concat :
    Session.run js id (xs ++ [x]) = (Session.run js id xs).step js id x := by
  rw [Session.run, List.foldl_append]
  rfl

theorem step_down (hd : s.down = true) : s.step js x = s := by
  unfold Relay.step
  rw [if_pos hd]

/-- The subscription is for good. -/
theorem step_subscriptions :
    (s.step js x).client.subscriptions = s.client.subscriptions := by
  unfold Relay.step
  split
  next => rfl
  next =>
    cases x with
    | connection id => rfl
    | disconnect id => rfl
    | message id msg => rfl
    | data chunk => exact congrArg Connection.subscriptions reactions_frame.2
    | stomp y =>
      cases y with
      | call c => rfl
      | connected =>
        simp only [Connection.step]
        split <;> rfl
      | halfClosed readable =>
        simp only [Connection.step]
        split <;> rfl
      | closed => rfl
      | timer =>
        simp only [Connection.step, Connection.processCommands]
        split_ifs <;> rfl

theorem run_reactions : (Relay.run js xs).reactions js chunk = reactionsTo js chunk := by
  have hs : (Relay.run js xs).client.subscriptions = Relay.start.client.subscriptions := by
    induction xs using List.reverseRecOn with
    | nil => rfl
    | append_singleton xs x ih => rw [relay_run_concat, step_subscriptions, ih]
  rw [reactionsTo, Relay.reactions, Relay.reactions, hs]

theorem up_of_step (h : (s.step js x).down = false) : s.down = false := by
  by_contra hd
  rw [Bool.not_eq_false] at hd
  rw [step_down hd, hd] at h
  cases h

theorem step_session (hr : ∀ chunk, s.reactions js chunk = reactionsTo js chunk)
    (hup : (s.step js x).down = false) :
    (s.step js x).session id = (s.session id).step js id x := by
  have hd : s.down = false := up_of_step hup
  have hno : ¬ s.down = true := by simp [hd]
  unfold Relay.step at hup ⊢
  rw [if_neg hno] at hup ⊢
  cases x with
  | connection id' =>
    by_cases hid : id' = id
    · subst hid
      by_cases hm : id' ∈ s.clients <;> simp [Relay.session, Session.step, hm]
    · have hne : id ≠ id' := fun h => hid h.symm
      by_cases hm : id' ∈ s.clients <;> simp [Relay.session, Session.step, hm, hid, hne]
  | disconnect id' =>
    by_cases hid : id' = id
    · subst hid
      simp [Relay.session, Session.step]
    · have hne : id ≠ id' := fun h => hid h.symm
      simp [Relay.session, Session.step, hid, hne]
  | message id' msg => rfl
  | data chunk =>
    simp only [hr] at hup ⊢
    rw [reactions_session hd hup, Session.step, eventsIn]
    split
    next => rfl
    next => rw [List.append_nil]
  | stomp y => cases y <;> rfl

theorem run_session (hup : (Relay.run js xs).down = false) :
    (Relay.run js xs).session id = Session.run js id xs := by
  induction xs using List.reverseRecOn with
  | nil => rfl
  | append_singleton xs x ih =>
    rw [relay_run_concat] at hup ⊢
    rw [session_run_concat, step_session (fun _ => run_reactions) hup, ih (up_of_step hup)]

/-- A turn in which a listener raises: what follows from a frame does, or the connection to the broker
is closed. -/
def Fatal (js : JavaScript) : Turn → Prop
  | .data chunk => ∃ r ∈ reactionsTo js chunk, Deadly js r
  | .stomp .closed => True
  | _ => False

theorem step_down_iff (hd : (Relay.run js xs).down = false) :
    (Relay.run js (xs ++ [x])).down = true ↔ Fatal js x := by
  have hno : ¬ (Relay.run js xs).down = true := by simp [hd]
  rw [relay_run_concat]
  unfold Relay.step
  rw [if_neg hno]
  cases x with
  | data chunk => simp only [run_reactions, reactions_down_iff hd, Fatal]
  | connection id => simp [hd, Fatal]
  | disconnect id => simp [hd, Fatal]
  | message id msg => simp [hd, Fatal]
  | stomp y => cases y <;> simp [hd, Fatal]

theorem relay_down_iff : (Relay.run js xs).down = true ↔ ∃ x ∈ xs, Fatal js x := by
  induction xs using List.reverseRecOn with
  | nil => simp [Relay.run, Relay.start]
  | append_singleton xs x ih =>
    simp only [List.mem_append, List.mem_singleton, or_and_right, exists_or, exists_eq_left, ← ih]
    rcases hd : (Relay.run js xs).down
    · rw [step_down_iff hd]
      simp
    · rw [relay_run_concat, step_down hd, hd]
      simp

end PackageBuilder
