import PackageBuilder.Library.Framing
import PackageBuilder.Library.Text

/-! The STOMP client in stomp.js: the frames it writes, and how it takes apart what arrives. -/
namespace PackageBuilder.Stomp
open Text Framing

/-- The characters that `trim` of JavaScript takes off. -/
def isTrimmed (c : Char) : Bool :=
  c ∈ ['\t', '\n', '\x0b', '\x0c', '\r', ' ', '\u00a0', '\u1680', '\u2000', '\u2001', '\u2002',
    '\u2003', '\u2004', '\u2005', '\u2006', '\u2007', '\u2008', '\u2009', '\u200a', '\u2028',
    '\u2029', '\u202f', '\u205f', '\u3000', '\ufeff']

def trim (s : Str) : Str := (s.dropWhile isTrimmed).rdropWhile isTrimmed

/-- `o[key] = value`, for an object as the list of its keys and values, and a key that no object has
by itself. -/
def assign {β : Type} (o : List (Str × β)) (key : Str) (value : β) : List (Str × β) :=
  if key ∈ o.map Prod.fst then o.map fun x => if x.1 = key then (key, value) else x
  else o ++ [(key, value)]

/-- `header.shift().trim()` and `header.join(':').trim()` of a line split at its colons. -/
def parseLine (line : Str) : Str × Str :=
  let header := line.splitOn ':'
  (trim (header.headD []), trim ([':'].intercalate header.tail))

/-- The key of the prototype of an object. -/
def protoKey : Str := "__proto__"

/-- `headers[headerName] = value`: a text is no prototype, and so is not kept as one. -/
def setHeader (headers : List (Str × Str)) (h : Str × Str) : List (Str × Str) :=
  if h.1 = protoKey then headers else assign headers h.1 h.2

def parseHeader (s : Str) : List (Str × Str) :=
  ((s.splitOn '\n').map parseLine).foldl setHeader []

structure Message where
  command : Str := []
  headers : List (Str × Str) := []
  body : Str := []
  original : Str
  deriving DecidableEq, Repr

def commands : List Str := ["CONNECTED", "MESSAGE", "RECEIPT", "ERROR"]

/-- What `data` events are split at. -/
def frameEnd : Str := ['\x00', '\n']

def blankLine : Str := ['\n', '\n']

/-- `data.match(this.regex)`: a later blank line cannot help where the first one does not. -/
def matchFrame (data : Str) : Option (Str × Str × Str) := do
  let command ← commands.find? fun c => c ++ ['\n'] <+: data
  let (head, tail) ← cut blankLine (data.drop (command.length + 1))
  if frameEnd <:+ tail then some (command, head, tail.take (tail.length - 2)) else none

def parse (data : Str) : Message :=
  match matchFrame data with
  | some (command, head, body) =>
    { command, headers := parseHeader head, body, original := data }
  | none => { original := data }

/-- What the listener of `data` events passes on: `frames.shift()` ends its loop at the first empty
piece. -/
def frames (data : Str) : List Str :=
  ((pieces frameEnd data).takeWhile (· ≠ [])).map (· ++ frameEnd)

/-- What a frame leads to. -/
inductive Reaction (γ : Type)
  | call (callback : γ) (message : Message)
  | raise

/-- `this.subscriptions` is an array: a destination without a callback can be the name of a property
that arrays inherit, and `raises` says of which the call is a TypeError. -/
def processMessage {γ : Type} (raises : Str → Bool) (subscriptions : List (Str × Option γ))
    (data : Str) : Option (Reaction γ) :=
  let message := parse data
  if message.command = "MESSAGE" ∨ message.command = "ERROR" then
    let destination : Str := (message.headers.lookup ("destination" : Str)).getD "undefined"
    match subscriptions.lookup destination with
    | some callback => callback.map (.call · message)
    | none => if raises destination then some .raise else none
  else none

/-- What one `data` event leads to, up to the first exception. -/
def onData {γ : Type} (raises : Str → Bool) (subscriptions : List (Str × Option γ)) (data : Str) :
    List (Reaction γ) :=
  (frames data).filterMap (processMessage raises subscriptions)

/-- A command that waits in the queue of a connection. -/
structure Command where
  command : Str
  headers : List (Str × Str)
  data : Str := []
  deriving DecidableEq, Repr

def headerLine (h : Str × Str) : Str := h.1 ++ ':' :: h.2

/-- `headers["content-length"]` is a property of the array that `join` leaves out. -/
def prepareMessage (msg : Command) : Str :=
  msg.command ++ "\n" ++ ['\n'].intercalate (msg.headers.map headerLine) ++ blankLine ++ msg.data ++
    ['\n', '\x00']

/-- A header that survives a line of its own. -/
structure IsHeader (h : Str × Str) : Prop where
  name : trim h.1 = h.1
  value : trim h.2 = h.2
  noColon : ':' ∉ h.1
  oneLine : '\n' ∉ headerLine h
  noNul : '\x00' ∉ headerLine h

/-- A frame as a server sends it, with at least one header and none of them twice. -/
structure Frame where
  command : Str
  headers : List (Str × Str)
  body : Str
  known : command ∈ commands
  nonempty : headers ≠ []
  header : ∀ h ∈ headers, IsHeader h
  nodup : (headers.map Prod.fst).Nodup

namespace Frame

/-- Command and headers. -/
def top (f : Frame) : Str :=
  f.command ++ '\n' :: ['\n'].intercalate (f.headers.map headerLine)

/-- All but the end of the frame. -/
def content (f : Frame) : Str := f.top ++ blankLine ++ f.body

def text (f : Frame) : Str := f.content ++ frameEnd

/-- All that the frame says. -/
def sent (f : Frame) : Message where
  command := f.command
  headers := f.headers
  body := f.body
  original := f.text

/-- What is read of it. -/
def message (f : Frame) : Message := { f.sent with headers := f.headers.filter (·.1 ≠ protoKey) }

/-- The frame of which only this much of the body has come. -/
def withBody (f : Frame) (body : Str) : Frame := { f with body }

end Frame

variable {f : Frame} {h : Str × Str} {s t : Str} {o hs : List (Str × Str)}

theorem parseLine_headerLine (hh : IsHeader h) : parseLine (headerLine h) = h := by
  have hsplit : (headerLine h).splitOn ':' = h.1 :: h.2.splitOn ':' := by
    rw [headerLine, List.splitOn_append_cons_self, List.splitOn_eq_singleton hh.noColon]
    rfl
  rw [parseLine, hsplit, List.headD_cons, List.tail_cons, List.intercalate_splitOn, hh.name,
    hh.value]

theorem assign_new {β : Type} {o : List (Str × β)} {key : Str} {value : β}
    (hk : key ∉ o.map Prod.fst) : assign o key value = o ++ [(key, value)] := if_neg hk

theorem foldl_setHeader (hn : ((o ++ hs).map Prod.fst).Nodup) :
    hs.foldl setHeader o = o ++ hs.filter (·.1 ≠ protoKey) := by
  induction hs generalizing o with
  | nil => simp
  | cons h hs ih =>
    rw [List.map_append, List.map_cons] at hn
    have hnew : h.1 ∉ o.map Prod.fst := by
      have hd := (List.nodup_append'.mp hn).2.2
      exact fun hm => hd hm List.mem_cons_self
    rw [List.foldl_cons, setHeader]
    split
    next hp =>
      rw [List.filter_cons_of_neg (by simp [hp])]
      refine ih (hn.sublist ?_)
      rw [List.map_append]
      exact (List.sublist_cons_self h.1 _).append_left _
    next hp =>
      rw [List.filter_cons_of_pos (by simp [hp]), assign_new hnew, ih (by simpa using hn)]
      simp

theorem map_parseLine (hh : ∀ h ∈ hs, IsHeader h) : (hs.map headerLine).map parseLine = hs := by
  rw [List.map_map]
  exact (List.map_congr_left fun h hm => parseLine_headerLine (hh h hm)).trans (List.map_id hs)

theorem splitOn_lines (hne : hs ≠ []) (hh : ∀ h ∈ hs, IsHeader h) :
    (['\n'].intercalate (hs.map headerLine)).splitOn '\n' = hs.map headerLine := by
  apply List.splitOn_intercalate
  · intro line hline
    obtain ⟨h, hm, rfl⟩ := List.mem_map.mp hline
    exact (hh h hm).oneLine
  · simpa using hne

/-- The headers of a frame are read back, but for one. -/
theorem parseHeader_lines (f : Frame) :
    parseHeader (['\n'].intercalate (f.headers.map headerLine)) =
      f.headers.filter (·.1 ≠ protoKey) := by
  rw [parseHeader, splitOn_lines f.nonempty f.header, map_parseLine f.header]
  exact @foldl_setHeader [] f.headers f.nodup

theorem command_lines : ∀ c ∈ commands, '\x00' ∉ c ∧ ∃ d rest, c = d :: rest ∧ d ∉ frameEnd := by
  simp [commands, ofString, frameEnd]

theorem headerLine_ne_nil : headerLine h ≠ [] := by simp [headerLine]

theorem not_nul_lines (f : Frame) : '\x00' ∉ ['\n'].intercalate (f.headers.map headerLine) := by
  intro hm
  rcases mem_intercalate hm with he | ⟨line, hline, hc⟩
  · exact absurd he (by decide)
  · obtain ⟨h, hh, rfl⟩ := List.mem_map.mp hline
    exact (f.header h hh).noNul hc

theorem free_headers (f : Frame) :
    Free blankLine (['\n'].intercalate (f.headers.map headerLine)) := by
  apply free_lines
  intro line hline
  obtain ⟨h, hh, rfl⟩ := List.mem_map.mp hline
  exact ⟨headerLine_ne_nil, (f.header h hh).oneLine⟩

/-- The end of a frame is only where the body has one. -/
theorem frameEnd_infix_iff (f : Frame) : frameEnd <:+: f.content ↔ frameEnd <:+: f.body := by
  have htop : '\x00' ∉ f.top ++ blankLine := by
    have hc := (command_lines f.command f.known).1
    simp [Frame.top, blankLine, hc, not_nul_lines f]
  rw [Frame.content]
  constructor
  · intro h
    rcases List.infix_append_iff.mp h with h | h | ⟨x, y, hxy, hx, hy⟩
    · exact absurd (h.subset List.mem_cons_self) htop
    · exact h
    · -- the mark begins with a character that the top lacks
      cases x with
      | nil =>
        rw [hxy, List.nil_append]
        exact hy.isInfix
      | cons c x =>
        obtain ⟨rfl, -⟩ := List.cons.inj hxy
        exact absurd (hx.subset List.mem_cons_self) htop
  · intro h
    exact h.trans (List.suffix_append _ f.body).isInfix

theorem free_content_iff (f : Frame) : Free frameEnd f.content ↔ ¬ frameEnd <:+: f.body := by
  rw [← frameEnd_infix_iff]
  exact free_pair_iff (by decide)

theorem find_command {c rest : Str} (hc : c ∈ commands) :
    commands.find? (fun d => d ++ ['\n'] <+: c ++ '\n' :: rest) = some c := by
  simp only [commands, List.mem_cons, List.not_mem_nil, or_false] at hc
  rcases hc with rfl | rfl | rfl | rfl <;> simp [commands, ofString]

theorem frameEnd_ne_nil : frameEnd ≠ [] := List.cons_ne_nil _ _

theorem blankLine_ne_nil : blankLine ≠ [] := List.cons_ne_nil _ _

/-- What a frame says is read back, whatever its body. -/
theorem parse_text (f : Frame) : parse f.text = f.message := by
  have htext : f.text = f.command ++ '\n' ::
      (['\n'].intercalate (f.headers.map headerLine) ++ blankLine ++ (f.body ++ frameEnd)) := by
    simp [Frame.text, Frame.content, Frame.top]
  have hdrop : f.text.drop (f.command.length + 1) =
      ['\n'].intercalate (f.headers.map headerLine) ++ blankLine ++ (f.body ++ frameEnd) := by
    rw [htext, ← List.drop_drop, List.drop_left, List.drop_succ_cons, List.drop_zero]
  have hcut := cut_free (t := f.body ++ frameEnd) blankLine_ne_nil (free_headers f)
  have hbody : (f.body ++ frameEnd).take ((f.body ++ frameEnd).length - 2) = f.body := by
    simp [frameEnd]
  have hfind : commands.find? (fun c => c ++ ['\n'] <+: f.text) = some f.command := by
    rw [htext]
    exact find_command f.known
  have hmatch : matchFrame f.text =
      some (f.command, ['\n'].intercalate (f.headers.map headerLine), f.body) := by
    simp only [matchFrame, hfind, hdrop, hcut, Option.bind_eq_bind, Option.bind_some,
      List.suffix_append, if_true, hbody]
  rw [parse, hmatch]
  simp only [parseHeader_lines, Frame.message, Frame.sent]

theorem parse_original (data : Str) : (parse data).original = data := by
  rw [parse]
  split <;> rfl

theorem content_ne_nil (f : Frame) : f.content ≠ [] := by
  simp [Frame.content, Frame.top]

theorem frames_contents {gs : List Str} (hg : ∀ g ∈ gs, Free frameEnd g ∧ g ≠ []) :
    frames (gs.flatMap (· ++ frameEnd)) = gs.map (· ++ frameEnd) := by
  have hsplit := pieces_frames (t := []) frameEnd_ne_nil fun g hm => (hg g hm).1
  rw [List.append_nil, pieces_absent (by decide : ¬ frameEnd <:+: [])] at hsplit
  rw [frames, hsplit, List.takeWhile_append_of_pos fun g hm => decide_eq_true (hg g hm).2]
  simp

/-- Only what lacks the end of a frame is passed on. -/
theorem mem_pieces_of_original {d : Str} {m : Message} (h : m ∈ (frames d).map parse)
    (ho : m.original = f.text) : f.content ∈ pieces frameEnd d := by
  obtain ⟨e, he, rfl⟩ := List.mem_map.mp h
  obtain ⟨p, hp, rfl⟩ := List.mem_map.mp he
  rw [parse_original] at ho
  rw [← show p = f.content from List.append_cancel_right ho]
  exact (List.takeWhile_sublist _).subset hp

/-- Whole frames whose bodies lack the end of a frame are found one by one. -/
theorem frames_texts {fs : List Frame} (h : ∀ f ∈ fs, ¬ frameEnd <:+: f.body) :
    (frames (fs.flatMap Frame.text)).map parse = fs.map Frame.message := by
  have hflat : fs.flatMap Frame.text = (fs.map Frame.content).flatMap (· ++ frameEnd) := by
    rw [List.flatMap_map]
    rfl
  have hg : ∀ g ∈ fs.map Frame.content, Free frameEnd g ∧ g ≠ [] := by
    intro g hm
    obtain ⟨f, hf, rfl⟩ := List.mem_map.mp hm
    exact ⟨(free_content_iff f).mpr (h f hf), content_ne_nil f⟩
  rw [hflat, frames_contents hg, List.map_map, List.map_map]
  exact List.map_congr_left fun f _ => parse_text f

theorem message_eq_sent : f.message = f.sent ↔ ∀ h ∈ f.headers, h.1 ≠ protoKey := by
  simp [Frame.message, Frame.sent]

/-- A data event that brings whole frames is taken apart into just these frames if and only if no
body contains the end of a frame and no header is called `__proto__`. -/
theorem frames_read_iff (fs : List Frame) :
    (frames (fs.flatMap Frame.text)).map parse = fs.map Frame.sent ↔
      ∀ f ∈ fs, ¬ frameEnd <:+: f.body ∧ ∀ h ∈ f.headers, h.1 ≠ protoKey := by
  constructor
  · intro h
    have hbody : ∀ f ∈ fs, ¬ frameEnd <:+: f.body := by
      intro f hf
      have hm : f.sent ∈ (frames (fs.flatMap Frame.text)).map parse := by
        rw [h]
        exact List.mem_map_of_mem hf
      rw [← frameEnd_infix_iff]
      exact (mem_pieces frameEnd_ne_nil (mem_pieces_of_original hm rfl)).2
    rw [frames_texts hbody] at h
    exact fun f hf => ⟨hbody f hf, message_eq_sent.mp (List.map_inj_left.mp h f hf)⟩
  · intro h
    rw [frames_texts fun f hf => (h f hf).1]
    exact List.map_congr_left fun f hf => message_eq_sent.mpr (h f hf).2

/-- An event as the broker passes it on. -/
def eventFrame (body : Str) : Frame where
  command := "MESSAGE"
  headers := [("destination", "/topic/builderevents")]
  body := body
  known := by simp [commands]
  nonempty := List.cons_ne_nil _ _
  header := by
    intro h hh
    obtain rfl := List.mem_singleton.mp hh
    exact ⟨by decide +kernel, by decide +kernel, by decide, by decide +kernel, by decide +kernel⟩
  nodup := by simp

/-- What is left of a frame is passed on as if it were all. -/
theorem frames_partial (hbody : ¬ frameEnd <:+: f.body) : frames f.content = [f.text] := by
  have hfree := (free_content_iff f).mpr hbody
  rw [frames, pieces_absent hfree.not_infix, List.takeWhile_cons_of_pos (by simp [content_ne_nil])]
  rfl

/-- A frame that comes in chunks is passed on if and only if the first chunk holds all of it, but
perhaps for its two last characters. -/
theorem frame_of_chunks_iff (f : Frame) (chunks : List Str) (hbody : ¬ frameEnd <:+: f.body)
    (hne : [] ∉ chunks) (hchunks : chunks.flatten = f.text) :
    f.message ∈ (chunks.flatMap frames).map parse ↔
      chunks.head? = some f.content ∨ chunks.head? = some f.text := by
  obtain ⟨-, c, rest, hc, hsep⟩ := command_lines f.command f.known
  have hcontent : f.content = c :: (rest ++ '\n' ::
      ['\n'].intercalate (f.headers.map headerLine) ++ blankLine ++ f.body) := by
    simp [Frame.content, Frame.top, hc]
  have hfree := (free_content_iff f).mpr hbody
  have hpieces := piece_of_chunks_iff frameEnd_ne_nil hsep (hcontent ▸ hfree) hne
    (by rw [← hcontent]; exact hchunks)
  rw [← hcontent] at hpieces
  constructor
  · intro h
    rw [List.map_flatMap, List.mem_flatMap] at h
    obtain ⟨d, hd, hm⟩ := h
    exact hpieces.mp ⟨d, hd, mem_pieces_of_original hm rfl⟩
  · intro h
    cases chunks with
    | nil => rcases h with h | h <;> cases h
    | cons first rest =>
      have hfirst : frames first = [f.text] := by
        rcases h with h | h <;> obtain rfl := Option.some.inj h
        · exact frames_partial hbody
        · simpa [Frame.text] using @frames_contents [f.content]
            (by simpa using ⟨hfree, content_ne_nil f⟩)
      simp [hfirst, parse_text]

theorem frame_of_two_chunks :
    (eventFrame "[]").message ∈
        ([(eventFrame "[]").content, frameEnd].flatMap frames).map parse ↔
      [(eventFrame "[]").content, frameEnd].head? = some (eventFrame "[]").content ∨
        [(eventFrame "[]").content, frameEnd].head? = some (eventFrame "[]").text :=
  frame_of_chunks_iff (eventFrame "[]") [(eventFrame "[]").content, frameEnd] (by decide)
    (by decide) (by simp [Frame.text])

/-- Where the first chunk ends inside the body of a frame, the first message passed on has what
there is of the body, and the whole frame is never passed on. -/
theorem truncated_passed_on (f : Frame) (chunks : List Str) (body rest : Str)
    (hsplit : f.body = body ++ rest) (hrest : rest ≠ []) (hbody : ¬ frameEnd <:+: f.body)
    (hne : [] ∉ chunks) (hchunks : chunks.flatten = f.text)
    (hfirst : chunks.head? = some (f.withBody body).content) :
    ((chunks.flatMap frames).map parse).head? = some (f.withBody body).message ∧
      f.message ∉ (chunks.flatMap frames).map parse := by
  have hb : ¬ frameEnd <:+: (f.withBody body).body := by
    intro h
    rw [hsplit] at hbody
    exact hbody (h.trans (List.prefix_append body rest).isInfix)
  have hlen : (f.withBody body).content.length < f.content.length := by
    have hpos := List.length_pos_of_ne_nil hrest
    have hl : f.body.length = body.length + rest.length := by rw [hsplit, List.length_append]
    simp only [Frame.content, Frame.withBody, Frame.top, List.length_append]
    omega
  constructor
  · cases chunks with
    | nil => cases hfirst
    | cons first later =>
      obtain rfl := Option.some.inj hfirst
      rw [List.flatMap_cons, frames_partial hb, List.singleton_append, List.map_cons, parse_text]
      rfl
  · rw [frame_of_chunks_iff f chunks hbody hne hchunks, hfirst, Option.some.injEq, Option.some.injEq]
    have htext : f.content.length < f.text.length := by
      simp [Frame.text, frameEnd]
    rintro (h | h)
    · exact absurd (congrArg List.length h) (by omega)
    · exact absurd (congrArg List.length h) (by omega)

theorem truncated_bracket :
    (([((eventFrame "[]").withBody "[").content, ("]" : Str) ++ frameEnd].flatMap frames).map
        parse).head? = some ((eventFrame "[]").withBody "[").message ∧
      (eventFrame "[]").message ∉
        ([((eventFrame "[]").withBody "[").content, ("]" : Str) ++ frameEnd].flatMap frames).map
          parse :=
  truncated_passed_on (eventFrame "[]") [((eventFrame "[]").withBody "[").content,
    ("]" : Str) ++ frameEnd] "[" "]" rfl (by decide) (by decide) (by decide) rfl rfl

end PackageBuilder.Stomp
