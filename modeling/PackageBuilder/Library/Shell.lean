import PackageBuilder.Library.Text

/-! The tokens of a shell command by the rules of POSIX, for commands in which nothing is
expanded. -/
namespace Shell
open Text

/-- What an unquoted character is to the shell. -/
inductive Kind
  | plain | blank | operator | hash | single | double | backslash | expansion
  deriving DecidableEq, Repr

def kind (c : Char) : Kind :=
  if c ∈ [' ', '\t'] then .blank
  else if c ∈ ['|', '&', ';', '<', '>', '(', ')', '\n'] then .operator
  else if c = '#' then .hash
  else if c = '\x27' then .single
  else if c = '\x22' then .double
  else if c = '\\' then .backslash
  else if c ∈ ['$', '\x60', '\x00'] then .expansion
  else .plain

/-- The operators of more than one character. -/
def operators : List Str := ["&&", "||", ";;", "<<", ">>", "<&", ">&", "<>", "<<-", ">|"]

/-- A word with a mark for each character that was quoted. -/
inductive Token
  | word (cs : List (Char × Bool))
  | operator (s : Str)
  | ioNumber (s : Str)
  deriving DecidableEq, Repr

/-- Between tokens, in a comment, in a word, in quotes of both kinds, after a backslash (that
starts a word or not), after one in double quotes, or in an operator. -/
inductive Mode
  | gap | comment | bare | single | double
  | escaped (starts : Bool)
  | doubleEscaped
  | operator
  deriving DecidableEq, Repr

/-- The token being read and those before it, and the characters that are in none. -/
structure Lexer where
  mode : Mode := .gap
  part : List (Char × Bool) := []
  tokens : List Token := []
  dropped : Str := []
  deriving DecidableEq, Repr

section
variable (l : Lexer) (c : Char)

@[simps] def Lexer.drop : Lexer := { l with dropped := l.dropped ++ [c] }

@[simps] def Lexer.push (quoted : Bool) : Lexer := { l with part := l.part ++ [(c, quoted)] }

@[simps] def Lexer.enter (m : Mode) : Lexer := { l with mode := m }

@[simps] def Lexer.emit (t : Token) : Lexer :=
  { l with mode := .gap, part := [], tokens := l.tokens ++ [t] }

/-- A word that ends at `c`: digits before `<` or `>` are the number of a file. -/
def wordBefore (part : List (Char × Bool)) : Token :=
  if (c = '<' ∨ c = '>') ∧ part ≠ [] ∧ part.all fun x => x.1.isDigit && !x.2 then
    .ioNumber (part.map Prod.fst)
  else
    .word part

/-- Where a token may start. -/
def gapStep : Option Lexer :=
  match kind c with
  | .plain => some ((l.push c false).enter .bare)
  | .blank => some (l.drop c)
  | .operator => some ((l.push c false).enter .operator)
  | .hash => some ((l.drop c).enter .comment)
  | .single => some ((l.drop c).enter .single)
  | .double => some ((l.drop c).enter .double)
  | .backslash => some ((l.drop c).enter (.escaped true))
  | .expansion => none

def bareStep : Option Lexer :=
  match kind c with
  | .plain | .hash => some (l.push c false)
  | .blank => some ((l.emit (.word l.part)).drop c)
  | .operator => some (((l.emit (wordBefore c l.part)).push c false).enter .operator)
  | .single => some ((l.drop c).enter .single)
  | .double => some ((l.drop c).enter .double)
  | .backslash => some ((l.drop c).enter (.escaped false))
  | .expansion => none

def doubleStep : Option Lexer :=
  match kind c with
  | .double => some ((l.drop c).enter .bare)
  | .backslash => some (l.enter .doubleEscaped)
  | .expansion => none
  | _ => some (l.push c true)

/-- In double quotes a backslash stays, unless it quotes something. -/
def doubleEscapedStep : Lexer :=
  if c = '\n' then ((l.drop '\\').drop c).enter .double
  else if c ∈ ['$', '\x60', '\x22', '\\'] then ((l.drop '\\').push c true).enter .double
  else ((l.push '\\' true).push c true).enter .double

/-- A NUL cannot be part of a command. -/
def step : Option Lexer :=
  if c = '\x00' then none else
  match l.mode with
  | .gap => gapStep l c
  | .comment =>
    if c = '\n' then some ((l.push c false).enter .operator) else some (l.drop c)
  | .bare => bareStep l c
  | .single => if kind c = .single then some ((l.drop c).enter .bare) else some (l.push c true)
  | .double => doubleStep l c
  | .escaped starts =>
    if c = '\n' then some ((l.drop c).enter (if starts then .gap else .bare))
    else some ((l.push c true).enter .bare)
  | .doubleEscaped => some (doubleEscapedStep l c)
  | .operator =>
    if l.part.map Prod.fst ++ [c] ∈ operators then some (l.push c false)
    else gapStep (l.emit (.operator (l.part.map Prod.fst))) c

end

def run (l : Lexer) (s : Str) : Option Lexer := s.foldlM step l

/-- All tokens, at the end of the command; `none` in quotes. -/
def Lexer.finish (l : Lexer) : Option (List Token) :=
  match l.mode with
  | .gap | .comment => some l.tokens
  | .bare => some (l.tokens ++ [.word l.part])
  | .operator => some (l.tokens ++ [.operator (l.part.map Prod.fst)])
  | .single | .double | .escaped _ | .doubleEscaped => none

/-- What is left of a token when quotes are removed. -/
inductive Lexeme
  | word (s : Str)
  | operator (s : Str)
  | ioNumber (s : Str)
  deriving DecidableEq, Repr

/-- A tilde that starts a word, or a character that may be read as part of a pattern or, by some
shells, of a list in braces. -/
def expands (cs : List (Char × Bool)) : Bool :=
  cs.head? == some ('~', false) ||
    cs.any fun x => !x.2 && decide (x.1 ∈ ['*', '?', '[', '{'])

def Token.lexeme : Token → Lexeme
  | .word cs => .word (cs.map Prod.fst)
  | .operator s => .operator s
  | .ioNumber s => .ioNumber s

def Lexeme.word? : Lexeme → Option Str
  | .word w => some w
  | .operator _ | .ioNumber _ => none

section
-- which words of this kind the shell leaves as they are: no path is matched, no such user is there
variable (stays : List (Char × Bool) → Bool)

def Token.isLiteral : Token → Bool
  | .word cs => !expands cs || stays cs
  | .operator _ | .ioNumber _ => true

/-- The tokens of a command, `none` when some text of it is expanded. -/
def parse (cmd : Str) : Option (List Lexeme) :=
  ((run {} cmd).bind Lexer.finish).bind fun ts =>
    if ts.all (Token.isLiteral stays) then some (ts.map Token.lexeme) else none

/-- The words of a command that is nothing but words. -/
def commandWords (cmd : Str) : Option (List Str) := (parse stays cmd).bind (·.mapM Lexeme.word?)

end

example : parse (fun _ => false) "rm -rf 'a b'\\ c \"d\\$\" 2>&1; x # y" = some [.word "rm",
    .word "-rf", .word "a b c", .word "d$", .ioNumber "2", .operator ">&", .word "1",
    .operator ";", .word "x"] := by decide +kernel

def Token.chars : Token → Str
  | .word cs => cs.map Prod.fst
  | .operator s | .ioNumber s => s

def Lexeme.text : Lexeme → Str
  | .word s | .operator s | .ioNumber s => s

section
variable (p : Char → Bool) (l : Lexer) (c : Char)

/-- How many of the characters read so far have `p`. -/
def Lexer.count : Nat :=
  (l.tokens.flatMap Token.chars).countP p + (l.part.map Prod.fst).countP p + l.dropped.countP p

/-- A backslash in double quotes waits for the next character. -/
def Lexer.pending : Str := if l.mode = .doubleEscaped then ['\\'] else []

@[simp] theorem count_drop : (l.drop c).count p = l.count p + [c].countP p := by
  simp only [Lexer.count, Lexer.drop_tokens, Lexer.drop_part, Lexer.drop_dropped,
    List.countP_append]
  omega

@[simp] theorem count_push (quoted : Bool) :
    (l.push c quoted).count p = l.count p + [c].countP p := by
  simp only [Lexer.count, Lexer.push_tokens, Lexer.push_part, Lexer.push_dropped, List.map_append,
    List.map_cons, List.map_nil, List.countP_append]
  omega

@[simp] theorem count_enter (m : Mode) : (l.enter m).count p = l.count p := rfl

theorem count_emit {t : Token} (h : t.chars = l.part.map Prod.fst) :
    (l.emit t).count p = l.count p := by
  simp only [Lexer.count, Lexer.emit_tokens, Lexer.emit_part, Lexer.emit_dropped,
    List.flatMap_append, List.flatMap_singleton, List.countP_append, List.map_nil,
    List.countP_nil, h]
  omega

end

section
variable {l l' : Lexer} {c : Char} {s s' : Str} {p : Char → Bool}

@[simp] theorem run_nil : run l [] = some l := rfl

theorem run_cons : run l (c :: s) = (step l c).bind fun l => run l s := rfl

theorem run_append : run l (s ++ s') = (run l s).bind fun l => run l s' := List.foldlM_append

@[simp] theorem count_emit_word : (l.emit (.word l.part)).count p = l.count p := count_emit p l rfl

@[simp] theorem count_emit_operator :
    (l.emit (.operator (l.part.map Prod.fst))).count p = l.count p := count_emit p l rfl

@[simp] theorem count_emit_wordBefore : (l.emit (wordBefore c l.part)).count p = l.count p := by
  apply count_emit
  unfold wordBefore
  split <;> rfl

theorem kind_backslash (h : kind c = .backslash) : c = '\\' := by
  unfold kind at h
  split_ifs at h
  assumption

theorem gapStep_count (h : gapStep l c = some l') :
    l'.count p = l.count p + [c].countP p ∧
      (l.mode ≠ .doubleEscaped → l'.mode ≠ .doubleEscaped) := by
  unfold gapStep at h
  split at h <;> cases h <;> simp

theorem step_count (h : step l c = some l') :
    l'.count p + l'.pending.countP p = l.count p + l.pending.countP p + [c].countP p := by
  unfold step at h
  split at h
  · cases h
  cases hm : l.mode with
  | gap =>
    simp only [hm] at h
    obtain ⟨hc, hg⟩ := gapStep_count (p := p) h
    simp [Lexer.pending, hc, hg (by simp [hm]), hm]
  | comment =>
    simp only [hm] at h
    split at h <;> cases h <;> simp [Lexer.pending, hm]
  | bare =>
    simp only [hm, bareStep] at h
    split at h <;> cases h <;> simp [Lexer.pending, hm]
  | single =>
    simp only [hm] at h
    split at h <;> cases h <;> simp [Lexer.pending, hm]
  | double =>
    simp only [hm, doubleStep] at h
    split at h
    next => cases h; simp [Lexer.pending, hm]
    next hk =>
      cases h
      simp [Lexer.pending, hm, kind_backslash hk]
    next => cases h
    next => cases h; simp [Lexer.pending, hm]
  | escaped starts =>
    simp only [hm] at h
    split at h <;> cases h <;> cases starts <;> simp [Lexer.pending, hm]
  | doubleEscaped =>
    simp only [hm, doubleEscapedStep] at h
    cases h
    split
    · simp [Lexer.pending, hm]
    · split <;> simp [Lexer.pending, hm]
  | operator =>
    simp only [hm] at h
    split at h
    · cases h
      simp [Lexer.pending, hm]
    · obtain ⟨hc, hg⟩ := gapStep_count (p := p) h
      simp [Lexer.pending, hc, hg (by simp), hm]

theorem run_count (h : run l s = some l') :
    l'.count p + l'.pending.countP p = l.count p + l.pending.countP p + s.countP p := by
  induction s generalizing l with
  | nil =>
    cases h
    simp
  | cons c s ih =>
    rw [run_cons] at h
    obtain ⟨l₁, h₁, h₂⟩ := Option.bind_eq_some_iff.mp h
    rw [ih h₂, step_count h₁]
    simp only [List.countP_cons, List.countP_nil]
    omega

theorem finish_count {ts : List Token} (h : l.finish = some ts) :
    l.dropped.countP p + (ts.flatMap Token.chars).countP p ≤ l.count p := by
  unfold Lexer.finish at h
  split at h <;> cases h <;> simp [Lexer.count, Token.chars] <;> omega

theorem gapStep_dropped (h : gapStep l c = some l') : l.dropped <+: l'.dropped := by
  unfold gapStep at h
  split at h <;> cases h <;> simp

theorem step_dropped (h : step l c = some l') : l.dropped <+: l'.dropped := by
  unfold step at h
  split at h
  · cases h
  split at h
  · exact gapStep_dropped h
  · split at h <;> cases h <;> simp
  · unfold bareStep at h
    split at h <;> cases h <;> simp
  · split at h <;> cases h <;> simp
  · unfold doubleStep at h
    split at h <;> cases h <;> simp
  · split at h <;> cases h <;> simp
  · cases h
    unfold doubleEscapedStep
    split
    · simp
    · split <;> simp
  · split at h
    · cases h
      simp
    · have hd := gapStep_dropped h
      exact hd

theorem run_dropped (h : run l s = some l') : l.dropped <+: l'.dropped := by
  induction s generalizing l with
  | nil =>
    cases h
    exact List.prefix_rfl
  | cons c s ih =>
    rw [run_cons] at h
    obtain ⟨l₁, h₁, h₂⟩ := Option.bind_eq_some_iff.mp h
    exact (step_dropped h₁).trans (ih h₂)

end

/-- A character that is dropped where it has its meaning. -/
def isMark (c : Char) : Bool :=
  decide (kind c = .single ∨ kind c = .double ∨ kind c = .backslash ∨ kind c = .hash)

/-- A property of what a word holds so far, if it is read without quotes. -/
structure Growing (W : List (Char × Bool) → Prop) : Prop where
  starts : ∀ c, kind c = .plain → W [(c, false)]
  grows : ∀ cs c, W cs → kind c = .plain ∨ kind c = .hash → W (cs ++ [(c, false)])

/-- After the tokens `base`, nothing was quoted and nothing but blanks was dropped. -/
structure Bare (W : List (Char × Bool) → Prop) (base : List Token) (d : Str) (l : Lexer) :
    Prop where
  mode : l.mode = .gap ∧ l.part = [] ∨ l.mode = .bare ∧ W l.part ∨ l.mode = .operator
  tokens : ∃ ts, l.tokens = base ++ ts ∧ ∀ cs, .word cs ∈ ts → W cs
  dropped : ∃ b, l.dropped = d ++ b ∧ ∀ c ∈ b, kind c = .blank

section
variable {W : List (Char × Bool) → Prop} {l l' : Lexer} {c : Char} {s : Str} {base : List Token}
  {d : Str}

theorem Bare.emit {t : Token} (h : Bare W base d l) (ht : ∀ cs, t = .word cs → W cs) :
    Bare W base d (l.emit t) := by
  obtain ⟨ts, hts, hw⟩ := h.tokens
  refine ⟨.inl ⟨rfl, rfl⟩, ⟨ts ++ [t], by simp [hts], fun cs hcs => ?_⟩, h.dropped⟩
  rcases List.mem_append.mp hcs with hcs | hcs
  · exact hw cs hcs
  · exact ht cs (List.mem_singleton.mp hcs).symm

theorem Bare.drop (h : Bare W base d l) (hc : kind c = .blank) : Bare W base d (l.drop c) := by
  obtain ⟨b, hb, hk⟩ := h.dropped
  refine ⟨h.mode, h.tokens, ⟨b ++ [c], by simp [hb], fun x hx => ?_⟩⟩
  rcases List.mem_append.mp hx with hx | hx
  · exact hk x hx
  · exact List.mem_singleton.mp hx ▸ hc

theorem step_marks (h : step l c = some l') :
    l.dropped.countP isMark ≤ l'.dropped.countP isMark :=
  (step_dropped h).sublist.countP_le

theorem run_marks (h : run l s = some l') :
    l.dropped.countP isMark ≤ l'.dropped.countP isMark :=
  (run_dropped h).sublist.countP_le

/-- The characters that do not quote. -/
def Unquoting (c : Char) : Prop := isMark c = false ∨ kind c = .hash

/-- The step goes on without quotes, or drops a mark. -/
def GoesOn (W : List (Char × Bool) → Prop) (base : List Token) (d : Str) (l l' : Lexer)
    (c : Char) : Prop :=
  Bare W base d l' ∧ Unquoting c ∨ isMark c = true ∧ l'.dropped = l.dropped ++ [c]

theorem Bare.gapStep (hW : Growing W) (h : Bare W base d l) (hm : l.mode = .gap)
    (hs : gapStep l c = some l') :
    GoesOn W base d l l' c := by
  have hp : l.part = [] := by
    rcases h.mode with h | h | h
    · exact h.2
    · rw [hm] at h
      cases h.1
    · rw [hm] at h
      cases h
  unfold Shell.gapStep at hs
  split at hs <;> cases hs
  next hk =>
    refine .inl ⟨⟨.inr (.inl ⟨rfl, ?_⟩), h.tokens, h.dropped⟩, .inl ?_⟩
    · simpa [hp] using hW.starts c hk
    · simp [isMark, hk]
  next hk => exact .inl ⟨h.drop hk, .inl (by simp [isMark, hk])⟩
  next hk =>
    exact .inl ⟨⟨.inr (.inr rfl), h.tokens, h.dropped⟩, .inl (by simp [isMark, hk])⟩
  all_goals
    right
    simp_all [isMark]

theorem Bare.step (hW : Growing W) (h : Bare W base d l) (hs : step l c = some l') :
    GoesOn W base d l l' c := by
  unfold Shell.step at hs
  split at hs
  · cases hs
  rcases h.mode with ⟨hm, -⟩ | ⟨hm, hb⟩ | hm <;> simp only [hm] at hs
  · exact h.gapStep hW hm hs
  · unfold bareStep at hs
    split at hs <;> cases hs
    next hk =>
      exact .inl ⟨⟨.inr (.inl ⟨hm, hW.grows _ _ hb (.inl hk)⟩), h.tokens, h.dropped⟩,
        .inl (by simp [isMark, hk])⟩
    next hk =>
      exact .inl ⟨⟨.inr (.inl ⟨hm, hW.grows _ _ hb (.inr hk)⟩), h.tokens, h.dropped⟩, .inr hk⟩
    next hk =>
      have he : Bare W base d (l.emit (.word l.part)) := by
        apply h.emit
        rintro cs ⟨⟩
        exact hb
      exact .inl ⟨he.drop hk, .inl (by simp [isMark, hk])⟩
    next hk =>
      have he : Bare W base d (l.emit (wordBefore c l.part)) := by
        apply h.emit
        intro cs hcs
        unfold wordBefore at hcs
        split at hcs <;> cases hcs
        exact hb
      exact .inl ⟨⟨.inr (.inr rfl), he.tokens, he.dropped⟩, .inl (by simp [isMark, hk])⟩
    all_goals
      right
      simp_all [isMark]
  · split at hs
    next ho =>
      cases hs
      have hlast : ∀ o ∈ operators, o.getLast?.all (!isMark ·) = true := by decide +kernel
      have hc := hlast _ ho
      rw [List.getLast?_concat, Option.all_some, Bool.not_eq_true'] at hc
      exact .inl ⟨⟨.inr (.inr hm), h.tokens, h.dropped⟩, .inl hc⟩
    next =>
      have he : Bare W base d (l.emit (.operator (l.part.map Prod.fst))) := h.emit nofun
      have hg := he.gapStep hW rfl hs
      exact hg

/-- A run that drops no mark goes on without quotes. -/
theorem Bare.run (hW : Growing W) (h : Bare W base d l) (hr : run l s = some l')
    (hd : l'.dropped.countP isMark = l.dropped.countP isMark) :
    Bare W base d l' ∧ ∀ c ∈ s, Unquoting c := by
  induction s generalizing l with
  | nil =>
    cases hr
    exact ⟨h, nofun⟩
  | cons c s ih =>
    rw [run_cons] at hr
    obtain ⟨l₁, h₁, h₂⟩ := Option.bind_eq_some_iff.mp hr
    have hle := run_marks h₂
    rcases h.step hW h₁ with ⟨hb, hc⟩ | ⟨hc, hdrop⟩
    · have hle₁ := step_marks h₁
      obtain ⟨hb', hs⟩ := ih hb h₂ (by omega)
      exact ⟨hb', List.forall_mem_cons.mpr ⟨hc, hs⟩⟩
    · rw [hdrop, List.countP_append, List.countP_singleton, if_pos hc] at hle
      omega

/-- In double quotes, a run that drops no mark does not get out. -/
theorem run_inside (hm : l.mode = .double ∨ l.mode = .doubleEscaped) (hr : run l s = some l')
    (hd : l'.dropped.countP isMark = l.dropped.countP isMark) : l'.finish = none := by
  induction s generalizing l with
  | nil =>
    cases hr
    rcases hm with hm | hm <;> simp [Lexer.finish, hm]
  | cons c s ih =>
    rw [run_cons] at hr
    obtain ⟨l₁, h₁, h₂⟩ := Option.bind_eq_some_iff.mp hr
    have hle := run_marks h₂
    have hle₁ := step_marks h₁
    have hsame : l₁.dropped.countP isMark = l.dropped.countP isMark := by omega
    refine ih ?_ h₂ (by omega)
    unfold step at h₁
    split at h₁
    · cases h₁
    rcases hm with hm | hm <;> simp only [hm] at h₁
    · unfold doubleStep at h₁
      split at h₁ <;> cases h₁
      next hk => simp [isMark, hk] at hsame
      next => exact .inr rfl
      next => exact .inl hm
    · cases h₁
      unfold doubleEscapedStep
      split
      · exact .inl rfl
      · split <;> exact .inl rfl

end

/-- The characters of a word outside of quotes. -/
def bare (w : Str) : List (Char × Bool) := w.map (·, false)

/-- A word that is left as it is: no character of it is one that the shell treats in its own way,
or only ones that the shell finds nothing for. -/
def isLiteralWord (stays : List (Char × Bool) → Bool) (w : Str) : Bool :=
  w ≠ [] && w.all (fun c => kind c == .plain || kind c == .hash) && w.head? ≠ some '#' &&
    (!expands (bare w) || stays (bare w))

/-- A word that means itself in every shell. -/
def isPlainWord (w : Str) : Bool := isLiteralWord (fun _ => false) w

/-- What a word is that is read without quotes. -/
def IsBareword (cs : List (Char × Bool)) : Prop :=
  ∃ c w, cs = bare (c :: w) ∧ kind c = .plain ∧ ∀ x ∈ w, kind x = .plain ∨ kind x = .hash

theorem growing_isBareword : Growing IsBareword where
  starts c hc := ⟨c, [], rfl, hc, nofun⟩
  grows := by
    rintro _ c ⟨a, w, rfl, ha, hw⟩ hc
    refine ⟨a, w ++ [c], by simp [bare], ha, fun x hx => ?_⟩
    rcases List.mem_append.mp hx with hx | hx
    · exact hw x hx
    · exact List.mem_singleton.mp hx ▸ hc

theorem growing_true : Growing fun _ => True := ⟨fun _ _ => trivial, fun _ _ _ _ => trivial⟩

section
variable {l l' : Lexer} {c : Char} {w s : Str} {ts : List Token} {p : Char → Bool}
  {stays : List (Char × Bool) → Bool}

@[simp] theorem bare_chars : (bare w).map Prod.fst = w := by
  simp [bare, Function.comp_def]

theorem kind_hash : kind c = .hash ↔ c = '#' := by
  constructor
  · intro h
    unfold kind at h
    split_ifs at h
    assumption
  · rintro rfl
    decide

theorem not_nul (h : kind c = .plain ∨ kind c = .hash ∨ kind c = .blank) : c ≠ '\x00' := by
  rintro rfl
  revert h
  decide

theorem isLiteralWord_iff : isLiteralWord stays w = true ↔
    IsBareword (bare w) ∧ (!expands (bare w) || stays (bare w)) = true := by
  have hinj : ∀ {a b : Str}, bare a = bare b → a = b := by
    intro a b h
    simpa using congrArg (List.map Prod.fst) h
  cases w with
  | nil =>
    simp only [isLiteralWord, IsBareword]
    constructor
    · intro h
      cases h
    · rintro ⟨⟨c, w, hw, -⟩, -⟩
      cases hw
  | cons c w =>
    have hbare : IsBareword (bare (c :: w)) ↔
        kind c = .plain ∧ ∀ x ∈ w, kind x = .plain ∨ kind x = .hash := by
      constructor
      · rintro ⟨a, v, hv, ha, hrest⟩
        obtain ⟨rfl, rfl⟩ := List.cons.inj (hinj hv)
        exact ⟨ha, hrest⟩
      · rintro ⟨hc, hw⟩
        exact ⟨c, w, rfl, hc, hw⟩
    rw [hbare]
    have hc : kind c = .plain → c ≠ '#' := by
      rintro h rfl
      revert h
      decide
    simp only [isLiteralWord, Bool.and_eq_true, decide_eq_true_eq, List.all_cons, List.head?_cons,
      List.all_eq_true, Bool.or_eq_true, beq_iff_eq, kind_hash]
    simp
    tauto

theorem isPlainWord_iff :
    isPlainWord w = true ↔ IsBareword (bare w) ∧ expands (bare w) = false := by
  simp [isPlainWord, isLiteralWord_iff]

theorem literal_of_plain (h : isPlainWord w = true) : isLiteralWord stays w = true := by
  obtain ⟨hb, he⟩ := isPlainWord_iff.mp h
  exact isLiteralWord_iff.mpr ⟨hb, by simp [he]⟩

/-- Reading a word from within it. -/
theorem run_bare (hm : l.mode = .bare) (hw : ∀ c ∈ w, kind c = .plain ∨ kind c = .hash) :
    run l w = some { l with part := l.part ++ bare w } := by
  induction w generalizing l with
  | nil => simp [bare]
  | cons c w ih =>
    have hc := hw c List.mem_cons_self
    have hs : step l c = some (l.push c false) := by
      have hn : c ≠ '\x00' := not_nul (hc.imp_right .inl)
      rw [step, if_neg hn, hm]
      rcases hc with hc | hc <;> simp [bareStep, hc]
    rw [run_cons, hs, Option.bind_some, ih (l := l.push c false) hm fun x hx =>
      hw x (List.mem_cons_of_mem c hx)]
    simp [Lexer.push, bare]

/-- Reading a word from the gap before it. -/
theorem run_word (hm : l.mode = .gap) (hp : l.part = []) (hw : IsBareword (bare w)) :
    run l w = some { l with mode := .bare, part := bare w } := by
  obtain ⟨c, v, hv, hc, hrest⟩ := hw
  obtain rfl : w = c :: v := by simpa using congrArg (List.map Prod.fst) hv
  have hs : step l c = some ((l.push c false).enter .bare) := by
    have hn : c ≠ '\x00' := not_nul (.inl hc)
    simp [step, hn, hm, gapStep, hc]
  rw [run_cons, hs, Option.bind_some, run_bare rfl hrest]
  simp [Lexer.push, Lexer.enter, bare, hp]

theorem run_blank (hm : l.mode = .gap) (hc : kind c = .blank) : run l [c] = some (l.drop c) := by
  have hn : c ≠ '\x00' := not_nul (.inr (.inr hc))
  simp [run_cons, step, hn, hm, gapStep, hc]

/-- Words with a blank after each. -/
theorem run_words {ws : List Str} (hm : l.mode = .gap) (hp : l.part = [])
    (hw : ∀ w ∈ ws, IsBareword (bare w)) :
    run l (ws.flatMap (· ++ [' '])) =
      some { l with
        tokens := l.tokens ++ ws.map fun w => .word (bare w)
        dropped := l.dropped ++ List.replicate ws.length ' ' } := by
  induction ws generalizing l with
  | nil => simp
  | cons w ws ih =>
    have hb : run { l with mode := .bare, part := bare w } [' '] =
        some { l with tokens := l.tokens ++ [.word (bare w)], dropped := l.dropped ++ [' '] } := by
      simp [run_cons, step, bareStep, kind, Lexer.emit, Lexer.drop, hm, hp]
    rw [List.flatMap_cons, List.append_assoc, run_append,
      run_word hm hp (hw w List.mem_cons_self), Option.bind_some, run_append, hb, Option.bind_some,
      ih]
    · simp [List.replicate_succ]
    · exact hm
    · exact hp
    · exact fun v hv => hw v (List.mem_cons_of_mem w hv)

/-- What there is to know when a command is read as `T`. -/
theorem parse_eq_some {cmd : Str} {T : List Lexeme} : parse stays cmd = some T ↔
    ∃ l ts, run {} cmd = some l ∧ l.finish = some ts ∧ ts.all (Token.isLiteral stays) = true ∧
      ts.map Token.lexeme = T := by
  simp only [parse, Option.bind_eq_some_iff, Option.ite_none_right_eq_some, Option.some.injEq]
  constructor
  · rintro ⟨ts, ⟨l, hl, hf⟩, ha, hT⟩
    exact ⟨l, ts, hl, hf, ha, hT⟩
  · rintro ⟨l, ts, hl, hf, ha, hT⟩
    exact ⟨ts, ⟨l, hl, hf⟩, ha, hT⟩

/-- At the end of text without quotes, what was read after `base` are words without quotes. -/
theorem Bare.finish {W : List (Char × Bool) → Prop} {base : List Token} {d : Str}
    (h : Bare W base d l) (hf : l.finish = some ts) :
    ∃ ts', ts = base ++ ts' ∧ (∀ cs, .word cs ∈ ts' → W cs) ∧
      l.count p = (ts.flatMap Token.chars).countP p + l.dropped.countP p := by
  obtain ⟨ts', hts, hw⟩ := h.tokens
  rcases h.mode with ⟨hm, hp⟩ | ⟨hm, hb⟩ | hm <;> simp only [Lexer.finish, hm] at hf <;> cases hf
  · exact ⟨ts', hts, hw, by simp [Lexer.count, hp]⟩
  · refine ⟨ts' ++ [.word l.part], by simp [hts], fun cs hcs => ?_, ?_⟩
    · rcases List.mem_append.mp hcs with hcs | hcs
      · exact hw cs hcs
      · cases List.mem_singleton.mp hcs
        exact hb
    · simp [Lexer.count, Token.chars]
  · refine ⟨ts' ++ [.operator (l.part.map Prod.fst)], by simp [hts], fun cs hcs => ?_, ?_⟩
    · rcases List.mem_append.mp hcs with hcs | hcs
      · exact hw cs hcs
      · cases List.mem_singleton.mp hcs
    · simp [Lexer.count, Token.chars]

theorem lexeme_text {t : Token} : t.lexeme.text = t.chars := by
  cases t <;> rfl

theorem lexemes_text : (ts.map Token.lexeme).flatMap Lexeme.text = ts.flatMap Token.chars := by
  simp [List.flatMap_map, lexeme_text]

/-- A token read without quotes and expansion is a literal word. -/
theorem literal_of_lexeme {t : Token} (ht : t.lexeme = .word w)
    (hb : ∀ cs, t = .word cs → IsBareword cs) (hl : t.isLiteral stays = true) :
    isLiteralWord stays w = true := by
  cases t with
  | word cs =>
    cases ht
    obtain ⟨c, v, hcs, hc, hv⟩ := hb cs rfl
    have hbare : bare (cs.map Prod.fst) = cs := by
      rw [hcs, bare_chars]
    rw [isLiteralWord_iff, hbare]
    exact ⟨⟨c, v, hcs, hc, hv⟩, hl⟩
  | operator s => cases ht
  | ioNumber s => cases ht

/-- A command of which no mark is lost has only literal words, and loses nothing but blanks. -/
theorem literal_of_parse {cmd : Str} {T : List Lexeme} (h : parse stays cmd = some T)
    (hm : cmd.countP isMark ≤ (T.flatMap Lexeme.text).countP isMark) :
    (∀ w, .word w ∈ T → isLiteralWord stays w = true) ∧
      ∀ c, kind c ≠ .blank → (T.flatMap Lexeme.text).count c = cmd.count c := by
  obtain ⟨l, ts, hr, hf, hl, rfl⟩ := parse_eq_some.mp h
  rw [lexemes_text] at hm ⊢
  have hcount : ∀ p : Char → Bool, l.count p + l.pending.countP p = cmd.countP p := by
    intro p
    rw [run_count hr]
    simp [Lexer.count, Lexer.pending]
  have hmark : l.dropped.countP isMark = 0 := by
    have h₁ : l.dropped.countP isMark + (ts.flatMap Token.chars).countP isMark ≤ l.count isMark :=
      finish_count hf
    have h₂ := hcount isMark
    omega
  have h₀ : Bare IsBareword [] [] {} := ⟨.inl ⟨rfl, rfl⟩, ⟨[], rfl, nofun⟩, ⟨[], rfl, nofun⟩⟩
  obtain ⟨hb, -⟩ := h₀.run growing_isBareword hr (by simpa using hmark)
  constructor
  · intro w hw
    obtain ⟨t, ht, htw⟩ := List.mem_map.mp hw
    obtain ⟨ts', rfl, hwords, -⟩ := hb.finish (p := isMark) hf
    refine literal_of_lexeme htw ?_ (List.all_eq_true.mp hl t ht)
    rintro cs rfl
    exact hwords cs ht
  · intro c hc
    obtain ⟨-, -, -, hfin⟩ := hb.finish (p := (· == c)) hf
    have hpend : l.pending = [] := by
      rcases hb.mode with ⟨hm, -⟩ | ⟨hm, -⟩ | hm <;> simp [Lexer.pending, hm]
    have hdrop : l.dropped.count c = 0 := by
      obtain ⟨b, hbd, hblank⟩ := hb.dropped
      rw [hbd, List.nil_append, List.count_eq_zero]
      exact fun hx => hc (hblank c hx)
    have hsum := hcount (· == c)
    rw [hpend, hfin, List.countP_nil] at hsum
    rw [List.count_eq_countP] at hdrop ⊢
    rw [List.count_eq_countP]
    omega

/-- The tokens of literal words, with a blank after each, before text that is read from there. -/
theorem run_literal {ws : List Str} (hw : ∀ w ∈ ws, isLiteralWord stays w = true) :
    run {} (ws.flatMap (· ++ [' '])) =
      some { tokens := ws.map fun w => .word (bare w), dropped := List.replicate ws.length ' ' } := by
  rw [run_words rfl rfl fun w h => (isLiteralWord_iff.mp (hw w h)).1]
  simp

/-- The word that is being read is the first one. -/
theorem wordsGo_head {acc : Str} (ha : acc ≠ []) :
    ∃ r ws, wordsGo acc s = (acc.reverse ++ r) :: ws := by
  induction s generalizing acc with
  | nil => exact ⟨[], [], by simp [wordsGo, ha]⟩
  | cons c s ih =>
    rw [wordsGo, if_neg ha]
    split
    · exact ⟨[], wordsGo [] s, by simp⟩
    · obtain ⟨r, ws, h⟩ := ih (List.cons_ne_nil c acc)
      exact ⟨c :: r, ws, by simp [h]⟩

/-- A word read so far, backwards, and the text from there, with all its words. -/
theorem run_wordsGo {acc : Str} (hm : l.mode = if acc = [] then .gap else .bare)
    (hp : l.part = bare acc.reverse)
    (hw : ∀ w ∈ wordsGo acc s, IsBareword (bare w))
    (hs : ∀ c ∈ s, isSpace c = true → kind c = .blank) :
    (run l s).bind Lexer.finish =
      some (l.tokens ++ (wordsGo acc s).map fun w => .word (bare w)) := by
  induction s generalizing acc l with
  | nil =>
    by_cases ha : acc = []
    · simp [Lexer.finish, hm, ha, wordsGo]
    · simp [Lexer.finish, hm, ha, wordsGo, hp]
  | cons c s ih =>
    have hs' : ∀ c ∈ s, isSpace c = true → kind c = .blank := fun x hx =>
      hs x (List.mem_cons_of_mem c hx)
    rw [run_cons]
    rw [wordsGo] at hw ⊢
    split at hw
    next hc =>
      have hk := hs c List.mem_cons_self hc
      have hn : c ≠ '\x00' := not_nul (.inr (.inr hk))
      rw [if_pos hc]
      by_cases ha : acc = []
      · subst ha
        have h₁ : step l c = some (l.drop c) := by
          simp [step, hn, hm, gapStep, hk]
        have hrest : (run (l.drop c) s).bind Lexer.finish =
            some (l.tokens ++ (wordsGo [] s).map fun w => .word (bare w)) :=
          ih hm hp hw hs'
        rw [h₁, Option.bind_some, hrest]
        rfl
      · have h₁ : step l c = some ((l.emit (.word l.part)).drop c) := by
          simp [step, hn, hm, ha, bareStep, hk]
        have hw' : ∀ w ∈ wordsGo [] s, IsBareword (bare w) := fun w h =>
          hw w (List.mem_append_right _ h)
        rw [h₁, Option.bind_some, ih rfl rfl hw' hs']
        simp [ha, hp]
    next hc =>
      rw [if_neg hc]
      -- the word that `c` is in
      obtain ⟨r, ws, hrest⟩ := wordsGo_head (s := s) (List.cons_ne_nil c acc)
      obtain ⟨a, v, hv, ha, hall⟩ := hw _ (by rw [hrest]; exact List.mem_cons_self)
      have hav : acc.reverse ++ (c :: r) = a :: v := by
        simpa using congrArg (List.map Prod.fst) hv
      have h₁ : step l c = some ((l.push c false).enter .bare) := by
        by_cases hacc : acc = []
        · obtain ⟨rfl, -⟩ := List.cons.inj (by simpa [hacc] using hav)
          simp [step, not_nul (.inl ha), hm, hacc, gapStep, ha]
        · have hk : kind c = .plain ∨ kind c = .hash := by
            have hmem : c ∈ a :: v := hav ▸ (by simp)
            rcases List.mem_cons.mp hmem with rfl | hmem
            · exact .inl ha
            · exact hall c hmem
          have hmode : l.mode = .bare := by simpa [hacc] using hm
          have hsame : (l.push c false).enter .bare = l.push c false := by
            simp [Lexer.enter, Lexer.push, hmode]
          rw [hsame, step, if_neg (not_nul (hk.imp_right .inl)), hmode]
          rcases hk with hk | hk <;> simp [bareStep, hk]
      rw [h₁, Option.bind_some, ih (by simp) (by simp [hp, bare]) hw hs']
      rfl

theorem isMark_of_space (h : isSpace c = true) : isMark c = false := by
  simp only [isSpace, decide_eq_true_eq] at h
  fin_cases h <;> decide

theorem spaced_count {ws : List Str} (hp : p ' ' = false) :
    (ws.flatMap (· ++ [' '])).countP p = ws.flatten.countP p := by
  induction ws with
  | nil => rfl
  | cons w ws ih =>
    rw [List.flatMap_cons, List.countP_append, ih, List.flatten_cons, List.countP_append,
      List.countP_append]
    simp [hp]

/-- Words with a blank after each and then text are read as these words and those of the text, if
and only if all of them are left as they are and the text is divided by blanks. -/
theorem parse_words_iff {ws : List Str} :
    parse stays (ws.flatMap (· ++ [' ']) ++ s) = some ((ws ++ words s).map .word) ↔
      (∀ w ∈ ws ++ words s, isLiteralWord stays w = true) ∧
        ∀ c ∈ s, isSpace c = true → kind c = .blank := by
  have htext : ((ws ++ words s).map Lexeme.word).flatMap Lexeme.text =
      ws.flatten ++ (words s).flatten := by
    simp [List.flatMap_map, Lexeme.text, List.flatMap_id']
  constructor
  · intro h
    have hmarks : (ws.flatMap (· ++ [' ']) ++ s).countP isMark ≤
        (((ws ++ words s).map Lexeme.word).flatMap Lexeme.text).countP isMark := by
      rw [htext, List.countP_append, List.countP_append, spaced_count (p := isMark) (by decide), words,
        wordsGo_count fun c => isMark_of_space]
      simp
    obtain ⟨hlit, hcount⟩ := literal_of_parse h hmarks
    refine ⟨fun w hw => hlit w (List.mem_map_of_mem hw), fun c hc hsp => ?_⟩
    by_contra hk
    have hne : c ≠ ' ' := by
      rintro rfl
      exact hk (by decide)
    have hlost : (words s).flatten.count c = 0 := by
      rw [List.count_eq_zero]
      intro hm
      obtain ⟨w, hw, hcw⟩ := List.mem_flatten.mp hm
      have := not_space_of_wordsGo (by simp) hw c hcw
      simp [hsp] at this
    have heq := hcount c hk
    rw [htext, List.count_append, List.count_append, hlost, List.count_eq_countP (a := c),
      List.count_eq_countP (a := c), List.count_eq_countP (a := c),
      spaced_count (p := (· == c)) (by simpa using hne.symm)] at heq
    have hpos : 0 < s.countP (· == c) := List.countP_pos_iff.mpr ⟨c, hc, by simp⟩
    omega
  · rintro ⟨hlit, hs⟩
    have hread : (run {} (ws.flatMap (· ++ [' ']) ++ s)).bind Lexer.finish =
        some ((ws ++ words s).map fun w => .word (bare w)) := by
      rw [run_append, run_literal fun w hw => hlit w (List.mem_append_left _ hw),
        Option.bind_some, List.map_append]
      exact run_wordsGo rfl rfl
        (fun w hw => (isLiteralWord_iff.mp (hlit w (List.mem_append_right _ hw))).1) hs
    have hall :
        ((ws ++ words s).map fun w => Token.word (bare w)).all (Token.isLiteral stays) = true := by
      rw [List.all_map, List.all_eq_true]
      intro w hw
      exact (isLiteralWord_iff.mp (hlit w hw)).2
    rw [parse, hread, Option.bind_some, if_pos hall]
    simp [Token.lexeme, Function.comp_def]

/-- Words with a blank after each and a last word are read as these words, if and only if all of
them are left as they are. -/
theorem parse_last_iff {ws : List Str} :
    parse stays (ws.flatMap (· ++ [' ']) ++ w) = some ((ws ++ [w]).map .word) ↔
      ∀ v ∈ ws ++ [w], isLiteralWord stays v = true := by
  have htext : ((ws ++ [w]).map Lexeme.word).flatMap Lexeme.text = ws.flatten ++ w := by
    simp [List.flatMap_map, Lexeme.text, List.flatMap_id']
  constructor
  · intro h v hv
    have hmarks : (ws.flatMap (· ++ [' ']) ++ w).countP isMark ≤
        (((ws ++ [w]).map Lexeme.word).flatMap Lexeme.text).countP isMark := by
      rw [htext, List.countP_append, List.countP_append, spaced_count (p := isMark) (by decide)]
    exact (literal_of_parse h hmarks).1 v (List.mem_map_of_mem hv)
  · intro hlit
    obtain ⟨hbare, -⟩ := isLiteralWord_iff.mp (hlit w (by simp))
    have hread : (run {} (ws.flatMap (· ++ [' ']) ++ w)).bind Lexer.finish =
        some ((ws ++ [w]).map fun v => .word (bare v)) := by
      rw [run_append, run_literal fun v hv => hlit v (List.mem_append_left _ hv),
        Option.bind_some, run_word rfl rfl hbare]
      simp [Lexer.finish]
    have hall :
        ((ws ++ [w]).map fun v => Token.word (bare v)).all (Token.isLiteral stays) = true := by
      rw [List.all_map, List.all_eq_true]
      intro v hv
      exact (isLiteralWord_iff.mp (hlit v hv)).2
    rw [parse, hread, Option.bind_some, if_pos hall]
    simp [Token.lexeme, Function.comp_def]

theorem mapM_word {T : List Lexeme} {ws : List Str} :
    T.mapM Lexeme.word? = some ws ↔ T = ws.map .word := by
  induction T generalizing ws with
  | nil => cases ws <;> simp
  | cons t T ih =>
    rw [List.mapM_cons, Option.bind_eq_bind, Option.bind_eq_some_iff]
    cases t with
    | word v =>
      cases ws with
      | nil => simp [Option.bind_eq_some_iff]
      | cons w ws => simp [Lexeme.word?, Option.bind_eq_some_iff, ih, and_comm]
    | operator v => cases ws <;> simp [Lexeme.word?]
    | ioNumber v => cases ws <;> simp [Lexeme.word?]

theorem commandWords_last_iff {ws : List Str} :
    commandWords stays (ws.flatMap (· ++ [' ']) ++ w) = some (ws ++ [w]) ↔
      ∀ v ∈ ws ++ [w], isLiteralWord stays v = true := by
  rw [← parse_last_iff, commandWords, Option.bind_eq_some_iff]
  simp only [mapM_word]
  constructor
  · rintro ⟨T, hT, rfl⟩
    exact hT
  · intro h
    exact ⟨_, h, rfl⟩

theorem kind_of_isAlphanum (hc : c.isAlphanum = true) : kind c = .plain := by
  have hspecial : ∀ d ∈ [' ', '\t', '|', '&', ';', '<', '>', '(', ')', '\n', '#', '\x27', '\x22',
      '\\', '$', '\x60', '\x00'], d.isAlphanum = false := by
    intro d hd
    fin_cases hd <;> rfl
  have hne : ∀ d, d.isAlphanum = false → c ≠ d := by
    rintro d hd rfl
    simp [hc] at hd
  have hc' := fun d hd => hne d (hspecial d hd)
  simp only [List.forall_mem_cons] at hc'
  simp [kind, hc']

end

/-- Text that means itself in double quotes: no `"`, no `$` and no backquote, and every backslash
comes before another character that it does not quote. -/
def isQuotable : Str → Bool
  | [] => true
  | c :: e =>
    kind c != .double && kind c != .expansion &&
      (kind c != .backslash || e.head?.any fun d => d != '\n' && kind d != .backslash) && isQuotable e

section
variable {l l' : Lexer} {c : Char} {e s : Str}

def Lexer.quote (l : Lexer) (e : Str) : Lexer := { l with part := l.part ++ e.map (·, true) }

theorem kind_double : kind c = .double ↔ c = '\x22' := by
  constructor
  · intro h
    unfold kind at h
    split_ifs at h
    assumption
  · rintro rfl
    decide

/-- What a backslash quotes in double quotes is what has a meaning there. -/
theorem quoted_iff (hn : c ≠ '\x00') : c ∈ ['$', '\x60', '\x22', '\\'] ↔
    kind c = .double ∨ kind c = .expansion ∨ kind c = .backslash := by
  constructor
  · intro h
    fin_cases h <;> decide
  · intro h
    unfold kind at h
    split_ifs at h <;> simp_all

theorem isQuotable_cons : isQuotable (c :: e) = true ↔
    kind c ≠ .double ∧ kind c ≠ .expansion ∧
      (kind c = .backslash → ∃ d, e.head? = some d ∧ d ≠ '\n' ∧ kind d ≠ .backslash) ∧
      isQuotable e = true := by
  simp only [isQuotable, Bool.and_eq_true, Bool.or_eq_true, bne_iff_ne, ne_eq, Option.any_eq_true,
    and_assoc, imp_iff_not_or]

theorem quotable_not_nul (he : isQuotable (c :: e) = true) : c ≠ '\x00' := by
  rintro rfl
  exact (isQuotable_cons.mp he).2.1 (by decide)

/-- In double quotes, a character that is no backslash. -/
theorem step_push (hm : l.mode = .double) (hn : c ≠ '\x00') (hd : kind c ≠ .double)
    (he : kind c ≠ .expansion) (hb : kind c ≠ .backslash) : step l c = some (l.push c true) := by
  rw [step, if_neg hn, hm]
  simp only [doubleStep]

theorem step_escape (hm : l.mode = .double) (hb : kind c = .backslash) :
    step l c = some (l.enter .doubleEscaped) := by
  have hn : c ≠ '\x00' := by
    rw [kind_backslash hb]
    decide
  rw [step, if_neg hn, hm]
  simp [doubleStep, hb]

/-- After a backslash in double quotes, a character that it does not quote. -/
theorem step_escaped (hm : l.mode = .doubleEscaped) (hn : c ≠ '\x00') (hl : c ≠ '\n')
    (hd : kind c ≠ .double) (he : kind c ≠ .expansion) (hb : kind c ≠ .backslash) :
    step l c = some (((l.push '\\' true).push c true).enter .double) := by
  have hq : c ∉ ['$', '\x60', '\x22', '\\'] := by
    rw [quoted_iff hn]
    simp [hd, he, hb]
  rw [step, if_neg hn, hm]
  simp only [doubleEscapedStep, if_neg hl, if_neg hq]

theorem run_quotable (hm : l.mode = .double) (he : isQuotable e = true) :
    run l e = some (l.quote e) := by
  induction hn : e.length using Nat.strong_induction_on generalizing e l with
  | h n ih =>
    cases e with
    | nil => simp [Lexer.quote]
    | cons c e =>
      obtain ⟨hd, hx, hb, hrest⟩ := isQuotable_cons.mp he
      by_cases hk : kind c = .backslash
      · obtain ⟨d, hed, hdl, hdb⟩ := hb hk
        obtain ⟨e, rfl⟩ := List.head?_eq_some_iff.mp hed
        obtain ⟨hdd, hdx, -, hrest'⟩ := isQuotable_cons.mp hrest
        have h₂ := step_escaped (l := l.enter .doubleEscaped) rfl (quotable_not_nul hrest) hdl hdd
          hdx hdb
        rw [run_cons, step_escape hm hk, Option.bind_some, run_cons, h₂, Option.bind_some,
          ih e.length (by simp at hn; omega) rfl hrest' rfl, kind_backslash hk]
        simp [Lexer.quote, Lexer.push, Lexer.enter, hm]
      · have hm' : (l.push c true).mode = .double := hm
        rw [run_cons, step_push hm (quotable_not_nul he) hd hx hk, Option.bind_some,
          ih e.length (by simp at hn; omega) hm' hrest rfl]
        simp [Lexer.quote, Lexer.push]

/-- After a backslash in double quotes, the backslash is dropped or means nothing. -/
theorem step_doubleEscaped (hm : l.mode = .doubleEscaped) (h : step l c = some l') :
    l'.mode = .double ∧
      (l'.dropped.countP isMark = l.dropped.countP isMark + 1 ∨
        l' = ((l.push '\\' true).push c true).enter .double ∧ c ≠ '\n' ∧ c ≠ '\x00' ∧
          kind c ≠ .double ∧ kind c ≠ .expansion ∧ kind c ≠ .backslash) := by
  have hb : isMark '\\' = true := by decide
  have hl : isMark '\n' = false := by decide
  unfold step at h
  split at h
  · cases h
  next hn =>
    simp only [hm, doubleEscapedStep, Option.some.injEq] at h
    subst h
    split
    next hc => exact ⟨rfl, .inl (by simp [hc, hb, hl])⟩
    next hc =>
      split
      · exact ⟨rfl, .inl (by simp [hb])⟩
      next hq =>
        rw [quoted_iff hn, not_or, not_or] at hq
        exact ⟨rfl, .inr ⟨rfl, hc, hn, hq⟩⟩

/-- Text that is read up to a closing quote, where no other mark is dropped to the end. -/
theorem quotable_of_run (hm : l.mode = .double) (hr : run l (e ++ '\x22' :: s) = some l')
    (hf : l'.finish ≠ none)
    (hd : l'.dropped.countP isMark = l.dropped.countP isMark + 1) : isQuotable e = true := by
  induction hn : e.length using Nat.strong_induction_on generalizing e l with
  | h n ih =>
    cases e with
    | nil => rfl
    | cons c e =>
      rw [List.cons_append, run_cons] at hr
      obtain ⟨l₁, h₁, h₂⟩ := Option.bind_eq_some_iff.mp hr
      have hn₀ : c ≠ '\x00' := by
        rintro rfl
        cases h₁
      by_cases hk : kind c = .backslash
      · rw [step_escape hm hk] at h₁
        cases h₁
        -- the next character is the closing quote, if there is none in the text
        obtain ⟨d, r, hdr⟩ : ∃ d r, e ++ '\x22' :: s = d :: r := by
          cases e with
          | nil => exact ⟨_, _, rfl⟩
          | cons d e => exact ⟨_, _, rfl⟩
        rw [hdr, run_cons] at h₂
        obtain ⟨l₂, hs, h₃⟩ := Option.bind_eq_some_iff.mp h₂
        obtain ⟨hm₂, hmarks | ⟨rfl, hdl, -, hdd, hdx, hdb⟩⟩ := step_doubleEscaped rfl hs
        · refine absurd (run_inside (.inl hm₂) h₃ ?_) hf
          rw [hmarks, hd]
          rfl
        · cases e with
          | nil =>
            cases hdr
            exact absurd (kind_double.mpr rfl) hdd
          | cons d' e =>
            cases hdr
            have hrest : isQuotable e = true :=
              ih e.length (by simp at hn; omega) hm₂ h₃ (by simpa using hd) rfl
            have hde : isQuotable (d :: e) = true :=
              isQuotable_cons.mpr ⟨hdd, hdx, fun h => absurd h hdb, hrest⟩
            refine isQuotable_cons.mpr ⟨?_, ?_, fun _ => ⟨d, rfl, hdl, hdb⟩, hde⟩ <;> simp [hk]
      · by_cases hkd : kind c = .double
        · exfalso
          have hs : step l c = some ((l.drop c).enter .bare) := by
            rw [step, if_neg hn₀, hm]
            simp [doubleStep, hkd]
          rw [hs] at h₁
          cases h₁
          have hb : Bare (fun _ => True) l.tokens (l.drop c).dropped ((l.drop c).enter .bare) :=
            ⟨.inr (.inl ⟨rfl, trivial⟩), ⟨[], by simp, nofun⟩, ⟨[], by simp, nofun⟩⟩
          have hmc : isMark c = true := by simp [isMark, hkd]
          have hu := (hb.run growing_true h₂ (by simp [hd, hmc])).2 '\x22' (by simp)
          rcases hu with hu | hu <;> revert hu <;> decide
        · by_cases hkx : kind c = .expansion
          · rw [step, if_neg hn₀, hm] at h₁
            simp [doubleStep, hkx] at h₁
          · rw [step_push hm hn₀ hkd hkx hk] at h₁
            cases h₁
            have hm' : (l.push c true).mode = .double := hm
            refine isQuotable_cons.mpr ⟨hkd, hkx, fun h => absurd h hk, ?_⟩
            exact ih e.length (by simp at hn; omega) hm' h₂ hd rfl

end
end Shell
