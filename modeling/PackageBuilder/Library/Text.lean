import Mathlib

/-! Text as a list of characters: the string operations of Python and the pattern
operations of R, for patterns given by the length of their match at the head. -/
namespace Text

abbrev Str := List Char

instance : LawfulBEq Str := inferInstance

/-- A string literal, kept folded until its characters matter. -/
def ofString (s : String) : Str := s.toList

instance : Coe String Str := ⟨ofString⟩

/-- The characters for which Python's `str.isspace` holds. -/
def isSpace (c : Char) : Bool :=
  c ∈ ['\t', '\n', '\x0b', '\x0c', '\r', '\x1c', '\x1d', '\x1e', '\x1f', ' ', '\u0085',
    '\u00a0', '\u1680', '\u2000', '\u2001', '\u2002', '\u2003', '\u2004', '\u2005',
    '\u2006', '\u2007', '\u2008', '\u2009', '\u200a', '\u2028', '\u2029', '\u202f',
    '\u205f', '\u3000']

def rstrip (s : Str) : Str := s.rdropWhile isSpace

def strip (s : Str) : Str := rstrip (s.dropWhile isSpace)

/-- `acc` is the word read so far, backwards. -/
def wordsGo : Str → Str → List Str
  | acc, [] => if acc = [] then [] else [acc.reverse]
  | acc, c :: s =>
    if isSpace c then (if acc = [] then [] else [acc.reverse]) ++ wordsGo [] s
    else wordsGo (c :: acc) s

/-- `s.split()` of Python. -/
def words (s : Str) : List Str := wordsGo [] s

def lower (s : Str) : Str := s.map Char.toLower

/-- What reading a file in text mode makes of its line ends. -/
def universalNewlines : Str → Str
  | '\r' :: '\n' :: s => '\n' :: universalNewlines s
  | '\r' :: s => '\n' :: universalNewlines s
  | c :: s => c :: universalNewlines s
  | [] => []

/-- `str(n)` of an integer. -/
def str (n : Int) : Str := toString n

def natStr (n : Nat) : Str := toString n

/-- `os.path.join` of POSIX, for two parts. -/
def pathJoin (a b : Str) : Str :=
  if b.head? = some '/' then b
  else if a = [] ∨ a.getLast? = some '/' then a ++ b
  else a ++ '/' :: b

/-- `os.path.dirname` of POSIX. -/
def dirname (p : Str) : Str :=
  let head := p.rdropWhile (· != '/')
  if head.all (· == '/') then head else head.rdropWhile (· == '/')

/-- A pattern: the length of its match at the head of a text. -/
abbrev Pattern := Str → Option Nat

def lit (l : Str) : Pattern := fun s => if l <+: s then some l.length else none

/-- `c*`, greedy. -/
def many (c : Char) : Pattern := fun s => some (s.takeWhile (· == c)).length

/-- `.*?` up to, and not with, the first `c`. -/
def upTo (c : Char) : Pattern := fun s =>
  if c ∈ s then some (s.takeWhile (· != c)).length else none

def seq (p q : Pattern) : Pattern := fun s =>
  (p s).bind fun n => (q (s.drop n)).map (n + ·)

/-- The first of several words that matches. -/
def oneOf (words : List Str) : Pattern := fun s =>
  words.findSome? fun w => lit w s

/-- The counter is what remains to skip of the last match. -/
def replaceGo (p : Pattern) (new : Str) : Nat → Str → Str
  | _, [] => []
  | k + 1, _ :: s => replaceGo p new k s
  | 0, c :: s =>
    match p (c :: s) with
    | some (k + 1) => new ++ replaceGo p new k s
    | _ => c :: replaceGo p new 0 s

/-- Every leftmost match replaced: `gsub` of R, `str.replace` of Python. -/
def replaceAll (p : Pattern) (new : Str) (s : Str) : Str := replaceGo p new 0 s

/-- The first match replaced: `sub` of R. -/
def replaceFirst (p : Pattern) (new : Str) : Str → Str
  | [] => []
  | c :: s =>
    match p (c :: s) with
    | some (k + 1) => new ++ s.drop k
    | _ => c :: replaceFirst p new s

/-- `acc` is the piece read so far, backwards. -/
def splitGo (p : Pattern) : Nat → Str → Str → List Str
  | _, acc, [] => if acc = [] then [] else [acc.reverse]
  | k + 1, acc, _ :: s => splitGo p k acc s
  | 0, acc, c :: s =>
    match p (c :: s) with
    | some (k + 1) => acc.reverse :: splitGo p k [] s
    | _ => splitGo p 0 (c :: acc) s

/-- `strsplit` of R: no piece for what would follow a last match that ends the text. -/
def strsplit (p : Pattern) (s : Str) : List Str := splitGo p 0 [] s

example : strsplit (seq (lit ",") (many ' ')) "a,  b,c,"
    = (["a", "b", "c"] : List Str) := by decide

section
variable {acc s w : Str} {c : Char} {p : Char → Bool}

/-- Only white space is lost. -/
theorem wordsGo_count (hp : ∀ c, isSpace c = true → p c = false) :
    (wordsGo acc s).flatten.countP p = acc.countP p + s.countP p := by
  induction s generalizing acc with
  | nil =>
    rw [wordsGo]
    split
    next h => simp [h]
    next => simp
  | cons c s ih =>
    rw [wordsGo]
    split
    next hc =>
      rw [List.flatten_append, List.countP_append, ih, List.countP_cons, hp c hc]
      split
      next h => simp [h]
      next => simp
    next =>
      rw [ih, List.countP_cons, List.countP_cons]
      omega

theorem not_space_of_wordsGo (hacc : ∀ c ∈ acc, isSpace c = false) (hw : w ∈ wordsGo acc s) :
    ∀ c ∈ w, isSpace c = false := by
  induction s generalizing acc with
  | nil =>
    rw [wordsGo] at hw
    split at hw
    · cases hw
    · obtain rfl := List.mem_singleton.mp hw
      simpa using hacc
  | cons c s ih =>
    rw [wordsGo] at hw
    split at hw
    · rcases List.mem_append.mp hw with hw | hw
      · split at hw
        · cases hw
        · obtain rfl := List.mem_singleton.mp hw
          simpa using hacc
      · exact ih (by simp) hw
    next hc =>
      refine ih (List.forall_mem_cons.mpr ⟨by simpa using hc, hacc⟩) hw

end

section
variable {mark p q t : Str} {c : Char}

/-- A word that lacks `c` lies on one side of it. -/
theorem infix_append_cons (hc : c ∉ mark) :
    mark <:+: p ++ c :: q ↔ mark <:+: p ∨ mark <:+: q := by
  constructor
  · rintro ⟨a, b, h⟩
    rcases List.append_eq_append_iff.mp h with ⟨d, hp, -⟩ | ⟨d, hd, hq⟩
    · exact .inl ⟨a, d, hp.symm⟩
    rcases d with _ | ⟨x, d⟩
    · exact .inl ⟨a, [], by simpa using hd⟩
    obtain ⟨rfl, rfl⟩ := List.cons.inj hq
    rcases List.append_eq_append_iff.mp hd with ⟨e, -, he⟩ | ⟨e, -, he⟩
    · exact absurd (by simp [he]) hc
    · rcases e with _ | ⟨y, e⟩
      · have hm : c ∈ mark := by
          rw [← List.nil_append mark, ← he]
          exact List.mem_cons_self
        exact absurd hm hc
      · obtain ⟨rfl, rfl⟩ := List.cons.inj he
        exact .inr ⟨e, b, rfl⟩
  · rintro (h | h)
    · exact h.trans (List.prefix_append p (c :: q)).isInfix
    · exact h.trans ((List.suffix_cons c q).trans (List.suffix_append p (c :: q))).isInfix

/-- A word without line ends occurs in a text if and only if it does in one of the lines. -/
theorem exists_line_iff (hn : '\n' ∉ mark) :
    (∃ line ∈ t.splitOn '\n', mark <:+: line) ↔ mark <:+: t := by
  induction hl : t.length using Nat.strong_induction_on generalizing t with
  | h n ih =>
    by_cases ht : '\n' ∈ t
    · obtain ⟨a, b, rfl, ha⟩ := List.eq_append_cons_of_mem ht
      have hb : b.length < n := by
        rw [← hl, List.length_append, List.length_cons]
        omega
      rw [List.splitOn_append_cons_self, List.splitOn_eq_singleton ha, infix_append_cons hn,
        ← ih b.length hb rfl]
      simp [or_and_right, exists_or]
    · simp [List.splitOn_eq_singleton ht]

end
end Text
