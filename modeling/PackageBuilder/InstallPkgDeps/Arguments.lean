import PackageBuilder.Library.Patterns
import PackageBuilder.Builder.Stages

/-! How installPkgDeps.R reads the dependencies that `install_pkg_deps` hands over. -/
namespace PackageBuilder
open Text

/-- `^(Depends|Imports|Suggests|Enhances|LinkingTo) *= *` -/
def fieldPattern : Pattern :=
  seq (oneOf ["Depends", "Imports", "Suggests", "Enhances", "LinkingTo"])
    (seq (many ' ') (separator "="))

/-- `sub("^...", "", s)` -/
def dropMatch (p : Pattern) (s : Str) : Str :=
  match p s with
  | some n => s.drop n
  | none => s

/-- Without arguments the script ends. With `--args` alone the range `2:1` counts down, and the
first of its elements is missing. -/
def dependenciesFromArgs : List Str → Option (List Str)
  | [] => none
  | a :: rest =>
    let args := if a = "--args" then (if rest = [] then [("NA" : Str), a] else rest) else a :: rest
    let s := [' '].intercalate args
    let segs := strsplit (separator ";") s
    let segs := (segs.filter fun seg => (fieldPattern seg).isSome).map (dropMatch fieldPattern)
    some (segs.flatMap fun seg => strsplit (separator ",") (replaceAll (separator "@@") [] seg))

/-- `sub(" *\\((.*?)\\)", "", deps)` -/
def stripVersion (dep : Str) : Str := replaceFirst (bracket '(' ')') [] dep

/-- What the script takes for the names of the dependencies. -/
def depNames (args : List Str) : Option (List Str) :=
  (dependenciesFromArgs args).map (·.map stripVersion)

example : depNames ["--args", "Depends=@@R (>= 2.10), utils@@; Imports=@@methods@@;"] =
    some [("R" : Str), "utils", "methods"] := by decide +kernel

/-- A version in parentheses, and the white space before it. -/
structure VersionNote where
  gap : Str
  inner : Str
  gap_blank : ∀ c ∈ gap, isSpace c = true
  inner_plain : ∀ c ∈ inner, c ∉ ['(', ')', ',']

def VersionNote.text (v : VersionNote) : Str := v.gap ++ '(' :: (v.inner ++ [')'])

/-- `name` or `name (op version)`, with the white space around it. -/
structure DepEntry where
  lead : Str
  name : Str
  version : Option VersionNote
  tail : Str
  lead_blank : ∀ c ∈ lead, isSpace c = true
  tail_blank : ∀ c ∈ tail, isSpace c = true
  name_ne_nil : name ≠ []
  name_plain : ∀ c ∈ name, isSpace c = false ∧ c ∉ ['(', ')', ',']

def DepEntry.text (e : DepEntry) : Str :=
  e.lead ++ e.name ++ e.version.elim [] VersionNote.text ++ e.tail

/-- A list of entries with commas between them, or white space. -/
def fieldText (blank : Str) : List DepEntry → Str
  | [] => blank
  | e :: es => e.text ++ es.flatMap fun e => ',' :: e.text

structure DepField where
  blank : Str
  entries : List DepEntry
  blank_blank : ∀ c ∈ blank, isSpace c = true
  noMark : ¬ ("@@" : Str) <:+: fieldText blank entries
  noSemicolon : ';' ∉ fieldText blank entries

def DepField.text (v : DepField) : Str := fieldText v.blank v.entries

/-- A DESCRIPTION with any of the five fields. -/
structure DepDescription where
  dcf : Dcf
  field : Str → Option DepField
  reads : ∀ f ∈ depFields, dcf.get? f = (field f).map DepField.text

/-- The bare names of all fields. -/
def DepDescription.names (d : DepDescription) : List Str :=
  depFields.flatMap fun f => (d.field f).elim [] fun v => v.entries.map DepEntry.name

/-- The white space is blanks where the decoder skips it, and elsewhere there is none. -/
structure DepEntry.Clean (e : DepEntry) : Prop where
  lead : ∀ c ∈ e.lead, c = ' '
  gap : ∀ v ∈ e.version, ∀ c ∈ v.gap, c = ' '
  tail : e.tail = []

structure DepField.Clean (v : DepField) : Prop where
  blank : v.entries = [] → ∀ c ∈ v.blank, c = ' '
  entries : ∀ e ∈ v.entries, e.Clean

/-- A field in the text of the arguments. -/
def segment (f : Str) (v : Str) : Str := f ++ '=' :: (['@', '@'] ++ v ++ ['@', '@'])

def DepDescription.segments (d : DepDescription) : List Str :=
  depFields.flatMap fun f => (d.field f).elim [] fun v => [segment f v.text]

section
variable {d : DepDescription} {f v : Str} {w : DepField} {e : DepEntry} {es : List DepEntry}

theorem depArg_eq (hf : f ∈ depFields) : depArg d.dcf f =
    ((d.field f).elim [] fun v => [segment f v.text]).flatMap (· ++ [';', ' ']) := by
  have hopen : ("=@@" : Str) = ['=', '@', '@'] := by decide
  have hclose : ("@@; " : Str) = ['@', '@', ';', ' '] := by decide
  rw [depArg, d.reads f hf]
  cases d.field f <;> simp [segment, hopen, hclose]

theorem depArgs_eq : depArgs d.dcf = d.segments.flatMap (· ++ [';', ' ']) := by
  rw [depArgs, DepDescription.segments, List.flatMap_assoc]
  exact List.flatMap_congr fun f hf => depArg_eq hf

theorem segment_head (hf : f ∈ depFields) :
    ∃ c s, segment f v = c :: s ∧ isSpace c = false ∧ ';' ∉ f := by
  fin_cases hf <;> exact ⟨_, _, rfl, by decide +kernel, by decide +kernel⟩

/-- The terminator of the last field keeps its semicolon. -/
theorem strip_segments {xs : List Str} {x : Str}
    (hx : ∀ y ∈ xs ++ [x], ∃ c s, y = c :: s ∧ isSpace c = false) :
    strip ((xs ++ [x]).flatMap (· ++ [';', ' '])) = xs.flatMap (· ++ [';', ' ']) ++ (x ++ [';']) := by
  have hsemi : isSpace ';' = false := by decide
  have hblank : isSpace ' ' = true := by decide
  have htext : (xs ++ [x]).flatMap (· ++ [';', ' ']) =
      xs.flatMap (· ++ [';', ' ']) ++ (x ++ [';']) ++ [' '] := by
    simp
  have hhead : ∃ c s, (xs ++ [x]).flatMap (· ++ [';', ' ']) = c :: s ∧ isSpace c = false := by
    cases xs with
    | nil =>
      obtain ⟨c, s, rfl, hc⟩ := hx x (by simp)
      exact ⟨c, _, rfl, hc⟩
    | cons y xs =>
      obtain ⟨c, s, rfl, hc⟩ := hx y (by simp)
      exact ⟨c, _, rfl, hc⟩
  obtain ⟨c, s, hs, hc⟩ := hhead
  rw [strip, rstrip, hs, List.dropWhile_cons, if_neg (by simp [hc]), ← hs, htext,
    List.rdropWhile_concat_pos _ _ _ hblank, ← List.append_assoc,
    List.rdropWhile_concat_neg _ _ _ (by simp [hsemi])]

theorem mem_segments {y : Str} (hy : y ∈ d.segments) :
    ∃ f w, f ∈ depFields ∧ d.field f = some w ∧ y = segment f w.text := by
  obtain ⟨f, hf, hy⟩ := List.mem_flatMap.mp hy
  cases hw : d.field f with
  | none => simp [hw] at hy
  | some w =>
    rw [hw, Option.elim_some, List.mem_singleton] at hy
    exact ⟨f, w, hf, hw, hy⟩

/-- The first split finds the fields. -/
theorem segments_split (hd : d.segments ≠ []) :
    strsplit (separator ";") (encodeDeps d.dcf) = d.segments := by
  have hone : (";" : Str) = [';'] := by decide
  have hhead : ∀ y ∈ d.segments, ∃ c s, y = c :: s ∧ isSpace c = false := by
    intro y hy
    obtain ⟨f, w, hf, -, rfl⟩ := mem_segments hy
    obtain ⟨c, s, hs, hc, -⟩ := segment_head (v := w.text) hf
    exact ⟨c, s, hs, hc⟩
  have hplain : ∀ y ∈ d.segments, ';' ∉ y ∧ y.head? ≠ some ' ' := by
    intro y hy
    obtain ⟨f, w, hf, -, rfl⟩ := mem_segments hy
    obtain ⟨c, s, hs, hc, hn⟩ := segment_head (v := w.text) hf
    refine ⟨?_, ?_⟩
    · have hw : ';' ∉ w.text := w.noSemicolon
      simp [segment, hn, hw]
    · rw [hs, List.head?_cons]
      rintro ⟨rfl⟩
      exact absurd hc (by decide)
  obtain ⟨xs, x, hxs⟩ := (List.eq_nil_or_concat d.segments).resolve_left hd
  rw [List.concat_eq_append] at hxs
  rw [hxs] at hhead hplain
  have hstrip := strip_segments hhead
  have hne : strip (depArgs d.dcf) ≠ [] := by
    rw [depArgs_eq, hxs, hstrip]
    simp
  rw [encodeDeps, if_neg hne, depArgs_eq, hxs, hstrip, hone,
    strsplit_terminated (by decide) hplain]

theorem fieldPattern_segment (hf : f ∈ depFields) :
    fieldPattern (segment f v) = some (f.length + 1) := by
  have hword : ∀ s : Str, oneOf ["Depends", "Imports", "Suggests", "Enhances", "LinkingTo"] (f ++ s) =
      some f.length := by
    intro s
    fin_cases hf <;> simp [oneOf, lit, ofString]
  have hone : ("=" : Str) = ['='] := by decide
  have heq : seq (many ' ') (separator "=") ('=' :: (['@', '@'] ++ v ++ ['@', '@'])) = some 1 := by
    simp [seq, many, lit, hone]
  rw [fieldPattern, seq, segment, hword, Option.bind_some, List.drop_left, heq, Option.map_some]

/-- What is read of one field before versions are stripped. -/
theorem read_segment (hf : f ∈ depFields) (hv : ¬ ("@@" : Str) <:+: v) :
    replaceAll (separator "@@") [] (dropMatch fieldPattern (segment f v)) = dropBlanks v := by
  have hdrop : (segment f v).drop (f.length + 1) = ['@', '@'] ++ v ++ ['@', '@'] := by
    rw [segment, ← List.drop_drop, List.drop_left]
    rfl
  have hmark : ("@@" : Str) = ['@', '@'] := by decide
  rw [hmark] at hv ⊢
  rw [dropMatch, fieldPattern_segment hf]
  simp only [hdrop]
  exact replaceAll_marks (by decide) hv

/-- The names that are read of one field. -/
def DepField.read (w : DepField) : List Str :=
  (strsplit (separator ",") (dropBlanks w.text)).map stripVersion

theorem dependencies_segments (hd : d.segments ≠ []) :
    dependenciesFromArgs ["--args", encodeDeps d.dcf] =
      some (d.segments.flatMap fun seg => strsplit (separator ",")
        (replaceAll (separator "@@") [] (dropMatch fieldPattern seg))) := by
  have hall : ∀ seg ∈ d.segments, (fieldPattern seg).isSome = true := by
    intro seg hseg
    obtain ⟨f, w, hf, -, rfl⟩ := mem_segments hseg
    rw [fieldPattern_segment hf]
    rfl
  have hjoin : [' '].intercalate [encodeDeps d.dcf] = encodeDeps d.dcf := by
    simp [List.intercalate]
  rw [dependenciesFromArgs, if_pos rfl, if_neg (List.cons_ne_nil _ _)]
  simp only [hjoin, segments_split hd, List.filter_eq_self.mpr hall, List.flatMap_map]

theorem depNames_eq : depNames ["--args", encodeDeps d.dcf] =
    some (depFields.flatMap fun f => (d.field f).elim [] DepField.read) := by
  by_cases hd : d.segments = []
  · have hnone : ∀ f ∈ depFields, d.field f = none := by
      intro f hf
      have hf' := List.flatMap_eq_nil_iff.mp hd f hf
      cases hw : d.field f with
      | none => rfl
      | some w => simp [hw] at hf'
    have henc : encodeDeps d.dcf = "None=1" := by
      rw [encodeDeps, depArgs_eq, hd]
      decide +kernel
    have hread : (depFields.flatMap fun f => (d.field f).elim [] DepField.read) = [] := by
      rw [List.flatMap_eq_nil_iff]
      intro f hf
      rw [hnone f hf, Option.elim_none]
    rw [hread, henc]
    decide +kernel
  · rw [depNames, dependencies_segments hd, Option.map_some, DepDescription.segments,
      List.flatMap_assoc, List.map_flatMap]
    congr 1
    refine List.flatMap_congr fun f hf => ?_
    cases d.field f with
    | none => rfl
    | some w =>
      rw [Option.elim_some, Option.elim_some, List.flatMap_singleton, read_segment (v := w.text) hf w.noMark]
      rfl

/-- The white space that stays with a name. -/
def DepEntry.read (e : DepEntry) : Str :=
  dropBlanks e.lead ++ e.name ++ e.version.elim [] (fun v => v.gap.rdropWhile (· == ' ')) ++ e.tail

theorem entry_visible (e : DepEntry) : ∃ a ∈ e.text, a ≠ ' ' := by
  obtain ⟨c, s, hs⟩ := List.exists_cons_of_ne_nil e.name_ne_nil
  have hc : c ∈ e.name := hs ▸ List.mem_cons_self
  refine ⟨c, by simp [DepEntry.text, hc], ?_⟩
  rintro rfl
  exact absurd (e.name_plain ' ' hc).1 (by decide)

theorem blank_plain {s : Str} (hs : ∀ c ∈ s, isSpace c = true) {c : Char} (hc : isSpace c = false) :
    c ∉ s := by
  intro h
  simp [hs c h] at hc

theorem entry_noComma (e : DepEntry) : ',' ∉ e.text := by
  have hlead : ',' ∉ e.lead := blank_plain e.lead_blank (by decide)
  have htail : ',' ∉ e.tail := blank_plain e.tail_blank (by decide)
  have hname : ',' ∉ e.name := fun h => (e.name_plain _ h).2 (by simp)
  have hversion : ',' ∉ e.version.elim [] VersionNote.text := by
    cases e.version with
    | none => simp
    | some v =>
      have hgap : ',' ∉ v.gap := blank_plain v.gap_blank (by decide)
      have hinner : ',' ∉ v.inner := fun h => v.inner_plain _ h (by simp)
      simp [VersionNote.text, hgap, hinner]
  simp [DepEntry.text, hlead, htail, hname, hversion]

theorem stripVersion_entry (e : DepEntry) : stripVersion (dropBlanks e.text) = e.read := by
  have hends : ∀ c ∈ e.name, (c == ' ') = false := by
    intro c hc
    rw [beq_eq_false_iff_ne]
    rintro rfl
    exact absurd (e.name_plain ' ' hc).1 (by decide)
  have hhead : dropBlanks e.text =
      dropBlanks e.lead ++ (e.name ++ e.version.elim [] VersionNote.text ++ e.tail) := by
    rw [DepEntry.text, List.append_assoc, List.append_assoc, ← List.append_assoc e.name]
    refine dropWhile_append_of_head fun c hc => hends c ?_
    obtain ⟨b, s, hs⟩ := List.exists_cons_of_ne_nil e.name_ne_nil
    rw [hs] at hc ⊢
    obtain rfl : b = c := by simpa using hc
    exact List.mem_cons_self
  have hlead : '(' ∉ dropBlanks e.lead := fun h =>
    blank_plain e.lead_blank (by decide) ((List.dropWhile_sublist _).subset h)
  have hname : '(' ∉ e.name := fun h => (e.name_plain _ h).2 (by simp)
  have htail : '(' ∉ e.tail := blank_plain e.tail_blank (by decide)
  rw [stripVersion, hhead, DepEntry.read]
  cases e.version with
  | none =>
    have habsent : '(' ∉ dropBlanks e.lead ++ (e.name ++ [] ++ e.tail) := by
      simp [hlead, hname, htail]
    rw [Option.elim_none, Option.elim_none, replaceFirst_absent habsent]
    simp
  | some v =>
    have hgap : '(' ∉ v.gap := blank_plain v.gap_blank (by decide)
    have hinner : ')' ∉ v.inner := fun h => v.inner_plain _ h (by simp)
    have hu : '(' ∉ dropBlanks e.lead ++ e.name ++ v.gap := by simp [hlead, hname, hgap]
    have htext : dropBlanks e.lead ++ (e.name ++ v.text ++ e.tail) =
        dropBlanks e.lead ++ e.name ++ v.gap ++ '(' :: (v.inner ++ ')' :: e.tail) := by
      simp [VersionNote.text]
    have hlast : ∀ c ∈ (dropBlanks e.lead ++ e.name).getLast?, (c == ' ') = false := by
      intro c hc
      rw [List.getLast?_append_of_ne_nil _ e.name_ne_nil] at hc
      exact hends c (List.mem_of_getLast? hc)
    rw [Option.elim_some, Option.elim_some, htext, replaceFirst_bracket (by decide) hu hinner,
      rdropWhile_append_of_last hlast]

theorem entry_read_iff (e : DepEntry) : e.read = e.name ↔ e.Clean := by
  have hblank : ∀ s : Str, dropBlanks s = [] ↔ ∀ c ∈ s, c = ' ' := by
    intro s
    rw [List.dropWhile_eq_nil_iff]
    simp
  have hparts : e.read = e.name ↔ dropBlanks e.lead = [] ∧
      e.version.elim [] (fun v => v.gap.rdropWhile (· == ' ')) = [] ∧ e.tail = [] := by
    constructor
    · intro h
      have hl := congrArg List.length h
      simp only [DepEntry.read, List.length_append] at hl
      refine ⟨?_, ?_, ?_⟩ <;> rw [← List.length_eq_zero_iff] <;> omega
    · rintro ⟨h₁, h₂, h₃⟩
      simp [DepEntry.read, h₁, h₂, h₃]
  rw [hparts, hblank]
  constructor
  · rintro ⟨hlead, hgap, htail⟩
    refine ⟨hlead, ?_, htail⟩
    intro v hv c hc
    rw [hv, Option.elim_some, List.rdropWhile_eq_nil_iff] at hgap
    simpa using hgap c hc
  · rintro ⟨hlead, hgap, htail⟩
    refine ⟨hlead, ?_, htail⟩
    cases hv : e.version with
    | none => rfl
    | some v =>
      rw [Option.elim_some, List.rdropWhile_eq_nil_iff]
      simpa using hgap v hv

theorem field_read_eq (hw : w.entries ≠ []) : w.read = w.entries.map DepEntry.read := by
  have hone : ("," : Str) = [','] := by decide
  rw [DepField.read, DepField.text, hone]
  cases hes : w.entries with
  | nil => exact absurd hes hw
  | cons e es =>
    have hpieces : ∀ y ∈ es.map DepEntry.text, ',' ∉ y ∧ ∃ a ∈ y, a ≠ ' ' := by
      intro y hy
      obtain ⟨e', -, rfl⟩ := List.mem_map.mp hy
      exact ⟨entry_noComma e', entry_visible e'⟩
    have hfirst : ',' ∉ dropBlanks e.text := fun h =>
      entry_noComma e ((List.dropWhile_sublist _).subset h)
    have htext : fieldText w.blank (e :: es) = e.text ++ (es.map DepEntry.text).flatMap (',' :: ·) := by
      rw [fieldText, List.flatMap_map]
    rw [htext, dropBlanks_append (entry_visible e),
      strsplit_pieces hfirst (dropBlanks_ne_nil (entry_visible e)) hpieces]
    simp [Function.comp_def, stripVersion_entry]

theorem field_read_blank (hw : w.entries = []) :
    w.read = if dropBlanks w.blank = [] then [] else [dropBlanks w.blank] := by
  have hone : ("," : Str) = [','] := by decide
  have hmem : ∀ c : Char, isSpace c = false → c ∉ dropBlanks w.blank := fun c hc h =>
    blank_plain w.blank_blank hc ((List.dropWhile_sublist _).subset h)
  rw [DepField.read, DepField.text, hw, fieldText, hone, strsplit_last (hmem ',' (by decide))]
  split
  · rfl
  · rw [List.map_singleton, stripVersion, replaceFirst_absent (hmem '(' (by decide))]

/-- One field is read right if and only if its white space is as the decoder expects it. -/
theorem field_read_iff : w.read = w.entries.map DepEntry.name ↔ w.Clean := by
  by_cases hw : w.entries = []
  · have hblank : dropBlanks w.blank = [] ↔ ∀ c ∈ w.blank, c = ' ' := by
      rw [List.dropWhile_eq_nil_iff]
      simp
    rw [field_read_blank hw, hw, List.map_nil, ite_eq_left_iff]
    constructor
    · intro h
      refine ⟨fun _ => hblank.mp ?_, by simp [hw]⟩
      by_contra hne
      simpa using h hne
    · intro h hne
      exact absurd (hblank.mpr (h.blank hw)) hne
  · rw [field_read_eq hw, List.map_inj_left]
    simp only [entry_read_iff]
    exact ⟨fun h => ⟨fun he => absurd he hw, h⟩, fun h => h.entries⟩

theorem length_le_read : (w.entries.map DepEntry.name).length ≤ w.read.length := by
  by_cases hw : w.entries = []
  · simp [hw]
  · simp [field_read_eq hw]

theorem flatMap_eq_iff {α β : Type} {l : List α} {f g : α → List β}
    (h : ∀ x ∈ l, (g x).length ≤ (f x).length) :
    l.flatMap f = l.flatMap g ↔ ∀ x ∈ l, f x = g x := by
  induction l with
  | nil => simp
  | cons x l ih =>
    obtain ⟨hx, hl⟩ := List.forall_mem_cons.mp h
    have hsum : (l.flatMap g).length ≤ (l.flatMap f).length := by
      rw [List.length_flatMap, List.length_flatMap]
      exact List.sum_le_sum hl
    rw [List.flatMap_cons, List.flatMap_cons, List.forall_mem_cons, ← ih hl]
    constructor
    · intro he
      have hlen := congrArg List.length he
      rw [List.length_append, List.length_append] at hlen
      exact List.append_inj he (by omega)
    · rintro ⟨hfx, hfl⟩
      rw [hfx, hfl]

/-- The script reads exactly the names of all fields if and only if there is no white space but
blanks before a name, between a name and its version and in an empty field, and none after a name
without version or after a version. -/
theorem depNames_iff (d : DepDescription) : depNames ["--args", encodeDeps d.dcf] = some d.names ↔
    ∀ f ∈ depFields, ∀ w ∈ d.field f, w.Clean := by
  rw [depNames_eq, Option.some.injEq, DepDescription.names, flatMap_eq_iff]
  · refine forall₂_congr fun f _ => ?_
    cases d.field f with
    | none => simp
    | some w => simp [field_read_iff]
  · intro f _
    cases d.field f with
    | none => simp
    | some w => exact length_le_read

def methodsEntry : DepEntry where
  lead := []
  name := "methods"
  version := none
  tail := [' ']
  lead_blank := by simp
  tail_blank := by simp [isSpace]
  name_ne_nil := by decide
  name_plain := by simp [ofString, isSpace]

def utilsEntry : DepEntry where
  lead := [' ']
  name := "utils"
  version := none
  tail := []
  lead_blank := by simp [isSpace]
  tail_blank := by simp
  name_ne_nil := by decide
  name_plain := by simp [ofString, isSpace]

/-- `Imports: methods , utils` -/
def spacedImports : DepDescription where
  dcf := [("Package", "spbtest5"), ("Imports", "methods , utils")]
  field f := if f = "Imports" then some {
    blank := []
    entries := [methodsEntry, utilsEntry]
    blank_blank := by simp
    noMark := by decide +kernel
    noSemicolon := by decide +kernel } else none
  reads := by decide +kernel

theorem spacedImports_misread :
    depNames ["--args", encodeDeps spacedImports.dcf] = some [("methods " : Str), "utils"] ∧
      depNames ["--args", encodeDeps spacedImports.dcf] ≠ some spacedImports.names := by
  decide +kernel

end
end PackageBuilder
