import PackageBuilder.Library.Shell
import PackageBuilder.Builder.Stages

/-! What the shell makes of the commands that carry submitted text. -/
namespace PackageBuilder
open Text Shell

def gitWords (url : Str) : List Str :=
  ["git", "clone", url, "--branch", "devel", "--single-branch", "--depth", "1"]

def gitLexemes (url : Str) : List Lexeme := (gitWords url).map .word

/-- The words of a command that a program takes for options. -/
def options (ws : List Str) : List Str := ws.filter fun w => w.head? == some '-'

/-- The program and its options, with the script that it runs. -/
def rscriptWords (env : Env) (script : Str) : List Str :=
  [rscriptBinary env, "--vanilla", "--no-save", "--no-restore", pathJoin env.spbHome script]

def packageTypeLexemes (env : Env) (biocViews : Str) : List Lexeme :=
  (rscriptWords env "getPackageType.R" ++ words (replaceAll (lit ",") "" biocViews)).map .word

def installDepsLexemes (env : Env) (d : Dcf) : List Lexeme :=
  (rscriptWords env "installPkgDeps.R" ++ [("--args" : Str), encodeDeps d]).map .word ++
    [.operator ">", .word (installDepsLog env), .ioNumber "2", .operator ">&", .word "1"]

/-- The command is `git clone` with its options and the URL for an argument. -/
def ReadsClone (stays : List (Char × Bool) → Bool) (url : Str) : Prop :=
  parse stays (gitCmd url) = some (gitLexemes (gitUrl url)) ∧
    options (gitWords (gitUrl url)) = ["--branch", "--single-branch", "--depth"]

instance (stays : List (Char × Bool) → Bool) (url : Str) : Decidable (ReadsClone stays url) :=
  inferInstanceAs (Decidable (_ ∧ _))

section
variable {env : Env} {d : Dcf} {url views : Str} {stays : List (Char × Bool) → Bool}

theorem gitCmd_words : gitCmd url =
    (["git", "clone", gitUrl url, "--branch", "devel", "--single-branch", "--depth"]
      : List Str).flatMap (· ++ [' ']) ++ "1" := by
  have h₁ : ("git clone " : Str) = ("git" : Str) ++ [' '] ++ (("clone" : Str) ++ [' ']) := by decide
  have h₂ : (" --branch devel --single-branch --depth 1" : Str) = [' '] ++ (("--branch" : Str) ++
      [' '] ++ (("devel" : Str) ++ [' '] ++ (("--single-branch" : Str) ++ [' '] ++
        (("--depth" : Str) ++ [' '] ++ "1")))) := by
    decide
  rw [gitCmd, h₁, h₂]
  simp only [List.flatMap_cons, List.flatMap_nil, List.append_assoc, List.nil_append]

theorem gitCmd_iff : parse stays (gitCmd url) = some (gitLexemes (gitUrl url)) ↔
    isLiteralWord stays (gitUrl url) = true := by
  have hone : words "1" = [("1" : Str)] := by decide +kernel
  have hT : gitLexemes (gitUrl url) = ((["git", "clone", gitUrl url, "--branch", "devel",
      "--single-branch", "--depth"] : List Str) ++ words "1").map .word := by
    rw [hone]
    rfl
  have hfixed : ∀ w ∈ (["git", "clone", "--branch", "devel", "--single-branch", "--depth", "1"]
      : List Str), isPlainWord w = true := by
    decide +kernel
  rw [gitCmd_words, hT, parse_words_iff, hone]
  constructor
  · rintro ⟨h, -⟩
    exact h _ (by simp)
  · intro h
    have hblank : ∀ c ∈ ("1" : Str), isSpace c = true → kind c = .blank := by
      intro c hc
      obtain rfl : c = '1' := by simpa [ofString] using hc
      decide
    refine ⟨fun w hw => ?_, hblank⟩
    by_cases hu : w = gitUrl url
    · exact hu ▸ h
    · refine literal_of_plain (hfixed w ?_)
      simpa [hu] using hw

theorem options_iff : options (gitWords url) = ["--branch", "--single-branch", "--depth"] ↔
    url.head? ≠ some '-' := by
  have hrest : options ["--branch", "devel", "--single-branch", "--depth", "1"] =
      (["--branch", "--single-branch", "--depth"] : List Str) := by
    decide +kernel
  have hsplit : options (gitWords url) = (if url.head? == some '-' then [url] else []) ++
      options ["--branch", "devel", "--single-branch", "--depth", "1"] := by
    have hgit : ("git" : Str).head? ≠ some '-' ∧ ("clone" : Str).head? ≠ some '-' := by decide
    by_cases hu : url.head? = some '-' <;> simp [options, gitWords, hu, hgit, List.filter_cons]
  rw [hsplit, hrest]
  by_cases hu : url.head? = some '-' <;> simp [hu]

theorem packageTypeCmd_words : packageTypeCmd env views =
    (rscriptWords env "getPackageType.R").flatMap (· ++ [' ']) ++
      replaceAll (lit ",") "" views := by
  have h₁ : (" --vanilla --no-save --no-restore " : Str) = [' '] ++ (("--vanilla" : Str) ++ [' '] ++
      (("--no-save" : Str) ++ [' '] ++ (("--no-restore" : Str) ++ [' ']))) := by
    decide
  have h₂ : (" " : Str) = [' '] := by decide
  rw [packageTypeCmd, h₁, h₂]
  simp only [rscriptWords, List.flatMap_cons, List.flatMap_nil, List.append_assoc, List.nil_append]

theorem packageTypeCmd_iff :
    parse stays (packageTypeCmd env views) = some (packageTypeLexemes env views) ↔
    (∀ w ∈ rscriptWords env "getPackageType.R" ++ words (replaceAll (lit ",") "" views),
      isLiteralWord stays w = true) ∧
      ∀ c ∈ replaceAll (lit ",") "" views, isSpace c = true → kind c = .blank := by
  rw [packageTypeCmd_words, packageTypeLexemes, parse_words_iff]

/-- The command up to the text of the dependencies, in double quotes. -/
def depsPrefix (env : Env) : Str :=
  (rscriptWords env "installPkgDeps.R").flatMap (· ++ [' ']) ++ [' '] ++ ("--args" : Str) ++ [' '] ++
    ['\x22']

theorem installDepsCmd_eq : installDepsCmd env d =
    depsPrefix env ++ (encodeDeps d ++ '\x22' :: ([' ', '>', ' '] ++
      (installDepsLog env ++ [' ', '2', '>', '&', '1']))) := by
  have h₁ : (" --vanilla --no-save --no-restore " : Str) = [' '] ++ (("--vanilla" : Str) ++ [' '] ++
      (("--no-save" : Str) ++ [' '] ++ (("--no-restore" : Str) ++ [' ']))) := by
    decide
  have h₂ : ("  --args \"" : Str) = [' ', ' '] ++ ("--args" : Str) ++ [' ', '\x22'] := by decide
  have h₃ : ("\" > " : Str) = '\x22' :: [' ', '>', ' '] := by decide
  have h₄ : (" 2>&1" : Str) = [' ', '2', '>', '&', '1'] := by decide
  rw [installDepsCmd, depsPrefix, h₁, h₂, h₃, h₄]
  simp only [rscriptWords, List.flatMap_cons, List.flatMap_nil, List.append_assoc, List.nil_append,
    List.cons_append, List.append_nil]

theorem run_wordEnd {l : Lexer} (hm : l.mode = .bare) :
    run l [' '] = some ((l.emit (.word l.part)).drop ' ') := by
  have hk : kind ' ' = .blank := by decide
  simp [run_cons, step, hm, bareStep, hk]

theorem run_open {l : Lexer} (hm : l.mode = .gap) :
    run l ['\x22'] = some ((l.drop '\x22').enter .double) := by
  have hk : kind '\x22' = .double := by decide
  simp [run_cons, step, hm, gapStep, hk]

theorem run_depsPrefix
    (hp : ∀ w ∈ rscriptWords env "installPkgDeps.R", isPlainWord w = true) :
    ∃ l, run {} (depsPrefix env) = some l ∧ l.mode = .double ∧ l.part = [] ∧
      l.tokens = (rscriptWords env "installPkgDeps.R" ++ [("--args" : Str)]).map
        (fun w => .word (bare w)) ∧
      l.dropped.countP isMark = 1 := by
  have hargs : IsBareword (bare ("--args" : Str)) := (isPlainWord_iff.mp (by decide +kernel)).1
  have hk : kind ' ' = .blank := by decide
  have hm : isMark ' ' = false := by decide
  have hm' : isMark '\x22' = true := by decide
  generalize hargs' : ("--args" : Str) = args at hargs
  obtain ⟨l₀, h₀, hm₀, hp₀, htokens, hdropped⟩ : ∃ l₀,
      run {} ((rscriptWords env "installPkgDeps.R").flatMap (· ++ [' '])) = some l₀ ∧
        l₀.mode = .gap ∧ l₀.part = [] ∧
        l₀.tokens = (rscriptWords env "installPkgDeps.R").map (fun w => .word (bare w)) ∧
        l₀.dropped = List.replicate 5 ' ' :=
    ⟨_, run_literal hp, rfl, rfl, rfl, rfl⟩
  have hpart : ∀ l : Lexer, l.mode = .gap → l.part = [] →
      run l (args ++ [' '] ++ ['\x22']) =
        some { l with
          mode := .double
          tokens := l.tokens ++ [.word (bare args)]
          dropped := l.dropped ++ [' ', '\x22'] } := by
    intro l hl hlp
    rw [List.append_assoc, run_append, run_word hl hlp hargs, Option.bind_some, run_append,
      run_wordEnd rfl, Option.bind_some, run_open rfl]
    simp [Lexer.emit, Lexer.drop, Lexer.enter, hlp]
  refine ⟨{ l₀ with
    mode := .double
    tokens := l₀.tokens ++ [.word (bare args)]
    dropped := l₀.dropped ++ [' '] ++ [' ', '\x22'] }, ?_, rfl, hp₀, ?_, ?_⟩
  · rw [depsPrefix, hargs', List.append_assoc, List.append_assoc, List.append_assoc, run_append, h₀,
      Option.bind_some, run_append, run_blank hm₀ hk, Option.bind_some, ← List.append_assoc,
      hpart (l₀.drop ' ') hm₀ hp₀]
    rfl
  · simp [htokens]
  · simp [hdropped, hm, hm']

theorem expands_quoted {e : Str} : expands (e.map (·, true)) = false := by
  cases e <;> simp [expands]

/-- From the closing quote to the name of the log. -/
theorem run_closed {l : Lexer} {e : Str} (hm : l.mode = .double) (hp : l.part = []) :
    ∃ g, run (l.quote e) ('\x22' :: [' ', '>', ' ']) = some g ∧ g.mode = .gap ∧ g.part = [] ∧
      g.tokens = l.tokens ++ [.word (e.map (·, true)), .operator ">"] ∧
      g.dropped.countP isMark = l.dropped.countP isMark + 1 := by
  have hd : kind '\x22' = .double := by decide
  have hb : kind ' ' = .blank := by decide
  have ho : kind '>' = .operator := by decide
  have hop : (['>', ' '] : Str) ∉ operators := by decide +kernel
  have hm₁ : isMark '\x22' = true := by decide
  have hm₂ : isMark ' ' = false := by decide
  have hgt : (">" : Str) = ['>'] := by decide
  refine ⟨{ l with
    mode := .gap
    tokens := l.tokens ++ [.word (e.map (·, true)), .operator ">"]
    dropped := l.dropped ++ ['\x22', ' ', ' '] }, ?_, rfl, hp, rfl, ?_⟩
  · simp [run_cons, step, doubleStep, bareStep, gapStep, hm, hp, hd, hb, ho, hop, hgt, Lexer.quote,
      Lexer.enter, Lexer.drop, Lexer.emit, Lexer.push]
  · simp [hm₁, hm₂]

/-- The name of the log and the other redirection. -/
theorem run_log {g : Lexer} {w : Str} (hm : g.mode = .gap) (hp : g.part = [])
    (hw : IsBareword (bare w)) :
    (run g (w ++ [' ', '2', '>', '&', '1'])).bind Lexer.finish =
      some (g.tokens ++ [.word (bare w), .ioNumber "2", .operator ">&", .word (bare "1")]) := by
  have hb : kind ' ' = .blank := by decide
  have h2 : kind '2' = .plain := by decide
  have h1 : kind '1' = .plain := by decide
  have ho : kind '>' = .operator := by decide
  have hop : (['>', '&'] : Str) ∈ operators := by decide +kernel
  have hop' : (['>', '&', '1'] : Str) ∉ operators := by decide +kernel
  have hs₁ : ("2" : Str) = ['2'] := by decide
  have hs₂ : (">&" : Str) = ['>', '&'] := by decide
  have hs₃ : bare "1" = [('1', false)] := by decide
  have hdigit : '2'.isDigit = true := by decide
  rw [run_append, run_word hm hp hw, Option.bind_some]
  simp [run_cons, step, bareStep, gapStep, hb, h2, h1, ho, hop, hop', hs₁, hs₂, hs₃, wordBefore,
    hdigit, Lexer.enter, Lexer.drop, Lexer.emit, Lexer.push, Lexer.finish]

/-- Of the marks in the command, only the two quotes are not in the tokens. -/
theorem installDepsCmd_marks : (installDepsCmd env d).countP isMark =
    ((installDepsLexemes env d).flatMap Lexeme.text).countP isMark + 2 := by
  have hargs : ("--args" : Str).countP isMark = 0 := by decide +kernel
  have hgt : (">" : Str).countP isMark = 0 := by decide +kernel
  have htwo : ("2" : Str).countP isMark = 0 := by decide +kernel
  have hamp : (">&" : Str).countP isMark = 0 := by decide +kernel
  have hone : ("1" : Str).countP isMark = 0 := by decide +kernel
  have hq : isMark '\x22' = true := by decide
  have hb : isMark ' ' = false := by decide
  have hrest : ([' ', '>', ' '] : Str).countP isMark = 0 ∧
      ([' ', '2', '>', '&', '1'] : Str).countP isMark = 0 := by
    decide
  have hspaced : ((rscriptWords env "installPkgDeps.R").flatMap (· ++ [' '])).countP isMark =
      (rscriptWords env "installPkgDeps.R").flatten.countP isMark := spaced_count hb
  have htext : ∀ ws : List Str, (ws.map Lexeme.word).flatMap Lexeme.text = ws.flatten := by
    intro ws
    simp [List.flatMap_map, Lexeme.text, List.flatMap_id']
  rw [installDepsCmd_eq, installDepsLexemes, depsPrefix, List.flatMap_append, htext,
    List.flatten_append]
  simp only [List.countP_append, List.countP_cons, List.countP_nil, List.flatMap_cons,
    List.flatMap_nil, List.flatten_cons, List.flatten_nil, Lexeme.text, hspaced, hargs, hgt, htwo,
    hamp, hone, hq, hb, hrest.1, hrest.2]
  simp
  omega

theorem installDepsCmd_iff
    (hp : ∀ w ∈ rscriptWords env "installPkgDeps.R", isPlainWord w = true) :
    parse stays (installDepsCmd env d) = some (installDepsLexemes env d) ↔
      isQuotable (encodeDeps d) = true ∧ isLiteralWord stays (installDepsLog env) = true := by
  obtain ⟨l, hl, hm, hpart, htokens, hmarks⟩ := run_depsPrefix hp
  obtain ⟨g, hg, hgm, hgp, hgt, hgd⟩ := run_closed (e := encodeDeps d) hm hpart
  have hsplit : ∀ tail : Str, encodeDeps d ++ '\x22' :: ([' ', '>', ' '] ++ tail) =
      encodeDeps d ++ (('\x22' :: [' ', '>', ' ']) ++ tail) := fun _ => rfl
  have hrun : isQuotable (encodeDeps d) = true → run {} (installDepsCmd env d) =
      run g (installDepsLog env ++ [' ', '2', '>', '&', '1']) := by
    intro hq
    rw [installDepsCmd_eq, run_append, hl, Option.bind_some, hsplit, run_append,
      run_quotable hm hq, Option.bind_some, run_append, hg, Option.bind_some]
  have hbase : g.tokens.map Token.lexeme =
      (rscriptWords env "installPkgDeps.R" ++ [("--args" : Str), encodeDeps d]).map .word ++
        [.operator ">"] := by
    rw [hgt, htokens]
    simp [Token.lexeme, Function.comp_def]
  constructor
  · intro h
    obtain ⟨l', ts, hr, hf, hlit, hT⟩ := parse_eq_some.mp h
    have hle : l'.dropped.countP isMark ≤ 2 := by
      have h₁ : l'.dropped.countP isMark + (ts.flatMap Token.chars).countP isMark ≤
          l'.count isMark := finish_count hf
      have h₂ := run_count (p := isMark) hr
      rw [installDepsCmd_marks, ← hT, lexemes_text] at h₂
      have h₀ : ({} : Lexer).count isMark + ({} : Lexer).pending.countP isMark = 0 := by decide
      omega
    have hr' := hr
    rw [installDepsCmd_eq, run_append, hl, Option.bind_some] at hr'
    have hd : l'.dropped.countP isMark = 2 := by
      have hge := run_marks hr'
      have hne : l'.dropped.countP isMark ≠ l.dropped.countP isMark := by
        intro he
        rw [run_inside (.inl hm) hr' he] at hf
        cases hf
      omega
    have hq : isQuotable (encodeDeps d) = true :=
      quotable_of_run hm hr' (by simp [hf]) (by rw [hd, hmarks])
    refine ⟨hq, ?_⟩
    rw [hrun hq] at hr
    have hb : Bare IsBareword g.tokens g.dropped g :=
      ⟨.inl ⟨hgm, hgp⟩, ⟨[], by simp, by simp⟩, ⟨[], by simp, by simp⟩⟩
    obtain ⟨hb', -⟩ := hb.run growing_isBareword hr (by rw [hd, hgd, hmarks])
    obtain ⟨ts', rfl, hwords, -⟩ := hb'.finish (p := isMark) hf
    rw [List.map_append, hbase, installDepsLexemes] at hT
    have hlog : ts'.map Token.lexeme = [.word (installDepsLog env), .ioNumber "2",
        .operator ">&", .word "1"] := by
      rw [List.append_assoc] at hT
      exact (List.cons.inj (List.append_cancel_left hT)).2
    cases ts' with
    | nil => cases hlog
    | cons t ts' =>
      refine literal_of_lexeme (List.cons.inj hlog).1 ?_ (List.all_eq_true.mp hlit t (by simp))
      rintro cs rfl
      exact hwords cs List.mem_cons_self
  · rintro ⟨hq, hlog⟩
    obtain ⟨hbare, hexp⟩ := isLiteralWord_iff.mp hlog
    have hread : (run {} (installDepsCmd env d)).bind Lexer.finish = some (g.tokens ++
        [.word (bare (installDepsLog env)), .ioNumber "2", .operator ">&", .word (bare "1")]) := by
      rw [hrun hq, run_log hgm hgp hbare]
    have hargs : isPlainWord "--args" = true := by decide +kernel
    have hone : expands (bare "1") = false := by decide +kernel
    have hwords : ∀ w ∈ rscriptWords env "installPkgDeps.R" ++ [("--args" : Str)],
        expands (bare w) = false := by
      intro w hw
      refine (isPlainWord_iff.mp ?_).2
      rcases List.mem_append.mp hw with hw | hw
      · exact hp w hw
      · exact List.mem_singleton.mp hw ▸ hargs
    have hlit : (g.tokens ++ [Token.word (bare (installDepsLog env)), .ioNumber "2",
        .operator ">&", .word (bare "1")]).all (Token.isLiteral stays) = true := by
      have hfirst : (((rscriptWords env "installPkgDeps.R" ++ [("--args" : Str)]).map
          fun w => Token.word (bare w)).all (Token.isLiteral stays)) = true := by
        rw [List.all_map, List.all_eq_true]
        intro w hw
        simp [Token.isLiteral, hwords w hw]
      rw [hgt, htokens, List.all_append, List.all_append, hfirst]
      simpa [Token.isLiteral, expands_quoted, hone] using hexp
    rw [parse, hread, Option.bind_some, if_pos hlit, List.map_append, hbase, installDepsLexemes]
    simp [Token.lexeme]

/-- The program, the options and the scripts of the node are words that mean themselves. -/
structure Configured (env : Env) : Prop where
  packageType : ∀ w ∈ rscriptWords env "getPackageType.R", isPlainWord w = true
  installDeps : ∀ w ∈ rscriptWords env "installPkgDeps.R", isPlainWord w = true

instance (env : Env) : Decidable (Configured env) :=
  decidable_of_iff ((∀ w ∈ rscriptWords env "getPackageType.R", isPlainWord w = true) ∧
      ∀ w ∈ rscriptWords env "installPkgDeps.R", isPlainWord w = true)
    ⟨fun ⟨a, b⟩ => ⟨a, b⟩, fun ⟨a, b⟩ => ⟨a, b⟩⟩

theorem kind_blank {c : Char} : kind c = .blank ↔ c = ' ' ∨ c = '\t' := by
  constructor
  · intro h
    unfold kind at h
    split_ifs at h
    simpa using ‹c ∈ [' ', '\t']›
  · rintro (rfl | rfl) <;> decide

/-- Each command is one simple command with the submitted text in its place, if and only if the
text means itself there: `stays` are the words with a pattern, a tilde or braces that the shell
finds nothing for. -/
theorem commands_iff (hc : Configured env) (stays : List (Char × Bool) → Bool) (m : Manifest)
    (views : Str) (d : Dcf) :
    (ReadsClone stays m.load.svnUrl ↔ isLiteralWord stays (gitUrl m.load.svnUrl) = true ∧
      (gitUrl m.load.svnUrl).head? ≠ some '-') ∧
    (parse stays (packageTypeCmd env views) = some (packageTypeLexemes env views) ↔
      (∀ w ∈ words (replaceAll (lit ",") "" views), isLiteralWord stays w = true) ∧
        ∀ c ∈ replaceAll (lit ",") "" views, isSpace c = true → c = ' ' ∨ c = '\t') ∧
    (parse stays (installDepsCmd env d) = some (installDepsLexemes env d) ↔
      isQuotable (encodeDeps d) = true ∧ isLiteralWord stays (installDepsLog env) = true) := by
  refine ⟨and_congr gitCmd_iff options_iff, ?_, installDepsCmd_iff hc.installDeps⟩
  rw [packageTypeCmd_iff]
  simp only [kind_blank]
  constructor
  · rintro ⟨hw, hs⟩
    exact ⟨fun w h => hw w (List.mem_append_right _ h), hs⟩
  · rintro ⟨hw, hs⟩
    refine ⟨fun w h => ?_, hs⟩
    rcases List.mem_append.mp h with h | h
    · exact literal_of_plain (hc.packageType w h)
    · exact hw w h

theorem spbtest_configured : Configured spbtest := by decide +kernel

def submitted (url : Str) : Manifest := { spbtest.manifest with svnUrl := url }

/-- A pattern that no file is named like, one that some are, and an option. -/
theorem commands_iff_spbtest :
    ReadsClone (fun _ => true) (submitted "https://github.com/vobencha/spbtest5[1").load.svnUrl ∧
    ¬ ReadsClone (fun _ => false) (submitted "https://github.com/vobencha/spbtest5[1").load.svnUrl ∧
    ¬ ReadsClone (fun _ => true) (submitted "--upload-pack=date").load.svnUrl ∧
    parse (fun _ => false) (installDepsCmd spbtest []) = some (installDepsLexemes spbtest []) := by
  have hread := fun stays url => (commands_iff spbtest_configured stays (submitted url) [] []).1
  refine ⟨(hread _ _).mpr ?_, fun h => absurd ((hread _ _).mp h) ?_,
    fun h => absurd ((hread _ _).mp h) ?_,
    (commands_iff spbtest_configured _ (submitted []) [] []).2.2.mpr ?_⟩ <;> decide +kernel

/-- A URL that ends the command, and a dependency that the shell runs. -/
theorem submitted_commands :
    (parse (fun _ => true) (gitCmd "https://github.com/vobencha/spbtest5;date") =
      some [.word "git", .word "clone", .word "https://github.com/vobencha/spbtest5",
        .operator ";", .word "date.git", .word "--branch", .word "devel",
        .word "--single-branch", .word "--depth", .word "1"] ∧
      ¬ ReadsClone (fun _ => true) "https://github.com/vobencha/spbtest5;date") ∧
    parse (fun _ => true) (installDepsCmd spbtest [("Depends", "R, $(date)")]) ≠
      some (installDepsLexemes spbtest [("Depends", "R, $(date)")]) := by
  decide +kernel

end
end PackageBuilder
