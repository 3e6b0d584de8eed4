import PackageBuilder.Builder.Build
import PackageBuilder.Builder.Commands

/-! All commands of builder.py, and what a shell makes of them by the rules of POSIX. -/
namespace PackageBuilder
open Text Effect Shell

/-- A command of the run, with the text in it that is not given before the run. -/
inductive ShellCommand
  | gitClone
  | packageType (views : Str)
  | installDeps (d : Dcf)
  | checkgitclone
  | installPkg
  | build
  | scp (tarball : Str)
  | check (tarball : Str)
  | biocCheck (tarball : Str)
  | buildUniversal (tarball : Option Str)
  | removeLibdir
  | removeClone

section
variable (env : Env)

/-- What the shell is given. -/
def ShellCommand.text : ShellCommand → Str
  | .gitClone => gitCmd env.manifest.svnUrl
  | .packageType views => packageTypeCmd env views
  | .installDeps d => installDepsCmd env d
  | .checkgitclone => checkgitcloneCmd env
  | .installPkg => installPkgCmd env
  | .build => buildCmd env
  | .scp tarball => copyCmd env tarball
  | .check tarball => checkCmd env tarball
  | .biocCheck tarball => biocCheckCmd env tarball
  | .buildUniversal tarball => buildUniversalCmd env tarball
  | .removeLibdir => "rm -rf libdir"
  | .removeClone => "rm -rf " ++ env.manifest.packageName

/-- The program that is meant to run, and its arguments. -/
def ShellCommand.words : ShellCommand → List Str
  | .gitClone => gitWords (gitUrl env.manifest.svnUrl)
  | .packageType views =>
    rscriptWords env "getPackageType.R" ++ Text.words (replaceAll (lit ",") "" views)
  | .installDeps d => rscriptWords env "installPkgDeps.R" ++ [("--args" : Str), encodeDeps d]
  | .checkgitclone => [rscriptBinary env, pathJoin env.spbHome "BiocCheckGitCloneScript.R",
      pathJoin env.workingDir env.manifest.packageName]
  | .installPkg => [env.bbsRCmd, "CMD", "INSTALL", "--library=" ++ libDir env,
      pathJoin env.workingDir env.manifest.packageName]
  | .build => [env.bbsRCmd, "CMD", "build", "--keep-empty-dirs", "--no-resave-data",
      env.manifest.packageName]
  | .scp tarball => env.scpCmd.splitOn ' ' ++ [tarball, reportsUrl ++ "/" ++ tarball]
  | .check tarball => [env.bbsRCmd, "CMD", "check", "--no-vignettes", "--timings",
      "--library=" ++ libDir env, "--install=check:" ++ installOutputFile env, tarball]
  | .biocCheck tarball => [rscriptBinary env, pathJoin env.spbHome "BiocCheckScript.R", tarball,
      env.manifest.newpackage.getD "True"]
  | .buildUniversal tarball => [env.bbsHome ++ "/utils/build-universal.sh", showName tarball,
      env.bbsRCmd, "libdir"]
  | .removeLibdir => ["rm", "-rf", "libdir"]
  | .removeClone => ["rm", "-rf", env.manifest.packageName]

/-- Where its output goes, if that is in the text. -/
def ShellCommand.log : ShellCommand → Option Str
  | .installDeps _ => some (installDepsLog env)
  | .installPkg => some (installOutputFile env)
  | _ => none

/-- `> log 2>&1` -/
def redirection (log : Str) : List Lexeme :=
  [.operator ">", .word log, .ioNumber "2", .operator ">&", .word "1"]

/-- What the shell should make of it. -/
def ShellCommand.lexemes (k : ShellCommand) : List Lexeme :=
  (k.words env).map .word ++ (k.log env).elim [] redirection

/-- The text in the command means itself: between blanks, or for the dependencies in double
quotes. -/
def ShellCommand.Literal (stays : List (Char × Bool) → Bool) : ShellCommand → Prop
  | .packageType views =>
    (∀ w ∈ Text.words (replaceAll (lit ",") "" views), isLiteralWord stays w = true) ∧
      ∀ c ∈ replaceAll (lit ",") "" views, isSpace c = true → c = ' ' ∨ c = '\t'
  | .installDeps d =>
    isQuotable (encodeDeps d) = true ∧ isLiteralWord stays (installDepsLog env) = true
  | k => ∀ w ∈ k.words env ++ (k.log env).toList, isLiteralWord stays w = true

end

section
variable {ws : List Str} {w log : Str} {env : Env} {stays : List (Char × Bool) → Bool}

theorem literal_of_marks {cmd : Str} {T : List Lexeme} (h : parse stays cmd = some T)
    (hm : cmd.countP isMark = (T.flatMap Lexeme.text).countP isMark) :
    ∀ w, .word w ∈ T → isLiteralWord stays w = true :=
  (literal_of_parse h hm.le).1

theorem words_text (ws : List Str) : (ws.map Lexeme.word).flatMap Lexeme.text = ws.flatten := by
  simp [List.flatMap_map, Lexeme.text, List.flatMap_id']

/-- As for `parse_last_iff`, with one more blank before the last word. -/
theorem parse_gap_iff :
    parse stays (ws.flatMap (· ++ [' ']) ++ ' ' :: w) = some ((ws ++ [w]).map .word) ↔
      ∀ v ∈ ws ++ [w], isLiteralWord stays v = true := by
  have hb : kind ' ' = .blank := by decide
  have hm : isMark ' ' = false := by decide
  constructor
  · intro h v hv
    have hmarks : (ws.flatMap (· ++ [' ']) ++ ' ' :: w).countP isMark =
        (((ws ++ [w]).map Lexeme.word).flatMap Lexeme.text).countP isMark := by
      have hspaced : (ws.flatMap (· ++ [' '])).countP isMark = ws.flatten.countP isMark :=
        spaced_count (by decide)
      simp [words_text, hspaced, hm, Lexeme.text]
    exact literal_of_marks h hmarks v (List.mem_map_of_mem hv)
  · intro h
    obtain ⟨hbare, -⟩ := isLiteralWord_iff.mp (h w (by simp))
    have hread : (run {} (ws.flatMap (· ++ [' ']) ++ ' ' :: w)).bind Lexer.finish =
        some ((ws ++ [w]).map fun v => .word (bare v)) := by
      have hw : ' ' :: w = [' '] ++ w := rfl
      rw [run_append, run_literal fun v hv => h v (List.mem_append_left _ hv), Option.bind_some, hw,
        run_append, run_blank rfl hb, Option.bind_some, run_word rfl rfl hbare]
      simp [Lexer.finish, Lexer.drop]
    have hall :
        ((ws ++ [w]).map fun v => Token.word (bare v)).all (Token.isLiteral stays) = true := by
      simp only [List.all_map, List.all_eq_true]
      intro v hv
      exact (isLiteralWord_iff.mp (h v hv)).2
    rw [parse, hread, Option.bind_some, if_pos hall]
    simp [Token.lexeme, Function.comp_def]

/-- Words whose output goes to a file. -/
theorem parse_redirected_iff : parse stays (ws.flatMap (· ++ [' ']) ++ ('>' :: ' ' ::
      (log ++ [' ', '2', '>', '&', '1']))) = some (ws.map .word ++ redirection log) ↔
    ∀ v ∈ ws ++ [log], isLiteralWord stays v = true := by
  have hb : kind ' ' = .blank := by decide
  have ho : kind '>' = .operator := by decide
  have hop : (['>', ' '] : Str) ∉ operators := by decide +kernel
  have hgt : (">" : Str) = ['>'] := by decide
  constructor
  · intro h v hv
    have htext : ((ws.map Lexeme.word ++ redirection log).flatMap Lexeme.text).countP isMark =
        ws.flatten.countP isMark + log.countP isMark := by
      have htail : ((">" : Str).countP isMark = 0 ∧ (">&" : Str).countP isMark = 0) ∧
          ("2" : Str).countP isMark = 0 ∧ ("1" : Str).countP isMark = 0 := by
        decide +kernel
      simp [words_text, redirection, Lexeme.text, htail]
    have hmarks : (ws.flatMap (· ++ [' ']) ++ ('>' :: ' ' ::
        (log ++ [' ', '2', '>', '&', '1']))).countP isMark =
          ((ws.map Lexeme.word ++ redirection log).flatMap Lexeme.text).countP isMark := by
      have hspaced : (ws.flatMap (· ++ [' '])).countP isMark = ws.flatten.countP isMark :=
        spaced_count (by decide)
      have hmark : (isMark '>' = false ∧ isMark '&' = false) ∧ isMark ' ' = false ∧
          isMark '2' = false ∧ isMark '1' = false := by
        decide
      rw [htext, List.countP_append, hspaced]
      simp [hmark]
    refine literal_of_marks h hmarks v ?_
    rcases List.mem_append.mp hv with hv | hv
    · exact List.mem_append_left _ (List.mem_map_of_mem hv)
    · obtain rfl := List.mem_singleton.mp hv
      exact List.mem_append_right _ (by simp [redirection])
  · intro h
    have hws : ∀ v ∈ ws, isLiteralWord stays v = true := fun v hv => h v (List.mem_append_left _ hv)
    obtain ⟨hbare, hlog⟩ := isLiteralWord_iff.mp (h log (by simp))
    have hopen : ∀ l : Lexer, l.mode = .gap → l.part = [] → run l ['>', ' '] = some { l with
        tokens := l.tokens ++ [.operator ">"], dropped := l.dropped ++ [' '] } := by
      intro l hl hp
      simp [run_cons, step, gapStep, hl, hp, ho, hop, hb, hgt, Lexer.push, Lexer.enter, Lexer.emit,
        Lexer.drop]
    have hread : (run {} (ws.flatMap (· ++ [' ']) ++ ('>' :: ' ' ::
        (log ++ [' ', '2', '>', '&', '1'])))).bind Lexer.finish =
          some ((ws.map fun v => .word (bare v)) ++ [.operator ">", .word (bare log),
            .ioNumber "2", .operator ">&", .word (bare "1")]) := by
      have hsplit : '>' :: ' ' :: (log ++ [' ', '2', '>', '&', '1']) =
          ['>', ' '] ++ (log ++ [' ', '2', '>', '&', '1']) := rfl
      rw [run_append, run_literal hws, Option.bind_some, hsplit, run_append, hopen _ rfl rfl,
        Option.bind_some, run_log rfl rfl hbare]
      simp
    have hone : expands (bare "1") = false := by decide +kernel
    have hall : ((ws.map fun v => Token.word (bare v)) ++ [Token.operator ">", .word (bare log),
        .ioNumber "2", .operator ">&", .word (bare "1")]).all (Token.isLiteral stays) = true := by
      simp only [List.all_append, List.all_map, Bool.and_eq_true, List.all_eq_true]
      refine ⟨fun v hv => ?_, by simpa [Token.isLiteral, hone] using hlog⟩
      exact (isLiteralWord_iff.mp (hws v hv)).2
    rw [parse, hread, Option.bind_some, if_pos hall]
    simp [Token.lexeme, Function.comp_def, redirection]

variable {k : ShellCommand}

theorem reads_of_parse (hl : k.log env = none)
    (hp : k.Literal env stays ↔
      ∀ v ∈ k.words env ++ (k.log env).toList, isLiteralWord stays v = true)
    (h : parse stays (k.text env) = some ((k.words env).map .word) ↔
      ∀ v ∈ k.words env, isLiteralWord stays v = true) :
    parse stays (k.text env) = some (k.lexemes env) ↔ k.Literal env stays := by
  simpa [hp, hl, ShellCommand.lexemes] using h

/-- The words of most commands are divided by one blank. -/
theorem reads_of_words (ws : List Str) (w : Str) (ht : k.text env = ws.flatMap (· ++ [' ']) ++ w)
    (hw : k.words env = ws ++ [w]) (hl : k.log env = none)
    (hp : k.Literal env stays ↔
      ∀ v ∈ k.words env ++ (k.log env).toList, isLiteralWord stays v = true) :
    parse stays (k.text env) = some (k.lexemes env) ↔ k.Literal env stays := by
  refine reads_of_parse hl hp ?_
  rw [ht, hw]
  exact parse_last_iff

theorem buildText_spaced : (ShellCommand.build).text env =
    ([env.bbsRCmd, "CMD", "build", "--keep-empty-dirs", "--no-resave-data"] : List Str).flatMap
      (· ++ [' ']) ++ env.manifest.packageName := by
  have h : (" CMD build --keep-empty-dirs --no-resave-data " : Str) = [' '] ++ (("CMD" : Str) ++
      [' '] ++ (("build" : Str) ++ [' '] ++ (("--keep-empty-dirs" : Str) ++ [' '] ++
        (("--no-resave-data" : Str) ++ [' '])))) := by
    decide
  simp only [ShellCommand.text, buildCmd, h, List.flatMap_cons, List.flatMap_nil,
    List.append_assoc, List.append_nil]

theorem checkText_spaced {t : Str} (hs : env.system ≠ .windows) : (ShellCommand.check t).text env =
    ([env.bbsRCmd, "CMD", "check", "--no-vignettes", "--timings", "--library=" ++ libDir env,
      "--install=check:" ++ installOutputFile env] : List Str).flatMap (· ++ [' ']) ++
        ' ' :: t := by
  have h₁ : (" CMD check --no-vignettes --timings --library=" : Str) = [' '] ++ (("CMD" : Str) ++
      [' '] ++ (("check" : Str) ++ [' '] ++ (("--no-vignettes" : Str) ++ [' '] ++
        (("--timings" : Str) ++ [' '] ++ ("--library=" : Str))))) := by
    decide
  have h₂ : (" --install=check:" : Str) = [' '] ++ ("--install=check:" : Str) := by decide
  have h₃ : (" " : Str) = [' '] := by decide
  simp only [ShellCommand.text, checkCmd, hs, if_false, h₁, h₂, h₃, List.flatMap_cons,
    List.flatMap_nil, List.append_assoc, List.append_nil]
  rfl

theorem installText_spaced : ShellCommand.installPkg.text env =
    (ShellCommand.installPkg.words env).flatMap (· ++ [' ']) ++ ('>' :: ' ' ::
      (installOutputFile env ++ [' ', '2', '>', '&', '1'])) := by
  have h₁ : (" CMD INSTALL --library=" : Str) = [' '] ++ (("CMD" : Str) ++ [' '] ++
      (("INSTALL" : Str) ++ [' '] ++ ("--library=" : Str))) := by
    decide
  have h₂ : (" > " : Str) = [' ', '>', ' '] := by decide
  have h₃ : (" 2>&1" : Str) = [' ', '2', '>', '&', '1'] := by decide
  have h₄ : (" " : Str) = [' '] := by decide
  simp only [ShellCommand.text, ShellCommand.words, installPkgCmd, h₁, h₂, h₃, h₄,
    List.flatMap_cons, List.flatMap_nil, List.append_assoc, List.append_nil, List.cons_append,
    List.nil_append]

theorem splitOn_spaced (s : Str) : (s.splitOn ' ').flatMap (· ++ [' ']) = s ++ [' '] := by
  have hinter : ∀ ws : List Str, ws ≠ [] →
      ws.flatMap (· ++ [' ']) = [' '].intercalate ws ++ [' '] := by
    intro ws hws
    induction ws with
    | nil => exact absurd rfl hws
    | cons w ws ih =>
      cases ws with
      | nil => simp
      | cons v ws => simp [ih, List.intercalate_cons_cons]
  have hs := hinter (s.splitOn ' ') (by simp)
  rwa [List.intercalate_splitOn] at hs

/-- On a node with a shell of this kind, a command is read as it is meant if and only if the text in
it means itself. -/
theorem reads_iff (hc : Configured env) (hs : env.system ≠ .windows) (k : ShellCommand) :
    parse stays (k.text env) = some (k.lexemes env) ↔ k.Literal env stays := by
  have hblank : (" " : Str) = [' '] := by decide
  have hrm : ("rm -rf " : Str) = ("rm" : Str) ++ [' '] ++ (("-rf" : Str) ++ [' ']) := by decide
  cases k with
  | gitClone =>
    refine reads_of_words ["git", "clone", gitUrl env.manifest.svnUrl, "--branch", "devel",
      "--single-branch", "--depth"] "1" ?_ rfl rfl Iff.rfl
    exact gitCmd_words
  | packageType views =>
    have hT : (ShellCommand.packageType views).lexemes env = packageTypeLexemes env views :=
      List.append_nil _
    rw [hT, ShellCommand.text, packageTypeCmd_iff, ShellCommand.Literal, List.forall_mem_append]
    simp only [kind_blank]
    exact and_congr_left fun _ => and_iff_right fun w hw => literal_of_plain (hc.packageType w hw)
  | installDeps d =>
    have hT : (ShellCommand.installDeps d).lexemes env = installDepsLexemes env d := rfl
    rw [hT]
    exact installDepsCmd_iff hc.installDeps
  | checkgitclone =>
    refine reads_of_words [rscriptBinary env, pathJoin env.spbHome "BiocCheckGitCloneScript.R"] _
      ?_ rfl rfl Iff.rfl
    simp [ShellCommand.text, checkgitcloneCmd, hblank]
  | installPkg =>
    have h : parse stays (ShellCommand.installPkg.text env) =
        some ((ShellCommand.installPkg.words env).map .word ++
          redirection (installOutputFile env)) ↔
          ∀ v ∈ ShellCommand.installPkg.words env ++ [installOutputFile env],
            isLiteralWord stays v = true := by
      rw [installText_spaced]
      exact parse_redirected_iff
    exact h
  | build => exact reads_of_words _ _ buildText_spaced rfl rfl Iff.rfl
  | scp t =>
    refine reads_of_words (env.scpCmd.splitOn ' ' ++ [t]) (reportsUrl ++ "/" ++ t) ?_ ?_ rfl Iff.rfl
    · simp [ShellCommand.text, copyCmd, hblank, splitOn_spaced]
    · simp [ShellCommand.words]
  | check t =>
    refine reads_of_parse rfl Iff.rfl ?_
    rw [checkText_spaced hs]
    exact parse_gap_iff
  | biocCheck t =>
    refine reads_of_words [rscriptBinary env, pathJoin env.spbHome "BiocCheckScript.R", t] _
      ?_ rfl rfl Iff.rfl
    simp [ShellCommand.text, biocCheckCmd, hblank]
  | buildUniversal t =>
    have h : ("/utils/build-universal.sh " : Str) =
        ("/utils/build-universal.sh" : Str) ++ [' '] := by
      decide
    refine reads_of_words [env.bbsHome ++ "/utils/build-universal.sh", showName t, env.bbsRCmd]
      "libdir" ?_ rfl rfl Iff.rfl
    simp [ShellCommand.text, buildUniversalCmd, h, hblank]
  | removeLibdir =>
    refine reads_of_words ["rm", "-rf"] "libdir" ?_ rfl rfl Iff.rfl
    simp [ShellCommand.text]
    decide
  | removeClone =>
    refine reads_of_words ["rm", "-rf"] env.manifest.packageName ?_ rfl rfl Iff.rfl
    simp [ShellCommand.text, hrm]

end
end PackageBuilder
