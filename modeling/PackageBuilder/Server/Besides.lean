import PackageBuilder.Builder.ShellCommands
import PackageBuilder.Server.System

/-! What the commands of the builders may do to the jobs tree besides what they are meant to do. -/
namespace PackageBuilder
open Text FileTree Interleaving Shell

/-- What the builder of a request is given on a node: its manifest and its working directory. -/
def Request.env (node : Env) (r : Request) : Env :=
  { node with
    manifest := r.manifest?.getD node.manifest
    workingDir := pathJoin (pathJoin (pathJoin node.spbHome "jobs") r.issue) r.runDir }

/-- The words with text of the request in the commands of its builder, but for the URL. -/
def requestWords (env : Env) : List Str :=
  [pathJoin env.workingDir env.manifest.packageName, env.manifest.packageName,
    "--library=" ++ libDir env, "--install=check:" ++ installOutputFile env, installOutputFile env,
    installDepsLog env, env.manifest.newpackage.getD "True"]

/-- By the rules of POSIX, where what `stays` holds is not expanded, the text of a request means
itself in all commands of its builder, and the package has the name of a file. -/
structure PlainText (node : Env) (stays : List (Char × Bool) → Bool) (r : Request) : Prop where
  posix : node.system ≠ .windows
  clone : ReadsClone stays (r.env node).manifest.svnUrl
  words : ∀ w ∈ requestWords (r.env node), isLiteralWord stays w = true
  package : isPlain r.packageName = true ∧ r.packageName.head? ≠ some '-'

instance (node : Env) (stays : List (Char × Bool) → Bool) (r : Request) :
    Decidable (PlainText node stays r) :=
  decidable_of_iff (node.system ≠ .windows ∧ ReadsClone stays (r.env node).manifest.svnUrl ∧
      (∀ w ∈ requestWords (r.env node), isLiteralWord stays w = true) ∧
      isPlain r.packageName = true ∧ r.packageName.head? ≠ some '-')
    ⟨fun ⟨a, b, c, d⟩ => ⟨a, b, c, d⟩, fun ⟨a, b, c, d⟩ => ⟨a, b, c, d⟩⟩

/-- What the commands in a stage of a builder do to the jobs tree besides. -/
abbrev Besides (ι ν : Type) := ι → Stage → Tree Str (Content ν) → Tree Str (Content ν)

variable {ι ν : Type} [DecidableEq ι] [DecidableEq ν]

/-- A turn of a job with all that the commands of its builder do. -/
def nodeStep (s : Site ι ν) (besides : Besides ι ν) : Program ι Thread (Job ν) (Node ι ν)
  | i, k, (l, n) =>
    let r := jobStep s i k (l, n)
    if k = .builder ∧ i ∈ n.launched then
      (r.1, r.2.on (l.builder.todo.head?.elim r.2.tree (besides i · r.2.tree)))
    else r

/-- The state of the node after some turns, from a jobs tree `t`. -/
def Site.reached (s : Site ι ν) (besides : Besides ι ν) (t : Tree Str (Content ν))
    (xs : List (ι × Thread)) : Config ι (Job ν) (Node ι ν) :=
  Interleaving.run (nodeStep s besides) (s.start t) xs

/-- The commands of a builder that the shell takes as they are meant, and the code of the package
that they run, leave the rest of the jobs tree as it is. -/
structure Tame (s : Site ι ν) (node : Env) (stays : ι → List (Char × Bool) → Bool)
    (besides : Besides ι ν) : Prop where
  plain : ∀ i, PlainText node (stays i) (s.message i)
  leaves : ∀ i, PlainText node (stays i) (s.message i) → ∀ x t, besides i x t = t

variable {s : Site ι ν} {node : Env} {stays : ι → List (Char × Bool) → Bool} {besides : Besides ι ν}

/-- Then a node does nothing but the turns of its jobs. -/
theorem Tame.nodeStep (h : Tame s node stays besides) :
    PackageBuilder.nodeStep s besides = jobStep s := by
  funext i k ⟨l, n⟩
  have hsame : ∀ (x : Option Stage) (t : Tree Str (Content ν)), x.elim t (besides i · t) = t := by
    rintro (_ | x) t
    · rfl
    · exact h.leaves i (h.plain i) x t
  simp only [PackageBuilder.nodeStep, hsame]
  split <;> rfl

end PackageBuilder
