import PackageBuilder.Library.Posix
import PackageBuilder.Library.Shell

/-! The command `rm -rf path` of builder.py and cleanUpIssues.py, which give the path to a shell as
it is. -/
namespace PackageBuilder
open Text FileTree Posix Shell

/-- A command interpreter: the words of a command that is nothing but words, and what any other
command does. -/
structure Interpreter (α : Type) where
  words : Str → Option (List Str)
  other : Str → FileSystem Str α → FileSystem Str α := fun _ fs => fs

/-- The operands of `rm -rf`, among which an option may stand. -/
def rmOperands : List Str → Option (List Str)
  | rm :: rf :: xs =>
    if rm = "rm" ∧ rf = "-rf" ∧ ∀ x ∈ xs, x.head? ≠ some '-' then some xs else none
  | _ => none

section
variable {α : Type} (i : Interpreter α)

/-- A command, by what becomes of one operand. -/
def Interpreter.command (operand : FileSystem Str α → Str → FileSystem Str α)
    (fs : FileSystem Str α) (cmd : Str) : FileSystem Str α :=
  match (i.words cmd).bind rmOperands with
  | some xs => xs.foldl operand fs
  | none => i.other cmd fs

/-- The command removes the path, and nothing else. -/
def Interpreter.ReadsOperand (path : Str) : Prop :=
  (i.words ("rm -rf " ++ path)).bind rmOperands = some [path]

instance (path : Str) : Decidable (i.ReadsOperand path) := inferInstanceAs (Decidable (_ = _))

end

section
variable {α : Type} {i : Interpreter α} {operand : FileSystem Str α → Str → FileSystem Str α}
  {fs : FileSystem Str α} {path : Str} {stays : List (Char × Bool) → Bool}

theorem command_operand (hr : i.ReadsOperand path) :
    i.command operand fs ("rm -rf " ++ path) = operand fs path := by
  rw [Interpreter.ReadsOperand] at hr
  rw [Interpreter.command, hr]
  rfl

/-- A shell of POSIX gives the path to `rm` as it is, if and only if the path is left as it is and
is no option. -/
theorem operand_iff (hw : i.words = commandWords stays) :
    i.ReadsOperand path ↔ isLiteralWord stays path = true ∧ path.head? ≠ some '-' := by
  have hcmd : ("rm -rf " : Str) = (["rm", "-rf"] : List Str).flatMap (· ++ [' ']) := by
    decide +kernel
  have hfixed : ∀ v ∈ (["rm", "-rf"] : List Str), isPlainWord v = true := by decide +kernel
  have hread : commandWords stays ("rm -rf " ++ path) = some ([("rm" : Str), "-rf"] ++ [path]) ↔
      isLiteralWord stays path = true := by
    rw [hcmd, commandWords_last_iff, List.forall_mem_append]
    simp only [List.forall_mem_singleton]
    exact ⟨fun hv => hv.2, fun hv => ⟨fun v hm => literal_of_plain (hfixed v hm), hv⟩⟩
  rw [Interpreter.ReadsOperand, hw, ← hread, Option.bind_eq_some_iff]
  constructor
  · rintro ⟨ws, hws, ho⟩
    rw [rmOperands.eq_def] at ho
    split at ho
    · split at ho
      next heq =>
        obtain ⟨rfl, rfl, hdash⟩ := heq
        cases ho
        exact ⟨hws, hdash path (by simp)⟩
      next => cases ho
    · cases ho
  · rintro ⟨hws, hdash⟩
    refine ⟨_, hws, ?_⟩
    simp [rmOperands, hdash]

end
end PackageBuilder
