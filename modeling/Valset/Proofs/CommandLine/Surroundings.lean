import Valset.CommandLine.Surroundings
import Valset.Proofs.Files.TreePrograms

/-!
# What commands come to in their surroundings

A step with files alone comes to what it comes to on the tree of files, and leaves everything else
as it is. Printing a line adds the line to what has been printed.
-/

namespace Valset
namespace Command
namespace Surroundings

variable
  {ε α β : Type}
  {world later : Surroundings}

theorem perform_bind_of_ok
    {step : ExceptT ε (Program CommandDialogue) α}
    {value : α}
    (done : world.perform step.run = (.ok value, later))
    (next : α → ExceptT ε (Program CommandDialogue) β) :
    world.perform (step >>= next).run = later.perform (next value).run :=
  Program.run_bind_of_ok done

theorem perform_bind_eq_ok_iff
    {step : ExceptT ε (Program CommandDialogue) α}
    {next : α → ExceptT ε (Program CommandDialogue) β}
    {result : β} :
    world.perform (step >>= next).run = (.ok result, later) ↔
      ∃ value between, world.perform step.run = (.ok value, between) ∧
        between.perform (next value).run = (.ok result, later) :=
  Program.run_bind_eq_ok_iff

theorem perform_printLine
    (line : String)
    (world : Surroundings) :
    world.perform (CommandProgram.printLine line).run =
      (.ok (), { world with printed := world.printed ++ line ++ "\n" }) :=
  rfl

/-- A program that uses files alone changes nothing but the tree of files. -/
theorem perform_embed
    (program : Program FileDialogue α)
    (world : Surroundings) :
    world.perform (program.embed CommandQuestion.file fun _ reply => reply) =
      ((world.tree.perform program).1, { world with tree := (world.tree.perform program).2 }) := by
  induction program generalizing world with
  | done result => rfl
  | ask question next inductionHypothesis =>
      exact inductionHypothesis (FileTree.answer question world.tree).1
        { world with tree := (FileTree.answer question world.tree).2 }

/-- A step with files succeeds as it does on the tree of files. -/
theorem perform_withFiles_eq_ok_iff
    {wrap : ε → CommandError}
    {step : ExceptT ε (Program FileDialogue) α}
    {value : α} :
    world.perform (CommandProgram.withFiles wrap step).run = (.ok value, later) ↔
      ∃ tree, world.tree.perform step.run = (.ok value, tree) ∧
        later = { world with tree := tree } := by
  rw [CommandProgram.withFiles]
  refine Program.run_adapt_eq_ok_iff.trans ?_
  change world.perform _ = _ ↔ _
  rw [ExceptT.run_mk, perform_embed]
  constructor
  · intro performed
    obtain ⟨done, rfl⟩ := Prod.mk.inj performed
    exact ⟨_, Prod.ext done rfl, rfl⟩
  · rintro ⟨tree, done, rfl⟩
    rw [done]

/-- Surroundings without files, where nothing has been printed. -/
def quiet : Surroundings where
  tree := .empty
  environment := []

end Surroundings
end Command
end Valset
