import Fauxchange.Exchange.Executor
import Fauxchange.Exchange.Reexecution
import Mathlib.Logic.Function.Basic

/-! The commands of a venue in the order of their commits. Each underlying has its own executor, and its own
sequence; the actors take turns in any order. -/

namespace Fauxchange.Exchange

/-- A command and the underlying whose actor commits it. -/
structure Commit where
  underlying : String
  command : JournalCommand

/-- A client order id counts within its account. -/
abbrev ClientKey := AccountId × ClientOrderId

/-- The executors of the hosted underlyings. -/
abbrev Executors (U : Upstream) := String → MatchingExecutor U

/-- Every underlying hands out its sequences in ascending order. -/
def Ascending (commits : List Commit) : Prop :=
  commits.Pairwise fun early late =>
    early.underlying = late.underlying → early.command.sequence < late.command.sequence

/-- The commands of one underlying. -/
def commandsOn (underlying : String) (commits : List Commit) : List JournalCommand :=
  (commits.filter fun commit => commit.underlying = underlying).map Commit.command

theorem commandsOn_append (underlying : String) (early late : List Commit) :
    commandsOn underlying (early ++ late) = commandsOn underlying early ++ commandsOn underlying late := by
  unfold commandsOn
  rw [List.filter_append, List.map_append]

/-- The events of one underlying. -/
def eventsOn (underlying : String) (events : List (String × VenueEvent)) : List VenueEvent :=
  (events.filter fun event => event.1 = underlying).map Prod.snd

namespace Executors
variable {U : Upstream} (lineage : LineageId)

/-- The state a commit is executed on. -/
def stateFor (executors : Executors U) (commit : Commit) : SequencedState U := (executors commit.underlying).state

def commit (executors : Executors U) (commit : Commit) : VenueEvent × Executors U :=
  let derived := deriveEvent commit.underlying lineage (executors commit.underlying) commit.command
  (derived.1, Function.update executors commit.underlying derived.2)

/-- The commits in turn, each event with its underlying. -/
def commitAll (executors : Executors U) : List Commit → List (String × VenueEvent) × Executors U
  | [] => ([], executors)
  | first :: rest =>
    let done := executors.commit lineage first
    let later := done.2.commitAll rest
    ((first.underlying, done.1) :: later.1, later.2)

/-- Every commit finds the state it is executed on as demanded. -/
def Along (holds : SequencedState U → Commit → Prop) (executors : Executors U) : List Commit → Prop
  | [] => True
  | first :: rest => holds (executors.stateFor first) first ∧ Along holds (executors.commit lineage first).2 rest

theorem commit_here (executors : Executors U) (first : Commit) :
    (executors.commit lineage first).2 first.underlying =
      (deriveEvent first.underlying lineage (executors first.underlying) first.command).2 :=
  Function.update_self ..

theorem commit_of_ne (executors : Executors U) {first : Commit} {underlying : String}
    (apart : underlying ≠ first.underlying) :
    (executors.commit lineage first).2 underlying = executors underlying :=
  Function.update_of_ne apart ..

/-- The commits of one underlying alone. -/
theorem commitAll_alone (executors : Executors U) (underlying : String) (commands : List JournalCommand) :
    (executors.commitAll lineage (commands.map (Commit.mk underlying))).1.map Prod.snd =
      (reexecute underlying lineage (executors underlying) commands).1 := by
  induction commands generalizing executors with
  | nil => rfl
  | cons command rest ih =>
    have later := ih (executors.commit lineage ⟨underlying, command⟩).2
    have here := executors.commit_here lineage ⟨underlying, command⟩
    dsimp only at here
    rw [here] at later
    simp only [List.map_cons, commitAll, reexecute, later]
    rfl

/-- What each underlying makes of the interleaving is what it makes of its own commands. -/
theorem commitAll_on (executors : Executors U) (commits : List Commit) (underlying : String) :
    reexecute underlying lineage (executors underlying) (commandsOn underlying commits) =
      (eventsOn underlying (executors.commitAll lineage commits).1, (executors.commitAll lineage commits).2 underlying) := by
  induction commits generalizing executors with
  | nil => rfl
  | cons first rest ih =>
    by_cases same : first.underlying = underlying
    · subst same
      have later := ih (executors.commit lineage first).2
      rw [commit_here] at later
      simp only [commandsOn, eventsOn, commitAll, List.filter_cons, decide_true, if_true, List.map_cons,
        reexecute] at later ⊢
      rw [later]
      rfl
    · have later := ih (executors.commit lineage first).2
      rw [executors.commit_of_ne lineage (Ne.symm same)] at later
      simp only [commandsOn, eventsOn, commitAll, List.filter_cons, same, decide_false] at later ⊢
      exact later

end Executors

end Fauxchange.Exchange
