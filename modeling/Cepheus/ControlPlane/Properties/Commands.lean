import Cepheus.Agent.Executors
import Cepheus.ControlPlane.Properties.Typed
import Cepheus.Scamper.Wire

/-!
# From what is typed to what scamper is told

The executors put the target of a task into a command as it is, and a command on the connection
ends with its line. A target with a blank or a newline in it would be further arguments or a
further command. The form lets no such target pass, and nothing on the way to the executor adds one
(`commands_as_typed`).

* `Entry.words` - the words of the command that is asked for
* `Says` - a command is one line, of these words
-/

namespace Cepheus.ControlPlane

open Infra Server Dashboard

variable {S U : Type} [DecidableEq S] [DecidableEq U]

/-- The words of the command for scamper, if the task has one. -/
def Entry.words (e : Entry) : List String :=
  match e.type with
  | .ping => ["ping", e.target]
  | .trace => ["trace", "-P", "icmp-paris", e.target]
  | .stampSender => []
  | .stampReflector => []

/-- The command has these words, and what is written for it is read as one line. -/
structure Says (command : String) (words : List String) : Prop where
  words : command.toList.splitOn ' ' = words.map String.toList
  line : ∀ rest, Scamper.readString (Agent.sent command ++ rest) =
    some (utf8 command.toList, rest)

/-! ## Lines -/

theorem readString_sent {command : String} (h : '\n' ∉ command.toList) (rest : List UInt8) :
    Scamper.readString (Agent.sent command ++ rest) = some (utf8 command.toList, rest) := by
  have hnewline : utf8 ['\n'] = [Scamper.newline] := by decide +kernel
  have hline : Scamper.newline ∉ utf8 command.toList :=
    fun hmem => h (mem_of_ascii_mem_utf8 (by decide) hmem)
  rw [Agent.sent, utf8_append, hnewline, List.append_assoc, List.singleton_append]
  exact Scamper.readString_line hline rest

/-- Words without blanks and newlines in them make one line. -/
theorem says_of_plain {command : String} {words : List String} (hne : words ≠ [])
    (hplain : ∀ word ∈ words, ∀ c ∈ word.toList, c ≠ ' ' ∧ c ≠ '\n')
    (hcommand : command.toList = [' '].intercalate (words.map String.toList)) :
    Says command words where
  words := by
    rw [hcommand]
    refine List.splitOn_intercalate ' ' ?_ (by simpa using hne)
    intro l hl hblank
    obtain ⟨word, hword, rfl⟩ := List.mem_map.mp hl
    exact (hplain word hword ' ' hblank).1 rfl
  line := by
    refine readString_sent fun hmem => ?_
    rw [hcommand] at hmem
    rcases mem_of_mem_intercalate hmem with hblank | ⟨l, hl, hc⟩
    · exact absurd hblank (by decide)
    · obtain ⟨word, hword, rfl⟩ := List.mem_map.mp hl
      exact (hplain word hword '\n' hc).2 rfl

/-! ## Commands -/

theorem targetChar_plain {c : Char} (h : targetChar c = true) : c ≠ ' ' ∧ c ≠ '\n' := by
  constructor <;> rintro rfl <;> exact absurd h (by decide)

variable {inspect : String → String} {row : Dashboard.Row} {e : Entry}

theorem Asks.plain (h : Asks inspect row e) :
    ∀ word ∈ e.words, ∀ c ∈ word.toList, c ≠ ' ' ∧ c ≠ '\n' := by
  have htarget : e.type.hasTarget = true → ∀ c ∈ e.target.toList, c ≠ ' ' ∧ c ≠ '\n' :=
    fun hhas c hc => targetChar_plain ((h.target_chars hhas).2 c hc)
  cases htype : e.type with
  | ping =>
    rw [htype] at htarget
    simp only [Entry.words, htype, List.forall_mem_cons]
    exact ⟨by simp, htarget rfl, by simp⟩
  | trace =>
    rw [htype] at htarget
    simp only [Entry.words, htype, List.forall_mem_cons]
    exact ⟨by simp, by simp, by simp, htarget rfl, by simp⟩
  | stampSender | stampReflector => simp [Entry.words, htype]

/-- The command of a task that is asked for. -/
theorem Entry.command_task {taskID : String} {generation : Int32} {command : String}
    (h : command ∈ (e.task taskID generation).command) :
    e.words ≠ [] ∧ command.toList = [' '].intercalate (e.words.map String.toList) := by
  cases htype : e.type with
  | ping | trace =>
    simp only [Entry.task, Agent.Task.command, agentType, Entry.params, htype, Option.mem_def,
      Option.some.injEq] at h
    subst h
    simp [Entry.words, htype, List.intercalate]
  | stampSender | stampReflector =>
    simp [Entry.task, Agent.Task.command, agentType, Entry.params, htype] at h

namespace System

/--
**Scamper is told what was typed.**

At the end of every run: a command that an executor gives to scamper is that of a task that the
tables had for the agent in the beginning; or somebody has typed a row in the form that passes its
checks, and the command is one line with the words of what this row asks for.
-/
theorem commands_as_typed (d : Deployment U) (db₀ : Database U) (moves : List (Move S U)) :
    ∀ x ∈ (run (step d) (start db₀) moves).agent.supervisor.executions,
      ∀ command ∈ x.1.command, Stored d db₀ x.1 ∨
        ∃ row e, Typed moves row ∧ Asks d.inspect row e ∧ Says command e.words := by
  intro x hx command hcommand
  obtain ⟨hsound, hsourced⟩ := typed_run d db₀ moves
  rcases executed_sourced hsound hsourced hx with hold | ⟨row, e, id, generation, hrow⟩
  · exact .inl hold
  · obtain ⟨htyped, hasks, -, htask⟩ := hrow
    rw [htask] at hcommand
    obtain ⟨hne, htext⟩ := Entry.command_task hcommand
    exact .inr ⟨row, e, htyped, hasks, says_of_plain hne hasks.plain htext⟩

theorem ping_command_as_typed :
    let st := run (step edgeDeployment) (start Dashboard.System.emptyDatabase) saveAndPing
    ∃ x ∈ st.agent.supervisor.executions, ∃ command ∈ x.1.command,
      Stored edgeDeployment Dashboard.System.emptyDatabase x.1 ∨
        ∃ row e, Typed saveAndPing row ∧ Asks edgeDeployment.inspect row e ∧
          Says command e.words := by
  intro st
  have hany : st.agent.supervisor.executions.any (fun x => x.1.command.isSome) = true := by
    decide +kernel
  obtain ⟨x, hx, hsome⟩ := List.any_eq_true.mp hany
  obtain ⟨command, hcommand⟩ := Option.isSome_iff_exists.mp hsome
  exact ⟨x, hx, command, hcommand,
    commands_as_typed edgeDeployment _ saveAndPing x hx command hcommand⟩

end System

end Cepheus.ControlPlane
