import Databind.Session.Machine

/-!
# `Session.Transcript` — what a host sees of a session

A host gives commands one after the other. A transcript has a row for each: the answer, the events and the
notices in between, and what some further commands, the watch, answer right after it. The events and
notices of the watch itself are left out, and so are notices less severe than the host asked for.

## Main definitions

* `Session.run` — carry out one command to its end.
* `Scenario.transcript` — the rows of a whole scenario, from the session without objects.
-/

namespace Databind

/-- What a host sees of one command. -/
structure Row where
  answer : Outcome
  events : List Event
  notices : List Notice
  watched : List Outcome

/-- The commands of a host. -/
structure Scenario where
  commands : List Command
  /-- Commands to carry out after each of them. -/
  watch : List Command
  /-- The least severe notices to show; without it none are shown. -/
  threshold : Option Severity

/-- Whether a notice is severe enough. -/
def Notice.passes (threshold : Option Severity) (n : Notice) : Bool :=
  threshold.any fun severity => decide (n.severity.rank ≤ severity.rank)

namespace Session

/-- Carry out a command to its end: the session after it, and the answer. -/
def run (s : Session) (c : Command) : Session × Outcome :=
  let m := (Machine.start s c).run
  (m.session, m.answer)

/-- Carry out commands one after the other: the session after them, and their answers. -/
def runAll (s : Session) : List Command → Session × List Outcome
  | [] => (s, [])
  | c :: rest =>
    let (s, outcome) := s.run c
    let (s, outcomes) := s.runAll rest
    (s, outcome :: outcomes)

/-- What was observed since the journal was last emptied. -/
def journal (s : Session) : Journal := s.workspace.store.journal

/-- The session with an empty journal. -/
def emptyJournal (s : Session) : Session := s.withStore s.workspace.store.emptyJournal

end Session

namespace Scenario

/-- The row of one command, and the session after it and the watch. -/
def row (scenario : Scenario) (s : Session) (c : Command) : Session × Row :=
  let (s, answer) := s.emptyJournal.run c
  let journal := s.journal
  let (s, watched) := s.runAll scenario.watch
  (s, ⟨answer, journal.events, journal.notices.filter (·.passes scenario.threshold), watched⟩)

/-- The rows of commands that follow each other. -/
def rows (scenario : Scenario) (s : Session) : List Command → List Row
  | [] => []
  | c :: rest =>
    let (s, row) := scenario.row s c
    row :: scenario.rows s rest

/-- **The transcript of a scenario.** -/
def transcript (scenario : Scenario) : List Row := scenario.rows .empty scenario.commands

end Scenario

end Databind
