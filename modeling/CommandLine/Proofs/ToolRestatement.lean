import CommandLine.Proofs.ToolRequest

namespace CommandLine.Tool

section Tables

variable {convention : Convention} {settings : Settings} {reading next : Reading} {flags : List (Flag × Text)}
  {invocation : Invocation}

def Settings.Proper (convention : Convention) (settings : Settings) : Prop :=
  ∀ table, settings.table = some table → ∃ value, table = .ofValue convention value

theorem proper_set {flag : Flag} {value : Text} {changed : Settings} (proper : settings.Proper convention)
    (set : settings.set convention flag value = .ok changed) : changed.Proper convention := by
  cases flag with
  | help => cases set
  | version => cases set
  | table =>
      cases set
      rintro table ⟨⟩
      exact ⟨value, rfl⟩
  | format =>
      rw [Settings.set] at set
      split at set
      · cases set
        exact proper
      · split at set <;> cases set
        exact proper
  | _ =>
      cases set
      exact proper

theorem proper_setAll (proper : reading.settings.Proper convention)
    (set : reading.setAll convention flags = .ok next) : next.settings.Proper convention := by
  induction flags generalizing reading with
  | nil =>
      cases set
      exact proper
  | cons given flags ih =>
      rw [Reading.setAll] at set
      cases first : reading.settings.set convention given.1 given.2 with
      | ok settings =>
          rw [first] at set
          exact ih (proper_set proper first) set
      | error stop =>
          rw [first] at set
          cases set

theorem proper_flags {cluster : Cluster} (proper : reading.settings.Proper convention)
    (taken : reading.flags convention cluster = .ok next) : next.settings.Proper convention := by
  rw [Reading.flags] at taken
  refine proper_setAll ?_ taken
  exact proper

theorem proper_step {element : Text} {word : Word} (proper : reading.settings.Proper convention)
    (step : reading.step convention element word = .ok next) : next.settings.Proper convention := by
  cases given : reading.pending with
  | some waiting =>
      cases word with
      | operand =>
          simp only [Reading.step, given] at step
          refine proper_flags ?_ step
          exact proper
      | _ => simp [Reading.step, given] at step
  | none =>
      cases word with
      | operand =>
          simp only [Reading.step, given, Except.ok.injEq] at step
          have kept : (reading.operand element).settings = reading.settings := by
            rw [Reading.operand]
            split <;> rfl
          rw [← step, kept]
          exact proper
      | separator =>
          simp only [Reading.step, given, Except.ok.injEq] at step
          have kept : (reading.separator element).settings = reading.settings := by
            rw [Reading.separator]
            split <;> rfl
          rw [← step, kept]
          exact proper
      | unknown =>
          simp only [Reading.step, given, Except.ok.injEq] at step
          rw [← step]
          exact proper
      | flag flag attached =>
          simp only [Reading.step, given] at step
          cases holds : Cluster.ofFlag convention flag attached with
          | error problem => simp [holds] at step
          | ok cluster =>
              simp only [holds, Reading.cluster] at step
              split at step
              · exact proper_flags proper step
              · cases step
                exact proper

theorem proper_readFrom {words : List (Text × Word)} (proper : reading.settings.Proper convention)
    (read : reading.readFrom convention words = .ok next) : next.settings.Proper convention := by
  induction words generalizing reading with
  | nil =>
      cases read
      exact proper
  | cons entry words ih =>
      rw [Reading.readFrom] at read
      cases step : reading.step convention entry.1 entry.2 with
      | ok between =>
          rw [step] at read
          exact ih (proper_step proper step) read
      | error stop =>
          rw [step] at read
          cases read

theorem table_of_complete (complete : reading.complete = .ok invocation) :
    reading.settings.table = some invocation.table := by
  cases awaits : reading.pending with
  | some waiting => simp [Reading.complete, awaits] at complete
  | none =>
      cases given : reading.settings.table with
      | none => simp [Reading.complete, awaits, given] at complete
      | some table =>
          cases left : reading.extras with
          | nil =>
              simp only [Reading.complete, awaits, given, left, Except.ok.injEq] at complete
              rw [← complete]
          | cons element rest => simp [Reading.complete, awaits, given, left] at complete

theorem exists_value {arguments : List Text} (request : Invocation.ofArguments convention arguments = .ok invocation) :
    ∃ value, invocation.table = .ofValue convention value := by
  cases means : Word.ofElements arguments with
  | error problem => simp [Invocation.ofArguments, means] at request
  | ok words =>
      cases read : Reading.readFrom convention {} words with
      | error stop => simp [Invocation.ofArguments, means, read] at request
      | ok reading =>
          simp only [Invocation.ofArguments, means, read] at request
          have start : ({} : Settings).Proper convention := by
            intro table given
            cases given
          exact proper_readFrom start read invocation.table (table_of_complete request)

end Tables

section Lines

variable {convention : Convention} {invocation : Invocation}

def GivenPath.value : GivenPath → Text
  | .path text => text
  | .dropped => "--".toText

def Invocation.choices (invocation : Invocation) : List Choice :=
  .format invocation.format :: (if invocation.inOrder then [.inOrder] else []) ++
    List.replicate invocation.verbosity (.verbose 0)

/-- A line that asks for all that an invocation asks for, but for the report on the standard output. -/
def Invocation.bareLine (invocation : Invocation) : List Text :=
  ["--table=".toText ++ invocation.table.value] ++ invocation.choices.flatMap Choice.elements ++
    "--".toText :: invocation.argv

theorem gives_table (convention : Convention) (value : Text) :
    Gives convention ["--table=".toText ++ value] [(.table, value)] := by
  have unspelled : Flag.ofSpelling? ("--table=".toText ++ value) = none := rfl
  have split : Word.splitAtEquals ("--table=".toText ++ value) = ("--table".toText, some value) := rfl
  have several : ("--table=".toText ++ value).length ≠ 1 := by simp [String.toText, Text.ofScalars]
  have means : Word.ofElement ("--table=".toText ++ value) = .ok (.flag .table (some (.toLong value))) := by
    rw [Word.ofElement, if_neg (by simp [String.toText, Text.ofScalars]), unspelled]
    simp only [if_neg several, Word.ofSplit, split]
    rfl
  exact gives_element _ (by simp [String.toText, Text.ofScalars]) means rfl

theorem requested_choices (invocation : Invocation) :
    requested invocation.table invocation.choices invocation.argv = { invocation with output := none } := by
  have formats : invocation.choices.filterMap Choice.format? = [invocation.format] := by
    cases given : invocation.inOrder <;> simp [Invocation.choices, given, Choice.format?]
  have order : invocation.choices.any Choice.isInOrder = invocation.inOrder := by
    cases given : invocation.inOrder <;> simp [Invocation.choices, given, Choice.isInOrder]
  have again (count : Nat) : Choice.verbosityOf (List.replicate count (.verbose 0)) = count := by
    induction count with
    | zero => rfl
    | succ count ih => rw [List.replicate_succ, Choice.verbosityOf, ih, Choice.verbosity, Nat.add_comm]
  have marks : Choice.verbosityOf invocation.choices = invocation.verbosity := by
    cases given : invocation.inOrder <;>
      simp [Choice.verbosityOf, Invocation.choices, given, Choice.verbosity, again]
  rw [requested, Choice.formatOf, formats, order, marks]
  rfl

theorem ofValue_value (convention : Convention) (value : Text) :
    GivenPath.ofValue convention (GivenPath.ofValue convention value).value = .ofValue convention value := by
  cases drops : convention.drops value with
  | false => simp [GivenPath.ofValue, drops, GivenPath.value]
  | true =>
      have spelled : value = "--".toText := by
        simp only [Convention.drops, Bool.decide_and, Bool.and_eq_true, decide_eq_true_eq] at drops
        exact drops.2
      have again : (GivenPath.ofValue convention value).value = value := by
        rw [GivenPath.ofValue, drops, spelled]
        rfl
      rw [again]

/-- What can be asked for on a command line can also be asked for without an output. -/
theorem ofArguments_bareLine {arguments : List Text}
    (request : Invocation.ofArguments convention arguments = .ok invocation) :
    Invocation.ofArguments convention invocation.bareLine = .ok { invocation with output := none } := by
  obtain ⟨value, table⟩ := exists_value request
  have same : GivenPath.ofValue convention invocation.table.value = invocation.table := by
    rw [table, ofValue_value]
  rw [Invocation.bareLine, ofArguments_choices (gives_table convention invocation.table.value), same]
  exact congrArg Except.ok (requested_choices invocation)

end Lines

end CommandLine.Tool
