import CommandLine.Proofs.ToolRuns
import Mathlib.Data.List.TakeWhile

namespace CommandLine.Tool

section Words

variable {elements argv : List Text} {element : Text} {word : Word}

theorem ofElements_cons (other : element ≠ "--".toText) (means : Word.ofElement element = .ok word) (rest : List Text) :
    Word.ofElements (element :: rest) = (Word.ofElements rest).map ((element, word) :: ·) := by
  rw [Word.ofElements, if_neg other, means]
  cases Word.ofElements rest <;> rfl

theorem ofElements_separator (argv : List Text) :
    Word.ofElements ("--".toText :: argv) = .ok (("--".toText, .separator) :: argv.map (·, .operand)) := by
  rw [Word.ofElements, if_pos rfl]

theorem ofElement_operand (plain : element.head? ≠ some (.scalar '-')) : Word.ofElement element = .ok .operand := by
  rw [Word.ofElement, if_pos plain]

theorem ne_separator (plain : element.head? ≠ some (.scalar '-')) : element ≠ "--".toText := by
  rintro rfl
  exact plain rfl

end Words

section Flags

variable {convention : Convention} {reading next : Reading} {flags more : List (Flag × Text)}
  {elements others : List Text}

theorem setAll_append (reading : Reading) (flags more : List (Flag × Text)) :
    reading.setAll convention (flags ++ more) =
      (reading.setAll convention flags).bind (·.setAll convention more) := by
  induction flags generalizing reading with
  | nil => rfl
  | cons given flags ih =>
      rw [List.cons_append, Reading.setAll, Reading.setAll]
      cases reading.settings.set convention given.1 given.2 with
      | ok settings => exact ih _
      | error stop => rfl

theorem setAll_keeps (set : reading.setAll convention flags = .ok next) :
    next = { reading with settings := next.settings } := by
  induction flags generalizing reading with
  | nil =>
      cases set
      rfl
  | cons given flags ih =>
      rw [Reading.setAll] at set
      cases first : reading.settings.set convention given.1 given.2 with
      | ok settings =>
          rw [first] at set
          have kept := ih set
          exact kept
      | error stop =>
          rw [first] at set
          cases set

/-- Elements that are read as flags with their values, whatever follows them. -/
def Gives (convention : Convention) (elements : List Text) (flags : List (Flag × Text)) : Prop :=
  ∃ words : List (Text × Word),
    (∀ rest, Word.ofElements (elements ++ rest) = (Word.ofElements rest).map (words ++ ·)) ∧
      ∀ (reading : Reading) (rest : List (Text × Word)), reading.pending = none → reading.place = .betweenGroups →
        reading.readFrom convention (words ++ rest) =
          (reading.setAll convention flags).bind (·.readFrom convention rest)

theorem gives_nil : Gives convention [] [] := by
  refine ⟨[], fun rest => ?_, fun reading rest _ _ => rfl⟩
  cases given : Word.ofElements rest <;> simp [given, Except.map]

theorem Gives.append (first : Gives convention elements flags) (second : Gives convention others more) :
    Gives convention (elements ++ others) (flags ++ more) := by
  obtain ⟨words, split, read⟩ := first
  obtain ⟨further, splitMore, readMore⟩ := second
  refine ⟨words ++ further, fun rest => ?_, fun reading rest awaits between => ?_⟩
  · rw [List.append_assoc, split, splitMore]
    cases Word.ofElements rest <;> simp [Except.map]
  · rw [List.append_assoc, read reading _ awaits between, setAll_append]
    cases set : reading.setAll convention flags with
    | error stop => rfl
    | ok next =>
        have kept := setAll_keeps set
        have free : next.pending = none := by rw [kept, awaits]
        have apart : next.place = .betweenGroups := by rw [kept, between]
        exact readMore next rest free apart

theorem gives_flatMap {α : Type} {items : List α} {elements : α → List Text} {flags : α → List (Flag × Text)}
    (each : ∀ item ∈ items, Gives convention (elements item) (flags item)) :
    Gives convention (items.flatMap elements) (items.flatMap flags) := by
  induction items with
  | nil => exact gives_nil
  | cons item items ih =>
      rw [List.flatMap_cons, List.flatMap_cons]
      exact (each item List.mem_cons_self).append (ih fun other member => each other (List.mem_cons_of_mem item member))

theorem flags_between (convention : Convention) {cluster : Cluster} (awaits : reading.pending = none)
    (between : reading.place = .betweenGroups) (whole : cluster.unread = none) :
    ({ reading with pending := none } : Reading).flags convention cluster =
      reading.setAll convention cluster.flags := by
  rw [Reading.flags, whole, Option.toList_none, List.append_nil, ← between, ← awaits]

theorem gives_element (element : Text) {flag : Flag} {attached : Option Attached}
    (other : element ≠ "--".toText) (means : Word.ofElement element = .ok (.flag flag attached))
    (holds : Cluster.ofFlag convention flag attached = .ok ⟨flags, none, none⟩) :
    Gives convention [element] flags := by
  refine ⟨[(element, .flag flag attached)], fun rest => ofElements_cons other means rest, ?_⟩
  intro reading rest awaits between
  have step : reading.step convention element (.flag flag attached) = reading.setAll convention flags := by
    have whole : (⟨flags, none, none⟩ : Cluster).unread = none := rfl
    have set := flags_between convention awaits between whole
    rw [← awaits] at set
    simp only [Reading.step, awaits, holds, Reading.cluster]
    exact set
  rw [List.singleton_append, Reading.readFrom, step]
  cases reading.setAll convention flags <;> rfl

theorem gives_pair (element : Text) {value : Text} {flag : Flag} (other : element ≠ "--".toText)
    (means : Word.ofElement element = .ok (.flag flag none)) (takes : flag.takesValue = true)
    (plain : value.head? ≠ some (.scalar '-')) : Gives convention [element, value] [(flag, value)] := by
  refine ⟨[(element, .flag flag none), (value, .operand)], fun rest => ?_, ?_⟩
  · have later := ofElements_cons (ne_separator plain) (ofElement_operand plain) rest
    rw [List.cons_append, ofElements_cons other means, List.singleton_append, later]
    cases Word.ofElements rest <;> rfl
  · intro reading rest awaits between
    have bare : Cluster.ofFlag convention flag none = .ok ⟨[], some flag, none⟩ := by
      rw [Cluster.ofFlag, Cluster.bare, if_pos takes]
    have first : reading.step convention element (.flag flag none) =
        .ok { reading with pending := some (⟨[], some flag, none⟩, flag) } := by
      simp only [Reading.step, awaits, bare, Reading.cluster]
    have second :
        ({ reading with pending := some (⟨[], some flag, none⟩, flag) } : Reading).step convention value .operand =
          reading.setAll convention [(flag, value)] := by
      simp only [Reading.step, List.nil_append]
      exact flags_between convention awaits between rfl
    rw [List.cons_append, Reading.readFrom, first]
    simp only [List.singleton_append, Reading.readFrom, second]
    cases reading.setAll convention [(flag, value)] <;> rfl

end Flags

section Vectors

variable {convention : Convention} {reading : Reading} {elements argv : List Text} {flags : List (Flag × Text)}
  {settings : Settings} {table : GivenPath}

theorem readFrom_operands (reading : Reading) {given : List Text} (awaits : reading.pending = none)
    (inside : reading.place = .inArguments) (holds : reading.argv = some given) (argv : List Text) :
    reading.readFrom convention (argv.map (·, .operand)) = .ok { reading with argv := some (given ++ argv) } := by
  induction argv generalizing reading given with
  | nil =>
      rw [List.append_nil, ← holds]
      rfl
  | cons element argv ih =>
      have step : reading.step convention element .operand =
          .ok { reading with argv := some (given ++ [element]) } := by
        simp only [Reading.step, awaits, Reading.operand, inside, Reading.argument, holds, Option.getD_some]
      rw [List.map_cons, Reading.readFrom, step]
      have later := ih { reading with argv := some (given ++ [element]) } awaits inside rfl
      rw [List.append_assoc] at later
      exact later

theorem readFrom_separator (convention : Convention) (reading : Reading) (awaits : reading.pending = none)
    (between : reading.place = .betweenGroups) (unread : reading.argv = none) (argv : List Text) :
    reading.readFrom convention (("--".toText, .separator) :: argv.map (·, .operand)) =
      .ok { reading with argv := some argv, place := .inArguments } := by
  have step : reading.step convention "--".toText .separator =
      .ok { reading with argv := some [], place := .inArguments } := by
    simp only [Reading.step, awaits, Reading.separator, between, unread]
  rw [Reading.readFrom, step]
  exact readFrom_operands { reading with argv := some [], place := .inArguments } awaits rfl rfl argv

theorem ofArguments_of_gives (gives : Gives convention elements flags)
    (set : ({} : Reading).setAll convention flags = .ok { settings })
    (named : settings.table = some table) (argv : List Text) :
    Invocation.ofArguments convention (elements ++ "--".toText :: argv) =
      .ok ⟨table, settings.verbosity, settings.format, settings.inOrder, settings.output, argv⟩ := by
  obtain ⟨words, split, read⟩ := gives
  have vector := readFrom_separator convention { settings } rfl rfl rfl argv
  rw [Invocation.ofArguments, split, ofElements_separator]
  simp only [Except.map, read {} _ rfl rfl, set, Except.bind, vector, Reading.complete, named, Option.getD_some]

end Vectors

section Choices

def Format.word : Format → Text
  | plain => "text".toText
  | structured => "json".toText

/-- What may be chosen before the separator. One element may ask to hear more than once. -/
inductive Choice where
  | format (chosen : Format)
  | inOrder
  | verbose (again : Nat)

namespace Choice

def elements : Choice → List Text
  | format chosen => ["-f".toText, chosen.word]
  | inOrder => ["--in-order".toText]
  | verbose again => ['-' :: 'v' :: List.replicate again (.scalar 'v')]

def flags : Choice → List (Flag × Text)
  | format chosen => [(.format, chosen.word)]
  | inOrder => [(.inOrder, [])]
  | verbose again => List.replicate (again + 1) (.verbose, [])

def format? : Choice → Option Format
  | format chosen => some chosen
  | _ => none

def isInOrder : Choice → Bool
  | inOrder => true
  | _ => false

def verbosity : Choice → Nat
  | verbose again => again + 1
  | _ => 0

def formatOf (choices : List Choice) : Format := (choices.filterMap format?).getLast?.getD .plain

def verbosityOf : List Choice → Nat
  | [] => 0
  | choice :: rest => choice.verbosity + verbosityOf rest

end Choice

theorem splitAtEquals_of_notMem {text : Text} (absent : .scalar '=' ∉ text) :
    Word.splitAtEquals text = (text, none) := by
  have all : text.dropWhile (· ≠ .scalar '=') = [] := by
    rw [List.dropWhile_eq_nil_iff]
    intro c member
    have other : c ≠ '=' := by
      rintro rfl
      exact absent member
    simpa using other
  rw [Word.splitAtEquals, all]

theorem ofElement_again (again : Nat) :
    Word.ofElement ('-' :: 'v' :: 'v' :: List.replicate again (.scalar 'v')) =
      .ok (.flag .verbose (some (.toShort false ('v' :: List.replicate again (.scalar 'v'))))) := by
  generalize more : List.replicate again (CodePoint.scalar 'v') = marks
  have absent : .scalar '=' ∉ .scalar '-' :: .scalar 'v' :: .scalar 'v' :: marks := by simp [← more]
  have unspelled : Flag.ofSpelling? ('-' :: 'v' :: 'v' :: marks) = none := rfl
  have several : ('-' :: 'v' :: 'v' :: marks : Text).length ≠ 1 := by simp
  have reading : Word.readings ('-' :: 'v' :: 'v' :: marks) =
      [("-v".toText, .flag .verbose (some (.toShort false ('v' :: marks))))] := rfl
  rw [Word.ofElement, if_neg (by simp), unspelled]
  simp only [if_neg several, Word.ofSplit, splitAtEquals_of_notMem absent, Word.ofUnspelled, reading]

theorem ofText_cons (convention : Convention) (more : Text) :
    Cluster.ofText convention .verbose false ('v' :: 'v' :: more) =
      (Cluster.ofText convention .verbose false ('v' :: more)).map (.cons .verbose) := by
  cases convention <;> rfl

theorem ofText_again (convention : Convention) (again : Nat) :
    Cluster.ofText convention .verbose false ('v' :: List.replicate again (.scalar 'v')) =
      .ok ⟨List.replicate (again + 2) (.verbose, []), none, none⟩ := by
  induction again with
  | zero => cases convention <;> rfl
  | succ again ih =>
      rw [List.replicate_succ, ofText_cons, ih]
      rfl

theorem gives_choice (convention : Convention) (choice : Choice) :
    Gives convention choice.elements choice.flags := by
  cases choice with
  | format chosen =>
      have plain : chosen.word.head? ≠ some (.scalar '-') := by cases chosen <;> decide
      exact gives_pair "-f".toText (by decide) rfl rfl plain
  | inOrder => exact gives_element "--in-order".toText (by decide) rfl rfl
  | verbose again =>
      cases again with
      | zero => exact gives_element "-v".toText (by decide) rfl rfl
      | succ again =>
          have other : .scalar '-' :: .scalar 'v' :: List.replicate (again + 1) (.scalar 'v') ≠ "--".toText := by
            simp [String.toText, Text.ofScalars]
          exact gives_element _ other (ofElement_again again) (ofText_again convention again)

variable {convention : Convention}

theorem setAll_verbose (settings : Settings) (count : Nat) :
    ({ settings } : Reading).setAll convention (List.replicate count (.verbose, [])) =
      .ok { settings := { settings with verbosity := settings.verbosity + count } } := by
  induction count generalizing settings with
  | zero => rfl
  | succ count ih =>
      have later := ih { settings with verbosity := settings.verbosity + 1 }
      rw [List.replicate_succ, Reading.setAll]
      simp only [Settings.set, later, Nat.add_assoc, Nat.add_comm 1]

theorem setAll_format (settings : Settings) (chosen : Format) :
    ({ settings } : Reading).setAll convention [(.format, chosen.word)] =
      .ok { settings := { settings with format := chosen } } := by
  cases chosen <;> cases convention <;> rfl

/-- Formats replace each other, and verbosity adds up, by induction on the choices. -/
theorem setAll_choices (convention : Convention) (settings : Settings) (choices : List Choice) :
    ({ settings } : Reading).setAll convention (choices.flatMap Choice.flags) =
      .ok { settings := { settings with
        verbosity := settings.verbosity + Choice.verbosityOf choices
        format := (choices.filterMap Choice.format?).getLast?.getD settings.format
        inOrder := settings.inOrder || choices.any Choice.isInOrder } } := by
  induction choices generalizing settings with
  | nil => simp [Reading.setAll, Choice.verbosityOf]
  | cons choice choices ih =>
      rw [List.flatMap_cons, setAll_append]
      cases choice with
      | format chosen =>
          rw [Choice.flags, setAll_format]
          simp [Except.bind, ih, Choice.verbosityOf, Choice.verbosity, Choice.isInOrder, Choice.format?,
            List.getLast?_cons]
      | inOrder =>
          have set : ({ settings } : Reading).setAll convention Choice.inOrder.flags =
              .ok { settings := { settings with inOrder := true } } := rfl
          rw [set]
          simp [Except.bind, ih, Choice.verbosityOf, Choice.verbosity, Choice.isInOrder, Choice.format?]
      | verbose again =>
          rw [Choice.flags, setAll_verbose]
          simp [Except.bind, ih, Choice.verbosityOf, Choice.verbosity, Choice.isInOrder, Choice.format?, Nat.add_assoc]

end Choices

section Lines

variable {path : Text}

/-- A path that begins with no minus sign, choices, and a vector of any elements behind the separator. -/
def requestLine (path : Text) (choices : List Choice) (argv : List Text) : List Text :=
  "-t".toText :: path :: (choices.flatMap Choice.elements ++ "--".toText :: argv)

def requested (table : GivenPath) (choices : List Choice) (argv : List Text) : Invocation :=
  ⟨table, Choice.verbosityOf choices, Choice.formatOf choices, choices.any Choice.isInOrder, none, argv⟩

theorem ofArguments_choices {convention : Convention} {first : List Text} {value : Text}
    (table : Gives convention first [(.table, value)]) (choices : List Choice) (argv : List Text) :
    Invocation.ofArguments convention (first ++ choices.flatMap Choice.elements ++ "--".toText :: argv) =
      .ok (requested (.ofValue convention value) choices argv) := by
  have gives := table.append (gives_flatMap fun choice (_ : choice ∈ choices) => gives_choice convention choice)
  have set := setAll_choices convention { table := some (.ofValue convention value) } choices
  rw [ofArguments_of_gives gives set rfl argv]
  simp [requested, Choice.formatOf]

theorem ofArguments_requestLine (convention : Convention) (plain : path.head? ≠ some (.scalar '-'))
    (choices : List Choice) (argv : List Text) :
    Invocation.ofArguments convention (requestLine path choices argv) =
      .ok (requested (.path path) choices argv) := by
  have table : Gives convention ["-t".toText, path] [(.table, path)] := gives_pair _ (by decide) rfl rfl plain
  have kept : convention.drops path = false := by simp [Convention.drops, ne_separator plain]
  have named : GivenPath.ofValue convention path = .path path := by
    rw [GivenPath.ofValue, kept, if_neg Bool.false_ne_true]
  rw [← named]
  exact ofArguments_choices table choices argv

end Lines

end CommandLine.Tool
