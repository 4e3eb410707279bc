import CommandLine.Proofs.ReadValues
import CommandLine.Proofs.TableFiles
import CommandLine.Proofs.ToolRequest

namespace CommandLine.Tool

def EndsWithLine (text line : Text) : Prop :=
  ∃ before, text = before ++ line ++ [.scalar '\n'] ∧ (before = [] ∨ before.getLast? = some (.scalar '\n'))

/-- The result of decoding a vector to a session. The last line about a problem begins with the program name that the
vector gives. -/
structure Result.Tells (result : Result) (format : Format) (argv : List Text) (session : Session) : Prop where
  exit : result.exit = if session.diagnostic = none then 0 else 1
  stdout : ∃ pieces, format.written session = .ok pieces ∧ result.stdout = pieces.flatten
  stderr : ∀ d, session.diagnostic = some d → ∃ program elements, argv = program :: elements ∧
    ∀ wording, EndsWithLine (result.stderr.flatMap (Line.render wording)) (program ++ ": ".toText ++ d.message)

/-- The result if not all of the report is taken: what is shown are pieces from its front. -/
structure Result.Breaks (result : Result) (format : Format) (session : Session) : Prop where
  exit : result.exit = 2
  stdout : ∃ front, front <+: (format.written session).toOption.getD [] ∧ result.stdout = front.flatten

section Showing

variable {σ Place : Type} {system : System (StateM σ) Place} {state after : σ} {path file : Text} {table : Table}
  {invocation : Invocation} {messages : List Message}

theorem render_log {message : Message} (foreseen : message.isUnforeseen = false) (wording : Wording) :
    ∃ text, (Line.log message).render wording = text ++ [.scalar '\n'] := by
  simp only [Line.render, foreseen, Bool.false_eq_true, if_false]
  exact ⟨_, List.append_nil _⟩

theorem foreseen_scanMessages (invocation : Invocation) (table : Table) (path : Text) :
    ∀ message ∈ invocation.scanMessages table path, message.isUnforeseen = false := by
  intro message member
  have given := List.mem_of_mem_filter member
  rcases List.mem_cons.mp given with rfl | scanned
  · rfl
  · obtain ⟨text, _, rfl⟩ := List.mem_map.mp scanned
    rfl

theorem endsLines_log (foreseen : ∀ message ∈ messages, message.isUnforeseen = false) (wording : Wording) :
    (messages.map Line.log).flatMap (Line.render wording) = [] ∨
      ((messages.map Line.log).flatMap (Line.render wording)).getLast? = some (.scalar '\n') := by
  rcases List.eq_nil_or_concat messages with rfl | ⟨before, last, rfl⟩
  · exact .inl rfl
  · obtain ⟨text, written⟩ := render_log (foreseen last (by simp)) wording
    right
    simp [written]

/-- Only a vector that names its program can have a problem. -/
theorem exists_program {d : Diagnostic} (problem : (invocation.session table).diagnostic = some d) :
    ∃ program elements, invocation.argv = program :: elements := by
  cases given : invocation.argv with
  | nil =>
      rw [Invocation.session, given] at problem
      cases problem
  | cons program elements => exact ⟨program, elements, rfl⟩

theorem finished_tells (path : Text) {pieces : List Text} (written : invocation.written table = .ok pieces) :
    (Result.finished (invocation.scanMessages table path) invocation.argv pieces.flatten
      (invocation.session table).outcome).Tells invocation.format invocation.argv (invocation.session table) := by
  cases fits : (invocation.session table).diagnostic with
  | none =>
      rw [Session.outcome_of_fits fits]
      refine ⟨(if_pos fits).symm, ⟨pieces, written, rfl⟩, ?_⟩
      intro d problem
      rw [fits] at problem
      cases problem
  | some d =>
      have blamed : (invocation.session table).diagnostic ≠ none := by
        rw [fits]
        exact Option.some_ne_none d
      rw [Session.outcome_of_problem fits]
      refine ⟨(if_neg blamed).symm, ⟨pieces, written, rfl⟩, ?_⟩
      intro other problem
      obtain rfl : d = other := Option.some.inj (fits.symm.trans problem)
      obtain ⟨program, elements, argv⟩ := exists_program problem
      refine ⟨program, elements, argv, fun wording => ?_⟩
      have lines := endsLines_log (foreseen_scanMessages invocation table path) wording
      have lineFeed : "\n".toText = ['\n'] := rfl
      refine ⟨_, ?_, lines⟩
      simp [Result.finished, Result.complaint, argv, Line.render, lineFeed]

theorem ended_emit (write : Text → StateM σ (Except Trouble Unit)) (invocation : Invocation) (table : Table)
    (path : Text) (state : σ) :
    let sent := ((emit write (invocation.written table)).run state).1
    let result := invocation.ended table path sent
    (sent.2 = .ok () → result.Tells invocation.format invocation.argv (invocation.session table)) ∧
      ∀ e, sent.2 = .error e → result.Breaks invocation.format (invocation.session table) := by
  obtain ⟨front, begins, shown, whole⟩ := emit_taken write (invocation.written table) state
  intro sent
  cases given : sent with
  | mk text ending =>
      obtain ⟨rfl, rfl⟩ := Prod.mk.inj given
      cases ended : sent.2 with
      | ok _ =>
          refine ⟨fun _ => ?_, nofun⟩
          rw [Invocation.ended, shown]
          exact finished_tells path (whole ended)
      | error e =>
          refine ⟨nofun, fun _ _ => ⟨rfl, front, begins, shown⟩⟩

theorem ended_same {one two : Invocation} (same : one.session table = two.session table) (path : Text)
    (sent : Text × Except Trouble Unit) :
    (one.ended table path sent).exit = (two.ended table path sent).exit ∧
      (one.ended table path sent).stdout = (two.ended table path sent).stdout := by
  obtain ⟨shown, ending⟩ := sent
  cases ending with
  | error e => exact ⟨rfl, rfl⟩
  | ok _ =>
      rw [Invocation.ended, Invocation.ended, same]
      cases (two.session table).outcome <;> exact ⟨rfl, rfl⟩

end Showing

section Requests

variable {σ Place : Type} {system : System (StateM σ) Place} {state after : σ} {path file : Text} {table : Table}
  {message : Message} {e : Trouble}

theorem expand_of_no_user (absent : Path.user? path = none) : system.expand path = .ok (Path.tidy path) := by
  rw [System.expand, absent]

theorem run_findTable_path (expanded : system.expand path = .ok file) :
    (findTable system (.path path)).run state =
      (((loadTable system file).run state).1.map (file, ·), ((loadTable system file).run state).2) := by
  rw [findTable, expanded]
  rfl

theorem run_requestLine_homeless (plain : path.head? ≠ some (.scalar '-')) (choices : List Choice) (argv : List Text)
    (lost : system.expand path = .error e) :
    ((run system (requestLine path choices argv)).run state).1 = .failed [] [.unforeseen e] := by
  have fails : ((findTable system (.path path)).run state).1 = .error (.unforeseen e) := by
    rw [findTable, lost]
    rfl
  rw [run_eq_perform (ofArguments_requestLine system.convention plain choices argv),
    Invocation.run_perform_error fails]

theorem run_requestLine_error (plain : path.head? ≠ some (.scalar '-')) (choices : List Choice) (argv : List Text)
    (expanded : system.expand path = .ok file) (fails : ((loadTable system file).run state).1 = .error message) :
    ((run system (requestLine path choices argv)).run state).1 = .failed [] [message] := by
  have missing : ((findTable system (.path path)).run state).1 = .error message := by
    rw [run_findTable_path expanded, fails]
    rfl
  rw [run_eq_perform (ofArguments_requestLine system.convention plain choices argv),
    Invocation.run_perform_error missing]

theorem run_requestLine_ok (plain : path.head? ≠ some (.scalar '-')) (choices : List Choice) (argv : List Text)
    (expanded : system.expand path = .ok file) (loads : (loadTable system file).run state = (.ok table, after)) :
    ((run system (requestLine path choices argv)).run state).1 =
      (requested (.path path) choices argv).ended table file
        ((emit system.print ((requested (.path path) choices argv).written table)).run after).1 := by
  have found : (findTable system (requested (.path path) choices argv).table).run state =
      (.ok (file, table), after) := by
    rw [requested, run_findTable_path expanded, loads]
    rfl
  rw [run_eq_perform (ofArguments_requestLine system.convention plain choices argv),
    Invocation.run_perform_ok (congrArg Prod.fst found), Invocation.run_decode_here rfl, found]

theorem formatOf_silent (choices : List Choice) :
    Choice.formatOf (choices.filter (·.verbosity = 0)) = Choice.formatOf choices := by
  have same : (choices.filter (·.verbosity = 0)).filterMap Choice.format? = choices.filterMap Choice.format? := by
    rw [List.filterMap_filter]
    exact List.filterMap_congr fun choice _ => by cases choice <;> rfl
  rw [Choice.formatOf, same, Choice.formatOf]

theorem isInOrder_silent (choices : List Choice) :
    (choices.filter (·.verbosity = 0)).any Choice.isInOrder = choices.any Choice.isInOrder := by
  have same (choice : Choice) : (decide (choice.verbosity = 0) && choice.isInOrder) = choice.isInOrder := by
    cases choice <;> rfl
  simp only [List.any_filter, same]

/-- How much the tool is asked to say has no part in what is decoded and reported. -/
theorem requested_alike {others choices : List Choice}
    (alike : others.filter (·.verbosity = 0) = choices.filter (·.verbosity = 0)) (given : GivenPath)
    (argv : List Text) (table : Table) :
    (requested given others argv).session table = (requested given choices argv).session table ∧
      (requested given others argv).written table = (requested given choices argv).written table := by
  have format : Choice.formatOf others = Choice.formatOf choices := by
    rw [← formatOf_silent others, alike, formatOf_silent]
  have order : others.any Choice.isInOrder = choices.any Choice.isInOrder := by
    rw [← isInOrder_silent others, alike, isInOrder_silent]
  have session : (requested given others argv).session table = (requested given choices argv).session table := by
    simp only [Invocation.session, requested, order]
  refine ⟨session, ?_⟩
  rw [Invocation.written, session, Invocation.written]
  simp only [requested, format]

theorem run_requestLine_alike (plain : path.head? ≠ some (.scalar '-')) {others choices : List Choice}
    (alike : others.filter (·.verbosity = 0) = choices.filter (·.verbosity = 0)) (argv : List Text) :
    let other := ((run system (requestLine path others argv)).run state).1
    let result := ((run system (requestLine path choices argv)).run state).1
    other.exit = result.exit ∧ other.stdout = result.stdout := by
  intro other result
  cases expanded : system.expand path with
  | error e =>
      have failed : other = result := (run_requestLine_homeless plain others argv expanded).trans
        (run_requestLine_homeless plain choices argv expanded).symm
      exact ⟨congrArg Result.exit failed, congrArg Result.stdout failed⟩
  | ok file =>
      cases loads : (loadTable system file).run state with
      | mk loaded after =>
          cases loaded with
          | error message =>
              have fails := congrArg Prod.fst loads
              have failed : other = result := (run_requestLine_error plain others argv expanded fails).trans
                (run_requestLine_error plain choices argv expanded fails).symm
              exact ⟨congrArg Result.exit failed, congrArg Result.stdout failed⟩
          | ok table =>
              obtain ⟨session, written⟩ := requested_alike alike (.path path) argv table
              have loud := run_requestLine_ok plain others argv expanded loads
              have quiet := run_requestLine_ok plain choices argv expanded loads
              rw [written] at loud
              rw [show other = _ from loud, show result = _ from quiet]
              exact ended_same session file _

theorem writable_loadTable (loads : ((loadTable system file).run state).1 = .ok table) : table.Writable := by
  rw [run_loadTable] at loads
  split at loads
  · cases loads
  · cases loads
  · rename_i octets _
    cases read : TableFile.ofOctets system.nesting octets with
    | error e => simp [read, Except.mapError] at loads
    | ok found =>
        simp only [read, Except.mapError, Except.ok.injEq] at loads
        exact loads ▸ writable_ofOctets read

theorem exists_written {argv : List Text} (codes : table.Writable) (few : argv.length ≤ 10 ^ Json.Limit.maxDigits)
    (format : Format) (reorder : Bool) :
    ∃ pieces, format.written (.start table argv reorder none) = .ok pieces := by
  cases format with
  | structured =>
      obtain ⟨report, written⟩ := exists_structured codes few
      exact ⟨[.ofScalars report], by rw [Format.written, written]; rfl⟩
  | plain =>
      unfold Format.written
      cases (Session.start table argv reorder none).diagnostic with
      | none => exact ⟨_, rfl⟩
      | some d => exact ⟨_, rfl⟩

end Requests

/-- A line that names a table and puts a vector behind the separator has that vector decoded as it is. Without a table
it ends with 2 and shows nothing; that is also so if the path of the table begins with a user who has no home. With a
table there is a report of the session, and what the standard output takes of it decides the rest: if it takes all, the
result tells of the session, and else the line ends with 2 behind the pieces that were taken. What is shown and how it
ends do not depend on how often the line asks to hear more. -/
theorem run_requestLine {σ Place : Type} (system : System (StateM σ) Place) (state : σ) {path : Text}
    (plain : path.head? ≠ some (.scalar '-')) (choices : List Choice) (argv : List Text) :
    let format := Choice.formatOf choices
    let result := ((run system (requestLine path choices argv)).run state).1
    Invocation.ofArguments system.convention (requestLine path choices argv) =
        .ok (requested (.path path) choices argv) ∧
      (Path.user? path = none → system.expand path = .ok (Path.tidy path)) ∧
      (∀ e, system.expand path = .error e → result.exit = 2 ∧ result.stdout = []) ∧
      (∀ file, system.expand path = .ok file →
        (∀ message after, (loadTable system file).run state = (.error message, after) →
          result.exit = 2 ∧ result.stdout = []) ∧
        ∀ table after, (loadTable system file).run state = (.ok table, after) →
          let session := Session.start table argv (!choices.any Choice.isInOrder) none
          let ending := ((emit system.print (format.written session)).run after).1.2
          (argv.length ≤ 10 ^ Json.Limit.maxDigits → ∃ pieces, format.written session = .ok pieces) ∧
            (ending = .ok () → result.Tells format argv session) ∧
            ∀ e, ending = .error e → result.Breaks format session) ∧
      ∀ others, others.filter (·.verbosity = 0) = choices.filter (·.verbosity = 0) →
        let other := ((run system (requestLine path others argv)).run state).1
        other.exit = result.exit ∧ other.stdout = result.stdout := by
  intro format result
  refine ⟨ofArguments_requestLine system.convention plain choices argv, expand_of_no_user, ?lost, ?told, ?same⟩
  case lost =>
    intro e lost
    rw [show result = .failed [] [.unforeseen e] from run_requestLine_homeless plain choices argv lost]
    exact ⟨rfl, rfl⟩
  case told =>
    intro file expanded
    constructor
    · intro message after fails
      have failed : result = .failed [] [message] :=
        run_requestLine_error plain choices argv expanded (congrArg Prod.fst fails)
      rw [failed]
      exact ⟨rfl, rfl⟩
    · intro table after loads session ending
      have ends := run_requestLine_ok plain choices argv expanded loads
      refine ⟨fun few => exists_written (writable_loadTable (congrArg Prod.fst loads)) few format _, ?_⟩
      rw [show result = _ from ends]
      exact ended_emit system.print (requested (.path path) choices argv) table file after
  case same =>
    exact fun others alike => run_requestLine_alike plain alike argv

def tildeFiles : Tree := ⟨[(["~nosuchuser".toText], .file (Scalars.toUtf8 "[]".toList))]⟩

open Json.Lexeme in
/-- The file can be loaded and fits the vector, but the user has no home, so the file is not even looked for. -/
theorem run_requestLine_tilde :
    ((loadTable sampleSystem "~nosuchuser".toText).run tildeFiles).1 = .ok (.ofList []) ∧
      (Session.start (.ofList []) ["p".toText] true none).diagnostic = none ∧
      let result := ((run sampleSystem (requestLine "~nosuchuser".toText [] ["p".toText])).run tildeFiles).1
      result.exit = 2 ∧ result.stdout = [] := by
  have value : Json.read sampleSystem.nesting "[]".toList = .ok (.array ([] ++ [])) := by
    have split : Json.lexemesFrom .between "[]".toList = some [openArray, closeArray] := rfl
    exact (Json.readWithin_eq split).trans rfl
  have read : (sampleSystem.read "~nosuchuser".toText).run tildeFiles =
      (.ok (Scalars.toUtf8 "[]".toList), tildeFiles) := rfl
  have lost : sampleSystem.expand "~nosuchuser".toText = .error .noHome := rfl
  refine ⟨?_, by decide, ?_⟩
  · have described : List.Forall₂ Descriptor.DescribedBy (Table.ofList []).entries [] := .nil
    rw [loadTable_described read (Scalars.ofUtf8?_toUtf8 _) value described (.inl rfl)]
  · rw [run_requestLine_homeless (by decide) [] ["p".toText] lost]
    exact ⟨rfl, rfl⟩

def sampleFiles : Tree := ⟨[(["t.json".toText], .file (Scalars.toUtf8 (Json.render 0 sampleTable.described)))]⟩

theorem loadTable_sampleFiles :
    (loadTable sampleSystem "t.json".toText).run sampleFiles = (.ok sampleTable, sampleFiles) := by
  have letters : sampleTable.Writable := by
    intro d member value code
    have other : ∀ d ∈ sampleTable.entries, ∀ value, d.code ≠ .number value := by
      simp [sampleTable, Table.ofList, Descriptor.isSentinel]
    exact absurd code (other d member value)
  have names : sampleTable.Unpaired := by decide
  have read : (sampleSystem.read "t.json".toText).run sampleFiles =
      (.ok (Scalars.toUtf8 (Json.render 0 sampleTable.described)), sampleFiles) := rfl
  rw [run_loadTable, read]
  simp only [ofOctets_described (show 2 ≤ sampleSystem.nesting by decide) (by decide) names letters]
  rfl

theorem takes_scalars {scalars : Scalars} {state : Tree} :
    ((sampleSystem.print (.ofScalars scalars)).run state).1 = .ok () := by
  have encoded := Text.encode_ofScalars scalars
  show ((Text.encode (.ofScalars scalars)).mapError Trouble.unencodable).map (fun _ => ()) = .ok ()
  rw [encoded]
  rfl

def sampleResult (choices : List Choice) (elements : List String) : Result :=
  ((run sampleSystem (requestLine "t.json".toText choices (elements.map String.toText))).run sampleFiles).1

theorem run_requestLine_sample :
    let fine := ["prog", "-v", "--", "--version"]
    let wrong := ["prog", "-t"]
    (sampleResult [.inOrder, .verbose 1] fine).exit = 0 ∧
      (sampleResult [.inOrder, .verbose 1] fine).stdout =
        "  0  -v\n  1  (operand)            --version\n\n--- 2 record(s) ---\n".toText ∧
      (sampleResult [.verbose 0] wrong).exit = 1 ∧ (sampleResult [.verbose 0] wrong).stdout = [] ∧
      ∀ wording, EndsWithLine ((sampleResult [.verbose 0] wrong).stderr.flatMap (Line.render wording))
        ("prog".toText ++ ": ".toText ++ "invalid option -- t".toText) := by
  intro fine wrong
  have plain : "t.json".toText.head? ≠ some (.scalar '-') := by decide
  have expanded : sampleSystem.expand "t.json".toText = .ok "t.json".toText := rfl
  have pieces : Format.plain.written (.start sampleTable (fine.map String.toText) false none) =
      .ok (["  0  -v\n", "  1  (operand)            --version\n", "\n--- 2 record(s) ---\n"].map String.toText) := by
    decide
  have told : (sampleResult [.inOrder, .verbose 1] fine).Tells .plain (fine.map String.toText)
      (.start sampleTable (fine.map String.toText) false none) := by
    rw [sampleResult]
    refine (((run_requestLine sampleSystem sampleFiles plain _ _).2.2.2.1 _ expanded).2 sampleTable _
      loadTable_sampleFiles).2.1 ?_
    show ((emit sampleSystem.print (Format.plain.written (.start sampleTable (fine.map String.toText) false none))).run
      sampleFiles).1.2 = .ok ()
    rw [pieces]
    exact writeAll_of_takes (List.forall_mem_map.mpr fun _ _ _ => takes_scalars) sampleFiles
  have blamed : (sampleResult [.verbose 0] wrong).Tells .plain (wrong.map String.toText)
      (.start sampleTable (wrong.map String.toText) true none) := by
    rw [sampleResult]
    exact (((run_requestLine sampleSystem sampleFiles plain _ _).2.2.2.1 _ expanded).2 sampleTable _
      loadTable_sampleFiles).2.1 rfl
  have problem : (Session.start sampleTable (wrong.map String.toText) true none).diagnostic =
      some ⟨.invalidShortOption, "invalid option -- t".toText, "-t".toText, 1⟩ := by decide
  obtain ⟨shown, written, stdout⟩ := told.stdout
  cases pieces.symm.trans written
  obtain ⟨none, silent, nothing⟩ := blamed.stdout
  cases silent
  obtain ⟨program, elements, argv, ends⟩ := blamed.stderr _ problem
  cases argv
  exact ⟨told.exit.trans (by decide), stdout.trans (by decide), blamed.exit.trans (by decide), nothing, ends⟩

end CommandLine.Tool
