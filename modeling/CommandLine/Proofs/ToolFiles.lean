import CommandLine.Proofs.ToolDecoding
import CommandLine.Proofs.ToolRestatement
import CommandLine.Proofs.TreeFiles

namespace CommandLine.Tool

section Runs

variable {σ Place File : Type} {files : Files σ Place File} {state : σ} {invocation : Invocation} {path output : Text}
  {table : Table} {message : Message}

theorem findTable_keeps (files : Files σ Place File) (state : σ) (given : GivenPath) :
    ((findTable files.system given).run state).2 = state :=
  run_findTable_snd (files.read_keeps state) given

theorem perform_of_error (fails : ((findTable files.system invocation.table).run state).1 = .error message) :
    (invocation.perform files.system).run state = (.failed [] [message], state) := by
  rw [Invocation.run_perform_error fails, findTable_keeps]

theorem perform_of_found (finds : ((findTable files.system invocation.table).run state).1 = .ok (path, table)) :
    (invocation.perform files.system).run state = (invocation.decode files.system table path).run state := by
  rw [Invocation.run_perform_ok finds, findTable_keeps]

theorem report?_of_fits (fits : (invocation.session table).diagnostic = none) :
    invocation.report? (invocation.session table).outcome = some (invocation.written table) := by
  rcases Invocation.report?_eq invocation table with reported | ⟨_, _, _, blamed⟩
  · exact reported
  · exact absurd fits blamed

theorem report?_of_problem {d : Diagnostic} (plain : invocation.format = .plain)
    (problem : (invocation.session table).diagnostic = some d) :
    invocation.report? (invocation.session table).outcome = none := by
  rw [Session.outcome_of_problem problem]
  simp [Invocation.report?, plain]

theorem perform_of_problem {d : Diagnostic}
    (finds : ((findTable files.system invocation.table).run state).1 = .ok (path, table))
    (plain : invocation.format = .plain) (problem : (invocation.session table).diagnostic = some d) :
    ∃ lines, (invocation.perform files.system).run state = (⟨1, [], lines⟩, state) := by
  rw [perform_of_found finds, Invocation.run_decode_unreported (report?_of_problem plain problem), Invocation.ended,
    Session.outcome_of_problem problem]
  exact ⟨_, rfl⟩

theorem perform_of_fits (finds : ((findTable files.system invocation.table).run state).1 = .ok (path, table))
    (fits : (invocation.session table).diagnostic = none) :
    (invocation.perform files.system).run state =
      (invocation.ended table path
        ((deliver files.system (invocation.written table) invocation.destination?).run state).1,
        ((deliver files.system (invocation.written table) invocation.destination?).run state).2) := by
  rw [perform_of_found finds, Invocation.run_decode_reported (report?_of_fits fits)]

theorem destination?_eq (there : invocation.output = some (.path output)) (other : output ≠ [.scalar '-']) :
    invocation.destination? = some (.path output) := by
  rw [Invocation.destination?, there]
  exact if_pos (by simpa [String.toText, Text.ofScalars] using other)

theorem perform_shows (invocation : Invocation)
    (finds : ((findTable files.system invocation.table).run state).1 = .ok (path, table))
    (fits : (invocation.session table).diagnostic = none) (here : invocation.output = none) {pieces : List Text}
    (written : invocation.written table = .ok pieces)
    (well : ((invocation.perform files.system).run state).1.exit = 0) :
    ((invocation.perform files.system).run state).1.stdout = pieces.flatten := by
  have shown : invocation.destination? = none := by
    rw [Invocation.destination?, here]
    rfl
  obtain ⟨front, _, taken, all⟩ := emit_taken files.system.print (invocation.written table) state
  rw [perform_of_fits finds fits, shown, deliver] at well ⊢
  cases sent : ((emit files.system.print (invocation.written table)).run state).1 with
  | mk text ending =>
      rw [sent] at well taken all
      cases ending with
      | error e => cases well
      | ok _ =>
          obtain rfl : pieces = front := Except.ok.inj (written.symm.trans (all rfl))
          simp only [Invocation.ended, Session.outcome_of_fits fits]
          exact taken

end Runs

/-- Without a table, and with a problem that is reported plainly, the files stay as they are and nothing is shown. If
the vector fits and the output has been opened, nothing is shown either, and no other file changes its content. The run
ends with 0 exactly if the output takes the whole report, and then it holds the encoding of what a request for the same
without an output shows. -/
theorem run_keeps_files {σ Place File : Type} (files : Files σ Place File) (state : σ) {arguments : List Text}
    {invocation : Invocation} (request : Invocation.ofArguments files.system.convention arguments = .ok invocation) :
    let finding := ((findTable files.system invocation.table).run state).1
    let result := ((run files.system arguments).run state).1
    let after := ((run files.system arguments).run state).2
    (∀ message, finding = .error message → result.exit = 2 ∧ result.stdout = [] ∧ after = state) ∧
      ∀ path table, finding = .ok (path, table) →
        (∀ d, invocation.format = .plain → (invocation.session table).diagnostic = some d →
          result.exit = 1 ∧ result.stdout = [] ∧ after = state) ∧
        ∀ output target place opened, (invocation.session table).diagnostic = none →
          invocation.output = some (.path output) → output ≠ [.scalar '-'] →
          files.system.expand output = .ok target → (files.system.openAt target).run state = (.ok place, opened) →
            result.stdout = [] ∧ SameBut (files.file? place) (files.content? state) (files.content? after) ∧
              (¬ files.system.Takes place (invocation.written table) opened → result.exit = 2) ∧
              (files.system.Takes place (invocation.written table) opened → result.exit = 0 ∧
                ∃ pieces octets bare, invocation.written table = .ok pieces ∧ Text.encode pieces.flatten = .ok octets ∧
                  (∀ file, files.file? place = some file → files.content? after file = some octets) ∧
                  Invocation.ofArguments files.system.convention bare = .ok { invocation with output := none } ∧
                  (((run files.system bare).run state).1.exit = 0 →
                    ((run files.system bare).run state).1.stdout = pieces.flatten)) := by
  intro finding result after
  have same : (result, after) = (invocation.perform files.system).run state := by
    rw [← run_eq_perform request]
    rfl
  refine ⟨?missing, ?found⟩
  case missing =>
    intro message fails
    obtain ⟨shown, kept⟩ := Prod.mk.inj (same.trans (perform_of_error fails))
    rw [shown]
    exact ⟨rfl, rfl, kept⟩
  case found =>
    intro path table finds
    refine ⟨?problem, ?written⟩
    case problem =>
      intro d plain problem
      obtain ⟨lines, silent⟩ := perform_of_problem finds plain problem
      obtain ⟨shown, kept⟩ := Prod.mk.inj (same.trans silent)
      rw [shown]
      exact ⟨rfl, rfl, kept⟩
    case written =>
      intro output target place opened fits there other expanded opens
      have delivered := perform_of_fits finds fits
      rw [destination?_eq there other] at delivered
      obtain ⟨ended, left⟩ := Prod.mk.inj (same.trans delivered)
      have touches := Files.deliver_touches (invocation.written table) expanded opens
      rw [ended, left]
      by_cases takes : files.system.Takes place (invocation.written table) opened
      · obtain ⟨pieces, _, _, whole⟩ := emit_taken (files.system.append place) (invocation.written table) opened
        have written := whole takes.1
        rw [written] at takes touches ⊢
        obtain ⟨sent, octets, encoded, holds⟩ := Files.deliver_of_takes expanded opens takes
        have bare := ofArguments_bareLine request
        rw [sent, Invocation.ended, Session.outcome_of_fits fits]
        refine ⟨rfl, touches, (absurd takes ·), fun _ => ⟨rfl, pieces, octets, _, rfl, encoded, holds, bare, ?_⟩⟩
        rw [run_eq_perform bare]
        exact perform_shows { invocation with output := none } finds fits rfl written
      · obtain ⟨e, sent⟩ := Files.deliver_of_not_takes expanded opens takes
        rw [sent, Invocation.ended]
        exact ⟨rfl, touches, fun _ => rfl, (absurd · takes)⟩

section Samples

def sampleTree : Files Tree Tree.Spot (List Text) := Tree.files .newer 100 (fun _ => .ok none) []

theorem sampleTree_system : sampleTree.system = sampleSystem := rfl

def outputLine : List Text := ["-t", "t.json", "-o", "out/list.txt", "--", "prog", "-v"].map String.toText

def outputRequest : Invocation :=
  ⟨.path "t.json".toText, 0, .plain, false, some (.path "out/list.txt".toText), ["prog".toText, "-v".toText]⟩

def outputRun : Result × Tree := (run sampleTree.system outputLine).run sampleFiles

def outputPlace : List Text := ["out".toText, "list.txt".toText]

theorem run_keeps_files_sample :
    outputRun.1.exit = 0 ∧ outputRun.1.stdout = [] ∧
      sampleTree.content? outputRun.2 ["t.json".toText] = sampleTree.content? sampleFiles ["t.json".toText] ∧
      ∃ octets, Text.encode "  0  -v\n\n--- 1 record(s) ---\n".toText = .ok octets ∧
        sampleTree.content? outputRun.2 outputPlace = some octets := by
  have request : Invocation.ofArguments sampleTree.system.convention outputLine = .ok outputRequest := rfl
  have finds : ((findTable sampleTree.system outputRequest.table).run sampleFiles).1 =
      .ok ("t.json".toText, sampleTable) := by
    have expanded : sampleSystem.expand "t.json".toText = .ok "t.json".toText := rfl
    rw [sampleTree_system, outputRequest, run_findTable_path expanded, loadTable_sampleFiles]
    rfl
  have fits : (outputRequest.session sampleTable).diagnostic = none := by decide
  have written : outputRequest.written sampleTable =
      .ok (["  0  -v\n", "\n--- 1 record(s) ---\n"].map String.toText) := by decide
  have opens : ((sampleTree.system.openAt "out/list.txt".toText).run sampleFiles).1 = .ok (.inside outputPlace) := by
    decide +kernel
  have takes : sampleTree.system.Takes (.inside outputPlace) (outputRequest.written sampleTable)
      ((sampleTree.system.openAt "out/list.txt".toText).run sampleFiles).2 := by
    rw [written]
    exact ⟨by decide +kernel, rfl⟩
  obtain ⟨stdout, touches, _, told⟩ := ((run_keeps_files sampleTree sampleFiles request).2 _ _ finds).2
    "out/list.txt".toText "out/list.txt".toText _ _ fits rfl (by decide) rfl (Prod.ext opens rfl)
  obtain ⟨exit, pieces, octets, _, same, encoded, holds, _⟩ := told takes
  cases written.symm.trans same
  rw [outputRun]
  exact ⟨exit, stdout, touches ["t.json".toText] (by decide), octets, encoded, holds outputPlace rfl⟩

def halfText : Scalars := "[\x7b\"code\": \"a\", \"name\": \"x\\ud800\"\x7d]".toList

def halfTable : Table := .ofList [⟨.char 'a', some ['x', .half ⟨0, by decide⟩], .never⟩]

def halfFiles : Tree := ⟨[(["t.json".toText], .file (Scalars.toUtf8 halfText))]⟩

def halfLine : List Text := ["-t", "t.json", "-o", "out.txt", "--", "prog", "--x"].map String.toText

def halfRequest : Invocation :=
  ⟨.path "t.json".toText, 0, .plain, false, some (.path "out.txt".toText), ["prog".toText, "--x".toText]⟩

set_option maxRecDepth 2000 in
open Json.Lexeme in
theorem loadTable_half : (loadTable sampleSystem "t.json".toText).run halfFiles = (.ok halfTable, halfFiles) := by
  have split : Json.lexemesFrom .between halfText = some [openArray,
      openObject, quoted "code".toText, colon, quoted ['a'], comma, quoted "name".toText, colon, quoted ['x', .half 0],
        closeObject, closeArray] := by
    rfl
  have value : Json.read sampleSystem.nesting halfText = .ok (.array (
      [.object [("code".toText, .text ['a']), ("name".toText, .text ['x', .half 0])]] ++ [])) :=
    (Json.readWithin_eq split).trans rfl
  exact loadTable_described rfl (Scalars.ofUtf8?_toUtf8 _) value
    (.cons ⟨_, rfl, rfl, .inr ⟨rfl, rfl⟩, .inl ⟨_, by decide, rfl, rfl⟩⟩ .nil) (.inl rfl)

/-- The vector fits and the output can be opened, but the report cannot be encoded, so the output stays empty. -/
theorem run_unencodable :
    ((findTable sampleTree.system halfRequest.table).run halfFiles).1 = .ok ("t.json".toText, halfTable) ∧
      (halfRequest.session halfTable).diagnostic = none ∧
      ((sampleTree.system.openAt "out.txt".toText).run halfFiles).1 = .ok (.inside ["out.txt".toText]) ∧
      ((run sampleTree.system halfLine).run halfFiles).1.exit = 2 ∧
      sampleTree.content? ((run sampleTree.system halfLine).run halfFiles).2 ["out.txt".toText] = some [] := by
  have request : Invocation.ofArguments sampleTree.system.convention halfLine = .ok halfRequest := rfl
  have finds : ((findTable sampleTree.system halfRequest.table).run halfFiles).1 =
      .ok ("t.json".toText, halfTable) := by
    have expanded : sampleSystem.expand "t.json".toText = .ok "t.json".toText := rfl
    rw [sampleTree_system, halfRequest, run_findTable_path expanded, loadTable_half]
    rfl
  have fits : (halfRequest.session halfTable).diagnostic = none := by decide
  have opens : ((sampleTree.system.openAt "out.txt".toText).run halfFiles).1 = .ok (.inside ["out.txt".toText]) := by
    decide +kernel
  refine ⟨finds, fits, opens, ?_⟩
  rw [run_eq_perform request, perform_of_fits finds fits]
  exact ⟨by decide +kernel, by decide +kernel⟩

end Samples

end CommandLine.Tool
