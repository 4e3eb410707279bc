import CommandLine.Proofs.ToolRuns

namespace CommandLine.Tool

def SameBut {File : Type} (file? : Option File) (before after : File → Option Octets) : Prop :=
  ∀ other, file? ≠ some other → after other = before other

/-- A machine with files in its state; a place may be one of them. What is still in a buffer counts as content. Reading
leaves no trace, and directories have no content. What happens at a place touches only the file there: it is empty once
it has been created, every text that it takes is added to it, and it stays as it is when it has been closed. -/
structure Files (σ Place File : Type) where
  system : System (StateM σ) Place
  file? : Place → Option File
  content? : σ → File → Option Octets
  read_keeps : ∀ state path, ((system.read path).run state).2 = state
  resolve_keeps : ∀ state path, ((system.resolve path).run state).2 = state
  makeDirectory_keeps : ∀ state place, content? ((system.makeDirectory place).run state).2 = content? state
  create_touches : ∀ state place,
    SameBut (file? place) (content? state) (content? ((system.create place).run state).2)
  append_touches : ∀ state place text,
    SameBut (file? place) (content? state) (content? ((system.append place text).run state).2)
  close_touches : ∀ state place,
    SameBut (file? place) (content? state) (content? ((system.close place).run state).2)
  create_empties : ∀ {state after place}, (system.create place).run state = (.ok (), after) →
    ∀ file, file? place = some file → content? after file = some []
  append_adds : ∀ {state after place text}, (system.append place text).run state = (.ok (), after) →
    ∃ octets, Text.encode text = .ok octets ∧ ∀ file held, file? place = some file →
      content? state file = some held → content? after file = some (held ++ octets)
  close_keeps : ∀ {state after place}, (system.close place).run state = (.ok (), after) →
    content? after = content? state

/-- All of a report is taken by a file that has been opened, and the file can be closed. -/
def System.Takes {σ Place : Type} (system : System (StateM σ) Place) (place : Place)
    (report : Except Trouble (List Text)) (state : σ) : Prop :=
  ((emit (system.append place) report).run state).1.2 = .ok () ∧
    ((system.close place).run ((emit (system.append place) report).run state).2).1 = .ok ()

section Touching

variable {File : Type} {file? : Option File} {before between after : File → Option Octets}

theorem SameBut.refl : SameBut file? before before := fun _ _ => rfl

theorem SameBut.trans (first : SameBut file? before between) (second : SameBut file? between after) :
    SameBut file? before after := fun other apart => (second other apart).trans (first other apart)

end Touching

namespace Files

variable {σ Place File : Type} {files : Files σ Place File} {state opened after : σ} {place : Place} {target : Text}

/-- A file has been opened only after its place was found and its directory was made. -/
theorem steps_of_openAt {system : System (StateM σ) Place}
    (opens : (system.openAt target).run state = (.ok place, opened)) :
    ∃ found ready, (system.resolve target).run state = (.ok place, found) ∧
      (system.makeDirectory place).run found = (.ok (), ready) ∧
      (system.create place).run ready = (.ok (), opened) := by
  rw [System.openAt, run_bind] at opens
  cases led : (system.resolve target).run state with
  | mk outcome found =>
      rw [led] at opens
      cases outcome with
      | error e => cases opens
      | ok there =>
          dsimp only at opens
          rw [run_bind] at opens
          cases made : (system.makeDirectory there).run found with
          | mk outcome ready =>
              rw [made] at opens
              cases outcome with
              | error e => cases opens
              | ok _ =>
                  dsimp only at opens
                  rw [run_bind] at opens
                  cases created : (system.create there).run ready with
                  | mk outcome last =>
                      rw [created] at opens
                      cases outcome with
                      | error e => cases opens
                      | ok _ =>
                          cases opens
                          exact ⟨found, ready, rfl, made, created⟩

theorem of_openAt (opens : (files.system.openAt target).run state = (.ok place, opened)) :
    SameBut (files.file? place) (files.content? state) (files.content? opened) ∧
      ∀ file, files.file? place = some file → files.content? opened file = some [] := by
  obtain ⟨found, ready, led, made, created⟩ := steps_of_openAt opens
  have kept := files.resolve_keeps state target
  rw [led] at kept
  obtain rfl : found = state := kept
  have contents := files.makeDirectory_keeps found place
  rw [made] at contents
  have touches := files.create_touches ready place
  rw [created, contents] at touches
  exact ⟨touches, files.create_empties created⟩

theorem writeAll_touches (files : Files σ Place File) (place : Place) (pieces : List Text) (state : σ) :
    SameBut (files.file? place) (files.content? state)
      (files.content? ((writeAll (files.system.append place) pieces).run state).2) := by
  induction pieces generalizing state with
  | nil => exact .refl
  | cons piece rest ih =>
      have first := files.append_touches state place piece
      rw [run_writeAll_cons]
      cases given : (files.system.append place piece).run state with
      | mk outcome between =>
          rw [given] at first
          cases outcome with
          | error e => exact first
          | ok _ => exact first.trans (ih between)

theorem emit_touches (files : Files σ Place File) (place : Place) (report : Except Trouble (List Text)) (state : σ) :
    SameBut (files.file? place) (files.content? state)
      (files.content? ((emit (files.system.append place) report).run state).2) := by
  cases report with
  | error e => exact .refl
  | ok pieces => exact writeAll_touches files place pieces state

theorem writeAll_adds {pieces : List Text}
    (all : ((writeAll (files.system.append place) pieces).run state).1.2 = .ok ()) :
    ∃ octets, Text.encode pieces.flatten = .ok octets ∧ ∀ file held, files.file? place = some file →
      files.content? state file = some held →
      files.content? ((writeAll (files.system.append place) pieces).run state).2 file = some (held ++ octets) := by
  induction pieces generalizing state with
  | nil => exact ⟨[], rfl, fun file held _ content => by rw [List.append_nil]; exact content⟩
  | cons piece rest ih =>
      rw [run_writeAll_cons] at all ⊢
      cases given : (files.system.append place piece).run state with
      | mk outcome between =>
          rw [given] at all
          cases outcome with
          | error e => cases all
          | ok _ =>
              obtain ⟨octets, encoded, adds⟩ := files.append_adds given
              obtain ⟨more, others, addsMore⟩ := ih all
              refine ⟨octets ++ more, Text.encode_append encoded others, fun file held there content => ?_⟩
              -- The rest is added to what the file holds by then, which is why `state` is not fixed.
              rw [← List.append_assoc]
              exact addsMore file _ there (adds file held there content)

theorem run_deliver (files : Files σ Place File) {output : Text} (report : Except Trouble (List Text))
    (expanded : files.system.expand output = .ok target)
    (opens : (files.system.openAt target).run state = (.ok place, opened)) :
    let sent := (emit (files.system.append place) report).run opened
    let closed := (files.system.close place).run sent.2
    (deliver files.system report (some (.path output))).run state =
      (([], match closed.1 with | .error e => .error e | .ok () => sent.1.2), closed.2) := by
  intro sent closed
  rw [deliver, expanded]
  dsimp only
  rw [run_bind, opens]
  dsimp only
  rw [run_bind, run_bind]
  cases given : closed with
  | mk outcome last =>
      have same : (files.system.close place).run sent.2 = (outcome, last) := given
      rw [same]
      cases outcome <;> rfl

theorem deliver_touches {output : Text} (report : Except Trouble (List Text))
    (expanded : files.system.expand output = .ok target)
    (opens : (files.system.openAt target).run state = (.ok place, opened)) :
    SameBut (files.file? place) (files.content? state)
      (files.content? ((deliver files.system report (some (.path output))).run state).2) := by
  rw [run_deliver files report expanded opens]
  exact ((of_openAt opens).1.trans (emit_touches files place report opened)).trans (files.close_touches _ place)

/-- If the file takes the report, it holds the encoding of all its pieces and nothing else. -/
theorem deliver_of_takes {output : Text} {pieces : List Text} (expanded : files.system.expand output = .ok target)
    (opens : (files.system.openAt target).run state = (.ok place, opened))
    (takes : files.system.Takes place (.ok pieces) opened) :
    ((deliver files.system (.ok pieces) (some (.path output))).run state).1 = ([], .ok ()) ∧
      ∃ octets, Text.encode pieces.flatten = .ok octets ∧ ∀ file, files.file? place = some file →
        files.content? ((deliver files.system (.ok pieces) (some (.path output))).run state).2 file = some octets := by
  obtain ⟨sent, closed⟩ := takes
  rw [run_deliver files (.ok pieces) expanded opens, closed, sent]
  obtain ⟨octets, encoded, adds⟩ := writeAll_adds sent
  refine ⟨rfl, octets, encoded, fun file there => ?_⟩
  have kept := files.close_keeps (Prod.ext closed rfl)
  exact (congrFun kept file).trans (adds file [] there ((of_openAt opens).2 file there))

theorem deliver_of_not_takes {output : Text} {report : Except Trouble (List Text)}
    (expanded : files.system.expand output = .ok target)
    (opens : (files.system.openAt target).run state = (.ok place, opened))
    (breaks : ¬ files.system.Takes place report opened) :
    ∃ e, ((deliver files.system report (some (.path output))).run state).1 = ([], .error e) := by
  rw [run_deliver files report expanded opens]
  cases closed : ((files.system.close place).run
      ((emit (files.system.append place) report).run opened).2).1 with
  | error e => exact ⟨e, rfl⟩
  | ok _ =>
      cases sent : ((emit (files.system.append place) report).run opened).1.2 with
      | error e => exact ⟨e, rfl⟩
      | ok _ => exact absurd ⟨sent, closed⟩ breaks

end Files

end CommandLine.Tool
