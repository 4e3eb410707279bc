import CommandLine.Proofs.StructuredReport
import CommandLine.Tool.Run

namespace CommandLine.Tool

theorem run_bind {σ α β : Type} (action : StateM σ α) (next : α → StateM σ β) (state : σ) :
    (action >>= next).run state = (next (action.run state).1).run (action.run state).2 := rfl

variable {σ Place : Type} {system : System (StateM σ) Place} {state : σ} {path : Text} {table : Table}

section Finding

theorem run_loadTable (system : System (StateM σ) Place) (path : Text) (state : σ) :
    (loadTable system path).run state =
      (match ((system.read path).run state).1 with
        | .error (.file e) => .error (.unreadable path e)
        | .error e => .error (.unforeseen e)
        | .ok octets => (TableFile.ofOctets system.nesting octets).mapError (.ofTableFileError path),
      ((system.read path).run state).2) := by
  rw [loadTable, run_bind]
  cases ((system.read path).run state).1 with
  | ok octets => rfl
  | error e => cases e <;> rfl

theorem run_findTable_snd (keeps : ∀ path, ((system.read path).run state).2 = state) (given : GivenPath) :
    ((findTable system given).run state).2 = state := by
  cases given with
  | dropped => rfl
  | path text =>
      rw [findTable]
      cases system.expand text with
      | error e => rfl
      | ok path => exact (congrArg Prod.snd (run_loadTable system path state)).trans (keeps path)

end Finding

section Writing

variable {write : Text → StateM σ (Except Trouble Unit)} {report : Except Trouble (List Text)}

theorem run_writeAll_cons (write : Text → StateM σ (Except Trouble Unit)) (piece : Text) (rest : List Text)
    (state : σ) :
    (writeAll write (piece :: rest)).run state =
      match (write piece).run state with
      | (.error e, after) => (([], .error e), after)
      | (.ok (), after) =>
        let later := (writeAll write rest).run after
        ((piece ++ later.1.1, later.1.2), later.2) := by
  rw [writeAll, run_bind]
  cases (write piece).run state with
  | mk outcome after => cases outcome <;> rfl

/-- By induction on the pieces: those that were taken stand in front, and they are all there are if nothing fails. -/
theorem writeAll_taken (write : Text → StateM σ (Except Trouble Unit)) (pieces : List Text) (state : σ) :
    ∃ front, front <+: pieces ∧ ((writeAll write pieces).run state).1.1 = front.flatten ∧
      (((writeAll write pieces).run state).1.2 = .ok () → front = pieces) := by
  induction pieces generalizing state with
  | nil => exact ⟨[], List.nil_prefix, rfl, fun _ => rfl⟩
  | cons piece rest ih =>
      rw [run_writeAll_cons]
      cases (write piece).run state with
      | mk outcome after =>
          cases outcome with
          | error e => exact ⟨[], List.nil_prefix, rfl, nofun⟩
          | ok _ =>
              obtain ⟨front, begins, taken, all⟩ := ih after
              refine ⟨piece :: front, List.cons_prefix_cons.mpr ⟨rfl, begins⟩, congrArg (piece ++ ·) taken, ?_⟩
              exact fun ending => congrArg (piece :: ·) (all ending)

theorem writeAll_of_takes {pieces : List Text} (takes : ∀ piece ∈ pieces, ∀ state, ((write piece).run state).1 = .ok ())
    (state : σ) : ((writeAll write pieces).run state).1.2 = .ok () := by
  induction pieces generalizing state with
  | nil => rfl
  | cons piece rest ih =>
      obtain ⟨here, later⟩ := List.forall_mem_cons.mp takes
      have first := here state
      rw [run_writeAll_cons]
      cases given : (write piece).run state with
      | mk outcome after =>
          rw [given] at first
          cases first
          exact ih later after

theorem emit_taken (write : Text → StateM σ (Except Trouble Unit)) (report : Except Trouble (List Text)) (state : σ) :
    ∃ front, front <+: report.toOption.getD [] ∧ ((emit write report).run state).1.1 = front.flatten ∧
      (((emit write report).run state).1.2 = .ok () → report = .ok front) := by
  cases report with
  | error e => exact ⟨[], List.nil_prefix, rfl, nofun⟩
  | ok pieces =>
      obtain ⟨front, begins, taken, all⟩ := writeAll_taken write pieces state
      exact ⟨front, begins, taken, fun ending => congrArg Except.ok (all ending).symm⟩

end Writing

def Format.written (format : Format) (session : Session) : Except Trouble (List Text) :=
  match format, session.diagnostic with
  | structured, _ => ((Report.structured session.outcome).map fun text => [.ofScalars text]).mapError .limit
  | plain, none => .ok (Report.plainPieces session.records)
  | plain, some _ => .ok []

namespace Invocation

variable {invocation : Invocation} {output : GivenPath}

section Reporting

def session (invocation : Invocation) (table : Table) : Session :=
  .start table invocation.argv (!invocation.inOrder) none

def written (invocation : Invocation) (table : Table) : Except Trouble (List Text) :=
  invocation.format.written (invocation.session table)

def ended (invocation : Invocation) (table : Table) (path : Text) : Text × Except Trouble Unit → Result
  | (shown, .ok ()) =>
    .finished (invocation.scanMessages table path) invocation.argv shown (invocation.session table).outcome
  | (shown, .error e) => .failed shown (invocation.scanMessages table path ++ [.unforeseen e])

theorem decode_eq_outcome (invocation : Invocation) (table : Table) :
    table.decode invocation.argv (!invocation.inOrder) none = (invocation.session table).outcome :=
  (Session.outcome_start table invocation.argv (!invocation.inOrder) none).symm

/-- Only a session with a problem that is to be reported plainly is not reported. -/
theorem report?_eq (invocation : Invocation) (table : Table) :
    invocation.report? (invocation.session table).outcome = some (invocation.written table) ∨
      invocation.report? (invocation.session table).outcome = none ∧ invocation.written table = .ok [] ∧
        invocation.format = .plain ∧ (invocation.session table).diagnostic ≠ none := by
  rw [written]
  cases format : invocation.format with
  | structured => exact .inl (by simp only [report?, format, Format.written])
  | plain =>
      cases blamed : (invocation.session table).diagnostic with
      | none =>
          left
          simp only [report?, format, Format.written, blamed, Session.outcome_of_fits blamed]
      | some d =>
          right
          simp [report?, format, Format.written, blamed, Session.outcome_of_problem blamed]

theorem run_decode_reported {report : Except Trouble (List Text)}
    (reported : invocation.report? (invocation.session table).outcome = some report) :
    (invocation.decode system table path).run state =
      (invocation.ended table path ((deliver system report invocation.destination?).run state).1,
        ((deliver system report invocation.destination?).run state).2) := by
  rw [decode, decode_eq_outcome, reported]
  simp only [run_bind]
  cases ((deliver system report invocation.destination?).run state).1 with
  | mk shown ending => cases ending <;> rfl

theorem run_decode_unreported (silent : invocation.report? (invocation.session table).outcome = none) :
    (invocation.decode system table path).run state = (invocation.ended table path ([], .ok ()), state) := by
  rw [decode, decode_eq_outcome, silent]
  rfl

/-- What is not reported can as well be reported with no pieces. -/
theorem run_decode_here (here : invocation.destination? = none) :
    (invocation.decode system table path).run state =
      (invocation.ended table path ((emit system.print (invocation.written table)).run state).1,
        ((emit system.print (invocation.written table)).run state).2) := by
  rcases report?_eq invocation table with reported | ⟨silent, nothing, _⟩
  · rw [run_decode_reported reported, here, deliver]
  · rw [run_decode_unreported silent, nothing]
    rfl

end Reporting

theorem run_perform_error {message : Message}
    (fails : ((findTable system invocation.table).run state).1 = .error message) :
    (invocation.perform system).run state =
      (.failed [] [message], ((findTable system invocation.table).run state).2) := by
  rw [perform, run_bind, fails]
  rfl

theorem run_perform_ok (finds : ((findTable system invocation.table).run state).1 = .ok (path, table)) :
    (invocation.perform system).run state =
      (invocation.decode system table path).run ((findTable system invocation.table).run state).2 := by
  rw [perform, run_bind, finds]

end Invocation

theorem run_eq_perform {arguments : List Text} {invocation : Invocation}
    (request : Invocation.ofArguments system.convention arguments = .ok invocation) :
    run system arguments = invocation.perform system := by
  rw [run, request]

end CommandLine.Tool
