import CommandLine.Proofs.Outcome
import CommandLine.Proofs.Scanning

/-!
A pass as a loop over the places of a command line, with two stores: the records so far, and the operands that are
kept back. The loop ends in the session that the notes of the pass give.
-/
namespace CommandLine

structure Stores where
  records : List Record
  deferred : List Text

namespace Stores

def empty : Stores := ⟨[], []⟩

def keep (reorder : Bool) (stores : Stores) : Step → Stores
  | .operand text =>
    if reorder then { stores with deferred := stores.deferred ++ [text] }
    else { stores with records := stores.records ++ [.operand text] }
  | .option _ records => { stores with records := stores.records ++ records }

def close (stores : Stores) (unread : List Record) : Session :=
  ⟨.succeeded, stores.records ++ stores.deferred.map Record.operand ++ unread, none⟩

def keepAll (reorder : Bool) (stores : Stores) (notes : List Note) : Stores :=
  notes.foldl (fun kept note => kept.keep reorder note.step) stores

theorem keepAll_false (stores : Stores) (notes : List Note) :
    stores.keepAll false notes =
      ⟨stores.records ++ notes.flatMap (·.step.records), stores.deferred⟩ := by
  induction notes generalizing stores with
  | nil => simp [keepAll]
  | cons note notes ih =>
      have one : stores.keep false note.step = ⟨stores.records ++ note.step.records, stores.deferred⟩ := by
        cases note.step <;> rfl
      rw [keepAll, List.foldl_cons, ← keepAll, one, ih, List.flatMap_cons, List.append_assoc]

theorem keepAll_true (stores : Stores) (notes : List Note) :
    (stores.keepAll true notes).records = stores.records ++ notes.flatMap (·.step.optionRecords) ∧
      (stores.keepAll true notes).deferred.map Record.operand =
        stores.deferred.map Record.operand ++ notes.flatMap (·.step.operandRecords) := by
  induction notes generalizing stores with
  | nil => simp [keepAll]
  | cons note notes ih =>
      have options : (stores.keep true note.step).records = stores.records ++ note.step.optionRecords := by
        cases note.step <;> simp [keep, Step.optionRecords]
      have operands : (stores.keep true note.step).deferred.map Record.operand =
          stores.deferred.map Record.operand ++ note.step.operandRecords := by
        cases note.step <;> simp [keep, Step.operandRecords]
      rw [keepAll, List.foldl_cons, ← keepAll, (ih _).1, (ih _).2, options, operands, List.flatMap_cons,
        List.flatMap_cons, List.append_assoc, List.append_assoc]
      exact ⟨rfl, rfl⟩

end Stores

def Scan.finish (scan : Scan) (reorder : Bool) (stores : Stores) : Session :=
  match scan.diagnostic? with
  | some diagnostic => ⟨.failed, [], some diagnostic⟩
  | none => (stores.keepAll reorder scan.notes).close scan.tail

theorem Scan.finish_empty (scan : Scan) (reorder : Bool) :
    scan.finish reorder .empty = Session.ofOutcome (scan.outcome reorder) := by
  unfold finish outcome
  cases scan.diagnostic? with
  | some diagnostic => rfl
  | none =>
      cases reorder with
      | false =>
          rw [Stores.keepAll_false]
          simp [Stores.close, Stores.empty, Session.ofOutcome, Session.begun, Session.finish, inOrder]
      | true =>
          obtain ⟨options, operands⟩ := Stores.keepAll_true .empty scan.notes
          rw [Stores.close, options, operands]
          rfl

namespace Table

def run (table : Table) (reorder : Bool) (elements : List Text) (index : Nat) (stores : Stores) : Session :=
  if inside : index < elements.length then
    match table.meet elements[index] elements[index + 1]? with
    | .stop => stores.close ((elements.drop (index + 1)).map Record.operand)
    | .refused problem => ⟨.failed, [], some (.ofProblem problem elements[index] index)⟩
    | .noted step used => table.run reorder elements (index + 1 + used.toNat) (stores.keep reorder step)
  else stores.close ((elements.drop index).map Record.operand)
termination_by elements.length - index

variable {table : Table} {reorder : Bool} {elements : List Text}

theorem scan_place {index : Nat} (inside : index < elements.length) :
    table.scan false index (elements.drop index) =
      match table.meet elements[index] elements[index + 1]? with
      | .stop => ⟨[], .terminated index (elements.drop (index + 1))⟩
      | .noted step used => (table.scan used (index + 1) (elements.drop (index + 1))).cons ⟨index, step⟩
      | .refused problem => ⟨[], .failed index elements[index] problem⟩ := by
  rw [List.drop_eq_getElem_cons inside, ← List.head?_drop]
  exact scan_met _

theorem scan_over {used : Bool} {index : Nat} (ready : used = true → elements.drop index ≠ []) :
    table.scan used index (elements.drop index) =
      table.scan false (index + used.toNat) (elements.drop (index + used.toNat)) := by
  cases used with
  | false => rfl
  | true =>
      have inside : index < elements.length := by simpa using ready
      rw [List.drop_eq_getElem_cons inside, scan_taken]
      rfl

/-- The loop and the pass over the elements that are left end alike. -/
theorem run_eq_finish (index : Nat) (stores : Stores) :
    table.run reorder elements index stores =
      (table.scan false index (elements.drop index)).finish reorder stores := by
  induction index, stores using run.induct table reorder elements with
  | case1 index stores inside met =>
      rw [run, dif_pos inside, scan_place inside, met]
      rfl
  | case2 index stores inside problem met =>
      rw [run, dif_pos inside, scan_place inside, met]
      rfl
  | case3 index stores inside step used met ih =>
      -- A value is only taken if there is one, so passing it over stays inside.
      have ready : used = true → elements.drop (index + 1) ≠ [] := by
        rw [← List.head?_drop] at met
        exact rest_of_meet met
      rw [run, dif_pos inside, scan_place inside, met]
      simp only [scan_over ready, ih]
      rfl
  | case4 index stores outside =>
      have nothing : elements.drop index = [] := List.drop_eq_nil_of_le (by omega)
      rw [run, dif_neg outside, nothing, scan_nil]
      rfl

/-- Every session is the outcome of the loop over the elements before its bound. -/
theorem start_eq_run (table : Table) (argv : List Text) (reorder : Bool) (argc : Option Int) :
    Session.start table argv reorder argc =
      table.run reorder (argv.take (readBound argv argc)) 1 .empty := by
  rw [run_eq_finish, ← admitted_eq, Scan.finish_empty]
  rfl

end Table

end CommandLine
