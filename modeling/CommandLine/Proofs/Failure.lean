import CommandLine.Proofs.Concatenation

namespace CommandLine

structure Failure where
  front : List Text
  token : Text
  rest : List Text
  problem : Problem

namespace Failure

def elements (failure : Failure) : List Text := failure.front ++ failure.token :: failure.rest

def diagnostic (failure : Failure) (index : Nat) : Diagnostic :=
  .ofProblem failure.problem failure.token ((index + failure.front.length : Nat) : Int)

/-- The elements in front are read to their end, and then the token is refused. -/
structure Occurs (table : Table) (index : Nat) (failure : Failure) : Prop where
  readable : (table.scan false index failure.front).ending = .exhausted
  refused : table.meet failure.token failure.rest.head? = .refused failure.problem

end Failure

namespace Scan

variable {scan : Scan}

theorem diagnostic?_eq_some_iff {d : Diagnostic} : scan.diagnostic? = some d ↔
    ∃ index token problem, scan.ending = .failed index token problem ∧ d = .ofProblem problem token index := by
  cases ending : scan.ending <;> simp [diagnostic?, ending, eq_comm]

end Scan

namespace Table

variable {table : Table} {taken : Bool} {index place : Nat} {elements : List Text} {token : Text}
  {problem : Problem}

theorem split_of_failed (failed : (table.scan taken index elements).ending = .failed place token problem) :
    ∃ front rest, elements = front ++ token :: rest ∧ place = index + front.length ∧
      (taken = true → front ≠ []) ∧ (table.scan taken index front).ending = .exhausted ∧
      table.meet token rest.head? = .refused problem := by
  induction elements generalizing taken index with
  | nil =>
      rw [scan_nil] at failed
      cases failed
  | cons element rest ih =>
      cases taken with
      | true =>
          obtain ⟨front, back, rfl, rfl, _, exhausted, refused⟩ := ih failed
          refine ⟨element :: front, back, rfl, ?_, by simp, exhausted, refused⟩
          simp only [List.length_cons]
          omega
      | false =>
          rw [scan_met] at failed
          cases met : table.meet element rest.head? with
          | stop => rw [met] at failed; cases failed
          | refused found =>
              rw [met] at failed
              cases failed
              exact ⟨[], rest, rfl, rfl, by simp, by rw [scan_nil], met⟩
          | noted step used =>
              rw [met] at failed
              obtain ⟨front, back, rfl, rfl, kept, exhausted, refused⟩ := ih failed
              refine ⟨element :: front, back, rfl, ?_, by simp, ?_, refused⟩
              · simp only [List.length_cons]
                omega
              · -- What the element used lies before the token, so it is still there after the cut.
                rw [scan_met, meet_cut met kept]
                exact exhausted

theorem le_index {d : Diagnostic} (blamed : (table.scan taken index elements).diagnostic? = some d) :
    (index : Int) ≤ d.index := by
  obtain ⟨place, token, problem, failed, rfl⟩ := Scan.diagnostic?_eq_some_iff.mp blamed
  obtain ⟨front, rest, _, rfl, _⟩ := split_of_failed failed
  simp only [Diagnostic.ofProblem]
  omega

theorem scan_occurs {failure : Failure} (occurs : failure.Occurs table index) :
    (table.scan false index failure.elements).ending =
      .failed (index + failure.front.length) failure.token failure.problem := by
  have succeeds := Scan.succeeds_of_exhausted occurs.readable
  rw [Failure.elements, scan_append _ succeeds (by simp), Scan.resume, occurs.readable, scan_met, occurs.refused]

theorem diagnostic_iff_occurs {d : Diagnostic} :
    (table.scan false index elements).diagnostic? = some d ↔
      ∃ failure : Failure, failure.Occurs table index ∧ failure.elements = elements ∧
        failure.diagnostic index = d := by
  rw [Scan.diagnostic?_eq_some_iff]
  constructor
  · rintro ⟨place, token, problem, failed, rfl⟩
    obtain ⟨front, rest, rfl, rfl, _, readable, refused⟩ := split_of_failed failed
    exact ⟨⟨front, token, rest, problem⟩, ⟨readable, refused⟩, rfl, rfl⟩
  · rintro ⟨failure, occurs, rfl, rfl⟩
    exact ⟨_, _, _, scan_occurs occurs, rfl⟩

end Table

section Place

variable {table : Table} {argv other : List Text} {argc : Option Int} {failure : Failure}

namespace Failure

def place (failure : Failure) : Nat := 1 + failure.front.length

theorem token_at_place (split : failure.elements = admitted argv argc) :
    failure.place < readBound argv argc ∧ argv[failure.place]? = some failure.token := by
  have read : (argv.take (readBound argv argc))[failure.place]? = some failure.token := by
    rw [place, ← List.getElem?_drop, ← admitted_eq, ← split, elements]
    simp
  rw [List.getElem?_take] at read
  split at read
  · next inside => exact ⟨inside, read⟩
  · cases read

theorem next_of_place (split : failure.elements = admitted argv argc) :
    (argv.take (readBound argv argc))[failure.place + 1]? = failure.rest.head? := by
  rw [place, Nat.add_assoc, ← List.getElem?_drop, ← admitted_eq, ← split, elements,
    List.getElem?_append_right (by omega)]
  simp [List.head?_eq_getElem?]

theorem read_before (split : failure.elements = admitted argv argc) {size : Nat}
    (inside : size ≤ readBound argv argc) : (argv.take size).drop 1 = failure.elements.take (size - 1) := by
  rw [split, admitted_eq, List.drop_take, List.drop_take, List.take_take, Nat.min_eq_left (by omega)]

theorem front_before (split : failure.elements = admitted argv argc) :
    admitted argv (some failure.place) = failure.front := by
  have inside := (token_at_place split).1
  calc
    _ = (argv.take failure.place).drop 1 := rfl
    _ = failure.elements.take (failure.place - 1) := read_before split (by omega)
    _ = failure.front := by simp [place, elements]

theorem elements_of_same (split : failure.elements = admitted argv argc)
    (same : other.take (failure.place + 1) = argv.take (failure.place + 1)) :
    other.drop 1 = failure.front ++ failure.token :: other.drop (failure.place + 1) := by
  have inside := (token_at_place split).1
  have begins : (other.take (failure.place + 1)).drop 1 = failure.front ++ [failure.token] := by
    rw [same, read_before split (by omega)]
    have whole : failure.front.take (1 + failure.front.length) = failure.front :=
      List.take_of_length_le (by omega)
    simp [place, elements, List.take_append, whole]
  calc
    _ = (other.drop 1).take failure.place ++ (other.drop 1).drop failure.place :=
      (List.take_append_drop _ _).symm
    _ = (failure.front ++ [failure.token]) ++ other.drop (failure.place + 1) := by
      rw [← begins, List.drop_take, List.drop_drop, Nat.add_sub_cancel, Nat.add_comm 1]
    _ = failure.front ++ failure.token :: other.drop (failure.place + 1) := by simp

theorem occurs_before {index : Nat} {rest : List Text} (occurs : failure.Occurs table index)
    (same : failure.problem.fault = .missingArgument → rest.head? = failure.rest.head?) :
    Occurs table index { failure with rest } :=
  ⟨occurs.readable, table.meet_of_refused occurs.refused same⟩

end Failure

end Place

/-- The diagnostic of a command line is that of the first element that cannot be read: all before it can, and what
follows it matters only as the value that it lacks. -/
theorem start_first_fault (table : Table) (argv : List Text) (argc : Option Int) (reorder : Bool)
    (d : Diagnostic) (blamed : (Session.start table argv reorder argc).diagnostic = some d) :
    1 ≤ d.index ∧ d.index < readBound argv argc ∧ argv[d.index.toNat]? = some d.token ∧
      (classify d.token).isOption = true ∧
      Session.start table argv reorder argc = ⟨.failed, [], some d⟩ ∧
      (∀ mode, (Session.start table argv mode (some d.index)).state = .succeeded) ∧
      ∀ (other : List Text) (mode : Bool),
        other.take (d.index.toNat + 1) = argv.take (d.index.toNat + 1) →
        (d.fault = .missingArgument →
          other[d.index.toNat + 1]? = (argv.take (readBound argv argc))[d.index.toNat + 1]?) →
        Session.start table other mode none = ⟨.failed, [], some d⟩ := by
  rw [Session.start_diagnostic] at blamed
  obtain ⟨failure, occurs, split, rfl⟩ := Table.diagnostic_iff_occurs.mp blamed
  have index : (failure.diagnostic 1).index = failure.place := rfl
  obtain ⟨inside, token⟩ := Failure.token_at_place split
  rw [index, Int.toNat_natCast]
  refine ⟨?_, ?_, token, Table.refused_isOption occurs.refused, ?_, ?_, ?_⟩
  · simp only [Failure.place]
    omega
  · exact_mod_cast inside
  · exact Session.start_eq_failed_iff.mpr blamed
  · intro mode
    rw [Session.start_state_iff, Table.scanArguments, Failure.front_before split]
    exact Scan.succeeds_of_exhausted occurs.readable
  · intro other mode same next
    rw [Session.start_eq_failed_iff, Table.scanArguments, Table.diagnostic_iff_occurs]
    refine ⟨{ failure with rest := other.drop (failure.place + 1) }, Failure.occurs_before occurs ?_, ?_, rfl⟩
    · intro missing
      rw [List.head?_drop, next missing, Failure.next_of_place split]
    · exact (Failure.elements_of_same split same).symm

def cutLine : List Text := programName :: ["h", "-v", "-o", "log"].map String.toText

/-- The value lies behind the bound, and the shorter command line does not have it either. -/
theorem start_first_fault_sample :
    (Session.start sampleTable cutLine true (some 4)).diagnostic =
        some (.ofProblem (.shortNeedsArgument 'o') "-o".toText 3) ∧
      (Session.start sampleTable cutLine false (some 3)).state = .succeeded ∧
      Session.start sampleTable (cutLine.take 4) false none =
        ⟨.failed, [], some (.ofProblem (.shortNeedsArgument 'o') "-o".toText 3)⟩ := by
  have blamed : (Session.start sampleTable cutLine true (some 4)).diagnostic =
      some (.ofProblem (.shortNeedsArgument 'o') "-o".toText 3) := by decide
  obtain ⟨_, _, _, _, _, readable, alike⟩ := start_first_fault sampleTable cutLine (some 4) true _ blamed
  exact ⟨blamed, readable false, alike _ false (by decide) (by decide)⟩

end CommandLine
