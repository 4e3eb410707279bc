import CommandLine.Proofs.Outcome
import CommandLine.Session.Operation

namespace CommandLine

section Classes

variable {fault : Fault} {c : ErrorClass}

theorem ErrorClass.mem_registry_iff : (fault, c) ∈ registry ↔ c ∈ special ∧ c.fault? = some fault := by
  simp only [registry, List.mem_filterMap, Option.map_eq_some_iff, Prod.mk.injEq]
  constructor
  · rintro ⟨other, member, found, stands, rfl, rfl⟩
    exact ⟨member, stands⟩
  · rintro ⟨member, stands⟩
    exact ⟨c, member, fault, stands, rfl, rfl⟩

/-- Every fault has a class, so none of them falls back on the class of all usage errors. -/
theorem ErrorClass.exists_registered (fault : Fault) : ∃ c, (fault, c) ∈ registry := by
  simp only [mem_registry_iff]
  cases fault
  · exact ⟨ambiguousOption, by decide⟩
  · exact ⟨unrecognizedOption, by decide⟩
  · exact ⟨unexpectedArgument, by decide⟩
  · exact ⟨missingArgument, by decide⟩
  · exact ⟨invalidShortOption, by decide⟩

theorem Diagnostic.errorClass_mem (d : Diagnostic) : (d.fault, d.errorClass) ∈ ErrorClass.registry := by
  rw [errorClass]
  cases found : ErrorClass.registry.lookup d.fault with
  | some c =>
      obtain ⟨before, behind, split, _⟩ := List.lookup_eq_some_iff.mp found
      rw [split]
      exact List.mem_append_right before List.mem_cons_self
  | none =>
      obtain ⟨c, member⟩ := ErrorClass.exists_registered d.fault
      simpa using List.lookup_eq_none_iff.mp found _ member

theorem Diagnostic.errorClass_stands (d : Diagnostic) :
    d.errorClass.fault? = some d.fault ∧ .usage ∈ d.errorClass.lineage := by
  obtain ⟨member, stands⟩ := ErrorClass.mem_registry_iff.mp d.errorClass_mem
  have usage : ∀ c ∈ ErrorClass.special, .usage ∈ c.lineage := by decide
  exact ⟨stands, usage _ member⟩

end Classes

namespace Session

variable {session begun now : Session} {position : Int}

section Answers

theorem record?_inside (first : 0 ≤ position) (last : position < session.count) :
    ∃ record, session.records[position.toNat]? = some record ∧ session.record? position = some record := by
  have bound : position.toNat < session.records.length := by
    rw [count] at last
    omega
  have found := List.getElem?_eq_getElem bound
  have sign : ¬ position < 0 := by omega
  refine ⟨_, found, ?_⟩
  rw [record?, if_neg sign, found]

theorem record?_outside (outside : ¬ (0 ≤ position ∧ position < session.count)) :
    session.record? position = none := by
  by_cases negative : position < 0
  · rw [record?, if_pos negative]
  · have beyond : session.records.length ≤ position.toNat := by
      rw [count] at outside
      omega
    rw [record?, if_neg negative]
    exact List.getElem?_eq_none beyond

theorem error?_ne_none_iff : session.error? ≠ none ↔ ∃ d, session.diagnostic = some d := by
  rw [error?, ne_eq, Option.map_eq_none_iff, Option.eq_none_iff_forall_ne_some]
  simp

theorem require_eq_error_iff {d : Diagnostic} : session.require = .error d ↔ session.diagnostic = some d := by
  rw [require]
  cases session.diagnostic <;> simp

/-- What a session answers: the fields of a record for each place from 0 on and before the number of records, and
nothing for any other number; whether a code is among those of the records; and an error if it has a diagnostic. -/
structure Answers (session : Session) : Prop where
  inside : ∀ position : Int, 0 ≤ position → position < session.count →
    ∃ record, session.records[position.toNat]? = some record ∧ session.codeAt position = record.code ∧
      session.argumentAt position = record.argument ∧ session.formAt position = record.form ∧
      session.descriptorAt position = some record.descriptor
  outside : ∀ position : Int, ¬ (0 ≤ position ∧ position < session.count) →
    session.codeAt position = .number 0 ∧ session.argumentAt position = [] ∧ session.formAt position = [] ∧
      session.descriptorAt position = none
  used : ∀ code, session.isCodeUsed code = true ↔
    ∃ position : Int, 0 ≤ position ∧ position < session.count ∧ session.codeAt position = code
  refuses : (∃ d, session.require = .error d) ↔ session.error? ≠ none
  cause : ∀ d, session.require = .error d →
    session.diagnostic = some d ∧ session.error? = some d.message ∧ d.errorClass.fault? = some d.fault ∧
      .usage ∈ d.errorClass.lineage

theorem isCodeUsed_iff (code : Code) : session.isCodeUsed code = true ↔
    ∃ position : Int, 0 ≤ position ∧ position < session.count ∧ session.codeAt position = code := by
  simp only [isCodeUsed, List.any_eq_true, decide_eq_true_eq]
  constructor
  · rintro ⟨record, member, same⟩
    obtain ⟨place, bound, rfl⟩ := List.getElem_of_mem member
    have last : (place : Int) < session.count := by
      rw [count]
      omega
    obtain ⟨found, present, answer⟩ := record?_inside (Int.natCast_nonneg place) last
    rw [Int.toNat_natCast, List.getElem?_eq_getElem bound] at present
    obtain rfl := Option.some.inj present
    refine ⟨place, Int.natCast_nonneg place, last, ?_⟩
    rw [codeAt, answer]
    exact same
  · rintro ⟨position, first, last, same⟩
    obtain ⟨record, present, answer⟩ := record?_inside first last
    rw [codeAt, answer] at same
    exact ⟨record, List.mem_of_getElem? present, same⟩

theorem answers (session : Session) : session.Answers where
  inside position first last := by
    obtain ⟨record, present, answer⟩ := record?_inside first last
    refine ⟨record, present, ?_⟩
    simp [codeAt, argumentAt, formAt, descriptorAt, answer]
  outside position outside := by
    simp [codeAt, argumentAt, formAt, descriptorAt, record?_outside outside]
  used := isCodeUsed_iff
  refuses := by simp only [require_eq_error_iff, error?_ne_none_iff]
  cause d given := by
    have kept := require_eq_error_iff.mp given
    refine ⟨kept, ?_, d.errorClass_stands⟩
    rw [error?, kept]
    rfl

end Answers

section Replies

/-- What the operations on a session reply. The four that ask about one place reply the fields of the same record; those
that ask for records reply the same ones, however they go through them; and an error is what the diagnostic says. -/
structure Replies (session : Session) : Prop where
  place : ∀ position, session.reply (.codeAt position) = .code (session.codeAt position) ∧
    session.reply (.argumentAt position) = .text (session.argumentAt position) ∧
    session.reply (.formAt position) = .text (session.formAt position) ∧
    session.reply (.descriptorAt position) = .descriptor (session.descriptorAt position)
  used : ∀ code, session.reply (.isCodeUsed code) = .truth true ↔ ∃ position : Int,
    0 ≤ position ∧ position < session.count ∧ session.reply (.codeAt position) = .code code
  walks : ∃ records, session.reply .records = .records records ∧ session.reply .walk = .records records ∧
    session.reply .count = .count records.length ∧ session.reply .scopedCount = .scope records.length ∧
    ∀ before, ∃ front back, session.reply (.walkAcrossRelease before) = .walked front back ∧ front ++ back = records
  fails : ∀ d, session.reply .diagnostic = .diagnostic (some d) →
    session.reply .message = .text d.message ∧ session.reply .require = .refused d ∧
      session.reply .scopedInterrupt = .refused d
  passes : session.reply .diagnostic = .diagnostic none →
    session.reply .message = .done ∧ session.reply .require = .done ∧ session.reply .scopedInterrupt = .interrupted

theorem requirement_of_some {d : Diagnostic} {otherwise : Reply} (blamed : session.diagnostic = some d) :
    session.requirement otherwise = .refused d := by
  rw [requirement, require_eq_error_iff.mpr blamed]

theorem requirement_of_none {otherwise : Reply} (clean : session.diagnostic = none) :
    session.requirement otherwise = otherwise := by
  rw [requirement, require, clean]

theorem replies (session : Session) : session.Replies where
  place _ := ⟨rfl, rfl, rfl, rfl⟩
  used code := by simp only [reply, Reply.truth.injEq, Reply.code.injEq, isCodeUsed_iff]
  walks :=
    ⟨session.records, rfl, rfl, rfl, rfl, fun before => ⟨_, _, rfl, List.take_append_drop before session.records⟩⟩
  fails d given := by
    have blamed : session.diagnostic = some d := Reply.diagnostic.inj given
    refine ⟨?_, requirement_of_some blamed, requirement_of_some blamed⟩
    rw [reply, error?, blamed]
    rfl
  passes given := by
    have clean : session.diagnostic = none := Reply.diagnostic.inj given
    refine ⟨?_, requirement_of_none clean, requirement_of_none clean⟩
    rw [reply, error?, clean]
    rfl

end Replies

section Life

def Operation.releases : Operation → Bool
  | .release | .leave | .leaveInterrupted | .scopedCount | .scopedInterrupt | .walkAcrossRelease _ => true
  | _ => false

theorem after_eq (session : Session) (operation : Operation) :
    session.after operation = if operation.releases then session.release else session := by
  cases operation <;> rfl

/-- What holds of a session that began as `begun`: its pass is over, before its first release it is unchanged and has
failed if and only if it has a diagnostic, and after that it has neither records nor a diagnostic. -/
structure Follows (begun : Session) (released : Bool) (now : Session) : Prop where
  state : now.state = begun.state
  finished : now.state ≠ .scanning
  exclusive : now.records = [] ∨ now.diagnostic = none
  unchanged : released = false → now = begun
  failed : released = false → (now.state = .failed ↔ now.diagnostic ≠ none)
  dropped : released = true → now.records = [] ∧ now.diagnostic = none

theorem follows_start (table : Table) (argv : List Text) (reorder : Bool) (argc : Option Int) :
    (start table argv reorder argc).Follows false (start table argv reorder argc) := by
  rw [start_eq]
  cases (table.scanArguments argv argc).diagnostic? with
  | none => exact ⟨rfl, by simp, Or.inr rfl, fun _ => rfl, by simp, by simp⟩
  | some d => exact ⟨rfl, by simp, Or.inl rfl, fun _ => rfl, by simp, by simp⟩

theorem follows_release {released : Bool} (follows : begun.Follows released now) :
    begun.Follows true now.release where
  state := follows.state
  finished := follows.finished
  exclusive := Or.inl rfl
  unchanged unreleased := by cases unreleased
  failed unreleased := by cases unreleased
  dropped _ := ⟨rfl, rfl⟩

theorem follows_after {released : Bool} (follows : begun.Follows released now) (operation : Operation) :
    begun.Follows (released || operation.releases) (now.after operation) := by
  rw [after_eq]
  cases operation.releases with
  | true =>
      rw [if_pos rfl, Bool.or_true]
      exact follows_release follows
  | false =>
      rw [if_neg Bool.false_ne_true, Bool.or_false]
      exact follows

theorem follows_afterAll {released : Bool} (follows : begun.Follows released now) (operations : List Operation) :
    begun.Follows (released || operations.any Operation.releases) (now.afterAll operations) := by
  induction operations generalizing released now with
  | nil =>
      rw [List.any_nil, Bool.or_false]
      exact follows
  | cons operation rest ih =>
      rw [List.any_cons, ← Bool.or_assoc]
      exact ih (follows_after follows operation)

end Life

/-- A session after any operations, in any order: it follows from how it began whether it was released among them, its
answers are those of the records and of the diagnostic that it then has, and the operations reply those answers. -/
theorem start_lifetime (table : Table) (argv : List Text) (reorder : Bool) (argc : Option Int)
    (operations : List Operation) :
    (start table argv reorder argc).Follows (operations.any Operation.releases)
        ((start table argv reorder argc).afterAll operations) ∧
      ((start table argv reorder argc).afterAll operations).Answers ∧
      ((start table argv reorder argc).afterAll operations).Replies := by
  have follows := follows_afterAll (follows_start table argv reorder argc) operations
  rw [Bool.false_or] at follows
  exact ⟨follows, answers _, replies _⟩

end Session

end CommandLine
