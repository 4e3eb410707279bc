import CommandLine.Proofs.StructuredReport
import CommandLine.Proofs.TableBuilding
import CommandLine.TableFile

/-!
What has been read can be written. The reader lets no integer pass that has too many digits to be written, so every
vector that is decoded against a table from a file has a structured report.
-/
namespace CommandLine

namespace Json

variable {nesting : Nat} {value : Json} {letters : Scalars} {items : List Json} {fields : List (Text × Json)}

section Numbers

theorem digitsValue_lt {digits : Scalars} (all : ∀ c ∈ digits, c.isDigit = true) :
    Numeral.digitsValue digits < 10 ^ digits.length := by
  induction digits with
  | nil => exact Nat.one_pos
  | cons c digits ih =>
      have later := ih fun other member => all other (List.mem_cons_of_mem c member)
      have digit := all c List.mem_cons_self
      have small : c.toNat - '0'.toNat ≤ 9 := by
        have range : 48 ≤ c.val ∧ c.val ≤ 57 := by simpa [Char.isDigit] using digit
        have most : c.toNat ≤ 57 := UInt32.le_iff_toNat_le.mp range.2
        have zero : '0'.toNat = 48 := rfl
        omega
      have leading := Nat.mul_le_mul_left (10 ^ digits.length) small
      rw [Numeral.digitsValue] at later ⊢
      rw [Nat.ofDigitChars_cons, Nat.ofDigitChars_eq_ofDigitChars_zero, List.length_cons, Nat.pow_succ, Nat.mul_zero,
        Nat.zero_add]
      omega

theorem takeWhole_isDigit (letters : Scalars) : ∀ c ∈ (Numeral.takeWhole letters).1, c.isDigit = true := by
  intro c member
  unfold Numeral.takeWhole at member
  split at member
  · obtain rfl := List.mem_singleton.mp member
    rfl
  · exact List.mem_takeWhile_imp member

theorem writable_signed {digits : Scalars} (all : ∀ c ∈ digits, c.isDigit = true) (negative : Bool)
    (short : digits.length ≤ Limit.maxDigits) :
    (Json.int (Numeral.signed negative (Numeral.digitsValue digits))).writable = true := by
  have size : (Numeral.signed negative (Numeral.digitsValue digits)).natAbs = Numeral.digitsValue digits := by
    cases negative <;> simp [Numeral.signed]
  rw [writable_int, digitCount_le_iff (by decide), size]
  exact Nat.lt_of_lt_of_le (digitsValue_lt all) (Nat.pow_le_pow_right (by decide) short)

theorem writable_numeral {numeral : Numeral} (digits : ∀ c ∈ numeral.whole, c.isDigit = true)
    (read : numeral.value (.standard nesting) = .ok value) : value.writable = true := by
  unfold Numeral.value at read
  split at read
  · split at read
    · rename_i allowed
      cases read
      exact writable_signed digits _ (of_decide_eq_true allowed)
    · cases read
  · cases read
    rfl

theorem whole_isDigit {numeral : Numeral} {rest : Scalars} (taken : Numeral.take? letters = some (numeral, rest)) :
    ∀ c ∈ numeral.whole, c.isDigit = true := by
  have digits := takeWhole_isDigit (Numeral.takeSign letters).2
  unfold Numeral.take? at taken
  dsimp only at taken
  split at taken
  · cases taken
  · rename_i whole rest _ split
    cases taken
    rw [split] at digits
    exact digits

theorem writable_word (read : wordValue (.standard nesting) letters = .ok value) : value.writable = true := by
  unfold wordValue at read
  split_ifs at read
  all_goals try (cases read; rfl)
  unfold numberValue at read
  split at read
  · cases read
  · rename_i numeral rest taken
    cases judged : numeral.value (.standard nesting) with
    | error fault => simp [judged] at read
    | ok found =>
        simp only [judged] at read
        split at read <;> cases read
        exact writable_numeral (whole_isDigit taken) judged

end Numbers

section Building

theorem writable_array : (array items).writable = true ↔ ∀ item ∈ items, item.writable = true := by
  rw [writable, allWritable_eq, List.all_eq_true]

theorem writable_object : (object fields).writable = true ↔ ∀ field ∈ fields, field.2.writable = true := by
  rw [writable, allFieldsWritable_eq, List.all_eq_true]

theorem mem_put {key : Text} {field : Text × Json} (member : field ∈ put key value fields) :
    field = (key, value) ∨ field ∈ fields := by
  induction fields with
  | nil => exact .inl (List.mem_singleton.mp member)
  | cons first fields ih =>
      rw [put] at member
      split at member
      · exact (List.mem_cons.mp member).imp_right (List.mem_cons_of_mem _)
      · rcases List.mem_cons.mp member with rfl | later
        · exact .inr List.mem_cons_self
        · exact (ih later).imp_right (List.mem_cons_of_mem _)

theorem writable_put {key : Text} (all : ∀ field ∈ fields, field.2.writable = true) (short : value.writable = true) :
    ∀ field ∈ put key value fields, field.2.writable = true := by
  intro field member
  rcases mem_put member with rfl | old
  · exact short
  · exact all field old

def Frame.Writable : Frame → Prop
  | .array items => ∀ item ∈ items, item.writable = true
  | .object fields _ => ∀ field ∈ fields, field.2.writable = true

def Expecting.Writable : Expecting → Prop
  | .key fields | .colon fields _ => ∀ field ∈ fields, field.2.writable = true
  | .afterValue value => value.writable = true
  | _ => True

structure Building.Writable (state : Building) : Prop where
  frames : ∀ frame ∈ state.frames, frame.Writable
  expecting : state.expecting.Writable

variable {frames : List Frame} {lexeme : Lexeme} {state next : Building}

theorem writable_begin (held : ∀ frame ∈ frames, frame.Writable)
    (begun : Building.beginValue (.standard nesting) frames lexeme = .ok next) : next.Writable := by
  unfold Building.beginValue Building.enter at begun
  split at begun
  · split_ifs at begun
    cases begun
    exact ⟨held, trivial⟩
  · split_ifs at begun
    cases begun
    exact ⟨held, trivial⟩
  · cases begun
    exact ⟨held, rfl⟩
  · split at begun
    · rename_i read
      cases begun
      exact ⟨held, writable_word read⟩
    · cases begun
  · cases begun

theorem writable_end (held : ∀ frame ∈ frames, frame.Writable) (short : value.writable = true)
    (ended : Building.endValue value frames lexeme = .ok next) : next.Writable := by
  unfold Building.endValue at ended
  split at ended
  case h_5 => cases ended
  all_goals
    obtain ⟨inside, outside⟩ := List.forall_mem_cons.mp held
    cases ended
  · exact ⟨List.forall_mem_cons.mpr ⟨List.forall_mem_cons.mpr ⟨short, inside⟩, outside⟩, trivial⟩
  · have all : ∀ item ∈ value :: _, item.writable = true := List.forall_mem_cons.mpr ⟨short, inside⟩
    exact ⟨outside, writable_array.mpr fun item member => all item (List.mem_reverse.mp member)⟩
  · exact ⟨outside, writable_put inside short⟩
  · exact ⟨outside, writable_object.mpr (writable_put inside short)⟩

theorem writable_step (sound : state.Writable) (step : state.step (.standard nesting) lexeme = .ok next) :
    next.Writable := by
  obtain ⟨frames, expecting⟩ := state
  obtain ⟨held, expected⟩ := sound
  unfold Building.step at step
  dsimp only at step held expected
  split at step
  · exact writable_begin held step
  · cases step
    exact ⟨held, rfl⟩
  · refine writable_begin (List.forall_mem_cons.mpr ⟨?_, held⟩) step
    exact fun _ member => nomatch member
  · cases step
    exact ⟨held, rfl⟩
  · cases step
    exact ⟨held, fun _ member => nomatch member⟩
  · cases step
    exact ⟨held, expected⟩
  · cases step
    exact ⟨List.forall_mem_cons.mpr ⟨expected, held⟩, trivial⟩
  · exact writable_end held expected step
  · cases step

theorem writable_steps {lexemes : List Lexeme} (sound : state.Writable)
    (steps : state.steps (.standard nesting) lexemes = .ok next) : next.Writable := by
  induction lexemes generalizing state with
  | nil =>
      cases steps
      exact sound
  | cons lexeme lexemes ih =>
      rw [Building.steps] at steps
      cases step : state.step (.standard nesting) lexeme with
      | error fault => simp [step] at steps
      | ok between =>
          rw [step] at steps
          exact ih (writable_step sound step) steps

theorem writable_take {fed : Reading.Fed} {progress : Progress} (sound : state.Writable)
    (taken : Progress.take (.standard nesting) state fed = .ok progress) : progress.building.Writable := by
  unfold Progress.take at taken
  split at taken <;> cases taken
  rename_i steps _
  exact writable_steps sound steps

theorem writable_readFrom {progress : Progress} {text : Scalars} (sound : progress.building.Writable)
    (read : progress.readFrom (.standard nesting) text = .ok value) : value.writable = true := by
  induction text generalizing progress with
  | nil =>
      rw [Progress.readFrom] at read
      cases taken : Progress.take (.standard nesting) progress.building progress.reading.finish with
      | error fault => simp [taken] at read
      | ok finished =>
          rw [taken] at read
          have built := (writable_take sound taken).expecting
          dsimp only at read
          unfold Building.result at read
          split at read <;> cases read
          rename_i whole
          rwa [whole] at built
  | cons c rest ih =>
      rw [Progress.readFrom] at read
      cases taken : Progress.take (.standard nesting) progress.building (progress.reading.feed c) with
      | error fault => simp [taken] at read
      | ok next =>
          rw [taken] at read
          exact ih (writable_take sound taken) read

/-- Every value that is read can be written. -/
theorem writable_read {text : Scalars} (read : Json.read nesting text = .ok value) : value.writable = true := by
  have start : Progress.start.building.Writable := ⟨List.forall_mem_nil _, trivial⟩
  exact writable_readFrom start read

end Building

theorem writable_get? {key : Text} (all : (object fields).writable = true) (given : get? key fields = some value) :
    value.writable = true := by
  obtain ⟨before, after, split, _⟩ := List.lookup_eq_some_iff.mp given
  exact writable_object.mp all (key, value) (by rw [split]; simp)

end Json

section Tables

open Json (digitCount writable)

def Table.Writable (table : Table) : Prop :=
  ∀ d ∈ table.entries, ∀ value, d.code = .number value → digitCount value ≤ Json.Limit.maxDigits

variable {nesting : Nat} {table : Table} {d : Descriptor} {argv : List Text} {reorder : Bool} {argc : Option Int}

theorem code_of_check {spec : Spec} (made : spec.check = .ok d) : Code.ofJson spec.code = .ok d.code := by
  cases code : Code.ofJson spec.code with
  | error error => simp [Spec.check, code, bind, Except.bind] at made
  | ok found =>
      cases name : Descriptor.nameOfJson spec.name with
      | error error => simp [Spec.check, code, name, bind, Except.bind] at made
      | ok text =>
          cases arity : spec.arity.check <;>
            simp [Spec.check, code, name, arity, bind, Except.bind, pure, Except.pure] at made
          rw [← made]

theorem code_of_readEntry {entry : Json × Nat} (made : TableFile.readEntry entry = .ok d) :
    ∃ fields code, entry.1 = .object fields ∧ Json.get? "code".toText fields = some code ∧
      Code.ofJson code = .ok d.code := by
  unfold TableFile.readEntry at made
  split at made
  · rename_i fields object
    split at made
    · cases made
    · rename_i code given
      cases arity : TableFile.givenArity entry.2 fields with
      | error error => simp [arity, bind, Except.bind] at made
      | ok found =>
          simp only [arity, bind, Except.bind] at made
          exact ⟨fields, code, object, given, code_of_check made⟩
  · cases made

theorem writable_code {code : Json} {value : Int} (short : code.writable = true)
    (judged : Code.ofJson code = .ok (.number value)) : digitCount value ≤ Json.Limit.maxDigits := by
  unfold Code.ofJson at judged
  split at judged <;> cases judged
  exact writable_int.mp short

theorem exists_of_forall₂ {α β : Type} {R : α → β → Prop} {xs : List α} {ys : List β} (pairs : List.Forall₂ R xs ys)
    {y : β} (member : y ∈ ys) : ∃ x ∈ xs, R x y := by
  induction pairs with
  | nil => cases member
  | cons here _ ih =>
      rcases List.mem_cons.mp member with rfl | later
      · exact ⟨_, List.mem_cons_self, here⟩
      · obtain ⟨x, inside, related⟩ := ih later
        exact ⟨x, List.mem_cons_of_mem _ inside, related⟩

/-- Every entry of a table that was built was read from something. -/
theorem exists_read {α ε : Type} {read : α → Except ε Descriptor} {xs : List α}
    (built : Table.build read xs = .ok table) (member : d ∈ table.entries) : ∃ x ∈ xs, read x = .ok d := by
  obtain ⟨x, before, made⟩ := exists_of_forall₂ (Table.build_eq_ok_iff.mp built) member
  exact ⟨x, List.mem_of_mem_take before, made⟩

theorem writable_ofJson {value : Json} (short : value.writable = true) (made : TableFile.ofJson value = .ok table) :
    table.Writable := by
  unfold TableFile.ofJson at made
  split at made
  · rename_i items
    intro d member number code
    obtain ⟨entry, inside, read⟩ := exists_read made member
    obtain ⟨fields, given, object, found, judged⟩ := code_of_readEntry read
    have kept := Json.writable_array.mp short entry.1 (List.fst_mem_of_mem_zipIdx inside)
    rw [object] at kept
    exact writable_code (Json.writable_get? kept found) (code ▸ judged)
  · cases made

theorem writable_ofOctets {octets : Octets} (loaded : TableFile.ofOctets nesting octets = .ok table) :
    table.Writable := by
  unfold TableFile.ofOctets TableFile.ofText at loaded
  split at loaded
  · cases loaded
  · split at loaded
    · cases loaded
    · cases loaded
    · rename_i value read
      cases made : TableFile.ofJson value with
      | error error => simp [made, Except.mapError] at loaded
      | ok found =>
          simp only [made, Except.mapError, Except.ok.injEq] at loaded
          exact loaded ▸ writable_ofJson (Json.writable_read read) made

theorem exists_structured (codes : table.Writable) (few : argv.length ≤ 10 ^ Json.Limit.maxDigits) :
    ∃ report, Report.structured (Session.start table argv reorder argc).outcome = .ok report := by
  simp only [structured_eq_ok_iff, exists_and_left, exists_eq', and_true]
  refine writable_told.mpr fun value member => ?_
  rcases mem_numbers.mp member with ⟨r, inside, code⟩ | ⟨d, blamed, rfl⟩
  · cases start_origin inside with
    | operand _ =>
        cases code
        decide
    | option reports _ _ => exact codes r.descriptor reports.mem value code
  · rw [Session.start_diagnostic] at blamed
    obtain ⟨failure, _, split, rfl⟩ := Table.diagnostic_iff_occurs.mp blamed
    obtain ⟨before, _⟩ := List.getElem?_eq_some_iff.mp (Failure.token_at_place split).2
    have index : (failure.diagnostic 1).index = failure.place := rfl
    rw [index, digitCount_le_iff (by decide), Int.natAbs_natCast]
    exact Nat.lt_of_lt_of_le before few

end Tables

end CommandLine
