import CommandLine.Proofs.JsonRoundTrip
import CommandLine.Proofs.SessionTexts
import CommandLine.Report.Structured
import Mathlib.Algebra.Group.Int.Defs
import Mathlib.Algebra.Group.Nat.Defs
import Mathlib.Data.List.Forall2

namespace CommandLine

namespace Session

def outcome (session : Session) : Except Diagnostic (List Record) :=
  match session.diagnostic with
  | some diagnostic => .error diagnostic
  | none => .ok session.records

theorem outcome_start (table : Table) (argv : List Text) (reorder : Bool) (argc : Option Int) :
    (start table argv reorder argc).outcome = table.decode argv reorder argc := by
  rw [start]
  cases table.decode argv reorder argc <;> rfl

theorem outcome_of_fits {session : Session} (fits : session.diagnostic = none) :
    session.outcome = .ok session.records := by
  rw [outcome, fits]

theorem outcome_of_problem {session : Session} {d : Diagnostic} (problem : session.diagnostic = some d) :
    session.outcome = .error d := by
  rw [outcome, problem]

end Session

section Told

def Code.told : Code → Json
  | number value => .int value
  | char value => .text [value]

/-- What a reader is told of a record: its option is missing for operands and for nothing else. -/
def Record.told (r : Record) : Json :=
  .object [
    ("code".toText, r.code.told),
    ("option".toText, if r.isOperand then .null else .text r.form),
    ("argument".toText, .text r.argument),
    ("operand".toText, .bool r.isOperand)]

def Diagnostic.told (d : Diagnostic) : Json :=
  .object [
    ("code".toText, .text d.fault.code),
    ("kind".toText, .text d.fault.label),
    ("message".toText, .text d.message),
    ("token".toText, .text d.token),
    ("index".toText, .int d.index)]

def Session.told (session : Session) : Json :=
  .object [
    ("records".toText, .array (session.records.map Record.told)),
    ("error".toText, session.diagnostic.elim .null Diagnostic.told)]

def Session.numbers (session : Session) : List Int :=
  session.records.filterMap (fun r => match r.code with | .number value => some value | .char _ => none) ++
    (session.diagnostic.map Diagnostic.index).toList

variable {table : Table} {argv : List Text} {reorder : Bool} {argc : Option Int} {r : Record} {session : Session}

theorem form_eq_nil_iff (member : r ∈ (Session.start table argv reorder argc).records) :
    r.form = [] ↔ r.isOperand = true := by
  cases start_origin member with
  | operand inside => exact iff_of_true rfl rfl
  | option reports inside ends =>
      have spoken := (Record.showsOption_of_reports reports inside ends).form_ne_nil
      exact iff_of_false spoken (by simp [reports.isOperand])

theorem recordJson_eq_told (member : r ∈ (Session.start table argv reorder argc).records) :
    Report.recordJson r = r.told := by
  have code : Report.codeJson r.code = r.code.told := by cases r.code <;> rfl
  have option : Report.optionJson r.option? = if r.isOperand then .null else .text r.form := by
    by_cases operand : r.isOperand = true
    · rw [if_pos operand, Record.option?, if_pos ((form_eq_nil_iff member).mpr operand)]
      rfl
    · have spoken : r.form ≠ [] := fun none => operand ((form_eq_nil_iff member).mp none)
      rw [if_neg operand, Record.option?, if_neg spoken]
      rfl
  rw [Report.recordJson, code, option, Record.told]

theorem map_recordJson :
    (Session.start table argv reorder argc).records.map Report.recordJson =
      (Session.start table argv reorder argc).records.map Record.told :=
  List.map_congr_left fun _ member => recordJson_eq_told member

/-- What is written is what a reader is told. -/
theorem outcomeJson_eq_told :
    Report.outcomeJson (Session.start table argv reorder argc).outcome =
      (Session.start table argv reorder argc).told := by
  have records : (Session.start table argv reorder argc).records.map Report.recordJson =
      (Session.start table argv reorder argc).records.map Record.told := map_recordJson
  cases blamed : (table.scanArguments argv argc).diagnostic? with
  | some d =>
      rw [Session.start_eq_failed_iff.mpr blamed]
      rfl
  | none =>
      rw [Session.start_eq_succeeded_iff.mpr ⟨blamed, rfl⟩] at records ⊢
      rw [Session.told, ← records]
      rfl

end Told

section Writing

open Json (allWritable allFieldsWritable digitCount writable)

variable {table : Table} {argv : List Text} {reorder : Bool} {argc : Option Int} {session : Session}

theorem allWritable_eq (items : List Json) : allWritable items = items.all writable := by
  induction items with
  | nil => rfl
  | cons item items ih => rw [allWritable, ih, List.all_cons]

theorem allFieldsWritable_eq (fields : List (Text × Json)) :
    allFieldsWritable fields = fields.all fun field => writable field.2 := by
  induction fields with
  | nil => rfl
  | cons field fields ih => rw [allFieldsWritable, ih, List.all_cons]

theorem writable_int {value : Int} : (Json.int value).writable = true ↔ digitCount value ≤ Json.Limit.maxDigits := by
  rw [writable, decide_eq_true_iff]

theorem writable_record (r : Record) :
    r.told.writable = true ↔ ∀ value, r.code = .number value → digitCount value ≤ Json.Limit.maxDigits := by
  have option : (if r.isOperand then Json.null else .text r.form).writable = true := by
    split <;> rfl
  have only : r.told.writable = r.code.told.writable := by
    simp [Record.told, writable, allFieldsWritable, option]
  rw [only]
  cases r.code with
  | number value =>
      rw [Code.told, writable_int]
      exact ⟨fun small other same => Code.number.inj same ▸ small, fun small => small value rfl⟩
  | char value => exact iff_of_true rfl nofun

theorem writable_diagnostic (d : Diagnostic) :
    d.told.writable = true ↔ digitCount d.index ≤ Json.Limit.maxDigits := by
  have only : d.told.writable = (Json.int d.index).writable := by
    simp [Diagnostic.told, writable, allFieldsWritable]
  rw [only, writable_int]

theorem mem_numbers {value : Int} : value ∈ session.numbers ↔
    (∃ r ∈ session.records, r.code = .number value) ∨ ∃ d, session.diagnostic = some d ∧ d.index = value := by
  have code (r : Record) : (match r.code with | .number value => some value | .char _ => none) = some value ↔
      r.code = .number value := by
    cases r.code <;> simp
  simp only [Session.numbers, List.mem_append, List.mem_filterMap, code, Option.mem_toList,
    Option.map_eq_some_iff]

/-- The numbers of a session are all that its report may be too long for. -/
theorem writable_told :
    session.told.writable = true ↔ ∀ value ∈ session.numbers, digitCount value ≤ Json.Limit.maxDigits := by
  have records : allWritable (session.records.map Record.told) = true ↔
      ∀ r ∈ session.records, ∀ value, r.code = .number value → digitCount value ≤ Json.Limit.maxDigits := by
    simp only [allWritable_eq, List.all_map, List.all_eq_true, Function.comp_apply, writable_record]
  have error : (session.diagnostic.elim .null Diagnostic.told).writable = true ↔
      ∀ d, session.diagnostic = some d → digitCount d.index ≤ Json.Limit.maxDigits := by
    cases session.diagnostic with
    | none => exact iff_of_true rfl nofun
    | some d => simp [writable_diagnostic]
  have parts : session.told.writable = true ↔ allWritable (session.records.map Record.told) = true ∧
      (session.diagnostic.elim .null Diagnostic.told).writable = true := by
    simp [Session.told, writable, allFieldsWritable]
  rw [parts, records, error]
  constructor
  · rintro ⟨codes, index⟩ value member
    rcases mem_numbers.mp member with ⟨r, inside, code⟩ | ⟨d, blamed, rfl⟩
    · exact codes r inside value code
    · exact index d blamed
  · intro all
    refine ⟨fun r inside value code => all value ?_, fun d blamed => all d.index ?_⟩
    · exact mem_numbers.mpr (.inl ⟨r, inside, code⟩)
    · exact mem_numbers.mpr (.inr ⟨d, blamed, rfl⟩)

theorem structured_eq (table : Table) (argv : List Text) (reorder : Bool) (argc : Option Int) :
    Report.structured (Session.start table argv reorder argc).outcome =
      if (Session.start table argv reorder argc).told.writable then
        .ok ((Session.start table argv reorder argc).told.render 0 ++ ['\n'])
      else .error .integerWritten := by
  rw [Report.structured, outcomeJson_eq_told, Json.write]
  split <;> rfl

theorem structured_eq_ok_iff {report : Scalars} :
    Report.structured (Session.start table argv reorder argc).outcome = .ok report ↔
      (Session.start table argv reorder argc).told.writable = true ∧
        (Session.start table argv reorder argc).told.render 0 ++ ['\n'] = report := by
  rw [structured_eq]
  split
  · rename_i short
    rw [Except.ok.injEq]
    exact (and_iff_right short).symm
  · rename_i long
    exact iff_of_false nofun fun short => long short.1

end Writing

section Reading

open Json (Bounds Fits digitCount)

variable {bounds : Bounds} {table : Table} {argv : List Text} {reorder : Bool} {argc : Option Int} {session : Session}
  {report : Scalars}

structure Session.Unpaired (session : Session) : Prop where
  record : ∀ r ∈ session.records, r.form.Unpaired ∧ r.argument.Unpaired
  diagnostic : ∀ d, session.diagnostic = some d → d.message.Unpaired ∧ d.token.Unpaired

theorem unpaired_start (names : table.Unpaired) (elements : ∀ element ∈ argv, element.Unpaired) :
    (Session.start table argv reorder argc).Unpaired where
  record _ member := unpaired_record names elements member
  diagnostic _ blamed := unpaired_diagnostic names elements blamed

theorem fits_object {opened : Nat} {fields : List (Text × Json)} (keys : List Text)
    (given : fields.map Prod.fst = keys) (distinct : keys.Nodup) (unpaired : ∀ key ∈ keys, key.Unpaired)
    (room : bounds.allowsOpen (opened + 1) = true) (all : ∀ field ∈ fields, Fits bounds (opened + 1) field.2) :
    Fits bounds opened (.object fields) := by
  subst given
  exact .object room distinct (List.forall_mem_map.mp unpaired) all

theorem fits_record {opened : Nat} {r : Record} (room : bounds.allowsOpen (opened + 1) = true)
    (digits : ∀ value, r.code = .number value → bounds.allowsDigits (digitCount value) = true)
    (unpaired : r.form.Unpaired ∧ r.argument.Unpaired) : Fits bounds opened r.told := by
  have code : Fits bounds (opened + 1) r.code.told := by
    cases given : r.code with
    | number value => exact .int (digits value given)
    | char value => exact .text (Text.unpaired_singleton value)
  have option : Fits bounds (opened + 1) (if r.isOperand then .null else .text r.form) := by
    split
    · exact .null
    · exact .text unpaired.1
  refine fits_object (["code", "option", "argument", "operand"].map String.toText) rfl (by decide) (by decide) room ?_
  simp only [List.forall_mem_cons]
  exact ⟨code, option, .text unpaired.2, .bool, fun _ member => nomatch member⟩

theorem fits_diagnostic {opened : Nat} {d : Diagnostic} (room : bounds.allowsOpen (opened + 1) = true)
    (digits : bounds.allowsDigits (digitCount d.index) = true) (unpaired : d.message.Unpaired ∧ d.token.Unpaired) :
    Fits bounds opened d.told := by
  have code : Text.Unpaired d.fault.code := by cases d.fault <;> decide
  have label : Text.Unpaired d.fault.label := by cases d.fault <;> decide
  refine fits_object (["code", "kind", "message", "token", "index"].map String.toText) rfl (by decide) (by decide)
    room ?_
  simp only [List.forall_mem_cons]
  exact ⟨.text code, .text label, .text unpaired.1, .text unpaired.2, .int digits, fun _ member => nomatch member⟩

theorem fits_told (room : ∀ depth ≤ 3, bounds.allowsOpen depth = true)
    (digits : ∀ value ∈ session.numbers, bounds.allowsDigits (digitCount value) = true)
    (unpaired : session.Unpaired) : Fits bounds 0 session.told := by
  have records : ∀ item ∈ session.records.map Record.told, Fits bounds 2 item := by
    refine List.forall_mem_map.mpr fun r member => fits_record (room 3 (by omega)) ?_ (unpaired.record r member)
    exact fun value code => digits value (mem_numbers.mpr (.inl ⟨r, member, code⟩))
  have error : Fits bounds 1 (session.diagnostic.elim .null Diagnostic.told) := by
    cases given : session.diagnostic with
    | none => exact .null
    | some d =>
        have index : d.index ∈ session.numbers := mem_numbers.mpr (.inr ⟨d, given, rfl⟩)
        exact fits_diagnostic (room 2 (by omega)) (digits d.index index) (unpaired.diagnostic d given)
  refine fits_object (["records", "error"].map String.toText) rfl (by decide) (by decide) (room 1 (by omega)) ?_
  simp only [List.forall_mem_cons]
  exact ⟨.array (room 2 (by omega)) records, error, fun _ member => nomatch member⟩

theorem read_structured (names : table.Unpaired) (elements : ∀ element ∈ argv, element.Unpaired) {nesting : Nat}
    (room : 3 ≤ nesting)
    (written : Report.structured (Session.start table argv reorder argc).outcome = .ok report) :
    Json.read nesting report = .ok (Session.start table argv reorder argc).told := by
  obtain ⟨short, rfl⟩ := structured_eq_ok_iff.mp written
  have fits : Fits (.standard nesting) 0 (Session.start table argv reorder argc).told :=
    fits_told (fun depth deep => decide_eq_true (Nat.le_trans deep room))
      (fun value member => decide_eq_true (writable_told.mp short value member)) (unpaired_start names elements)
  exact Json.readWithin_render fits 0 (List.all_eq_true.mp rfl)

theorem ascii_structured (names : table.Unpaired) (elements : ∀ element ∈ argv, element.Unpaired)
    (written : Report.structured (Session.start table argv reorder argc).outcome = .ok report) : report.Ascii := by
  obtain ⟨_, rfl⟩ := structured_eq_ok_iff.mp written
  have fits : Fits .unlimited 0 (Session.start table argv reorder argc).told :=
    fits_told (fun _ _ => rfl) (fun _ _ => rfl) (unpaired_start names elements)
  exact (Json.ascii_render fits 0).append (Scalars.ascii_cons (by decide) Scalars.ascii_nil)

end Reading

section Telling

def Record.parts (r : Record) : Code × Option Text × Text × Bool := (r.code, r.option?, r.argument, r.isOperand)

theorem codeJson_injective : Function.Injective Report.codeJson := by
  intro a b same
  cases a <;> cases b <;> simp_all [Report.codeJson]

theorem optionJson_injective : Function.Injective Report.optionJson := by
  intro a b same
  cases a <;> cases b <;> simp_all [Report.optionJson]

theorem parts_of_recordJson {r s : Record} (same : Report.recordJson r = Report.recordJson s) : r.parts = s.parts := by
  simp only [Report.recordJson, Json.object.injEq, List.cons.injEq, Prod.mk.injEq, Json.text.injEq, Json.bool.injEq,
    true_and, and_true] at same
  obtain ⟨code, option, argument, operand⟩ := same
  rw [Record.parts, codeJson_injective code, optionJson_injective option, argument, operand]
  rfl

theorem parts_of_records {records others : List Record}
    (same : records.map Report.recordJson = others.map Report.recordJson) :
    records.map Record.parts = others.map Record.parts := by
  have pairs : List.Forall₂ (fun r s => Report.recordJson r = Report.recordJson s) records others := by
    rw [← List.forall₂_map_right_iff, ← List.forall₂_map_left_iff, List.forall₂_eq_eq_eq]
    exact same
  have parts := pairs.imp fun _ _ written => parts_of_recordJson written
  rwa [← List.forall₂_map_right_iff, ← List.forall₂_map_left_iff, List.forall₂_eq_eq_eq] at parts

theorem Fault.label_injective : Function.Injective Fault.label := by
  intro a b same
  cases a <;> cases b <;> first | rfl | exact absurd same (by decide)

theorem Diagnostic.told_injective : Function.Injective Diagnostic.told := by
  rintro ⟨fault, message, token, index⟩ ⟨other, _, _, _⟩ same
  simp only [told, Json.object.injEq, List.cons.injEq, Prod.mk.injEq, Json.text.injEq, Json.int.injEq,
    true_and, and_true] at same
  obtain ⟨_, label, rfl, rfl, rfl⟩ := same
  rw [Fault.label_injective label]

theorem elim_told_injective {d e : Option Diagnostic}
    (same : d.elim .null Diagnostic.told = e.elim .null Diagnostic.told) : d = e := by
  cases d with
  | none =>
      cases e with
      | none => rfl
      | some e => cases same
  | some d =>
      cases e with
      | none => cases same
      | some e => exact congrArg some (Diagnostic.told_injective same)

end Telling

/-- The report of a session can be written exactly if no number in it has too many digits. It is ASCII text, and a
reader gets back from it all that the session tells, as long as no high half of a pair stands before a low one in the
names and the elements. Hence sessions that differ in what is reported of their records, or in their diagnostics, have
different reports. -/
theorem structured_lossless {table : Table} {argv : List Text} (names : table.Unpaired)
    (elements : ∀ element ∈ argv, element.Unpaired) (reorder : Bool) (argc : Option Int) :
    let session := Session.start table argv reorder argc
    ((∃ report, Report.structured session.outcome = .ok report) ↔
        ∀ value ∈ session.numbers, Json.digitCount value ≤ Json.Limit.maxDigits) ∧
      (session.diagnostic = none ↔ session.state = .succeeded) ∧
      ∀ report, Report.structured session.outcome = .ok report →
        report.Ascii ∧ (∀ nesting ≥ 3, Json.read nesting report = .ok session.told) ∧
          ∀ (other : Table) (line : List Text) (order : Bool) (bound : Option Int), other.Unpaired →
            (∀ element ∈ line, element.Unpaired) →
            Report.structured (Session.start other line order bound).outcome = .ok report →
              (Session.start other line order bound).records.map Record.parts = session.records.map Record.parts ∧
                (Session.start other line order bound).diagnostic = session.diagnostic := by
  refine ⟨?_, ?_, ?_⟩
  · rw [← writable_told]
    simp only [structured_eq_ok_iff, exists_and_left, exists_eq', and_true]
  · rw [Session.start_diagnostic, Session.start_state_iff]
  · intro report written
    refine ⟨ascii_structured names elements written, fun nesting room => ?_, ?_⟩
    · exact read_structured names elements room written
    · intro other line order bound otherNames otherElements same
      have read := read_structured names elements (Nat.le_refl 3) written
      have told := Except.ok.inj
        ((read_structured otherNames otherElements (Nat.le_refl 3) same).symm.trans read)
      simp only [Session.told, Json.object.injEq, List.cons.injEq, Prod.mk.injEq, Json.array.injEq, true_and,
        and_true] at told
      obtain ⟨records, error⟩ := told
      rw [← map_recordJson, ← map_recordJson] at records
      exact ⟨parts_of_records records, elim_told_injective error⟩

def accentTable : Table := .ofList
  [⟨.number 97, some "all".toText, .never⟩, ⟨.char 'a', none, .never⟩, ⟨.char '😀', some "größe".toText, .required⟩]

theorem structured_lossless_sample :
    let argv : List Text := ["prog", "--all", "-😀é", "\"\\\n😀"].map String.toText
    ∃ report, Report.structured (Session.start accentTable argv true none).outcome = .ok report ∧ report.Ascii ∧
      Json.read 3 report = .ok (.object [
        ("records".toText, .array [
          .object [("code".toText, .int 97), ("option".toText, .text "--all".toText),
            ("argument".toText, .text []), ("operand".toText, .bool false)],
          .object [("code".toText, .text ['😀']), ("option".toText, .text "-😀".toText),
            ("argument".toText, .text ['é']), ("operand".toText, .bool false)],
          .object [("code".toText, .int 0), ("option".toText, .null),
            ("argument".toText, .text "\"\\\n😀".toText), ("operand".toText, .bool true)]]),
        ("error".toText, .null)]) := by
  intro argv
  have names : accentTable.Unpaired := by decide
  have elements : ∀ element ∈ argv, element.Unpaired := by decide
  have numbers : (Session.start accentTable argv true none).numbers = [97, 0] := by decide
  obtain ⟨exact, _, told⟩ := structured_lossless names elements true none
  obtain ⟨report, written⟩ := exact.mpr (by rw [numbers]; decide)
  obtain ⟨ascii, read, _⟩ := told report written
  exact ⟨report, written, ascii, (read 3 (Nat.le_refl 3)).trans rfl⟩

section Losses

theorem digitCount_le_iff {value : Int} {count : Nat} (positive : 0 < count) :
    Json.digitCount value ≤ count ↔ value.natAbs < 10 ^ count :=
  Nat.length_toDigits_le_iff (by decide) positive

theorem lt_digitCount_pow {count : Nat} (positive : 0 < count) : count < Json.digitCount (10 ^ count) := by
  rw [← Nat.not_le, digitCount_le_iff positive, Int.natAbs_pow]
  exact Nat.lt_irrefl _

theorem tenPower_ne_zero (count : Nat) : (10 ^ count : Int) ≠ 0 := Int.pow_ne_zero (by decide)

def numberTable (value : Int) (other : value ≠ 0) : Table where
  entries := [⟨.number value, some "x".toText, .never⟩]
  sentinelFree := by simpa [Descriptor.isSentinel] using other

def flagLine : List Text := ["prog", "--x"].map String.toText

theorem start_numberTable (value : Int) (other : value ≠ 0) :
    Session.start (numberTable value other) flagLine true none =
      ⟨.succeeded, [.long ⟨.number value, some "x".toText, .never⟩ []], none⟩ := rfl

theorem structured_of_long {value : Int} (other : value ≠ 0) (long : Json.Limit.maxDigits < Json.digitCount value) :
    Report.structured (Session.start (numberTable value other) flagLine true none).outcome =
      .error .integerWritten := by
  rw [structured_eq, if_neg]
  intro short
  have counted : value ∈ (Session.start (numberTable value other) flagLine true none).numbers :=
    List.mem_singleton_self value
  exact Nat.not_lt.mpr (writable_told.mp short value counted) long

def wholeTable : Table := .ofList [⟨.char 'x', some "x😀".toText, .never⟩]

def halvesTable : Table := .ofList [⟨.char 'x', some ['x', .half ⟨0x3d, by decide⟩, .half ⟨0x600, by decide⟩], .never⟩]

/-- A code that is too long makes the report fail, and halves in a name look like the character that they make. -/
theorem structured_losses :
    (∃ other : (10 ^ Json.Limit.maxDigits : Int) ≠ 0,
      (Session.start (numberTable (10 ^ Json.Limit.maxDigits) other) flagLine true none).state = .succeeded ∧
        Report.structured (Session.start (numberTable (10 ^ Json.Limit.maxDigits) other) flagLine true none).outcome =
          .error .integerWritten) ∧
      Report.structured (Session.start wholeTable flagLine true none).outcome =
        Report.structured (Session.start halvesTable flagLine true none).outcome ∧
      (Session.start wholeTable flagLine true none).records.map Record.parts ≠
        (Session.start halvesTable flagLine true none).records.map Record.parts := by
  have long : Json.Limit.maxDigits < Json.digitCount (10 ^ Json.Limit.maxDigits) := lt_digitCount_pow (by decide)
  refine ⟨⟨tenPower_ne_zero _, ?_, structured_of_long (tenPower_ne_zero _) long⟩, by decide +kernel, by decide⟩
  rw [start_numberTable]

end Losses

end CommandLine
