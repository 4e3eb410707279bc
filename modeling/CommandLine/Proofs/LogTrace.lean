import CommandLine.Proofs.Bound
import CommandLine.Proofs.Failure

namespace CommandLine

theorem placed_inj {i j : Nat} {a b : Text} : placed i a = placed j b ↔ i = j ∧ a = b := by
  have shape : ∀ n message, placed n message =
      "argv[".toText ++ (Text.ofNat n ++ .scalar ']' :: ([.scalar ':', .scalar ' '] ++ message)) := by
    intro n message
    have parts := List.append_assoc ("argv[".toText ++ Text.ofNat n) "]: ".toText message
    exact parts.trans (List.append_assoc _ _ _)
  rw [shape, shape, List.append_cancel_left_eq, Text.cut_inj (Text.not_mem_ofNat i rfl) (Text.not_mem_ofNat j rfl),
    List.append_cancel_left_eq, Text.ofNat_inj]

inductive Finding where
  | option (token : Text) (forms : List Text)
  | terminator
  | refusal (problem : Problem)
  deriving DecidableEq, Repr

namespace Finding

def text : Finding → Text
  | option token forms => token ++ " -> ".toText ++ Json.bracketed '[' ']' (forms.map Text.quoted)
  | terminator => "end of options".toText
  | refusal problem => problem.message

theorem text_option (token : Text) (forms : List Text) :
    (option token forms).text = token ++ " -> ".toText ++ Json.bracketed '[' ']' (forms.map Text.quoted) := rfl

def forms : Finding → List Text
  | option _ forms => forms
  | _ => []

end Finding

structure Event where
  place : Nat
  finding : Finding
  deriving DecidableEq, Repr

def Event.message (e : Event) : Text := placed e.place e.finding.text

section Events

def Step.finding? : Step → Option Finding
  | operand _ => none
  | option token records => some (.option token (records.map Record.form))

def Note.event? (note : Note) : Option Event := note.step.finding?.map fun finding => ⟨note.index, finding⟩

def Ending.event? : Ending → Option Event
  | exhausted => none
  | terminated index _ => some ⟨index, .terminator⟩
  | failed index _ problem => some ⟨index, .refusal problem⟩

def Scan.events (scan : Scan) : List Event := scan.notes.filterMap Note.event? ++ scan.ending.event?.toList

variable {scan : Scan} {note : Note} {e : Event}

theorem noteMessages_eq (note : Note) : Scan.noteMessages note = (note.event?.map Event.message).toList := by
  rcases note with ⟨index, step⟩
  cases step with
  | operand text => rfl
  | option token records =>
      have forms : (records.map Record.form).map Text.quoted = records.map fun record => Text.quoted record.form :=
        List.map_map
      have text : (Finding.option token (records.map Record.form)).text =
          token ++ " -> ".toText ++ formList records := by
        rw [Finding.text_option, forms, formList]
      exact congrArg (fun text => [placed index text]) text.symm

theorem endingMessages_eq (ending : Ending) :
    Scan.endingMessages ending = (ending.event?.map Event.message).toList := by
  cases ending <;> rfl

theorem log_eq_events (scan : Scan) : scan.log = scan.events.map Event.message := by
  have notes : scan.notes.flatMap Scan.noteMessages = (scan.notes.filterMap Note.event?).map Event.message := by
    induction scan.notes with
    | nil => rfl
    | cons note notes ih =>
        rw [List.flatMap_cons, ih, noteMessages_eq]
        cases found : note.event? <;> simp [found]
  rw [Scan.log, Scan.events, List.map_append, notes, endingMessages_eq]
  cases scan.ending.event? <;> rfl

theorem events_cons (note : Note) (scan : Scan) : (scan.cons note).events = note.event?.toList ++ scan.events := by
  rw [Scan.events, Scan.cons, List.filterMap_cons]
  cases note.event? <;> rfl

end Events

section Places

def Meeting.finding? : Meeting → Option Finding
  | stop => some .terminator
  | noted step _ => step.finding?
  | refused problem => some (.refusal problem)

namespace Table

def finding? (table : Table) (elements : List Text) (place : Nat) : Option Finding :=
  elements[place]?.bind fun element => (table.meet element elements[place + 1]?).finding?

/-- A pass that begins at a place reads a token there, and at each place behind a token and the value that it takes. -/
inductive Visits (table : Table) (elements : List Text) : Nat → Nat → Prop where
  | here {start : Nat} (inside : start < elements.length) : Visits table elements start start
  | behind {start place : Nat} {step : Step} {used : Bool} (inside : start < elements.length)
      (met : table.meet elements[start] elements[start + 1]? = .noted step used)
      (more : Visits table elements (start + 1 + used.toNat) place) : Visits table elements start place

variable {table : Table} {elements : List Text} {start place other : Nat} {step : Step} {used : Bool}

theorem Visits.bounds (visits : table.Visits elements start place) : start ≤ place ∧ place < elements.length := by
  induction visits with
  | here inside => exact ⟨Nat.le_refl _, inside⟩
  | behind inside met more ih => omega

theorem visits_iff_of_noted (inside : start < elements.length)
    (met : table.meet elements[start] elements[start + 1]? = .noted step used) :
    table.Visits elements start place ↔ place = start ∨ table.Visits elements (start + 1 + used.toNat) place := by
  constructor
  · intro visits
    cases visits with
    | here _ => exact Or.inl rfl
    | behind _ again more =>
        rw [met] at again
        cases again
        exact Or.inr more
  · intro either
    rcases either with rfl | more
    · exact .here inside
    · exact .behind inside met more

theorem visits_iff_of_ended (inside : start < elements.length)
    (ended : ∀ step used, table.meet elements[start] elements[start + 1]? ≠ .noted step used) :
    table.Visits elements start place ↔ place = start := by
  constructor
  · intro visits
    cases visits with
    | here _ => rfl
    | behind _ met _ => exact absurd met (ended _ _)
  · intro same
    rw [same]
    exact .here inside

theorem not_visits_value (visits : table.Visits elements start place) (inside : place < elements.length)
    (met : table.meet elements[place] elements[place + 1]? = .noted step true) :
    ¬ table.Visits elements start (place + 1) := by
  induction visits with
  | here first =>
      intro value
      rcases (visits_iff_of_noted first met).mp value with same | later
      · omega
      · have bounds := later.bounds
        simp only [Bool.toNat_true] at bounds
        omega
  | behind first passed more ih =>
      intro value
      rcases (visits_iff_of_noted first passed).mp value with same | later
      · have bounds := more.bounds
        omega
      · exact ih inside met later

theorem visits_le_ended (visits : table.Visits elements start place) (inside : place < elements.length)
    (ended : ∀ step used, table.meet elements[place] elements[place + 1]? ≠ .noted step used)
    (also : table.Visits elements start other) : other ≤ place := by
  induction visits with
  | here first => exact ((visits_iff_of_ended first ended).mp also).le
  | behind first passed more ih =>
      rcases (visits_iff_of_noted first passed).mp also with rfl | later
      · have bounds := more.bounds
        omega
      · exact ih inside ended later

theorem finding_option_iff {element token : Text} {next : Option Text} {forms : List Text} :
    (table.meet element next).finding? = some (.option token forms) ↔
      element = token ∧ (classify token).isOption = true ∧
        ∃ resolution, table.resolve (classify token) next = .ok resolution ∧
          forms = resolution.records.map Record.form := by
  constructor
  · intro found
    have meets := meets_of_meet (Eq.refl (table.meet element next))
    generalize table.meet element next = meeting at meets found
    cases meets with
    | stop _ => cases found
    | operand _ => cases found
    | refused _ _ => cases found
    | option isOption resolved =>
        cases found
        exact ⟨rfl, isOption, _, resolved, rfl⟩
  · intro read
    rcases read with ⟨rfl, isOption, resolution, resolved, rfl⟩
    rw [meet_option isOption, resolved]
    rfl

theorem finding_terminator_iff {element : Text} {next : Option Text} :
    (table.meet element next).finding? = some .terminator ↔ element = [.scalar '-', .scalar '-'] := by
  constructor
  · intro found
    have meets := meets_of_meet (Eq.refl (table.meet element next))
    generalize table.meet element next = meeting at meets found
    cases meets with
    | stop dashes => exact dashes
    | operand _ => cases found
    | refused _ _ => cases found
    | option _ _ => cases found
  · intro dashes
    rw [dashes, meet_dashes]
    rfl

/-- What a pass that begins at a place tells: what is found at the places that it visits, in their order. -/
structure TracedFrom (table : Table) (elements : List Text) (start : Nat) (events : List Event) : Prop where
  mem_iff : ∀ e, e ∈ events ↔ table.Visits elements start e.place ∧ table.finding? elements e.place = some e.finding
  increasing : events.Pairwise fun one two => one.place < two.place

theorem finding?_eq (inside : place < elements.length) :
    table.finding? elements place = (table.meet elements[place] elements[place + 1]?).finding? := by
  rw [finding?, List.getElem?_eq_getElem inside, Option.bind_some]

theorem tracedFrom_ended (inside : start < elements.length)
    (ended : ∀ step used, table.meet elements[start] elements[start + 1]? ≠ .noted step used) {finding : Finding}
    (found : (table.meet elements[start] elements[start + 1]?).finding? = some finding) :
    table.TracedFrom elements start [⟨start, finding⟩] where
  mem_iff e := by
    have here : table.finding? elements start = some finding := (finding?_eq inside).trans found
    rw [visits_iff_of_ended inside ended, List.mem_singleton]
    constructor
    · intro same
      rw [same]
      exact ⟨rfl, here⟩
    · intro told
      rcases e with ⟨place, other⟩
      rcases told with ⟨rfl, there⟩
      have same : finding = other := Option.some.inj (here.symm.trans there)
      rw [same]
  increasing := List.pairwise_singleton _ _

theorem tracedFrom_noted (inside : start < elements.length) {events : List Event}
    (met : table.meet elements[start] elements[start + 1]? = .noted step used)
    (traced : table.TracedFrom elements (start + 1 + used.toNat) events) :
    table.TracedFrom elements start ((Note.event? ⟨start, step⟩).toList ++ events) where
  mem_iff e := by
    have here : table.finding? elements start = step.finding? := by
      rw [finding?_eq inside, met]
      rfl
    rw [visits_iff_of_noted inside met, List.mem_append, traced.mem_iff, Option.mem_toList, Note.event?,
      Option.map_eq_some_iff]
    constructor
    · intro either
      rcases either with ⟨finding, found, rfl⟩ | ⟨later, found⟩
      · exact ⟨Or.inl rfl, here.trans found⟩
      · exact ⟨Or.inr later, found⟩
    · intro told
      rcases told with ⟨same | later, found⟩
      · rw [same, here] at found
        exact Or.inl ⟨e.finding, found, by rw [← same]⟩
      · exact Or.inr ⟨later, found⟩
  increasing := by
    have behind : ∀ e ∈ events, start < e.place := by
      intro e member
      have bounds := ((traced.mem_iff e).mp member).1.bounds
      omega
    cases given : step.finding? with
    | none => simpa [Note.event?, given] using traced.increasing
    | some finding => simpa [Note.event?, given] using ⟨behind, traced.increasing⟩

theorem tracedFrom_scan (table : Table) (elements : List Text) (start : Nat) :
    table.TracedFrom elements start (table.scan false start (elements.drop start)).events := by
  by_cases inside : start < elements.length
  · rw [scan_place inside]
    cases met : table.meet elements[start] elements[start + 1]? with
    | stop => exact tracedFrom_ended inside (by simp [met]) (by rw [met]; rfl)
    | refused problem => exact tracedFrom_ended inside (by simp [met]) (by rw [met]; rfl)
    | noted step used =>
        have ready : used = true → elements.drop (start + 1) ≠ [] := by
          rw [← List.head?_drop] at met
          exact rest_of_meet met
        simp only [events_cons, scan_over ready]
        exact tracedFrom_noted inside met (tracedFrom_scan table elements _)
  · have nothing : elements.drop start = [] := List.drop_eq_nil_of_le (by omega)
    rw [nothing, scan_nil]
    refine ⟨?_, List.Pairwise.nil⟩
    intro e
    constructor
    · intro member
      cases member
    · intro told
      have bounds := told.1.bounds
      omega
termination_by elements.length - start

end Table

end Places

section Texts

theorem head_of_isOption {text : Text} (isOption : (classify text).isOption = true) :
    text.head? = some (.scalar '-') := by
  have shape := Token.shape_classify text
  generalize classify text = token at shape isOption
  cases shape with
  | terminator => rfl
  | longBare _ _ _ => rfl
  | longValued _ _ _ => rfl
  | cluster _ _ _ => rfl
  | operand _ _ => cases isOption

/-- The message of a problem begins with neither a dash nor the first letter of the terminator's message. -/
theorem head_message (problem : Problem) :
    ∃ c, problem.message.head? = some c ∧ c ≠ '-' ∧ c ≠ 'e' := by
  cases problem with
  | ambiguous _ => exact ⟨'o', rfl, by decide, by decide⟩
  | unrecognized _ => exact ⟨'u', rfl, by decide, by decide⟩
  | longAllowsNoArgument _ => exact ⟨'o', rfl, by decide, by decide⟩
  | longNeedsArgument _ => exact ⟨'o', rfl, by decide, by decide⟩
  | invalidShort _ => exact ⟨'i', rfl, by decide, by decide⟩
  | shortNeedsArgument _ => exact ⟨'o', rfl, by decide, by decide⟩

theorem head_text_option {token : Text} (isOption : (classify token).isOption = true) (forms : List Text) :
    (Finding.option token forms).text.head? = some (.scalar '-') := by
  have dash := head_of_isOption isOption
  rw [Finding.text_option, List.append_assoc, List.head?_append, dash]
  rfl

end Texts

section Parts

variable {scan : Scan} {table : Table} {e : Event}

theorem option_of_mem_notes (member : e ∈ scan.notes.filterMap Note.event?) :
    ∃ token forms, e.finding = .option token forms := by
  rcases List.mem_filterMap.mp member with ⟨note, _, told⟩
  rcases Option.map_eq_some_iff.mp told with ⟨finding, found, rfl⟩
  cases step : note.step with
  | operand text =>
      rw [step] at found
      cases found
  | option token records =>
      rw [step] at found
      exact ⟨token, records.map Record.form, (Option.some.inj found).symm⟩

theorem mem_events (member : e ∈ scan.events) :
    (∃ token forms, e.finding = .option token forms) ∨ scan.ending.event? = some e := by
  rcases List.mem_append.mp member with note | ending
  · exact Or.inl (option_of_mem_notes note)
  · exact Or.inr (Option.mem_toList.mp ending)

theorem events_of_ending (ending : scan.ending.event? = some e) :
    scan.events = scan.notes.filterMap Note.event? ++ [e] := by
  rw [Scan.events, ending]
  rfl

theorem forms_events (scan : Scan) :
    scan.events.flatMap (·.finding.forms) = (scan.notes.flatMap (·.step.optionRecords)).map Record.form := by
  have ending : scan.ending.event?.toList.flatMap (·.finding.forms) = [] := by
    cases scan.ending <;> rfl
  rw [Scan.events, List.flatMap_append, ending, List.append_nil]
  induction scan.notes with
  | nil => rfl
  | cons note notes ih =>
      rw [List.flatMap_cons, List.map_append, ← ih]
      rcases note with ⟨index, step⟩
      cases step <;> rfl

theorem optionsOf_inOrder (lawful : ∀ note ∈ scan.notes, note.step.Lawful table) :
    optionsOf scan.inOrder = scan.notes.flatMap (·.step.optionRecords) := by
  have tail : optionsOf scan.tail = [] := by
    rw [Scan.tail]
    cases scan.ending with
    | terminated _ rest => exact optionsOf_operands rest
    | _ => rfl
  rw [Scan.inOrder, optionsOf_append, tail, List.append_nil, optionsOf, List.filter_flatMap]
  apply List.flatMap_congr
  intro note member
  have allowed := lawful note member
  cases step : note.step with
  | operand text => rfl
  | option token records =>
      rw [step] at allowed
      exact optionsOf_reports allowed

end Parts

section Traced

variable {table : Table} {elements : List Text} {events : List Event} {e : Event} {place : Nat} {token text : Text}
  {forms : List Text} {finding : Finding}

theorem mem_messages_iff : placed place text ∈ events.map Event.message ↔
    ∃ finding, ⟨place, finding⟩ ∈ events ∧ finding.text = text := by
  rw [List.mem_map]
  constructor
  · intro told
    rcases told with ⟨e, member, told⟩
    rcases placed_inj.mp told with ⟨rfl, same⟩
    exact ⟨e.finding, member, same⟩
  · intro told
    rcases told with ⟨finding, member, same⟩
    exact ⟨_, member, congrArg (placed place) same⟩

namespace Table

theorem finding?_eq_some_iff : table.finding? elements place = some finding ↔
    ∃ element, elements[place]? = some element ∧ (table.meet element elements[place + 1]?).finding? = some finding :=
  Option.bind_eq_some_iff

theorem meet_of_uses {next : Option Text} {resolution : Resolution}
    (resolved : table.resolve (classify token) next = .ok resolution) (uses : resolution.usesNext = true) :
    table.meet token next = .noted (.option token resolution.records) true := by
  by_cases isOption : (classify token).isOption = true
  · rw [meet_option isOption, resolved]
    simp only [uses]
  · cases shape : classify token with
    | long option => exact absurd (by rw [shape]; rfl) isOption
    | short option => exact absurd (by rw [shape]; rfl) isOption
    | terminator text =>
        rw [shape] at resolved
        cases resolved
        cases uses
    | operand text =>
        rw [shape] at resolved
        cases resolved
        cases uses

namespace TracedFrom

variable (traced : table.TracedFrom elements 1 events)

include traced

theorem option_iff : ⟨place, .option token forms⟩ ∈ events ↔
    table.Visits elements 1 place ∧ elements[place]? = some token ∧ (classify token).isOption = true ∧
      ∃ resolution, table.resolve (classify token) elements[place + 1]? = .ok resolution ∧
        forms = resolution.records.map Record.form := by
  rw [traced.mem_iff, finding?_eq_some_iff]
  apply and_congr_right
  intro visits
  constructor
  · intro found
    rcases found with ⟨element, present, found⟩
    rcases finding_option_iff.mp found with ⟨rfl, read⟩
    exact ⟨present, read⟩
  · intro found
    rcases found with ⟨present, read⟩
    exact ⟨token, present, finding_option_iff.mpr ⟨rfl, read⟩⟩

theorem terminator_iff : ⟨place, .terminator⟩ ∈ events ↔
    table.Visits elements 1 place ∧ elements[place]? = some [.scalar '-', .scalar '-'] := by
  rw [traced.mem_iff, finding?_eq_some_iff]
  apply and_congr_right
  intro visits
  constructor
  · intro found
    rcases found with ⟨element, present, found⟩
    rw [present, finding_terminator_iff.mp found]
  · intro present
    exact ⟨_, present, finding_terminator_iff.mpr rfl⟩

theorem head_option (member : ⟨place, .option token forms⟩ ∈ events) :
    (Finding.option token forms).text.head? = some (.scalar '-') :=
  head_text_option (traced.option_iff.mp member).2.2.1 forms

theorem eq_terminator (member : ⟨place, finding⟩ ∈ events) (same : finding.text = "end of options".toText) :
    finding = .terminator := by
  have first : finding.text.head? = some (.scalar 'e') := congrArg List.head? same
  cases finding with
  | terminator => rfl
  | option token forms =>
      rw [traced.head_option member] at first
      exact absurd first (by decide)
  | refusal problem =>
      rcases head_message problem with ⟨c, begins, _, other⟩
      have again : problem.message.head? = some (.scalar 'e') := first
      rw [begins] at again
      exact absurd (Option.some.inj again) other

theorem ne_message (member : ⟨place, .option token forms⟩ ∈ events) (problem : Problem) :
    (Finding.option token forms).text ≠ problem.message := by
  intro same
  rcases head_message problem with ⟨c, begins, other, _⟩
  have again := traced.head_option member
  rw [same, begins] at again
  exact other (Option.some.inj again)

theorem message_terminator_iff : placed place "end of options".toText ∈ events.map Event.message ↔
    table.Visits elements 1 place ∧ elements[place]? = some [.scalar '-', .scalar '-'] := by
  rw [mem_messages_iff, ← traced.terminator_iff]
  constructor
  · intro told
    rcases told with ⟨finding, member, same⟩
    rwa [traced.eq_terminator member same] at member
  · intro member
    exact ⟨.terminator, member, rfl⟩

theorem place_ne_operand (present : elements[place]? = some text) (plain : Token.Plain text) (member : e ∈ events) :
    e.place ≠ place := by
  intro same
  rcases finding?_eq_some_iff.mp ((traced.mem_iff e).mp member).2 with ⟨element, here, found⟩
  rw [same, present] at here
  cases here
  rw [meet_plain plain] at found
  cases found

theorem place_ne_value {resolution : Resolution} (visits : table.Visits elements 1 place)
    (present : elements[place]? = some token)
    (resolved : table.resolve (classify token) elements[place + 1]? = .ok resolution)
    (uses : resolution.usesNext = true) (member : e ∈ events) : e.place ≠ place + 1 := by
  intro same
  rcases List.getElem?_eq_some_iff.mp present with ⟨inside, rfl⟩
  have visited := ((traced.mem_iff e).mp member).1
  rw [same] at visited
  exact not_visits_value visits inside (meet_of_uses resolved uses) visited

theorem place_le_terminator (visits : table.Visits elements 1 place)
    (present : elements[place]? = some [.scalar '-', .scalar '-']) (member : e ∈ events) : e.place ≤ place := by
  rcases List.getElem?_eq_some_iff.mp present with ⟨inside, dashes⟩
  have ended : ∀ step used, table.meet elements[place] elements[place + 1]? ≠ .noted step used := by
    simp [dashes, meet_dashes]
  exact visits_le_ended visits inside ended ((traced.mem_iff e).mp member).1

end TracedFrom

end Table

end Traced

/-- What the messages of a pass tell of the elements below its bound and of its session. -/
structure Table.TracedBy (table : Table) (elements : List Text) (session : Session) (events : List Event) :
    Prop where
  increasing : events.Pairwise fun one two => one.place < two.place
  within : ∀ e ∈ events, 1 ≤ e.place ∧ e.place < elements.length
  options : ∀ place token forms, ⟨place, .option token forms⟩ ∈ events ↔
    table.Visits elements 1 place ∧ elements[place]? = some token ∧ (classify token).isOption = true ∧
      ∃ resolution, table.resolve (classify token) elements[place + 1]? = .ok resolution ∧
        forms = resolution.records.map Record.form
  /-- Together these messages list the forms of all option records. -/
  forms : session.state = .succeeded →
    events.flatMap (·.finding.forms) = (session.records.filter fun r => !r.isOperand).map Record.form
  terminator : ∀ place, placed place "end of options".toText ∈ events.map Event.message ↔
    table.Visits elements 1 place ∧ elements[place]? = some [.scalar '-', .scalar '-']
  terminator_last : ∀ place, placed place "end of options".toText ∈ events.map Event.message →
    (events.map Event.message).getLast? = some (placed place "end of options".toText)
  failure : ∀ d, session.diagnostic = some d → ∃ front place, d.index = (place : Nat) ∧
    events.map Event.message = front ++ [placed place d.message] ∧ ∀ other, placed other d.message ∉ front
  others : ∀ e ∈ events, (∃ token forms, e.finding = .option token forms) ∨
    e.message = placed e.place "end of options".toText ∨
    ∃ d, session.diagnostic = some d ∧ e.message = placed e.place d.message
  operands : ∀ place text, elements[place]? = some text → Token.Plain text → ∀ e ∈ events, e.place ≠ place
  /-- An element that the token before it took is not told, whatever it looks like. -/
  values : ∀ place token resolution, table.Visits elements 1 place → elements[place]? = some token →
    table.resolve (classify token) elements[place + 1]? = .ok resolution → resolution.usesNext = true →
    ∀ e ∈ events, e.place ≠ place + 1
  unread : ∀ place, table.Visits elements 1 place → elements[place]? = some [.scalar '-', .scalar '-'] →
    ∀ e ∈ events, e.place ≤ place

section Trace

variable {table : Table} {argv : List Text} {argc : Option Int} {reorder : Bool}

theorem tracedFrom_scanArguments (table : Table) (argv : List Text) (argc : Option Int) :
    table.TracedFrom (argv.take (readBound argv argc)) 1 (table.scanArguments argv argc).events := by
  rw [Table.scanArguments, admitted_eq]
  exact table.tracedFrom_scan _ 1

theorem forms_of_succeeded (read : (Session.start table argv reorder argc).state = .succeeded) :
    (table.scanArguments argv argc).events.flatMap (·.finding.forms) =
      ((Session.start table argv reorder argc).records.filter fun r => !r.isOperand).map Record.form := by
  have succeeds := Session.start_state_iff.mp read
  have records := Eq.refl (arranged reorder (table.scanArguments argv argc).inOrder)
  have session := start_eq_arranged_iff.mpr ⟨succeeds, records⟩
  have lawful : ∀ note ∈ (table.scanArguments argv argc).notes, note.step.Lawful table :=
    table.scan_lawful (admitted argv argc)
  rw [forms_events, session, ← optionsOf_inOrder lawful, ← optionsOf_arranged reorder]
  rfl

theorem ending_of_diagnostic {scan : Scan} {d : Diagnostic} (blamed : scan.diagnostic? = some d) :
    ∃ place problem, scan.ending.event? = some ⟨place, .refusal problem⟩ ∧ d.index = (place : Nat) ∧
      d.message = problem.message := by
  rcases Scan.diagnostic?_eq_some_iff.mp blamed with ⟨place, token, problem, failed, rfl⟩
  refine ⟨place, problem, ?_, rfl, rfl⟩
  rw [failed]
  rfl

theorem message_of_diagnostic {d : Diagnostic} (blamed : (table.scanArguments argv argc).diagnostic? = some d) :
    ∃ front place, d.index = (place : Nat) ∧
      (table.scanArguments argv argc).events.map Event.message = front ++ [placed place d.message] ∧
      ∀ other, placed other d.message ∉ front := by
  have traced := tracedFrom_scanArguments table argv argc
  rcases ending_of_diagnostic blamed with ⟨place, problem, ending, index, message⟩
  have split := events_of_ending ending
  refine ⟨((table.scanArguments argv argc).notes.filterMap Note.event?).map Event.message, place, index, ?_, ?_⟩
  · rw [split, List.map_append, message]
    rfl
  · intro other told
    rcases mem_messages_iff.mp told with ⟨finding, member, same⟩
    rcases option_of_mem_notes member with ⟨token, forms, rfl⟩
    have inside : ⟨other, .option token forms⟩ ∈ (table.scanArguments argv argc).events := by
      rw [split]
      exact List.mem_append_left _ member
    exact traced.ne_message inside problem (same.trans message)

theorem terminator_last {place : Nat} (told : placed place "end of options".toText ∈
      (table.scanArguments argv argc).events.map Event.message) :
    ((table.scanArguments argv argc).events.map Event.message).getLast? =
      some (placed place "end of options".toText) := by
  have traced := tracedFrom_scanArguments table argv argc
  rcases mem_messages_iff.mp told with ⟨finding, member, same⟩
  have ended := traced.eq_terminator member same
  subst ended
  rcases mem_events member with option | ending
  · rcases option with ⟨token, forms, other⟩
    cases other
  · rw [events_of_ending ending, List.map_append, List.map_singleton, List.getLast?_concat]
    rfl

theorem kinds_of_events {e : Event} (member : e ∈ (table.scanArguments argv argc).events) :
    (∃ token forms, e.finding = .option token forms) ∨ e.message = placed e.place "end of options".toText ∨
      ∃ d, (table.scanArguments argv argc).diagnostic? = some d ∧ e.message = placed e.place d.message := by
  rcases mem_events member with option | ending
  · exact Or.inl option
  · right
    cases ended : (table.scanArguments argv argc).ending with
    | exhausted =>
        rw [ended] at ending
        cases ending
    | terminated index tail =>
        rw [ended] at ending
        cases ending
        exact Or.inl rfl
    | failed index token problem =>
        rw [ended] at ending
        cases ending
        exact Or.inr ⟨_, Scan.diagnostic?_eq_some_iff.mpr ⟨index, token, problem, ended, rfl⟩, rfl⟩

theorem tracedBy_start (table : Table) (argv : List Text) (reorder : Bool) (argc : Option Int) :
    table.TracedBy (argv.take (readBound argv argc)) (Session.start table argv reorder argc)
      (table.scanArguments argv argc).events := by
  have traced := tracedFrom_scanArguments table argv argc
  constructor
  case increasing => exact traced.increasing
  case within => exact fun e member => ((traced.mem_iff e).mp member).1.bounds
  case options => exact fun place token forms => traced.option_iff
  case forms => exact forms_of_succeeded
  case terminator => exact fun place => traced.message_terminator_iff
  case terminator_last => exact fun place => terminator_last
  case failure =>
    intro d blamed
    rw [Session.start_diagnostic] at blamed
    exact message_of_diagnostic blamed
  case others =>
    intro e member
    rw [Session.start_diagnostic]
    exact kinds_of_events member
  case operands => exact fun place text present plain e member => traced.place_ne_operand present plain member
  case values =>
    intro place token resolution visits present resolved uses e member
    exact traced.place_ne_value visits present resolved uses member
  case unread => exact fun place visits present e member => traced.place_le_terminator visits present member

end Trace

/-- The log is a faithful trace. In either order of operands the loop over a command line logs the same messages, and
they tell, place by place, what the pass read and how it ended. -/
theorem log_traces (table : Table) (argv : List Text) (argc : Option Int) :
    ∃ events : List Event, (table.scanArguments argv argc).log = events.map Event.message ∧
      ∀ reorder : Bool,
        table.runBelow reorder argv (readBound argv argc) 1 .empty [] =
            some ⟨Session.start table argv reorder argc, events.map Event.message⟩ ∧
          table.TracedBy (argv.take (readBound argv argc)) (Session.start table argv reorder argc) events := by
  refine ⟨(table.scanArguments argv argc).events, log_eq_events _, ?_⟩
  intro reorder
  refine ⟨?_, tracedBy_start table argv reorder argc⟩
  rw [runBelow_eq_trace (readBound_le argv argc), ← admitted_eq, Scan.trace, Scan.finish_empty, List.nil_append,
    ← log_eq_events]
  rfl

example :
    let argv := programName :: ["-v", "f", "-vo", "-v", "--", "-x"].map String.toText
    (sampleTable.scanArguments argv none).events =
      [⟨1, .option "-v".toText ["-v".toText]⟩, ⟨3, .option "-vo".toText ["-v".toText, "-o".toText]⟩,
        ⟨5, .terminator⟩] := by
  decide

end CommandLine
