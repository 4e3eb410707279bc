import CommandLine.Proofs.Outcome
import CommandLine.Proofs.Phrase
import CommandLine.Proofs.TableBuilding

namespace CommandLine

def Step.long? : Step → Option LongToken
  | .operand _ => none
  | .option token _ =>
    match classify token with
    | .long found => some found
    | _ => none

def Scan.longOptions (scan : Scan) : List LongToken := scan.notes.filterMap (·.step.long?)

theorem Scan.mem_longOptions_cons {scan : Scan} {note : Note} {option : LongToken} :
    option ∈ (scan.cons note).longOptions ↔ note.step.long? = some option ∨ option ∈ scan.longOptions := by
  simp [longOptions, cons, List.mem_filterMap]

theorem Step.long?_option {token : Text} {records : List Record} {option : LongToken}
    (long : classify token = .long option) : (Step.option token records).long? = some option := by
  simp [long?, long]

namespace Table

/-- The name is a full name, or it does not begin any of the new names. -/
def Keeps (table : Table) (more : List Descriptor) (name : Text) : Prop :=
  (∃ d ∈ table.entries, d.Named name) ∨ ∀ d ∈ more, ¬ d.Abbreviated name

section Grows

variable {table larger : Table} {more : List Descriptor} {next : Option Text} {resolution : Resolution}

theorem selects_grows (grows : larger.entries = table.entries ++ more) {name : Text} {d : Descriptor}
    (keeps : table.Keeps more name) (selects : table.Selects name d) : larger.Selects name d := by
  cases selects with
  | full first =>
      apply Selects.full
      rw [grows]
      exact first.append more
  | abbreviation noFull first agree =>
      rcases keeps with ⟨e, member, named⟩ | fresh
      · exact absurd named (noFull e member)
      · have old : ∀ e ∈ larger.entries, e.Abbreviated name → e ∈ table.entries := by
          intro e member begins
          rw [grows] at member
          rcases List.mem_append.mp member with old | new
          · exact old
          · exact absurd begins (fresh e new)
        refine .abbreviation ?_ ?_ ?_
        · intro e member named
          exact noFull e (old e member named.abbreviated) named
        · rw [grows]
          exact first.append more
        · intro e member begins
          exact agree e (old e member begins) begins

theorem selectsShort_grows (grows : larger.entries = table.entries ++ more) {c : CodePoint} {d : Descriptor}
    (selects : table.SelectsShort c d) : larger.SelectsShort c d := by
  rw [SelectsShort, grows]
  exact selects.append more

theorem resolveLong_grows (grows : larger.entries = table.entries ++ more) {option : LongToken}
    (keeps : table.Keeps more option.name) (resolved : table.resolveLong option next = .ok resolution) :
    larger.resolveLong option next = .ok resolution := by
  obtain ⟨text, name, value⟩ := option
  obtain ⟨d, selects, matched⟩ := selects_of_resolveLong resolved
  rw [resolveLong_of_selects (selects_grows grows keeps selects)]
  exact matched

theorem cluster_grows (grows : larger.entries = table.entries ++ more) {chars : Text} {value : Option Text}
    {records : List Record} (reads : Cluster table chars value records) : Cluster larger chars value records := by
  induction reads with
  | done => exact .done
  | flag selects arity _ ih => exact .flag (selectsShort_grows grows selects) arity ih
  | bare selects arity => exact .bare (selectsShort_grows grows selects) arity
  | attached selects arity nonempty => exact .attached (selectsShort_grows grows selects) arity nonempty
  | separate selects arity nonempty => exact .separate (selectsShort_grows grows selects) arity nonempty

theorem resolveShort_grows (grows : larger.entries = table.entries ++ more) {option : ShortToken}
    (resolved : table.resolve (.short option) next = .ok resolution) :
    larger.resolve (.short option) next = .ok resolution := by
  obtain ⟨records, usesNext⟩ := resolution
  have reads := cluster_grows grows (reads_of_resolveCluster resolved)
  have again : larger.resolve (.short option) (if usesNext then next else none) = .ok ⟨records, _⟩ :=
    resolveCluster_of_reads reads
  cases usesNext with
  | true =>
      obtain ⟨text, rfl, _⟩ := next_of_resolve resolved rfl
      exact again
  | false => exact resolve_of_unused again rfl next

theorem resolve_grows (grows : larger.entries = table.entries ++ more) {token : Token}
    (keeps : ∀ option, token = .long option → table.Keeps more option.name)
    (resolved : table.resolve token next = .ok resolution) : larger.resolve token next = .ok resolution := by
  cases token with
  | terminator _ => exact resolved
  | operand _ => exact resolved
  | long option => exact resolveLong_grows grows (keeps option rfl) resolved
  | short option => exact resolveShort_grows grows resolved

theorem meet_grows (grows : larger.entries = table.entries ++ more) {element : Text} {step : Step} {used : Bool}
    (keeps : ∀ option, step.long? = some option → table.Keeps more option.name)
    (met : table.meet element next = .noted step used) : larger.meet element next = .noted step used := by
  cases meets_of_meet met with
  | operand plain => exact meet_plain plain
  | option isOption resolved =>
      have same := resolve_grows grows (fun option long => keeps option (Step.long?_option long)) resolved
      rw [meet_option isOption, same]

/-- A pass that succeeds is the same pass over the larger table. -/
theorem scan_grows (grows : larger.entries = table.entries ++ more) {taken : Bool} {index : Nat}
    {elements : List Text} (succeeds : (table.scan taken index elements).diagnostic? = none)
    (keeps : ∀ option ∈ (table.scan taken index elements).longOptions, table.Keeps more option.name) :
    larger.scan taken index elements = table.scan taken index elements := by
  induction elements generalizing taken index with
  | nil => rw [scan_nil, scan_nil]
  | cons element rest ih =>
      cases taken with
      | true => exact ih succeeds keeps
      | false =>
          rw [scan_met] at succeeds keeps
          rw [scan_met, scan_met]
          cases met : table.meet element rest.head? with
          | refused problem => rw [met] at succeeds; cases succeeds
          | stop =>
              rw [meet_of_stop met, meet_dashes]
          | noted step used =>
              rw [met] at succeeds keeps
              have here : larger.meet element rest.head? = .noted step used := by
                apply meet_grows grows _ met
                intro option long
                exact keeps option (Scan.mem_longOptions_cons.mpr (Or.inl long))
              have behind : larger.scan used (index + 1) rest = table.scan used (index + 1) rest := by
                apply ih succeeds
                intro option later
                exact keeps option (Scan.mem_longOptions_cons.mpr (Or.inr later))
              rw [here]
              simp only [behind]

end Grows

end Table

/-- A command line that is read keeps its records when entries are added at the end of the table, whatever they are, if
each of its long options has a full name of the table or a name that begins none of the new ones. -/
theorem start_extended (table : Table) (extra : List Descriptor) (argv : List Text) (argc : Option Int)
    (reorder : Bool) (records : List Record)
    (read : Session.start table argv reorder argc = ⟨.succeeded, records, none⟩)
    (keeps : ∀ option ∈ (table.scanArguments argv argc).longOptions,
      (∃ d ∈ table.entries, d.Named option.name) ∨ ∀ d ∈ extra, ¬ d.Abbreviated option.name) :
    ∃ larger, table.extended (extra.map .descriptor) = .ok larger ∧
      Session.start larger argv reorder argc = ⟨.succeeded, records, none⟩ := by
  obtain ⟨succeeds, _⟩ := Session.start_eq_succeeded_iff.mp read
  have pass : (Table.ofList (table.entries ++ extra)).scanArguments argv argc =
      table.scanArguments argv argc := by
    apply Table.scan_grows (ofList_entries_append table extra) succeeds
    intro option member
    apply (keeps option member).imp_right
    intro fresh d kept
    exact fresh d (List.takeWhile_subset _ kept)
  refine ⟨_, extended_descriptors table extra, ?_⟩
  rw [← read, Session.start, Session.start, Table.decode, Table.decode, pass]

def rivals : List Descriptor :=
  [⟨.number 118, some "verbose".toText, .required⟩, ⟨.char 'w', some "verbosely".toText, .never⟩]

def plainLine : List Text := ["p", "-v", "--verbose", "--out", "log", "--col=red"].map String.toText

def plainRecords : List Record :=
  [.short ⟨.char 'v', some "verbose".toText, .never⟩ 'v' [],
    .long ⟨.char 'v', some "verbose".toText, .never⟩ [],
    .long ⟨.char 'o', some "output".toText, .required⟩ "log".toText,
    .long ⟨.char 'c', some "color".toText, .optional⟩ "red".toText]

theorem start_extended_sample :
    Session.start sampleTable plainLine true none = ⟨.succeeded, plainRecords, none⟩ ∧
      (∀ option ∈ (sampleTable.scanArguments plainLine none).longOptions,
        (∃ d ∈ sampleTable.entries, d.Named option.name) ∨ ∀ d ∈ rivals, ¬ d.Abbreviated option.name) ∧
      ∃ larger, sampleTable.extended (rivals.map .descriptor) = .ok larger ∧
        Session.start larger plainLine true none = ⟨.succeeded, plainRecords, none⟩ := by
  have read : Session.start sampleTable plainLine true none = ⟨.succeeded, plainRecords, none⟩ := by decide
  have keeps : ∀ option ∈ (sampleTable.scanArguments plainLine none).longOptions,
      (∃ d ∈ sampleTable.entries, d.Named option.name) ∨ ∀ d ∈ rivals, ¬ d.Abbreviated option.name := by
    decide
  exact ⟨read, keeps, start_extended sampleTable rivals plainLine none true plainRecords read keeps⟩

end CommandLine
