import CommandLine.Proofs.Grammar
import CommandLine.Proofs.OperandOrder

namespace CommandLine

/-- An operand is an element of the command line, and the argument of an option is an element or the end of one. -/
inductive Record.Origin (table : Table) (elements : List Text) : Record → Prop where
  | operand {text : Text} (member : text ∈ elements) : Origin table elements (.operand text)
  | option {r : Record} {element : Text} (reports : r.Reports table) (member : element ∈ elements)
      (ends : r.argument <:+ element) : Origin table elements r

section Origin

variable {table : Table} {elements others : List Text} {records : List Record} {r : Record}

theorem Record.Origin.mono (origin : r.Origin table elements) (subset : elements ⊆ others) :
    r.Origin table others := by
  cases origin with
  | operand member => exact .operand (subset member)
  | option reports member ends => exact .option reports (subset member) ends

theorem cluster_argument {chars : Text} {value : Option Text} (reads : Cluster table chars value records) :
    ∀ r ∈ records, r.argument <:+ chars ∨ value = some r.argument := by
  induction reads with
  | done => simp
  | flag selects arity more ih =>
      intro r member
      rcases List.mem_cons.mp member with rfl | later
      · exact Or.inl List.nil_suffix
      · exact (ih r later).imp_left fun ends => ends.trans (List.suffix_cons _ _)
  | bare selects arity => simp [Record.short]
  | attached selects arity nonempty => simp [Record.short]
  | separate selects arity nonempty => simp [Record.short]

theorem phrase_argument {element : Text} {value : Option Text} (phrase : Phrase table element value records) :
    ∀ r ∈ records, ∃ text ∈ element :: value.toList, r.argument <:+ text := by
  cases phrase with
  | operand plain => simp [Record.operand]
  | longBare nonempty noEquals selects arity => simp [Record.long]
  | @longAttached name value _ noEquals selects arity =>
      have ends : value <:+ .scalar '-' :: .scalar '-' :: (name ++ .scalar '=' :: value) :=
        ⟨'-' :: '-' :: (name ++ [.scalar '=']), by simp⟩
      simpa [Record.long] using ends
  | longSeparate nonempty noEquals selects arity given => simp [Record.long]
  | cluster single reads =>
      intro r member
      rcases cluster_argument reads r member with ends | rfl
      · exact ⟨_, List.mem_cons_self, ends.trans (List.suffix_cons _ _)⟩
      · exact ⟨r.argument, by simp, List.suffix_rfl⟩

theorem portion_origin {portion : Portion} (grammatical : portion.Grammatical table) :
    ∀ r ∈ portion.records, r.Origin table portion.elements := by
  intro r member
  by_cases plain : Token.Plain portion.element
  · -- A plain element can be read as an operand, and no element can be read in two ways.
    have same : (none : Option Text).toList ++ portion.value.toList = portion.value.toList ++ [] := by simp
    obtain ⟨_, kept, _⟩ := Table.phrase_unique (.operand plain) grammatical same
    rw [← kept, List.mem_singleton] at member
    subst member
    exact .operand List.mem_cons_self
  · obtain ⟨text, inside, ends⟩ := phrase_argument grammatical r member
    exact .option (Table.phrase_reports grammatical plain r member) inside ends

theorem cut_origin {cut : Cut} (grammatical : cut.Grammatical table) :
    ∀ r ∈ cut.records, r.Origin table cut.elements := by
  intro r member
  rcases List.mem_append.mp member with portions | tail
  · obtain ⟨portion, inside, kept⟩ := List.mem_flatMap.mp portions
    apply (portion_origin (grammatical portion inside) r kept).mono
    intro text written
    exact List.mem_append_left _ (List.mem_flatMap.mpr ⟨portion, inside, written⟩)
  · obtain ⟨text, unread, rfl⟩ := List.mem_map.mp tail
    apply Record.Origin.operand
    apply List.mem_append_right
    cases given : cut.tail with
    | none => simp [given] at unread
    | some texts =>
        rw [given] at unread
        exact List.mem_cons_of_mem _ unread

theorem mem_arranged {reorder : Bool} : r ∈ arranged reorder records ↔ r ∈ records := by
  cases reorder with
  | false => rfl
  | true =>
      simp only [arranged, if_true, optionsOf, operandsOf, List.mem_append, List.mem_filter, ← and_or_left]
      cases r.isOperand <;> simp

theorem start_origin {argv : List Text} {argc : Option Int} {reorder : Bool}
    (member : r ∈ (Session.start table argv reorder argc).records) : r.Origin table (admitted argv argc) := by
  cases blamed : (table.scanArguments argv argc).diagnostic? with
  | some d =>
      rw [Session.start_eq_failed_iff.mpr blamed] at member
      cases member
  | none =>
      rw [start_eq_arranged_iff.mpr ⟨blamed, rfl⟩, mem_arranged] at member
      obtain ⟨cut, grammatical, split, kept⟩ := table.exists_cut (admitted argv argc) blamed (by simp)
      have origin := cut_origin grammatical r (kept ▸ member)
      rw [split] at origin
      exact origin

end Origin

namespace Record

structure ShowsOperand (elements : List Text) (r : Record) : Prop where
  descriptor : r.descriptor = ⟨.number 0, none, .never⟩
  form : r.form = []
  element : r.argument ∈ elements

structure ShowsOption (table : Table) (elements : List Text) (r : Record) : Prop where
  entry : r.descriptor ∈ table.entries
  code : r.descriptor.code ≠ .number 0
  form : (∃ name, name ≠ [] ∧ r.form = .scalar '-' :: .scalar '-' :: name ∧
      IsFirst (fun d => d.name = some name) table.entries r.descriptor) ∨
    ∃ c, r.form = [.scalar '-', c] ∧ table.findShort c = some r.descriptor
  never : r.descriptor.arity = .never → r.argument = []
  required : r.descriptor.arity = .required → r.argument ≠ []
  given : r.argument ≠ [] →
    r.argument ∈ elements ∨ ∃ element ∈ elements, r.argument <:+ element ∧ r.argument ≠ element

variable {table : Table} {elements : List Text} {r : Record}

theorem Reports.form (reports : r.Reports table) :
    (∃ name, name ≠ [] ∧ r.form = .scalar '-' :: .scalar '-' :: name ∧
      IsFirst (fun d => d.name = some name) table.entries r.descriptor) ∨
    ∃ c, r.form = [.scalar '-', c] ∧ table.findShort c = some r.descriptor := by
  cases reports with
  | @long d _ first _ =>
      have named := first.holds
      refine Or.inl ⟨d.longName, named.1, named.longForm, ?_⟩
      · exact (isFirst_congr fun e => Descriptor.named_iff named.1).mp first
  | short selects _ => exact Or.inr ⟨_, rfl, Table.findShort_eq_some_iff.mpr selects⟩

theorem showsOption_of_reports {element : Text} (reports : r.Reports table) (member : element ∈ elements)
    (ends : r.argument <:+ element) : r.ShowsOption table elements where
  entry := reports.mem
  code := by simpa [Descriptor.isSentinel] using table.sentinelFree _ reports.mem
  form := reports.form
  never arity := by
    have allowed := reports.allows
    rwa [arity] at allowed
  required arity := by
    have allowed := reports.allows
    rwa [arity] at allowed
  given _ := by
    by_cases whole : r.argument = element
    · exact Or.inl (whole ▸ member)
    · exact Or.inr ⟨element, member, ends, whole⟩

theorem ShowsOption.form_ne_nil (shows : r.ShowsOption table elements) : r.form ≠ [] := by
  rcases shows.form with ⟨name, _, form, _⟩ | ⟨c, form, _⟩ <;> simp [form]

theorem option?_eq_none_iff : r.option? = none ↔ r.form = [] := by
  simp [option?]

end Record

/-- Every record honours its descriptor. It is either an operand or an option, and its code, its form and what is
reported as its option tell which. -/
theorem start_records_honoured (table : Table) (argv : List Text) (argc : Option Int) (reorder : Bool) (r : Record)
    (member : r ∈ (Session.start table argv reorder argc).records) :
    Xor (r.ShowsOperand ((argv.take (readBound argv argc)).drop 1))
        (r.ShowsOption table ((argv.take (readBound argv argc)).drop 1)) ∧
      (r.isOperand = true ↔ r.form = []) ∧ (r.form = [] ↔ r.option? = none) := by
  have origin := start_origin member
  rw [admitted_eq] at origin
  have reported : r.form = [] ↔ r.option? = none := Record.option?_eq_none_iff.symm
  cases origin with
  | operand inside =>
      refine ⟨Or.inl ⟨⟨rfl, rfl, inside⟩, ?_⟩, iff_of_true rfl rfl, reported⟩
      intro shows
      exact shows.code rfl
  | option reports inside ends =>
      have shows := Record.showsOption_of_reports reports inside ends
      have spoken : r.form ≠ [] := shows.form_ne_nil
      refine ⟨Or.inr ⟨shows, ?_⟩, iff_of_false (by simp [reports.isOperand]) spoken, reported⟩
      intro operand
      exact spoken operand.form

def gatheredLine : List Text := programName :: ["-vofile", "--", "-z"].map String.toText

theorem start_records_honoured_sample :
    .short ⟨.char 'o', some "output".toText, .required⟩ 'o' "file".toText ∈
        (Session.start sampleTable gatheredLine true none).records ∧
      (Record.short ⟨.char 'o', some "output".toText, .required⟩ 'o' "file".toText).ShowsOption sampleTable
        (gatheredLine.drop 1) ∧
      .operand "-z".toText ∈ (Session.start sampleTable gatheredLine true none).records ∧
      (Record.operand "-z".toText).ShowsOperand (gatheredLine.drop 1) := by
  have first : .short ⟨.char 'o', some "output".toText, .required⟩ 'o' "file".toText ∈
      (Session.start sampleTable gatheredLine true none).records := by decide
  have second : .operand "-z".toText ∈ (Session.start sampleTable gatheredLine true none).records := by decide
  have option := (start_records_honoured sampleTable gatheredLine none true _ first).1
  have operand := (start_records_honoured sampleTable gatheredLine none true _ second).1
  refine ⟨first, ?_, second, ?_⟩
  · rcases option with ⟨shows, _⟩ | ⟨shows, _⟩
    · exact absurd shows.form (by decide)
    · exact shows
  · rcases operand with ⟨shows, _⟩ | ⟨shows, _⟩
    · exact shows
    · exact absurd rfl shows.form_ne_nil

end CommandLine
