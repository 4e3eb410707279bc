import CommandLine.Proofs.Abbreviation
import CommandLine.Proofs.Outcome
import CommandLine.Proofs.Phrase
import CommandLine.Proofs.TokenParts

namespace CommandLine

theorem Token.noEquals_of_long {text : Text} {option : LongToken} (long : classify text = .long option) :
    .scalar '=' ∉ option.name := by
  have parts := parts_of_shape (shape_classify text)
  rw [long] at parts
  exact (parts.long rfl).1

namespace Table

variable {table : Table} {name sought : Text} {o : Descriptor}

theorem named_of_exact (exact : (table.matchLong sought).exact = true)
    (option : (table.matchLong sought).option = some o) : o.Named sought := by
  have search := search_matchLong table sought
  generalize table.matchLong sought = found at search exact option
  cases search with
  | full d first =>
      cases option
      exact first.holds
  | abbreviation _ _ _ _ => cases exact
  | ambiguous _ _ _ _ _ _ _ => cases exact
  | unknown _ => cases exact

theorem noEquals_of_exact {text : Text} {option : LongToken} (long : classify text = .long option)
    (exact : (table.matchLong option.name).exact = true)
    (found : (table.matchLong option.name).option = some o) : .scalar '=' ∉ o.longName := by
  have named := named_of_exact exact found
  rw [named.2]
  exact Token.noEquals_of_long long

theorem scan_fullName (first : IsFirst (·.Named name) table.entries o) (noEquals : .scalar '=' ∉ name)
    (free : o.arity ≠ .required) :
    table.scan false 1 ['-' :: '-' :: name] =
      ⟨[⟨1, .option ('-' :: '-' :: name) [.long o []]⟩], .exhausted⟩ := by
  have matched : resolveMatched o none none = .ok ⟨[.long o []], false⟩ :=
    resolveMatched_bare_iff.mpr (Or.inl ⟨free, rfl⟩)
  have met := meet_longBare first.holds.name_ne_nil noEquals (.full first) matched
  rw [scan_met, List.head?_nil, met]
  rfl

end Table

/-- A name that is typed in full is found in full and means the first entry that has it, if and only if it has no equals
sign; with one, no text at all finds that entry in full. Alone on a command line, such a name of an option that requires
no argument gives one record, whatever other names the table has and wherever they stand. -/
theorem fullName_reached (table : Table) (name : Text) (o : Descriptor)
    (first : IsFirst (·.Named name) table.entries o) :
    ((∃ option, classify ('-' :: '-' :: name) = .long option ∧
        table.matchLong option.name = ⟨some o, true, false⟩) ↔ .scalar '=' ∉ name) ∧
    (.scalar '=' ∈ name → ∀ text option, classify text = .long option → (table.matchLong option.name).exact = true →
      (table.matchLong option.name).option ≠ some o) ∧
    (.scalar '=' ∉ name → o.arity ≠ .required → ∀ (program : Text) (reorder : Bool),
      Session.start table [program, '-' :: '-' :: name] reorder none =
        ⟨.succeeded, [⟨o, [], '-' :: '-' :: name⟩], none⟩) := by
  refine ⟨⟨?found, ?typed⟩, ?hidden, ?read⟩
  case found =>
    intro reached
    rcases reached with ⟨option, long, found⟩
    have noEquals := Table.noEquals_of_exact (o := o) long (by rw [found]) (by rw [found])
    rwa [first.holds.2] at noEquals
  case typed =>
    intro noEquals
    have shape := Token.Shape.longBare name first.holds.name_ne_nil noEquals
    exact ⟨_, Token.classify_of_shape shape, Table.matchLong_of_first first⟩
  case hidden =>
    intro equals text option long exact found
    have noEquals := Table.noEquals_of_exact long exact found
    rw [first.holds.2] at noEquals
    exact noEquals equals
  case read =>
    intro noEquals free program reorder
    have record : Record.long o [] = ⟨o, [], '-' :: '-' :: name⟩ := by rw [Record.long, first.holds.longForm]
    have pass : table.scanArguments [program, '-' :: '-' :: name] none =
        ⟨[⟨1, .option ('-' :: '-' :: name) [.long o []]⟩], .exhausted⟩ :=
      Table.scan_fullName first noEquals free
    rw [Session.start_eq_succeeded_iff, pass, ← record]
    cases reorder <;> exact ⟨rfl, rfl⟩

def surroundedTable : Table := .ofList
  [⟨.number 1, some "color=always".toText, .never⟩, ⟨.number 2, some "colorful".toText, .required⟩,
    ⟨.number 3, some "color".toText, .optional⟩, ⟨.number 4, some "color".toText, .never⟩,
    ⟨.number 5, some "colors".toText, .never⟩]

theorem fullName_reached_surrounded :
    IsFirst (·.Named "color".toText) surroundedTable.entries ⟨.number 3, some "color".toText, .optional⟩ ∧
      .scalar '=' ∉ "color".toText ∧
      Session.start surroundedTable (["p", "--color"].map String.toText) true none =
        ⟨.succeeded, [⟨⟨.number 3, some "color".toText, .optional⟩, [], "--color".toText⟩], none⟩ ∧
      IsFirst (·.Named "color=always".toText) surroundedTable.entries
        ⟨.number 1, some "color=always".toText, .never⟩ ∧
      ¬ ∃ option, classify "--color=always".toText = .long option ∧
        surroundedTable.matchLong option.name =
          ⟨some ⟨.number 1, some "color=always".toText, .never⟩, true, false⟩ := by
  have first : IsFirst (·.Named "color".toText) surroundedTable.entries ⟨.number 3, some "color".toText, .optional⟩ :=
    ⟨surroundedTable.entries.take 2, surroundedTable.entries.drop 3, by decide, by decide, by decide⟩
  have hidden : IsFirst (·.Named "color=always".toText) surroundedTable.entries
      ⟨.number 1, some "color=always".toText, .never⟩ :=
    ⟨[], surroundedTable.entries.drop 1, by decide, by decide, by decide⟩
  refine ⟨first, by decide, ?_, hidden, ?_⟩
  · exact (fullName_reached surroundedTable _ _ first).2.2 (by decide) (by decide) ['p'] true
  · exact mt (fullName_reached surroundedTable _ _ hidden).1.mp (by decide)

end CommandLine
