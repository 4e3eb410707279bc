import CommandLine.Proofs.Selection

namespace CommandLine

namespace Table

variable {table : Table} {name : Text}

theorem matchLong_exact_iff :
    (table.matchLong name).exact = true ↔ ∃ d ∈ table.candidates name, d.longName = name := by
  constructor
  · intro exact
    by_contra none
    have noFull : ∀ d ∈ table.candidates name, d.longName ≠ name := by
      intro d member same
      exact none ⟨d, member, same⟩
    simp [(weighs_matchLong noFull).exact] at exact
  · intro full
    rcases exists_isFirst full with ⟨d, seen, rest, split, same, earlier⟩
    rw [matchLong_of_full split same earlier]

theorem matchLong_ambiguous_iff :
    (table.matchLong name).ambiguous = true ↔
      (∀ d ∈ table.candidates name, d.longName ≠ name) ∧ Clash (table.candidates name) := by
  by_cases full : ∃ d ∈ table.candidates name, d.longName = name
  · rcases exists_isFirst full with ⟨d, seen, rest, split, same, earlier⟩
    rw [matchLong_of_full split same earlier]
    constructor
    · intro flag
      cases flag
    · intro both
      rcases full with ⟨e, member, named⟩
      exact absurd named (both.1 e member)
  · have noFull : ∀ d ∈ table.candidates name, d.longName ≠ name := by
      intro d member same
      exact full ⟨d, member, same⟩
    rw [(weighs_matchLong noFull).ambiguous]
    exact (and_iff_right noFull).symm

end Table

/-- What a long name means. If candidates have it in full, it means the first of these, whichever candidates stand
around it. If not, it means the first candidate, and it is ambiguous if two of them differ, at any places. Only which
descriptor is meant depends on the order of the candidates. -/
theorem matchLong_rule (table : Table) (name : Text) :
    ((∃ d ∈ table.candidates name, d.longName = name) →
      ∃ d, IsFirst (·.longName = name) (table.candidates name) d ∧ table.matchLong name = ⟨some d, true, false⟩) ∧
    ((∀ d ∈ table.candidates name, d.longName ≠ name) →
      (table.matchLong name).exact = false ∧
        (table.matchLong name).option = (table.candidates name).head? ∧
        ((table.matchLong name).option = none ↔ table.candidates name = []) ∧
        ((table.matchLong name).ambiguous = true ↔ Clash (table.candidates name))) ∧
    ∀ other : Table, (∀ e, e ∈ other.candidates name ↔ e ∈ table.candidates name) →
      (other.matchLong name).exact = (table.matchLong name).exact ∧
        (other.matchLong name).ambiguous = (table.matchLong name).ambiguous := by
  refine ⟨?full, ?shortened, ?order⟩
  case full =>
    intro full
    rcases exists_isFirst full with ⟨d, first⟩
    refine ⟨d, first, ?_⟩
    rcases first with ⟨seen, rest, split, same, earlier⟩
    exact Table.matchLong_of_full split same earlier
  case shortened =>
    intro noFull
    have weighs := Table.weighs_matchLong noFull
    refine ⟨weighs.exact, weighs.option, ?_, weighs.ambiguous⟩
    rw [weighs.option, List.head?_eq_none_iff]
  case order =>
    intro other same
    constructor
    · rw [Bool.eq_iff_iff, Table.matchLong_exact_iff, Table.matchLong_exact_iff]
      simp only [same]
    · rw [Bool.eq_iff_iff, Table.matchLong_ambiguous_iff, Table.matchLong_ambiguous_iff, clash_congr same]
      simp only [same]

def crowdedTable : Table := .ofList
  [⟨.number 1, some "abc1".toText, .never⟩, ⟨.number 2, some "abc2".toText, .never⟩,
    ⟨.number 3, some "abc".toText, .never⟩]

def crowdedTableReversed : Table := .ofList crowdedTable.entries.reverse

theorem matchLong_rule_sample :
    crowdedTable.matchLong "abc".toText = ⟨some ⟨.number 3, some "abc".toText, .never⟩, true, false⟩ ∧
      (crowdedTable.matchLong "ab".toText).option = some ⟨.number 1, some "abc1".toText, .never⟩ ∧
      (crowdedTable.matchLong "ab".toText).ambiguous = true ∧
      (crowdedTableReversed.matchLong "ab".toText).ambiguous = true := by
  obtain ⟨full, _, _⟩ := matchLong_rule crowdedTable "abc".toText
  obtain ⟨_, shortened, order⟩ := matchLong_rule crowdedTable "ab".toText
  have met : ∃ d ∈ crowdedTable.candidates "abc".toText, d.longName = "abc".toText := by decide
  have noFull : ∀ d ∈ crowdedTable.candidates "ab".toText, d.longName ≠ "ab".toText := by decide
  have clash : Clash (crowdedTable.candidates "ab".toText) :=
    ⟨⟨.number 1, some "abc1".toText, .never⟩, by decide, ⟨.number 2, some "abc2".toText, .never⟩, by decide, by decide⟩
  have same : ∀ e, e ∈ crowdedTableReversed.candidates "ab".toText ↔ e ∈ crowdedTable.candidates "ab".toText := by
    intro e
    have reversed : crowdedTableReversed.candidates "ab".toText = (crowdedTable.candidates "ab".toText).reverse := by
      decide
    rw [reversed, List.mem_reverse]
  obtain ⟨_, option, _, ambiguous⟩ := shortened noFull
  have flag := ambiguous.mpr clash
  obtain ⟨d, first, found⟩ := full met
  have third : IsFirst (·.longName = "abc".toText) (crowdedTable.candidates "abc".toText)
      ⟨.number 3, some "abc".toText, .never⟩ :=
    ⟨[⟨.number 1, some "abc1".toText, .never⟩, ⟨.number 2, some "abc2".toText, .never⟩], [], by decide, by decide,
      by decide⟩
  rw [first.unique third] at found
  exact ⟨found, option, flag, (order crowdedTableReversed same).2.trans flag⟩

namespace Table

variable {table : Table} {name short long : Text} {o : Descriptor}

theorem matchLong_of_first (first : IsFirst (·.Named name) table.entries o) :
    table.matchLong name = ⟨some o, true, false⟩ := by
  have search := search_matchLong table name
  generalize table.matchLong name = found at search ⊢
  cases search with
  | full other again => rw [first.unique again]
  | abbreviation _ noFull => exact absurd first.holds (noFull o first.mem)
  | ambiguous _ _ noFull => exact absurd first.holds (noFull o first.mem)
  | unknown absent => exact absurd first.holds.abbreviated (absent o first.mem)

theorem ambiguous_of_flag (flag : (table.matchLong name).ambiguous = true) : table.Ambiguous name := by
  have search := search_matchLong table name
  generalize table.matchLong name = found at search flag
  cases search with
  | full _ _ => cases flag
  | abbreviation _ _ _ _ => cases flag
  | unknown _ => cases flag
  | ambiguous d e noFull first member abbreviated differ =>
      exact ⟨noFull, d, first.mem, e, member, first.holds, abbreviated, differ⟩

/-- What an abbreviation stands for: the first entry that it begins, with which all the others agree. -/
structure StandsFor (table : Table) (short : Text) (o : Descriptor) : Prop where
  first : IsFirst (·.Abbreviated short) table.entries o
  agree : ∀ e ∈ table.entries, e.Abbreviated short → e.code = o.code ∧ e.arity = o.arity

theorem standsFor_of_matchLong (found : table.matchLong short = ⟨some o, false, false⟩) : table.StandsFor short o := by
  have search := search_matchLong table short
  rw [found] at search
  cases search with
  | abbreviation _ _ first agree => exact ⟨first, agree⟩

namespace StandsFor

theorem not_ambiguous (stands : table.StandsFor short o) (front : short <+: long) :
    (table.matchLong long).ambiguous = false := by
  apply Bool.eq_false_iff.mpr
  intro flag
  rcases (ambiguous_of_flag flag).clash with ⟨d, member, e, another, begins, beginsToo, differ⟩
  have one := stands.agree d member (begins.shorter front)
  have two := stands.agree e another (beginsToo.shorter front)
  exact differ ⟨two.1.trans one.1.symm, two.2.trans one.2.symm⟩

theorem means_alike (stands : table.StandsFor short o) (front : short <+: long) {d : Descriptor}
    (means : (table.matchLong long).option = some d) : d.code = o.code ∧ d.arity = o.arity := by
  have search := search_matchLong table long
  generalize table.matchLong long = found at search means
  cases search with
  | full other first =>
      cases means
      exact stands.agree d first.mem (first.holds.abbreviated.shorter front)
  | abbreviation other _ first _ =>
      cases means
      exact stands.agree d first.mem (first.holds.shorter front)
  | ambiguous other _ _ first _ _ _ =>
      cases means
      exact stands.agree d first.mem (first.holds.shorter front)
  | unknown _ => cases means

theorem means_same (stands : table.StandsFor short o) (front : short <+: long) (begins : long <+: o.longName) :
    ∃ d, (table.matchLong long).option = some d ∧
      (d = o ∨ d ≠ o ∧ IsFirst (·.Named long) table.entries d ∧ (table.matchLong long).exact = true) := by
  have first : IsFirst (·.Abbreviated long) table.entries o := by
    apply stands.first.narrow _ ⟨stands.first.holds.1, begins⟩
    intro e longer
    exact longer.shorter front
  have clear := stands.not_ambiguous front
  have search := search_matchLong table long
  generalize table.matchLong long = found at search clear ⊢
  cases search with
  | full d named =>
      by_cases same : d = o
      · exact ⟨d, rfl, Or.inl same⟩
      · exact ⟨d, rfl, Or.inr ⟨same, named, rfl⟩⟩
  | abbreviation d _ again _ => exact ⟨d, rfl, Or.inl (again.unique first)⟩
  | ambiguous _ _ _ _ _ _ _ => cases clear
  | unknown absent => exact absurd first.holds (absent o first.mem)

theorem means_full (stands : table.StandsFor short o) : table.matchLong o.longName = ⟨some o, true, false⟩ := by
  apply matchLong_of_first
  apply stands.first.narrow _ ⟨stands.first.holds.1, rfl⟩
  intro e named
  exact ⟨named.1, named.2 ▸ stands.first.holds.2⟩

end StandsFor

/-- A front part of an ambiguous name begins the same entries, so only a full name saves it. -/
theorem Ambiguous.shorter (ambiguous : table.Ambiguous long) (front : short <+: long)
    (noFull : ∀ e ∈ table.entries, ¬ e.Named short) : table.Ambiguous short := by
  rcases ambiguous.clash with ⟨d, member, e, another, begins, beginsToo, differ⟩
  exact ⟨noFull, d, member, e, another, begins.shorter front, beginsToo.shorter front, differ⟩

end Table

/-- Typing more of an abbreviation that is not ambiguous never changes its meaning. Up to the full name it means the
same entry, or another one with the same code and arity that has just this name. And what is ambiguous was ambiguous
before, as long as it was not a full name. -/
theorem matchLong_longer (table : Table) (short long : Text) (front : short <+: long) :
    (∀ o, table.matchLong short = ⟨some o, false, false⟩ →
      (table.matchLong long).ambiguous = false ∧
        (∀ d, (table.matchLong long).option = some d → d.code = o.code ∧ d.arity = o.arity) ∧
        (long <+: o.longName →
          ∃ d, (table.matchLong long).option = some d ∧
            (d = o ∨ d ≠ o ∧ IsFirst (·.Named long) table.entries d ∧ (table.matchLong long).exact = true)) ∧
        (long = o.longName → table.matchLong long = ⟨some o, true, false⟩)) ∧
    ((table.matchLong long).ambiguous = true →
      (table.matchLong short).ambiguous = true ∨ ∃ e ∈ table.entries, e.Named short) := by
  constructor
  · intro o found
    have stands := Table.standsFor_of_matchLong found
    refine ⟨stands.not_ambiguous front, ?_, stands.means_same front, ?_⟩
    · intro d means
      exact stands.means_alike front means
    · intro same
      rw [same]
      exact stands.means_full
  · intro flag
    by_cases full : ∃ e ∈ table.entries, e.Named short
    · exact Or.inr full
    · have noFull : ∀ e ∈ table.entries, ¬ e.Named short := by
        intro e member named
        exact full ⟨e, member, named⟩
      have ambiguous := (Table.ambiguous_of_flag flag).shorter front noFull
      rcases Table.matchLong_of_ambiguous ambiguous with ⟨d, found⟩
      left
      rw [found]

def aliasTable : Table := .ofList
  [⟨.char 'v', some "verbosity".toText, .never⟩, ⟨.char 'v', some "verb".toText, .never⟩,
    ⟨.number 7, some "out".toText, .never⟩, ⟨.number 8, some "outside".toText, .never⟩,
    ⟨.number 9, some "outsider".toText, .required⟩]

theorem matchLong_longer_sample :
    "ver".toText <+: "verb".toText ∧
      aliasTable.matchLong "ver".toText = ⟨some ⟨.char 'v', some "verbosity".toText, .never⟩, false, false⟩ ∧
      aliasTable.matchLong "verb".toText = ⟨some ⟨.char 'v', some "verb".toText, .never⟩, true, false⟩ ∧
      aliasTable.matchLong "verbosity".toText = ⟨some ⟨.char 'v', some "verbosity".toText, .never⟩, true, false⟩ ∧
      (aliasTable.matchLong "outs".toText).ambiguous = true ∧
      ∃ e ∈ aliasTable.entries, e.Named "out".toText := by
  have front : "ver".toText <+: "verb".toText := by decide
  have found : aliasTable.matchLong "ver".toText =
      ⟨some ⟨.char 'v', some "verbosity".toText, .never⟩, false, false⟩ := by decide
  have clash : (aliasTable.matchLong "outs".toText).ambiguous = true := by decide
  refine ⟨front, found, ?passed, ?whole, clash, ?begun⟩
  case passed =>
    have option : (aliasTable.matchLong "verb".toText).option = some ⟨.char 'v', some "verb".toText, .never⟩ := by
      decide
    rcases (matchLong_longer aliasTable _ _ front).1 _ found with ⟨clear, _, way, _⟩
    rcases way (by decide) with ⟨d, means, same | ⟨_, _, exact⟩⟩
    · rw [same, option] at means
      exact absurd means (by decide)
    · calc
        aliasTable.matchLong "verb".toText =
            ⟨(aliasTable.matchLong "verb".toText).option, (aliasTable.matchLong "verb".toText).exact,
              (aliasTable.matchLong "verb".toText).ambiguous⟩ := rfl
        _ = ⟨some ⟨.char 'v', some "verb".toText, .never⟩, true, false⟩ := by rw [option, exact, clear]
  case whole => exact ((matchLong_longer aliasTable _ "verbosity".toText (by decide)).1 _ found).2.2.2 rfl
  case begun =>
    rcases (matchLong_longer aliasTable "out".toText _ (by decide)).2 clash with earlier | full
    · exact absurd earlier (by decide)
    · exact full

end CommandLine
