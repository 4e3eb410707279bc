import CommandLine.Proofs.ClusterResolution
import CommandLine.Proofs.LongResolution
import CommandLine.Proofs.TokenParts

namespace CommandLine

namespace Table

/-- The option that both a character and a name select in full. Each of them may stand in other entries, too, but behind
this one, and other names may begin with the name. -/
structure Spells (table : Table) (c : CodePoint) (name : Text) (o : Descriptor) : Prop where
  short : table.SelectsShort c o
  long : IsFirst (·.Named name) table.entries o
  single : c ≠ '-'
  noEquals : .scalar '=' ∉ name

structure ReadsAlike (table : Table) (c : CodePoint) (name : Text) (o : Descriptor) (short long : Text)
    (next : Option Text) (argument : Text) (consumed : Nat) : Prop where
  isShort : (classify short).kind = .short
  isLong : (classify long).kind = .long
  shortVerdict : table.shortVerdict (classify short).asShort next = ⟨[⟨o, argument, ['-', c]⟩], consumed, none⟩
  longVerdict : table.longVerdict (classify long).asLong next =
    ⟨[⟨o, argument, '-' :: '-' :: name⟩], consumed, none⟩

structure LacksAlike (table : Table) (c : CodePoint) (name : Text) (short long : Text) (next : Option Text) : Prop where
  isShort : (classify short).kind = .short
  isLong : (classify long).kind = .long
  shortVerdict : table.shortVerdict (classify short).asShort next =
    ⟨[], 0, some ⟨.missingArgument, "option requires an argument -- ".toText ++ [c], short, -1⟩⟩
  longVerdict : table.longVerdict (classify long).asLong next =
    ⟨[], 0, some ⟨.missingArgument, "option '--".toText ++ name ++ "' requires an argument".toText, long, -1⟩⟩

variable {table : Table} {c : CodePoint} {name value : Text} {o : Descriptor} {next : Option Text}

/-- The last option of a cluster has no argument, if it requires none. -/
theorem resolveCluster_last (found : table.findShort c = some o) (free : o.arity ≠ .required) :
    table.resolveCluster next [c] = .ok ⟨[.short o c []], false⟩ := by
  simp [resolveCluster, found, free, Except.map, Resolution.cons]

namespace Spells

theorem found (spells : table.Spells c name o) : table.findShort c = some o :=
  findShort_eq_some_iff.mpr spells.short

theorem nonempty (spells : table.Spells c name o) : name ≠ [] := spells.long.holds.name_ne_nil

theorem longName (spells : table.Spells c name o) : o.longName = name := spells.long.holds.2

theorem classify_short (spells : table.Spells c name o) (rest : Text) :
    classify ('-' :: c :: rest) = .short ⟨'-' :: c :: rest, c :: rest⟩ :=
  Token.classify_of_shape (.cluster c rest spells.single)

theorem classify_long (spells : table.Spells c name o) :
    classify ('-' :: '-' :: name) = .long ⟨'-' :: '-' :: name, name, none⟩ :=
  Token.classify_of_shape (.longBare name spells.nonempty spells.noEquals)

theorem classify_valued (spells : table.Spells c name o) (value : Text) :
    classify (.scalar '-' :: .scalar '-' :: (name ++ .scalar '=' :: value)) =
      .long ⟨.scalar '-' :: .scalar '-' :: (name ++ .scalar '=' :: value), name, some value⟩ :=
  Token.classify_of_shape (.longValued name value spells.noEquals)

theorem kind_short (spells : table.Spells c name o) (rest : Text) : (classify ('-' :: c :: rest)).kind = .short := by
  rw [spells.classify_short]
  rfl

theorem kind_long (spells : table.Spells c name o) : (classify ('-' :: '-' :: name)).kind = .long := by
  rw [spells.classify_long]
  rfl

theorem kind_valued (spells : table.Spells c name o) (value : Text) :
    (classify (.scalar '-' :: .scalar '-' :: (name ++ .scalar '=' :: value))).kind = .long := by
  rw [spells.classify_valued]
  rfl

theorem longVerdict_read (spells : table.Spells c name o) {token : LongToken} (full : token.name = name)
    (allowed : ¬ (o.arity = .never ∧ token.value ≠ none))
    (supplied : ¬ (o.arity = .required ∧ LacksArgument token.value next)) :
    table.longVerdict token next =
      ⟨[⟨o, o.longArgument token.value next, '-' :: '-' :: name⟩],
        if o.arity = .required ∧ token.value = none then 2 else 1, none⟩ := by
  have selects : table.Selects token.name o := .full (full ▸ spells.long)
  rw [longVerdict_of_fits selects allowed supplied, spells.longName]
  rfl

theorem bare (spells : table.Spells c name o) (free : o.arity ≠ .required) (next : Option Text) :
    table.ReadsAlike c name o ['-', c] ('-' :: '-' :: name) next [] 1 := by
  refine ⟨spells.kind_short [], spells.kind_long, ?short, ?long⟩
  case short =>
    rw [spells.classify_short]
    exact congrArg (Verdict.ofResult ['-', c]) (resolveCluster_last spells.found free)
  case long =>
    rw [spells.classify_long, Token.asLong, spells.longVerdict_read rfl (by simp) (by simp [free])]
    simp [Descriptor.longArgument, free]

theorem attached (spells : table.Spells c name o) (takes : o.arity ≠ .never) (nonempty : value ≠ [])
    (next : Option Text) :
    table.ReadsAlike c name o ('-' :: c :: value) ('-' :: '-' :: (name ++ .scalar '=' :: value)) next value 1 := by
  refine ⟨spells.kind_short value, spells.kind_valued value, ?short, ?long⟩
  case short =>
    rw [spells.classify_short]
    exact congrArg (Verdict.ofResult ('-' :: c :: value)) (resolveCluster_attached spells.found takes nonempty)
  case long =>
    rw [spells.classify_valued, Token.asLong,
      spells.longVerdict_read rfl (by simp [takes]) (by simp [LacksArgument, nonempty])]
    simp [Descriptor.longArgument]

theorem separate (spells : table.Spells c name o) (required : o.arity = .required) (nonempty : value ≠ []) :
    table.ReadsAlike c name o ['-', c] ('-' :: '-' :: name) (some value) value 2 := by
  refine ⟨spells.kind_short [], spells.kind_long, ?short, ?long⟩
  case short =>
    have given : argument? (some value) = some value := argument?_eq_some_iff.mpr ⟨rfl, nonempty⟩
    rw [spells.classify_short]
    exact congrArg (Verdict.ofResult ['-', c]) (resolveCluster_separate spells.found required given)
  case long =>
    rw [spells.classify_long, Token.asLong,
      spells.longVerdict_read rfl (by simp) (by simp [LacksArgument, nonempty])]
    simp [Descriptor.longArgument, required]

theorem lacking (spells : table.Spells c name o) (required : o.arity = .required)
    (absent : next = none ∨ next = some []) : table.LacksAlike c name ['-', c] ('-' :: '-' :: name) next := by
  refine ⟨spells.kind_short [], spells.kind_long, ?short, ?long⟩
  case short =>
    rw [spells.classify_short]
    exact congrArg (Verdict.ofResult ['-', c])
      (resolveCluster_missing spells.found required (argument?_eq_none_iff.mpr absent))
  case long =>
    have refusal : LongRefusal table ⟨'-' :: '-' :: name, name, none⟩ next .missingArgument
        ("option '--".toText ++ o.longName ++ "' requires an argument".toText) :=
      .missing (.full spells.long) required (Or.inr ⟨rfl, absent⟩)
    rw [spells.classify_long, Token.asLong, longVerdict_of_refusal refusal, spells.longName]

end Spells

end Table

/-- The short and the long spelling of an option agree. Without an argument both are read if none is required; an
attached argument is read from both if the option takes one; and where one is required, both take the next element, or
both miss it. The two records differ in their forms only. -/
theorem spellings_agree (table : Table) (c : CodePoint) (name : Text) (o : Descriptor) (spells : table.Spells c name o)
    (value : Text) (nonempty : value ≠ []) (next : Option Text) :
    (o.arity = .never ∨ o.arity = .optional →
      table.ReadsAlike c name o ['-', c] ('-' :: '-' :: name) next [] 1) ∧
    (o.arity = .required ∨ o.arity = .optional →
      table.ReadsAlike c name o ('-' :: c :: value) ('-' :: '-' :: (name ++ .scalar '=' :: value)) next value 1) ∧
    (o.arity = .required →
      table.ReadsAlike c name o ['-', c] ('-' :: '-' :: name) (some value) value 2 ∧
        ∀ absent, absent = none ∨ absent = some [] →
          table.LacksAlike c name ['-', c] ('-' :: '-' :: name) absent) := by
  refine ⟨?bare, ?attached, ?required⟩
  case bare =>
    intro free
    apply spells.bare
    rcases free with arity | arity <;> simp [arity]
  case attached =>
    intro takes
    apply spells.attached _ nonempty
    rcases takes with arity | arity <;> simp [arity]
  case required =>
    intro required
    exact ⟨spells.separate required nonempty, fun absent lacks => spells.lacking required lacks⟩

def crossedTable : Table := .ofList
  [⟨.number 7, some "all".toText, .never⟩, ⟨.number 97, some "al".toText, .required⟩,
    ⟨.char 'a', some "al".toText, .optional⟩]

theorem spellings_agree_crossed :
    crossedTable.Spells 'a' "al".toText ⟨.number 97, some "al".toText, .required⟩ ∧ "--".toText ≠ [] ∧
      crossedTable.shortVerdict ⟨"-a--".toText, "a--".toText⟩ none =
        ⟨[⟨⟨.number 97, some "al".toText, .required⟩, "--".toText, "-a".toText⟩], 1, none⟩ ∧
      crossedTable.longVerdict ⟨"--al".toText, "al".toText, none⟩ (some "--".toText) =
        ⟨[⟨⟨.number 97, some "al".toText, .required⟩, "--".toText, "--al".toText⟩], 2, none⟩ ∧
      crossedTable.LacksAlike 'a' "al".toText "-a".toText "--al".toText (some []) := by
  have spells : crossedTable.Spells 'a' "al".toText ⟨.number 97, some "al".toText, .required⟩ :=
    ⟨⟨[⟨.number 7, some "all".toText, .never⟩], [⟨.char 'a', some "al".toText, .optional⟩], by decide, by decide,
        by decide⟩,
      ⟨[⟨.number 7, some "all".toText, .never⟩], [⟨.char 'a', some "al".toText, .optional⟩], by decide, by decide,
        by decide⟩, by decide, by decide⟩
  rcases spellings_agree crossedTable 'a' "al".toText _ spells "--".toText (by decide) none with
    ⟨_, attached, required⟩
  exact ⟨spells, by decide, (attached (Or.inl rfl)).shortVerdict, (required rfl).1.longVerdict,
    (required rfl).2 (some []) (Or.inr rfl)⟩

end CommandLine
