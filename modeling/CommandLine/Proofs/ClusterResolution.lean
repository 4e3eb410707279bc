import CommandLine.Proofs.Lookahead
import CommandLine.Proofs.Outcome
import Mathlib.Data.List.Forall2
import Mathlib.Data.Nat.Find

/-!
What a cluster of short options comes to. Its characters are flags up to the first one that stops the reading, and that
character alone decides what becomes of the cluster.
-/
namespace CommandLine

namespace Table

/-- A character stops the reading if no option has it, or if its option takes an argument: the characters behind it or,
if there are none and an argument is required, the next element. -/
def StopsAt (table : Table) (cluster : Text) (place : Nat) : Prop :=
  ∃ c ∈ cluster[place]?, table.findShort c = none ∨
    ∃ d ∈ table.findShort c,
      d.arity ≠ .never ∧ place + 1 < cluster.length ∨ d.arity = .required ∧ place + 1 = cluster.length

instance (table : Table) (cluster : Text) (place : Nat) : Decidable (table.StopsAt cluster place) :=
  Option.decidableExistsMem cluster[place]?

structure FirstStop (table : Table) (cluster : Text) (place : Nat) : Prop where
  stops : table.StopsAt cluster place
  earlier : ∀ before < place, ¬ table.StopsAt cluster before

def Bare (table : Table) (c : CodePoint) (r : Record) : Prop := ∃ d, table.findShort c = some d ∧ r = .short d c []

end Table

/-- What becomes of a cluster, told by its first stop. -/
inductive ClusterVerdict (table : Table) (token : ShortToken) (next : Option Text) : Verdict → Prop where
  | flags {records : List Record} (noStop : ∀ place, ¬ table.StopsAt token.cluster place)
      (bare : List.Forall₂ table.Bare token.cluster records) :
      ClusterVerdict table token next ⟨records, 1, none⟩
  | unknown {place : Nat} {c : CodePoint} (first : table.FirstStop token.cluster place)
      (char : token.cluster[place]? = some c) (absent : table.findShort c = none) :
      ClusterVerdict table token next
        ⟨[], 0, some ⟨.invalidShortOption, "invalid option -- ".toText ++ [c], token.text, -1⟩⟩
  | attached {place : Nat} {c : CodePoint} {d : Descriptor} {records : List Record}
      (first : table.FirstStop token.cluster place) (char : token.cluster[place]? = some c)
      (found : table.findShort c = some d) (more : place + 1 < token.cluster.length)
      (bare : List.Forall₂ table.Bare (token.cluster.take place) records) :
      ClusterVerdict table token next
        ⟨records ++ [⟨d, token.cluster.drop (place + 1), ['-', c]⟩], 1, none⟩
  | separate {place : Nat} {c : CodePoint} {d : Descriptor} {value : Text} {records : List Record}
      (first : table.FirstStop token.cluster place) (char : token.cluster[place]? = some c)
      (found : table.findShort c = some d) (last : place + 1 = token.cluster.length)
      (given : next = some value) (nonempty : value ≠ [])
      (bare : List.Forall₂ table.Bare (token.cluster.take place) records) :
      ClusterVerdict table token next ⟨records ++ [⟨d, value, ['-', c]⟩], 2, none⟩
  | missing {place : Nat} {c : CodePoint} {d : Descriptor} (first : table.FirstStop token.cluster place)
      (char : token.cluster[place]? = some c) (found : table.findShort c = some d)
      (last : place + 1 = token.cluster.length) (lacks : next = none ∨ next = some []) :
      ClusterVerdict table token next
        ⟨[], 0, some ⟨.missingArgument, "option requires an argument -- ".toText ++ [c], token.text, -1⟩⟩

def Resolution.behind (front : List Record) (r : Resolution) : Resolution := { r with records := front ++ r.records }

namespace Table

variable {table other : Table} {cluster front rest : Text} {c : CodePoint} {d : Descriptor} {next : Option Text}
  {place : Nat} {records : List Record}

theorem stopsAt_zero : table.StopsAt (c :: rest) 0 ↔
    table.findShort c = none ∨
      ∃ d, table.findShort c = some d ∧ (d.arity ≠ .never ∧ rest ≠ [] ∨ d.arity = .required ∧ rest = []) := by
  have more : 0 + 1 < (c :: rest).length ↔ rest ≠ [] := by
    rw [List.length_cons, ← List.length_pos_iff]
    omega
  have last : 0 + 1 = (c :: rest).length ↔ rest = [] := by
    rw [List.length_cons, ← List.length_eq_zero_iff]
    omega
  simp only [StopsAt, List.getElem?_cons_zero, Option.mem_def, Option.some.injEq, more, last, exists_eq_left']

theorem stopsAt_succ : table.StopsAt (c :: rest) (place + 1) ↔ table.StopsAt rest place := by
  have more : place + 1 + 1 < (c :: rest).length ↔ place + 1 < rest.length := by
    rw [List.length_cons]
    omega
  have last : place + 1 + 1 = (c :: rest).length ↔ place + 1 = rest.length := by
    rw [List.length_cons]
    omega
  simp only [StopsAt, List.getElem?_cons_succ, more, last]

theorem StopsAt.arity (stops : table.StopsAt cluster place) (char : cluster[place]? = some c)
    (found : table.findShort c = some d) :
    d.arity ≠ .never ∧ place + 1 < cluster.length ∨ d.arity = .required ∧ place + 1 = cluster.length := by
  rcases stops with ⟨b, same, stop⟩
  rw [Option.some.inj (same.symm.trans char), found] at stop
  rcases stop with absent | ⟨e, again, takes⟩
  · cases absent
  · rw [Option.some.inj again]
    exact takes

theorem StopsAt.required_at_last (stops : table.StopsAt cluster place) (char : cluster[place]? = some c)
    (found : table.findShort c = some d) (last : place + 1 = cluster.length) :
    d.arity = .required ∧ cluster.drop (place + 1) = [] := by
  constructor
  · rcases stops.arity char found with ⟨_, more⟩ | ⟨arity, _⟩
    · omega
    · exact arity
  · exact List.drop_eq_nil_of_le (by omega)

theorem StopsAt.takes_before_last (stops : table.StopsAt cluster place) (char : cluster[place]? = some c)
    (found : table.findShort c = some d) (more : place + 1 < cluster.length) :
    d.arity ≠ .never ∧ cluster.drop (place + 1) ≠ [] := by
  constructor
  · rcases stops.arity char found with ⟨takes, _⟩ | ⟨_, last⟩
    · exact takes
    · omega
  · rw [← List.length_pos_iff, List.length_drop]
    omega

theorem exists_firstStop (stops : ∃ place, table.StopsAt cluster place) : ∃ place, table.FirstStop cluster place := by
  classical
  refine ⟨Nat.find stops, Nat.find_spec stops, ?_⟩
  intro before earlier
  exact Nat.find_min stops earlier

theorem split_of_char (char : cluster[place]? = some c) :
    cluster = cluster.take place ++ c :: cluster.drop (place + 1) := by
  rcases List.getElem?_eq_some_iff.mp char with ⟨inside, rfl⟩
  rw [List.getElem_cons_drop, List.take_append_drop]

theorem resolveCluster_unknown (absent : table.findShort c = none) :
    table.resolveCluster next (c :: rest) = .error (.invalidShort c) := by
  simp only [resolveCluster, absent]

theorem resolveCluster_attached (found : table.findShort c = some d) (takes : d.arity ≠ .never) (more : rest ≠ []) :
    table.resolveCluster next (c :: rest) = .ok ⟨[.short d c rest], false⟩ := by
  simp [resolveCluster, found, Descriptor.takesArgument, takes, more]

theorem resolveCluster_separate {text : Text} (found : table.findShort c = some d) (arity : d.arity = .required)
    (given : argument? next = some text) : table.resolveCluster next [c] = .ok ⟨[.short d c text], true⟩ := by
  simp [resolveCluster, found, arity, given]

theorem resolveCluster_missing (found : table.findShort c = some d) (arity : d.arity = .required)
    (lacks : argument? next = none) : table.resolveCluster next [c] = .error (.shortNeedsArgument c) := by
  simp [resolveCluster, found, arity, lacks]

theorem resolveCluster_passes (passes : ¬ table.StopsAt (c :: rest) 0) :
    ∃ d, table.findShort c = some d ∧ ∀ next, table.resolveCluster next (c :: rest) =
      (table.resolveCluster next rest).map (Resolution.cons (.short d c [])) := by
  rw [stopsAt_zero] at passes
  cases found : table.findShort c with
  | none => exact absurd (Or.inl found) passes
  | some d =>
      have notAttached : ¬ (d.arity ≠ .never ∧ rest ≠ []) := by
        intro takes
        exact passes (Or.inr ⟨d, found, Or.inl takes⟩)
      have notRequired : d.arity ≠ .required := by
        intro arity
        by_cases alone : rest = []
        · exact passes (Or.inr ⟨d, found, Or.inr ⟨arity, alone⟩⟩)
        · exact notAttached ⟨by simp [arity], alone⟩
      refine ⟨d, rfl, ?_⟩
      intro next
      simp only [resolveCluster, found]
      rw [if_neg (by simpa [Descriptor.takesArgument] using notAttached), if_neg notRequired]

theorem resolveCluster_front (passes : ∀ place < front.length, ¬ table.StopsAt (front ++ rest) place) :
    ∃ records, List.Forall₂ table.Bare front records ∧ ∀ next,
      table.resolveCluster next (front ++ rest) =
        (table.resolveCluster next rest).map (Resolution.behind records) := by
  -- A place behind the first character is a place of the shorter cluster, one less.
  induction front with
  | nil =>
      refine ⟨[], .nil, ?_⟩
      intro next
      rw [List.nil_append]
      cases table.resolveCluster next rest <;> rfl
  | cons c front ih =>
      have goesOn : ¬ table.StopsAt (c :: (front ++ rest)) 0 := passes 0 (by simp)
      rcases resolveCluster_passes goesOn with ⟨d, found, first⟩
      have later : ∀ place < front.length, ¬ table.StopsAt (front ++ rest) place := by
        intro place inside stops
        exact passes (place + 1) (by simpa using inside) (stopsAt_succ.mpr stops)
      rcases ih later with ⟨records, bare, more⟩
      refine ⟨.short d c [] :: records, .cons ⟨d, found, rfl⟩ bare, ?_⟩
      intro next
      rw [List.cons_append, first, more]
      cases table.resolveCluster next rest <;> rfl

theorem resolveCluster_to_stop (first : table.FirstStop cluster place) (char : cluster[place]? = some c) :
    ∃ records, List.Forall₂ table.Bare (cluster.take place) records ∧ ∀ next,
      table.resolveCluster next cluster =
        (table.resolveCluster next (c :: cluster.drop (place + 1))).map (Resolution.behind records) := by
  have split := split_of_char char
  have passes : ∀ before < (cluster.take place).length,
      ¬ table.StopsAt (cluster.take place ++ c :: cluster.drop (place + 1)) before := by
    intro before inside
    rw [← split]
    apply first.earlier before
    rw [List.length_take] at inside
    omega
  rcases resolveCluster_front passes with ⟨records, bare, whole⟩
  rw [← split] at whole
  exact ⟨records, bare, whole⟩

theorem resolveCluster_flags (noStop : ∀ place, ¬ table.StopsAt cluster place) :
    ∃ records, List.Forall₂ table.Bare cluster records ∧ ∀ next,
      table.resolveCluster next cluster = .ok ⟨records, false⟩ := by
  have passes : ∀ place < cluster.length, ¬ table.StopsAt (cluster ++ []) place := by
    intro place _
    rw [List.append_nil]
    exact noStop place
  rcases resolveCluster_front passes with ⟨records, bare, whole⟩
  refine ⟨records, bare, ?_⟩
  intro next
  calc
    table.resolveCluster next cluster = table.resolveCluster next (cluster ++ []) := by rw [List.append_nil]
    _ = (Except.ok ⟨[], false⟩).map (Resolution.behind records) := whole next
    _ = .ok ⟨records, false⟩ := by simp [Except.map, Resolution.behind]

theorem bare_unique {others : List Record} (one : List.Forall₂ table.Bare front records)
    (two : List.Forall₂ table.Bare front others) : records = others := by
  have unique : Relator.RightUnique table.Bare := by
    intro c r s first second
    rcases first with ⟨d, found, rfl⟩
    rcases second with ⟨e, again, rfl⟩
    rw [Option.some.inj (found.symm.trans again)]
  exact unique.forall₂ one two

/-- Characters behind a stop are not looked up: a table that knows the others alike reads the cluster alike. -/
theorem resolveCluster_same (stops : table.StopsAt cluster place)
    (same : ∀ c ∈ cluster.take (place + 1), other.findShort c = table.findShort c) :
    other.resolveCluster next cluster = table.resolveCluster next cluster := by
  -- Not by the characters: the reading ends at the stop, and beyond it the tables may differ.
  induction place generalizing cluster with
  | zero =>
      cases cluster with
      | nil => rfl
      | cons c rest =>
          have here : other.findShort c = table.findShort c := same c (by simp)
          rcases stopsAt_zero.mp stops with absent | ⟨d, found, ⟨takes, more⟩ | ⟨arity, rfl⟩⟩
          · rw [resolveCluster_unknown absent, resolveCluster_unknown (here.trans absent)]
          · rw [resolveCluster_attached found takes more, resolveCluster_attached (here.trans found) takes more]
          · simp only [resolveCluster, here]
  | succ place ih =>
      cases cluster with
      | nil => rfl
      | cons c rest =>
          have here : other.findShort c = table.findShort c := same c (by simp)
          have later : ∀ b ∈ rest.take (place + 1), other.findShort b = table.findShort b := by
            intro b member
            exact same b (List.mem_cons_of_mem c member)
          simp only [resolveCluster, here, ih (stopsAt_succ.mp stops) later]

end Table

section Verdicts

variable {table : Table} {token : ShortToken} {next : Option Text} {verdict : Verdict}

theorem exists_clusterVerdict (table : Table) (token : ShortToken) (next : Option Text) :
    ∃ verdict, ClusterVerdict table token next verdict := by
  by_cases stops : ∃ place, table.StopsAt token.cluster place
  · rcases Table.exists_firstStop stops with ⟨place, first⟩
    rcases first.stops with ⟨c, char, absent | ⟨d, found, ⟨_, more⟩ | ⟨_, last⟩⟩⟩
    · exact ⟨_, .unknown first char absent⟩
    · rcases Table.resolveCluster_to_stop first char with ⟨records, bare, _⟩
      exact ⟨_, .attached first char found more bare⟩
    · rcases Table.resolveCluster_to_stop first char with ⟨records, bare, _⟩
      by_cases lacks : next = none ∨ next = some []
      · exact ⟨_, .missing first char found last lacks⟩
      · cases next with
        | none => simp at lacks
        | some value => exact ⟨_, .separate first char found last rfl (by simpa using lacks) bare⟩
  · have noStop : ∀ place, ¬ table.StopsAt token.cluster place := by
      intro place here
      exact stops ⟨place, here⟩
    rcases Table.resolveCluster_flags noStop with ⟨records, bare, _⟩
    exact ⟨_, .flags noStop bare⟩

theorem shortVerdict_at_stop {place : Nat} {c : CodePoint} (first : table.FirstStop token.cluster place)
    (char : token.cluster[place]? = some c) :
    ∃ records, List.Forall₂ table.Bare (token.cluster.take place) records ∧ ∀ outcome,
      table.resolveCluster next (c :: token.cluster.drop (place + 1)) = outcome →
      table.shortVerdict token next = .ofResult token.text (outcome.map (Resolution.behind records)) := by
  rcases Table.resolveCluster_to_stop first char with ⟨records, bare, whole⟩
  refine ⟨records, bare, ?_⟩
  intro outcome decided
  rw [Table.shortVerdict, Table.resolveShort, whole, decided]

theorem shortVerdict_of_clusterVerdict (told : ClusterVerdict table token next verdict) :
    table.shortVerdict token next = verdict := by
  cases told with
  | flags noStop bare =>
      rcases Table.resolveCluster_flags noStop with ⟨records, again, whole⟩
      rw [Table.bare_unique bare again, Table.shortVerdict, Table.resolveShort, whole]
      rfl
  | unknown first char absent =>
      rcases shortVerdict_at_stop first char with ⟨records, _, decided⟩
      exact decided _ (Table.resolveCluster_unknown absent)
  | attached first char found more bare =>
      rcases first.stops.takes_before_last char found more with ⟨takes, rest⟩
      rcases shortVerdict_at_stop first char with ⟨records, again, decided⟩
      rw [Table.bare_unique bare again]
      exact decided _ (Table.resolveCluster_attached found takes rest)
  | separate first char found last given nonempty bare =>
      rcases first.stops.required_at_last char found last with ⟨arity, rest⟩
      rcases shortVerdict_at_stop first char with ⟨records, again, decided⟩
      rw [rest] at decided
      rw [Table.bare_unique bare again]
      exact decided _ (Table.resolveCluster_separate found arity (argument?_eq_some_iff.mpr ⟨given, nonempty⟩))
  | missing first char found last lacks =>
      rcases first.stops.required_at_last char found last with ⟨arity, rest⟩
      rcases shortVerdict_at_stop first char with ⟨records, _, decided⟩
      rw [rest] at decided
      exact decided _ (Table.resolveCluster_missing found arity (argument?_eq_none_iff.mpr lacks))

theorem shortVerdict_iff : table.shortVerdict token next = verdict ↔ ClusterVerdict table token next verdict := by
  constructor
  · intro same
    -- There is always a verdict that the first stop tells, and the reading comes to it.
    rcases exists_clusterVerdict table token next with ⟨other, told⟩
    rw [← same, shortVerdict_of_clusterVerdict told]
    exact told
  · intro told
    exact shortVerdict_of_clusterVerdict told

end Verdicts

def lastArgument (records : List Record) : Text := (records.getLast?.map Record.argument).getD []

def shownCharacters (records : List Record) : Text := records.flatMap fun r => r.form.drop 1

section Spelling

variable {table : Table} {token : ShortToken} {next : Option Text} {verdict : Verdict} {front : Text}
  {records : List Record}

@[simp] theorem lastArgument_concat (records : List Record) (r : Record) :
    lastArgument (records ++ [r]) = r.argument := by
  simp [lastArgument]

@[simp] theorem shownCharacters_concat (records : List Record) (d : Descriptor) (c : CodePoint) (argument : Text) :
    shownCharacters (records ++ [⟨d, argument, ['-', c]⟩]) = shownCharacters records ++ [c] := by
  simp [shownCharacters]

theorem shownCharacters_bare (bare : List.Forall₂ table.Bare front records) : shownCharacters records = front := by
  induction bare with
  | nil => rfl
  | @cons c r front records first more ih =>
      rcases first with ⟨d, _, rfl⟩
      calc
        shownCharacters (.short d c [] :: records) = c :: shownCharacters records := rfl
        _ = c :: front := by rw [ih]

theorem lastArgument_bare (bare : List.Forall₂ table.Bare front records) : lastArgument records = [] := by
  induction bare with
  | nil => rfl
  | @cons c r front records first more ih =>
      rcases first with ⟨d, _, rfl⟩
      cases records with
      | nil => rfl
      | cons r records => simpa [lastArgument] using ih

theorem spelling_of_clusterVerdict (told : ClusterVerdict table token next verdict)
    (reads : verdict.diagnostic = none) :
    shownCharacters verdict.records ++ (if verdict.consumed = 1 then lastArgument verdict.records else []) =
      token.cluster := by
  cases told with
  | flags noStop bare => simp [shownCharacters_bare bare, lastArgument_bare bare]
  | unknown first char absent => cases reads
  | attached first char found more bare =>
      have split := Table.split_of_char char
      simpa [shownCharacters_bare bare] using split.symm
  | separate first char found last given nonempty bare =>
      have split := Table.split_of_char char
      rw [(first.stops.required_at_last char found last).2] at split
      simpa [shownCharacters_bare bare] using split.symm
  | missing first char found last lacks => cases reads

end Spelling

/-- A cluster is read up to its first stop, which decides what it comes to; nothing behind that character is looked up,
and what is read spells the cluster. -/
theorem shortVerdict_rule (table : Table) (token : ShortToken) (next : Option Text) :
    (∀ verdict, table.shortVerdict token next = verdict ↔ ClusterVerdict table token next verdict) ∧
    (∀ (other : Table) (place : Nat), table.StopsAt token.cluster place →
      (∀ c ∈ token.cluster.take (place + 1), other.findShort c = table.findShort c) →
      other.shortVerdict token next = table.shortVerdict token next) ∧
    ((table.shortVerdict token next).diagnostic = none →
      shownCharacters (table.shortVerdict token next).records ++
        (if (table.shortVerdict token next).consumed = 1 then lastArgument (table.shortVerdict token next).records
          else []) = token.cluster) := by
  refine ⟨?verdicts, ?unread, ?spelled⟩
  case verdicts =>
    intro verdict
    exact shortVerdict_iff
  case unread =>
    intro other place stops same
    rw [Table.shortVerdict, Table.resolveShort, Table.resolveCluster_same stops same]
    rfl
  case spelled =>
    intro reads
    exact spelling_of_clusterVerdict (shortVerdict_iff.mp rfl) reads

def shorterTable : Table := .ofList
  [⟨.char 'v', some "verbose".toText, .never⟩, ⟨.char 'o', some "output".toText, .required⟩]

theorem shortVerdict_rule_sample :
    sampleTable.FirstStop "voc".toText 1 ∧
      sampleTable.shortVerdict ⟨"-voc".toText, "voc".toText⟩ none =
        ⟨[.short ⟨.char 'v', some "verbose".toText, .never⟩ 'v' [],
          .short ⟨.char 'o', some "output".toText, .required⟩ 'o' "c".toText], 1, none⟩ ∧
      shorterTable.shortVerdict ⟨"-voc".toText, "voc".toText⟩ none =
        sampleTable.shortVerdict ⟨"-voc".toText, "voc".toText⟩ none := by
  rcases shortVerdict_rule sampleTable ⟨"-voc".toText, "voc".toText⟩ none with ⟨verdicts, unread, _⟩
  have first : sampleTable.FirstStop "voc".toText 1 := ⟨by decide, by decide⟩
  have flag : sampleTable.Bare 'v' (.short ⟨.char 'v', some "verbose".toText, .never⟩ 'v' []) :=
    ⟨_, by decide, rfl⟩
  have found : sampleTable.findShort 'o' = some ⟨.char 'o', some "output".toText, .required⟩ := by decide
  have told := @ClusterVerdict.attached sampleTable ⟨"-voc".toText, "voc".toText⟩ none 1 'o' _ _ first rfl found
    (by decide) (.cons flag .nil)
  refine ⟨first, ?_, ?_⟩
  · exact (verdicts _).mpr told
  · apply unread shorterTable 1 first.stops
    intro c looked
    have upToStop : "voc".toText.take 2 = ['v', 'o'] := by decide
    rw [upToStop] at looked
    rcases List.mem_pair.mp looked with rfl | rfl
    · decide
    · decide

end CommandLine
