import CommandLine.Proofs.StructuredReport
import CommandLine.Proofs.TableBuilding
import CommandLine.Proofs.ToolRuns
import CommandLine.Tool.Tree

namespace CommandLine

section Description

def Arity.Spelled (arity : Arity) (word : Text) : Prop :=
  List.Forall₂ (fun letter c => c = letter ∨ c = letter.toUpper) arity.word word

/-- What the fields of an object must say to describe an entry. Only an entry without an argument may leave its arity
out, and only one without a name may leave its name out or give none. -/
structure Descriptor.DescribedIn (d : Descriptor) (fields : List (Text × Json)) : Prop where
  code : Json.get? "code".toText fields = some d.code.told
  arity : (∃ word, d.arity.Spelled word ∧ Json.get? "has_arg".toText fields = some (.text word)) ∨
    d.arity = .never ∧ Json.get? "has_arg".toText fields = none
  name : (∃ name, name ≠ [] ∧ d.name = some name ∧ Json.get? "name".toText fields = some (.text name)) ∨
    d.name = none ∧ (Json.get? "name".toText fields = none ∨ Json.get? "name".toText fields = some .null ∨
      Json.get? "name".toText fields = some (.text []))

def Descriptor.DescribedBy (d : Descriptor) (value : Json) : Prop :=
  ∃ fields, value = .object fields ∧ d.DescribedIn fields

/-- The end of a list of entries: nothing, or an entry with code 0 and any values behind it. -/
def EndsEntries (following : List Json) : Prop :=
  following = [] ∨ ∃ d value rest, following = value :: rest ∧ d.isSentinel = true ∧ Descriptor.DescribedBy d value

end Description

section Entries

variable {arity : Arity} {word : Text} {d : Descriptor} {fields : List (Text × Json)}

theorem small_letters (arity : Arity) :
    ∀ letter ∈ arity.word, letter.toLower = letter ∧ letter.toUpper.toLower = letter := by
  have all : arity.word.all (fun letter => letter.toLower = letter ∧ letter.toUpper.toLower = letter) = true := by
    cases arity <;> decide
  exact fun letter member => of_decide_eq_true (List.all_eq_true.mp all letter member)

theorem toLower_of_spelled {letters : Text}
    (small : ∀ letter ∈ letters, letter.toLower = letter ∧ letter.toUpper.toLower = letter)
    (spelled : List.Forall₂ (fun letter c => c = letter ∨ c = letter.toUpper) letters word) :
    word.map CodePoint.toLower = letters := by
  induction spelled with
  | nil => rfl
  | @cons letter c letters word same others ih =>
      have here := small letter List.mem_cons_self
      have lower : c.toLower = letter := by
        rcases same with rfl | rfl
        · exact here.1
        · exact here.2
      rw [List.map_cons, lower, ih fun other member => small other (List.mem_cons_of_mem _ member)]

theorem ofWord_of_spelled (spelled : arity.Spelled word) : Arity.ofWord word = .ok arity := by
  have lower := toLower_of_spelled (small_letters arity) spelled
  have found : Arity.all.find? (fun other => other.word = arity.word) = some arity := by cases arity <;> decide
  rw [Arity.ofWord, Arity.ofWord?, lower, found]

theorem givenArity_of_described (described : d.DescribedIn fields) (position : Nat) :
    TableFile.givenArity position fields = .ok d.arity := by
  rw [TableFile.givenArity]
  rcases described.arity with ⟨word, spelled, given⟩ | ⟨never, missing⟩
  · rw [given]
    exact ofWord_of_spelled spelled
  · rw [missing, never]

theorem nameOfJson_of_described (described : d.DescribedIn fields) :
    Descriptor.nameOfJson (TableFile.givenName fields) = .ok d.name := by
  rw [TableFile.givenName]
  rcases described.name with ⟨name, nonempty, named, given⟩ | ⟨unnamed, missing | null | empty⟩
  · rw [given, named]
    cases name with
    | nil => exact absurd rfl nonempty
    | cons c rest => rfl
  · rw [missing, unnamed]
    rfl
  · rw [null, unnamed]
    rfl
  · rw [empty, unnamed]
    rfl

theorem ofJson_told (code : Code) : Code.ofJson code.told = .ok code := by
  cases code <;> rfl

theorem readEntry_of_described {value : Json} (described : d.DescribedBy value) (position : Nat) :
    TableFile.readEntry (value, position) = .ok d := by
  obtain ⟨fields, rfl, described⟩ := described
  simp only [TableFile.readEntry, described.code, givenArity_of_described described, Spec.check, GivenArity.check,
    ofJson_told, nameOfJson_of_described described, bind, Except.bind, pure, Except.pure]

end Entries

section Files

variable {table : Table} {entries : List Descriptor} {objects following : List Json}

theorem read_described (described : List.Forall₂ Descriptor.DescribedBy entries objects)
    (kept : ∀ d ∈ entries, d.isSentinel = false) (ends : EndsEntries following) (position : Nat) :
    Table.readUntilSentinel TableFile.readEntry ((objects ++ following).zipIdx position) = .ok entries := by
  induction described generalizing position with
  | nil =>
      rcases ends with rfl | ⟨d, value, rest, rfl, sentinel, last⟩
      · rfl
      · rw [List.nil_append, List.zipIdx_cons, Table.readUntilSentinel, readEntry_of_described last]
        simp [bind, Except.bind, pure, Except.pure, sentinel]
  | @cons d value entries objects first others ih =>
      have later := ih (fun other member => kept other (List.mem_cons_of_mem d member)) (position + 1)
      have entry := kept d List.mem_cons_self
      rw [List.cons_append, List.zipIdx_cons, Table.readUntilSentinel, readEntry_of_described first, later]
      simp [bind, Except.bind, pure, Except.pure, entry]

theorem ofJson_described (described : List.Forall₂ Descriptor.DescribedBy table.entries objects)
    (ends : EndsEntries following) : TableFile.ofJson (.array (objects ++ following)) = .ok table := by
  rw [TableFile.ofJson, Table.build, read_described described table.sentinelFree ends 0]
  exact congrArg Except.ok (Table.ofList_entries table)

theorem ofOctets_of_described {nesting : Nat} {octets : Octets} {text : Scalars}
    (decoded : Scalars.ofUtf8? octets = some text)
    (value : Json.read nesting text = .ok (.array (objects ++ following)))
    (described : List.Forall₂ Descriptor.DescribedBy table.entries objects) (ends : EndsEntries following) :
    TableFile.ofOctets nesting octets = .ok table := by
  rw [TableFile.ofOctets, decoded]
  simp only [TableFile.ofText, value, ofJson_described described ends, Except.mapError]

end Files

section Writing

open Json (Bounds Fits digitCount)

variable {table : Table} {d : Descriptor} {depth nesting : Nat}

def Descriptor.described (d : Descriptor) : Json :=
  .object [
    ("code".toText, d.code.told),
    ("name".toText, d.name.elim .null .text),
    ("has_arg".toText, .text d.arity.word)]

def Table.described (table : Table) : Json := .array (table.entries.map Descriptor.described)

theorem spelled_word (arity : Arity) : arity.Spelled arity.word :=
  List.forall₂_same.mpr fun _ _ => .inl rfl

theorem describedBy_described (named : d.name ≠ some []) : d.DescribedBy d.described := by
  refine ⟨_, rfl, rfl, .inl ⟨d.arity.word, spelled_word d.arity, rfl⟩, ?_⟩
  cases given : d.name with
  | none => exact .inr ⟨rfl, .inr (.inl rfl)⟩
  | some name =>
      have nonempty : name ≠ [] := fun empty => named (by rw [given, empty])
      exact .inl ⟨name, nonempty, rfl, rfl⟩

theorem fits_described (room : 2 ≤ nesting)
    (digits : ∀ value, d.code = .number value → digitCount value ≤ Json.Limit.maxDigits)
    (unpaired : ∀ name, d.name = some name → name.Unpaired) : Fits (.standard nesting) 1 d.described := by
  have code : Fits (.standard nesting) 2 d.code.told := by
    cases given : d.code with
    | number value => exact .int (decide_eq_true (digits value given))
    | char value => exact .text (Text.unpaired_singleton value)
  have name : Fits (.standard nesting) 2 (d.name.elim .null .text) := by
    cases given : d.name with
    | none => exact .null
    | some name => exact .text (unpaired name given)
  have word : Text.Unpaired d.arity.word := by cases d.arity <;> decide
  refine fits_object (["code", "name", "has_arg"].map String.toText) rfl (by decide) (by decide)
    (decide_eq_true room) ?_
  simp only [List.forall_mem_cons]
  exact ⟨code, name, .text word, fun _ member => nomatch member⟩

/-- Every table can be written to a file that is read as that table, if its names and codes can be written at all. -/
theorem ofOctets_described (room : 2 ≤ nesting) (named : ∀ d ∈ table.entries, d.name ≠ some [])
    (unpaired : table.Unpaired)
    (digits : ∀ d ∈ table.entries, ∀ value, d.code = .number value → digitCount value ≤ Json.Limit.maxDigits) :
    TableFile.ofOctets nesting (Scalars.toUtf8 (Json.render depth table.described)) = .ok table := by
  have objects : List.Forall₂ Descriptor.DescribedBy table.entries (table.entries.map Descriptor.described) :=
    List.forall₂_map_right_iff.mpr (List.forall₂_same.mpr fun d member => describedBy_described (named d member))
  have fits : Fits (.standard nesting) 0 table.described :=
    .array (decide_eq_true (Nat.le_of_succ_le room))
      (List.forall_mem_map.mpr fun d member => fits_described room (digits d member) (unpaired d member))
  have blank : ∀ c ∈ ([] : Scalars), Json.Reading.isBlankChar c = true := fun _ member => nomatch member
  have read := Json.readWithin_render fits depth blank
  rw [List.append_nil] at read
  have value : Json.read nesting (Json.render depth table.described) =
      .ok (.array (table.entries.map Descriptor.described ++ [])) := by
    rw [List.append_nil]
    exact read
  exact ofOctets_of_described (Scalars.ofUtf8?_toUtf8 _) value objects (.inl rfl)

end Writing

namespace Tool

/-- A file is loaded as a table if it holds UTF-8 text whose value lists objects that describe the entries of that
table, up to its end or to an entry with code 0. -/
theorem loadTable_described {σ Place : Type} {system : System (StateM σ) Place} {path : Text} {state after : σ}
    {table : Table} {octets : Octets} {text : Scalars} {objects following : List Json}
    (held : (system.read path).run state = (.ok octets, after)) (decoded : Scalars.ofUtf8? octets = some text)
    (value : Json.read system.nesting text = .ok (.array (objects ++ following)))
    (described : List.Forall₂ Descriptor.DescribedBy table.entries objects) (ends : EndsEntries following) :
    (loadTable system path).run state = (.ok table, after) := by
  rw [run_loadTable, held]
  simp only [ofOctets_of_described decoded value described ends, Except.mapError]

def sampleSystem : System (StateM Tree) Tree.Spot := Tree.system .newer 100 (fun _ => .ok none) []

def disorderedText : Scalars :=
  ("[\x7b\"x\": [], \"name\": \"all\", \"code\": 97\x7d, " ++
    "\x7b\"has_arg\": \"YeS\", \"code\": \"o\", \"name\": \"\"\x7d,\n \x7b\"code\": 0\x7d, [null], 7]").toList

def disorderedTable : Table := .ofList [⟨.number 97, some "all".toText, .never⟩, ⟨.char 'o', none, .required⟩]

set_option maxRecDepth 2000 in
open Json.Lexeme in
theorem read_disordered :
    Json.read 100 disorderedText = .ok (.array (
      [.object [("x".toText, .array []), ("name".toText, .text "all".toText), ("code".toText, .int 97)],
        .object [("has_arg".toText, .text "YeS".toText), ("code".toText, .text ['o']), ("name".toText, .text [])]] ++
      [.object [("code".toText, .int 0)], .array [.null], .int 7])) := by
  have split : Json.lexemesFrom .between disorderedText = some [openArray,
      openObject, quoted ['x'], colon, openArray, closeArray, comma, quoted "name".toText, colon, quoted "all".toText,
        comma, quoted "code".toText, colon, word "97".toList, closeObject, comma,
      openObject, quoted "has_arg".toText, colon, quoted "YeS".toText, comma, quoted "code".toText, colon,
        quoted ['o'], comma, quoted "name".toText, colon, quoted [], closeObject, comma,
      openObject, quoted "code".toText, colon, word ['0'], closeObject, comma,
      openArray, word "null".toList, closeArray, comma, word ['7'], closeArray] := by
    rfl
  exact (Json.readWithin_eq split).trans rfl

theorem loadTable_disordered :
    let tree : Tree := ⟨[(["t.json".toText], .file (Scalars.toUtf8 disorderedText))]⟩
    (loadTable sampleSystem "t.json".toText).run tree = (.ok disorderedTable, tree) := by
  have yes : Arity.required.Spelled "YeS".toText := .cons (.inr rfl) (.cons (.inl rfl) (.cons (.inr rfl) .nil))
  exact loadTable_described rfl (Scalars.ofUtf8?_toUtf8 _) read_disordered
    (.cons ⟨_, rfl, rfl, .inr ⟨rfl, rfl⟩, .inl ⟨_, by decide, rfl, rfl⟩⟩
      (.cons ⟨_, rfl, rfl, .inl ⟨_, yes, rfl⟩, .inr ⟨rfl, .inr (.inr rfl)⟩⟩ .nil))
    (.inr ⟨⟨.number 0, none, .never⟩, _, _, rfl, rfl, _, rfl, rfl, .inr ⟨rfl, rfl⟩, .inr ⟨rfl, .inl rfl⟩⟩)

end Tool

end CommandLine
