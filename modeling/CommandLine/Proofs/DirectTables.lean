import CommandLine.Proofs.TableFiles

namespace CommandLine

def Json.IsName : Json → Prop
  | .null => True
  | .text _ => True
  | _ => False

instance : DecidablePred Json.IsName
  | .null => isTrue trivial
  | .text _ => isTrue trivial
  | .bool _ => isFalse id
  | .int _ => isFalse id
  | .real _ => isFalse id
  | .array _ => isFalse id
  | .object _ => isFalse id

def Descriptor.unblanked (d : Descriptor) : Descriptor := { d with name := d.name.filter (· ≠ []) }

structure Sketch where
  code : Json
  name : Json := .null
  word : Option Text := none

namespace Sketch

structure GivenBy (sketch : Sketch) (fields : List (Text × Json)) : Prop where
  code : Json.get? "code".toText fields = some sketch.code
  name : (Json.get? "name".toText fields).getD .null = sketch.name
  word : Json.get? "has_arg".toText fields = sketch.word.map .text

def arity (sketch : Sketch) : Except SpecError Arity := sketch.word.elim (.ok .never) Arity.ofWord

def check (sketch : Sketch) : Except SpecError Descriptor := do
  Spec.check ⟨sketch.code, sketch.name, .chosen (← sketch.arity)⟩

def unblanked (sketch : Sketch) : Sketch := { sketch with name := if sketch.name.isBlank then .null else sketch.name }

def filed (sketch : Sketch) : Except SpecError Descriptor := sketch.unblanked.check

/-- The name is blank, but it is no name: false, zero, or an empty collection. -/
def Disguised (sketch : Sketch) : Prop := sketch.name.isBlank = true ∧ ¬ sketch.name.IsName

instance (sketch : Sketch) : Decidable sketch.Disguised := inferInstanceAs (Decidable (_ ∧ _))

section Given

variable {sketch : Sketch} {fields : List (Text × Json)}

theorem givenArity_of_given (given : sketch.GivenBy fields) (position : Nat) :
    TableFile.givenArity position fields = sketch.arity := by
  rw [TableFile.givenArity, given.word, arity]
  cases sketch.word <;> rfl

theorem givenName_of_given (given : sketch.GivenBy fields) :
    TableFile.givenName fields = sketch.unblanked.name := by
  rw [TableFile.givenName, unblanked, ← given.name]
  cases Json.get? "name".toText fields <;> rfl

theorem GivenBy.readEntry (given : sketch.GivenBy fields) (position : Nat) :
    TableFile.readEntry (.object fields, position) = sketch.filed := by
  simp only [TableFile.readEntry, given.code, givenArity_of_given given, givenName_of_given given]
  rfl

end Given

section Names

variable {sketch : Sketch} {name : Json}

theorem nameOfJson_of_not_name (other : ¬ name.IsName) :
    Descriptor.nameOfJson name = .error (.nameNotText name) := by
  cases name with
  | null => exact absurd trivial other
  | text _ => exact absurd trivial other
  | _ => rfl

theorem unblanked_of_not_blank (filled : sketch.name.isBlank = false) : sketch.unblanked = sketch := by
  rw [unblanked, filled]
  rfl

theorem nameOfJson_unblanked (plain : ¬ sketch.Disguised) :
    Descriptor.nameOfJson sketch.unblanked.name =
      (Descriptor.nameOfJson sketch.name).map fun name => name.filter (· ≠ []) := by
  by_cases isName : sketch.name.IsName
  · rw [unblanked]
    cases given : sketch.name with
    | null => rfl
    | text name => cases name <;> rfl
    | _ =>
        rw [given] at isName
        exact absurd isName id
  · have filled : sketch.name.isBlank = false := by
      rw [← Bool.not_eq_true]
      intro blank
      exact plain ⟨blank, isName⟩
    rw [unblanked_of_not_blank filled, nameOfJson_of_not_name isName]
    rfl

end Names

section Checks

variable {sketch : Sketch} {d : Descriptor}

theorem check_eq (sketch : Sketch) :
    sketch.check =
      match sketch.arity, Code.ofJson sketch.code with
      | .error error, _ => .error error
      | _, .error error => .error error
      | .ok arity, .ok code => (Descriptor.nameOfJson sketch.name).map fun name => ⟨code, name, arity⟩ := by
  rw [check]
  cases sketch.arity with
  | error _ => rfl
  | ok arity =>
      simp only [Spec.check, bind, Except.bind]
      cases Code.ofJson sketch.code with
      | error _ => rfl
      | ok code => cases Descriptor.nameOfJson sketch.name <;> rfl

theorem parts_of_check (made : sketch.check = .ok d) :
    Code.ofJson sketch.code = .ok d.code ∧ Descriptor.nameOfJson sketch.name = .ok d.name := by
  rw [check_eq] at made
  split at made
  · cases made
  · cases made
  · next arity code _ judged =>
      cases named : Descriptor.nameOfJson sketch.name with
      | error _ =>
          rw [named] at made
          cases made
      | ok name =>
          rw [named] at made
          cases made
          exact ⟨judged, rfl⟩

theorem filed_eq (plain : ¬ sketch.Disguised) : sketch.filed = sketch.check.map Descriptor.unblanked := by
  have arity : sketch.unblanked.arity = sketch.arity := rfl
  have code : sketch.unblanked.code = sketch.code := rfl
  rw [filed, check_eq, check_eq, arity, code, nameOfJson_unblanked plain]
  cases sketch.arity with
  | error _ => rfl
  | ok arity =>
      cases Code.ofJson sketch.code with
      | error _ => rfl
      | ok code => cases Descriptor.nameOfJson sketch.name <;> rfl

theorem refused_of_not_name (other : ¬ sketch.name.IsName) : Refused check sketch := by
  cases made : sketch.check with
  | error error => exact ⟨error, made⟩
  | ok d =>
      have named := (parts_of_check made).2
      rw [nameOfJson_of_not_name other] at named
      cases named

theorem plain_of_check (made : sketch.check = .ok d) : ¬ sketch.Disguised := by
  rintro ⟨_, other⟩
  rcases refused_of_not_name other with ⟨error, refused⟩
  rw [made] at refused
  cases refused

theorem code_of_endsTable (ends : Table.endsTable check sketch = true) : sketch.code = .int 0 := by
  cases made : sketch.check with
  | error _ => simp [Table.endsTable, made] at ends
  | ok d =>
      have sentinel : d.code = .number 0 := by simpa [Table.endsTable, made, Descriptor.isSentinel] using ends
      have judged := (parts_of_check made).1
      rw [sentinel] at judged
      unfold Code.ofJson at judged
      split at judged <;> cases judged
      assumption

end Checks

end Sketch

namespace Table

section Readers

variable {α β ε : Type} {read again : α → Except ε Descriptor} {x : α} {xs front back : List α}
  {change : Descriptor → Descriptor}

theorem readUntilSentinel_congr {other : β → Except ε Descriptor} {ys : List β}
    (alike : List.Forall₂ (fun x y => read x = other y) xs ys) :
    readUntilSentinel read xs = readUntilSentinel other ys := by
  induction alike with
  | nil => rfl
  | cons same _ ih => rw [readUntilSentinel, readUntilSentinel, same, ih]

/-- A reader that reads what another one reads, changed in something else than the code, and refuses what that one
refuses before the end. -/
structure Follows (read again : α → Except ε Descriptor) (change : Descriptor → Descriptor) (xs : List α) : Prop where
  whole : ∀ x d, read x = .ok d → again x = .ok (change d)
  code : ∀ d, (change d).code = d.code
  refused : ∀ x ∈ beforeEnd read xs, ∀ error, read x = .error error → again x = .error error

theorem Follows.mapM_beforeEnd (follows : Follows read again change xs) :
    (beforeEnd again xs).mapM again = ((beforeEnd read xs).mapM read).map (List.map change) := by
  induction xs with
  | nil => rfl
  | cons x xs ih =>
      have refused := follows.refused
      cases here : read x with
      | error error =>
          have goesOn : endsTable read x = false := by simp [endsTable, here]
          rw [beforeEnd_cons goesOn] at refused ⊢
          have also := refused x List.mem_cons_self error here
          have goesOnToo : endsTable again x = false := by simp [endsTable, also]
          rw [beforeEnd_cons goesOnToo, mapM_cons_error here, mapM_cons_error also]
          rfl
      | ok d =>
          have also := follows.whole x d here
          have same : endsTable again x = endsTable read x := by
            simp [endsTable, here, also, Descriptor.isSentinel, follows.code]
          cases ends : endsTable read x with
          | true =>
              rw [beforeEnd_cons_of_ends ends, beforeEnd_cons_of_ends (same.trans ends)]
              rfl
          | false =>
              rw [beforeEnd_cons ends] at refused ⊢
              have later : Follows read again change xs :=
                ⟨follows.whole, follows.code, fun y member => refused y (List.mem_cons_of_mem x member)⟩
              rw [beforeEnd_cons (same.trans ends), mapM_cons_ok here, mapM_cons_ok also, ih later]
              cases (beforeEnd read xs).mapM read <;> rfl

theorem Follows.entries_build (follows : Follows read again change xs) :
    (build again xs).map entries = (build read xs).map fun table => table.entries.map change := by
  have apart : ((build read xs).map fun table => table.entries.map change) =
      ((build read xs).map entries).map (List.map change) := by
    cases build read xs <;> rfl
  rw [apart, Table.entries_build, Table.entries_build, follows.mapM_beforeEnd]

theorem Follows.built_iff (follows : Follows read again change xs) :
    (∃ table, build again xs = .ok table) ↔ ∃ table, build read xs = .ok table := by
  have same := follows.entries_build
  cases one : build again xs <;> cases two : build read xs <;> rw [one, two] at same
  · simp
  · cases same
  · cases same
  · simp

theorem build_refused (member : x ∈ beforeEnd read xs) (refused : Refused read x) :
    ∃ error, build read xs = .error error := by
  rcases exists_isFirst ⟨x, member, refused⟩ with ⟨y, first⟩
  rcases first.holds with ⟨error, here⟩
  exact ⟨error, build_eq_error_iff.mpr ⟨y, first, here⟩⟩

theorem mem_beforeEnd_of_refused (goesOn : ∀ y ∈ front, endsTable read y = false) (refused : Refused read x) :
    x ∈ beforeEnd read (front ++ x :: back) := by
  have stays : endsTable read x = false := by
    rcases refused with ⟨error, here⟩
    simp [endsTable, here]
  rw [beforeEnd_append goesOn, beforeEnd_cons stays]
  exact List.mem_append_right front List.mem_cons_self

end Readers

section Sketches

open Sketch (GivenBy Disguised)

variable {sketch : Sketch} {sketches front back : List Sketch} {objects : List (List (Text × Json))} {table : Table}

theorem ofJson_given (given : List.Forall₂ GivenBy sketches objects) :
    TableFile.ofJson (.array (objects.map .object)) = build Sketch.filed sketches := by
  have alike : ∀ position, List.Forall₂ (fun entry sketch => TableFile.readEntry entry = Sketch.filed sketch)
      ((objects.map Json.object).zipIdx position) sketches := by
    induction given with
    | nil => exact fun _ => .nil
    | cons first _ ih => exact fun position => .cons (first.readEntry position) (ih (position + 1))
  rw [TableFile.ofJson, build, build, readUntilSentinel_congr (alike 0)]

theorem ofOctets_given {nesting : Nat} {octets : Octets} {text : Scalars}
    (decoded : Scalars.ofUtf8? octets = some text)
    (value : Json.read nesting text = .ok (.array (objects.map .object)))
    (given : List.Forall₂ GivenBy sketches objects) :
    TableFile.ofOctets nesting octets = (build Sketch.filed sketches).mapError .invalid := by
  rw [TableFile.ofOctets, decoded]
  simp only [TableFile.ofText, value, ofJson_given given]

theorem follows_filed (plain : ∀ sketch ∈ beforeEnd Sketch.check sketches, ¬ sketch.Disguised) :
    Follows Sketch.check Sketch.filed Descriptor.unblanked sketches where
  whole sketch d made := by rw [Sketch.filed_eq (Sketch.plain_of_check made), made]; rfl
  code _ := rfl
  refused sketch member error failed := by rw [Sketch.filed_eq (plain sketch member), failed]; rfl

theorem plain_of_built (made : build Sketch.check sketches = .ok table) :
    ∀ sketch ∈ beforeEnd Sketch.check sketches, ¬ sketch.Disguised := by
  rintro sketch member ⟨_, other⟩
  rcases build_refused member (Sketch.refused_of_not_name other) with ⟨error, failed⟩
  rw [made] at failed
  cases failed

theorem filed_refused (before : ∀ other ∈ front, other.code ≠ .int 0) (noName : ¬ sketch.name.IsName)
    (filled : sketch.name.isBlank = false) : ∃ error, build Sketch.filed (front ++ sketch :: back) = .error error := by
  have goesOn : ∀ other ∈ front, endsTable Sketch.filed other = false := by
    intro other member
    rw [← Bool.not_eq_true]
    intro ends
    have sentinel : other.unblanked.code = .int 0 := Sketch.code_of_endsTable ends
    exact before other member sentinel
  have refused : Refused Sketch.filed sketch := by
    rw [Refused, Sketch.filed, Sketch.unblanked_of_not_blank filled]
    exact Sketch.refused_of_not_name noName
  exact build_refused (mem_beforeEnd_of_refused goesOn refused) refused

end Sketches

end Table

section Results

variable {α β ε ζ : Type} {result : Except ε α}

theorem map_mapError (f : α → β) (g : ε → ζ) : (result.mapError g).map f = (result.map f).mapError g := by
  cases result <;> rfl

theorem mapError_eq_ok_iff {g : ε → ζ} {value : α} : result.mapError g = .ok value ↔ result = .ok value := by
  cases result <;> simp [Except.mapError]

end Results

/-- A file and the direct way agree on every list of objects that give a code and, if any, a word for the arity, as long
as no entry before the end has a disguised name: they make the same entries, but for empty names, or fail with the same
error. The direct way succeeds exactly where the file does and no entry before the end is disguised. A name that is no
name and not blank either is refused in a file, too, if no entry with code 0 stands before it. -/
theorem ofOctets_made_directly {nesting : Nat} {octets : Octets} {text : Scalars} {sketches : List Sketch}
    {objects : List (List (Text × Json))} (decoded : Scalars.ofUtf8? octets = some text)
    (value : Json.read nesting text = .ok (.array (objects.map .object)))
    (given : List.Forall₂ Sketch.GivenBy sketches objects) :
    ((∀ sketch ∈ Table.beforeEnd Sketch.check sketches, ¬ sketch.Disguised) →
        (TableFile.ofOctets nesting octets).map Table.entries =
          ((Table.build Sketch.check sketches).map fun table => table.entries.map .unblanked).mapError .invalid) ∧
      ((∃ table, Table.build Sketch.check sketches = .ok table) ↔
        (∃ table, TableFile.ofOctets nesting octets = .ok table) ∧
          ∀ sketch ∈ Table.beforeEnd Sketch.check sketches, ¬ sketch.Disguised) ∧
      ∀ front sketch back, sketches = front ++ sketch :: back → (∀ other ∈ front, other.code ≠ .int 0) →
        ¬ sketch.name.IsName → sketch.name.isBlank = false →
        ∃ error, TableFile.ofOctets nesting octets = .error (.invalid error) := by
  rw [Table.ofOctets_given decoded value given]
  simp only [mapError_eq_ok_iff]
  refine ⟨?agree, ?exactly, ?refused⟩
  case agree =>
    intro plain
    rw [map_mapError, (Table.follows_filed plain).entries_build]
  case exactly =>
    constructor
    · rintro ⟨table, made⟩
      have plain := Table.plain_of_built made
      exact ⟨(Table.follows_filed plain).built_iff.mpr ⟨table, made⟩, plain⟩
    · rintro ⟨filed, plain⟩
      exact (Table.follows_filed plain).built_iff.mp filed
  case refused =>
    rintro front sketch back rfl before noName filled
    rcases Table.filed_refused before noName filled with ⟨error, failed⟩
    exact ⟨error, by rw [failed]; rfl⟩

def strayText : Scalars :=
  ("[\x7b\"code\": \"v\", \"name\": \"\"\x7d, \x7b\"code\": 111, \"name\": true, \"has_arg\": \"YES\"\x7d, " ++
    "\x7b\"code\": 0\x7d, \x7b\"code\": 9, \"name\": []\x7d]").toList

def straySketches : List Sketch :=
  [⟨.text ['v'], .text [], none⟩, ⟨.int 111, .bool true, some "YES".toText⟩, ⟨.int 0, .null, none⟩,
    ⟨.int 9, .array [], none⟩]

def strayObjects : List (List (Text × Json)) :=
  [[("code".toText, .text ['v']), ("name".toText, .text [])],
    [("code".toText, .int 111), ("name".toText, .bool true), ("has_arg".toText, .text "YES".toText)],
    [("code".toText, .int 0)], [("code".toText, .int 9), ("name".toText, .array [])]]

set_option maxRecDepth 2000 in
open Json.Lexeme in
theorem read_stray : Json.read 100 strayText = .ok (.array (strayObjects.map .object)) := by
  have split : Json.lexemesFrom .between strayText = some [openArray,
      openObject, quoted "code".toText, colon, quoted ['v'], comma, quoted "name".toText, colon, quoted [],
        closeObject, comma,
      openObject, quoted "code".toText, colon, word "111".toList, comma, quoted "name".toText, colon,
        word "true".toList, comma, quoted "has_arg".toText, colon, quoted "YES".toText, closeObject, comma,
      openObject, quoted "code".toText, colon, word ['0'], closeObject, comma,
      openObject, quoted "code".toText, colon, word ['9'], comma, quoted "name".toText, colon, openArray, closeArray,
        closeObject, closeArray] := by
    rfl
  exact (Json.readWithin_eq split).trans rfl

theorem given_stray : List.Forall₂ Sketch.GivenBy straySketches strayObjects :=
  .cons ⟨rfl, rfl, rfl⟩ (.cons ⟨rfl, rfl, rfl⟩ (.cons ⟨rfl, rfl, rfl⟩ (.cons ⟨rfl, rfl, rfl⟩ .nil)))

theorem ofOctets_made_directly_stray :
    (∀ sketch ∈ Table.beforeEnd Sketch.check straySketches, ¬ sketch.Disguised) ∧
      (TableFile.ofOctets 100 (Scalars.toUtf8 strayText)).map Table.entries =
        .error (.invalid (.nameNotText (.bool true))) ∧
      (¬ ∃ table, Table.build Sketch.check straySketches = .ok table) ∧
      ∃ error, TableFile.ofOctets 100 (Scalars.toUtf8 strayText) = .error (.invalid error) := by
  have plain : ∀ sketch ∈ Table.beforeEnd Sketch.check straySketches, ¬ sketch.Disguised := by
    have looked : Table.beforeEnd Sketch.check straySketches = straySketches.take 2 := rfl
    rw [looked]
    exact List.forall_mem_cons.mpr ⟨by decide, List.forall_mem_singleton.mpr (by decide)⟩
  rcases ofOctets_made_directly (Scalars.ofUtf8?_toUtf8 strayText) read_stray given_stray with ⟨agree, exactly, refused⟩
  have filed := refused [⟨.text ['v'], .text [], none⟩] ⟨.int 111, .bool true, some "YES".toText⟩ _ rfl (by simp)
    (by decide) rfl
  refine ⟨plain, agree plain, ?_, filed⟩
  rintro made
  rcases exactly.mp made with ⟨⟨table, read⟩, _⟩
  rcases filed with ⟨error, failed⟩
  rw [read] at failed
  cases failed

def disguisedText : Scalars := "[\x7b\"code\": \"v\", \"name\": 0\x7d]".toList

open Json.Lexeme in
theorem read_disguised : Json.read 100 disguisedText =
    .ok (.array ([[("code".toText, .text ['v']), ("name".toText, .int 0)]].map .object)) := by
  have split : Json.lexemesFrom .between disguisedText = some [openArray,
      openObject, quoted "code".toText, colon, quoted ['v'], comma, quoted "name".toText, colon, word ['0'],
        closeObject, closeArray] := by
    rfl
  exact (Json.readWithin_eq split).trans rfl

/-- The file takes the number for no name, and the direct way refuses it. -/
theorem ofOctets_disguised :
    List.Forall₂ Sketch.GivenBy [⟨.text ['v'], .int 0, none⟩]
        [[("code".toText, .text ['v']), ("name".toText, .int 0)]] ∧
      TableFile.ofOctets 100 (Scalars.toUtf8 disguisedText) = .ok (.ofList [⟨.char 'v', none, .never⟩]) ∧
      Table.build Sketch.check [⟨.text ['v'], .int 0, none⟩] = .error (.nameNotText (.int 0)) := by
  refine ⟨.cons ⟨rfl, rfl, rfl⟩ .nil, ?_, rfl⟩
  rw [TableFile.ofOctets, Scalars.ofUtf8?_toUtf8]
  simp only [TableFile.ofText, read_disguised]
  rfl

end CommandLine
