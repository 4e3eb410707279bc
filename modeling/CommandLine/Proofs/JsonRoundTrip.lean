import CommandLine.Proofs.Lexemes
import Mathlib.Data.List.TakeWhile

namespace CommandLine.Json

section Numbers

variable {bounds : Bounds} {letters : Scalars}

theorem digits_leading {n : Nat} (positive : 0 < n) (rest : Scalars) : Scalars.ofNat n ≠ '0' :: rest := by
  induction n using Nat.strongRecOn generalizing rest with
  | ind n ih =>
      rw [Scalars.ofNat]
      by_cases small : n < 10
      · rw [Nat.toDigits_of_lt_base small]
        intro same
        have zero := Nat.digitChar_eq_zero.mp (List.head_eq_of_cons_eq same)
        omega
      · rw [Nat.toDigits_of_base_le (by decide) (by omega)]
        have before := ih (n / 10) (by omega) (by omega)
        rw [Scalars.ofNat] at before
        obtain ⟨c, front, split⟩ := List.exists_cons_of_ne_nil (Nat.toDigits_ne_nil (n := n / 10) (b := 10))
        rw [split] at before ⊢
        intro same
        obtain rfl := List.head_eq_of_cons_eq same
        exact before front rfl

theorem takeWhole_digits (n : Nat) : Numeral.takeWhole (Scalars.ofNat n) = (Scalars.ofNat n, []) := by
  have all := Scalars.digits_isDigit n
  rcases Nat.eq_zero_or_pos n with rfl | positive
  · rfl
  · rw [Numeral.takeWhole.eq_2 _ (digits_leading positive), List.takeWhile_eq_self_iff.mpr all,
      List.dropWhile_eq_nil_iff.mpr all]

theorem take?_of_sign {negative : Bool} {n : Nat} (sign : Numeral.takeSign letters = (negative, Scalars.ofNat n)) :
    Numeral.take? letters = some (⟨negative, Scalars.ofNat n, none, none⟩, []) := by
  have whole := takeWhole_digits n
  obtain ⟨c, others, split⟩ := List.exists_cons_of_ne_nil (Nat.toDigits_ne_nil (n := n) (b := 10))
  have digits : Scalars.ofNat n = c :: others := split
  rw [digits] at sign whole ⊢
  rw [Numeral.take?, sign]
  simp only [whole]
  rfl

theorem takeSign_digits (n : Nat) : Numeral.takeSign (Scalars.ofNat n) = (false, Scalars.ofNat n) := by
  apply Numeral.takeSign.eq_2
  intro rest same
  have digit := Scalars.digits_isDigit n '-' (by simp [same])
  cases digit

theorem value_whole {n : Nat} (negative : Bool) (allowed : bounds.allowsDigits (Scalars.ofNat n).length = true) :
    Numeral.value bounds ⟨negative, Scalars.ofNat n, none, none⟩ = .ok (.int (Numeral.signed negative n)) := by
  have digits : Numeral.digitsValue (Scalars.ofNat n) = n := Nat.ofDigitChars_ten_toDigits
  simp only [Numeral.value, allowed, if_true, digits]

theorem numberValue_of_sign {negative : Bool} {n : Nat}
    (sign : Numeral.takeSign letters = (negative, Scalars.ofNat n))
    (allowed : bounds.allowsDigits (Scalars.ofNat n).length = true) :
    numberValue bounds letters = .ok (.int (Numeral.signed negative n)) := by
  rw [numberValue, take?_of_sign sign]
  simp only [value_whole negative allowed, if_true]

theorem numberValue_ofInt {value : Int} (allowed : bounds.allowsDigits (digitCount value) = true) :
    numberValue bounds (Scalars.ofInt value) = .ok (.int value) := by
  cases value with
  | ofNat n => exact numberValue_of_sign (takeSign_digits n) allowed
  | negSucc n =>
      have sign : Numeral.takeSign (Scalars.ofInt (.negSucc n)) = (true, Scalars.ofNat (n + 1)) := rfl
      exact numberValue_of_sign sign allowed

theorem digit_mem_ofInt (value : Int) : ∃ c ∈ Scalars.ofInt value, c.isDigit = true := by
  have some_digit (n : Nat) : ∃ c ∈ Scalars.ofNat n, c.isDigit = true := by
    obtain ⟨c, others, split⟩ := List.exists_cons_of_ne_nil (Nat.toDigits_ne_nil (n := n) (b := 10))
    have member : c ∈ Scalars.ofNat n := by
      rw [Scalars.ofNat, split]
      exact List.mem_cons_self
    exact ⟨c, member, Scalars.digits_isDigit n c member⟩
  cases value with
  | ofNat n => exact some_digit n
  | negSucc n =>
      obtain ⟨c, member, digit⟩ := some_digit (n + 1)
      exact ⟨c, List.mem_cons_of_mem _ member, digit⟩

theorem wordValue_ofInt {value : Int} (allowed : bounds.allowsDigits (digitCount value) = true) :
    wordValue bounds (Scalars.ofInt value) = .ok (.int value) := by
  -- None of the six names has a digit in it.
  obtain ⟨c, member, digit⟩ := digit_mem_ofInt value
  have other {name : Scalars} (plain : name.any Char.isDigit = false) : Scalars.ofInt value ≠ name := by
    intro same
    exact List.any_eq_false.mp plain c (same ▸ member) digit
  rw [wordValue, if_neg (other rfl), if_neg (other rfl), if_neg (other rfl),
    if_neg (other rfl), if_neg (other rfl), if_neg (other rfl)]
  exact numberValue_ofInt allowed

theorem ofInt_letters (value : Int) : ∀ c ∈ Scalars.ofInt value, Reading.isWordChar c = true := by
  have letter {c : Char} (digit : c.isDigit = true) : Reading.isWordChar c = true := by
    simp [Reading.isWordChar, Char.isAlphanum, digit]
  cases value with
  | ofNat n => exact fun c member => letter (Scalars.digits_isDigit n c member)
  | negSucc n =>
      intro c member
      rcases List.mem_cons.mp member with rfl | later
      · rfl
      · exact letter (Scalars.digits_isDigit (n + 1) c later)

end Numbers

section Values

def listed : List (List Lexeme) → List Lexeme
  | [] => []
  | [part] => part
  | part :: rest => part ++ .comma :: listed rest

theorem listed_cons (part second : List Lexeme) (others : List (List Lexeme)) :
    listed (part :: second :: others) = part ++ .comma :: listed (second :: others) := rfl

theorem listed_begin (part : List Lexeme) (parts : List (List Lexeme)) :
    ∃ more, listed (part :: parts) = part ++ more := by
  cases parts with
  | nil => exact ⟨[], (List.append_nil part).symm⟩
  | cons second others => exact ⟨_, listed_cons part second others⟩

mutual

def lexemes : Json → List Lexeme
  | null => [.word "null".toList]
  | bool true => [.word "true".toList]
  | bool false => [.word "false".toList]
  | int value => [.word (Scalars.ofInt value)]
  | real value => [.word (realText value)]
  | text value => [.quoted value]
  | array items => .openArray :: (listed (itemLexemes items) ++ [.closeArray])
  | object fields => .openObject :: (listed (fieldLexemes fields) ++ [.closeObject])

def itemLexemes : List Json → List (List Lexeme)
  | [] => []
  | item :: rest => lexemes item :: itemLexemes rest

def fieldLexemes : List (Text × Json) → List (List Lexeme)
  | [] => []
  | (key, value) :: rest => (.quoted key :: .colon :: lexemes value) :: fieldLexemes rest

end

/-- A value without reals that a reader with these bounds can read inside `opened` collections. No text in it has the
two halves of a pair side by side. -/
inductive Fits (bounds : Bounds) : Nat → Json → Prop where
  | null {opened : Nat} : Fits bounds opened null
  | bool {opened : Nat} {truth : Bool} : Fits bounds opened (bool truth)
  | int {opened : Nat} {value : Int}
      (digits : bounds.allowsDigits (digitCount value) = true) : Fits bounds opened (int value)
  | text {opened : Nat} {value : Text} (unpaired : value.Unpaired) : Fits bounds opened (text value)
  | array {opened : Nat} {items : List Json} (room : bounds.allowsOpen (opened + 1) = true)
      (all : ∀ item ∈ items, Fits bounds (opened + 1) item) : Fits bounds opened (array items)
  | object {opened : Nat} {fields : List (Text × Json)} (room : bounds.allowsOpen (opened + 1) = true)
      (distinct : (fields.map Prod.fst).Nodup) (keys : ∀ field ∈ fields, Text.Unpaired field.1)
      (all : ∀ field ∈ fields, Fits bounds (opened + 1) field.2) : Fits bounds opened (object fields)

end Values

section Printed

variable {bounds : Bounds} {texts : List Scalars} {parts : List (List Lexeme)}

theorem spells_joined (depth : Nat) (spells : List.Forall₂ Spells texts parts) :
    Spells (Text.joined (',' :: newLine depth) texts) (listed parts) := by
  have comma : Marks (',' :: newLine depth) [.comma] :=
    (marks_char (c := ',') rfl).append (marks_newLine depth)
  induction spells with
  | nil => exact spells_nil
  | @cons text part texts parts first others ih =>
      cases others with
      | nil => exact first
      | cons second others =>
          have front := first.ended comma fun rest => breaks_cons rfl
          have whole := front.before ih
          rw [List.append_assoc part] at whole
          exact whole

theorem marks_layout {left right : Char} {opening closing : Lexeme} (depth : Nat)
    (opens : Reading.feedBetween left = ([opening], some .between))
    (closes : Reading.feedBetween right = ([closing], some .between))
    (spells : List.Forall₂ Spells texts parts) :
    Marks (layout depth left right texts) (opening :: (listed parts ++ [closing])) := by
  cases spells with
  | nil => exact (marks_char opens).append (marks_char closes)
  | cons first others =>
      have inside := spells_joined (depth + 1) (.cons first others)
      have ends : Marks (newLine depth ++ [right]) [closing] :=
        (marks_newLine depth).append (marks_char closes)
      have tail := inside.ended ends fun rest => by
        rw [List.append_assoc]
        exact breaks_newLine depth _
      have whole := ((marks_char opens).append (marks_newLine (depth + 1))).append tail
      simpa [layout] using whole

theorem spells_items (depth : Nat) {items : List Json}
    (all : ∀ item ∈ items, ∀ depth, Spells (render depth item) (lexemes item)) :
    List.Forall₂ Spells (renderItems depth items) (itemLexemes items) := by
  induction items with
  | nil => exact .nil
  | cons item items ih =>
      exact .cons (all item List.mem_cons_self depth) (ih fun other member => all other (List.mem_cons_of_mem _ member))

theorem spells_fields (depth : Nat) {fields : List (Text × Json)}
    (keys : ∀ field ∈ fields, Text.Unpaired field.1)
    (all : ∀ field ∈ fields, ∀ depth, Spells (render depth field.2) (lexemes field.2)) :
    List.Forall₂ Spells (renderFields depth fields) (fieldLexemes fields) := by
  induction fields with
  | nil => exact .nil
  | cons field fields ih =>
      obtain ⟨key, value⟩ := field
      have colon : Marks ": ".toList [.colon] := (marks_char (c := ':') rfl).append (marks_char (c := ' ') rfl)
      have named := (marks_inQuotes (keys (key, value) List.mem_cons_self)).append colon
      exact .cons (named.before (all (key, value) List.mem_cons_self depth))
        (ih (fun other member => keys other (List.mem_cons_of_mem _ member))
          fun other member => all other (List.mem_cons_of_mem _ member))

theorem spells_render {opened : Nat} {value : Json} (fits : Fits bounds opened value) :
    ∀ depth, Spells (render depth value) (lexemes value) := by
  induction fits with
  | null => exact fun _ => spells_word "null".toList (by decide) (List.all_eq_true.mp rfl)
  | @bool _ truth =>
      intro depth
      cases truth with
      | false => exact spells_word "false".toList (by decide) (List.all_eq_true.mp rfl)
      | true => exact spells_word "true".toList (by decide) (List.all_eq_true.mp rfl)
  | @int _ value digits =>
      intro depth
      obtain ⟨c, member, _⟩ := digit_mem_ofInt value
      exact spells_word _ (List.ne_nil_of_mem member) (ofInt_letters value)
  | text unpaired => exact fun _ => (marks_inQuotes unpaired).spells
  | array room all ih => exact fun depth => (marks_layout depth rfl rfl (spells_items (depth + 1) ih)).spells
  | object room distinct keys all ih =>
      exact fun depth => (marks_layout depth rfl rfl (spells_fields (depth + 1) keys ih)).spells

end Printed

section Letters

variable {bounds : Bounds} {opened : Nat} {texts : List Scalars}

theorem ascii_ofInt (value : Int) : Scalars.Ascii (Scalars.ofInt value) := by
  have digit {c : Char} (given : c.isDigit = true) : c.toNat < 0x80 := by
    have range : 48 ≤ c.val ∧ c.val ≤ 57 := by simpa [Char.isDigit] using given
    exact Nat.lt_of_le_of_lt (UInt32.le_iff_toNat_le.mp range.2) (by decide)
  cases value with
  | ofNat n => exact fun c member => digit (Scalars.digits_isDigit n c member)
  | negSucc n =>
      intro c member
      rcases List.mem_cons.mp member with rfl | later
      · decide
      · exact digit (Scalars.digits_isDigit (n + 1) c later)

theorem ascii_newLine (depth : Nat) : Scalars.Ascii (newLine depth) := by
  intro c member
  rcases List.mem_cons.mp member with rfl | blank
  · decide
  · rw [List.eq_of_mem_replicate blank]
    decide

theorem ascii_joined {separator : Scalars} (between : separator.Ascii) (all : ∀ text ∈ texts, text.Ascii) :
    Scalars.Ascii (Text.joined separator texts) := by
  induction texts with
  | nil => exact Scalars.ascii_nil
  | cons text texts ih =>
      have others := ih fun other member => all other (List.mem_cons_of_mem text member)
      cases texts with
      | nil => exact all text List.mem_cons_self
      | cons second texts => exact ((all text List.mem_cons_self).append between).append others

theorem ascii_layout {left right : Char} (depth : Nat) (opens : left.toNat < 0x80) (closes : right.toNat < 0x80)
    (all : ∀ text ∈ texts, text.Ascii) : (layout depth left right texts).Ascii := by
  cases texts with
  | nil => exact Scalars.ascii_cons opens (Scalars.ascii_cons closes Scalars.ascii_nil)
  | cons text texts =>
      have comma : Scalars.Ascii (',' :: newLine (depth + 1)) := Scalars.ascii_cons (by decide) (ascii_newLine _)
      have inside := (Scalars.ascii_cons opens (ascii_newLine (depth + 1))).append (ascii_joined comma all)
      exact (inside.append (ascii_newLine depth)).append (Scalars.ascii_cons closes Scalars.ascii_nil)

theorem renderItems_eq (depth : Nat) (items : List Json) : renderItems depth items = items.map (render depth) := by
  induction items with
  | nil => rfl
  | cons item items ih => rw [renderItems, ih, List.map_cons]

theorem renderFields_eq (depth : Nat) (fields : List (Text × Json)) :
    renderFields depth fields =
      fields.map fun field => inQuotes field.1 ++ ": ".toList ++ render depth field.2 := by
  induction fields with
  | nil => rfl
  | cons field fields ih => rw [renderFields, ih, List.map_cons]

theorem ascii_render {value : Json} (fits : Fits bounds opened value) : ∀ depth, (render depth value).Ascii := by
  induction fits with
  | null => exact fun _ => Scalars.ascii_of_all rfl
  | @bool _ truth =>
      intro depth
      cases truth <;> exact Scalars.ascii_of_all rfl
  | @int _ value _ => exact fun _ => ascii_ofInt value
  | @text _ value _ => exact fun _ => ascii_inQuotes value
  | array room all ih =>
      intro depth
      apply ascii_layout depth (by decide) (by decide)
      rw [renderItems_eq]
      exact List.forall_mem_map.mpr fun item member => ih item member (depth + 1)
  | object room distinct keys all ih =>
      intro depth
      apply ascii_layout depth (by decide) (by decide)
      rw [renderFields_eq]
      have colon : Scalars.Ascii ": ".toList := Scalars.ascii_of_all rfl
      exact List.forall_mem_map.mpr fun field member =>
        ((ascii_inQuotes field.1).append colon).append (ih field member (depth + 1))

end Letters

section Built

variable {bounds : Bounds} {opened : Nat} {frames : List Frame} {rest : List Lexeme}

/-- The lexemes of a value lead from where a value is expected, inside `opened` collections, to behind that value. -/
def Builds (bounds : Bounds) (opened : Nat) (value : Json) : Prop :=
  ∀ frames rest, frames.length = opened →
    Building.steps bounds ⟨frames, .value⟩ (lexemes value ++ rest) =
      Building.steps bounds ⟨frames, .afterValue value⟩ rest

theorem steps_cons {state next : Building} {lexeme : Lexeme} (step : state.step bounds lexeme = .ok next) :
    state.steps bounds (lexeme :: rest) = next.steps bounds rest := by
  rw [Building.steps, step]

theorem lexemes_begin (value : Json) : ∃ first more, lexemes value = first :: more ∧ first ≠ .closeArray := by
  cases value with
  | bool truth => cases truth <;> exact ⟨_, [], rfl, by simp⟩
  | array items => exact ⟨_, _, rfl, by simp⟩
  | object fields => exact ⟨_, _, rfl, by simp⟩
  | _ => exact ⟨_, [], rfl, by simp⟩

theorem steps_begin (value : Json) (rest : List Lexeme) :
    Building.steps bounds ⟨frames, .valueOrClose⟩ (lexemes value ++ rest) =
      Building.steps bounds ⟨.array [] :: frames, .value⟩ (lexemes value ++ rest) := by
  obtain ⟨first, more, split, other⟩ := lexemes_begin value
  have same : Building.step bounds ⟨frames, .valueOrClose⟩ first =
      Building.step bounds ⟨.array [] :: frames, .value⟩ first := by
    cases first with
    | closeArray => exact absurd rfl other
    | _ => rfl
  rw [split, List.cons_append, Building.steps, Building.steps, same]

theorem steps_firstItem (item : Json) (items : List Json) (rest : List Lexeme) :
    Building.steps bounds ⟨frames, .valueOrClose⟩ (listed (itemLexemes (item :: items)) ++ rest) =
      Building.steps bounds ⟨.array [] :: frames, .value⟩ (listed (itemLexemes (item :: items)) ++ rest) := by
  obtain ⟨more, split⟩ := listed_begin (lexemes item) (itemLexemes items)
  rw [itemLexemes, split, List.append_assoc]
  exact steps_begin item _

theorem steps_items {items : List Json} (nonempty : items ≠ []) (done : List Json)
    (all : ∀ item ∈ items, Builds bounds (frames.length + 1) item) :
    Building.steps bounds ⟨.array done :: frames, .value⟩ (listed (itemLexemes items) ++ .closeArray :: rest) =
      Building.steps bounds ⟨frames, .afterValue (.array (done.reverse ++ items))⟩ rest := by
  induction items generalizing done with
  | nil => exact absurd rfl nonempty
  | cons item items ih =>
      have first := all item List.mem_cons_self
      cases items with
      | nil =>
          rw [itemLexemes, itemLexemes, listed, first (.array done :: frames) _ rfl, ← List.reverse_cons]
          rfl
      | cons second others =>
          have later := ih (by simp) (item :: done) fun other member => all other (List.mem_cons_of_mem item member)
          rw [itemLexemes, itemLexemes, listed_cons, List.append_assoc, first (.array done :: frames) _ rfl]
          rw [List.reverse_cons, List.append_assoc, List.singleton_append] at later
          exact later

theorem put_of_fresh {key : Text} {value : Json} {fields : List (Text × Json)}
    (fresh : key ∉ fields.map Prod.fst) : put key value fields = fields ++ [(key, value)] := by
  induction fields with
  | nil => rfl
  | cons field fields ih =>
      obtain ⟨other, old⟩ := field
      rw [List.map_cons, List.mem_cons, not_or] at fresh
      rw [put, if_neg (Ne.symm fresh.1), ih fresh.2]
      rfl

theorem steps_fields {fields : List (Text × Json)} (nonempty : fields ≠ []) (done : List (Text × Json))
    (distinct : ((done ++ fields).map Prod.fst).Nodup)
    (all : ∀ field ∈ fields, Builds bounds (frames.length + 1) field.2) :
    Building.steps bounds ⟨frames, .key done⟩ (listed (fieldLexemes fields) ++ .closeObject :: rest) =
      Building.steps bounds ⟨frames, .afterValue (.object (done ++ fields))⟩ rest := by
  induction fields generalizing done with
  | nil => exact absurd rfl nonempty
  | cons field fields ih =>
      obtain ⟨key, value⟩ := field
      have first := all (key, value) List.mem_cons_self
      have fresh : key ∉ done.map Prod.fst := by
        rw [List.map_append, List.nodup_append] at distinct
        exact fun member => distinct.2.2 key member key List.mem_cons_self rfl
      cases fields with
      | nil =>
          rw [fieldLexemes, fieldLexemes, listed, ← put_of_fresh fresh]
          exact first (.object done key :: frames) _ rfl
      | cons second others =>
          have keys : ((done ++ [(key, value)] ++ second :: others).map Prod.fst).Nodup := by
            rwa [List.append_assoc]
          have later := ih (by simp) (done ++ [(key, value)]) keys
            fun other member => all other (List.mem_cons_of_mem _ member)
          rw [List.append_assoc, List.singleton_append, ← put_of_fresh fresh] at later
          have next := first (.object done key :: frames)
            (.comma :: (listed (fieldLexemes (second :: others)) ++ .closeObject :: rest)) rfl
          rw [fieldLexemes, fieldLexemes, listed_cons, List.append_assoc]
          exact next.trans later

theorem steps_firstField (field : Text × Json) (fields : List (Text × Json)) (rest : List Lexeme) :
    Building.steps bounds ⟨frames, .keyOrClose⟩ (listed (fieldLexemes (field :: fields)) ++ rest) =
      Building.steps bounds ⟨frames, .key []⟩ (listed (fieldLexemes (field :: fields)) ++ rest) := by
  cases fields <;> rfl

theorem builds_array {items : List Json} (room : bounds.allowsOpen (opened + 1) = true)
    (all : ∀ item ∈ items, Builds bounds (opened + 1) item) : Builds bounds opened (array items) := by
  rintro frames rest rfl
  have entered : Building.step bounds ⟨frames, .value⟩ .openArray = .ok ⟨frames, .valueOrClose⟩ := if_pos room
  rw [lexemes, List.cons_append, List.append_assoc, steps_cons entered]
  cases items with
  | nil => rfl
  | cons item items =>
      rw [steps_firstItem]
      exact steps_items (List.cons_ne_nil item items) [] all

theorem builds_object {fields : List (Text × Json)} (room : bounds.allowsOpen (opened + 1) = true)
    (distinct : (fields.map Prod.fst).Nodup) (all : ∀ field ∈ fields, Builds bounds (opened + 1) field.2) :
    Builds bounds opened (object fields) := by
  rintro frames rest rfl
  have entered : Building.step bounds ⟨frames, .value⟩ .openObject = .ok ⟨frames, .keyOrClose⟩ := if_pos room
  rw [lexemes, List.cons_append, List.append_assoc, steps_cons entered]
  cases fields with
  | nil => rfl
  | cons field fields =>
      rw [steps_firstField]
      exact steps_fields (List.cons_ne_nil field fields) [] distinct all

theorem builds_word {letters : Scalars} {value : Json} (written : lexemes value = [.word letters])
    (read : wordValue bounds letters = .ok value) : Builds bounds opened value := by
  intro frames rest _
  have begun : Building.beginValue bounds frames (.word letters) = .ok ⟨frames, .afterValue value⟩ := by
    rw [Building.beginValue, read]
  rw [written, List.singleton_append]
  exact steps_cons begun

theorem builds_of_fits {value : Json} (fits : Fits bounds opened value) : Builds bounds opened value := by
  induction fits with
  | null => exact builds_word rfl rfl
  | @bool _ truth => cases truth <;> exact builds_word rfl rfl
  | int digits => exact builds_word rfl (wordValue_ofInt digits)
  | text _ => exact fun _ _ _ => rfl
  | array room all ih => exact builds_array room ih
  | object room distinct _ all ih => exact builds_object room distinct ih

end Built

section Documents

variable {bounds : Bounds} {value : Json} {ending : Scalars}

theorem feedBetween_blank {c : Char} (blank : Reading.isBlankChar c = true) :
    Reading.feedBetween c = ([], some .between) := if_pos blank

theorem marks_blank (blank : ∀ c ∈ ending, Reading.isBlankChar c = true) : Marks ending [] := by
  induction ending with
  | nil => exact fun _ _ split => split
  | cons c ending ih =>
      exact (marks_char (feedBetween_blank (blank c List.mem_cons_self))).append
        (ih fun other member => blank other (List.mem_cons_of_mem c member))

theorem breaks_blank (blank : ∀ c ∈ ending, Reading.isBlankChar c = true) : Breaks ending := by
  intro c first
  have fed := feedBetween_blank (blank c (List.mem_of_mem_head? first))
  cases letter : Reading.isWordChar c with
  | false => rfl
  | true =>
      rw [feedBetween_letter letter] at fed
      cases fed

/-- A printed value is read back, also with blanks behind it. -/
theorem readWithin_render (fits : Fits bounds 0 value) (depth : Nat)
    (blank : ∀ c ∈ ending, Reading.isBlankChar c = true) :
    readWithin bounds (render depth value ++ ending) = .ok value := by
  have ended : lexemesFrom .between ending = some [] := by
    have split : lexemesFrom .between (ending ++ []) = some ([] ++ []) := marks_blank blank rfl
    rwa [List.append_nil] at split
  have split := spells_render fits depth (breaks_blank blank) ended
  have built : Building.start.steps bounds (lexemes value ++ []) = .ok ⟨[], .afterValue value⟩ :=
    builds_of_fits fits [] [] rfl
  rw [readWithin_eq split, built]
  rfl

end Documents

end CommandLine.Json
