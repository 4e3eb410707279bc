import CommandLine.Json.Lexeme
import CommandLine.Json.Printer
import Mathlib.Data.List.Chain

namespace CommandLine

namespace Scalars

def Ascii (text : Scalars) : Prop := ∀ c ∈ text, c.toNat < 0x80

theorem ascii_nil : Ascii [] := fun _ member => nomatch member

theorem ascii_cons {c : Char} {text : Scalars} (first : c.toNat < 0x80) (rest : text.Ascii) : Ascii (c :: text) :=
  List.forall_mem_cons.mpr ⟨first, rest⟩

theorem ascii_of_all {text : Scalars} (small : text.all (·.toNat < 0x80) = true) : text.Ascii := fun c member =>
  of_decide_eq_true (List.all_eq_true.mp small c member)

theorem Ascii.append {text other : Scalars} (front : text.Ascii) (back : other.Ascii) : Ascii (text ++ other) :=
  List.forall_mem_append.mpr ⟨front, back⟩

end Scalars

namespace Text

/-- No high half of a pair stands directly before a low one. Two halves that do look like one character when they are
read from escapes. -/
def Unpaired (text : Text) : Prop := text.IsChain fun c next => ¬ (c.isHighHalf = true ∧ next.isLowHalf = true)

instance (text : Text) : Decidable text.Unpaired := inferInstanceAs (Decidable (List.IsChain _ _))

theorem padLeft_concat (fill c : Char) (width : Nat) (text : Scalars) :
    padLeft fill (width + 1) (text ++ [c]) = padLeft fill width text ++ [c] := by
  simp [padLeft]

theorem hex_one {n : Nat} (small : n < 16) : hex 1 n = [n.digitChar] := by
  rw [hex, Nat.toDigits_of_lt_base small]
  rfl

theorem hex_succ {width : Nat} (positive : 0 < width) (n : Nat) :
    hex (width + 1) n = hex width (n / 16) ++ [(n % 16).digitChar] := by
  by_cases small : n < 16
  · obtain ⟨more, rfl⟩ := Nat.exists_eq_succ_of_ne_zero (Nat.ne_of_gt positive)
    have zero : n / 16 = 0 := Nat.div_eq_of_lt small
    have zeros : hex (more + 1) 0 = List.replicate more '0' ++ ['0'] := by simp [hex, padLeft]
    rw [zero, Nat.mod_eq_of_lt small, zeros, ← List.replicate_succ', hex, Nat.toDigits_of_lt_base small]
    simp [padLeft]
  · rw [hex, Nat.toDigits_of_base_le (by decide) (Nat.le_of_not_lt small), padLeft_concat]
    rfl

theorem hex_four {n : Nat} (small : n < 0x10000) :
    hex 4 n =
      [(n / 4096).digitChar, (n / 256 % 16).digitChar, (n / 16 % 16).digitChar, (n % 16).digitChar] := by
  have second : n / 16 / 16 = n / 256 := Nat.div_div_eq_div_mul n 16 16
  have first : n / 256 / 16 = n / 4096 := Nat.div_div_eq_div_mul n 256 16
  have leading : n / 4096 < 16 := by omega
  rw [hex_succ (by decide), hex_succ (by decide), hex_succ (by decide), second, first, hex_one leading]
  rfl

end Text

namespace Json

theorem hexDigit?_digitChar : ∀ {d : Nat}, d < 16 → hexDigit? d.digitChar = some d := by decide

theorem digitChar_plain :
    ∀ {d : Nat}, d < 16 → d.digitChar.toNat < 0x80 ∧ d.digitChar ≠ '"' ∧ d.digitChar ≠ '\\' := by decide

section Pieces

variable {n : Nat} {c : Char} {rest : Scalars}

theorem pieces?_unit (small : n < 0x10000) : pieces? (unitEscape n ++ rest) = (.unit n :: ·) <$> pieces? rest := by
  have whole : ((n / 4096 * 16 + n / 256 % 16) * 16 + n / 16 % 16) * 16 + n % 16 = n := by omega
  have read : hexUnit? (n / 4096).digitChar (n / 256 % 16).digitChar (n / 16 % 16).digitChar
      (n % 16).digitChar = some n := by
    simp only [hexUnit?, hexDigit?_digitChar (show n / 4096 < 16 by omega),
      hexDigit?_digitChar (Nat.mod_lt _ (by decide : 0 < 16)), Option.bind_eq_bind, Option.bind_some,
      Option.pure_def, whole]
  rw [unitEscape, Text.hex_four small]
  simp only [List.cons_append, List.nil_append, pieces?, read]
  cases pieces? rest <;> rfl

theorem pieces?_simple {escaped : Char} (simple : simpleEscape? c = some escaped) :
    pieces? ('\\' :: c :: rest) = (.plain escaped :: ·) <$> pieces? rest := by
  have ordinary : c ≠ 'u' := by
    rintro rfl
    cases simple
  rw [pieces?.eq_3 c rest (fun _ _ _ _ _ same _ => ordinary same), simple]
  cases pieces? rest <;> rfl

theorem pieces?_plain (visible : 0x20 ≤ c.toNat) (other : c ≠ '\\') :
    pieces? (c :: rest) = (.plain c :: ·) <$> pieces? rest := by
  have hidden : ¬ c.toNat < 32 := by omega
  rw [pieces?.eq_5 c rest (fun _ _ _ _ _ same _ => other same) (fun _ _ same _ => other same)
    (fun same _ => other same), if_neg hidden]

theorem toNat_lt (c : Char) : c.toNat < 0x110000 := by
  have valid := c.valid
  rcases valid with low | ⟨_, high⟩
  · exact Nat.lt_trans low (by decide)
  · exact high

theorem units_lt (c : Char) :
    0xd800 + (c.toNat - 0x10000) / 0x400 < 0x10000 ∧ 0xdc00 + (c.toNat - 0x10000) % 0x400 < 0x10000 := by
  have bound := toNat_lt c
  omega

def unitsOf (c : Char) : List Piece :=
  if c.toNat < 0x10000 then [.unit c.toNat]
  else [.unit (0xd800 + (c.toNat - 0x10000) / 0x400), .unit (0xdc00 + (c.toNat - 0x10000) % 0x400)]

theorem pieces?_unicodeEscape (c : Char) (rest : Scalars) :
    pieces? (unicodeEscape c ++ rest) = (unitsOf c ++ ·) <$> pieces? rest := by
  by_cases small : c.toNat < 0x10000
  · rw [unicodeEscape, if_pos small, pieces?_unit small, unitsOf, if_pos small]
    rfl
  · obtain ⟨high, low⟩ := units_lt c
    rw [unicodeEscape, if_neg small, List.append_assoc, pieces?_unit high, pieces?_unit low, unitsOf, if_neg small]
    cases pieces? rest <;> rfl

end Pieces

section Joining

variable {code : Nat} {rest : List Piece}

def BeginsLow (pieces : List Piece) : Prop := ∃ code more, pieces = .unit code :: more ∧ isLowUnit code = true

theorem joinUnits_alone (alone : ¬ (isHighUnit code = true ∧ BeginsLow rest)) :
    joinUnits (.unit code :: rest) = codePoint code :: joinUnits rest := by
  match rest with
  | [] => rfl
  | .plain c :: rest => rfl
  | .unit next :: rest =>
      have apart : (isHighUnit code && isLowUnit next) = false := by
        rw [Bool.and_eq_false_iff, ← Bool.not_eq_true, ← Bool.not_eq_true, ← not_and_or]
        exact fun pair => alone ⟨pair.1, next, rest, rfl, pair.2⟩
      rw [joinUnits, apart, if_neg Bool.false_ne_true]

/-- No character has a code that is a unit of a pair. -/
theorem codePoint_toNat (c : Char) : isHighUnit c.toNat = false ∧ isLowUnit c.toNat = false ∧
    codePoint c.toNat = .scalar c := by
  have outside : ¬ (0xd800 ≤ c.toNat ∧ c.toNat < 0xe000) := by
    rcases c.valid with low | ⟨high, _⟩
    · exact fun within => Nat.not_lt.mpr within.1 low
    · exact fun within => Nat.not_le.mpr within.2 high
  refine ⟨?_, ?_, ?_⟩
  · simp only [isHighUnit, Bool.and_eq_false_iff, decide_eq_false_iff_not]
    omega
  · simp only [isLowUnit, Bool.and_eq_false_iff, decide_eq_false_iff_not]
    omega
  · rw [codePoint, dif_neg outside, Char.ofNat_toNat]

theorem joinUnits_unitsOf (c : Char) (rest : List Piece) :
    joinUnits (unitsOf c ++ rest) = .scalar c :: joinUnits rest := by
  obtain ⟨notHigh, _, whole⟩ := codePoint_toNat c
  have bound := toNat_lt c
  by_cases small : c.toNat < 0x10000
  · rw [unitsOf, if_pos small, List.singleton_append, joinUnits_alone (by simp [notHigh]), whole]
  · have high : isHighUnit (0xd800 + (c.toNat - 0x10000) / 0x400) = true := by
      simp only [isHighUnit, Bool.and_eq_true, decide_eq_true_eq]
      omega
    have low : isLowUnit (0xdc00 + (c.toNat - 0x10000) % 0x400) = true := by
      simp only [isLowUnit, Bool.and_eq_true, decide_eq_true_eq]
      omega
    have joined : 0x10000 + (0xd800 + (c.toNat - 0x10000) / 0x400 - 0xd800) * 0x400 +
        (0xdc00 + (c.toNat - 0x10000) % 0x400 - 0xdc00) = c.toNat := by omega
    rw [unitsOf, if_neg small, List.cons_append, List.singleton_append, joinUnits, high, low, joined,
      Char.ofNat_toNat]
    rfl

theorem not_beginsLow_unitsOf (c : Char) (rest : List Piece) : ¬ BeginsLow (unitsOf c ++ rest) := by
  rintro ⟨code, more, split, low⟩
  rw [unitsOf] at split
  split at split
  · cases split
    rw [(codePoint_toNat c).2.1] at low
    cases low
  · cases split
    have bound := toNat_lt c
    simp only [isLowUnit, Bool.and_eq_true, decide_eq_true_eq] at low
    omega

end Joining

section Halves

variable {offset : Fin 0x800}

theorem half_lt (offset : Fin 0x800) : 0xd800 + offset.val < 0x10000 := by omega

theorem codePoint_half (offset : Fin 0x800) : codePoint (0xd800 + offset) = .half offset := by
  have within : 0xd800 ≤ 0xd800 + offset.val ∧ 0xd800 + offset.val < 0xe000 := by omega
  rw [codePoint, dif_pos within]
  have same : 0xd800 + offset.val - 0xd800 = offset.val := by omega
  simp only [same]

theorem isHighUnit_half (offset : Fin 0x800) :
    isHighUnit (0xd800 + offset) = (CodePoint.half offset).isHighHalf := by
  rw [isHighUnit, CodePoint.isHighHalf, Bool.eq_iff_iff]
  simp only [Bool.and_eq_true, decide_eq_true_eq, Fin.lt_def]
  omega

theorem isLowUnit_half (offset : Fin 0x800) : isLowUnit (0xd800 + offset) = (CodePoint.half offset).isLowHalf := by
  rw [isLowUnit, CodePoint.isLowHalf, Bool.eq_iff_iff]
  simp only [Bool.and_eq_true, decide_eq_true_eq, Fin.le_def]
  omega

end Halves

section Escapes

theorem escapedScalar_cases (c : Char) :
    (∃ letter, escapedChar c = ['\\', letter] ∧ letter.toNat < 0x80 ∧ simpleEscape? letter = some c) ∨
      escapedChar c = [c] ∧ 0x20 ≤ c.toNat ∧ c.toNat < 0x7f ∧ c ≠ '"' ∧ c ≠ '\\' ∨
      escapedChar c = unicodeEscape c := by
  simp only [escapedChar]
  split_ifs with mark line back tab page rub visible
  · refine .inl ⟨c, rfl, ?_⟩
    rcases mark with rfl | rfl <;> decide
  · exact .inl ⟨'n', rfl, by decide, by rw [line]; rfl⟩
  · exact .inl ⟨'r', rfl, by decide, by rw [back]; rfl⟩
  · exact .inl ⟨'t', rfl, by decide, by rw [tab]; rfl⟩
  · exact .inl ⟨'f', rfl, by decide, by rw [page]; rfl⟩
  · exact .inl ⟨'b', rfl, by decide, by rw [rub]; rfl⟩
  · rw [not_or] at mark
    exact .inr (.inl ⟨rfl, visible.1, visible.2, mark⟩)
  · exact .inr (.inr rfl)

def Reads (c : CodePoint) (pieces : List Piece) : Prop :=
  (∀ rest, pieces? (escapedChar c ++ rest) = (pieces ++ ·) <$> pieces? rest) ∧
    (∀ rest, ¬ (c.isHighHalf = true ∧ BeginsLow rest) → joinUnits (pieces ++ rest) = c :: joinUnits rest) ∧
    ∀ rest, BeginsLow (pieces ++ rest) → c.isLowHalf = true

theorem reads_plain {c : Char} (read : ∀ rest, pieces? (escapedChar c ++ rest) = (.plain c :: ·) <$> pieces? rest) :
    Reads c [.plain c] := by
  refine ⟨read, fun _ _ => rfl, ?_⟩
  rintro rest ⟨code, more, split, _⟩
  cases split

theorem reads_scalar (c : Char) : ∃ pieces, Reads c pieces := by
  rcases escapedScalar_cases c with ⟨letter, written, _, simple⟩ | ⟨written, visible, _, _, other⟩ | written
  · exact ⟨_, reads_plain fun rest => written ▸ pieces?_simple simple⟩
  · exact ⟨_, reads_plain fun rest => written ▸ pieces?_plain visible other⟩
  · refine ⟨unitsOf c, fun rest => ?_, fun rest _ => joinUnits_unitsOf c rest, fun rest low => ?_⟩
    · exact written ▸ pieces?_unicodeEscape c rest
    · exact absurd low (not_beginsLow_unitsOf c rest)

theorem reads_half (offset : Fin 0x800) : Reads (.half offset) [.unit (0xd800 + offset)] := by
  refine ⟨fun rest => ?_, fun rest alone => ?_, ?_⟩
  · exact pieces?_unit (half_lt offset)
  · rw [← isHighUnit_half] at alone
    rw [List.singleton_append, joinUnits_alone alone, codePoint_half]
  · rintro rest ⟨code, more, split, low⟩
    cases split
    rw [← isLowUnit_half]
    exact low

theorem exists_reads (c : CodePoint) : ∃ pieces, Reads c pieces := by
  cases c with
  | scalar c => exact reads_scalar c
  | half offset => exact ⟨_, reads_half offset⟩

/-- By induction on the text: each code point is read as pieces that join to it again, since none is a high half before
a low one. -/
theorem pieces?_escaped {text : Text} (unpaired : text.Unpaired) :
    ∃ pieces, pieces? (text.flatMap escapedChar) = some pieces ∧ joinUnits pieces = text ∧
      (BeginsLow pieces → ∃ c ∈ text.head?, c.isLowHalf = true) := by
  induction text with
  | nil =>
      refine ⟨[], rfl, rfl, ?_⟩
      rintro ⟨code, more, split, _⟩
      cases split
  | cons c text ih =>
      rw [Text.Unpaired, List.isChain_cons] at unpaired
      obtain ⟨rest, read, joined, begins⟩ := ih unpaired.2
      obtain ⟨pieces, first, joins, low⟩ := exists_reads c
      refine ⟨pieces ++ rest, ?_, ?_, ?_⟩
      · rw [List.flatMap_cons, first, read]
        rfl
      · rw [joins rest, joined]
        rintro ⟨high, below⟩
        obtain ⟨next, member, half⟩ := begins below
        exact unpaired.1 next member ⟨high, half⟩
      · exact fun below => ⟨c, rfl, low rest below⟩

end Escapes

theorem unescape?_escaped {text : Text} (unpaired : text.Unpaired) :
    unescape? (text.flatMap escapedChar) = some text := by
  obtain ⟨pieces, read, joined, _⟩ := pieces?_escaped unpaired
  rw [unescape?, read, Option.map_eq_map, Option.map_some, joined]

section Letters

theorem ascii_hex {n : Nat} (small : n < 0x10000) : (Text.hex 4 n).Ascii := by
  have digit {d : Nat} (bound : d < 16) : d.digitChar.toNat < 0x80 := (digitChar_plain bound).1
  rw [Text.hex_four small]
  exact Scalars.ascii_cons (digit (by omega)) (Scalars.ascii_cons (digit (Nat.mod_lt _ (by decide)))
    (Scalars.ascii_cons (digit (Nat.mod_lt _ (by decide)))
      (Scalars.ascii_cons (digit (Nat.mod_lt _ (by decide))) Scalars.ascii_nil)))

theorem ascii_unitEscape {n : Nat} (small : n < 0x10000) : (unitEscape n).Ascii :=
  Scalars.ascii_cons (by decide) (Scalars.ascii_cons (by decide) (ascii_hex small))

theorem ascii_unicodeEscape (c : Char) : (unicodeEscape c).Ascii := by
  by_cases small : c.toNat < 0x10000
  · rw [unicodeEscape, if_pos small]
    exact ascii_unitEscape small
  · rw [unicodeEscape, if_neg small]
    exact (ascii_unitEscape (units_lt c).1).append (ascii_unitEscape (units_lt c).2)

theorem ascii_escapedChar (c : CodePoint) : (escapedChar c).Ascii := by
  cases c with
  | half offset => exact ascii_unitEscape (half_lt offset)
  | scalar c =>
      rcases escapedScalar_cases c with ⟨letter, written, small, _⟩ | ⟨written, _, small, _, _⟩ | written
      · rw [written]
        exact Scalars.ascii_cons (by decide) (Scalars.ascii_cons small Scalars.ascii_nil)
      · rw [written]
        exact Scalars.ascii_cons (by omega) Scalars.ascii_nil
      · rw [written]
        exact ascii_unicodeEscape c

theorem ascii_inQuotes (text : Text) : (inQuotes text).Ascii := by
  have inside : Scalars.Ascii (text.flatMap escapedChar) := by
    intro d member
    obtain ⟨c, _, escaped⟩ := List.mem_flatMap.mp member
    exact ascii_escapedChar c d escaped
  exact (Scalars.ascii_cons (by decide) inside).append (Scalars.ascii_cons (by decide) Scalars.ascii_nil)

end Letters

end Json

end CommandLine
