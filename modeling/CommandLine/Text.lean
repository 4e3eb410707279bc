/-!
Text as a list of code points. Lengths, positions, prefixes and column widths all count code points.
-/
namespace CommandLine

/-- A code point of Unicode. A text may hold halves of surrogate pairs, which no encoded text can hold. -/
inductive CodePoint where
  | scalar (c : Char)
  | half (offset : Fin 0x800)
  deriving DecidableEq, Repr

namespace CodePoint

instance : Coe Char CodePoint := ⟨scalar⟩

instance : Inhabited CodePoint := ⟨scalar default⟩

def number : CodePoint → Nat
  | scalar c => c.toNat
  | half offset => 0xd800 + offset

def isHighHalf : CodePoint → Bool
  | scalar _ => false
  | half offset => offset < 0x400

def isLowHalf : CodePoint → Bool
  | scalar _ => false
  | half offset => 0x400 ≤ offset

def isDigit : CodePoint → Bool
  | scalar c => c.isDigit
  | half _ => false

def toLower : CodePoint → CodePoint
  | scalar c => scalar c.toLower
  | half offset => half offset

def toUpper : CodePoint → CodePoint
  | scalar c => scalar c.toUpper
  | half offset => half offset

end CodePoint

abbrev Text := List CodePoint

/-- Text without halves, as it stands in files. -/
abbrev Scalars := List Char

namespace Scalars

def ofNat (n : Nat) : Scalars := Nat.toDigits 10 n

def ofInt : Int → Scalars
  | .ofNat n => ofNat n
  | .negSucc n => '-' :: ofNat (n + 1)

end Scalars

namespace Text

def ofScalars (scalars : Scalars) : Text := scalars.map .scalar

def scalars? : Text → Option Scalars
  | [] => some []
  | .scalar c :: rest => (c :: ·) <$> scalars? rest
  | .half _ :: _ => none

end Text

end CommandLine

def String.toText (string : String) : CommandLine.Text := CommandLine.Text.ofScalars string.toList

namespace CommandLine

namespace Text

def padLeft {α : Type} (fill : α) (width : Nat) (text : List α) : List α :=
  List.replicate (width - text.length) fill ++ text

def padRight {α : Type} (fill : α) (width : Nat) (text : List α) : List α :=
  text ++ List.replicate (width - text.length) fill

def ofNat (n : Nat) : Text := ofScalars (Scalars.ofNat n)

def ofInt (n : Int) : Text := ofScalars (Scalars.ofInt n)

def hex (width n : Nat) : Scalars := padLeft '0' width (Nat.toDigits 16 n)

def joined {α : Type} (separator : List α) : List (List α) → List α
  | [] => []
  | [text] => text
  | text :: rest => text ++ separator ++ joined separator rest

end Text

theorem Scalars.digits_isDigit (n : Nat) : ∀ c ∈ Scalars.ofNat n, c.isDigit = true := fun _ member =>
  Nat.isDigit_of_mem_toDigits (by decide) (by decide) member

theorem Scalars.ofNat_inj {m n : Nat} : Scalars.ofNat m = Scalars.ofNat n ↔ m = n := by
  constructor
  · intro same
    have read := congrArg (fun digits => Nat.ofDigitChars 10 digits 0) same
    simpa only [Scalars.ofNat, Nat.ofDigitChars_ten_toDigits] using read
  · exact congrArg Scalars.ofNat

namespace Text

theorem ofScalars_inj {a b : Scalars} : ofScalars a = ofScalars b ↔ a = b :=
  List.map_inj_right fun _ _ => CodePoint.scalar.inj

theorem digits_isDigit (n : Nat) : ∀ c ∈ ofNat n, c.isDigit = true :=
  List.forall_mem_map.mpr (Scalars.digits_isDigit n)

theorem not_mem_ofNat {c : CodePoint} (n : Nat) (other : c.isDigit = false) : c ∉ ofNat n := by
  intro member
  rw [digits_isDigit n c member] at other
  cases other

theorem ofNat_inj {m n : Nat} : ofNat m = ofNat n ↔ m = n :=
  ofScalars_inj.trans Scalars.ofNat_inj

theorem cut_inj {stop : CodePoint} {front other back rest : Text} (free : stop ∉ front) (freeToo : stop ∉ other) :
    front ++ stop :: back = other ++ stop :: rest ↔ front = other ∧ back = rest := by
  constructor
  · intro same
    induction front generalizing other with
    | nil =>
        cases other with
        | nil => simpa using same
        | cons d other =>
            cases same
            exact absurd List.mem_cons_self freeToo
    | cons c front ih =>
        cases other with
        | nil =>
            cases same
            exact absurd List.mem_cons_self free
        | cons d other =>
            obtain ⟨rfl, more⟩ := List.cons.inj same
            have later := ih (List.not_mem_of_not_mem_cons free) (List.not_mem_of_not_mem_cons freeToo) more
            exact ⟨congrArg (c :: ·) later.1, later.2⟩
  · intro parts
    rw [parts.1, parts.2]

end Text

end CommandLine
