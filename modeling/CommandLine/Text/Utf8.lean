import CommandLine.Text.Quoted

namespace CommandLine

abbrev Octets := List UInt8

namespace Scalars

def toUtf8 (scalars : Scalars) : Octets := scalars.flatMap String.utf8EncodeChar

def ofUtf8? (octets : Octets) : Option Scalars := octets.toByteArray.utf8Decode?.map Array.toList

theorem ofUtf8?_toUtf8 (scalars : Scalars) : ofUtf8? (toUtf8 scalars) = some scalars := by
  have encoded : (toUtf8 scalars).toByteArray = scalars.utf8Encode := rfl
  simp [ofUtf8?, encoded]

theorem toUtf8_append (front back : Scalars) : toUtf8 (front ++ back) = toUtf8 front ++ toUtf8 back :=
  List.flatMap_append

end Scalars

namespace Text

/-- The halves that cannot be encoded, from the first such code point of a text on, and their position. -/
structure Unencodable where
  position : Nat
  halves : Text
  deriving DecidableEq, Repr

namespace Unencodable

def message (e : Unencodable) : Text :=
  "'utf-8' codec can't encode character".toText ++
    (if e.halves.length = 1 then " ".toText ++ quoted e.halves ++ " in position ".toText ++ ofNat e.position
    else "s in position ".toText ++ ofNat e.position ++ "-".toText ++ ofNat (e.position + e.halves.length - 1)) ++
    ": surrogates not allowed".toText

end Unencodable

def isHalf : CodePoint → Bool
  | .scalar _ => false
  | .half _ => true

def octets? : CodePoint → Option Octets
  | .scalar c => some (String.utf8EncodeChar c)
  | .half _ => none

/-- In the name of a file the halves from 0xdc80 to 0xdcff stand for octets that are no UTF-8. -/
def nameOctets? : CodePoint → Option Octets
  | .scalar c => some (String.utf8EncodeChar c)
  | .half offset => if 0x480 ≤ offset.val ∧ offset.val < 0x500 then some [(offset.val - 0x400).toUInt8] else none

def encodeBy (octets? : CodePoint → Option Octets) (text : Text) : Except Unencodable Octets :=
  match text.mapM octets? with
  | some parts => .ok parts.flatten
  | none =>
    let front := text.takeWhile fun c => (octets? c).isSome
    .error ⟨front.length, (text.drop front.length).takeWhile isHalf⟩

def encode : Text → Except Unencodable Octets := encodeBy octets?

def encodeName : Text → Except Unencodable Octets := encodeBy nameOctets?

section Encoding

variable {text front back : Text} {octets more : Octets}

theorem mapM_octets?_eq_some_iff {parts : List Octets} : text.mapM octets? = some parts ↔
    ∃ scalars, text = ofScalars scalars ∧ parts = scalars.map String.utf8EncodeChar := by
  induction text generalizing parts with
  | nil =>
      constructor
      · rintro ⟨⟩
        exact ⟨[], rfl, rfl⟩
      · rintro ⟨scalars, empty, rfl⟩
        cases scalars with
        | nil => rfl
        | cons c scalars => cases empty
  | cons c text ih =>
      rw [List.mapM_cons]
      cases c with
      | half offset =>
          constructor
          · rintro ⟨⟩
          · rintro ⟨scalars, whole, -⟩
            cases scalars <;> cases whole
      | scalar c =>
          constructor
          · intro encoded
            cases rest : text.mapM octets? with
            | none => simp [octets?, rest] at encoded
            | some others =>
                obtain ⟨scalars, rfl, rfl⟩ := ih.mp rest
                simp only [octets?, rest, Option.bind_eq_bind, Option.bind_some, Option.pure_def,
                  Option.some.injEq] at encoded
                exact ⟨c :: scalars, rfl, encoded.symm⟩
          · rintro ⟨scalars, whole, rfl⟩
            cases scalars with
            | nil => cases whole
            | cons d scalars =>
                cases whole
                rw [ih.mpr ⟨scalars, rfl, rfl⟩]
                rfl

theorem encode_eq_ok_iff :
    encode text = .ok octets ↔ ∃ scalars, text = ofScalars scalars ∧ octets = scalars.toUtf8 := by
  rw [encode, encodeBy]
  cases parts : text.mapM octets? with
  | some parts =>
      obtain ⟨scalars, rfl, rfl⟩ := mapM_octets?_eq_some_iff.mp parts
      constructor
      · rintro ⟨⟩
        exact ⟨scalars, rfl, rfl⟩
      · rintro ⟨other, same, rfl⟩
        rw [ofScalars_inj.mp same]
        rfl
  | none =>
      constructor
      · nofun
      · rintro ⟨scalars, whole, -⟩
        rw [mapM_octets?_eq_some_iff.mpr ⟨scalars, whole, rfl⟩] at parts
        cases parts

theorem encode_ofScalars (scalars : Scalars) : encode (ofScalars scalars) = .ok scalars.toUtf8 :=
  encode_eq_ok_iff.mpr ⟨scalars, rfl, rfl⟩

theorem encode_append (first : encode front = .ok octets) (second : encode back = .ok more) :
    encode (front ++ back) = .ok (octets ++ more) := by
  obtain ⟨one, rfl, rfl⟩ := encode_eq_ok_iff.mp first
  obtain ⟨two, rfl, rfl⟩ := encode_eq_ok_iff.mp second
  rw [ofScalars, ofScalars, ← List.map_append, ← Scalars.toUtf8_append]
  exact encode_ofScalars (one ++ two)

end Encoding

end Text

end CommandLine
