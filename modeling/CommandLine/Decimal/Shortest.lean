import CommandLine.Text

/-!
The shortest decimal that reads back as a given binary floating-point number.

A finite positive number is `mantissa * 2 ^ exponent`. The reals that round to it form an interval, which
contains its ends when the mantissa is even. Of the decimal grids with 1, 2, ... 17 digits the first with a
point in that interval is taken, and on it the point nearest to the number.
-/
namespace CommandLine.Decimal

/-- A positive binary number; `closeBelow` says that its lower neighbour is half as far away as its upper one. -/
structure Binary where
  mantissa : Nat
  exponent : Int
  closeBelow : Bool

/-- The decimal `0.d₁d₂…dₙ * 10 ^ point`; its last digit is not zero. -/
structure Digits where
  digits : Scalars
  point : Int
  deriving DecidableEq, Repr

structure Ratio where
  numerator : Nat
  denominator : Nat

namespace Ratio

def scaled (base : Nat) (n : Nat) (exponent : Int) : Ratio :=
  if 0 ≤ exponent then ⟨n * Nat.pow base exponent.toNat, 1⟩
  else ⟨n, Nat.pow base (-exponent).toNat⟩

def le (a b : Ratio) : Bool := a.numerator * b.denominator ≤ b.numerator * a.denominator

def lt (a b : Ratio) : Bool := !b.le a

def distance (a b : Ratio) : Ratio :=
  let x := a.numerator * b.denominator
  let y := b.numerator * a.denominator
  ⟨(x - y) + (y - x), a.denominator * b.denominator⟩

end Ratio

namespace Binary

def value (b : Binary) : Ratio := .scaled 2 b.mantissa b.exponent

def lowerEnd (b : Binary) : Ratio :=
  if b.closeBelow then .scaled 2 (4 * b.mantissa - 1) (b.exponent - 2)
  else .scaled 2 (2 * b.mantissa - 1) (b.exponent - 1)

def upperEnd (b : Binary) : Ratio := .scaled 2 (2 * b.mantissa + 1) (b.exponent - 1)

def readsBack (b : Binary) (x : Ratio) : Bool :=
  if b.mantissa % 2 = 0 then b.lowerEnd.le x && x.le b.upperEnd
  else b.lowerEnd.lt x && x.lt b.upperEnd

def magnitude (b : Binary) : Int :=
  let v := b.value
  let guess : Int := (Scalars.ofNat v.numerator).length - (Scalars.ofNat v.denominator).length
  if (Ratio.scaled 10 1 guess).le v then guess else guess - 1

/-- The point of the grid of multiples of `10 ^ unit` that reads back as `b` and is nearest to it. -/
def nearestOn (b : Binary) (unit : Int) : Option Nat :=
  let v := b.value
  let step := Ratio.scaled 10 1 unit
  let below := v.numerator * step.denominator / (v.denominator * step.numerator)
  let down := Ratio.scaled 10 below unit
  let up := Ratio.scaled 10 (below + 1) unit
  let gapDown := down.distance v
  let gapUp := up.distance v
  match b.readsBack down, b.readsBack up with
  | false, false => none
  | true, false => some below
  | false, true => some (below + 1)
  | true, true =>
    if gapDown.lt gapUp then some below
    else if gapUp.lt gapDown then some (below + 1)
    else if below % 2 = 0 then some below
    else some (below + 1)

def firstGrid (b : Binary) (magnitude : Int) : List Nat → Option (Nat × Int)
  | [] => none
  | places :: more =>
    match b.nearestOn (magnitude - places) with
    | some n => some (n, magnitude - places)
    | none => b.firstGrid magnitude more

def stripZeros (digits : Scalars) : Scalars := (digits.reverse.dropWhile (· = '0')).reverse

def shortest (b : Binary) : Digits :=
  match b.firstGrid b.magnitude (List.range 17) with
  | some (n, unit) => ⟨stripZeros (Scalars.ofNat n), unit + (Scalars.ofNat n).length⟩
  | none => ⟨[], 0⟩

end Binary

/-- The exponent is written when the point stands outside the places -3 to 16 of the digits. -/
def Digits.render (d : Digits) : Scalars :=
  if -3 ≤ d.point ∧ d.point ≤ 16 then
    if d.point ≤ 0 then "0.".toList ++ List.replicate (-d.point).toNat '0' ++ d.digits
    else
      let whole := Text.padRight '0' d.point.toNat (d.digits.take d.point.toNat)
      let part := d.digits.drop d.point.toNat
      whole ++ '.' :: (if part = [] then ['0'] else part)
  else
    let power := d.point - 1
    let sign := if power < 0 then '-' else '+'
    let part := d.digits.drop 1
    d.digits.take 1 ++ (if part = [] then [] else '.' :: part) ++
      'e' :: sign :: Text.padLeft '0' 2 (Scalars.ofNat power.natAbs)

def hiddenBit : Nat := 0x10000000000000

def fraction (bits : UInt64) : Nat := bits.toNat % hiddenBit

def biasedExponent (bits : UInt64) : Nat := bits.toNat / hiddenBit % 2048

def isNegative (bits : UInt64) : Bool := bits.toNat / hiddenBit / 2048 = 1

def binaryOfBits (bits : UInt64) : Binary :=
  if biasedExponent bits = 0 then ⟨fraction bits, -1074, false⟩
  else
    ⟨hiddenBit + fraction bits, (biasedExponent bits : Int) - 1075,
      fraction bits = 0 && biasedExponent bits ≠ 1⟩

def magnitudeText (bits : UInt64) : Scalars :=
  if biasedExponent bits = 0 ∧ fraction bits = 0 then "0.0".toList
  else if biasedExponent bits = 2047 then "inf".toList
  else (binaryOfBits bits).shortest.render

def ofFloat (x : Float) : Scalars :=
  if biasedExponent x.toBits = 2047 ∧ fraction x.toBits ≠ 0 then "nan".toList
  else if isNegative x.toBits then '-' :: magnitudeText x.toBits
  else magnitudeText x.toBits

/-- The number `digits * 10 ^ exponent`. Exponents far out of range are cut off first: the result is the same. -/
def toFloat (digits : Nat) (exponent : Int) : Float :=
  let size : Int := (Scalars.ofNat digits).length
  if digits = 0 then 0.0
  else if 400 < size + exponent then 1.0 / 0.0
  else if size + exponent < -400 then 0.0
  else if exponent < 0 then Float.ofScientific digits true (-exponent).toNat
  else Float.ofScientific digits false exponent.toNat

end CommandLine.Decimal
