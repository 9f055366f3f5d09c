/-!
# Binary floating-point values

A 64-bit binary floating-point value held as its bits: one sign bit, eleven
exponent bits and fifty-two fraction bits. Comparison and classification are
read off the bits; only rounding or scaling a decimal and converting a count go
through the machine's own arithmetic.
-/

namespace ScrapeRelay

structure Binary64 where
  bits : UInt64
deriving DecidableEq, Inhabited

namespace Binary64

def fractionLimit : Nat := 0x10000000000000

def signBit : UInt64 := 0x8000000000000000

def exponentField (value : Binary64) : Nat := value.bits.toNat / fractionLimit % 2048

def fraction (value : Binary64) : Nat := value.bits.toNat % fractionLimit

def isNegative (value : Binary64) : Bool := signBit ≤ value.bits

def isFinite (value : Binary64) : Bool := value.exponentField ≠ 2047

def isNaN (value : Binary64) : Bool := value.exponentField = 2047 && value.fraction ≠ 0

/-- A number that orders all values but NaN; both zeros have the key 0. -/
def orderKey (value : Binary64) : Int :=
  let magnitude : Int := Int.ofNat (value.bits.toNat % signBit.toNat)
  if value.isNegative then -magnitude else magnitude

/-- Numerical order. NaN is not comparable to anything. -/
def less (left right : Binary64) : Bool :=
  !left.isNaN && !right.isNaN && left.orderKey < right.orderKey

/-- Numerical equality: the zeros are equal and NaN differs from itself. -/
def equal (left right : Binary64) : Bool :=
  !left.isNaN && !right.isNaN && left.orderKey = right.orderKey

def infinity : Binary64 := ⟨0x7FF0000000000000⟩

def nan : Binary64 := ⟨0x7FF8000000000000⟩

def zero : Binary64 := ⟨0⟩

def one : Binary64 := ⟨0x3FF0000000000000⟩

def neg (value : Binary64) : Binary64 := ⟨value.bits ^^^ signBit⟩

def ofNat (count : Nat) : Binary64 := ⟨(Float.ofNat count).toBits⟩

def ofInt (value : Int) : Binary64 :=
  if value < 0 then (ofNat value.natAbs).neg else ofNat value.natAbs

/-- The value nearest to `mantissa * 10 ^ exponent`. Exponents far outside the
range of finite values are answered without computing the power. -/
def ofDecimal (negative : Bool) (mantissa : Nat) (exponent : Int) : Binary64 :=
  let magnitude : Binary64 :=
    if mantissa = 0 then zero
    else if exponent > 400 then infinity
    else if exponent < -(Int.ofNat (mantissa.log2 + 400)) then zero
    else ⟨(Float.ofScientific mantissa (exponent < 0) exponent.natAbs).toBits⟩
  if negative then magnitude.neg else magnitude

def maxPowerOfTen : Nat := 308

def powerOfTen (exponent : Nat) : Float := Float.ofScientific 1 false exponent

/-- A count times a power of ten, in single steps that round each: the count, the
power, and the product or the quotients. The result may miss the nearest value by a
few units in the last place; it is infinite if the count is not zero and the power
or the product is too large. -/
def ofScaled (negative : Bool) (count : Nat) (exponent : Int) : Binary64 :=
  let value := Float.ofNat count
  let shift := exponent.natAbs
  let magnitude : Binary64 :=
    if 0 ≤ exponent then
      if shift ≤ maxPowerOfTen then ⟨(value * powerOfTen shift).toBits⟩
      else if count = 0 then zero
      else infinity
    else if shift ≤ maxPowerOfTen then ⟨(value / powerOfTen shift).toBits⟩
    else if shift ≤ 2 * maxPowerOfTen then
      ⟨(value / powerOfTen maxPowerOfTen / powerOfTen (shift - maxPowerOfTen)).toBits⟩
    else zero
  if negative then magnitude.neg else magnitude

end Binary64

end ScrapeRelay
