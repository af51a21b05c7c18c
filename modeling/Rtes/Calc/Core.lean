import Rtes.Reservation.Core

/-!
# The `calc` system call

Arithmetic on numbers in single precision, computed with integers: the operands
are taken apart, exponent and fraction of the result are computed separately,
and the result is normalized and put together.  Exponents are kept without their
bias in unsigned words, so that those of numbers below one are large.  A register
is shifted by the low byte of the amount, and by 32 or more to zero, as the ARM
target does.
-/

namespace Rtes.Calc

open Rtes.Reservation

/-- The unsigned words of 32 bits the computation is done in. -/
abbrev U32 := BitVec 32

/-! ## Constants -/

def expMask : U32 := 0x7f800000
def fracMask : U32 := 0x007fffff
def signMask : U32 := 0x80000000

def expShift : ℕ := 23
def fracShift : ℕ := 0
def signShift : ℕ := 31

def fracDigit : U32 := 23

def expMax : U32 := 255
def expBias : U32 := 127

/-- `EINVAL`, returned like a result. -/
def einval : U32 := 22

/-! ## Shifts by a register -/

def shiftRight (x amount : U32) : U32 :=
  x >>> (amount.toNat % 256)

def shiftLeft (x amount : U32) : U32 :=
  x <<< (amount.toNat % 256)

/-! ## Operands and results -/

/-- Exponent without bias, fraction with its leading one, and sign. -/
structure Parts where
  exp : U32
  frac : U32
  sign : U32
  deriving DecidableEq, Repr

/-- Take a number apart. -/
def unpack (n : U32) : Parts where
  exp := ((n &&& expMask) >>> expShift) - expBias
  frac := ((n &&& fracMask) >>> fracShift) ||| shiftLeft 1 fracDigit
  sign := (n &&& signMask) >>> signShift

/-- The search for the leading one of a fraction, downwards from `pos`.  The
condition `pos >= 0` holds of every unsigned word. -/
def leadingOne (frac : U32) : (rounds : ℕ) → (pos : U32) → Except Fault U32
  | 0, _ => .error .divergence
  | rounds + 1, pos =>
      if frac &&& shiftLeft 1 pos ≠ 0 then .ok pos else leadingOne frac rounds (pos - 1)

/-- Shift the fraction to fit in the format, and update the exponent. -/
def fit (pos : U32) (parts : Parts) : Parts :=
  if fracDigit < pos then
    { parts with
      frac := shiftRight parts.frac (pos - fracDigit)
      exp := parts.exp + (pos - fracDigit) }
  else
    { parts with
      frac := shiftLeft parts.frac (fracDigit - pos)
      exp := parts.exp - (fracDigit - pos) }

/-- Remove the leading one, add the bias back, validate and put together.  An
unsigned exponent is never negative. -/
def pack (parts : Parts) : U32 :=
  let frac := parts.frac &&& ~~~(shiftLeft 1 fracDigit)
  let exp := parts.exp + expBias
  if expMax < exp then
    einval
  else if exp = expMax ∧ frac ≠ 0 then
    einval
  else
    ((parts.sign <<< signShift) &&& signMask) ||| ((frac <<< fracShift) &&& fracMask) |||
      ((exp <<< expShift) &&& expMask)

/-- Reconstruct the float format. -/
def reconstruct (parts : Parts) : Except Fault U32 := do
  let pos ← leadingOne parts.frac loopRounds 32
  .ok (pack (fit pos parts))

/-! ## Operations -/

/-- Align the fractions to the greater exponent. -/
def align (first second : Parts) : Parts × Parts :=
  if second.exp < first.exp then
    (first, { second with
      frac := shiftRight second.frac (first.exp - second.exp)
      exp := first.exp })
  else
    ({ first with
      frac := shiftRight first.frac (second.exp - first.exp)
      exp := second.exp }, second)

/-- The difference of two fractions, with the sign of the first if that is
greater and the other sign if it is not. -/
def difference (first second : Parts) (greater other : U32) : Parts :=
  if second.frac < first.frac then
    ⟨first.exp, first.frac - second.frac, greater⟩
  else
    ⟨first.exp, second.frac - first.frac, other⟩

/-- The sum of aligned numbers, by their signs. -/
def plus (first second : Parts) : Parts :=
  if first.sign ≠ 0 ∧ second.sign ≠ 0 then
    ⟨first.exp, first.frac + second.frac, 1⟩
  else if first.sign = 0 ∧ second.sign = 0 then
    ⟨first.exp, first.frac + second.frac, 0⟩
  else if first.sign ≠ 0 ∧ second.sign = 0 then
    difference first second 1 0
  else
    difference first second 0 1

/-- The difference of aligned numbers, by their signs. -/
def minus (first second : Parts) : Parts :=
  if first.sign = 0 ∧ second.sign ≠ 0 then
    ⟨first.exp, first.frac + second.frac, 0⟩
  else if first.sign ≠ 0 ∧ second.sign = 0 then
    ⟨first.exp, first.frac + second.frac, 1⟩
  else if first.sign ≠ 0 ∧ second.sign ≠ 0 then
    difference first second 1 0
  else
    difference first second 0 1

/-- The product, in 64 bits to fit. -/
def times (first second : Parts) : Parts where
  exp := first.exp + second.exp
  frac := ((first.frac.setWidth 64 * second.frac.setWidth 64) >>> 23).setWidth 32
  sign := first.sign ^^^ second.sign

/-- The quotient, which loses 15 bits at the divisor.  A divisor without fraction
is taken for zero. -/
def divide (first second : Parts) : Except Fault (Option Parts) :=
  if second.frac = shiftLeft 1 fracDigit then
    .ok none
  else if second.frac >>> 15 = 0 then
    .error .divisionByZero
  else
    .ok (some {
      exp := first.exp - second.exp
      frac := (first.frac <<< 8) / (second.frac >>> 15)
      sign := first.sign ^^^ second.sign })

/-- The system call `calc`.  Every other operation is invalid. -/
def sysCalc (n1 n2 : U32) (op : Char) : Except Fault U32 :=
  let first := unpack n1
  let second := unpack n2
  if op = '+' then
    let (first, second) := align first second
    reconstruct (plus first second)
  else if op = '-' then
    let (first, second) := align first second
    reconstruct (minus first second)
  else if op = '*' then
    reconstruct (times first second)
  else if op = '/' then do
    match ← divide first second with
    | none => .ok einval
    | some parts => reconstruct parts
  else
    .ok einval

end Rtes.Calc
