import Mathlib.Data.Nat.Bitwise

/-!
# Numbers of the command line

`strtoull` with base 0, as the C library has it on a machine with 64-bit `unsigned long`: white
space, a sign, `0x` or `0` for the base, then as many digits as there are. What does not fit
saturates, and a minus sign negates modulo `2 ^ 64`. `parseNumber` is the same without the limits,
and `denotes` the number that a whole text stands for.
-/

namespace CNumber

/-- `isspace` -/
def isSpace (c : UInt8) : Bool := c == 32 || (9 ≤ c && c ≤ 13)

/-- `isdigit` -/
def isDigit (c : UInt8) : Bool := 48 ≤ c && c ≤ 57

/-- The value of a digit, with letters for the ones from 10 on. -/
def digitOf (c : UInt8) : Nat :=
  if isDigit c then c.toNat - 48
  else if 65 ≤ c ∧ c ≤ 90 then c.toNat - 55
  else if 97 ≤ c ∧ c ≤ 122 then c.toNat - 87
  else 36

def isDigitOf (base : Nat) (c : UInt8) : Bool := digitOf c < base

/-- The number that digits stand for. -/
def digitsValue (base : Nat) (digits : List UInt8) : Nat :=
  digits.foldl (fun n c => base * n + digitOf c) 0

/-- The sign. -/
def takeSign : List UInt8 → Bool × List UInt8
  | 45 :: text => (true, text)
  | 43 :: text => (false, text)
  | text => (false, text)

/-- The base, and the digits behind its prefix. A `0x` with no digit behind it is a zero. -/
def takeBase : List UInt8 → Nat × List UInt8
  | 48 :: x :: d :: text =>
    if (x == 88 || x == 120) && isDigitOf 16 d then (16, d :: text) else (8, 48 :: x :: d :: text)
  | 48 :: text => (8, 48 :: text)
  | text => (10, text)

/-- The number at the front of a text: whether it is negative, its size, and what follows. -/
def parseNumber (text : List UInt8) : Option (Bool × Nat × List UInt8) :=
  let (negative, text) := takeSign (text.dropWhile isSpace)
  let (base, text) := takeBase text
  let digits := text.takeWhile (isDigitOf base)
  if digits = [] then none
  else some (negative, digitsValue base digits, text.drop digits.length)

/-- `strtoull(text, &rest, 0)` -/
def strtoull (text : List UInt8) : Nat × List UInt8 :=
  match parseNumber text with
  | none => (0, text)
  | some (negative, n, rest) =>
    (if 2 ^ 64 ≤ n then 2 ^ 64 - 1 else if negative then (2 ^ 64 - n) % 2 ^ 64 else n, rest)

/-- The number that the whole text stands for, if it stands for one. -/
def denotes (text : List UInt8) : Option Nat :=
  match parseNumber text with
  | some (false, n, []) => some n
  | _ => none

/-- A number that fits is read as what it is. -/
theorem strtoull_of_denotes {text : List UInt8} {n : Nat} (h : denotes text = some n)
    (hn : n < 2 ^ 64) : strtoull text = (n, []) := by
  unfold denotes at h
  unfold strtoull
  split at h
  · rename_i m hparse
    cases h
    rw [hparse]
    dsimp only
    rw [if_neg (by omega), if_neg (by decide)]
  · cases h

/-- A 32-bit word as an `int`. -/
def toInt32 (n : Nat) : Int := if n < 2 ^ 31 then n else (n : Int) - 2 ^ 32

theorem toInt32_le (n : Nat) : toInt32 n ≤ n := by
  unfold toInt32
  split <;> omega

/-- An `int` that is not negative is the word itself. -/
theorem toInt32_toNat {n : Nat} (hn : n < 2 ^ 32) (h : 0 ≤ toInt32 n) : (toInt32 n).toNat = n := by
  unfold toInt32 at h ⊢
  split at h
  · rename_i hlt
    rw [if_pos hlt]
    omega
  · omega

end CNumber
