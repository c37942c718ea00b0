/- # Integers written in the environment

An integer is written as blanks, an optional sign and at least one decimal digit, with nothing
after the digits.  A value is read as bytes, for an environment may hold any of them.

`Integer.scan` splits a value into the number at its front and the rest.  The number becomes a word
of 64 bits (`Integer.saturate`), which is the nearest one if the number fits none.  `Integer.read`
accepts the word if nothing follows and it lies inside the limits of the reader, and otherwise says
what is wrong.  A number that no 32-bit integer can hold is reported as such even if something
follows it.
-/

namespace TaskPools

/-- What is wrong with a value that should be an integer. -/
inductive IntegerFault where
  /-- The number at the front fits no 32-bit integer. -/
  | overflow
  /-- There is no number, or something follows it. -/
  | malformed
  /-- The number lies outside the limits of the reader. -/
  | outOfRange
  deriving DecidableEq, Repr

namespace Integer

/-- A blank: a space, or one of the five control characters that move the cursor. -/
def isBlank (b : UInt8) : Bool := b == 32 || (9 ≤ b && b ≤ 13)

/-- A decimal digit. -/
def isDigit (b : UInt8) : Bool := 48 ≤ b && b ≤ 57

/-- The number that digits denote. -/
def value (digits : List UInt8) : Nat :=
  digits.foldl (fun n b => 10 * n + (b.toNat - 48)) 0

/-- Split a sign off: a minus sign makes the number negative, a plus sign changes nothing. -/
def sign : List UInt8 → Bool × List UInt8
  | 45 :: rest => (true, rest)
  | 43 :: rest => (false, rest)
  | rest => (false, rest)

/-- The number at the front of a text and what follows it. -/
def scan (s : List UInt8) : Option (Int × List UInt8) :=
  let (negative, s) := sign (s.dropWhile isBlank)
  match s.takeWhile isDigit with
  | [] => none
  | digits =>
    let n : Int := value digits
    some (if negative then -n else n, s.dropWhile isDigit)

/-- The word of 64 bits nearest to a number, and whether it is another number. -/
def saturate (n : Int) : Int64 × Bool :=
  if n < Int64.minValue.toInt then (Int64.minValue, true)
  else if Int64.maxValue.toInt < n then (Int64.maxValue, true)
  else (Int64.ofInt n, false)

/-- Read an integer between `lo` and `hi`. -/
def read (lo hi : Int32) (s : List UInt8) : Except IntegerFault Int32 :=
  match scan s with
  | none => .error .malformed
  | some (n, rest) =>
    let (word, saturated) := saturate n
    if saturated ∨ Int32.maxValue.toInt64 < word ∨ word < Int32.minValue.toInt64 then
      .error .overflow
    else if rest ≠ [] then .error .malformed
    else if lo ≤ word.toInt32 ∧ word.toInt32 ≤ hi then .ok word.toInt32
    else .error .outOfRange

end Integer

end TaskPools
