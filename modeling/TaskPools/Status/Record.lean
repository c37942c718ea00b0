/- # Statuses as byte records

A status other than plain success can be kept as a record of bytes: four bytes for the code, four
for the length of the message, lowest byte first, and the bytes of the message.  A message of any
bytes can be kept, as long as its length fits into four bytes.
-/
import TaskPools.Status

namespace TaskPools

/-- A status whose message is a list of bytes; `none` is plain success. -/
abbrev ByteStatus := Option (Int32 × List UInt8)

/-- What can be seen of a status: whether it counts as success, its code, its message and its
text. -/
structure StatusView where
  isOk : Bool
  code : Int32
  message : List UInt8
  text : List UInt8
  deriving DecidableEq, Repr

/-- The bytes of a text. -/
def textBytes (s : String) : List UInt8 := s.toUTF8.toList

/-- What can be seen of a status with a message of bytes. -/
def ByteStatus.view : ByteStatus → StatusView
  | none =>
    { isOk := true, code := Code.success, message := textBytes "OK", text := textBytes "OK" }
  | some (code, message) =>
    { isOk := code == Code.success, code, message,
      text := textBytes (Code.heading code) ++ message }

namespace StatusRecord

/-- The four bytes of a word, lowest first. -/
def ofWord (w : UInt32) : List UInt8 :=
  let n := w.toNat
  [UInt8.ofNat n, UInt8.ofNat (n / 256), UInt8.ofNat (n / 65536), UInt8.ofNat (n / 16777216)]

/-- The word that the first four bytes make up. -/
def word : List UInt8 → UInt32
  | a :: b :: c :: d :: _ =>
    UInt32.ofNat (a.toNat + 256 * b.toNat + 65536 * c.toNat + 16777216 * d.toNat)
  | _ => 0

/-- The record of a code and a message. -/
def encode (code : Int32) (message : List UInt8) : List UInt8 :=
  let length := UInt32.ofNat message.length
  ofWord code.toUInt32 ++ ofWord length ++ message.take length.toNat

/-- The code in a record. -/
def code (r : List UInt8) : Int32 := (word r).toInt32

/-- The length of the message in a record. -/
def length (r : List UInt8) : Nat := (word (r.drop 4)).toNat

/-- The message in a record. -/
def message (r : List UInt8) : List UInt8 := (r.drop 8).take (length r)

/-- A copy of a record, as long as its length says. -/
def copy (r : List UInt8) : List UInt8 := r.take (8 + length r)

/-- What can be seen of the status that a record keeps. -/
def view (r : List UInt8) : StatusView :=
  { isOk := code r == Code.success, code := code r, message := message r,
    text := textBytes (Code.heading (code r)) ++ message r }

end StatusRecord

end TaskPools
