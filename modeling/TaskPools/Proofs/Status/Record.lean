/-
# What a record keeps

A record gives back the code and the message that it was made of (`code_encode`, `message_encode`),
whatever the bytes of the message are, as long as its length fits into the four bytes that the
record has for it.  The length in a record is that of the bytes behind it, so a copy loses nothing
(`Whole.copy_eq`).  Of a message that is a text, the bytes show what the status itself says
(`Status.view_bytes`).
-/
import TaskPools.Status.Record
import TaskPools.Proofs.ByteOrder

namespace TaskPools

namespace StatusRecord

variable {c : Int32} {m r : List UInt8}

/-! ## Words -/

@[simp] theorem length_ofWord (w : UInt32) : (ofWord w).length = 4 := rfl

/-- A word can be read from its four bytes, whatever follows them. -/
@[simp] theorem word_ofWord_append (w : UInt32) (rest : List UInt8) :
    word (ofWord w ++ rest) = w := by
  have small := w.toNat_lt
  -- the bytes are the four digits of the word to the base 256
  have digits : w.toNat % 256 + 256 * (w.toNat / 256 % 256) + 65536 * (w.toNat / 65536 % 256) +
      16777216 * (w.toNat / 16777216 % 256) = w.toNat := by
    omega
  rw [ofWord]
  simp only [List.cons_append, List.nil_append, word, UInt8.toNat_ofNat', Nat.reducePow, digits,
    UInt32.ofNat_toNat]

/-! ## Reading a record -/

/-- The number of bytes of the message in a record. -/
theorem length_encode (c : Int32) (m : List UInt8) :
    length (encode c m) = m.length % 2 ^ 32 := by
  rw [length, encode, List.append_assoc, List.drop_left' (length_ofWord _), word_ofWord_append,
    UInt32.toNat_ofNat']

@[simp] theorem code_encode (c : Int32) (m : List UInt8) : code (encode c m) = c := by
  rw [code, encode, List.append_assoc, word_ofWord_append]
  rfl

theorem message_encode (fits : m.length < 2 ^ 32) : message (encode c m) = m := by
  have behind : (encode c m).drop 8 = m := by
    rw [encode, List.drop_left' (by simp), UInt32.toNat_ofNat', Nat.mod_eq_of_lt fits,
      List.take_length]
  rw [message, length_encode, Nat.mod_eq_of_lt fits, behind, List.take_length]

/-- A record is whole if it holds as many bytes as its length says. -/
def Whole (r : List UInt8) : Prop := r.length = 8 + length r

theorem whole_encode (c : Int32) (m : List UInt8) : Whole (encode c m) := by
  rw [Whole, length_encode, encode]
  simp
  omega

theorem Whole.copy_eq (h : Whole r) : copy r = r := by
  rw [copy, ← h, List.take_length]

end StatusRecord

/-! ## Messages that are texts -/

/-- A status whose message is kept as the bytes of its text. -/
def Status.bytes : Status → ByteStatus
  | .ok => none
  | .coded c m => some (c, textBytes m)

/-- The bytes are listed from a place on, behind those that were collected before it. -/
theorem loop_toList (a : ByteArray) (i : Nat) (r : List UInt8) :
    ByteArray.toList.loop a i r = r.reverse ++ a.data.toList.drop i := by
  induction i, r using ByteArray.toList.loop.induct a with
  | case1 i r more ih =>
    have step : a.data.toList.drop i = a.get! i :: a.data.toList.drop (i + 1) := by
      rw [List.drop_eq_getElem_cons (by simpa using more)]
      congr 1
      exact (getElem!_pos a.data i more).symm
    rw [ByteArray.toList.loop, if_pos more, ih, step, List.reverse_cons, List.append_assoc,
      List.singleton_append]
  | case2 i r no_more =>
    have all : a.data.toList.length ≤ i := Nat.not_lt.mp no_more
    rw [ByteArray.toList.loop, if_neg no_more, List.drop_eq_nil_of_le all, List.append_nil]

theorem textBytes_eq_bytesOf (s : String) : textBytes s = bytesOf s := by
  rw [textBytes, ByteArray.toList, loop_toList]
  rfl

theorem textBytes_append (s t : String) : textBytes (s ++ t) = textBytes s ++ textBytes t := by
  rw [textBytes_eq_bytesOf, textBytes_eq_bytesOf, textBytes_eq_bytesOf, bytesOf_append]

/-- What can be seen of the bytes is what the status itself says. -/
theorem Status.view_bytes (s : Status) :
    s.bytes.view =
      { isOk := s.isOk, code := s.code, message := textBytes s.message,
        text := textBytes s.render } := by
  cases s with
  | ok => rfl
  | coded c m =>
    rw [bytes, ByteStatus.view, render, textBytes_append]
    rfl

end TaskPools
