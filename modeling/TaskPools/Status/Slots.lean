/- # Slots for statuses

A row of slots, each of which holds a status, under the operations by which statuses are handed
around: construction, assignment by copy and by move, the same by way of a temporary, and exchange.

There are two such rows.  In `Slots` a slot refers to a buffer that keeps the record of its status,
and a move hands the buffer over; in `ValueSlots` a slot holds the status itself.  What can be seen
of the two rows is the same.
-/
import TaskPools.Status.Record

namespace TaskPools

/-- An operation on a row of slots. -/
inductive SlotOp where
  /-- The slot gets a new status. -/
  | set (dst : Nat) (code : Int32) (message : List UInt8)
  /-- The slot gets plain success. -/
  | clear (dst : Nat)
  | copy (dst src : Nat)
  /-- The source becomes plain success, unless it is the destination. -/
  | move (dst src : Nat)
  /-- A copy by way of a temporary. -/
  | copyVia (dst src : Nat)
  /-- A move by way of a temporary. -/
  | moveVia (dst src : Nat)
  | swap (dst src : Nat)
  deriving DecidableEq, Repr

/-! ## Slots that refer to buffers -/

/-- A row of slots that refer to buffers. -/
structure Slots where
  /-- The buffers ever used, by address; one that was given back holds nothing. -/
  buffers : List (Option (List UInt8)) := []
  /-- The address of the buffer of each slot; plain success needs none. -/
  slots : List (Option Nat) := []
  deriving DecidableEq, Repr

namespace Slots

/-- A row of so many slots that hold plain success. -/
def create (n : Nat) : Slots := { slots := List.replicate n none }

/-- The address in a slot. -/
def address (s : Slots) (i : Nat) : Option Nat := s.slots[i]?.getD none

/-- The record at an address. -/
def record (s : Slots) (a : Nat) : List UInt8 := (s.buffers[a]?.getD none).getD []

/-- Put a record into a new buffer. -/
def allocate (s : Slots) (r : List UInt8) : Slots × Option Nat :=
  ({ s with buffers := s.buffers ++ [some r] }, some s.buffers.length)

/-- Give the buffer at an address back. -/
def free (s : Slots) : Option Nat → Slots
  | some a => { s with buffers := s.buffers.set a none }
  | none => s

/-- Let a slot refer to an address. -/
def point (s : Slots) (i : Nat) (a : Option Nat) : Slots :=
  { s with slots := s.slots.set i a }

/-- A new buffer with a copy of the record at an address. -/
def clone (s : Slots) : Option Nat → Slots × Option Nat
  | some a => s.allocate (StatusRecord.copy (s.record a))
  | none => (s, none)

/-- Give the buffer of a slot back and let the slot refer to another. -/
def replace (s : Slots) (i : Nat) (a : Option Nat) : Slots :=
  (s.free (s.address i)).point i a

/-- Move one slot into another. -/
def moveInto (s : Slots) (dst src : Nat) : Slots :=
  if dst = src then s else (s.replace dst (s.address src)).point src none

/-- Take the buffer out of a slot. -/
def take (s : Slots) (i : Nat) : Slots × Option Nat := (s.point i none, s.address i)

/-- Carry an operation out. -/
def apply (s : Slots) : SlotOp → Slots
  | .set dst code message =>
    let (s, a) := s.allocate (StatusRecord.encode code message)
    s.replace dst a
  | .clear dst => s.replace dst none
  | .copy dst src =>
    if dst = src then s
    else
      let (s, a) := ((s.free (s.address dst)).point dst none).clone (s.address src)
      s.point dst a
  | .move dst src => s.moveInto dst src
  | .copyVia dst src =>
    let (s, a) := s.clone (s.address src)
    s.replace dst a
  | .moveVia dst src =>
    let (s, a) := s.take src
    s.replace dst a
  | .swap dst src =>
    let (s, a) := s.take dst
    (s.moveInto dst src).replace src a

/-- What can be seen of a slot. -/
def view (s : Slots) (i : Nat) : StatusView :=
  match s.address i with
  | some a => StatusRecord.view (s.record a)
  | none => ByteStatus.view none

/-- What can be seen of all slots. -/
def views (s : Slots) : List StatusView := (List.range s.slots.length).map s.view

end Slots

/-! ## Slots that hold values -/

/-- A row of slots that hold statuses. -/
abbrev ValueSlots := List ByteStatus

namespace ValueSlots

/-- A row of so many slots that hold plain success. -/
def create (n : Nat) : ValueSlots := List.replicate n none

/-- The status in a slot. -/
def get (s : ValueSlots) (i : Nat) : ByteStatus := s[i]?.getD none

/-- Carry an operation out. -/
def apply (s : ValueSlots) : SlotOp → ValueSlots
  | .set dst code message => List.set s dst (some (code, message))
  | .clear dst => List.set s dst none
  | .copy dst src | .copyVia dst src => List.set s dst (s.get src)
  | .move dst src | .moveVia dst src =>
    if dst = src then s else List.set (List.set s dst (s.get src)) src none
  | .swap dst src => List.set (List.set s dst (s.get src)) src (s.get dst)

/-- What can be seen of a slot. -/
def view (s : ValueSlots) (i : Nat) : StatusView := (s.get i).view

end ValueSlots

end TaskPools
