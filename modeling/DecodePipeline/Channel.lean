/-!
This module contains bounded channels: queues with room for a number of items between senders and
one receiver.
-/

namespace DecodePipeline

inductive SendOutcome where
  | sent
  | full
  | closed
  deriving DecidableEq

inductive Poll (α : Type) where
  | item (item : α)
  | empty
  | ended
  deriving DecidableEq

structure Channel (α : Type) where
  capacity : Nat
  queue : List α := []
  senders : Nat := 1
  receiving : Bool := true
  deriving DecidableEq, Inhabited

namespace Channel

variable {α : Type}

def ofCapacity (capacity : Nat) : Channel α := { capacity := max capacity 1 }

def send (c : Channel α) (item : α) : SendOutcome × Channel α :=
  if !c.receiving then (.closed, c)
  else if c.capacity ≤ c.queue.length then (.full, c)
  else (.sent, { c with queue := c.queue ++ [item] })

def receive (c : Channel α) : Poll α × Channel α :=
  match c.queue with
  | item :: queue => (.item item, { c with queue })
  | [] => (if c.senders == 0 then .ended else .empty, c)

def addSender (c : Channel α) : Channel α := { c with senders := c.senders + 1 }

def removeSender (c : Channel α) : Channel α := { c with senders := c.senders - 1 }

def close (c : Channel α) : Channel α := { c with receiving := false, queue := [] }

end Channel
end DecodePipeline
