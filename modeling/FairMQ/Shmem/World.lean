import FairMQ.Data.Ledger
import FairMQ.Data.TransitionSystem
import FairMQ.Shmem.Socket

namespace FairMQ.Shmem

open FairMQ.Data

/-! # Messages, wires and the segment

All devices of a session share one segment, so the message objects of every process
are kept in one list and the wires between them in another.  An operation may be
performed by any device; a message that has been queued is only destroyed. -/

structure World where
  live : Finset Int
  objects : List (Option MessageSHM)
  wires : List (List (List MetaHeader))
deriving DecidableEq

inductive Operation where
  | newMessage
  | create (size : Nat) (allocated : Option Int)
  | send (id wire : Nat) (attempt : Attempt)
  | sendVector (ids : List Nat) (wire : Nat) (attempt : Attempt)
  | receive (id wire : Nat) (leftover : MetaHeader)
  | receiveVector (wire : Nat)
  | copy (target source : Nat) (allocated : Option Int)
  | destroy (id : Nat)
deriving DecidableEq, Repr

namespace World

def usable (world : World) (id : Nat) : Option MessageSHM :=
  match world.objects[id]? with
  | some (some message) => if message.fQueued then none else some message
  | _ => none

def usables (world : World) : List Nat → Option (List MessageSHM)
  | [] => some []
  | id :: ids =>
      match world.usable id, world.usables ids with
      | some message, some messages => some (message :: messages)
      | _, _ => none

/-- The allocator returns a chunk that is not live, or is interrupted. -/
def offers (world : World) : Option Int → Prop
  | some handle => 0 < handle ∧ handle ∉ world.live
  | none => True

instance (world : World) (allocated : Option Int) : Decidable (world.offers allocated) :=
  match allocated with
  | some handle => inferInstanceAs (Decidable (0 < handle ∧ handle ∉ world.live))
  | none => inferInstanceAs (Decidable True)

def allocate (world : World) (allocated : Option Int) : Finset Int :=
  match allocated with
  | some handle => insert handle world.live
  | none => world.live

def transmit (world : World) (ids : List Nat) (wire : Nat) (sending : Sending) : Option World :=
  match world.wires[wire]?, sending.packet with
  | some queue, some packet =>
      some { world with
        objects := setAll world.objects ids (sending.messages.map some)
        wires := world.wires.set wire (queue ++ [packet]) }
  | some _, none =>
      some { world with objects := setAll world.objects ids (sending.messages.map some) }
  | none, _ => none

/-- A failed `assert` ends the process: the received headers are lost and the
receiving object is never used again. -/
def receive (world : World) (id wire : Nat) (leftover : MetaHeader) : Option World :=
  match world.usable id, world.wires[wire]? with
  | some message, some (packet :: queue) =>
      if message = .newMessage then
        some { world with
          objects := world.objects.set id (message.receiveImpl leftover packet)
          wires := world.wires.set wire queue }
      else none
  | _, _ => none

def receiveVector (world : World) (wire : Nat) : Option World :=
  match world.wires[wire]? with
  | some (packet :: queue) =>
      some { world with
        objects := world.objects ++ (receiveImpl packet).map some
        wires := world.wires.set wire queue }
  | _ => none

def copy (world : World) (target source : Nat) (allocated : Option Int) : Option World :=
  match world.usable target, world.usable source with
  | some message, some other =>
      if message.fHandle < 0 then
        if other.fHandle = 0 then some world
        else if world.offers allocated then
          some { world with
            live := world.allocate allocated
            objects := world.objects.set target (message.copy other allocated) }
        else none
      else none
  | _, _ => none

def destroy (world : World) (id : Nat) : Option World :=
  match world.objects[id]? with
  | some (some message) =>
      let live :=
        match message.closeMessage with
        | .deallocate handle => world.live.erase handle
        | _ => world.live
      some { world with live, objects := world.objects.set id none }
  | _ => none

def step (world : World) : Operation → Option World
  | .newMessage => some { world with objects := world.objects ++ [some .newMessage] }
  | .create size allocated =>
      if world.offers allocated then
        some { world with
          live := world.allocate allocated
          objects := world.objects ++ [some (.ofSize size allocated)] }
      else none
  | .send id wire attempt =>
      match world.usable id with
      | some message => world.transmit [id] wire (message.sendImpl attempt)
      | none => none
  | .sendVector ids wire attempt =>
      match world.usables ids with
      | some messages =>
          if ids.Nodup ∧ ∀ message ∈ messages, 0 ≤ message.fHandle then
            (sendImpl messages attempt).bind (world.transmit ids wire)
          else none
      | none => none
  | .receive id wire leftover => world.receive id wire leftover
  | .receiveVector wire => world.receiveVector wire
  | .copy target source allocated => world.copy target source allocated
  | .destroy id => world.destroy id

end World

def World.start (wires : Nat) : World where
  live := ∅
  objects := []
  wires := List.replicate wires []

def ownershipSystem : TransitionSystem World Operation where
  initial world := ∃ wires, world = .start wires
  step := World.step

end FairMQ.Shmem
