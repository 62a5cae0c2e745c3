import FairMQ.Channels.Wire
import FairMQ.Device.Homogeneous

namespace FairMQ.Devices

open FairMQ.Data FairMQ.Channels
open FairMQ.Device (DeviceChannels)
open FairMQ.Options (Transport)
open FairMQ.Shmem (MessageSHM)

structure Multiplier where
  fTransportFactory : Transport
  fChannels : DeviceChannels
  fOutChannelNames : List String

structure Call where
  channel : String
  index : Nat
  transport : Transport
  arguments : Arguments
deriving DecidableEq

def Call.target (call : Call) : String × Nat := (call.channel, call.index)

namespace Multiplier

variable (device : Multiplier)

def send (memory : Nat → Option Int) (arguments : Arguments) (chan : String) (i : Nat) :
    Option Call := do
  let channel ← device.fChannels.at? chan i
  let socket ← channel.fSocket
  let call ← channel.send memory arguments
  return ⟨chan, i, socket.transport, call.arguments⟩

/-- The copies for one `Send`, from the factory of the device. -/
def copy (memory : Nat → Option Int) (payload : Arguments) : Option Arguments :=
  payload.check fun k part => copyMessage device.fTransportFactory (memory k) part

def copyTo (memory : Nat → Option Int) (payload : Arguments) (target : String × Nat) :
    Option Call := do
  let msgCopy ← device.copy memory payload
  device.send memory msgCopy target.1 target.2

/-- The memory for copies and wrappers is given by the number of the call and of the part. -/
def sendCopy (memory : Nat → Nat → Option Int) (payload : Arguments) (calls : List Call)
    (target : String × Nat) : Option (List Call) :=
  (device.copyTo (memory calls.length) payload target).map fun call => calls ++ [call]

def sendCopies (memory : Nat → Nat → Option Int) (payload : Arguments) (channel : String)
    (bound : Nat) (calls : List Call) : Option (List Call) :=
  (List.range bound).foldlM (fun calls i => device.sendCopy memory payload calls (channel, i)) calls

/-- A copy to each sub-channel of a channel.  The indices are those that an `int` holds. -/
def sendChannel (memory : Nat → Nat → Option Int) (payload : Arguments) (calls : List Call)
    (channel : String) : Option (List Call) := do
  let subChannels ← device.fChannels channel
  device.sendCopies memory payload channel subChannels.length calls

/-- What the two handlers share, for a payload of which `copied` is copied.  Without channels the
bound of the first loop wraps around, and an `at` throws in its first round. -/
def multiply (memory : Nat → Nat → Option Int) (copied payload : Arguments) :
    Option (List Call) := do
  let last ← device.fOutChannelNames.getLast?
  let calls ← device.fOutChannelNames.dropLast.foldlM (device.sendChannel memory copied) []
  let subChannels ← device.fChannels last
  let lastIndex := toUint32 (subChannels.length - 1)
  let calls ← device.sendCopies memory copied last lastIndex calls
  let call ← device.send (memory calls.length) payload last lastIndex
  return calls ++ [call]

def handleSingleData (memory : Nat → Nat → Option Int) (payload : Message) :
    Option (List Call) :=
  device.multiply memory (.msg payload) (.msg payload)

/-- `Size` of the parts is an `int`. -/
def handleMultipartData (memory : Nat → Nat → Option Int) (payload : List Message) :
    Option (List Call) :=
  device.multiply memory (.msgVec (payload.take (toInt32 payload.length).toNat)) (.msgVec payload)

def handleData (memory : Nat → Nat → Option Int) : Arguments → Option (List Call)
  | .msg payload => device.handleSingleData memory payload
  | .msgVec payload => device.handleMultipartData memory payload

def subChannels (name : String) : List (String × Nat) :=
  (List.range ((device.fChannels name).getD []).length).map (name, ·)

def outputs : List (String × Nat) :=
  device.fOutChannelNames.flatMap device.subChannels

structure Outputs : Prop where
  nonempty : device.fOutChannelNames ≠ []
  distinct : device.fOutChannelNames.Nodup
  channels : ∀ name ∈ device.fOutChannelNames, ∃ channels, device.fChannels name = some channels ∧
    channels ≠ [] ∧ channels.length < 2 ^ 31 ∧
    ∀ channel ∈ channels, channel.fTransportType = device.fTransportFactory ∧
      channel.fTransportFactory = some device.fTransportFactory ∧
      ∃ socket, channel.fSocket = some socket ∧ socket.transport = device.fTransportFactory

end Multiplier

section Loops

variable {device : Multiplier} {memory : Nat → Nat → Option Int} {copied : Arguments}

def Multiplier.Copies (device : Multiplier) (memory : Nat → Nat → Option Int) (payload : Arguments)
    (round : (String × Nat) × Nat) (call : Call) : Prop :=
  device.copyTo (memory round.2) payload round.1 = some call

theorem foldlM_sendCopy {targets : List (String × Nat)} {calls after : List Call} :
    targets.foldlM (device.sendCopy memory copied) calls = some after ↔
      ∃ copies, after = calls ++ copies ∧
        List.Forall₂ (device.Copies memory copied) (targets.zipIdx calls.length) copies := by
  induction targets generalizing calls with
  | nil => simp [eq_comm]
  | cons target targets ih =>
      simp only [List.foldlM_cons, Option.bind_eq_bind, Option.bind_eq_some_iff,
        Multiplier.sendCopy, Option.map_eq_some_iff, ih, List.zipIdx_cons,
        List.forall₂_cons_left_iff]
      constructor
      · rintro ⟨_, ⟨call, sent, rfl⟩, copies, rfl, others⟩
        simp only [List.length_append, List.length_singleton] at others
        exact ⟨call :: copies, by simp, call, copies, sent, others, rfl⟩
      · rintro ⟨_, rfl, call, copies, sent, others, rfl⟩
        refine ⟨_, ⟨call, sent, rfl⟩, copies, by simp, ?_⟩
        simpa using others

theorem sendCopies_eq (channel : String) (bound : Nat) (calls : List Call) :
    device.sendCopies memory copied channel bound calls =
      ((List.range bound).map (channel, ·)).foldlM (device.sendCopy memory copied) calls := by
  rw [List.foldlM_map]
  rfl

theorem foldlM_sendChannel {names : List String} {calls : List Call}
    (exist : ∀ name ∈ names, (device.fChannels name).isSome) :
    names.foldlM (device.sendChannel memory copied) calls =
      (names.flatMap device.subChannels).foldlM (device.sendCopy memory copied) calls := by
  induction names generalizing calls with
  | nil => rfl
  | cons name names ih =>
      obtain ⟨channels, isChannels⟩ := Option.isSome_iff_exists.mp
        (exist name List.mem_cons_self)
      have first : device.sendChannel memory copied calls name =
          (device.subChannels name).foldlM (device.sendCopy memory copied) calls := by
        rw [Multiplier.sendChannel, Multiplier.subChannels, isChannels]
        exact sendCopies_eq name channels.length calls
      have others : ∀ name ∈ names, (device.fChannels name).isSome := fun other member =>
        exist other (List.mem_cons_of_mem _ member)
      rw [List.foldlM_cons, List.flatMap_cons, List.foldlM_append, first]
      exact congrArg _ (funext fun calls => ih others)

theorem multiply_eq_some_iff (ready : device.Outputs) (memory : Nat → Nat → Option Int)
    (copied payload : Arguments) :
    ∃ front chan i, device.outputs = front ++ [(chan, i)] ∧
      ∀ calls, device.multiply memory copied payload = some calls ↔
        ∃ copies last, calls = copies ++ [last] ∧
          List.Forall₂ (device.Copies memory copied) front.zipIdx copies ∧
          device.send (memory front.length) payload chan i = some last := by
  obtain ⟨last, isLast⟩ := Option.isSome_iff_exists.mp
    (List.getLast?_isSome.mpr ready.nonempty)
  obtain ⟨channels, isChannels, occupied, small, _⟩ :=
    ready.channels last (List.mem_of_getLast? isLast)
  obtain ⟨lastIndex, length⟩ := Nat.exists_eq_succ_of_ne_zero
    (List.length_pos_iff.mpr occupied).ne'
  have bound : toUint32 (channels.length - 1) = lastIndex := by
    rw [length, Nat.succ_eq_add_one, Int.natCast_add, Int.natCast_one, Int.add_sub_cancel]
    exact toUint32_of_lt (by omega)
  have exist : ∀ name ∈ device.fOutChannelNames.dropLast, (device.fChannels name).isSome := by
    intro name member
    obtain ⟨channels, isChannels, _⟩ := ready.channels name (List.dropLast_subset _ member)
    rw [isChannels]
    rfl
  let front := device.fOutChannelNames.dropLast.flatMap device.subChannels ++
    (List.range lastIndex).map (last, ·)
  refine ⟨front, last, lastIndex, ?_, ?_⟩
  · have isNames := List.dropLast_append_getLast? last isLast
    rw [Multiplier.outputs, ← isNames, List.flatMap_append, List.flatMap_singleton,
      Multiplier.subChannels, isChannels, Option.getD_some, length, List.range_succ, List.map_append,
      ← List.append_assoc]
    rfl
  · intro calls
    have loops : device.multiply memory copied payload =
        (front.foldlM (device.sendCopy memory copied) []).bind fun copies =>
          (device.send (memory copies.length) payload last lastIndex).bind fun call =>
            some (copies ++ [call]) := by
      simp only [Multiplier.multiply, isLast, isChannels, bound, foldlM_sendChannel exist,
        sendCopies_eq, front, List.foldlM_append, Option.bind_eq_bind, Option.bind_some,
        Option.bind_assoc, Option.pure_def]
    simp only [loops, Option.bind_eq_some_iff, foldlM_sendCopy, List.nil_append, List.length_nil,
      Option.some.injEq]
    constructor
    · rintro ⟨copies, ⟨_, rfl, sent⟩, call, isCall, rfl⟩
      refine ⟨copies, call, rfl, sent, ?_⟩
      rwa [← sent.length_eq, List.length_zipIdx] at isCall
    · rintro ⟨copies, call, rfl, sent, isCall⟩
      refine ⟨copies, ⟨copies, rfl, sent⟩, call, ?_, rfl⟩
      rwa [← sent.length_eq, List.length_zipIdx]

theorem send_target {memory : Nat → Option Int} {arguments : Arguments} {chan : String} {i : Nat}
    {call : Call} (sent : device.send memory arguments chan i = some call) :
    call.target = (chan, i) := by
  simp only [Multiplier.send, Option.bind_eq_bind, Option.pure_def, Option.bind_eq_some_iff,
    Option.some.injEq] at sent
  obtain ⟨_, _, _, _, _, _, rfl⟩ := sent
  rfl

theorem targets_of_copies {targets : List (String × Nat)} {copies : List Call}
    (made : List.Forall₂ (device.Copies memory copied) targets.zipIdx copies) :
    copies.map Call.target = targets := by
  have same : List.Forall₂ Eq (targets.zipIdx.map Prod.fst) (copies.map Call.target) := by
    rw [List.forall₂_map_left_iff, List.forall₂_map_right_iff]
    apply made.imp
    intro round call sent
    obtain ⟨_, _, isCall⟩ := Option.bind_eq_some_iff.mp sent
    exact (send_target isCall).symm
  rw [List.forall₂_eq_eq_eq, List.zipIdx_map_fst] at same
  exact same.symm

end Loops

theorem Multiplier.mem_outputs_iff (device : Multiplier) (chan : String) (i : Nat) :
    (chan, i) ∈ device.outputs ↔
      chan ∈ device.fOutChannelNames ∧ (device.fChannels.at? chan i).isSome := by
  have listed : (chan, i) ∈ device.subChannels chan ↔ (device.fChannels.at? chan i).isSome := by
    cases found : device.fChannels chan <;>
      simp [Multiplier.subChannels, DeviceChannels.at?, found]
  rw [← listed, Multiplier.outputs, List.mem_flatMap]
  constructor
  · rintro ⟨name, isName, member⟩
    obtain ⟨_, _, same⟩ := List.mem_map.mp member
    cases same
    exact ⟨isName, member⟩
  · rintro ⟨isName, member⟩
    exact ⟨chan, isName, member⟩

theorem Multiplier.outputs_nodup {device : Multiplier}
    (distinct : device.fOutChannelNames.Nodup) : device.outputs.Nodup := by
  rw [Multiplier.outputs, List.nodup_flatMap]
  constructor
  · intro name _
    exact List.nodup_range.map fun _ _ same => (Prod.mk.inj same).2
  · apply distinct.imp
    intro name other differ target member otherMember
    obtain ⟨_, _, rfl⟩ := List.mem_map.mp member
    obtain ⟨_, _, same⟩ := List.mem_map.mp otherMember
    exact differ (Prod.mk.inj same).1.symm

section Calls

variable {device : Multiplier} {memory : Nat → Option Int}

theorem Multiplier.Outputs.send_eq (ready : device.Outputs) {target : String × Nat}
    (output : target ∈ device.outputs) :
    ∃ channel : Channel Device.Socket, channel.fTransportType = device.fTransportFactory ∧
      channel.fTransportFactory = some device.fTransportFactory ∧
      ∀ memory arguments, device.send memory arguments target.1 target.2 =
        (channel.send memory arguments).map fun call =>
          ⟨target.1, target.2, device.fTransportFactory, call.arguments⟩ := by
  obtain ⟨chan, i⟩ := target
  obtain ⟨isName, present⟩ := (device.mem_outputs_iff chan i).mp output
  obtain ⟨channel, isChannel⟩ := Option.isSome_iff_exists.mp present
  obtain ⟨channels, isChannels, _, _, ofDevice⟩ := ready.channels chan isName
  have member : channel ∈ channels := by
    rw [DeviceChannels.at?, isChannels] at isChannel
    exact List.mem_of_getElem? isChannel
  obtain ⟨type, factory, socket, isSocket, sameTransport⟩ := ofDevice channel member
  refine ⟨channel, type, factory, ?_⟩
  intro memory arguments
  simp only [Multiplier.send, isChannel, isSocket, sameTransport, Option.bind_eq_bind,
    Option.bind_some, Option.pure_def]
  cases channel.send memory arguments <;> rfl

theorem Multiplier.copy_type {payload msgCopy : Arguments}
    (copied : device.copy memory payload = some msgCopy) :
    ∀ part ∈ msgCopy.messages, part.getType = device.fTransportFactory := by
  intro part member
  obtain ⟨_, _, _, isPart⟩ := check_mem copied member
  exact copyMessage_type isPart

theorem Multiplier.Outputs.copyTo_eq (ready : device.Outputs) {target : String × Nat}
    (output : target ∈ device.outputs) (memory : Nat → Option Int) (payload : Arguments) :
    device.copyTo memory payload target =
      (device.copy memory payload).map fun msgCopy =>
        ⟨target.1, target.2, device.fTransportFactory, msgCopy⟩ := by
  obtain ⟨channel, type, _, sends⟩ := ready.send_eq output
  rw [Multiplier.copyTo]
  cases copied : device.copy memory payload with
  | none => rfl
  | some msgCopy =>
      rw [Option.bind_eq_bind, Option.bind_some, sends,
        send_own (type ▸ Multiplier.copy_type copied)]
      rfl

end Calls

def Copyable (transport : Transport) (message : Message) : Prop :=
  message.getType = transport ∧ transport ≠ .ofi ∧ (message.object.AtZero → message.getSize = 0)

structure Forwardable (device : Multiplier) (input : Arguments) : Prop where
  copyable : 1 < device.outputs.length →
    ∀ message ∈ input.messages, Copyable device.fTransportFactory message
  accompanied : device.fTransportFactory = .shm → ¬ Unaccompanied input

/-- There is memory, and the counts of parts and of the bytes of nanomsg are held by their
types. -/
structure Within (device : Multiplier) (memory : Nat → Nat → Option Int) (input : Arguments) :
    Prop where
  plain : device.fTransportFactory ≠ .default
  supplied : ∀ n k, (memory n k).isSome
  few : input.messages.length < 2 ^ 31
  short : device.fTransportFactory = .nn →
    ∀ message ∈ input.messages, message.object.getData.length < 2 ^ 31

structure Delivered (device : Multiplier) (input : Arguments) (calls : List Call)
    (packets : List Packet) : Prop where
  once : ∀ chan i, chan ∈ device.fOutChannelNames → (device.fChannels.at? chan i).isSome →
    (calls.map Call.target).count (chan, i) = 1
  nowhere : ∀ chan i, ¬ (chan ∈ device.fOutChannelNames ∧ (device.fChannels.at? chan i).isSome) →
    (calls.map Call.target).count (chan, i) = 0
  carried : ∀ packet ∈ packets, packet.Carries input.isVector input.contents

def AllSent : List Call → List Packet → Prop :=
  List.Forall₂ fun call packet => Sent call.transport call.arguments packet

def Delivers (device : Multiplier) (memory : Nat → Nat → Option Int) (input : Arguments) : Prop :=
  ∃ calls, device.handleData memory input = some calls ∧
    ∀ packets, AllSent calls packets → Delivered device input calls packets

section Delivery

variable {device : Multiplier} {memory : Nat → Nat → Option Int} {input : Arguments}

theorem handleData_eq (few : input.messages.length < 2 ^ 31) :
    device.handleData memory input = device.multiply memory input input := by
  cases input with
  | msg payload => rfl
  | msgVec payload =>
      have length : payload.length < 2 ^ 31 := few
      have size : (toInt32 payload.length).toNat = payload.length := by
        rw [toInt32_of_lt length, Int.toNat_natCast]
      rw [Multiplier.handleData, Multiplier.handleMultipartData, size, List.take_length]

theorem blank_replaces {message copy : Message} (member : message ∈ input.messages)
    (accompanied : ¬ Unaccompanied input) (shared : message.getType = .shm)
    (empty : message.getSize = 0) (blank : copy.object = .shm .newMessage []) :
    Replaces input copy message := by
  have nothing : message.contents = [] := by
    rw [← List.length_eq_zero_iff, message.contents_length, empty]
  refine ⟨.inr ?_, ?_⟩
  · rw [blank]
    cases input with
    | msg original => exact ⟨rfl, rfl⟩
    | msgVec messages =>
        exact ⟨length_ne_one_of_accompanied member shared accompanied, rfl,
          fun full => absurd rfl full⟩
  · rw [nothing, Message.contents, Message.getSize, blank]
    rfl

theorem copy_forwards (within : Within device memory input) (received : input.IsReceived)
    (copyable : ∀ message ∈ input.messages, Copyable device.fTransportFactory message)
    (accompanied : device.fTransportFactory = .shm → ¬ Unaccompanied input) (n : Nat) :
    ∃ msgCopy, device.copy (memory n) input = some msgCopy ∧ Forwards input msgCopy := by
  have few := within.few
  apply check_forwards (by omega)
  intro k message member
  obtain ⟨handle, isHandle⟩ := Option.isSome_iff_exists.mp (within.supplied n k)
  obtain ⟨own, plain, zero⟩ := copyable message member
  have size : message.getType = .nn → message.getSize < 2 ^ 32 := by
    intro isNn
    have short := within.short (own ▸ isNn) message member
    have readable := message.readable
    rw [Message.getSize]
    omega
  obtain ⟨copy, copies, _, good⟩ :=
    copied_received (received message member) (own ▸ plain) size handle
  rw [own] at copies
  refine ⟨copy, by rw [isHandle]; exact copies, ?_⟩
  by_cases atZero : message.object.AtZero
  · rw [if_pos atZero] at good
    have shared := getType_of_atZero atZero
    exact blank_replaces member (accompanied (own.symm.trans shared)) shared (zero atZero) good
  · rw [if_neg atZero] at good
    exact ⟨.inl good.1, good.2⟩

theorem carries_of_sent {calls : List Call} {packets : List Packet}
    (forward : ∀ call ∈ calls, Forwards input call.arguments) (sent : AllSent calls packets) :
    ∀ packet ∈ packets, packet.Carries input.isVector input.contents := by
  induction sent with
  | nil => exact nofun
  | cons first _ ih =>
      obtain ⟨forwards, others⟩ := List.forall_mem_cons.mp forward
      exact List.forall_mem_cons.mpr ⟨forwards.carries first, ih others⟩

theorem delivered_of_forwards {calls : List Call} {packets : List Packet}
    (distinct : device.fOutChannelNames.Nodup) (targets : calls.map Call.target = device.outputs)
    (forward : ∀ call ∈ calls, Forwards input call.arguments) (sent : AllSent calls packets) :
    Delivered device input calls packets := by
  have counts := fun target => (Multiplier.outputs_nodup distinct).count (a := target)
  refine ⟨?_, ?_, carries_of_sent forward sent⟩
  · intro chan i isName isChannel
    rw [targets, counts, if_pos ((device.mem_outputs_iff chan i).mpr ⟨isName, isChannel⟩)]
  · intro chan i other
    rw [targets, counts, if_neg ((device.mem_outputs_iff chan i).not.mpr other)]

theorem exists_forall₂ {α β : Type} {related : α → β → Prop} {inputs : List α}
    (each : ∀ input ∈ inputs, ∃ result, related input result) :
    ∃ results, List.Forall₂ related inputs results := by
  induction inputs with
  | nil => exact ⟨[], .nil⟩
  | cons input inputs ih =>
      obtain ⟨first, others⟩ := List.forall_mem_cons.mp each
      obtain ⟨result, isResult⟩ := first
      obtain ⟨results, areResults⟩ := ih others
      exact ⟨result :: results, .cons isResult areResults⟩

theorem last_forwards (ready : device.Outputs) (within : Within device memory input)
    (received : input.IsReceived)
    (accompanied : device.fTransportFactory = .shm → ¬ Unaccompanied input)
    {target : String × Nat} (output : target ∈ device.outputs) (n : Nat) :
    ∃ call, device.send (memory n) input target.1 target.2 = some call ∧
      Forwards input call.arguments := by
  obtain ⟨channel, type, factory, sends⟩ := ready.send_eq output
  rw [← type] at factory
  have few := within.few
  obtain ⟨passed, sent, forwards⟩ := send_received factory (type ▸ within.plain)
    (within.supplied n) (by omega) received (type ▸ within.short) (type ▸ accompanied)
  refine ⟨⟨target.1, target.2, device.fTransportFactory, passed⟩, ?_, forwards⟩
  rw [sends, sent]
  rfl

theorem delivers_of_forwardable (ready : device.Outputs) (within : Within device memory input)
    (received : input.IsReceived) (forwardable : Forwardable device input) :
    Delivers device memory input := by
  obtain ⟨front, chan, i, isOutputs, handled⟩ := multiply_eq_some_iff ready memory input input
  have rounds : ∀ round ∈ front.zipIdx, ∃ call, Forwards input call.arguments ∧
      device.Copies memory input round call := by
    intro round member
    have listed := List.fst_mem_of_mem_zipIdx member
    have output : round.1 ∈ device.outputs := by
      rw [isOutputs]
      exact List.mem_append_left _ listed
    have several : 1 < device.outputs.length := by
      have positive := List.length_pos_of_mem listed
      rw [isOutputs, List.length_append, List.length_singleton]
      omega
    obtain ⟨msgCopy, copied, forwards⟩ := copy_forwards within received
      (forwardable.copyable several) forwardable.accompanied round.2
    refine ⟨⟨round.1.1, round.1.2, device.fTransportFactory, msgCopy⟩, forwards, ?_⟩
    rw [Multiplier.Copies, ready.copyTo_eq output, copied]
    rfl
  obtain ⟨copies, paired⟩ := exists_forall₂ rounds
  obtain ⟨forward, flipped⟩ := (List.forall₂_and_left _ _).mp paired.flip
  have made : List.Forall₂ (device.Copies memory input) front.zipIdx copies := flipped.flip
  obtain ⟨last, sentLast, forwardsLast⟩ := last_forwards ready within received
    forwardable.accompanied (by rw [isOutputs]; exact List.mem_append_right _ List.mem_cons_self)
    front.length
  refine ⟨copies ++ [last], ?_, ?_⟩
  · rw [handleData_eq within.few]
    exact (handled _).mpr ⟨copies, last, rfl, made, sentLast⟩
  · intro packets sent
    apply delivered_of_forwards ready.distinct _ _ sent
    · rw [List.map_append, targets_of_copies made, isOutputs, List.map_singleton,
        send_target sentLast]
    · intro call member
      rcases List.mem_append.mp member with copied | isLast
      · exact forward call copied
      · cases List.mem_singleton.mp isLast
        exact forwardsLast

theorem sent_of_mem {calls : List Call} {packets : List Packet} (sent : AllSent calls packets)
    {call : Call} (member : call ∈ calls) :
    ∃ packet ∈ packets, Sent call.transport call.arguments packet := by
  induction sent with
  | nil => cases member
  | @cons first packet _ _ isSent _ ih =>
      rcases List.mem_cons.mp member with rfl | later
      · exact ⟨packet, List.mem_cons_self, isSent⟩
      · obtain ⟨other, isOther, otherSent⟩ := ih later
        exact ⟨other, List.mem_cons_of_mem _ isOther, otherSent⟩

theorem own_of_copy {supply : Nat → Option Int} {payload msgCopy : Arguments}
    (copied : device.copy supply payload = some msgCopy) :
    ∀ message ∈ payload.messages, message.getType = device.fTransportFactory := by
  intro message member
  by_contra foreign
  have failed : device.copy supply payload = none :=
    check_fails member fun _ => copyMessage_foreign foreign
  cases copied.symm.trans failed

theorem copyable_of_copy {supply : Nat → Option Int} {payload msgCopy : Arguments}
    (copied : device.copy supply payload = some msgCopy) {message : Message}
    (member : message ∈ payload.messages) : device.fTransportFactory ≠ .ofi := by
  intro isOfi
  have failed : device.copy supply payload = none :=
    check_fails member fun _ => by rw [isOfi, copyMessage_ofi]
  cases copied.symm.trans failed

theorem copies_of_rounds (ready : device.Outputs) {targets : List (String × Nat)}
    (outputs : ∀ target ∈ targets, target ∈ device.outputs) {copies : List Call}
    (made : List.Forall₂ (device.Copies memory input) targets.zipIdx copies) :
    ∀ call ∈ copies, call.transport = device.fTransportFactory ∧
      ∃ n, device.copy (memory n) input = some call.arguments := by
  intro call member
  obtain ⟨round, isRound, sent⟩ := Options.mem_mapM (Options.mapM_eq_some_iff.mpr made) member
  have output := outputs round.1 (List.fst_mem_of_mem_zipIdx isRound)
  rw [ready.copyTo_eq output] at sent
  obtain ⟨msgCopy, copied, rfl⟩ := Option.map_eq_some_iff.mp sent
  exact ⟨rfl, round.2, copied⟩

theorem size_of_copied {n : Nat} {msgCopy : Arguments} {packet : Packet} {message : Message}
    (within : Within device memory input) (received : input.IsReceived)
    (copied : device.copy (memory n) input = some msgCopy) (member : message ∈ input.messages)
    (zero : message.object.AtZero) (sent : Sent .shm msgCopy packet)
    (carries : packet.Carries input.isVector input.contents) : message.getSize = 0 := by
  have own := own_of_copy copied message member
  have shared := getType_of_atZero zero
  obtain ⟨k, found⟩ := List.mem_iff_getElem?.mp member
  obtain ⟨handle, isHandle⟩ := Option.isSome_iff_exists.mp (within.supplied n k)
  obtain ⟨length, each⟩ := Arguments.check_each copied
  obtain ⟨copy, copies, _, blank⟩ := copied_received (received message member)
    (fun isOfi => by cases shared.symm.trans isOfi) (fun isNn => by cases shared.symm.trans isNn)
    handle
  rw [if_pos zero] at blank
  have place : msgCopy.messages[k]? = some copy := by
    rw [each k, found, Option.bind_some, isHandle, ← own, copies]
  have parts : input.contents.length = msgCopy.messages.length := by
    rw [Arguments.contents, List.length_map, length]
  have arrived := sent_blank blank place sent carries parts
  rw [Arguments.contents, List.getElem?_map, found, Option.map_some, Option.some.injEq] at arrived
  rw [← message.contents_length, arrived, List.length_nil]

theorem unaccompanied_lost {packet : Packet} (received : input.IsReceived)
    (unaccompanied : Unaccompanied input) (sent : Sent .shm input packet) :
    ¬ packet.Carries input.isVector input.contents := by
  obtain ⟨message, rfl, shared⟩ := unaccompanied
  have origin := received message (List.mem_singleton_self message)
  have unfilled : ∃ object chunk, message.object = .shm object chunk ∧
      object.fMessage.filled = false := by
    unfold Message.getType at shared
    generalize isObject : message.object = object at origin shared
    cases origin with
    | shmPart header chunk => exact ⟨_, _, rfl, rfl⟩
    | zmq | nnPart | ofi => cases shared
  obtain ⟨object, chunk, isObject, isUnfilled⟩ := unfilled
  rw [sent_unfilled isObject isUnfilled rfl sent]
  rintro (none | ⟨vector, _⟩)
  · cases none
  · cases vector

theorem carried_of_delivered {calls : List Call} (few : input.messages.length < 2 ^ 31)
    (shared : device.fTransportFactory = .shm)
    (own : ∀ message ∈ input.messages, message.getType = device.fTransportFactory)
    (received : input.IsReceived)
    (made : ∀ call ∈ calls, call.transport = device.fTransportFactory ∧
      (call.arguments = input ∨ ∃ n, device.copy (memory n) input = some call.arguments))
    (delivered : ∀ packets, AllSent calls packets → Delivered device input calls packets) :
    ∀ call ∈ calls, ∃ packet, Sent .shm call.arguments packet ∧
      packet.Carries input.isVector input.contents := by
  have sendable : ∀ call ∈ calls, ∃ packet, Sent call.transport call.arguments packet := by
    intro call member
    obtain ⟨transport, passed⟩ := made call member
    rw [transport, shared]
    rcases passed with isInput | ⟨n, copied⟩
    · rw [isInput]
      apply can_send (by omega)
      intro part isPart
      exact received_created (received part isPart) ((own part isPart).trans shared)
    · have length := (Arguments.check_each copied).1
      apply can_send (by omega)
      intro part isPart
      obtain ⟨_, _, _, isCopy⟩ := check_mem copied isPart
      rw [shared] at isCopy
      exact copyMessage_created isCopy
  obtain ⟨packets, sent⟩ := exists_forall₂ sendable
  intro call member
  obtain ⟨packet, isPacket, isSent⟩ := sent_of_mem sent member
  rw [(made call member).1, shared] at isSent
  exact ⟨packet, isSent, (delivered packets sent).carried packet isPacket⟩

theorem calls_of_multiply (ready : device.Outputs) {calls : List Call}
    (handled : device.multiply memory input input = some calls) :
    ∃ copies last, calls = copies ++ [last] ∧ calls.length = device.outputs.length ∧
      (∀ call ∈ copies, call.transport = device.fTransportFactory ∧
        ∃ n, device.copy (memory n) input = some call.arguments) ∧
      ((∀ message ∈ input.messages, message.getType = device.fTransportFactory) →
        last.transport = device.fTransportFactory ∧ last.arguments = input) := by
  obtain ⟨front, chan, i, isOutputs, iff⟩ := multiply_eq_some_iff ready memory input input
  obtain ⟨copies, last, isCalls, rounds, sentLast⟩ := (iff calls).mp handled
  have copied : ∀ target ∈ front, target ∈ device.outputs := by
    intro target member
    rw [isOutputs]
    exact List.mem_append_left _ member
  have output : (chan, i) ∈ device.outputs := by
    rw [isOutputs]
    exact List.mem_append_right _ List.mem_cons_self
  obtain ⟨channel, type, _, sends⟩ := ready.send_eq output
  refine ⟨copies, last, isCalls, ?_, copies_of_rounds ready copied rounds, ?_⟩
  · have length := rounds.length_eq
    rw [List.length_zipIdx] at length
    rw [isCalls, isOutputs, List.length_append, List.length_append, length]
    rfl
  · intro own
    rw [sends, send_own (type ▸ own)] at sentLast
    cases sentLast
    exact ⟨rfl, rfl⟩

theorem forwardable_of_delivers (ready : device.Outputs) (within : Within device memory input)
    (received : input.IsReceived) (delivers : Delivers device memory input) :
    Forwardable device input := by
  obtain ⟨calls, handled, delivered⟩ := delivers
  rw [handleData_eq within.few] at handled
  obtain ⟨copies, last, isCalls, length, isCopy, isLast⟩ := calls_of_multiply ready handled
  have carried (shared : device.fTransportFactory = .shm)
      (own : ∀ message ∈ input.messages, message.getType = device.fTransportFactory) :=
    carried_of_delivered within.few shared own received (fun call member => by
      rw [isCalls] at member
      rcases List.mem_append.mp member with copied | atEnd
      · exact ⟨(isCopy call copied).1, .inr (isCopy call copied).2⟩
      · rw [List.mem_singleton.mp atEnd]
        exact ⟨(isLast own).1, .inl (isLast own).2⟩) delivered
  refine ⟨?_, ?_⟩
  · intro several message member
    have occupied : 0 < copies.length := by
      rw [← length, isCalls, List.length_append, List.length_singleton] at several
      omega
    obtain ⟨call, first⟩ := List.exists_mem_of_length_pos occupied
    obtain ⟨_, n, copied⟩ := isCopy call first
    have own := own_of_copy copied
    refine ⟨own message member, copyable_of_copy copied member, ?_⟩
    intro zero
    have shared := (own message member).symm.trans (getType_of_atZero zero)
    have isCall : call ∈ calls := by
      rw [isCalls]
      exact List.mem_append_left _ first
    obtain ⟨packet, sent, carries⟩ := carried shared own call isCall
    exact size_of_copied within received copied member zero sent carries
  · intro shared unaccompanied
    have own : ∀ message ∈ input.messages, message.getType = device.fTransportFactory := by
      obtain ⟨message, rfl, isShared⟩ := unaccompanied
      intro other member
      rw [List.mem_singleton.mp member, isShared, shared]
    have isCall : last ∈ calls := by
      rw [isCalls]
      exact List.mem_append_right _ List.mem_cons_self
    obtain ⟨packet, sent, carries⟩ := carried shared own last isCall
    rw [(isLast own).2] at sent
    exact unaccompanied_lost received unaccompanied sent carries

end Delivery

/-- If all sends succeed, every output sub-channel gets the input exactly once, with all its parts
and bytes, exactly if the input can be copied, as far as there are copies, and is no single part
that a vector `Receive` of shared memory has made.  Parts of another transport than that of the
device and parts at the handle 0 of a region cannot be copied, and none of ofi. -/
theorem multiplier_delivers_iff {device : Multiplier} (ready : device.Outputs)
    {memory : Nat → Nat → Option Int} {input : Arguments} (received : input.IsReceived)
    (within : Within device memory input) :
    Delivers device memory input ↔ Forwardable device input :=
  ⟨forwardable_of_delivers ready within received, delivers_of_forwardable ready within received⟩

def twoOutputs (transport : Transport) : Multiplier where
  fTransportFactory := transport
  fChannels name :=
    if name = "data" then
      some (List.replicate 2 (.ofFactory "data" "push" transport ⟨transport, []⟩))
    else none
  fOutChannelNames := ["data"]

theorem twoOutputs_ready (transport : Transport) : (twoOutputs transport).Outputs where
  nonempty := by simp [twoOutputs]
  distinct := List.nodup_singleton _
  channels := by
    intro name isName
    cases List.mem_singleton.mp isName
    refine ⟨_, rfl, by simp, by simp, ?_⟩
    intro channel member
    cases List.eq_of_mem_replicate member
    exact ⟨rfl, rfl, _, rfl, rfl⟩

def receivedPart : Message := ⟨.shm (.ofHeader ⟨2, 0, 64, 0⟩) [1, 2], by decide⟩

def regionObject : MessageSHM :=
  { MessageSHM.newMessage.adopt ⟨1, 5, 0, 0⟩ with fMessage := ⟨true, ⟨1, 5, 0, 0⟩⟩ }

def regionMessage : Message := ⟨.shm regionObject [7], by decide⟩

def copiedPart : Message := ⟨.shm (.ofSize 2 (some 128)) [1, 2], by decide⟩

def blankMessage : Message := ⟨.shm .newMessage [], by decide⟩

theorem receivedPart_received : Received false receivedPart.object := .shmPart _ _

theorem regionMessage_received : Received true regionMessage.object :=
  @Received.shmMsg ⟨0, 0, 0, 0⟩ [⟨1, 5, 0, 0⟩] _ rfl _

theorem two_parts_multiplied :
    Delivers (twoOutputs .shm) (fun _ _ => some 128) (.msgVec [receivedPart, receivedPart]) := by
  have received : (Arguments.msgVec [receivedPart, receivedPart]).IsReceived := by
    intro message member
    cases List.eq_of_mem_replicate (n := 2) member
    exact receivedPart_received
  apply (multiplier_delivers_iff (twoOutputs_ready .shm) received ?_).mpr
  · refine ⟨?_, ?_⟩
    · intro _ message member
      cases List.eq_of_mem_replicate (n := 2) member
      exact ⟨rfl, nofun, fun zero => by cases zero⟩
    · rintro _ ⟨message, one, _⟩
      cases one
  · exact ⟨by decide, fun _ _ => rfl, by decide, fun isNn => by cases isNn⟩

/-- Of a single part the last sub-channel gets nothing, and of a message at the start of a region
the first one gets nothing, and these sends return 0. -/
theorem single_part_forwarded_empty :
    (twoOutputs .shm).Outputs ∧ (Arguments.msgVec [receivedPart]).IsReceived ∧
    (Arguments.msg regionMessage).IsReceived ∧
    (∃ calls, (twoOutputs .shm).handleMultipartData (fun _ _ => some 128) [receivedPart] =
        some calls ∧
      AllSent calls [.chunks [some [1, 2]], .chunks []] ∧
      ¬ Delivered (twoOutputs .shm) (.msgVec [receivedPart]) calls
        [.chunks [some [1, 2]], .chunks []]) ∧
    (∃ calls, (twoOutputs .shm).handleSingleData (fun _ _ => some 128) regionMessage =
        some calls ∧
      AllSent calls [.chunks [], .chunks [some [7]]] ∧
      ¬ Delivered (twoOutputs .shm) (.msg regionMessage) calls
        [.chunks [], .chunks [some [7]]]) ∧
    (Shmem.sendImpl [.ofHeader ⟨2, 0, 64, 0⟩] .accepted).map Shmem.Sending.result = some 0 ∧
    (MessageSHM.newMessage.sendImpl .accepted).result = 0 := by
  refine ⟨twoOutputs_ready .shm, ?_, ?_, ?_, ?_, by decide, by decide⟩
  · intro message member
    cases List.mem_singleton.mp member
    exact receivedPart_received
  · intro message member
    cases List.mem_singleton.mp member
    exact regionMessage_received
  · refine ⟨[⟨"data", 0, .shm, .msgVec [copiedPart]⟩, ⟨"data", 1, .shm, .msgVec [receivedPart]⟩],
      by decide, ?_, ?_⟩
    · exact .cons (@Sent.shmMsgVec _ [(.ofSize 2 (some 128), [1, 2])] .accepted _ [⟨2, 0, 128, 0⟩]
          (by decide) rfl rfl rfl)
        (.cons (@Sent.shmMsgVec _ [(_, _)] .accepted _ [] (by decide) rfl rfl rfl) .nil)
    · intro delivered
      rcases delivered.carried (.chunks []) (by simp) with none | ⟨vector, _⟩
      · cases none
      · cases vector
  · refine ⟨[⟨"data", 0, .shm, .msg blankMessage⟩, ⟨"data", 1, .shm, .msg regionMessage⟩],
      by decide, ?_, ?_⟩
    · exact .cons (@Sent.shmMsg _ _ _ .accepted [] rfl rfl)
        (.cons (@Sent.shmMsg _ regionObject [7] .accepted [⟨1, 5, 0, 0⟩] rfl rfl) .nil)
    · intro delivered
      rcases delivered.carried (.chunks []) (by simp) with none | ⟨_, _, empty⟩
      · cases none
      · cases empty

end FairMQ.Devices
