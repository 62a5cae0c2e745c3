import FairMQ.Data.MachineInt
import FairMQ.Data.MsgPack
import FairMQ.Transports.Zeromq

namespace FairMQ.Nanomsg

open FairMQ.Data FairMQ.Data.MsgPack
open FairMQ.Zeromq (Transfer)

/-- What `nn_send` or `nn_recv` comes back with.  After `ETIMEDOUT` the socket reads
`fInterrupted`. -/
inductive Outcome where
  | accepted
  | timedOut (interrupted : Bool)
  | again
  | term
  | failed
deriving DecidableEq, Repr

/-- What others see of a send: the data nanomsg has taken and the calls of region
callbacks, in their order. -/
inductive Event where
  | accepted (payload : List UInt8)
  | callback (region : Nat) (buffer : List UInt8) (size hint : Nat)
deriving DecidableEq, Repr

/-- `fMessage` is given by the bytes of its chunk, or of its region from there on. -/
structure MessageNN where
  fMessage : List UInt8
  fSize : Nat
  fHint : Nat
  fReceiving : Bool
  fRegionPtr : Option Nat
deriving DecidableEq, Repr

namespace MessageNN

def new : MessageNN := ⟨[], 0, 0, false, none⟩

def filled (bytes : List UInt8) : MessageNN := ⟨bytes, bytes.length, 0, false, none⟩

def contents (message : MessageNN) : List UInt8 :=
  message.fMessage.take message.fSize

def callback (message : MessageNN) : List Event :=
  match message.fRegionPtr with
  | none => []
  | some region => [.callback region message.fMessage message.fSize message.fHint]

/-- `NN_MSG` sends the whole chunk, a region is copied. -/
def payload (message : MessageNN) : List UInt8 :=
  match message.fRegionPtr with
  | none => message.fMessage
  | some _ => message.contents

/-- `Copy` from another object; without memory the message is left without a chunk. -/
def copy (message source : MessageNN) (allocated : Bool) : MessageNN :=
  if allocated then { message with fMessage := source.contents, fSize := source.fSize }
  else { message with fMessage := [] }

/-- `pack_bin` and `pack_bin_body`, whose lengths are of type `uint32_t`. -/
def pack (message : MessageNN) : List UInt8 :=
  binHeader (message.fSize % 2 ^ 32) ++ message.fMessage.take (message.fSize % 2 ^ 32)

end MessageNN

def count (bytes : List UInt8) : Int :=
  toInt32 bytes.length

structure Sending where
  messages : List MessageNN
  events : List Event
  result : Int
deriving DecidableEq, Repr

/-- The loop of `SendImpl` for one message; the callback follows every `nn_send`. -/
def sendLoop (transfer : Transfer) (message : MessageNN) : List Event → Int → List Outcome →
    Option Sending
  | _, _, [] => none
  | events, _, .accepted :: _ =>
      some ⟨[{ message with fReceiving := false }],
        events ++ .accepted message.payload :: message.callback, count message.payload⟩
  | events, elapsed, .timedOut interrupted :: outcomes =>
      match transfer.retry elapsed interrupted with
      | .again elapsed => sendLoop transfer message (events ++ message.callback) elapsed outcomes
      | .giveUp => some ⟨[message], events ++ message.callback, -2⟩
      | .overflow => none
  | events, _, .again :: _ => some ⟨[message], events ++ message.callback, -2⟩
  | events, _, .term :: _ => some ⟨[message], events ++ message.callback, -1⟩
  | events, _, .failed :: _ => some ⟨[message], events ++ message.callback, -1⟩

def MessageNN.sendImpl (message : MessageNN) (transfer : Transfer) (outcomes : List Outcome) :
    Option Sending :=
  sendLoop transfer message [] 0 outcomes

def packed (messages : List MessageNN) : List UInt8 :=
  messages.flatMap MessageNN.pack

def sendPacked (transfer : Transfer) (messages : List MessageNN) (events : List Event)
    (buffer : List UInt8) : Int → List Outcome → Option Sending
  | _, [] => none
  | _, .accepted :: _ => some ⟨messages, events ++ [.accepted buffer], count buffer⟩
  | elapsed, .timedOut interrupted :: outcomes =>
      match transfer.retry elapsed interrupted with
      | .again elapsed => sendPacked transfer messages events buffer elapsed outcomes
      | .giveUp => some ⟨messages, events, -2⟩
      | .overflow => none
  | _, .again :: _ => some ⟨messages, events, -2⟩
  | _, .term :: _ => some ⟨messages, events, -1⟩
  | _, .failed :: _ => some ⟨messages, events, -1⟩

/-- `SendImpl` for a vector of fewer than `2 ^ 32` messages, which its `unsigned int` counts;
the callbacks come with the packing. -/
def sendImpl (transfer : Transfer) (outcomes : List Outcome) (messages : List MessageNN) :
    Option Sending :=
  sendPacked transfer (messages.map fun message => { message with fReceiving := false })
    (messages.flatMap MessageNN.callback) (packed messages) 0 outcomes

/-- `ReceiveImpl` for one message: the message and the result; `payload` is what
nanomsg delivers. -/
def receiveImpl (transfer : Transfer) (payload : List UInt8) (message : MessageNN) :
    Int → List Outcome → Option (MessageNN × Int)
  | _, [] => none
  | _, .accepted :: _ =>
      some ({ message with
        fMessage := payload, fSize := toUint64 (count payload), fReceiving := true },
        count payload)
  | elapsed, .timedOut interrupted :: outcomes =>
      match transfer.retry elapsed interrupted with
      | .again elapsed => receiveImpl transfer payload message elapsed outcomes
      | .giveUp => some (message, -2)
      | .overflow => none
  | _, .again :: _ => some (message, -2)
  | _, .term :: _ => some (message, -1)
  | _, .failed :: _ => some (message, -1)

/-- What a vector `Receive` changes: the vector of the caller and the counters of the
socket, which are of type `unsigned long`. -/
structure Inbox where
  msgVec : List MessageNN
  fBytesRx : Nat
  fMessagesRx : Nat
deriving DecidableEq, Repr

/-- The end of a vector `Receive`.  `taken` says that nanomsg has handed a message over;
without a result an exception of msgpack has left the call. -/
structure Receiving where
  inbox : Inbox
  taken : Bool
  result : Option Int
deriving DecidableEq, Repr

def MessageNN.received (bytes : List UInt8) : MessageNN :=
  { filled bytes with fReceiving := true }

/-- `unpack` at an offset and the conversion to bytes, with the offset behind the object. -/
def unpackAt (unpacker : Unpacker) (buffer : List UInt8) (offset : Nat) :
    Option (List UInt8 × Nat) :=
  (unpacker.unpack (buffer.drop offset)).map fun object =>
    (object.1, buffer.length - object.2.length)

/-- The loop over the objects of a buffer, for at most `rounds` rounds; the flag is false
if an exception has ended it. -/
def unpackParts (unpacker : Unpacker) (buffer : List UInt8) :
    Nat → Nat → List MessageNN → Option (List MessageNN × Bool)
  | 0, offset, msgVec => if offset = buffer.length then some (msgVec, true) else none
  | rounds + 1, offset, msgVec =>
      if offset = buffer.length then some (msgVec, true)
      else
        match unpackAt unpacker buffer offset with
        | none => some (msgVec, false)
        | some (bytes, offset) =>
            unpackParts unpacker buffer rounds offset (msgVec ++ [.received bytes])

/-- The statistics of a received buffer come before its parts. -/
def Inbox.counted (inbox : Inbox) (nbytes : Nat) (msgVec : List MessageNN) : Inbox where
  msgVec := msgVec
  fBytesRx := (inbox.fBytesRx + nbytes) % 2 ^ 64
  fMessagesRx := (inbox.fMessagesRx + 1) % 2 ^ 64

/-- What `ReceiveImpl` does with a buffer of `nbytes` bytes; an object has at least one
byte, which bounds the rounds. -/
def Inbox.read (unpacker : Unpacker) (inbox : Inbox) (buffer : List UInt8) : Option Receiving :=
  (unpackParts unpacker buffer buffer.length 0 inbox.msgVec).map fun parts =>
    ⟨inbox.counted buffer.length parts.1, true, if parts.2 then some buffer.length else none⟩

def reported (payload : List UInt8) : List UInt8 :=
  payload.take (count payload).toNat

/-- A size that is negative as an `int` is taken for an error. -/
def Inbox.take (unpacker : Unpacker) (inbox : Inbox) (payload : List UInt8) : Option Receiving :=
  if 0 ≤ count payload then inbox.read unpacker (reported payload)
  else some ⟨inbox, true, some (count payload)⟩

/-- `ReceiveImpl` for a vector of messages; `payload` is what nanomsg delivers. -/
def receiveVector (unpacker : Unpacker) (transfer : Transfer) (payload : List UInt8)
    (inbox : Inbox) : Int → List Outcome → Option Receiving
  | _, [] => none
  | _, .accepted :: _ => inbox.take unpacker payload
  | elapsed, .timedOut interrupted :: outcomes =>
      match transfer.retry elapsed interrupted with
      | .again elapsed => receiveVector unpacker transfer payload inbox elapsed outcomes
      | .giveUp => some ⟨inbox, false, some (-2)⟩
      | .overflow => none
  | _, .again :: _ => some ⟨inbox, false, some (-2)⟩
  | _, .term :: _ => some ⟨inbox, false, some (-1)⟩
  | _, .failed :: _ => some ⟨inbox, false, some (-1)⟩

def headerBytes (payloads : List (List UInt8)) : Nat :=
  (payloads.map fun payload => (binHeader (payload.length % 2 ^ 32)).length).sum

section Send

variable {transfer : Transfer} {outcomes : List Outcome} {sending : Sending}

theorem sendPacked_accepted {messages : List MessageNN} {events : List Event}
    {buffer payload : List UInt8} {elapsed : Int}
    (done : sendPacked transfer messages events buffer elapsed outcomes = some sending)
    (untaken : Event.accepted payload ∉ events) (taken : .accepted payload ∈ sending.events) :
    payload = buffer ∧ sending.result = count buffer := by
  induction outcomes generalizing elapsed with
  | nil => cases done
  | cons outcome outcomes ih =>
      cases outcome with
      | accepted =>
          cases done
          simpa [untaken] using taken
      | timedOut interrupted =>
          simp only [sendPacked] at done
          split at done
          · exact ih done
          · cases done
            contradiction
          · cases done
      | again =>
          cases done
          contradiction
      | term =>
          cases done
          contradiction
      | failed =>
          cases done
          contradiction

theorem callbacks_untaken (messages : List MessageNN) (payload : List UInt8) :
    Event.accepted payload ∉ messages.flatMap MessageNN.callback := by
  intro member
  obtain ⟨message, _, called⟩ := List.mem_flatMap.mp member
  unfold MessageNN.callback at called
  split at called
  · cases called
  · cases List.mem_singleton.mp called

theorem sendImpl_taken {messages : List MessageNN} {payload : List UInt8}
    (done : sendImpl transfer outcomes messages = some sending)
    (taken : .accepted payload ∈ sending.events) :
    payload = packed messages ∧ sending.result = count (packed messages) :=
  sendPacked_accepted done (callbacks_untaken messages payload) taken

theorem sendLoop_accepted {message : MessageNN} {events : List Event} {payload : List UInt8}
    {elapsed : Int} (done : sendLoop transfer message events elapsed outcomes = some sending)
    (untaken : Event.accepted payload ∉ events) (taken : .accepted payload ∈ sending.events) :
    payload = message.payload := by
  have called : Event.accepted payload ∉ message.callback := by
    simpa using callbacks_untaken [message] payload
  have neither : Event.accepted payload ∉ events ++ message.callback := by
    simp [untaken, called]
  induction outcomes generalizing events elapsed with
  | nil => cases done
  | cons outcome outcomes ih =>
      cases outcome with
      | accepted =>
          cases done
          simpa [untaken, called] using taken
      | timedOut interrupted =>
          simp only [sendLoop] at done
          split at done
          · exact ih done neither (by simp [untaken, called])
          · cases done
            contradiction
          · cases done
      | again | term | failed =>
          cases done
          contradiction

theorem MessageNN.sendImpl_taken (message : MessageNN) {payload : List UInt8}
    (done : message.sendImpl transfer outcomes = some sending)
    (taken : .accepted payload ∈ sending.events) : payload = message.payload :=
  sendLoop_accepted done List.not_mem_nil taken

theorem length_packed_mod (payloads : List (List UInt8)) :
    (packed (payloads.map .filled)).length % 2 ^ 32 =
      (headerBytes payloads + (payloads.map List.length).sum) % 2 ^ 32 := by
  induction payloads with
  | nil => rfl
  | cons payload payloads ih =>
      have first : (MessageNN.filled payload).pack.length =
          (binHeader (payload.length % 2 ^ 32)).length + payload.length % 2 ^ 32 := by
        have short := Nat.mod_le payload.length (2 ^ 32)
        simp only [MessageNN.pack, MessageNN.filled, List.length_append, List.length_take]
        omega
      simp only [packed, headerBytes, List.map_cons, List.flatMap_cons, List.length_append,
        List.sum_cons, first] at ih ⊢
      omega

end Send

section Receive

variable {unpacker : Unpacker} {transfer : Transfer} {outcomes : List Outcome}
  {inbox : Inbox} {receiving : Receiving} {payload : List UInt8}

theorem receiveImpl_success {message after : MessageNN} {elapsed result : Int}
    (done : receiveImpl transfer payload message elapsed outcomes = some (after, result))
    (success : 0 ≤ result) :
    after = { message with
      fMessage := payload, fSize := toUint64 (count payload), fReceiving := true } := by
  induction outcomes generalizing elapsed with
  | nil => cases done
  | cons outcome outcomes ih =>
      cases outcome with
      | accepted =>
          cases done
          rfl
      | timedOut interrupted =>
          simp only [receiveImpl] at done
          split at done
          · exact ih done
          · cases done
            simp at success
          · cases done
      | again | term | failed =>
          cases done
          simp at success

theorem unpackParts_eq {rest : List UInt8} {bodies : List (List UInt8)} {whole : Bool}
    (reads : unpacker.Reads rest bodies whole) (front : List UInt8) {rounds : Nat}
    (enough : rest.length ≤ rounds) (msgVec : List MessageNN) :
    unpackParts unpacker (front ++ rest) rounds front.length msgVec =
      some (msgVec ++ bodies.map .received, whole) := by
  induction reads generalizing front rounds msgVec with
  | finished => cases rounds <;> simp [unpackParts]
  | @stuck bytes nonempty fails =>
      have more := List.length_pos_iff.mpr nonempty
      cases rounds with
      | zero => omega
      | succ rounds =>
          have unfinished : front.length ≠ (front ++ bytes).length := by
            rw [List.length_append]
            omega
          have failed : unpackAt unpacker (front ++ bytes) front.length = none := by
            simp [unpackAt, fails]
          simp only [unpackParts, if_neg unfinished, failed, List.map_nil, List.append_nil]
  | @cons bytes body rest bodies whole first others ih =>
      have shorter := Unpacker.unpack_shorter first
      obtain ⟨object, _, isBytes⟩ := unpacker.consumes first
      cases rounds with
      | zero => omega
      | succ rounds =>
          have unfinished : front.length ≠ (front ++ bytes).length := by
            rw [List.length_append]
            omega
          have unpacked : unpackAt unpacker (front ++ bytes) front.length =
              some (body, (front ++ object).length) := by
            simp only [unpackAt, List.drop_left, first, Option.map_some]
            rw [isBytes, ← List.append_assoc, List.length_append, Nat.add_sub_cancel]
          simp only [unpackParts, if_neg unfinished, unpacked]
          rw [isBytes, ← List.append_assoc, ih (front ++ object) (by omega)]
          simp

theorem reported_of_short (short : payload.length < 2 ^ 31) : reported payload = payload := by
  have size : count payload = payload.length := toInt32_of_lt short
  rw [reported, size, Int.toNat_natCast, List.take_length]

theorem Inbox.read_eq (inbox : Inbox) {buffer : List UInt8} {bodies : List (List UInt8)}
    {whole : Bool} (reads : unpacker.Reads buffer bodies whole) :
    inbox.read unpacker buffer =
      some ⟨inbox.counted buffer.length (inbox.msgVec ++ bodies.map .received), true,
        if whole then some buffer.length else none⟩ := by
  have unpacked := unpackParts_eq reads [] (Nat.le_refl _) inbox.msgVec
  simp only [List.nil_append, List.length_nil] at unpacked
  simp only [Inbox.read, unpacked, Option.map_some]

theorem receiveVector_taken {elapsed : Int}
    (done : receiveVector unpacker transfer payload inbox elapsed outcomes = some receiving)
    (taken : receiving.taken = true) : inbox.take unpacker payload = some receiving := by
  induction outcomes generalizing elapsed with
  | nil => cases done
  | cons outcome outcomes ih =>
      cases outcome with
      | accepted => exact done
      | timedOut interrupted =>
          simp only [receiveVector] at done
          split at done
          · exact ih done
          · cases done
            cases taken
          · cases done
      | again | term | failed =>
          cases done
          cases taken

end Receive

structure MessageNN.Packable (message : MessageNN) : Prop where
  whole : message.fSize ≤ message.fMessage.length
  short : message.fSize < 2 ^ 32

theorem reads_packed (unpacker : Unpacker) {messages : List MessageNN}
    (packable : ∀ message ∈ messages, message.Packable) :
    unpacker.Reads (packed messages) (messages.map MessageNN.contents) true := by
  induction messages with
  | nil => exact .finished
  | cons message messages ih =>
      obtain ⟨whole, short⟩ := packable message List.mem_cons_self
      have size : message.contents.length = message.fSize := by
        simp [MessageNN.contents, whole]
      have first := unpacker.binary (by rwa [size] : message.contents.length < 2 ^ 32)
        (packed messages)
      rw [size] at first
      have isPacked : packed (message :: messages) =
          binHeader message.fSize ++ message.contents ++ packed messages := by
        simp only [packed, List.flatMap_cons, MessageNN.pack, Nat.mod_eq_of_lt short,
          MessageNN.contents]
      rw [isPacked]
      exact .cons first (ih fun other member => packable other (List.mem_cons_of_mem _ member))

/-- What a vector `Send` has packed, a vector `Receive` appends to its vector part by part,
whatever msgpack library does the reading. -/
theorem packed_parts_received (unpacker : Unpacker) {messages : List MessageNN}
    (packable : ∀ message ∈ messages, message.Packable)
    (short : (packed messages).length < 2 ^ 31) {transfer : Transfer} {outcomes : List Outcome}
    {sending : Sending} {payload : List UInt8}
    (sent : sendImpl transfer outcomes messages = some sending)
    (accepted : .accepted payload ∈ sending.events) (inbox : Inbox) (receiver : Transfer) :
    (∃ receiving, receiveVector unpacker receiver payload inbox 0 [.accepted] = some receiving ∧
      receiving.taken = true) ∧
    ∀ answers receiving,
      receiveVector unpacker receiver payload inbox 0 answers = some receiving →
      receiving.taken = true →
        receiving.result = some sending.result ∧
        receiving.inbox.msgVec =
          inbox.msgVec ++ messages.map fun message => .received message.contents := by
  obtain ⟨isPayload, isResult⟩ := sendImpl_taken sent accepted
  subst isPayload
  have size : count (packed messages) = (packed messages).length := toInt32_of_lt short
  have all := reported_of_short short
  have ends := inbox.read_eq (reads_packed unpacker packable)
  rw [← all] at ends
  have takes : inbox.take unpacker (packed messages) = inbox.read unpacker _ :=
    if_pos (by omega)
  rw [ends] at takes
  refine ⟨⟨_, takes, rfl⟩, ?_⟩
  intro answers receiving done taken
  have received := receiveVector_taken done taken
  rw [takes] at received
  cases received
  rw [isResult, size, all]
  exact ⟨rfl, by simp [Inbox.counted]⟩

theorem three_parts_received :
    ∃ receiving, receiveVector bytesUnpacker ⟨false, 0, 100⟩ [0xc4, 2, 7, 8, 0xc4, 0, 0xc4, 1, 9]
        ⟨[.filled [1]], 0, 0⟩ 0 [.accepted] = some receiving ∧
      receiving.inbox.msgVec.map MessageNN.contents = [[1], [7, 8], [], [9]] := by
  have packable : ∀ message ∈ [[7, 8], [], [9]].map MessageNN.filled, message.Packable := by
    intro message member
    obtain ⟨bytes, known, rfl⟩ := List.mem_map.mp member
    refine ⟨Nat.le_refl _, ?_⟩
    simp only [List.mem_cons, List.not_mem_nil, or_false] at known
    rcases known with rfl | rfl | rfl <;> decide
  obtain ⟨⟨receiving, done, taken⟩, exactly⟩ :=
    packed_parts_received bytesUnpacker packable (by decide)
      (rfl : sendImpl ⟨false, 0, 100⟩ [.accepted] _ = some _)
      (by decide : Event.accepted [0xc4, 2, 7, 8, 0xc4, 0, 0xc4, 1, 9] ∈ _) ⟨[.filled [1]], 0, 0⟩
      ⟨false, 0, 100⟩
  refine ⟨receiving, done, ?_⟩
  rw [(exactly _ _ done taken).2]
  decide

end FairMQ.Nanomsg
