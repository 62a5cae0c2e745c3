import FairMQ.Data.Keys
import FairMQ.Data.TransitionSystem
import FairMQ.Data.Writes
import Mathlib.Data.List.Basic
import Mathlib.Data.List.Nodup
import Mathlib.Logic.Function.Basic

namespace FairMQ.Options

open FairMQ.Data

/-! # `FairMQProgOptions`: the channel map and the variable map

The configuration of the channels is stored twice: as fields of the channels in
`fFairMQChannelMap`, and in `fVarMap` under the keys `chans.<name>.<index>.<member>`.
`UpdateChannelMap` writes the second from the first and registers the keys in
`fChannelKeyMap`; `SetValue` writes `fVarMap` and goes to the channel through the
registered key. -/

inductive Transport where
  | default | zmq | nn | shm | ofi
deriving DecidableEq

def transportTypes : String → Option Transport
  | "default" => some .default
  | "zeromq" => some .zmq
  | "nanomsg" => some .nn
  | "shmem" => some .shm
  | "ofi" => some .ofi
  | _ => none

def transportNames : Transport → String
  | .default => "default"
  | .zmq => "zeromq"
  | .nn => "nanomsg"
  | .shm => "shmem"
  | .ofi => "ofi"

theorem transportNames_of_types {name : String} {transport : Transport}
    (known : transportTypes name = some transport) : transportNames transport = name := by
  unfold transportTypes at known
  split at known <;> cases known <;> rfl

/-- The configured fields of a channel and the flags its updates write. -/
structure FairMQChannel where
  fType : String := "unspecified"
  fMethod : String := "unspecified"
  fAddress : String := "unspecified"
  fTransportType : Transport := .default
  fSndBufSize : Int := 1000
  fRcvBufSize : Int := 1000
  fSndKernelSize : Int := 0
  fRcvKernelSize : Int := 0
  fRateLogging : Int := 1
  fIsValid : Bool := false
  fModified : Bool := true
deriving DecidableEq

namespace FairMQChannel

def copy (channel : FairMQChannel) : FairMQChannel :=
  { channel with fIsValid := false }

def touch (channel : FairMQChannel) : FairMQChannel :=
  { channel with fIsValid := false, fModified := true }

def updateType (type : String) (channel : FairMQChannel) : FairMQChannel :=
  { channel.touch with fType := type }

def updateMethod (method : String) (channel : FairMQChannel) : FairMQChannel :=
  { channel.touch with fMethod := method }

def updateAddress (address : String) (channel : FairMQChannel) : FairMQChannel :=
  { channel.touch with fAddress := address }

/-- An unknown name makes `TransportTypes.at` throw, and the handler ends the process. -/
def updateTransport (transport : String) (channel : FairMQChannel) : Option FairMQChannel :=
  (transportTypes transport).map fun type => { channel.touch with fTransportType := type }

def updateSndBufSize (sndBufSize : Int) (channel : FairMQChannel) : FairMQChannel :=
  { channel.touch with fSndBufSize := sndBufSize }

def updateRcvBufSize (rcvBufSize : Int) (channel : FairMQChannel) : FairMQChannel :=
  { channel.touch with fRcvBufSize := rcvBufSize }

def updateSndKernelSize (sndKernelSize : Int) (channel : FairMQChannel) : FairMQChannel :=
  { channel.touch with fSndKernelSize := sndKernelSize }

def updateRcvKernelSize (rcvKernelSize : Int) (channel : FairMQChannel) : FairMQChannel :=
  { channel.touch with fRcvKernelSize := rcvKernelSize }

def updateRateLogging (rateLogging : Int) (channel : FairMQChannel) : FairMQChannel :=
  { channel.touch with fRateLogging := rateLogging }

end FairMQChannel

/-- The content of a `boost::any` in `fVarMap`. -/
inductive Value where
  | string (text : String)
  | int (number : Int)
deriving DecidableEq

inductive Kind where
  | string | int
deriving DecidableEq

def Value.kind : Value → Kind
  | .string _ => .string
  | .int _ => .int

inductive Member where
  | type | method | address | transport
  | sndBufSize | rcvBufSize | sndKernelSize | rcvKernelSize | rateLogging
deriving DecidableEq

namespace Member

def all : List Member :=
  [type, method, address, transport, sndBufSize, rcvBufSize, sndKernelSize, rcvKernelSize,
    rateLogging]

theorem mem_all (member : Member) : member ∈ all := by
  cases member <;> decide

def text : Member → String
  | type => "type"
  | method => "method"
  | address => "address"
  | transport => "transport"
  | sndBufSize => "sndBufSize"
  | rcvBufSize => "rcvBufSize"
  | sndKernelSize => "sndKernelSize"
  | rcvKernelSize => "rcvKernelSize"
  | rateLogging => "rateLogging"

/-- The member name that is registered for the key; one of them is spelled
differently. -/
def registered : Member → String
  | rcvKernelSize => "rcvkernelSize"
  | member => member.text

def kind : Member → Kind
  | type | method | address | transport => .string
  | sndBufSize | rcvBufSize | sndKernelSize | rcvKernelSize | rateLogging => .int

def value (channel : FairMQChannel) : Member → Value
  | type => .string channel.fType
  | method => .string channel.fMethod
  | address => .string channel.fAddress
  | transport => .string (transportNames channel.fTransportType)
  | sndBufSize => .int channel.fSndBufSize
  | rcvBufSize => .int channel.fRcvBufSize
  | sndKernelSize => .int channel.fSndKernelSize
  | rcvKernelSize => .int channel.fRcvKernelSize
  | rateLogging => .int channel.fRateLogging

end Member

/-- `unordered_map<string, vector<FairMQChannel>>`, in the order of its iteration. -/
structure FairMQChannelMap where
  entries : List (String × List FairMQChannel)
  distinct : (entries.map Prod.fst).Nodup
deriving DecidableEq

namespace FairMQChannelMap

variable (channels : FairMQChannelMap)

def at? (name : String) (index : Nat) : Option FairMQChannel :=
  (channels.entries.lookup name).bind (·[index]?)

def mapChannels (rewrite : String → Nat → FairMQChannel → FairMQChannel) : FairMQChannelMap where
  entries := channels.entries.map fun entry => (entry.1, entry.2.mapIdx (rewrite entry.1))
  distinct := by
    rw [List.map_map]
    exact channels.distinct

def set (name : String) (index : Nat) (channel : FairMQChannel) : FairMQChannelMap :=
  channels.mapChannels fun name' index' old =>
    if name' = name ∧ index' = index then channel else old

def pushBack (name : String) (channel : FairMQChannel) : FairMQChannelMap :=
  if known : name ∈ channels.entries.map Prod.fst then
    { entries := channels.entries.map fun entry =>
        (entry.1, if entry.1 = name then entry.2 ++ [channel] else entry.2)
      distinct := by
        rw [List.map_map]
        exact channels.distinct }
  else
    { entries := channels.entries ++ [(name, [channel])]
      distinct := by
        rw [List.map_append]
        apply List.nodup_append.mpr ⟨channels.distinct, List.nodup_singleton _, _⟩
        intro old member new isNew same
        have isName : old = name := same.trans (List.mem_singleton.mp isNew)
        exact known (isName ▸ member) }

end FairMQChannelMap

structure ChannelKey where
  channel : String
  index : Nat
  member : String
deriving DecidableEq

def channelKey (name : String) (index : Nat) (member : Member) : String :=
  "chans." ++ name ++ "." ++ toString index ++ "." ++ member.text

def numSocketsKey (name : String) : String :=
  "chans." ++ name ++ ".numSockets"

/-- `log` holds the errors that were logged. -/
structure ProgOptions where
  fVarMap : String → Option Value
  fFairMQChannelMap : FairMQChannelMap
  fChannelInfo : List (String × Nat)
  fChannelKeyMap : String → Option ChannelKey
  log : List String

namespace ProgOptions

/-- Constructed and parsed, without channels yet. -/
def new (fVarMap : String → Option Value) : ProgOptions :=
  ⟨fVarMap, ⟨[], .nil⟩, [], fun _ => none, []⟩

def updateVarMap (key : String) (val : Value) (options : ProgOptions) : ProgOptions :=
  { options with fVarMap := Function.update options.fVarMap key (some val) }

def setChannelKey (key : String) (info : ChannelKey) (options : ProgOptions) : ProgOptions :=
  { options with fChannelKeyMap := Function.update options.fChannelKeyMap key (some info) }

def updateChannelInfo (options : ProgOptions) : ProgOptions :=
  { options with
    fChannelInfo := options.fFairMQChannelMap.entries.map fun entry => (entry.1, entry.2.length) }

def registerMember (name : String) (channel : FairMQChannel × Nat) (options : ProgOptions)
    (member : Member) : ProgOptions :=
  (options.setChannelKey (channelKey name channel.2 member)
    ⟨name, channel.2, member.registered⟩).updateVarMap (channelKey name channel.2 member)
      (member.value channel.1)

def registerChannel (name : String) (options : ProgOptions) (channel : FairMQChannel × Nat) :
    ProgOptions :=
  Member.all.foldl (registerMember name channel) options

def registerEntry (options : ProgOptions) (entry : String × List FairMQChannel) : ProgOptions :=
  (entry.2.zipIdx.foldl (registerChannel entry.1) options).updateVarMap (numSocketsKey entry.1)
    (.int entry.2.length)

def updateMQValues (options : ProgOptions) : ProgOptions :=
  options.fFairMQChannelMap.entries.foldl registerEntry options

def updateChannelMap (channels : FairMQChannelMap) (options : ProgOptions) : ProgOptions :=
  { options with
    fFairMQChannelMap := channels.mapChannels fun _ _ channel => channel.copy }
    |>.updateChannelInfo |>.updateMQValues

/-- `AddChannel` writes nothing but the channel map. -/
def addChannel (channelName : String) (channel : FairMQChannel) (options : ProgOptions) :
    ProgOptions :=
  { options with
    fFairMQChannelMap := options.fFairMQChannelMap.pushBack channelName channel.copy }

/-- `GetValue<string>`: empty for an unknown key; a value of another type makes it throw. -/
def getString (options : ProgOptions) (key : String) : Option String :=
  match options.fVarMap key with
  | none => some ""
  | some (.string text) => some text
  | some (.int _) => none

end ProgOptions

/-- `std::out_of_range` goes to the caller, `exit(EXIT_FAILURE)` ends the process. -/
inductive Failure where
  | outOfRange
  | exit
deriving DecidableEq

def updateChannel (channelName : String) (index : Nat)
    (update : FairMQChannel → Option FairMQChannel) : EStateM Failure ProgOptions Int := do
  match (← get).fFairMQChannelMap.at? channelName index with
  | none => throw .outOfRange
  | some channel =>
      match update channel with
      | none => throw .exit
      | some updated =>
          modify fun options =>
            { options with
              fFairMQChannelMap := options.fFairMQChannelMap.set channelName index updated }
          return 0

def failureMessage (channelName : String) (index : Nat) (member : String) : String :=
  "update of FairMQChannel map failed for the following key: " ++ channelName ++ "." ++
    toString index ++ "." ++ member

def updateFailed (channelName : String) (index : Nat) (member : String) :
    EStateM Failure ProgOptions Int := do
  modify fun options =>
    { options with log := options.log ++ [failureMessage channelName index member] }
  return 1

def updateChannelString (channelName : String) (index : Nat) (member val : String) :
    EStateM Failure ProgOptions Int :=
  if member = "type" then
    updateChannel channelName index fun channel => some (channel.updateType val)
  else if member = "method" then
    updateChannel channelName index fun channel => some (channel.updateMethod val)
  else if member = "address" then
    updateChannel channelName index fun channel => some (channel.updateAddress val)
  else if member = "transport" then
    updateChannel channelName index fun channel => channel.updateTransport val
  else
    updateFailed channelName index member

def updateChannelInt (channelName : String) (index : Nat) (member : String) (val : Int) :
    EStateM Failure ProgOptions Int :=
  if member = "sndBufSize" then
    updateChannel channelName index fun channel => some (channel.updateSndBufSize val)
  else if member = "rcvBufSize" then
    updateChannel channelName index fun channel => some (channel.updateRcvBufSize val)
  else if member = "rateLogging" then
    updateChannel channelName index fun channel => some (channel.updateRateLogging val)
  else
    updateFailed channelName index member

def updateChannelValue (info : ChannelKey) : Value → EStateM Failure ProgOptions Int
  | .string text => updateChannelString info.channel info.index info.member text
  | .int number => updateChannelInt info.channel info.index info.member number

/-- The result of `UpdateChannelValue` is not used. -/
def setValue (key : String) (val : Value) : EStateM Failure ProgOptions Int := do
  modify (·.updateVarMap key val)
  match (← get).fChannelKeyMap key with
  | some info =>
      let _ ← updateChannelValue info val
      return 0
  | none => return 0

inductive Call where
  | updateChannelMap (channels : FairMQChannelMap)
  | setValue (name : String) (index : Nat) (member : Member) (val : Value)

def ProgOptions.step (options : ProgOptions) : Call → Option ProgOptions
  | .updateChannelMap channels => some (options.updateChannelMap channels)
  | .setValue name index member val =>
      match (Options.setValue (channelKey name index member) val).run options with
      | .ok _ after => some after
      | .error .outOfRange after => some after
      | .error .exit _ => none

def optionsSystem : TransitionSystem ProgOptions Call where
  initial options := ∃ fVarMap, options = .new fVarMap
  step := ProgOptions.step

section Keys

theorem text_free (member : Member) : '.' ∉ member.text.toList := by
  cases member <;> decide

theorem text_injective {member other : Member} (same : member.text = other.text) :
    member = other := by
  cases member <;> cases other <;> first | rfl | exact absurd same (by decide)

theorem dot_cut_injective {front back front' back' : String} (free : '.' ∉ back.toList)
    (free' : '.' ∉ back'.toList)
    (same : front ++ "." ++ back = front' ++ "." ++ back') : front = front' ∧ back = back' :=
  cut_injective rfl free free' same

theorem channelKey_injective {name name' : String} {index index' : Nat} {member member' : Member}
    (same : channelKey name index member = channelKey name' index' member') :
    name = name' ∧ index = index' ∧ member = member' := by
  obtain ⟨path, isMember⟩ := dot_cut_injective (text_free member) (text_free member') same
  obtain ⟨named, isIndex⟩ := dot_cut_injective (digits_free (by decide) index)
    (digits_free (by decide) index') path
  have isName : name.toList = name'.toList := by
    simpa [String.toList_append] using congrArg String.toList named
  exact ⟨String.toList_injective isName, toString_injective isIndex, text_injective isMember⟩

theorem channelKey_ne_numSocketsKey (name name' : String) (index : Nat) (member : Member) :
    channelKey name index member ≠ numSocketsKey name' := by
  intro same
  have dotted : numSocketsKey name' = "chans." ++ name' ++ "." ++ "numSockets" := by
    rw [String.append_assoc]
    rfl
  rw [dotted] at same
  have isMember := (dot_cut_injective (text_free member) (by decide) same).2
  cases member <;> exact absurd isMember (by decide)

end Keys

end FairMQ.Options
