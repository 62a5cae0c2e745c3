import FairMQ.Data.TransitionSystem
import FairMQ.Options.ProgOptions

namespace FairMQ.Channels

open FairMQ.Data
open FairMQ.Options (Transport)

/-! # `ValidateChannel` and its cache

`ValidateChannel` checks the type, the endpoints of the address and the sizes of a channel.
A channel that has passed is marked by `fIsValid`, and the next call believes the mark.  A
character of a text stands for a byte. -/

/-- How a validation ends: it returns true, it returns false, or it ends the process; with
the text it logs. -/
inductive Validation where
  | valid
  | invalid (message : String)
  | exits (message : String)
deriving DecidableEq, Repr

namespace Validation

def andThen : Validation → Validation → Validation
  | valid, next => next
  | invalid message, _ => invalid message
  | exits message, _ => exits message

@[simp] theorem andThen_eq_valid (first next : Validation) :
    first.andThen next = valid ↔ first = valid ∧ next = valid := by
  cases first <;> simp [andThen]

/-- A check that ends the process if it fails. -/
def require (condition : Prop) [Decidable condition] (message : String) : Validation :=
  if condition then valid else exits message

@[simp] theorem require_eq_valid (condition : Prop) [Decidable condition] (message : String) :
    require condition message = valid ↔ condition := by
  unfold require
  split <;> simp_all

end Validation

open Validation

def socketTypes : List String :=
  ["sub", "pub", "pull", "push", "req", "rep", "xsub", "xpub", "dealer", "router", "pair"]

def socketMethods : List String := ["bind", "connect"]

def isModifier (character : Char) : Bool :=
  character == '@' || character == '+' || character == '>'

/-- `address.compare(0, n, scheme) == 0` for a scheme of `n` characters. -/
def hasScheme (scheme : String) (address : List Char) : Bool :=
  scheme.toList.isPrefixOf address

def invalidAddress (address : List Char) (remark : String) : Validation :=
  .invalid ("invalid channel address: \"" ++ String.ofList address ++ "\" (" ++ remark ++ ")")

/-- The address of an endpoint.  The name of a verbs address is looked for one character
too far: `substr(9)` throws if the address ends with its scheme, which has eight. -/
def validateAddress (address : List Char) : Validation :=
  if hasScheme "tcp://" address then
    if ':' ∈ address.drop 6 then .valid else invalidAddress address "missing port?"
  else if hasScheme "ipc://" address then
    if address.drop 6 = [] then invalidAddress address "empty IPC address?" else .valid
  else if hasScheme "inproc://" address then
    if address.drop 9 = [] then invalidAddress address "empty inproc address?" else .valid
  else if hasScheme "verbs://" address then
    if address.length < 9 then
      .exits ("Exception caught in FairMQChannel::ValidateChannel: " ++
        "basic_string::substr: __pos (which is 9) > this->size() (which is 8)")
    else if address.drop 9 = [] then invalidAddress address "empty verbs address?"
    else .valid
  else invalidAddress address "missing protocol specifier?"

/-- Without a modifier the method of the channel is used, and has to be known. -/
def validateEndpoint (method : String) (endpoint : List Char) : Validation :=
  match endpoint with
  | [] => unmodified
  | first :: rest => if isModifier first then validateAddress rest else unmodified
where
  unmodified : Validation :=
    (require (method ∈ socketMethods) ("Invalid endpoint connection method: \"" ++ method ++
      "\" for " ++ String.ofList endpoint)).andThen (validateAddress endpoint)

def validateEndpoints (method : String) : List (List Char) → Validation
  | [] => .valid
  | endpoint :: endpoints =>
      (validateEndpoint method endpoint).andThen (validateEndpoints method endpoints)

def validateAddresses (method address : String) : Validation :=
  if address = "unspecified" ∨ address = "" then
    .invalid ("invalid channel address: \"" ++ address ++ "\"")
  else validateEndpoints method (address.toList.splitOn ';')

def requireNonnegative (size : Int) (what : String) : Validation :=
  require (0 ≤ size) ("invalid " ++ what ++ " (cannot be negative): \"" ++ toString size ++ "\"")

def fullValidation (channel : Options.FairMQChannel) : Validation :=
  (require (channel.fType ∈ socketTypes)
    ("Invalid channel type: \"" ++ channel.fType ++ "\"")).andThen <|
  (validateAddresses channel.fMethod channel.fAddress).andThen <|
  (requireNonnegative channel.fSndBufSize "channel send buffer size").andThen <|
  (requireNonnegative channel.fRcvBufSize "channel receive buffer size").andThen <|
  (requireNonnegative channel.fSndKernelSize "channel send kernel transmit size").andThen <|
  (requireNonnegative channel.fRcvKernelSize "channel receive kernel transmit size").andThen <|
  requireNonnegative channel.fRateLogging "socket rate logging interval"

def validateChannel (channel : Options.FairMQChannel) : Validation × Options.FairMQChannel :=
  if channel.fIsValid then (.valid, channel)
  else
    match fullValidation channel with
    | .valid => (.valid, { channel with fIsValid := true })
    | rejected => (rejected, channel)

/-- A `FairMQChannel` with its socket, for any model of sockets, and its factory, which is
given by its type. -/
structure Channel (σ : Type) extends Options.FairMQChannel where
  fSocket : Option σ := none
  fName : String := ""
  fTransportFactory : Option Transport := none
deriving DecidableEq

namespace Channel

variable {σ : Type}

def ofAddress (type method address : String) : Channel σ :=
  { fType := type, fMethod := method, fAddress := address }

def ofFactory (name type : String) (factory : Transport) (socket : σ) : Channel σ :=
  { fType := type, fTransportType := factory, fSocket := some socket, fName := name,
    fTransportFactory := some factory }

def copy (channel : Channel σ) : Channel σ where
  toFairMQChannel := channel.toFairMQChannel.copy
  fName := channel.fName

def configure (change : Options.FairMQChannel → Options.FairMQChannel) (channel : Channel σ) :
    Channel σ :=
  { channel with toFairMQChannel := change channel.toFairMQChannel }

def updateChannelName (name : String) (channel : Channel σ) : Channel σ :=
  { channel.configure .touch with fName := name }

def setModified (modified : Bool) (channel : Options.FairMQChannel) : Options.FairMQChannel :=
  { channel with fModified := modified }

def resetChannel (channel : Options.FairMQChannel) : Options.FairMQChannel :=
  { channel with fIsValid := false }

def initTransport (factory : Transport) (channel : Channel σ) : Channel σ :=
  { channel with fTransportFactory := some factory, fTransportType := factory }

/-- `Bind` and `Connect` write the method and the address and go to the socket, which they
do not look for; `socket` is what they leave of it. -/
def attach (method address : String) (socket : σ) (channel : Channel σ) : Option (Channel σ) :=
  channel.fSocket.map fun _ =>
    { channel with fMethod := method, fAddress := address, fSocket := some socket }

end Channel

inductive Operation (σ : Type) where
  | updateType (type : String)
  | updateMethod (method : String)
  | updateAddress (address : String)
  | updateTransport (transport : String)
  | updateSndBufSize (sndBufSize : Int)
  | updateRcvBufSize (rcvBufSize : Int)
  | updateSndKernelSize (sndKernelSize : Int)
  | updateRcvKernelSize (rcvKernelSize : Int)
  | updateRateLogging (rateLogging : Int)
  | updateChannelName (name : String)
  | setModified (modified : Bool)
  | bind (address : String) (socket : σ)
  | connect (address : String) (socket : σ)
  | initTransport (factory : Transport)
  | resetChannel
  | assign (other : Channel σ)
  | validateChannel

open Channel in
/-- The channel after a call; there is none after a call that ends the process or uses a
socket that is not there. -/
def Operation.perform {σ : Type} (channel : Channel σ) : Operation σ → Option (Channel σ)
  | updateType type => some (channel.configure (.updateType type))
  | updateMethod method => some (channel.configure (.updateMethod method))
  | updateAddress address => some (channel.configure (.updateAddress address))
  | updateTransport transport =>
      (channel.toFairMQChannel.updateTransport transport).map fun updated =>
        channel.configure fun _ => updated
  | updateSndBufSize size => some (channel.configure (.updateSndBufSize size))
  | updateRcvBufSize size => some (channel.configure (.updateRcvBufSize size))
  | updateSndKernelSize size => some (channel.configure (.updateSndKernelSize size))
  | updateRcvKernelSize size => some (channel.configure (.updateRcvKernelSize size))
  | updateRateLogging interval => some (channel.configure (.updateRateLogging interval))
  | updateChannelName name => some (channel.updateChannelName name)
  | setModified modified => some (channel.configure (Channel.setModified modified))
  | bind address socket => channel.attach "bind" address socket
  | connect address socket => channel.attach "connect" address socket
  | initTransport factory => some (channel.initTransport factory)
  | resetChannel => some (channel.configure Channel.resetChannel)
  | assign other => some other.copy
  | validateChannel =>
      match FairMQ.Channels.validateChannel channel.toFairMQChannel with
      | (.exits _, _) => none
      | (_, validated) => some (channel.configure fun _ => validated)

def Operation.attaches {σ : Type} : Operation σ → Option String
  | bind address _ | connect address _ => some address
  | _ => none

/-- Every constructor leaves the mark unset. -/
inductive Constructed {σ : Type} : Channel σ → Prop where
  | default : Constructed {}
  | ofAddress (type method address : String) : Constructed (.ofAddress type method address)
  | ofFactory (name type : String) (factory : Transport) (socket : σ) :
      Constructed (.ofFactory name type factory socket)
  | copy (other : Channel σ) : Constructed other.copy

def channelSystem (σ : Type) : TransitionSystem (Channel σ) (Operation σ) where
  initial := Constructed
  step := fun channel operation => operation.perform channel

/-- The mark is believed rightly. -/
def CacheSound {σ : Type} (channel : Channel σ) : Prop :=
  channel.fIsValid = true → fullValidation channel.toFairMQChannel = .valid

def Acceptable (address : String) : Prop :=
  validateAddresses "bind" address = .valid

def AttachesAcceptable {σ : Type} (channel : Channel σ) (operation : Operation σ) : Prop :=
  ∀ address, operation.attaches = some address → channel.fIsValid = true → Acceptable address

instance (address : String) : Decidable (Acceptable address) :=
  inferInstanceAs (Decidable (_ = _))

instance {σ : Type} (channel : Channel σ) (operation : Operation σ) :
    Decidable (AttachesAcceptable channel operation) :=
  match attached : operation.attaches with
  | none => isTrue fun address isAddress =>
      absurd (attached.symm.trans isAddress) (Option.some_ne_none address).symm
  | some address =>
      decidable_of_iff (channel.fIsValid = true → Acceptable address)
        ⟨fun acceptable _ isAddress => Option.some.inj (attached.symm.trans isAddress) ▸ acceptable,
          fun acceptable => acceptable address attached⟩

theorem fullValidation_iff (channel : Options.FairMQChannel) :
    fullValidation channel = .valid ↔
      channel.fType ∈ socketTypes ∧
      validateAddresses channel.fMethod channel.fAddress = .valid ∧
      0 ≤ channel.fSndBufSize ∧ 0 ≤ channel.fRcvBufSize ∧ 0 ≤ channel.fSndKernelSize ∧
      0 ≤ channel.fRcvKernelSize ∧ 0 ≤ channel.fRateLogging := by
  simp only [fullValidation, requireNonnegative, andThen_eq_valid, require_eq_valid]

section Cache

variable {σ : Type} {channel after : Channel σ} {operation : Operation σ}

theorem validateEndpoint_known {method other : String} (known : method ∈ socketMethods)
    (knownOther : other ∈ socketMethods) (endpoint : List Char) :
    validateEndpoint method endpoint = .valid ↔ validateEndpoint other endpoint = .valid := by
  have unmodified : validateEndpoint.unmodified method endpoint = .valid ↔
      validateEndpoint.unmodified other endpoint = .valid := by
    simp only [validateEndpoint.unmodified, andThen_eq_valid, require_eq_valid, known, knownOther]
  cases endpoint with
  | nil => exact unmodified
  | cons first rest =>
      simp only [validateEndpoint]
      split
      · exact Iff.rfl
      · exact unmodified

theorem validateAddresses_known {method other : String} (known : method ∈ socketMethods)
    (knownOther : other ∈ socketMethods) (address : String) :
    validateAddresses method address = .valid ↔ validateAddresses other address = .valid := by
  have endpoints (pieces : List (List Char)) : validateEndpoints method pieces = .valid ↔
      validateEndpoints other pieces = .valid := by
    induction pieces with
    | nil => exact Iff.rfl
    | cons endpoint pieces ih =>
        simp only [validateEndpoints, andThen_eq_valid, ih,
          validateEndpoint_known known knownOther endpoint]
  unfold validateAddresses
  split
  · simp
  · exact endpoints _

/-- A call resets the mark, keeps it with all that is validated, sets it after a full
validation, or attaches the socket. -/
theorem perform_cases (performed : operation.perform channel = some after) :
    (after.fIsValid = false ∧ operation.attaches = none) ∨
    (after.fIsValid = channel.fIsValid ∧ operation.attaches = none ∧
      fullValidation after.toFairMQChannel = fullValidation channel.toFairMQChannel) ∨
    (fullValidation after.toFairMQChannel = .valid ∧ operation.attaches = none) ∨
    ∃ method ∈ socketMethods, ∃ address, operation.attaches = some address ∧
      after.toFairMQChannel =
        { channel.toFairMQChannel with fMethod := method, fAddress := address } := by
  cases operation with
  | updateTransport transport =>
      obtain ⟨updated, found, rfl⟩ := Option.map_eq_some_iff.mp performed
      obtain ⟨type, _, rfl⟩ := Option.map_eq_some_iff.mp found
      exact .inl ⟨rfl, rfl⟩
  | setModified | initTransport =>
      cases performed
      exact .inr (.inl ⟨rfl, rfl, rfl⟩)
  | bind address socket =>
      obtain ⟨_, _, rfl⟩ := Option.map_eq_some_iff.mp performed
      exact .inr (.inr (.inr ⟨"bind", by decide, address, rfl, rfl⟩))
  | connect address socket =>
      obtain ⟨_, _, rfl⟩ := Option.map_eq_some_iff.mp performed
      exact .inr (.inr (.inr ⟨"connect", by decide, address, rfl, rfl⟩))
  | validateChannel =>
      simp only [Operation.perform, validateChannel] at performed
      cases marked : channel.fIsValid with
      | true =>
          simp only [marked, if_true, Option.some.injEq] at performed
          subst performed
          exact .inr (.inl ⟨marked, rfl, rfl⟩)
      | false =>
          simp only [marked, Bool.false_eq_true, if_false] at performed
          cases checked : fullValidation channel.toFairMQChannel with
          | valid =>
              simp only [checked, Option.some.injEq] at performed
              subst performed
              exact .inr (.inr (.inl ⟨checked, rfl⟩))
          | invalid message =>
              simp only [checked, Option.some.injEq] at performed
              subst performed
              exact .inl ⟨marked, rfl⟩
          | exits message => simp only [checked, reduceCtorEq] at performed
  | updateType | updateMethod | updateAddress | updateSndBufSize | updateRcvBufSize
  | updateSndKernelSize | updateRcvKernelSize | updateRateLogging | updateChannelName
  | resetChannel | assign =>
      cases performed
      exact .inl ⟨rfl, rfl⟩

theorem fullValidation_attached {config : Options.FairMQChannel} {method address : String}
    (known : method ∈ socketMethods) (passes : fullValidation config = .valid) :
    fullValidation { config with fMethod := method, fAddress := address } = .valid ↔
      Acceptable address := by
  have same := validateAddresses_known known (by decide : "bind" ∈ socketMethods) address
  rw [fullValidation_iff] at passes ⊢
  obtain ⟨type, _, sizes⟩ := passes
  exact ⟨fun checked => same.mp checked.2.1, fun accepted => ⟨type, same.mpr accepted, sizes⟩⟩

/-- The step of the cache: it stays sound unless a marked channel is attached to an address
that would not pass. -/
theorem CacheSound.perform_iff (sound : CacheSound channel)
    (performed : operation.perform channel = some after) :
    CacheSound after ↔ AttachesAcceptable channel operation := by
  have harmless (none : operation.attaches = none) : AttachesAcceptable channel operation := by
    intro address attached
    rw [none] at attached
    cases attached
  rcases perform_cases performed with ⟨reset, none⟩ | ⟨kept, none, same⟩ | ⟨valid, none⟩ |
    ⟨method, known, address, attached, changed⟩
  · refine iff_of_true ?_ (harmless none)
    intro marked
    rw [reset] at marked
    cases marked
  · refine iff_of_true ?_ (harmless none)
    intro marked
    rw [same]
    exact sound (kept.symm.trans marked)
  · exact iff_of_true (fun _ => valid) (harmless none)
  · have mark : after.fIsValid = channel.fIsValid := by rw [changed]
    constructor
    · intro soundAfter other isAddress marked
      rw [attached] at isAddress
      cases isAddress
      have passes := soundAfter (mark.trans marked)
      rw [changed] at passes
      exact (fullValidation_attached known (sound marked)).mp passes
    · intro acceptable marked
      have markedBefore := mark.symm.trans marked
      rw [changed]
      exact (fullValidation_attached known (sound markedBefore)).mpr
        (acceptable address attached markedBefore)

theorem constructed_unmarked (constructed : Constructed channel) : channel.fIsValid = false := by
  cases constructed <;> rfl

/-- In every run the cache stays sound exactly as long as `Bind` and `Connect`, which leave
the mark set, are called on a marked channel with acceptable addresses only. -/
theorem validity_cache_sound_iff
    (reached : (channelSystem σ).ReachesUnder AttachesAcceptable channel)
    (performed : operation.perform channel = some after) :
    CacheSound channel ∧ (CacheSound after ↔ AttachesAcceptable channel operation) := by
  have sound : CacheSound channel := by
    refine reached.invariant ?_ ?_
    · intro start constructed marked
      rw [constructed_unmarked constructed] at marked
      cases marked
    · intro before label next sound permitted stepped
      exact (sound.perform_iff stepped).mpr permitted
  exact ⟨sound, sound.perform_iff performed⟩

end Cache

/-- A channel is validated and then bound to another good address. -/
theorem bound_channel_cache_sound :
    ∃ channel after : Channel Unit, channel.fIsValid = true ∧
      Operation.perform channel (.bind "tcp://localhost:5556" ()) = some after ∧
      CacheSound after := by
  obtain ⟨channel, after, reached, bound, marked, acceptable⟩ :=
    (channelSystem Unit).step_of_runUnder (.ofFactory "data" "push" .zmq ())
      [.updateMethod "bind", .updateAddress "tcp://localhost:5555", .validateChannel]
      (.ofFactory "data" "push" .zmq ())
      (by decide : (((channelSystem Unit).runUnder AttachesAcceptable _ _).any fun before =>
        ((channelSystem Unit).step before (.bind "tcp://localhost:5556" ())).any fun _ =>
          decide (before.fIsValid = true ∧
            AttachesAcceptable before (.bind "tcp://localhost:5556" ()))) = true)
  have performed : Operation.perform channel (.bind "tcp://localhost:5556" ()) = some after := bound
  exact ⟨channel, after, marked, performed,
    (validity_cache_sound_iff reached performed).2.mpr acceptable⟩

/-- A channel is validated and then bound to a text that is no endpoint; it is still
marked. -/
theorem bound_channel_cache_unsound :
    ∃ channel : Channel Unit,
      (channelSystem Unit).run (.ofFactory "data" "push" .zmq ())
        [.updateMethod "bind", .updateAddress "tcp://localhost:5555", .validateChannel,
          .bind "localhost:5556" ()] = some channel ∧
      channel.fIsValid = true ∧
      fullValidation channel.toFairMQChannel =
        .invalid "invalid channel address: \"localhost:5556\" (missing protocol specifier?)" :=
  ⟨_, rfl, by decide, by decide⟩

end FairMQ.Channels
