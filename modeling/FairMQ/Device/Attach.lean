import FairMQ.Channels.Endpoints
import FairMQ.Data.MachineInt

namespace FairMQ.Device

open FairMQ.Channels
open FairMQ.Options (Transport)

structure Target where
  bind : Bool
  address : List Char
deriving DecidableEq, Repr

structure Socket where
  transport : Transport
  attached : List Target := []
deriving DecidableEq

/-- What the environment answers while one endpoint is attached: whether a socket can be
created, the address of the host (empty if it is unknown), the results of `Bind` with the
ports drawn after a failure, and whether the `Connect` of the library succeeds. -/
structure Answer where
  created : Bool := true
  resolvedHost : String := "127.0.0.1"
  bound : Nat → Bool := fun _ => true
  randomPort : Nat → Nat := fun _ => 0
  connected : Bool := true

def withPort (endpoint : List Char) (port : Nat) : List Char :=
  (endpoint.reverse.dropWhile (· ≠ ':')).reverse ++ (toString port).toList

def bindEndpoint (answer : Answer) : Nat → Nat → List Char → Option (List Char)
  | 0, _, _ => none
  | left + 1, numAttempts, endpoint =>
      if answer.bound numAttempts then some endpoint
      else
        bindEndpoint answer left (numAttempts + 1)
          (withPort endpoint (answer.randomPort numAttempts))

/-- `maxAttempts` random ports are tried after the first call. -/
def bindCalls : Nat := 1000 + 1

/-- The host of a tcp address is resolved, except for the wildcard of a bind; without a colon
the port is the whole text. -/
def resolveAddress (answer : Answer) (bind : Bool) (address : List Char) : Option (List Char) :=
  if hasScheme "tcp://" address then
    let addressString := address.drop 6
    let hostPart := addressString.takeWhile (· ≠ ':')
    if bind && hostPart == ['*'] then some address
    else if answer.resolvedHost = "" then none
    else
      let portPart :=
        if ':' ∈ addressString then (addressString.dropWhile (· ≠ ':')).tail else addressString
      some ("tcp://".toList ++ answer.resolvedHost.toList ++ ':' :: portPart)
  else some address

/-- How an endpoint is attached: a modifier goes before the method of the channel. -/
def readEndpoint (method : String) (endpoint : List Char) : Bool × List Char :=
  match endpoint with
  | '+' :: address => (false, address)
  | '>' :: address => (false, address)
  | '@' :: address => (true, address)
  | _ => (method == "bind", endpoint)

def writeEndpoint (endpoint : List Char) (target : Target) : List Char :=
  if isModified endpoint then (if target.bind then '@' else '+') :: target.address
  else target.address

/-- How the work on one endpoint ends: `return false`, or with a target.  A `Connect` of nanomsg
that has failed is logged and taken for a success. -/
inductive Attachment where
  | failed (socket : Option Socket)
  | attached (socket : Socket) (target : Target)
  | missed (socket : Socket) (target : Target)
deriving DecidableEq

def Socket.attach (socket : Socket) (target : Target) : Attachment :=
  .attached { socket with attached := socket.attached ++ [target] } target

/-- `ConnectEndpoint`; where the library fails, the sockets of zeromq, of shared memory and
of ofi end the process. -/
def connectEndpoint (answer : Answer) (socket : Socket) (address : List Char) :
    Option Attachment :=
  if answer.connected then some (socket.attach ⟨false, address⟩)
  else if socket.transport = .nn then some (.missed socket ⟨false, address⟩)
  else none

/-- `CreateSocket`, which may throw a `SocketError` (no socket) or end the process (no
result): ofi has only one type and throws always, shared memory throws for two types. -/
def createSocket (answer : Answer) (transport : Transport) (type : String) :
    Option (Option Socket) :=
  match transport with
  | .ofi => some (if type = "pair" ∧ answer.created then some { transport := transport } else none)
  | .shm =>
      if answer.created then
        some (if type = "sub" ∨ type = "pub" then none else some { transport := transport })
      else none
  | _ => if answer.created then some (some { transport := transport }) else none

def Socket.attachEndpoint (answer : Answer) (method : String) (socket : Socket)
    (endpoint : List Char) : Option Attachment :=
  let (bind, address) := readEndpoint method endpoint
  match resolveAddress answer bind address with
  | none => some (.failed socket)
  | some address =>
      if bind then
        match bindEndpoint answer bindCalls 0 address with
        | none => some (.failed socket)
        | some address => some (socket.attach ⟨true, address⟩)
      else connectEndpoint answer socket address

def attachEndpoint (answer : Answer) (type method : String) (transport : Transport)
    (socket : Option Socket) (endpoint : List Char) : Option Attachment :=
  match socket with
  | some socket => socket.attachEndpoint answer method endpoint
  | none =>
      match createSocket answer transport type with
      | none => none
      | some none => some (.failed none)
      | some (some socket) => socket.attachEndpoint answer method endpoint

/-- What a call of `AttachChannel` has done: the targets of the endpoints it has been
through, in two groups, and the endpoints it has written. -/
structure Attempt where
  success : Bool
  targets : List Target
  attached : List Target
  missed : List Target
  written : List (List Char)
deriving DecidableEq

def Attempt.add (attempt : Attempt) (endpoint : List Char) (target : Target) : Attempt :=
  { attempt with
    targets := target :: attempt.targets
    written := writeEndpoint endpoint target :: attempt.written }

def attachEndpoints (answers : Nat → Answer) (type method : String) (transport : Transport) :
    Nat → Option Socket → List (List Char) → Option (Option Socket × Attempt)
  | _, socket, [] => some (socket, ⟨true, [], [], [], []⟩)
  | i, socket, endpoint :: endpoints =>
      match attachEndpoint (answers i) type method transport socket endpoint with
      | none => none
      | some (.failed socket) => some (socket, ⟨false, [], [], [], []⟩)
      | some (.attached socket target) =>
          (attachEndpoints answers type method transport (i + 1) (some socket) endpoints).map
            fun (socket, attempt) =>
              (socket, { attempt.add endpoint target with attached := target :: attempt.attached })
      | some (.missed socket target) =>
          (attachEndpoints answers type method transport (i + 1) (some socket) endpoints).map
            fun (socket, attempt) =>
              (socket, { attempt.add endpoint target with missed := target :: attempt.missed })

/-- A channel that names no transport has that of the device. -/
def channelTransport (deviceTransport : Transport) (channel : Channel Socket) : Transport :=
  if channel.fTransportType = .default then deviceTransport else channel.fTransportType

def writeAddress (written : List (List Char)) (channel : Channel Socket) : Channel Socket :=
  let newAddress := String.ofList ([','].intercalate written)
  if newAddress = channel.fAddress then channel
  else channel.configure (.updateAddress newAddress)

def attachChannel (deviceTransport : Transport) (answers : Nat → Answer)
    (channel : Channel Socket) : Option (Channel Socket × Attempt) :=
  let channel := channel.initTransport (channelTransport deviceTransport channel)
  (attachEndpoints answers channel.fType channel.fMethod channel.fTransportType 0
    channel.fSocket (attachedEndpoints channel.fAddress)).map fun (socket, attempt) =>
      let channel := { channel with fSocket := socket }
      (if attempt.success then writeAddress attempt.written channel else channel, attempt)

/-- A channel of the list with its position.  The calls of `AttachChannel` so far and their
rounds are history. -/
structure Entry where
  index : Nat
  channel : Channel Socket
  attempts : List (Nat × Attempt) := []
deriving DecidableEq

/-- The environment of the loop of `InitWrapper`: the transport of the device, the answers
in each round for each channel and endpoint, and the addresses in the configuration. -/
structure Environment where
  transport : Transport
  answer : Nat → Nat → Nat → Answer
  newAddress : Nat → Nat → String

variable (environment : Environment)

def Entry.attach (round : Nat) (entry : Entry) : Option (Bool × Entry) :=
  match validateChannel entry.channel.toFairMQChannel with
  | (.exits _, _) => none
  | (.invalid _, _) => some (false, entry)
  | (.valid, validated) =>
      (attachChannel environment.transport (environment.answer round entry.index)
        (entry.channel.configure fun _ => validated)).map fun (channel, attempt) =>
          (attempt.success,
            { entry with
              channel := if attempt.success then channel.configure (Channel.setModified false)
                else channel
              attempts := entry.attempts ++ [(round, attempt)] })

def attachChannels (round : Nat) : List Entry → Option (List Entry × List Entry)
  | [] => some ([], [])
  | entry :: entries =>
      match entry.attach environment round with
      | none => none
      | some (attached, entry) =>
          (attachChannels round entries).map fun (remaining, removed) =>
            if attached then (remaining, entry :: removed) else (entry :: remaining, removed)

structure Initialization where
  uninitialized : List Entry
  initialized : List Entry
  numAttempts : Int
  /-- How often `ERROR_FOUND` has been raised. -/
  errors : Nat
deriving DecidableEq

/-- `initializationTimeoutInS * 1000 / sleepTimeInMS` in the type `int`; there is no value if
the product overflows. -/
def maxAttempts (timeout : Int) : Option Int :=
  if -2 ^ 31 ≤ timeout * 1000 ∧ timeout * 1000 < 2 ^ 31 then some (timeout * 1000 / 50) else none

def Entry.refresh (round : Nat) (entry : Entry) : Entry :=
  let newAddress := environment.newAddress round entry.index
  if newAddress = entry.channel.fAddress then entry
  else { entry with channel := entry.channel.configure (.updateAddress newAddress) }

/-- The body of the loop.  The error does not end it; the counter may not overflow. -/
def Initialization.iterate (limit : Int) (round : Nat) (state : Initialization) :
    Option Initialization :=
  if state.numAttempts + 1 < 2 ^ 31 then
    (attachChannels environment round (state.uninitialized.map (Entry.refresh environment round))).map
      fun (remaining, removed) =>
        { uninitialized := remaining
          initialized := state.initialized ++ removed
          numAttempts := state.numAttempts + 1
          errors := if state.numAttempts > limit then state.errors + 1 else state.errors }
  else none

def entriesOf (channels : List (Channel Socket)) : List Entry :=
  channels.zipIdx.map fun (channel, i) => { index := i, channel := channel }

/-- The state of the loop after its first `iterations`, or after all of them if there are
fewer. -/
def connectLoop (limit : Int) (channels : List (Channel Socket)) : Nat → Option Initialization
  | 0 =>
      (attachChannels environment 0 (entriesOf channels)).map fun (remaining, removed) =>
        ⟨remaining, removed, 1, 0⟩
  | iterations + 1 =>
      match connectLoop limit channels iterations with
      | none => none
      | some state =>
          if state.uninitialized = [] then some state
          else state.iterate environment limit (iterations + 1)

def attachedTo : Option Socket → List Target
  | none => []
  | some socket => socket.attached

namespace Attachment

def socket : Attachment → Option Socket
  | failed socket => socket
  | attached socket _ | missed socket _ => some socket

def added : Attachment → List Target
  | attached _ target => [target]
  | failed _ | missed _ _ => []

end Attachment

section Attach

variable {answer : Answer} {type method : String} {transport : Transport}

theorem Socket.attachEndpoint_cases {socket : Socket} {endpoint : List Char}
    {attachment : Attachment}
    (done : socket.attachEndpoint answer method endpoint = some attachment) :
    attachment = .failed socket ∨
      ∃ target, attachment = socket.attach target ∨ attachment = .missed socket target := by
  simp only [Socket.attachEndpoint] at done
  split at done
  · exact .inl (Option.some.inj done).symm
  · split at done
    · split at done
      · exact .inl (Option.some.inj done).symm
      · exact .inr ⟨_, .inl (Option.some.inj done).symm⟩
    · simp only [connectEndpoint] at done
      split at done
      · exact .inr ⟨_, .inl (Option.some.inj done).symm⟩
      · split at done
        · exact .inr ⟨_, .inr (Option.some.inj done).symm⟩
        · cases done

theorem Socket.attachEndpoint_log {socket : Socket} {endpoint : List Char}
    {attachment : Attachment}
    (done : socket.attachEndpoint answer method endpoint = some attachment) :
    attachedTo attachment.socket = socket.attached ++ attachment.added := by
  rcases Socket.attachEndpoint_cases done with rfl | ⟨target, rfl | rfl⟩
  · exact (List.append_nil _).symm
  · rfl
  · exact (List.append_nil _).symm

theorem Socket.attachEndpoint_transport {socket : Socket} {endpoint : List Char}
    {attachment : Attachment}
    (done : socket.attachEndpoint answer method endpoint = some attachment) :
    ∀ next ∈ attachment.socket, next.transport = socket.transport := by
  rcases Socket.attachEndpoint_cases done with rfl | ⟨target, rfl | rfl⟩ <;>
    simp [Attachment.socket, Socket.attach]

theorem createSocket_eq {socket : Socket}
    (created : createSocket answer transport type = some (some socket)) :
    socket = { transport := transport } := by
  simp only [createSocket] at created
  grind

theorem attachEndpoint_cases {socket : Option Socket} {endpoint : List Char}
    {attachment : Attachment}
    (done : attachEndpoint answer type method transport socket endpoint = some attachment) :
    socket = none ∧ attachment = .failed none ∨
      ∃ own, own.attachEndpoint answer method endpoint = some attachment ∧
        (socket = some own ∨ socket = none ∧ own = { transport := transport }) := by
  cases socket with
  | some socket => exact .inr ⟨socket, done, .inl rfl⟩
  | none =>
      simp only [attachEndpoint] at done
      split at done
      · cases done
      · exact .inl ⟨rfl, (Option.some.inj done).symm⟩
      · rename_i socket created
        exact .inr ⟨socket, done, .inr ⟨rfl, createSocket_eq created⟩⟩

theorem attachEndpoint_log {socket : Option Socket} {endpoint : List Char}
    {attachment : Attachment}
    (done : attachEndpoint answer type method transport socket endpoint = some attachment) :
    attachedTo attachment.socket = attachedTo socket ++ attachment.added := by
  rcases attachEndpoint_cases done with ⟨rfl, rfl⟩ | ⟨own, went, rfl | ⟨rfl, rfl⟩⟩
  · rfl
  · exact Socket.attachEndpoint_log went
  · exact Socket.attachEndpoint_log went

theorem attachEndpoint_transport {socket : Option Socket} {endpoint : List Char}
    {attachment : Attachment} (own : ∀ known ∈ socket, known.transport = transport)
    (done : attachEndpoint answer type method transport socket endpoint = some attachment) :
    ∀ next ∈ attachment.socket, next.transport = transport := by
  intro next isNext
  rcases attachEndpoint_cases done with ⟨rfl, rfl⟩ | ⟨used, went, rfl | ⟨rfl, rfl⟩⟩
  · cases isNext
  · exact (Socket.attachEndpoint_transport went next isNext).trans (own used rfl)
  · exact Socket.attachEndpoint_transport went next isNext

variable {answers : Nat → Answer} {i : Nat} {socket after : Option Socket} {attempt : Attempt}
  {endpoints : List (List Char)}

structure Attempt.Extends (attempt : Attempt) (attachment : Attachment) (rest : Attempt) :
    Prop where
  success : attempt.success = rest.success
  attached : attempt.attached = attachment.added ++ rest.attached
  targets : (rest.attached ++ rest.missed).Perm rest.targets →
    (attempt.attached ++ attempt.missed).Perm attempt.targets
  written : rest.written.length = rest.targets.length →
    attempt.written.length = attempt.targets.length

theorem attachEndpoints_cons {endpoint : List Char}
    (done : attachEndpoints answers type method transport i socket (endpoint :: endpoints) =
      some (after, attempt)) :
    ∃ attachment, attachEndpoint (answers i) type method transport socket endpoint =
        some attachment ∧
      (attachment = .failed after ∧ attempt = ⟨false, [], [], [], []⟩ ∨
        ∃ next rest, attachment.socket = some next ∧
          attachEndpoints answers type method transport (i + 1) (some next) endpoints =
            some (after, rest) ∧ attempt.Extends attachment rest) := by
  simp only [attachEndpoints] at done
  split at done
  · cases done
  · rename_i found
    cases done
    exact ⟨_, found, .inl ⟨rfl, rfl⟩⟩
  · rename_i next target found
    obtain ⟨⟨last, rest⟩, others, same⟩ := Option.map_eq_some_iff.mp done
    cases same
    refine ⟨_, found, .inr ⟨next, rest, rfl, others, rfl, rfl, ?_, congrArg (· + 1)⟩⟩
    exact fun balanced => balanced.cons target
  · rename_i next target found
    obtain ⟨⟨last, rest⟩, others, same⟩ := Option.map_eq_some_iff.mp done
    cases same
    refine ⟨_, found, .inr ⟨next, rest, rfl, others, rfl, rfl, ?_, congrArg (· + 1)⟩⟩
    exact fun balanced => List.perm_middle.trans (balanced.cons target)

theorem attachEndpoints_log
    (done : attachEndpoints answers type method transport i socket endpoints =
      some (after, attempt)) :
    attachedTo after = attachedTo socket ++ attempt.attached := by
  induction endpoints generalizing i socket attempt with
  | nil =>
      cases done
      exact (List.append_nil _).symm
  | cons endpoint endpoints ih =>
      obtain ⟨attachment, found, ⟨rfl, rfl⟩ | ⟨next, rest, isNext, others, extended⟩⟩ :=
        attachEndpoints_cons done
      · exact attachEndpoint_log found
      · have first := attachEndpoint_log found
        rw [isNext] at first
        rw [ih others, first, extended.attached, List.append_assoc]

theorem attachEndpoints_transport (own : ∀ known ∈ socket, known.transport = transport)
    (done : attachEndpoints answers type method transport i socket endpoints =
      some (after, attempt)) :
    (∀ next ∈ after, next.transport = transport) ∧
      (socket.isSome ∨ endpoints ≠ [] → attempt.success = true → after.isSome) := by
  induction endpoints generalizing i socket attempt with
  | nil =>
      cases done
      exact ⟨own, fun there _ => there.resolve_right (not_not.mpr rfl)⟩
  | cons endpoint endpoints ih =>
      obtain ⟨attachment, found, ⟨rfl, rfl⟩ | ⟨next, rest, isNext, others, extended⟩⟩ :=
        attachEndpoints_cons done
      · exact ⟨attachEndpoint_transport own found, fun _ impossible => by cases impossible⟩
      · have ownNext := attachEndpoint_transport own found
        rw [isNext] at ownNext
        obtain ⟨each, there⟩ := ih ownNext others
        exact ⟨each, fun _ success => there (.inl rfl) (extended.success.symm.trans success)⟩

theorem attachEndpoints_targets
    (done : attachEndpoints answers type method transport i socket endpoints =
      some (after, attempt)) :
    (attempt.attached ++ attempt.missed).Perm attempt.targets ∧
      attempt.written.length = attempt.targets.length := by
  induction endpoints generalizing i socket attempt with
  | nil =>
      cases done
      exact ⟨.nil, rfl⟩
  | cons endpoint endpoints ih =>
      obtain ⟨attachment, found, ⟨rfl, rfl⟩ | ⟨next, rest, isNext, others, extended⟩⟩ :=
        attachEndpoints_cons done
      · exact ⟨.nil, rfl⟩
      · obtain ⟨balanced, each⟩ := ih others
        exact ⟨extended.targets balanced, extended.written each⟩

structure Attempted (before after : Channel Socket) (attempt : Attempt) : Prop where
  log : attachedTo after.fSocket = attachedTo before.fSocket ++ attempt.attached
  targets : (attempt.attached ++ attempt.missed).Perm attempt.targets
  each : attempt.written.length = attempt.targets.length
  written : attempt.success = true →
    after.fAddress = String.ofList ([','].intercalate attempt.written)

theorem writeAddress_socket (written : List (List Char)) (channel : Channel Socket) :
    (writeAddress written channel).fSocket = channel.fSocket := by
  simp only [writeAddress]
  split <;> rfl

theorem writeAddress_address (written : List (List Char)) (channel : Channel Socket) :
    (writeAddress written channel).fAddress = String.ofList ([','].intercalate written) := by
  simp only [writeAddress]
  split
  · rename_i same
    exact same.symm
  · rfl

theorem attachChannel_attempted {deviceTransport : Transport} {before after : Channel Socket}
    (done : attachChannel deviceTransport answers before = some (after, attempt)) :
    Attempted before after attempt := by
  obtain ⟨⟨socket, attempt⟩, went, same⟩ := Option.map_eq_some_iff.mp done
  cases same
  have log := attachEndpoints_log went
  obtain ⟨targets, each⟩ := attachEndpoints_targets went
  refine ⟨?_, targets, each, ?_⟩
  · split
    · rw [writeAddress_socket]
      exact log
    · exact log
  · intro success
    rw [if_pos success, writeAddress_address]

structure UsesTransport (transport : Transport) (channel : Channel Socket) : Prop where
  type : channel.fTransportType = transport
  factory : channel.fTransportFactory = some transport
  socket : ∃ socket, channel.fSocket = some socket ∧ socket.transport = transport

theorem attachChannel_transport {deviceTransport : Transport} {before after : Channel Socket}
    (own : ∀ known ∈ before.fSocket, known.transport = channelTransport deviceTransport before)
    (done : attachChannel deviceTransport answers before = some (after, attempt)) :
    (if attempt.success then UsesTransport (channelTransport deviceTransport before) after
      else channelTransport deviceTransport after = channelTransport deviceTransport before) ∧
    ∀ next ∈ after.fSocket, next.transport = channelTransport deviceTransport before := by
  obtain ⟨⟨socket, attempt⟩, went, same⟩ := Option.map_eq_some_iff.mp done
  cases same
  obtain ⟨each, there⟩ := attachEndpoints_transport own went
  cases success : attempt.success with
  | true =>
      have nonempty : attachedEndpoints before.fAddress ≠ [] := List.splitOn_ne_nil _ _
      obtain ⟨last, isLast⟩ := Option.isSome_iff_exists.mp (there (.inr nonempty) success)
      have kept : ∀ channel : Channel Socket,
          (writeAddress attempt.written channel).fTransportType = channel.fTransportType ∧
            (writeAddress attempt.written channel).fTransportFactory =
              channel.fTransportFactory := by
        intro channel
        simp only [writeAddress]
        split <;> exact ⟨rfl, rfl⟩
      refine ⟨⟨(kept _).1, (kept _).2, last, ?_, each last isLast⟩, ?_⟩
      · exact (writeAddress_socket _ _).trans isLast
      · intro next isNext
        exact each next ((writeAddress_socket _ _).symm.trans isNext)
  | false =>
      refine ⟨?_, each⟩
      simp only [Bool.false_eq_true, if_false, channelTransport, Channel.initTransport]
      split <;> simp_all

theorem attachChannel_failed {deviceTransport : Transport} {before after : Channel Socket}
    (done : attachChannel deviceTransport answers before = some (after, attempt))
    (failed : attempt.success = false) :
    ∃ socket, after = { before.initTransport (channelTransport deviceTransport before) with
      fSocket := socket } := by
  obtain ⟨⟨socket, attempt⟩, _, same⟩ := Option.map_eq_some_iff.mp done
  cases same
  rw [failed]
  exact ⟨socket, rfl⟩

end Attach

section Loop

variable {environment} {channels : List (Channel Socket)} {round : Nat}

theorem validateChannel_valid {channel validated : Options.FairMQChannel}
    (validates : validateChannel channel = (.valid, validated)) :
    validated = { channel with fIsValid := true } := by
  simp only [validateChannel] at validates
  split at validates
  · rename_i marked
    cases validates
    rw [← marked]
  · cases checked : fullValidation channel <;> rw [checked] at validates <;> cases validates
    rfl

theorem Entry.attach_cases {entry next : Entry} {attached : Bool}
    (done : entry.attach environment round = some (attached, next)) :
    (attached = false ∧ next = entry ∧
      ∃ message, (validateChannel entry.channel.toFairMQChannel).1 = .invalid message) ∨
    ∃ channel attempt, (validateChannel entry.channel.toFairMQChannel).1 = .valid ∧
      attachChannel environment.transport (environment.answer round entry.index)
        (entry.channel.configure fun conf => { conf with fIsValid := true }) =
          some (channel, attempt) ∧
      attached = attempt.success ∧
      next = { entry with
        channel := if attempt.success then channel.configure (Channel.setModified false)
          else channel
        attempts := entry.attempts ++ [(round, attempt)] } := by
  simp only [Entry.attach] at done
  split at done
  · cases done
  · rename_i message _ validates
    cases done
    exact .inl ⟨rfl, rfl, message, by rw [validates]⟩
  · rename_i validated validates
    obtain ⟨⟨channel, attempt⟩, went, same⟩ := Option.map_eq_some_iff.mp done
    cases same
    cases validateChannel_valid validates
    exact .inr ⟨channel, attempt, by rw [validates], went, rfl, rfl⟩

theorem Entry.attach_index {entry next : Entry} {attached : Bool}
    (done : entry.attach environment round = some (attached, next)) :
    next.index = entry.index := by
  rcases Entry.attach_cases done with ⟨_, rfl, _⟩ | ⟨_, _, _, _, _, rfl⟩
  · rfl
  · rfl

theorem Entry.refresh_index (entry : Entry) :
    (entry.refresh environment round).index = entry.index := by
  simp only [Entry.refresh]
  split <;> rfl

theorem attachChannels_indices {entries remaining removed : List Entry}
    (done : attachChannels environment round entries = some (remaining, removed)) :
    ((remaining ++ removed).map Entry.index).Perm (entries.map Entry.index) := by
  induction entries generalizing remaining removed with
  | nil =>
      cases done
      exact .nil
  | cons entry entries ih =>
      simp only [attachChannels] at done
      split at done
      · cases done
      · rename_i attached next went
        obtain ⟨⟨stay, leave⟩, others, same⟩ := Option.map_eq_some_iff.mp done
        have indices := (ih others).cons entry.index
        rw [← Entry.attach_index went] at indices
        rw [List.map_cons, ← Entry.attach_index went]
        cases attached with
        | true =>
            cases same
            exact (List.perm_middle.map Entry.index).trans indices
        | false =>
            cases same
            exact indices

section Invariant

variable {ready waits leaves : Nat → Entry → Prop}

theorem attachChannels_entries
    (attach : ∀ {entry next attached}, ready round entry →
      entry.attach environment round = some (attached, next) →
      if attached then leaves round next else waits round next)
    {entries remaining removed : List Entry} (start : ∀ entry ∈ entries, ready round entry)
    (done : attachChannels environment round entries = some (remaining, removed)) :
    (∀ entry ∈ remaining, waits round entry) ∧ ∀ entry ∈ removed, leaves round entry := by
  induction entries generalizing remaining removed with
  | nil =>
      cases done
      exact ⟨by simp, by simp⟩
  | cons entry entries ih =>
      simp only [attachChannels] at done
      split at done
      · cases done
      · rename_i attached next went
        obtain ⟨⟨stay, leave⟩, others, same⟩ := Option.map_eq_some_iff.mp done
        obtain ⟨stays, leaving⟩ :=
          ih (fun other member => start other (List.mem_cons_of_mem _ member)) others
        have result := attach (start entry List.mem_cons_self) went
        cases attached with
        | true =>
            cases same
            exact ⟨stays, List.forall_mem_cons.mpr ⟨result, leaving⟩⟩
        | false =>
            cases same
            exact ⟨List.forall_mem_cons.mpr ⟨result, stays⟩, leaving⟩

theorem connectLoop_entries
    (attach : ∀ {round entry next attached}, ready round entry →
      entry.attach environment round = some (attached, next) →
      if attached then leaves round next else waits round next)
    (refresh : ∀ {round entry}, waits round entry →
      ready (round + 1) (entry.refresh environment (round + 1)))
    (start : ∀ entry ∈ entriesOf channels, ready 0 entry)
    {limit : Int} {iterations : Nat} {state : Initialization}
    (ran : connectLoop environment limit channels iterations = some state) :
    (∀ entry ∈ state.uninitialized, waits iterations entry) ∧
      ∀ entry ∈ state.initialized, ∃ round ≤ iterations, leaves round entry := by
  induction iterations generalizing state with
  | zero =>
      obtain ⟨⟨remaining, removed⟩, went, same⟩ := Option.map_eq_some_iff.mp ran
      cases same
      obtain ⟨stays, leaving⟩ := attachChannels_entries attach start went
      exact ⟨stays, fun entry member => ⟨0, Nat.le_refl 0, leaving entry member⟩⟩
  | succ iterations ih =>
      simp only [connectLoop] at ran
      split at ran
      · cases ran
      · rename_i before known
        obtain ⟨waiting, left⟩ := ih known
        have earlier : ∀ entry ∈ before.initialized,
            ∃ round ≤ iterations + 1, leaves round entry := by
          intro entry member
          obtain ⟨round, bound, leaving⟩ := left entry member
          exact ⟨round, Nat.le_succ_of_le bound, leaving⟩
        split at ran
        · rename_i ended
          cases ran
          exact ⟨by simp [ended], earlier⟩
        · simp only [Initialization.iterate] at ran
          split at ran
          · obtain ⟨⟨remaining, removed⟩, went, same⟩ := Option.map_eq_some_iff.mp ran
            cases same
            obtain ⟨stays, leaving⟩ := attachChannels_entries attach
              (List.forall_mem_map.mpr fun entry member => refresh (waiting entry member)) went
            refine ⟨stays, List.forall_mem_append.mpr ⟨earlier, ?_⟩⟩
            exact fun entry member => ⟨iterations + 1, Nat.le_refl _, leaving entry member⟩
          · cases ran

end Invariant

theorem mem_entriesOf {entry : Entry} (member : entry ∈ entriesOf channels) :
    ∃ start, channels[entry.index]? = some start ∧ entry = { index := entry.index, channel := start } := by
  obtain ⟨⟨channel, i⟩, place, rfl⟩ := List.mem_map.mp member
  exact ⟨channel, List.mem_zipIdx_iff_getElem?.mp place, rfl⟩

theorem entriesOf_indices (channels : List (Channel Socket)) :
    (entriesOf channels).map Entry.index = List.range channels.length := by
  simp [entriesOf, Function.comp_def, List.zipIdx_map_snd, List.range_eq_range']

theorem Initialization.iterate_indices {limit : Int} {state next : Initialization}
    (iterated : state.iterate environment limit round = some next) :
    ((next.uninitialized ++ next.initialized).map Entry.index).Perm
      ((state.uninitialized ++ state.initialized).map Entry.index) := by
  simp only [Initialization.iterate] at iterated
  split at iterated
  · obtain ⟨⟨remaining, removed⟩, went, same⟩ := Option.map_eq_some_iff.mp iterated
    cases same
    have indices := attachChannels_indices went
    have refreshed : (state.uninitialized.map (Entry.refresh environment round)).map Entry.index =
        state.uninitialized.map Entry.index := by
      rw [List.map_map]
      exact List.map_congr_left fun entry _ => entry.refresh_index
    rw [refreshed] at indices
    have moved : (remaining ++ (state.initialized ++ removed)).Perm
        ((remaining ++ removed) ++ state.initialized) := by
      rw [List.append_assoc]
      exact List.perm_append_comm.append_left remaining
    have together := indices.append_right (state.initialized.map Entry.index)
    rw [← List.map_append, ← List.map_append] at together
    exact (moved.map Entry.index).trans together
  · cases iterated

theorem connectLoop_indices {limit : Int} {iterations : Nat} {state : Initialization}
    (ran : connectLoop environment limit channels iterations = some state) :
    ((state.uninitialized ++ state.initialized).map Entry.index).Perm
      (List.range channels.length) := by
  induction iterations generalizing state with
  | zero =>
      obtain ⟨⟨remaining, removed⟩, went, same⟩ := Option.map_eq_some_iff.mp ran
      cases same
      exact entriesOf_indices channels ▸ attachChannels_indices went
  | succ iterations ih =>
      simp only [connectLoop] at ran
      split at ran
      · cases ran
      · rename_i before known
        split at ran
        · cases ran
          exact ih known
        · exact (Initialization.iterate_indices ran).trans (ih known)

structure Entry.Tracks (environment : Environment) (start : Channel Socket) (entry : Entry) :
    Prop where
  conf : entry.channel.toFairMQChannel = { start.toFairMQChannel with
    fAddress := entry.channel.fAddress
    fTransportType := entry.channel.fTransportType
    fIsValid := entry.channel.fIsValid
    fModified := entry.channel.fModified }
  transport : channelTransport environment.transport entry.channel =
    channelTransport environment.transport start
  own : start.fSocket = none → ∀ socket ∈ entry.channel.fSocket,
    socket.transport = channelTransport environment.transport start

theorem Entry.Tracks.attach {start : Channel Socket} {entry next : Entry} {attached : Bool}
    (tracks : entry.Tracks environment start)
    (done : entry.attach environment round = some (attached, next)) :
    if attached then start.fSocket = none →
      UsesTransport (channelTransport environment.transport start) next.channel
    else next.Tracks environment start ∧ next.channel.fAddress = entry.channel.fAddress := by
  rcases Entry.attach_cases done with ⟨rfl, rfl, _⟩ | ⟨channel, attempt, _, went, rfl, rfl⟩
  · exact ⟨tracks, rfl⟩
  · have same : channelTransport environment.transport
        (entry.channel.configure fun conf => { conf with fIsValid := true }) =
          channelTransport environment.transport start := tracks.transport
    cases success : attempt.success with
    | true =>
        intro fresh
        have uses := (attachChannel_transport (by rw [same]; exact tracks.own fresh) went).1
        rw [success, if_pos rfl, same] at uses
        exact ⟨uses.type, uses.factory, uses.socket⟩
    | false =>
        obtain ⟨socket, isChannel⟩ := attachChannel_failed went success
        refine ⟨⟨?_, ?_, ?_⟩, ?_⟩
        · rw [isChannel]
          exact congrArg (fun conf : Options.FairMQChannel =>
            { conf with
              fIsValid := true
              fTransportType := channelTransport environment.transport entry.channel }) tracks.conf
        · rw [isChannel, ← same]
          simp only [Bool.false_eq_true, if_false, channelTransport, Channel.initTransport]
          split <;> simp_all
        · intro fresh
          have kept := (attachChannel_transport (by rw [same]; exact tracks.own fresh) went).2
          rwa [same] at kept
        · rw [isChannel]
          rfl

theorem Entry.Tracks.refresh {start : Channel Socket} {entry : Entry}
    (tracks : entry.Tracks environment start) :
    (entry.refresh environment round).Tracks environment start ∧
      (entry.refresh environment round).channel.fAddress =
        environment.newAddress round entry.index := by
  simp only [Entry.refresh]
  split
  · rename_i same
    exact ⟨tracks, same.symm⟩
  · refine ⟨⟨?_, tracks.transport, tracks.own⟩, rfl⟩
    exact congrArg (Options.FairMQChannel.updateAddress (environment.newAddress round entry.index))
      tracks.conf

theorem Entry.Tracks.start (environment : Environment) (i : Nat) (start : Channel Socket) :
    Entry.Tracks environment start { index := i, channel := start } := by
  refine ⟨rfl, rfl, ?_⟩
  intro fresh socket isSocket
  cases fresh.symm.trans isSocket

theorem connectLoop_counters {limit iterations : Nat} {state : Initialization}
    (ran : connectLoop environment limit channels iterations = some state)
    (unfinished : state.uninitialized ≠ []) :
    state.numAttempts = iterations + 1 ∧ state.errors = iterations - limit := by
  induction iterations generalizing state with
  | zero =>
      obtain ⟨_, _, same⟩ := Option.map_eq_some_iff.mp ran
      cases same
      exact ⟨rfl, (Nat.zero_sub limit).symm⟩
  | succ iterations ih =>
      simp only [connectLoop] at ran
      split at ran
      · cases ran
      · rename_i before known
        split at ran
        · cases ran
          contradiction
        · rename_i more
          obtain ⟨counted, raised⟩ := ih known more
          simp only [Initialization.iterate] at ran
          split at ran
          · obtain ⟨_, _, same⟩ := Option.map_eq_some_iff.mp ran
            cases same
            dsimp only
            rw [counted, raised]
            refine ⟨by omega, ?_⟩
            split <;> omega
          · cases ran

end Loop

end FairMQ.Device
