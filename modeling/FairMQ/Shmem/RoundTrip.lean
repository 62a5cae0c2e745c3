import Mathlib.Data.List.Forall2
import FairMQ.Shmem.Socket

namespace FairMQ.Shmem

inductive Hop where
  | vector
  | single
deriving DecidableEq, Repr

def Hop.passes : Hop → List MessageSHM → List MessageSHM → Prop
  | .vector, parts, received =>
      ∃ sending packet, sendImpl parts .accepted = some sending ∧
        sending.packet = some packet ∧ received = receiveImpl packet
  | .single, parts, received =>
      List.Forall₂ (fun part message => ∃ packet leftover,
        (part.sendImpl .accepted).packet = some packet ∧
          MessageSHM.newMessage.receiveImpl leftover packet = some message) parts received

def Travels : List Hop → List MessageSHM → List MessageSHM → Prop
  | [], parts, received => received = parts
  | hop :: hops, parts, received => ∃ middle, hop.passes parts middle ∧ Travels hops middle received

/-- The messages that a device can have: created, or received by either call. -/
inductive Origin : MessageSHM → Prop where
  | empty : Origin .newMessage
  | sized (size : Nat) (handle : Int) : Origin (.ofSize size (some handle))
  | vector (header : MetaHeader) : Origin (.ofHeader header)
  | single {message : MessageSHM} (leftover : MetaHeader) (packet : List MetaHeader)
      (taken : MessageSHM.newMessage.receiveImpl leftover packet = some message) : Origin message

/-- The bytes at `GetData`, with the segment's bytes from each handle on. -/
def MessageSHM.contents (memory : Int → List UInt8) (message : MessageSHM) : List UInt8 :=
  (memory message.fHandle).take message.fSize

def SameParts (memory : Int → List UInt8) : List MessageSHM → List MessageSHM → Prop :=
  List.Forall₂ fun part message =>
    message.fSize = part.fSize ∧ message.contents memory = part.contents memory

def Delivers (memory : Int → List UInt8) (parts : List MessageSHM) (hops : List Hop) : Prop :=
  (∃ received, Travels (.vector :: hops) parts received) ∧
    ∀ received, Travels (.vector :: hops) parts received → SameParts memory parts received

/-- One part needs a filled `zmq_msg_t` and has to stop after the vector hop, unless
its size is zero.  Several parts need inline bytes that tell their size and travel by
vector hops only; parts of size zero also survive when the last hop drops them. -/
def Deliverable : List MessageSHM → List Hop → Prop
  | [part], hops =>
      part.fMessage.filled = true ∧
        (hops = [] ∨ (∀ hop ∈ hops, hop = .single) ∧ part.fSize = 0)
  | parts, hops =>
      ((∀ hop ∈ hops, hop = .vector) ∧ ∀ part ∈ parts, part.fMessage.bytes.fSize = part.fSize) ∨
        (hops.getLast? = some .single ∧ ∀ part ∈ parts, part.fSize = 0)

def MessageSHM.hollow (leftover : MetaHeader) : MessageSHM :=
  { newMessage with fMessage := ⟨false, leftover⟩ }

def Hop.makes : Hop → MetaHeader → MessageSHM
  | .vector => .ofHeader
  | .single => .hollow

theorem Hop.makes_bytes (hop : Hop) (header : MetaHeader) :
    (hop.makes header).fMessage.bytes = header := by
  cases hop <;> rfl

theorem Hop.makes_packet (hop : Hop) (header : MetaHeader) :
    ((hop.makes header).sendImpl .accepted).packet = some [] := by
  cases hop <;> rfl

theorem receiveImpl_nothing (leftover : MetaHeader) :
    MessageSHM.newMessage.receiveImpl leftover [] = some (Hop.single.makes leftover) := rfl

theorem vector_passes_several {parts received : List MessageSHM} (several : parts.length ≠ 1)
    (few : parts.length < 2 ^ 32) :
    Hop.vector.passes parts received ↔
      received = (parts.map fun part => part.fMessage.bytes).map Hop.vector.makes := by
  simp [Hop.passes, sendImpl_several several few, sendPacked, receiveImpl, Hop.makes]

theorem vector_passes_one {part : MessageSHM} {packet : List MetaHeader}
    {received : List MessageSHM} (sent : (part.sendImpl .accepted).packet = some packet) :
    Hop.vector.passes [part] received ↔ received = packet.map .ofHeader := by
  simp [Hop.passes, sendImpl_one, sent, receiveImpl]

theorem single_passes {hop : Hop} {headers : List MetaHeader} {received : List MessageSHM} :
    Hop.single.passes (headers.map hop.makes) received ↔
      ∃ leftovers : List MetaHeader,
        leftovers.length = headers.length ∧ received = leftovers.map Hop.single.makes := by
  induction headers generalizing received with
  | nil => simp [Hop.passes]
  | cons header headers ih =>
      have first : ∀ message, (∃ packet leftover,
          ((hop.makes header).sendImpl .accepted).packet = some packet ∧
            MessageSHM.newMessage.receiveImpl leftover packet = some message) ↔
          ∃ leftover, message = Hop.single.makes leftover := by
        intro message
        simp [hop.makes_packet, receiveImpl_nothing, eq_comm]
      simp only [Hop.passes, List.map_cons, List.forall₂_cons_left_iff, first] at ih ⊢
      constructor
      · intro passed
        obtain ⟨message, rest, ⟨leftover, rfl⟩, passed, rfl⟩ := passed
        obtain ⟨leftovers, length, rfl⟩ := ih.mp passed
        exact ⟨leftover :: leftovers, by simp [length], rfl⟩
      · intro made
        obtain ⟨leftovers, length, rfl⟩ := made
        cases leftovers with
        | nil => simp at length
        | cons leftover leftovers =>
            exact ⟨_, _, ⟨leftover, rfl⟩, ih.mpr ⟨leftovers, by simpa using length, rfl⟩, rfl⟩

theorem travels_nothing {hops : List Hop} {received : List MessageSHM} :
    Travels hops [] received ↔ received = [] := by
  induction hops with
  | nil => rfl
  | cons hop hops ih =>
      have lost : ∀ middle, hop.passes [] middle ↔ middle = [] := by
        intro middle
        cases hop with
        | vector => exact vector_passes_several (by decide) (by decide)
        | single => exact List.forall₂_nil_left_iff
      simp [Travels, lost, ih]

theorem travels_several {hops : List Hop} {kind : Hop} {headers : List MetaHeader}
    {received : List MessageSHM} (several : headers.length ≠ 1) (few : headers.length < 2 ^ 32) :
    Travels hops (headers.map kind.makes) received ↔
      ∃ last : List MetaHeader, last.length = headers.length ∧
        received = last.map (hops.getLast?.getD kind).makes ∧
          ((∀ hop ∈ hops, hop = .vector) → last = headers) := by
  induction hops generalizing kind headers with
  | nil =>
      constructor
      · intro travelled
        exact ⟨headers, rfl, travelled, fun _ => rfl⟩
      · intro kept
        obtain ⟨last, _, same, kept⟩ := kept
        rw [kept (by simp)] at same
        exact same
  | cons hop hops ih =>
      simp only [Travels, List.getLast?_cons, Option.getD_some, List.forall_mem_cons]
      cases hop with
      | vector =>
          have passed : ∀ middle, Hop.vector.passes (headers.map kind.makes) middle ↔
              middle = headers.map Hop.vector.makes := by
            intro middle
            rw [vector_passes_several (by simpa using several) (by simpa using few)]
            simp only [List.map_map, Function.comp_def, kind.makes_bytes]
          simp [passed, ih several few]
      | single =>
          simp only [single_passes, reduceCtorEq, false_and, false_implies, and_true]
          constructor
          · intro travelled
            obtain ⟨middle, ⟨leftovers, length, rfl⟩, travelled⟩ := travelled
            obtain ⟨last, same, arrived, _⟩ := (ih (length ▸ several) (length ▸ few)).mp travelled
            exact ⟨last, same.trans length, arrived⟩
          · intro made
            obtain ⟨last, length, arrived⟩ := made
            exact ⟨_, ⟨last, length, rfl⟩,
              (ih (length ▸ several) (length ▸ few)).mpr ⟨last, rfl, arrived, fun _ => rfl⟩⟩

theorem travels_one {hops : List Hop} {kind : Hop} {header : MetaHeader}
    {received : List MessageSHM} :
    Travels hops [kind.makes header] received ↔
      if ∀ hop ∈ hops, hop = .single then
        ∃ last, received = [(hops.getLast?.getD kind).makes last] ∧ (hops = [] → last = header)
      else received = [] := by
  induction hops generalizing kind header with
  | nil => simp [Travels]
  | cons hop hops ih =>
      cases hop with
      | vector =>
          have lost : ∀ middle, Hop.vector.passes [kind.makes header] middle ↔ middle = [] := by
            intro middle
            rw [vector_passes_one (kind.makes_packet header)]
            rfl
          simp [Travels, lost, travels_nothing]
      | single =>
          have passed : ∀ middle, Hop.single.passes [kind.makes header] middle ↔
              ∃ leftover, middle = [Hop.single.makes leftover] := by
            intro middle
            have made : Hop.single.passes ([header].map kind.makes) middle ↔ _ := single_passes
            simpa [List.length_eq_one_iff] using made
          have journey : ∀ leftover, Travels hops [Hop.single.makes leftover] received ↔ _ :=
            fun leftover => ih
          simp only [Travels, passed, List.getLast?_cons, Option.getD_some, List.forall_mem_cons,
            true_and, reduceCtorEq, false_implies, and_true]
          by_cases parted : ∀ hop ∈ hops, hop = .single
          · simp only [if_pos parted] at journey ⊢
            constructor
            · intro travelled
              obtain ⟨_, ⟨leftover, rfl⟩, travelled⟩ := travelled
              obtain ⟨last, arrived, _⟩ := (journey leftover).mp travelled
              exact ⟨last, arrived⟩
            · intro made
              obtain ⟨last, arrived⟩ := made
              exact ⟨_, ⟨last, rfl⟩, (journey last).mpr ⟨last, arrived, fun _ => rfl⟩⟩
          · simp only [if_neg parted] at journey ⊢
            constructor
            · intro travelled
              obtain ⟨_, ⟨leftover, rfl⟩, travelled⟩ := travelled
              exact (journey leftover).mp travelled
            · intro nothing
              exact ⟨_, ⟨header, rfl⟩, (journey header).mpr nothing⟩

namespace Origin

variable {message : MessageSHM}

theorem created (origin : Origin message) : message.fMetaCreated = true := by
  cases origin with
  | empty => rfl
  | sized size handle => rfl
  | vector header => rfl
  | single leftover packet taken =>
      match packet with
      | [] => cases taken; rfl
      | [header] => cases taken; rfl

theorem contents_eq (origin : Origin message) (memory : Int → List UInt8)
    (sized : message.fMessage.bytes.fSize = message.fSize) :
    (MessageSHM.ofHeader message.fMessage.bytes).contents memory = message.contents memory := by
  cases origin with
  | empty => rfl
  | sized size handle => rfl
  | vector header => rfl
  | single leftover packet taken =>
      match packet with
      | [] =>
          cases taken
          have zero : leftover.fSize = 0 := sized
          simp [MessageSHM.contents, MessageSHM.ofHeader, MessageSHM.adopt, zero,
            MessageSHM.newMessage, MessageSHM.blank]
      | [header] => cases taken; rfl

theorem sized_of_filled (origin : Origin message) (filled : message.fMessage.filled = true) :
    message.fMessage.bytes.fSize = message.fSize := by
  cases origin with
  | empty => rfl
  | sized size handle => rfl
  | vector header => rfl
  | single leftover packet taken =>
      match packet with
      | [] => cases taken; cases filled
      | [header] => cases taken; rfl

theorem packet (origin : Origin message) :
    (message.sendImpl .accepted).packet =
      some (if message.fMessage.filled then [message.fMessage.bytes] else []) := by
  cases filled : message.fMessage.filled <;> simp [MessageSHM.sendImpl, origin.created, filled]

end Origin

variable {memory : Int → List UInt8} {parts : List MessageSHM}

theorem sameParts_vector (origins : ∀ part ∈ parts, Origin part) :
    SameParts memory parts
        ((parts.map fun part => part.fMessage.bytes).map Hop.vector.makes) ↔
      ∀ part ∈ parts, part.fMessage.bytes.fSize = part.fSize := by
  rw [List.map_map, SameParts, List.forall₂_map_right_iff, List.forall₂_same]
  constructor
  · intro same part member
    exact (same part member).1
  · intro sized part member
    exact ⟨sized part member, (origins part member).contents_eq memory (sized part member)⟩

theorem sameParts_single {leftovers : List MetaHeader} (length : leftovers.length = parts.length) :
    SameParts memory parts (leftovers.map Hop.single.makes) ↔ ∀ part ∈ parts, part.fSize = 0 := by
  induction parts generalizing leftovers with
  | nil =>
      cases List.length_eq_zero_iff.mp length
      simp [SameParts]
  | cons part parts ih =>
      cases leftovers with
      | nil => simp at length
      | cons leftover leftovers =>
          have rest := ih (by simpa using length)
          simp only [SameParts, List.map_cons, List.forall₂_cons, List.forall_mem_cons] at rest ⊢
          rw [rest]
          refine and_congr_left fun _ => ?_
          constructor
          · intro same
            exact same.1.symm
          · intro zero
            refine ⟨zero.symm, ?_⟩
            simp [MessageSHM.contents, Hop.makes, MessageSHM.hollow, MessageSHM.newMessage,
              MessageSHM.blank, zero]

theorem several_delivers (several : 2 ≤ parts.length) (few : parts.length < 2 ^ 32)
    (origins : ∀ part ∈ parts, Origin part) (hops : List Hop) :
    Delivers memory parts hops ↔
      ((∀ hop ∈ hops, hop = .vector) ∧ ∀ part ∈ parts, part.fMessage.bytes.fSize = part.fSize) ∨
        (hops.getLast? = some .single ∧ ∀ part ∈ parts, part.fSize = 0) := by
  have journey : ∀ received, Travels (.vector :: hops) parts received ↔
      ∃ last : List MetaHeader, last.length = parts.length ∧
        received = last.map (hops.getLast?.getD .vector).makes ∧
          ((∀ hop ∈ hops, hop = .vector) → last = parts.map fun part => part.fMessage.bytes) := by
    intro received
    have many : (parts.map fun part => part.fMessage.bytes).length ≠ 1 := by
      rw [List.length_map]
      omega
    have rest : Travels hops ((parts.map fun part => part.fMessage.bytes).map Hop.vector.makes)
        received ↔ _ := travels_several many (by rwa [List.length_map])
    have first : ∀ middle, Hop.vector.passes parts middle ↔ _ :=
      fun middle => vector_passes_several (by omega) few
    simpa [Travels, first] using rest
  simp only [Delivers, journey]
  by_cases packed : ∀ hop ∈ hops, hop = .vector
  · have last : hops.getLast?.getD .vector = .vector ∧ hops.getLast? ≠ some .single := by
      cases ending : hops.getLast? with
      | none => simp
      | some hop => simp [packed hop (List.mem_of_getLast? ending)]
    rw [last.1, ← sameParts_vector origins]
    constructor
    · intro delivered
      exact .inl ⟨packed, delivered.2 _ ⟨_, by simp, rfl, fun _ => rfl⟩⟩
    · intro deliverable
      cases deliverable with
      | inl same =>
          refine ⟨⟨_, _, by simp, rfl, fun _ => rfl⟩, ?_⟩
          intro received travelled
          obtain ⟨headers, _, rfl, kept⟩ := travelled
          rw [kept packed]
          exact same.2
      | inr single => exact absurd single.1 last.2
  · -- the leftovers of the last single hop are arbitrary
    simp only [packed, false_implies, and_true, false_and, false_or]
    have leftovers : (parts.map fun part => (⟨part.fSize + 1, 0, 0, 0⟩ : MetaHeader)).length =
        parts.length := List.length_map _
    cases ending : hops.getLast? with
    | none => simp [List.getLast?_eq_none_iff.mp ending] at packed
    | some hop =>
        simp only [Option.getD_some, Option.some.injEq]
        cases hop with
        | single =>
            constructor
            · intro delivered
              exact ⟨rfl, (sameParts_single leftovers).mp (delivered.2 _ ⟨_, leftovers, rfl⟩)⟩
            · intro zero
              refine ⟨⟨_, _, leftovers, rfl⟩, ?_⟩
              intro received travelled
              obtain ⟨last, length, rfl⟩ := travelled
              exact (sameParts_single length).mpr zero.2
        | vector =>
            simp only [reduceCtorEq, false_and, iff_false, not_and]
            intro _ delivered
            have same := delivered _ ⟨_, leftovers, rfl⟩
            rw [SameParts, List.map_map, List.forall₂_map_right_iff, List.forall₂_same] at same
            obtain ⟨part, member⟩ := List.exists_mem_of_length_pos (show 0 < parts.length by omega)
            have grown : part.fSize + 1 = part.fSize := (same part member).1
            omega

theorem one_delivers {part : MessageSHM} (origin : Origin part) (hops : List Hop) :
    Delivers memory [part] hops ↔
      part.fMessage.filled = true ∧
        (hops = [] ∨ (∀ hop ∈ hops, hop = .single) ∧ part.fSize = 0) := by
  have first : ∀ middle, Hop.vector.passes [part] middle ↔ _ :=
    fun middle => vector_passes_one origin.packet
  cases filled : part.fMessage.filled with
  | false =>
      have lost : ∀ received, Travels (.vector :: hops) [part] received ↔ received = [] := by
        intro received
        simp [Travels, first, filled, travels_nothing]
      simp [Delivers, lost, SameParts]
  | true =>
      have journey : ∀ received, Travels (.vector :: hops) [part] received ↔
          Travels hops [Hop.vector.makes part.fMessage.bytes] received := by
        intro received
        simp [Travels, first, filled, Hop.makes]
      simp only [Delivers, journey, travels_one, true_and]
      by_cases parted : ∀ hop ∈ hops, hop = .single
      · simp only [if_pos parted]
        cases ending : hops.getLast? with
        | none =>
            have stopped := List.getLast?_eq_none_iff.mp ending
            have arrives : SameParts memory [part] [Hop.vector.makes part.fMessage.bytes] := by
              have sized := origin.sized_of_filled filled
              exact .cons ⟨sized, origin.contents_eq memory sized⟩ .nil
            simpa [stopped] using arrives
        | some hop =>
            have moved : hops ≠ [] := by
              intro stopped
              simp [stopped] at ending
            cases parted hop (List.mem_of_getLast? ending)
            have dropped : ∀ leftover, SameParts memory [part] [Hop.single.makes leftover] ↔
                part.fSize = 0 := by
              intro leftover
              have same : SameParts memory [part] ([leftover].map Hop.single.makes) ↔ _ :=
                sameParts_single rfl
              simpa using same
            simp only [Option.getD_some, moved, false_implies, and_true, false_or]
            constructor
            · intro delivered
              have same := delivered.2 _ ⟨part.fMessage.bytes, rfl⟩
              exact ⟨parted, (dropped _).mp same⟩
            · intro zero
              refine ⟨⟨_, part.fMessage.bytes, rfl⟩, ?_⟩
              intro received travelled
              obtain ⟨leftover, rfl⟩ := travelled
              exact (dropped leftover).mpr zero.2
      · have moved : hops ≠ [] := by
          intro stopped
          simp [stopped] at parted
        simp [moved, parted, SameParts]

/-- Fewer than `2 ^ 26` parts, whose headers zmq counts in an `int`, arrive in exactly the
`Deliverable` cases. -/
theorem delivers_iff_deliverable (memory : Int → List UInt8) {parts : List MessageSHM}
    (nonempty : parts ≠ []) (few : parts.length < 2 ^ 26) (origins : ∀ part ∈ parts, Origin part)
    (hops : List Hop) :
    Delivers memory parts hops ↔ Deliverable parts hops := by
  match parts, nonempty, origins with
  | [part], _, origins => exact one_delivers (origins part (by simp)) hops
  | first :: second :: rest, _, origins =>
      have short : (first :: second :: rest).length < 2 ^ 32 := by omega
      exact several_delivers (by simp) short origins hops

/-- An empty and a sized message reach the third device by vector hops. -/
theorem mixed_parts_delivered :
    Delivers (fun _ => [1, 2, 3, 4]) [.newMessage, .ofSize 3 (some 16)] [.vector, .vector] := by
  refine (delivers_iff_deliverable _ (by simp) (by decide) ?_ _).mpr (.inl ⟨by decide, by decide⟩)
  intro part member
  simp only [List.mem_cons, List.not_mem_nil, or_false] at member
  cases member with
  | inl empty => exact empty ▸ .empty
  | inr sized => exact sized ▸ .sized 3 16

/-- Two chunks received by the vector call and forwarded part by part arrive as two
empty messages. -/
theorem forwarded_parts_arrive_empty :
    ∃ first second received, Origin first ∧ Origin second ∧
      [first, second].map MessageSHM.fSize = [3, 5] ∧
      Travels [.vector, .single] [first, second] received ∧
      received.map MessageSHM.fSize = [0, 0] ∧
      ∀ memory, ¬ SameParts memory [first, second] received := by
  refine ⟨.ofSize 3 (some 16), .ofSize 5 (some 32), [.hollow ⟨0, 0, 0, 0⟩, .hollow ⟨0, 0, 0, 0⟩],
    .sized 3 16, .sized 5 32, rfl, ?_, rfl, ?_⟩
  · refine ⟨_, ⟨_, _, rfl, rfl, rfl⟩, _, ?_, rfl⟩
    exact .cons ⟨[], _, rfl, rfl⟩ (.cons ⟨[], _, rfl, rfl⟩ .nil)
  · intro memory same
    cases same with
    | cons first _ => cases first.1

end FairMQ.Shmem
