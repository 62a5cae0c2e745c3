import Mathlib.Algebra.BigOperators.Group.Multiset.Basic
import FairMQ.Shmem.World

namespace FairMQ.Shmem

open FairMQ.Data

namespace MessageSHM

def references (message : MessageSHM) : Multiset MetaHeader :=
  if 0 ≤ message.fHandle ∧ message.fQueued = false then {message.header} else 0

structure Truthful (message : MessageSHM) : Prop where
  chunk : message.fQueued = false → message.fMessage.filled = true → 0 ≤ message.fHandle
  described : message.fQueued = false → 0 ≤ message.fHandle →
    message.fMessage.bytes = message.header

end MessageSHM

def referencesOf : Option MessageSHM → Multiset MetaHeader
  | some message => message.references
  | none => 0

def travelling (wire : List (List MetaHeader)) : Multiset MetaHeader :=
  (wire.flatten : Multiset MetaHeader)

def World.references (world : World) : Multiset MetaHeader :=
  (world.objects.map referencesOf).sum + (world.wires.map travelling).sum

structure Faithful (world : World) : Prop where
  truthful : ∀ message, some message ∈ world.objects → message.Truthful
  headers : ∀ wire ∈ world.wires, ∀ packet ∈ wire, ∀ header ∈ packet, 0 ≤ header.fHandle

namespace MessageSHM

variable {message : MessageSHM}

theorem references_of_unqueued (unqueued : message.fQueued = false) (chunk : 0 ≤ message.fHandle) :
    message.references = {message.header} := by
  simp [references, unqueued, chunk]

theorem references_of_queued (queued : message.fQueued = true) : message.references = 0 := by
  simp [references, queued]

theorem references_of_empty (empty : message.fHandle < 0) : message.references = 0 := by
  simp [references, empty]

theorem truthful_of_empty (unfilled : message.fMessage.filled = false)
    (empty : message.fHandle < 0) : message.Truthful where
  chunk _ filled := by simp [unfilled] at filled
  described _ chunk := by omega

theorem newMessage_truthful : newMessage.Truthful :=
  truthful_of_empty rfl (by decide)

theorem ofHeader_truthful (header : MetaHeader) : (ofHeader header).Truthful where
  chunk _ filled := by cases filled
  described _ _ := rfl

theorem describe_truthful (message : MessageSHM) (size : Nat) (chunk : 0 ≤ message.fHandle) :
    (message.describe size).Truthful where
  chunk _ _ := chunk
  described _ _ := rfl

theorem queued_truthful (queued : message.fQueued = true) : message.Truthful where
  chunk unqueued := by simp [queued] at unqueued
  described unqueued := by simp [queued] at unqueued

end MessageSHM

/-- A call leaves the references with the messages or puts them into the packet, where
further headers may come from messages that refer to nothing. -/
structure HandsOver (messages : List MessageSHM) (sending : Sending)
    (stray : Multiset MetaHeader) : Prop where
  length : sending.messages.length = messages.length
  total : (sending.messages.map MessageSHM.references).sum +
    (sending.packet.getD [] : Multiset MetaHeader) =
      (messages.map MessageSHM.references).sum + stray
  truthful : ∀ message ∈ sending.messages, message.Truthful
  headers : ∀ packet, sending.packet = some packet → ∀ header ∈ packet, 0 ≤ header.fHandle

theorem HandsOver.unsent {messages : List MessageSHM} (result : Int)
    (truthful : ∀ message ∈ messages, message.Truthful) :
    HandsOver messages ⟨messages, none, result⟩ 0 where
  length := rfl
  total := by simp
  truthful := truthful
  headers packet none := by cases none

theorem MessageSHM.sendImpl_handsOver {message : MessageSHM} (attempt : Attempt)
    (truthful : message.Truthful) (unqueued : message.fQueued = false) :
    HandsOver [message] (message.sendImpl attempt) 0 := by
  have alone : ∀ one ∈ [message], one.Truthful := by simpa using truthful
  cases attempt with
  | again => exact .unsent _ alone
  | failed => exact .unsent _ alone
  | accepted =>
      simp only [sendImpl]
      split
      · exact .unsent _ alone
      · split
        · exact ⟨rfl, by simp, alone, by simp⟩
        · rename_i filled
          have chunk := truthful.chunk unqueued (by simpa using filled)
          have described := truthful.described unqueued chunk
          refine ⟨rfl, ?_, ?_, ?_⟩
          · have released : { message with
                fQueued := true, fMessage := message.fMessage.init }.references = 0 :=
              references_of_queued rfl
            simp [released, described, references_of_unqueued unqueued chunk]
          · simpa using queued_truthful rfl
          · simpa [described, header] using chunk

theorem MessageSHM.sendImpl_header (message : MessageSHM) (attempt : Attempt) :
    ∀ sent ∈ (message.sendImpl attempt).messages, sent.header = message.header := by
  cases attempt with
  | again => simp [sendImpl]
  | failed => simp [sendImpl]
  | accepted =>
      simp only [sendImpl]
      split
      · simp
      · split
        · simp
        · simp [header]

theorem sendImpl_header {messages : List MessageSHM} {attempt : Attempt} {sending : Sending}
    (done : sendImpl messages attempt = some sending) :
    ∀ sent ∈ sending.messages, ∃ message ∈ messages, sent.header = message.header := by
  intro sent member
  rcases sendImpl_cases done with ⟨before, message, rfl, rfl⟩ | ⟨_, rfl⟩
  · rcases List.mem_append.mp member with left | last
    · exact ⟨sent, List.mem_append_left _ left, rfl⟩
    · exact ⟨message, by simp, message.sendImpl_header attempt sent last⟩
  · cases attempt with
    | accepted =>
        obtain ⟨message, known, rfl⟩ := List.mem_map.mp member
        exact ⟨message, known, rfl⟩
    | again | failed => exact ⟨sent, member, rfl⟩

/-- What a vector `Send` copies from messages that refer to nothing. -/
def strays (messages : List MessageSHM) : List MetaHeader :=
  (messages.filter fun message => decide (message.fHandle < 0)).map fun message =>
    message.fMessage.bytes

theorem strays_of_holding {messages : List MessageSHM}
    (chunks : ∀ message ∈ messages, 0 ≤ message.fHandle) : strays messages = [] := by
  simpa [strays] using chunks

theorem bytes_eq_references {messages : List MessageSHM}
    (ready : ∀ message ∈ messages, message.Truthful ∧ message.fQueued = false) :
    ((messages.map fun message => message.fMessage.bytes : List MetaHeader) :
      Multiset MetaHeader) = (messages.map MessageSHM.references).sum + strays messages := by
  induction messages with
  | nil => rfl
  | cons message messages ih =>
      obtain ⟨truthful, unqueued⟩ := ready message (by simp)
      have rest := ih fun later member => ready later (by simp [member])
      simp only [List.map_cons, List.sum_cons]
      rw [← Multiset.cons_coe, rest]
      by_cases chunk : 0 ≤ message.fHandle
      · rw [truthful.described unqueued chunk,
          MessageSHM.references_of_unqueued unqueued chunk,
          show strays (message :: messages) = strays messages by simp [strays, chunk],
          add_assoc, Multiset.singleton_add]
      · have empty : message.fHandle < 0 := Int.not_le.mp chunk
        rw [MessageSHM.references_of_empty empty, zero_add,
          show strays (message :: messages) = message.fMessage.bytes :: strays messages by
            simp [strays, empty],
          ← Multiset.cons_coe, Multiset.add_cons]

theorem HandsOver.behind {before : List MessageSHM} {message : MessageSHM} {sending : Sending}
    (handsOver : HandsOver [message] sending 0) (truthful : ∀ kept ∈ before, kept.Truthful) :
    HandsOver (before ++ [message]) { sending with messages := before ++ sending.messages } 0 where
  length := by simp [handsOver.length]
  total := by
    have total := handsOver.total
    simp only [List.map_append, List.sum_append, add_zero] at total ⊢
    rw [add_assoc, total]
  truthful := by
    intro sent member
    exact (List.mem_append.mp member).elim (truthful sent) (handsOver.truthful sent)
  headers := handsOver.headers

theorem sendPacked_handsOver {messages : List MessageSHM} (attempt : Attempt)
    (ready : ∀ message ∈ messages, message.Truthful ∧ message.fQueued = false)
    (sound : ∀ header ∈ strays messages, 0 ≤ header.fHandle) :
    ∃ stray, HandsOver messages (sendPacked messages attempt) stray ∧
      ∀ header ∈ stray, header ∈ strays messages := by
  have truthful : ∀ message ∈ messages, message.Truthful :=
    fun message member => (ready message member).1
  cases attempt with
  | again => exact ⟨0, .unsent _ truthful, by simp⟩
  | failed => exact ⟨0, .unsent _ truthful, by simp⟩
  | accepted =>
      have packed := bytes_eq_references ready
      refine ⟨strays messages, ⟨by simp [sendPacked], ?_, ?_, ?_⟩, fun _ member => member⟩
      · have released : (messages.map fun message =>
            { message with fQueued := true }.references).sum = 0 := by
          simp [MessageSHM.references]
        simpa [sendPacked, Function.comp_def, released] using packed
      · intro message member
        obtain ⟨old, _, rfl⟩ := List.mem_map.mp member
        exact MessageSHM.queued_truthful rfl
      · intro packet same header member
        cases same
        obtain ⟨message, known, rfl⟩ := List.mem_map.mp member
        by_cases chunk : 0 ≤ message.fHandle
        · rw [(truthful message known).described (ready message known).2 chunk]
          exact chunk
        · apply sound message.fMessage.bytes
          apply List.mem_map_of_mem
          simpa [known] using chunk

theorem sendImpl_handsOver {messages : List MessageSHM} {attempt : Attempt} {sending : Sending}
    (ready : ∀ message ∈ messages, message.Truthful ∧ message.fQueued = false)
    (sound : messages.length = 1 ∨ ∀ header ∈ strays messages, 0 ≤ header.fHandle)
    (done : sendImpl messages attempt = some sending) :
    ∃ stray, HandsOver messages sending stray ∧
      ∀ header ∈ stray, header ∈ strays messages ∧ messages.length ≠ 1 := by
  rcases sendImpl_cases done with ⟨before, message, rfl, rfl⟩ | ⟨several, rfl⟩
  · obtain ⟨truthful, unqueued⟩ := ready message (by simp)
    have last := message.sendImpl_handsOver attempt truthful unqueued
    exact ⟨0, last.behind fun kept member => (ready kept (by simp [member])).1, by simp⟩
  · obtain ⟨stray, handsOver, among⟩ :=
      sendPacked_handsOver attempt ready (sound.resolve_left several)
    exact ⟨stray, handsOver, fun header member => ⟨among header member, several⟩⟩

namespace World

variable {world after : World} {id wire : Nat} {message : MessageSHM}

theorem usable_eq_some :
    world.usable id = some message ↔
      world.objects[id]? = some (some message) ∧ message.fQueued = false := by
  unfold usable
  split
  · rename_i stored found
    cases queued : stored.fQueued with
    | true =>
        simp only [found, if_true, reduceCtorEq, Option.some.injEq, false_iff, not_and]
        intro same
        simp [← same, queued]
    | false =>
        simp only [found, Bool.false_eq_true, if_false, Option.some.injEq]
        exact ⟨fun same => ⟨same, same ▸ queued⟩, fun both => both.1⟩
  · rename_i missing
    simp only [reduceCtorEq, false_iff, not_and]
    intro found
    exact absurd found (missing message)

theorem usables_eq_some {ids : List Nat} {messages : List MessageSHM}
    (found : world.usables ids = some messages) :
    ids.map (fun id => world.objects[id]?) = (messages.map some).map some ∧
      ∀ message ∈ messages, message.fQueued = false := by
  induction ids generalizing messages with
  | nil =>
      cases found
      simp
  | cons id ids ih =>
      simp only [usables] at found
      split at found
      · rename_i message rest first later
        cases found
        obtain ⟨stored, unqueued⟩ := usable_eq_some.mp first
        obtain ⟨storedRest, unqueuedRest⟩ := ih later
        refine ⟨by simp [stored, storedRest], ?_⟩
        intro message member
        cases member with
        | head => exact unqueued
        | tail _ member => exact unqueuedRest message member
      · contradiction

theorem mem_references {header : MetaHeader} :
    header ∈ world.references ↔
      (∃ message, some message ∈ world.objects ∧ header ∈ message.references) ∨
        ∃ wire ∈ world.wires, ∃ packet ∈ wire, header ∈ packet := by
  rw [references, Multiset.mem_add, mem_sum_map, mem_sum_map]
  apply or_congr
  · constructor
    · rintro ⟨place, stored, member⟩
      cases place with
      | none => cases member
      | some message => exact ⟨message, stored, member⟩
    · rintro ⟨message, stored, member⟩
      exact ⟨some message, stored, member⟩
  · simp only [travelling, Multiset.mem_coe, List.mem_flatten]

theorem references_append (world : World) (messages : List MessageSHM) (live : Finset Int) :
    { world with live, objects := world.objects ++ messages.map some }.references =
      (messages.map MessageSHM.references).sum + world.references := by
  simp only [references, List.map_append, List.sum_append, List.map_map,
    Function.comp_def, referencesOf]
  rw [add_comm (List.sum _), add_assoc]

theorem references_set (world : World) {old : Option MessageSHM}
    (found : world.objects[id]? = some old) (new : Option MessageSHM) (live : Finset Int) :
    { world with live, objects := world.objects.set id new }.references + referencesOf old =
      world.references + referencesOf new := by
  have moved := sum_map_set referencesOf found new
  simp only [references]
  rw [add_right_comm, moved, add_right_comm]

theorem references_wire {old : List (List MetaHeader)} (found : world.wires[wire]? = some old)
    (new : List (List MetaHeader)) :
    { world with wires := world.wires.set wire new }.references + travelling old =
      world.references + travelling new := by
  have moved := sum_map_set travelling found new
  simp only [references]
  rw [add_assoc, moved, add_assoc]

end World

namespace Faithful

variable {world after : World} {id wire : Nat} {message : MessageSHM}

theorem stored (faithful : Faithful world) (found : world.objects[id]? = some (some message)) :
    message.Truthful :=
  faithful.truthful message (List.mem_of_getElem? found)

theorem usables (faithful : Faithful world) {ids : List Nat} {messages : List MessageSHM}
    (found : world.usables ids = some messages) :
    ∀ message ∈ messages, message.Truthful ∧ message.fQueued = false := by
  obtain ⟨stored, unqueued⟩ := World.usables_eq_some found
  intro message member
  have place : some (some message) ∈ ids.map fun id => world.objects[id]? := by
    simpa [stored] using member
  obtain ⟨id, _, isStored⟩ := List.mem_map.mp place
  exact ⟨faithful.stored isStored, unqueued message member⟩

theorem set (faithful : Faithful world) {place : Option MessageSHM} (live : Finset Int)
    (new : ∀ message, place = some message → message.Truthful) :
    Faithful { world with live, objects := world.objects.set id place } where
  truthful := by
    intro message member
    cases List.mem_or_eq_of_mem_set member with
    | inl old => exact faithful.truthful message old
    | inr same => exact new message same.symm
  headers := faithful.headers

theorem append (faithful : Faithful world) (live : Finset Int) (messages : List MessageSHM)
    (new : ∀ message ∈ messages, message.Truthful) :
    Faithful { world with live, objects := world.objects ++ messages.map some } where
  truthful := by
    intro message member
    cases List.mem_append.mp member with
    | inl old => exact faithful.truthful message old
    | inr added => exact new message (by simpa using added)
  headers := faithful.headers

theorem transmit (faithful : Faithful world) {ids : List Nat} {messages : List MessageSHM}
    {sending : Sending} {stray : Multiset MetaHeader} (distinct : ids.Nodup)
    (found : ids.map (fun id => world.objects[id]?) = (messages.map some).map some)
    (handsOver : HandsOver messages sending stray)
    (stepped : world.transmit ids wire sending = some after) :
    after.references = world.references + stray ∧ Faithful after := by
  have lengths : (sending.messages.map some).length = (messages.map some).length := by
    simp [handsOver.length]
  have moved : ((setAll world.objects ids (sending.messages.map some)).map referencesOf).sum +
      (messages.map MessageSHM.references).sum =
        (world.objects.map referencesOf).sum +
          (sending.messages.map MessageSHM.references).sum := by
    simpa only [List.map_map, Function.comp_def, referencesOf] using
      sum_map_setAll referencesOf distinct found lengths
  have truthful : ∀ message,
      some message ∈ setAll world.objects ids (sending.messages.map some) →
        message.Truthful := by
    intro message member
    cases mem_setAll member with
    | inl old => exact faithful.truthful message old
    | inr new =>
        obtain ⟨sent, known, same⟩ := List.mem_map.mp new
        exact Option.some.inj same ▸ handsOver.truthful sent known
  have total := handsOver.total
  unfold World.transmit at stepped
  split at stepped
  · rename_i queue packet wired sent
    cases stepped
    have queued := sum_map_set travelling wired (queue ++ [packet])
    refine ⟨?_, truthful, ?_⟩
    · rw [sent] at total
      simp only [travelling, List.flatten_append, List.flatten_cons, List.flatten_nil,
        List.append_nil, ← Multiset.coe_add] at queued
      ext header
      have moved := congrArg (Multiset.count header) moved
      have total := congrArg (Multiset.count header) total
      have queued := congrArg (Multiset.count header) queued
      simp only [World.references, Multiset.count_add, Option.getD_some] at moved total queued ⊢
      omega
    · intro other known
      cases List.mem_or_eq_of_mem_set known with
      | inl old => exact faithful.headers other old
      | inr new =>
          intro travelling member
          rw [new] at member
          cases List.mem_append.mp member with
          | inl old => exact faithful.headers queue (List.mem_of_getElem? wired) travelling old
          | inr last =>
              rw [List.mem_singleton.mp last]
              exact handsOver.headers packet sent
  · rename_i sent
    cases stepped
    refine ⟨?_, truthful, faithful.headers⟩
    have same : ((setAll world.objects ids (sending.messages.map some)).map referencesOf).sum =
        (world.objects.map referencesOf).sum + stray := by
      rw [sent, Option.getD_none, Multiset.coe_nil, add_zero] at total
      rw [total, add_comm (List.sum (messages.map MessageSHM.references)), ← add_assoc] at moved
      exact add_right_cancel moved
    simp only [World.references, same]
    exact add_right_comm _ _ _
  · contradiction

theorem popped (faithful : Faithful world) {packet : List MetaHeader}
    {queue : List (List MetaHeader)} (wired : world.wires[wire]? = some (packet :: queue)) :
    { world with wires := world.wires.set wire queue }.references + (packet : Multiset MetaHeader) =
        world.references ∧
      (∀ header ∈ packet, 0 ≤ header.fHandle) ∧
      Faithful { world with wires := world.wires.set wire queue } := by
  have known := faithful.headers _ (List.mem_of_getElem? wired)
  refine ⟨?_, known packet (by simp), faithful.truthful, ?_⟩
  · have moved := World.references_wire wired queue
    rw [show travelling (packet :: queue) = packet + travelling queue by
        simp [travelling, List.flatten_cons], ← add_assoc] at moved
    exact add_right_cancel moved
  · intro other member
    cases List.mem_or_eq_of_mem_set member with
    | inl old => exact faithful.headers other old
    | inr new =>
        intro later member
        exact known later (List.mem_cons_of_mem _ (new ▸ member))

theorem receiveImpl_references {packet : List MetaHeader}
    (chunks : ∀ header ∈ packet, 0 ≤ header.fHandle) :
    ((receiveImpl packet).map MessageSHM.references).sum = packet := by
  induction packet with
  | nil => rfl
  | cons header packet ih =>
      have rest := ih fun later member => chunks later (by simp [member])
      have held : (MessageSHM.ofHeader header).references = {header} :=
        MessageSHM.references_of_unqueued rfl (chunks header (by simp))
      simp only [receiveImpl, List.map_cons, List.sum_cons, held] at rest ⊢
      rw [rest, Multiset.singleton_add, Multiset.cons_coe]

theorem receiveVector (faithful : Faithful world)
    (stepped : world.receiveVector wire = some after) :
    after.references = world.references ∧ Faithful after := by
  unfold World.receiveVector at stepped
  split at stepped
  · rename_i packet queue wired
    cases stepped
    obtain ⟨total, chunks, rest⟩ := faithful.popped wired
    constructor
    · have appended := World.references_append
        { world with wires := world.wires.set wire queue } (receiveImpl packet) world.live
      rw [receiveImpl_references chunks, add_comm, total] at appended
      exact appended
    · apply rest.append
      intro message member
      obtain ⟨header, _, rfl⟩ := List.mem_map.mp member
      exact MessageSHM.ofHeader_truthful header
  · contradiction

theorem newMessage_receiveImpl {packet : List MetaHeader} (leftover : MetaHeader)
    (chunks : ∀ header ∈ packet, 0 ≤ header.fHandle) :
    referencesOf (MessageSHM.newMessage.receiveImpl leftover packet) =
        (if packet.length ≤ 1 then (packet : Multiset MetaHeader) else 0) ∧
      ∀ message, MessageSHM.newMessage.receiveImpl leftover packet = some message →
        message.Truthful := by
  match packet, chunks with
  | [], _ =>
      refine ⟨rfl, ?_⟩
      intro message same
      exact Option.some.inj same ▸ MessageSHM.truthful_of_empty rfl (Int.negSucc_lt_zero 0)
  | [header], chunks =>
      have chunk := chunks header (by simp)
      constructor
      · exact MessageSHM.references_of_unqueued rfl chunk
      · intro message same
        cases same
        exact ⟨fun _ _ => chunk, fun _ _ => rfl⟩
  | _ :: _ :: _, _ =>
      refine ⟨by simp [MessageSHM.receiveImpl, referencesOf], ?_⟩
      intro message same
      cases same

theorem receive (faithful : Faithful world) {leftover : MetaHeader}
    (stepped : world.receive id wire leftover = some after) :
    ∃ packet queue, world.wires[wire]? = some (packet :: queue) ∧
      (after.references + if packet.length ≤ 1 then 0 else (packet : Multiset MetaHeader)) =
        world.references ∧
      Faithful after := by
  unfold World.receive at stepped
  split at stepped
  · rename_i message packet queue stored wired
    split at stepped
    · rename_i fresh
      cases stepped
      subst fresh
      obtain ⟨found, _⟩ := World.usable_eq_some.mp stored
      obtain ⟨total, chunks, rest⟩ := faithful.popped wired
      obtain ⟨taken, truthful⟩ := newMessage_receiveImpl leftover chunks
      refine ⟨packet, queue, wired, ?_, rest.set _ truthful⟩
      have moved := World.references_set { world with wires := world.wires.set wire queue }
        found (MessageSHM.newMessage.receiveImpl leftover packet) world.live
      rw [show referencesOf (some MessageSHM.newMessage) = 0 from rfl, add_zero, taken] at moved
      rw [← total]
      simp only at moved ⊢
      rw [moved]
      split
      · rw [add_zero]
      · rw [add_zero]
    · contradiction
  · contradiction

theorem erase (faithful : Faithful world) (found : world.objects[id]? = some (some message))
    (live : Finset Int) :
    { world with live, objects := world.objects.set id none }.references + message.references =
        world.references ∧
      Faithful { world with live, objects := world.objects.set id none } := by
  constructor
  · simpa [referencesOf] using world.references_set found none live
  · exact faithful.set live fun _ impossible => by cases impossible

end Faithful

theorem faithful_start (wires : Nat) : Faithful (.start wires) where
  truthful message member := by simp [World.start] at member
  headers wire member packet travelling := by
    simp only [World.start, List.mem_replicate] at member
    simp [member.2] at travelling

end FairMQ.Shmem
