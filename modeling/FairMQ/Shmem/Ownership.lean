import FairMQ.Shmem.Transfer

namespace FairMQ.Shmem

open FairMQ.Data

def MessageSHM.held (message : MessageSHM) : Multiset Int :=
  if 0 ≤ message.fHandle ∧ message.fQueued = false then {message.fHandle} else 0

def heldBy : Option MessageSHM → Multiset Int
  | some message => message.held
  | none => 0

def carried (packet : List MetaHeader) : Multiset Int :=
  (packet.map fun header => {header.fHandle}).sum

def inFlight (wire : List (List MetaHeader)) : Multiset Int :=
  (wire.map carried).sum

def World.owners (world : World) : Multiset Int :=
  (world.objects.map heldBy).sum + (world.wires.map inFlight).sum

structure MessageSHM.Sound (message : MessageSHM) : Prop where
  regionless : message.fRegionId = 0
  chunk : message.fQueued = false → message.fMessage.filled = true → 0 ≤ message.fHandle
  described : message.fQueued = false → 0 ≤ message.fHandle →
    message.fMessage.bytes = message.header

structure Owned (world : World) : Prop where
  backed : Backed world.owners world.live
  positive : ∀ handle ∈ world.live, 0 < handle
  sound : ∀ message, some message ∈ world.objects → message.Sound
  regionless : ∀ wire ∈ world.wires, ∀ packet ∈ wire, ∀ header ∈ packet, header.fRegionId = 0

def chunksOf (references : Multiset MetaHeader) : Multiset Int :=
  (references.filter fun header => header.fRegionId = 0).map MetaHeader.fHandle

def World.freed (world : World) (message : MessageSHM) : Finset Int :=
  match message.closeMessage with
  | .deallocate handle => world.live.erase handle
  | _ => world.live

/-- Which headers are in use: all that are on the segment are allowed, and no others that
are empty. -/
structure RegionRule where
  allows : MetaHeader → Prop
  segment : ∀ header, header.fRegionId = 0 → allows header
  empty : ∀ header, allows header → header.fHandle < 0 → header.fRegionId = 0

def RegionRule.segmentOnly : RegionRule where
  allows header := header.fRegionId = 0
  segment _ onSegment := onSegment
  empty _ allowed _ := allowed

structure Accounted (rule : RegionRule) (world : World) : Prop where
  faithful : Faithful world
  backed : Backed (chunksOf world.references) world.live
  positive : ∀ handle ∈ world.live, 0 < handle
  messages : ∀ message, some message ∈ world.objects → rule.allows message.header
  headers : ∀ wire ∈ world.wires, ∀ packet ∈ wire, ∀ header ∈ packet, rule.allows header

namespace MessageSHM

variable {message : MessageSHM}

theorem held_eq (message : MessageSHM) : message.held = message.references.map (·.fHandle) := by
  unfold held references
  split <;> rfl

theorem held_of_unqueued (unqueued : message.fQueued = false) (chunk : 0 ≤ message.fHandle) :
    message.held = {message.fHandle} := by
  simp [held, unqueued, chunk]

theorem Truthful.sound (truthful : message.Truthful) (regionless : message.fRegionId = 0) :
    message.Sound :=
  ⟨regionless, truthful.chunk, truthful.described⟩

end MessageSHM

namespace World

variable {world after : World} {id : Nat} {message : MessageSHM}

theorem heldBy_eq (object : Option MessageSHM) :
    heldBy object = (referencesOf object).map (·.fHandle) := by
  cases object with
  | none => rfl
  | some message => exact message.held_eq

theorem carried_eq (packet : List MetaHeader) :
    carried packet = (packet : Multiset MetaHeader).map (·.fHandle) := by
  induction packet with
  | nil => rfl
  | cons header packet ih =>
      simp only [carried, List.map_cons, List.sum_cons] at ih ⊢
      rw [ih]
      rfl

theorem inFlight_eq (wire : List (List MetaHeader)) :
    inFlight wire = (travelling wire).map (·.fHandle) := by
  induction wire with
  | nil => rfl
  | cons packet wire ih =>
      simp only [inFlight, travelling, List.map_cons, List.sum_cons, List.flatten_cons,
        ← Multiset.coe_add, Multiset.map_add] at ih ⊢
      rw [ih, carried_eq]

theorem owners_eq (world : World) : world.owners = world.references.map (·.fHandle) := by
  have objects := map_list_sum (Multiset.mapAddMonoidHom MetaHeader.fHandle)
    (world.objects.map referencesOf)
  have wires := map_list_sum (Multiset.mapAddMonoidHom MetaHeader.fHandle)
    (world.wires.map travelling)
  simp only [Multiset.coe_mapAddMonoidHom, List.map_map, Function.comp_def] at objects wires
  rw [references, Multiset.map_add, objects, wires, owners]
  simp only [← heldBy_eq, ← inFlight_eq]

theorem mem_transmit {ids : List Nat} {wire : Nat} {sending : Sending}
    (stepped : world.transmit ids wire sending = some after) :
    after.live = world.live ∧ ∀ message, some message ∈ after.objects →
      some message ∈ world.objects ∨ message ∈ sending.messages := by
  have stored : ∀ message, some message ∈ setAll world.objects ids (sending.messages.map some) →
      some message ∈ world.objects ∨ message ∈ sending.messages := by
    intro message member
    apply (mem_setAll member).imp_right
    simp
  unfold transmit at stepped
  split at stepped
  · cases stepped
    exact ⟨rfl, stored⟩
  · cases stepped
    exact ⟨rfl, stored⟩
  · contradiction

end World

section Chunks

variable {references less : Multiset MetaHeader} {header : MetaHeader}

theorem chunksOf_add (references others : Multiset MetaHeader) :
    chunksOf (references + others) = chunksOf references + chunksOf others := by
  rw [chunksOf, Multiset.filter_add, Multiset.map_add, chunksOf, chunksOf]

theorem chunksOf_mono (fewer : less ≤ references) : chunksOf less ≤ chunksOf references :=
  Multiset.map_le_map (Multiset.filter_le_filter _ fewer)

theorem chunksOf_singleton (segment : header.fRegionId = 0) :
    chunksOf {header} = {header.fHandle} := by
  simp [chunksOf, Multiset.filter_singleton, segment]

theorem chunksOf_region (onRegion : header.fRegionId ≠ 0) : chunksOf {header} = 0 := by
  simp [chunksOf, Multiset.filter_singleton, onRegion]

theorem freed_cases (world : World) (message : MessageSHM) :
    (message.fRegionId = 0 ∧ message.references = {message.header} ∧
        world.freed message = world.live.erase message.fHandle) ∨
      world.freed message = world.live := by
  unfold World.freed MessageSHM.closeMessage
  by_cases holds : 0 ≤ message.fHandle ∧ message.fQueued = false
  · by_cases segment : message.fRegionId = 0
    · exact .inl ⟨segment, MessageSHM.references_of_unqueued holds.2 holds.1,
        by simp [holds, segment]⟩
    · exact .inr (by simp [holds, segment])
  · exact .inr (by simp [holds])

end Chunks

namespace Accounted

variable {rule : RegionRule} {world after : World} {id wire : Nat} {message : MessageSHM}

theorem stored (accounted : Accounted rule world)
    (found : world.objects[id]? = some (some message)) : rule.allows message.header :=
  accounted.messages message (List.mem_of_getElem? found)

theorem stored_empty (accounted : Accounted rule world)
    (found : world.objects[id]? = some (some message)) (empty : message.fHandle < 0) :
    message.fRegionId = 0 :=
  rule.empty message.header (accounted.stored found) empty

theorem allowed (accounted : Accounted rule world) {header : MetaHeader}
    (member : header ∈ world.references) : rule.allows header := by
  rcases World.mem_references.mp member with ⟨message, stored, held⟩ | ⟨wire, isWire, packet, rest⟩
  · unfold MessageSHM.references at held
    split at held
    · rw [Multiset.mem_singleton.mp held]
      exact accounted.messages message stored
    · cases held
  · exact accounted.headers wire isWire packet rest.1 header rest.2

theorem carryOver (accounted : Accounted rule world) (faithful : Faithful after)
    (live : after.live = world.live) (references : after.references ≤ world.references)
    (messages : ∀ message, some message ∈ after.objects → rule.allows message.header) :
    Accounted rule after where
  faithful := faithful
  backed := live ▸ accounted.backed.drop (chunksOf_mono references)
  positive := live ▸ accounted.positive
  messages := messages
  headers wire isWire packet isPacket header isHeader := by
    have member := World.mem_references.mpr (.inr ⟨wire, isWire, packet, isPacket, isHeader⟩)
    exact accounted.allowed (Multiset.mem_of_le references member)

theorem messages_set (accounted : Accounted rule world) {place : Option MessageSHM}
    (new : ∀ message, place = some message → rule.allows message.header) :
    ∀ message, some message ∈ world.objects.set id place → rule.allows message.header := by
  intro message member
  rcases List.mem_or_eq_of_mem_set member with old | same
  · exact accounted.messages message old
  · exact new message same.symm

theorem messages_append (accounted : Accounted rule world) (messages : List MessageSHM)
    (new : ∀ message ∈ messages, rule.allows message.header) :
    ∀ message, some message ∈ world.objects ++ messages.map some →
      rule.allows message.header := by
  intro message member
  rcases List.mem_append.mp member with old | added
  · exact accounted.messages message old
  · exact new message (by simpa using added)

theorem rearrange (accounted : Accounted rule world) {objects : List (Option MessageSHM)}
    (faithful : Faithful { world with objects })
    (fewer : chunksOf { world with objects }.references ≤ chunksOf world.references)
    (messages : ∀ message, some message ∈ objects → rule.allows message.header) :
    Accounted rule { world with objects } where
  faithful := faithful
  backed := accounted.backed.drop fewer
  positive := accounted.positive
  messages := messages
  headers := accounted.headers

theorem gain (accounted : Accounted rule world) {objects : List (Option MessageSHM)}
    {header : MetaHeader} (segment : header.fRegionId = 0) (positive : 0 < header.fHandle)
    (fresh : header.fHandle ∉ world.live)
    (gained : { world with objects }.references = world.references + {header})
    (faithful : Faithful { world with live := insert header.fHandle world.live, objects })
    (messages : ∀ message, some message ∈ objects → rule.allows message.header) :
    Accounted rule { world with live := insert header.fHandle world.live, objects } where
  faithful := faithful
  backed := by
    show Backed (chunksOf { world with objects }.references) _
    rw [gained, chunksOf_add, chunksOf_singleton segment, Multiset.add_comm,
      Multiset.singleton_add]
    exact accounted.backed.acquire fresh
  positive handle member := by
    rcases Finset.mem_insert.mp member with same | old
    · exact same ▸ positive
    · exact accounted.positive handle old
  messages := messages
  headers := accounted.headers

theorem allocate (accounted : Accounted rule world)
    (found : world.objects[id]? = some (some message)) (empty : message.fHandle < 0)
    {new : MessageSHM} (truthful : new.Truthful) (unqueued : new.fQueued = false)
    (segment : new.fRegionId = 0) (positive : 0 < new.fHandle) (fresh : new.fHandle ∉ world.live) :
    Accounted rule { world with
      live := insert new.fHandle world.live
      objects := world.objects.set id (some new) } := by
  have moved := world.references_set found (some new) world.live
  simp only [referencesOf, MessageSHM.references_of_empty empty, add_zero,
    MessageSHM.references_of_unqueued unqueued positive.le] at moved
  have onSegment : new.header.fRegionId = 0 := segment
  apply accounted.gain onSegment positive fresh moved
  · exact accounted.faithful.set _ fun other same => Option.some.inj same ▸ truthful
  · exact accounted.messages_set fun other same =>
      Option.some.inj same ▸ rule.segment _ onSegment

theorem replace (accounted : Accounted rule world)
    (found : world.objects[id]? = some (some message)) {new : MessageSHM}
    (truthful : new.Truthful) (chunks : chunksOf new.references ≤ chunksOf message.references)
    (allowed : rule.allows new.header) :
    Accounted rule { world with objects := world.objects.set id (some new) } := by
  have moved := congrArg chunksOf (world.references_set found (some new) world.live)
  rw [chunksOf_add, chunksOf_add] at moved
  have total := moved.le.trans (add_le_add (le_refl (chunksOf world.references)) chunks)
  apply accounted.rearrange
  · exact accounted.faithful.set _ fun other same => Option.some.inj same ▸ truthful
  · exact Multiset.le_of_add_le_add_right total
  · exact accounted.messages_set fun other same => Option.some.inj same ▸ allowed

theorem add (accounted : Accounted rule world) (truthful : message.Truthful)
    (nothing : chunksOf message.references = 0) (allowed : rule.allows message.header) :
    Accounted rule { world with objects := world.objects ++ [some message] } := by
  have appended := congrArg chunksOf (world.references_append [message] world.live)
  simp only [List.map_cons, List.map_nil, List.sum_cons, List.sum_nil, add_zero, chunksOf_add,
    nothing, zero_add] at appended
  apply accounted.rearrange
  · exact accounted.faithful.append world.live [message] (by simpa using truthful)
  · exact appended.le
  · exact accounted.messages_append [message] (by simpa using allowed)

theorem create (accounted : Accounted rule world) {size : Nat} {allocated : Option Int}
    (offered : world.offers allocated) :
    Accounted rule { world with
      live := world.allocate allocated
      objects := world.objects ++ [some (.ofSize size allocated)] } := by
  have onSegment : rule.allows (MessageSHM.ofSize size allocated).header := by
    apply rule.segment
    cases allocated <;> rfl
  cases allocated with
  | none =>
      have truthful : (MessageSHM.ofSize size none).Truthful :=
        MessageSHM.truthful_of_empty rfl (Int.negSucc_lt_zero 0)
      exact accounted.add truthful rfl onSegment
  | some handle =>
      obtain ⟨positive, fresh⟩ := offered
      have truthful : (MessageSHM.ofSize size (some handle)).Truthful :=
        MessageSHM.describe_truthful { MessageSHM.blank with fHandle := handle } size positive.le
      have held : (MessageSHM.ofSize size (some handle)).references = {⟨size, 0, handle, 0⟩} :=
        MessageSHM.references_of_unqueued rfl positive.le
      have appended := world.references_append [.ofSize size (some handle)] world.live
      simp only [List.map_cons, List.map_nil, List.sum_cons, List.sum_nil, add_zero, held] at appended
      rw [add_comm] at appended
      have segment : (MetaHeader.mk size 0 handle 0).fRegionId = 0 := rfl
      apply accounted.gain segment positive fresh appended
      · exact accounted.faithful.append _ [_] (by simpa using truthful)
      · exact accounted.messages_append [.ofSize size (some handle)] (by simpa using onSegment)

theorem transmit (accounted : Accounted rule world) {ids : List Nat}
    {messages : List MessageSHM} {sending : Sending} (distinct : ids.Nodup)
    (found : ids.map (fun id => world.objects[id]?) = (messages.map some).map some)
    (handsOver : HandsOver messages sending 0)
    (headers : ∀ sent ∈ sending.messages, ∃ message ∈ messages, sent.header = message.header)
    (stepped : world.transmit ids wire sending = some after) : Accounted rule after := by
  obtain ⟨references, faithful⟩ := accounted.faithful.transmit distinct found handsOver stepped
  obtain ⟨live, stored⟩ := World.mem_transmit stepped
  rw [add_zero] at references
  apply accounted.carryOver faithful live references.le
  intro sent member
  rcases stored sent member with old | isSent
  · exact accounted.messages sent old
  · obtain ⟨message, known, same⟩ := headers sent isSent
    have place : some (some message) ∈ ids.map fun id => world.objects[id]? := by
      simpa [found] using known
    obtain ⟨id, _, isStored⟩ := List.mem_map.mp place
    rw [same]
    exact accounted.stored isStored

theorem send (accounted : Accounted rule world) {attempt : Attempt}
    (stepped : world.step (.send id wire attempt) = some after) : Accounted rule after := by
  simp only [World.step] at stepped
  split at stepped
  · rename_i message usable
    obtain ⟨found, unqueued⟩ := World.usable_eq_some.mp usable
    apply accounted.transmit (List.nodup_singleton id) (by simp [found])
      (message.sendImpl_handsOver attempt (accounted.faithful.stored found) unqueued) _ stepped
    intro sent isSent
    exact ⟨message, List.mem_singleton_self message, message.sendImpl_header attempt sent isSent⟩
  · contradiction

theorem sendVector (accounted : Accounted rule world) {ids : List Nat} {attempt : Attempt}
    (stepped : world.step (.sendVector ids wire attempt) = some after) :
    Accounted rule after := by
  simp only [World.step] at stepped
  split at stepped
  · rename_i messages usable
    split at stepped
    · rename_i disciplined
      have none := strays_of_holding disciplined.2
      obtain ⟨sending, done, moved⟩ := Option.bind_eq_some_iff.mp stepped
      obtain ⟨stray, handsOver, among⟩ := sendImpl_handsOver
        (accounted.faithful.usables usable) (.inr (by simp [none])) done
      have empty : stray = 0 := by
        apply Multiset.eq_zero_of_forall_notMem
        intro header member
        simpa [none] using among header member
      rw [empty] at handsOver
      exact accounted.transmit disciplined.1 (World.usables_eq_some usable).1 handsOver
        (sendImpl_header done) moved
    · contradiction
  · contradiction

theorem receiveVector (accounted : Accounted rule world)
    (stepped : world.receiveVector wire = some after) : Accounted rule after := by
  obtain ⟨references, faithful⟩ := accounted.faithful.receiveVector stepped
  unfold World.receiveVector at stepped
  split at stepped
  · rename_i packet queue wired
    cases stepped
    apply accounted.carryOver faithful rfl references.le
    apply accounted.messages_append
    intro message member
    obtain ⟨header, isHeader, rfl⟩ := List.mem_map.mp member
    exact accounted.headers _ (List.mem_of_getElem? wired) packet List.mem_cons_self header isHeader
  · contradiction

theorem receiveImpl_references_le {packet : List MetaHeader} (leftover : MetaHeader)
    (chunks : ∀ header ∈ packet, 0 ≤ header.fHandle)
    (allowed : rule.allows message.header) (headers : ∀ header ∈ packet, rule.allows header)
    (considerate : packet = [] → message.fHandle < 0) :
    referencesOf (message.receiveImpl leftover packet) ≤ packet ∧
      ∀ received, message.receiveImpl leftover packet = some received →
        received.Truthful ∧ rule.allows received.header := by
  match packet with
  | [] =>
      have empty := considerate rfl
      have nothing : referencesOf (message.receiveImpl leftover []) = 0 :=
        MessageSHM.references_of_empty empty
      refine ⟨nothing.le, ?_⟩
      intro received isReceived
      cases isReceived
      exact ⟨MessageSHM.truthful_of_empty rfl empty, allowed⟩
  | [header] =>
      have member := List.mem_singleton_self header
      constructor
      · show MessageSHM.references _ ≤ {header}
        unfold MessageSHM.references
        split
        · exact le_refl _
        · exact Multiset.zero_le _
      · intro received isReceived
        cases isReceived
        exact ⟨⟨fun _ _ => chunks header member, fun _ _ => rfl⟩, headers header member⟩
  | _ :: _ :: _ =>
      refine ⟨Multiset.zero_le _, ?_⟩
      intro received isReceived
      cases isReceived

theorem adopt (accounted : Accounted rule world)
    (found : world.objects[id]? = some (some message)) {packet : List MetaHeader}
    {queue : List (List MetaHeader)} (wired : world.wires[wire]? = some (packet :: queue))
    (considerate : packet = [] → message.fHandle < 0) (leftover : MetaHeader) :
    Accounted rule { world with
      objects := world.objects.set id (message.receiveImpl leftover packet)
      wires := world.wires.set wire queue } := by
  obtain ⟨total, chunks, popped⟩ := accounted.faithful.popped wired
  have headers := accounted.headers _ (List.mem_of_getElem? wired) packet List.mem_cons_self
  obtain ⟨taken, received⟩ :=
    receiveImpl_references_le leftover chunks (accounted.stored found) headers considerate
  have moved := World.references_set { world with wires := world.wires.set wire queue } found
    (message.receiveImpl leftover packet) world.live
  have fewer := (Multiset.le_add_right _ _).trans
    (moved.le.trans ((add_le_add (le_refl _) taken).trans total.le))
  exact accounted.carryOver (popped.set _ fun new isNew => (received new isNew).1) rfl fewer
    (accounted.messages_set fun new isNew => (received new isNew).2)

theorem receive (accounted : Accounted rule world) {leftover : MetaHeader}
    (stepped : world.receive id wire leftover = some after) : Accounted rule after := by
  unfold World.receive at stepped
  split at stepped
  · rename_i message packet queue usable wired
    split at stepped
    · rename_i fresh
      cases stepped
      obtain ⟨found, _⟩ := World.usable_eq_some.mp usable
      apply accounted.adopt found wired
      intro _
      rw [fresh]
      exact Int.negSucc_lt_zero 0
    · contradiction
  · contradiction

theorem copy (accounted : Accounted rule world) {target source : Nat} {allocated : Option Int}
    (stepped : world.copy target source allocated = some after) : Accounted rule after := by
  unfold World.copy at stepped
  split at stepped
  · rename_i message other stored _
    obtain ⟨found, unqueued⟩ := World.usable_eq_some.mp stored
    split_ifs at stepped with empty uninitialized offered
    · cases stepped
      exact accounted
    · cases stepped
      cases allocated with
      | none =>
          have same : message.copy other none = message := by
            simp [MessageSHM.copy, MessageSHM.initializeChunk, empty]
          rw [same]
          exact accounted.replace found (accounted.faithful.stored found) (le_refl _)
            (accounted.stored found)
      | some handle =>
          rw [MessageSHM.copy_allocated empty uninitialized]
          obtain ⟨positive, fresh⟩ := offered
          have truthful := MessageSHM.describe_truthful { message with fHandle := handle }
            other.fSize positive.le
          have segment : message.fRegionId = 0 := accounted.stored_empty found empty
          exact accounted.allocate found empty truthful unqueued segment positive fresh
  · contradiction

theorem destroy (accounted : Accounted rule world) (stepped : world.destroy id = some after) :
    Accounted rule after := by
  unfold World.destroy at stepped
  split at stepped
  · rename_i message found
    cases stepped
    show Accounted rule
      { world with live := world.freed message, objects := world.objects.set id none }
    obtain ⟨erased, faithful⟩ := accounted.faithful.erase found (world.freed message)
    have messages : ∀ stored, some stored ∈ world.objects.set id none →
        rule.allows stored.header := accounted.messages_set nofun
    have chunks := congrArg chunksOf erased
    rw [chunksOf_add] at chunks
    rcases freed_cases world message with ⟨segment, references, freed⟩ | same
    · rw [references, chunksOf_singleton segment, Multiset.add_comm, Multiset.singleton_add] at chunks
      refine ⟨faithful, ?_, ?_, messages, accounted.headers⟩
      · rw [freed] at chunks ⊢
        exact Backed.release (chunks ▸ accounted.backed)
      · intro handle member
        rw [freed] at member
        exact accounted.positive handle (Finset.mem_of_mem_erase member)
    · rw [same] at faithful chunks ⊢
      exact accounted.rearrange faithful ((Multiset.le_add_right _ _).trans chunks.le) messages
  · contradiction

theorem start (rule : RegionRule) (wires : Nat) : Accounted rule (.start wires) where
  faithful := faithful_start wires
  backed := by
    have none : (World.start wires).references = 0 := by
      simp [World.references, World.start, travelling]
    rw [none]
    exact Multiset.zero_le _
  positive handle member := by simp [World.start] at member
  messages message member := by simp [World.start] at member
  headers wire member packet travelling := by
    simp only [World.start, List.mem_replicate] at member
    simp [member.2] at travelling

theorem step (accounted : Accounted rule world) {operation : Operation}
    (stepped : world.step operation = some after) : Accounted rule after := by
  cases operation with
  | newMessage =>
      cases stepped
      exact accounted.add MessageSHM.newMessage_truthful rfl (rule.segment _ rfl)
  | create size allocated =>
      simp only [World.step] at stepped
      split at stepped
      · rename_i offered
        cases stepped
        exact accounted.create offered
      · contradiction
  | send id wire attempt => exact accounted.send stepped
  | sendVector ids wire attempt => exact accounted.sendVector stepped
  | receive id wire leftover => exact accounted.receive stepped
  | receiveVector wire => exact accounted.receiveVector stepped
  | copy target source allocated => exact accounted.copy stepped
  | destroy id => exact accounted.destroy stepped

theorem owned (accounted : Accounted .segmentOnly world) : Owned world where
  backed := by
    have all : world.references.filter (fun header => header.fRegionId = 0) = world.references :=
      Multiset.filter_eq_self.mpr fun header member => accounted.allowed member
    have backed := accounted.backed
    rw [chunksOf, all] at backed
    rw [world.owners_eq]
    exact backed
  positive := accounted.positive
  sound message member :=
    (accounted.faithful.truthful message member).sound (accounted.messages message member)
  regionless := accounted.headers

end Accounted

theorem owned_of_reaches {world : World} (reached : ownershipSystem.Reaches world) :
    Owned world := by
  apply Accounted.owned
  refine reached.invariant ?_ ?_
  · rintro _ ⟨wires, rfl⟩
    exact .start _ wires
  · intro before operation after accounted _ stepped
    exact accounted.step stepped

/-- No chunk has two owners, none is referred to after it is freed, and nothing but
a live chunk is deallocated. -/
structure SinglyOwned (world : World) : Prop where
  once : ∀ handle ∈ world.live, world.owners.count handle ≤ 1
  live : ∀ handle ∈ world.owners, handle ∈ world.live
  deallocates : ∀ message, some message ∈ world.objects →
    ∀ handle, message.closeMessage = .deallocate handle → handle ∈ world.live

theorem chunks_singly_owned {world : World} (reached : ownershipSystem.Reaches world) :
    SinglyOwned world := by
  have owned := owned_of_reaches reached
  have live : ∀ handle ∈ world.owners, handle ∈ world.live := fun handle member =>
    owned.backed.exists_of_mem member
  refine ⟨fun handle _ => owned.backed.count_le_one handle, live, ?_⟩
  intro message member handle closed
  simp only [MessageSHM.closeMessage] at closed
  split_ifs at closed with holds regionless
  cases closed
  refine live _ (Multiset.mem_add.mpr (.inl ?_))
  have held : message.fHandle ∈ heldBy (some message) := by
    simp [heldBy, MessageSHM.held_of_unqueued holds.2 holds.1]
  exact mem_sum_map.mpr ⟨_, member, held⟩

/-- Two chunks travel together; one part is forwarded, where zmq takes no bytes of
it, the other is copied, and both are destroyed. -/
theorem forwarded_chunks_singly_owned :
    ∃ world, ownershipSystem.Reaches world ∧ world.live = {9} ∧ world.owners = {9} ∧
      SinglyOwned world := by
  obtain ⟨world, reached, live, owners⟩ :
      ∃ world, ownershipSystem.Reaches world ∧ world.live = {9} ∧ world.owners = {9} :=
    TransitionSystem.reaches_of_runUnder (World.start 2)
      [.create 10 (some 3), .create 20 (some 5), .sendVector [0, 1] 0 .accepted, .destroy 0,
        .destroy 1, .receiveVector 0, .send 2 1 .accepted, .newMessage,
        .copy 4 3 (some 9), .destroy 2, .destroy 3] ⟨2, rfl⟩ (by decide)
  exact ⟨world, reached, live, owners, chunks_singly_owned reached⟩

end FairMQ.Shmem
