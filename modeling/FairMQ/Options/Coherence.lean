import FairMQ.Options.ProgOptions

namespace FairMQ.Options

open FairMQ.Data

namespace FairMQChannelMap

variable {channels : FairMQChannelMap} {name : String} {index : Nat}

theorem lookup_map (rewrite : String → List FairMQChannel → List FairMQChannel)
    (entries : List (String × List FairMQChannel)) (name : String) :
    (entries.map fun entry => (entry.1, rewrite entry.1 entry.2)).lookup name =
      (entries.lookup name).map (rewrite name) := by
  induction entries with
  | nil => rfl
  | cons entry entries ih =>
      obtain ⟨name', found⟩ := entry
      by_cases same : name = name'
      · subst same
        simp
      · have different : (name == name') = false := beq_false_of_ne same
        simpa only [List.map_cons, List.lookup_cons, different] using ih

@[simp]
theorem at?_mapChannels (rewrite : String → Nat → FairMQChannel → FairMQChannel) :
    (channels.mapChannels rewrite).at? name index =
      (channels.at? name index).map (rewrite name index) := by
  have looked := lookup_map (fun name => List.mapIdx (rewrite name)) channels.entries name
  unfold at? mapChannels
  dsimp only
  rw [looked]
  cases channels.entries.lookup name with
  | none => rfl
  | some found => simp

theorem at?_set_self {old : FairMQChannel} (found : channels.at? name index = some old)
    (channel : FairMQChannel) :
    (channels.set name index channel).at? name index = some channel := by
  simp [set, found]

theorem at?_set_other {name' : String} {index' : Nat} (other : ¬(name' = name ∧ index' = index))
    (channel : FairMQChannel) :
    (channels.set name index channel).at? name' index' = channels.at? name' index' := by
  simp [set, other]

theorem lookup_eq_some_iff_mem {found : List FairMQChannel} :
    channels.entries.lookup name = some found ↔ (name, found) ∈ channels.entries := by
  constructor
  · intro looked
    obtain ⟨before, after, isEntries, _⟩ := List.lookup_eq_some_iff.mp looked
    simp [isEntries]
  · intro member
    obtain ⟨before, after, isEntries⟩ := List.append_of_mem member
    apply List.lookup_eq_some_iff.mpr
    refine ⟨before, after, isEntries, ?_⟩
    intro entry earlier
    have distinct := channels.distinct
    rw [isEntries, List.map_append, List.map_cons] at distinct
    have apart := (List.nodup_append.mp distinct).2.2 entry.1 (List.mem_map_of_mem earlier) name
      List.mem_cons_self
    simpa using apart.symm

end FairMQChannelMap

section Register

variable {name name' : String} {index index' : Nat} {member : Member}
  {channel channel' : FairMQChannel}

def entryAt (key : String) (options : ProgOptions) : Option ChannelKey × Option Value :=
  (options.fChannelKeyMap key, options.fVarMap key)

def entryOf (name : String) (index : Nat) (channel : FairMQChannel) (member : Member) :
    Option ChannelKey × Option Value :=
  (some ⟨name, index, member.registered⟩, some (member.value channel))

theorem updateVarMap_keeps {key key' : String} (different : key ≠ key') (val : Value) :
    Keeps (entryAt key) (ProgOptions.updateVarMap key' val) := by
  intro options
  simp [entryAt, ProgOptions.updateVarMap, different]

theorem registerMember_sets :
    Sets (entryAt (channelKey name index member)) (entryOf name index channel member)
      (ProgOptions.registerMember name (channel, index) · member) := by
  intro options
  simp [entryAt, entryOf, ProgOptions.registerMember, ProgOptions.updateVarMap,
    ProgOptions.setChannelKey]

theorem registerMember_keeps {key : String} (different : key ≠ channelKey name index member) :
    Keeps (entryAt key) (ProgOptions.registerMember name (channel, index) · member) := by
  intro options
  simp [entryAt, ProgOptions.registerMember, ProgOptions.updateVarMap,
    ProgOptions.setChannelKey, different]

theorem registerChannel_sets :
    Sets (entryAt (channelKey name index member)) (entryOf name index channel member)
      (ProgOptions.registerChannel name · (channel, index)) := by
  apply Sets.foldl member.mem_all registerMember_sets
  intro other _
  by_cases same : other = member
  · exact .inl (same ▸ registerMember_sets)
  · exact .inr (registerMember_keeps fun keys => same (channelKey_injective keys).2.2.symm)

theorem registerChannel_keeps (other : ¬(name' = name ∧ index' = index)) :
    Keeps (entryAt (channelKey name index member))
      (ProgOptions.registerChannel name' · (channel', index')) := by
  apply Keeps.foldl
  intro member' _
  apply registerMember_keeps
  intro keys
  obtain ⟨sameName, sameIndex, _⟩ := channelKey_injective keys
  exact other ⟨sameName.symm, sameIndex.symm⟩

theorem registerEntry_sets {found : List FairMQChannel} (present : found[index]? = some channel) :
    Sets (entryAt (channelKey name index member)) (entryOf name index channel member)
      (ProgOptions.registerEntry · (name, found)) := by
  apply Sets.comp_keeps
  · have listed : (channel, index) ∈ found.zipIdx := List.mk_mem_zipIdx_iff_getElem?.mpr present
    have written : Sets (entryAt (channelKey name index member)) (entryOf name index channel member)
        (ProgOptions.registerChannel name · (channel, index)) := registerChannel_sets
    apply Sets.foldl listed written
    intro (channel', index') listed'
    by_cases same : index' = index
    · subst same
      rw [List.mk_mem_zipIdx_iff_getElem?, present] at listed'
      cases listed'
      exact .inl written
    · exact .inr (registerChannel_keeps fun both => same both.2)
  · exact updateVarMap_keeps (channelKey_ne_numSocketsKey _ _ _ _) _

theorem registerEntry_keeps {found : List FairMQChannel}
    (absent : name' = name → found[index]? = none) :
    Keeps (entryAt (channelKey name index member))
      (ProgOptions.registerEntry · (name', found)) := by
  apply Keeps.comp
  · apply Keeps.foldl
    intro (channel', index') listed
    apply registerChannel_keeps
    intro ⟨sameName, sameIndex⟩
    rw [List.mk_mem_zipIdx_iff_getElem?, sameIndex, absent sameName] at listed
    cases listed
  · exact updateVarMap_keeps (channelKey_ne_numSocketsKey _ _ _ _) _

theorem updateMQValues_sets {options : ProgOptions}
    (present : options.fFairMQChannelMap.at? name index = some channel) :
    entryAt (channelKey name index member) options.updateMQValues =
      entryOf name index channel member := by
  obtain ⟨found, looked, atIndex⟩ := Option.bind_eq_some_iff.mp present
  have listed := FairMQChannelMap.lookup_eq_some_iff_mem.mp looked
  apply Sets.foldl listed (registerEntry_sets atIndex)
  intro (name', found') listed'
  by_cases same : name' = name
  · subst same
    have looked' := FairMQChannelMap.lookup_eq_some_iff_mem.mpr listed'
    rw [looked] at looked'
    cases looked'
    exact .inl (registerEntry_sets atIndex)
  · exact .inr (registerEntry_keeps fun sameName => absurd sameName same)

theorem updateMQValues_keeps {options : ProgOptions}
    (absent : options.fFairMQChannelMap.at? name index = none) :
    entryAt (channelKey name index member) options.updateMQValues =
      entryAt (channelKey name index member) options := by
  apply Keeps.foldl
  intro (name', found) listed
  apply registerEntry_keeps
  intro same
  have looked := FairMQChannelMap.lookup_eq_some_iff_mem.mpr listed
  rw [same] at looked
  rw [FairMQChannelMap.at?, looked] at absent
  exact absent

theorem registerEntry_keeps_channels (entry : String × List FairMQChannel) :
    Keeps ProgOptions.fFairMQChannelMap (ProgOptions.registerEntry · entry) := by
  apply Keeps.comp
  · apply Keeps.foldl
    intro channel _
    apply Keeps.foldl
    intro member _ options
    rfl
  · intro options
    rfl

theorem updateMQValues_channels (options : ProgOptions) :
    options.updateMQValues.fFairMQChannelMap = options.fFairMQChannelMap := by
  have kept := Keeps.foldl fun entry (_ : entry ∈ options.fFairMQChannelMap.entries) =>
    registerEntry_keeps_channels entry
  exact kept options

theorem updateChannelMap_channels (options : ProgOptions) (channels : FairMQChannelMap) :
    (options.updateChannelMap channels).fFairMQChannelMap =
      channels.mapChannels fun _ _ channel => channel.copy :=
  updateMQValues_channels _

theorem updateChannelMap_sets {options : ProgOptions} {channels : FairMQChannelMap}
    (present : (options.updateChannelMap channels).fFairMQChannelMap.at? name index =
      some channel) :
    entryAt (channelKey name index member) (options.updateChannelMap channels) =
      entryOf name index channel member := by
  rw [updateChannelMap_channels] at present
  exact updateMQValues_sets present

theorem updateChannelMap_keeps {options : ProgOptions} {channels : FairMQChannelMap}
    (absent : (options.updateChannelMap channels).fFairMQChannelMap.at? name index = none) :
    entryAt (channelKey name index member) (options.updateChannelMap channels) =
      entryAt (channelKey name index member) options := by
  rw [updateChannelMap_channels] at absent
  exact updateMQValues_keeps absent

end Register

/-- Every registered channel key is registered for the channel and member in its
text, and all keys of the present channels are registered. -/
structure Keyed (options : ProgOptions) : Prop where
  truthful : ∀ name index member info,
    options.fChannelKeyMap (channelKey name index member) = some info →
      info = ⟨name, index, member.registered⟩
  complete : ∀ name index channel member,
    options.fFairMQChannelMap.at? name index = some channel →
      options.fChannelKeyMap (channelKey name index member) =
        some ⟨name, index, member.registered⟩

def Coherent (options : ProgOptions) : Prop :=
  ∀ name index channel, options.fFairMQChannelMap.at? name index = some channel →
    ∀ member, options.fVarMap (channelKey name index member) = some (member.value channel)

theorem updateChannelMap_keyed {options : ProgOptions} (keyed : Keyed options)
    (channels : FairMQChannelMap) : Keyed (options.updateChannelMap channels) where
  truthful := by
    intro name index member info found
    cases present : (options.updateChannelMap channels).fFairMQChannelMap.at? name index with
    | none =>
        have kept : entryAt (channelKey name index member) (options.updateChannelMap channels) =
          entryAt (channelKey name index member) options := updateChannelMap_keeps present
        exact keyed.truthful name index member info ((congrArg Prod.fst kept).symm.trans found)
    | some channel =>
        have written : entryAt (channelKey name index member) (options.updateChannelMap channels) =
          entryOf name index channel member := updateChannelMap_sets present
        exact (Option.some.inj ((congrArg Prod.fst written).symm.trans found)).symm
  complete := by
    intro name index channel member present
    exact congrArg Prod.fst (updateChannelMap_sets present)

theorem updateChannelMap_coherent (options : ProgOptions) (channels : FairMQChannelMap) :
    Coherent (options.updateChannelMap channels) := by
  intro name index channel present member
  exact congrArg Prod.snd (updateChannelMap_sets present)

/-- The members `UpdateChannelValue` has no branch for. -/
def Member.isKernelSize : Member → Bool
  | .sndKernelSize | .rcvKernelSize => true
  | _ => false

/-- The update of a channel that the branch for a member makes; none for a value of
the other type and for an unknown transport. -/
def Member.update (channel : FairMQChannel) : Member → Value → Option FairMQChannel
  | .type, .string text => some (channel.updateType text)
  | .method, .string text => some (channel.updateMethod text)
  | .address, .string text => some (channel.updateAddress text)
  | .transport, .string text => channel.updateTransport text
  | .sndBufSize, .int number => some (channel.updateSndBufSize number)
  | .rcvBufSize, .int number => some (channel.updateRcvBufSize number)
  | .rateLogging, .int number => some (channel.updateRateLogging number)
  | _, _ => none

section SetValue

variable {name : String} {index : Nat} {member : Member} {val : Value}
  {channel updated : FairMQChannel} {options after : ProgOptions}

theorem updateChannelValue_eq (typed : val.kind = member.kind) :
    updateChannelValue ⟨name, index, member.registered⟩ val =
      if member.isKernelSize then updateFailed name index member.registered
      else updateChannel name index fun channel => member.update channel val := by
  cases val with
  | string text => cases member <;> first | rfl | cases typed
  | int number => cases member <;> first | rfl | cases typed

theorem value_updateTransport {text : String}
    (done : channel.updateTransport text = some updated) (other : Member) :
    other.value updated = if other = .transport then .string text else other.value channel := by
  obtain ⟨transport, known, isUpdated⟩ := Option.map_eq_some_iff.mp done
  subst isUpdated
  cases other with
  | transport => exact congrArg Value.string (transportNames_of_types known)
  | _ => rfl

theorem value_update (done : member.update channel val = some updated) (other : Member) :
    other.value updated = if other = member then val else other.value channel := by
  unfold Member.update at done
  split at done
  case h_4 => exact value_updateTransport done other
  all_goals cases done
  all_goals cases other <;> rfl

theorem not_kernelSize_of_update (done : member.update channel val = some updated) :
    member.isKernelSize = false := by
  unfold Member.update at done
  split at done <;> first | rfl | cases done

theorem update_exists (channel : FairMQChannel) (typed : val.kind = member.kind)
    (handled : member.isKernelSize = false)
    (known : ∀ text, member = .transport → val = .string text → (transportTypes text).isSome) :
    ∃ updated, member.update channel val = some updated := by
  cases val with
  | int number =>
      cases member with
      | type | method | address | transport => cases typed
      | sndKernelSize | rcvKernelSize => cases handled
      | sndBufSize | rcvBufSize | rateLogging => exact ⟨_, rfl⟩
  | string text =>
      cases member with
      | transport =>
          obtain ⟨transport, isKnown⟩ := Option.isSome_iff_exists.mp (known text rfl rfl)
          exact ⟨_, Option.map_eq_some_iff.mpr ⟨transport, isKnown, rfl⟩⟩
      | type | method | address => exact ⟨_, rfl⟩
      | sndBufSize | rcvBufSize | sndKernelSize | rcvKernelSize | rateLogging => cases typed

theorem updateChannel_run (update : FairMQChannel → Option FairMQChannel) :
    (updateChannel name index update).run options =
      match options.fFairMQChannelMap.at? name index with
      | none => .error .outOfRange options
      | some channel =>
          match update channel with
          | none => .error .exit options
          | some updated => .ok 0 { options with
              fFairMQChannelMap := options.fFairMQChannelMap.set name index updated } := by
  simp only [updateChannel, EStateM.run_bind, EStateM.run_get]
  cases options.fFairMQChannelMap.at? name index with
  | none => rfl
  | some channel =>
      dsimp only
      cases update channel with
      | none => rfl
      | some updated => rfl

theorem setValue_run (key : String) :
    (setValue key val).run options =
      match options.fChannelKeyMap key with
      | none => .ok 0 (options.updateVarMap key val)
      | some info =>
          match (updateChannelValue info val).run (options.updateVarMap key val) with
          | .ok _ after => .ok 0 after
          | .error failure after => .error failure after := by
  have registry : (options.updateVarMap key val).fChannelKeyMap = options.fChannelKeyMap := rfl
  simp only [setValue, EStateM.run_bind, EStateM.run_modify, EStateM.run_get, registry]
  cases options.fChannelKeyMap key with
  | none => rfl
  | some info =>
      simp only [EStateM.run_bind]
      cases (updateChannelValue info val).run (options.updateVarMap key val) <;> rfl

def leftOptions : EStateM.Result Failure ProgOptions Int → ProgOptions
  | .ok _ after => after
  | .error _ after => after

theorem updateChannel_fVarMap (update : FairMQChannel → Option FairMQChannel) :
    (leftOptions ((updateChannel name index update).run options)).fVarMap = options.fVarMap := by
  rw [updateChannel_run]
  split
  · rfl
  · split <;> rfl

theorem updateChannelValue_fVarMap (info : ChannelKey) :
    (leftOptions ((updateChannelValue info val).run options)).fVarMap = options.fVarMap := by
  cases val with
  | string text =>
      simp only [updateChannelValue, updateChannelString]
      repeat' split
      all_goals first | exact updateChannel_fVarMap _ | rfl
  | int number =>
      simp only [updateChannelValue, updateChannelInt]
      repeat' split
      all_goals first | exact updateChannel_fVarMap _ | rfl

theorem setValue_fVarMap (key : String) :
    (leftOptions ((setValue key val).run options)).fVarMap =
      Function.update options.fVarMap key (some val) := by
  rw [setValue_run]
  cases options.fChannelKeyMap key with
  | none => rfl
  | some info =>
      have kept : (leftOptions ((updateChannelValue info val).run
          (options.updateVarMap key val))).fVarMap = (options.updateVarMap key val).fVarMap :=
        updateChannelValue_fVarMap info
      dsimp only
      cases ran : (updateChannelValue info val).run (options.updateVarMap key val) with
      | ok _ after =>
          rw [ran] at kept
          exact kept
      | error failure after =>
          rw [ran] at kept
          exact kept

theorem setValue_run_registered (typed : val.kind = member.kind)
    (registered : options.fChannelKeyMap (channelKey name index member) =
      some ⟨name, index, member.registered⟩) :
    (setValue (channelKey name index member) val).run options =
      let stored := options.updateVarMap (channelKey name index member) val
      if member.isKernelSize then
        .ok 0 { stored with log := options.log ++ [failureMessage name index member.registered] }
      else
        match options.fFairMQChannelMap.at? name index with
        | none => .error .outOfRange stored
        | some channel =>
            match member.update channel val with
            | none => .error .exit stored
            | some updated => .ok 0 { stored with
                fFairMQChannelMap := options.fFairMQChannelMap.set name index updated } := by
  have same : (options.updateVarMap (channelKey name index member) val).fFairMQChannelMap =
    options.fFairMQChannelMap := rfl
  rw [setValue_run, registered]
  dsimp only
  rw [updateChannelValue_eq typed]
  cases member.isKernelSize with
  | true => rfl
  | false =>
      rw [if_neg Bool.false_ne_true, if_neg Bool.false_ne_true, updateChannel_run, same]
      cases options.fFairMQChannelMap.at? name index with
      | none => rfl
      | some channel =>
          dsimp only
          cases member.update channel val <;> rfl

inductive Written (options : ProgOptions) (name : String) (index : Nat) (member : Member)
    (val : Value) : ProgOptions → Prop where
  | updated {channel updated : FairMQChannel}
      (found : options.fFairMQChannelMap.at? name index = some channel)
      (done : member.update channel val = some updated) :
      Written options name index member val
        { options.updateVarMap (channelKey name index member) val with
          fFairMQChannelMap := options.fFairMQChannelMap.set name index updated }
  | passedBy (log : List String)
      (unhandled : options.fFairMQChannelMap.at? name index = none ∨ member.isKernelSize = true) :
      Written options name index member val
        { options.updateVarMap (channelKey name index member) val with log := log }

theorem written_of_step (keyed : Keyed options) (typed : val.kind = member.kind)
    (stepped : options.step (.setValue name index member val) = some after) :
    Written options name index member val after := by
  simp only [ProgOptions.step] at stepped
  cases registered : options.fChannelKeyMap (channelKey name index member) with
  | none =>
      rw [setValue_run, registered] at stepped
      cases stepped
      apply Written.passedBy
      cases found : options.fFairMQChannelMap.at? name index with
      | none => exact .inl rfl
      | some channel =>
          rw [keyed.complete name index channel member found] at registered
          cases registered
  | some info =>
      rw [keyed.truthful name index member info registered] at registered
      rw [setValue_run_registered typed registered] at stepped
      cases kernel : member.isKernelSize with
      | true =>
          rw [kernel, if_pos rfl] at stepped
          cases stepped
          exact .passedBy _ (.inr kernel)
      | false =>
          rw [kernel, if_neg Bool.false_ne_true] at stepped
          cases found : options.fFairMQChannelMap.at? name index with
          | none =>
              rw [found] at stepped
              cases stepped
              exact .passedBy _ (.inl found)
          | some channel =>
              rw [found] at stepped
              dsimp only at stepped
              cases done : member.update channel val with
              | none =>
                  rw [done] at stepped
                  cases stepped
              | some updated =>
                  rw [done] at stepped
                  cases stepped
                  exact .updated found done

theorem setValue_returns (keyed : Keyed options) (typed : val.kind = member.kind)
    (found : options.fFairMQChannelMap.at? name index = some channel)
    (known : ∀ text, member = .transport → val = .string text → (transportTypes text).isSome) :
    ∃ after, (setValue (channelKey name index member) val).run options = .ok 0 after ∧
      Written options name index member val after := by
  rw [setValue_run_registered typed (keyed.complete name index channel member found)]
  cases kernel : member.isKernelSize with
  | true => exact ⟨_, rfl, .passedBy _ (.inr kernel)⟩
  | false =>
      obtain ⟨updated, done⟩ := update_exists channel typed kernel known
      rw [if_neg Bool.false_ne_true, found]
      dsimp only
      rw [done]
      exact ⟨_, rfl, .updated found done⟩

end SetValue

structure ChangesOnly (options after : ProgOptions) (name : String) (index : Nat)
    (member : Member) : Prop where
  keys : ∀ key, key ≠ channelKey name index member → after.fVarMap key = options.fVarMap key
  channels : ∀ name' index', ¬(name' = name ∧ index' = index) →
    after.fFairMQChannelMap.at? name' index' = options.fFairMQChannelMap.at? name' index'
  members : ∀ channel', after.fFairMQChannelMap.at? name index = some channel' →
    ∃ channel, options.fFairMQChannelMap.at? name index = some channel ∧
      ∀ other, other ≠ member → other.value channel' = other.value channel

def Typed : ProgOptions → Call → Prop
  | _, .updateChannelMap _ => True
  | _, .setValue _ _ member val => val.kind = member.kind

/-- A kernel buffer size is only set to what the channel already has. -/
def KernelSizesKept (options : ProgOptions) : Call → Prop
  | .updateChannelMap _ => True
  | .setValue name index member val => member.isKernelSize = true →
      ∀ channel, options.fFairMQChannelMap.at? name index = some channel →
        val = member.value channel

namespace Written

variable {name : String} {index : Nat} {member : Member} {val : Value}
  {options after : ProgOptions}

theorem stored (written : Written options name index member val after) :
    after.fVarMap = Function.update options.fVarMap (channelKey name index member) (some val) := by
  cases written <;> rfl

theorem changesOnly (written : Written options name index member val after) :
    ChangesOnly options after name index member where
  keys := by
    intro key different
    rw [written.stored, Function.update_of_ne different]
  channels := by
    intro name' index' other
    cases written with
    | updated found done => exact FairMQChannelMap.at?_set_other other _
    | passedBy log unhandled => rfl
  members := by
    intro channel' present
    cases written with
    | updated found done =>
        rw [FairMQChannelMap.at?_set_self found] at present
        cases present
        refine ⟨_, found, ?_⟩
        intro other different
        rw [value_update done, if_neg different]
    | passedBy log unhandled => exact ⟨channel', present, fun _ _ => rfl⟩

theorem keyed (written : Written options name index member val after) (keyed : Keyed options) :
    Keyed after where
  truthful := by
    cases written <;> exact keyed.truthful
  complete := by
    intro name' index' channel member' present
    have registry : after.fChannelKeyMap = options.fChannelKeyMap := by cases written <;> rfl
    rw [registry]
    by_cases same : name' = name ∧ index' = index
    · obtain ⟨sameName, sameIndex⟩ := same
      subst sameName sameIndex
      obtain ⟨old, found, _⟩ := written.changesOnly.members channel present
      exact keyed.complete _ _ old member' found
    · rw [written.changesOnly.channels name' index' same] at present
      exact keyed.complete _ _ channel member' present

theorem coherent_iff_reached (written : Written options name index member val after)
    (coherent : Coherent options) :
    Coherent after ↔ ∀ channel', after.fFairMQChannelMap.at? name index = some channel' →
      val = member.value channel' := by
  constructor
  · intro still channel' present
    have value := still name index channel' present member
    rw [written.stored, Function.update_self] at value
    exact Option.some.inj value
  · intro agrees name' index' channel' present other
    have only := written.changesOnly
    by_cases same : name' = name ∧ index' = index
    · obtain ⟨sameName, sameIndex⟩ := same
      subst sameName sameIndex
      by_cases isMember : other = member
      · rw [isMember, written.stored, Function.update_self, ← agrees channel' present]
      · obtain ⟨channel, found, unchanged⟩ := only.members channel' present
        have different : channelKey name' index' other ≠ channelKey name' index' member :=
          fun keys => isMember (channelKey_injective keys).2.2
        rw [only.keys _ different, unchanged other isMember]
        exact coherent _ _ channel found other
    · have different : channelKey name' index' other ≠ channelKey name index member := by
        intro keys
        obtain ⟨sameName, sameIndex, _⟩ := channelKey_injective keys
        exact same ⟨sameName, sameIndex⟩
      rw [only.keys _ different]
      rw [only.channels name' index' same] at present
      exact coherent _ _ channel' present other

theorem coherent_iff (written : Written options name index member val after)
    (coherent : Coherent options) :
    Coherent after ↔ KernelSizesKept options (.setValue name index member val) := by
  rw [written.coherent_iff_reached coherent]
  cases written with
  | updated found done =>
      apply iff_of_true
      · intro channel' present
        rw [FairMQChannelMap.at?_set_self found] at present
        cases present
        rw [value_update done, if_pos rfl]
      · intro kernel
        rw [not_kernelSize_of_update done] at kernel
        cases kernel
  | passedBy log unhandled =>
      cases unhandled with
      | inl absent =>
          have none : ∀ channel, options.fFairMQChannelMap.at? name index ≠ some channel := by
            simp [absent]
          exact iff_of_true (fun channel present => absurd present (none channel))
            (fun _ channel present => absurd present (none channel))
      | inr kernel => exact ⟨fun agrees _ => agrees, fun kept => kept kernel⟩

end Written

def Permitted (options : ProgOptions) (call : Call) : Prop :=
  Typed options call ∧ KernelSizesKept options call

theorem keyed_coherent_of_reaches {options : ProgOptions}
    (reached : optionsSystem.ReachesUnder Permitted options) :
    Keyed options ∧ Coherent options := by
  induction reached with
  | initial start =>
      obtain ⟨fVarMap, isNew⟩ := start
      subst isNew
      refine ⟨⟨?_, ?_⟩, ?_⟩
      · intro name index member info found
        cases found
      · intro name index channel member found
        cases found
      · intro name index channel found
        cases found
  | @step before after call _ permitted stepped ih =>
      obtain ⟨keyed, coherent⟩ := ih
      cases call with
      | updateChannelMap channels =>
          cases stepped
          exact ⟨updateChannelMap_keyed keyed channels, updateChannelMap_coherent before channels⟩
      | setValue name index member val =>
          have written := written_of_step keyed permitted.1 stepped
          exact ⟨written.keyed keyed, (written.coherent_iff coherent).mpr permitted.2⟩

/-- As long as no kernel buffer size is changed, both stores agree on every member of
every channel.  From there a typed `SetValue` for a present channel returns, changes
one key and one member, and leaves the stores in agreement exactly when it does not
change a kernel buffer size. -/
theorem configuration_coherent_iff {options : ProgOptions}
    (reached : optionsSystem.ReachesUnder Permitted options) :
    Coherent options ∧
    ∀ name index channel member val,
      options.fFairMQChannelMap.at? name index = some channel → val.kind = member.kind →
      (∀ text, member = .transport → val = .string text → (transportTypes text).isSome) →
      ∃ after, (setValue (channelKey name index member) val).run options = .ok 0 after ∧
        ChangesOnly options after name index member ∧
        (Coherent after ↔ KernelSizesKept options (.setValue name index member val)) := by
  obtain ⟨keyed, coherent⟩ := keyed_coherent_of_reaches reached
  refine ⟨coherent, ?_⟩
  intro name index channel member val found typed known
  obtain ⟨after, returned, written⟩ := setValue_returns keyed typed found known
  exact ⟨after, returned, written.changesOnly, written.coherent_iff coherent⟩

instance (options : ProgOptions) : (call : Call) → Decidable (Typed options call)
  | .updateChannelMap _ => isTrue trivial
  | .setValue _ _ member val => inferInstanceAs (Decidable (val.kind = member.kind))

instance (options : ProgOptions) : (call : Call) → Decidable (KernelSizesKept options call)
  | .updateChannelMap _ => isTrue trivial
  | .setValue name index member val =>
      inferInstanceAs (Decidable (member.isKernelSize = true →
        ∀ channel ∈ options.fFairMQChannelMap.at? name index, val = member.value channel))

instance (options : ProgOptions) (call : Call) : Decidable (Permitted options call) :=
  inferInstanceAs (Decidable (Typed options call ∧ KernelSizesKept options call))

def dataChannel : FairMQChannelMap := ⟨[("data", [{}])], by decide⟩

theorem address_update_coherent :
    ∃ options, optionsSystem.ReachesUnder Permitted options ∧
      options.fVarMap "chans.data.0.address" = some (.string "tcp://*:5555") ∧
      Coherent options := by
  obtain ⟨options, reached, stored⟩ : ∃ options, optionsSystem.ReachesUnder Permitted options ∧
      options.fVarMap "chans.data.0.address" = some (.string "tcp://*:5555") :=
    TransitionSystem.reaches_of_runUnder (ProgOptions.new fun _ => none)
      [.updateChannelMap dataChannel, .setValue "data" 0 .address (.string "tcp://*:5555")]
      ⟨_, rfl⟩ (by decide)
  exact ⟨options, reached, stored, (configuration_coherent_iff reached).1⟩

/-- A typed `SetValue` of a kernel buffer size reaches the variable map only. -/
theorem kernel_size_update_incoherent :
    ∃ options, optionsSystem.ReachesUnder Typed options ∧
      options.fVarMap "chans.data.0.sndKernelSize" = some (.int 4096) ∧
      (options.fFairMQChannelMap.at? "data" 0).map FairMQChannel.fSndKernelSize = some 0 ∧
      ¬Coherent options := by
  obtain ⟨options, reached, stored, kept⟩ : ∃ options, optionsSystem.ReachesUnder Typed options ∧
      options.fVarMap "chans.data.0.sndKernelSize" = some (.int 4096) ∧
      (options.fFairMQChannelMap.at? "data" 0).map FairMQChannel.fSndKernelSize = some 0 :=
    TransitionSystem.reaches_of_runUnder (ProgOptions.new fun _ => none)
      [.updateChannelMap dataChannel, .setValue "data" 0 .sndKernelSize (.int 4096)]
      ⟨_, rfl⟩ (by decide)
  refine ⟨options, reached, stored, kept, ?_⟩
  intro coherent
  obtain ⟨channel, found, isZero⟩ := Option.map_eq_some_iff.mp kept
  have value := coherent "data" 0 channel found .sndKernelSize
  have isKey : channelKey "data" 0 .sndKernelSize = "chans.data.0.sndKernelSize" := by decide
  rw [isKey, stored] at value
  simp [Member.value, isZero] at value

end FairMQ.Options
