import FairMQ.Data.UnorderedMap
import FairMQ.Data.Writes
import FairMQ.Options.ProgOptions

namespace FairMQ.Plugins

open FairMQ.Data FairMQ.Options

/-! # The DDS plugin: addresses of connecting channels

The addresses a channel connects to arrive from DDS one by one, as values under the keys
of the tasks that have published them.  The callback of the key-value subscription
collects them in the `unordered_map` `fDDSValues` and, when there is one for every
sub-channel, sets the addresses in the order in which the map iterates.  The device is in
InitializingDevice, where `SetProperty` sets. -/

structure DDSConfig where
  fSubChannelAddresses : List String
  fDDSValues : UnorderedMap String String
deriving DecidableEq

structure IofN where
  fI : Nat
  fN : Nat
  fEntries : List String
deriving DecidableEq

structure DDS where
  fConnectingChans : UnorderedMap String DDSConfig
  fI : UnorderedMap String Int
  fIofN : UnorderedMap String IofN
  properties : String → Option String

def split (val : String) : List String :=
  (val.toList.splitOn ',').map String.ofList

/-- The text as it comes back from `c_str()`. -/
def cStr (text : String) : String :=
  String.ofList (text.toList.takeWhile (· ≠ '\x00'))

namespace DDS

variable (dds : DDS) (propertyId : String)

def setEntries (entries : List String) : DDS :=
  { dds with fIofN := dds.fIofN.modify propertyId fun iofn => { iofn with fEntries := entries } }

/-- One out of several values: all but the one that completes them are only collected.
The second component is `none` where the callback returns or `at` throws. -/
def select (value : String) : DDS × Option String :=
  match dds.fIofN.get? propertyId with
  | none => (dds, some value)
  | some iofn =>
      let entries := iofn.fEntries ++ [value]
      if entries.length = iofn.fN then
        let sorted := entries.mergeSort fun a b => decide (a ≤ b)
        (dds.setEntries propertyId sorted, sorted[iofn.fI]?)
      else (dds.setEntries propertyId entries, none)

/-- The connection string for this task; a negative index is out of range. -/
def connectionString (val : String) : Option String :=
  let connectionStrings := split val
  if 1 < connectionStrings.length then
    match dds.fI.get? propertyId with
    | some i => if 0 ≤ i then connectionStrings[i.toNat]? else none
    | none => connectionStrings[0]?
  else some val

def setAddresses (name : String) (values : List (String × String)) : DDS :=
  values.zipIdx.foldl (fun dds value =>
    { dds with properties :=
        Function.update dds.properties (channelKey name value.2 .address) (some value.1.2) }) dds

/-- A complete channel is set and removed.  The sort before it is of the sub-channel
addresses, which are all empty. -/
def finish (traversal : Traversal String) (entry : String × DDSConfig) : DDS :=
  if entry.2.fSubChannelAddresses.length = entry.2.fDDSValues.size then
    let set := dds.setAddresses entry.1 (entry.2.fDDSValues.traverse traversal)
    { set with fConnectingChans := set.fConnectingChans.erase entry.1 }
  else dds

def updateChannels (traversal : Traversal String) : DDS :=
  (dds.fConnectingChans.traverse traversal).foldl (finish · traversal) dds

def insertValue (key address : String) : DDS :=
  { dds with fConnectingChans := dds.fConnectingChans.modify propertyId fun config =>
      { config with fDDSValues := config.fDDSValues.insert key address } }

/-- The callback of the subscription; an exception is logged and dropped. -/
def update (traversal : Traversal String) (key value : String) : DDS :=
  match dds.select propertyId value with
  | (selected, none) => selected
  | (selected, some val) =>
      match selected.connectionString propertyId val, selected.fConnectingChans.get? propertyId with
      | some address, some _ =>
          (selected.insertValue propertyId (cStr key) (cStr address)).updateChannels traversal
      | _, _ => selected

def updates (traversal : Traversal String) (arrived : List (String × String)) : DDS :=
  arrived.foldl (fun dds arrival => dds.update propertyId traversal arrival.1 arrival.2) dds

def addresses (n : Nat) : List (Option String) :=
  (List.range n).map fun i => dds.properties (channelKey propertyId i .address)

def entry (arrival : String × String) : Option (String × String) :=
  (dds.connectionString propertyId arrival.2).map fun address => (cStr arrival.1, cStr address)

structure Completes (arrived : List (String × String)) : Prop where
  alone : dds.fIofN.get? propertyId = none
  stored : ∀ arrival ∈ arrived, (dds.entry propertyId arrival).isSome = true
  distinct : ((arrived.filterMap (dds.entry propertyId)).map Prod.fst).Nodup

variable {dds propertyId} {name : String} {traversal : Traversal String}

theorem setAddresses_rest (values : List (String × String)) :
    Keeps (fun dds : DDS => (dds.fConnectingChans, dds.fI, dds.fIofN))
      (setAddresses · name values) := by
  apply Keeps.foldl
  intro value _ dds
  rfl

theorem setAddresses_other {other : String} (apart : other ≠ name)
    (values : List (String × String)) (i : Nat) :
    Keeps (fun dds : DDS => dds.properties (channelKey name i .address))
      (setAddresses · other values) := by
  apply Keeps.foldl
  intro value _ dds
  apply Function.update_of_ne
  intro same
  exact apart (channelKey_injective same).1.symm

theorem setAddresses_sets {values : List (String × String)} {i : Nat} {entry : String × String}
    (found : values[i]? = some entry) :
    Sets (fun dds : DDS => dds.properties (channelKey name i .address)) (some entry.2)
      (setAddresses · name values) := by
  apply Sets.foldl (List.mk_mem_zipIdx_iff_getElem?.mpr found)
  · intro dds
    exact Function.update_self ..
  · rintro ⟨other, j⟩ member
    have found' := List.mk_mem_zipIdx_iff_getElem?.mp member
    by_cases here : j = i
    · left
      subst here
      cases found.symm.trans found'
      intro dds
      exact Function.update_self ..
    · right
      intro dds
      apply Function.update_of_ne
      intro same
      exact here (channelKey_injective same).2.1.symm

def channel (name : String) (dds : DDS) : Option DDSConfig × (Nat → Option String) :=
  (dds.fConnectingChans.get? name, fun i => dds.properties (channelKey name i .address))

def Complete (config : DDSConfig) : Prop :=
  config.fSubChannelAddresses.length = config.fDDSValues.size

theorem finish_settings (entry : String × DDSConfig) :
    Keeps (fun dds : DDS => (dds.fI, dds.fIofN)) (finish · traversal entry) := by
  intro dds
  dsimp only
  unfold finish
  split
  · exact congrArg Prod.snd (setAddresses_rest _ dds)
  · rfl

theorem finish_other {entry : String × DDSConfig}
    (other : entry.1 ≠ name ∨ ¬ Complete entry.2) :
    Keeps (channel name) (finish · traversal entry) := by
  intro dds
  dsimp only
  unfold finish
  split
  · rename_i complete
    have apart : entry.1 ≠ name := other.resolve_right (not_not_intro complete)
    have channels : (dds.setAddresses entry.1
        (entry.2.fDDSValues.traverse traversal)).fConnectingChans = dds.fConnectingChans :=
      congrArg Prod.fst (setAddresses_rest _ dds)
    apply Prod.ext
    · change (UnorderedMap.erase _ _).get? name = _
      rw [UnorderedMap.get?_erase_ne apart.symm, channels]
      rfl
    · funext i
      exact setAddresses_other apart _ i dds
  · rfl

theorem mem_traverse_channels {config : DDSConfig} {entry : String × DDSConfig}
    (found : dds.fConnectingChans.get? name = some config)
    (member : entry ∈ dds.fConnectingChans.traverse traversal) :
    entry.1 ≠ name ∨ entry = (name, config) := by
  by_cases same : entry.1 = name
  · right
    have stored := ((dds.fConnectingChans.traverse_perm traversal).mem_iff).mp member
    have value := UnorderedMap.get?_eq_some_iff.mpr (show (entry.1, entry.2) ∈ _ from stored)
    rw [same, found] at value
    exact Prod.ext same (Option.some.inj value).symm
  · exact .inl same

theorem updateChannels_settings :
    (dds.updateChannels traversal).fI = dds.fI ∧
      (dds.updateChannels traversal).fIofN = dds.fIofN := by
  have kept : Keeps (fun dds : DDS => (dds.fI, dds.fIofN))
      ((dds.fConnectingChans.traverse traversal).foldl (finish · traversal) ·) := by
    apply Keeps.foldl
    intro entry _
    exact finish_settings entry
  exact ⟨congrArg Prod.fst (kept dds), congrArg Prod.snd (kept dds)⟩

theorem updateChannels_incomplete (traversal : Traversal String) {config : DDSConfig}
    (found : dds.fConnectingChans.get? name = some config) (incomplete : ¬ Complete config) :
    (dds.updateChannels traversal).channel name = dds.channel name := by
  apply Keeps.foldl
  intro entry member
  apply finish_other
  rcases mem_traverse_channels found member with other | same
  · exact .inl other
  · exact .inr (same ▸ incomplete)

theorem updateChannels_complete {config : DDSConfig}
    (found : dds.fConnectingChans.get? name = some config) (complete : Complete config)
    {i : Nat} {entry : String × String}
    (isEntry : (config.fDDSValues.traverse traversal)[i]? = some entry) :
    (dds.updateChannels traversal).properties (channelKey name i .address) = some entry.2 := by
  have stored := UnorderedMap.get?_eq_some_iff.mp found
  have member := ((dds.fConnectingChans.traverse_perm traversal).mem_iff).mpr stored
  have sets : Sets (fun dds : DDS => dds.properties (channelKey name i .address)) (some entry.2)
      (finish · traversal (name, config)) := by
    intro dds
    dsimp only
    unfold finish
    split
    · exact setAddresses_sets isEntry dds
    · contradiction
  apply Sets.foldl member sets
  intro other isOther
  rcases mem_traverse_channels found isOther with apart | same
  · right
    intro dds
    exact congrFun (congrArg Prod.snd (finish_other (.inl apart) dds)) i
  · left
    rw [same]
    exact sets

theorem select_rest (dds : DDS) (name value : String) :
    ((dds.select name value).1.fConnectingChans, (dds.select name value).1.properties,
      (dds.select name value).1.fI) = (dds.fConnectingChans, dds.properties, dds.fI) := by
  unfold select
  split
  · rfl
  · dsimp only
    split <;> rfl

theorem connectionString_eq {other : DDS} (same : dds.fI = other.fI) :
    dds.connectionString = other.connectionString := by
  funext name val
  simp only [connectionString, same]

def offered (dds : DDS) (name : String) (value : String) : Option String :=
  (dds.select name value).2.bind (dds.connectionString name)

def received (dds : DDS) (name : String) (values : UnorderedMap String String)
    (arrival : String × String) : UnorderedMap String String :=
  match dds.offered name arrival.2 with
  | some address => values.insert (cStr arrival.1) (cStr address)
  | none => values

structure Waiting (start : DDS) (name : String) (addresses : List String)
    (values : UnorderedMap String String) (dds : DDS) : Prop where
  connecting : dds.fConnectingChans.get? name = some ⟨addresses, values⟩
  unset : ∀ i, dds.properties (channelKey name i .address) =
    start.properties (channelKey name i .address)
  fI : dds.fI = start.fI

section Update

variable {start : DDS} {addresses : List String} {values : UnorderedMap String String}
  {arrival : String × String}

theorem update_stores (waiting : Waiting start name addresses values dds) :
    ∃ stored : DDS,
      Waiting start name addresses (dds.received name values arrival) stored ∧
      stored.fIofN = (dds.select name arrival.2).1.fIofN ∧
      (dds.update name traversal arrival.1 arrival.2 = stored ∧
          dds.offered name arrival.2 = none ∨
        dds.update name traversal arrival.1 arrival.2 = stored.updateChannels traversal) := by
  cases isSelected : dds.select name arrival.2 with
  | mk selected val =>
  have rest := dds.select_rest name arrival.2
  simp only [isSelected, Prod.mk.injEq] at rest
  obtain ⟨channels, properties, fI⟩ := rest
  have same := connectionString_eq fI
  have kept : Waiting start name addresses values selected :=
    ⟨channels ▸ waiting.connecting, properties ▸ waiting.unset, fI.trans waiting.fI⟩
  cases val with
  | none =>
      have dropped : dds.offered name arrival.2 = none := by simp [offered, isSelected]
      refine ⟨selected, ?_, rfl, .inl ⟨?_, dropped⟩⟩
      · simpa only [received, dropped] using kept
      · simp only [update, isSelected]
  | some val =>
      cases isAddress : dds.connectionString name val with
      | none =>
          have dropped : dds.offered name arrival.2 = none := by
            simp [offered, isSelected, isAddress]
          refine ⟨selected, ?_, rfl, .inl ⟨?_, dropped⟩⟩
          · simpa only [received, dropped] using kept
          · simp only [update, isSelected, same, isAddress]
      | some address =>
          have brings : dds.offered name arrival.2 = some address := by
            simp [offered, isSelected, isAddress]
          refine ⟨selected.insertValue name (cStr arrival.1) (cStr address),
            ⟨?_, kept.unset, kept.fI⟩, rfl, .inr ?_⟩
          · simp only [received, brings]
            exact UnorderedMap.get?_modify_self kept.connecting _
          · simp only [update, isSelected, same, isAddress, kept.connecting]

theorem update_waiting (waiting : Waiting start name addresses values dds)
    (incomplete : addresses.length ≠ (dds.received name values arrival).size) :
    Waiting start name addresses (dds.received name values arrival)
      (dds.update name traversal arrival.1 arrival.2) := by
  obtain ⟨stored, waits, _, done | looped⟩ := update_stores waiting
  · rw [done.1]
    exact waits
  · have kept := updateChannels_incomplete traversal waits.connecting incomplete
    rw [looped]
    refine ⟨?_, ?_, ?_⟩
    · exact (congrArg Prod.fst kept).trans waits.connecting
    · intro i
      exact (congrFun (congrArg Prod.snd kept) i).trans (waits.unset i)
    · exact updateChannels_settings.1.trans waits.fI

theorem update_completes (waiting : Waiting start name addresses values dds) {address : String}
    (brings : dds.offered name arrival.2 = some address)
    (complete : addresses.length = (dds.received name values arrival).size)
    {i : Nat} {entry : String × String}
    (isEntry : ((dds.received name values arrival).traverse traversal)[i]? = some entry) :
    (dds.update name traversal arrival.1 arrival.2).properties (channelKey name i .address) =
      some entry.2 := by
  obtain ⟨stored, waits, _, done | looped⟩ := update_stores waiting
  · rw [brings] at done
    cases done.2
  · rw [looped]
    exact updateChannels_complete waits.connecting complete isEntry

theorem update_fIofN (waiting : Waiting start name addresses values dds) :
    (dds.update name traversal arrival.1 arrival.2).fIofN =
      (dds.select name arrival.2).1.fIofN := by
  obtain ⟨stored, _, same, done | looped⟩ := update_stores waiting
  · rw [done.1, same]
  · rw [looped, updateChannels_settings.2, same]

theorem offered_alone (alone : dds.fIofN.get? name = none) (value : String) :
    dds.offered name value = dds.connectionString name value := by
  simp [offered, select, alone]

theorem received_alone (alone : dds.fIofN.get? name = none) :
    dds.received name values arrival = values.insertAll (dds.entry name arrival).toList := by
  rw [received, offered_alone alone, entry]
  cases dds.connectionString name arrival.2 <;> rfl

theorem entry_eq (waiting : Waiting start name addresses values dds) :
    dds.entry name = start.entry name := by
  funext arrival
  rw [entry, entry, connectionString_eq waiting.fI]

theorem updates_waiting (traversal : Traversal String)
    (waiting : Waiting start name addresses values dds)
    (alone : dds.fIofN.get? name = none) {arrived : List (String × String)}
    (fewer : values.size + arrived.length < addresses.length) :
    Waiting start name addresses (values.insertAll (arrived.filterMap (start.entry name)))
        (dds.updates name traversal arrived) ∧
      (dds.updates name traversal arrived).fIofN.get? name = none := by
  induction arrived generalizing dds values with
  | nil => exact ⟨waiting, alone⟩
  | cons arrival rest ih =>
      have stores : dds.received name values arrival =
          values.insertAll (start.entry name arrival).toList := by
        rw [received_alone alone, entry_eq waiting]
      have bounded := values.insertAll_size_le (start.entry name arrival).toList
      have one : (start.entry name arrival).toList.length ≤ 1 := by
        cases start.entry name arrival <;> simp
      simp only [List.length_cons] at fewer
      have waits : Waiting start name addresses
          (values.insertAll (start.entry name arrival).toList)
          (dds.update name traversal arrival.1 arrival.2) := by
        rw [← stores]
        apply update_waiting waiting
        rw [stores]
        omega
      have stillAlone : (dds.update name traversal arrival.1 arrival.2).fIofN.get? name =
          none := by
        rw [update_fIofN waiting]
        simp [select, alone]
      have final := ih waits stillAlone (by omega)
      have split : (arrival :: rest).filterMap (start.entry name) =
          (start.entry name arrival).toList ++ rest.filterMap (start.entry name) := by
        cases isEntry : start.entry name arrival <;> simp [isEntry]
      rw [split, UnorderedMap.insertAll_append]
      exact final

theorem select_collecting {iofn : IofN} (found : dds.fIofN.get? name = some iofn)
    (value : String) :
    ∃ after : IofN, (dds.select name value).1.fIofN.get? name = some after ∧
      after.fN = iofn.fN ∧ after.fEntries.length = iofn.fEntries.length + 1 ∧
      ((dds.select name value).2 = none ∨ after.fEntries.length = after.fN) := by
  unfold select
  simp only [found]
  split
  · rename_i full
    refine ⟨_, UnorderedMap.get?_modify_self found _, rfl, ?_, .inr ?_⟩
    · simp
    · simpa using full
  · exact ⟨_, UnorderedMap.get?_modify_self found _, rfl, by simp, .inl rfl⟩

theorem updates_collecting (waiting : Waiting start name addresses values dds) {iofn : IofN}
    (found : dds.fIofN.get? name = some iofn) (several : 2 ≤ addresses.length)
    (few : values.size = 0 ∨ values.size ≤ 1 ∧ iofn.fN ≤ iofn.fEntries.length)
    (arrived : List (String × String)) :
    ∃ collected, Waiting start name addresses collected (dds.updates name traversal arrived) := by
  induction arrived generalizing dds values iofn with
  | nil => exact ⟨values, waiting⟩
  | cons arrival rest ih =>
      obtain ⟨after, isAfter, number, entries, brings⟩ := select_collecting found arrival.2
      have next : (dds.received name values arrival).size = 0 ∨
          (dds.received name values arrival).size ≤ 1 ∧ after.fN ≤ after.fEntries.length := by
        rcases brings with none | full
        · have same : dds.received name values arrival = values := by
            simp [received, offered, none]
          rw [same]
          omega
        · have bounded : (dds.received name values arrival).size ≤ values.size + 1 := by
            unfold received
            split
            · exact values.insertAll_size_le [(_, _)]
            · exact Nat.le_succ _
          omega
      have waits : Waiting start name addresses (dds.received name values arrival)
          (dds.update name traversal arrival.1 arrival.2) := by
        apply update_waiting waiting
        omega
      exact ih waits ((update_fIofN waiting).symm ▸ isAfter) next

theorem updates_last {arrived : List (String × String)}
    (fresh : start.fConnectingChans.get? name = some ⟨addresses, .empty⟩)
    (alone : start.fIofN.get? name = none) (length : arrived.length = addresses.length)
    (arrives : arrived ≠ []) :
    ∃ (before : DDS) (values : UnorderedMap String String) (last : String × String),
      Waiting start name addresses values before ∧
      start.updates name traversal arrived = before.update name traversal last.1 last.2 ∧
      before.received name values last =
        UnorderedMap.empty.insertAll (arrived.filterMap (start.entry name)) ∧
      before.offered name last.2 = start.connectionString name last.2 ∧ last ∈ arrived := by
  obtain ⟨front, last, rfl⟩ : ∃ front last, arrived = front ++ [last] :=
    ⟨_, _, (List.dropLast_append_getLast arrives).symm⟩
  have waiting : Waiting start name addresses .empty start := ⟨fresh, fun _ => rfl, rfl⟩
  have fewer : (UnorderedMap.empty : UnorderedMap String String).size + front.length <
      addresses.length := by
    rw [List.length_append] at length
    simp only [List.length_singleton] at length
    change 0 + _ < _
    omega
  obtain ⟨waits, stillAlone⟩ := updates_waiting traversal waiting alone fewer
  refine ⟨_, _, last, waits, ?_, ?_, ?_, by simp⟩
  · simp [updates]
  · rw [received_alone stillAlone, entry_eq waits, List.filterMap_append,
      UnorderedMap.insertAll_append]
    cases isEntry : start.entry name last <;> simp [isEntry]
  · rw [offered_alone stillAlone, connectionString_eq waits.fI]

end Update

theorem Completes.entries {arrived : List (String × String)}
    (completes : dds.Completes name arrived) :
    (UnorderedMap.empty.insertAll (arrived.filterMap (dds.entry name))).entries =
        arrived.filterMap (dds.entry name) ∧
      (arrived.filterMap (dds.entry name)).length = arrived.length := by
  constructor
  · rcases UnorderedMap.empty.insertAll_cases (arrived.filterMap (dds.entry name)) with all | lost
    · exact all.2
    · exact absurd completes.distinct lost.1
  · exact List.filterMap_length_eq_length.mpr completes.stored

theorem size_lt_of_not_completes {arrived : List (String × String)}
    (alone : dds.fIofN.get? name = none) (not : ¬ dds.Completes name arrived) :
    (UnorderedMap.empty.insertAll (arrived.filterMap (dds.entry name))).size < arrived.length := by
  have fewer := List.length_filterMap_le (dds.entry name) arrived
  rcases UnorderedMap.empty.insertAll_cases (arrived.filterMap (dds.entry name)) with all | lost
  · have lost : (arrived.filterMap (dds.entry name)).length ≠ arrived.length := by
      intro same
      exact not ⟨alone, List.filterMap_length_eq_length.mp same, all.1⟩
    have size : (UnorderedMap.empty.insertAll (arrived.filterMap (dds.entry name))).size =
        (arrived.filterMap (dds.entry name)).length := congrArg List.length all.2
    omega
  · have size : (UnorderedMap.empty : UnorderedMap String String).size = 0 := rfl
    omega

theorem Completes.perm {arrived order : List (String × String)}
    (completes : dds.Completes name arrived) (reordered : order.Perm arrived) :
    dds.Completes name order where
  alone := completes.alone
  stored arrival member := completes.stored arrival (reordered.mem_iff.mp member)
  distinct := by
    have same := (reordered.filterMap (dds.entry name)).map Prod.fst
    exact same.nodup_iff.mpr completes.distinct

section Channel

variable {start : DDS} {subChannels : List String} {arrived : List (String × String)}
  (fresh : start.fConnectingChans.get? name = some ⟨subChannels, .empty⟩)
  (length : arrived.length = subChannels.length)
include fresh length

theorem updates_complete (completes : start.Completes name arrived) {i : Nat}
    {entry : String × String}
    (isEntry : ((UnorderedMap.empty.insertAll
      (arrived.filterMap (start.entry name))).traverse traversal)[i]? = some entry) :
    (start.updates name traversal arrived).properties (channelKey name i .address) =
      some entry.2 := by
  have stored := completes.entries
  have arrives : arrived ≠ [] := by
    have member := (UnorderedMap.traverse_perm _ traversal).mem_iff.mp
      (List.mem_of_getElem? isEntry)
    rw [stored.1] at member
    rintro rfl
    cases member
  obtain ⟨before, values, last, waiting, isLast, received, offered, member⟩ :=
    updates_last fresh completes.alone length arrives
  obtain ⟨lastEntry, isLastEntry⟩ := Option.isSome_iff_exists.mp (completes.stored last member)
  obtain ⟨address, isAddress, _⟩ := Option.map_eq_some_iff.mp isLastEntry
  rw [isLast]
  rw [← received] at isEntry
  apply update_completes waiting (offered.trans isAddress) _ isEntry
  rw [received]
  exact length.symm.trans ((congrArg List.length stored.1).trans stored.2).symm

theorem updates_incomplete (traversal : Traversal String) (several : 2 ≤ arrived.length)
    (incomplete : ¬ start.Completes name arrived) (i : Nat) :
    (start.updates name traversal arrived).properties (channelKey name i .address) =
      start.properties (channelKey name i .address) := by
  cases alone : start.fIofN.get? name with
  | some iofn =>
      have waiting : Waiting start name subChannels .empty start := ⟨fresh, fun _ => rfl, rfl⟩
      obtain ⟨collected, waits⟩ :=
        updates_collecting waiting alone (length ▸ several) (.inl rfl) arrived
      exact waits.unset i
  | none =>
      have arrives : arrived ≠ [] := by
        rintro rfl
        cases several
      obtain ⟨before, values, last, waiting, isLast, received, _, _⟩ :=
        updates_last fresh alone length arrives
      have fewer := size_lt_of_not_completes alone incomplete
      rw [isLast]
      apply (update_waiting waiting _).unset i
      rw [received]
      omega

theorem address_of_completes (completes : start.Completes name arrived) {i : Nat}
    (bound : i < subChannels.length) :
    ∃ entry ∈ arrived.filterMap (start.entry name),
      (start.updates name traversal arrived).properties (channelKey name i .address) =
        some entry.2 := by
  have stored := completes.entries
  have reordered := (UnorderedMap.empty.insertAll
    (arrived.filterMap (start.entry name))).traverse_perm traversal
  rw [stored.1] at reordered
  have inRange : i < ((UnorderedMap.empty.insertAll
      (arrived.filterMap (start.entry name))).traverse traversal).length := by
    rw [reordered.length_eq, stored.2, length]
    exact bound
  have isEntry := List.getElem?_eq_getElem inRange
  exact ⟨_, reordered.mem_iff.mp (List.mem_of_getElem? isEntry),
    updates_complete fresh length completes isEntry⟩

theorem first_address (completes : start.Completes name arrived) {arrival : String × String}
    {entry : String × String} (member : arrival ∈ arrived)
    (isEntry : start.entry name arrival = some entry) :
    (start.updates name .oldestFirst (arrival :: arrived.erase arrival)).properties
      (channelKey name 0 .address) = some entry.2 := by
  have reordered : (arrival :: arrived.erase arrival).Perm arrived :=
    (List.perm_cons_erase member).symm
  have completes' := completes.perm reordered
  apply updates_complete fresh (reordered.length_eq.trans length) completes'
  rw [UnorderedMap.traverse_oldestFirst, completes'.entries.1,
    List.filterMap_cons_some isEntry]
  rfl

end Channel

end DDS

theorem eq_of_perm_of_short {α : Type} {first items : List α} (reordered : first.Perm items)
    (short : ¬ 2 ≤ items.length) : first = items := by
  match items, short with
  | [], _ => exact List.perm_nil.mp reordered
  | [item], _ => exact List.perm_singleton.mp reordered
  | _ :: _ :: _, short => simp at short

/-- The addresses do not depend on the order of the updates, however the maps iterate,
exactly when the updates do not complete the channel or all bring one address. -/
theorem addresses_order_independent_iff (dds : DDS) (name : String) (subChannels : List String)
    (fresh : dds.fConnectingChans.get? name = some ⟨subChannels, .empty⟩)
    (arrived : List (String × String)) (length : arrived.length = subChannels.length) :
    (∀ (traversal : Traversal String) (first second : List (String × String)),
      first.Perm arrived → second.Perm arrived →
        (dds.updates name traversal first).addresses name subChannels.length =
          (dds.updates name traversal second).addresses name subChannels.length) ↔
      (dds.Completes name arrived →
        ∀ entry ∈ arrived.filterMap (dds.entry name),
          ∀ other ∈ arrived.filterMap (dds.entry name), entry.2 = other.2) := by
  constructor
  · intro independent completes entry member other member'
    obtain ⟨arrival, arrives, isEntry⟩ := List.mem_filterMap.mp member
    obtain ⟨arrival', arrives', isOther⟩ := List.mem_filterMap.mp member'
    have same := independent .oldestFirst _ _ (List.perm_cons_erase arrives).symm
      (List.perm_cons_erase arrives').symm
    have bound : 0 < subChannels.length := length ▸ List.length_pos_of_mem arrives
    have first := congrArg (·[0]?) same
    simp only [DDS.addresses, List.getElem?_map, List.getElem?_range bound,
      Option.map_some, Option.some.injEq] at first
    rw [DDS.first_address fresh length completes arrives isEntry,
      DDS.first_address fresh length completes arrives' isOther] at first
    exact Option.some.inj first
  · intro oneAddress traversal first second reordered reordered'
    have length₁ := reordered.length_eq.trans length
    have length₂ := reordered'.length_eq.trans length
    by_cases several : 2 ≤ arrived.length
    · apply List.map_congr_left
      intro i member
      have bound := List.mem_range.mp member
      by_cases completes : dds.Completes name arrived
      · obtain ⟨entry, isEntry, set⟩ :=
          DDS.address_of_completes fresh length₁ (completes.perm reordered) bound
        obtain ⟨other, isOther, set'⟩ :=
          DDS.address_of_completes fresh length₂ (completes.perm reordered') bound
        have same := oneAddress completes entry ((reordered.filterMap _).mem_iff.mp isEntry) other
          ((reordered'.filterMap _).mem_iff.mp isOther)
        rw [set, set', same]
      · have unset := DDS.updates_incomplete fresh length₁ traversal
          (reordered.length_eq ▸ several) (fun other => completes (other.perm reordered.symm)) i
        have unset' := DDS.updates_incomplete fresh length₂ traversal
          (reordered'.length_eq ▸ several) (fun other => completes (other.perm reordered'.symm)) i
        exact unset.trans unset'.symm
    · -- one update has one order
      rw [eq_of_perm_of_short reordered several, eq_of_perm_of_short reordered' several]

/-- A channel with two sub-channels; an implementation of the maps that iterates newest
first, as one does that puts every new entry in front. -/
def twoSubChannels : DDS where
  fConnectingChans := UnorderedMap.empty.insert "data" ⟨["", ""], .empty⟩
  fI := .empty
  fIofN := .empty
  properties _ := none

/-- Two tasks with one address between them. -/
theorem one_address_order_independent :
    (twoSubChannels.updates "data" .newestFirst
        [("t1", "tcp://a:1"), ("t2", "tcp://a:1")]).addresses "data" 2 =
      (twoSubChannels.updates "data" .newestFirst
        [("t2", "tcp://a:1"), ("t1", "tcp://a:1")]).addresses "data" 2 := by
  apply (addresses_order_independent_iff twoSubChannels "data" ["", ""] (by decide)
    [("t1", "tcp://a:1"), ("t2", "tcp://a:1")] rfl).mpr _ .newestFirst _ _ (.refl _) (.swap ..)
  intro _
  decide

theorem addresses_follow_arrival :
    (twoSubChannels.updates "data" .newestFirst
        [("t1", "tcp://a:1"), ("t2", "tcp://b:1")]).addresses "data" 2 =
          [some "tcp://b:1", some "tcp://a:1"] ∧
      (twoSubChannels.updates "data" .newestFirst
        [("t2", "tcp://b:1"), ("t1", "tcp://a:1")]).addresses "data" 2 =
          [some "tcp://a:1", some "tcp://b:1"] := by
  decide

end FairMQ.Plugins
