import FairMQ.Device.Retry

namespace FairMQ.Device

open FairMQ.Channels
open FairMQ.Data
open FairMQ.Options (FairMQChannel Member ProgOptions channelKey channelKey_injective entryAt entryOf)

def channelName (name : String) (index : Nat) : String :=
  name ++ "[" ++ toString index ++ "]"

def nameChannels {σ : Type} (fChannels : List (String × List (Channel σ))) :
    List (String × List (Channel σ)) :=
  fChannels.map fun entry =>
    (entry.1, entry.2.mapIdx fun index channel =>
      { channel with fName := channelName entry.1 index })

/-- Without a bracket `erase` throws. -/
def getChannelPrefix (fName : String) : Option String :=
  (rfind '[' fName.toList).map fun place => .ofList (fName.toList.take place)

/-- The second `erase` takes nothing away if there is no bracket, since `npos + 1` is zero. -/
def getChannelIndex (fName : String) : Option String :=
  (rfind ']' fName.toList).map fun place =>
    let indexStr := fName.toList.take place
    .ofList (indexStr.drop ((rfind '[' indexStr).elim 0 (· + 1)))

def addressKey (fName : String) : Option String :=
  (getChannelPrefix fName).bind fun channelPrefix =>
    (getChannelIndex fName).map fun channelIndex =>
      "chans." ++ channelPrefix ++ "." ++ channelIndex ++ ".address"

section Names

variable (name : String) (index : Nat)

theorem channelName_toList :
    (channelName name index).toList =
      name.toList ++ '[' :: ((toString index).toList ++ [']']) := by
  simp [channelName, String.toList_append]

theorem getChannelPrefix_channelName :
    getChannelPrefix (channelName name index) = some name := by
  have free : '[' ∉ (toString index).toList ++ [']'] := by
    simpa using digits_free (by decide : '['.isDigit = false) index
  rw [getChannelPrefix, channelName_toList, rfind_cut free, Option.map_some, List.take_left,
    String.ofList_toList]

theorem getChannelIndex_channelName :
    getChannelIndex (channelName name index) = some (toString index) := by
  have split : (channelName name index).toList =
      (name.toList ++ '[' :: (toString index).toList) ++ ']' :: [] := by
    rw [channelName_toList, List.append_assoc, List.cons_append]
  have free := digits_free (by decide : '['.isDigit = false) index
  rw [getChannelIndex, split, rfind_cut (by simp), Option.map_some, List.take_left]
  have behind : (name.toList ++ '[' :: (toString index).toList).drop (name.toList.length + 1) =
      (toString index).toList := by
    rw [List.drop_append, List.drop_of_length_le (Nat.le_succ _), Nat.add_sub_cancel_left]
    rfl
  simp only [rfind_cut free, Option.elim_some, behind, String.ofList_toList]

theorem addressKey_channelName :
    addressKey (channelName name index) = some (channelKey name index .address) := by
  have dotted : channelKey name index .address =
      "chans." ++ name ++ "." ++ toString index ++ ".address" := by
    rw [channelKey, String.append_assoc]
    rfl
  rw [addressKey, getChannelPrefix_channelName, getChannelIndex_channelName, dotted]
  rfl

end Names

structure NamedFor (name : String) (index : Nat) (fName : String) : Prop where
  channelPrefix : getChannelPrefix fName = some name
  channelIndex : getChannelIndex fName = some (toString index)
  key : addressKey fName = some (channelKey name index .address)

theorem channelName_namedFor (name : String) (index : Nat) :
    NamedFor name index (channelName name index) where
  channelPrefix := getChannelPrefix_channelName name index
  channelIndex := getChannelIndex_channelName name index
  key := addressKey_channelName name index

theorem nameChannels_fName {σ : Type} {fChannels : List (String × List (Channel σ))}
    {name : String} {channels : List (Channel σ)} {index : Nat} {channel : Channel σ}
    (entry : (name, channels) ∈ nameChannels fChannels)
    (isChannel : channels[index]? = some channel) : channel.fName = channelName name index := by
  obtain ⟨before, _, same⟩ := List.mem_map.mp entry
  cases same
  rw [List.getElem?_mapIdx] at isChannel
  obtain ⟨unnamed, _, rfl⟩ := Option.map_eq_some_iff.mp isChannel
  rfl

/-- A name, whatever characters it has, and an index are found again in the name that
`InitWrapper` puts together, which yields the key that is registered for the address; and no
two members of channels have the same key. -/
theorem channel_naming_round_trip (name : String) (index : Nat) :
    NamedFor name index (channelName name index) ∧
    (∀ (σ : Type) (fChannels : List (String × List (Channel σ))) (channels : List (Channel σ))
      (channel : Channel σ), (name, channels) ∈ nameChannels fChannels →
        channels[index]? = some channel → NamedFor name index channel.fName) ∧
    (∀ (options : ProgOptions) (channel : FairMQChannel),
      options.fFairMQChannelMap.at? name index = some channel →
        ∃ key, addressKey (channelName name index) = some key ∧
          options.updateMQValues.fChannelKeyMap key = some ⟨name, index, "address"⟩ ∧
          options.updateMQValues.fVarMap key = some (.string channel.fAddress)) ∧
    ∀ (member : Member) (name' : String) (index' : Nat) (member' : Member),
      (name, index, member) ≠ (name', index', member') →
        channelKey name index member ≠ channelKey name' index' member' := by
  refine ⟨channelName_namedFor name index, ?_, ?_, ?_⟩
  · intro σ fChannels channels channel entry isChannel
    rw [nameChannels_fName entry isChannel]
    exact channelName_namedFor name index
  · intro options channel present
    have registered : entryAt (channelKey name index .address) options.updateMQValues =
      entryOf name index channel .address := Options.updateMQValues_sets present
    exact ⟨_, addressKey_channelName name index, congrArg Prod.fst registered,
      congrArg Prod.snd registered⟩
  · intro member name' index' member' different same
    obtain ⟨rfl, rfl, rfl⟩ := channelKey_injective same
    exact different rfl

/-- Brackets and dots in the name. -/
theorem bracketed_name_round_trip :
    NamedFor "a[0].b" 1 "a[0].b[1]" ∧
      ∃ key, addressKey "a[0].b[1]" = some key ∧
        ({ ProgOptions.new fun _ => none with
          fFairMQChannelMap := ⟨[("a[0].b", [{}, { fAddress := "tcp://*:1" }])], by simp⟩ }
            : ProgOptions).updateMQValues.fVarMap key = some (.string "tcp://*:1") := by
  obtain ⟨named, _, registered, _⟩ := channel_naming_round_trip "a[0].b" 1
  have isName : channelName "a[0].b" 1 = "a[0].b[1]" := by decide
  rw [isName] at named registered
  obtain ⟨key, isKey, _, stored⟩ := registered
    { ProgOptions.new fun _ => none with
      fFairMQChannelMap := ⟨[("a[0].b", [{}, { fAddress := "tcp://*:1" }])], by simp⟩ } _ rfl
  exact ⟨named, key, isKey, stored⟩

end FairMQ.Device
