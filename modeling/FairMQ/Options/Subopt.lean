import FairMQ.Options.Inheritance

namespace FairMQ.Options

open FairMQ.Data
open FairMQ.Data.PropertyTree

inductive ChannelOptionKey where
  | name
  | member (field : Member)
  | numSockets
deriving DecidableEq

def ChannelOptionKey.text : ChannelOptionKey → String
  | .name => "name"
  | .member field => field.text
  | .numSockets => "numSockets"

def channelOptionKeys : List ChannelOptionKey :=
  .name :: Member.all.map .member ++ [.numSockets]

/-- `getsubopt` of libc: the key, the value behind the first `=` and the text behind the
next comma.  Without a key of the list the value is the whole option. -/
def getsubopt (options : List Char) :
    Option ChannelOptionKey × Option (List Char) × List Char :=
  let option := options.takeWhile (· ≠ ',')
  let rest := (options.dropWhile (· ≠ ',')).tail
  match channelOptionKeys.find? fun key => key.text.toList = option.takeWhile (· ≠ '=') with
  | none => (none, some option, rest)
  | some key =>
      let value := option.dropWhile (· ≠ '=')
      (some key, if value = [] then none else some value.tail, rest)

theorem getsubopt_rest (options : List Char) :
    (getsubopt options).2.2 = (options.dropWhile (· ≠ ',')).tail := by
  dsimp only [getsubopt]
  split <;> rfl

theorem getsubopt_shorter (first : Char) (rest : List Char) :
    (getsubopt (first :: rest)).2.2.length < (first :: rest).length := by
  have shorter := ((first :: rest).dropWhile_sublist (· ≠ ',')).length_le
  rw [getsubopt_rest, List.length_tail]
  simp only [List.length_cons] at shorter ⊢
  omega

structure ChannelOptions where
  channelName : String := ""
  channelProperties : PropertyTree := node "" []
  socketsArray : List (String × PropertyTree) := []

def socketProperties (address : String) : PropertyTree :=
  (node "" []).put "address" address

namespace ChannelOptions

def write (options : ChannelOptions) (value : String) : ChannelOptionKey → ChannelOptions
  | .name =>
      { options with
        channelName := value
        channelProperties := options.channelProperties.put "name" value }
  | .member .address =>
      { options with socketsArray := options.socketsArray ++ [("", socketProperties value)] }
  | key =>
      { options with channelProperties := options.channelProperties.put key.text value }

/-- A name or an address without a value is a null pointer, which `string` and `put` do
not take. -/
def apply (options : ChannelOptions) :
    Option ChannelOptionKey → Option (List Char) → Option ChannelOptions
  | some key, some value => some (options.write (String.ofList value) key)
  | some .name, none => none
  | some (.member .address), none => none
  | _, _ => some options

/-- The loop ends with the text or at a blank. -/
def read (options : ChannelOptions) (subopts : List Char) : Option ChannelOptions :=
  match subopts with
  | [] => some options
  | first :: rest =>
      if first = ' ' then some options
      else
        let next := getsubopt (first :: rest)
        (options.apply next.1 next.2.1).bind fun options => options.read next.2.2
termination_by subopts.length
decreasing_by exact getsubopt_shorter first rest

def properties (options : ChannelOptions) : PropertyTree :=
  if options.channelName ≠ "" then
    options.channelProperties.addChild "sockets" (node "" options.socketsArray)
  else options.channelProperties

end ChannelOptions

def channelProperties (token : String) : Option PropertyTree :=
  (ChannelOptions.read {} (token.toList.takeWhile (· ≠ '\x00'))).map ChannelOptions.properties

def deviceTree (deviceId : String) (channels : List PropertyTree) : PropertyTree :=
  let channelsArray := node "" (channels.map ("", ·))
  let deviceProperties := ((node "" []).put "id" deviceId).addChild "channels" channelsArray
  let devicesArray := node "" [("", deviceProperties)]
  node "" [("fairMQOptions", node "" [("devices", devicesArray)])]

def userParser (channelConfig : List String) (deviceId : String) (rootNode : List String) :
    Option (UnorderedMap String (List FairMQChannel)) :=
  (channelConfig.mapM channelProperties).bind fun channels =>
    ptreeToMQMap (deviceTree deviceId channels) deviceId rootNode

/-- The texts that can be given: an argument of the command line ends at a null
character, and an option at a comma. -/
def Plain (text : String) : Prop :=
  ',' ∉ text.toList ∧ '\x00' ∉ text.toList

def Value.text : Value → String
  | .string text => text
  | .int number => toString number

/-- The `property` of the address is not used. -/
structure ChannelSpec where
  name : String
  addresses : List String
  property : Member → Option Value
  named : name ≠ ""
  plainName : Plain name
  plainAddresses : ∀ address ∈ addresses, Plain address
  plainProperties : ∀ member text, property member = some (.string text) → Plain text
  typed : ∀ member value, property member = some value → value.kind = member.kind
  ranged : ∀ member number, property member = some (.int number) →
    -2 ^ 31 ≤ number ∧ number < 2 ^ 31
  knownTransport : ∀ text, property .transport = some (.string text) →
    (transportTypes text).isSome

abbrev Subopt := ChannelOptionKey × String

def valuesOf (key : ChannelOptionKey) (options : List Subopt) : List String :=
  options.filterMap fun option => if option.1 = key then some option.2 else none

structure Renders (spec : ChannelSpec) (options : List Subopt) : Prop where
  name : valuesOf .name options = [spec.name]
  addresses : valuesOf (.member .address) options = spec.addresses
  properties : ∀ member ≠ .address,
    valuesOf (.member member) options = ((spec.property member).map Value.text).toList
  numSockets : valuesOf .numSockets options = []

def renderOption (option : Subopt) : List Char :=
  option.1.text.toList ++ '=' :: option.2.toList

def render : List Subopt → List Char
  | [] => []
  | [option] => renderOption option
  | option :: next :: options => renderOption option ++ ',' :: render (next :: options)

namespace ChannelSpec

def value (spec : ChannelSpec) (address : Option String) (member : Member) : Value :=
  match member, address with
  | .address, some address => .string address
  | .address, none => Member.value {} .address
  | member, _ => (spec.property member).getD (member.value {})

def subChannels (spec : ChannelSpec) : List (Option String) :=
  match spec.addresses with
  | [] => [none]
  | addresses => addresses.map some

def Describes (spec : ChannelSpec) (channel : String × List FairMQChannel) : Prop :=
  channel.1 = spec.name ∧
    List.Forall₂ (fun address channel => ∀ member, member.value channel =
      spec.value address member) spec.subChannels channel.2

end ChannelSpec

def ChannelOptions.writeAll (state : ChannelOptions) (options : List Subopt) : ChannelOptions :=
  options.foldl (fun state option => state.write option.2 option.1) state

def optionsTree (options : List Subopt) : PropertyTree :=
  (ChannelOptions.writeAll {} options).properties

section Reading

variable {option : Subopt} {options : List Subopt} {state : ChannelOptions}

theorem key_found (key : ChannelOptionKey) :
    (channelOptionKeys.find? fun other => other.text.toList = key.text.toList) = some key := by
  cases key with
  | name => decide
  | member field => cases field <;> decide
  | numSockets => decide

theorem key_text_injective {key other : ChannelOptionKey} (same : key.text = other.text) :
    key = other := by
  have found := key_found key
  rw [same, key_found other] at found
  exact (Option.some.inj found).symm

theorem key_text_ne_sockets (key : ChannelOptionKey) : key.text ≠ "sockets" := by
  cases key with
  | name => decide
  | member field => cases field <;> decide
  | numSockets => decide

theorem key_text_plain (key : ChannelOptionKey) :
    Plain key.text ∧ '=' ∉ key.text.toList ∧ key.text.toList.head?.any (· ≠ ' ') := by
  unfold Plain
  cases key with
  | name => decide
  | member field => cases field <;> decide
  | numSockets => decide

theorem comma_free (plain : Plain option.2) : ',' ∉ renderOption option := by
  simp [renderOption, (key_text_plain option.1).1.1, plain.1]

theorem getsubopt_option {text : List Char}
    (isOption : text.takeWhile (· ≠ ',') = renderOption option) :
    getsubopt text =
      (some option.1, some option.2.toList, (text.dropWhile (· ≠ ',')).tail) := by
  have free := (key_text_plain option.1).2.1
  simp only [getsubopt, isOption, renderOption, takeWhile_cut free, dropWhile_cut free,
    key_found, reduceCtorEq, if_false, List.tail_cons]

theorem read_step {text : List Char} (start : text.head?.any (· ≠ ' ')) :
    state.read text = (state.apply (getsubopt text).1 (getsubopt text).2.1).bind fun next =>
      next.read (getsubopt text).2.2 := by
  cases text with
  | nil => cases start
  | cons first rest =>
      have notBlank : first ≠ ' ' := by simpa using start
      rw [ChannelOptions.read, if_neg notBlank]

theorem read_option {text : List Char} (isOption : text.takeWhile (· ≠ ',') = renderOption option) :
    state.read text =
      (state.write option.2 option.1).read (text.dropWhile (· ≠ ',')).tail := by
  have start : text.head?.any (· ≠ ' ') := by
    obtain ⟨back, whole⟩ := List.takeWhile_prefix (l := text) (· ≠ ',')
    rw [← whole, isOption, renderOption, List.append_assoc, List.head?_append]
    have notBlank := (key_text_plain option.1).2.2
    cases found : option.1.text.toList.head? with
    | none => simp [found] at notBlank
    | some first => simpa [found] using notBlank
  rw [read_step start, getsubopt_option isOption]
  simp [ChannelOptions.apply]

theorem read_render (plain : ∀ option ∈ options, Plain option.2) :
    state.read (render options) = some (state.writeAll options) := by
  induction options generalizing state with
  | nil => rw [render, ChannelOptions.read]; rfl
  | cons option rest ih =>
      have free := comma_free (plain option (by simp))
      cases rest with
      | nil =>
          have nothingLeft : (renderOption option).dropWhile (· ≠ ',') = [] := by
            rw [List.dropWhile_eq_nil_iff]
            intro letter member
            simpa using ne_of_mem_of_not_mem member free
          rw [render, read_option (takeWhile_uncut free), nothingLeft, List.tail_nil,
            ChannelOptions.read]
          rfl
      | cons second rest =>
          rw [render, read_option (takeWhile_cut free _), dropWhile_cut free, List.tail_cons]
          exact ih fun other member => plain other (List.mem_cons_of_mem _ member)

theorem null_free (plain : ∀ option ∈ options, Plain option.2) : '\x00' ∉ render options := by
  have each : ∀ option ∈ options, '\x00' ∉ renderOption option := by
    intro option member
    simp [renderOption, (key_text_plain option.1).1.2, (plain option member).2]
  fun_induction render options with
  | case1 => simp
  | case2 option => exact each option (by simp)
  | case3 option next options ih =>
      have later := ih (fun other member => plain other (List.mem_cons_of_mem _ member))
        fun other member => each other (List.mem_cons_of_mem _ member)
      simp [each option (by simp), later]

theorem channelProperties_render (plain : ∀ option ∈ options, Plain option.2) :
    channelProperties (String.ofList (render options)) =
      some (optionsTree options) := by
  rw [channelProperties, String.toList_ofList, takeWhile_uncut (null_free plain),
    read_render plain]
  rfl

end Reading

section Writing

variable (state : ChannelOptions) {options : List Subopt} {spec : ChannelSpec}

theorem write_channelProperties (value : String) (key : ChannelOptionKey) :
    (state.write value key).channelProperties =
      if key = .member .address then state.channelProperties
      else state.channelProperties.put key.text value := by
  cases key with
  | name => rfl
  | member field => cases field <;> rfl
  | numSockets => rfl

theorem write_channelName (value : String) (key : ChannelOptionKey) :
    (state.write value key).channelName = if key = .name then value else state.channelName := by
  cases key with
  | name => rfl
  | member field => cases field <;> rfl
  | numSockets => rfl

theorem write_socketsArray (value : String) (key : ChannelOptionKey) :
    (state.write value key).socketsArray =
      if key = .member .address then state.socketsArray ++ [("", socketProperties value)]
      else state.socketsArray := by
  cases key with
  | name => rfl
  | member field => cases field <;> rfl
  | numSockets => rfl

theorem valuesOf_cons (key : ChannelOptionKey) (option : Subopt) (options : List Subopt) :
    valuesOf key (option :: options) =
      if option.1 = key then option.2 :: valuesOf key options else valuesOf key options := by
  by_cases isKey : option.1 = key <;> simp [valuesOf, isKey]

theorem writeAll_cons (option : Subopt) (options : List Subopt) :
    state.writeAll (option :: options) = (state.write option.2 option.1).writeAll options :=
  rfl

theorem writeAll_channelName (options : List Subopt) :
    (state.writeAll options).channelName =
      (valuesOf .name options).getLast?.getD state.channelName := by
  induction options generalizing state with
  | nil => rfl
  | cons option rest ih =>
      rw [writeAll_cons, ih, write_channelName, valuesOf_cons]
      by_cases isName : option.1 = .name
      · simp [isName, List.getLast?_cons]
      · simp [isName]

theorem writeAll_socketsArray (options : List Subopt) :
    (state.writeAll options).socketsArray = state.socketsArray ++
      (valuesOf (.member .address) options).map fun address => ("", socketProperties address) := by
  induction options generalizing state with
  | nil => simp [ChannelOptions.writeAll, valuesOf]
  | cons option rest ih =>
      rw [writeAll_cons, ih, write_socketsArray, valuesOf_cons]
      by_cases isAddress : option.1 = .member .address
      · simp [isAddress]
      · simp [isAddress]

theorem writeAll_property {key : ChannelOptionKey} (notAddress : key ≠ .member .address)
    (options : List Subopt) :
    ((state.writeAll options).channelProperties.child? key.text).map data =
      (valuesOf key options).getLast?.or ((state.channelProperties.child? key.text).map data) := by
  induction options generalizing state with
  | nil => rfl
  | cons option rest ih =>
      rw [writeAll_cons, ih, write_channelProperties, valuesOf_cons]
      by_cases isKey : option.1 = key
      · rw [if_pos isKey, if_neg (isKey ▸ notAddress), isKey, child?_put_self,
          List.getLast?_cons]
        cases (valuesOf key rest).getLast? <;> rfl
      · rw [if_neg isKey]
        split
        · rfl
        · rw [child?_put_ne _ fun same => isKey (key_text_injective same).symm]

theorem writeAll_unwritten {text : String}
    (unwritten : ∀ key : ChannelOptionKey, key ≠ .member .address → text ≠ key.text)
    (options : List Subopt) :
    (state.writeAll options).channelProperties.child? text = state.channelProperties.child? text ∧
      (state.writeAll options).channelProperties.elements text =
        state.channelProperties.elements text := by
  induction options generalizing state with
  | nil => exact ⟨rfl, rfl⟩
  | cons option rest ih =>
      obtain ⟨sameChild, sameElements⟩ := ih (state.write option.2 option.1)
      rw [write_channelProperties] at sameChild sameElements
      split at sameChild
      · rename_i isAddress
        rw [if_pos isAddress] at sameElements
        exact ⟨sameChild, sameElements⟩
      · rename_i notAddress
        rw [if_neg notAddress, elements_put _ (unwritten _ notAddress)] at sameElements
        rw [child?_put_ne _ (unwritten _ notAddress)] at sameChild
        exact ⟨sameChild, sameElements⟩

end Writing

section Rendered

variable {options : List Subopt} {spec : ChannelSpec}

theorem value_plain {member : Member} {value : Value} (given : spec.property member = some value) :
    Plain value.text := by
  cases value with
  | string text => exact spec.plainProperties member text given
  | int number =>
      exact ⟨sign_digits_free (by decide) (by decide) number,
        sign_digits_free (by decide) (by decide) number⟩

theorem value_read {member : Member} {value : Value} (given : spec.property member = some value) :
    readValue member.kind value.text = some value := by
  have isKind := spec.typed member value given
  cases value with
  | string text =>
      rw [← isKind]
      rfl
  | int number =>
      obtain ⟨low, high⟩ := spec.ranged member number given
      rw [← isKind]
      exact congrArg (Option.map Value.int) (readInt_toString low high)

theorem socket_given (address : String) (member : Member) :
    given? (socketProperties address) member =
      if member = .address then some (.string address) else none := by
  cases member <;> rfl

variable (rendered : Renders spec options)
include rendered

theorem Renders.plain : ∀ option ∈ options, Plain option.2 := by
  intro option member
  have listed : option.2 ∈ valuesOf option.1 options :=
    List.mem_filterMap.mpr ⟨option, member, by simp⟩
  cases key : option.1 with
  | name =>
      rw [key, rendered.name, List.mem_singleton] at listed
      exact listed ▸ spec.plainName
  | member field =>
      rw [key] at listed
      by_cases isAddress : field = .address
      · rw [isAddress, rendered.addresses] at listed
        exact spec.plainAddresses _ listed
      · rw [rendered.properties field isAddress, Option.mem_toList] at listed
        obtain ⟨value, given, isText⟩ := Option.map_eq_some_iff.mp listed
        exact isText ▸ value_plain given
  | numSockets =>
      rw [key, rendered.numSockets] at listed
      cases listed

theorem rendered_tree :
    optionsTree options =
      (ChannelOptions.writeAll {} options).channelProperties.addChild "sockets"
        (node "" (spec.addresses.map fun address => ("", socketProperties address))) := by
  have name : (ChannelOptions.writeAll {} options).channelName = spec.name := by
    rw [writeAll_channelName, rendered.name]
    rfl
  have sockets := writeAll_socketsArray {} options
  rw [rendered.addresses, List.nil_append] at sockets
  rw [optionsTree, ChannelOptions.properties, name, if_pos spec.named, sockets]

theorem rendered_data (key : ChannelOptionKey) (notAddress : key ≠ .member .address) :
    ((optionsTree options).child? key.text).map data =
      (valuesOf key options).getLast? := by
  rw [rendered_tree rendered, child?_addChild _ (key_text_ne_sockets key),
    writeAll_property _ notAddress]
  exact Option.or_none

theorem rendered_given {member : Member} (notAddress : member ≠ .address) :
    given? (optionsTree options) member = spec.property member := by
  have isData := rendered_data rendered (.member member) (by simpa using notAddress)
  rw [rendered.properties member notAddress] at isData
  refine (Option.bind_map (f := data) (g := readValue member.kind)).symm.trans ?_
  rw [ChannelOptionKey.text] at isData
  rw [isData]
  cases given : spec.property member with
  | none => rfl
  | some value => exact value_read given

theorem rendered_address :
    given? (optionsTree options) .address = none := by
  have unwritten : ∀ key : ChannelOptionKey, key ≠ .member .address → "address" ≠ key.text :=
    fun key notAddress same => notAddress (key_text_injective same.symm)
  have absent : (optionsTree options).child? "address" = none := by
    rw [rendered_tree rendered, child?_addChild _ (by decide), (writeAll_unwritten _ unwritten _).1]
    rfl
  exact congrArg (Option.bind · _) absent

theorem rendered_sockets :
    (optionsTree options).elements "sockets" =
      spec.addresses.map socketProperties := by
  have unwritten : ∀ key : ChannelOptionKey, key ≠ .member .address → "sockets" ≠ key.text :=
    fun key _ => (key_text_ne_sockets key).symm
  rw [rendered_tree rendered, elements_addChild, (writeAll_unwritten _ unwritten _).2]
  simp [children, elements]

theorem rendered_numSockets :
    (optionsTree options).getInt "numSockets" 0 = 0 := by
  have isData := rendered_data rendered .numSockets (by decide)
  rw [rendered.numSockets] at isData
  have absent := Option.map_eq_none_iff.mp isData
  rw [ChannelOptionKey.text] at absent
  rw [getInt, absent]
  rfl

theorem rendered_transports : KnownTransports (optionsTree options) := by
  constructor
  · intro child found
    have given := rendered_given rendered (by decide : Member.transport ≠ .address)
    apply spec.knownTransport child.data
    rw [← given, given?]
    exact congrArg (Option.bind · _) found
  · intro socket member
    rw [rendered_sockets rendered, List.mem_map] at member
    obtain ⟨address, _, rfl⟩ := member
    intro child found
    cases found

theorem rendered_inherited (address : Option String) (member : Member) :
    inherited (address.map socketProperties) (optionsTree options)
      member = spec.value address member := by
  by_cases isAddress : member = .address
  · subst isAddress
    cases address <;> simp [inherited, rendered_address rendered, socket_given, ChannelSpec.value]
  · have others : spec.value address member = (spec.property member).getD (member.value {}) := by
      cases member <;> first | rfl | exact absurd rfl isAddress
    rw [others, inherited, rendered_given rendered isAddress]
    cases address <;> simp [socket_given, isAddress]

theorem rendered_socketNodes :
    socketNodes (optionsTree options) =
      spec.subChannels.map (Option.map socketProperties) := by
  rw [socketNodes, rendered_numSockets rendered, rendered_sockets rendered, if_neg (by decide),
    ChannelSpec.subChannels]
  cases spec.addresses with
  | nil => rfl
  | cons first rest => simp

theorem rendered_describes {channel : String × List FairMQChannel}
    (declares : Declares (optionsTree options) channel) :
    spec.Describes channel := by
  have isName := rendered_data rendered .name (by decide)
  rw [rendered.name] at isName
  have made := declares.2
  rw [Inherits, rendered_socketNodes rendered, List.forall₂_map_left_iff] at made
  refine ⟨?_, made.imp fun address channel inherits member => ?_⟩
  · rw [declares.1, entryName, getString]
    exact congrArg (Option.getD · "") isName
  · rw [inherits member, rendered_inherited rendered]

theorem rendered_parsed :
    ∃ channel, parseChannel (optionsTree options) = some channel ∧
      spec.Describes channel := by
  have isName := rendered_data rendered .name (by decide)
  have named : ((optionsTree options).child? "name").isSome := by
    rw [← Option.isSome_map]
    rw [rendered.name] at isName
    exact Option.isSome_iff_exists.mpr ⟨_, isName⟩
  obtain ⟨channel, parsed⟩ := Option.isSome_iff_exists.mp
    (parseChannel_isSome named (rendered_transports rendered))
  exact ⟨channel, parsed, rendered_describes rendered (parseChannel_declares parsed)⟩

end Rendered

theorem deviceTree_parsed {deviceId : String} (identified : deviceId ≠ "")
    (channels : List PropertyTree) :
    ptreeToMQMap (deviceTree deviceId channels) deviceId ["fairMQOptions"] =
      (channels.mapM parseChannel).map UnorderedMap.empty.insertAll := by
  have key : deviceIdKey (((node "" []).put "id" deviceId).addChild "channels"
      (node "" (channels.map ("", ·)))) = some deviceId := rfl
  have entries : (((node "" []).put "id" deviceId).addChild "channels"
      (node "" (channels.map ("", ·)))).elements "channels" = channels := by
    rw [elements_addChild]
    simp [put, putChild, elements, children, Function.comp_def]
  rw [ptreeToMQMap, if_neg identified]
  change parseDevice deviceId .empty _ >>= pure = _
  rw [bind_pure, parseDevice, key, channelParser, entries]
  simp

def commandLine (configs : List (List Subopt)) : List String :=
  configs.map fun options => String.ofList (render options)

theorem commandLine_parsed {specs : List ChannelSpec} {configs : List (List Subopt)}
    (rendered : List.Forall₂ Renders specs configs) :
    ∃ channels parsed, (commandLine configs).mapM channelProperties = some channels ∧
      channels.mapM parseChannel = some parsed ∧
      List.Forall₂ ChannelSpec.Describes specs parsed := by
  induction rendered with
  | nil => exact ⟨[], [], rfl, rfl, .nil⟩
  | @cons spec options specs configs first _ ih =>
      obtain ⟨channels, parsed, areChannels, areParsed, describe⟩ := ih
      obtain ⟨channel, isChannel, describes⟩ := rendered_parsed first
      refine ⟨optionsTree options :: channels, channel :: parsed, ?_, ?_,
        .cons describes describe⟩
      · change (String.ofList (render options) :: commandLine configs).mapM _ = _
        rw [List.mapM_cons, channelProperties_render first.plain, areChannels]
        rfl
      · rw [List.mapM_cons, isChannel, areParsed]
        rfl

/-- The channels of the command line are those of the specifications, whatever the order
of the options. -/
theorem command_line_round_trip {specs : List ChannelSpec} {configs : List (List Subopt)}
    (distinct : (specs.map ChannelSpec.name).Nodup)
    (rendered : List.Forall₂ Renders specs configs) (deviceId : String) :
    if deviceId = "" then userParser (commandLine configs) deviceId ["fairMQOptions"] = none
    else
      ∃ channelMap,
        userParser (commandLine configs) deviceId ["fairMQOptions"] = some channelMap ∧
          List.Forall₂ ChannelSpec.Describes specs channelMap.entries := by
  obtain ⟨channels, parsed, areChannels, areParsed, describe⟩ := commandLine_parsed rendered
  have names : parsed.map Prod.fst = specs.map ChannelSpec.name :=
    map_fst_of_forall₂ (describe.imp fun _ _ describes => describes.1)
  rw [userParser, areChannels, Option.bind_some]
  split
  · rename_i missing
    rw [ptreeToMQMap, if_pos missing]
  · rename_i identified
    rw [deviceTree_parsed identified, areParsed]
    refine ⟨_, rfl, ?_⟩
    rw [UnorderedMap.empty_insertAll (names ▸ distinct)]
    exact describe

def pushSpec : ChannelSpec where
  name := "data"
  addresses := ["tcp://a:1", "tcp://b:2"]
  property
    | .type => some (.string "push")
    | .transport => some (.string "zeromq")
    | .sndBufSize => some (.int 10)
    | _ => none
  named := by decide
  plainName := ⟨by decide, by decide⟩
  plainAddresses := by
    unfold Plain
    decide
  plainProperties member text given := by
    cases member <;> cases given <;> exact ⟨by decide, by decide⟩
  typed member value given := by cases member <;> cases given <;> rfl
  ranged member number given := by
    cases member <;> cases given
    decide
  knownTransport text given := by
    cases given
    rfl

def pushOptions : List Subopt :=
  [(.member .address, "tcp://a:1"), (.member .type, "push"), (.name, "data"),
    (.member .sndBufSize, "10"), (.member .address, "tcp://b:2"), (.member .transport, "zeromq")]

theorem push_round_trip :
    ∃ channelMap, userParser
        ["address=tcp://a:1,type=push,name=data,sndBufSize=10,address=tcp://b:2,transport=zeromq"]
        "sampler" ["fairMQOptions"] = some channelMap ∧
      List.Forall₂ ChannelSpec.Describes [pushSpec] channelMap.entries := by
  have rendered : Renders pushSpec pushOptions := by
    refine ⟨by decide, by decide, fun member notAddress => ?_, by decide⟩
    cases member <;> first | rfl | exact absurd rfl notAddress
  exact command_line_round_trip (by decide : ([pushSpec].map ChannelSpec.name).Nodup)
    (.cons rendered .nil) "sampler"

end FairMQ.Options
