import FairMQ.SchedulerFlpEpn.ConfGen
import FairMQ.SchedulerFlpEpn.TimeFrame

namespace FairMQ.SchedulerFlpEpn

open FairMQ.Data

section Loops

variable {α : Type}

theorem times_append {body : List α → Nat → List α} {entry : Nat → α} {count : Nat}
    (appends : ∀ i < count, ∀ list, body list i = list ++ [entry i]) :
    times body [] count = (List.range count).map entry := by
  induction count with
  | zero => rfl
  | succ count ih =>
      have earlier := ih fun i below => appends i (by omega)
      rw [times, earlier, appends count (Nat.lt_succ_self count), List.range_succ, List.map_append]
      rfl

theorem times_bindNext (type : SocketType) (port count : Nat) :
    times (bindNext type) (port, []) count =
      (port + count, (List.range count).map fun i => bindSocket type (port + i)) := by
  induction count with
  | zero => rfl
  | succ count ih =>
      rw [times, ih, List.range_succ, List.map_append]
      rfl

theorem times_bindData {node : String} {ports : String → Option Nat} {port : Nat}
    (initialised : ports node = some port) (count : Nat) :
    times (bindData node) ⟨ports, [], []⟩ count =
      ⟨Function.update ports node (some (port + count)), (List.range count).map (port + ·),
        (List.range count).map fun epn => bindSocket .push (port + epn)⟩ := by
  induction count with
  | zero => simp [times, ← initialised]
  | succ count ih =>
      rw [times, ih]
      simp [bindData, List.range_succ, Nat.add_assoc]

end Loops

namespace Arguments

variable (arguments : Arguments)

def placedOn (node : String) (flp : Nat) : Nat :=
  (List.range flp).countP fun earlier => arguments.flpNode earlier = node

def firstPort (flp : Nat) : Nat :=
  flpDataPort + arguments.placedOn (arguments.flpNode flp) flp * arguments.numEpn

def portAfter (flp : Nat) (node : String) : Option Nat :=
  if arguments.placedOn node flp = 0 then none
  else some (flpDataPort + arguments.placedOn node flp * arguments.numEpn)

def flpEntry (flp : Nat) : FlpNode :=
  ⟨arguments.flpNode flp, (List.range arguments.numEpn).map (arguments.firstPort flp + ·)⟩

def flpDevice (flp : Nat) : Device where
  id := .flp flp
  channels :=
    [⟨.data, (List.range arguments.numEpn).map fun epn =>
        bindSocket .push (arguments.firstPort flp + epn)⟩,
      ⟨.schedflp, [connectSocket .pull arguments.schedNode (schedFlpPort + flp)]⟩]

def epnDevice (epn : Nat) : Device where
  id := .epn epn
  channels :=
    [⟨.data, (List.range arguments.numFlp).map fun flp =>
        connectSocket .pull (arguments.flpNode flp) (arguments.firstPort flp + epn)⟩,
      ⟨.epnsched, [connectSocket .push arguments.schedNode (schedEpnPort + epn)]⟩]

def flpLaunch (flp : Nat) : Launch :=
  ⟨arguments.flpNode flp, .flp flp, some (flp + 1), some flp, arguments.numEpn, arguments.numFlp⟩

def epnLaunch (epn : Nat) : Launch :=
  ⟨arguments.epnNode epn, .epn epn, some (epn + 1), none, arguments.numEpn, arguments.numFlp⟩

theorem placedOn_succ (node : String) (flp : Nat) :
    arguments.placedOn node (flp + 1) =
      arguments.placedOn node flp + if arguments.flpNode flp = node then 1 else 0 := by
  unfold placedOn
  rw [List.range_succ, List.countP_append]
  simp [List.countP_cons]

theorem initPort_eq (flp : Nat) :
    initPort (arguments.portAfter flp) (arguments.flpNode flp) =
      Function.update (arguments.portAfter flp) (arguments.flpNode flp)
        (some (arguments.firstPort flp)) := by
  by_cases first : arguments.placedOn (arguments.flpNode flp) flp = 0
  · have unset : arguments.portAfter flp (arguments.flpNode flp) = none := if_pos first
    simp [initPort, unset, firstPort, first]
  · have set : arguments.portAfter flp (arguments.flpNode flp) =
        some (arguments.firstPort flp) := if_neg first
    rw [← set, Function.update_eq_self, initPort, set]

theorem portAfter_succ (flp : Nat) :
    arguments.portAfter (flp + 1) =
      Function.update (arguments.portAfter flp) (arguments.flpNode flp)
        (some (arguments.firstPort flp + arguments.numEpn)) := by
  funext node
  unfold portAfter
  rw [placedOn_succ]
  by_cases same : arguments.flpNode flp = node
  · subst same
    simp [firstPort, Nat.add_mul, Nat.add_assoc]
  · simp [same, Ne.symm same]

theorem addFlp_eq (flp : Nat) (flpNodeMap : List FlpNode) (flpConfig : List Device) :
    arguments.addFlp ⟨arguments.portAfter flp, flpNodeMap, flpConfig⟩ flp =
      ⟨arguments.portAfter (flp + 1), flpNodeMap ++ [arguments.flpEntry flp],
        flpConfig ++ [arguments.flpDevice flp]⟩ := by
  have data := times_bindData
    (Function.update_self (arguments.flpNode flp) (some (arguments.firstPort flp))
      (arguments.portAfter flp)) arguments.numEpn
  unfold addFlp
  dsimp only
  rw [initPort_eq, data, Function.update_idem, portAfter_succ]
  rfl

theorem flpLoop_eq :
    arguments.flpLoop =
      ⟨arguments.portAfter arguments.numFlp,
        (List.range arguments.numFlp).map arguments.flpEntry,
        (List.range arguments.numFlp).map arguments.flpDevice⟩ := by
  unfold flpLoop
  generalize arguments.numFlp = count
  induction count with
  | zero => rfl
  | succ count ih =>
      rw [times, ih, addFlp_eq, List.range_succ, List.map_append, List.map_append]
      rfl

theorem getD_flpEntry {flp : Nat} (present : flp < arguments.numFlp) :
    arguments.flpLoop.flpNodeMap.getD flp ⟨"", []⟩ = arguments.flpEntry flp := by
  simp [flpLoop_eq, present]

theorem connectData_eq {epn : Nat} (present : epn < arguments.numEpn) :
    times (connectData arguments.flpLoop.flpNodeMap epn) [] arguments.numFlp =
      (List.range arguments.numFlp).map fun flp =>
        connectSocket .pull (arguments.flpNode flp) (arguments.firstPort flp + epn) := by
  apply times_append
  intro flp placed sockets
  unfold connectData
  rw [arguments.getD_flpEntry placed]
  simp [flpEntry, present]

theorem epnLoop_eq :
    arguments.epnLoop = ((List.range arguments.numEpn).map arguments.epnDevice,
      (List.range arguments.numEpn).map arguments.epnNode) := by
  have solved : ∀ count ≤ arguments.numEpn,
      times (arguments.addEpn arguments.flpLoop.flpNodeMap) ([], []) count =
        ((List.range count).map arguments.epnDevice, (List.range count).map arguments.epnNode) := by
    intro count within
    induction count with
    | zero => rfl
    | succ count ih =>
        rw [times, ih (by omega), addEpn, arguments.connectData_eq (by omega), List.range_succ,
          List.map_append, List.map_append]
        rfl
  exact solved arguments.numEpn (Nat.le_refl _)

def topology : Config where
  schedDev := {
    id := .scheduler
    channels :=
      [⟨.schedflp, (List.range arguments.numFlp).map fun flp =>
          bindSocket .push (schedFlpPort + flp)⟩,
        ⟨.epnsched, (List.range arguments.numEpn).map fun epn =>
          bindSocket .pull (schedEpnPort + epn)⟩] }
  flpConfig := (List.range arguments.numFlp).map arguments.flpDevice
  epnConfig := (List.range arguments.numEpn).map arguments.epnDevice
  schedSpm := arguments.schedSpm
  flpSpm := (List.range arguments.numFlp).map arguments.flpLaunch
  epnSpm := (List.range arguments.numEpn).map arguments.epnLaunch

theorem nodes_suffice (epnNodes : 1 ≤ arguments.numEpnNodes) :
    arguments.numFlpNodes + 2 ≤ arguments.nodes.length := by
  have split : arguments.numEpnNodes ≤ arguments.nodes.length - 1 - arguments.numFlpNodes :=
    Int.min_le_right ..
  omega

theorem generate_eq_topology (flps : 1 ≤ arguments.numFlp) (epns : 1 ≤ arguments.numEpn)
    (flpNodes : 1 ≤ arguments.numFlpNodes) (epnNodes : 1 ≤ arguments.numEpnNodes) :
    arguments.generate = some arguments.topology := by
  have enough := arguments.nodes_suffice epnNodes
  have flpSpm : times (arguments.addFlpSpm arguments.flpLoop.flpNodeMap) [] arguments.numFlp =
      (List.range arguments.numFlp).map arguments.flpLaunch := by
    apply times_append
    intro flp placed lines
    rw [addFlpSpm, arguments.getD_flpEntry placed]
    rfl
  have epnSpm : times (arguments.addEpnSpm arguments.epnLoop.2) [] arguments.numEpn =
      (List.range arguments.numEpn).map arguments.epnLaunch := by
    apply times_append
    intro epn placed lines
    rw [addEpnSpm, epnLoop_eq]
    simp [epnLaunch, placed]
  unfold generate
  rw [if_neg (by omega), if_neg (by omega), flpSpm, epnSpm, flpLoop_eq, epnLoop_eq]
  simp only [schedDev, times_bindNext]
  rfl

end Arguments

def Device.socket? (device : Device) (name : ChannelName) (index : Nat) : Option Socket :=
  (device.channels.find? fun channel => channel.name = name).bind (·.sockets[index]?)

def Address.port : Address → Nat
  | .any port => port
  | .node _ port => port

def Socket.boundPort? (socket : Socket) : Option Nat :=
  match socket.method with
  | .bind => some socket.address.port
  | .connect => none

@[simp]
theorem boundPort?_bindSocket (type : SocketType) (port : Nat) :
    (bindSocket type port).boundPort? = some port := rfl

@[simp]
theorem boundPort?_connectSocket (type : SocketType) (node : String) (port : Nat) :
    (connectSocket type node port).boundPort? = none := rfl

def Device.bound (device : Device) (launch : Launch) : List (String × Nat) :=
  device.channels.flatMap fun channel =>
    (channel.sockets.filterMap Socket.boundPort?).map fun port => (launch.node, port)

def Config.bound (config : Config) : List (String × Nat) :=
  config.schedDev.bound config.schedSpm ++
    (List.zipWith Device.bound config.flpConfig config.flpSpm).flatten ++
      (List.zipWith Device.bound config.epnConfig config.epnSpm).flatten

/-- Sub-channel `i` of the data channel of `epn` is connected to the node and port that
data socket `index` of `flp` is bound to. -/
def Config.Connected (config : Config) (flp index epn i : Nat) : Prop :=
  ∃ sender launch receiver port,
    config.flpConfig[flp]? = some sender ∧ config.flpSpm[flp]? = some launch ∧
    config.epnConfig[epn]? = some receiver ∧
    sender.socket? .data index = some (bindSocket .push port) ∧
    receiver.socket? .data i = some (connectSocket .pull launch.node port)

def Epn.Accepts (epn : Epn) (numFLPS i : Nat) (message : FLPtoEPN) : Prop :=
  (epn.receive numFLPS i message).rcvdSTFs =
    Function.update epn.rcvdSTFs message.sTF (epn.rcvdSTFs message.sTF + 1)

theorem Epn.accepts_own (epn : Epn) (numFLPS i sTF : Nat) :
    epn.Accepts numFLPS i ⟨i + 1, sTF⟩ := by
  unfold Epn.Accepts Epn.receive
  rw [if_neg (not_not_intro rfl)]
  split
  · unfold Epn.complete
    split <;> rfl
  · rfl

/-- The devices belong to the lines that start them, and every connecting socket has its
bound counterpart on its own node and port. -/
structure Wired (arguments : Arguments) (config : Config) : Prop where
  ids : config.schedDev.id = config.schedSpm.id ∧
    config.flpConfig.map Device.id = config.flpSpm.map Launch.id ∧
    config.epnConfig.map Device.id = config.epnSpm.map Launch.id
  data : ∀ flp < arguments.numFlp, ∀ epn < arguments.numEpn, config.Connected flp epn epn flp
  schedflp : ∀ flp < arguments.numFlp, ∃ device port,
    config.flpConfig[flp]? = some device ∧
    config.schedDev.socket? .schedflp flp = some (bindSocket .push port) ∧
    device.socket? .schedflp 0 = some (connectSocket .pull config.schedSpm.node port)
  epnsched : ∀ epn < arguments.numEpn, ∃ device port,
    config.epnConfig[epn]? = some device ∧
    config.schedDev.socket? .epnsched epn = some (bindSocket .pull port) ∧
    device.socket? .epnsched 0 = some (connectSocket .push config.schedSpm.node port)
  ports : config.bound.Nodup

/-- What an FLP sends for the schedule entry `c` arrives at the EPN with that id and at
no other, on the sub-channel that fits the id of the FLP. -/
def Delivers (arguments : Arguments) (config : Config) : Prop :=
  ∀ flp < arguments.numFlp, ∀ c, 1 ≤ c → c ≤ arguments.numEpn →
    (∃ epn i, config.Connected flp (c - 1) epn i) ∧
    ∀ epn i, config.Connected flp (c - 1) epn i →
      ∃ sender receiver myId, config.flpSpm[flp]? = some sender ∧ sender.myId = some myId ∧
        config.epnSpm[epn]? = some receiver ∧ receiver.myId = some c ∧
        i < receiver.numFLPS ∧ myId = i + 1 ∧
        ∀ (state : Epn) (sTF : Nat), state.Accepts receiver.numFLPS i ⟨myId, sTF⟩

namespace Arguments

variable {arguments : Arguments}

theorem placedOn_mono (node : String) {flp later : Nat} (before : flp ≤ later) :
    arguments.placedOn node flp ≤ arguments.placedOn node later := by
  induction later with
  | zero =>
      cases Nat.le_zero.mp before
      exact Nat.le_refl _
  | succ later ih =>
      rw [placedOn_succ]
      cases Nat.le_or_eq_of_le_succ before with
      | inl earlier => exact Nat.le_add_right_of_le (ih earlier)
      | inr same =>
          subst same
          rw [placedOn_succ]

theorem firstPort_apart {flp later : Nat} (before : flp < later)
    (shared : arguments.flpNode flp = arguments.flpNode later) :
    arguments.firstPort flp + arguments.numEpn ≤ arguments.firstPort later := by
  have placed : arguments.placedOn (arguments.flpNode later) flp + 1 ≤
      arguments.placedOn (arguments.flpNode later) later := by
    have next : arguments.placedOn (arguments.flpNode later) (flp + 1) ≤
      arguments.placedOn (arguments.flpNode later) later := placedOn_mono _ before
    rwa [placedOn_succ, if_pos shared] at next
  have scaled := Nat.mul_le_mul_right arguments.numEpn placed
  unfold firstPort
  rw [shared]
  rw [Nat.add_mul, Nat.one_mul] at scaled
  omega

theorem port_injective {flp other epn epn' : Nat} (within : epn < arguments.numEpn)
    (within' : epn' < arguments.numEpn)
    (shared : arguments.flpNode flp = arguments.flpNode other)
    (same : arguments.firstPort flp + epn = arguments.firstPort other + epn') :
    flp = other ∧ epn = epn' := by
  rcases Nat.lt_trichotomy flp other with before | equal | after
  · have apart := firstPort_apart before shared
    omega
  · subst equal
    omega
  · have apart := firstPort_apart after shared.symm
    omega

theorem getElem?_map_range {α : Type} (entry : Nat → α) (count i : Nat) :
    ((List.range count).map entry)[i]? = if i < count then some (entry i) else none := by
  split
  · rename_i inside
    simp [inside]
  · rename_i outside
    simp [outside]

theorem flpDevice_data (flp epn : Nat) :
    (arguments.flpDevice flp).socket? .data epn =
      if epn < arguments.numEpn then some (bindSocket .push (arguments.firstPort flp + epn))
      else none :=
  getElem?_map_range (fun epn => bindSocket .push (arguments.firstPort flp + epn)) _ epn

theorem epnDevice_data (epn flp : Nat) :
    (arguments.epnDevice epn).socket? .data flp =
      if flp < arguments.numFlp then
        some (connectSocket .pull (arguments.flpNode flp) (arguments.firstPort flp + epn))
      else none :=
  getElem?_map_range (fun flp =>
    connectSocket .pull (arguments.flpNode flp) (arguments.firstPort flp + epn)) _ flp

theorem connected_iff (flp index epn i : Nat) :
    arguments.topology.Connected flp index epn i ↔
      flp < arguments.numFlp ∧ index < arguments.numEpn ∧ i = flp ∧ epn = index := by
  constructor
  · intro ⟨sender, launch, receiver, port, isSender, isLaunch, isReceiver, bound, connected⟩
    simp only [topology, getElem?_map_range, Option.ite_none_right_eq_some,
      Option.some.injEq] at isSender isLaunch isReceiver
    obtain ⟨placed, isSender⟩ := isSender
    obtain ⟨_, isLaunch⟩ := isLaunch
    obtain ⟨placed', isReceiver⟩ := isReceiver
    subst isSender isLaunch isReceiver
    rw [flpDevice_data, Option.ite_none_right_eq_some, Option.some.injEq] at bound
    rw [epnDevice_data, Option.ite_none_right_eq_some, Option.some.injEq] at connected
    obtain ⟨within, samePort⟩ := bound
    obtain ⟨_, sameAddress⟩ := connected
    cases samePort
    simp only [connectSocket, flpLaunch, Socket.mk.injEq, Address.node.injEq, true_and,
      and_true] at sameAddress
    obtain ⟨isFlp, isEpn⟩ := port_injective placed' within sameAddress.1 sameAddress.2
    exact ⟨placed, within, isFlp, isEpn⟩
  · intro ⟨placed, within, isFlp, isEpn⟩
    subst isFlp isEpn
    refine ⟨arguments.flpDevice i, arguments.flpLaunch i, arguments.epnDevice epn,
      arguments.firstPort i + epn, ?_, ?_, ?_, ?_, ?_⟩
    · simp [topology, placed]
    · simp [topology, placed]
    · simp [topology, within]
    · rw [flpDevice_data, if_pos within]
    · rw [epnDevice_data, if_pos placed]
      rfl

theorem flpNode_mem {flp : Nat} (flpNodes : 1 ≤ arguments.numFlpNodes)
    (epnNodes : 1 ≤ arguments.numEpnNodes) :
    arguments.flpNode flp ∈ arguments.nodes.drop 1 := by
  have enough := arguments.nodes_suffice epnNodes
  obtain ⟨node, member, placed⟩ : ∃ node ∈ arguments.split.flpNodes arguments.nodes,
      arguments.split.flpNode arguments.nodes flp = some node := by
    apply assign_exists (Int.ofNat_le.mpr flpNodes)
    simp only [NodeSplit.flpNodes, List.length_take, List.length_drop]
    change (arguments.numFlpNodes : Int) ≤ (min arguments.numFlpNodes _ : Nat)
    omega
  rw [flpNode, placed]
  exact List.mem_of_mem_take member

theorem flpNode_ne_schedNode {flp : Nat} (distinct : arguments.nodes.Nodup)
    (flpNodes : 1 ≤ arguments.numFlpNodes) (epnNodes : 1 ≤ arguments.numEpnNodes) :
    arguments.flpNode flp ≠ arguments.schedNode := by
  have member : arguments.flpNode flp ∈ arguments.nodes.drop 1 := flpNode_mem flpNodes epnNodes
  unfold schedNode
  cases isNodes : arguments.nodes with
  | nil => simp [isNodes] at member
  | cons first rest =>
      rw [isNodes] at member distinct
      intro same
      rw [same] at member
      exact (List.nodup_cons.mp distinct).1 member

theorem schedDev_bound :
    arguments.topology.schedDev.bound arguments.topology.schedSpm =
      ((List.range arguments.numFlp).map fun flp => (arguments.schedNode, schedFlpPort + flp)) ++
        (List.range arguments.numEpn).map fun epn => (arguments.schedNode, schedEpnPort + epn) := by
  simp [topology, Device.bound, schedSpm, Function.comp_def]

theorem flpDevice_bound (flp : Nat) :
    (arguments.flpDevice flp).bound (arguments.flpLaunch flp) =
      (List.range arguments.numEpn).map fun epn =>
        (arguments.flpNode flp, arguments.firstPort flp + epn) := by
  simp [flpDevice, Device.bound, flpLaunch, Function.comp_def, List.filterMap_cons]

theorem epnDevice_bound (epn : Nat) :
    (arguments.epnDevice epn).bound (arguments.epnLaunch epn) = [] := by
  simp [epnDevice, Device.bound]

theorem topology_bound :
    arguments.topology.bound =
      (((List.range arguments.numFlp).map fun flp => (arguments.schedNode, schedFlpPort + flp)) ++
        (List.range arguments.numEpn).map fun epn => (arguments.schedNode, schedEpnPort + epn)) ++
      (List.range arguments.numFlp).flatMap fun flp =>
        (List.range arguments.numEpn).map fun epn =>
          (arguments.flpNode flp, arguments.firstPort flp + epn) := by
  unfold Config.bound
  rw [schedDev_bound]
  have flps : List.zipWith Device.bound arguments.topology.flpConfig arguments.topology.flpSpm =
      (List.range arguments.numFlp).map fun flp =>
        (List.range arguments.numEpn).map fun epn =>
          (arguments.flpNode flp, arguments.firstPort flp + epn) := by
    simp only [topology, List.zipWith_map, List.zipWith_self, flpDevice_bound]
  have epns : (List.zipWith Device.bound arguments.topology.epnConfig
      arguments.topology.epnSpm).flatten = [] := by
    simp [topology, List.zipWith_map, List.zipWith_self, epnDevice_bound]
  rw [flps, epns, List.append_nil, List.flatMap_def]

theorem sched_ports_nodup (few : arguments.numFlp ≤ 10000) :
    (((List.range arguments.numFlp).map fun flp => (arguments.schedNode, schedFlpPort + flp)) ++
      (List.range arguments.numEpn).map fun epn =>
        (arguments.schedNode, schedEpnPort + epn)).Nodup := by
  apply List.nodup_append.mpr
  refine ⟨?_, ?_, ?_⟩
  · apply List.nodup_range.map
    intro flp other same
    simpa using same
  · apply List.nodup_range.map
    intro epn other same
    simpa using same
  · intro first isFirst second isSecond same
    obtain ⟨flp, placed, rfl⟩ := List.mem_map.mp isFirst
    obtain ⟨epn, _, rfl⟩ := List.mem_map.mp isSecond
    rw [List.mem_range] at placed
    simp only [schedFlpPort, schedEpnPort, Prod.mk.injEq, true_and] at same
    omega

theorem flp_ports_nodup :
    ((List.range arguments.numFlp).flatMap fun flp =>
      (List.range arguments.numEpn).map fun epn =>
        (arguments.flpNode flp, arguments.firstPort flp + epn)).Nodup := by
  apply List.nodup_flatMap.mpr
  constructor
  · intro flp _
    apply List.nodup_range.map
    intro epn other same
    simpa using same
  · apply List.nodup_range.imp
    intro flp other different entry isFirst isSecond
    obtain ⟨epn, within, isEntry⟩ := List.mem_map.mp isFirst
    obtain ⟨epn', within', isEntry'⟩ := List.mem_map.mp isSecond
    rw [List.mem_range] at within within'
    rw [← isEntry, Prod.mk.injEq] at isEntry'
    have same := port_injective within' within isEntry'.1 isEntry'.2
    exact different same.1.symm

theorem topology_ports_nodup (few : arguments.numFlp ≤ 10000) (distinct : arguments.nodes.Nodup)
    (flpNodes : 1 ≤ arguments.numFlpNodes) (epnNodes : 1 ≤ arguments.numEpnNodes) :
    arguments.topology.bound.Nodup := by
  rw [topology_bound]
  apply List.nodup_append.mpr
  refine ⟨sched_ports_nodup few, flp_ports_nodup, ?_⟩
  intro first isFirst second isSecond same
  have onSched : first.1 = arguments.schedNode := by
    simp only [List.mem_append, List.mem_map] at isFirst
    rcases isFirst with ⟨_, _, rfl⟩ | ⟨_, _, rfl⟩ <;> rfl
  obtain ⟨flp, _, inFlp⟩ := List.mem_flatMap.mp isSecond
  obtain ⟨epn, _, rfl⟩ := List.mem_map.mp inFlp
  rw [same] at onSched
  exact flpNode_ne_schedNode distinct flpNodes epnNodes onSched

theorem topology_wired (few : arguments.numFlp ≤ 10000) (distinct : arguments.nodes.Nodup)
    (flpNodes : 1 ≤ arguments.numFlpNodes) (epnNodes : 1 ≤ arguments.numEpnNodes) :
    Wired arguments arguments.topology where
  ids := by
    refine ⟨rfl, ?_, ?_⟩
    · simp [topology, flpDevice, flpLaunch]
    · simp [topology, epnDevice, epnLaunch]
  data := by
    intro flp placed epn within
    exact (connected_iff flp epn epn flp).mpr ⟨placed, within, rfl, rfl⟩
  schedflp := by
    intro flp placed
    refine ⟨arguments.flpDevice flp, schedFlpPort + flp, ?_, ?_, rfl⟩
    · simp [topology, placed]
    · have bound := getElem?_map_range (fun flp => bindSocket .push (schedFlpPort + flp))
        arguments.numFlp flp
      rwa [if_pos placed] at bound
  epnsched := by
    intro epn within
    refine ⟨arguments.epnDevice epn, schedEpnPort + epn, ?_, ?_, rfl⟩
    · simp [topology, within]
    · have bound := getElem?_map_range (fun epn => bindSocket .pull (schedEpnPort + epn))
        arguments.numEpn epn
      rwa [if_pos within] at bound
  ports := topology_ports_nodup few distinct flpNodes epnNodes

theorem topology_delivers : Delivers arguments arguments.topology := by
  intro flp placed c positive within
  constructor
  · exact ⟨c - 1, flp, (connected_iff flp (c - 1) (c - 1) flp).mpr ⟨placed, by omega, rfl, rfl⟩⟩
  · intro epn i connected
    obtain ⟨_, inside, isFlp, isEpn⟩ := (connected_iff flp (c - 1) epn i).mp connected
    subst isFlp isEpn
    have isEntry : c - 1 + 1 = c := by omega
    refine ⟨arguments.flpLaunch i, arguments.epnLaunch (c - 1), i + 1, ?_, rfl, ?_, ?_, placed,
      rfl, ?_⟩
    · simp [topology, placed]
    · simp [topology, inside]
    · exact congrArg some isEntry
    · intro state sTF
      exact state.accepts_own _ i sTF

end Arguments

/-- Whenever the script has a node for the FLPs and one for the EPNs, it writes a
configuration in which every connection meets its socket, no port is bound twice on a
node, and every sub-time-frame arrives where `epn::receive` accepts it. -/
theorem generated_topology_wired (arguments : Arguments) (flps : 1 ≤ arguments.numFlp)
    (epns : 1 ≤ arguments.numEpn) (few : arguments.numFlp ≤ 10000)
    (distinct : arguments.nodes.Nodup) (flpNodes : 1 ≤ arguments.numFlpNodes)
    (epnNodes : 1 ≤ arguments.numEpnNodes) :
    ∃ config, arguments.generate = some config ∧ Wired arguments config ∧
      Delivers arguments config :=
  ⟨arguments.topology, arguments.generate_eq_topology flps epns flpNodes epnNodes,
    arguments.topology_wired few distinct flpNodes epnNodes, arguments.topology_delivers⟩

/-- Three FLPs share two nodes. -/
theorem five_devices_wired :
    (⟨3, 2, ["pn02", "pn04", "pn05", "pn06", "pn07"]⟩ : Arguments).numFlpNodes = 2 ∧
      ∃ config, (⟨3, 2, ["pn02", "pn04", "pn05", "pn06", "pn07"]⟩ : Arguments).generate =
        some config ∧ Wired ⟨3, 2, ["pn02", "pn04", "pn05", "pn06", "pn07"]⟩ config := by
  refine ⟨by decide, ?_⟩
  obtain ⟨config, written, wired, _⟩ := generated_topology_wired
    ⟨3, 2, ["pn02", "pn04", "pn05", "pn06", "pn07"]⟩ (by decide) (by decide) (by decide)
    (by decide) (by decide) (by decide)
  exact ⟨config, written, wired⟩

end FairMQ.SchedulerFlpEpn
