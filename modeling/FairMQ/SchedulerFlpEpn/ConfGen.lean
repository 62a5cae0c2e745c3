import FairMQ.Data.Binary64
import Mathlib.Data.List.Range
import Mathlib.Logic.Function.Basic

namespace FairMQ.SchedulerFlpEpn

open FairMQ.Data

inductive SocketType where
  | push
  | pull
deriving DecidableEq, Repr

inductive Method where
  | bind
  | connect
deriving DecidableEq, Repr

inductive Address where
  | any (port : Nat)
  | node (node : String) (port : Nat)
deriving DecidableEq, Repr

structure Socket where
  type : SocketType
  method : Method
  address : Address
  sndBufSize : Nat := 1000
  rcvBufSize : Nat := 1000
  rateLogging : Nat := 10
deriving DecidableEq, Repr

def bindSocket (type : SocketType) (port : Nat) : Socket :=
  { type, method := .bind, address := .any port }

def connectSocket (type : SocketType) (node : String) (port : Nat) : Socket :=
  { type, method := .connect, address := .node node port }

inductive ChannelName where
  | schedflp
  | epnsched
  | data
deriving DecidableEq, Repr

structure Channel where
  name : ChannelName
  sockets : List Socket
deriving DecidableEq, Repr

inductive DeviceId where
  | scheduler
  | flp (number : Nat)
  | epn (number : Nat)
deriving DecidableEq, Repr

structure Device where
  id : DeviceId
  channels : List Channel
deriving DecidableEq, Repr

structure Launch where
  node : String
  id : DeviceId
  myId : Option Nat
  socket : Option Nat
  numEPNS : Nat
  numFLPS : Nat
deriving DecidableEq, Repr

structure Config where
  schedDev : Device
  flpConfig : List Device
  epnConfig : List Device
  schedSpm : Launch
  flpSpm : List Launch
  epnSpm : List Launch
deriving DecidableEq, Repr

def times {σ : Type} (body : σ → Nat → σ) (start : σ) : Nat → σ
  | 0 => start
  | n + 1 => body (times body start n) n

structure Arguments where
  numFlp : Nat
  numEpn : Nat
  nodes : List String
deriving DecidableEq, Repr

def schedFlpPort : Nat := 20000

def schedEpnPort : Nat := 30000

def flpDataPort : Nat := 20000

def bindNext (type : SocketType) (loop : Nat × List Socket) (_ : Nat) : Nat × List Socket :=
  (loop.1 + 1, loop.2 ++ [bindSocket type loop.1])

structure FlpNode where
  node : String
  dataPorts : List Nat
deriving DecidableEq, Repr

structure DataLoop where
  flpPortPerNode : String → Option Nat
  dataPorts : List Nat
  sockets : List Socket

structure FlpLoop where
  flpPortPerNode : String → Option Nat
  flpNodeMap : List FlpNode
  flpConfig : List Device

def initPort (flpPortPerNode : String → Option Nat) (node : String) : String → Option Nat :=
  match flpPortPerNode node with
  | none => Function.update flpPortPerNode node (some flpDataPort)
  | some _ => flpPortPerNode

/-- The next socket of an FLP's data channel.  The port of the node has been
initialised. -/
def bindData (node : String) (loop : DataLoop) (_ : Nat) : DataLoop :=
  let port := (loop.flpPortPerNode node).getD 0
  { flpPortPerNode := Function.update loop.flpPortPerNode node (some (port + 1))
    dataPorts := loop.dataPorts ++ [port]
    sockets := loop.sockets ++ [bindSocket .push port] }

def connectData (flpNodeMap : List FlpNode) (epn : Nat) (sockets : List Socket) (flp : Nat) :
    List Socket :=
  let entry := flpNodeMap.getD flp ⟨"", []⟩
  sockets ++ [connectSocket .pull entry.node (entry.dataPorts.getD epn 0)]

structure NodeSplit where
  numFlpNodes : Nat
  numEpnNodes : Int
deriving DecidableEq, Repr

/-- `list[device % count]`; a modulo by zero raises `ZeroDivisionError`. -/
def assign (list : List String) (count : Int) (device : Nat) : Option String :=
  if count = 0 then none else list[(device % count).toNat]?

theorem assign_exists {list : List String} {count : Int} (positive : 1 ≤ count)
    (enough : count ≤ list.length) (device : Nat) :
    ∃ node ∈ list, assign list count device = some node := by
  have nonnegative : 0 ≤ device % count := Int.emod_nonneg _ (by omega)
  have below : device % count < count := Int.emod_lt_of_pos _ (by omega)
  have inside : (device % count).toNat < list.length := by omega
  refine ⟨list[(device % count).toNat], List.getElem_mem inside, ?_⟩
  rw [assign, if_neg (by omega)]
  exact List.getElem?_eq_getElem inside

namespace NodeSplit

variable (split : NodeSplit) (nodes : List String)

def flpNodes : List String := (nodes.drop 1).take split.numFlpNodes

def epnNodes : List String :=
  (nodes.drop (1 + split.numFlpNodes)).take split.numEpnNodes.toNat

def flpNode (flp : Nat) : Option String :=
  assign (split.flpNodes nodes) split.numFlpNodes flp

def epnNode (epn : Nat) : Option String :=
  assign (split.epnNodes nodes) split.numEpnNodes epn

end NodeSplit

namespace Arguments

variable (arguments : Arguments)

def splitBy (share : Nat) : NodeSplit where
  numFlpNodes := min arguments.numFlp share
  numEpnNodes := min arguments.numEpn
    (arguments.nodes.length - 1 - (min arguments.numFlp share : Nat))

def doubleShare : Nat :=
  (((Binary64.ofNat arguments.numFlp).div (.ofNat (arguments.numFlp + arguments.numEpn))).mul
    (.ofNat (arguments.nodes.length - 1))).truncate

def split : NodeSplit := arguments.splitBy arguments.doubleShare

def numFlpNodes : Nat := arguments.split.numFlpNodes

def numEpnNodes : Int := arguments.split.numEpnNodes

def schedNode : String := arguments.nodes.getD 0 ""

def flpNode (flp : Nat) : String := (arguments.split.flpNode arguments.nodes flp).getD ""

def epnNode (epn : Nat) : String := (arguments.split.epnNode arguments.nodes epn).getD ""

def schedDev : Device where
  id := .scheduler
  channels :=
    [⟨.schedflp, (times (bindNext .push) (schedFlpPort, []) arguments.numFlp).2⟩,
      ⟨.epnsched, (times (bindNext .pull) (schedEpnPort, []) arguments.numEpn).2⟩]

def addFlp (loop : FlpLoop) (flp : Nat) : FlpLoop :=
  let node := arguments.flpNode flp
  let data := times (bindData node) ⟨initPort loop.flpPortPerNode node, [], []⟩ arguments.numEpn
  { flpPortPerNode := data.flpPortPerNode
    flpNodeMap := loop.flpNodeMap ++ [⟨node, data.dataPorts⟩]
    flpConfig := loop.flpConfig ++ [{
      id := .flp flp
      channels := [⟨.data, data.sockets⟩,
        ⟨.schedflp, [connectSocket .pull arguments.schedNode (schedFlpPort + flp)]⟩] }] }

def flpLoop : FlpLoop :=
  times arguments.addFlp ⟨fun _ => none, [], []⟩ arguments.numFlp

def addEpn (flpNodeMap : List FlpNode) (loop : List Device × List String) (epn : Nat) :
    List Device × List String :=
  (loop.1 ++ [{
    id := .epn epn
    channels := [⟨.data, times (connectData flpNodeMap epn) [] arguments.numFlp⟩,
      ⟨.epnsched, [connectSocket .push arguments.schedNode (schedEpnPort + epn)]⟩] }],
    loop.2 ++ [arguments.epnNode epn])

def epnLoop : List Device × List String :=
  times (arguments.addEpn arguments.flpLoop.flpNodeMap) ([], []) arguments.numEpn

def schedSpm : Launch :=
  ⟨arguments.schedNode, .scheduler, none, none, arguments.numEpn, arguments.numFlp⟩

def addFlpSpm (flpNodeMap : List FlpNode) (lines : List Launch) (flp : Nat) : List Launch :=
  lines ++ [⟨(flpNodeMap.getD flp ⟨"", []⟩).node, .flp flp, some (flp + 1), some flp,
    arguments.numEpn, arguments.numFlp⟩]

def addEpnSpm (epnNodeMap : List String) (lines : List Launch) (epn : Nat) : List Launch :=
  lines ++ [⟨epnNodeMap.getD epn "", .epn epn, some (epn + 1), none,
    arguments.numEpn, arguments.numFlp⟩]

/-- Nothing is written when the arguments are refused or a modulo is by zero. -/
def generate : Option Config :=
  if arguments.nodes.length < 3 ∨ arguments.numFlp = 0 ∨ arguments.numEpn = 0 then none
  else if arguments.numFlpNodes = 0 ∨ arguments.numEpnNodes = 0 then none
  else some {
    schedDev := arguments.schedDev
    flpConfig := arguments.flpLoop.flpConfig
    epnConfig := arguments.epnLoop.1
    schedSpm := arguments.schedSpm
    flpSpm := times (arguments.addFlpSpm arguments.flpLoop.flpNodeMap) [] arguments.numFlp
    epnSpm := times (arguments.addEpnSpm arguments.epnLoop.2) [] arguments.numEpn }

end Arguments

end FairMQ.SchedulerFlpEpn
