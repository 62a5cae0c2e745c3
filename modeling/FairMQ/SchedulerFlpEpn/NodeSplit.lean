import FairMQ.SchedulerFlpEpn.ConfGen
import Mathlib.Algebra.Order.Floor.Semifield
import Mathlib.Data.Rat.Floor

namespace FairMQ.SchedulerFlpEpn

namespace Arguments

variable (arguments : Arguments)

def exactShare : Nat :=
  ⌊(arguments.numFlp : ℚ) / (arguments.numFlp + arguments.numEpn : Nat) *
    (arguments.nodes.length - 1 : Nat)⌋₊

structure SplitWorks (split : NodeSplit) : Prop where
  flpNodes : 1 ≤ split.numFlpNodes
  epnNodes : 1 ≤ split.numEpnNodes
  flps : ∀ flp < arguments.numFlp, ∃ node ∈ split.flpNodes arguments.nodes,
    split.flpNode arguments.nodes flp = some node
  epns : ∀ epn < arguments.numEpn, ∃ node ∈ split.epnNodes arguments.nodes,
    split.epnNode arguments.nodes epn = some node

variable {arguments : Arguments}

theorem splitWorks_iff (flps : 1 ≤ arguments.numFlp) (epns : 1 ≤ arguments.numEpn)
    (share : Nat) :
    arguments.SplitWorks (arguments.splitBy share) ↔
      1 ≤ share ∧ min arguments.numFlp share + 2 ≤ arguments.nodes.length := by
  constructor
  · intro works
    have flpNodes := works.flpNodes
    have epnNodes := works.epnNodes
    simp only [splitBy] at flpNodes epnNodes
    omega
  · intro split
    have flpNodes : 1 ≤ (arguments.splitBy share).numFlpNodes := by
      simp only [splitBy]
      omega
    have epnNodes : 1 ≤ (arguments.splitBy share).numEpnNodes := by
      simp only [splitBy]
      omega
    refine ⟨flpNodes, epnNodes, ?_, ?_⟩
    · intro flp _
      apply assign_exists (by omega)
      simp only [splitBy, NodeSplit.flpNodes, List.length_take, List.length_drop]
      omega
    · intro epn _
      apply assign_exists epnNodes
      simp only [splitBy, NodeSplit.epnNodes, List.length_take, List.length_drop]
      omega

theorem exactShare_eq :
    arguments.exactShare = arguments.numFlp * (arguments.nodes.length - 1) /
      (arguments.numFlp + arguments.numEpn) := by
  unfold exactShare
  rw [div_mul_eq_mul_div, ← Nat.cast_mul]
  exact Nat.floor_div_eq_div _ _

theorem exactShare_positive_iff (flps : 1 ≤ arguments.numFlp) :
    1 ≤ arguments.exactShare ↔ arguments.numFlp + arguments.numEpn ≤
      arguments.numFlp * (arguments.nodes.length - 1) := by
  rw [exactShare_eq]
  exact Nat.one_le_div_iff (by omega)

theorem exactShare_lt (epns : 1 ≤ arguments.numEpn) (nodes : 3 ≤ arguments.nodes.length) :
    arguments.exactShare < arguments.nodes.length - 1 := by
  rw [exactShare_eq, Nat.div_lt_iff_lt_mul (by omega), Nat.mul_comm]
  apply Nat.mul_lt_mul_of_pos_left <;> omega

/-- When the doubles agree with the exact quotient, this is also when the script
writes a configuration. -/
theorem generate_isSome_iff (flps : 1 ≤ arguments.numFlp) (epns : 1 ≤ arguments.numEpn)
    (nodes : 3 ≤ arguments.nodes.length)
    (exactly : arguments.doubleShare = arguments.exactShare) :
    arguments.generate.isSome ↔ arguments.numFlp + arguments.numEpn ≤
      arguments.numFlp * (arguments.nodes.length - 1) := by
  have below := exactShare_lt epns nodes
  have flpNodes : arguments.numFlpNodes = min arguments.numFlp arguments.exactShare := by
    rw [← exactly]
    rfl
  have epnNodes : arguments.numEpnNodes ≠ 0 := by
    have rest : arguments.numEpnNodes =
        min (arguments.numEpn : Int) (arguments.nodes.length - 1 - arguments.numFlpNodes) := rfl
    omega
  rw [← exactShare_positive_iff flps, generate, if_neg (by omega)]
  by_cases zero : arguments.exactShare = 0
  · have noNodes : arguments.numFlpNodes = 0 := by omega
    simp [noNodes, zero]
  · rw [if_neg (by omega)]
    simp only [Option.isSome_some, true_iff]
    omega

-- `1.0 / 49.0 * 49.0` is below one
example : (⟨1, 48, List.replicate 50 "pn02"⟩ : Arguments).doubleShare = 0 := by decide

end Arguments

/-- With the exact share, both kinds of devices get nodes exactly when the FLPs'
share is at least one node. -/
theorem node_split_works_iff (arguments : Arguments) (flps : 1 ≤ arguments.numFlp)
    (epns : 1 ≤ arguments.numEpn) (nodes : 3 ≤ arguments.nodes.length) :
    arguments.SplitWorks (arguments.splitBy arguments.exactShare) ↔
      arguments.numFlp + arguments.numEpn ≤
        arguments.numFlp * (arguments.nodes.length - 1) := by
  have below := Arguments.exactShare_lt epns nodes
  rw [Arguments.splitWorks_iff flps epns, Arguments.exactShare_positive_iff flps]
  constructor
  · intro split
    exact split.1
  · intro share
    exact ⟨share, by omega⟩

def fiveDevices : Arguments := ⟨3, 2, ["pn02", "pn04", "pn05"]⟩

theorem five_devices_split :
    fiveDevices.SplitWorks (fiveDevices.splitBy fiveDevices.exactShare) :=
  (node_split_works_iff fiveDevices (by decide) (by decide) (by decide)).mpr (by decide)

def loneFlp : Arguments := ⟨1, 10, ["pn02", "pn04", "pn05"]⟩

/-- The FLP's share is `2 / 11` of a node, and its placement divides by zero. -/
theorem lone_flp_without_node :
    1 ≤ loneFlp.numFlp ∧ 1 ≤ loneFlp.numEpn ∧ 3 ≤ loneFlp.nodes.length ∧
      ¬ loneFlp.SplitWorks (loneFlp.splitBy loneFlp.exactShare) ∧
      (loneFlp.splitBy loneFlp.exactShare).flpNode loneFlp.nodes 0 = none ∧
      loneFlp.generate = none := by
  have split : loneFlp.splitBy loneFlp.exactShare = ⟨0, 2⟩ := by
    rw [Arguments.exactShare_eq]
    decide
  refine ⟨by decide, by decide, by decide, ?_, ?_, by decide⟩
  · intro works
    have flpNodes := works.flpNodes
    simp [split] at flpNodes
  · rw [split]
    decide

end FairMQ.SchedulerFlpEpn
