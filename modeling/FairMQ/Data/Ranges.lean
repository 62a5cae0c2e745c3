import Mathlib.Algebra.Order.BigOperators.Group.List
import Mathlib.Algebra.Ring.Nat
import Mathlib.Data.List.Basic

namespace FairMQ.Data

universe u

variable {κ : Type u} [DecidableEq κ] (size : κ → Nat)

def rangeStart : List κ → Nat → κ → Option Nat
  | [], _, _ => none
  | first :: keys, base, key =>
      (rangeStart keys (base + size first) key).or (if first = key then some base else none)

def rangeTotal (keys : List κ) : Nat :=
  (keys.map size).sum

def InRange (keys : List κ) (base : Nat) (key : κ) (place : Nat) : Prop :=
  ∃ start, rangeStart size keys base key = some start ∧ start ≤ place ∧ place < start + size key

variable {size} {keys : List κ} {base place : Nat} {key first : κ}

omit [DecidableEq κ] in
theorem rangeTotal_cons :
    rangeTotal size (first :: keys) = size first + rangeTotal size keys := by
  simp [rangeTotal]

theorem rangeStart_isSome : (rangeStart size keys base key).isSome ↔ key ∈ keys := by
  induction keys generalizing base with
  | nil => simp [rangeStart]
  | cons first keys ih =>
      rw [rangeStart, Option.isSome_or, Bool.or_eq_true, ih, List.mem_cons]
      by_cases same : first = key
      · simp [same]
      · simp [same, Ne.symm same]

theorem rangeStart_of_not_mem (absent : key ∉ keys) : rangeStart size keys base key = none := by
  rw [← Option.not_isSome_iff_eq_none, rangeStart_isSome]
  exact absent

namespace InRange

theorem cons_iff :
    InRange size (first :: keys) base key place ↔
      InRange size keys (base + size first) key place ∨
        first ∉ keys ∧ key = first ∧ base ≤ place ∧ place < base + size first := by
  unfold InRange
  rw [rangeStart]
  by_cases later : key ∈ keys
  · have there : (rangeStart size keys (base + size first) key).isSome :=
      rangeStart_isSome.mpr later
    obtain ⟨start, isStart⟩ := Option.isSome_iff_exists.mp there
    have fresh : first ∉ keys → key ≠ first := by
      rintro absent rfl
      exact absent later
    simp only [isStart, Option.some_or]
    exact ⟨.inl, fun either => either.resolve_right fun own => fresh own.1 own.2.1⟩
  · rw [rangeStart_of_not_mem later, Option.none_or]
    by_cases same : first = key
    · subst same
      simp [later]
    · simp [same, Ne.symm same]

theorem mem (inside : InRange size keys base key place) : key ∈ keys := by
  obtain ⟨start, isStart, _⟩ := inside
  rw [← rangeStart_isSome, isStart]
  rfl

theorem bounds (inside : InRange size keys base key place) :
    base ≤ place ∧ place < base + rangeTotal size keys := by
  induction keys generalizing base with
  | nil => cases inside.mem
  | cons first keys ih =>
      rw [rangeTotal_cons]
      rcases cons_iff.mp inside with later | ⟨_, _, lower, upper⟩
      · have := ih later
        omega
      · omega

theorem unique {other : κ} (inside : InRange size keys base key place)
    (insideOther : InRange size keys base other place) : key = other := by
  induction keys generalizing base with
  | nil => cases inside.mem
  | cons first keys ih =>
      rcases cons_iff.mp inside with later | ⟨_, rfl, _, upper⟩ <;>
        rcases cons_iff.mp insideOther with laterOther | ⟨_, rfl, _, upperOther⟩
      · exact ih later laterOther
      · have := later.bounds
        omega
      · have := laterOther.bounds
        omega
      · rfl

theorem covers (distinct : keys.Nodup) (lower : base ≤ place)
    (upper : place < base + rangeTotal size keys) : ∃ key, InRange size keys base key place := by
  induction keys generalizing base with
  | nil =>
      simp only [rangeTotal, List.map_nil, List.sum_nil] at upper
      omega
  | cons first keys ih =>
      obtain ⟨fresh, distinct⟩ := List.nodup_cons.mp distinct
      rw [rangeTotal_cons] at upper
      by_cases own : place < base + size first
      · exact ⟨first, cons_iff.mpr (.inr ⟨fresh, rfl, lower, own⟩)⟩
      · have lower : base + size first ≤ place := by omega
        obtain ⟨key, inside⟩ := ih distinct lower (by omega)
        exact ⟨key, cons_iff.mpr (.inl inside)⟩

theorem gap (filled : ∀ key ∈ keys, 0 < size key) (repeated : ¬ keys.Nodup) (base : Nat) :
    ∃ place, base ≤ place ∧ place < base + rangeTotal size keys ∧
      ∀ key, ¬ InRange size keys base key place := by
  induction keys generalizing base with
  | nil => exact absurd List.nodup_nil repeated
  | cons first keys ih =>
      rw [rangeTotal_cons]
      by_cases again : first ∈ keys
      · have positive := filled first List.mem_cons_self
        refine ⟨base, Nat.le_refl _, by omega, ?_⟩
        intro key inside
        rcases cons_iff.mp inside with later | ⟨fresh, _⟩
        · have := later.bounds
          omega
        · exact fresh again
      · obtain ⟨place, lower, upper, free⟩ := ih
          (fun key member => filled key (List.mem_cons_of_mem _ member))
          (fun distinct => repeated (List.nodup_cons.mpr ⟨again, distinct⟩)) (base + size first)
        refine ⟨place, by omega, by omega, ?_⟩
        intro key inside
        rcases cons_iff.mp inside with later | ⟨_, _, _, upperOwn⟩
        · exact free key later
        · omega

end InRange

end FairMQ.Data
