import Mathlib.Order.Lattice
import Mathlib.Order.Nat

namespace FairMQ.Data

universe u

variable {α : Type u} [LinearOrder α] {values : List α} {position : Nat} {best : α}

structure IsFirstMax (values : List α) (position : Nat) (best : α) : Prop where
  found : values[position]? = some best
  greatest : ∀ (other : Nat) (value : α), values[other]? = some value → value ≤ best
  first : ∀ (earlier : Nat) (value : α), earlier < position →
    values[earlier]? = some value → value < best

theorem IsFirstMax.singleton (value : α) : IsFirstMax [value] 0 value where
  found := rfl
  greatest := by
    intro other candidate found
    cases other with
    | zero =>
        cases found
        exact le_rfl
    | succ other => simp at found
  first := by
    intro earlier candidate before
    omega

theorem IsFirstMax.keep {value : α} (isMax : IsFirstMax values position best)
    (notGreater : ¬ best < value) : IsFirstMax (values ++ [value]) position best := by
  have inside : position < values.length := (List.getElem?_eq_some_iff.mp isMax.found).1
  refine ⟨?_, ?_, ?_⟩
  · rw [List.getElem?_append_left inside]
    exact isMax.found
  · intro other candidate found
    rw [List.getElem?_append] at found
    split at found
    · exact isMax.greatest other candidate found
    · have isLast := List.mem_of_getElem? found
      rw [List.mem_singleton.mp isLast]
      exact not_lt.mp notGreater
  · intro earlier candidate before found
    rw [List.getElem?_append_left (before.trans inside)] at found
    exact isMax.first earlier candidate before found

theorem IsFirstMax.replace {value : α} (isMax : IsFirstMax values position best)
    (greater : best < value) : IsFirstMax (values ++ [value]) values.length value := by
  refine ⟨by simp, ?_, ?_⟩
  · intro other candidate found
    rw [List.getElem?_append] at found
    split at found
    · exact (isMax.greatest other candidate found).trans greater.le
    · have isLast := List.mem_of_getElem? found
      rw [List.mem_singleton.mp isLast]
  · intro earlier candidate before found
    rw [List.getElem?_append_left before] at found
    exact (isMax.greatest earlier candidate found).trans_lt greater

theorem IsFirstMax.unique {otherPosition : Nat} {otherBest : α}
    (isMax : IsFirstMax values position best)
    (otherMax : IsFirstMax values otherPosition otherBest) : position = otherPosition := by
  rcases lt_trichotomy position otherPosition with before | same | after
  · have less := otherMax.first _ _ before isMax.found
    exact absurd (isMax.greatest _ _ otherMax.found) (not_le.mpr less)
  · exact same
  · have less := isMax.first _ _ after otherMax.found
    exact absurd (otherMax.greatest _ _ isMax.found) (not_le.mpr less)

/-- The positions `chosen` are the greatest candidates, the greatest first and the
smaller position first among equals. -/
structure StableTop (value : Nat → α) (candidate : Nat → Prop) (chosen : List Nat) : Prop where
  nodup : chosen.Nodup
  candidates : ∀ i ∈ chosen, candidate i
  ordered : chosen.Pairwise fun i j => value j < value i ∨ value i = value j ∧ i < j
  maximal : ∀ j, candidate j → j ∉ chosen → ∀ i ∈ chosen, value j ≤ value i

namespace StableTop

variable {value valueLeft : Nat → α} {candidate candidateLeft : Nat → Prop} {chosen : List Nat}

theorem nil : StableTop value candidate [] where
  nodup := List.nodup_nil
  candidates := by
    intro i member
    cases member
  ordered := List.Pairwise.nil
  maximal := by
    intro j _ _ i member
    cases member

section Cons

variable (others : ∀ j, candidateLeft j ↔ candidate j ∧ j ≠ position)
  (kept : ∀ j, j ≠ position → valueLeft j = value j)

include others kept

theorem tail (selected : StableTop value candidate (position :: chosen)) :
    StableTop valueLeft candidateLeft chosen := by
  obtain ⟨nodup, candidates, ordered, maximal⟩ := selected
  have different : ∀ i ∈ chosen, i ≠ position := by
    intro i member same
    rw [same] at member
    exact (List.nodup_cons.mp nodup).1 member
  refine ⟨(List.nodup_cons.mp nodup).2, ?_, ?_, ?_⟩
  · intro i member
    exact (others i).mpr ⟨candidates i (List.mem_cons_of_mem _ member), different i member⟩
  · apply List.Pairwise.imp_of_mem _ (List.pairwise_cons.mp ordered).2
    intro i j first second before
    rw [kept i (different i first), kept j (different j second)]
    exact before
  · intro j isCandidate left i member
    obtain ⟨wasCandidate, other⟩ := (others j).mp isCandidate
    rw [kept i (different i member), kept j other]
    apply maximal j wasCandidate _ i (List.mem_cons_of_mem _ member)
    intro isChosen
    rcases List.mem_cons.mp isChosen with same | later
    · exact other same
    · exact left later

theorem cons (isCandidate : candidate position)
    (greatest : ∀ j, candidate j → value j ≤ value position)
    (first : ∀ j < position, candidate j → value j < value position)
    (selected : StableTop valueLeft candidateLeft chosen) :
    StableTop value candidate (position :: chosen) := by
  obtain ⟨nodup, candidates, ordered, maximal⟩ := selected
  have member_iff : ∀ i ∈ chosen, candidate i ∧ i ≠ position := by
    intro i member
    exact (others i).mp (candidates i member)
  refine ⟨List.nodup_cons.mpr ⟨?_, nodup⟩, ?_, List.pairwise_cons.mpr ⟨?_, ?_⟩, ?_⟩
  · intro member
    exact (member_iff position member).2 rfl
  · intro i member
    rcases List.mem_cons.mp member with rfl | later
    · exact isCandidate
    · exact (member_iff i later).1
  · intro j member
    obtain ⟨wasCandidate, other⟩ := member_iff j member
    rcases lt_or_eq_of_le (greatest j wasCandidate) with less | equal
    · exact .inl less
    · refine .inr ⟨equal.symm, lt_of_le_of_ne (not_lt.mp ?_) other.symm⟩
      intro before
      exact absurd equal (first j before wasCandidate).ne
  · apply List.Pairwise.imp_of_mem _ ordered
    intro i j isFirst isSecond before
    rw [← kept i (member_iff i isFirst).2, ← kept j (member_iff j isSecond).2]
    exact before
  · intro j wasCandidate left i member
    rcases List.mem_cons.mp member with rfl | later
    · exact greatest j wasCandidate
    · have other : j ≠ position := fun same => left (by simp [same])
      rw [← kept i (member_iff i later).2, ← kept j other]
      apply maximal j ((others j).mpr ⟨wasCandidate, other⟩) _ i later
      intro isChosen
      exact left (List.mem_cons_of_mem _ isChosen)

end Cons

theorem le_head (selected : StableTop value candidate (position :: chosen)) {j : Nat}
    (isCandidate : candidate j) : value j ≤ value position := by
  by_cases isChosen : j ∈ position :: chosen
  · rcases List.mem_cons.mp isChosen with rfl | later
    · exact le_rfl
    · rcases (List.pairwise_cons.mp selected.ordered).1 j later with less | ⟨equal, _⟩
      · exact less.le
      · exact equal.ge
  · exact selected.maximal j isCandidate isChosen position (by simp)

end StableTop

end FairMQ.Data
