import Mathlib.Data.List.Forall2
import Mathlib.Data.List.TakeWhile

namespace FairMQ.Data

universe u

variable {α : Type u}

structure Repetition (α : Type u) where
  holds : α → Bool
  least : Nat
  most : Option Nat

namespace Repetition

def once (holds : α → Bool) : Repetition α := ⟨holds, 1, some 1⟩

def oneOrMore (holds : α → Bool) : Repetition α := ⟨holds, 1, none⟩

def zeroOrMore (holds : α → Bool) : Repetition α := ⟨holds, 0, none⟩

def literal [DecidableEq α] (text : List α) : List (Repetition α) :=
  text.map fun element => once (· = element)

def longest (repetition : Repetition α) (text : List α) : Nat :=
  repetition.most.elim id min (text.takeWhile repetition.holds).length

def lengths (repetition : Repetition α) (text : List α) : List Nat :=
  (List.range' repetition.least (repetition.longest text + 1 - repetition.least)).reverse

structure Takes (repetition : Repetition α) (piece : List α) : Prop where
  holds : ∀ element ∈ piece, repetition.holds element = true
  least : repetition.least ≤ piece.length
  most : ∀ most ∈ repetition.most, piece.length ≤ most

end Repetition

def splits : List (Repetition α) → List α → List (List (List α))
  | [], text => if text.isEmpty then [[]] else []
  | repetition :: pattern, text =>
      (repetition.lengths text).flatMap fun length =>
        (splits pattern (text.drop length)).map (text.take length :: ·)

def firstMatch (pattern : List (Repetition α)) (text : List α) : Option (List (List α)) :=
  (splits pattern text).head?

structure Splits (pattern : List (Repetition α)) (text : List α) (pieces : List (List α)) :
    Prop where
  whole : pieces.flatten = text
  takes : List.Forall₂ Repetition.Takes pattern pieces

inductive Greedier : List (List α) → List (List α) → Prop where
  | nil : Greedier [] []
  | longer {piece other : List α} {pieces others : List (List α)}
      (isLonger : other.length < piece.length) : Greedier (piece :: pieces) (other :: others)
  | same {piece other : List α} {pieces others : List (List α)}
      (length : piece.length = other.length) (rest : Greedier pieces others) :
      Greedier (piece :: pieces) (other :: others)

section Takes

variable {holds : α → Bool} {piece : List α}

structure Word (holds : α → Bool) (piece : List α) : Prop where
  nonempty : piece ≠ []
  holds : ∀ element ∈ piece, holds element = true

instance : Decidable (Word holds piece) :=
  decidable_of_iff (piece ≠ [] ∧ ∀ element ∈ piece, holds element = true)
    ⟨fun both => ⟨both.1, both.2⟩, fun word => ⟨word.nonempty, word.holds⟩⟩

theorem Word.free (word : Word holds piece) {separator : α} (other : holds separator = false) :
    separator ∉ piece := by
  intro member
  rw [word.holds separator member] at other
  cases other

theorem Repetition.takes_oneOrMore_iff : (oneOrMore holds).Takes piece ↔ Word holds piece :=
  ⟨fun takes => ⟨List.ne_nil_of_length_pos takes.least, takes.holds⟩,
    fun word => ⟨word.holds, List.length_pos_iff.mpr word.nonempty, fun _ bounded => by cases bounded⟩⟩

theorem Repetition.takes_zeroOrMore_iff :
    (zeroOrMore holds).Takes piece ↔ ∀ element ∈ piece, holds element = true :=
  ⟨fun takes => takes.holds, fun all => ⟨all, Nat.zero_le _, fun _ bounded => by cases bounded⟩⟩

theorem Repetition.takes_once_iff [DecidableEq α] {element : α} :
    (once (· = element)).Takes piece ↔ piece = [element] := by
  constructor
  · intro takes
    obtain ⟨only, rfl⟩ := List.length_eq_one_iff.mp (Nat.le_antisymm (takes.most 1 rfl) takes.least)
    have isElement := takes.holds only List.mem_cons_self
    simpa [once] using isElement
  · intro same
    subst same
    exact ⟨by simp [once], Nat.le_refl 1, fun _ bounded => by cases bounded; exact Nat.le_refl 1⟩

end Takes

section Lengths

variable {repetition : Repetition α} {text : List α} {length : Nat}

theorem le_length_takeWhile_iff {holds : α → Bool} :
    length ≤ (text.takeWhile holds).length ↔
      length ≤ text.length ∧ ∀ element ∈ text.take length, holds element = true := by
  induction text generalizing length with
  | nil => simp
  | cons first text ih =>
      cases length with
      | zero => simp
      | succ length =>
          by_cases isHeld : holds first = true
          · simp [isHeld, ih]
          · simp [isHeld]

theorem Repetition.le_longest_iff :
    length ≤ repetition.longest text ↔
      length ≤ (text.takeWhile repetition.holds).length ∧
        ∀ most ∈ repetition.most, length ≤ most := by
  unfold longest
  cases repetition.most with
  | none => simp
  | some most =>
      rw [Option.elim_some, Nat.le_min, and_comm]
      simp

theorem Repetition.mem_lengths_iff :
    length ∈ repetition.lengths text ↔
      length ≤ text.length ∧ repetition.Takes (text.take length) := by
  have range : length ∈ repetition.lengths text ↔
      repetition.least ≤ length ∧ length ≤ repetition.longest text := by
    rw [lengths, List.mem_reverse, List.mem_range'_1]
    omega
  rw [range, le_longest_iff, le_length_takeWhile_iff]
  constructor
  · intro bounds
    obtain ⟨least, ⟨short, holds⟩, most⟩ := bounds
    have isLength : (text.take length).length = length := List.length_take_of_le short
    exact ⟨short, holds, by rwa [isLength], by rwa [isLength]⟩
  · intro taken
    obtain ⟨short, holds, least, most⟩ := taken
    rw [List.length_take_of_le short] at least most
    exact ⟨least, ⟨short, holds⟩, most⟩

theorem Repetition.lengths_descending : (repetition.lengths text).Pairwise (· > ·) := by
  rw [lengths, List.pairwise_reverse]
  exact List.pairwise_lt_range'

end Lengths

section Splits

variable {pattern : List (Repetition α)} {text : List α} {best pieces : List (List α)}

theorem mem_splits_iff : pieces ∈ splits pattern text ↔ Splits pattern text pieces := by
  induction pattern generalizing text pieces with
  | nil =>
      constructor
      · intro member
        cases text with
        | nil =>
            cases List.mem_singleton.mp member
            exact ⟨rfl, .nil⟩
        | cons first text => cases member
      · intro isSplit
        obtain ⟨rfl, takes⟩ := isSplit
        cases takes
        exact List.mem_singleton.mpr rfl
  | cons repetition pattern ih =>
      simp only [splits, List.mem_flatMap, List.mem_map, Repetition.mem_lengths_iff, ih]
      constructor
      · intro found
        obtain ⟨length, ⟨_, first⟩, others, ⟨whole, takes⟩, rfl⟩ := found
        refine ⟨?_, .cons first takes⟩
        rw [List.flatten_cons, whole, List.take_append_drop]
      · intro isSplit
        obtain ⟨rfl, takes⟩ := isSplit
        cases takes with
        | cons first takes =>
            rename_i piece others
            refine ⟨piece.length, ⟨?_, ?_⟩, others, ⟨?_, takes⟩, ?_⟩
            · simp
            · simpa using first
            · simp
            · simp

theorem head_flatMap_descending {β : Type u} {lengths : List Nat} {found : Nat → List β} {first : β}
    (descending : lengths.Pairwise (· > ·))
    (isFirst : (lengths.flatMap found).head? = some first) :
    ∃ length ∈ lengths, (found length).head? = some first ∧
      ∀ other ∈ lengths, found other ≠ [] → other ≤ length := by
  induction lengths with
  | nil => cases isFirst
  | cons length lengths ih =>
      obtain ⟨below, descending⟩ := List.pairwise_cons.mp descending
      rw [List.flatMap_cons, List.head?_append] at isFirst
      cases own : (found length).head? with
      | some result =>
          rw [own, Option.some_or] at isFirst
          refine ⟨length, List.mem_cons_self, own.trans isFirst, ?_⟩
          intro other member _
          rcases List.mem_cons.mp member with rfl | later
          · exact Nat.le_refl _
          · exact Nat.le_of_lt (below other later)
      | none =>
          rw [own, Option.none_or] at isFirst
          obtain ⟨best, member, isBest, greatest⟩ := ih descending isFirst
          refine ⟨best, List.mem_cons_of_mem _ member, isBest, ?_⟩
          intro other isOther nonempty
          rcases List.mem_cons.mp isOther with rfl | later
          · exact absurd (List.head?_eq_none_iff.mp own) nonempty
          · exact greatest other later nonempty

theorem firstMatch_greedier (matched : firstMatch pattern text = some best)
    (other : Splits pattern text pieces) : Greedier best pieces := by
  induction pattern generalizing text best pieces with
  | nil =>
      obtain ⟨_, takes⟩ := mem_splits_iff.mp (List.mem_of_mem_head? matched)
      cases takes
      cases other.takes
      exact .nil
  | cons repetition pattern ih =>
      obtain ⟨length, isLength, isBest, greatest⟩ :=
        head_flatMap_descending repetition.lengths_descending matched
      rw [List.head?_map] at isBest
      obtain ⟨bests, areBest, rfl⟩ := Option.map_eq_some_iff.mp isBest
      have found := mem_splits_iff.mpr other
      obtain ⟨shorter, isShorter, isFound⟩ := List.mem_flatMap.mp found
      obtain ⟨others, areOthers, rfl⟩ := List.mem_map.mp isFound
      have below := greatest shorter isShorter (List.ne_nil_of_mem isFound)
      have inside := (Repetition.mem_lengths_iff.mp isLength).1
      have isTaken : (text.take length).length = length := List.length_take_of_le inside
      have isOther : (text.take shorter).length = shorter :=
        List.length_take_of_le (Nat.le_trans below inside)
      rcases Nat.eq_or_lt_of_le below with rfl | less
      · exact .same rfl (ih areBest (mem_splits_iff.mp areOthers))
      · exact .longer (by rwa [isTaken, isOther])

theorem Greedier.antisymm (greedier : Greedier best pieces) (back : Greedier pieces best)
    (whole : best.flatten = pieces.flatten) : best = pieces := by
  induction greedier with
  | nil => rfl
  | longer isLonger =>
      cases back with
      | longer isShorter => omega
      | same length _ => omega
  | same length rest ih =>
      cases back with
      | longer isLonger => omega
      | same _ back =>
          obtain ⟨first, others⟩ := List.append_inj whole length
          rw [first, ih back others]

theorem firstMatch_eq_some_iff :
    firstMatch pattern text = some best ↔
      Splits pattern text best ∧ ∀ pieces, Splits pattern text pieces → Greedier best pieces := by
  constructor
  · intro matched
    exact ⟨mem_splits_iff.mp (List.mem_of_mem_head? matched),
      fun pieces other => firstMatch_greedier matched other⟩
  · intro isGreediest
    obtain ⟨isSplit, greediest⟩ := isGreediest
    cases matched : firstMatch pattern text with
    | none =>
        have nothing := List.head?_eq_none_iff.mp matched
        have member := mem_splits_iff.mpr isSplit
        rw [nothing] at member
        cases member
    | some first =>
        have isFirst := mem_splits_iff.mp (List.mem_of_mem_head? matched)
        have same := (greediest first isFirst).antisymm (firstMatch_greedier matched isSplit)
          (isSplit.whole.trans isFirst.whole.symm)
        rw [same]

end Splits

end FairMQ.Data
