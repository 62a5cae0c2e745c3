import Mathlib.Algebra.BigOperators.Group.List.Basic
import Mathlib.Algebra.Order.Group.Multiset
import Mathlib.Data.Finset.Insert
import Mathlib.Data.Finset.Erase

namespace FairMQ.Data

/-! # Ownership ledgers

Resources are handed around between places.  What all places hold together is a
multiset, the resources that exist are a finite set, and a ledger is backed when
the former is contained in the latter: every held resource exists, and it is held
once.  Places are kept in a list, so the lemmas on `List.sum` say how the total
moves when some of the places change. -/

variable {κ : Type*} {held less : Multiset κ} {live : Finset κ} {resource : κ}

def Backed (held : Multiset κ) (live : Finset κ) : Prop :=
  held ≤ live.val

namespace Backed

theorem exists_of_mem (backed : Backed held live) (owned : resource ∈ held) : resource ∈ live :=
  Multiset.mem_of_le backed owned

theorem drop (backed : Backed held live) (fewer : less ≤ held) : Backed less live :=
  fewer.trans backed

variable [DecidableEq κ]

theorem count_le_one (backed : Backed held live) (resource : κ) : held.count resource ≤ 1 :=
  (Multiset.count_le_of_le resource backed).trans
    (Multiset.nodup_iff_count_le_one.mp live.nodup resource)

theorem acquire (backed : Backed held live) (fresh : resource ∉ live) :
    Backed (resource ::ₘ held) (insert resource live) := by
  rw [Backed, Finset.insert_val_of_notMem fresh]
  exact (Multiset.cons_le_cons_iff resource).mpr backed

theorem release (backed : Backed (resource ::ₘ held) live) : Backed held (live.erase resource) := by
  rw [Backed, Finset.erase_val]
  have erased := Multiset.erase_le_erase resource backed
  rwa [Multiset.erase_cons_head] at erased

end Backed

section Places

theorem mem_sum_map {α : Type*} {holds : α → Multiset κ} {places : List α} :
    resource ∈ (places.map holds).sum ↔ ∃ place ∈ places, resource ∈ holds place := by
  induction places with
  | nil => simp
  | cons place places ih => simp [ih]

variable {α M : Type*} [AddCommMonoid M] (weight : α → M)

theorem sum_map_set {places : List α} {i : Nat} {old : α} (found : places[i]? = some old)
    (new : α) :
    ((places.set i new).map weight).sum + weight old = (places.map weight).sum + weight new := by
  induction places generalizing i with
  | nil => simp at found
  | cons place places ih =>
      cases i with
      | zero =>
          simp only [List.getElem?_cons_zero, Option.some.injEq] at found
          subst place
          simp only [List.set_cons_zero, List.map_cons, List.sum_cons]
          simp only [add_comm, add_left_comm]
      | succ i =>
          simp only [List.getElem?_cons_succ] at found
          simp only [List.set_cons_succ, List.map_cons, List.sum_cons, add_assoc, ih found]

def setAll : List α → List Nat → List α → List α
  | places, i :: positions, new :: news => setAll (places.set i new) positions news
  | places, _, _ => places

theorem mem_setAll {places news : List α} {positions : List Nat} {place : α}
    (member : place ∈ setAll places positions news) : place ∈ places ∨ place ∈ news := by
  induction positions generalizing places news with
  | nil => exact .inl (by simpa [setAll] using member)
  | cons i positions ih =>
      cases news with
      | nil => exact .inl (by simpa [setAll] using member)
      | cons new news =>
          cases ih member with
          | inl before =>
              cases List.mem_or_eq_of_mem_set before with
              | inl old => exact .inl old
              | inr same => exact .inr (by simp [same])
          | inr later => exact .inr (List.mem_cons_of_mem _ later)

theorem sum_map_setAll {places olds news : List α} {positions : List Nat}
    (distinct : positions.Nodup)
    (found : positions.map (fun i => places[i]?) = olds.map some)
    (length : news.length = olds.length) :
    ((setAll places positions news).map weight).sum + (olds.map weight).sum =
      (places.map weight).sum + (news.map weight).sum := by
  induction positions generalizing places olds news with
  | nil =>
      have none : olds = [] := by simpa using found.symm
      subst none
      cases List.length_eq_zero_iff.mp length
      rfl
  | cons i positions ih =>
      obtain ⟨away, distinct⟩ := List.nodup_cons.mp distinct
      cases olds with
      | nil => simp at found
      | cons old olds =>
      cases news with
      | nil => simp at length
      | cons new news =>
          simp only [List.map_cons, List.cons.injEq] at found
          obtain ⟨first, rest⟩ := found
          have later : positions.map (fun j => (places.set i new)[j]?) = olds.map some := by
            rw [← rest]
            refine List.map_congr_left fun j member => ?_
            have different : i ≠ j := fun same => away (same ▸ member)
            exact List.getElem?_set_ne different
          have moved := ih distinct later (by simpa using length)
          have here := sum_map_set weight first new
          simp only [setAll, List.map_cons, List.sum_cons]
          calc ((setAll (places.set i new) positions news).map weight).sum +
                (weight old + (olds.map weight).sum)
              = ((setAll (places.set i new) positions news).map weight).sum +
                  (olds.map weight).sum + weight old := by
                rw [add_comm (weight old), add_assoc]
            _ = ((places.set i new).map weight).sum + weight old + (news.map weight).sum := by
                rw [moved, add_right_comm]
            _ = (places.map weight).sum + (weight new + (news.map weight).sum) := by
                rw [here, add_assoc]

end Places

end FairMQ.Data
