import Mathlib.Data.List.Basic

namespace FairMQ.Data

universe u

variable {τ : Type u} {inside : τ → Bool} {threads : List τ} {owner : Option Nat}
  {i : Nat} {old new : τ}

def Guarded (inside : τ → Bool) (threads : List τ) (owner : Option Nat) : Prop :=
  ∀ i, owner = some i ↔ ∃ thread, threads[i]? = some thread ∧ inside thread = true

namespace Guarded

theorem start : Guarded inside [] none := by
  intro i
  simp

theorem unique (guarded : Guarded inside threads owner) {j : Nat} {other : τ}
    (found : threads[i]? = some old) (held : inside old = true)
    (found' : threads[j]? = some other) (held' : inside other = true) : i = j := by
  have first := (guarded i).mpr ⟨old, found, held⟩
  have second := (guarded j).mpr ⟨other, found', held'⟩
  exact Option.some.inj (first.symm.trans second)

theorem append (guarded : Guarded inside threads owner) (outside : inside new = false) :
    Guarded inside (threads ++ [new]) owner := by
  intro i
  rw [guarded i]
  constructor
  · rintro ⟨thread, found, held⟩
    exact ⟨thread, List.getElem?_append_left (List.getElem?_eq_some_iff.mp found).1 ▸ found, held⟩
  · rintro ⟨thread, found, held⟩
    rw [List.getElem?_append] at found
    split at found
    · exact ⟨thread, found, held⟩
    · have same := List.mem_singleton.mp (List.mem_of_getElem? found)
      rw [same, outside] at held
      cases held

theorem set (guarded : Guarded inside threads owner) (found : threads[i]? = some old)
    (same : inside new = inside old) : Guarded inside (threads.set i new) owner := by
  intro j
  rw [guarded j, List.getElem?_set]
  have bound := (List.getElem?_eq_some_iff.mp found).1
  by_cases here : i = j
  · subst here
    rw [if_pos rfl, if_pos bound, found]
    simp [same]
  · simp [here]

theorem acquire (guarded : Guarded inside threads none) (found : threads[i]? = some old)
    (enters : inside new = true) : Guarded inside (threads.set i new) (some i) := by
  intro j
  have bound := (List.getElem?_eq_some_iff.mp found).1
  rw [List.getElem?_set]
  by_cases here : i = j
  · subst here
    simp [bound, enters]
  · have free : ¬ ∃ thread, threads[j]? = some thread ∧ inside thread = true := by
      intro held
      cases (guarded j).mpr held
    simpa [here] using free

theorem release (guarded : Guarded inside threads owner) (found : threads[i]? = some old)
    (held : inside old = true) (leaves : inside new = false) :
    Guarded inside (threads.set i new) none := by
  intro j
  have bound := (List.getElem?_eq_some_iff.mp found).1
  rw [List.getElem?_set]
  by_cases here : i = j
  · subst here
    simp [bound, leaves]
  · have alone : ¬ ∃ thread, threads[j]? = some thread ∧ inside thread = true := by
      rintro ⟨thread, found', held'⟩
      exact here (guarded.unique found held found' held')
    simpa [here] using alone

end Guarded

end FairMQ.Data
