import Mathlib.Init

namespace FairMQ.Data

universe u v w

variable {σ : Type u} {ι : Type v} {ν : Type w}

def Keeps (read : σ → ν) (pass : σ → σ) : Prop :=
  ∀ state, read (pass state) = read state

def Sets (read : σ → ν) (value : ν) (pass : σ → σ) : Prop :=
  ∀ state, read (pass state) = value

variable {read : σ → ν} {value : ν} {pass : σ → ι → σ} {items : List ι}

theorem Keeps.comp {first second : σ → σ} (before : Keeps read first)
    (after : Keeps read second) : Keeps read (fun state => second (first state)) := by
  intro state
  rw [after, before]

theorem Keeps.foldl (each : ∀ item ∈ items, Keeps read (pass · item)) :
    Keeps read (items.foldl pass ·) := by
  intro state
  induction items generalizing state with
  | nil => rfl
  | cons item items ih =>
      apply Eq.trans (ih _ (pass state item))
      · exact each item List.mem_cons_self state
      · intro other member
        exact each other (List.mem_cons_of_mem item member)

theorem Sets.comp_keeps {first second : σ → σ} (before : Sets read value first)
    (after : Keeps read second) : Sets read value (fun state => second (first state)) := by
  intro state
  rw [after, before]

theorem Sets.foldl {item : ι} (member : item ∈ items) (written : Sets read value (pass · item))
    (each : ∀ other ∈ items, Sets read value (pass · other) ∨ Keeps read (pass · other)) :
    Sets read value (items.foldl pass ·) := by
  intro start
  obtain ⟨before, after, isItems⟩ := List.append_of_mem member
  subst isItems
  dsimp only
  rw [List.foldl_append, List.foldl_cons]
  apply List.foldlRecOn after pass (motive := fun state => read state = value) (written _)
  intro state settled other present
  cases each other (by simp [present]) with
  | inl sets => exact sets state
  | inr keeps => exact (keeps state).trans settled

end FairMQ.Data
