import Mathlib.Data.List.Chain

namespace FairMQ.Data

universe u v w

variable {σ : Type u} {Call : Type v} {Outcome : Type w}

structure Occurrence (σ : Type u) (Call : Type v) (Outcome : Type w) where
  before : σ
  call : Call
  outcome : Outcome
  after : σ

def occurrence (perform : σ → Call → Outcome × σ) (state : σ) (call : Call) :
    Occurrence σ Call Outcome where
  before := state
  call := call
  outcome := (perform state call).1
  after := (perform state call).2

def trace (perform : σ → Call → Outcome × σ) : σ → List Call → List (Occurrence σ Call Outcome)
  | _, [] => []
  | state, call :: calls =>
      occurrence perform state call :: trace perform (perform state call).2 calls

variable {perform : σ → Call → Outcome × σ} {start : σ} {calls : List Call}

theorem occurrence_of_mem_trace {occurred : Occurrence σ Call Outcome}
    (member : occurred ∈ trace perform start calls) :
    occurred = occurrence perform occurred.before occurred.call := by
  induction calls generalizing start with
  | nil => cases member
  | cons call calls ih =>
      cases List.mem_cons.mp member with
      | inl first => rw [first]; rfl
      | inr later => exact ih later

theorem trace_linked (start : σ) (calls : List Call) :
    (trace perform start calls).IsChain fun earlier later => later.before = earlier.after := by
  induction calls generalizing start with
  | nil => exact .nil
  | cons call calls ih =>
      cases calls with
      | nil => exact .singleton _
      | cons next calls => exact .cons_cons rfl (ih _)

theorem kept_between (property : σ → Prop) {earlier later : Occurrence σ Call Outcome}
    {between rest : List (Occurrence σ Call Outcome)}
    (linked : (earlier :: (between ++ later :: rest)).IsChain fun earlier later =>
      later.before = earlier.after)
    (established : property earlier.after)
    (kept : ∀ occurred ∈ between, property occurred.before → property occurred.after) :
    property later.before := by
  induction between generalizing earlier with
  | nil =>
      cases linked with
      | cons_cons link _ => exact link ▸ established
  | cons occurred between ih =>
      cases linked with
      | cons_cons link linked =>
          have reached : property occurred.before := link ▸ established
          refine ih linked (kept occurred (by simp) reached) ?_
          intro other member
          exact kept other (List.mem_cons_of_mem _ member)

end FairMQ.Data
