import Mathlib.Data.Nat.Notation
import Mathlib.Logic.Relation

/-!
# Runs of a transition system

A system takes steps that carry labels. A run takes any number of steps, each with a
label that is allowed in the state it starts from. What every allowed step preserves
holds after every run. A system that can always come nearer to a goal can reach it.
-/

namespace Pylyskom

/-- A run of allowed steps from one state to another. -/
def Run {σ α : Type} (step : σ → α → σ → Prop) (allowed : σ → α → Prop) : σ → σ → Prop :=
  Relation.ReflTransGen fun s t => ∃ a, allowed s a ∧ step s a t

namespace Run

variable {σ α τ β : Type} {step : σ → α → σ → Prop} {allowed allowed' : σ → α → Prop}
  {s t u : σ} {a : α}

theorem refl : Run step allowed s s := Relation.ReflTransGen.refl

/-- A run begins with a step. -/
theorem head (h : Run step allowed t u) (hallowed : allowed s a) (hstep : step s a t) :
    Run step allowed s u :=
  Relation.ReflTransGen.head ⟨a, hallowed, hstep⟩ h

/-- A run ends with a step. -/
theorem tail (h : Run step allowed s t) (hallowed : allowed t a) (hstep : step t a u) :
    Run step allowed s u :=
  Relation.ReflTransGen.tail h ⟨a, hallowed, hstep⟩

theorem trans (h : Run step allowed s t) (h' : Run step allowed t u) : Run step allowed s u :=
  Relation.ReflTransGen.trans h h'

/-- A state that can be reached after a step can be reached. -/
theorem reach {P : σ → Prop} (hallowed : allowed s a) (hstep : step s a t)
    (h : ∃ u, Run step allowed t u ∧ P u) : ∃ u, Run step allowed s u ∧ P u := by
  obtain ⟨u, hrun, hu⟩ := h
  exact ⟨u, hrun.head hallowed hstep, hu⟩

/-- Fewer restrictions admit more runs. -/
theorem mono (hallowed : ∀ s a, allowed s a → allowed' s a) (h : Run step allowed s t) :
    Run step allowed' s t := by
  induction h with
  | refl => exact refl
  | tail _ hlast ih =>
    obtain ⟨a, ha, hlast⟩ := hlast
    exact ih.tail (hallowed _ a ha) hlast

/-- **The induction rule.** What holds at the start and is preserved by every allowed step
from a state that can be reached holds at the end. -/
theorem induct {P : σ → Prop} (h : Run step allowed s t) (hstart : P s)
    (hstep : ∀ {u a v}, Run step allowed s u → allowed u a → step u a v → P u → P v) : P t := by
  induction h with
  | refl => exact hstart
  | tail hrun hlast ih =>
    obtain ⟨a, hallowed, hlast⟩ := hlast
    exact hstep hrun hallowed hlast ih

/-- An invariant needs no knowledge of the run. -/
theorem invariant {P : σ → Prop} (h : Run step allowed s t) (hstart : P s)
    (hstep : ∀ {u a v}, allowed u a → step u a v → P u → P v) : P t :=
  h.induct hstart fun _ hallowed hlast => hstep hallowed hlast

/-- **The progress rule.** If a smaller number can be reached from every state outside the
goal, the goal can be reached. -/
theorem exists_goal {P Q : σ → Prop} (m : σ → ℕ)
    (hstep : ∀ u, P u → ¬ Q u → ∃ a v, allowed u a ∧ step u a v ∧ P v ∧ m v < m u) (hs : P s) :
    ∃ t, Run step allowed s t ∧ P t ∧ Q t := by
  induction hn : m s using Nat.strongRecOn generalizing s with
  | _ n ih =>
    by_cases hgoal : Q s
    · exact ⟨s, refl, hs, hgoal⟩
    · obtain ⟨a, v, hallowed, hsv, hv, hlt⟩ := hstep s hs hgoal
      obtain ⟨t, hrun, ht⟩ := ih (m v) (hn ▸ hlt) hv rfl
      exact ⟨t, hrun.head hallowed hsv, ht⟩

/-- A run is simulated by another system if its every step is. -/
theorem simulate {step' : τ → β → τ → Prop} {permitted : τ → β → Prop} (f : σ → τ)
    (hstep : ∀ {s a t}, allowed s a → step s a t → Run step' permitted (f s) (f t))
    (h : Run step allowed s t) : Run step' permitted (f s) (f t) := by
  induction h with
  | refl => exact refl
  | tail _ hlast ih =>
    obtain ⟨a, hallowed, hlast⟩ := hlast
    exact ih.trans (hstep hallowed hlast)

end Run

end Pylyskom
