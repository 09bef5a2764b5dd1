import Pylyskom.Coroutine.Triples

/-!
# Calls in sequence

Calls of methods one after the other, and an abstract machine that they follow: each call takes
the machine one step, and what the calls returned and raised is a trace of it.
-/

namespace Pylyskom

variable {σ ρ ω ε κ A : Type} {ν : ρ → Type} {τ : κ → Type}

/-- A call and what it returned or raised. -/
structure CallEvent (ε : Type) (τ : κ → Type) where
  call : κ
  result : Except ε (τ call)

/-- Calls one after the other, whatever they raise. -/
def Coroutine.session (body : (call : κ) → Coroutine σ ρ ν ε (τ call)) (calls : List κ) :
    Coroutine σ ρ ν ε (List (CallEvent ε τ)) :=
  calls.mapM fun call => do
    let result ← Coroutine.attempt (body call)
    return ⟨call, result⟩

/-- The machine may take these steps; `right` tells with which result and to which state a call
takes it. -/
inductive Trace (right : A → (call : κ) → Except ε (τ call) → A → Prop) :
    A → List (CallEvent ε τ) → A → Prop
  | nil (a : A) : Trace right a [] a
  | cons {a b c : A} {event : CallEvent ε τ} {events : List (CallEvent ε τ)}
      (hright : right a event.call event.result b) (htrace : Trace right b events c) :
      Trace right a (event :: events) c

namespace Trace

variable {right : A → (call : κ) → Except ε (τ call) → A → Prop} {a b : A}
  {before after : List (CallEvent ε τ)} {event : CallEvent ε τ}

/-- The step that a call in the middle was. -/
theorem split (h : Trace right a (before ++ event :: after) b) :
    ∃ c d, Trace right a before c ∧ right c event.call event.result d ∧ Trace right d after b := by
  induction before generalizing a with
  | nil =>
    cases h with
    | cons hright htrace => exact ⟨a, _, .nil a, hright, htrace⟩
  | cons first before ih =>
    cases h with
    | cons hright htrace =>
      obtain ⟨c, d, hbefore, hevent, hafter⟩ := ih htrace
      exact ⟨c, d, .cons hright hbefore, hevent, hafter⟩

/-- What every step keeps. -/
theorem keeps {I : A → Prop} {events : List (CallEvent ε τ)} (h : Trace right a events b)
    (hstep : ∀ {a b event}, event ∈ events → right a event.call event.result b → I a → I b)
    (ha : I a) : I b := by
  induction h with
  | nil a => exact ha
  | cons hright _ ih =>
    exact ih (fun hmem => hstep (List.mem_cons_of_mem _ hmem))
      (hstep List.mem_cons_self hright ha)

end Trace

/-- **Simulation.** If each call takes the machine one step, from a state that has room for it,
then calls in sequence follow a trace of the machine. -/
theorem Triple.session {serves : (req : ρ) → σ × ω → Except ε (ν req) → σ × ω → Prop}
    {body : (call : κ) → Coroutine σ ρ ν ε (τ call)}
    {right : A → (call : κ) → Except ε (τ call) → A → Prop} {J : ℕ → A → σ × ω → Prop}
    {calls : List κ}
    (hbody : ∀ n a, ∀ call ∈ calls, Triple serves (J (n + 1) a) (body call)
      fun result s => ∃ b, right a call result b ∧ J n b s)
    {n : ℕ} {a : A} :
    Triple serves (J (n + calls.length) a) (Coroutine.session body calls)
      (Returning fun events s => events.map CallEvent.call = calls ∧
        ∃ b, Trace right a events b ∧ J n b s) := by
  unfold Coroutine.session
  induction calls generalizing a with
  | nil => exact Triple.pure fun s hs => ⟨rfl, a, .nil a, hs⟩
  | cons call calls ih =>
    rw [List.mapM_cons]
    have hcall : Triple serves (J (n + (call :: calls).length) a)
        (do
          let result ← Coroutine.attempt (body call)
          return (⟨call, result⟩ : CallEvent ε τ))
        (Returning fun event s => event.call = call ∧
          ∃ b, right a event.call event.result b ∧ J (n + calls.length) b s) := by
      have hfirst := hbody (n + calls.length) a call List.mem_cons_self
      refine hfirst.attempt.andThen fun result => ?_
      exact Triple.pure fun s hs => ⟨rfl, hs⟩
    refine hcall.andThen fun event => Triple.of_imp ?_
    rintro rfl s w ⟨b, hright, hs⟩
    have hrest := ih (a := b) fun n a call hmem => hbody n a call (List.mem_cons_of_mem _ hmem)
    refine (hrest.andThen fun events => Triple.pure ?_) s w hs
    rintro s ⟨hcalls, c, htrace, hc⟩
    exact ⟨by rw [List.map_cons, hcalls], c, .cons hright htrace, hc⟩

end Pylyskom
