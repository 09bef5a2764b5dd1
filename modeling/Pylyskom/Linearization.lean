import Pylyskom.Transitions
import Mathlib.Data.List.Forall2

/-!
# Linearizable calls

Concurrent calls of an object that serves one request after the other. They are linearizable
if the object, given the requests in some order, returns what the calls have returned, and a
call that had returned when another one was made comes before it in this order.
-/

namespace Pylyskom

/-- What is seen of the calls in a state of a system: the request of a call that was made, and
the result of one that has returned. -/
structure CallHistory (σ κ ρ ν : Type) where
  request : σ → κ → Option ρ
  result : σ → κ → Option ν

namespace CallHistory

variable {σ α κ ρ ν : Type}

/-- The object returns the results when it is given the requests in the order. A call that has
not returned may be in it or not. -/
structure Explains (C : CallHistory σ κ ρ ν) (answers : List ρ → ρ → ν → Prop) (s : σ)
    (order : List κ) : Prop where
  nodup : order.Nodup
  made : ∀ {c : κ}, c ∈ order → ∃ req, C.request s c = some req
  answered : ∀ {c : κ} {result : ν}, C.result s c = some result →
    ∃ before after reqs req, order = before ++ c :: after ∧
      List.Forall₂ (fun c req => C.request s c = some req) before reqs ∧
      C.request s c = some req ∧ answers reqs req result

/-- The one call comes before the other. -/
def Before (order : List κ) (c d : κ) : Prop :=
  ∃ before middle after, order = before ++ c :: (middle ++ d :: after)

/-- The order explains the results, and agrees with the time of each state that the run may
have gone through. -/
structure Linearizes (C : CallHistory σ κ ρ ν) (answers : List ρ → ρ → ν → Prop)
    (step : σ → α → σ → Prop) (allowed : σ → α → Prop) (start s : σ) (order : List κ) : Prop where
  explains : C.Explains answers s order
  inTime : ∀ {u : σ}, Run step allowed start u → Run step allowed u s →
    ∀ {c d : κ} {result : ν}, C.result u c = some result → C.request u d = none → d ∈ order →
      Before order c d

variable {C : CallHistory σ κ ρ ν} {answers : List ρ → ρ → ν → Prop} {step : σ → α → σ → Prop}
  {allowed : σ → α → Prop} {start s t : σ}

theorem Explains.mem {order : List κ} (h : C.Explains answers s order) {c : κ} {result : ν}
    (hresult : C.result s c = some result) : c ∈ order := by
  obtain ⟨before, after, -, -, rfl, -⟩ := h.answered hresult
  exact List.mem_append_right _ List.mem_cons_self

/-- What was in the order comes before what was added to it. -/
theorem before_of_prefix {earlier order : List κ} (h : earlier <+: order) {c d : κ}
    (hc : c ∈ earlier) (hd : d ∈ order) (hnew : d ∉ earlier) : Before order c d := by
  obtain ⟨added, rfl⟩ := h
  obtain ⟨before, rest, rfl⟩ := List.append_of_mem hc
  have hd : d ∈ added := (List.mem_append.mp hd).resolve_left hnew
  obtain ⟨middle, after, rfl⟩ := List.append_of_mem hd
  exact ⟨before, rest ++ middle, after, by simp⟩

/-- What a system does to its calls goes into a log that only grows, and that always explains
the results. -/
structure Logs (C : CallHistory σ κ ρ ν) (answers : List ρ → ρ → ν → Prop)
    (step : σ → α → σ → Prop) (allowed : σ → α → Prop) (Log : σ → List κ → Prop) : Prop where
  unique : ∀ {u : σ} {order order' : List κ}, Log u order → Log u order' → order = order'
  grows : ∀ {u v : σ} {a : α} {order : List κ}, allowed u a → step u a v → Log u order →
    ∃ order', Log v order' ∧ order <+: order'
  explains : ∀ {u : σ} {order : List κ}, Log u order → C.Explains answers u order

theorem Logs.of_run {Log : σ → List κ → Prop} (hlog : C.Logs answers step allowed Log)
    (h : Run step allowed s t) {order : List κ} (horder : Log s order) :
    ∃ order', Log t order' ∧ order <+: order' := by
  refine h.invariant (P := fun u => ∃ order', Log u order' ∧ order <+: order')
    ⟨order, horder, List.prefix_rfl⟩ ?_
  rintro u a v hallowed hstep ⟨order', horder', hprefix⟩
  obtain ⟨order'', horder'', hprefix'⟩ := hlog.grows hallowed hstep horder'
  exact ⟨order'', horder'', hprefix.trans hprefix'⟩

/-- **The rule of the log.** The calls of a system with a log are linearizable. -/
theorem Logs.linearizes {Log : σ → List κ → Prop} (hlog : C.Logs answers step allowed Log)
    (h : Run step allowed start s) {first : List κ} (hstart : Log start first) :
    ∃ order, Log s order ∧ C.Linearizes answers step allowed start s order := by
  obtain ⟨order, horder, -⟩ := hlog.of_run h hstart
  refine ⟨order, horder, hlog.explains horder, ?_⟩
  intro u hu hus c d result hresult hnew hd
  obtain ⟨earlier, hearlier, -⟩ := hlog.of_run hu hstart
  obtain ⟨order', horder', hprefix⟩ := hlog.of_run hus hearlier
  obtain rfl := hlog.unique horder' horder
  refine before_of_prefix hprefix ((hlog.explains hearlier).mem hresult) hd ?_
  intro hmem
  obtain ⟨req, hreq⟩ := (hlog.explains hearlier).made hmem
  rw [hnew] at hreq
  cases hreq

end CallHistory

end Pylyskom
