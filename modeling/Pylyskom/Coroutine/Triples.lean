import Pylyskom.Coroutine.Parts

/-!
# Preconditions and postconditions

What a method achieves when what serves its requests has a state of its own, such as a
server that the requests change. Every request that is sent can be served, and however the
requests are served the method ends as the postcondition says.
-/

namespace Pylyskom

variable {σ ρ ω ε α β : Type} {ν : ρ → Type}

namespace Suspended

/-- There is always a reply, and whatever the replies are the method ends in `Q`. -/
def Achieves (serves : (req : ρ) → σ × ω → Except ε (ν req) → σ × ω → Prop) :
    Suspended σ ρ ν ε α → ω → (Except ε α → σ × ω → Prop) → Prop
  | done result s, w, Q => Q result (s, w)
  | await s req resume, w, Q =>
    (∃ reply t, serves req (s, w) reply t) ∧
      ∀ reply t, serves req (s, w) reply t → (resume reply t.1).Achieves serves t.2 Q

variable {serves : (req : ρ) → σ × ω → Except ε (ν req) → σ × ω → Prop}
  {m : Suspended σ ρ ν ε α} {w : ω} {Q : Except ε α → σ × ω → Prop}

/-- A method that achieves something ends, -/
theorem Achieves.exists_ends (h : m.Achieves serves w Q) :
    ∃ result t, m.Ends serves w result t := by
  induction m generalizing w with
  | done result s => exact ⟨result, (s, w), rfl, rfl⟩
  | await s req resume ih =>
    obtain ⟨⟨reply, u, hserved⟩, hresume⟩ := h
    obtain ⟨result, t, hends⟩ := ih reply u.1 (hresume reply u hserved)
    exact ⟨result, t, reply, u, hserved, hends⟩

/-- and it can only end so. -/
theorem Achieves.of_ends (h : m.Achieves serves w Q) {result : Except ε α} {t : σ × ω}
    (hends : m.Ends serves w result t) : Q result t := by
  induction m generalizing w with
  | done ended s =>
    obtain ⟨rfl, rfl⟩ := hends
    exact h
  | await s req resume ih =>
    obtain ⟨reply, u, hserved, hends⟩ := hends
    exact ih reply u.1 (h.2 reply u hserved) hends

theorem Achieves.mono {Q' : Except ε α → σ × ω → Prop} (h : m.Achieves serves w Q)
    (hQ : ∀ result t, Q result t → Q' result t) : m.Achieves serves w Q' := by
  induction m generalizing w with
  | done result s => exact hQ result (s, w) h
  | await s req resume ih =>
    exact ⟨h.1, fun reply t hserved => ih reply t.1 (h.2 reply t hserved)⟩

theorem Achieves.andThen {f : α → Coroutine σ ρ ν ε β} {R : Except ε β → σ × ω → Prop}
    (h : m.Achieves serves w Q)
    (hok : ∀ a t, Q (.ok a) t → (f a t.1).Achieves serves t.2 R)
    (herror : ∀ e t, Q (.error e) t → R (.error e) t) : (m.andThen f).Achieves serves w R := by
  induction m generalizing w with
  | done result s =>
    cases result with
    | ok a => exact hok a (s, w) h
    | error e => exact herror e (s, w) h
  | await s req resume ih =>
    exact ⟨h.1, fun reply t hserved => ih reply t.1 (h.2 reply t hserved)⟩

theorem Achieves.handle {f : ε → Coroutine σ ρ ν ε α} {R : Except ε α → σ × ω → Prop}
    (h : m.Achieves serves w Q) (hok : ∀ a t, Q (.ok a) t → R (.ok a) t)
    (herror : ∀ e t, Q (.error e) t → (f e t.1).Achieves serves t.2 R) :
    (m.handle f).Achieves serves w R := by
  induction m generalizing w with
  | done result s =>
    cases result with
    | ok a => exact hok a (s, w) h
    | error e => exact herror e (s, w) h
  | await s req resume ih =>
    exact ⟨h.1, fun reply t hserved => ih reply t.1 (h.2 reply t hserved)⟩

/-- A method whose result is known achieves it, where it is served as it should be, by
something that it leaves as it is. -/
theorem Computes.achieves {S : Service σ ρ ν ε} {x : Except ε α} (h : m.Computes S x)
    (hserves : ∀ req s, S.keeps s → S.sends req →
      (∃ reply t, serves req (s, w) reply t) ∧ ∀ reply t, serves req (s, w) reply t →
        S.keeps t.1 ∧ S.replies req reply ∧ t.2 = w) :
    m.Achieves serves w fun result t => result = x ∧ S.keeps t.1 ∧ t.2 = w := by
  induction m with
  | done result s => exact ⟨h.2, h.1, rfl⟩
  | await s req resume ih =>
    obtain ⟨hs, hsends, hresume⟩ := h
    obtain ⟨hserved, hall⟩ := hserves req s hs hsends
    refine ⟨hserved, fun reply t hreply => ?_⟩
    obtain ⟨ht, hreplies, hw⟩ := hall reply t hreply
    rw [hw]
    exact ih reply t.1 (hresume reply t.1 ht hreplies)

end Suspended

/-- From a state in `P` the method ends, and it ends in `Q`. -/
def Triple (serves : (req : ρ) → σ × ω → Except ε (ν req) → σ × ω → Prop) (P : σ × ω → Prop)
    (m : Coroutine σ ρ ν ε α) (Q : Except ε α → σ × ω → Prop) : Prop :=
  ∀ s w, P (s, w) → (m s).Achieves serves w Q

/-- The postcondition of a method that raises nothing. -/
def Returning (R : α → σ × ω → Prop) : Except ε α → σ × ω → Prop
  | .ok a => R a
  | .error _ => fun _ => False

namespace Triple

variable {serves : (req : ρ) → σ × ω → Except ε (ν req) → σ × ω → Prop} {P P' : σ × ω → Prop}
  {m : Coroutine σ ρ ν ε α} {f : α → Coroutine σ ρ ν ε β} {h : ε → Coroutine σ ρ ν ε α}
  {Q Q' : Except ε α → σ × ω → Prop} {R : Except ε β → σ × ω → Prop}

theorem mono (hm : Triple serves P m Q) (hP : ∀ s, P' s → P s)
    (hQ : ∀ result s, Q result s → Q' result s) : Triple serves P' m Q' :=
  fun s w hs => (hm s w (hP (s, w) hs)).mono hQ

theorem weaken (hm : Triple serves P m Q) (hQ : ∀ result s, Q result s → Q' result s) :
    Triple serves P m Q' :=
  hm.mono (fun _ hs => hs) hQ

/-- A method that does the same from every state in `P`. -/
theorem congr (m' : Coroutine σ ρ ν ε α) (hm : Triple serves P m' Q)
    (heq : ∀ s, P s → m s.1 = m' s.1) : Triple serves P m Q := by
  intro s w hs
  rw [heq (s, w) hs]
  exact hm s w hs

theorem pure {a : α} (ha : ∀ s, P s → Q (.ok a) s) : Triple serves P (pure a) Q :=
  fun s w hs => ha (s, w) hs

theorem throw {e : ε} (he : ∀ s, P s → Q (.error e) s) :
    Triple serves P (throw e : Coroutine σ ρ ν ε α) Q :=
  fun s w hs => he (s, w) hs

theorem bind (hm : Triple serves P m Q) (hf : ∀ a, Triple serves (Q (.ok a)) (f a) R)
    (herror : ∀ e s, Q (.error e) s → R (.error e) s) : Triple serves P (m >>= f) R :=
  fun s w hs => (hm s w hs).andThen (fun a t ha => hf a t.1 t.2 ha) herror

/-- There is no exception to pass on. -/
theorem andThen {S : α → σ × ω → Prop} (hm : Triple serves P m (Returning S))
    (hf : ∀ a, Triple serves (S a) (f a) R) : Triple serves P (m >>= f) R :=
  hm.bind hf fun _ _ he => he.elim

theorem tryCatch (hm : Triple serves P m Q) (hok : ∀ a s, Q (.ok a) s → Q' (.ok a) s)
    (hh : ∀ e, Triple serves (Q (.error e)) (h e) Q') : Triple serves P (tryCatch m h) Q' :=
  fun s w hs => (hm s w hs).handle hok fun e t he => hh e t.1 t.2 he

theorem request {req : ρ} {Q : Except ε (ν req) → σ × ω → Prop}
    (hserves : ∀ s, P s → (∃ reply t, serves req s reply t) ∧
      ∀ reply t, serves req s reply t → Q reply t) :
    Triple serves P (Coroutine.request req) Q :=
  fun s w hs => hserves (s, w) hs

/-- What is assumed of a state may be a statement about something else. -/
theorem of_imp {p : Prop} (hm : p → Triple serves P m Q) :
    Triple serves (fun s => p ∧ P s) m Q :=
  fun s w hs => hm hs.1 s w hs.2

/-- A loop over a list, with an invariant for the elements that it has been through. -/
theorem forM {l : List α} {f : α → Coroutine σ ρ ν ε PUnit} (J : List α → σ × ω → Prop)
    (hf : ∀ before a after, l = before ++ a :: after →
      Triple serves (J before) (f a) (Returning fun _ => J (before ++ [a]))) :
    Triple serves (J []) (l.forM f) (Returning fun _ => J l) := by
  have hloop : ∀ before after, l = before ++ after →
      Triple serves (J before) (after.forM f) (Returning fun _ => J l) := by
    intro before after hl
    induction after generalizing before with
    | nil =>
      rw [List.append_nil] at hl
      exact Triple.pure fun s hs => hl ▸ hs
    | cons a after ih =>
      exact (hf before a after hl).andThen fun _ => ih (before ++ [a]) (by simp [hl])
  exact hloop [] l rfl

/-- A loop that returns a known value for each element, in a state that satisfies `P`
throughout. -/
theorem mapM {l : List α} {g : α → β}
    (hf : ∀ a ∈ l, Triple serves P (f a) (Returning fun b s => b = g a ∧ P s)) :
    Triple serves P (l.mapM f) (Returning fun bs s => bs = l.map g ∧ P s) := by
  induction l with
  | nil => exact Triple.pure fun s hs => ⟨rfl, hs⟩
  | cons a l ih =>
    rw [List.mapM_cons]
    refine (hf a List.mem_cons_self).andThen fun b => of_imp fun hb => ?_
    refine (ih fun a ha => hf a (List.mem_cons_of_mem _ ha)).andThen fun bs => of_imp fun hbs => ?_
    exact Triple.pure fun s hs => ⟨by rw [hb, hbs, List.map_cons], hs⟩

end Triple

/-- A method with what it returns or raises as a value. -/
def Coroutine.attempt (m : Coroutine σ ρ ν ε α) : Coroutine σ ρ ν ε (Except ε α) :=
  tryCatch (Except.ok <$> m) fun e => pure (.error e)

theorem Triple.attempt {serves : (req : ρ) → σ × ω → Except ε (ν req) → σ × ω → Prop}
    {P : σ × ω → Prop} {m : Coroutine σ ρ ν ε α} {Q : Except ε α → σ × ω → Prop}
    (hm : Triple serves P m Q) : Triple serves P m.attempt (Returning Q) := by
  let R : Except ε (Except ε α) → σ × ω → Prop
    | .ok result => Q result
    | .error e => Q (.error e)
  have hmap : Triple serves P (Except.ok <$> m) R := by
    rw [map_eq_pure_bind]
    exact hm.bind (fun a => Triple.pure fun _ h => h) fun _ _ h => h
  exact hmap.tryCatch (fun _ _ h => h) fun e => Triple.pure fun _ h => h

/-- A method whose result is known, with what it leaves as it is. -/
theorem Computes.triple {S : Service σ ρ ν ε} {m : Coroutine σ ρ ν ε α} {x : Except ε α}
    {serves : (req : ρ) → σ × ω → Except ε (ν req) → σ × ω → Prop} {P : ω → Prop}
    (hm : Computes S m x)
    (hserves : ∀ req s w, S.keeps s → P w → S.sends req →
      (∃ reply t, serves req (s, w) reply t) ∧ ∀ reply t, serves req (s, w) reply t →
        S.keeps t.1 ∧ S.replies req reply ∧ t.2 = w) :
    Triple serves (fun s => S.keeps s.1 ∧ P s.2) m
      fun result s => result = x ∧ S.keeps s.1 ∧ P s.2 := by
  intro s w ⟨hs, hw⟩
  refine ((hm s hs).achieves fun req s hs => hserves req s w hs hw).mono ?_
  rintro result ⟨t, w'⟩ ⟨hresult, ht, rfl⟩
  exact ⟨hresult, ht, hw⟩

end Pylyskom
