import Mathlib.Data.List.Forall2

/-!
# Methods that wait for replies

A method of an object may send requests. While it waits for a reply it is suspended, and
the state of the object, which it shares with other code, may change. What happens until
then is left to whoever runs the method: a blocking call, or a scheduler of tasks.
-/

namespace Pylyskom

/-- A method that has ended with a result, or that waits for the reply to a request,
whose type may depend on the request. An error reply, or any other failure to get a
reply, is raised where the method resumes. -/
inductive Suspended (σ ρ : Type) (ν : ρ → Type) (ε α : Type) : Type
  | done (result : Except ε α) (state : σ)
  | await (state : σ) (request : ρ)
      (resume : Except ε (ν request) → σ → Suspended σ ρ ν ε α)

/-- A method, from the state of its object when it is called. -/
def Coroutine (σ ρ : Type) (ν : ρ → Type) (ε α : Type) : Type := σ → Suspended σ ρ ν ε α

variable {σ ρ ω ε α β γ : Type} {ν : ρ → Type}

namespace Suspended

/-- Go on with the value that is returned; an exception ends the sequence. -/
def andThen : Suspended σ ρ ν ε α → (α → Coroutine σ ρ ν ε β) → Suspended σ ρ ν ε β
  | done (.ok a) s, f => f a s
  | done (.error e) s, _ => done (.error e) s
  | await s req resume, f => await s req fun reply s => (resume reply s).andThen f

/-- Go on after an exception. -/
def handle : Suspended σ ρ ν ε α → (ε → Coroutine σ ρ ν ε α) → Suspended σ ρ ν ε α
  | done (.ok a) s, _ => done (.ok a) s
  | done (.error e) s, h => h e s
  | await s req resume, h => await s req fun reply s => (resume reply s).handle h

theorem andThen_assoc (m : Suspended σ ρ ν ε α) (f : α → Coroutine σ ρ ν ε β)
    (g : β → Coroutine σ ρ ν ε γ) :
    (m.andThen f).andThen g = m.andThen fun a s => (f a s).andThen g := by
  induction m with
  | done result s => cases result <;> rfl
  | await s req resume ih => exact congrArg _ (funext fun reply => funext fun s => ih reply s)

theorem andThen_pure (m : Suspended σ ρ ν ε α) : m.andThen (fun a s => done (.ok a) s) = m := by
  induction m with
  | done result s => cases result <;> rfl
  | await s req resume ih => exact congrArg _ (funext fun reply => funext fun s => ih reply s)

end Suspended

namespace Coroutine

instance : Monad (Coroutine σ ρ ν ε) where
  pure a s := .done (.ok a) s
  bind m f s := (m s).andThen f

instance : LawfulMonad (Coroutine σ ρ ν ε) :=
  LawfulMonad.mk' (Coroutine σ ρ ν ε) (fun m => funext fun s => (m s).andThen_pure)
    (fun _ _ => rfl) (fun m f g => funext fun s => (m s).andThen_assoc f g)

instance : MonadStateOf σ (Coroutine σ ρ ν ε) where
  get s := .done (.ok s) s
  set t _ := .done (.ok ()) t
  modifyGet f s := .done (.ok (f s).1) (f s).2

instance : MonadExceptOf ε (Coroutine σ ρ ν ε) where
  throw e s := .done (.error e) s
  tryCatch m h s := (m s).handle h

/-- Send a request, and wait for the reply. -/
def request (req : ρ) : Coroutine σ ρ ν ε (ν req) := fun s =>
  .await s req fun reply s => .done reply s

end Coroutine

namespace Suspended

/-- How a method may end when its requests are served one after the other, with nothing
else running; `serves` tells what may have become of the object and of what is outside it
when a reply comes. -/
def Ends (serves : (req : ρ) → σ × ω → Except ε (ν req) → σ × ω → Prop) :
    Suspended σ ρ ν ε α → ω → Except ε α → σ × ω → Prop
  | done result s, w, result', t => result' = result ∧ t = (s, w)
  | await s req resume, w, result', t =>
    ∃ reply u, serves req (s, w) reply u ∧ (resume reply u.1).Ends serves u.2 result' t

variable {serves : (req : ρ) → σ × ω → Except ε (ν req) → σ × ω → Prop} {s : σ} {w : ω}

/-- A method that sends one request, and finishes with the value of the reply. -/
def once (s : σ) (req : ρ) (finish : ν req → σ → α × σ) : Suspended σ ρ ν ε α :=
  .await s req fun reply s =>
    match reply with
    | .ok value => .done (.ok (finish value s).1) (finish value s).2
    | .error e => .done (.error e) s

theorem await_eq_once {req : ρ} {resume : Except ε (ν req) → σ → Suspended σ ρ ν ε α}
    {finish : ν req → σ → α × σ}
    (hok : ∀ value s, resume (.ok value) s =
      .done (.ok (finish value s).1) (finish value s).2)
    (herror : ∀ e s, resume (.error e) s = .done (.error e) s) :
    await s req resume = once s req finish := by
  refine congrArg (await s req) (funext fun reply => funext fun t => ?_)
  cases reply with
  | ok value => exact hok value t
  | error e => exact herror e t

theorem ends_once {req : ρ} {finish : ν req → σ → α × σ} {result : Except ε α} {t : σ × ω} :
    (once s req finish).Ends serves w result t ↔
      (∃ value u, serves req (s, w) (.ok value) u ∧ result = .ok (finish value u.1).1 ∧
        t = ((finish value u.1).2, u.2)) ∨
      ∃ e, serves req (s, w) (.error e) t ∧ result = .error e := by
  constructor
  · rintro ⟨reply, u, hserves, hends⟩
    cases reply with
    | ok value => exact Or.inl ⟨value, u, hserves, hends⟩
    | error e =>
      obtain ⟨rfl, rfl⟩ := hends
      exact Or.inr ⟨e, hserves, rfl⟩
  · rintro (⟨value, u, hserves, rfl, rfl⟩ | ⟨e, hserves, rfl⟩)
    · exact ⟨.ok value, u, hserves, rfl, rfl⟩
    · exact ⟨.error e, t, hserves, rfl, rfl⟩

/-- A request that is followed by a change of the object only if it succeeds. -/
theorem ends_request_bind {req : ρ} {f : ν req → Coroutine σ ρ ν ε α} {result : Except ε α}
    {t : σ × ω} (h : ((Coroutine.request req >>= f) s).Ends serves w result t) :
    (∃ reply u, serves req (s, w) (.ok reply) u ∧ (f reply u.1).Ends serves u.2 result t) ∨
      ∃ e, serves req (s, w) (.error e) t ∧ result = .error e := by
  obtain ⟨reply, u, hserves, hends⟩ := h
  cases reply with
  | ok reply => exact Or.inl ⟨reply, u, hserves, hends⟩
  | error e =>
    obtain ⟨rfl, rfl⟩ := hends
    exact Or.inr ⟨e, hserves, rfl⟩

/-- If every request gets a reply, then every method ends. -/
theorem exists_ends (hserves : ∀ req s, ∃ reply t, serves req s reply t)
    (m : Suspended σ ρ ν ε α) (w : ω) : ∃ result t, m.Ends serves w result t := by
  induction m generalizing w with
  | done result s => exact ⟨result, (s, w), rfl, rfl⟩
  | await s req resume ih =>
    obtain ⟨reply, u, hreply⟩ := hserves req (s, w)
    obtain ⟨result, t, hends⟩ := ih reply u.1 u.2
    exact ⟨result, t, reply, u, hreply, hends⟩

theorem ends_of_andThen {m : Suspended σ ρ ν ε α} {f : α → Coroutine σ ρ ν ε β}
    {result : Except ε β} {t : σ × ω} (h : (m.andThen f).Ends serves w result t) :
    (∃ a u, m.Ends serves w (.ok a) u ∧ (f a u.1).Ends serves u.2 result t) ∨
      ∃ e, m.Ends serves w (.error e) t ∧ result = .error e := by
  induction m generalizing w with
  | done ended s =>
    cases ended with
    | ok a => exact Or.inl ⟨a, (s, w), ⟨rfl, rfl⟩, h⟩
    | error e => exact Or.inr ⟨e, ⟨rfl, h.2⟩, h.1⟩
  | await s req resume ih =>
    obtain ⟨reply, u, hserves, h⟩ := h
    rcases ih reply u.1 h with ⟨a, v, hm, hf⟩ | ⟨e, hm, hresult⟩
    · exact Or.inl ⟨a, v, ⟨reply, u, hserves, hm⟩, hf⟩
    · exact Or.inr ⟨e, ⟨reply, u, hserves, hm⟩, hresult⟩

theorem ends_of_handle {m : Suspended σ ρ ν ε α} {h : ε → Coroutine σ ρ ν ε α}
    {result : Except ε α} {t : σ × ω} (hends : (m.handle h).Ends serves w result t) :
    (∃ a, m.Ends serves w (.ok a) t ∧ result = .ok a) ∨
      ∃ e u, m.Ends serves w (.error e) u ∧ (h e u.1).Ends serves u.2 result t := by
  induction m generalizing w with
  | done ended s =>
    cases ended with
    | ok a => exact Or.inl ⟨a, ⟨rfl, hends.2⟩, hends.1⟩
    | error e => exact Or.inr ⟨e, (s, w), ⟨rfl, rfl⟩, hends⟩
  | await s req resume ih =>
    obtain ⟨reply, u, hserves, hends⟩ := hends
    rcases ih reply u.1 hends with ⟨a, hm, hresult⟩ | ⟨e, v, hm, hh⟩
    · exact Or.inl ⟨a, ⟨reply, u, hserves, hm⟩, hresult⟩
    · exact Or.inr ⟨e, v, ⟨reply, u, hserves, hm⟩, hh⟩

end Suspended

/-! ## What a method ensures -/

/-- The result is a value that satisfies `R`. -/
def Yields (R : α → Prop) : Except ε α → Prop
  | .ok a => R a
  | .error _ => False

/-- However a method ends, it keeps `I`, and its result satisfies `Q`. That it ends is
another matter, for which see `Suspended.exists_ends`. -/
def Ensures (serves : (req : ρ) → σ × ω → Except ε (ν req) → σ × ω → Prop) (I : σ → Prop)
    (m : Coroutine σ ρ ν ε α) (Q : Except ε α → Prop) : Prop :=
  ∀ s w result t, I s → (m s).Ends serves w result t → I t.1 ∧ Q result

namespace Ensures

variable {serves : (req : ρ) → σ × ω → Except ε (ν req) → σ × ω → Prop} {I : σ → Prop}
  {m : Coroutine σ ρ ν ε α} {f : α → Coroutine σ ρ ν ε β} {h : ε → Coroutine σ ρ ν ε α}
  {R : α → Prop} {P : Except ε α → Prop} {Q : Except ε β → Prop}

theorem pure {a : α} (ha : P (.ok a)) : Ensures serves I (pure a) P := by
  rintro s w result t hs ⟨rfl, rfl⟩
  exact ⟨hs, ha⟩

theorem bind (hm : Ensures serves I m P) (hf : ∀ a, P (.ok a) → Ensures serves I (f a) Q)
    (herror : ∀ e, P (.error e) → Q (.error e)) : Ensures serves I (m >>= f) Q := by
  intro s w result t hs hends
  rcases Suspended.ends_of_andThen hends with ⟨a, u, ha, hends⟩ | ⟨e, he, rfl⟩
  · obtain ⟨hu, ha⟩ := hm s w _ u hs ha
    exact hf a ha _ _ result t hu hends
  · obtain ⟨ht, he⟩ := hm s w _ t hs he
    exact ⟨ht, herror e he⟩

/-- There is no exception to pass on. -/
theorem andThen (hm : Ensures serves I m (Yields R))
    (hf : ∀ a, R a → Ensures serves I (f a) Q) : Ensures serves I (m >>= f) Q :=
  hm.bind hf fun _ he => he.elim

theorem tryCatch (hm : Ensures serves I m P) {Q : Except ε α → Prop}
    (hok : ∀ a, P (.ok a) → Q (.ok a)) (hh : ∀ e, P (.error e) → Ensures serves I (h e) Q) :
    Ensures serves I (tryCatch m h) Q := by
  intro s w result t hs hends
  rcases Suspended.ends_of_handle hends with ⟨a, ha, rfl⟩ | ⟨e, u, he, hends⟩
  · obtain ⟨ht, ha⟩ := hm s w _ t hs ha
    exact ⟨ht, hok a ha⟩
  · obtain ⟨hu, he⟩ := hm s w _ u hs he
    exact hh e he _ _ result t hu hends

theorem modify {g : σ → σ} (hg : ∀ s, I s → I (g s)) :
    Ensures serves I (modify g) (Yields fun _ => True) := by
  rintro s w result t hs ⟨rfl, rfl⟩
  exact ⟨hg s hs, trivial⟩

theorem request {req : ρ} {P : Except ε (ν req) → Prop}
    (hserves : ∀ s reply t, I s.1 → serves req s reply t → I t.1 ∧ P reply) :
    Ensures serves I (Coroutine.request req) P := by
  rintro s w result t hs ⟨reply, u, hreply, rfl, rfl⟩
  exact hserves (s, w) _ u hs hreply

/-- A loop that returns a value for each element of a list. -/
theorem mapM {l : List α} {R : α → β → Prop}
    (hf : ∀ a ∈ l, Ensures serves I (f a) (Yields (R a))) :
    Ensures serves I (l.mapM f) (Yields (List.Forall₂ R l)) := by
  induction l with
  | nil => exact Ensures.pure .nil
  | cons a l ih =>
    rw [List.mapM_cons]
    refine (hf a List.mem_cons_self).andThen fun b hb => ?_
    refine (ih fun a ha => hf a (List.mem_cons_of_mem _ ha)).andThen fun bs hbs => ?_
    exact Ensures.pure (.cons hb hbs)

end Ensures
end Pylyskom
