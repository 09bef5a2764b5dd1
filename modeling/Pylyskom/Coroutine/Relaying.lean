import Pylyskom.Coroutine.Parts

/-!
# Methods that pass exceptions on

A method that ends at once when certain requests raise certain exceptions. This is a fact
about the text of the method: it holds whatever the replies to the other requests are, and
however the object changes while the method waits.
-/

namespace Pylyskom

variable {σ τ ρ ρ' ε α β : Type} {ν : ρ → Type} {ν' : ρ' → Type}

/-- Which exceptions of which requests end a method, which others the requests may raise, and
what is true of the object whenever the method resumes. -/
structure Alarm (σ ρ ε : Type) where
  keeps : σ → Prop
  raised : ρ → ε → Prop
  other : ρ → ε → Prop

namespace Suspended

/-- How a method goes. Where a request raises an exception that ends it, it ends at once with an
exception of `R`; otherwise it ends with `Q`. -/
def Relays (A : Alarm σ ρ ε) (R : ε → σ → Prop) (Q : Except ε α → σ → Prop) :
    Suspended σ ρ ν ε α → Prop
  | done result s => Q result s
  | await _ req resume => ∀ reply t, A.keeps t →
    (∀ e, reply = .error e → A.raised req e →
      ∃ e' u, resume reply t = .done (.error e') u ∧ R e' u) ∧
    ((∀ e, reply = .error e → A.other req e) → (resume reply t).Relays A R Q)

variable {A : Alarm σ ρ ε} {R R' : ε → σ → Prop} {Q : Except ε α → σ → Prop}

theorem Relays.imp {m : Suspended σ ρ ν ε α} {Q' : Except ε α → σ → Prop} (h : m.Relays A R Q)
    (hR : ∀ e s, R e s → R' e s) (hQ : ∀ result s, Q result s → Q' result s) :
    m.Relays A R' Q' := by
  induction m with
  | done result s => exact hQ result s h
  | await s req resume ih =>
    intro reply t ht
    obtain ⟨hraised, hother⟩ := h reply t ht
    refine ⟨fun e he hA => ?_, fun hnot => ih reply t (hother hnot)⟩
    obtain ⟨e', u, hdone, he'⟩ := hraised e he hA
    exact ⟨e', u, hdone, hR e' u he'⟩

theorem Relays.andThen {m : Suspended σ ρ ν ε α} {f : α → Coroutine σ ρ ν ε β}
    {Q' : Except ε β → σ → Prop} (h : m.Relays A R Q)
    (hf : ∀ a s, Q (.ok a) s → (f a s).Relays A R Q')
    (herror : ∀ e s, Q (.error e) s → Q' (.error e) s) : (m.andThen f).Relays A R Q' := by
  induction m with
  | done result s =>
    cases result with
    | ok a => exact hf a s h
    | error e => exact herror e s h
  | await s req resume ih =>
    intro reply t ht
    obtain ⟨hraised, hother⟩ := h reply t ht
    refine ⟨fun e he hA => ?_, fun hnot => ih reply t (hother hnot)⟩
    obtain ⟨e', u, hdone, he'⟩ := hraised e he hA
    refine ⟨e', u, ?_, he'⟩
    change (resume reply t).andThen f = _
    rw [hdone]
    rfl

/-- A handler that raises again what has been relayed, if in another form. -/
theorem Relays.handle {m : Suspended σ ρ ν ε α} {h : ε → Coroutine σ ρ ν ε α}
    {Q' : Except ε α → σ → Prop} (hm : m.Relays A R Q)
    (hok : ∀ a s, Q (.ok a) s → Q' (.ok a) s)
    (herror : ∀ e s, Q (.error e) s → (h e s).Relays A R' Q')
    (hrelays : ∀ e s, R e s → ∃ e' t, h e s = .done (.error e') t ∧ R' e' t) :
    (m.handle h).Relays A R' Q' := by
  induction m with
  | done result s =>
    cases result with
    | ok a => exact hok a s hm
    | error e => exact herror e s hm
  | await s req resume ih =>
    intro reply t ht
    obtain ⟨hraised, hother⟩ := hm reply t ht
    refine ⟨fun e he hA => ?_, fun hnot => ih reply t (hother hnot)⟩
    obtain ⟨e', u, hdone, he'⟩ := hraised e he hA
    obtain ⟨e'', v, hh, he''⟩ := hrelays e' u he'
    refine ⟨e'', v, ?_, he''⟩
    change (resume reply t).handle h = _
    rw [hdone]
    exact hh

/-- So does the method of a part. -/
theorem Relays.zoom {B : Alarm τ ρ' ε} {get : τ → σ} {put : σ → τ → τ} {embed : ρ → ρ'}
    {unpack : ∀ req, ν' (embed req) → ν req} {S : ε → τ → Prop} {Q' : Except ε α → τ → Prop}
    {m : Suspended σ ρ ν ε α} {t : τ} (h : m.Relays A R Q)
    (hkeeps : ∀ t, B.keeps t → A.keeps (get t))
    (hraised : ∀ req e, B.raised (embed req) e → A.raised req e)
    (hother : ∀ req e, B.other (embed req) e → A.other req e)
    (hR : ∀ e s t, B.keeps t → R e s → S e (put s t))
    (hQ : ∀ result s t, B.keeps t → Q result s → Q' result (put s t)) (ht : B.keeps t) :
    (m.zoom get put embed unpack t).Relays B S Q' := by
  induction m generalizing t with
  | done result s => exact hQ result s t ht h
  | await s req resume ih =>
    intro reply t ht
    have hreply : ∀ e, reply.map (unpack req) = .error e ↔ reply = .error e := by
      intro e
      cases reply <;> simp [Except.map]
    obtain ⟨hends, hgoes⟩ := h (reply.map (unpack req)) (get t) (hkeeps t ht)
    constructor
    · intro e he hB
      obtain ⟨e', u, hdone, he'⟩ := hends e ((hreply e).mpr he) (hraised req e hB)
      refine ⟨e', put u t, ?_, hR e' u t ht he'⟩
      change (resume (reply.map (unpack req)) (get t)).zoom get put embed unpack t = _
      rw [hdone]
      rfl
    · intro hnot
      apply ih _ _ _ ht
      apply hgoes
      intro e he
      exact hother req e (hnot e ((hreply e).mp he))

end Suspended

/-! ## Rules -/

/-- A method that relays what it has to relay as `R`, and that raises no other exceptions than
those of `P`. -/
def Relays (A : Alarm σ ρ ε) (R : ε → σ → Prop) (P : ε → Prop) (m : Coroutine σ ρ ν ε α) : Prop :=
  ∀ s, A.keeps s →
    (m s).Relays A R fun result t => A.keeps t ∧ ∀ e, result = .error e → P e

namespace Relays

variable {A : Alarm σ ρ ε} {R R' : ε → σ → Prop} {P P' : ε → Prop} {m : Coroutine σ ρ ν ε α}
  {f : α → Coroutine σ ρ ν ε β} {h : ε → Coroutine σ ρ ν ε α}

theorem imp (hm : Relays A R P m) (hR : ∀ e s, R e s → R' e s) (hP : ∀ e, P e → P' e) :
    Relays A R' P' m :=
  fun s hs => (hm s hs).imp hR fun _ _ hQ => ⟨hQ.1, fun e he => hP e (hQ.2 e he)⟩

theorem pure {a : α} : Relays (ν := ν) A R P (pure a) := fun _ hs => ⟨hs, fun _ he => nomatch he⟩

theorem ofExcept {x : Except ε α} (hx : ∀ e, x = .error e → P e) :
    Relays (ν := ν) A R P (ofExcept x) := by
  cases x with
  | ok a => exact pure
  | error e => exact fun s hs => ⟨hs, hx⟩

theorem throw {e : ε} (he : P e) : Relays A R P (throw e : Coroutine σ ρ ν ε α) := by
  intro s hs
  refine ⟨hs, fun e' he' => ?_⟩
  rwa [← Except.error.inj he']

theorem get : Relays (ν := ν) A R P (MonadState.get : Coroutine σ ρ ν ε σ) :=
  fun _ hs => ⟨hs, fun _ he => nomatch he⟩

theorem modify {g : σ → σ} (hg : ∀ s, A.keeps s → A.keeps (g s)) :
    Relays A R P (modify g : Coroutine σ ρ ν ε PUnit) :=
  fun s hs => ⟨hg s hs, fun _ he => nomatch he⟩

theorem request {req : ρ} (hraised : ∀ e t, A.keeps t → A.raised req e → R e t)
    (hother : ∀ e, A.other req e → P e) : Relays A R P (Coroutine.request (ν := ν) req) := by
  intro s _ reply t ht
  refine ⟨fun e he hA => ⟨e, t, ?_, hraised e t ht hA⟩, fun hnot => ⟨ht, fun e he => ?_⟩⟩
  · rw [he]
  · exact hother e (hnot e he)

theorem bind (hm : Relays A R P m) (hf : ∀ a, Relays A R P (f a)) : Relays A R P (m >>= f) :=
  fun s hs => (hm s hs).andThen (fun a t ht => hf a t ht.1) fun _ _ he =>
    ⟨he.1, fun e' he' => he.2 e' (by rw [Except.error.inj he'])⟩

theorem map {g : α → β} (hm : Relays A R P m) : Relays A R P (g <$> m) := hm.bind fun _ => pure

theorem mapM {l : List α} (hf : ∀ a, Relays A R P (f a)) : Relays A R P (l.mapM f) := by
  induction l with
  | nil => exact pure
  | cons a l ih =>
    rw [List.mapM_cons]
    exact (hf a).bind fun b => ih.bind fun bs => pure

theorem forM {l : List α} {f : α → Coroutine σ ρ ν ε PUnit} (hf : ∀ a, Relays A R P (f a)) :
    Relays A R P (l.forM f) := by
  induction l with
  | nil => exact pure
  | cons a l ih => exact (hf a).bind fun _ => ih

theorem tryCatch (hm : Relays A R P m) (hh : ∀ e, P e → Relays A R' P' (h e))
    (hrelays : ∀ e s, R e s → ∃ e' t, h e s = .done (.error e') t ∧ R' e' t) :
    Relays A R' P' (tryCatch m h) :=
  fun s hs => (hm s hs).handle (fun _ _ ha => ⟨ha.1, fun _ he => nomatch he⟩)
    (fun e t he => hh e (he.2 e rfl) t he.1) hrelays

end Relays
end Pylyskom
