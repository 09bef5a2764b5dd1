import Pylyskom.Coroutine

/-!
# Methods of a part of an object

An object may call the methods of an object that is a part of it, and that sends requests
of its own. The call is a method of the whole object, which leaves its other parts alone.

The second half is about methods whose result is known, whatever happens while they wait.
-/

namespace Pylyskom

variable {σ τ ρ ρ' ω ε α β : Type} {ν : ρ → Type} {ν' : ρ' → Type}

/-- A method of the part `get` of an object, where each request is sent in a form that the
object's own requests have. -/
def Suspended.zoom (get : τ → σ) (put : σ → τ → τ) (embed : ρ → ρ')
    (unpack : ∀ req, ν' (embed req) → ν req) :
    Suspended σ ρ ν ε α → τ → Suspended τ ρ' ν' ε α
  | done result s, t => done result (put s t)
  | await s req resume, t =>
    await (put s t) (embed req) fun reply t =>
      (resume (reply.map (unpack req)) (get t)).zoom get put embed unpack t

/-! ## Methods whose result is known -/

/-- What is true of the object whenever a method waits, which requests the method may send,
and what the replies may be. -/
structure Service (σ ρ : Type) (ν : ρ → Type) (ε : Type) where
  keeps : σ → Prop
  sends : ρ → Prop
  replies : (req : ρ) → Except ε (ν req) → Prop

namespace Suspended

variable {S : Service σ ρ ν ε} {x : Except ε α}

/-- However the method goes, its result is the given one. -/
def Computes (S : Service σ ρ ν ε) (x : Except ε α) : Suspended σ ρ ν ε α → Prop
  | done result s => S.keeps s ∧ result = x
  | await s req resume => S.keeps s ∧ S.sends req ∧
    ∀ reply t, S.keeps t → S.replies req reply → (resume reply t).Computes S x

theorem Computes.andThen {m : Suspended σ ρ ν ε α} {f : α → Coroutine σ ρ ν ε β}
    {y : Except ε β} (hm : m.Computes S x)
    (hok : ∀ a s, x = .ok a → S.keeps s → (f a s).Computes S y)
    (herror : ∀ e, x = .error e → y = .error e) : (m.andThen f).Computes S y := by
  induction m with
  | done result s =>
    obtain ⟨hs, rfl⟩ := hm
    cases result with
    | ok a => exact hok a s rfl hs
    | error e => exact ⟨hs, (herror e rfl).symm⟩
  | await s req resume ih =>
    obtain ⟨hs, hsends, hresume⟩ := hm
    exact ⟨hs, hsends, fun reply t ht hreply => ih reply t (hresume reply t ht hreply)⟩

theorem Computes.handle {m : Suspended σ ρ ν ε α} {h : ε → Coroutine σ ρ ν ε α} {y : Except ε α}
    (hm : m.Computes S x) (hok : ∀ a, x = .ok a → y = .ok a)
    (herror : ∀ e s, x = .error e → S.keeps s → (h e s).Computes S y) :
    (m.handle h).Computes S y := by
  induction m with
  | done result s =>
    obtain ⟨hs, rfl⟩ := hm
    cases result with
    | ok a => exact ⟨hs, (hok a rfl).symm⟩
    | error e => exact herror e s rfl hs
  | await s req resume ih =>
    obtain ⟨hs, hsends, hresume⟩ := hm
    exact ⟨hs, hsends, fun reply t ht hreply => ih reply t (hresume reply t ht hreply)⟩

/-- The method of a part has the same result in the whole object. -/
theorem Computes.zoom {T : Service τ ρ' ν' ε} {get : τ → σ} {put : σ → τ → τ} {embed : ρ → ρ'}
    {unpack : ∀ req, ν' (embed req) → ν req} {m : Suspended σ ρ ν ε α} {t : τ}
    (hm : m.Computes S x) (hget : ∀ t, T.keeps t → S.keeps (get t))
    (hput : ∀ s t, T.keeps t → S.keeps s → T.keeps (put s t))
    (hsends : ∀ req, S.sends req → T.sends (embed req))
    (hreplies : ∀ req reply, T.replies (embed req) reply → S.replies req (reply.map (unpack req)))
    (ht : T.keeps t) : (m.zoom get put embed unpack t).Computes T x := by
  induction m generalizing t with
  | done result s =>
    obtain ⟨hs, hresult⟩ := hm
    exact ⟨hput s t ht hs, hresult⟩
  | await s req resume ih =>
    obtain ⟨hs, hreq, hresume⟩ := hm
    refine ⟨hput s t ht hs, hsends req hreq, fun reply u hu hreply => ?_⟩
    exact ih _ _ (hresume _ _ (hget u hu) (hreplies req reply hreply)) hu

/-- A run of the method, when what serves its requests does not change what is outside. -/
theorem Computes.ends {serves : (req : ρ) → σ × ω → Except ε (ν req) → σ × ω → Prop}
    {m : Suspended σ ρ ν ε α} {w : ω} {result : Except ε α} {t : σ × ω} (hm : m.Computes S x)
    (hserves : ∀ req s reply t, S.keeps s → S.sends req → serves req (s, w) reply t →
      S.keeps t.1 ∧ S.replies req reply ∧ t.2 = w)
    (hends : m.Ends serves w result t) : S.keeps t.1 ∧ result = x ∧ t.2 = w := by
  induction m with
  | done ended s =>
    obtain ⟨rfl, rfl⟩ := hends
    exact ⟨hm.1, hm.2, rfl⟩
  | await s req resume ih =>
    obtain ⟨hs, hsends, hresume⟩ := hm
    obtain ⟨reply, ⟨u, w'⟩, hserved, hends⟩ := hends
    obtain ⟨hu, hreply, hw⟩ := hserves req s reply _ hs hsends hserved
    obtain rfl := hw
    exact ih reply u (hresume reply u hu hreply) hends

end Suspended

/-- From every state with what the service keeps. -/
def Computes (S : Service σ ρ ν ε) (m : Coroutine σ ρ ν ε α) (x : Except ε α) : Prop :=
  ∀ s, S.keeps s → (m s).Computes S x

namespace Computes

variable {S : Service σ ρ ν ε} {m : Coroutine σ ρ ν ε α} {f : α → Coroutine σ ρ ν ε β}
  {h : ε → Coroutine σ ρ ν ε α} {x : Except ε α} {g : α → Except ε β}

theorem pure (a : α) : Computes S (pure a) (.ok a) := fun _ hs => ⟨hs, rfl⟩

theorem throw (e : ε) : Computes S (throw e : Coroutine σ ρ ν ε α) (.error e) :=
  fun _ hs => ⟨hs, rfl⟩

theorem modify {u : σ → σ} (hu : ∀ s, S.keeps s → S.keeps (u s)) :
    Computes S (modify u) (.ok ⟨⟩) := fun s hs => ⟨hu s hs, rfl⟩

theorem request {req : ρ} {y : Except ε (ν req)} (hsends : S.sends req)
    (hreplies : ∀ reply, S.replies req reply → reply = y) :
    Computes S (Coroutine.request req) y :=
  fun _ hs => ⟨hs, hsends, fun reply _ ht hreply => ⟨ht, hreplies reply hreply⟩⟩

theorem bind (hm : Computes S m x) (hf : ∀ a, x = .ok a → Computes S (f a) (g a)) :
    Computes S (m >>= f) (x >>= g) := by
  intro s hs
  cases x with
  | ok a =>
    refine (hm s hs).andThen (fun a' t ha ht => ?_) fun _ he => nomatch he
    obtain rfl := Except.ok.inj ha
    exact hf a rfl t ht
  | error e =>
    refine (hm s hs).andThen (fun _ _ ha => nomatch ha) fun e' he => ?_
    rw [Except.error.inj he]
    rfl

theorem bind_ok {a : α} {y : Except ε β} (hm : Computes S m (.ok a)) (hf : Computes S (f a) y) :
    Computes S (m >>= f) y := by
  intro s hs
  refine (hm s hs).andThen (fun a' t ha ht => ?_) fun _ he => nomatch he
  obtain rfl := Except.ok.inj ha
  exact hf t ht

theorem bind_error {e : ε} (hm : Computes S m (.error e)) :
    Computes S (m >>= f) (.error e) := by
  intro s hs
  refine (hm s hs).andThen (fun _ _ ha => nomatch ha) fun e' he => ?_
  rw [Except.error.inj he]

theorem map {g : α → β} (hm : Computes S m x) : Computes S (g <$> m) (x.map g) := by
  cases x with
  | ok a => exact hm.bind_ok (pure (g a))
  | error e => exact hm.bind_error

theorem tryCatch_ok {a : α} (hm : Computes S m (.ok a)) : Computes S (tryCatch m h) (.ok a) :=
  fun s hs => (hm s hs).handle (fun _ ha => ha) fun _ _ he => nomatch he

theorem tryCatch_error {e : ε} (hm : Computes S m (.error e)) (hh : Computes S (h e) x) :
    Computes S (tryCatch m h) x := by
  intro s hs
  refine (hm s hs).handle (fun _ ha => nomatch ha) fun e' t he ht => ?_
  obtain rfl := Except.error.inj he
  exact hh t ht

theorem mapM {l : List α} (hf : ∀ a ∈ l, Computes S (f a) (g a)) :
    Computes S (l.mapM f) (l.mapM g) := by
  induction l with
  | nil => exact pure []
  | cons a l ih =>
    rw [List.mapM_cons, List.mapM_cons]
    refine (hf a List.mem_cons_self).bind fun b _ => ?_
    refine (ih fun a ha => hf a (List.mem_cons_of_mem _ ha)).bind fun bs _ => ?_
    exact pure (b :: bs)

end Computes
end Pylyskom
