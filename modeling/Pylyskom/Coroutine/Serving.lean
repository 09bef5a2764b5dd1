import Pylyskom.Coroutine.Triples

/-!
# Serving a method

How far a method has come when some of its requests have been served, and what is known of it
when it is served by something that behaves like something else.
-/

namespace Pylyskom.Suspended

variable {σ ρ ω ω' ε α : Type} {ν : ρ → Type}

/-- A method has come to a point from which it goes on. -/
inductive Comes (serves : (req : ρ) → σ × ω → Except ε (ν req) → σ × ω → Prop) :
    Suspended σ ρ ν ε α → ω → Suspended σ ρ ν ε α → ω → Prop
  | refl (m : Suspended σ ρ ν ε α) (w : ω) : Comes serves m w m w
  | served {s : σ} {req : ρ} {resume : Except ε (ν req) → σ → Suspended σ ρ ν ε α} {w w' : ω}
      {reply : Except ε (ν req)} {u : σ × ω} {m : Suspended σ ρ ν ε α}
      (hserves : serves req (s, w) reply u) (hcomes : Comes serves (resume reply u.1) u.2 m w') :
      Comes serves (.await s req resume) w m w'

variable {serves : (req : ρ) → σ × ω → Except ε (ν req) → σ × ω → Prop}
  {m m' : Suspended σ ρ ν ε α} {w w' : ω}

/-- The request that a method has come to is served. -/
theorem Comes.tail {s : σ} {req : ρ} {resume : Except ε (ν req) → σ → Suspended σ ρ ν ε α}
    {reply : Except ε (ν req)} {u : σ × ω} (h : m.Comes serves w (.await s req resume) w')
    (hserves : serves req (s, w') reply u) : m.Comes serves w (resume reply u.1) u.2 := by
  generalize hm : Suspended.await s req resume = point at h
  induction h with
  | refl m w =>
    subst hm
    exact .served hserves (.refl _ _)
  | served hfirst _ ih => exact .served hfirst (ih hserves hm)

/-- A method that has come to its end ends so. -/
theorem Comes.ends {result : Except ε α} {s : σ}
    (h : m.Comes serves w (.done result s) w') : m.Ends serves w result (s, w') := by
  generalize hm : Suspended.done result s = point at h
  induction h with
  | refl m w =>
    subst hm
    exact ⟨rfl, rfl⟩
  | served hfirst _ ih => exact ⟨_, _, hfirst, ih hm⟩

/-- **Imitation.** What a method achieves it achieves with anything that behaves like what
serves it, as far as this serves it at all. -/
theorem Achieves.imitate {serves' : (req : ρ) → σ × ω' → Except ε (ν req) → σ × ω' → Prop}
    (R : ω → ω' → Prop)
    (hserves : ∀ {req s w v reply t}, R w v → (∃ reply t, serves' req (s, v) reply t) →
      serves req (s, w) reply t → ∃ v', serves' req (s, v) reply (t.1, v') ∧ R t.2 v')
    {Q : Except ε α → σ × ω' → Prop} {v : ω'} (h : m.Achieves serves' v Q) (hR : R w v)
    (hcomes : m.Comes serves w m' w') : ∃ v', m'.Achieves serves' v' Q ∧ R w' v' := by
  induction hcomes generalizing v with
  | refl m w => exact ⟨v, h, hR⟩
  | @served s req resume w w' reply u m hserved _ ih =>
    obtain ⟨hserved', hresume⟩ := h
    obtain ⟨v', hreply, hR'⟩ := hserves hR hserved' hserved
    exact ih (hresume reply (u.1, v') hreply) hR'

end Pylyskom.Suspended
