import Pylyskom.Reader.Program

/-!
# Reading programs on a byte source

A receive buffer is a state from which bytes are taken, one call at a time, and
which may fail when it cannot supply them. `Source` collects what such a buffer
promises; a program then has the meaning on the source that it has on the list
of the source's unread bytes (`Source.exec_matches`), so two buffers with the same
unread bytes cannot be told apart by any program.
-/

namespace Pylyskom

/-- A state that bytes are received from. Both operations fail, with a state of
their own, exactly when the unread bytes do not suffice. -/
structure Source (σ : Type) where
  /-- The bytes that have not been received yet. -/
  unread : σ → List UInt8
  /-- Receive a given number of bytes. -/
  receiveString : σ → ℕ → Except σ (List UInt8 × σ)
  /-- Receive one byte. -/
  receiveChar : σ → Except σ (UInt8 × σ)
  string_ok : ∀ {s n}, n ≤ (unread s).length →
    ∃ s', receiveString s n = .ok ((unread s).take n, s') ∧ unread s' = (unread s).drop n
  string_short : ∀ {s n}, (unread s).length < n → ∃ s', receiveString s n = .error s'
  char_ok : ∀ {s c r}, unread s = c :: r → ∃ s', receiveChar s = .ok (c, s') ∧ unread s' = r
  char_short : ∀ {s}, unread s = [] → ∃ s', receiveChar s = .error s'

namespace Source

variable {σ τ ε α : Type}

/-- A received byte was the first unread one. -/
theorem unread_of_char (S : Source σ) {s s' : σ} {c : UInt8} (h : S.receiveChar s = .ok (c, s')) :
    S.unread s = c :: S.unread s' := by
  cases hunread : S.unread s with
  | nil =>
    obtain ⟨t, ht⟩ := S.char_short hunread
    simp [ht] at h
  | cons d r =>
    obtain ⟨t, ht, hr⟩ := S.char_ok hunread
    simp only [ht, Except.ok.injEq, Prod.mk.injEq] at h
    obtain ⟨rfl, rfl⟩ := h
    rw [hr]

/-- The loop `while c in p: c = receive_char()` on a source. -/
def scanLoop (S : Source σ) (p : UInt8 → Bool) (c : UInt8) (s : σ) :
    Except σ (List UInt8 × UInt8 × σ) :=
  if p c then
    match _h : S.receiveChar s with
    | .error s' => .error s'
    | .ok (d, s') => (S.scanLoop p d s').map fun r => (c :: r.1, r.2)
  else .ok ([], c, s)
termination_by (S.unread s).length
decreasing_by rw [S.unread_of_char _h]; simp

/-- The meaning of a program on a source: each read is one call. -/
def exec (S : Source σ) : Reader ε α → σ → Outcome ε α σ
  | .done a, s => .returned a s
  | .raise e, s => .raised e s
  | .receiveString n next, s =>
    match S.receiveString s n with
    | .error s' => .starved s'
    | .ok (cs, s') => S.exec (next cs) s'
  | .receiveChar next, s =>
    match S.receiveChar s with
    | .error s' => .starved s'
    | .ok (c, s') => S.exec (next c) s'
  | .scan p c next, s =>
    match S.scanLoop p c s with
    | .error s' => .starved s'
    | .ok (cs, d, s') => S.exec (next cs d) s'

/-- A sequence runs its second part where the first part ended. -/
theorem exec_bind {β : Type} (S : Source σ) (m : Reader ε α) (f : α → Reader ε β) (s : σ) :
    S.exec (m >>= f) s = (S.exec m s).andThen fun a s => S.exec (f a) s := by
  change S.exec (m.bind f) s = _
  induction m generalizing s with
  | done a => rfl
  | raise e => rfl
  | receiveString n next ih =>
    simp only [Reader.bind, exec]
    split
    · rfl
    · exact ih _ _
  | receiveChar next ih =>
    simp only [Reader.bind, exec]
    split
    · rfl
    · exact ih _ _
  | scan p c next ih =>
    simp only [Reader.bind, exec]
    split
    · rfl
    · exact ih _ _ _

/-- An ending on the source is the given ending on its unread bytes. What a source
keeps when it fails to supply bytes is its own business. -/
def Matches (S : Source σ) : Outcome ε α σ → Outcome ε α (List UInt8) → Prop
  | .returned a s, o => o = .returned a (S.unread s)
  | .raised e s, o => o = .raised e (S.unread s)
  | .starved _, o => ∃ r, o = .starved r

theorem scanLoop_stop (S : Source σ) {p : UInt8 → Bool} {c : UInt8} (hc : p c = false) (s : σ) :
    S.scanLoop p c s = .ok ([], c, s) := by
  rw [scanLoop]
  simp [hc]

theorem scanLoop_short (S : Source σ) {p : UInt8 → Bool} {c : UInt8} {s s' : σ}
    (hc : p c = true) (h : S.receiveChar s = .error s') : S.scanLoop p c s = .error s' := by
  rw [scanLoop, if_pos hc]
  split
  · next heq => simpa [h] using heq.symm
  · next heq => simp [h] at heq

theorem scanLoop_step (S : Source σ) {p : UInt8 → Bool} {c d : UInt8} {s s' : σ}
    (hc : p c = true) (h : S.receiveChar s = .ok (d, s')) :
    S.scanLoop p c s = (S.scanLoop p d s').map fun r => (c :: r.1, r.2) := by
  rw [scanLoop, if_pos hc]
  split
  · next heq => simp [h] at heq
  · next heq =>
    simp only [h, Except.ok.injEq, Prod.mk.injEq] at heq
    obtain ⟨rfl, rfl⟩ := heq
    rfl

/-- The scanning loop on a source passes over the bytes that it passes over on a list. -/
theorem scanLoop_eq (S : Source σ) (p : UInt8 → Bool) (c : UInt8) (s : σ) :
    (Reader.scanList p c (S.unread s) = none → ∃ s', S.scanLoop p c s = .error s') ∧
    ∀ cs d r, Reader.scanList p c (S.unread s) = some (cs, d, r) →
      ∃ s', S.scanLoop p c s = .ok (cs, d, s') ∧ S.unread s' = r := by
  induction hu : S.unread s generalizing c s with
  | nil =>
    obtain ⟨t, ht⟩ := S.char_short hu
    cases hc : p c with
    | true => simp [Reader.scanList, hc, S.scanLoop_short hc ht]
    | false =>
      rw [Reader.scanList_stop hc, S.scanLoop_stop hc]
      refine ⟨by simp, fun cs d r h => ?_⟩
      cases h
      exact ⟨s, rfl, hu⟩
  | cons d r ih =>
    obtain ⟨t, ht, hr⟩ := S.char_ok hu
    cases hc : p c with
    | false =>
      rw [Reader.scanList_stop hc, S.scanLoop_stop hc]
      refine ⟨by simp, fun cs d r h => ?_⟩
      cases h
      exact ⟨s, rfl, hu⟩
    | true =>
      obtain ⟨hnone, hsome⟩ := ih d t hr
      rw [S.scanLoop_step hc ht]
      simp only [Reader.scanList, hc, if_true, Option.map_eq_none_iff, Option.map_eq_some_iff]
      constructor
      · intro h
        obtain ⟨u, hu⟩ := hnone h
        exact ⟨u, by rw [hu]; rfl⟩
      · rintro cs e r' ⟨⟨cs', e', r''⟩, h, heq⟩
        simp only [Prod.mk.injEq] at heq
        obtain ⟨rfl, rfl, rfl⟩ := heq
        obtain ⟨u, hu, hur⟩ := hsome cs' e' r'' h
        exact ⟨u, by rw [hu]; rfl, hur⟩

/-- **Refinement.** A program ends on a source as it ends on the source's unread bytes. -/
theorem exec_matches (S : Source σ) (m : Reader ε α) (s : σ) :
    S.Matches (S.exec m s) (m.run (S.unread s)) := by
  induction m generalizing s with
  | done a => rfl
  | raise e => rfl
  | receiveString n next ih =>
    by_cases hn : n ≤ (S.unread s).length
    · obtain ⟨t, ht, hr⟩ := S.string_ok hn
      have hrec := ih ((S.unread s).take n) t
      simpa only [exec, ht, Reader.run, hn, if_true, hr] using hrec
    · obtain ⟨t, ht⟩ := S.string_short (Nat.lt_of_not_le hn)
      simp [exec, ht, Reader.run, hn, Matches]
  | receiveChar next ih =>
    cases hu : S.unread s with
    | nil =>
      obtain ⟨t, ht⟩ := S.char_short hu
      simp [exec, ht, Reader.run, Matches]
    | cons c r =>
      obtain ⟨t, ht, hr⟩ := S.char_ok hu
      have hrec := ih c t
      simpa only [exec, ht, Reader.run, hr] using hrec
  | scan p c next ih =>
    obtain ⟨hnone, hsome⟩ := S.scanLoop_eq p c s
    cases hlist : Reader.scanList p c (S.unread s) with
    | none =>
      obtain ⟨t, ht⟩ := hnone hlist
      simp [exec, ht, Reader.run, hlist, Matches]
    | some out =>
      obtain ⟨cs, d, r⟩ := out
      obtain ⟨t, ht, hr⟩ := hsome cs d r hlist
      have hrec := ih cs d t
      simpa only [exec, ht, Reader.run, hlist, hr] using hrec

/-- What every received byte keeps, the scanning loop keeps. -/
theorem scanLoop_preserves (S : Source σ) {I : σ → Prop}
    (hchar : ∀ {s s' c}, I s → S.receiveChar s = .ok (c, s') → I s')
    {p : UInt8 → Bool} {c d : UInt8} {cs : List UInt8} {s s' : σ} (hs : I s)
    (h : S.scanLoop p c s = .ok (cs, d, s')) : I s' := by
  induction hn : (S.unread s).length generalizing c cs s with
  | zero =>
    obtain ⟨t, ht⟩ := S.char_short (List.eq_nil_of_length_eq_zero hn)
    cases hc : p c with
    | true => simp [S.scanLoop_short hc ht] at h
    | false =>
      simp only [S.scanLoop_stop hc, Except.ok.injEq, Prod.mk.injEq] at h
      exact h.2.2 ▸ hs
  | succ n ih =>
    cases hc : p c with
    | false =>
      simp only [S.scanLoop_stop hc, Except.ok.injEq, Prod.mk.injEq] at h
      exact h.2.2 ▸ hs
    | true =>
      cases ht : S.receiveChar s with
      | error t => simp [S.scanLoop_short hc ht] at h
      | ok out =>
        obtain ⟨e, t⟩ := out
        rw [S.unread_of_char ht, List.length_cons] at hn
        rw [S.scanLoop_step hc ht] at h
        cases hloop : S.scanLoop p e t with
        | error u => simp [hloop, Except.map] at h
        | ok r =>
          simp only [hloop, Except.map, Except.ok.injEq, Prod.mk.injEq] at h
          obtain ⟨cs', e', t'⟩ := r
          obtain ⟨-, h⟩ := h
          cases h
          exact ih (hchar hs ht) hloop (by omega)

/-- What every successful read keeps, a program that ends keeps. -/
theorem exec_preserves (S : Source σ) {I : σ → Prop}
    (hstring : ∀ {s s' n cs}, I s → S.receiveString s n = .ok (cs, s') → I s')
    (hchar : ∀ {s s' c}, I s → S.receiveChar s = .ok (c, s') → I s')
    (m : Reader ε α) {s : σ} (hs : I s) (h : (S.exec m s).Settled) : I (S.exec m s).rest := by
  induction m generalizing s with
  | done a => exact hs
  | raise e => exact hs
  | receiveString n next ih =>
    simp only [exec] at h ⊢
    cases ht : S.receiveString s n with
    | error t => simp [ht] at h
    | ok out =>
      simp only [ht] at h ⊢
      exact ih out.1 (hstring hs ht) h
  | receiveChar next ih =>
    simp only [exec] at h ⊢
    cases ht : S.receiveChar s with
    | error t => simp [ht] at h
    | ok out =>
      simp only [ht] at h ⊢
      exact ih out.1 (hchar hs ht) h
  | scan p c next ih =>
    simp only [exec] at h ⊢
    cases ht : S.scanLoop p c s with
    | error t => simp [ht] at h
    | ok out =>
      simp only [ht] at h ⊢
      exact ih out.1 out.2.1 (S.scanLoop_preserves hchar hs ht) h

/-- A program that returns on the unread bytes returns on the source. -/
theorem exec_returned (S : Source σ) {m : Reader ε α} {s : σ} {a : α} {r : List UInt8}
    (h : m.run (S.unread s) = .returned a r) :
    ∃ s', S.exec m s = .returned a s' ∧ S.unread s' = r := by
  have hmatch := S.exec_matches m s
  rw [h] at hmatch
  cases hexec : S.exec m s with
  | returned b t => simp_all [Matches]
  | raised e t => simp [hexec, Matches] at hmatch
  | starved t => simp [hexec, Matches] at hmatch

/-- A program that raises on the unread bytes raises on the source. -/
theorem exec_raised (S : Source σ) {m : Reader ε α} {s : σ} {e : ε} {r : List UInt8}
    (h : m.run (S.unread s) = .raised e r) :
    ∃ s', S.exec m s = .raised e s' ∧ S.unread s' = r := by
  have hmatch := S.exec_matches m s
  rw [h] at hmatch
  cases hexec : S.exec m s with
  | returned b t => simp [hexec, Matches] at hmatch
  | raised e t => simp_all [Matches]
  | starved t => simp [hexec, Matches] at hmatch

/-- A program that runs out of the unread bytes makes the source fail. -/
theorem exec_starved (S : Source σ) {m : Reader ε α} {s : σ} {r : List UInt8}
    (h : m.run (S.unread s) = .starved r) : ∃ s', S.exec m s = .starved s' := by
  have hmatch := S.exec_matches m s
  rw [h] at hmatch
  cases hexec : S.exec m s with
  | returned b t => simp [hexec, Matches] at hmatch
  | raised e t => simp [hexec, Matches] at hmatch
  | starved t => exact ⟨t, rfl⟩

/-- Apart from the bytes, the program does on a source what it did. -/
theorem exec_eq_consume (S : Source σ) (m : Reader ε α) (s : σ) :
    S.exec m s = (S.exec m.consume s).andThen fun x s' => .returned x.1 s' := by
  conv_lhs => rw [← m.fst_consume]
  exact S.exec_bind m.consume (fun x => pure x.1) s

/-- On a source, too, a program that returns took the bytes in front of those it left. -/
theorem exec_consume (S : Source σ) {m : Reader ε α} {s s' : σ} {a : α}
    (h : S.exec m s = .returned a s') :
    ∃ taken, S.exec m.consume s = .returned (a, taken) s' ∧ S.unread s = taken ++ S.unread s' := by
  have hrun := S.exec_matches m s
  rw [h] at hrun
  obtain ⟨taken, htaken, hconsume⟩ := Reader.run_consume hrun
  have hfst := (S.exec_eq_consume m s).symm.trans h
  have hmatch := S.exec_matches m.consume s
  rw [hconsume] at hmatch
  cases hexec : S.exec m.consume s with
  | returned x t =>
    rw [hexec] at hfst hmatch
    obtain ⟨b, bytes⟩ := x
    simp only [Matches, Outcome.returned.injEq, Prod.mk.injEq] at hmatch
    cases hfst
    exact ⟨bytes, rfl, hmatch.1.2 ▸ htaken⟩
  | raised e t => simp [hexec] at hfst
  | starved t => simp [hexec] at hfst

end Source

end Pylyskom
