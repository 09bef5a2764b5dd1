import Mathlib.Data.List.Basic

/-!
# Programs that read bytes

A parser that takes its bytes from a receive buffer is written here as a tree of
the reads it makes. Giving the tree a meaning on a plain list of bytes separates
what a parser does from how the bytes reach it. The tree is finite along every
branch; the one unbounded loop, reading on while bytes belong to a set, is a node
of its own.
-/

namespace Pylyskom

/-- A program over incoming bytes that returns a value, raises an error, or reads:
a fixed number of bytes, one byte, or (from the byte `c` in hand) byte after byte
as long as the byte in hand satisfies `p`. -/
inductive Reader (ε α : Type) : Type
  | done (value : α)
  | raise (error : ε)
  | receiveString (length : ℕ) (next : List UInt8 → Reader ε α)
  | receiveChar (next : UInt8 → Reader ε α)
  | scan (p : UInt8 → Bool) (c : UInt8) (next : List UInt8 → UInt8 → Reader ε α)

/-- How a reading program ends: with a value, with an error, or for want of bytes.
`σ` is the state of what it read from. -/
inductive Outcome (ε α σ : Type) : Type
  | returned (value : α) (rest : σ)
  | raised (error : ε) (rest : σ)
  | starved (rest : σ)
  deriving DecidableEq

namespace Outcome

variable {ε α β σ τ : Type}

/-- The state in which the program ended. -/
def rest : Outcome ε α σ → σ
  | returned _ s => s
  | raised _ s => s
  | starved s => s

/-- The program did not run out of bytes. -/
def Settled : Outcome ε α σ → Prop
  | starved _ => False
  | _ => True

/-- The same ending, with another view of the state. -/
def mapRest (f : σ → τ) : Outcome ε α σ → Outcome ε α τ
  | returned a s => returned a (f s)
  | raised e s => raised e (f s)
  | starved s => starved (f s)

/-- The same ending, with another view of the value. -/
def mapValue (f : α → β) : Outcome ε α σ → Outcome ε β σ
  | returned a s => returned (f a) s
  | raised e s => raised e s
  | starved s => starved s

/-- Continue a program that returned; errors and starvation end the sequence. -/
def andThen (o : Outcome ε α σ) (f : α → σ → Outcome ε β σ) : Outcome ε β σ :=
  match o with
  | returned a s => f a s
  | raised e s => raised e s
  | starved s => starved s

@[simp] theorem andThen_returned (a : α) (s : σ) (f : α → σ → Outcome ε β σ) :
    (returned a s).andThen f = f a s := rfl

@[simp] theorem andThen_raised (e : ε) (s : σ) (f : α → σ → Outcome ε β σ) :
    (raised e s).andThen f = raised e s := rfl

@[simp] theorem andThen_starved (s : σ) (f : α → σ → Outcome ε β σ) :
    (starved s).andThen f = starved s := rfl

theorem andThen_assoc {γ : Type} (o : Outcome ε α σ) (f : α → σ → Outcome ε β σ)
    (g : β → σ → Outcome ε γ σ) :
    (o.andThen f).andThen g = o.andThen fun a s => (f a s).andThen g := by
  cases o <;> rfl

/-- A sequence that returns has returned from both its parts. -/
theorem andThen_eq_returned {o : Outcome ε α σ} {f : α → σ → Outcome ε β σ} {b : β} {t : σ} :
    o.andThen f = returned b t ↔ ∃ a s, o = returned a s ∧ f a s = returned b t := by
  cases o <;> simp

@[simp] theorem mapValue_returned (f : α → β) (a : α) (s : σ) :
    (returned a s : Outcome ε α σ).mapValue f = returned (f a) s := rfl

@[simp] theorem mapValue_raised (f : α → β) (e : ε) (s : σ) :
    (raised e s : Outcome ε α σ).mapValue f = raised e s := rfl

@[simp] theorem mapValue_starved (f : α → β) (s : σ) :
    (starved s : Outcome ε α σ).mapValue f = starved s := rfl

@[simp] theorem settled_returned (a : α) (s : σ) : (returned a s : Outcome ε α σ).Settled := trivial

@[simp] theorem settled_raised (e : ε) (s : σ) : (raised e s : Outcome ε α σ).Settled := trivial

@[simp] theorem not_settled_starved (s : σ) : ¬ (starved s : Outcome ε α σ).Settled := id

end Outcome

namespace Reader

variable {ε α β : Type}

/-- Sequencing: graft the continuation at the values of the tree. -/
def bind : Reader ε α → (α → Reader ε β) → Reader ε β
  | done a, f => f a
  | raise e, _ => raise e
  | receiveString n next, f => receiveString n fun s => (next s).bind f
  | receiveChar next, f => receiveChar fun c => (next c).bind f
  | scan p c next, f => scan p c fun cs d => (next cs d).bind f

instance : Monad (Reader ε) where
  pure := done
  bind := bind

/-- Sequencing twice is one sequence. -/
theorem bind_assoc {γ : Type} (m : Reader ε α) (f : α → Reader ε β) (g : β → Reader ε γ) :
    (m.bind f).bind g = m.bind fun a => (f a).bind g := by
  induction m with
  | done a => rfl
  | raise e => rfl
  | receiveString n next ih => exact congrArg _ (funext ih)
  | receiveChar next ih => exact congrArg _ (funext ih)
  | scan p c next ih => exact congrArg _ (funext fun cs => funext fun d => ih cs d)

theorem bind_done (m : Reader ε α) : m.bind done = m := by
  induction m with
  | done a => rfl
  | raise e => rfl
  | receiveString n next ih => exact congrArg _ (funext ih)
  | receiveChar next ih => exact congrArg _ (funext ih)
  | scan p c next ih => exact congrArg _ (funext fun cs => funext fun d => ih cs d)

instance : LawfulMonad (Reader ε) :=
  LawfulMonad.mk' (Reader ε) bind_done (fun _ _ => rfl) bind_assoc

/-- Read `n` bytes. -/
def string (n : ℕ) : Reader ε (List UInt8) := receiveString n done

/-- Read one byte. -/
def char : Reader ε UInt8 := receiveChar done

/-- The loop `while c in p: s = f(s, c); c = receive_char()`, which ends with the
accumulator and the first byte outside `p`. -/
def whileIn {σ : Type} (p : UInt8 → Bool) (f : σ → UInt8 → σ) (s : σ) (c : UInt8) :
    Reader ε (σ × UInt8) :=
  scan p c fun cs d => done (cs.foldl f s, d)

/-- Run a program `n` times and collect its values, as `for i in range(n)` does. -/
def times (m : Reader ε α) : ℕ → Reader ε (List α)
  | 0 => pure []
  | n + 1 => do
    let a ← m
    let as ← m.times n
    return a :: as

/-- The scanning loop on a list: the bytes passed over, the byte that stopped the
loop and what follows it. -/
def scanList (p : UInt8 → Bool) : UInt8 → List UInt8 → Option (List UInt8 × UInt8 × List UInt8)
  | c, [] => if p c then none else some ([], c, [])
  | c, d :: s => if p c then (scanList p d s).map fun r => (c :: r.1, r.2) else some ([], c, d :: s)

/-- The meaning of a program on the list of all bytes that are ever to arrive. -/
def run : Reader ε α → List UInt8 → Outcome ε α (List UInt8)
  | done a, s => .returned a s
  | raise e, s => .raised e s
  | receiveString n next, s => if n ≤ s.length then (next (s.take n)).run (s.drop n) else .starved s
  | receiveChar next, s =>
    match s with
    | [] => .starved []
    | c :: r => (next c).run r
  | scan p c next, s =>
    match scanList p c s with
    | none => .starved s
    | some (cs, d, r) => (next cs d).run r

@[simp] theorem raise_bind (e : ε) (f : α → Reader ε β) : (raise e >>= f) = raise e := rfl

@[simp] theorem run_done (a : α) (s : List UInt8) :
    (done a : Reader ε α).run s = .returned a s := rfl

@[simp] theorem run_pure (a : α) (s : List UInt8) :
    (pure a : Reader ε α).run s = .returned a s := rfl

@[simp] theorem run_raise (e : ε) (s : List UInt8) :
    (raise e : Reader ε α).run s = .raised e s := rfl

/-- A sequence runs its second part on what the first part left. -/
@[simp] theorem run_bind (m : Reader ε α) (f : α → Reader ε β) (s : List UInt8) :
    (m >>= f).run s = (m.run s).andThen fun a r => (f a).run r := by
  change (m.bind f).run s = _
  induction m generalizing s with
  | done a => rfl
  | raise e => rfl
  | receiveString n next ih =>
    simp only [bind, run]
    split
    · exact ih _ _
    · rfl
  | receiveChar next ih =>
    cases s with
    | nil => rfl
    | cons c r => exact ih c r
  | scan p c next ih =>
    simp only [bind, run]
    cases scanList p c s with
    | none => rfl
    | some r => exact ih _ _ _

@[simp] theorem run_map (f : α → β) (m : Reader ε α) (s : List UInt8) :
    (f <$> m).run s = (m.run s).mapValue f := by
  change (m >>= fun a => pure (f a)).run s = _
  rw [run_bind]
  cases m.run s <;> rfl

theorem run_string {n : ℕ} {s : List UInt8} (h : n ≤ s.length) :
    (string n : Reader ε _).run s = .returned (s.take n) (s.drop n) := by
  simp [string, run, h]

@[simp] theorem run_string_append (cs s : List UInt8) :
    (string cs.length : Reader ε _).run (cs ++ s) = .returned cs s := by
  rw [run_string (by simp)]
  simp

@[simp] theorem run_char_cons (c : UInt8) (s : List UInt8) :
    (char : Reader ε _).run (c :: s) = .returned c s := rfl

/-- A byte outside the set stops the loop at once. -/
theorem scanList_stop {p : UInt8 → Bool} {c : UInt8} (h : p c = false) (s : List UInt8) :
    scanList p c s = some ([], c, s) := by
  cases s <;> simp [scanList, h]

/-- A run of bytes in the set is passed over up to the first byte outside it. -/
theorem scanList_append {p : UInt8 → Bool} {c : UInt8} {cs s : List UInt8} {d : UInt8}
    (hc : p c = true) (hcs : ∀ x ∈ cs, p x = true) (hd : p d = false) :
    scanList p c (cs ++ d :: s) = some (c :: cs, d, s) := by
  induction cs generalizing c with
  | nil => simp [scanList, hc, scanList_stop hd]
  | cons x cs ih =>
    have hrec := ih (hcs x (by simp)) (fun y hy => hcs y (by simp [hy]))
    simp [scanList, hc, hrec]

/-- The bytes of the input are those passed over, the stopping byte and the rest. -/
theorem scanList_bytes {p : UInt8 → Bool} {c : UInt8} {s cs r : List UInt8} {d : UInt8}
    (h : scanList p c s = some (cs, d, r)) : c :: s = cs ++ d :: r := by
  induction s generalizing c cs with
  | nil =>
    simp only [scanList] at h
    split at h <;> simp_all
  | cons x s ih =>
    simp only [scanList] at h
    split at h
    · obtain ⟨⟨cs', d', r'⟩, hrec, heq⟩ := Option.map_eq_some_iff.mp h
      simp only [Prod.mk.injEq] at heq
      obtain ⟨rfl, rfl, rfl⟩ := heq
      simp [ih hrec]
    · simp_all

/-- A loop that stopped does not see the bytes that come later. -/
theorem scanList_append_right {p : UInt8 → Bool} {c : UInt8} {s cs r : List UInt8} {d : UInt8}
    (h : scanList p c s = some (cs, d, r)) (t : List UInt8) :
    scanList p c (s ++ t) = some (cs, d, r ++ t) := by
  induction s generalizing c cs with
  | nil =>
    simp only [scanList] at h
    split at h
    · simp at h
    · next hc =>
      simp only [Option.some.injEq, Prod.mk.injEq] at h
      obtain ⟨rfl, rfl, rfl⟩ := h
      exact scanList_stop (by simpa using hc) _
  | cons x s ih =>
    simp only [scanList] at h
    simp only [List.cons_append, scanList]
    split at h
    · next hc =>
      obtain ⟨⟨cs', d', r'⟩, hrec, heq⟩ := Option.map_eq_some_iff.mp h
      simp only [Prod.mk.injEq] at heq
      obtain ⟨rfl, rfl, rfl⟩ := heq
      simp [hc, ih hrec]
    · next hc =>
      simp only [Option.some.injEq, Prod.mk.injEq] at h
      obtain ⟨rfl, rfl, rfl⟩ := h
      simp [hc]

/-- **Prefix stability.** A program that settles on some bytes settles in the same
way when more bytes follow, and leaves those bytes unread. -/
theorem run_append (m : Reader ε α) {s : List UInt8} (h : (m.run s).Settled) (t : List UInt8) :
    m.run (s ++ t) = (m.run s).mapRest (· ++ t) := by
  induction m generalizing s with
  | done a => rfl
  | raise e => rfl
  | receiveString n next ih =>
    by_cases hn : n ≤ s.length
    · have hn' : n ≤ (s ++ t).length := by simp; omega
      simp only [run, hn, if_true] at h
      simp only [run, hn, hn', if_true]
      rw [List.take_append_of_le_length hn, List.drop_append_of_le_length hn]
      exact ih _ h
    · simp [run, hn] at h
  | receiveChar next ih =>
    cases s with
    | nil => simp [run] at h
    | cons c r => exact ih c h
  | scan p c next ih =>
    cases hscan : scanList p c s with
    | none => simp [run, hscan] at h
    | some r =>
      obtain ⟨cs, d, r⟩ := r
      simp only [run, hscan] at h
      simp only [run, hscan, scanList_append_right hscan]
      exact ih cs d h

/-! ## The bytes that a program takes -/

/-- Remember that some bytes were taken before. -/
def after (bytes : List UInt8) (m : Reader ε (α × List UInt8)) : Reader ε (α × List UInt8) :=
  (fun x => (x.1, bytes ++ x.2)) <$> m

/-- The program that also returns the bytes that it took. -/
def consume : Reader ε α → Reader ε (α × List UInt8)
  | done a => done (a, [])
  | raise e => raise e
  | receiveString n next => receiveString n fun s => after s (next s).consume
  | receiveChar next => receiveChar fun c => after [c] (next c).consume
  | scan p c next => scan p c fun cs d => after (cs ++ [d]).tail (next cs d).consume

/-- Apart from the bytes, the program does what it did. -/
theorem fst_consume (m : Reader ε α) : Prod.fst <$> m.consume = m := by
  have hafter : ∀ bytes (m : Reader ε (α × List UInt8)),
      Prod.fst <$> after bytes m = Prod.fst <$> m :=
    fun bytes m => (comp_map _ _ m).symm
  induction m with
  | done a => rfl
  | raise e => rfl
  | receiveString n next ih =>
    exact congrArg _ (funext fun s => (hafter s _).trans (ih s))
  | receiveChar next ih =>
    exact congrArg _ (funext fun c => (hafter [c] _).trans (ih c))
  | scan p c next ih =>
    exact congrArg _ (funext fun cs => funext fun d => (hafter _ _).trans (ih cs d))

/-- A continuation that ignores the bytes cannot tell the programs apart. -/
theorem consume_bind_fst (m : Reader ε α) (f : α → Reader ε β) :
    (m.consume >>= fun x => f x.1) = m >>= f := by
  conv_rhs => rw [← m.fst_consume]
  rw [bind_map_left]

private theorem run_after {b s r : List UInt8} {a : α} {m : Reader ε α}
    (h : ∃ taken, s = taken ++ r ∧ m.consume.run s = .returned (a, taken) r) :
    ∃ taken, b ++ s = taken ++ r ∧ (after b m.consume).run s = .returned (a, taken) r := by
  obtain ⟨taken, rfl, hrun⟩ := h
  exact ⟨b ++ taken, by simp, by simp [after, hrun]⟩

/-- A program that returns took the bytes in front of those that it left. -/
theorem run_consume {m : Reader ε α} {s r : List UInt8} {a : α} (h : m.run s = .returned a r) :
    ∃ taken, s = taken ++ r ∧ m.consume.run s = .returned (a, taken) r := by
  induction m generalizing s with
  | done b =>
    obtain ⟨rfl, rfl⟩ : b = a ∧ s = r := by simpa using h
    exact ⟨[], rfl, rfl⟩
  | raise e => simp at h
  | receiveString n next ih =>
    simp only [run] at h
    split at h
    · next hn =>
      obtain ⟨taken, htaken, hrun⟩ := run_after (ih _ h)
      exact ⟨taken, by rw [← htaken, List.take_append_drop], by simpa [consume, run, hn] using hrun⟩
    · simp at h
  | receiveChar next ih =>
    cases s with
    | nil => simp [run] at h
    | cons c s => exact run_after (b := [c]) (ih c h)
  | scan p c next ih =>
    simp only [run] at h
    cases hscan : scanList p c s with
    | none => simp [hscan] at h
    | some out =>
      obtain ⟨cs, d, t⟩ := out
      simp only [hscan] at h
      obtain ⟨taken, htaken, hrun⟩ := run_after (ih cs d h)
      refine ⟨taken, ?_, by simpa [consume, run, hscan] using hrun⟩
      have hbytes := congrArg List.tail (scanList_bytes hscan)
      rw [← htaken]
      cases cs <;> simpa using hbytes

end Reader

end Pylyskom
