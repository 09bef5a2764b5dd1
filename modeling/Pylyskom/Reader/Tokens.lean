import Pylyskom.Reader.Program
import Mathlib.Computability.Language

/-!
# Reading space-separated tokens

A text form is a language of token lists, written with one separator between two
tokens. Reading programs differ in whether they take the byte after their last
token; `Reads` records which, and its rules compose such programs in sequence and
in loops whatever they do with that byte.
-/

namespace Pylyskom

/-- The bytes that a program skips before a token, and the one that separates tokens. -/
structure Spacing where
  skip : UInt8 → Bool
  sep : UInt8
  skip_sep : skip sep = true

namespace Spacing

variable (S : Spacing)

/-- Tokens written in one line, with a separator between two of them. -/
def text (ts : List (List UInt8)) : List UInt8 := [S.sep].intercalate ts

@[simp] theorem text_nil : S.text [] = [] := rfl

@[simp] theorem text_singleton (t : List UInt8) : S.text [t] = t := by
  simp [text, List.intercalate]

/-- Two nonempty lines are joined by a separator. -/
theorem text_append {ts us : List (List UInt8)} (hts : ts ≠ []) (hus : us ≠ []) :
    S.text (ts ++ us) = S.text ts ++ S.sep :: S.text us := by
  induction ts with
  | nil => contradiction
  | cons t ts ih =>
    cases ts with
    | nil =>
      obtain ⟨u, us, rfl⟩ := List.exists_cons_of_ne_nil hus
      simp [text, List.intercalate]
    | cons t' ts =>
      have hrec := ih (by simp)
      simp only [text, List.intercalate, List.cons_append] at hrec ⊢
      simp only [List.intersperse_cons_cons, List.flatten_cons, hrec, List.append_assoc]

theorem text_cons {t : List UInt8} {us : List (List UInt8)} (hus : us ≠ []) :
    S.text (t :: us) = t ++ S.sep :: S.text us := by
  have h := S.text_append (List.cons_ne_nil t []) hus
  simpa using h

/-- A byte before the first token. -/
theorem text_cons_cons (c : UInt8) (t : List UInt8) (us : List (List UInt8)) :
    S.text ((c :: t) :: us) = c :: S.text (t :: us) := by
  cases us with
  | nil => simp
  | cons u us => simp [text_cons]

/-- Nonempty lines that are joined by separators. -/
theorem intercalate_text (tss : List (List (List UInt8))) (h : ∀ ts ∈ tss, ts ≠ []) :
    [S.sep].intercalate (tss.map S.text) = S.text tss.flatten := by
  induction tss with
  | nil => rfl
  | cons ts tss ih =>
    have hrest := ih fun us hus => h us (List.mem_cons_of_mem ts hus)
    cases tss with
    | nil => simp [List.intercalate]
    | cons us tss =>
      have hts : ts ≠ [] := h ts List.mem_cons_self
      have hne : (us :: tss).flatten ≠ [] := by simp [h us (by simp)]
      rw [List.flatten_cons, S.text_append hts hne, ← hrest]
      simp [List.intercalate]

/-- What a program that ends after its last token leaves of the byte that follows. -/
def leave (eats : Bool) (d : UInt8) (rest : List UInt8) : List UInt8 :=
  if eats then rest else d :: rest

@[simp] theorem leave_true (d : UInt8) (rest : List UInt8) : leave true d rest = rest := rfl

@[simp] theorem leave_false (d : UInt8) (rest : List UInt8) : leave false d rest = d :: rest := rfl

variable {ε α β : Type}

/-- `m` reads `a` from every token list of `L`, after any skippable bytes and before
any skippable byte, which it takes exactly if `eats` is set. -/
def Reads (m : Reader ε α) (a : α) (L : Language (List UInt8)) (eats : Bool) : Prop :=
  ∀ ts ∈ L, ts ≠ [] ∧ ∀ pre : List UInt8, (∀ c ∈ pre, S.skip c = true) →
    ∀ d, S.skip d = true → ∀ rest,
      m.run (pre ++ S.text ts ++ d :: rest) = .returned a (leave eats d rest)

variable {S}

/-- The bytes left after a first program are what a second one may start on. -/
private theorem run_leave {m : Reader ε α} {a : α} {L : Language (List UInt8)} {eats : Bool}
    (h : S.Reads m a L eats) (before : Bool) {ts : List (List UInt8)} (hts : ts ∈ L)
    {d : UInt8} (hd : S.skip d = true) (rest : List UInt8) :
    m.run (leave before S.sep (S.text ts ++ d :: rest)) = .returned a (leave eats d rest) := by
  obtain ⟨_, hrun⟩ := h ts hts
  cases before with
  | true => simpa using hrun [] (by simp) d hd rest
  | false => simpa using hrun [S.sep] (by simp [S.skip_sep]) d hd rest

/-- The bytes that reading a line takes are the line, and the byte after it if that is eaten. -/
theorem Reads.consume {m : Reader ε α} {a : α} {L : Language (List UInt8)} {eats : Bool}
    (h : S.Reads m a L eats) {ts : List (List UInt8)} (hts : ts ∈ L) {d : UInt8}
    (hd : S.skip d = true) (rest : List UInt8) :
    m.consume.run (S.text ts ++ d :: rest) =
      .returned (a, S.text ts ++ if eats then [d] else []) (leave eats d rest) := by
  obtain ⟨_, hrun⟩ := h ts hts
  obtain ⟨taken, htaken, hconsume⟩ := Reader.run_consume (hrun [] (by simp) d hd rest)
  have heq : taken = S.text ts ++ if eats then [d] else [] := by
    have hsame : taken ++ leave eats d rest =
        (S.text ts ++ if eats then [d] else []) ++ leave eats d rest := by
      rw [← htaken]
      cases eats <;> simp
    exact List.append_cancel_right hsame
  simpa [heq] using hconsume

/-- Reading a first part and then a second one reads their concatenation. -/
theorem Reads.bind {m : Reader ε α} {f : α → Reader ε β} {a : α} {b : β}
    {L M : Language (List UInt8)} {before eats : Bool}
    (hm : S.Reads m a L before) (hf : S.Reads (f a) b M eats) :
    S.Reads (m >>= f) b (L * M) eats := by
  intro ts hts
  obtain ⟨us, hus, vs, hvs, rfl⟩ := Language.mem_mul.mp hts
  obtain ⟨husne, hurun⟩ := hm us hus
  obtain ⟨hvsne, _⟩ := hf vs hvs
  refine ⟨by simp [husne], fun pre hpre d hd rest => ?_⟩
  have hfirst := hurun pre hpre S.sep S.skip_sep (S.text vs ++ d :: rest)
  rw [S.text_append husne hvsne, Reader.run_bind]
  simp only [List.append_assoc, List.cons_append] at hfirst ⊢
  rw [hfirst]
  exact run_leave hf before hvs hd rest

/-- A continuation that only returns takes no further bytes. -/
theorem Reads.bind_of_eq_pure {m : Reader ε α} {f : α → Reader ε β} {a : α} {b : β}
    {L : Language (List UInt8)} {eats : Bool} (hm : S.Reads m a L eats) (hf : f a = pure b) :
    S.Reads (m >>= f) b L eats := by
  intro ts hts
  obtain ⟨hne, hrun⟩ := hm ts hts
  refine ⟨hne, fun pre hpre d hd rest => ?_⟩
  rw [Reader.run_bind, hrun pre hpre d hd rest, Outcome.andThen_returned, hf]
  rfl

variable (S) in
/-- What may follow a program that takes its delimiter: further tokens, or nothing. -/
def ReadsTail (m : Reader ε α) (a : α) (L : Language (List UInt8)) (eats : Bool) : Prop :=
  (m = pure a ∧ L = 1 ∧ eats = true) ∨ S.Reads m a L eats

theorem Reads.tail {m : Reader ε α} {a : α} {L : Language (List UInt8)} {eats : Bool}
    (h : S.Reads m a L eats) : S.ReadsTail m a L eats := Or.inr h

theorem ReadsTail.pure {a : α} : S.ReadsTail (pure a : Reader ε α) a 1 true :=
  Or.inl ⟨rfl, rfl, rfl⟩

/-- Reading a first part that takes its delimiter, and then what may follow it. -/
theorem Reads.bind_tail {m : Reader ε α} {f : α → Reader ε β} {a : α} {b : β}
    {L M : Language (List UInt8)} {eats : Bool}
    (hm : S.Reads m a L true) (hf : S.ReadsTail (f a) b M eats) :
    S.Reads (m >>= f) b (L * M) eats := by
  rcases hf with ⟨hpure, rfl, rfl⟩ | hf
  · rw [mul_one]
    exact hm.bind_of_eq_pure hpure
  · exact hm.bind hf

/-- A value computed from what was read takes no further bytes. -/
theorem Reads.bind_pure {m : Reader ε α} {g : α → β} {a : α} {L : Language (List UInt8)}
    {eats : Bool} (hm : S.Reads m a L eats) : S.Reads (m >>= fun x => pure (g x)) (g a) L eats :=
  hm.bind_of_eq_pure rfl

theorem ReadsTail.bind_pure {m : Reader ε α} {g : α → β} {a : α} {L : Language (List UInt8)}
    {eats : Bool} (hm : S.ReadsTail m a L eats) :
    S.ReadsTail (m >>= fun x => Pure.pure (g x)) (g a) L eats := by
  rcases hm with ⟨rfl, rfl, rfl⟩ | hm
  · exact ReadsTail.pure
  · exact hm.bind_pure.tail

theorem Reads.map {m : Reader ε α} {g : α → β} {a : α} {L : Language (List UInt8)}
    {eats : Bool} (hm : S.Reads m a L eats) : S.Reads (g <$> m) (g a) L eats :=
  hm.bind_pure

/-- A value with two text forms. -/
theorem Reads.add {m : Reader ε α} {a : α} {L M : Language (List UInt8)} {eats : Bool}
    (hL : S.Reads m a L eats) (hM : S.Reads m a M eats) : S.Reads m a (L + M) eats := by
  rintro ts (hts | hts)
  · exact hL ts hts
  · exact hM ts hts

/-- There is nothing to read in an empty set of texts. -/
theorem Reads.zero {m : Reader ε α} {a : α} {eats : Bool} : S.Reads m a 0 eats :=
  fun ts hts => absurd hts (Language.notMem_zero ts)

/-- A first part that is followed by nothing more than the last part of a record. -/
theorem Reads.prod_one {m : Reader ε α} {a : α} {L : Language (List UInt8)} {eats : Bool}
    (hm : S.Reads m a L eats) : S.Reads m a (L * 1) eats := by
  simpa using hm

/-- A program that reads every element of a list, run as often as the list is long,
reads the list; `f` reads what closes it. -/
theorem Reads.times {m : Reader ε α} {f : List α → Reader ε β} {as : List α} {b : β}
    {text : α → Language (List UInt8)} {M : Language (List UInt8)} {before eats : Bool}
    (hm : ∀ a ∈ as, S.Reads m a (text a) before) (hf : S.Reads (f as) b M eats) :
    S.Reads (m.times as.length >>= f) b ((as.map text).prod * M) eats := by
  induction as generalizing f with
  | nil => simpa [Reader.times] using hf
  | cons a as ih =>
    have hrest : S.Reads (m.times as.length >>= fun as => f (a :: as)) b
        ((as.map text).prod * M) eats :=
      ih (fun x hx => hm x (by simp [hx])) hf
    have hbind := (hm a (by simp)).bind (f := fun a => m.times as.length >>= fun as => f (a :: as))
      hrest
    simpa only [List.length_cons, Reader.times, LawfulMonad.bind_assoc, pure_bind, List.map_cons,
      List.prod_cons, mul_assoc] using hbind

end Spacing

end Pylyskom
