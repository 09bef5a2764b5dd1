import Pylyskom.Collections.Lists
import Pylyskom.Datatypes

/-!
# Which bytes are read as integers

The readers of `protocol.py` on arbitrary bytes. They take any byte for the end of an
integer, and an integer may have no digits, in which case it is 0.
-/

namespace Pylyskom

/-! ## Integers -/

/-- White space, the digits of `n`, which may be none, and the byte `d` that ends them. -/
def IntText (t : Bytes) (n : ℕ) (d : UInt8) : Prop :=
  ∃ pre num, t = pre ++ (num ++ [d]) ∧ (∀ c ∈ pre, whitespace.contains c = true) ∧
    (∀ c ∈ num, digits.contains c = true) ∧ digits.contains d = false ∧
    (num = [] → whitespace.contains d = false) ∧ n = PyFloat.digitsValue num

/-- The loops run out of bytes if none ends them. -/
theorem scanList_of_all {p : UInt8 → Bool} {c : UInt8} {s : Bytes} (hc : p c = true)
    (hs : ∀ x ∈ s, p x = true) : Reader.scanList p c s = none := by
  induction s generalizing c with
  | nil => simp [Reader.scanList, hc]
  | cons x s ih =>
    have hrest := ih (hs x List.mem_cons_self) fun y hy => hs y (List.mem_cons_of_mem x hy)
    simp [Reader.scanList, hc, hrest]

theorem readFirstNonWs_starved {b : Bytes} (h : ∀ c ∈ b, whitespace.contains c = true) :
    ∃ r, readFirstNonWs.run b = .starved r := by
  cases b with
  | nil => exact ⟨[], rfl⟩
  | cons c b =>
    have hscan := scanList_of_all (h c List.mem_cons_self) fun x hx =>
      h x (List.mem_cons_of_mem c hx)
    exact ⟨b, by simp [readFirstNonWs, Reader.whileIn, Reader.run, hscan]⟩

/-- The first byte that is no white space is found if there is one. -/
theorem readFirstNonWs_cases (b : Bytes) :
    (∃ r, readFirstNonWs.run b = .starved r) ∨
      ∃ pre c rest, b = pre ++ c :: rest ∧ (∀ x ∈ pre, whitespace.contains x = true) ∧
        whitespace.contains c = false ∧ readFirstNonWs.run b = .returned c rest := by
  obtain ⟨pre, t, rfl, hpre, rfl | ⟨c, rest, rfl, hc⟩⟩ := exists_front whitespace.contains b
  · exact Or.inl (readFirstNonWs_starved (by simpa using hpre))
  · exact Or.inr ⟨pre, c, rest, rfl, hpre, hc, run_readFirstNonWs hpre hc rest⟩

/-- An integer is read up to the byte that ends it, which is read as well. -/
theorem run_readIntAndNext_text {t : Bytes} {n : ℕ} {d : UInt8} (h : IntText t n d)
    (rest : Bytes) : readIntAndNext.run (t ++ rest) = .returned (n, d) rest := by
  obtain ⟨pre, num, rfl, hpre, hnum, hd, hempty, rfl⟩ := h
  cases num with
  | nil =>
    have hfirst := run_readFirstNonWs hpre (hempty rfl) rest
    simp only [List.nil_append, List.append_assoc, List.singleton_append]
    simp [readIntAndNext, hfirst, Reader.whileIn, Reader.run, Reader.scanList_stop hd,
      PyFloat.digitsValue]
  | cons c num =>
    have hc := hnum c List.mem_cons_self
    have hfirst := run_readFirstNonWs hpre (not_whitespace_of_digit hc) (num ++ d :: rest)
    have hscan := Reader.scanList_append (s := rest) hc
      (fun x hx => hnum x (List.mem_cons_of_mem c hx)) hd
    simp only [List.append_assoc, List.cons_append, List.nil_append]
    simp [readIntAndNext, hfirst, Reader.whileIn, Reader.run, hscan, PyFloat.digitsValue]

/-- Without such a byte the buffer ends, and nothing else can happen. -/
theorem readIntAndNext_cases (b : Bytes) :
    (∃ r, readIntAndNext.run b = .starved r) ∨
      ∃ t n d rest, b = t ++ rest ∧ IntText t n d := by
  rcases readFirstNonWs_cases b with ⟨r, hr⟩ | ⟨pre, c, s, rfl, hpre, hc, hfirst⟩
  · exact Or.inl ⟨r, by simp [readIntAndNext, hr]⟩
  · obtain ⟨num, u, heq, hnum, rfl | ⟨d, rest, rfl, hd⟩⟩ := exists_front digits.contains (c :: s)
    · left
      rw [List.append_nil] at heq
      have hscan := scanList_of_all (s := s) (hnum c (heq ▸ List.mem_cons_self)) fun x hx =>
        hnum x (heq ▸ List.mem_cons_of_mem c hx)
      exact ⟨s, by simp [readIntAndNext, hfirst, Reader.whileIn, Reader.run, hscan]⟩
    · right
      refine ⟨pre ++ (num ++ [d]), PyFloat.digitsValue num, d, rest, ?_, pre, num, rfl, hpre,
        hnum, hd, ?_, rfl⟩
      · rw [heq]
        simp
      · rintro rfl
        obtain ⟨rfl, -⟩ := List.cons.inj heq
        exact hc

theorem run_readInt_text {t : Bytes} {n : ℕ} {d : UInt8} (h : IntText t n d) (rest : Bytes) :
    readInt.run (t ++ rest) = .returned n rest := by
  simp [readInt, run_readIntAndNext_text h rest]

theorem readInt_cases (b : Bytes) :
    (∃ r, readInt.run b = .starved r) ∨ ∃ t n d rest, b = t ++ rest ∧ IntText t n d := by
  rcases readIntAndNext_cases b with ⟨r, hr⟩ | htext
  · exact Or.inl ⟨r, by simp [readInt, hr]⟩
  · exact Or.inr htext

/-! ## Arrays of integers -/

/-- Integers one after the other. -/
def IntTexts : List Bytes → List ℕ → Prop := List.Forall₂ fun t n => ∃ d, IntText t n d

theorem run_times_readInt {ts : List Bytes} {ns : List ℕ} (h : IntTexts ts ns) (rest : Bytes) :
    (readInt.times ns.length).run (ts.flatten ++ rest) = .returned ns rest := by
  induction h with
  | nil => rfl
  | @cons t n ts ns htext _ ih =>
    obtain ⟨d, htext⟩ := htext
    have hfirst := run_readInt_text htext (ts.flatten ++ rest)
    rw [List.flatten_cons, List.append_assoc, List.length_cons, Reader.times, Reader.run_bind,
      hfirst, Outcome.andThen_returned, Reader.run_bind, ih]
    rfl

theorem times_readInt_cases (n : ℕ) (b : Bytes) :
    (∃ r, (readInt.times n).run b = .starved r) ∨
      ∃ ts ns rest, b = ts.flatten ++ rest ∧ ns.length = n ∧ IntTexts ts ns := by
  induction n generalizing b with
  | zero => exact Or.inr ⟨[], [], b, rfl, rfl, .nil⟩
  | succ n ih =>
    rcases readInt_cases b with ⟨r, hr⟩ | ⟨t, k, d, s, rfl, htext⟩
    · exact Or.inl ⟨r, by simp [Reader.times, hr]⟩
    · have hfirst := run_readInt_text htext s
      rcases ih s with ⟨r, hr⟩ | ⟨ts, ns, rest, rfl, rfl, htexts⟩
      · exact Or.inl ⟨r, by simp [Reader.times, hfirst, hr]⟩
      · exact Or.inr ⟨t :: ts, k :: ns, rest, by simp, rfl, .cons ⟨d, htext⟩ htexts⟩

/-- The bytes that are read as an array: its length, and a star or as many integers in
braces. -/
inductive ArrayText : Bytes → List ℕ → Prop
  | star {head pre : Bytes} {length : ℕ} {d : UInt8} (hhead : IntText head length d)
      (hpre : ∀ c ∈ pre, whitespace.contains c = true) :
      ArrayText (head ++ (pre ++ ['*'.toUInt8])) []
  | braces {head pre pre' : Bytes} {ts : List Bytes} {ns : List ℕ} {d : UInt8}
      (hhead : IntText head ns.length d) (hpre : ∀ c ∈ pre, whitespace.contains c = true)
      (htexts : IntTexts ts ns) (hpre' : ∀ c ∈ pre', whitespace.contains c = true) :
      ArrayText (head ++ (pre ++ '\x7b'.toUInt8 :: (ts.flatten ++ (pre' ++ ['\x7d'.toUInt8])))) ns

theorem run_arrayInt32_text {t : Bytes} {ns : List ℕ} (h : ArrayText t ns) (rest : Bytes) :
    ArrayInt32.parse.run (t ++ rest) = .returned ns rest := by
  cases h with
  | @star head pre length d hhead hpre =>
    have hlength := run_readInt_text hhead (pre ++ '*'.toUInt8 :: rest)
    have hleft := run_readFirstNonWs hpre (show whitespace.contains '*'.toUInt8 = false by decide)
      rest
    simp only [List.append_assoc, List.cons_append, List.nil_append]
    simp [ArrayInt32.parse, Array.parse, hlength, hleft]
  | @braces head pre pre' ts ns d hhead hpre htexts hpre' =>
    have hlength := run_readInt_text hhead
      (pre ++ '\x7b'.toUInt8 :: (ts.flatten ++ (pre' ++ '\x7d'.toUInt8 :: rest)))
    have hleft := run_readFirstNonWs hpre
      (show whitespace.contains '\x7b'.toUInt8 = false by decide)
      (ts.flatten ++ (pre' ++ '\x7d'.toUInt8 :: rest))
    have hobj : (Int32.parse.times ns.length).run
        (ts.flatten ++ (pre' ++ '\x7d'.toUInt8 :: rest)) =
          .returned ns (pre' ++ '\x7d'.toUInt8 :: rest) := run_times_readInt htexts _
    have hright := run_readFirstNonWs hpre'
      (show whitespace.contains '\x7d'.toUInt8 = false by decide) rest
    have hne : '\x7b'.toUInt8 ≠ '*'.toUInt8 := by decide
    simp only [List.append_assoc, List.cons_append, List.nil_append]
    simp [ArrayInt32.parse, Array.parse, hlength, hleft, hobj, hright, hne]

/-- On other bytes the buffer ends or `ProtocolError` is raised. -/
theorem arrayInt32_cases (b : Bytes) :
    (∃ r, ArrayInt32.parse.run b = .starved r) ∨
      (∃ r, ArrayInt32.parse.run b = .raised (.localError (.protocolError none)) r) ∨
      ∃ t ns rest, b = t ++ rest ∧ ArrayText t ns := by
  rcases readInt_cases b with ⟨r, hr⟩ | ⟨head, length, d, s, rfl, hhead⟩
  · exact Or.inl ⟨r, by simp [ArrayInt32.parse, Array.parse, hr]⟩
  have hlength := run_readInt_text hhead s
  rcases readFirstNonWs_cases s with ⟨r, hr⟩ | ⟨pre, left, s, rfl, hpre, -, hleft⟩
  · exact Or.inl ⟨r, by simp [ArrayInt32.parse, Array.parse, hlength, hr]⟩
  by_cases hstar : left = '*'.toUInt8
  · subst hstar
    exact Or.inr (Or.inr ⟨_, [], s, by simp, .star hhead hpre⟩)
  by_cases hbrace : left = '\x7b'.toUInt8
  · subst hbrace
    rcases times_readInt_cases length s with ⟨r, hr⟩ | ⟨ts, ns, s, rfl, rfl, htexts⟩
    · have hr' : (Int32.parse.times length).run s = .starved r := hr
      exact Or.inl ⟨r, by simp [ArrayInt32.parse, Array.parse, hlength, hleft, hr', hstar]⟩
    have hobj : (Int32.parse.times ns.length).run (ts.flatten ++ s) = .returned ns s :=
      run_times_readInt htexts s
    rcases readFirstNonWs_cases s with ⟨r, hr⟩ | ⟨pre', right, rest, rfl, hpre', -, hright⟩
    · exact Or.inl ⟨r, by simp [ArrayInt32.parse, Array.parse, hlength, hleft, hobj, hr, hstar]⟩
    by_cases hend : right = '\x7d'.toUInt8
    · subst hend
      exact Or.inr (Or.inr ⟨_, ns, rest, by simp, .braces hhead hpre htexts hpre'⟩)
    · exact Or.inr (Or.inl ⟨rest, by
        simp [ArrayInt32.parse, Array.parse, hlength, hleft, hobj, hright, hstar, hend,
          protocolError]⟩)
  · exact Or.inr (Or.inl ⟨s, by
      simp [ArrayInt32.parse, Array.parse, hlength, hleft, hstar, hbrace, protocolError]⟩)

/-- The integer arrays are read from these bytes and no others, and no other exception than
`ProtocolError` is raised. -/
theorem arrayInt32_parse_iff (b : Bytes) :
    (∀ ns rest, ArrayInt32.parse.run b = .returned ns rest ↔
        ∃ t, b = t ++ rest ∧ ArrayText t ns) ∧
      ∀ e rest, ArrayInt32.parse.run b = .raised e rest →
        e = .localError (.protocolError none) := by
  constructor
  · intro ns rest
    constructor
    · intro h
      rcases arrayInt32_cases b with ⟨r, hr⟩ | ⟨r, hr⟩ | ⟨t, ns', rest', rfl, htext⟩
      · rw [hr] at h
        cases h
      · rw [hr] at h
        cases h
      · rw [run_arrayInt32_text htext] at h
        cases h
        exact ⟨t, rfl, htext⟩
    · rintro ⟨t, rfl, htext⟩
      exact run_arrayInt32_text htext rest
  · intro e rest h
    rcases arrayInt32_cases b with ⟨r, hr⟩ | ⟨r, hr⟩ | ⟨t, ns', rest', rfl, htext⟩
    · rw [hr] at h
      cases h
    · rw [hr] at h
      cases h
      rfl
    · rw [run_arrayInt32_text htext] at h
      cases h

/-- An array with white space around its tokens: a length, and a star or as many integers in
braces, all of them with digits. -/
def WellFormedArray (t : Bytes) (ns : List ℕ) : Prop :=
  ∃ pre num pre', (∀ c ∈ pre ++ pre', whitespace.contains c = true) ∧
    (∀ c ∈ num, digits.contains c = true) ∧ num ≠ [] ∧
    ((t = pre ++ num ++ pre' ++ ['*'.toUInt8] ∧ ns = []) ∨
      ∃ (ts : List (Bytes × Bytes)) (post : Bytes),
        t = pre ++ num ++ pre' ++ ['\x7b'.toUInt8] ++ (ts.map fun p => p.1 ++ p.2).flatten ++
          post ++ ['\x7d'.toUInt8] ∧
        (∀ p ∈ ts, (∀ c ∈ p.1, whitespace.contains c = true) ∧
          (∀ c ∈ p.2, digits.contains c = true) ∧ p.2 ≠ []) ∧
        (∀ c ∈ post, whitespace.contains c = true) ∧
        ns = ts.map (fun p => PyFloat.digitsValue p.2) ∧
        ts.length = PyFloat.digitsValue num)

theorem countP_digits_pos {num : Bytes} (h : ∀ c ∈ num, digits.contains c = true)
    (hne : num ≠ []) : 0 < num.countP digits.contains := by
  obtain ⟨c, s, rfl⟩ := List.exists_cons_of_ne_nil hne
  exact List.countP_pos_iff.mpr ⟨c, List.mem_cons_self, h c List.mem_cons_self⟩

/-- A brace is read as an integer. -/
theorem not_wellFormedArray_brace :
    ArrayInt32.parse.run (ascii "1 \x7b \x7d \x7d") = .returned [0] [] ∧
      ¬ WellFormedArray (ascii "1 \x7b \x7d \x7d") [0] := by
  refine ⟨by decide, ?_⟩
  rintro ⟨pre, num, pre', -, hnum, hne, ⟨-, hns⟩ | ⟨ts, post, ht, hts, -, hns, -⟩⟩
  · cases hns
  · obtain ⟨p, ts, rfl⟩ : ∃ p rest, ts = p :: rest := by
      cases ts with
      | nil => cases hns
      | cons p ts => exact ⟨p, ts, rfl⟩
    obtain ⟨-, hdigits, hne'⟩ := hts p List.mem_cons_self
    have hfirst := countP_digits_pos hnum hne
    have hsecond := countP_digits_pos hdigits hne'
    have hcount : (ascii "1 \x7b \x7d \x7d").countP digits.contains = 1 := by decide
    rw [ht] at hcount
    simp only [List.countP_append, List.map_cons, List.flatten_cons] at hcount
    omega

end Pylyskom
