import Pylyskom.ReadRanges
import Pylyskom.Errors

/-!
# Unread texts

`get_unread_texts_from_membership` of the two caching clients. It asks the server for a
mapping from local to global text numbers, gap by gap and then after the last read
range. What it returns depends on what the last argument of `local-to-global` counts.
-/

namespace Pylyskom

/-- `except NoSuchLocalText` -/
def Exn.isNoSuchLocalText : Exn → Bool
  | .serverError e => e.cls = .noSuchLocalText
  | _ => false

/-- The global numbers of the texts in a mapping that exist. -/
def TextMapping.texts (mapping : TextMapping) : List ℕ :=
  (mapping.list.map Prod.snd).filter (· ≠ 0)

namespace Unread

variable (localToGlobal : ℕ → ℕ → Except Exn TextMapping)

/-- The loop over one gap, with the texts found so far and `more_to_fetch`. -/
def fetchGap (firstLocal gapLen : ℕ) (unread : List ℕ) (moreToFetch : ℕ) :
    Except Exn (List ℕ × ℕ) :=
  if _h : gapLen > 0 then
    let n := if gapLen > 255 then 255 else gapLen
    match localToGlobal firstLocal n with
    | .ok mapping =>
      fetchGap mapping.rangeEnd (gapLen - n) (unread ++ mapping.texts) mapping.laterTextsExists
    | .error e =>
      if e.isNoSuchLocalText then fetchGap firstLocal (gapLen - n) unread 0 else .error e
  else .ok (unread, moreToFetch)
termination_by gapLen
decreasing_by all_goals split <;> omega

/-- The loop over all gaps. -/
def fetchGaps : List (ℕ × ℕ) → List ℕ → ℕ → Except Exn (List ℕ × ℕ)
  | [], unread, moreToFetch => .ok (unread, moreToFetch)
  | (first, gapLen) :: gaps, unread, moreToFetch =>
    match fetchGap localToGlobal first gapLen unread moreToFetch with
    | .ok (unread, moreToFetch) => fetchGaps gaps unread moreToFetch
    | .error e => .error e

/-- The loop after the last range; `none` when the fuel does not suffice. -/
def fetchTail : (fuel : ℕ) → (firstLocal : ℕ) → List ℕ → (moreToFetch : ℕ) →
    Option (Except Exn (List ℕ))
  | _, _, unread, 0 => some (.ok unread)
  | 0, _, _, _ + 1 => none
  | fuel + 1, firstLocal, unread, _ + 1 =>
    match localToGlobal firstLocal 255 with
    | .ok mapping =>
      fetchTail fuel mapping.rangeEnd (unread ++ mapping.texts) mapping.laterTextsExists
    | .error e =>
      if e.isNoSuchLocalText then fetchTail fuel firstLocal unread 0 else some (.error e)

/-- The body of `get_unread_texts_from_membership`, with what the request
`ReqLocalToGlobal(conference, first_local_no, no_of_existing_texts)` returns or raises. -/
def getUnreadTexts (fuel : ℕ) (request : ℕ → ℕ → ℕ → Except Exn TextMapping)
    (membership : Membership) : Option (Except Exn (List ℕ)) :=
  let (gaps, last) := readRangesToGapsAndLast membership.readRanges
  match fetchGaps (request membership.conference) gaps [] 1 with
  | .error e => some (.error e)
  | .ok (unread, moreToFetch) =>
    -- Remove text that don't exist anymore (text_no == 0)
    (fetchTail (request membership.conference) fuel last unread moreToFetch).map fun texts =>
      texts.map fun unread => unread.filter (· ≠ 0)

end Unread

def CachingClient.getUnreadTextsFromMembership := Unread.getUnreadTexts

def AioCachingClient.getUnreadTextsFromMembership := Unread.getUnreadTexts

/-- The loops end with the given result. -/
def Returns (run : (fuel : ℕ) → Option (Except Exn (List ℕ))) (texts : List ℕ) : Prop :=
  ∃ enough, ∀ fuel, enough ≤ fuel → run fuel = some (.ok texts)

theorem Returns.unique {run : (fuel : ℕ) → Option (Except Exn (List ℕ))} {texts texts' : List ℕ}
    (h : Returns run texts) (h' : Returns run texts') : texts = texts' := by
  obtain ⟨enough, h⟩ := h
  obtain ⟨enough', h'⟩ := h'
  have heq := (h (enough + enough') (by omega)).symm.trans (h' (enough + enough') (by omega))
  simpa using heq

/-- The local texts of a conference: which of them exist, up to the highest local number,
and their global numbers. -/
structure LocalTexts where
  existing : ℕ → Bool
  highest : ℕ
  globalNo : ℕ → ℕ
  existing_bounds : ∀ i, existing i = true → 1 ≤ i ∧ i ≤ highest
  globalNo_injective : ∀ i j, existing i = true → existing j = true →
    globalNo i = globalNo j → i = j
  globalNo_ne_zero : ∀ i, existing i = true → globalNo i ≠ 0

namespace LocalTexts

variable (L : LocalTexts)

/-- The existing local numbers from `first` on. -/
def onwards (first : ℕ) : List ℕ := between L.existing first (L.highest + 1)

/-- The unread existing local numbers, in increasing order. -/
def unread (readRanges : List ReadRange) : List ℕ :=
  between (fun i => L.existing i && !isRead readRanges i) 1 (L.highest + 1)

theorem existing_lt {i : ℕ} (h : L.existing i = true) : i < L.highest + 1 := by
  have := L.existing_bounds i h
  omega

/-- There are no texts beyond the highest local number. -/
theorem between_of_beyond {a : ℕ} (h : L.highest < a) (b : ℕ) : between L.existing a b = [] := by
  refine between_eq_nil_iff.mpr fun i hi _ => ?_
  by_contra hex
  have := L.existing_lt (by simpa using hex)
  omega

theorem onwards_of_lt {first : ℕ} (h : L.highest < first) : L.onwards first = [] :=
  L.between_of_beyond h _

theorem existing_of_mem_between {a b i : ℕ} (h : i ∈ between L.existing a b) :
    L.existing i = true := (mem_between.mp h).2.2

/-- Filtering the global numbers of existing texts keeps them all. -/
theorem filter_globalNo {l : List ℕ} (h : ∀ i ∈ l, L.existing i = true) :
    (l.map L.globalNo).filter (· ≠ 0) = l.map L.globalNo := by
  refine List.filter_eq_self.mpr fun n hn => ?_
  obtain ⟨i, hi, rfl⟩ := List.mem_map.mp hn
  simpa using L.globalNo_ne_zero i (h i hi)

/-- Lists of existing texts with the same global numbers are the same. -/
theorem map_globalNo_inj {l l' : List ℕ} (h : ∀ i ∈ l, L.existing i = true)
    (h' : ∀ i ∈ l', L.existing i = true) : l.map L.globalNo = l'.map L.globalNo ↔ l = l' := by
  refine ⟨fun heq => ?_, fun heq => by rw [heq]⟩
  induction l generalizing l' with
  | nil => simpa [eq_comm] using heq
  | cons i l ih =>
    cases l' with
    | nil => simp at heq
    | cons j l' =>
      simp only [List.map_cons, List.cons.injEq] at heq
      have hij := L.globalNo_injective i j (h i List.mem_cons_self) (h' j List.mem_cons_self) heq.1
      have hrest := ih (fun x hx => h x (List.mem_cons_of_mem i hx))
        (fun x hx => h' x (List.mem_cons_of_mem j hx)) heq.2
      rw [hij, hrest]

/-- A reply to `local-to-global` is one page of the texts from `first` on: it lists some
of the first of them, and the others are those from `range_end` on. -/
structure Page (first : ℕ) (listed : List ℕ) (mapping : TextMapping) : Prop where
  texts : mapping.texts = listed.map L.globalNo
  rest : listed ++ L.onwards mapping.rangeEnd = L.onwards first
  progress : first < mapping.rangeEnd

/-- The server pages through the texts, and says that no later texts exist only where
there are none. -/
structure Pages (localToGlobal : ℕ → ℕ → Except Exn TextMapping) : Prop where
  beyond : ∀ {first n}, L.highest < first →
    ∃ e, localToGlobal first n = .error e ∧ e.isNoSuchLocalText = true
  page : ∀ {first n}, 0 < n → first ≤ L.highest → ∃ listed mapping,
    localToGlobal first n = .ok mapping ∧ L.Page first listed mapping ∧
      (mapping.laterTextsExists = 0 → L.onwards mapping.rangeEnd = [])

variable {L}

/-- The loop after the last range fetches all texts from there on, if it is entered. Each
page ends later than it starts, so as many pages as there are local numbers suffice. -/
theorem Pages.fetchTail {localToGlobal : ℕ → ℕ → Except Exn TextMapping}
    (h : L.Pages localToGlobal) {fuel first : ℕ} (unread : List ℕ) (moreToFetch : ℕ)
    (hfuel : L.highest + 1 - first < fuel) :
    Unread.fetchTail localToGlobal fuel first unread moreToFetch =
      some (.ok (unread ++ (if moreToFetch = 0 then [] else L.onwards first).map L.globalNo)) := by
  induction fuel generalizing first unread moreToFetch with
  | zero => omega
  | succ fuel ih =>
    cases moreToFetch with
    | zero => simp [Unread.fetchTail]
    | succ more =>
      rw [if_neg (Nat.succ_ne_zero more)]
      rcases Nat.lt_or_ge L.highest first with hbeyond | hfirst
      · obtain ⟨e, heq, he⟩ := h.beyond hbeyond (n := 255)
        rw [Unread.fetchTail, heq, L.onwards_of_lt hbeyond]
        simp only [he, if_true]
        cases fuel <;> simp [Unread.fetchTail]
      · obtain ⟨listed, mapping, heq, hpage, hend⟩ := h.page (n := 255) (by omega) hfirst
        have hprogress := hpage.progress
        have hrest : (if mapping.laterTextsExists = 0 then [] else L.onwards mapping.rangeEnd) =
            L.onwards mapping.rangeEnd := by
          split
          · next hzero => rw [hend hzero]
          · rfl
        rw [Unread.fetchTail, heq]
        simp only
        rw [ih _ _ (by omega), hrest, hpage.texts, ← hpage.rest, List.map_append,
          List.append_assoc]

/-- What `get_unread_texts_from_membership` returns, from the texts that the gaps gave and
the flag they left. -/
theorem Pages.getUnreadTexts {request : ℕ → ℕ → ℕ → Except Exn TextMapping}
    {membership : Membership} (h : L.Pages (request membership.conference)) {found : List ℕ}
    {more : ℕ} (hfound : ∀ i ∈ found, L.existing i = true)
    (hgaps : Unread.fetchGaps (request membership.conference)
      (gapsFrom 1 membership.readRanges) [] 1 = .ok (found.map L.globalNo, more)) :
    Returns (fun fuel => Unread.getUnreadTexts fuel request membership)
      ((found ++ if more = 0 then [] else
        L.onwards (lastFrom 1 membership.readRanges)).map L.globalNo) := by
  refine ⟨L.highest + 2, fun fuel hfuel => ?_⟩
  have hhighest : L.highest + 1 - lastFrom 1 membership.readRanges < fuel := by omega
  have htail := h.fetchTail (found.map L.globalNo) more hhighest
  have hkept : ∀ i ∈ found ++ (if more = 0 then [] else
      L.onwards (lastFrom 1 membership.readRanges)), L.existing i = true := by
    intro i hi
    rcases List.mem_append.mp hi with hi | hi
    · exact hfound i hi
    · split at hi
      · simp at hi
      · exact existing_of_mem_between L hi
  simp only [Unread.getUnreadTexts, readRangesToGapsAndLast_eq, hgaps, htail]
  rw [← List.map_append, Option.map_some, Except.map, L.filter_globalNo hkept]

end LocalTexts

end Pylyskom
