import Mathlib.Algebra.Order.Field.Rat
import Mathlib.Data.Prod.Lex
import Pylyskom.Collections.Best
import Pylyskom.Mime

/-!
# The best mime type for an Accept header

`mimeparse.best_match` ranks the supported types by how specific their best media range is, and
only then by its quality. A quality of 0, like any other that is not in range, becomes 1; but
`nan` is let through, and then the types cannot be put in order.

The numbers of Python are those of any linear order with 0 below 1.
-/

namespace Pylyskom

/-! ## Floats -/

/-- What `float` returns. -/
inductive WithNan (F : Type) where
  | number (x : F)
  | nan
  deriving DecidableEq

namespace WithNan

variable {F : Type}

instance [Zero F] : Zero (WithNan F) := ⟨number 0⟩

instance [One F] : One (WithNan F) := ⟨number 1⟩

/-- `==`, which does not even hold between two `nan`. -/
def eq : WithNan F → WithNan F → Prop
  | number x, number y => x = y
  | _, _ => False

instance [DecidableEq F] : DecidableRel (eq (F := F))
  | number x, number y => inferInstanceAs (Decidable (x = y))
  | number _, nan => isFalse id
  | nan, _ => isFalse id

/-- `<`, which does not hold for `nan`. -/
def lt [LT F] : WithNan F → WithNan F → Prop
  | number x, number y => x < y
  | _, _ => False

instance [LT F] : LT (WithNan F) := ⟨lt⟩

instance [LT F] [DecidableLT F] : DecidableLT (WithNan F)
  | number x, number y => inferInstanceAs (Decidable (x < y))
  | number _, nan => isFalse id
  | nan, _ => isFalse id

/-- The number that a float is, if it is one. -/
def toNumber [Zero F] : WithNan F → F
  | number x => x
  | nan => 0

end WithNan

/-! ## Media ranges -/

variable {F : Type} [LinearOrder F] [Zero F] [One F]

section

variable (float : Str → Except Exn (WithNan F))

def parseMediaRange (range : Str) : Except Exn MimeType := do
  let mimeType ← parseMimeType range
  let withDefault := { mimeType with params := mimeType.params.set ['q'] ['1'] }
  match mimeType.params.get? ['q'] with
  | none => return withDefault
  | some q =>
    if q = [] then return withDefault
    else do
      let quality ← float q
      if quality = 0 ∨ quality > 1 ∨ quality < 0 then return withDefault else return mimeType

/-- Whether the types and the subtypes match, where a wildcard of either side matches all. -/
def MimeType.matches (target range : MimeType) : Bool :=
  (range.type = target.type || range.type = ['*'] || target.type = ['*']) &&
    (range.subtype = target.subtype || range.subtype = ['*'] || target.subtype = ['*'])

def MimeType.fitness (target range : MimeType) : ℤ :=
  let paramMatches := target.params.items.countP fun p =>
    p.1 ≠ ['q'] && range.params.get? p.1 = some p.2
  (if range.type = target.type then 100 else 0) +
    (if range.subtype = target.subtype then 10 else 0) + paramMatches

/-- The loop over the ranges, with `best_fitness` and, once there is one, `best_fit_q`. -/
def fitnessLoop (target : MimeType) : List MimeType → ℤ × Option Str → Except Exn (ℤ × Option Str)
  | [], best => .ok best
  | range :: ranges, best =>
    if target.matches range && best.1 < target.fitness range then
      match range.params.get? ['q'] with
      | none => .error (.builtinError (.missingKey ['q']))
      | some q => fitnessLoop target ranges (target.fitness range, some q)
    else fitnessLoop target ranges best

/-- `fitness_and_quality_parsed` -/
def fitnessAndQualityParsed (mimeType : Str) (parsedRanges : List MimeType) :
    Except Exn (ℤ × WithNan F) := do
  let target ← parseMediaRange float mimeType
  let (bestFitness, bestFitQ) ← fitnessLoop target parsedRanges (-1, none)
  match bestFitQ with
  | none => return (bestFitness, 0)
  | some q => return (bestFitness, ← float q)

def qualityParsed (mimeType : Str) (parsedRanges : List MimeType) :
    Except Exn (WithNan F) :=
  Prod.snd <$> fitnessAndQualityParsed float mimeType parsedRanges

def quality (mimeType ranges : Str) : Except Exn (WithNan F) := do
  let parsedRanges ← (split ',' ranges).mapM (parseMediaRange float)
  qualityParsed float mimeType parsedRanges

/-- `_filter_blank` -/
def filterBlank (i : List Str) : List Str := i.filter fun s => strip s ≠ []

/-- An entry of `weighted_matches`. -/
abbrev WeightedMatch (F : Type) := (ℤ × WithNan F) × ℕ × Str

/-- `<` of the entries, which are tuples: it is decided where they first differ. -/
def WeightedMatch.lt (a b : WeightedMatch F) : Prop :=
  a.1.1 < b.1.1 ∨ a.1.1 = b.1.1 ∧ (a.1.2 < b.1.2 ∨ a.1.2.eq b.1.2 ∧
    (a.2.1 < b.2.1 ∨ a.2.1 = b.2.1 ∧ a.2.2 < b.2.2))

instance (a b : WeightedMatch F) : Decidable (a.lt b) := inferInstanceAs (Decidable (_ ∨ _))

/-- The loop over the supported types, the first of which has the given position. -/
def weightedMatches (parsedHeader : List MimeType) :
    (pos : ℕ) → List Str → Except Exn (List (WeightedMatch F))
  | _, [] => .ok []
  | pos, mimeType :: supported => do
    let weight ← fitnessAndQualityParsed float mimeType parsedHeader
    let later ← weightedMatches parsedHeader (pos + 1) supported
    return (weight, pos, mimeType) :: later

/-- `list.sort` only asks whether an entry is less than another one. With a `nan` among the
qualities this does not put them in order, and Python does not say how the list is sorted.
The `IndexError` for an empty list is a `LookupError`. -/
def bestMatch (supported : List Str) (header : Str) : Except Exn Str := do
  let parsedHeader ← (filterBlank (split ',' header)).mapM (parseMediaRange float)
  let weighted ← weightedMatches float parsedHeader 0 supported
  match (weighted.insertionSort fun a b => ¬ b.lt a).getLast? with
  | none => throw (.builtinError .lookupError)
  | some ((_, q), _, mimeType) => return if q ≠ 0 ∧ mimeType ≠ [] then mimeType else []

/-! ## The quality of a range -/

/-- The quality of a range that was parsed. -/
def HasQuality (range : MimeType) (x : WithNan F) : Prop :=
  ∃ q, range.params.get? ['q'] = some q ∧ float q = .ok x

variable {float}

/-- The qualities that are let through. -/
def InRange (x : WithNan F) : Prop := x = .nan ∨ ∃ y, x = .number y ∧ 0 < y ∧ y ≤ 1

/-- Every range has a quality above 0 or `nan`, also one that excludes a type with the
quality 0. -/
theorem exists_quality [ZeroLEOneClass F] [NeZero (1 : F)] (hone : float ['1'] = .ok 1)
    {range : Str} {parsed : MimeType} (h : parseMediaRange float range = .ok parsed) :
    ∃ x, HasQuality float parsed x ∧ InRange x := by
  obtain ⟨mimeType, hmime, h⟩ := bind_eq_ok_iff.mp h
  have hdefault : ∃ x : WithNan F, HasQuality float
      { mimeType with params := mimeType.params.set ['q'] ['1'] } x ∧ InRange x :=
    ⟨1, ⟨['1'], by simp, hone⟩, Or.inr ⟨1, rfl, zero_lt_one, le_rfl⟩⟩
  cases hq : mimeType.params.get? ['q'] with
  | none =>
    simp only [hq] at h
    cases h
    exact hdefault
  | some q =>
    simp only [hq] at h
    split_ifs at h with hempty
    · cases h
      exact hdefault
    · obtain ⟨x, hx, h⟩ := bind_eq_ok_iff.mp h
      split_ifs at h with hrange
      · cases h
        exact hdefault
      · cases h
        refine ⟨x, ⟨q, hq, hx⟩, ?_⟩
        cases x with
        | nan => exact Or.inl rfl
        | number y =>
          push Not at hrange
          obtain ⟨hzero, hone, hneg⟩ := hrange
          have hne : y ≠ 0 := fun h => hzero (congrArg WithNan.number h)
          exact Or.inr ⟨y, rfl, lt_of_le_of_ne (not_lt.mp hneg) hne.symm, not_lt.mp hone⟩

/-! ## The best range for a type -/

/-- The first of the most specific ranges that match. -/
def BestRange (target : MimeType) (ranges : List MimeType) : MimeType → Prop :=
  FirstBest target.fitness (ranges.filter target.matches)

theorem fitness_nonneg (target range : MimeType) : 0 ≤ target.fitness range := by
  simp only [MimeType.fitness]
  split <;> split <;> omega

omit [LinearOrder F] [Zero F] [One F] in
/-- The loop keeps the best range. -/
theorem fitnessLoop_eq {target : MimeType} {ranges : List MimeType} {best : ℤ × Option Str}
    (hranges : ∀ range ∈ ranges, ∃ x, HasQuality float range x) :
    fitnessLoop target ranges best = .ok ((ranges.filter target.matches).foldl
      (keepBest target.fitness fun range => range.params.get? ['q']) best) := by
  induction ranges generalizing best with
  | nil => rfl
  | cons range ranges ih =>
    obtain ⟨x, q, hq, -⟩ := hranges range List.mem_cons_self
    have hrest : ∀ best, fitnessLoop target ranges best = _ := fun _ =>
      ih fun r hr => hranges r (List.mem_cons_of_mem _ hr)
    rw [fitnessLoop]
    by_cases hmatches : target.matches range = true
    · rw [List.filter_cons_of_pos hmatches, List.foldl_cons, keepBest]
      by_cases hbest : best.1 < target.fitness range
      · rw [if_pos (by simp [hmatches, hbest]), if_pos hbest]
        simp only [hq, hrest]
      · rw [if_neg (by simp [hbest]), if_neg hbest, hrest]
    · rw [List.filter_cons_of_neg hmatches, if_neg (by simp [hmatches]), hrest]

/-- The fitness and the quality of a type are those of its best range. -/
theorem fitnessAndQualityParsed_cases {mimeType : Str} {target : MimeType}
    {ranges : List MimeType} (htarget : parseMediaRange float mimeType = .ok target)
    (hranges : ∀ range ∈ ranges, ∃ x, HasQuality float range x) :
    (fitnessAndQualityParsed float mimeType ranges = .ok (-1, 0) ∧
      ∀ range ∈ ranges, target.matches range = false) ∨
    ∃ range x, BestRange target ranges range ∧ HasQuality float range x ∧
      fitnessAndQualityParsed float mimeType ranges = .ok (target.fitness range, x) := by
  have hloop : fitnessLoop target ranges (-1, none) = _ := fitnessLoop_eq hranges
  rcases foldl_keepBest target.fitness (fun range => range.params.get? ['q'])
    (ranges.filter target.matches) (-1, none) with ⟨hfold, hle⟩ | ⟨range, hbest, -, hfold⟩
  · rw [hfold] at hloop
    refine Or.inl ⟨?_, fun range hrange => ?_⟩
    · rw [fitnessAndQualityParsed, htarget]
      change (fitnessLoop target ranges (-1, none) >>= fun best => _) = _
      rw [hloop]
      rfl
    · by_contra hmatches
      rw [Bool.not_eq_false] at hmatches
      have hneg := hle range (List.mem_filter.mpr ⟨hrange, hmatches⟩)
      have hnonneg := fitness_nonneg target range
      dsimp only at hneg
      omega
  · obtain ⟨x, q, hq, hx⟩ := hranges range (List.mem_filter.mp hbest.mem).1
    rw [hfold] at hloop
    refine Or.inr ⟨range, x, hbest, ⟨q, hq, hx⟩, ?_⟩
    rw [fitnessAndQualityParsed, htarget]
    change (fitnessLoop target ranges (-1, none) >>= fun best => _) = _
    rw [hloop]
    change (match range.params.get? ['q'] with | none => _ | some q => _ :
      Except Exn (ℤ × WithNan F)) = _
    rw [hq]
    change (float q >>= fun x => _) = _
    rw [hx]
    rfl

/-! ## The order of the entries -/

/-- The order in which entries come whose qualities are numbers. No two of them have the same
position, so that their mime types are not compared. -/
def WeightedMatch.rank (entry : WeightedMatch F) : ℤ ×ₗ F ×ₗ ℕ :=
  toLex (entry.1.1, toLex (entry.1.2.toNumber, entry.2.1))

omit [One F] in
theorem WeightedMatch.not_lt_iff {a b : WeightedMatch F} (ha : a.1.2 ≠ .nan) (hb : b.1.2 ≠ .nan)
    (hpos : a.2.1 = b.2.1 → a = b) : ¬ b.lt a ↔ a.rank ≤ b.rank := by
  obtain ⟨⟨fitness, q⟩, pos, mimeType⟩ := a
  obtain ⟨⟨fitness', q'⟩, pos', mimeType'⟩ := b
  cases q with
  | nan => exact absurd rfl ha
  | number x =>
    cases q' with
    | nan => exact absurd rfl hb
    | number y =>
      have hqlt : WithNan.number y < WithNan.number x ↔ y < x := Iff.rfl
      have hqeq : (WithNan.number y).eq (.number x) ↔ y = x := Iff.rfl
      by_cases hsame : pos = pos'
      · cases hpos hsame
        simp [lt, hqlt]
      · simp only [lt, rank, hqlt, hqeq, WithNan.toNumber, Prod.Lex.toLex_le_toLex]
        rcases lt_trichotomy fitness fitness' with hlt | rfl | hlt
        · simp [hlt, hlt.not_gt, hlt.ne']
        · rcases lt_trichotomy x y with hlt | rfl | hlt
          · simp [hlt, hlt.not_gt, hlt.ne']
          · simp [Ne.symm hsame]
          · simp [hlt, hlt.not_gt, hlt.ne']
        · simp [hlt, hlt.not_gt, hlt.ne']

/-! ## The best type -/

/-- Each supported type has an entry with its position. -/
theorem mem_weightedMatches {parsedHeader : List MimeType} {supported : List Str} {pos : ℕ}
    {weighted : List (WeightedMatch F)}
    (h : weightedMatches float parsedHeader pos supported = .ok weighted)
    {entry : WeightedMatch F} :
    entry ∈ weighted ↔ ∃ i, supported[i]? = some entry.2.2 ∧ entry.2.1 = pos + i ∧
      fitnessAndQualityParsed float entry.2.2 parsedHeader = .ok entry.1 := by
  induction supported generalizing pos weighted with
  | nil =>
    cases h
    simp
  | cons mimeType supported ih =>
    obtain ⟨weight, hweight, h⟩ := bind_eq_ok_iff.mp h
    obtain ⟨later, hlater, h⟩ := bind_eq_ok_iff.mp h
    cases h
    rw [List.mem_cons, ih hlater]
    constructor
    · rintro (rfl | ⟨i, hi, hpos, hentry⟩)
      · exact ⟨0, rfl, rfl, hweight⟩
      · exact ⟨i + 1, hi, by omega, hentry⟩
    · rintro ⟨_ | i, hi, hpos, hentry⟩
      · obtain ⟨weight', pos', mimeType'⟩ := entry
        cases hi
        dsimp only at hpos hentry
        rw [hweight] at hentry
        cases hentry
        exact Or.inl (by rw [hpos, Nat.add_zero])
      · exact Or.inr ⟨i, hi, by omega, hentry⟩

/-- Entries with the same position are the same. -/
theorem eq_of_position {parsedHeader : List MimeType} {supported : List Str}
    {weighted : List (WeightedMatch F)}
    (h : weightedMatches float parsedHeader 0 supported = .ok weighted)
    {a b : WeightedMatch F} (ha : a ∈ weighted) (hb : b ∈ weighted) (hpos : a.2.1 = b.2.1) :
    a = b := by
  obtain ⟨i, hi, hai, ha⟩ := (mem_weightedMatches h).mp ha
  obtain ⟨j, hj, hbj, hb⟩ := (mem_weightedMatches h).mp hb
  obtain ⟨weight, pos, mimeType⟩ := a
  obtain ⟨weight', pos', mimeType'⟩ := b
  dsimp only at hi hai ha hj hbj hb hpos
  obtain rfl : i = j := by omega
  obtain rfl : mimeType = mimeType' := Option.some.inj (hi.symm.trans hj)
  obtain rfl : weight = weight' := Except.ok.inj (ha.symm.trans hb)
  rw [hpos]

/-- If there are entries, then every type has a weight. -/
theorem exists_weight {parsedHeader : List MimeType} {supported : List Str} {pos : ℕ}
    {weighted : List (WeightedMatch F)}
    (h : weightedMatches float parsedHeader pos supported = .ok weighted) :
    ∀ mimeType ∈ supported, ∃ weight,
      fitnessAndQualityParsed float mimeType parsedHeader = .ok weight := by
  induction supported generalizing pos weighted with
  | nil => simp
  | cons mimeType supported ih =>
    obtain ⟨weight, hweight, h⟩ := bind_eq_ok_iff.mp h
    obtain ⟨later, hlater, -⟩ := bind_eq_ok_iff.mp h
    intro m hm
    rcases List.mem_cons.mp hm with rfl | hm
    · exact ⟨weight, hweight⟩
    · exact ih hlater m hm

/-- The elements of a list that a loop returns. -/
theorem exists_of_mem_mapM {α β : Type} {f : α → Except Exn β} {l : List α} {l' : List β}
    (h : l.mapM f = .ok l') : ∀ b ∈ l', ∃ a ∈ l, f a = .ok b := by
  induction l generalizing l' with
  | nil =>
    cases h
    simp
  | cons a l ih =>
    rw [List.mapM_cons] at h
    obtain ⟨b, hb, h⟩ := bind_eq_ok_iff.mp h
    obtain ⟨bs, hbs, h⟩ := bind_eq_ok_iff.mp h
    cases h
    intro c hc
    rcases List.mem_cons.mp hc with rfl | hc
    · exact ⟨a, List.mem_cons_self, hb⟩
    · obtain ⟨a', ha', hc⟩ := ih hbs c hc
      exact ⟨a', List.mem_cons_of_mem a ha', hc⟩

/-- The rank of a supported type: the fitness and the quality of its best range, and its
position. -/
def HasRank (float : Str → Except Exn (WithNan F)) (ranges : List MimeType) (supported : List Str)
    (mimeType : Str) (rank : ℤ ×ₗ F ×ₗ ℕ) : Prop :=
  ∃ i target range x, supported[i]? = some mimeType ∧
    parseMediaRange float mimeType = .ok target ∧ BestRange target ranges range ∧
    HasQuality float range (.number x) ∧ rank = toLex (target.fitness range, toLex (x, i))

/-- A rank is that of an entry. -/
theorem HasRank.exists_entry {ranges : List MimeType} {supported : List Str} {mimeType : Str}
    {rank : ℤ ×ₗ F ×ₗ ℕ} {weighted : List (WeightedMatch F)}
    (h : HasRank float ranges supported mimeType rank)
    (hranges : ∀ range ∈ ranges, ∃ x, HasQuality float range x)
    (hweighted : weightedMatches float ranges 0 supported = .ok weighted) :
    ∃ entry ∈ weighted, entry.rank = rank := by
  obtain ⟨i, target, range, x, hi, htarget, hbest, ⟨q, hq, hx⟩, rfl⟩ := h
  refine ⟨((target.fitness range, .number x), i, mimeType), ?_, rfl⟩
  refine (mem_weightedMatches hweighted).mpr ⟨i, hi, (Nat.zero_add i).symm, ?_⟩
  rcases fitnessAndQualityParsed_cases htarget hranges with
    ⟨-, hnone⟩ | ⟨range', x', hbest', ⟨q', hq', hx'⟩, heq⟩
  · obtain ⟨hmem, hmatches⟩ := List.mem_filter.mp hbest.mem
    rw [hnone range hmem] at hmatches
    cases hmatches
  · obtain rfl := hbest.unique hbest'
    obtain rfl : q = q' := Option.some.inj (hq.symm.trans hq')
    obtain rfl : .number x = x' := Except.ok.inj (hx.symm.trans hx')
    exact heq

/-- The quality of an entry is a number, if those of the ranges are. -/
theorem ne_nan_of_mem {ranges : List MimeType} {supported : List Str}
    {weighted : List (WeightedMatch F)}
    (hranges : ∀ range ∈ ranges, ∃ x, HasQuality float range x)
    (hnan : ∀ range ∈ ranges, ¬ HasQuality float range .nan)
    (hweighted : weightedMatches float ranges 0 supported = .ok weighted)
    {entry : WeightedMatch F} (hentry : entry ∈ weighted) : entry.1.2 ≠ .nan := by
  obtain ⟨i, -, -, hweight⟩ := (mem_weightedMatches hweighted).mp hentry
  obtain ⟨target, htarget, -⟩ := bind_eq_ok_iff.mp hweight
  rcases fitnessAndQualityParsed_cases htarget hranges with
    ⟨heq, -⟩ | ⟨range, x, hbest, hx, heq⟩
  · rw [← Except.ok.inj (heq.symm.trans hweight)]
    intro (hnan : WithNan.number (0 : F) = .nan)
    cases hnan
  · rw [← Except.ok.inj (heq.symm.trans hweight)]
    rintro rfl
    exact hnan range (List.mem_filter.mp hbest.mem).1 hx

/-- The empty string is no mime type. -/
theorem parseMediaRange_nil {target : MimeType} : parseMediaRange float [] ≠ .ok target := by
  intro h
  obtain ⟨mimeType, hmime, -⟩ := bind_eq_ok_iff.mp h
  cases hmime

/-- If no rank is above that of a type without a range, then no type has a range. -/
theorem not_matches_of_rank_le {ranges : List MimeType} {supported : List Str}
    {weighted : List (WeightedMatch F)} {q : F} {pos : ℕ}
    (hranges : ∀ range ∈ ranges, ∃ x, HasQuality float range x)
    (hnan : ∀ range ∈ ranges, ¬ HasQuality float range .nan)
    (hweighted : weightedMatches float ranges 0 supported = .ok weighted)
    (hmax : ∀ entry ∈ weighted, entry.rank ≤ toLex ((-1 : ℤ), toLex (q, pos))) :
    ∀ m ∈ supported, ∀ target, parseMediaRange float m = .ok target →
      ∀ range ∈ ranges, target.matches range = false := by
  intro m hm target htarget
  rcases fitnessAndQualityParsed_cases htarget hranges with
    ⟨-, hnone⟩ | ⟨range, x, hbest, hx, -⟩
  · exact hnone
  · obtain ⟨i, hi⟩ := List.getElem?_of_mem hm
    cases x with
    | nan => exact absurd hx (hnan range (List.mem_filter.mp hbest.mem).1)
    | number y =>
      obtain ⟨entry, hmem, hrank⟩ := HasRank.exists_entry
        ⟨i, target, range, y, hi, htarget, hbest, hx, rfl⟩ hranges hweighted
      have hle := hmax entry hmem
      rw [hrank, Prod.Lex.toLex_le_toLex] at hle
      have hnonneg := fitness_nonneg target range
      dsimp only at hle
      omega

/-- The quality of the best range is not 0, so that its type is returned. -/
theorem exists_number {ranges : List MimeType} {range : MimeType} {x : WithNan F}
    (hranges : ∀ range ∈ ranges, ∃ x, HasQuality float range x ∧ InRange x)
    (hnan : ∀ range ∈ ranges, ¬ HasQuality float range .nan) (hmem : range ∈ ranges)
    (hx : HasQuality float range x) : ∃ y, x = .number y ∧ x ≠ 0 := by
  obtain ⟨q, hq, hx⟩ := hx
  obtain ⟨x', ⟨q', hq', hx'⟩, hinrange⟩ := hranges range hmem
  obtain rfl : q' = q := Option.some.inj (hq'.symm.trans hq)
  obtain rfl : x' = x := Except.ok.inj (hx'.symm.trans hx)
  rcases hinrange with rfl | ⟨y, rfl, hpositive, -⟩
  · exact absurd ⟨q', hq', hx'⟩ (hnan range hmem)
  · exact ⟨y, rfl, fun hzero => hpositive.ne' (WithNan.number.inj hzero)⟩

/-- **The best match** is the supported type of the highest rank: that with the most specific
range, then with the highest quality, then the last one. There is none exactly if no range
matches any type. A range that excludes a type counts like any other. With a range of the
quality `nan` nothing of this need be so. -/
theorem bestMatch_spec [ZeroLEOneClass F] [NeZero (1 : F)] (hone : float ['1'] = .ok 1)
    {supported : List Str} {header mimeType : Str}
    (h : bestMatch float supported header = .ok mimeType) :
    ∃ ranges, (filterBlank (split ',' header)).mapM (parseMediaRange float) = .ok ranges ∧
      (∀ range ∈ ranges, ∃ x, HasQuality float range x ∧ InRange x) ∧
      ((∀ range ∈ ranges, ¬ HasQuality float range .nan) →
        if mimeType = [] then
          ∀ m ∈ supported, ∀ target, parseMediaRange float m = .ok target →
            ∀ range ∈ ranges, target.matches range = false
        else ∃ rank, HasRank float ranges supported mimeType rank ∧
          ∀ m rank', HasRank float ranges supported m rank' → rank' ≤ rank) := by
  obtain ⟨ranges, hranges, h⟩ := bind_eq_ok_iff.mp h
  obtain ⟨weighted, hweighted, h⟩ := bind_eq_ok_iff.mp h
  have hpositive : ∀ range ∈ ranges, ∃ x, HasQuality float range x ∧ InRange x := by
    intro range hrange
    obtain ⟨text, -, htext⟩ := exists_of_mem_mapM hranges range hrange
    exact exists_quality hone htext
  have hquality : ∀ range ∈ ranges, ∃ x, HasQuality float range x := fun range hrange => by
    obtain ⟨x, hx, -⟩ := hpositive range hrange
    exact ⟨x, hx⟩
  refine ⟨ranges, hranges, hpositive, fun hnan => ?_⟩
  have hcompare : ∀ a ∈ weighted, ∀ b ∈ weighted, ¬ b.lt a ↔ a.rank ≤ b.rank :=
    fun a ha b hb => WeightedMatch.not_lt_iff (ne_nan_of_mem hquality hnan hweighted ha)
      (ne_nan_of_mem hquality hnan hweighted hb) (eq_of_position hweighted ha hb)
  cases hlast : (weighted.insertionSort fun a b => ¬ b.lt a).getLast? with
  | none =>
    rw [hlast] at h
    cases h
  | some entry =>
    rw [hlast] at h
    obtain ⟨hmem, hmax⟩ := getLast?_insertionSort hcompare hlast
    obtain ⟨i, hi, hpos, hweight⟩ := (mem_weightedMatches hweighted).mp hmem
    obtain ⟨⟨fitness, q⟩, pos, m⟩ := entry
    obtain ⟨target, htarget, -⟩ := bind_eq_ok_iff.mp hweight
    have hnonempty : m ≠ [] := by
      rintro rfl
      exact parseMediaRange_nil htarget
    rcases fitnessAndQualityParsed_cases htarget hquality with
      ⟨heq, -⟩ | ⟨range, x, hbest, hx, heq⟩
    · -- The highest rank is that of a type without a range.
      obtain ⟨rfl, rfl⟩ := Prod.mk.inj (Except.ok.inj (hweight.symm.trans heq))
      obtain rfl : mimeType = [] := by simpa using (Except.ok.inj h).symm
      rw [if_pos rfl]
      exact not_matches_of_rank_le hquality hnan hweighted hmax
    · obtain ⟨rfl, rfl⟩ := Prod.mk.inj (Except.ok.inj (hweight.symm.trans heq))
      obtain ⟨hrange, -⟩ := List.mem_filter.mp hbest.mem
      obtain ⟨y, rfl, hne⟩ := exists_number hpositive hnan hrange hx
      obtain rfl : m = mimeType := by
        have hreturned := Except.ok.inj h
        rwa [if_pos ⟨hne, hnonempty⟩] at hreturned
      rw [if_neg hnonempty]
      refine ⟨_, ⟨i, target, range, y, hi, htarget, hbest, hx, rfl⟩, ?_⟩
      intro m' rank' hrank'
      obtain ⟨entry', hmem', rfl⟩ := hrank'.exists_entry hquality hweighted
      have hle := hmax entry' hmem'
      rwa [show pos = i by simpa using hpos] at hle

end

/-- `float` for two numbers between 0 and 1, and for `nan`. -/
def sampleFloat (s : Str) : Except Exn (WithNan ℚ) :=
  if s = "1".toList then .ok 1
  else if s = "0.5".toList then .ok (.number (1 / 2))
  else if s = "0.1".toList then .ok (.number (1 / 10))
  else if s = "nan".toList then .ok .nan
  else .error (.builtinError .valueError)

example : bestMatch sampleFloat ["text/html".toList] "text/html;q=nan".toList =
    .ok "text/html".toList := by
  decide +kernel

theorem bestMatch_spec_xml :
    ∃ ranges, (filterBlank (split ',' "text/*;q=0.5,*/*; q=0.1".toList)).mapM
        (parseMediaRange sampleFloat) = .ok ranges ∧
      (∀ range ∈ ranges, ∃ x, HasQuality sampleFloat range x ∧ InRange x) ∧
      ((∀ range ∈ ranges, ¬ HasQuality sampleFloat range .nan) →
        if "text/xml".toList = [] then
          ∀ m ∈ ["application/xbel+xml".toList, "text/xml".toList], ∀ target,
            parseMediaRange sampleFloat m = .ok target →
            ∀ range ∈ ranges, target.matches range = false
        else ∃ rank, HasRank sampleFloat ranges
            ["application/xbel+xml".toList, "text/xml".toList] "text/xml".toList rank ∧
          ∀ m rank', HasRank sampleFloat ranges
            ["application/xbel+xml".toList, "text/xml".toList] m rank' → rank' ≤ rank) :=
  bestMatch_spec rfl (by decide +kernel)

end Pylyskom
