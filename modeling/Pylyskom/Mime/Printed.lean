import Pylyskom.Mime
import Pylyskom.Collections.Lists
import Mathlib.Data.List.DropRight

/-!
# Printed content types

`mime_type_tuple_to_str` and `parse_mime_type` are separate code. What is printed is parsed
again if its parts hold no separators and no white space at their ends, and every parsed
content type is of this kind.
-/

namespace Pylyskom

/-! ## Splitting and stripping -/

theorem split_eq_splitOn (sep : Char) (s : Str) : split sep s = s.splitOn sep := by
  induction s with
  | nil => rfl
  | cons c s ih =>
    have hne : s.splitOn sep ≠ [] := List.splitOnP_ne_nil _ _
    obtain ⟨part, parts, heq⟩ := List.exists_cons_of_ne_nil hne
    rw [List.splitOn] at heq ⊢
    rw [List.splitOnP_cons_eq_if_modifyHead, split, ih, List.splitOn, heq]
    by_cases hc : c = sep
    · simp [hc]
    · simp [hc]

theorem split_intercalate {sep : Char} {parts : List Str} (hne : parts ≠ [])
    (h : ∀ part ∈ parts, sep ∉ part) : split sep ([sep].intercalate parts) = parts := by
  rw [split_eq_splitOn]
  exact List.splitOn_intercalate sep h hne

theorem mem_of_mem_split {sep c : Char} {s part : Str} (h : part ∈ split sep s) (hc : c ∈ part) :
    c ∈ s ∧ c ≠ sep := by
  induction s generalizing part with
  | nil =>
    obtain rfl := List.mem_singleton.mp h
    cases hc
  | cons d s ih =>
    rw [split] at h
    split at h
    · rcases List.mem_cons.mp h with rfl | h
      · cases hc
      · obtain ⟨hmem, hne⟩ := ih h hc
        exact ⟨List.mem_cons_of_mem d hmem, hne⟩
    · next hd =>
      split at h
      · next part' parts heq =>
        rcases List.mem_cons.mp h with rfl | h
        · rcases List.mem_cons.mp hc with rfl | hc
          · exact ⟨List.mem_cons_self, hd⟩
          · obtain ⟨hmem, hne⟩ := ih (heq ▸ List.mem_cons_self) hc
            exact ⟨List.mem_cons_of_mem d hmem, hne⟩
        · obtain ⟨hmem, hne⟩ := ih (heq ▸ List.mem_cons_of_mem part' h) hc
          exact ⟨List.mem_cons_of_mem d hmem, hne⟩
      · obtain rfl := List.mem_singleton.mp h
        obtain rfl := List.mem_singleton.mp hc
        exact ⟨List.mem_cons_self, hd⟩

theorem strip_eq (s : Str) : strip s = (s.dropWhile isSpace).rdropWhile isSpace := rfl

theorem mem_of_mem_strip {c : Char} {s : Str} (h : c ∈ strip s) : c ∈ s := by
  rw [strip_eq] at h
  exact (List.dropWhile_suffix _).subset ((List.rdropWhile_prefix _ _).subset h)

/-- Only white space is stripped. -/
theorem mem_strip {c : Char} {s : Str} (h : c ∈ s) (hc : isSpace c = false) : c ∈ strip s := by
  have hdrop : ∀ {t : Str}, c ∈ t → c ∈ t.dropWhile isSpace := by
    intro t ht
    rw [← List.takeWhile_append_dropWhile (p := isSpace) (l := t)] at ht
    rcases List.mem_append.mp ht with ht | ht
    · rw [List.mem_takeWhile_imp ht] at hc
      cases hc
    · exact ht
  rw [strip]
  exact List.mem_reverse.mpr (hdrop (List.mem_reverse.mpr (hdrop h)))

theorem strip_dropWhile (s : Str) : strip (s.dropWhile isSpace) = strip s := by
  rw [strip_eq, strip_eq, List.dropWhile_idempotent]

theorem rdropWhile_append_of_all {s t : Str} (h : ∀ c ∈ t, isSpace c = true) :
    (s ++ t).rdropWhile isSpace = s.rdropWhile isSpace := by
  rw [List.rdropWhile, List.reverse_append, List.dropWhile_append_of_pos]
  · rfl
  · simpa using h

theorem strip_append_of_all {s t : Str} (h : ∀ c ∈ t, isSpace c = true) :
    strip (s ++ t) = strip s := by
  rw [strip_eq, strip_eq, List.dropWhile_append]
  split
  · next hempty =>
    have ht : t.dropWhile isSpace = [] := List.dropWhile_eq_nil_iff.mpr h
    rw [ht, List.isEmpty_iff.mp hempty]
  · exact rdropWhile_append_of_all h

theorem strip_rdropWhile (s : Str) : strip (s.rdropWhile isSpace) = strip s := by
  conv_rhs => rw [← List.rdropWhile_append_rtakeWhile (p := isSpace) (l := s)]
  exact (strip_append_of_all fun c hc => List.mem_rtakeWhile_imp hc).symm

theorem strip_strip (s : Str) : strip (strip s) = strip s := by
  conv_lhs => rw [strip_eq s]
  rw [strip_rdropWhile, strip_dropWhile]

/-- What is in front of a character that is not stripped, and what is after it. -/
theorem strip_append_cons {c : Char} (hc : isSpace c = false) (s t : Str) :
    strip (s ++ c :: t) = s.dropWhile isSpace ++ c :: t.rdropWhile isSpace := by
  have hfront : (s ++ c :: t).dropWhile isSpace = s.dropWhile isSpace ++ c :: t := by
    rw [List.dropWhile_append]
    split
    · next hempty =>
      rw [List.isEmpty_iff.mp hempty, List.nil_append,
        List.dropWhile_cons_of_neg (by rw [hc]; exact Bool.false_ne_true)]
    · rfl
  have hback : ∀ u : Str, (u ++ c :: t).rdropWhile isSpace = u ++ c :: t.rdropWhile isSpace := by
    intro u
    rw [List.rdropWhile, List.rdropWhile, List.reverse_append, List.reverse_cons, List.append_assoc,
      List.dropWhile_append]
    split
    · next hempty =>
      rw [List.isEmpty_iff.mp hempty, List.singleton_append,
        List.dropWhile_cons_of_neg (by rw [hc]; exact Bool.false_ne_true)]
      simp
    · simp
  rw [strip_eq, hfront, hback]

/-! ## Parsing what is printed -/

/-- One parameter of a mime type. -/
def parseParam (param : Str) : Except Exn (Str × Str) :=
  match splitOnce '=' param with
  | (k, some v) => .ok (strip k, strip v)
  | (_, none) => .error (.builtinError .valueError)

/-- The dictionary of the parameters, where a later one counts. -/
def paramsOf (params : List (Str × Str)) : Dict Str Str :=
  params.foldl (fun d p => d.set p.1 p.2) ∅

/-- `full_type` after the check for a single `*`. -/
def fullTypeOf (part : Str) : Str := if strip part = ['*'] then ['*', '/', '*'] else strip part

/-- The mime type of its parts, with the parameters parsed. -/
def mimeTypeOf (fullType : Str) (params : List (Str × Str)) : Except Exn MimeType :=
  match split '/' (fullTypeOf fullType) with
  | [type, subtype] => .ok ⟨strip type, strip subtype, paramsOf params⟩
  | _ => .error (.builtinError .valueError)

theorem parseMimeType_of_split {s fullType : Str} {parts : List Str}
    (hsplit : split ';' s = fullType :: parts) :
    parseMimeType s = parts.mapM parseParam >>= mimeTypeOf fullType := by
  unfold parseMimeType
  rw [hsplit]
  rfl

theorem splitOnce_append {sep : Char} {k : Str} (hk : sep ∉ k) (v : Str) :
    splitOnce sep (k ++ sep :: v) = (k, some v) := by
  have htake : ∀ c ∈ k, decide (c ≠ sep) = true := by
    intro c hc
    rw [decide_eq_true_iff]
    rintro rfl
    exact hk hc
  rw [splitOnce, span_append_cons htake (by simp)]

theorem parseParam_append {k : Str} (hk : '=' ∉ k) (v : Str) :
    parseParam (k ++ ['='] ++ v) = .ok (strip k, strip v) := by
  rw [List.append_assoc, List.singleton_append, parseParam, splitOnce_append hk]

theorem mapM_parseParam {params : List (Str × Str)} (h : ∀ p ∈ params, '=' ∉ p.1) :
    (params.map fun p => p.1 ++ ['='] ++ p.2).mapM parseParam =
      .ok (params.map fun p => (strip p.1, strip p.2)) := by
  induction params with
  | nil => rfl
  | cons p params ih =>
    rw [List.map_cons, List.mapM_cons, parseParam_append (h p List.mem_cons_self),
      ih fun q hq => h q (List.mem_cons_of_mem p hq)]
    rfl

/-- Parts between separators are parsed one by one. -/
theorem parseMimeType_parts {type subtype : Str} {params : List (Str × Str)}
    (htype : ';' ∉ type ∧ '/' ∉ type) (hsubtype : ';' ∉ subtype ∧ '/' ∉ subtype)
    (hparams : ∀ p ∈ params, ('=' ∉ p.1 ∧ ';' ∉ p.1) ∧ ';' ∉ p.2) :
    parseMimeType ([';'].intercalate
        ((type ++ ['/'] ++ subtype) :: params.map fun p => p.1 ++ ['='] ++ p.2)) =
      .ok ⟨strip type, strip subtype, paramsOf (params.map fun p => (strip p.1, strip p.2))⟩ := by
  have hparts : ∀ part ∈ (type ++ ['/'] ++ subtype) :: params.map fun p => p.1 ++ ['='] ++ p.2,
      ';' ∉ part := by
    intro part hpart
    rcases List.mem_cons.mp hpart with rfl | hpart
    · simp [htype.1, hsubtype.1]
    · obtain ⟨p, hp, rfl⟩ := List.mem_map.mp hpart
      obtain ⟨⟨-, hk⟩, hv⟩ := hparams p hp
      simp [hk, hv]
  have hstrip : strip (type ++ ['/'] ++ subtype) =
      type.dropWhile isSpace ++ '/' :: subtype.rdropWhile isSpace := by
    rw [List.append_assoc, List.singleton_append, strip_append_cons (by decide)]
  have hfull : fullTypeOf (type ++ ['/'] ++ subtype) =
      type.dropWhile isSpace ++ '/' :: subtype.rdropWhile isSpace := by
    have hstar : strip (type ++ ['/'] ++ subtype) ≠ ['*'] := by
      intro heq
      have hmem : '/' ∈ strip (type ++ ['/'] ++ subtype) := mem_strip (by simp) (by decide)
      rw [heq] at hmem
      exact absurd hmem (by decide)
    rw [fullTypeOf, if_neg hstar, hstrip]
  have hsplit : split '/' (fullTypeOf (type ++ ['/'] ++ subtype)) =
      [type.dropWhile isSpace, subtype.rdropWhile isSpace] := by
    have hboth : ∀ part ∈ [type.dropWhile isSpace, subtype.rdropWhile isSpace], '/' ∉ part := by
      intro part hpart
      simp only [List.mem_cons, List.not_mem_nil, or_false] at hpart
      rcases hpart with rfl | rfl
      · exact fun h => htype.2 ((List.dropWhile_suffix _).subset h)
      · exact fun h => hsubtype.2 ((List.rdropWhile_prefix _ _).subset h)
    have hinter := split_intercalate (by simp) hboth
    rw [hfull, ← hinter]
    simp [List.intercalate]
  rw [parseMimeType_of_split (split_intercalate (by simp) hparts),
    mapM_parseParam fun p hp => (hparams p hp).1.1]
  change mimeTypeOf _ _ = _
  rw [mimeTypeOf, hsplit]
  simp only [strip_dropWhile, strip_rdropWhile]

/-! ## Parsed content types -/

/-- A part without the given separators, and without white space at its ends. -/
def CleanPart (seps s : Str) : Prop := (∀ c ∈ seps, c ∉ s) ∧ strip s = s

/-- A mime type that is parsed again when it is printed. -/
structure MimeType.Clean (m : MimeType) : Prop where
  type : CleanPart [';', '/'] m.type
  subtype : CleanPart [';', '/'] m.subtype
  params : ∀ p ∈ m.params.items, CleanPart ['=', ';'] p.1 ∧ CleanPart [';'] p.2

theorem cleanPart_of_all {seps s : Str} (h : seps.all (fun c => !s.contains c) = true)
    (hs : strip s = s) : CleanPart seps s := ⟨by simpa using h, hs⟩

theorem cleanPart_strip {seps s : Str} (h : ∀ c ∈ seps, c ∉ s) : CleanPart seps (strip s) :=
  ⟨fun c hc hmem => h c hc (mem_of_mem_strip hmem), strip_strip s⟩

theorem mem_items_set {κ ν : Type} [DecidableEq κ] {d : Dict κ ν} {k : κ} {v : ν} {p : κ × ν}
    (h : p ∈ (d.set k v).items) : p = (k, v) ∨ p ∈ d.items := by
  have hget : (d.set k v).get? p.1 = some p.2 := Dict.get?_eq_some_iff.mpr h
  rw [Dict.get?_set] at hget
  split at hget
  · next heq => exact Or.inl (Prod.ext heq (Option.some.inj hget).symm)
  · exact Or.inr (Dict.get?_eq_some_iff.mp hget)

theorem mem_items_foldl_set {params : List (Str × Str)} {d : Dict Str Str} {p : Str × Str}
    (h : p ∈ (params.foldl (fun d p => d.set p.1 p.2) d).items) : p ∈ d.items ∨ p ∈ params := by
  induction params generalizing d with
  | nil => exact Or.inl h
  | cons q params ih =>
    rcases ih h with h | h
    · rcases mem_items_set h with rfl | h
      · exact Or.inr List.mem_cons_self
      · exact Or.inl h
    · exact Or.inr (List.mem_cons_of_mem q h)

theorem mem_of_mem_paramsOf {params : List (Str × Str)} {p : Str × Str}
    (h : p ∈ (paramsOf params).items) : p ∈ params :=
  (mem_items_foldl_set h).resolve_left List.not_mem_nil

theorem splitOnce_eq_some {sep : Char} {s k v : Str} (h : splitOnce sep s = (k, some v)) :
    s = k ++ sep :: v ∧ sep ∉ k := by
  obtain ⟨front, rest, rfl, hfront, rfl | ⟨c, tail, rfl, hc⟩⟩ :=
    exists_front (fun c => decide (c ≠ sep)) s
  · have hspan : (front ++ []).span (fun c => decide (c ≠ sep)) = (front, []) := by
      rw [List.span_eq_takeWhile_dropWhile, List.append_nil, List.takeWhile_eq_self_iff.mpr hfront,
        List.dropWhile_eq_nil_iff.mpr hfront]
    rw [splitOnce, hspan] at h
    cases h
  · rw [splitOnce, span_append_cons hfront hc] at h
    obtain ⟨rfl, rfl⟩ : front = k ∧ tail = v := by simpa using h
    have heq : c = sep := by simpa using hc
    rw [heq]
    exact ⟨rfl, fun hmem => by simpa using hfront sep hmem⟩

theorem parseParam_clean {param : Str} {p : Str × Str} (hparam : ';' ∉ param)
    (h : parseParam param = .ok p) : CleanPart ['=', ';'] p.1 ∧ CleanPart [';'] p.2 := by
  cases hsplit : splitOnce '=' param with
  | mk k rest =>
    rw [parseParam, hsplit] at h
    cases rest with
    | none => cases h
    | some v =>
      obtain ⟨rfl, hk⟩ := splitOnce_eq_some hsplit
      obtain rfl := Except.ok.inj h
      simp only [List.mem_append, List.mem_cons, not_or] at hparam
      constructor
      · apply cleanPart_strip
        simp only [List.mem_cons, List.not_mem_nil, or_false, forall_eq_or_imp, forall_eq]
        exact ⟨hk, hparam.1⟩
      · apply cleanPart_strip
        simp only [List.mem_cons, List.not_mem_nil, or_false, forall_eq]
        exact hparam.2.2

theorem mapM_parseParam_clean {parts : List Str} {params : List (Str × Str)}
    (hparts : ∀ part ∈ parts, ';' ∉ part) (h : parts.mapM parseParam = .ok params) :
    ∀ p ∈ params, CleanPart ['=', ';'] p.1 ∧ CleanPart [';'] p.2 := by
  induction parts generalizing params with
  | nil =>
    obtain rfl : [] = params := Except.ok.inj h
    intro p hp
    cases hp
  | cons part parts ih =>
    rw [List.mapM_cons] at h
    cases hpart : parseParam part with
    | error e =>
      rw [hpart] at h
      cases h
    | ok p =>
      cases hrest : parts.mapM parseParam with
      | error e =>
        rw [hpart, hrest] at h
        cases h
      | ok ps =>
        rw [hpart, hrest] at h
        obtain rfl : p :: ps = params := Except.ok.inj h
        have hps := ih (fun q hq => hparts q (List.mem_cons_of_mem part hq)) hrest
        exact List.forall_mem_cons.mpr
          ⟨parseParam_clean (hparts part List.mem_cons_self) hpart, hps⟩

/-- Parsing gives parts that are clean. -/
theorem parseMimeType_clean {s : Str} {m : MimeType} (h : parseMimeType s = .ok m) : m.Clean := by
  cases hsplit : split ';' s with
  | nil =>
    unfold parseMimeType at h
    rw [hsplit] at h
    cases h
  | cons fullType parts =>
    have hparts : ∀ part ∈ fullType :: parts, ';' ∉ part := by
      intro part hpart hmem
      exact (mem_of_mem_split (hsplit ▸ hpart) hmem).2 rfl
    have hfull : ';' ∉ fullTypeOf fullType := by
      rw [fullTypeOf]
      split
      · decide
      · exact fun hmem => hparts fullType List.mem_cons_self (mem_of_mem_strip hmem)
    rw [parseMimeType_of_split hsplit] at h
    cases hparams : parts.mapM parseParam with
    | error e =>
      rw [hparams] at h
      cases h
    | ok params =>
      rw [hparams] at h
      change mimeTypeOf fullType params = .ok m at h
      rw [mimeTypeOf] at h
      split at h
      · next type subtype htype =>
        obtain rfl := Except.ok.inj h
        have hclean : ∀ part ∈ [type, subtype], CleanPart [';', '/'] (strip part) := by
          intro part hpart
          apply cleanPart_strip
          simp only [List.mem_cons, List.not_mem_nil, or_false, forall_eq_or_imp, forall_eq]
          have hmem := fun c => mem_of_mem_split (c := c) (htype ▸ hpart)
          exact ⟨fun hc => hfull (hmem _ hc).1, fun hc => (hmem _ hc).2 rfl⟩
        refine ⟨hclean type (by simp), hclean subtype (by simp), fun p hp => ?_⟩
        exact mapM_parseParam_clean (fun part hpart => hparts part (List.mem_cons_of_mem _ hpart))
          hparams p (mem_of_mem_paramsOf hp)
      · cases h

theorem paramsOf_items (d : Dict Str Str) : paramsOf d.items = d := by
  have hnodup : ((∅ : Dict Str Str).keys ++ d.items.map Prod.fst).Nodup := d.nodup
  exact Dict.ext (Dict.items_foldl_set ∅ hnodup)

/-- What is printed is parsed again. -/
theorem parseMimeType_mimeTypeTupleToStr {m : MimeType} (h : m.Clean) :
    parseMimeType (mimeTypeTupleToStr m) = .ok m := by
  have hsep : ∀ {s : Str}, CleanPart [';', '/'] s → ';' ∉ s ∧ '/' ∉ s := fun hs =>
    ⟨hs.1 _ (by simp), hs.1 _ (by simp)⟩
  have hparams : ∀ p ∈ m.params.items, ('=' ∉ p.1 ∧ ';' ∉ p.1) ∧ ';' ∉ p.2 := by
    intro p hp
    obtain ⟨hk, hv⟩ := h.params p hp
    exact ⟨⟨hk.1 _ (by simp), hk.1 _ (by simp)⟩, hv.1 _ (by simp)⟩
  have hstrip : m.params.items.map (fun p => (strip p.1, strip p.2)) = m.params.items := by
    conv_rhs => rw [← List.map_id m.params.items]
    refine List.map_congr_left fun p hp => ?_
    obtain ⟨hk, hv⟩ := h.params p hp
    exact Prod.ext hk.2 hv.2
  rw [mimeTypeTupleToStr, parseMimeType_parts (hsep h.type) (hsep h.subtype) hparams, hstrip,
    paramsOf_items, h.type.2, h.subtype.2]

end Pylyskom
