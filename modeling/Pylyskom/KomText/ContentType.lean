import Pylyskom.KomText.Created

/-!
# The content type of a created text

A content type that is parsed and printed stays as it is. A created text stores it in UTF-8
and a `KomText` reads it as latin-1, which gives the same content type if it is ASCII, and
another one if it is not.
-/

namespace Pylyskom

/-! ## Printing what was parsed -/

/-- The old name of a text type is gone after parsing. -/
theorem not_kom_text_of_parseContentType {contenttype : Str} {m : MimeType}
    {encoding : Option Str} (h : parseContentType contenttype = .ok (m, encoding)) :
    ¬ (m.type = "x-kom".toList ∧ m.subtype = "text".toList) := by
  obtain ⟨mimeType, -, -, ⟨htype, -⟩ | ⟨htype, hsubtype, hkom⟩⟩ := parseContentType_eq_ok h
  · have hne : "text".toList ≠ "x-kom".toList := by decide
    rintro ⟨hold, -⟩
    exact hne (htype.symm.trans hold)
  · rwa [htype, hsubtype]

theorem parseContentType_printed {m : MimeType} (hclean : m.Clean)
    (hcharset : "charset".toList ∉ m.params)
    (hkom : ¬ (m.type = "x-kom".toList ∧ m.subtype = "text".toList)) :
    parseContentType (mimeTypeTupleToStr m) = .ok (m, none) := by
  have hnone : m.params.get? "charset".toList = none := Dict.get?_eq_none_iff.mpr hcharset
  rw [parseContentType, parseMimeType_mimeTypeTupleToStr hclean]
  simp only [hkom, if_false, hnone, Dict.erase_of_not_mem hcharset]
  rfl

/-- A printed content type is parsed to the same mime type, without a charset. -/
theorem parseContentType_mimeTypeTupleToStr {s : Str} {m : MimeType} {encoding : Option Str}
    (h : parseContentType s = .ok (m, encoding)) :
    parseContentType (mimeTypeTupleToStr m) = .ok (m, none) := by
  obtain ⟨hclean, hcharset⟩ := parseContentType_ok h
  exact parseContentType_printed hclean hcharset (not_kom_text_of_parseContentType h)

/-- White space, an empty name, a repeated one and a further `=`. -/
theorem parseContentType_mimeTypeTupleToStr_kom :
    parseContentType (mimeTypeTupleToStr ⟨"text".toList, "x-kom-basic".toList,
        ⟨[([], "=x".toList), (['a'], [])], by decide⟩⟩) =
      .ok (⟨"text".toList, "x-kom-basic".toList,
        ⟨[([], "=x".toList), (['a'], [])], by decide⟩⟩, none) := by
  have hparse : parseContentType " x-kom / text; ==x;a=1 ; a=;charset=b".toList =
      .ok (⟨"text".toList, "x-kom-basic".toList,
        ⟨[([], "=x".toList), (['a'], [])], by decide⟩⟩, some ['b']) := by decide
  exact parseContentType_mimeTypeTupleToStr hparse

/-- Two mime types that are parsed again when they are printed are printed differently. -/
theorem mimeTypeTupleToStr_inj {m m' : MimeType} (h : m.Clean) (h' : m'.Clean)
    (heq : mimeTypeTupleToStr m = mimeTypeTupleToStr m') : m = m' := by
  have hparse := parseMimeType_mimeTypeTupleToStr h
  rw [heq, parseMimeType_mimeTypeTupleToStr h'] at hparse
  exact (Except.ok.inj hparse).symm

/-! ## Strings that are read as they were -/

theorem dropWhile_of_strip {s : Str} (h : strip s = s) : s.dropWhile isSpace = s := by
  have hsuffix : s.dropWhile isSpace <:+ s := List.dropWhile_suffix _
  refine hsuffix.eq_of_length (Nat.le_antisymm hsuffix.length_le ?_)
  have hle : (strip s).length ≤ (s.dropWhile isSpace).length := by
    rw [strip_eq]
    exact (List.rdropWhile_prefix _ _).length_le
  rwa [h] at hle

theorem length_utf8AsLatin1_cons (c : Char) (s : Str) :
    (utf8AsLatin1 (c :: s)).length =
      (String.utf8EncodeChar c).length + (utf8AsLatin1 s).length := by
  rw [← List.singleton_append, utf8AsLatin1_append, List.length_append]
  congr 1
  rw [utf8AsLatin1, latin1Decode, List.length_map, utf8Encode, List.flatMap_singleton]

theorem length_utf8EncodeChar {c : Char} (h : 128 ≤ c.toNat) :
    2 ≤ (String.utf8EncodeChar c).length := by
  obtain ⟨b, b', bs, heq, -⟩ := utf8EncodeChar_second h
  simp [heq]

theorem length_le_length_utf8AsLatin1 (s : Str) : s.length ≤ (utf8AsLatin1 s).length := by
  induction s with
  | nil => exact Nat.le_refl 0
  | cons c s ih =>
    have hpos : 1 ≤ (String.utf8EncodeChar c).length := by
      by_cases h : c.toNat < 128
      · simp [utf8EncodeChar_ascii h]
      · have htwo := length_utf8EncodeChar (c := c) (by omega)
        omega
    rw [length_utf8AsLatin1_cons, List.length_cons]
    omega

/-- Only ASCII strings keep their length. -/
theorem isAscii_of_length {s : Str} (h : (utf8AsLatin1 s).length ≤ s.length) :
    isAscii s = true := by
  induction s with
  | nil => rfl
  | cons c s ih =>
    have hrest := length_le_length_utf8AsLatin1 s
    rw [length_utf8AsLatin1_cons, List.length_cons] at h
    have hc : c.toNat < 128 := by
      by_contra hhigh
      have htwo := length_utf8EncodeChar (c := c) (by omega)
      omega
    have hone : (String.utf8EncodeChar c).length = 1 := by simp [utf8EncodeChar_ascii hc]
    have hs := isAscii_iff.mp (ih (by omega))
    rw [isAscii_iff]
    intro d hd
    rcases List.mem_cons.mp hd with rfl | hd
    · exact hc
    · exact hs d hd

/-- What a character that is not white space becomes starts with such a character. -/
theorem utf8AsLatin1_lead {c : Char} (h : isSpace c = false) :
    ∃ d ds, utf8AsLatin1 [c] = d :: ds ∧ isSpace d = false := by
  by_cases hc : c.toNat < 128
  · exact ⟨c, [], utf8AsLatin1_singleton hc, h⟩
  · obtain ⟨b, bs, heq, hb, -⟩ := utf8EncodeChar_high (c := c) (by omega)
    have hlt : b.toNat < 256 := b.toNat_lt
    refine ⟨Char.ofNat b.toNat, latin1Decode bs, ?_, isSpace_high ?_ ?_⟩
    · rw [utf8AsLatin1, utf8Encode, List.flatMap_singleton, heq]
      rfl
    · rwa [toNat_ofNat_byte]
    · rwa [toNat_ofNat_byte]

theorem isSpace_of_dropWhile_cons {c : Char} {s : Str}
    (h : (c :: s).dropWhile isSpace = c :: s) : isSpace c = false := by
  by_contra hspace
  rw [List.dropWhile_cons_of_pos (by simpa using hspace)] at h
  have hle := (List.dropWhile_suffix (l := s) isSpace).length_le
  rw [h, List.length_cons] at hle
  omega

theorem dropWhile_of_append {s t : Str} (h : (s ++ t).dropWhile isSpace = s ++ t) :
    s.dropWhile isSpace = s := by
  cases s with
  | nil => rfl
  | cons c s =>
    have hc : isSpace c = false := isSpace_of_dropWhile_cons h
    exact List.dropWhile_cons_of_neg (by rw [hc]; exact Bool.false_ne_true)

/-- So nothing is stripped in front of a string that starts with no white space. -/
theorem dropWhile_utf8AsLatin1 {s : Str} (h : s.dropWhile isSpace = s) :
    (utf8AsLatin1 s).dropWhile isSpace = utf8AsLatin1 s := by
  cases s with
  | nil => rfl
  | cons c s =>
    obtain ⟨d, ds, heq, hd⟩ := utf8AsLatin1_lead (isSpace_of_dropWhile_cons h)
    rw [← List.singleton_append, utf8AsLatin1_append, heq, List.cons_append,
      List.dropWhile_cons_of_neg (by rw [hd]; exact Bool.false_ne_true)]

/-- A stripped string that is read as it was is ASCII. -/
theorem isAscii_of_strip_utf8AsLatin1 {s : Str} (hs : strip s = s)
    (h : strip (utf8AsLatin1 s) = s) : isAscii s = true := by
  rcases s.eq_nil_or_concat with rfl | ⟨front, c, rfl⟩
  · rfl
  rw [List.concat_eq_append] at hs h ⊢
  have hdrop := dropWhile_of_strip hs
  have hfront := dropWhile_utf8AsLatin1 (dropWhile_of_append hdrop)
  by_cases hc : c.toNat < 128
  · have hspace : isSpace c = false := by
      by_contra hspace
      rw [strip_append_of_all (by simpa using hspace)] at hs
      have hle : (strip front).length ≤ front.length := by
        rw [strip_eq]
        exact (List.rdropWhile_prefix _ _).length_le.trans (List.dropWhile_suffix _).length_le
      rw [hs, List.length_append, List.length_singleton] at hle
      omega
    apply isAscii_of_length
    rw [utf8AsLatin1_append, utf8AsLatin1_singleton hc, strip_append_cons hspace, hfront] at h
    rw [utf8AsLatin1_append, utf8AsLatin1_singleton hc]
    exact (congrArg List.length h).le
  · -- Of the last character only its first byte can be left, and then it is that byte.
    obtain ⟨b, b', bs, heq, hb, hsecond⟩ := utf8EncodeChar_second (c := c) (by omega)
    have hlt : b.toNat < 256 := b.toNat_lt
    have hlead : isSpace (Char.ofNat b.toNat) = false := by
      apply isSpace_high
      · rwa [toNat_ofNat_byte]
      · rwa [toNat_ofNat_byte]
    have hlast : utf8AsLatin1 [c] =
        Char.ofNat b.toNat :: Char.ofNat b'.toNat :: latin1Decode bs := by
      rw [utf8AsLatin1, utf8Encode, List.flatMap_singleton, heq]
      rfl
    rw [utf8AsLatin1_append, hlast, strip_append_cons hlead, hfront] at h
    have hlen := congrArg List.length h
    have hle := length_le_length_utf8AsLatin1 front
    rw [List.length_append, List.length_append, List.length_cons, List.length_singleton] at hlen
    obtain ⟨-, hcons⟩ := List.append_inj h (by omega)
    obtain ⟨hfirst, hrest⟩ := List.cons.inj hcons
    have hnumber : b.toNat = c.toNat := by rw [← toNat_ofNat_byte b, hfirst]
    have hspace := List.rdropWhile_eq_nil_iff.mp hrest _ List.mem_cons_self
    rw [hsecond hnumber] at hspace
    exact absurd hspace (by decide)

/-! ## Mime types that are read as they were -/

/-- The items that are set are all there only if none replaced another. -/
theorem items_foldl_set_of_length (params : List (Str × Str)) (d : Dict Str Str) :
    (params.foldl (fun d p => d.set p.1 p.2) d).items.length ≤ d.items.length + params.length ∧
      (d.items.length + params.length ≤
          (params.foldl (fun d p => d.set p.1 p.2) d).items.length →
        (params.foldl (fun d p => d.set p.1 p.2) d).items = d.items ++ params) := by
  induction params generalizing d with
  | nil => simp
  | cons p params ih =>
    obtain ⟨hle, heq⟩ := ih (d.set p.1 p.2)
    rw [List.foldl_cons, List.length_cons]
    by_cases hmem : p.1 ∈ d
    · have hset : (d.set p.1 p.2).items.length = d.items.length := by
        have hkeys := congrArg List.length (Dict.keys_setItems p.1 p.2 d.items)
        have hkey : p.1 ∈ d.items.map Prod.fst := hmem
        rw [if_pos hkey, List.length_map, List.length_map] at hkeys
        exact hkeys
      exact ⟨by omega, fun h => by omega⟩
    · have hset : (d.set p.1 p.2).items = d.items ++ [p] := Dict.setItems_of_not_mem hmem
      rw [hset, List.length_append, List.length_singleton] at hle heq
      refine ⟨by omega, fun h => ?_⟩
      rw [heq (by omega), List.append_assoc]
      rfl

/-- `s` with each part printed in UTF-8 and read as latin-1. -/
def MimeType.reread (m : MimeType) : MimeType where
  type := strip (utf8AsLatin1 m.type)
  subtype := strip (utf8AsLatin1 m.subtype)
  params := paramsOf (m.params.items.map fun p =>
    (strip (utf8AsLatin1 p.1), strip (utf8AsLatin1 p.2)))

/-- All parts are ASCII. -/
def MimeType.IsAscii (m : MimeType) : Prop :=
  isAscii m.type = true ∧ isAscii m.subtype = true ∧
    ∀ p ∈ m.params.items, isAscii p.1 = true ∧ isAscii p.2 = true

theorem MimeType.reread_clean {m : MimeType} (h : m.Clean) : m.reread.Clean :=
  parseMimeType_clean (parseMimeType_utf8AsLatin1 h)

theorem MimeType.reread_eq_iff {m : MimeType} (h : m.Clean) : m.reread = m ↔ m.IsAscii := by
  constructor
  · intro heq
    have hparams : (paramsOf (m.params.items.map fun p =>
        (strip (utf8AsLatin1 p.1), strip (utf8AsLatin1 p.2)))).items = m.params.items :=
      congrArg (fun m => m.params.items) heq
    have hall := (items_foldl_set_of_length (m.params.items.map fun p =>
      (strip (utf8AsLatin1 p.1), strip (utf8AsLatin1 p.2))) ∅).2
    have hlen := congrArg List.length hparams
    rw [paramsOf] at hparams hlen
    rw [hparams, List.length_map] at hall
    have hmap := hall (Nat.zero_add _).le
    refine ⟨isAscii_of_strip_utf8AsLatin1 h.type.2 (congrArg MimeType.type heq),
      isAscii_of_strip_utf8AsLatin1 h.subtype.2 (congrArg MimeType.subtype heq), fun p hp => ?_⟩
    have hitems : m.params.items.map (fun p =>
        (strip (utf8AsLatin1 p.1), strip (utf8AsLatin1 p.2))) = m.params.items.map id := by
      rw [List.map_id]
      exact hmap.symm
    have hpair := List.map_inj_left.mp hitems p hp
    obtain ⟨hname, hvalue⟩ := Prod.mk.inj hpair
    obtain ⟨hk, hv⟩ := h.params p hp
    exact ⟨isAscii_of_strip_utf8AsLatin1 hk.2 hname, isAscii_of_strip_utf8AsLatin1 hv.2 hvalue⟩
  · rintro ⟨htype, hsubtype, hparams⟩
    have hitems : m.params.items.map (fun p =>
        (strip (utf8AsLatin1 p.1), strip (utf8AsLatin1 p.2))) = m.params.items := by
      conv_rhs => rw [← List.map_id m.params.items]
      refine List.map_congr_left fun p hp => ?_
      obtain ⟨hk, hv⟩ := hparams p hp
      exact Prod.ext (KomText.strip_utf8AsLatin1_of_ascii hk (h.params p hp).1.2)
        (KomText.strip_utf8AsLatin1_of_ascii hv (h.params p hp).2.2)
    rw [reread, hitems, paramsOf_items, KomText.strip_utf8AsLatin1_of_ascii htype h.type.2,
      KomText.strip_utf8AsLatin1_of_ascii hsubtype h.subtype.2]

/-- A parameter that is read as the charset was the charset. -/
theorem MimeType.charset_not_mem_reread {m : MimeType} (h : m.Clean)
    (hcharset : "charset".toList ∉ m.params) : "charset".toList ∉ m.reread.params := by
  rw [← Dict.get?_eq_none_iff]
  apply get?_paramsOf_eq_none
  intro q hq heq
  obtain ⟨p, hp, rfl⟩ := List.mem_map.mp hq
  have hname := eq_of_strip_utf8AsLatin1 (by decide) (h.params p hp).1.2 heq
  exact hcharset (hname ▸ List.mem_map_of_mem hp)

theorem MimeType.not_kom_text_reread {m : MimeType} (h : m.Clean)
    (hkom : ¬ (m.type = "x-kom".toList ∧ m.subtype = "text".toList)) :
    ¬ (m.reread.type = "x-kom".toList ∧ m.reread.subtype = "text".toList) := by
  rintro ⟨htype, hsubtype⟩
  exact hkom ⟨eq_of_strip_utf8AsLatin1 (by decide) h.type.2 htype,
    eq_of_strip_utf8AsLatin1 (by decide) h.subtype.2 hsubtype⟩

/-- A content type without charset is read part by part. -/
theorem parseContentType_reread {m : MimeType} (h : m.Clean)
    (hcharset : "charset".toList ∉ m.params)
    (hkom : ¬ (m.type = "x-kom".toList ∧ m.subtype = "text".toList)) :
    parseContentType (utf8AsLatin1 (mimeTypeTupleToStr m)) = .ok (m.reread, none) := by
  have hread : parseMimeType (utf8AsLatin1 (mimeTypeTupleToStr m)) = .ok m.reread :=
    parseMimeType_utf8AsLatin1 h
  have hnot := m.charset_not_mem_reread h hcharset
  rw [parseContentType, hread]
  simp only [m.not_kom_text_reread h hkom, if_false, Dict.get?_eq_none_iff.mpr hnot,
    Dict.erase_of_not_mem hnot]
  rfl

/-- And a text's content type, which has a charset, without it. -/
theorem parseContentType_reread_text {m : MimeType} (h : m.Clean)
    (hcharset : "charset".toList ∉ m.params) (htype : m.type = "text".toList) :
    parseContentType (utf8AsLatin1 (mimeTypeTupleToStr
        { m with params := m.params.set "charset".toList "utf-8".toList })) =
      .ok (m.reread, some "utf-8".toList) := by
  obtain ⟨hfinal, hparams⟩ := KomText.clean_set_charset h hcharset
  have hset : paramsOf ((m.params.set "charset".toList "utf-8".toList).items.map fun p =>
      (strip (utf8AsLatin1 p.1), strip (utf8AsLatin1 p.2))) =
      m.reread.params.set "charset".toList "utf-8".toList := by
    rw [hparams, List.map_append, List.map_singleton,
      KomText.strip_utf8AsLatin1_of_ascii (s := "charset".toList) (by decide) (by decide),
      KomText.strip_utf8AsLatin1_of_ascii (s := "utf-8".toList) (by decide) (by decide),
      paramsOf, List.foldl_append]
    rfl
  have hread : parseMimeType (utf8AsLatin1 (mimeTypeTupleToStr
      { m with params := m.params.set "charset".toList "utf-8".toList })) =
      .ok { m.reread with
        params := m.reread.params.set "charset".toList "utf-8".toList } := by
    rw [← hset]
    exact parseMimeType_utf8AsLatin1 hfinal
  have htype' : m.reread.type = "text".toList := by
    rw [MimeType.reread, htype, KomText.strip_utf8AsLatin1_of_ascii (by decide) (by decide)]
  have hne : m.reread.type ≠ "x-kom".toList := htype' ▸ by decide
  rw [parseContentType_of_parse hread hne ((Dict.get?_set ..).trans (if_pos rfl)) (by decide)]
  simp only [Dict.erase_set_of_not_mem (m.charset_not_mem_reread h hcharset)]

namespace KomText

/-! ## The content type that a `KomText` has -/

/-- A text gets a charset, the other types keep their mime type. -/
theorem fulltext_mimeType {subject : Option Str} {body : BytesOrStr} {m final : MimeType}
    {full : Bytes} (h : fulltext subject body m = .ok (full, final)) :
    final = if m.type = "text".toList then
        { m with params := m.params.set "charset".toList "utf-8".toList } else m := by
  unfold fulltext at h
  by_cases htext : m.type = "text".toList
  · rw [if_pos htext] at h ⊢
    split at h
    · exact (Prod.mk.inj (Except.ok.inj h)).2.symm
    · cases h
  · rw [if_neg htext] at h ⊢
    split at h
    · cases hbody : encodeLatin1 (some body) with
      | error e => rw [hbody] at h; cases h
      | ok raw =>
        rw [hbody] at h
        exact (Prod.mk.inj (Except.ok.inj h)).2.symm
    · split at h
      · cases hsubject : encodeLatin1 (subject.map .str) with
        | error e => rw [hsubject] at h; cases h
        | ok raw =>
          rw [hsubject] at h
          cases body with
          | bytes body => exact (Prod.mk.inj (Except.ok.inj h)).2.symm
          | str body => cases h
      · cases h

/-- Decoding a text fails only where decoding bytes does. -/
theorem decodeText_ok {codecs : Codecs} {encoding : Option Str}
    (h : ∀ text, ∃ s, Pylyskom.decodeText codecs text encoding = .ok s) (text : Option Bytes)
    (m : MimeType) : ∃ result, decodeText codecs text m encoding = .ok result := by
  cases text with
  | none => exact ⟨_, rfl⟩
  | some text =>
    rw [decodeText]
    split
    · obtain ⟨s, hs⟩ := h text
      rw [hs]
      exact ⟨_, rfl⟩
    · cases hspan : text.span (· ≠ '\n'.toUInt8) with
      | mk rawsubject rest =>
        cases rest with
        | nil =>
          obtain ⟨s, hs⟩ := h text
          simp only [pure, Except.pure, bind, Except.bind, hs]
          split
          · exact ⟨_, rfl⟩
          · exact ⟨_, rfl⟩
        | cons c rawbody =>
          obtain ⟨s, hs⟩ := h rawsubject
          obtain ⟨t, ht⟩ := h rawbody
          simp only [pure, Except.pure, bind, Except.bind, hs, ht]
          split
          · exact ⟨_, rfl⟩
          · exact ⟨_, rfl⟩

/-- Without an encoding, and with UTF-8, all bytes are decoded. -/
theorem decodeText_utf8 {codecs : Codecs}
    (hcodecs : ∀ text, (∃ s, codecs "utf-8".toList text = .ok s) ∨
      codecs "utf-8".toList text = .error (.builtinError .unicodeDecodeError))
    {encoding : Option Str} (h : encoding = none ∨ encoding = some "utf-8".toList)
    (text : Bytes) : ∃ s, Pylyskom.decodeText codecs text encoding = .ok s := by
  rcases h with rfl | rfl
  · exact ⟨_, rfl⟩
  · rcases hcodecs text with ⟨s, hs⟩ | herror
    · exact ⟨s, by rw [Pylyskom.decodeText, hs]⟩
    · exact ⟨_, by rw [Pylyskom.decodeText, herror]⟩

/-- The stored content type of a created text is parsed to the parts as they are read. -/
theorem parseContentType_created {subject : Option Str} {body : BytesOrStr} {contentType : Str}
    {software : Option Str} {recipientList commentToList : List (Str × ℕ)} {m : MimeType}
    {encoding : Option Str} {new : New} {textStat : TextStat}
    (hparse : parseContentType contentType = .ok (m, encoding))
    (hnew : createNewText subject body contentType software recipientList commentToList = .ok new)
    (hstored : textStat.auxItems.map (fun x => (x.tag, x.data)) =
      new.auxItems.map (fun x => (x.tag, x.data))) :
    ∃ encoding, parseContentType (getContentTypeFromTextStat textStat) =
        .ok (m.reread, encoding) ∧ (encoding = none ∨ encoding = some "utf-8".toList) := by
  obtain ⟨m', encoding', full, final, hparse', hclean, hcharset, hfull, -, hitems⟩ :=
    createNewText_ok hnew
  obtain ⟨rfl, -⟩ : m' = m ∧ encoding' = encoding := by simpa [hparse'] using hparse
  rw [getContentTypeFromTextStat_stored hitems hstored, fulltext_mimeType hfull]
  by_cases htext : m'.type = "text".toList
  · rw [if_pos htext]
    exact ⟨_, parseContentType_reread_text hclean hcharset htext, Or.inr rfl⟩
  · rw [if_neg htext]
    exact ⟨_, parseContentType_reread hclean hcharset (not_kom_text_of_parseContentType hparse'),
      Or.inl rfl⟩

/-- A `KomText` of the stored text has the content type that was given at creation if and
only if that is ASCII. -/
theorem contentType_created_iff {codecs : Codecs}
    (hcodecs : ∀ text, (∃ s, codecs "utf-8".toList text = .ok s) ∨
      codecs "utf-8".toList text = .error (.builtinError .unicodeDecodeError))
    {subject : Option Str} {body : BytesOrStr} {contentType : Str}
    {software : Option Str} {recipientList commentToList : List (Str × ℕ)} {m : MimeType}
    {encoding : Option Str} {new : New} {textStat : TextStat}
    (hparse : parseContentType contentType = .ok (m, encoding))
    (hnew : createNewText subject body contentType software recipientList commentToList = .ok new)
    (hstored : textStat.auxItems.map (fun x => (x.tag, x.data)) =
      new.auxItems.map (fun x => (x.tag, x.data)))
    (textNo : ℕ) (text : Option Bytes) (auxItems : List KomAuxItem) (author : KomPersonName) :
    (∃ komtext, ofTextStat codecs textNo text textStat auxItems author = .ok komtext ∧
        komtext.contentType = mimeTypeTupleToStr m) ↔ m.IsAscii := by
  obtain ⟨encoding, hcontent, hencoding⟩ := parseContentType_created hparse hnew hstored
  obtain ⟨hclean, -⟩ := parseContentType_ok hparse
  obtain ⟨result, hdecode⟩ := decodeText_ok (decodeText_utf8 hcodecs hencoding) text m.reread
  rw [← m.reread_eq_iff hclean]
  simp only [ofTextStat, hcontent, hdecode, bind, Except.bind]
  constructor
  · rintro ⟨komtext, hok, hsame⟩
    obtain rfl := Except.ok.inj hok
    exact mimeTypeTupleToStr_inj (m.reread_clean hclean) hclean hsame
  · intro hsame
    exact ⟨_, rfl, congrArg mimeTypeTupleToStr hsame⟩

/-- A text-stat of the text as it was sent, with nothing added to it. -/
def New.textStat (new : New) : TextStat where
  creationTime := ⟨0, 0, 0, 0, 0, 0, 0, 0, 0⟩
  author := 0
  noOfLines := 0
  noOfChars := 0
  noOfMarks := 0
  miscInfo := { recipientList := new.recipientList, commentToList := new.commentToList }
  auxItems := new.auxItems.map fun x =>
    { auxNo := 0
      tag := x.tag
      creator := 0
      createdAt := ⟨0, 0, 0, 0, 0, 0, 0, 0, 0⟩
      flags := x.flags
      inheritLimit := x.inheritLimit
      data := x.data }

theorem New.textStat_auxItems (new : New) :
    new.textStat.auxItems.map (fun x => (x.tag, x.data)) =
      new.auxItems.map (fun x => (x.tag, x.data)) := by
  simp [textStat]

theorem contentType_created_image :
    ∃ new, createNewText (some []) (.bytes [255]) "image/png; name=a b".toList none [] [] =
        .ok new ∧
      ((∃ komtext, ofTextStat utf8Codecs 1 (some new.text) new.textStat [] ⟨1, []⟩ =
            .ok komtext ∧
          komtext.contentType = mimeTypeTupleToStr
            ⟨"image".toList, "png".toList, ⟨[("name".toList, "a b".toList)], by decide⟩⟩) ↔
        MimeType.IsAscii
          ⟨"image".toList, "png".toList, ⟨[("name".toList, "a b".toList)], by decide⟩⟩) := by
  have hcodecs (text : Bytes) : (∃ s, utf8Codecs "utf-8".toList text = .ok s) ∨
      utf8Codecs "utf-8".toList text = .error (.builtinError .unicodeDecodeError) := by
    rw [utf8Codecs, if_pos rfl]
    cases utf8Decode text with
    | none => exact Or.inr rfl
    | some s => exact Or.inl ⟨s, rfl⟩
  have hparse : parseContentType "image/png; name=a b".toList =
      .ok (⟨"image".toList, "png".toList, ⟨[("name".toList, "a b".toList)], by decide⟩⟩, none) := by
    decide
  let new : New :=
    { subject := some []
      body := .bytes [255]
      contentType := "image/png; name=a b".toList
      text := [10, 255]
      recipientList := []
      commentToList := []
      textContentType := "image/png;name=a b".toList
      auxItems := [{ tag := AI_CONTENT_TYPE, data := utf8Encode "image/png;name=a b".toList }] }
  have hnew : createNewText (some []) (.bytes [255]) "image/png; name=a b".toList none [] [] =
      .ok new := by decide
  exact ⟨new, hnew, contentType_created_iff hcodecs hparse hnew new.textStat_auxItems 1 _ [] _⟩

/-- The name of an image is read back in the wrong encoding. -/
theorem contentType_created_ne :
    ∃ new komtext, createNewText (some []) (.bytes [255]) "image/png;name=é".toList none [] [] =
        .ok new ∧
      parseContentType "image/png;name=é".toList =
        .ok (⟨"image".toList, "png".toList, ⟨[("name".toList, ['é'])], by decide⟩⟩, none) ∧
      ofTextStat utf8Codecs 1 (some new.text) new.textStat [] ⟨1, []⟩ = .ok komtext ∧
      komtext.contentType = "image/png;name=Ã©".toList ∧
      komtext.contentType ≠ mimeTypeTupleToStr
        ⟨"image".toList, "png".toList, ⟨[("name".toList, ['é'])], by decide⟩⟩ :=
  ⟨_, _, rfl, by decide, rfl, by decide, by decide⟩

end KomText

end Pylyskom
