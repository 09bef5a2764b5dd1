import Pylyskom.KomText
import Pylyskom.Mime.Printed

/-!
# Created texts read back

`create_new_text` encodes the content type of a text in UTF-8, and a `KomText` is made by
decoding it in latin-1. The subject and the body survive this, since the separators and the
name of the charset are ASCII.
-/

namespace Pylyskom

/-! ## UTF-8 read as latin-1 -/

/-- What becomes of a text string that is encoded in UTF-8 and decoded in latin-1. -/
def utf8AsLatin1 (s : Str) : Str := latin1Decode (utf8Encode s)

theorem utf8AsLatin1_append (s t : Str) :
    utf8AsLatin1 (s ++ t) = utf8AsLatin1 s ++ utf8AsLatin1 t := by
  simp only [utf8AsLatin1, utf8Encode, latin1Decode, List.flatMap_append, List.map_append]

theorem utf8AsLatin1_singleton {c : Char} (h : c.toNat < 128) : utf8AsLatin1 [c] = [c] := by
  have hchar : Char.ofNat c.toUInt8.toNat = c := by
    rw [toNat_toUInt8 (by omega), Char.ofNat_toNat]
  rw [utf8AsLatin1, utf8Encode, List.flatMap_singleton, utf8EncodeChar_ascii h]
  exact congrArg (fun c => [c]) hchar

/-- `s.isascii()` -/
def isAscii (s : Str) : Bool := s.all fun c => c.toNat < 128

theorem isAscii_iff {s : Str} : isAscii s = true ↔ ∀ c ∈ s, c.toNat < 128 := by simp [isAscii]

theorem utf8AsLatin1_of_ascii {s : Str} (h : isAscii s = true) : utf8AsLatin1 s = s := by
  rw [isAscii_iff] at h
  induction s with
  | nil => rfl
  | cons c s ih =>
    rw [← List.singleton_append, utf8AsLatin1_append, utf8AsLatin1_singleton (h c (by simp)),
      ih fun x hx => h x (List.mem_cons_of_mem c hx)]

/-- An ASCII character is there only if it was there before. -/
theorem mem_utf8AsLatin1 {s : Str} {c : Char} (hc : c.toNat < 128) :
    c ∈ utf8AsLatin1 s ↔ c ∈ s := by
  have hbyte : ∀ d : Char, d.toNat = c.toUInt8.toNat ↔ d = c := by
    intro d
    rw [toNat_toUInt8 (by omega)]
    exact Char.toNat_inj
  have hmem : c ∈ utf8AsLatin1 s ↔ c.toUInt8 ∈ utf8Encode s := by
    rw [utf8AsLatin1, latin1Decode, List.mem_map]
    constructor
    · rintro ⟨b, hb, rfl⟩
      rw [toUInt8_ofNat_byte]
      exact hb
    · intro hb
      refine ⟨_, hb, ?_⟩
      rw [toNat_toUInt8 (by omega), Char.ofNat_toNat]
  rw [hmem, mem_utf8Encode (by rw [toNat_toUInt8 (by omega)]; exact hc)]
  simp [hbyte]

theorem utf8AsLatin1_intercalate {sep : Char} (hsep : sep.toNat < 128) (parts : List Str) :
    utf8AsLatin1 ([sep].intercalate parts) = [sep].intercalate (parts.map utf8AsLatin1) := by
  induction parts with
  | nil => rfl
  | cons part parts ih =>
    cases parts with
    | nil => simp [List.intercalate]
    | cons part' parts =>
      have hcons : ∀ (p p' : Str) (ps : List Str), [sep].intercalate (p :: p' :: ps) =
          p ++ ([sep] ++ [sep].intercalate (p' :: ps)) := by
        intro p p' ps
        simp [List.intercalate]
      rw [hcons, utf8AsLatin1_append, utf8AsLatin1_append, ih, utf8AsLatin1_singleton hsep]
      simp only [List.map_cons, hcons]

/-- All white space in latin-1 comes before the bytes that start a character in UTF-8. -/
theorem isSpace_high {c : Char} (h : 0xc0 ≤ c.toNat) (h' : c.toNat < 256) : isSpace c = false := by
  simp only [isSpace, Bool.or_eq_false_iff, Bool.and_eq_false_iff, decide_eq_false_iff_not,
    List.mem_cons, List.not_mem_nil, or_false]
  omega

/-- A string that reads as an ASCII string was that string. -/
theorem eq_of_strip_utf8AsLatin1 {s t : Str} (ht : isAscii t = true) (hs : strip s = s)
    (h : strip (utf8AsLatin1 s) = t) : s = t := by
  by_cases hascii : isAscii s = true
  · rw [utf8AsLatin1_of_ascii hascii, hs] at h
    exact h
  · -- The first byte of a character above ASCII is not stripped.
    rw [isAscii_iff] at hascii ht
    obtain ⟨c, hc⟩ := not_forall.mp hascii
    obtain ⟨hmem, hhigh⟩ := Classical.not_imp.mp hc
    obtain ⟨b, bs, heq, hb, -⟩ := utf8EncodeChar_high (c := c) (by omega)
    have hlt : b.toNat < 256 := b.toNat_lt
    have hread : Char.ofNat b.toNat ∈ utf8AsLatin1 s := by
      apply List.mem_map_of_mem
      exact List.mem_flatMap.mpr ⟨c, hmem, by rw [heq]; exact List.mem_cons_self⟩
    have hspace : isSpace (Char.ofNat b.toNat) = false := by
      apply isSpace_high
      · rw [toNat_ofNat_byte]
        exact hb
      · rw [toNat_ofNat_byte]
        exact hlt
    have hstripped := mem_strip hread hspace
    rw [h] at hstripped
    have hsmall := ht _ hstripped
    rw [toNat_ofNat_byte] at hsmall
    omega

/-! ## The content type that is read -/

/-- The parts of a printed content type are read one by one. -/
theorem parseMimeType_utf8AsLatin1 {m : MimeType} (h : m.Clean) :
    parseMimeType (utf8AsLatin1 (mimeTypeTupleToStr m)) =
      .ok ⟨strip (utf8AsLatin1 m.type), strip (utf8AsLatin1 m.subtype),
        paramsOf (m.params.items.map fun p =>
          (strip (utf8AsLatin1 p.1), strip (utf8AsLatin1 p.2)))⟩ := by
  have hnot : ∀ {seps s : Str} {c : Char}, CleanPart seps s → c ∈ seps → c.toNat < 128 →
      c ∉ utf8AsLatin1 s := fun hclean hc hascii hmem =>
    hclean.1 _ hc ((mem_utf8AsLatin1 hascii).mp hmem)
  have hparam : ∀ p : Str × Str, utf8AsLatin1 (p.1 ++ ['='] ++ p.2) =
      utf8AsLatin1 p.1 ++ ['='] ++ utf8AsLatin1 p.2 := by
    intro p
    rw [utf8AsLatin1_append, utf8AsLatin1_append, utf8AsLatin1_singleton (by decide)]
  have htype : utf8AsLatin1 (m.type ++ ['/'] ++ m.subtype) =
      utf8AsLatin1 m.type ++ ['/'] ++ utf8AsLatin1 m.subtype := by
    rw [utf8AsLatin1_append, utf8AsLatin1_append, utf8AsLatin1_singleton (by decide)]
  have hparts := @parseMimeType_parts _ _
    (m.params.items.map fun p => (utf8AsLatin1 p.1, utf8AsLatin1 p.2))
    ⟨hnot h.type (c := ';') (by simp) (by decide), hnot h.type (by simp) (by decide)⟩
    ⟨hnot h.subtype (c := ';') (by simp) (by decide), hnot h.subtype (by simp) (by decide)⟩ ?_
  · rw [mimeTypeTupleToStr, utf8AsLatin1_intercalate (by decide), List.map_cons, htype]
    simp only [List.map_map, Function.comp_def, hparam] at hparts ⊢
    exact hparts
  · intro q hq
    obtain ⟨p, hp, rfl⟩ := List.mem_map.mp hq
    obtain ⟨hk, hv⟩ := h.params p hp
    exact ⟨⟨hnot hk (by simp) (by decide), hnot hk (by simp) (by decide)⟩,
      hnot hv (by simp) (by decide)⟩

theorem get?_paramsOf_eq_none {params : List (Str × Str)} {k : Str}
    (h : ∀ p ∈ params, p.1 ≠ k) : (paramsOf params).get? k = none := by
  rw [Dict.get?_eq_none_iff]
  intro hmem
  obtain ⟨p, hp, rfl⟩ := List.mem_map.mp hmem
  exact h p (mem_of_mem_paramsOf hp) rfl

theorem get?_paramsOf_append (params : List (Str × Str)) (p : Str × Str) :
    (paramsOf (params ++ [p])).get? p.1 = some p.2 := by
  simp [paramsOf, List.foldl_append]

/-- A content type that is parsed loses its charset, and the old name of a text type. -/
theorem parseContentType_eq_ok {contenttype : Str} {m : MimeType} {encoding : Option Str}
    (h : parseContentType contenttype = .ok (m, encoding)) :
    ∃ mimeType, parseMimeType contenttype = .ok mimeType ∧
      m.params = mimeType.params.erase "charset".toList ∧
      (m.type = "text".toList ∧ m.subtype = "x-kom-basic".toList ∨
        m.type = mimeType.type ∧ m.subtype = mimeType.subtype ∧
          ¬ (mimeType.type = "x-kom".toList ∧ mimeType.subtype = "text".toList)) := by
  cases hparse : parseMimeType contenttype with
  | error e =>
    rw [parseContentType, hparse] at h
    cases h
  | ok mimeType =>
    rw [parseContentType, hparse] at h
    obtain ⟨rfl, -⟩ := Prod.mk.inj (Except.ok.inj h)
    by_cases hkom : mimeType.type = "x-kom".toList ∧ mimeType.subtype = "text".toList
    · rw [if_pos hkom]
      exact ⟨mimeType, rfl, rfl, Or.inl ⟨rfl, rfl⟩⟩
    · rw [if_neg hkom]
      exact ⟨mimeType, rfl, rfl, Or.inr ⟨rfl, rfl, hkom⟩⟩

/-- A content type that was parsed has no charset left. -/
theorem parseContentType_ok {contenttype : Str} {m : MimeType} {encoding : Option Str}
    (h : parseContentType contenttype = .ok (m, encoding)) :
    m.Clean ∧ "charset".toList ∉ m.params := by
  obtain ⟨mimeType, hparse, hparams, hnames⟩ := parseContentType_eq_ok h
  have hclean := parseMimeType_clean hparse
  have hparts : CleanPart [';', '/'] m.type ∧ CleanPart [';', '/'] m.subtype := by
    rcases hnames with ⟨htype, hsubtype⟩ | ⟨htype, hsubtype, -⟩
    · rw [htype, hsubtype]
      exact ⟨cleanPart_of_all (by decide) (by decide), cleanPart_of_all (by decide) (by decide)⟩
    · rw [htype, hsubtype]
      exact ⟨hclean.type, hclean.subtype⟩
  refine ⟨⟨hparts.1, hparts.2, fun p hp => ?_⟩, fun hmem => ?_⟩
  · rw [hparams] at hp
    exact hclean.params p (List.mem_of_mem_filter hp)
  · rw [hparams] at hmem
    exact (Dict.mem_erase.mp hmem).1 rfl

/-- What `parse_content_type` makes of a type that is not `x-kom`. -/
theorem parseContentType_of_parse {contenttype : Str} {m : MimeType} {encoding : Option Str}
    (hparse : parseMimeType contenttype = .ok m) (hkom : m.type ≠ "x-kom".toList)
    (hcharset : m.params.get? "charset".toList = encoding)
    (hctext : encoding ≠ some "x-ctext".toList) :
    parseContentType contenttype =
      .ok ({ m with params := m.params.erase "charset".toList }, encoding) := by
  rw [parseContentType, hparse]
  simp only [hkom, false_and, if_false, hcharset, hctext]

namespace KomText

/-- The `KomText` of a text that the server has stored as it was created has this subject
and body. -/
def ReadsBack (codecs : Codecs) (new : New) (subject : Str) (body : BytesOrStr) : Prop :=
  ∀ (textNo : ℕ) (textStat : TextStat) (auxItems : List KomAuxItem) (author : KomPersonName),
    textStat.auxItems.map (fun x => (x.tag, x.data)) =
      new.auxItems.map (fun x => (x.tag, x.data)) →
    ∃ komtext, ofTextStat codecs textNo (some new.text) textStat auxItems author = .ok komtext ∧
      komtext.subject = some subject ∧ komtext.body = some body

theorem createNewText_ok {subject : Option Str} {body : BytesOrStr} {contentType : Str}
    {software : Option Str} {recipientList commentToList : List (Str × ℕ)} {new : New}
    (h : createNewText subject body contentType software recipientList commentToList = .ok new) :
    ∃ m encoding full final, parseContentType contentType = .ok (m, encoding) ∧ m.Clean ∧
      "charset".toList ∉ m.params ∧ fulltext subject body m = .ok (full, final) ∧
      new.text = full ∧
      new.auxItems = (software.toList.map fun software =>
          { tag := AI_CREATING_SOFTWARE, data := utf8Encode software }) ++
        [{ tag := AI_CONTENT_TYPE, data := utf8Encode (mimeTypeTupleToStr final) }] := by
  unfold createNewText at h
  cases hparse : parseContentType contentType with
  | error e =>
    rw [hparse] at h
    cases h
  | ok parsed =>
    obtain ⟨m, encoding⟩ := parsed
    obtain ⟨hclean, hcharset⟩ := parseContentType_ok hparse
    rw [hparse] at h
    simp only [bind, Except.bind, parseMimeType_mimeTypeTupleToStr hclean] at h
    cases hfull : fulltext subject body m with
    | error e =>
      rw [hfull] at h
      cases h
    | ok result =>
      obtain ⟨full, final⟩ := result
      refine ⟨m, encoding, full, final, rfl, hclean, hcharset, hfull, ?_⟩
      rw [hfull] at h
      simp only at h
      split at h
      · cases h
      split at h
      · cases h
      obtain rfl := Except.ok.inj h
      exact ⟨rfl, rfl⟩

/-- The content type of a stored text is the created one, read as latin-1. -/
theorem getContentTypeFromTextStat_stored {new : List AuxItemInput} {software : Option Str}
    {final : Str} {textStat : TextStat}
    (hnew : new = (software.toList.map fun software =>
        { tag := AI_CREATING_SOFTWARE, data := utf8Encode software }) ++
      [{ tag := AI_CONTENT_TYPE, data := utf8Encode final }])
    (hstored : textStat.auxItems.map (fun x => (x.tag, x.data)) =
      new.map (fun x => (x.tag, x.data))) :
    getContentTypeFromTextStat textStat = utf8AsLatin1 final := by
  have hne : AI_CREATING_SOFTWARE ≠ AI_CONTENT_TYPE := by decide
  have hfind : (new.map fun x => (x.tag, x.data)).find? (fun x => x.1 = AI_CONTENT_TYPE) =
      some (AI_CONTENT_TYPE, utf8Encode final) := by
    subst hnew
    cases software with
    | none => simp
    | some software => simp [hne]
  rw [← hstored, List.find?_map] at hfind
  obtain ⟨auxItem, hitem, heq⟩ := Option.map_eq_some_iff.mp hfind
  have hitem' : textStat.auxItems.find? (fun x => decide (x.tag = AI_CONTENT_TYPE)) =
      some auxItem := hitem
  rw [getContentTypeFromTextStat, hitem']
  exact congrArg latin1Decode (congrArg Prod.snd heq)

/-- The subject ends at the first newline. -/
theorem decodeText_newline (codecs : Codecs) {rawsubject rawbody : Bytes} {m : MimeType}
    (encoding : Option Str) (hnewline : '\n'.toUInt8 ∉ rawsubject)
    (hkom : m.type ≠ "x-kom".toList) :
    decodeText codecs (some (rawsubject ++ '\n'.toUInt8 :: rawbody)) m encoding = (do
      let subject ← Pylyskom.decodeText codecs rawsubject encoding
      if m.type = "text".toList then do
        let body ← Pylyskom.decodeText codecs rawbody encoding
        return (some subject, some (.str body))
      else return (some subject, some (.bytes rawbody))) := by
  have htake : ∀ c ∈ rawsubject, decide (c ≠ '\n'.toUInt8) = true := by
    intro c hc
    rw [decide_eq_true_iff]
    rintro rfl
    exact hnewline hc
  have hspan := span_append_cons htake (a := '\n'.toUInt8) (by simp) rawbody
  simp only [decodeText, hkom, false_and, if_false, hspan]
  cases Pylyskom.decodeText codecs rawsubject encoding with
  | error e => rfl
  | ok subject => rfl

theorem ofTextStat_ok {codecs : Codecs} {textNo : ℕ} {text : Bytes} {textStat : TextStat}
    {m : MimeType} {encoding : Option Str} {subject : Str} {body : BytesOrStr}
    (hparse : parseContentType (getContentTypeFromTextStat textStat) = .ok (m, encoding))
    (hdecode : decodeText codecs (some text) m encoding = .ok (some subject, some body))
    (auxItems : List KomAuxItem) (author : KomPersonName) :
    ∃ komtext, ofTextStat codecs textNo (some text) textStat auxItems author = .ok komtext ∧
      komtext.subject = some subject ∧ komtext.body = some body := by
  simp only [ofTextStat, hparse, hdecode, bind, Except.bind]
  exact ⟨_, rfl, rfl, rfl⟩

theorem strip_utf8AsLatin1_of_ascii {s : Str} (h : isAscii s = true) (hs : strip s = s) :
    strip (utf8AsLatin1 s) = s := by
  rw [utf8AsLatin1_of_ascii h, hs]

/-- The charset is set after all other parameters. -/
theorem clean_set_charset {m : MimeType} (hclean : m.Clean)
    (hcharset : "charset".toList ∉ m.params) :
    MimeType.Clean { m with params := m.params.set "charset".toList "utf-8".toList } ∧
      (m.params.set "charset".toList "utf-8".toList).items =
        m.params.items ++ [("charset".toList, "utf-8".toList)] := by
  have hparam : CleanPart ['=', ';'] "charset".toList ∧ CleanPart [';'] "utf-8".toList :=
    ⟨cleanPart_of_all (by decide) (by decide), cleanPart_of_all (by decide) (by decide)⟩
  refine ⟨⟨hclean.type, hclean.subtype, fun p hp => ?_⟩, Dict.setItems_of_not_mem hcharset⟩
  rcases mem_items_set hp with rfl | hp
  · exact hparam
  · exact hclean.params p hp

/-- A created text is read with its charset, which is the last of the parameters. -/
theorem readsBack_text {codecs : Codecs}
    (hcodecs : ∀ s : Str, codecs "utf-8".toList (utf8Encode s) = .ok s)
    {subject body contentType : Str} {software : Option Str}
    {recipientList commentToList : List (Str × ℕ)} {m : MimeType} {encoding : Option Str}
    {new : New} (hsubject : '\n' ∉ subject)
    (hparse : parseContentType contentType = .ok (m, encoding))
    (htype : m.type = "text".toList)
    (hnew : createNewText (some subject) (.str body) contentType software recipientList
      commentToList = .ok new) : ReadsBack codecs new subject (.str body) := by
  obtain ⟨m', encoding', full, final, hparse', hclean, hcharset, hfull, htext, hitems⟩ :=
    createNewText_ok hnew
  obtain ⟨rfl, -⟩ : m' = m ∧ encoding' = encoding := by simpa [hparse'] using hparse
  rw [fulltext, if_pos htype] at hfull
  obtain ⟨rfl, rfl⟩ := Prod.mk.inj (Except.ok.inj hfull)
  obtain ⟨hfinal, hparams⟩ := clean_set_charset hclean hcharset
  intro textNo textStat auxItems author hstored
  have hread := parseMimeType_utf8AsLatin1 hfinal
  have hmap : (m'.params.set "charset".toList "utf-8".toList).items.map (fun p =>
      (strip (utf8AsLatin1 p.1), strip (utf8AsLatin1 p.2))) =
      m'.params.items.map (fun p => (strip (utf8AsLatin1 p.1), strip (utf8AsLatin1 p.2))) ++
        [("charset".toList, "utf-8".toList)] := by
    rw [hparams, List.map_append, List.map_singleton,
      strip_utf8AsLatin1_of_ascii (s := "charset".toList) (by decide) (by decide),
      strip_utf8AsLatin1_of_ascii (s := "utf-8".toList) (by decide) (by decide)]
  have hstrip : strip (utf8AsLatin1 m'.type) = "text".toList := by
    rw [htype, strip_utf8AsLatin1_of_ascii (by decide) (by decide)]
  simp only [hmap, hstrip] at hread
  have hkom : "text".toList ≠ "x-kom".toList := by decide
  have hcontent := parseContentType_of_parse hread hkom
    (get?_paramsOf_append _ ("charset".toList, "utf-8".toList))
    (show some "utf-8".toList ≠ some "x-ctext".toList by decide)
  rw [← getContentTypeFromTextStat_stored hitems hstored] at hcontent
  have hnewline : '\n'.toUInt8 ∉ utf8Encode subject := by
    rw [mem_utf8Encode (by decide)]
    rintro ⟨c, hc, heq⟩
    obtain rfl : c = '\n' := Char.toNat_inj.mp heq
    exact hsubject hc
  have hdecode : ∀ s : Str, Pylyskom.decodeText codecs (utf8Encode s) (some "utf-8".toList) =
      .ok s := by
    intro s
    rw [Pylyskom.decodeText, hcodecs]
  have hbytes : utf8Encode (subject ++ ['\n'] ++ body) =
      utf8Encode subject ++ '\n'.toUInt8 :: utf8Encode body := by
    rw [List.append_assoc, utf8Encode, List.flatMap_append, List.flatMap_append,
      List.flatMap_singleton, utf8EncodeChar_ascii (by decide)]
    rfl
  rw [htext, hbytes]
  apply ofTextStat_ok hcontent
  rw [decodeText_newline codecs _ hnewline hkom, hdecode, hdecode]
  rfl

/-- An image has no charset, so its subject is read as latin-1. -/
theorem readsBack_image {codecs : Codecs} {subject contentType : Str} {body : Bytes}
    {software : Option Str} {recipientList commentToList : List (Str × ℕ)} {m : MimeType}
    {encoding : Option Str} {new : New}
    (hsubject : '\n' ∉ subject) (hparse : parseContentType contentType = .ok (m, encoding))
    (htype : m.type = "image".toList)
    (hnew : createNewText (some subject) (.bytes body) contentType software recipientList
      commentToList = .ok new) : ReadsBack codecs new subject (.bytes body) := by
  obtain ⟨m', encoding', full, final, hparse', hclean, hcharset, hfull, htext, hitems⟩ :=
    createNewText_ok hnew
  obtain ⟨rfl, -⟩ : m' = m ∧ encoding' = encoding := by simpa [hparse'] using hparse
  have hnot : "image".toList ≠ "text".toList ∧ "image".toList ≠ "x-kom".toList := by decide
  simp only [fulltext, htype, hnot, false_and, if_false, if_true, Option.map_some,
    encodeLatin1] at hfull
  cases hencode : latin1Encode subject with
  | none =>
    rw [hencode] at hfull
    cases hfull
  | some rawsubject =>
    rw [hencode] at hfull
    obtain ⟨rfl, rfl⟩ := Prod.mk.inj (Except.ok.inj hfull)
    intro textNo textStat auxItems author hstored
    have hread := parseMimeType_utf8AsLatin1 hclean
    have hstrip : strip (utf8AsLatin1 m'.type) = "image".toList := by
      rw [htype, strip_utf8AsLatin1_of_ascii (by decide) (by decide)]
    have hnone : (paramsOf (m'.params.items.map fun p =>
        (strip (utf8AsLatin1 p.1), strip (utf8AsLatin1 p.2)))).get? "charset".toList = none := by
      apply get?_paramsOf_eq_none
      intro q hq heq
      obtain ⟨p, hp, rfl⟩ := List.mem_map.mp hq
      have hname := eq_of_strip_utf8AsLatin1 (by decide) (hclean.params p hp).1.2 heq
      exact hcharset (hname ▸ List.mem_map_of_mem hp)
    simp only [hstrip] at hread
    have hcontent := parseContentType_of_parse hread hnot.2 hnone (by simp)
    rw [← getContentTypeFromTextStat_stored hitems hstored] at hcontent
    have hnewline : '\n'.toUInt8 ∉ rawsubject := by
      intro hmem
      exact hsubject (mem_of_latin1Encode hencode hmem)
    rw [htext, List.append_assoc, List.singleton_append]
    apply ofTextStat_ok hcontent
    rw [decodeText_newline codecs _ hnewline hnot.2, Pylyskom.decodeText,
      latin1Decode_of_latin1Encode hencode]
    rfl

/-- **Created texts read back.** -/
theorem readsBack_created {codecs : Codecs}
    (hcodecs : ∀ s : Str, codecs "utf-8".toList (utf8Encode s) = .ok s) :
    (∀ {subject body contentType : Str} {software : Option Str}
      {recipientList commentToList : List (Str × ℕ)} {m : MimeType} {encoding : Option Str}
      {new : New}, '\n' ∉ subject → parseContentType contentType = .ok (m, encoding) →
      m.type = "text".toList →
      createNewText (some subject) (.str body) contentType software recipientList commentToList =
        .ok new → ReadsBack codecs new subject (.str body)) ∧
    ∀ {subject contentType : Str} {body : Bytes} {software : Option Str}
      {recipientList commentToList : List (Str × ℕ)} {m : MimeType} {encoding : Option Str}
      {new : New}, '\n' ∉ subject → parseContentType contentType = .ok (m, encoding) →
      m.type = "image".toList →
      createNewText (some subject) (.bytes body) contentType software recipientList commentToList =
        .ok new → ReadsBack codecs new subject (.bytes body) :=
  ⟨readsBack_text hcodecs, readsBack_image⟩

/-- The codecs of an installation that knows UTF-8 only. -/
def utf8Codecs : Codecs := fun encoding text =>
  if encoding = "utf-8".toList then
    match utf8Decode text with
    | some s => .ok s
    | none => .error (.builtinError .unicodeDecodeError)
  else .error (.builtinError .lookupError)

theorem utf8Codecs_utf8Encode (s : Str) : utf8Codecs "utf-8".toList (utf8Encode s) = .ok s := by
  simp [utf8Codecs, utf8Decode_utf8Encode]

/-- A text whose subject and charset are not ASCII, and an image with such a parameter. -/
theorem readsBack_created_utf8 :
    (∃ new : New, new.text = [195, 169, 10, 10] ∧
      createNewText (some ['é']) (.str ['\n']) "x-kom/text;charset=é".toList none [] [] =
        .ok new ∧ ReadsBack utf8Codecs new ['é'] (.str ['\n'])) ∧
    ∃ new : New, new.text = [233, 10, 10, 255] ∧
      createNewText (some ['é']) (.bytes [10, 255]) "image/png;à=b".toList none [] [] =
        .ok new ∧ ReadsBack utf8Codecs new ['é'] (.bytes [10, 255]) := by
  have hread := readsBack_created utf8Codecs_utf8Encode
  have hsubject : '\n' ∉ ['é'] := by decide
  have htext : parseContentType "x-kom/text;charset=é".toList =
      .ok (⟨"text".toList, "x-kom-basic".toList, ∅⟩, some "é".toList) := by decide
  have himage : parseContentType "image/png;à=b".toList =
      .ok (⟨"image".toList, "png".toList, ⟨[(['à'], ['b'])], by decide⟩⟩, none) := by decide
  let newText : New :=
    { subject := some ['é']
      body := .str ['\n']
      contentType := "x-kom/text;charset=é".toList
      text := [195, 169, 10, 10]
      recipientList := []
      commentToList := []
      textContentType := "text/x-kom-basic;charset=utf-8".toList
      auxItems := [{ tag := AI_CONTENT_TYPE
                     data := utf8Encode "text/x-kom-basic;charset=utf-8".toList }] }
  let newImage : New :=
    { subject := some ['é']
      body := .bytes [10, 255]
      contentType := "image/png;à=b".toList
      text := [233, 10, 10, 255]
      recipientList := []
      commentToList := []
      textContentType := "image/png;à=b".toList
      auxItems := [{ tag := AI_CONTENT_TYPE, data := utf8Encode "image/png;à=b".toList }] }
  have hnewText : createNewText (some ['é']) (.str ['\n']) "x-kom/text;charset=é".toList none
      [] [] = .ok newText := by decide
  have hnewImage : createNewText (some ['é']) (.bytes [10, 255]) "image/png;à=b".toList none
      [] [] = .ok newImage := by decide
  exact ⟨⟨newText, rfl, hnewText, hread.1 hsubject htext rfl hnewText⟩,
    newImage, rfl, hnewImage, hread.2 hsubject himage rfl hnewImage⟩

end KomText

end Pylyskom
