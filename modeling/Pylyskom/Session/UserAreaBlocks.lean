import Pylyskom.Session

/-!
# Setting a block of a user area

The new user area is encoded as bytes, but `create_text` takes bytes for UTF-8 and a
user area is sent in latin-1. Only ASCII bytes survive this.
-/

namespace Pylyskom

/-- The server stores `stored` as the user area of a person, with the content type of
user areas, and accepts new ones. A person whose name is asked for may not exist. -/
structure StoresUserArea (client : SessionClient) (persNo : ℕ) (stored : Bytes) : Prop where
  userArea : ∃ person textStat, client.getPersonStat persNo = .ok person ∧ person.userArea ≠ 0 ∧
    client.textstats person.userArea = .ok textStat ∧
    KomText.getContentTypeFromTextStat textStat = "x-kom/user-area".toList ∧
    client.getText person.userArea = .ok stored
  names : ∀ n, (∃ uconf, client.uconferences n = .ok uconf) ∨
    ∃ e, client.uconferences n = .error (.serverError e) ∧
      (e.cls = .undefinedConference ∨ e.cls = .conferenceZero)
  createText : ∀ text miscInfo auxItems, ∃ n, client.createText text miscInfo auxItems = .ok n
  setUserArea : ∀ n, client.setUserArea persNo n = .ok ()

/-- The method sends one new text, which is the encoding of the given blocks, and makes it
the user area. -/
def SetsBlocks (run : (fuel : ℕ) → SessionM Unit) (client : SessionClient) (persNo : ℕ)
    (blocks : Dict Bytes Bytes) : Prop :=
  ∃ enough, ∀ fuel, enough ≤ fuel → ∃ text miscInfo auxItems n decoded,
    (run fuel).run.run [] =
      some (.ok (), [.createText text miscInfo auxItems, .setUserArea persNo n]) ∧
    client.createText text miscInfo auxItems = .ok n ∧
    decodeUserArea fuel text = pure decoded ∧ decoded.Same (presentBlocks blocks)

namespace KomSession

variable (self : KomSession)

theorem parseContentType_userArea : parseContentType "x-kom/user-area".toList =
    .ok (⟨"x-kom".toList, "user-area".toList, ∅⟩, none) := by decide

theorem mimeTypeTupleToStr_userArea :
    mimeTypeTupleToStr ⟨"x-kom".toList, "user-area".toList, ∅⟩ = "x-kom/user-area".toList := by
  decide

theorem parseMimeType_userArea : parseMimeType "x-kom/user-area".toList =
    .ok ⟨"x-kom".toList, "user-area".toList, ∅⟩ := by decide

/-- The aux-items of a new user area. -/
def userAreaAuxItems (software : Str) : List AuxItemInput :=
  [{ tag := AI_CREATING_SOFTWARE, data := utf8Encode software },
    { tag := AI_CONTENT_TYPE, data := utf8Encode "x-kom/user-area".toList }]

/-- A new user area is encoded in latin-1. -/
theorem createNewText_userArea {s : Str} {text : Bytes} (software : Str)
    (h : latin1Encode s = some text) :
    KomText.createNewText none (.str s) "x-kom/user-area".toList (some software) [] [] = .ok
      { subject := none, body := .str s, contentType := "x-kom/user-area".toList
        text := text, recipientList := [], commentToList := []
        textContentType := "x-kom/user-area".toList
        auxItems := userAreaAuxItems software } := by
  have hfull : KomText.fulltext none (.str s) ⟨"x-kom".toList, "user-area".toList, ∅⟩ =
      .ok (text, ⟨"x-kom".toList, "user-area".toList, ∅⟩) := by
    simp [KomText.fulltext, KomText.encodeLatin1, h, bind, Except.bind, pure, Except.pure]
  simp only [KomText.createNewText, parseContentType_userArea, bind, Except.bind,
    mimeTypeTupleToStr_userArea, parseMimeType_userArea, hfull]
  rfl

theorem createNewText_userArea_error {s : Str} (software : Str) (h : latin1Encode s = none) :
    KomText.createNewText none (.str s) "x-kom/user-area".toList (some software) [] [] =
      .error (.builtinError .unicodeEncodeError) := by
  have hfull : KomText.fulltext none (.str s) ⟨"x-kom".toList, "user-area".toList, ∅⟩ =
      .error (.builtinError .unicodeEncodeError) := by
    simp [KomText.fulltext, KomText.encodeLatin1, h, bind, Except.bind]
  simp only [KomText.createNewText, parseContentType_userArea, bind, Except.bind,
    mimeTypeTupleToStr_userArea, parseMimeType_userArea, hfull]

/-- Bytes go to the server through UTF-8 and latin-1. -/
theorem createText_userArea {body text : Bytes} {s : Str} (hs : utf8Decode body = some s)
    (h : latin1Encode s = some text) :
    self.createText none (.bytes body) (.str "x-kom/user-area".toList) none [] [] =
      SessionM.request
        (.createText text {} (userAreaAuxItems (self.clientName ++ [' '] ++ self.clientVersion)))
        (self.client.createText text {}
          (userAreaAuxItems (self.clientName ++ [' '] ++ self.clientVersion))) := by
  have hnew := createNewText_userArea (self.clientName ++ [' '] ++ self.clientVersion) h
  simp only [createText, decodeUtf8, hs, Option.mapM_none, SessionM.ofExcept_ok,
    SessionM.ofExcept_pure, pure_bind, hnew]

theorem createText_userArea_error {body : Bytes} (h : (utf8Decode body).bind latin1Encode = none) :
    ∃ e, self.createText none (.bytes body) (.str "x-kom/user-area".toList) none [] [] =
      throw e := by
  cases hs : utf8Decode body with
  | none =>
    refine ⟨.builtinError .unicodeDecodeError, ?_⟩
    simp only [createText, decodeUtf8, hs, Option.mapM_none, SessionM.ofExcept_pure, pure_bind,
      SessionM.ofExcept_error, SessionM.throw_bind]
  | some s =>
    rw [hs] at h
    have hnew := createNewText_userArea_error (self.clientName ++ [' '] ++ self.clientVersion) h
    refine ⟨.builtinError .unicodeEncodeError, ?_⟩
    simp only [createText, decodeUtf8, hs, Option.mapM_none, SessionM.ofExcept_ok,
      SessionM.ofExcept_pure, pure_bind, hnew, SessionM.ofExcept_error, SessionM.throw_bind]

theorem mapM_ok {α β : Type} {f : α → Except Exn β} (h : ∀ a, ∃ b, f a = .ok b) (l : List α) :
    ∃ l', l.mapM f = .ok l' := by
  induction l with
  | nil => exact ⟨[], rfl⟩
  | cons a l ih =>
    obtain ⟨b, hb⟩ := h a
    obtain ⟨l', hl'⟩ := ih
    exact ⟨b :: l', by simp [List.mapM_cons, hb, hl', bind, Except.bind, pure, Except.pure]⟩

theorem ofTextStat_userArea (codecs : Codecs) (textNo : ℕ) (stored : Bytes) {textStat : TextStat}
    (auxItems : List KomAuxItem) (author : KomPersonName)
    (htype : KomText.getContentTypeFromTextStat textStat = "x-kom/user-area".toList) :
    ∃ komtext, KomText.ofTextStat codecs textNo (some stored) textStat auxItems author =
        .ok komtext ∧
      komtext.contentType = "x-kom/user-area".toList ∧
      komtext.body = some (.str (latin1Decode stored)) := by
  have hdecode : KomText.decodeText codecs (some stored)
      ⟨"x-kom".toList, "user-area".toList, ∅⟩ none =
      .ok (none, some (.str (latin1Decode stored))) := rfl
  simp only [KomText.ofTextStat, htype, parseContentType_userArea, bind, Except.bind, hdecode,
    pure, Except.pure, mimeTypeTupleToStr_userArea]
  exact ⟨_, rfl, rfl, rfl⟩

/-- A stored user area is read in latin-1, whichever way names are looked up. -/
theorem getTextWith_userArea {persNo : ℕ} {stored : Bytes}
    (h : StoresUserArea self.client persNo stored) {getPerson : ℕ → Except Exn KomPersonName}
    (hnames : ∀ n, ∃ name, getPerson n = .ok name) :
    ∃ person komtext, self.client.getPersonStat persNo = .ok person ∧ person.userArea ≠ 0 ∧
      self.getTextWith getPerson person.userArea = .ok komtext ∧
      komtext.contentType = "x-kom/user-area".toList ∧
      komtext.body = some (.str (latin1Decode stored)) := by
  obtain ⟨person, textStat, hperson, hnonzero, htextStat, htype, hget⟩ := h.userArea
  obtain ⟨author, hauthor⟩ := hnames textStat.author
  have hitem : ∀ auxItem : AuxItem, ∃ item, (do
      let creator ← getPerson auxItem.creator
      return (⟨auxItem, creator⟩ : KomAuxItem)) = Except.ok item := by
    intro auxItem
    obtain ⟨creator, hcreator⟩ := hnames auxItem.creator
    exact ⟨⟨auxItem, creator⟩, by simp [hcreator, bind, Except.bind, pure, Except.pure]⟩
  obtain ⟨auxItems, hauxItems⟩ := mapM_ok hitem textStat.auxItems
  obtain ⟨komtext, hkomtext, hrest⟩ := ofTextStat_userArea self.codecs person.userArea stored
    auxItems author htype
  refine ⟨person, komtext, hperson, hnonzero, ?_, hrest⟩
  have hbind : ∀ {α β : Type} (a : α) (f : α → Except Exn β), (Except.ok a >>= f) = f a :=
    fun _ _ => rfl
  rw [getTextWith, htextStat, hbind, hget, hbind, hauthor, hbind, hauxItems, hbind, hkomtext]

/-- What the method does with a stored user area: it decodes the blocks, sets one and
creates a text from the bytes of the new blocks. -/
theorem setUserAreaBlockWith_eq {persNo fuel : ℕ} {blocks : Dict Bytes Bytes} {name block : Bytes}
    (h : StoresUserArea self.client persNo (userAreaText blocks)) (hblocks : [] ∉ blocks)
    {getPerson : ℕ → Except Exn KomPersonName} (hnames : ∀ n, ∃ name, getPerson n = .ok name)
    (hfuel : blocks.items.length + 2 < fuel) :
    self.setUserAreaBlockWith (self.getTextWith getPerson) fuel persNo name block = (do
      let n ← self.createText none (.bytes (userAreaText ((sortedBlocks blocks).set name block)))
        (.str "x-kom/user-area".toList) none [] []
      SessionM.request (.setUserArea persNo n) (self.client.setUserArea persNo n)) := by
  obtain ⟨person, komtext, hperson, hnonzero, htext, htype, hbody⟩ :=
    self.getTextWith_userArea h hnames
  have hread : self.userAreaBlocks (self.getTextWith getPerson) fuel persNo =
      pure (presentBlocks (sortedBlocks blocks)) := by
    have hencode : KomText.encodeLatin1 komtext.body = .ok (userAreaText blocks) := by
      rw [hbody, KomText.encodeLatin1, latin1Encode_latin1Decode]
    rw [userAreaBlocks, hperson]
    simp only [SessionM.ofExcept_ok, pure_bind, hnonzero, if_false, htext, htype, ne_eq,
      not_true_eq_false, hencode, decodeUserArea_userAreaText hblocks hfuel, SessionM.ofLoops_pure]
  have hset : (presentBlocks (sortedBlocks blocks)).set name (some block) =
      presentBlocks ((sortedBlocks blocks).set name block) := (Dict.mapValues_set _ _ _ _).symm
  rw [setUserAreaBlockWith, hread]
  simp only [pure_bind, hset, encodeUserArea_presentBlocks, SessionM.ofExcept_ok]

/-- What the method sends, if it can encode the new blocks. -/
theorem run_setUserAreaBlockWith {persNo fuel : ℕ} {blocks : Dict Bytes Bytes}
    {name block : Bytes} (h : StoresUserArea self.client persNo (userAreaText blocks))
    (hblocks : [] ∉ blocks) {getPerson : ℕ → Except Exn KomPersonName}
    (hnames : ∀ n, ∃ name, getPerson n = .ok name) (hfuel : blocks.items.length + 2 < fuel)
    {text : Bytes} (htext : (utf8Decode (userAreaText ((sortedBlocks blocks).set name block))).bind
      latin1Encode = some text) :
    ∃ miscInfo auxItems n, self.client.createText text miscInfo auxItems = .ok n ∧
      (self.setUserAreaBlockWith (self.getTextWith getPerson) fuel persNo name block).run.run [] =
        some (.ok (), [.createText text miscInfo auxItems, .setUserArea persNo n]) := by
  obtain ⟨s, hs, hencode⟩ := Option.bind_eq_some_iff.mp htext
  obtain ⟨n, hn⟩ := h.createText text {}
    (userAreaAuxItems (self.clientName ++ [' '] ++ self.clientVersion))
  refine ⟨_, _, n, hn, ?_⟩
  rw [self.setUserAreaBlockWith_eq h hblocks hnames hfuel, self.createText_userArea hs hencode, hn,
    SessionM.run_request_bind, h.setUserArea n]
  rfl

/-- The blocks are set exactly if they are all ASCII: latin-1 would send fewer bytes than
they have. -/
theorem setsBlocks_iff {persNo : ℕ} {blocks : Dict Bytes Bytes} {name block : Bytes}
    (h : StoresUserArea self.client persNo (userAreaText blocks)) (hblocks : [] ∉ blocks)
    (hname : name ≠ []) {getPerson : ℕ → Except Exn KomPersonName}
    (hnames : ∀ n, ∃ name, getPerson n = .ok name) :
    SetsBlocks (fun fuel => self.setUserAreaBlockWith (self.getTextWith getPerson) fuel persNo name
        block) self.client persNo (blocks.set name block) ↔
      ∀ p ∈ (blocks.set name block).items, nonAscii p.1 = 0 ∧ nonAscii p.2 = 0 := by
  have hsame : ((sortedBlocks blocks).set name block).Same (blocks.set name block) :=
    (sortedBlocks_same blocks).set name block
  have hpresent : (presentBlocks ((sortedBlocks blocks).set name block)).Same
      (presentBlocks (blocks.set name block)) := by
    intro k
    rw [presentBlocks, presentBlocks, Dict.get?_mapValues, Dict.get?_mapValues, hsame k]
  have hcount := nonAscii_userAreaText ((sortedBlocks blocks).set name block)
  rw [hpresent.blocksNonAscii] at hcount
  rw [← blocksNonAscii_eq_zero, ← hcount]
  constructor
  · rintro ⟨enough, hall⟩
    obtain ⟨text, miscInfo, auxItems, n, decoded, hrun, -, hdecode, hdecoded⟩ :=
      hall (enough + blocks.items.length + 3) (by omega)
    have hfuel : blocks.items.length + 2 < enough + blocks.items.length + 3 := by omega
    cases htext : (utf8Decode (userAreaText ((sortedBlocks blocks).set name block))).bind
        latin1Encode with
    | none =>
      obtain ⟨e, he⟩ := self.createText_userArea_error htext
      beta_reduce at hrun
      rw [self.setUserAreaBlockWith_eq h hblocks hnames hfuel, he, SessionM.throw_bind,
        SessionM.run_throw] at hrun
      simp at hrun
    | some text' =>
      obtain ⟨miscInfo', auxItems', n', -, hrun'⟩ :=
        self.run_setUserAreaBlockWith h hblocks hnames hfuel htext
      have heq := hrun'.symm.trans hrun
      simp only [Option.some.injEq, Prod.mk.injEq, List.cons.injEq, Sent.createText.injEq,
        true_and] at heq
      obtain ⟨⟨rfl, -, -⟩, -⟩ := heq
      obtain ⟨s, hs, hencode⟩ := Option.bind_eq_some_iff.mp htext
      have hhalf := nonAscii_of_latin1Encode hs hencode
      have hle := nonAscii_decodeUserArea hdecode
      rw [hdecoded.blocksNonAscii] at hle
      omega
  · intro hascii
    have htext : (utf8Decode (userAreaText ((sortedBlocks blocks).set name block))).bind
        latin1Encode = some (userAreaText ((sortedBlocks blocks).set name block)) := by
      rw [utf8Decode_of_ascii hascii, Option.bind_some, latin1Encode_latin1Decode]
    have hnonempty : [] ∉ (sortedBlocks blocks).set name block := by
      have hmem : ∀ {d e : Dict Bytes Bytes}, d.Same e → ([] ∈ d ↔ [] ∈ e) := fun hde => by
        rw [Dict.mem_iff_isSome, Dict.mem_iff_isSome, hde]
      rw [hmem hsame, Dict.mem_set]
      exact not_or.mpr ⟨hname.symm, hblocks⟩
    refine ⟨blocks.items.length + ((sortedBlocks blocks).set name block).items.length + 3,
      fun fuel hfuel => ?_⟩
    obtain ⟨miscInfo, auxItems, n, hn, hrun⟩ :=
      self.run_setUserAreaBlockWith h hblocks hnames (show _ < fuel by omega) htext
    refine ⟨_, miscInfo, auxItems, n, _, hrun, hn,
      decodeUserArea_userAreaText hnonempty (by omega), ?_⟩
    intro k
    have hsorted := sortedBlocks_same ((sortedBlocks blocks).set name block)
    rw [presentBlocks, presentBlocks, Dict.get?_mapValues, Dict.get?_mapValues, hsorted k, hsame k]

end KomSession

theorem KomSession.getPerson_ok (session : KomSession) (n : ℕ) :
    ∃ name, session.getPerson n = .ok name := by
  rw [KomSession.getPerson]
  split
  · exact ⟨_, rfl⟩
  · exact ⟨_, rfl⟩

theorem AioKomSession.getPersonName_ok {session : AioKomSession} {persNo : ℕ} {stored : Bytes}
    (h : StoresUserArea session.client persNo stored) (n : ℕ) :
    ∃ name, AioKomSession.getPersonName session n = .ok name := by
  rcases h.names n with ⟨uconf, huconf⟩ | ⟨e, he, hcls⟩
  · exact ⟨⟨n, latin1Decode uconf.name⟩, by rw [getPersonName, huconf]⟩
  · rcases hcls with hcls | hcls
    · exact ⟨_, by rw [getPersonName, he]; simp only [hcls, if_true]; rfl⟩
    · exact ⟨⟨n, "Anonymous person".toList⟩, by rw [getPersonName, he]; simp [hcls]⟩

/-- **Setting one block preserves the others** exactly if all names and blocks of the new
user area are ASCII, in both sessions. -/
theorem setUserAreaBlock_iff {session : KomSession} {persNo : ℕ} {blocks : Dict Bytes Bytes}
    {stored name block : Bytes} (hblocks : [] ∉ blocks) (hname : name ≠ [])
    (hencode : encodeUserArea (presentBlocks blocks) = .ok stored)
    (hstored : StoresUserArea session.client persNo stored) :
    (SetsBlocks (fun fuel => KomSession.setUserAreaBlock session fuel persNo name block)
        session.client persNo (blocks.set name block) ↔
      ∀ p ∈ (blocks.set name block).items, nonAscii p.1 = 0 ∧ nonAscii p.2 = 0) ∧
    (SetsBlocks (fun fuel => AioKomSession.setUserAreaBlock session fuel persNo name block)
        session.client persNo (blocks.set name block) ↔
      ∀ p ∈ (blocks.set name block).items, nonAscii p.1 = 0 ∧ nonAscii p.2 = 0) := by
  obtain rfl : userAreaText blocks = stored := by
    rw [encodeUserArea_presentBlocks] at hencode
    exact Except.ok.inj hencode
  constructor
  · exact session.setsBlocks_iff hstored hblocks hname session.getPerson_ok
  · exact session.setsBlocks_iff hstored hblocks hname (AioKomSession.getPersonName_ok hstored)

/-- A server whose persons all have the given user area as text 17. -/
def sampleClient (stored : Bytes) : SessionClient where
  textstats _ := .ok
    { creationTime := ⟨0, 0, 0, 0, 0, 0, 0, 0, 0⟩, author := 6, noOfLines := 0, noOfChars := 0
      noOfMarks := 0, miscInfo := {}
      auxItems := [⟨1, AI_CONTENT_TYPE, 6, ⟨0, 0, 0, 0, 0, 0, 0, 0, 0⟩,
        List.Vector.replicate 8 false, 0, ascii "x-kom/user-area"⟩] }
  uconferences _ := .error (.serverError ⟨.undefinedConference, 6⟩)
  getPersonStat _ := .ok
    { username := [], privileges := List.Vector.replicate 16 false
      flags := List.Vector.replicate 8 false, lastLogin := ⟨0, 0, 0, 0, 0, 0, 0, 0, 0⟩
      userArea := 17, totalTimePresent := 0, sessions := 0, createdLines := 0, createdBytes := 0
      readTexts := 0, noOfTextFetches := 0, createdPersons := 0, createdConfs := 0
      firstCreatedLocalNo := 0, noOfCreatedTexts := 0, noOfMarks := 0, noOfConfs := 0 }
  getText _ := .ok stored
  createText _ _ _ := .ok 18
  setUserArea _ _ := .ok ()

theorem sampleClient_stores (persNo : ℕ) (stored : Bytes) :
    StoresUserArea (sampleClient stored) persNo stored where
  userArea := ⟨_, _, rfl, by decide, rfl, by decide, rfl⟩
  names _ := Or.inr ⟨_, rfl, Or.inl rfl⟩
  createText _ _ _ := ⟨18, rfl⟩
  setUserArea _ := rfl

def sampleSession (stored : Bytes) : KomSession where
  client := sampleClient stored
  clientName := "test".toList
  clientVersion := "0.1".toList
  codecs _ _ := .error (.builtinError .lookupError)

/-- One block `common` of one `x`. -/
def sampleBlocks : Dict Bytes Bytes := ⟨[(ascii "common", ascii "x")], by decide⟩

theorem setUserAreaBlock_iff_sample :
    SetsBlocks (fun fuel => KomSession.setUserAreaBlock (sampleSession (userAreaText sampleBlocks))
        fuel 6 (ascii "jskom") (ascii "{}"))
      (sampleClient (userAreaText sampleBlocks)) 6 (sampleBlocks.set (ascii "jskom") (ascii "{}")) ∧
    SetsBlocks (fun fuel => AioKomSession.setUserAreaBlock
        (sampleSession (userAreaText sampleBlocks)) fuel 6 (ascii "jskom") (ascii "{}"))
      (sampleClient (userAreaText sampleBlocks)) 6
      (sampleBlocks.set (ascii "jskom") (ascii "{}")) := by
  have hascii : ∀ p ∈ (sampleBlocks.set (ascii "jskom") (ascii "{}")).items,
      nonAscii p.1 = 0 ∧ nonAscii p.2 = 0 := by
    have hall : (sampleBlocks.set (ascii "jskom") (ascii "{}")).items.all
        (fun p => nonAscii p.1 = 0 && nonAscii p.2 = 0) = true := by decide
    intro p hp
    simpa using List.all_eq_true.mp hall p hp
  have h := @setUserAreaBlock_iff (sampleSession (userAreaText sampleBlocks)) 6 sampleBlocks
    (userAreaText sampleBlocks) (ascii "jskom") (ascii "{}") (by decide) (by decide)
    (encodeUserArea_presentBlocks _) (sampleClient_stores 6 _)
  exact ⟨h.1.mpr hascii, h.2.mpr hascii⟩

/-- A block of the two bytes that encode one letter in UTF-8 is sent as one byte. -/
theorem setUserAreaBlock_utf8 :
    encodeUserArea (presentBlocks sampleBlocks) = .ok (userAreaText sampleBlocks) ∧
    StoresUserArea (sampleClient (userAreaText sampleBlocks)) 6 (userAreaText sampleBlocks) ∧
    ¬ SetsBlocks (fun fuel => KomSession.setUserAreaBlock
        (sampleSession (userAreaText sampleBlocks)) fuel 6 (ascii "jskom") [0xc3, 0xa5])
      (sampleClient (userAreaText sampleBlocks)) 6 (sampleBlocks.set (ascii "jskom") [0xc3, 0xa5]) ∧
    ¬ SetsBlocks (fun fuel => AioKomSession.setUserAreaBlock
        (sampleSession (userAreaText sampleBlocks)) fuel 6 (ascii "jskom") [0xc3, 0xa5])
      (sampleClient (userAreaText sampleBlocks)) 6
      (sampleBlocks.set (ascii "jskom") [0xc3, 0xa5]) := by
  have hstored := sampleClient_stores 6 (userAreaText sampleBlocks)
  have hnot : ¬ ∀ p ∈ (sampleBlocks.set (ascii "jskom") [0xc3, 0xa5]).items,
      nonAscii p.1 = 0 ∧ nonAscii p.2 = 0 := by
    intro hall
    have hblock := (hall (ascii "jskom", [0xc3, 0xa5]) (by decide)).2
    exact absurd hblock (by decide)
  have hiff := fun {getPerson} => @KomSession.setsBlocks_iff
    (sampleSession (userAreaText sampleBlocks)) 6 sampleBlocks (ascii "jskom") [0xc3, 0xa5]
    hstored (by decide) (by decide) getPerson
  refine ⟨encodeUserArea_presentBlocks _, hstored, ?_, ?_⟩
  · intro hsets
    exact hnot ((hiff (KomSession.getPerson_ok _)).mp hsets)
  · intro hsets
    exact hnot ((hiff (AioKomSession.getPersonName_ok hstored)).mp hsets)

end Pylyskom
