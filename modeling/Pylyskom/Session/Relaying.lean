import Pylyskom.Coroutine.Relaying
import Pylyskom.Session.Operations

/-!
# How a lost connection is passed on

Every operation of a session ends at once when a request finds that the connection is lost,
unless the request is made inside a `try` that catches everything.
-/

namespace Pylyskom

/-- A `socket.error` that means that the connection is lost. -/
def Exn.isLost : Exn → Bool
  | socketError errno => errno.isLost
  | _ => false

/-- An exception that says nothing about the connection. -/
def Exn.Quiet (e : Exn) : Prop := e.isLost = false ∧ e ≠ .komSessionNotConnected

theorem Exn.Quiet.builtinError (error : BuiltinError) : (Exn.builtinError error).Quiet :=
  ⟨rfl, fun h => nomatch h⟩

theorem Exn.Quiet.komSessionError (error : KomSessionError) : (Exn.komSessionError error).Quiet :=
  ⟨rfl, fun h => nomatch h⟩

/-- So is what a request raises outside such a `try`, other than a lost connection. -/
theorem Exn.Quiet.of_other {e : Exn}
    (hother : e ≠ .komSessionNotConnected ∧ (e.isLost = true → false = true)) : e.Quiet := by
  refine ⟨?_, hother.1⟩
  rw [← Bool.not_eq_true]
  exact fun hlost => nomatch hother.2 hlost

/-- A handler that raises again what says something about the connection. -/
theorem Relays.tryCatch_quiet {σ ρ α : Type} {ν : ρ → Type} {A : Alarm σ ρ Exn}
    {m : Coroutine σ ρ ν Exn α} {h : Exn → Coroutine σ ρ ν Exn α}
    (hm : Relays A (fun e _ => e.isLost = true) Exn.Quiet m)
    (hh : ∀ e, e.Quiet → Relays A (fun e _ => e.isLost = true) Exn.Quiet (h e))
    (hlost : ∀ errno, h (.socketError errno) = MonadExcept.throw (.socketError errno)) :
    Relays A (fun e _ => e.isLost = true) Exn.Quiet (MonadExcept.tryCatch m h) := by
  apply hm.tryCatch hh
  intro e s he
  cases e with
  | socketError errno => exact ⟨.socketError errno, s, by rw [hlost errno]; rfl, he⟩
  | _ => exact nomatch he

/-! ## Functions that send no requests -/

/-- If it raises anything, that says nothing about the connection. -/
def RaisesQuiet {α : Type} (x : Except Exn α) : Prop := ∀ e, x = .error e → e.Quiet

namespace RaisesQuiet

variable {α β : Type} {x : Except Exn α}

theorem ok {a : α} : RaisesQuiet (.ok a) := fun _ h => nomatch h

theorem error {e : Exn} (he : e.Quiet) : RaisesQuiet (.error e : Except Exn α) := by
  intro e' he'
  rwa [← Except.error.inj he']

theorem builtinError {e : BuiltinError} : RaisesQuiet (.error (.builtinError e) : Except Exn α) :=
  error (.builtinError e)

theorem bind {f : α → Except Exn β} (hx : RaisesQuiet x) (hf : ∀ a, RaisesQuiet (f a)) :
    RaisesQuiet (x >>= f) := by
  cases x with
  | ok a => exact hf a
  | error e => exact error (hx e rfl)

theorem mapM {f : α → Except Exn β} (hf : ∀ a, RaisesQuiet (f a)) (l : List α) :
    RaisesQuiet (l.mapM f) := by
  induction l with
  | nil => exact ok
  | cons a l ih =>
    rw [List.mapM_cons]
    exact (hf a).bind fun b => ih.bind fun bs => ok

theorem mapError {x : Except BuiltinError α} : RaisesQuiet (x.mapError Exn.builtinError) := by
  cases x with
  | ok a => exact ok
  | error e => exact builtinError

theorem decodeUtf8 (s : BytesOrStr) : RaisesQuiet (KomSession.decodeUtf8 s) := by
  unfold KomSession.decodeUtf8
  split
  · exact ok
  · split
    · exact ok
    · exact builtinError

theorem string (s : Str) : RaisesQuiet (ClientState.string s) := by
  unfold ClientState.string
  split
  · exact ok
  · exact builtinError

theorem exactLookupMatch (lookup : Str) (found : List (ℕ × Str)) :
    RaisesQuiet (SessionClass.exactLookupMatch lookup found) := by
  unfold SessionClass.exactLookupMatch
  split
  · exact error (.komSessionError _)
  · exact ok
  · exact error (.komSessionError _)

theorem parseContentType (contentType : Str) : RaisesQuiet (parseContentType contentType) := by
  unfold Pylyskom.parseContentType
  split
  · exact error ⟨rfl, fun h => nomatch h⟩
  · exact ok

theorem parseMimeType (mimeType : Str) : RaisesQuiet (parseMimeType mimeType) := by
  unfold Pylyskom.parseMimeType
  split
  · exact builtinError
  · apply bind
    · apply mapM
      intro param
      split
      · exact ok
      · exact builtinError
    · intro params
      dsimp only
      split
      · exact ok
      · exact builtinError

theorem encodeLatin1 (s : Option BytesOrStr) : RaisesQuiet (KomText.encodeLatin1 s) := by
  unfold KomText.encodeLatin1
  split
  · split
    · exact ok
    · exact builtinError
  · exact builtinError

theorem decodeText (lib : PythonLibrary) (text : Bytes) (encoding : Option Str) :
    RaisesQuiet (decodeText lib.codecs text encoding) := by
  unfold Pylyskom.decodeText
  split
  · exact ok
  · split
    · exact ok
    · exact ok
    · exact ok
    · next e he => exact error (mapError _ he)

theorem decodeKomText (lib : PythonLibrary) (text : Option Bytes) (mimeType : MimeType)
    (encoding : Option Str) :
    RaisesQuiet (KomText.decodeText lib.codecs text mimeType encoding) := by
  unfold KomText.decodeText
  split
  · exact ok
  · have hbody : ∀ (subject : Str) (rawbody : Bytes), RaisesQuiet
        (if mimeType.type = "text".toList then do
          let body ← Pylyskom.decodeText lib.codecs rawbody encoding
          return (some subject, some (BytesOrStr.str body))
        else return (some subject, some (BytesOrStr.bytes rawbody))) := by
      intro subject rawbody
      split
      · exact (decodeText lib rawbody encoding).bind fun body => ok
      · exact ok
    split
    · exact (decodeText lib _ encoding).bind fun body => ok
    · dsimp only
      split
      · exact hbody [] _
      · exact (decodeText lib _ encoding).bind fun subject => hbody subject _

theorem ofTextStat (lib : PythonLibrary) (textNo : ℕ) (text : Option Bytes) (textStat : TextStat)
    (auxItems : List KomAuxItem) (author : KomPersonName) :
    RaisesQuiet (KomText.ofTextStat lib.codecs textNo text textStat auxItems author) := by
  apply (parseContentType _).bind
  rintro ⟨mimeType, encoding⟩
  apply (decodeKomText lib text mimeType encoding).bind
  rintro ⟨subject, body⟩
  exact ok

theorem fulltext (subject : Option Str) (body : BytesOrStr) (mimeType : MimeType) :
    RaisesQuiet (KomText.fulltext subject body mimeType) := by
  unfold KomText.fulltext
  split
  · split
    · exact ok
    · exact builtinError
  · split
    · exact (encodeLatin1 _).bind fun fulltext => ok
    · split
      · apply (encodeLatin1 _).bind
        intro rawsubject
        split
        · exact ok
        · exact builtinError
      · exact error (.komSessionError _)

theorem recipientType (type : Str) : RaisesQuiet (MIRecipientStrToType type) := by
  unfold MIRecipientStrToType
  split_ifs
  · exact ok
  · exact ok
  · exact ok
  · exact builtinError

theorem commentToType (type : Str) : RaisesQuiet (MICommentToStrToType type) := by
  unfold MICommentToStrToType
  split_ifs
  · exact ok
  · exact ok
  · exact builtinError

theorem createNewText (subject : Option Str) (body : BytesOrStr) (contentType : Str)
    (creatingSoftware : Option Str) (recipientList commentToList : List (Str × ℕ)) :
    RaisesQuiet (KomText.createNewText subject body contentType creatingSoftware recipientList
      commentToList) := by
  apply (parseContentType contentType).bind
  rintro ⟨mimeType, -⟩
  apply (parseMimeType _).bind
  intro mimeType
  apply (fulltext subject body mimeType).bind
  rintro ⟨fulltext, mimeType⟩
  apply (mapM (fun r => (recipientType r.1).bind fun type => ok) recipientList).bind
  intro recipients
  apply (mapM (fun ct => (commentToType ct.1).bind fun type => ok) commentToList).bind
  intro comments
  exact ok

theorem encodeBlocks (blocks : List (Bytes × Option Bytes)) :
    RaisesQuiet (encodeBlocks blocks) := by
  induction blocks with
  | nil => exact ok
  | cons block blocks ih =>
    apply bind
    · unfold toHollerithString
      split
      · exact ok
      · exact builtinError
    · exact fun hBlock => ih.bind fun hBlocks => ok

theorem encodeUserArea (blocks : Dict Bytes (Option Bytes)) :
    RaisesQuiet (encodeUserArea blocks) :=
  (encodeBlocks _).bind fun _ => ok

end RaisesQuiet

theorem RaisesQuiet.parseLength (length : ℕ) (hstring : Bytes) :
    RaisesQuiet (parseLength length hstring) := by
  induction hstring generalizing length with
  | nil => exact builtinError
  | cons c hstring ih =>
    unfold Pylyskom.parseLength
    split
    · exact ih _
    · exact ok

/-- The loops end, and what they raise says nothing about the connection. -/
def LoopsQuiet {α : Type} (x : Loops α) : Prop := ∀ result, x.run = some result → RaisesQuiet result

namespace LoopsQuiet

variable {α β : Type}

theorem pure {a : α} : LoopsQuiet (pure a) := by
  rintro result h
  obtain rfl := Option.some.inj h
  exact .ok

theorem throw {e : Exn} (he : e.Quiet) : LoopsQuiet (throw e : Loops α) := by
  rintro result h
  obtain rfl := Option.some.inj h
  exact .error he

theorem none : LoopsQuiet (ExceptT.mk none : Loops α) := fun _ h => nomatch h

theorem bind {x : Loops α} {f : α → Loops β} (hx : LoopsQuiet x) (hf : ∀ a, LoopsQuiet (f a)) :
    LoopsQuiet (x >>= f) := by
  intro result h
  rw [ExceptT.run_bind] at h
  cases hrun : x.run with
  | none =>
    rw [hrun] at h
    exact nomatch h
  | some first =>
    rw [hrun] at h
    cases first with
    | ok a => exact hf a result h
    | error e =>
      obtain rfl := Option.some.inj h
      exact .error (hx _ hrun e rfl)

theorem parseHollerithString (fuel : ℕ) (hstring : Option Bytes) :
    LoopsQuiet (parseHollerithString fuel hstring) := by
  unfold Pylyskom.parseHollerithString
  split
  · exact pure
  · exact pure
  · split
    · exact none
    · split
      · next e he => exact throw (RaisesQuiet.parseLength 0 _ e he)
      · split
        · exact throw (.builtinError _)
        · exact pure

theorem parseBlockNames (fuel : ℕ) (hstring : Option Bytes) :
    LoopsQuiet (parseBlockNames fuel hstring) := by
  induction fuel generalizing hstring with
  | zero => exact none
  | succ fuel ih =>
    apply (parseHollerithString fuel hstring).bind
    rintro ⟨hBlockName, hstring⟩
    dsimp only
    split
    · exact pure
    · exact pure
    · exact (ih hstring).bind fun blockNames => pure

theorem parseBlocks (fuel : ℕ) (hstring : Option Bytes) (blocks : Dict Bytes (Option Bytes))
    (blockNames : List Bytes) : LoopsQuiet (parseBlocks fuel hstring blocks blockNames) := by
  induction blockNames generalizing hstring blocks with
  | nil => exact pure
  | cons blockName blockNames ih =>
    apply (parseHollerithString fuel hstring).bind
    rintro ⟨hBlock, hstring⟩
    exact ih hstring _

theorem decodeUserArea (fuel : ℕ) (userArea : Bytes) :
    LoopsQuiet (decodeUserArea fuel userArea) := by
  apply (parseHollerithString fuel (some userArea)).bind
  rintro ⟨hBlockNames, hBlocks⟩
  apply (parseBlockNames fuel hBlockNames).bind
  intro blockNames
  exact parseBlocks fuel hBlocks ∅ blockNames

end LoopsQuiet

/-! ## Methods of the person client -/

/-- The requests of a method that is called inside a `try` that catches everything, or not. -/
def personAlarm (inTry : Bool) : Alarm CachingPersonClient PersonRequest Exn where
  keeps _ := True
  raised _ e := inTry = false ∧ e.isLost = true
  other _ e := e ≠ .komSessionNotConnected ∧ (e.isLost = true → inTry = true)

theorem Cache.relays_getitem {σ ρ ε ν : Type} {μ : ρ → Type} {cache : σ → Cache ν}
    {update : (Cache ν → Cache ν) → σ → σ} {fetcher : ℕ → Coroutine σ ρ μ ε ν} {no : ℕ}
    {A : Alarm σ ρ ε} {R : ε → σ → Prop} {P : ε → Prop} (hfetch : Relays A R P (fetcher no))
    (hupdate : ∀ f s, A.keeps s → A.keeps (update f s)) :
    Relays A R P (Cache.getitem cache update fetcher no) := by
  intro s hs
  cases hget : (cache s).dict.get? no with
  | some value =>
    rw [Cache.getitem_hit hget]
    exact ⟨hupdate _ s hs, fun e he => nomatch he⟩
  | none =>
    rw [Cache.getitem_miss hget]
    have hrest : Relays A R P (do
        let value ← fetcher no
        modify (update fun self => self.setitem no value)
        return value) :=
      hfetch.bind fun value => (Relays.modify fun s hs => hupdate _ s hs).bind fun _ => .pure
    exact hrest _ (hupdate _ s hs)

/-- A method that passes on what it has to, and raises nothing else about the connection. -/
abbrev PersonRelays {α : Type} (m : PersonM α) : Prop :=
  Relays (personAlarm false) (fun e _ => e.isLost = true) Exn.Quiet m

namespace PersonRelays

theorem request (req : PersonRequest) : PersonRelays (CachingPersonClient.request req) :=
  Relays.request (fun _ _ _ he => he.2) fun _ he => .of_other he

theorem modify (g : CachingPersonClient → CachingPersonClient) :
    PersonRelays (modify g : PersonM PUnit) :=
  Relays.modify fun _ _ => trivial

theorem uconference (no : ℕ) : PersonRelays (CachingPersonClient.uconference no) :=
  Cache.relays_getitem (request _) fun _ _ _ => trivial

theorem getUconference (confNo : ℕ) : PersonRelays (getUconference confNo) :=
  (uconference confNo).bind fun _ => .pure

theorem login (persNo : ℕ) (password : Bytes) :
    PersonRelays (CachingPersonClient.login persNo password) :=
  (request _).bind fun _ => modify _

theorem logout : PersonRelays CachingPersonClient.logout := (request _).bind fun _ => modify _

theorem changeConference (confNo : ℕ) :
    PersonRelays (CachingPersonClient.changeConference confNo) := by
  apply Relays.get.bind
  intro self
  apply (request (.changeConference confNo)).bind
  intro _
  apply (modify _).bind
  intro _
  split
  · exact modify _
  · exact .pure

theorem getMemberships (persNo first noOfConfs : ℕ) (wantReadRanges : Bool) :
    PersonRelays (CachingPersonClient.getMemberships persNo first noOfConfs wantReadRanges) := by
  unfold CachingPersonClient.getMemberships
  split
  · exact request _
  · apply Relays.get.bind
    intro self
    split
    · split
      · exact .pure
      · exact (request _).bind fun memberships => (modify _).bind fun _ => .pure
    · exact request _

theorem getMembership (persNo confNo : ℕ) (wantReadRanges : Bool) :
    PersonRelays (CachingPersonClient.getMembership persNo confNo wantReadRanges) := by
  unfold CachingPersonClient.getMembership
  split
  · exact request _
  · apply Relays.get.bind
    intro self
    split
    · apply Cache.relays_getitem
      · exact Relays.get.bind fun self => request _
      · exact fun _ _ _ => trivial
    · exact request _

theorem uconfName (no : ℕ) :
    PersonRelays (do
      let uconf ← CachingPersonClient.uconference no
      return latin1Decode uconf.name) :=
  (uconference no).bind fun _ => .pure

theorem aioGetPersonName (persNo : ℕ) :
    PersonRelays (AioPersonSession.getPersonName persNo) := by
  refine Relays.bind ?_ fun name => .pure
  apply (uconfName persNo).tryCatch_quiet
  · intro e he
    cases e with
    | serverError error =>
      dsimp only
      split
      · exact .pure
      · split
        · exact .pure
        · exact .throw he
    | _ => exact .throw he
  · exact fun errno => rfl

theorem aioConfName (confNo : ℕ) : PersonRelays (SessionClass.aioConfName confNo) := by
  refine Relays.bind ?_ fun name => .pure
  apply (uconfName confNo).tryCatch_quiet
  · intro e he
    cases e with
    | serverError error =>
      dsimp only
      split
      · exact .pure
      · exact .throw he
    | _ => exact .throw he
  · exact fun errno => rfl

theorem aioGetPerson (persNo : ℕ) : PersonRelays (SessionClass.aioGetPerson persNo) :=
  (uconference persNo).bind fun _ => .pure

end PersonRelays

/-- A method that catches everything, and so raises nothing. -/
abbrev PersonCatches {α : Type} (m : PersonM α) : Prop :=
  Relays (personAlarm true) (fun _ _ => False) (fun _ => False) m

namespace PersonCatches

theorem request (req : PersonRequest) :
    Relays (personAlarm true) (fun _ _ => False) (fun _ => True)
      (CachingPersonClient.request req) :=
  Relays.request (fun _ _ _ he => nomatch he.1) fun _ _ => trivial

theorem uconference (no : ℕ) :
    Relays (personAlarm true) (fun _ _ => False) (fun _ => True)
      (CachingPersonClient.uconference no) :=
  Cache.relays_getitem (request _) fun _ _ _ => trivial

theorem tryCatch {α : Type} {m : PersonM α} {a : α}
    (hm : Relays (personAlarm true) (fun _ _ => False) (fun _ => True) m) :
    PersonCatches (tryCatch m fun _ => pure a) :=
  Relays.tryCatch hm (fun _ _ => .pure) fun _ _ h => h.elim

theorem confName (confNo : ℕ) : PersonCatches (PersonSession.confName confNo) :=
  tryCatch ((uconference confNo).bind fun _ => .pure)

theorem getPerson (persNo : ℕ) : PersonCatches (PersonSession.getPerson persNo) :=
  (confName persNo).bind fun _ => .pure

theorem lookupNumber (name : Str) (wantPers wantConfs : Bool) :
    PersonCatches (ClientState.lookupNumber name wantPers wantConfs) := by
  apply tryCatch
  apply (Relays.ofExcept fun _ _ => trivial).bind
  intro no
  cases no with
  | ofNat no =>
    apply (uconference no).bind
    intro uconf
    apply (uconference no).bind
    intro uconf'
    dsimp only
    split
    · exact .pure
    · exact .pure
  | negSucc n => exact (request _).bind fun found => nomatch found

end PersonCatches

/-! ## Methods of the client -/

variable {cls : SessionClass}

def clientAlarm (cls : SessionClass) : Alarm ClientState ClientCall Exn where
  keeps s := cls = .aioKomSession → s.connected = true
  raised call e := call.inTry = false ∧ e.isLost = true
  other call e := e ≠ .komSessionNotConnected ∧ (e.isLost = true → call.inTry = true)

abbrev ClientRelays (cls : SessionClass) {α : Type} (m : ClientM α) : Prop :=
  Relays (clientAlarm cls) (fun e _ => e.isLost = true) Exn.Quiet m

namespace ClientRelays

theorem request (req : ClientRequest) : ClientRelays cls (ClientState.request req) :=
  Relays.request (fun _ _ _ he => he.2) fun _ he => .of_other he

theorem ofPerson {α : Type} {inTry : Bool} {m : PersonM α} {R : Exn → CachingPersonClient → Prop}
    {P : Exn → Prop} (hm : Relays (personAlarm inTry) R P m)
    (hR : ∀ e s, R e s → e.isLost = true) (hP : ∀ e, P e → e.Quiet) :
    ClientRelays cls (ClientState.ofPerson inTry m) := by
  intro s hs
  refine (hm s.person trivial).zoom (fun _ _ => trivial) ?_ ?_ ?_ ?_ hs
  · exact fun req e he => he
  · exact fun req e he => he
  · exact fun e person t _ he => hR e person he
  · exact fun result person t ht hQ => ⟨ht, fun e he => hP e (hQ.2 e he)⟩

theorem ofRelays {α : Type} {m : PersonM α} (hm : PersonRelays m) :
    ClientRelays cls (ClientState.ofPerson false m) :=
  ofPerson hm (fun _ _ h => h) fun _ h => h

theorem ofCatches {α : Type} {m : PersonM α} (hm : PersonCatches m) :
    ClientRelays cls (ClientState.ofPerson true m) :=
  ofPerson hm (fun _ _ h => h.elim) fun _ h => h.elim

theorem ofLoops {α : Type} {x : Loops α} (hx : LoopsQuiet x) :
    ClientRelays cls (ClientState.ofLoops x) := by
  unfold ClientState.ofLoops
  split
  · next result hrun => exact .ofExcept (hx result hrun)
  · exact (request .loop).bind fun reply => nomatch reply

theorem conference (no : ℕ) : ClientRelays cls (ClientState.conference no) :=
  Cache.relays_getitem (request _) fun _ _ hs => hs

theorem textstat (no : ℕ) : ClientRelays cls (ClientState.textstat no) :=
  Cache.relays_getitem (request _) fun _ _ hs => hs

theorem lookupName (name : Str) (wantPers wantConfs : Bool) :
    ClientRelays cls (ClientState.lookupName name wantPers wantConfs) := by
  unfold ClientState.lookupName
  split
  · exact ofCatches (.lookupNumber name wantPers wantConfs)
  · apply (Relays.ofExcept (RaisesQuiet.string name)).bind
    intro lookup
    exact (request _).bind fun found => .pure

theorem regexpLookup (regexp : Str) (wantPers wantConfs : Bool) :
    ClientRelays cls (ClientState.regexpLookup regexp wantPers wantConfs) := by
  unfold ClientState.regexpLookup
  split
  · exact lookupName regexp wantPers wantConfs
  · apply (Relays.ofExcept (RaisesQuiet.string regexp)).bind
    intro lookup
    exact (request _).bind fun found => .pure

theorem localToGlobal (confNo firstLocal n : ℕ) :
    ClientRelays cls (ClientState.localToGlobal confNo firstLocal n) := by
  apply Relays.tryCatch_quiet
  · exact (request _).bind fun mapping => .pure
  · intro e he
    split
    · exact .pure
    · exact .throw he
  · exact fun errno => rfl

theorem fetchGap (confNo firstLocal gapLen : ℕ) (unread : List ℕ) (moreToFetch : ℕ) :
    ClientRelays cls (ClientState.fetchGap confNo firstLocal gapLen unread moreToFetch) := by
  induction gapLen using Nat.strong_induction_on generalizing firstLocal unread moreToFetch with
  | _ gapLen ih =>
    rw [ClientState.fetchGap]
    split
    · next hgap =>
      apply (localToGlobal _ _ _).bind
      intro mapping
      have hless : gapLen - (if gapLen > 255 then 255 else gapLen) < gapLen := by
        split <;> omega
      cases mapping with
      | some mapping => exact ih _ hless _ _ _
      | none => exact ih _ hless _ _ _
    · exact .pure

theorem fetchGaps (confNo : ℕ) (gaps : List (ℕ × ℕ)) (unread : List ℕ) (moreToFetch : ℕ) :
    ClientRelays cls (ClientState.fetchGaps confNo gaps unread moreToFetch) := by
  induction gaps generalizing unread moreToFetch with
  | nil => exact .pure
  | cons gap gaps ih =>
    apply (fetchGap confNo gap.1 gap.2 unread moreToFetch).bind
    rintro ⟨unread, moreToFetch⟩
    exact ih unread moreToFetch

theorem fetchTail (confNo fuel firstLocal : ℕ) (unread : List ℕ) (moreToFetch : ℕ) :
    ClientRelays cls (ClientState.fetchTail confNo fuel firstLocal unread moreToFetch) := by
  induction fuel generalizing firstLocal unread moreToFetch with
  | zero =>
    cases moreToFetch with
    | zero => exact .pure
    | succ more => exact (request .loop).bind fun reply => nomatch reply
  | succ fuel ih =>
    cases moreToFetch with
    | zero => exact .pure
    | succ more =>
      apply (localToGlobal confNo firstLocal 255).bind
      intro mapping
      cases mapping with
      | some mapping => exact ih _ _ _
      | none => exact ih _ _ _

theorem getUnreadTextsFromMembership (fuel : ℕ) (membership : Membership) :
    ClientRelays cls (ClientState.getUnreadTextsFromMembership fuel membership) := by
  apply (fetchGaps _ _ _ _).bind
  rintro ⟨unread, moreToFetch⟩
  exact (fetchTail _ _ _ _ _).bind fun unread => .pure

theorem markText (textNo markType : ℕ) : ClientRelays cls (ClientState.markText textNo markType) :=
  (request _).bind fun _ => .modify fun _ hs => hs

theorem unmarkText (textNo : ℕ) : ClientRelays cls (ClientState.unmarkText textNo) :=
  (request _).bind fun _ => .modify fun _ hs => hs

theorem unlessNotMember {m : ClientM Unit} (hm : ClientRelays cls m) :
    ClientRelays cls (ClientState.unlessNotMember m) := by
  apply hm.tryCatch_quiet
  · intro e he
    cases e with
    | serverError error =>
      dsimp only
      split
      · exact .pure
      · exact .throw he
    | _ => exact .throw he
  · exact fun errno => rfl

end ClientRelays
end Pylyskom
