import Pylyskom.Coroutine.Parts
import Pylyskom.PersonSession
import Pylyskom.Requests
import Pylyskom.Session
import Pylyskom.Session.Numbers
import Pylyskom.Unread

/-!
# What a session asks of its client

The requests of a session, and the methods of `CachingPersonClient` and
`AioCachingPersonClient` that it calls, on the state of the whole client. The methods for
the person's own memberships are those of the person client.
-/

namespace Pylyskom

/-- The requests of a session, and what it does to set up its connection. -/
inductive ClientRequest : Type
  | openConnection
  | sendInitialString (user : Bytes)
  | receiveInitialReply
  | acceptAsync (msgNos : List ℕ)
  | setClientVersion (clientName clientVersion : Bytes)
  | setConnectionTimeFormat (useUtc : ℕ)
  | person (req : PersonRequest)
  | disconnect (sessionNo : ℕ)
  | whoAmI
  | userIsActive
  | createPerson (name passwd : Bytes)
  | createConf (name : Bytes) (auxItems : List AuxItemInput)
  | deleteConf (confNo : ℕ)
  | lookupZName (name : Bytes) (wantPers wantConfs : Bool)
  | reZLookup (regexp : Bytes) (wantPersons wantConfs : Bool)
  | getConfStat (confNo : ℕ)
  | getPersonStat (persNo : ℕ)
  | getTextStat (textNo : ℕ)
  | getText (textNo : ℕ)
  | localToGlobal (confNo firstLocalNo noOfExistingTexts : ℕ)
  | localToGlobalReverse (confNo localNoCeiling noOfExistingTexts : ℕ)
  | addMember (confNo persNo priority wherePos : ℕ)
  | subMember (confNo persNo : ℕ)
  | createText (text : Bytes) (miscInfo : CookedMiscInfo) (auxItems : List AuxItemInput)
  | markAsRead (confNo : ℕ) (texts : List (Option ℕ))
  | markAsUnread (confNo : ℕ) (textNo : Option ℕ)
  | setUnread (confNo noOfUnread : ℕ)
  | getMarks
  | markText (textNo markType : ℕ)
  | unmarkText (textNo : ℕ)
  | setUserArea (persNo userArea : ℕ)
  | getInfo
  | setPresentation (confNo textNo : ℕ)
  | setPasswd (persNo : ℕ) (oldPwd newPwd : Bytes)
  /-- The bytes of any request, sent as they are. -/
  | raw (request : Bytes)
  /-- No request at all, and so without a reply: a loop goes on. -/
  | loop

/-- What a request returns. -/
abbrev ClientRequest.Reply : ClientRequest → Type
  | receiveInitialReply => Bytes
  | person req => req.Reply
  | whoAmI => ℕ
  | createPerson .. => ℕ
  | createConf .. => ℕ
  | lookupZName .. => List ConfZInfo
  | reZLookup .. => List ConfZInfo
  | getConfStat _ => Conference
  | getPersonStat _ => Person
  | getTextStat _ => TextStat
  | getText _ => Bytes
  | localToGlobal .. => TextMapping
  | localToGlobalReverse .. => TextMapping
  | createText .. => ℕ
  | getMarks => List Mark
  | getInfo => Info
  | raw _ => Bytes
  | loop => Empty
  | _ => Unit

/-- A request, and whether it is made inside a `try` with `except Exception`. -/
structure ClientCall where
  inTry : Bool
  req : ClientRequest

abbrev ClientCall.Reply (call : ClientCall) : Type := call.req.Reply

/-- A `CachingPersonClient` or an `AioCachingPersonClient`. -/
structure ClientState where
  /-- Whether the connection has a stream; that of a blocking client has one from the start. -/
  connected : Bool
  /-- The current person and conference, the memberships, and `uconferences`. -/
  person : CachingPersonClient
  conferences : Cache Conference
  persons : Cache Person
  textstats : Cache TextStat

/-- A method of the client. -/
abbrev ClientM := Coroutine ClientState ClientCall ClientCall.Reply Exn

namespace ClientState

def init : ClientState where
  connected := false
  person := .init
  conferences := .init
  persons := .init
  textstats := .init

def request (req : ClientRequest) : ClientM req.Reply :=
  Coroutine.request (⟨false, req⟩ : ClientCall)

/-- A method of the person client, inside a `try` with `except Exception` or not. -/
def ofPerson {α : Type} (inTry : Bool) (m : PersonM α) : ClientM α := fun s =>
  (m s.person).zoom ClientState.person (fun person s => { s with person })
    (fun req => (⟨inTry, .person req⟩ : ClientCall)) (fun _ reply => reply) s

/-- A function with loops, which go on when the fuel does not suffice. -/
def ofLoops {α : Type} (result : Loops α) : ClientM α :=
  match result.run with
  | some result => ofExcept result
  | none => do
    let reply ← request .loop
    nomatch reply

/-- `String(s)` -/
def string (s : Str) : Except Exn Bytes :=
  match latin1Encode s with
  | some s => .ok s
  | none => .error (.builtinError .valueError)

/-! ## Caches -/

def conference (no : ℕ) : ClientM Conference :=
  Cache.getitem conferences
    (fun f (self : ClientState) => { self with conferences := f self.conferences })
    (fun no => request (.getConfStat no)) no

def textstat (no : ℕ) : ClientM TextStat :=
  Cache.getitem textstats
    (fun f (self : ClientState) => { self with textstats := f self.textstats })
    (fun no => request (.getTextStat no)) no

/-! ## Names -/

/-- The numerical case of `lookup_name`. A negative number is asked for like any other one. -/
def lookupNumber (name : Str) (wantPers wantConfs : Bool) : PersonM (List (ℕ × Str)) :=
  tryCatch
    (do
      match ← ofExcept (parseInt (name.drop 1)) with
      | .ofNat no =>
        let type := (← CachingPersonClient.uconference no).type
        let name := latin1Decode (← CachingPersonClient.uconference no).name
        let letterbox := type.get ⟨3, by decide⟩
        if (wantPers && letterbox) || (wantConfs && !letterbox) then return [(no, name)]
        else return []
      | .negSucc n =>
        let found ← CachingPersonClient.request (.getNegativeUconfStat n)
        nomatch found)
    fun _ => return []

def matchesOf (infos : List ConfZInfo) : List (ℕ × Str) :=
  infos.map fun x => (x.confNo, latin1Decode x.name)

def lookupName (name : Str) (wantPers wantConfs : Bool) : ClientM (List (ℕ × Str)) := do
  if name.take 1 = ['#'] then ofPerson true (lookupNumber name wantPers wantConfs)
  else
    let found ← request (.lookupZName (← ofExcept (string name)) wantPers wantConfs)
    return matchesOf found

/-- `regexp_lookup` with `case_sensitive=1`. -/
def regexpLookup (regexp : Str) (wantPers wantConfs : Bool) : ClientM (List (ℕ × Str)) := do
  if regexp.take 1 = ['#'] then lookupName regexp wantPers wantConfs
  else
    let found ← request (.reZLookup (← ofExcept (string regexp)) wantPers wantConfs)
    return matchesOf found

/-! ## Texts -/

/-- `ReqLocalToGlobal`, with `None` for `except NoSuchLocalText`. -/
def localToGlobal (confNo firstLocal n : ℕ) : ClientM (Option TextMapping) :=
  tryCatch
    (do
      let mapping ← request (.localToGlobal confNo firstLocal n)
      return some mapping)
    fun e => if e.isNoSuchLocalText then return none else throw e

/-- The loop over one gap, with the texts found so far and `more_to_fetch`. -/
def fetchGap (confNo firstLocal gapLen : ℕ) (unread : List ℕ) (moreToFetch : ℕ) :
    ClientM (List ℕ × ℕ) :=
  if _h : gapLen > 0 then do
    let n := if gapLen > 255 then 255 else gapLen
    match ← localToGlobal confNo firstLocal n with
    | some mapping =>
      fetchGap confNo mapping.rangeEnd (gapLen - n) (unread ++ mapping.texts)
        mapping.laterTextsExists
    | none => fetchGap confNo firstLocal (gapLen - n) unread 0
  else return (unread, moreToFetch)
termination_by gapLen
decreasing_by all_goals split <;> omega

/-- The loop over all gaps. -/
def fetchGaps (confNo : ℕ) : List (ℕ × ℕ) → List ℕ → ℕ → ClientM (List ℕ × ℕ)
  | [], unread, moreToFetch => return (unread, moreToFetch)
  | (first, gapLen) :: gaps, unread, moreToFetch => do
    let (unread, moreToFetch) ← fetchGap confNo first gapLen unread moreToFetch
    fetchGaps confNo gaps unread moreToFetch

/-- The loop after the last range. -/
def fetchTail (confNo : ℕ) : (fuel : ℕ) → (firstLocal : ℕ) → List ℕ → (moreToFetch : ℕ) →
    ClientM (List ℕ)
  | _, _, unread, 0 => return unread
  | 0, _, _, _ + 1 => do
    let reply ← request .loop
    nomatch reply
  | fuel + 1, firstLocal, unread, _ + 1 => do
    match ← localToGlobal confNo firstLocal 255 with
    | some mapping =>
      fetchTail confNo fuel mapping.rangeEnd (unread ++ mapping.texts) mapping.laterTextsExists
    | none => fetchTail confNo fuel firstLocal unread 0

def getUnreadTextsFromMembership (fuel : ℕ) (membership : Membership) : ClientM (List ℕ) := do
  let (gaps, last) := readRangesToGapsAndLast membership.readRanges
  let (unread, moreToFetch) ← fetchGaps membership.conference gaps [] 1
  let unread ← fetchTail membership.conference fuel last unread moreToFetch
  -- Remove text that don't exist anymore (text_no == 0)
  return unread.filter (· ≠ 0)

def markText (textNo markType : ℕ) : ClientM Unit := do
  request (.markText textNo markType)
  -- `textstat.misc_info.no_of_marks` is now invalid
  modify fun self => { self with textstats := self.textstats.invalidate textNo }

def unmarkText (textNo : ℕ) : ClientM Unit := do
  request (.unmarkText textNo)
  -- `textstat.misc_info.no_of_marks` is now invalid
  modify fun self => { self with textstats := self.textstats.invalidate textNo }

/-- `except NotMember: pass` -/
def unlessNotMember (m : ClientM Unit) : ClientM Unit :=
  tryCatch m fun e =>
    match e with
    | .serverError error => if error.cls = .notMember then return () else throw e
    | e => throw e

def markAsReadLocal (confNo : ℕ) (localTextNo : Option ℕ) : ClientM Unit :=
  unlessNotMember (request (.markAsRead confNo [localTextNo]))

def markAsUnreadLocal (confNo : ℕ) (localTextNo : Option ℕ) : ClientM Unit :=
  unlessNotMember (request (.markAsUnread confNo localTextNo))

end ClientState
end Pylyskom
