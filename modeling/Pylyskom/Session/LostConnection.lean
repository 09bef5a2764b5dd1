import Pylyskom.Session.Reporting

/-!
# Lost connections

An operation in whose socket calls the connection turns out to be lost. It reports that,
unless `except Exception` or the task that receives the replies keeps the error from it.
-/

namespace Pylyskom

/-- The methods with the decorators `check_connection` and `async_check_connection`, by what
they return. Some of them only `AioKomSession` has. -/
inductive Operation (lib : PythonLibrary) : Type → Type
  | disconnect (sessionNo : ℕ) : Operation lib Unit
  | lookupName (name : BytesOrStr) (wantPers wantConfs : Bool) : Operation lib (List (ℕ × Str))
  | reLookupName (regexp : Str) (wantPers wantConfs : Bool) : Operation lib (List (ℕ × Str))
  | login (who : ℕ ⊕ Str) (password : BytesOrStr) : Operation lib KomPersonName
  | logout : Operation lib Unit
  | getCurrentPersonNo : Operation lib ℕ
  | isLoggedIn : Operation lib Bool
  | whoAmI : Operation lib ℕ
  | userIsActive : Operation lib Unit
  | rawRequest (requestBytes : Bytes) : Operation lib Bytes
  | changeConference (confNo : ℕ) : Operation lib Unit
  | createPerson (name passwd : BytesOrStr) : Operation lib KomPersonName
  | getPersonName (persNo : ℕ) : Operation lib KomPersonName
  | getPerson (persNo : ℕ) : Operation lib KomPersonName
  | setPasswd (persNo : ℕ) (oldPwd newPwd : Str) : Operation lib Unit
  | createConference (name : BytesOrStr) (auxItems : List AuxItemInput) : Operation lib ℕ
  | deleteConference (confNo : ℕ) : Operation lib Unit
  | getConfName (confNo : ℕ) : Operation lib KomConferenceName
  | getConference (confNo : ℕ) (micro : Bool) : Operation lib (KomUConference ⊕ KomConference)
  | setPresentation (confNo textNo : ℕ) : Operation lib Unit
  | deletePresentation (confNo : ℕ) : Operation lib Unit
  | getServerInfo : Operation lib KomServerInfo
  | addMembership (persNo confNo priority wherePos : ℕ) : Operation lib Unit
  | deleteMembership (persNo confNo : ℕ) : Operation lib Unit
  | getMembership (persNo confNo : ℕ) : Operation lib KomMembership
  | getMembershipUnread (fuel persNo confNo : ℕ) : Operation lib KomMembershipUnread
  | getMemberships (persNo first noOfConfs : ℕ) (unread passive : Bool) :
      Operation lib (List KomMembership × Bool)
  | getMembershipUnreads (fuel persNo : ℕ) : Operation lib (List KomMembershipUnread)
  | getTextStat (textNo : ℕ) : Operation lib KomTextStat
  | getText (textNo : ℕ) : Operation lib KomText
  | getLastTexts (confNo noOfTexts : ℕ) : Operation lib (List KomText)
  | createText (subject : Option BytesOrStr) (body contentType : BytesOrStr)
      (contentEncoding : Option Str) (recipientList commentToList : List (Str × ℕ)) :
      Operation lib ℕ
  | markAsRead (textNo : ℕ) : Operation lib Unit
  | markAsUnread (textNo : ℕ) : Operation lib Unit
  | setUnread (confNo noOfUnread : ℕ) : Operation lib Unit
  | getMarks : Operation lib (List Mark)
  | markText (textNo markType : ℕ) : Operation lib Unit
  | unmarkText (textNo : ℕ) : Operation lib Unit
  | getUserAreaBlock (fuel persNo : ℕ) (blockName : Bytes) (jsonDecode : Bool) :
      Operation lib (Option (Bytes ⊕ lib.Json))
  | setUserAreaBlock (fuel persNo : ℕ) (blockName : Bytes) (block : Bytes ⊕ lib.Json) :
      Operation lib Unit

namespace Operation

variable {cls : SessionClass} {lib : PythonLibrary} {α : Type}

/-- What a call of the method does. -/
def call (cls : SessionClass) : {α : Type} → Operation lib α → SessionOp α
  | _, disconnect sessionNo => cls.disconnect sessionNo
  | _, lookupName name wantPers wantConfs => cls.lookupName name wantPers wantConfs
  | _, reLookupName regexp wantPers wantConfs => cls.reLookupName regexp wantPers wantConfs
  | _, login who password => cls.login who password
  | _, logout => cls.logout
  | _, getCurrentPersonNo => cls.getCurrentPersonNo
  | _, isLoggedIn => cls.isLoggedIn
  | _, whoAmI => cls.whoAmI
  | _, userIsActive => cls.userIsActive
  | _, rawRequest requestBytes => cls.rawRequest requestBytes
  | _, changeConference confNo => cls.changeConference confNo
  | _, createPerson name passwd => cls.createPerson name passwd
  | _, getPersonName persNo => cls.getPersonNameChecked persNo
  | _, getPerson persNo => cls.getPerson persNo
  | _, setPasswd persNo oldPwd newPwd => cls.setPasswd persNo oldPwd newPwd
  | _, createConference name auxItems => cls.createConference name auxItems
  | _, deleteConference confNo => cls.deleteConference confNo
  | _, getConfName confNo => cls.getConfName confNo
  | _, getConference confNo micro => cls.getConference confNo micro
  | _, setPresentation confNo textNo => cls.setPresentation confNo textNo
  | _, deletePresentation confNo => cls.deletePresentation confNo
  | _, getServerInfo => cls.getServerInfo
  | _, addMembership persNo confNo priority wherePos =>
    cls.addMembership persNo confNo priority wherePos
  | _, deleteMembership persNo confNo => cls.deleteMembership persNo confNo
  | _, getMembership persNo confNo => cls.getMembership persNo confNo
  | _, getMembershipUnread fuel persNo confNo => cls.getMembershipUnread fuel persNo confNo
  | _, getMemberships persNo first noOfConfs unread passive =>
    cls.getMemberships persNo first noOfConfs unread passive
  | _, getMembershipUnreads fuel persNo => cls.getMembershipUnreads fuel persNo
  | _, getTextStat textNo => cls.getTextStat textNo
  | _, getText textNo => cls.getText lib textNo
  | _, getLastTexts confNo noOfTexts => cls.getLastTexts lib confNo noOfTexts
  | _, createText subject body contentType contentEncoding recipientList commentToList =>
    cls.createText subject body contentType contentEncoding recipientList commentToList
  | _, markAsRead textNo => cls.markAsRead textNo
  | _, markAsUnread textNo => cls.markAsUnread textNo
  | _, setUnread confNo noOfUnread => cls.setUnread confNo noOfUnread
  | _, getMarks => cls.getMarks
  | _, markText textNo markType => cls.markText textNo markType
  | _, unmarkText textNo => cls.unmarkText textNo
  | _, getUserAreaBlock fuel persNo blockName jsonDecode =>
    cls.getUserAreaBlock lib fuel persNo blockName jsonDecode
  | _, setUserAreaBlock fuel persNo blockName block =>
    cls.setUserAreaBlock lib fuel persNo blockName block

/-- Each of them reports it when it learns that the connection is lost, and otherwise raises
nothing of the kind. -/
theorem call_relays (op : Operation lib α) {s : SessionState} (hs : cls.isConnected s = true) :
    (op.call cls s).Relays (sessionAlarm cls) (Reported cls)
      fun result _ => ∀ e, result = .error e → e.Quiet := by
  have hreports : ∀ {β : Type} {m : SessionOp β}, OpReports cls m →
      (m s).Relays (sessionAlarm cls) (Reported cls)
        fun result _ => ∀ e, result = .error e → e.Quiet :=
    fun hm => (hm s hs).imp (fun _ _ h => h) fun _ _ h => h.2
  cases op with
  | disconnect sessionNo => exact OpReports.disconnect sessionNo hs
  | lookupName name wantPers wantConfs => exact hreports (.lookupName name wantPers wantConfs)
  | reLookupName regexp wantPers wantConfs =>
    exact hreports (.client (.regexpLookup regexp wantPers wantConfs))
  | login who password => exact hreports (.login who password)
  | logout => exact hreports (OpRelays.person .logout).checkConnection
  | getCurrentPersonNo => exact hreports (.client (Relays.get.bind fun self => .pure))
  | isLoggedIn => exact hreports (.client (Relays.get.bind fun self => .pure))
  | whoAmI => exact hreports (.request _)
  | userIsActive => exact hreports (.request _)
  | rawRequest requestBytes => exact hreports (.request _)
  | changeConference confNo =>
    exact hreports (OpRelays.person (.changeConference confNo)).checkConnection
  | createPerson name passwd => exact hreports (.createPerson name passwd)
  | getPersonName persNo => exact hreports (OpRelays.getPersonName persNo).checkConnection
  | getPerson persNo => exact hreports (OpRelays.getPersonUnchecked persNo).checkConnection
  | setPasswd persNo oldPwd newPwd => exact hreports (.setPasswd persNo oldPwd newPwd)
  | createConference name auxItems => exact hreports (.createConference name auxItems)
  | deleteConference confNo => exact hreports (.request _)
  | getConfName confNo => exact hreports (.getConfName confNo)
  | getConference confNo micro => exact hreports (.getConference confNo micro)
  | setPresentation confNo textNo => exact hreports (.request _)
  | deletePresentation confNo => exact hreports (.request _)
  | getServerInfo => exact hreports .getServerInfo
  | addMembership persNo confNo priority wherePos => exact hreports (.request _)
  | deleteMembership persNo confNo => exact hreports (.request _)
  | getMembership persNo confNo => exact hreports (.getMembership persNo confNo)
  | getMembershipUnread fuel persNo confNo =>
    exact hreports (.getMembershipUnread fuel persNo confNo)
  | getMemberships persNo first noOfConfs unread passive =>
    exact hreports (.getMemberships persNo first noOfConfs unread passive)
  | getMembershipUnreads fuel persNo => exact hreports (.getMembershipUnreads fuel persNo)
  | getTextStat textNo => exact hreports (.getTextStat textNo)
  | getText textNo => exact hreports (.getText textNo)
  | getLastTexts confNo noOfTexts => exact hreports (.getLastTexts confNo noOfTexts)
  | createText subject body contentType contentEncoding recipientList commentToList =>
    exact hreports (.createText subject body contentType contentEncoding recipientList
      commentToList)
  | markAsRead textNo => exact hreports (.markAsRead textNo)
  | markAsUnread textNo => exact hreports (.markAsUnread textNo)
  | setUnread confNo noOfUnread => exact hreports (.request _)
  | getMarks => exact hreports (.request _)
  | markText textNo markType => exact hreports (.client (.markText textNo markType))
  | unmarkText textNo => exact hreports (.client (.unmarkText textNo))
  | getUserAreaBlock fuel persNo blockName jsonDecode =>
    exact hreports (.getUserAreaBlock fuel persNo blockName jsonDecode)
  | setUserAreaBlock fuel persNo blockName block =>
    exact hreports (.setUserAreaBlock fuel persNo blockName block)

/-- There are no socket calls without a connection. -/
theorem call_of_unconnected (op : Operation lib α) {s : SessionState}
    (hs : cls.isConnected s = false) :
    op.call cls s = .done (.error .komSessionNotConnected) s := by
  have hcheck : ∀ {β : Type} (m : SessionOp β),
      cls.checkConnection m s = .done (.error .komSessionNotConnected) s :=
    fun m => SessionClass.checkConnection_of_unconnected hs
  cases op <;> exact hcheck _

end Operation

/-! ## Runs -/

/-- A socket call of an operation that raises an error which means that the connection is
lost: it sends the request, or receives its reply. -/
structure SocketFailure where
  call : ClientCall
  receiving : Bool

/-- In `AioClient`, replies are received by a task that only logs its exceptions. -/
def SocketFailure.EndsReceiver (cls : SessionClass) (failure : SocketFailure) : Prop :=
  cls = .aioKomSession ∧ failure.receiving = true

/-- The error gets to the decorator. -/
def SocketFailure.Propagates (cls : SessionClass) (failure : SocketFailure) : Prop :=
  failure.call.inTry = false ∧ ¬failure.EndsReceiver cls

/-- An operation that has ended, or that waits for a reply. -/
abbrev SuspendedOp (α : Type) : Type := Suspended SessionState ClientCall ClientCall.Reply Exn α

/-- How an operation may go, with the socket calls that fail; it has no outcome if it waits
forever. While it waits the session may change, but nothing else closes it. For `loop` there
is no socket call, and a run that comes there needs more fuel. -/
inductive OperationRun (cls : SessionClass) {α : Type} :
    SuspendedOp α → List SocketFailure → Option (Except Exn α × SessionState) → Prop
  | done {result : Except Exn α} {s : SessionState} :
      OperationRun cls (.done result s) [] (some (result, s))
  | reply {s t : SessionState} {call : ClientCall}
      {resume : Except Exn call.Reply → SessionState → SuspendedOp α}
      {reply : Except Exn call.Reply} {failures : List SocketFailure}
      {outcome : Option (Except Exn α × SessionState)} (hreq : call.req ≠ .loop)
      (hreply : ∀ e, reply = .error e → e.Quiet) (ht : cls.isConnected t = true)
      (hrun : OperationRun cls (resume reply t) failures outcome) :
      OperationRun cls (.await s call resume) failures outcome
  | raises {s t : SessionState} {call : ClientCall}
      {resume : Except Exn call.Reply → SessionState → SuspendedOp α}
      {receiving : Bool} {errno : Errno} {failures : List SocketFailure}
      {outcome : Option (Except Exn α × SessionState)} (hreq : call.req ≠ .loop)
      (hlost : errno.isLost = true)
      (hraises : ¬SocketFailure.EndsReceiver cls ⟨call, receiving⟩)
      (ht : cls.isConnected t = true)
      (hrun : OperationRun cls (resume (.error (.socketError errno)) t) failures outcome) :
      OperationRun cls (.await s call resume) (⟨call, receiving⟩ :: failures) outcome
  | waits {s : SessionState} {call : ClientCall}
      {resume : Except Exn call.Reply → SessionState → SuspendedOp α}
      {receiving : Bool} (hreq : call.req ≠ .loop)
      (hends : SocketFailure.EndsReceiver cls ⟨call, receiving⟩) :
      OperationRun cls (.await s call resume) [⟨call, receiving⟩] none

/-- The operation raises `KomSessionNotConnected`, and has closed the session. -/
def ReportsLost (cls : SessionClass) {α : Type}
    (outcome : Option (Except Exn α × SessionState)) : Prop :=
  ∃ t, outcome = some (.error .komSessionNotConnected, t) ∧ cls.isConnected t = false

namespace OperationRun

variable {cls : SessionClass} {α : Type} {failures : List SocketFailure}
  {outcome : Option (Except Exn α × SessionState)}

theorem of_done {result : Except Exn α} {s : SessionState}
    (hrun : OperationRun cls (.done result s) failures outcome) :
    failures = [] ∧ outcome = some (result, s) := by
  cases hrun
  exact ⟨rfl, rfl⟩

/-- The first error that propagates ends the operation; the others leave no trace in it. -/
theorem reportsLost_iff_of_relays {m : SuspendedOp α}
    (hrun : OperationRun cls m failures outcome)
    (hm : m.Relays (sessionAlarm cls) (Reported cls)
      fun result _ => ∀ e, result = .error e → e.Quiet) :
    ReportsLost cls outcome ↔ ∃ failure ∈ failures, failure.Propagates cls := by
  induction hrun with
  | @done result s =>
    constructor
    · rintro ⟨t, hresult, -⟩
      have hquiet := hm .komSessionNotConnected (congrArg Prod.fst (Option.some.inj hresult))
      exact absurd rfl hquiet.2
    · rintro ⟨failure, hmem, -⟩
      exact absurd hmem List.not_mem_nil
  | @reply s t call resume reply failures outcome hreq hreply ht hrun ih =>
    apply ih
    apply (hm reply t ht).2
    intro e he
    have hquiet := hreply e he
    exact ⟨hquiet.2, fun hlost => absurd hlost (by simp [hquiet.1])⟩
  | @raises s t call resume receiving errno failures outcome hreq hlost hraises ht hrun ih =>
    obtain ⟨hends, hgoes⟩ := hm (.error (.socketError errno)) t ht
    cases hcall : call.inTry with
    | false =>
      obtain ⟨e, u, hdone, rfl, hu⟩ := hends (.socketError errno) rfl ⟨hcall, hlost⟩
      rw [hdone] at hrun
      obtain ⟨rfl, rfl⟩ := hrun.of_done
      constructor
      · exact fun _ => ⟨_, List.mem_cons_self, hcall, hraises⟩
      · exact fun _ => ⟨u, rfl, hu⟩
    | true =>
      have hrest := ih (hgoes fun e he => by
        rw [← Except.error.inj he]
        refine ⟨?_, fun _ => hcall⟩
        exact fun h => nomatch h)
      rw [hrest]
      constructor
      · rintro ⟨failure, hmem, hfailure⟩
        exact ⟨failure, List.mem_cons_of_mem _ hmem, hfailure⟩
      · rintro ⟨failure, hmem, hfailure⟩
        rcases List.mem_cons.mp hmem with rfl | hmem
        · exact absurd hfailure.1 (by simp [hcall])
        · exact ⟨failure, hmem, hfailure⟩
  | @waits s call resume receiving hreq hends =>
    constructor
    · rintro ⟨t, hnone, -⟩
      exact nomatch hnone
    · rintro ⟨failure, hmem, -, hfailure⟩
      obtain rfl := List.mem_singleton.mp hmem
      exact absurd hends hfailure

/-- An operation that loses its connection reports that and closes the session just if one of
the errors gets to the decorator. -/
theorem reportsLost_iff {lib : PythonLibrary} {op : Operation lib α} {s : SessionState}
    (hrun : OperationRun cls (op.call cls s) failures outcome) (hfailures : failures ≠ []) :
    ReportsLost cls outcome ↔ ∃ failure ∈ failures, failure.Propagates cls := by
  cases hs : cls.isConnected s with
  | true => exact hrun.reportsLost_iff_of_relays (op.call_relays hs)
  | false =>
    rw [op.call_of_unconnected hs] at hrun
    exact absurd hrun.of_done.1 hfailures

/-- A library for texts in ASCII, without JSON. -/
def sampleLibrary : PythonLibrary where
  decode _ text := .ok (latin1Decode text)
  Json := Empty
  loads _ := .error .valueError
  dumps value := nomatch value

def sampleSession : SessionState where
  client := some { ClientState.init with connected := true }
  sessionNo := some 17
  clientName := some "kom".toList
  clientVersion := some "1".toList

theorem isLost_EPIPE : Errno.EPIPE.isLost = true := rfl

theorem isConnected_sampleSession : cls.isConnected sampleSession = true := by
  cases cls <;> rfl

theorem not_endsReceiver_sending (call : ClientCall) :
    ¬SocketFailure.EndsReceiver cls ⟨call, false⟩ :=
  fun h => nomatch h.2

theorem reportsLost_iff_sample :
    ∃ failures outcome, OperationRun .komSession
      ((Operation.whoAmI : Operation sampleLibrary ℕ).call .komSession sampleSession) failures
        outcome ∧ ReportsLost .komSession outcome := by
  have hrun : OperationRun .komSession
      ((Operation.whoAmI : Operation sampleLibrary ℕ).call .komSession sampleSession)
      [⟨⟨false, .whoAmI⟩, false⟩] (some (.error .komSessionNotConnected, .init)) :=
    .raises (fun h => nomatch h) isLost_EPIPE (not_endsReceiver_sending _)
      isConnected_sampleSession .done
  refine ⟨_, _, hrun, (hrun.reportsLost_iff (List.cons_ne_nil _ _)).mpr ?_⟩
  exact ⟨_, List.mem_cons_self, rfl, not_endsReceiver_sending _⟩

/-- The name of a conference is empty if the connection is lost. -/
theorem not_reportsLost_confName :
    ¬∀ (cls : SessionClass) (lib : PythonLibrary) (α : Type) (op : Operation lib α)
      (s : SessionState) (failures : List SocketFailure)
      (outcome : Option (Except Exn α × SessionState)),
      OperationRun cls (op.call cls s) failures outcome → failures ≠ [] →
        ReportsLost cls outcome := by
  intro h
  have hrun : OperationRun .komSession
      ((Operation.getConfName 5 : Operation sampleLibrary _).call .komSession sampleSession)
      [⟨⟨true, .person (.getUconfStat 5)⟩, false⟩] (some (.ok ⟨5, []⟩, sampleSession)) :=
    .raises (fun h => nomatch h) isLost_EPIPE (not_endsReceiver_sending _)
      isConnected_sampleSession .done
  obtain ⟨t, ht, -⟩ := h _ _ _ _ _ _ _ hrun (List.cons_ne_nil _ _)
  exact nomatch congrArg Prod.fst (Option.some.inj ht)

end OperationRun
end Pylyskom
