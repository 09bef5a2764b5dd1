import Pylyskom.PersonClient
import Pylyskom.KomText

/-!
# Memberships of a session

The methods of `KomSession` and `AioKomSession` that read memberships, over the person
client. The two classes differ in how they make a `KomMembership`.
-/

namespace Pylyskom

structure KomUConference where
  confNo : ℕ
  name : Str
  type : Bitstring 8
  highestLocalNo : ℕ
  nice : ℕ
  deriving DecidableEq

def KomUConference.ofUconf (confNo : ℕ) (uconf : UConference) : KomUConference where
  confNo
  name := latin1Decode uconf.name
  type := uconf.type
  highestLocalNo := uconf.highestLocalNo
  nice := uconf.nice

structure KomMembership where
  persNo : ℕ
  addedBy : Option KomPersonName
  conference : KomUConference
  position : ℕ
  lastTimeRead : Time
  priority : ℕ
  addedAt : Time
  type : Bitstring 8
  deriving DecidableEq

def KomMembership.ofMembership (persNo : ℕ) (membership : Membership)
    (addedBy : Option KomPersonName) (conference : KomUConference) : KomMembership where
  persNo
  addedBy
  conference
  position := membership.position
  lastTimeRead := membership.lastTimeRead
  priority := membership.priority
  addedAt := membership.addedAt
  type := membership.type

def MembershipType.passive (self : Bitstring 8) : Bool := self.get 1

open CachingPersonClient in
/-- `get_memberships`, with the session's ways to get the membership of a conference, and
to make one from what the client returns. -/
def getMembershipsWith (getMembership : ℕ → ℕ → PersonM KomMembership)
    (createKomMembership : ℕ → Membership → PersonM KomMembership)
    (persNo first noOfConfs : ℕ) (unread passive : Bool) :
    PersonM (List KomMembership × Bool) := do
  if unread then
    -- The request never returns passive memberships, so that combination is not valid.
    if passive then throw (.builtinError .assertionError)
    let confNos ← request (.getUnreadConfs persNo)
    let memberships ← confNos.mapM fun confNo => getMembership persNo confNo
    return (memberships, false)
  else
    let msList ← CachingPersonClient.getMemberships persNo first noOfConfs false
    -- Whether there are more has to be known before the passive ones are filtered out.
    let hasMore := !decide (msList.length < noOfConfs)
    let shown := msList.filter fun membership =>
      passive || !MembershipType.passive membership.type
    let memberships ← shown.mapM fun membership => createKomMembership persNo membership
    return (memberships, hasMore)

/-- `_get_uconference` of both classes. -/
def getUconference (confNo : ℕ) : PersonM KomUConference := do
  let uconf ← CachingPersonClient.uconference confNo
  return .ofUconf confNo uconf

namespace PersonSession

/-- `conf_name` of the client with no default given: nothing is raised. -/
def confName (confNo : ℕ) : PersonM Str :=
  tryCatch
    (do
      let uconf ← CachingPersonClient.uconference confNo
      return latin1Decode uconf.name)
    fun _ => return []

def getPerson (persNo : ℕ) : PersonM KomPersonName := do
  let username ← confName persNo
  return ⟨persNo, username⟩

def getMembership (persNo confNo : ℕ) : PersonM KomMembership := do
  let membership ← CachingPersonClient.getMembership persNo confNo false
  let addedBy ← getPerson membership.addedBy
  let conference ← getUconference confNo
  return .ofMembership persNo membership (some addedBy) conference

/-- The body of the loop of `get_memberships`. -/
def createKomMembership (persNo : ℕ) (membership : Membership) : PersonM KomMembership := do
  let addedBy ← getPerson membership.addedBy
  let conference ← getUconference membership.conference
  return .ofMembership persNo membership (some addedBy) conference

def getMemberships : (persNo first noOfConfs : ℕ) → (unread passive : Bool) →
    PersonM (List KomMembership × Bool) :=
  getMembershipsWith getMembership createKomMembership

end PersonSession

namespace AioPersonSession

/-- Does not raise if the person does not exist, nor if the number is 0. -/
def getPersonName (persNo : ℕ) : PersonM KomPersonName := do
  let name ← tryCatch
    (do
      let uconf ← CachingPersonClient.uconference persNo
      return latin1Decode uconf.name)
    fun e =>
      match e with
      | .serverError error =>
        if error.cls = .undefinedConference then
          return "Person ".toList ++ Nat.toDigits 10 persNo ++ " (does not exist).".toList
        else if error.cls = .conferenceZero then return "Anonymous person".toList
        else throw e
      | e => throw e
  return ⟨persNo, name⟩

def createKomMembership (persNo : ℕ) (membership : Membership) : PersonM KomMembership := do
  if membership.addedBy = 0 then
    -- The membership was created before protocol 10.
    let conference ← getUconference membership.conference
    return .ofMembership persNo membership none conference
  else
    let addedBy ← getPersonName membership.addedBy
    let conference ← getUconference membership.conference
    return .ofMembership persNo membership (some addedBy) conference

def getMembership (persNo confNo : ℕ) : PersonM KomMembership := do
  let membership ← CachingPersonClient.getMembership persNo confNo false
  createKomMembership persNo membership

def getMemberships : (persNo first noOfConfs : ℕ) → (unread passive : Bool) →
    PersonM (List KomMembership × Bool) :=
  getMembershipsWith getMembership createKomMembership

end AioPersonSession

end Pylyskom
