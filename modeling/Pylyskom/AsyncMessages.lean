import Pylyskom.Datatypes

/-!
# Asynchronous messages

The subclasses of `AsyncMessage` in `asyncmsg.py`, their `parse` methods, and the
table of the message numbers that the library implements.
-/

namespace Pylyskom

namespace AsyncMessages

def NEW_TEXT_OLD : ℕ := 0
def NEW_NAME : ℕ := 5
def I_AM_ON : ℕ := 6
def SYNC_DB : ℕ := 7
def LEAVE_CONF : ℕ := 8
def LOGIN : ℕ := 9
def REJECTED_CONNECTION : ℕ := 11
def SEND_MESSAGE : ℕ := 12
def LOGOUT : ℕ := 13
def DELETED_TEXT : ℕ := 14
def NEW_TEXT : ℕ := 15
def NEW_RECIPIENT : ℕ := 16
def SUB_RECIPIENT : ℕ := 17
def NEW_MEMBERSHIP : ℕ := 18
def NEW_USER_AREA : ℕ := 19
def NEW_PRESENTATION : ℕ := 20
def NEW_MOTD : ℕ := 21
def TEXT_AUX_CHANGED : ℕ := 22

end AsyncMessages

/-- An asynchronous message, one constructor for each class. -/
inductive AsyncMessage : Type
  | newTextOld (textNo : ℕ) (textStat : TextStat)
  | newName (confNo : ℕ) (oldName newName : Bytes)
  | iAmOn (info : WhoInfo)
  | syncDB
  | leaveConf (confNo : ℕ)
  | login (personNo sessionNo : ℕ)
  | rejectedConnection
  | sendMessage (recipient sender : ℕ) (message : Bytes)
  | logout (personNo sessionNo : ℕ)
  | deletedText (textNo : ℕ) (textStat : TextStat)
  | newText (textNo : ℕ) (textStat : TextStat)
  | newRecipient (textNo confNo type : ℕ)
  | subRecipient (textNo confNo type : ℕ)
  | newMembership (personNo confNo : ℕ)
  | newUserArea (personNo oldUserArea newUserArea : ℕ)
  | newPresentation (confNo oldPresentation newPresentation : ℕ)
  | newMotd (confNo oldMotd newMotd : ℕ)
  | textAuxChanged (textNo : ℕ) (deleted added : List AuxItem)
  deriving DecidableEq

open AsyncMessages in
/-- The attribute `MSG_NO` of the message's class. -/
def AsyncMessage.msgNo : AsyncMessage → ℕ
  | newTextOld .. => NEW_TEXT_OLD
  | newName .. => NEW_NAME
  | iAmOn .. => I_AM_ON
  | syncDB => SYNC_DB
  | leaveConf .. => LEAVE_CONF
  | login .. => LOGIN
  | rejectedConnection => REJECTED_CONNECTION
  | sendMessage .. => SEND_MESSAGE
  | logout .. => LOGOUT
  | deletedText .. => DELETED_TEXT
  | newText .. => NEW_TEXT
  | newRecipient .. => NEW_RECIPIENT
  | subRecipient .. => SUB_RECIPIENT
  | newMembership .. => NEW_MEMBERSHIP
  | newUserArea .. => NEW_USER_AREA
  | newPresentation .. => NEW_PRESENTATION
  | newMotd .. => NEW_MOTD
  | textAuxChanged .. => TEXT_AUX_CHANGED

def AsyncNewTextOld.parse : Parser AsyncMessage := do
  let textNo ← TextNo.parse
  let textStat ← TextStat.parse true
  return .newTextOld textNo textStat

def AsyncNewName.parse : Parser AsyncMessage := do
  let confNo ← ConfNo.parse
  let oldName ← String.parse
  let newName ← String.parse
  return .newName confNo oldName newName

def AsyncIAmOn.parse : Parser AsyncMessage := do
  let info ← WhoInfo.parse
  return .iAmOn info

def AsyncSyncDB.parse : Parser AsyncMessage := return .syncDB

def AsyncLeaveConf.parse : Parser AsyncMessage := do
  let confNo ← ConfNo.parse
  return .leaveConf confNo

def AsyncLogin.parse : Parser AsyncMessage := do
  let personNo ← PersNo.parse
  let sessionNo ← SessionNo.parse
  return .login personNo sessionNo

def AsyncRejectedConnection.parse : Parser AsyncMessage := return .rejectedConnection

def AsyncSendMessage.parse : Parser AsyncMessage := do
  let recipient ← ConfNo.parse
  let sender ← PersNo.parse
  let message ← String.parse
  return .sendMessage recipient sender message

def AsyncLogout.parse : Parser AsyncMessage := do
  let personNo ← PersNo.parse
  let sessionNo ← SessionNo.parse
  return .logout personNo sessionNo

def AsyncDeletedText.parse : Parser AsyncMessage := do
  let textNo ← TextNo.parse
  let textStat ← TextStat.parse false
  return .deletedText textNo textStat

def AsyncNewText.parse : Parser AsyncMessage := do
  let textNo ← TextNo.parse
  let textStat ← TextStat.parse false
  return .newText textNo textStat

def AsyncNewRecipient.parse : Parser AsyncMessage := do
  let textNo ← TextNo.parse
  let confNo ← ConfNo.parse
  let type ← Int32.parse
  return .newRecipient textNo confNo type

def AsyncSubRecipient.parse : Parser AsyncMessage := do
  let textNo ← TextNo.parse
  let confNo ← ConfNo.parse
  let type ← Int32.parse
  return .subRecipient textNo confNo type

def AsyncNewMembership.parse : Parser AsyncMessage := do
  let personNo ← PersNo.parse
  let confNo ← ConfNo.parse
  return .newMembership personNo confNo

def AsyncNewUserArea.parse : Parser AsyncMessage := do
  let personNo ← PersNo.parse
  let oldUserArea ← TextNo.parse
  let newUserArea ← TextNo.parse
  return .newUserArea personNo oldUserArea newUserArea

def AsyncNewPresentation.parse : Parser AsyncMessage := do
  let confNo ← ConfNo.parse
  let oldPresentation ← TextNo.parse
  let newPresentation ← TextNo.parse
  return .newPresentation confNo oldPresentation newPresentation

def AsyncNewMotd.parse : Parser AsyncMessage := do
  let confNo ← ConfNo.parse
  let oldMotd ← TextNo.parse
  let newMotd ← TextNo.parse
  return .newMotd confNo oldMotd newMotd

def AsyncTextAuxChanged.parse : Parser AsyncMessage := do
  let textNo ← TextNo.parse
  let deleted ← ArrayAuxItem.parse
  let added ← ArrayAuxItem.parse
  return .textAuxChanged textNo deleted added

open AsyncMessages in
/-- The `parse` method of each implemented message number. -/
def asyncDict : List (ℕ × Parser AsyncMessage) :=
  [(NEW_TEXT_OLD, AsyncNewTextOld.parse),
   (NEW_NAME, AsyncNewName.parse),
   (I_AM_ON, AsyncIAmOn.parse),
   (SYNC_DB, AsyncSyncDB.parse),
   (LEAVE_CONF, AsyncLeaveConf.parse),
   (LOGIN, AsyncLogin.parse),
   (REJECTED_CONNECTION, AsyncRejectedConnection.parse),
   (SEND_MESSAGE, AsyncSendMessage.parse),
   (LOGOUT, AsyncLogout.parse),
   (DELETED_TEXT, AsyncDeletedText.parse),
   (NEW_TEXT, AsyncNewText.parse),
   (NEW_RECIPIENT, AsyncNewRecipient.parse),
   (SUB_RECIPIENT, AsyncSubRecipient.parse),
   (NEW_MEMBERSHIP, AsyncNewMembership.parse),
   (NEW_USER_AREA, AsyncNewUserArea.parse),
   (NEW_PRESENTATION, AsyncNewPresentation.parse),
   (NEW_MOTD, AsyncNewMotd.parse),
   (TEXT_AUX_CHANGED, AsyncTextAuxChanged.parse)]

end Pylyskom
