import Mathlib.Algebra.Group.Nat.Defs
import Pylyskom.Requests
import Pylyskom.KomText

/-!
# Request classes

The classes of `requests.py` with the data types of their arguments, and the `to_string`
of these data types. `ReqGetLastText` and `ReqSetReadRanges` are left out with `Time` and
`ArrayReadRange`, whose constructors do not take an instance of their own class.
-/

namespace Pylyskom

def MAX_TEXT_SIZE : ℕ := 2 ^ 31 - 1

/-! ## Serialized data -/

def Int.toString (self : ℕ) : Bytes := decimal self

def String.toString (self : Bytes) : Bytes := toHstring self

/-- `b"%d"*self.LENGTH`, one digit a bit. -/
def Bitstring.toString (self : List Bool) : Bytes :=
  self.map fun b => if b then '1'.toUInt8 else '0'.toUInt8

/-- `Array.to_string`, given the `to_string` of the element class. -/
def Array.toString {α : Type} (element : α → Bytes) (self : List α) : Bytes :=
  if self.length > 0 then
    decimal self.length ++ ascii " \x7b " ++ (ascii " ").intercalate (self.map element) ++
      ascii " \x7d"
  else ascii "0 \x7b \x7d"

def AuxItemInput.toString (self : AuxItemInput) : Bytes :=
  decimal self.tag ++ ascii " " ++ Bitstring.toString self.flags.toList ++ ascii " " ++
    decimal self.inheritLimit ++ ascii " " ++ toHstring self.data

structure InfoOld where
  version : ℕ
  confPresConf : ℕ
  persPresConf : ℕ
  motdConf : ℕ
  komNewsConf : ℕ
  motdOfLyskom : ℕ
  deriving DecidableEq, Repr

def InfoOld.parse : Parser InfoOld := do
  let version ← Int32.parse
  let confPresConf ← ConfNo.parse
  let persPresConf ← ConfNo.parse
  let motdConf ← ConfNo.parse
  let komNewsConf ← ConfNo.parse
  let motdOfLyskom ← TextNo.parse
  return { version, confPresConf, persPresConf, motdConf, komNewsConf, motdOfLyskom }

def InfoOld.toString (self : InfoOld) : Bytes :=
  (ascii " ").intercalate [decimal self.version, decimal self.confPresConf,
    decimal self.persPresConf, decimal self.motdConf, decimal self.komNewsConf,
    decimal self.motdOfLyskom]

def MIRecipient.getTuples (self : MIRecipient) : List (ℕ × ℕ) := [(self.type, self.recpt)]

def MICommentTo.getTuples (self : MICommentTo) : List (ℕ × ℕ) := [(self.type, self.textNo)]

/-- Cannot send these to server. -/
def MICommentIn.getTuples (_self : MICommentIn) : List (ℕ × ℕ) := []

/-- The items that are sent, in their order. -/
def CookedMiscInfo.getTuples (self : CookedMiscInfo) : List (ℕ × ℕ) :=
  self.commentToList.flatMap MICommentTo.getTuples ++
    self.recipientList.flatMap MIRecipient.getTuples ++
    self.commentInList.flatMap MICommentIn.getTuples

def CookedMiscInfo.toString (self : CookedMiscInfo) : Bytes :=
  decimal self.getTuples.length ++ ascii " \x7b " ++
    (self.getTuples.map fun x => decimal x.1 ++ ascii " " ++ decimal x.2 ++ ascii " ").flatten ++
    ascii "\x7d"

/-! ## Arguments -/

/-- The classes of the arguments. -/
inductive DataType : Type
  | bool | int8 | int16 | int32 | auxNo | confNo | persNo | textNo | localTextNo | sessionNo
  | garbNice | infoType | string | anyConfType | privBits | personalFlags | membershipType
  | arrayInt32 | arrayLocalTextNo | arrayAuxItemInput | cookedMiscInfo | infoOld
  deriving DecidableEq, Repr

/-- An argument of a request. What stands for a misc-info differs between the request that
is sent and what is read of it. -/
inductive ArgValue (μ : Type) : Type
  | int (n : ℕ)
  | string (s : Bytes)
  | bitstring (bits : List Bool)
  | arrayInt (ns : List ℕ)
  | arrayAuxItemInput (items : List AuxItemInput)
  | miscInfo (miscInfo : μ)
  | infoOld (info : InfoOld)

/-- `to_string` of an argument. -/
def ArgValue.toString : ArgValue CookedMiscInfo → Bytes
  | int n => Int.toString n
  | string s => String.toString s
  | bitstring bits => Bitstring.toString bits
  | arrayInt ns => Array.toString Int.toString ns
  | arrayAuxItemInput items => Array.toString AuxItemInput.toString items
  | miscInfo info => CookedMiscInfo.toString info
  | infoOld info => InfoOld.toString info

/-- The values of a class; a bit string has the length that its class declares. -/
def DataType.accepts {μ : Type} : DataType → ArgValue μ → Bool
  | bool, .int _ | int8, .int _ | int16, .int _ | int32, .int _ | auxNo, .int _ => true
  | confNo, .int _ | persNo, .int _ | textNo, .int _ | localTextNo, .int _ => true
  | sessionNo, .int _ | garbNice, .int _ | infoType, .int _ => true
  | string, .string _ => true
  | anyConfType, .bitstring bits | personalFlags, .bitstring bits
  | membershipType, .bitstring bits => bits.length = 8
  | privBits, .bitstring bits => bits.length = 16
  | arrayInt32, .arrayInt _ | arrayLocalTextNo, .arrayInt _ => true
  | arrayAuxItemInput, .arrayAuxItemInput _ => true
  | cookedMiscInfo, .miscInfo _ => true
  | infoOld, .infoOld _ => true
  | _, _ => false

structure Argument where
  name : String
  dataType : DataType
  default : Option (ArgValue CookedMiscInfo)

/-- A subclass of `Request`: its `CALL_NO` and its `ARGS`. -/
structure RequestClass where
  callNo : ℕ
  args : List Argument

/-- The constructor of a data type: it takes the values of its class. -/
def Argument.construct (argDef : Argument) (val : ArgValue CookedMiscInfo) :
    Except Exn {val : ArgValue CookedMiscInfo // argDef.dataType.accepts val = true} :=
  if h : argDef.dataType.accepts val = true then .ok ⟨val, h⟩
  else match val with
    | .bitstring _ => .error (.builtinError .valueError) -- wrong length
    | _ => .error (.builtinError .typeError)

/-- One value for each argument, of its class. -/
abbrev Typed (ARGS : List Argument) :=
  {args : List (ArgValue CookedMiscInfo) //
    List.Forall₂ (fun argDef val => argDef.dataType.accepts val = true) ARGS args}

/-- The loop of `Request.__init__`, which takes positional arguments as long as there are
any, then keyword arguments and defaults. -/
def initArgs (kwargs : Dict String (ArgValue CookedMiscInfo)) :
    (ARGS : List Argument) → (args : List (ArgValue CookedMiscInfo)) → Except Exn (Typed ARGS)
  | [], _ => .ok ⟨[], .nil⟩
  | argDef :: ARGS, val :: args =>
    if argDef.name ∈ kwargs then .error (.builtinError .typeError)
    else do
      let arg ← argDef.construct val
      let rest ← initArgs kwargs ARGS args
      return ⟨arg.1 :: rest.1, .cons arg.2 rest.2⟩
  | argDef :: ARGS, [] => do
    let val ← match kwargs.get? argDef.name, argDef.default with
      | some val, _ => .ok val
      | none, some val => .ok val
      | none, none => .error (.builtinError .typeError)
    let arg ← argDef.construct val
    let rest ← initArgs kwargs ARGS []
    return ⟨arg.1 :: rest.1, .cons arg.2 rest.2⟩

/-! ## The classes -/

open Requests

def ReqLogout : RequestClass := ⟨LOGOUT, []⟩
def ReqChangeConference : RequestClass := ⟨CHANGE_CONFERENCE, [⟨"conf_no", .int16, none⟩]⟩
def ReqChangeName : RequestClass :=
  ⟨CHANGE_NAME, [⟨"conf_no", .int16, none⟩, ⟨"new_name", .string, none⟩]⟩
def ReqChangeWhatIAmDoing : RequestClass := ⟨CHANGE_WHAT_I_AM_DOING, [⟨"what", .string, none⟩]⟩
def ReqSetPrivBits : RequestClass :=
  ⟨SET_PRIV_BITS, [⟨"person", .persNo, none⟩, ⟨"privileges", .privBits, none⟩]⟩
def ReqSetPasswd : RequestClass :=
  ⟨SET_PASSWD, [⟨"person", .persNo, none⟩, ⟨"old_pwd", .string, none⟩, ⟨"new_pwd", .string, none⟩]⟩
def ReqDeleteConf : RequestClass := ⟨DELETE_CONF, [⟨"conf", .confNo, none⟩]⟩
def ReqSubMember : RequestClass :=
  ⟨SUB_MEMBER, [⟨"conf_no", .confNo, none⟩, ⟨"pers_no", .persNo, none⟩]⟩
def ReqSetPresentation : RequestClass :=
  ⟨SET_PRESENTATION, [⟨"conf_no", .confNo, none⟩, ⟨"text_no", .textNo, none⟩]⟩
def ReqSetEtcMoTD : RequestClass :=
  ⟨SET_ETC_MOTD, [⟨"conf_no", .confNo, none⟩, ⟨"text_no", .textNo, none⟩]⟩
def ReqSetSupervisor : RequestClass :=
  ⟨SET_SUPERVISOR, [⟨"conf_no", .confNo, none⟩, ⟨"admin", .confNo, none⟩]⟩
def ReqSetPermittedSubmitters : RequestClass :=
  ⟨SET_PERMITTED_SUBMITTERS, [⟨"conf_no", .confNo, none⟩, ⟨"perm_sub", .confNo, none⟩]⟩
def ReqSetSuperConf : RequestClass :=
  ⟨SET_SUPER_CONF, [⟨"conf_no", .confNo, none⟩, ⟨"super_conf", .confNo, none⟩]⟩
def ReqSetConfType : RequestClass :=
  ⟨SET_CONF_TYPE, [⟨"conf_no", .confNo, none⟩, ⟨"conf_type", .anyConfType, none⟩]⟩
def ReqSetGarbNice : RequestClass :=
  ⟨SET_GARB_NICE, [⟨"conf_no", .confNo, none⟩, ⟨"nice", .garbNice, none⟩]⟩
def ReqGetMarks : RequestClass := ⟨GET_MARKS, []⟩
def ReqGetText : RequestClass :=
  ⟨GET_TEXT, [⟨"text_no", .textNo, none⟩, ⟨"start_char", .int32, some (.int 0)⟩,
    ⟨"end_char", .int32, some (.int MAX_TEXT_SIZE)⟩]⟩
def ReqMarkAsRead : RequestClass :=
  ⟨MARK_AS_READ, [⟨"conf_no", .confNo, none⟩, ⟨"texts", .arrayLocalTextNo, none⟩]⟩
def ReqDeleteText : RequestClass := ⟨DELETE_TEXT, [⟨"text_no", .textNo, none⟩]⟩
def ReqAddRecipient : RequestClass :=
  ⟨ADD_RECIPIENT, [⟨"text_no", .textNo, none⟩, ⟨"conf_no", .confNo, none⟩,
    ⟨"recpt_type", .infoType, some (.int MIR_TO)⟩]⟩
def ReqSubRecipient : RequestClass :=
  ⟨SUB_RECIPIENT, [⟨"text_no", .textNo, none⟩, ⟨"conf_no", .confNo, none⟩]⟩
def ReqAddComment : RequestClass :=
  ⟨ADD_COMMENT, [⟨"text_no", .textNo, none⟩, ⟨"comment_to", .textNo, none⟩]⟩
def ReqSubComment : RequestClass :=
  ⟨SUB_COMMENT, [⟨"text_no", .textNo, none⟩, ⟨"comment_to", .textNo, none⟩]⟩
def ReqGetTime : RequestClass := ⟨GET_TIME, []⟩
def ReqAddFootnote : RequestClass :=
  ⟨ADD_FOOTNOTE, [⟨"text_no", .textNo, none⟩, ⟨"footnote_to", .textNo, none⟩]⟩
def ReqSubFootnote : RequestClass :=
  ⟨SUB_FOOTNOTE, [⟨"text_no", .textNo, none⟩, ⟨"footnote_to", .textNo, none⟩]⟩
def ReqSetUnread : RequestClass :=
  ⟨SET_UNREAD, [⟨"conf_no", .confNo, none⟩, ⟨"no_of_unread", .int32, none⟩]⟩
def ReqSetMoTDOfLysKOM : RequestClass := ⟨SET_MOTD_OF_LYSKOM, [⟨"text_no", .textNo, none⟩]⟩
def ReqEnable : RequestClass := ⟨ENABLE, [⟨"level", .int8, none⟩]⟩
def ReqSyncKOM : RequestClass := ⟨SYNC_KOM, []⟩
def ReqShutdownKOM : RequestClass := ⟨SHUTDOWN_KOM, [⟨"exit_val", .int8, none⟩]⟩
def ReqGetPersonStat : RequestClass := ⟨GET_PERSON_STAT, [⟨"pers_no", .persNo, none⟩]⟩
def ReqGetUnreadConfs : RequestClass := ⟨GET_UNREAD_CONFS, [⟨"pers_no", .persNo, none⟩]⟩
def ReqSendMessage : RequestClass :=
  ⟨SEND_MESSAGE, [⟨"conf_no", .confNo, none⟩, ⟨"message", .string, none⟩]⟩
def ReqDisconnect : RequestClass := ⟨DISCONNECT, [⟨"session_no", .sessionNo, none⟩]⟩
def ReqWhoAmI : RequestClass := ⟨WHO_AM_I, []⟩
def ReqSetUserArea : RequestClass :=
  ⟨SET_USER_AREA, [⟨"pers_no", .persNo, none⟩, ⟨"user_area", .textNo, none⟩]⟩
def ReqFindNextTextNo : RequestClass := ⟨FIND_NEXT_TEXT_NO, [⟨"start", .textNo, none⟩]⟩
def ReqFindPreviousTextNo : RequestClass := ⟨FIND_PREVIOUS_TEXT_NO, [⟨"start", .textNo, none⟩]⟩
def ReqLogin : RequestClass :=
  ⟨LOGIN, [⟨"person", .persNo, none⟩, ⟨"password", .string, none⟩,
    ⟨"invisible", .bool, some (.int 1)⟩]⟩
def ReqSetClientVersion : RequestClass :=
  ⟨SET_CLIENT_VERSION, [⟨"client_name", .string, none⟩, ⟨"client_version", .string, none⟩]⟩
def ReqGetClientName : RequestClass := ⟨GET_CLIENT_NAME, [⟨"session_no", .sessionNo, none⟩]⟩
def ReqGetClientVersion : RequestClass := ⟨GET_CLIENT_VERSION, [⟨"session_no", .sessionNo, none⟩]⟩
def ReqMarkText : RequestClass :=
  ⟨MARK_TEXT, [⟨"text_no", .textNo, none⟩, ⟨"mark_type", .int8, none⟩]⟩
def ReqUnmarkText : RequestClass := ⟨UNMARK_TEXT, [⟨"text_no", .textNo, none⟩]⟩
def ReqReZLookup : RequestClass :=
  ⟨RE_Z_LOOKUP, [⟨"regexp", .string, none⟩, ⟨"want_persons", .bool, none⟩,
    ⟨"want_confs", .bool, none⟩]⟩
def ReqGetVersionInfo : RequestClass := ⟨GET_VERSION_INFO, []⟩
def ReqLookupZName : RequestClass :=
  ⟨LOOKUP_Z_NAME, [⟨"name", .string, none⟩, ⟨"want_pers", .bool, none⟩,
    ⟨"want_confs", .bool, none⟩]⟩
def ReqSetLastRead : RequestClass :=
  ⟨SET_LAST_READ, [⟨"conference", .confNo, none⟩, ⟨"last_read", .localTextNo, none⟩]⟩
def ReqGetUconfStat : RequestClass := ⟨GET_UCONF_STAT, [⟨"conf_no", .confNo, none⟩]⟩
def ReqSetInfo : RequestClass := ⟨SET_INFO, [⟨"info", .infoOld, none⟩]⟩
def ReqAcceptAsync : RequestClass := ⟨ACCEPT_ASYNC, [⟨"request_list", .arrayInt32, none⟩]⟩
def ReqQueryAsync : RequestClass := ⟨QUERY_ASYNC, []⟩
def ReqUserActive : RequestClass := ⟨USER_ACTIVE, []⟩
def ReqWhoIsOnDynamic : RequestClass :=
  ⟨WHO_IS_ON_DYNAMIC, [⟨"want_visible", .bool, none⟩, ⟨"want_invisible", .bool, none⟩,
    ⟨"active_last", .int32, none⟩]⟩
def ReqGetStaticSessionInfo : RequestClass :=
  ⟨GET_STATIC_SESSION_INFO, [⟨"session_no", .sessionNo, none⟩]⟩
def ReqGetCollateTable : RequestClass := ⟨GET_COLLATE_TABLE, []⟩
def ReqCreateText : RequestClass :=
  ⟨CREATE_TEXT, [⟨"text", .string, none⟩, ⟨"misc_info", .cookedMiscInfo, none⟩,
    ⟨"aux_items", .arrayAuxItemInput, none⟩]⟩
def ReqCreateAnonymousText : RequestClass :=
  ⟨CREATE_ANONYMOUS_TEXT, [⟨"text", .string, none⟩, ⟨"misc_info", .cookedMiscInfo, none⟩,
    ⟨"aux_items", .arrayAuxItemInput, none⟩]⟩
def ReqCreateConf : RequestClass :=
  ⟨CREATE_CONF, [⟨"name", .string, none⟩, ⟨"type", .anyConfType, none⟩,
    ⟨"aux_items", .arrayAuxItemInput, none⟩]⟩
def ReqCreatePerson : RequestClass :=
  ⟨CREATE_PERSON, [⟨"name", .string, none⟩, ⟨"passwd", .string, none⟩,
    ⟨"flags", .personalFlags, none⟩, ⟨"aux_items", .arrayAuxItemInput, none⟩]⟩
def ReqGetTextStat : RequestClass := ⟨GET_TEXT_STAT, [⟨"text_no", .textNo, none⟩]⟩
def ReqGetConfStat : RequestClass := ⟨GET_CONF_STAT, [⟨"conf_no", .confNo, none⟩]⟩
def ReqModifyTextInfo : RequestClass :=
  ⟨MODIFY_TEXT_INFO, [⟨"text", .textNo, none⟩, ⟨"delete", .auxNo, none⟩,
    ⟨"add", .arrayAuxItemInput, none⟩]⟩
def ReqModifyConfInfo : RequestClass :=
  ⟨MODIFY_CONF_INFO, [⟨"conf", .confNo, none⟩, ⟨"delete", .auxNo, none⟩,
    ⟨"add", .arrayAuxItemInput, none⟩]⟩
def ReqGetInfo : RequestClass := ⟨GET_INFO, []⟩
def ReqModifySystemInfo : RequestClass :=
  ⟨MODIFY_SYSTEM_INFO, [⟨"items_to_delete", .auxNo, none⟩,
    ⟨"items_to_add", .arrayAuxItemInput, none⟩]⟩
def ReqQueryPredefinedAuxItems : RequestClass := ⟨QUERY_PREDEFINED_AUX_ITEMS, []⟩
def ReqSetExpire : RequestClass :=
  ⟨SET_EXPIRE, [⟨"conf_no", .confNo, none⟩, ⟨"expire", .garbNice, none⟩]⟩
def ReqQueryReadTexts10 : RequestClass :=
  ⟨QUERY_READ_TEXTS_10, [⟨"person", .persNo, none⟩, ⟨"conference", .confNo, none⟩]⟩
def ReqGetMembership10 : RequestClass :=
  ⟨GET_MEMBERSHIP_10, [⟨"person", .persNo, none⟩, ⟨"first", .int16, none⟩,
    ⟨"no_of_confs", .int16, none⟩, ⟨"want_read_texts", .bool, none⟩]⟩
def ReqAddMember : RequestClass :=
  ⟨ADD_MEMBER, [⟨"conf_no", .confNo, none⟩, ⟨"pers_no", .persNo, none⟩, ⟨"priority", .int8, none⟩,
    ⟨"where", .int16, none⟩, ⟨"type", .membershipType, none⟩]⟩
def ReqGetMembers : RequestClass :=
  ⟨GET_MEMBERS, [⟨"conf", .confNo, none⟩, ⟨"first", .int16, none⟩, ⟨"no_of_members", .int16, none⟩]⟩
def ReqSetMembershipType : RequestClass :=
  ⟨SET_MEMBERSHIP_TYPE, [⟨"pers", .persNo, none⟩, ⟨"conf", .confNo, none⟩,
    ⟨"type", .membershipType, none⟩]⟩
def ReqLocalToGlobal : RequestClass :=
  ⟨LOCAL_TO_GLOBAL, [⟨"conf_no", .confNo, none⟩, ⟨"first_local_no", .localTextNo, none⟩,
    ⟨"no_of_existing_texts", .int32, none⟩]⟩
def ReqMapCreatedTexts : RequestClass :=
  ⟨MAP_CREATED_TEXTS, [⟨"author", .persNo, none⟩, ⟨"first_local_no", .localTextNo, none⟩,
    ⟨"no_of_existing_texts", .int32, none⟩]⟩
def ReqSetKeepCommented : RequestClass :=
  ⟨SET_KEEP_COMMENTED, [⟨"conf_no", .confNo, none⟩, ⟨"keep_commented", .garbNice, none⟩]⟩
def ReqSetPersFlags : RequestClass :=
  ⟨SET_PERS_FLAGS, [⟨"pers_no", .persNo, none⟩, ⟨"flags", .personalFlags, none⟩]⟩
def ReqQueryReadTexts11 : RequestClass :=
  ⟨QUERY_READ_TEXTS, [⟨"person", .persNo, none⟩, ⟨"conference", .confNo, none⟩,
    ⟨"want_read_ranges", .bool, none⟩, ⟨"max_ranges", .int32, none⟩]⟩
def ReqGetMembership11 : RequestClass :=
  ⟨GET_MEMBERSHIP, [⟨"person", .persNo, none⟩, ⟨"first", .int16, none⟩,
    ⟨"no_of_confs", .int16, none⟩, ⟨"want_read_ranges", .bool, none⟩, ⟨"max_ranges", .int32, none⟩]⟩
def ReqMarkAsUnread : RequestClass :=
  ⟨MARK_AS_UNREAD, [⟨"conference", .confNo, none⟩, ⟨"text", .localTextNo, none⟩]⟩
def ReqGetStatsDescription : RequestClass := ⟨GET_STATS_DESCRIPTION, []⟩
def ReqGetStats : RequestClass := ⟨GET_STATS, [⟨"what", .string, none⟩]⟩
def ReqGetBoottimeInfo : RequestClass := ⟨GET_BOOTTIME_INFO, []⟩
def ReqFirstUnusedConfNo : RequestClass := ⟨FIRST_UNUSED_CONF_NO, []⟩
def ReqFirstUnusedTextNo : RequestClass := ⟨FIRST_UNUSED_TEXT_NO, []⟩
def ReqFindNextConfNo : RequestClass := ⟨FIND_NEXT_CONF_NO, [⟨"start", .confNo, none⟩]⟩
def ReqFindPreviousConfNo : RequestClass := ⟨FIND_PREVIOUS_CONF_NO, [⟨"start", .confNo, none⟩]⟩
def ReqGetScheduling : RequestClass := ⟨GET_SCHEDULING, [⟨"session_no", .sessionNo, none⟩]⟩
def ReqSetScheduling : RequestClass :=
  ⟨SET_SCHEDULING, [⟨"session_no", .sessionNo, none⟩, ⟨"priority", .int16, none⟩,
    ⟨"weight", .int16, none⟩]⟩
def ReqSetConnectionTimeFormat : RequestClass :=
  ⟨SET_CONNECTION_TIME_FORMAT, [⟨"use_utc", .bool, none⟩]⟩
def ReqLocalToGlobalReverse : RequestClass :=
  ⟨LOCAL_TO_GLOBAL_REVERSE, [⟨"conf_no", .confNo, none⟩, ⟨"local_no_ceiling", .localTextNo, none⟩,
    ⟨"no_of_existing_texts", .int32, none⟩]⟩
def ReqMapCreatedTextsReverse : RequestClass :=
  ⟨MAP_CREATED_TEXTS_REVERSE, [⟨"author", .persNo, none⟩, ⟨"local_no_ceiling", .localTextNo, none⟩,
    ⟨"no_of_existing_texts", .int32, none⟩]⟩

def requestClasses : List RequestClass :=
  [ReqLogout, ReqChangeConference, ReqChangeName, ReqChangeWhatIAmDoing, ReqSetPrivBits,
   ReqSetPasswd, ReqDeleteConf, ReqSubMember, ReqSetPresentation, ReqSetEtcMoTD, ReqSetSupervisor,
   ReqSetPermittedSubmitters, ReqSetSuperConf, ReqSetConfType, ReqSetGarbNice, ReqGetMarks,
   ReqGetText, ReqMarkAsRead, ReqDeleteText, ReqAddRecipient, ReqSubRecipient, ReqAddComment,
   ReqSubComment, ReqGetTime, ReqAddFootnote, ReqSubFootnote, ReqSetUnread, ReqSetMoTDOfLysKOM,
   ReqEnable, ReqSyncKOM, ReqShutdownKOM, ReqGetPersonStat, ReqGetUnreadConfs, ReqSendMessage,
   ReqDisconnect, ReqWhoAmI, ReqSetUserArea, ReqFindNextTextNo, ReqFindPreviousTextNo, ReqLogin,
   ReqSetClientVersion, ReqGetClientName, ReqGetClientVersion, ReqMarkText, ReqUnmarkText,
   ReqReZLookup, ReqGetVersionInfo, ReqLookupZName, ReqSetLastRead, ReqGetUconfStat, ReqSetInfo,
   ReqAcceptAsync, ReqQueryAsync, ReqUserActive, ReqWhoIsOnDynamic, ReqGetStaticSessionInfo,
   ReqGetCollateTable, ReqCreateText, ReqCreateAnonymousText, ReqCreateConf, ReqCreatePerson,
   ReqGetTextStat, ReqGetConfStat, ReqModifyTextInfo, ReqModifyConfInfo, ReqGetInfo,
   ReqModifySystemInfo, ReqQueryPredefinedAuxItems, ReqSetExpire, ReqQueryReadTexts10,
   ReqGetMembership10, ReqAddMember, ReqGetMembers, ReqSetMembershipType, ReqLocalToGlobal,
   ReqMapCreatedTexts, ReqSetKeepCommented, ReqSetPersFlags, ReqQueryReadTexts11,
   ReqGetMembership11, ReqMarkAsUnread, ReqGetStatsDescription, ReqGetStats, ReqGetBoottimeInfo,
   ReqFirstUnusedConfNo, ReqFirstUnusedTextNo, ReqFindNextConfNo, ReqFindPreviousConfNo,
   ReqGetScheduling, ReqSetScheduling, ReqSetConnectionTimeFormat, ReqLocalToGlobalReverse,
   ReqMapCreatedTextsReverse]

/-- No two classes have the same call number. -/
theorem nodup_callNo : (requestClasses.map RequestClass.callNo).Nodup := by
  decide

/-- A request of one of the classes, with its arguments. -/
structure TypedRequest where
  cls : RequestClass
  isClass : cls ∈ requestClasses
  args : Typed cls.args

/-- `Request.__init__`, which Python does not call if the keywords would give `self` again. -/
def TypedRequest.init (cls : RequestClass) (isClass : cls ∈ requestClasses)
    (args : List (ArgValue CookedMiscInfo)) (kwargs : Dict String (ArgValue CookedMiscInfo)) :
    Except Exn TypedRequest :=
  if "self" ∈ kwargs then .error (.builtinError .typeError)
  else if args.length + kwargs.items.length > cls.args.length then
    .error (.builtinError .typeError)
  else do
    let args ← initArgs kwargs cls.args args
    return { cls, isClass, args }

/-- What the connection sends. -/
def TypedRequest.request (self : TypedRequest) : Request where
  callNo := self.cls.callNo
  serializedArgs := self.args.1.map ArgValue.toString

/-- Positional arguments of the right classes are taken as they are. -/
theorem initArgs_positional {ARGS : List Argument} (args : Typed ARGS) :
    initArgs ∅ ARGS args.1 = .ok args := by
  obtain ⟨args, h⟩ := args
  induction h with
  | nil => rfl
  | cons hval hvals ih =>
    simp only [initArgs, Argument.construct, hval, Dict.not_mem_empty, if_false, dif_pos, ih]
    rfl

/-- Every request can be made. -/
theorem TypedRequest.init_args (self : TypedRequest) :
    init self.cls self.isClass self.args.1 ∅ = .ok self := by
  have hlen : self.cls.args.length = self.args.1.length := self.args.2.length_eq
  have hnone : (∅ : Dict String (ArgValue CookedMiscInfo)).items.length = 0 := rfl
  rw [init, initArgs_positional, if_neg (Dict.not_mem_empty _), if_neg (by omega)]
  rfl

end Pylyskom
