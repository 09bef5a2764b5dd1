import Pylyskom.AsyncMessages

/-!
# Requests and their replies

The call numbers of `requests.py`, what a request keeps for being sent, and the
table that gives the type of the reply to each call.
-/

namespace Pylyskom

namespace Requests

def LOGOUT : ℕ := 1
def CHANGE_CONFERENCE : ℕ := 2
def CHANGE_NAME : ℕ := 3
def CHANGE_WHAT_I_AM_DOING : ℕ := 4
def SET_PRIV_BITS : ℕ := 7
def SET_PASSWD : ℕ := 8
def DELETE_CONF : ℕ := 11
def SUB_MEMBER : ℕ := 15
def SET_PRESENTATION : ℕ := 16
def SET_ETC_MOTD : ℕ := 17
def SET_SUPERVISOR : ℕ := 18
def SET_PERMITTED_SUBMITTERS : ℕ := 19
def SET_SUPER_CONF : ℕ := 20
def SET_CONF_TYPE : ℕ := 21
def SET_GARB_NICE : ℕ := 22
def GET_MARKS : ℕ := 23
def GET_TEXT : ℕ := 25
def MARK_AS_READ : ℕ := 27
def DELETE_TEXT : ℕ := 29
def ADD_RECIPIENT : ℕ := 30
def SUB_RECIPIENT : ℕ := 31
def ADD_COMMENT : ℕ := 32
def SUB_COMMENT : ℕ := 33
def GET_MAP : ℕ := 34
def GET_TIME : ℕ := 35
def ADD_FOOTNOTE : ℕ := 37
def SUB_FOOTNOTE : ℕ := 38
def SET_UNREAD : ℕ := 40
def SET_MOTD_OF_LYSKOM : ℕ := 41
def ENABLE : ℕ := 42
def SYNC_KOM : ℕ := 43
def SHUTDOWN_KOM : ℕ := 44
def GET_PERSON_STAT : ℕ := 49
def GET_UNREAD_CONFS : ℕ := 52
def SEND_MESSAGE : ℕ := 53
def DISCONNECT : ℕ := 55
def WHO_AM_I : ℕ := 56
def SET_USER_AREA : ℕ := 57
def GET_LAST_TEXT : ℕ := 58
def FIND_NEXT_TEXT_NO : ℕ := 60
def FIND_PREVIOUS_TEXT_NO : ℕ := 61
def LOGIN : ℕ := 62
def SET_CLIENT_VERSION : ℕ := 69
def GET_CLIENT_NAME : ℕ := 70
def GET_CLIENT_VERSION : ℕ := 71
def MARK_TEXT : ℕ := 72
def UNMARK_TEXT : ℕ := 73
def RE_Z_LOOKUP : ℕ := 74
def GET_VERSION_INFO : ℕ := 75
def LOOKUP_Z_NAME : ℕ := 76
def SET_LAST_READ : ℕ := 77
def GET_UCONF_STAT : ℕ := 78
def SET_INFO : ℕ := 79
def ACCEPT_ASYNC : ℕ := 80
def QUERY_ASYNC : ℕ := 81
def USER_ACTIVE : ℕ := 82
def WHO_IS_ON_DYNAMIC : ℕ := 83
def GET_STATIC_SESSION_INFO : ℕ := 84
def GET_COLLATE_TABLE : ℕ := 85
def CREATE_TEXT : ℕ := 86
def CREATE_ANONYMOUS_TEXT : ℕ := 87
def CREATE_CONF : ℕ := 88
def CREATE_PERSON : ℕ := 89
def GET_TEXT_STAT : ℕ := 90
def GET_CONF_STAT : ℕ := 91
def MODIFY_TEXT_INFO : ℕ := 92
def MODIFY_CONF_INFO : ℕ := 93
def GET_INFO : ℕ := 94
def MODIFY_SYSTEM_INFO : ℕ := 95
def QUERY_PREDEFINED_AUX_ITEMS : ℕ := 96
def SET_EXPIRE : ℕ := 97
def QUERY_READ_TEXTS_10 : ℕ := 98
def GET_MEMBERSHIP_10 : ℕ := 99
def ADD_MEMBER : ℕ := 100
def GET_MEMBERS : ℕ := 101
def SET_MEMBERSHIP_TYPE : ℕ := 102
def LOCAL_TO_GLOBAL : ℕ := 103
def MAP_CREATED_TEXTS : ℕ := 104
def SET_KEEP_COMMENTED : ℕ := 105
def SET_PERS_FLAGS : ℕ := 106
def QUERY_READ_TEXTS : ℕ := 107
def GET_MEMBERSHIP : ℕ := 108
def MARK_AS_UNREAD : ℕ := 109
def SET_READ_RANGES : ℕ := 110
def GET_STATS_DESCRIPTION : ℕ := 111
def GET_STATS : ℕ := 112
def GET_BOOTTIME_INFO : ℕ := 113
def FIRST_UNUSED_CONF_NO : ℕ := 114
def FIRST_UNUSED_TEXT_NO : ℕ := 115
def FIND_NEXT_CONF_NO : ℕ := 116
def FIND_PREVIOUS_CONF_NO : ℕ := 117
def GET_SCHEDULING : ℕ := 118
def SET_SCHEDULING : ℕ := 119
def SET_CONNECTION_TIME_FORMAT : ℕ := 120
def LOCAL_TO_GLOBAL_REVERSE : ℕ := 121
def MAP_CREATED_TEXTS_REVERSE : ℕ := 122

end Requests

/-- A request of some class: the call number of the class and the serialized arguments. -/
structure Request where
  callNo : ℕ
  serializedArgs : List Bytes
  deriving DecidableEq, Repr

/-- The full serialized request, including call number and end of line. -/
def Request.toString (self : Request) : Bytes :=
  (ascii " ").intercalate (decimal self.callNo :: self.serializedArgs) ++ ascii "\n"

/-- The classes that `response_dict` names. -/
inductive ResponseType : Type
  | emptyResponse | textNo | confNo | persNo | staticServerInfo | string | conference | info
  | textList | arrayMark | arrayMember | arrayMembership11 | arrayMembership10 | person
  | schedulingInfo | staticSessionInfo | arrayStats | statsDescription | textStat | time
  | uConference | arrayConfNo | versionInfo | textMapping | arrayConfZInfo | arrayInt32
  | membership11 | membership10 | sessionNo | arrayDynamicSessionInfo
  deriving DecidableEq, Repr

open Requests in
/-- Mapping from request type to response type. -/
def responseDict : List (ℕ × ResponseType) :=
  [(ACCEPT_ASYNC, .emptyResponse),
   (ADD_COMMENT, .emptyResponse),
   (ADD_FOOTNOTE, .emptyResponse),
   (ADD_MEMBER, .emptyResponse),
   (ADD_RECIPIENT, .emptyResponse),
   (CHANGE_CONFERENCE, .emptyResponse),
   (CHANGE_NAME, .emptyResponse),
   (CHANGE_WHAT_I_AM_DOING, .emptyResponse),
   (CREATE_ANONYMOUS_TEXT, .textNo),
   (CREATE_CONF, .confNo),
   (CREATE_PERSON, .persNo),
   (CREATE_TEXT, .textNo),
   (DELETE_CONF, .emptyResponse),
   (DELETE_TEXT, .emptyResponse),
   (DISCONNECT, .emptyResponse),
   (ENABLE, .emptyResponse),
   (FIND_NEXT_CONF_NO, .confNo),
   (FIND_NEXT_TEXT_NO, .textNo),
   (FIND_PREVIOUS_CONF_NO, .confNo),
   (FIND_PREVIOUS_TEXT_NO, .textNo),
   (FIRST_UNUSED_CONF_NO, .confNo),
   (FIRST_UNUSED_TEXT_NO, .textNo),
   (GET_BOOTTIME_INFO, .staticServerInfo),
   (GET_CLIENT_NAME, .string),
   (GET_CLIENT_VERSION, .string),
   (GET_COLLATE_TABLE, .string),
   (GET_CONF_STAT, .conference),
   (GET_INFO, .info),
   (GET_LAST_TEXT, .textNo),
   (GET_MAP, .textList),
   (GET_MARKS, .arrayMark),
   (GET_MEMBERS, .arrayMember),
   (GET_MEMBERSHIP, .arrayMembership11),
   (GET_MEMBERSHIP_10, .arrayMembership10),
   (GET_PERSON_STAT, .person),
   (GET_SCHEDULING, .schedulingInfo),
   (GET_STATIC_SESSION_INFO, .staticSessionInfo),
   (GET_STATS, .arrayStats),
   (GET_STATS_DESCRIPTION, .statsDescription),
   (GET_TEXT, .string),
   (GET_TEXT_STAT, .textStat),
   (GET_TIME, .time),
   (GET_UCONF_STAT, .uConference),
   (GET_UNREAD_CONFS, .arrayConfNo),
   (GET_VERSION_INFO, .versionInfo),
   (LOCAL_TO_GLOBAL, .textMapping),
   (LOCAL_TO_GLOBAL_REVERSE, .textMapping),
   (LOGIN, .emptyResponse),
   (LOGOUT, .emptyResponse),
   (LOOKUP_Z_NAME, .arrayConfZInfo),
   (MAP_CREATED_TEXTS, .textMapping),
   (MAP_CREATED_TEXTS_REVERSE, .textMapping),
   (MARK_AS_READ, .emptyResponse),
   (MARK_AS_UNREAD, .emptyResponse),
   (MARK_TEXT, .emptyResponse),
   (MODIFY_CONF_INFO, .emptyResponse),
   (MODIFY_SYSTEM_INFO, .emptyResponse),
   (MODIFY_TEXT_INFO, .emptyResponse),
   (QUERY_ASYNC, .arrayInt32),
   (QUERY_PREDEFINED_AUX_ITEMS, .arrayInt32),
   (QUERY_READ_TEXTS, .membership11),
   (QUERY_READ_TEXTS_10, .membership10),
   (RE_Z_LOOKUP, .arrayConfZInfo),
   (SEND_MESSAGE, .emptyResponse),
   (SET_CLIENT_VERSION, .emptyResponse),
   (SET_CONF_TYPE, .emptyResponse),
   (SET_CONNECTION_TIME_FORMAT, .emptyResponse),
   (SET_ETC_MOTD, .emptyResponse),
   (SET_EXPIRE, .emptyResponse),
   (SET_GARB_NICE, .emptyResponse),
   (SET_INFO, .emptyResponse),
   (SET_KEEP_COMMENTED, .emptyResponse),
   (SET_LAST_READ, .emptyResponse),
   (SET_MEMBERSHIP_TYPE, .emptyResponse),
   (SET_MOTD_OF_LYSKOM, .emptyResponse),
   (SET_PASSWD, .emptyResponse),
   (SET_PERMITTED_SUBMITTERS, .emptyResponse),
   (SET_PERS_FLAGS, .emptyResponse),
   (SET_PRESENTATION, .emptyResponse),
   (SET_PRIV_BITS, .emptyResponse),
   (SET_READ_RANGES, .emptyResponse),
   (SET_SCHEDULING, .emptyResponse),
   (SET_SUPERVISOR, .emptyResponse),
   (SET_SUPER_CONF, .emptyResponse),
   (SET_UNREAD, .emptyResponse),
   (SET_USER_AREA, .emptyResponse),
   (SHUTDOWN_KOM, .emptyResponse),
   (SUB_COMMENT, .emptyResponse),
   (SUB_FOOTNOTE, .emptyResponse),
   (SUB_MEMBER, .emptyResponse),
   (SUB_RECIPIENT, .emptyResponse),
   (SYNC_KOM, .emptyResponse),
   (UNMARK_TEXT, .emptyResponse),
   (USER_ACTIVE, .emptyResponse),
   (WHO_AM_I, .sessionNo),
   (WHO_IS_ON_DYNAMIC, .arrayDynamicSessionInfo)]

/-- What the `parse` of a response type returns, one constructor for each type. The value
of an `EmptyResponse` is `None`. -/
inductive OkReply : Type
  | emptyResponse
  | textNo (value : ℕ)
  | confNo (value : ℕ)
  | persNo (value : ℕ)
  | staticServerInfo (value : StaticServerInfo)
  | string (value : Bytes)
  | conference (value : Conference)
  | info (value : Info)
  | textList (value : TextList)
  | arrayMark (value : List Mark)
  | arrayMember (value : List Member)
  | arrayMembership11 (value : List Membership11)
  | arrayMembership10 (value : List Membership10)
  | person (value : Person)
  | schedulingInfo (value : SchedulingInfo)
  | staticSessionInfo (value : StaticSessionInfo)
  | arrayStats (value : List Stats)
  | statsDescription (value : StatsDescription)
  | textStat (value : TextStat)
  | time (value : Time)
  | uConference (value : UConference)
  | arrayConfNo (value : List ℕ)
  | versionInfo (value : VersionInfo)
  | textMapping (value : TextMapping)
  | arrayConfZInfo (value : List ConfZInfo)
  | arrayInt32 (value : List ℕ)
  | membership11 (value : Membership11)
  | membership10 (value : Membership10)
  | sessionNo (value : ℕ)
  | arrayDynamicSessionInfo (value : List DynamicSessionInfo)
  deriving DecidableEq

/-- The class whose `parse` returns such a reply. -/
def OkReply.type : OkReply → ResponseType
  | emptyResponse => .emptyResponse
  | textNo _ => .textNo
  | confNo _ => .confNo
  | persNo _ => .persNo
  | staticServerInfo _ => .staticServerInfo
  | string _ => .string
  | conference _ => .conference
  | info _ => .info
  | textList _ => .textList
  | arrayMark _ => .arrayMark
  | arrayMember _ => .arrayMember
  | arrayMembership11 _ => .arrayMembership11
  | arrayMembership10 _ => .arrayMembership10
  | person _ => .person
  | schedulingInfo _ => .schedulingInfo
  | staticSessionInfo _ => .staticSessionInfo
  | arrayStats _ => .arrayStats
  | statsDescription _ => .statsDescription
  | textStat _ => .textStat
  | time _ => .time
  | uConference _ => .uConference
  | arrayConfNo _ => .arrayConfNo
  | versionInfo _ => .versionInfo
  | textMapping _ => .textMapping
  | arrayConfZInfo _ => .arrayConfZInfo
  | arrayInt32 _ => .arrayInt32
  | membership11 _ => .membership11
  | membership10 _ => .membership10
  | sessionNo _ => .sessionNo
  | arrayDynamicSessionInfo _ => .arrayDynamicSessionInfo

/-- The class method `parse` of a response type. -/
def ResponseType.parse : ResponseType → Parser OkReply
  | emptyResponse => (fun _ => .emptyResponse) <$> EmptyResponse.parse
  | textNo => .textNo <$> TextNo.parse
  | confNo => .confNo <$> ConfNo.parse
  | persNo => .persNo <$> PersNo.parse
  | staticServerInfo => .staticServerInfo <$> StaticServerInfo.parse
  | string => .string <$> String.parse
  | conference => .conference <$> Conference.parse
  | info => .info <$> Info.parse
  | textList => .textList <$> TextList.parse
  | arrayMark => .arrayMark <$> ArrayMark.parse
  | arrayMember => .arrayMember <$> ArrayMember.parse
  | arrayMembership11 => .arrayMembership11 <$> ArrayMembership11.parse
  | arrayMembership10 => .arrayMembership10 <$> ArrayMembership10.parse
  | person => .person <$> Person.parse
  | schedulingInfo => .schedulingInfo <$> SchedulingInfo.parse
  | staticSessionInfo => .staticSessionInfo <$> StaticSessionInfo.parse
  | arrayStats => .arrayStats <$> ArrayStats.parse
  | statsDescription => .statsDescription <$> StatsDescription.parse
  | textStat => .textStat <$> TextStat.parse false
  | time => .time <$> Time.parse
  | uConference => .uConference <$> UConference.parse
  | arrayConfNo => .arrayConfNo <$> ArrayConfNo.parse
  | versionInfo => .versionInfo <$> VersionInfo.parse
  | textMapping => .textMapping <$> TextMapping.parse
  | arrayConfZInfo => .arrayConfZInfo <$> ArrayConfZInfo.parse
  | arrayInt32 => .arrayInt32 <$> ArrayInt32.parse
  | membership11 => .membership11 <$> Membership11.parse
  | membership10 => .membership10 <$> Membership10.parse
  | sessionNo => .sessionNo <$> SessionNo.parse
  | arrayDynamicSessionInfo => .arrayDynamicSessionInfo <$> ArrayDynamicSessionInfo.parse

end Pylyskom
