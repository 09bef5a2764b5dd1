import Mathlib.Data.Int.Notation
import Mathlib.Data.Nat.Notation

/-!
# Errors

The errors of Protocol A, which the server reports by number, the local errors of the
library, and the Python exceptions that its code lets through.
-/

namespace Pylyskom

/-- The subclasses of `ServerError`, one for each Protocol A error. -/
inductive ServerErrorClass : Type
  | notImplemented | obsoleteCall | invalidPassword | stringTooLong
  | loginFirst | loginDisallowed | conferenceZero | undefinedConference
  | undefinedPerson | accessDenied | permissionDenied | notMember
  | noSuchText | textZero | noSuchLocalText | localTextZero
  | badName | indexOutOfRange | conferenceExists | personExists
  | secretPublic | letterbox | ldbError | illegalMisc
  | illegalInfoType | alreadyRecipient | alreadyComment | alreadyFootnote
  | notRecipient | notComment | notFootnote | recipientLimit
  | commentLimit | footnoteLimit | markLimit | notAuthor
  | noConnect | outOfmemory | serverIsCrazy | clientIsCrazy
  | undefinedSession | regexpError | notMarked | temporaryFailure
  | longArray | anonymousRejected | illegalAuxItem | auxItemPermission
  | unknownAsync | internalError | featureDisabled | messageNotSent
  | invalidMembershipType | invalidRange | invalidRangeList | undefinedMeasurement
  | priorityDenied | weightDenied | weightZero | badBool
  deriving DecidableEq, Repr

/-- An instance of a subclass of `ServerError`, with the error status it was made from. -/
structure ServerError where
  cls : ServerErrorClass
  errorStatus : ℕ
  deriving DecidableEq, Repr

/-- The mapping from a Protocol A error number to its class. -/
def errorDict : List (ℕ × ServerErrorClass) :=
  [(2, .notImplemented), (3, .obsoleteCall), (4, .invalidPassword), (5, .stringTooLong),
   (6, .loginFirst), (7, .loginDisallowed), (8, .conferenceZero), (9, .undefinedConference),
   (10, .undefinedPerson), (11, .accessDenied), (12, .permissionDenied), (13, .notMember),
   (14, .noSuchText), (15, .textZero), (16, .noSuchLocalText), (17, .localTextZero),
   (18, .badName), (19, .indexOutOfRange), (20, .conferenceExists), (21, .personExists),
   (22, .secretPublic), (23, .letterbox), (24, .ldbError), (25, .illegalMisc),
   (26, .illegalInfoType), (27, .alreadyRecipient), (28, .alreadyComment), (29, .alreadyFootnote),
   (30, .notRecipient), (31, .notComment), (32, .notFootnote), (33, .recipientLimit),
   (34, .commentLimit), (35, .footnoteLimit), (36, .markLimit), (37, .notAuthor),
   (38, .noConnect), (39, .outOfmemory), (40, .serverIsCrazy), (41, .clientIsCrazy),
   (42, .undefinedSession), (43, .regexpError), (44, .notMarked), (45, .temporaryFailure),
   (46, .longArray), (47, .anonymousRejected), (48, .illegalAuxItem), (49, .auxItemPermission),
   (50, .unknownAsync), (51, .internalError), (52, .featureDisabled), (53, .messageNotSent),
   (54, .invalidMembershipType), (55, .invalidRange), (56, .invalidRangeList),
   (57, .undefinedMeasurement), (58, .priorityDenied), (59, .weightDenied),
   (60, .weightZero), (61, .badBool)]

/-- The subclasses of `LocalError`, with the arguments the code gives them. -/
inductive LocalError : Type
  | badInitialResponse
  | badRequestId (refNo : ℕ)
  /-- `got` is the byte named in the text "Got unexpected", where the code gives one. -/
  | protocolError (got : Option UInt8)
  | unimplementedAsync (msgNo : ℕ)
  | receiveError
  | notEnoughDataInBufferError
  deriving DecidableEq, Repr

/-- `KomSessionError` and its subclasses, with the arguments of the message. -/
inductive KomSessionError : Type
  | nameNotFound (lookup : List Char)
  | ambiguousName (lookup : List Char)
  /-- "Unknown content type for user area text" -/
  | unknownContentType (contentType : List Char)
  /-- "Unhandled content type" -/
  | unhandledContentType (type subtype : List Char) (params : List (List Char × List Char))
  deriving DecidableEq, Repr

/-- The exceptions of Python itself that the modelled code can end in. -/
inductive BuiltinError : Type
  | keyError (key : ℕ)
  /-- A `KeyError` whose key is a string. -/
  | missingKey (key : List Char)
  | valueError
  | typeError
  | attributeError
  | assertionError
  | unicodeDecodeError
  | unicodeEncodeError
  | connectionError
  | cancelledError
  | lookupError
  | runtimeError
  /-- `raise Exception(message)` -/
  | exception (message : List Char)
  deriving DecidableEq, Repr

/-- The `errno` of a `socket.error`. Those with a name mean that the connection is lost. -/
inductive Errno : Type
  | EPIPE | ECONNRESET | ENOTCONN | ETIMEDOUT
  | other (errno : Option ℕ)
  deriving DecidableEq, Repr

/-- Whatever a call of the library can raise. -/
inductive Exn : Type
  | serverError (error : ServerError)
  | localError (error : LocalError)
  /-- `errors.Error` itself, with its message. -/
  | error (message : List Char)
  | komSessionError (error : KomSessionError)
  /-- `KomSessionException` itself, made from a `socket.error`. -/
  | komSessionException (errno : Errno)
  | komSessionNotConnected
  | socketError (errno : Errno)
  | builtinError (error : BuiltinError)
  deriving DecidableEq, Repr

/-- A sequence returns if both of its parts do. -/
theorem bind_eq_ok_iff {ε α β : Type} {x : Except ε α} {f : α → Except ε β} {b : β} :
    x >>= f = .ok b ↔ ∃ a, x = .ok a ∧ f a = .ok b := by
  constructor
  · intro h
    cases x with
    | ok a => exact ⟨a, rfl, h⟩
    | error e => cases h
  · rintro ⟨a, rfl, h⟩
    exact h

end Pylyskom
