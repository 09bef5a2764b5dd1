import Pylyskom.Aio.Stream
import Mathlib.Logic.Function.Basic

/-!
# The caching client

`AioCache` and `AioCachingClient` of `aio.py`. A `get` that misses waits for a request of
its own; the handler function invalidates entries when an asynchronous message is handled.
-/

namespace Pylyskom

structure AioCache where
  dict : Dict ℕ OkReply
  cached : ℕ
  uncached : ℕ

namespace AioCache

def init : AioCache := ⟨∅, 0, 0⟩

/-- `get` up to the call of the fetcher, if the key is not in the cache. -/
def get (self : AioCache) (no : ℕ) : Option OkReply × AioCache :=
  match self.dict.get? no with
  | some value => (some value, { self with cached := self.cached + 1 })
  | none => (none, { self with uncached := self.uncached + 1 })

/-- What `get` does with what the fetcher returned. -/
def store (self : AioCache) (no : ℕ) (value : OkReply) : AioCache :=
  { self with dict := self.dict.set no value }

def invalidate (self : AioCache) (no : ℕ) : AioCache :=
  if no ∈ self.dict then { self with dict := self.dict.erase no } else self

@[simp] theorem dict_get (self : AioCache) (no : ℕ) : (self.get no).2.dict = self.dict := by
  unfold get
  split <;> rfl

@[simp] theorem get?_store (self : AioCache) (no k : ℕ) (value : OkReply) :
    (self.store no value).dict.get? k = if k = no then some value else self.dict.get? k := by
  simp [store]

@[simp] theorem get?_invalidate (self : AioCache) (no k : ℕ) :
    (self.invalidate no).dict.get? k = if k = no then none else self.dict.get? k := by
  unfold invalidate
  by_cases hmem : no ∈ self.dict
  · simp [hmem]
  · rw [if_neg hmem]
    split
    · next heq => rw [heq, Dict.get?_eq_none_iff.mpr hmem]
    · rfl

end AioCache

/-- The attributes of the client that hold its caches. -/
inductive CacheName : Type
  | uconferences | conferences | persons | textstats
  deriving DecidableEq

/-- The request by which the fetcher of a cache gets the value of a key. -/
def CacheName.fetch : CacheName → ℕ → Request
  | uconferences, no => ⟨Requests.GET_UCONF_STAT, [decimal no]⟩
  | conferences, no => ⟨Requests.GET_CONF_STAT, [decimal no]⟩
  | persons, no => ⟨Requests.GET_PERSON_STAT, [decimal no]⟩
  | textstats, no => ⟨Requests.GET_TEXT_STAT, [decimal no]⟩

structure AioCachingClient where
  cache : CacheName → AioCache

namespace AioCachingClient

def init : AioCachingClient := ⟨fun _ => .init⟩

def setCache (self : AioCachingClient) (c : CacheName) (cache : AioCache) : AioCachingClient :=
  ⟨Function.update self.cache c cache⟩

/-- The value of a key in a cache. -/
def lookup (self : AioCachingClient) (c : CacheName) (no : ℕ) : Option OkReply :=
  (self.cache c).dict.get? no

def get (self : AioCachingClient) (c : CacheName) (no : ℕ) : AioCachingClient :=
  self.setCache c ((self.cache c).get no).2

def store (self : AioCachingClient) (c : CacheName) (no : ℕ) (value : OkReply) :
    AioCachingClient :=
  self.setCache c ((self.cache c).store no value)

def invalidate (self : AioCachingClient) (c : CacheName) (no : ℕ) : AioCachingClient :=
  self.setCache c ((self.cache c).invalidate no)

/-- A new name makes `uconferences[].name` and `conferences[].name` invalid. -/
def cahNewName (self : AioCachingClient) (confNo : ℕ) : AioCachingClient :=
  (self.invalidate .uconferences confNo).invalidate .conferences confNo

/-- Leaving a conference makes `conferences[].no_of_members` invalid. -/
def cahLeaveConf (self : AioCachingClient) (confNo : ℕ) : AioCachingClient :=
  self.invalidate .conferences confNo

/-- Deletion of a text makes `conferences[].no_of_texts` invalid. -/
def cahDeletedText (self : AioCachingClient) (textStat : TextStat) : AioCachingClient :=
  textStat.miscInfo.recipientList.foldl
    (fun self rcpt => self.invalidate .conferences rcpt.recpt) self

/-- A new text also makes `uconferences[].highest_local_no` and the text-stats of the
commented texts invalid. -/
def cahNewText (self : AioCachingClient) (textStat : TextStat) : AioCachingClient :=
  textStat.miscInfo.commentToList.foldl (fun self ct => self.invalidate .textstats ct.textNo)
    (textStat.miscInfo.recipientList.foldl
      (fun self rcpt =>
        (self.invalidate .conferences rcpt.recpt).invalidate .uconferences rcpt.recpt) self)

def cahNewRecipient (self : AioCachingClient) (textNo confNo : ℕ) : AioCachingClient :=
  ((self.invalidate .conferences confNo).invalidate .uconferences confNo).invalidate
    .textstats textNo

def cahSubRecipient (self : AioCachingClient) (textNo confNo : ℕ) : AioCachingClient :=
  (self.invalidate .conferences confNo).invalidate .textstats textNo

/-- Joining a conference makes `conferences[].no_of_members` invalid. -/
def cahNewMembership (self : AioCachingClient) (confNo : ℕ) : AioCachingClient :=
  self.invalidate .conferences confNo

def cahNewPresentation (self : AioCachingClient) (confNo oldPresentation newPresentation : ℕ) :
    AioCachingClient :=
  ((self.invalidate .conferences confNo).invalidate .textstats oldPresentation).invalidate
    .textstats newPresentation

/-- `_handle_async_message` with the handlers that `__init__` adds. -/
def handleAsyncMessage (self : AioCachingClient) : AsyncMessage → AioCachingClient
  | .newName confNo _ _ => self.cahNewName confNo
  | .leaveConf confNo => self.cahLeaveConf confNo
  | .deletedText _ textStat => self.cahDeletedText textStat
  | .newText _ textStat => self.cahNewText textStat
  | .newRecipient textNo confNo _ => self.cahNewRecipient textNo confNo
  | .subRecipient textNo confNo _ => self.cahSubRecipient textNo confNo
  | .newMembership _ confNo => self.cahNewMembership confNo
  | .newPresentation confNo oldPresentation newPresentation =>
    self.cahNewPresentation confNo oldPresentation newPresentation
  | _ => self

end AioCachingClient

/-- The entries that a message makes invalid. -/
def AsyncMessage.invalidated : AsyncMessage → List (CacheName × ℕ)
  | newName confNo _ _ => [(.uconferences, confNo), (.conferences, confNo)]
  | leaveConf confNo => [(.conferences, confNo)]
  | deletedText _ textStat =>
    textStat.miscInfo.recipientList.flatMap fun rcpt => [(.conferences, rcpt.recpt)]
  | newText _ textStat =>
    (textStat.miscInfo.recipientList.flatMap fun rcpt =>
        [(.conferences, rcpt.recpt), (.uconferences, rcpt.recpt)]) ++
      textStat.miscInfo.commentToList.flatMap fun ct => [(.textstats, ct.textNo)]
  | newRecipient textNo confNo _ =>
    [(.conferences, confNo), (.uconferences, confNo), (.textstats, textNo)]
  | subRecipient textNo confNo _ => [(.conferences, confNo), (.textstats, textNo)]
  | newMembership _ confNo => [(.conferences, confNo)]
  | newPresentation confNo old new =>
    [(.conferences, confNo), (.textstats, old), (.textstats, new)]
  | _ => []

namespace AioCachingClient

@[simp] theorem lookup_get (self : AioCachingClient) (c d : CacheName) (no k : ℕ) :
    (self.get d k).lookup c no = self.lookup c no := by
  unfold get setCache lookup
  by_cases h : c = d
  · subst h
    simp
  · simp [h]

@[simp] theorem lookup_store (self : AioCachingClient) (c d : CacheName) (no k : ℕ)
    (value : OkReply) :
    (self.store d k value).lookup c no =
      if (c, no) = (d, k) then some value else self.lookup c no := by
  unfold store setCache lookup
  by_cases h : c = d
  · subst h
    simp
  · simp [h]

/-- A function that removes the given entries, and leaves the others as they are. -/
def Clears (f : AioCachingClient → AioCachingClient) (keys : List (CacheName × ℕ)) : Prop :=
  ∀ self c no, (f self).lookup c no = if (c, no) ∈ keys then none else self.lookup c no

theorem clears_id : Clears id [] := fun self c no => by simp

theorem clears_invalidate (d : CacheName) (k : ℕ) :
    Clears (fun self => self.invalidate d k) [(d, k)] := by
  intro self c no
  unfold invalidate setCache lookup
  by_cases h : c = d
  · subst h
    simp
  · simp [h]

theorem Clears.comp {f g : AioCachingClient → AioCachingClient} {keys keys' : List (CacheName × ℕ)}
    (hf : Clears f keys) (hg : Clears g keys') :
    Clears (fun self => g (f self)) (keys ++ keys') := by
  intro self c no
  rw [hg, hf]
  by_cases hk : (c, no) ∈ keys
  · simp [hk]
  · simp [hk]

/-- A loop removes what its rounds remove. -/
theorem Clears.foldl {α : Type} {f : AioCachingClient → α → AioCachingClient}
    {keys : α → List (CacheName × ℕ)} (hf : ∀ x, Clears (fun self => f self x) (keys x))
    (l : List α) : Clears (fun self => l.foldl f self) (l.flatMap keys) := by
  induction l with
  | nil => exact clears_id
  | cons x l ih => exact (hf x).comp ih

/-- **The handler function removes exactly the entries that a message makes invalid.** -/
theorem clears_handleAsyncMessage (msg : AsyncMessage) :
    Clears (fun self => self.handleAsyncMessage msg) msg.invalidated := by
  cases msg with
  | newName confNo oldName newName =>
    exact (clears_invalidate _ _).comp (clears_invalidate _ _)
  | leaveConf confNo => exact clears_invalidate _ _
  | deletedText textNo textStat => exact Clears.foldl (fun _ => clears_invalidate _ _) _
  | newText textNo textStat =>
    have hrecipients := Clears.foldl (fun rcpt : MIRecipient =>
      (clears_invalidate .conferences rcpt.recpt).comp
        (clears_invalidate .uconferences rcpt.recpt)) textStat.miscInfo.recipientList
    exact hrecipients.comp (Clears.foldl (fun _ => clears_invalidate _ _) _)
  | newRecipient textNo confNo type =>
    exact ((clears_invalidate _ _).comp (clears_invalidate _ _)).comp (clears_invalidate _ _)
  | subRecipient textNo confNo type =>
    exact (clears_invalidate _ _).comp (clears_invalidate _ _)
  | newMembership personNo confNo => exact clears_invalidate _ _
  | newPresentation confNo old new =>
    exact ((clears_invalidate _ _).comp (clears_invalidate _ _)).comp (clears_invalidate _ _)
  | newTextOld | iAmOn | syncDB | login | rejectedConnection | sendMessage | logout | newUserArea
  | newMotd | textAuxChanged => exact clears_id

end AioCachingClient

end Pylyskom
