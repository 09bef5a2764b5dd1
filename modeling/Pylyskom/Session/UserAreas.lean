import Mathlib.Data.Option.Basic
import Mathlib.Logic.Function.Basic
import Pylyskom.Coroutine.Sessions
import Pylyskom.KomText.Created
import Pylyskom.Session.Servers
import Pylyskom.Session.UserAreaBlocks

/-!
# User areas of a session

A session sets and gets blocks of user areas, with a server that keeps texts. To set a block it
creates a new text from the old one and makes this the user area of the person. To the caller
there are just blocks under names: this is the abstract view, and what the session returns is
right by it, whatever the server refuses.
-/

namespace Pylyskom

/-! ## The server -/

/-- The texts that a server keeps, numbered in the order in which they were created, and the
persons with their user areas. -/
structure TextStore where
  texts : ℕ → Option (TextStat × Bytes)
  persons : ℕ → Option Person
  highest : ℕ
  le_highest : ∀ {no}, (texts no).isSome → no ≤ highest

namespace TextStore

variable (store : TextStore)

/-- A new text, with a number that no text has had. -/
def create {no : ℕ} (h : store.highest < no) (textStat : TextStat) (text : Bytes) : TextStore where
  texts := Function.update store.texts no (some (textStat, text))
  persons := store.persons
  highest := no
  le_highest := by
    intro other hother
    by_cases heq : other = no
    · exact heq.le
    · rw [Function.update_of_ne heq] at hother
      exact (store.le_highest hother).trans h.le

def setUserArea (persNo userArea : ℕ) : TextStore where
  texts := store.texts
  persons := Function.update store.persons persNo
    ((store.persons persNo).map fun person => { person with userArea })
  highest := store.highest
  le_highest := store.le_highest

def getText (textNo : ℕ) : Except Exn Bytes :=
  match store.texts textNo with
  | some (_, text) => .ok text
  | none => .error (.serverError ⟨if textNo = 0 then .textZero else .noSuchText, textNo⟩)

end TextStore

def undefinedPerson (persNo : ℕ) : Exn := .serverError ⟨.undefinedPerson, persNo⟩

/-- A server that keeps texts: its conferences, and what it may refuse. -/
structure UserAreaServer where
  conferences : ℕ → Option (UConference × Conference)
  conferences_zero : conferences 0 = none
  refusesText : ServerError → Prop
  refusesUserArea : (persNo : ℕ) → ServerError → Prop

namespace UserAreaServer

variable (server : UserAreaServer)

def data (store : TextStore) : ServerData where
  conferences := server.conferences
  textStats no := (store.texts no).map Prod.fst
  conferences_zero := server.conferences_zero

/-- How the server handles the requests of the methods below. Every text here is one of its
own, without recipients and comments. -/
def Handles (store : TextStore) :
    (req : ClientRequest) → Except Exn req.Reply → TextStore → Prop
  | .getPersonStat persNo, reply, after =>
    after = store ∧ reply = (store.persons persNo).elim (.error (undefinedPerson persNo)) .ok
  | .getText textNo, reply, after => after = store ∧ reply = store.getText textNo
  | .createText text miscInfo auxItems, reply, after =>
    miscInfo = {} ∧
      ((∃ no textStat, ∃ h : store.highest < no,
          textStat.auxItems.map (fun x => (x.tag, x.data)) =
            auxItems.map (fun x => (x.tag, x.data)) ∧
          reply = .ok no ∧ after = store.create h textStat text) ∨
        ∃ error, server.refusesText error ∧ reply = .error (.serverError error) ∧ after = store)
  | .setUserArea persNo userArea, reply, after =>
    (store.persons persNo).isSome ∧ reply = .ok () ∧ after = store.setUserArea persNo userArea ∨
      store.persons persNo = none ∧ reply = .error (undefinedPerson persNo) ∧ after = store ∨
      ∃ error, server.refusesUserArea persNo error ∧ reply = .error (.serverError error) ∧
        after = store
  | req, reply, after => req.Reads ∧ after = store ∧ (server.data store).Replies req reply

/-- While a session waits, messages may remove entries from its caches. -/
abbrev Serves := Handling.Serves server.Handles

end UserAreaServer

/-! ## The abstract view -/

/-- ASCII bytes, which are sent as they are. -/
abbrev AsciiBytes : Type := {s : Bytes // nonAscii s = 0}

abbrev BlockName : Type := {name : Bytes // name ≠ [] ∧ nonAscii name = 0}

/-- Blocks under their names. -/
structure UserBlocks where
  blocks : Dict Bytes Bytes
  named : [] ∉ blocks
  ascii : ∀ p ∈ blocks.items, nonAscii p.1 = 0 ∧ nonAscii p.2 = 0

def UserBlocks.set (self : UserBlocks) (name : BlockName) (block : AsciiBytes) : UserBlocks where
  blocks := self.blocks.set name.1 block.1
  named := by
    rw [Dict.mem_set]
    exact not_or.mpr ⟨name.2.1.symm, self.named⟩
  ascii := by
    intro p hp
    have hget : (self.blocks.set name.1 block.1).get? p.1 = some p.2 := Dict.get?_eq_some_iff.mpr hp
    rw [Dict.get?_set] at hget
    split at hget
    · next hname =>
      rw [hname, ← Option.some.inj hget]
      exact ⟨name.2.2, block.2⟩
    · exact self.ascii p (Dict.get?_eq_some_iff.mp hget)

/-- The blocks of each person. -/
abbrev UserAreas : Type := ℕ → Option UserBlocks

/-- `json.dumps` escapes what is not ASCII. -/
def PythonLibrary.DumpsAscii (lib : PythonLibrary) : Prop :=
  ∀ {value block}, lib.dumps value = .ok block → nonAscii block = 0

inductive UserAreaCall (lib : PythonLibrary) : Type
  | getUserAreaBlock (persNo : ℕ) (blockName : Bytes) (jsonDecode : Bool)
  | setUserAreaBlock (persNo : ℕ) (blockName : BlockName) (block : AsciiBytes ⊕ lib.Json)

namespace UserAreaCall

variable {lib : PythonLibrary}

abbrev Result : UserAreaCall lib → Type
  | getUserAreaBlock .. => Option (Bytes ⊕ lib.Json)
  | setUserAreaBlock .. => Unit

def body (cls : SessionClass) (fuel : ℕ) : (call : UserAreaCall lib) → SessionOp call.Result
  | getUserAreaBlock persNo blockName jsonDecode =>
    cls.getUserAreaBlock lib fuel persNo blockName jsonDecode
  | setUserAreaBlock persNo blockName block =>
    cls.setUserAreaBlock lib fuel persNo blockName.1 (block.map Subtype.val id)

/-- A block as it is returned. -/
def shown (block : Option Bytes) (jsonDecode : Bool) : Except Exn (Option (Bytes ⊕ lib.Json)) :=
  match block, jsonDecode with
  | none, _ => .ok none
  | some block, false => .ok (some (.inl block))
  | some block, true =>
    ((lib.loads (latin1Decode block)).mapError Exn.builtinError).map fun value => some (.inr value)

/-- What the call should return or raise, and the blocks after it. -/
def Right (server : UserAreaServer) (areas : UserAreas) :
    (call : UserAreaCall lib) → Except Exn call.Result → UserAreas → Prop
  | getUserAreaBlock persNo blockName jsonDecode, result, after =>
    after = areas ∧ result = (areas persNo).elim (.error (undefinedPerson persNo)) fun blocks =>
      shown (blocks.blocks.get? blockName) jsonDecode
  | setUserAreaBlock persNo blockName block, result, after =>
    (∃ blocks bytes, areas persNo = some blocks ∧
      SessionClass.blockBytes lib (block.map Subtype.val id) = .ok bytes.1 ∧ result = .ok () ∧
      after = Function.update areas persNo (some (blocks.set blockName bytes))) ∨
    after = areas ∧ ∃ e, result = .error e ∧
      (areas persNo = none ∧ e = undefinedPerson persNo ∨
        SessionClass.blockBytes lib (block.map Subtype.val id) = .error e ∨
        ∃ error, (server.refusesText error ∨ server.refusesUserArea persNo error) ∧
          e = .serverError error)

end UserAreaCall

/-- The text is a user area from which the blocks are decoded. -/
def HoldsBlocks (fuel : ℕ) (textStat : TextStat) (text : Bytes) (blocks : UserBlocks) : Prop :=
  KomText.getContentTypeFromTextStat textStat = "x-kom/user-area".toList ∧
    ∃ found : Dict Bytes Bytes, decodeUserArea fuel text = pure (presentBlocks found) ∧
      found.Same blocks.blocks

/-- The user area of a person, who may have none. -/
def TextStore.Holds (store : TextStore) (fuel : ℕ) (blocks : UserBlocks) (person : Person) :
    Prop :=
  if person.userArea = 0 then blocks.blocks.Same ∅
  else ∃ textStat text, store.texts person.userArea = some (textStat, text) ∧
    HoldsBlocks fuel textStat text blocks

namespace UserAreas

/-- The texts of the server hold the blocks. -/
def Represents (fuel : ℕ) (areas : UserAreas) (store : TextStore) : Prop :=
  ∀ persNo, Option.Rel (store.Holds fuel) (areas persNo) (store.persons persNo)

theorem Represents.cases {fuel : ℕ} {areas : UserAreas} {store : TextStore}
    (h : areas.Represents fuel store) (persNo : ℕ) :
    (areas persNo = none ∧ store.persons persNo = none) ∨
      ∃ blocks person, areas persNo = some blocks ∧ store.persons persNo = some person ∧
        store.Holds fuel blocks person := by
  have hrel := h persNo
  generalize areas persNo = area at hrel ⊢
  generalize store.persons persNo = found at hrel ⊢
  cases hrel with
  | some hholds => exact Or.inr ⟨_, _, rfl, rfl, hholds⟩
  | none => exact Or.inl ⟨rfl, rfl⟩

/-- The fuel suffices to decode the blocks after `n` more calls. -/
def Room (fuel n : ℕ) (areas : UserAreas) : Prop :=
  ∀ persNo blocks, areas persNo = some blocks → blocks.blocks.items.length + n + 2 < fuel

theorem Room.of_succ {fuel n : ℕ} {areas : UserAreas} (h : areas.Room fuel (n + 1)) :
    areas.Room fuel n := by
  intro persNo blocks hblocks
  have hroom := h persNo blocks hblocks
  omega

end UserAreas

/-! ## New user areas -/

theorem Dict.Same.length_eq {κ ν : Type} [DecidableEq κ] {d e : Dict κ ν} (h : d.Same e) :
    d.items.length = e.items.length :=
  (Dict.same_iff_perm.mp h).length_eq

theorem Dict.Same.mem_iff {κ ν : Type} [DecidableEq κ] {d e : Dict κ ν} (h : d.Same e) (k : κ) :
    k ∈ d ↔ k ∈ e := by
  rw [Dict.mem_iff_isSome, Dict.mem_iff_isSome, h k]

theorem Dict.length_set_le {κ ν : Type} [DecidableEq κ] (d : Dict κ ν) (k : κ) (v : ν) :
    (d.set k v).items.length ≤ d.items.length + 1 := by
  have hitems : ∀ l : List (κ × ν), (Dict.setItems k v l).length ≤ l.length + 1 := by
    intro l
    induction l with
    | nil => simp [Dict.setItems]
    | cons p l ih =>
      rw [Dict.setItems]
      split
      · simp
      · simpa using ih
  exact hitems d.items

section Blocks

variable {fuel n persNo : ℕ} {blocks : UserBlocks} {name : BlockName} {block : AsciiBytes}
  {found : Dict Bytes Bytes}

theorem Dict.Same.presentBlocks {d e : Dict Bytes Bytes} (h : d.Same e) :
    (presentBlocks d).Same (presentBlocks e) := by
  intro k
  rw [Pylyskom.presentBlocks, Pylyskom.presentBlocks, Dict.get?_mapValues, Dict.get?_mapValues,
    h k]

/-- The new blocks are sent as they are. -/
theorem UserBlocks.nonAscii_set (h : found.Same blocks.blocks) :
    nonAscii (userAreaText (found.set name.1 block.1)) = 0 := by
  have hsame : (found.set name.1 block.1).Same (blocks.set name block).blocks :=
    h.set name.1 block.1
  rw [nonAscii_userAreaText, hsame.presentBlocks.blocksNonAscii, blocksNonAscii_eq_zero]
  exact (blocks.set name block).ascii

/-- The new text holds the old blocks and the new one. -/
theorem UserBlocks.holds_set (h : found.Same blocks.blocks)
    (hfuel : blocks.blocks.items.length + 3 < fuel) {textStat : TextStat}
    (htype : KomText.getContentTypeFromTextStat textStat = "x-kom/user-area".toList) :
    HoldsBlocks fuel textStat (userAreaText (found.set name.1 block.1))
      (blocks.set name block) := by
  have hsame : (found.set name.1 block.1).Same (blocks.set name block).blocks :=
    h.set name.1 block.1
  have hnamed : [] ∉ found.set name.1 block.1 := by
    rw [hsame.mem_iff]
    exact (blocks.set name block).named
  have hlength := found.length_set_le name.1 block.1
  rw [h.length_eq] at hlength
  refine ⟨htype, sortedBlocks (found.set name.1 block.1),
    decodeUserArea_userAreaText hnamed (by omega), fun k => ?_⟩
  exact (sortedBlocks_same _ k).trans (hsame k)

end Blocks

theorem SessionOp.ofExcept_bind {α β : Type} (a : α) (f : α → SessionOp β) :
    (ofExcept (Except.ok a) >>= f : SessionOp β) = f a := rfl

theorem SessionOp.ofExcept_error_bind {α β : Type} (e : Exn) (f : α → SessionOp β) :
    (ofExcept (Except.error e) >>= f : SessionOp β) = throw e := rfl

/-! ## The store -/

namespace UserAreaServer

variable {server : UserAreaServer} {cls : SessionClass} {lib : PythonLibrary}
  {store after : TextStore} {fuel n persNo : ℕ} {blocks : UserBlocks} {areas : UserAreas}
  {α : Type}

theorem handles_of_reads {req : ClientRequest} (hreads : req.Reads) {reply : Except Exn req.Reply} :
    server.Handles store req reply after ↔
      after = store ∧ (server.data store).Replies req reply := by
  rcases hreads.cases with ⟨no, rfl⟩ | ⟨no, rfl⟩ | ⟨no, rfl⟩ <;> exact and_iff_right trivial

/-- A connected session whose caches agree with what the server keeps. -/
abbrev At (server : UserAreaServer) (store : TextStore) (s : SessionState × TextStore) : Prop :=
  (server.data store).Mirrored s.1 ∧ s.2 = store

/-- Texts are added only, so what is cached stays right. -/
theorem mirrored_create {no : ℕ} (h : store.highest < no) {textStat : TextStat} {text : Bytes}
    {s : SessionState} (hs : (server.data store).Mirrored s) :
    (server.data (store.create h textStat text)).Mirrored s := by
  obtain ⟨client, hclient, hconnected, hagrees⟩ := hs
  refine ⟨client, hclient, hconnected, hagrees.uconferences, hagrees.conferences, ?_⟩
  intro other cached hget
  have hcached := hagrees.textstats hget
  have hne : other ≠ no := by
    rintro rfl
    have hnone : store.texts other = none := by
      by_contra hsome
      have hle := store.le_highest (Option.isSome_iff_ne_none.mpr hsome)
      omega
    simp only [ServerData.getTextStat, data, hnone, Option.map_none] at hcached
    cases hcached
  simpa only [ServerData.getTextStat, data, TextStore.create, Function.update_of_ne hne]
    using hcached

theorem holds_create {no : ℕ} (h : store.highest < no) {textStat : TextStat} {text : Bytes}
    {person : Person} (hholds : store.Holds fuel blocks person) :
    (store.create h textStat text).Holds fuel blocks person := by
  unfold TextStore.Holds at hholds ⊢
  split at hholds
  · next hzero => rwa [if_pos hzero]
  · next hzero =>
    rw [if_neg hzero]
    obtain ⟨textStat', text', htext, hblocks⟩ := hholds
    have hle : person.userArea ≤ store.highest := store.le_highest (by rw [htext]; rfl)
    have hne : person.userArea ≠ no := by omega
    exact ⟨textStat', text', (Function.update_of_ne hne _ _).trans htext, hblocks⟩

/-- A text that no person has as user area changes no blocks. -/
theorem represents_create {no : ℕ} (h : store.highest < no) {textStat : TextStat} {text : Bytes}
    (hareas : areas.Represents fuel store) :
    areas.Represents fuel (store.create h textStat text) := by
  intro persNo
  change Option.Rel _ (areas persNo) (store.persons persNo)
  rcases hareas.cases persNo with ⟨harea, hperson⟩ | ⟨blocks, person, harea, hperson, hholds⟩
  · rw [harea, hperson]
    exact .none
  · rw [harea, hperson]
    exact .some (holds_create h hholds)

/-- The new text becomes the user area. -/
theorem represents_setUserArea {no : ℕ} (h : store.highest < no) {textStat : TextStat}
    {text : Bytes} (hareas : areas.Represents fuel store) (hperson : (store.persons persNo).isSome)
    (hblocks : HoldsBlocks fuel textStat text blocks) :
    UserAreas.Represents fuel (Function.update areas persNo (some blocks))
      ((store.create h textStat text).setUserArea persNo no) := by
  intro other
  by_cases heq : other = persNo
  · subst heq
    obtain ⟨person, hperson⟩ := Option.isSome_iff_exists.mp hperson
    have hno : no ≠ 0 := by omega
    rw [Function.update_self]
    simp only [TextStore.setUserArea, TextStore.create, Function.update_self, hperson,
      Option.map_some]
    refine .some ?_
    rw [TextStore.Holds, if_neg hno]
    exact ⟨textStat, text, Function.update_self .., hblocks⟩
  · simp only [Function.update_of_ne heq, TextStore.setUserArea]
    exact represents_create h hareas other

theorem room_set (hareas : areas.Room fuel (n + 1)) (hblocks : areas persNo = some blocks)
    (name : BlockName) (block : AsciiBytes) :
    UserAreas.Room fuel n (Function.update areas persNo (some (blocks.set name block))) := by
  intro other found hfound
  by_cases heq : other = persNo
  · rw [heq, Function.update_self] at hfound
    obtain rfl := Option.some.inj hfound
    have hlength := blocks.blocks.length_set_le name.1 block.1
    have hroom := hareas persNo blocks hblocks
    change (blocks.blocks.set name.1 block.1).items.length + n + 2 < fuel
    omega
  · rw [Function.update_of_ne heq] at hfound
    have hroom := hareas other found hfound
    omega

/-! ## Operations -/

theorem triple_data (server : UserAreaServer) (store : TextStore) {op : SessionOp α}
    {x : Except Exn α} (hop : Computes (server.data store).sessionService op x) :
    Triple server.Serves (server.At store) op fun result s => result = x ∧ server.At store s := by
  refine Handling.triple_data server.Handles (P := (· = store)) hop ?_
  rintro w req rfl hreads reply after
  exact handles_of_reads hreads

/-- A request, with what is known of its reply and of what the server keeps after it. -/
theorem triple_request (server : UserAreaServer) (store : TextStore) (req : ClientRequest)
    {Q : Except Exn req.Reply → TextStore → Prop}
    (hprogress : ∃ reply after, server.Handles store req reply after)
    (hserves : ∀ {reply after}, server.Handles store req reply after → Q reply after) :
    Triple server.Serves (server.At store) (SessionOp.request req)
      fun result s => Q result s.2 ∧ (server.data store).Mirrored s.1 := by
  refine Handling.triple_request server.Handles (P := (· = store)) ⟨false, req⟩
    (SessionOp.request req) (fun s client hclient => SessionOp.request_of_some hclient) ?_
  rintro w rfl
  exact ⟨hprogress, fun _ _ hhandles => hserves hhandles⟩

theorem triple_getPersonStat (persNo : ℕ) :
    Triple server.Serves (server.At store) (SessionOp.request (.getPersonStat persNo))
      fun result s => result = (store.persons persNo).elim (.error (undefinedPerson persNo)) .ok ∧
        server.At store s := by
  refine (server.triple_request store (.getPersonStat persNo) ⟨_, _, rfl, rfl⟩ fun h => h).weaken ?_
  rintro result s ⟨⟨hstore, hresult⟩, hs⟩
  exact ⟨hresult, hs, hstore⟩

/-- Reading a user area, in latin-1. -/
theorem triple_getText {textNo : ℕ} {textStat : TextStat} {text : Bytes}
    (htext : store.texts textNo = some (textStat, text))
    (htype : KomText.getContentTypeFromTextStat textStat = "x-kom/user-area".toList) :
    Triple server.Serves (server.At store) (cls.getText lib textNo)
      (Returning fun komtext s => (komtext.contentType = "x-kom/user-area".toList ∧
        komtext.body = some (.str (latin1Decode text))) ∧ server.At store s) := by
  apply SessionClass.triple_checkConnection fun s hs => hs.1.isConnected
  · have hstat : (server.data store).getTextStat textNo = .ok textStat := by
      simp only [ServerData.getTextStat, data, htext, Option.map_some]
    have hget : store.getText textNo = .ok text := by simp only [TextStore.getText, htext]
    have htextStat := server.triple_data store
      (ServerData.computes_client ((server.data store).computes_textstat textNo))
    rw [hstat] at htextStat
    refine htextStat.bind (fun found => Triple.of_imp fun hfound => ?_) ?_
    case refine_2 =>
      rintro e s ⟨he, -⟩
      cases he
    obtain rfl := (Except.ok.inj hfound).symm
    have hrequest := server.triple_request store (.getText textNo)
      ⟨_, _, rfl, rfl⟩ fun h => h
    refine hrequest.bind (fun found => ?_) ?_
    · rintro s w ⟨⟨rfl, hfound⟩, hs⟩
      rw [hget] at hfound
      obtain rfl := (Except.ok.inj hfound).symm
      have hop : Computes (server.data w).sessionService (cls.getKomTextStat textNo textStat) _ :=
        ServerData.computes_getKomTextStat textNo textStat
      have hks := server.triple_data w hop
      refine hks.bind (fun ks => ?_) ?_ s w ⟨hs, rfl⟩
      case refine_2 =>
        rintro e s ⟨he, -⟩
        cases he
      obtain ⟨komtext, hkomtext, hcontent⟩ := KomSession.ofTextStat_userArea lib.codecs textNo text
        ks.auxItems ks.author htype
      rw [hkomtext]
      exact Triple.pure fun t ht => ⟨hcontent, ht.2⟩
    · rintro e s ⟨⟨-, he⟩, -⟩
      rw [hget] at he
      cases he
  · exact fun e s he => he.elim

theorem triple_userAreaBlocks {textNo : ℕ} {textStat : TextStat} {text : Bytes}
    (htext : store.texts textNo = some (textStat, text))
    (hblocks : HoldsBlocks fuel textStat text blocks) :
    Triple server.Serves (server.At store) (cls.userAreaBlocks lib fuel textNo)
      (Returning fun decoded s => (∃ found, decoded = presentBlocks found ∧
        found.Same blocks.blocks) ∧ server.At store s) := by
  obtain ⟨htype, found, hdecode, hsame⟩ := hblocks
  refine (triple_getText htext htype).andThen fun komtext => Triple.of_imp ?_
  rintro ⟨hcontent, hbody⟩
  have hencode : KomText.encodeLatin1 komtext.body = .ok text := by
    rw [hbody, KomText.encodeLatin1, latin1Encode_latin1Decode]
  simp only [hcontent, ne_eq, not_true_eq_false, if_false, hencode]
  change Triple server.Serves (server.At store)
    (SessionOp.client (ClientState.ofLoops (decodeUserArea fuel text))) _
  rw [hdecode]
  have hpure : Computes (server.data store).clientService
      (ClientState.ofLoops (pure (presentBlocks found))) (.ok (presentBlocks found)) :=
    Computes.pure (presentBlocks found)
  refine (server.triple_data store (ServerData.computes_client hpure)).weaken ?_
  rintro result s ⟨rfl, hs⟩
  exact ⟨⟨found, rfl, hsame⟩, hs⟩

/-- The blocks that are to be changed. -/
theorem triple_blocksOfPerson {person : Person} (hholds : store.Holds fuel blocks person) :
    Triple server.Serves (server.At store) (cls.blocksOfPerson lib fuel person)
      (Returning fun decoded s => (∃ found, decoded = presentBlocks found ∧
        found.Same blocks.blocks) ∧ server.At store s) := by
  unfold TextStore.Holds at hholds
  unfold SessionClass.blocksOfPerson
  split at hholds
  · next hzero =>
    rw [if_pos hzero]
    exact Triple.pure fun s hs => ⟨⟨∅, rfl, fun k => (hholds k).symm⟩, hs⟩
  · next hzero =>
    rw [if_neg hzero]
    obtain ⟨textStat, text, htext, hblocks⟩ := hholds
    exact triple_userAreaBlocks htext hblocks

/-- ASCII bytes go to the server as they are, through UTF-8 and latin-1. -/
theorem createText_userArea {body : Bytes} (hascii : nonAscii body = 0) :
    cls.createText none (.bytes body) (.str "x-kom/user-area".toList) none [] [] =
      cls.checkConnection (do
        let self ← get
        SessionOp.request (.createText body {} (KomSession.userAreaAuxItems
          (SessionClass.format self.clientName ++ [' '] ++
            SessionClass.format self.clientVersion)))) := by
  have hnew := fun software => KomSession.createNewText_userArea (s := latin1Decode body)
    software (latin1Encode_latin1Decode body)
  unfold SessionClass.createText
  simp only [KomSession.decodeUtf8, utf8Decode_of_ascii hascii, Option.mapM_none, pure, Except.pure,
    SessionOp.ofExcept_bind, hnew]

/-- What the server makes of the aux-items of a new text. -/
def newTextStat (auxItems : List AuxItemInput) : TextStat where
  creationTime := ⟨0, 0, 0, 0, 0, 0, 0, 0, 0⟩
  author := 0
  noOfLines := 0
  noOfChars := 0
  noOfMarks := 0
  miscInfo := {}
  auxItems := auxItems.map fun x =>
    ⟨0, x.tag, 0, ⟨0, 0, 0, 0, 0, 0, 0, 0, 0⟩, x.flags, x.inheritLimit, x.data⟩

theorem map_newTextStat (auxItems : List AuxItemInput) :
    (newTextStat auxItems).auxItems.map (fun x => (x.tag, x.data)) =
      auxItems.map fun x => (x.tag, x.data) := by
  simp only [newTextStat, List.map_map, Function.comp_def]

/-- A new user area is added, or the server refuses it. -/
def Creates (server : UserAreaServer) (store : TextStore) (text : Bytes) (reply : Except Exn ℕ)
    (after : TextStore) : Prop :=
  (∃ no textStat, ∃ h : store.highest < no,
    KomText.getContentTypeFromTextStat textStat = "x-kom/user-area".toList ∧
    reply = .ok no ∧ after = store.create h textStat text) ∨
  ∃ error, server.refusesText error ∧ reply = .error (.serverError error) ∧ after = store

theorem triple_createText {body : Bytes} (hascii : nonAscii body = 0) :
    Triple server.Serves (server.At store)
      (cls.createText none (.bytes body) (.str "x-kom/user-area".toList) none [] [])
      fun result s => server.Creates store body result s.2 ∧
        (server.data store).Mirrored s.1 := by
  rw [createText_userArea hascii]
  apply SessionClass.triple_checkConnection fun s hs => hs.1.isConnected
  · rintro s w hs
    let software := SessionClass.format s.clientName ++ [' '] ++
      SessionClass.format s.clientVersion
    let auxItems := KomSession.userAreaAuxItems software
    have hprogress : ∃ reply after,
        server.Handles store (.createText body {} auxItems) reply after :=
      ⟨_, _, rfl, Or.inl ⟨_, newTextStat auxItems, Nat.lt_succ_self _, map_newTextStat auxItems,
        rfl, rfl⟩⟩
    refine server.triple_request store (.createText body {} auxItems) hprogress ?_ s w hs
    rintro reply after ⟨-, ⟨no, textStat, h, hitems, hreply, hafter⟩ | hrefused⟩
    · have htype := @KomText.getContentTypeFromTextStat_stored _ (some software)
        "x-kom/user-area".toList textStat rfl hitems
      exact Or.inl ⟨no, textStat, h, htype.trans (by decide), hreply, hafter⟩
    · exact Or.inr hrefused
  · rintro e s ⟨⟨_, _, _, _, he, _⟩ | ⟨error, _, he, _⟩, _⟩ errno rfl
    · cases he
    · cases he

/-- Sessions that show the blocks, with room for `n` more calls. -/
def Shows (server : UserAreaServer) (fuel n : ℕ) (areas : UserAreas)
    (s : SessionState × TextStore) : Prop :=
  (server.data s.2).Mirrored s.1 ∧ areas.Represents fuel s.2 ∧ areas.Room fuel n

theorem blockBytes_ascii (hlib : lib.DumpsAscii) {block : AsciiBytes ⊕ lib.Json} {bytes : Bytes}
    (h : SessionClass.blockBytes lib (block.map Subtype.val id) = .ok bytes) :
    nonAscii bytes = 0 := by
  cases block with
  | inl block =>
    obtain rfl := Except.ok.inj h
    exact block.2
  | inr value =>
    change (lib.dumps value).mapError Exn.builtinError = .ok bytes at h
    cases hdumps : lib.dumps value with
    | ok block =>
      rw [hdumps] at h
      obtain rfl := Except.ok.inj h
      exact hlib hdumps
    | error e =>
      rw [hdumps] at h
      cases h

/-- The new text is made the user area of the person, unless the server refuses it. -/
theorem triple_setUserArea {no : ℕ} (h : store.highest < no) {textStat : TextStat} {text : Bytes}
    {name : BlockName} {bytes : AsciiBytes} (hareas : areas.Represents fuel store)
    (hroom : areas.Room fuel (n + 1)) (hblocks : areas persNo = some blocks)
    (hheld : HoldsBlocks fuel textStat text (blocks.set name bytes)) :
    Triple server.Serves (server.At (store.create h textStat text))
      (SessionOp.request (.setUserArea persNo no))
      fun result s =>
        (result = .ok () ∧ server.Shows fuel n
          (Function.update areas persNo (some (blocks.set name bytes))) s) ∨
        (∃ error, server.refusesUserArea persNo error ∧ result = .error (.serverError error)) ∧
          server.Shows fuel n areas s := by
  have hperson : (store.persons persNo).isSome := by
    rcases hareas.cases persNo with ⟨hnone, -⟩ | ⟨_, person, -, hperson, -⟩
    · rw [hblocks] at hnone
      cases hnone
    · rw [hperson]
      rfl
  have hcreated : areas.Represents fuel (store.create h textStat text) :=
    represents_create h hareas
  have hset := represents_setUserArea h hareas hperson hheld
  have hrequest := server.triple_request (store.create h textStat text) (.setUserArea persNo no)
    ⟨_, _, Or.inl ⟨hperson, rfl, rfl⟩⟩ fun h => h
  refine hrequest.weaken ?_
  rintro result t ⟨⟨-, hresult, hafter⟩ | ⟨hnone, -⟩ | ⟨error, hrefused, hresult, hafter⟩, ht⟩
  · refine Or.inl ⟨hresult, ?_, ?_, room_set hroom hblocks name bytes⟩
    · rw [hafter]
      exact ht
    · rw [hafter]
      exact hset
  · change store.persons persNo = none at hnone
    rw [hnone] at hperson
    cases hperson
  · refine Or.inr ⟨⟨error, hrefused, hresult⟩, ?_, ?_, hroom.of_succ⟩
    · rw [hafter]
      exact ht
    · rw [hafter]
      exact hcreated

/-- The part of the method that changes what the server keeps. -/
theorem triple_storeBlocks {found : Dict Bytes Bytes} {name : BlockName} (bytes : AsciiBytes)
    (hareas : areas.Represents fuel store) (hroom : areas.Room fuel (n + 1))
    (hblocks : areas persNo = some blocks) (hsame : found.Same blocks.blocks) :
    Triple server.Serves (server.At store)
      (do
        let newUserAreaTextNo ← cls.createText none
          (.bytes (userAreaText (found.set name.1 bytes.1))) (.str "x-kom/user-area".toList)
          none [] []
        SessionOp.request (.setUserArea persNo newUserAreaTextNo))
      fun result s =>
        (result = .ok () ∧ server.Shows fuel n
          (Function.update areas persNo (some (blocks.set name bytes))) s) ∨
        (∃ error, (server.refusesText error ∨ server.refusesUserArea persNo error) ∧
          result = .error (.serverError error)) ∧ server.Shows fuel n areas s := by
  refine (triple_createText (UserBlocks.nonAscii_set hsame)).bind (fun no => ?_) ?_
  · rintro s w ⟨⟨no', textStat, h, htype, hno, rfl⟩ | ⟨error, -, hno, -⟩, hs⟩
    · obtain rfl := Except.ok.inj hno
      have hheld : HoldsBlocks fuel textStat (userAreaText (found.set name.1 bytes.1))
          (blocks.set name bytes) := by
        refine UserBlocks.holds_set hsame ?_ htype
        have := hroom persNo blocks hblocks
        omega
      have hset : Triple server.Serves _ _ _ :=
        triple_setUserArea h hareas hroom hblocks hheld
      refine (hset.weaken ?_) s _ ⟨mirrored_create h hs, rfl⟩
      rintro result t (hshows | ⟨⟨error, hrefused, hresult⟩, hshows⟩)
      · exact Or.inl hshows
      · exact Or.inr ⟨⟨error, Or.inr hrefused, hresult⟩, hshows⟩
    · cases hno
  · rintro e s ⟨⟨_, _, _, _, he, _⟩ | ⟨error, hrefused, he, hstore⟩, hs⟩
    · cases he
    · obtain rfl := Except.error.inj he
      refine Or.inr ⟨⟨error, Or.inl hrefused, rfl⟩, ?_, ?_, hroom.of_succ⟩
      · rw [hstore]
        exact hs
      · rw [hstore]
        exact hareas

theorem blockBytes_error {block : Bytes ⊕ lib.Json} {e : Exn}
    (h : SessionClass.blockBytes lib block = .error e) : ∃ error, e = .builtinError error := by
  cases block with
  | inl block => cases h
  | inr value =>
    change (lib.dumps value).mapError Exn.builtinError = .error e at h
    cases hdumps : lib.dumps value with
    | ok block =>
      rw [hdumps] at h
      cases h
    | error error =>
      rw [hdumps] at h
      exact ⟨error, (Except.error.inj h).symm⟩

theorem shown_error {block : Option Bytes} {jsonDecode : Bool} {e : Exn}
    (h : @UserAreaCall.shown lib block jsonDecode = .error e) :
    ∃ error, e = .builtinError error := by
  cases block with
  | none => cases h
  | some block =>
    cases jsonDecode with
    | false => cases h
    | true =>
      change ((lib.loads (latin1Decode block)).mapError Exn.builtinError).map _ = .error e at h
      cases hloads : lib.loads (latin1Decode block) with
      | ok value =>
        rw [hloads] at h
        cases h
      | error error =>
        rw [hloads] at h
        exact ⟨error, (Except.error.inj h).symm⟩

/-- Nothing that a call raises comes from the socket. -/
theorem not_socketError {call : UserAreaCall lib} {e : Exn} {areas' : UserAreas}
    (h : call.Right server areas (.error e) areas') (errno : Errno) : e ≠ .socketError errno := by
  rintro rfl
  cases call with
  | getUserAreaBlock persNo blockName jsonDecode =>
    obtain ⟨-, hresult⟩ := h
    cases harea : areas persNo with
    | none =>
      rw [harea] at hresult
      cases hresult
    | some blocks =>
      rw [harea] at hresult
      obtain ⟨error, he⟩ := shown_error hresult.symm
      cases he
  | setUserAreaBlock persNo blockName block =>
    rcases h with ⟨_, _, -, -, hresult, -⟩ | ⟨-, e, hresult, he⟩
    · cases hresult
    · obtain rfl := Except.error.inj hresult
      rcases he with ⟨-, he⟩ | he | ⟨error, -, he⟩
      · cases he
      · obtain ⟨error, he⟩ := blockBytes_error he
        cases he
      · cases he

/-- The blocks of the person are read, one is set, and all are stored in a new text. -/
theorem triple_setUserAreaBlock (hlib : lib.DumpsAscii) {name : BlockName}
    {block : AsciiBytes ⊕ lib.Json} (hareas : areas.Represents fuel store)
    (hroom : areas.Room fuel (n + 1)) :
    Triple server.Serves (server.At store)
      (cls.setUserAreaBlock lib fuel persNo name.1 (block.map Subtype.val id))
      fun result s => ∃ areas', (UserAreaCall.setUserAreaBlock persNo name block).Right server
        areas result areas' ∧ server.Shows fuel n areas' s := by
  have hkept : ∀ s, server.At store s → server.Shows fuel n areas s := by
    rintro ⟨s, w⟩ ⟨hs, rfl⟩
    exact ⟨hs, hareas, hroom.of_succ⟩
  apply SessionClass.triple_checkConnection fun s hs => hs.1.isConnected
  · refine (triple_getPersonStat persNo).bind (fun person => Triple.of_imp fun hperson => ?_) ?_
    · rcases hareas.cases persNo with ⟨-, hnone⟩ | ⟨blocks, person', harea, hsome, hholds⟩
      · rw [hnone] at hperson
        cases hperson
      · rw [hsome] at hperson
        obtain rfl := (Except.ok.inj hperson).symm
        refine (triple_blocksOfPerson hholds).andThen fun decoded => Triple.of_imp ?_
        rintro ⟨found, rfl, hsame⟩
        cases hbytes : SessionClass.blockBytes lib (block.map Subtype.val id) with
        | error e =>
          exact Triple.throw fun s hs =>
            ⟨areas, Or.inr ⟨rfl, e, rfl, Or.inr (Or.inl hbytes)⟩, hkept s hs⟩
        | ok bytes =>
          have hset : (presentBlocks found).set name.1 (some bytes) =
              presentBlocks (found.set name.1 bytes) := (Dict.mapValues_set _ _ _ _).symm
          have hascii := blockBytes_ascii hlib hbytes
          simp only [SessionOp.ofExcept_bind, hset, encodeUserArea_presentBlocks]
          refine (triple_storeBlocks ⟨bytes, hascii⟩ hareas hroom harea hsame).weaken ?_
          rintro result s (⟨hresult, hs⟩ | ⟨⟨error, hrefused, hresult⟩, hs⟩)
          · exact ⟨_, Or.inl ⟨blocks, ⟨bytes, hascii⟩, harea, hbytes, hresult, rfl⟩, hs⟩
          · exact ⟨areas, Or.inr ⟨rfl, _, hresult, Or.inr (Or.inr ⟨error, hrefused, rfl⟩)⟩, hs⟩
    · rintro e s ⟨hresult, hs⟩
      rcases hareas.cases persNo with ⟨harea, hnone⟩ | ⟨_, person, -, hsome, -⟩
      · rw [hnone] at hresult
        obtain rfl := Except.error.inj hresult
        exact ⟨areas, Or.inr ⟨rfl, _, rfl, Or.inl ⟨harea, rfl⟩⟩, hkept s hs⟩
      · rw [hsome] at hresult
        cases hresult
  · rintro e s ⟨areas', hright, -⟩
    exact not_socketError hright

theorem triple_getUserAreaBlock {blockName : Bytes} {jsonDecode : Bool}
    (hareas : areas.Represents fuel store) :
    Triple server.Serves (server.At store)
      (cls.getUserAreaBlock lib fuel persNo blockName jsonDecode)
      fun result s => (UserAreaCall.getUserAreaBlock persNo blockName jsonDecode).Right server
        areas result areas ∧ server.At store s := by
  apply SessionClass.triple_checkConnection fun s hs => hs.1.isConnected
  · refine (triple_getPersonStat persNo).bind (fun person => Triple.of_imp fun hperson => ?_) ?_
    · rcases hareas.cases persNo with ⟨-, hnone⟩ | ⟨blocks, person', harea, hsome, hholds⟩
      · rw [hnone] at hperson
        cases hperson
      · rw [hsome] at hperson
        obtain rfl := (Except.ok.inj hperson).symm
        simp only [UserAreaCall.Right, harea, Option.elim_some, true_and]
        unfold TextStore.Holds at hholds
        split at hholds
        · next hzero =>
          rw [if_pos hzero]
          refine Triple.pure fun s hs => ⟨?_, hs⟩
          rw [hholds blockName]
          rfl
        · next hzero =>
          rw [if_neg hzero]
          obtain ⟨textStat, text, htext, hblocks⟩ := hholds
          refine (triple_userAreaBlocks htext hblocks).andThen fun decoded => Triple.of_imp ?_
          rintro ⟨found, rfl, hsame⟩
          have hget : ((presentBlocks found).get? blockName).join =
              blocks.blocks.get? blockName := by
            rw [presentBlocks, Dict.get?_mapValues, ← hsame blockName]
            cases found.get? blockName <;> rfl
          rw [hget]
          cases hblock : blocks.blocks.get? blockName with
          | none => exact Triple.pure fun s hs => ⟨rfl, hs⟩
          | some block =>
            cases jsonDecode with
            | false => exact Triple.pure fun s hs => ⟨rfl, hs⟩
            | true =>
              unfold UserAreaCall.shown
              simp only [if_true]
              cases (lib.loads (latin1Decode block)).mapError Exn.builtinError with
              | ok value =>
                rw [SessionOp.ofExcept_bind]
                exact Triple.pure fun s hs => ⟨rfl, hs⟩
              | error e =>
                rw [SessionOp.ofExcept_error_bind]
                exact Triple.throw fun s hs => ⟨rfl, hs⟩
    · rintro e s ⟨hresult, hs⟩
      rcases hareas.cases persNo with ⟨harea, hnone⟩ | ⟨_, person, -, hsome, -⟩
      · rw [hnone] at hresult
        obtain rfl := Except.error.inj hresult
        refine ⟨⟨rfl, ?_⟩, hs⟩
        rw [harea]
        rfl
      · rw [hsome] at hresult
        cases hresult
  · rintro e s ⟨hright, -⟩
    exact not_socketError hright

/-! ## Runs -/

/-- Each call takes the blocks one step. -/
theorem triple_body (hlib : lib.DumpsAscii) (call : UserAreaCall lib) :
    Triple server.Serves (server.Shows fuel (n + 1) areas) (call.body cls fuel)
      fun result s => ∃ areas', call.Right server areas result areas' ∧
        server.Shows fuel n areas' s := by
  rintro s store ⟨hs, hareas, hroom⟩
  cases call with
  | getUserAreaBlock persNo blockName jsonDecode =>
    refine ((triple_getUserAreaBlock hareas).weaken ?_) s store ⟨hs, rfl⟩
    rintro result ⟨t, w⟩ ⟨hright, ht, rfl⟩
    exact ⟨areas, hright, ht, hareas, hroom.of_succ⟩
  | setUserAreaBlock persNo blockName block =>
    exact triple_setUserAreaBlock hlib hareas hroom s store ⟨hs, rfl⟩

end UserAreaServer

abbrev UserAreaEvent (lib : PythonLibrary) : Type := CallEvent Exn (@UserAreaCall.Result lib)

/-- A session that sets and gets blocks. -/
def UserAreaCall.session {lib : PythonLibrary} (cls : SessionClass) (fuel : ℕ)
    (calls : List (UserAreaCall lib)) : SessionOp (List (UserAreaEvent lib)) :=
  Coroutine.session (UserAreaCall.body cls fuel) calls

/-- What the calls return and raise is right by the blocks, from the first call to the last. -/
abbrev UserAreaTrace {lib : PythonLibrary} (server : UserAreaServer) :
    UserAreas → List (UserAreaEvent lib) → UserAreas → Prop :=
  Trace fun areas call => call.Right server areas

section

variable {server : UserAreaServer} {lib : PythonLibrary} {areas areas' : UserAreas}
  {persNo : ℕ} {name : BlockName}

/-- The person has this block under the name. -/
def UserAreas.HasBlock (areas : UserAreas) (persNo : ℕ) (name : BlockName) (block : AsciiBytes) :
    Prop :=
  ∃ blocks, areas persNo = some blocks ∧ blocks.blocks.get? name.1 = some block.1

theorem UserAreas.hasBlock_set (areas : UserAreas) (blocks : UserBlocks) (block : AsciiBytes) :
    UserAreas.HasBlock (Function.update areas persNo (some (blocks.set name block))) persNo name
      block := by
  refine ⟨_, Function.update_self .., ?_⟩
  change (blocks.blocks.set name.1 block.1).get? name.1 = some block.1
  rw [Dict.get?_set, if_pos rfl]

/-- A call keeps a block, if it does not set it. -/
theorem UserAreas.HasBlock.right {bytes : AsciiBytes} {call : UserAreaCall lib}
    {result : Except Exn call.Result} (hheld : areas.HasBlock persNo name bytes)
    (hright : call.Right server areas result areas')
    (hcall : ∀ block, (⟨call, result⟩ : UserAreaEvent lib) ≠
      ⟨.setUserAreaBlock persNo name block, .ok ()⟩) :
    areas'.HasBlock persNo name bytes := by
  obtain ⟨found, hfound, hget⟩ := hheld
  cases call with
  | getUserAreaBlock other blockName jsonDecode =>
    obtain ⟨rfl, -⟩ := hright
    exact ⟨found, hfound, hget⟩
  | setUserAreaBlock other name' block =>
    rcases hright with ⟨found', bytes', hfound', -, hok, rfl⟩ | ⟨rfl, -⟩
    · by_cases hpers : persNo = other
      · subst hpers
        obtain rfl := Option.some.inj (hfound.symm.trans hfound')
        refine ⟨_, Function.update_self .., ?_⟩
        have hname : name.1 ≠ name'.1 := by
          intro heq
          obtain rfl := Subtype.ext heq
          obtain rfl : result = .ok () := hok
          exact hcall block rfl
        change (found.blocks.set name'.1 bytes'.1).get? name.1 = some bytes.1
        rw [Dict.get?_set, if_neg hname, hget]
      · exact ⟨found, (Function.update_of_ne hpers _ _).trans hfound, hget⟩
    · exact ⟨found, hfound, hget⟩

/-- A block that was set is got until it is set again, whatever is set meanwhile under other
names and for other persons, and whatever fails. -/
theorem UserAreaTrace.got {before between after : List (UserAreaEvent lib)}
    {block : AsciiBytes ⊕ lib.Json} {jsonDecode : Bool}
    {result : Except Exn (Option (Bytes ⊕ lib.Json))}
    (h : UserAreaTrace server areas (before ++ ⟨.setUserAreaBlock persNo name block, .ok ()⟩ ::
      between ++ ⟨.getUserAreaBlock persNo name.1 jsonDecode, result⟩ :: after) areas')
    (hbetween : ∀ block', ⟨.setUserAreaBlock persNo name block', .ok ()⟩ ∉ between) :
    ∃ bytes, SessionClass.blockBytes lib (block.map Subtype.val id) = .ok bytes ∧
      result = UserAreaCall.shown (some bytes) jsonDecode := by
  obtain ⟨final, _, hbefore, ⟨-, hresult⟩, -⟩ := h.split
  obtain ⟨_, _, -, hset, hmeanwhile⟩ := hbefore.split
  rcases hset with ⟨blocks, bytes, -, hbytes, -, rfl⟩ | ⟨-, e, he, -⟩
  · have hheld : final.HasBlock persNo name bytes := by
      refine hmeanwhile.keeps (I := fun areas => areas.HasBlock persNo name bytes) ?_
        (UserAreas.hasBlock_set _ blocks bytes)
      intro areas after event hmem hright hheld
      refine hheld.right hright fun block' heq => hbetween block' ?_
      rw [← heq]
      exact hmem
    obtain ⟨found, hfound, hget⟩ := hheld
    refine ⟨bytes.1, hbytes, hresult.trans ?_⟩
    rw [hfound, Option.elim_some, hget]
  · cases he

end

section

variable {server : UserAreaServer} {cls : SessionClass} {lib : PythonLibrary}
  {store : TextStore} {fuel : ℕ} {areas : UserAreas} {s : SessionState}
  {calls : List (UserAreaCall lib)}

theorem UserAreaServer.triple_session (hlib : lib.DumpsAscii) (calls : List (UserAreaCall lib)) :
    Triple server.Serves (server.Shows fuel calls.length areas)
      (UserAreaCall.session cls fuel calls)
      (Returning fun events s => events.map CallEvent.call = calls ∧
        ∃ areas', UserAreaTrace server areas events areas' ∧ areas'.Represents fuel s.2) := by
  have hbody : ∀ n areas, ∀ call ∈ calls, Triple server.Serves (server.Shows fuel (n + 1) areas)
      (UserAreaCall.body cls fuel call) fun result s => ∃ areas',
        UserAreaCall.Right server areas call result areas' ∧ server.Shows fuel n areas' s :=
    fun n areas call _ => triple_body hlib call
  have hsession := Triple.session hbody (n := 0) (a := areas)
  rw [Nat.zero_add] at hsession
  refine hsession.weaken ?_
  rintro (e | events) t h
  · exact h
  · obtain ⟨hcalls, areas', htrace, -, hareas, -⟩ := h
    exact ⟨hcalls, areas', htrace, hareas⟩

/-- **User areas** are right by the abstract view: a session that sets and gets blocks of any
persons comes to an end, and then the blocks that it got are those that were set before, under
the same name and for the same person, as far as the server did not refuse them; what is refused
changes no block. The names are in ASCII and not empty, and the blocks that are stored and set
are in ASCII. -/
theorem userAreas_right (hlib : lib.DumpsAscii) (hs : (server.data store).Mirrored s)
    (hareas : areas.Represents fuel store) (hroom : areas.Room fuel calls.length) :
    (UserAreaCall.session cls fuel calls s).Achieves server.Serves store fun result t =>
      ∃ events areas', result = .ok events ∧ events.map CallEvent.call = calls ∧
        UserAreaTrace server areas events areas' ∧ areas'.Represents fuel t.2 := by
  refine Suspended.Achieves.mono
    (server.triple_session hlib calls s store ⟨hs, hareas, hroom⟩) ?_
  rintro (e | events) t hend
  · exact hend.elim
  · obtain ⟨hcalls, areas', htrace, hareas⟩ := hend
    exact ⟨events, areas', rfl, hcalls, htrace, hareas⟩

end

/-! ## A sample -/

/-- JSON values that are booleans. -/
def sampleJson : PythonLibrary where
  decode _ text := .ok (latin1Decode text)
  Json := Bool
  loads s :=
    if s = "true".toList then .ok true
    else if s = "false".toList then .ok false
    else .error .valueError
  dumps value := .ok (ascii (if value then "true" else "false"))

theorem dumpsAscii_sampleJson : sampleJson.DumpsAscii := by
  intro value block h
  obtain rfl := Except.ok.inj h
  cases value <;> decide

/-- A server that refuses nothing. -/
def sampleAreaServer : UserAreaServer where
  conferences := ServerData.sampleServer.conferences
  conferences_zero := ServerData.sampleServer.conferences_zero
  refusesText _ := False
  refusesUserArea _ _ := False

/-- The person 6 has no user area. -/
def sampleTextStore : TextStore where
  texts _ := none
  persons no := if no = 6 then some
    { username := [], privileges := List.Vector.replicate 16 false
      flags := List.Vector.replicate 8 false, lastLogin := ⟨0, 0, 0, 0, 0, 0, 0, 0, 0⟩
      userArea := 0, totalTimePresent := 0, sessions := 0, createdLines := 0, createdBytes := 0
      readTexts := 0, noOfTextFetches := 0, createdPersons := 0, createdConfs := 0
      firstCreatedLocalNo := 0, noOfCreatedTexts := 0, noOfMarks := 0, noOfConfs := 0 } else none
  highest := 0
  le_highest h := nomatch h

def sampleAreas : UserAreas := fun no =>
  if no = 6 then some ⟨∅, Dict.not_mem_empty _, fun _ hp => nomatch hp⟩ else none

theorem represents_sampleAreas : sampleAreas.Represents 5 sampleTextStore := by
  intro persNo
  unfold sampleAreas sampleTextStore
  dsimp only
  split
  · refine .some ?_
    unfold TextStore.Holds
    rw [if_pos rfl]
    exact .refl _
  · exact .none

theorem room_sampleAreas : sampleAreas.Room 5 2 := by
  intro persNo blocks h
  unfold sampleAreas at h
  split at h
  · obtain rfl := Option.some.inj h
    decide
  · cases h

def sampleCalls : List (UserAreaCall sampleJson) :=
  [.setUserAreaBlock 6 ⟨ascii "jskom", by decide⟩ (.inr true),
    .getUserAreaBlock 6 (ascii "jskom") true]

def sampleEvents : List (UserAreaEvent sampleJson) :=
  [⟨.setUserAreaBlock 6 ⟨ascii "jskom", by decide⟩ (.inr true), .ok ()⟩,
    ⟨.getUserAreaBlock 6 (ascii "jskom") true, .ok (some (.inr true))⟩]

/-- The server refuses nothing, so there is only one way in which the calls can go. -/
theorem eq_sampleEvents {events : List (UserAreaEvent sampleJson)} {areas : UserAreas}
    (hcalls : events.map CallEvent.call = sampleCalls)
    (htrace : UserAreaTrace sampleAreaServer sampleAreas events areas) : events = sampleEvents := by
  match events, hcalls with
  | [⟨_, set⟩, ⟨_, got⟩], rfl =>
    have hset : set = .ok () := by
      cases htrace with
      | cons hright _ =>
        rcases hright with ⟨_, _, -, -, hok, -⟩ | ⟨-, e, -, ⟨hnone, -⟩ | he | ⟨error, hrefused, -⟩⟩
        · exact hok
        · cases hnone
        · cases he
        · exact (hrefused.elim id id).elim
    subst hset
    obtain ⟨bytes, hbytes, hgot⟩ := @UserAreaTrace.got _ _ _ _ _ _ [] [] [] _ _ _ htrace
      fun _ => List.not_mem_nil
    obtain rfl := Except.ok.inj hbytes
    subst hgot
    rfl

/-- A value is set and got. -/
theorem userAreas_right_sample :
    ∃ t, (UserAreaCall.session .aioKomSession 5 sampleCalls
        ⟨some { ClientState.init with connected := true }, some 1, none, none⟩).Ends
      sampleAreaServer.Serves sampleTextStore (.ok sampleEvents) t := by
  have hachieves := @userAreas_right sampleAreaServer .aioKomSession sampleJson
    sampleTextStore 5 sampleAreas _ sampleCalls dumpsAscii_sampleJson
    (ServerData.mirrored_connected (some 1) none none) represents_sampleAreas room_sampleAreas
  obtain ⟨result, t, hends⟩ := hachieves.exists_ends
  obtain ⟨events, areas', rfl, hcalls, htrace, -⟩ := hachieves.of_ends hends
  rw [eq_sampleEvents hcalls htrace] at hends
  exact ⟨t, hends⟩

end Pylyskom
