import Mathlib.Logic.Function.Basic
import Pylyskom.Session.References

/-!
# A session that reads its own writes

One session is the only client of a server. It reads conferences and text stats through its
caches, deletes conferences and marks texts. No message tells it that a conference has been
deleted.
-/

namespace Pylyskom

inductive OwnCall : Type
  | getConference (confNo : ℕ) (micro : Bool)
  | getTextStat (textNo : ℕ)
  | deleteConference (confNo : ℕ)
  | markText (textNo markType : ℕ)
  | unmarkText (textNo : ℕ)

namespace OwnCall

abbrev Result : OwnCall → Type
  | getConference .. => KomUConference ⊕ KomConference
  | getTextStat _ => KomTextStat
  | _ => Unit

def body (cls : SessionClass) : (call : OwnCall) → SessionOp call.Result
  | getConference confNo micro => cls.getConference confNo micro
  | getTextStat textNo => cls.getTextStat textNo
  | deleteConference confNo => cls.deleteConference confNo
  | markText textNo markType => cls.markText textNo markType
  | unmarkText textNo => cls.unmarkText textNo

end OwnCall

/-! ## The server -/

namespace ServerData

def deleteConf (server : ServerData) (confNo : ℕ) : ServerData where
  conferences := Function.update server.conferences confNo none
  textStats := server.textStats
  conferences_zero := by
    by_cases hzero : 0 = confNo
    · rw [hzero, Function.update_self]
    · rw [Function.update_of_ne hzero, server.conferences_zero]

/-- The number of marks on a text has changed. -/
def setMarks (server : ServerData) (textNo noOfMarks : ℕ) : ServerData where
  conferences := server.conferences
  textStats no :=
    if no = textNo then (server.textStats no).map fun textStat => { textStat with noOfMarks }
    else server.textStats no
  conferences_zero := server.conferences_zero

/-- A request to change something is refused with an error, or carried out with `change`. -/
def Changes (server : ServerData) (accepted : Bool) (change : ServerData → Prop)
    (reply : Except Exn Unit) (after : ServerData) : Prop :=
  if accepted then reply = .ok () ∧ change after
  else (∃ error, reply = .error (.serverError error)) ∧ after = server

/-- How the server handles a request; `accepted` tells whether it lets the session change
what it asks to change. -/
def Handles (server : ServerData) (accepted : Bool) :
    (req : ClientRequest) → Except Exn req.Reply → ServerData → Prop
  | .deleteConf confNo, reply, after =>
    server.Changes accepted (· = server.deleteConf confNo) reply after
  | .markText textNo _, reply, after =>
    server.Changes accepted (fun after => ∃ n, after = server.setMarks textNo n) reply after
  | .unmarkText textNo, reply, after =>
    server.Changes accepted (fun after => ∃ n, after = server.setMarks textNo n) reply after
  | req, reply, after => server.Replies req reply ∧ after = server

end ServerData

/-- A session, and its server. -/
abbrev OwnSystem := SessionState × ServerData

def OwnSystem.Serves (accepted : Bool) (call : ClientCall) (s : OwnSystem)
    (reply : Except Exn call.Reply) (t : OwnSystem) : Prop :=
  s.1.Forgets t.1 ∧ s.2.Handles accepted call.req reply t.2

/-! ## Runs -/

/-- A connected session that has nothing in its caches. -/
def SessionState.Uncached (s : SessionState) : Prop :=
  ∃ client, s.client = some client ∧ client.connected = true ∧
    (∀ no, client.person.uconferences.dict.get? no = none) ∧
    (∀ no, client.conferences.dict.get? no = none) ∧ ∀ no, client.textstats.dict.get? no = none

/-- What a call returns or raises when everything is asked of the server. -/
def OwnCall.Fresh (cls : SessionClass) (call : OwnCall) (server : ServerData)
    (result : Except Exn call.Result) : Prop :=
  ∃ s t, SessionState.Uncached s ∧
    (call.body cls s).Ends (OwnSystem.Serves true) server result (t, server)

namespace ServerData

variable {server after : ServerData} {accepted : Bool}

theorem exists_changes {change : ServerData → Prop} (hchange : ∃ after, change after) :
    ∃ reply after, server.Changes accepted change reply after := by
  obtain ⟨after, hafter⟩ := hchange
  unfold Changes
  cases accepted with
  | true => exact ⟨.ok (), after, rfl, hafter⟩
  | false => exact ⟨.error (.serverError ⟨.permissionDenied, 0⟩), server, ⟨_, rfl⟩, rfl⟩

theorem exists_handles (req : ClientRequest) :
    ∃ reply after, server.Handles accepted req reply after := by
  obtain ⟨reply, hreply⟩ := server.exists_reply req
  cases req with
  | deleteConf confNo => exact exists_changes ⟨_, rfl⟩
  | markText textNo markType => exact exists_changes ⟨_, 0, rfl⟩
  | unmarkText textNo => exact exists_changes ⟨_, 0, rfl⟩
  | _ => exact ⟨reply, server, hreply, rfl⟩

end ServerData

section

variable {cls : SessionClass} {server after : ServerData} {accepted : Bool} {s : SessionState}

theorem OwnSystem.exists_serves (accepted : Bool) (call : ClientCall) (s : OwnSystem) :
    ∃ reply t, OwnSystem.Serves accepted call s reply t := by
  obtain ⟨reply, after, hhandles⟩ := s.2.exists_handles call.req
  exact ⟨reply, (s.1, after), .refl s.1, hhandles⟩

theorem SessionState.Uncached.mirrored (hs : s.Uncached) : server.Mirrored s := by
  obtain ⟨client, hclient, hconnected, huconferences, hconferences, htextstats⟩ := hs
  refine ⟨client, hclient, hconnected, fun hget => ?_, fun hget => ?_, fun hget => ?_⟩
  · rw [huconferences] at hget
    cases hget
  · rw [hconferences] at hget
    cases hget
  · rw [htextstats] at hget
    cases hget

namespace ServerData

theorem Changes.cases {change : ServerData → Prop} {reply : Except Exn Unit}
    (h : server.Changes accepted change reply after) :
    (accepted = true ∧ (∃ value, reply = .ok value) ∧ change after) ∨
      (∃ error, reply = .error (.serverError error)) ∧ after = server := by
  unfold Changes at h
  cases accepted with
  | true => exact Or.inl ⟨rfl, ⟨(), h.1⟩, h.2⟩
  | false => exact Or.inr h

theorem getUconfStat_deleteConf {confNo no : ℕ} (hno : no ≠ confNo) :
    (server.deleteConf confNo).getUconfStat no = server.getUconfStat no := by
  unfold getUconfStat deleteConf
  simp only [Function.update_of_ne hno]

theorem getConfStat_deleteConf {confNo no : ℕ} (hno : no ≠ confNo) :
    (server.deleteConf confNo).getConfStat no = server.getConfStat no := by
  unfold getConfStat deleteConf
  simp only [Function.update_of_ne hno]

theorem getTextStat_setMarks {textNo noOfMarks no : ℕ} (hno : no ≠ textNo) :
    (server.setMarks textNo noOfMarks).getTextStat no = server.getTextStat no := by
  unfold getTextStat setMarks
  simp only [if_neg hno]

/-- What is cached is not what has been deleted. -/
theorem MirroredClient.deleteConf {client : ClientState} {confNo : ℕ}
    (hclient : server.MirroredClient client)
    (huconferences : client.person.uconferences.dict.get? confNo = none)
    (hconferences : client.conferences.dict.get? confNo = none) :
    (server.deleteConf confNo).MirroredClient client := by
  obtain ⟨hconnected, hagrees⟩ := hclient
  refine ⟨hconnected, fun {no uconf} hget => ?_, fun {no conf} hget => ?_, hagrees.textstats⟩
  · have hno : no ≠ confNo := by
      rintro rfl
      rw [huconferences] at hget
      cases hget
    rw [getUconfStat_deleteConf hno]
    exact hagrees.uconferences hget
  · have hno : no ≠ confNo := by
      rintro rfl
      rw [hconferences] at hget
      cases hget
    rw [getConfStat_deleteConf hno]
    exact hagrees.conferences hget

/-- The text stat that has changed is no longer cached. -/
theorem MirroredClient.setMarks {client : ClientState} {textNo noOfMarks : ℕ}
    (hclient : server.MirroredClient client) :
    (server.setMarks textNo noOfMarks).MirroredClient
      { client with textstats := client.textstats.invalidate textNo } := by
  obtain ⟨hconnected, hagrees⟩ := hclient
  refine ⟨hconnected, hagrees.uconferences, hagrees.conferences, fun {no textStat} hget => ?_⟩
  change (client.textstats.invalidate textNo).dict.get? no = some textStat at hget
  rw [Cache.get?_invalidate] at hget
  split_ifs at hget with hno
  rw [getTextStat_setMarks hno]
  exact hagrees.textstats hget

end ServerData

end

end Pylyskom
