import Pylyskom.Session.MarkServer

/-!
# Marking texts as read over the wire

A session that marks texts and asks for unread texts, through the blocking client and the two
streams of bytes, with a server whose program keeps the marks. What it returns is right by the
abstract view of the marks.
-/

namespace Pylyskom

section

variable {μ : Type}

variable {readMiscInfo : Parser μ} {f : CookedMiscInfo → μ} {program : ServerProgram μ}
  {server : TextServer} {marks : ReadMarks} {read : ReadTexts} {fuel : ℕ} {s : SessionState}
  {calls : List ReadCall}

/-- The session on the wire, which has been connected and logged in. -/
abbrev ReadCall.remoteSession (server : TextServer) (fuel : ℕ) (calls : List ReadCall)
    (s : SessionState) : Calling SessionState ClientCall ClientCall.Reply (List ReadEvent) μ :=
  .start (ReadCall.session .komSession server.persNo fuel calls s)

/-- **Marking texts as read over the wire.** In every run, whatever messages come in between and
in whichever order the client and the server take their steps, what the calls of the session
return and raise is right by the abstract view; and every run can be continued until the last
call has returned. -/
theorem Run.readMarks_remote (hread : ReadsMiscInfo readMiscInfo f)
    (hserver : server.ImplementedBy f program marks)
    (writable : ∀ earlier req refNo, ((program.answer earlier req).message refNo).lines.Nonempty)
    (hs : server.data.Mirrored s) (hmarks : server.Represents read marks)
    (hfuel : ∀ confNo ∈ server.memberOf, (server.locals confNo).highest + 1 < fuel)
    {c : Calling SessionState ClientCall ClientCall.Reply (List ReadEvent) μ}
    (h : Run (CallStep sessionCoding SessionState.handleAsyncMessage readMiscInfo program)
      (fun _ _ => True) (ReadCall.remoteSession server fuel calls s) c) :
    (∀ result t, c.method = .running (.done result t) → ∃ events read', result = .ok events ∧
      events.map CallEvent.call = calls ∧ ReadTrace server .komSession read events read') ∧
    ∃ d result t, Run (CallStep sessionCoding SessionState.handleAsyncMessage readMiscInfo program)
      (fun _ _ => True) c d ∧ d.method = .running (.done result t) := by
  have hsendable : Handling.Sendable server.Handles :=
    Handling.sendable_of_sees fun ⟨_, _, hhandled⟩ => hhandled.sees f
  obtain ⟨hends, hprogress⟩ := Handling.remote hread hserver hsendable writable
    (TextServer.triple_session hfuel) ⟨hs, hmarks⟩ h
  refine ⟨fun result t hdone => ?_, hprogress⟩
  obtain ⟨events, -, hresult, hcalls, read', htrace, -⟩ := hends result t hdone
  exact ⟨events, read', hresult, hcalls, htrace⟩

/-- The text 98 is marked as read, and then the texts 99 and 96 are unread. -/
theorem Run.readMarks_remote_sample :
    ∃ c t, Run (CallStep sessionCoding SessionState.handleAsyncMessage CookedMiscInfo.parse
        (sampleTextServer.program fun _ _ => false)) (fun _ _ => True)
      (ReadCall.remoteSession sampleTextServer 6 sampleReadCalls
        ⟨some { ClientState.init with connected := true }, some 1, none, none⟩) c ∧
      c.method = .running (.done (.ok sampleReadEvents) t) := by
  have hread : ReadsMiscInfo CookedMiscInfo.parse CookedMiscInfo.sent :=
    fun _ hinfo => hinfo.parse_reads
  have hinfos : ∀ no textStat, sampleTextServer.data.textStats no = some textStat →
      ∃ groups, CookedMiscInfo.ofGroups groups = textStat.miscInfo := by
    intro no textStat hstat
    obtain ⟨-, rfl⟩ := textStats_sampleTextData hstat
    exact ⟨[.recipient ⟨0, 7, some (100 - no), none, none, none⟩ (.head _)], rfl⟩
  have hsession := fun c => @Run.readMarks_remote _ _ _ _ _ _ (fun _ _ => false) 6 _
    sampleReadCalls hread
    (TextServer.implementedBy_program sampleTextServer _ fun _ _ => false)
    (TextServer.writable_program hinfos _) (ServerData.mirrored_connected (some 1) none none)
    (fun _ _ _ _ => rfl) (by decide) c
  obtain ⟨-, c, result, t, hrun, hdone⟩ := hsession _ .refl
  obtain ⟨events, read', rfl, hcalls, htrace⟩ := (hsession c hrun).1 result t hdone
  rw [eq_sampleReadEvents hcalls htrace] at hdone
  exact ⟨c, t, hrun, hdone⟩

end

end Pylyskom
