import Pylyskom.Coroutine.Triples
import Pylyskom.Session.References

/-!
# Servers of a session

What a session achieves with a server whose state its requests change: what it only reads it
gets as without caches, and the decorators pass on what does not come from the socket.
-/

namespace Pylyskom

/-- The decorator passes on what does not come from the socket. -/
theorem SessionClass.triple_checkConnection {ω α : Type} {cls : SessionClass}
    {serves : (call : ClientCall) → SessionState × ω → Except Exn call.Reply →
      SessionState × ω → Prop}
    {P : SessionState × ω → Prop} {op : SessionOp α}
    {Q : Except Exn α → SessionState × ω → Prop}
    (hconnected : ∀ s, P s → cls.isConnected s.1 = true) (hop : Triple serves P op Q)
    (hQ : ∀ e s, Q (.error e) s → ∀ errno, e ≠ .socketError errno) :
    Triple serves P (cls.checkConnection op) Q := by
  intro s w hs
  rw [SessionClass.checkConnection_of_connected (hconnected (s, w) hs)]
  refine (hop s w hs).handle (fun _ _ h => h) fun e t he => ?_
  cases e with
  | socketError errno => exact absurd rfl (hQ _ t he errno)
  | _ => exact he

/-- How a server with a state of its own may handle a request. -/
abbrev Handling (ω : Type) : Type := ω → (req : ClientRequest) → Except Exn req.Reply → ω → Prop

namespace Handling

variable {ω α : Type} (handles : Handling ω) {data : ServerData} {P : ω → Prop}

/-- While a session waits, messages may remove entries from its caches. -/
def Serves (call : ClientCall) (s : SessionState × ω)
    (reply : Except Exn call.Reply) (t : SessionState × ω) : Prop :=
  s.1.Forgets t.1 ∧ handles s.2 call.req reply t.2

/-- What only reads the data of the server leaves its state as it is. -/
theorem triple_data {op : SessionOp α} {x : Except Exn α}
    (hop : Computes data.sessionService op x)
    (hreads : ∀ {w req}, P w → ClientRequest.Reads req → ∀ {reply after},
      handles w req reply after ↔ after = w ∧ data.Replies req reply) :
    Triple handles.Serves (fun s => data.Mirrored s.1 ∧ P s.2) op
      fun result s => result = x ∧ data.Mirrored s.1 ∧ P s.2 := by
  apply hop.triple
  intro call s w hs hw hcall
  constructor
  · obtain ⟨reply, hreply⟩ := data.exists_reply call.req
    exact ⟨reply, (s, w), .refl s, (hreads hw hcall).mpr ⟨rfl, hreply⟩⟩
  · rintro reply t ⟨hforgets, hhandles⟩
    obtain ⟨hstate, hreply⟩ := (hreads hw hcall).mp hhandles
    exact ⟨hs.forgets hforgets, hreply, hstate⟩

/-- An operation that is a request, with what is known of its reply and of the state. -/
theorem triple_request (call : ClientCall) (op : SessionOp call.Reply)
    {Q : Except Exn call.Reply → ω → Prop}
    (hop : ∀ s client, s.client = some client → op s = Coroutine.request call s)
    (hserves : ∀ w, P w → (∃ reply after, handles w call.req reply after) ∧
      ∀ reply after, handles w call.req reply after → Q reply after) :
    Triple handles.Serves (fun s => data.Mirrored s.1 ∧ P s.2) op
      fun result s => Q result s.2 ∧ data.Mirrored s.1 := by
  apply Triple.congr (Coroutine.request call)
  · apply Triple.request
    rintro ⟨s, w⟩ ⟨hs, hw⟩
    obtain ⟨⟨reply, after, hhandles⟩, hall⟩ := hserves w hw
    constructor
    · exact ⟨reply, (s, after), .refl s, hhandles⟩
    · rintro reply t ⟨hforgets, hhandles⟩
      exact ⟨hall reply t.2 hhandles, hs.forgets hforgets⟩
  · rintro s ⟨⟨client, hclient, -⟩, -⟩
    exact hop s.1 client hclient

end Handling
end Pylyskom
