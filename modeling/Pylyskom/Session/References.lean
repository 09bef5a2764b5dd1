import Pylyskom.Session.Uncached

/-!
# The references of a conference

A conference refers to others by number: its creator, its supervisor, the conference it
belongs to, those who may submit texts to it, and the creators of its aux items. Each may
be 0, or have been deleted since. Which of them `get_conference` cannot do without depends
on the class.
-/

namespace Pylyskom
namespace ServerData

variable (server : ServerData) (cls : SessionClass)

def Exists (confNo : ℕ) : Prop := (server.conferences confNo).isSome

/-- The references that must exist for a conference to be read, where 0 may be no reference. -/
def Resolves (conf : Conference) : SessionClass → Prop
  | .komSession =>
    (conf.superConf = 0 ∨ server.Exists conf.superConf) ∧
      (conf.permittedSubmitters = 0 ∨ server.Exists conf.permittedSubmitters) ∧
      server.Exists conf.supervisor
  | .aioKomSession => conf.permittedSubmitters = 0 ∨ server.Exists conf.permittedSubmitters

/-- `get_conference` with `micro=False` ends, and it can only end by returning a
`KomConference`. -/
def Reads (s : SessionState) (confNo : ℕ) : Prop :=
  (∃ result t, (cls.getConference confNo false s).Ends server.Serves () result t) ∧
    ∀ result t, (cls.getConference confNo false s).Ends server.Serves () result t →
      ∃ conf : KomConference, result = .ok (.inr conf)

variable {server cls}

/-! ## Results without an exception -/

theorem isOk_bind {α β : Type} {x : Except Exn α} {f : α → Except Exn β} :
    (x >>= f).isOk = true ↔ ∃ a, x = .ok a ∧ (f a).isOk = true := by
  cases x with
  | ok a =>
    constructor
    · exact fun h => ⟨a, rfl, h⟩
    · rintro ⟨a', ha, h⟩
      obtain rfl := Except.ok.inj ha
      exact h
  | error e =>
    constructor
    · exact fun h => nomatch h
    · rintro ⟨a, ha, -⟩
      exact nomatch ha

theorem isOk_map {α β : Type} {x : Except Exn α} {f : α → β} : (x.map f).isOk = x.isOk := by
  cases x <;> rfl

theorem isOk_iff {α : Type} {x : Except Exn α} : x.isOk = true ↔ ∃ a, x = .ok a := by
  cases x with
  | ok a => exact ⟨fun _ => ⟨a, rfl⟩, fun _ => rfl⟩
  | error e =>
    constructor
    · exact fun h => nomatch h
    · rintro ⟨a, ha⟩
      exact nomatch ha

theorem isOk_optional {α : Type} {read : ℕ → Except Exn α} {confNo : ℕ} :
    (optional read confNo).isOk = true ↔ confNo = 0 ∨ (read confNo).isOk = true := by
  unfold optional
  by_cases hzero : confNo = 0
  · simp [hzero, Except.isOk, Except.toBool]
  · rw [if_pos hzero, isOk_map]
    simp [hzero]

theorem isOk_uconference {confNo : ℕ} :
    (server.uconference confNo).isOk = true ↔ server.Exists confNo := by
  unfold uconference getUconfStat Exists
  rw [isOk_map]
  cases server.conferences confNo <;> simp [Except.isOk, Except.toBool]

/-- Only the number 0 has no name in `AioKomSession`. -/
theorem isOk_confName {confNo : ℕ} (hconfNo : confNo ≠ 0) :
    (server.confName confNo).isOk = true := by
  unfold confName
  cases server.getUconfStat confNo with
  | ok uconf => rfl
  | error e =>
    simp only [if_neg hconfNo]
    rfl

/-- One exception is enough, whichever reference it is for. -/
theorem isOk_conference {confNo : ℕ} {uconf : UConference} {conf : Conference}
    (hconf : server.conferences confNo = some (uconf, conf)) :
    (server.conference cls confNo).isOk = true ↔
      (optional (server.namedConference cls) conf.superConf).isOk = true ∧
        (optional server.uconference conf.permittedSubmitters).isOk = true ∧
          (server.supervisor cls conf.supervisor).isOk = true := by
  have hstat : server.getConfStat confNo = .ok conf := by
    unfold getConfStat
    rw [hconf]
  unfold conference
  rw [isOk_bind]
  simp only [hstat, Except.ok.injEq, exists_eq_left', isOk_bind]
  constructor
  · rintro ⟨superConf, hsuper, submitters, hsubmitters, supervisor, hsupervisor, -⟩
    exact ⟨isOk_iff.mpr ⟨_, hsuper⟩, isOk_iff.mpr ⟨_, hsubmitters⟩, isOk_iff.mpr ⟨_, hsupervisor⟩⟩
  · rintro ⟨hsuper, hsubmitters, hsupervisor⟩
    obtain ⟨superConf, hsuper⟩ := isOk_iff.mp hsuper
    obtain ⟨submitters, hsubmitters⟩ := isOk_iff.mp hsubmitters
    obtain ⟨supervisor, hsupervisor⟩ := isOk_iff.mp hsupervisor
    exact ⟨superConf, hsuper, submitters, hsubmitters, supervisor, hsupervisor, rfl⟩

theorem isOk_conference_iff_resolves {confNo : ℕ} {uconf : UConference} {conf : Conference}
    (hconf : server.conferences confNo = some (uconf, conf)) :
    (server.conference cls confNo).isOk = true ↔ server.Resolves conf cls := by
  rw [isOk_conference hconf, isOk_optional, isOk_optional, isOk_uconference]
  cases cls with
  | komSession =>
    unfold supervisor namedConference Resolves
    rw [isOk_map, isOk_map, isOk_uconference, isOk_map, isOk_uconference]
  | aioKomSession =>
    have hname : ∀ no, no = 0 ∨ (server.namedConference .aioKomSession no).isOk = true := by
      intro no
      by_cases hno : no = 0
      · exact Or.inl hno
      · right
        unfold namedConference
        rw [isOk_map]
        exact isOk_confName hno
    unfold supervisor Resolves
    rw [isOk_optional]
    exact ⟨fun h => h.2.1, fun h => ⟨hname _, h, hname _⟩⟩

/-! ## Runs -/

theorem exists_reply (req : ClientRequest) : ∃ reply, server.Replies req reply := by
  have hany : ∃ reply : Except Exn req.Reply, True := ⟨.error (.builtinError .valueError), trivial⟩
  cases req with
  | getConfStat no => exact ⟨_, rfl⟩
  | getTextStat no => exact ⟨_, rfl⟩
  | person req =>
    cases req with
    | getUconfStat no => exact ⟨_, rfl⟩
    | _ => exact hany
  | _ => exact hany

/-- Each request is served. -/
theorem exists_serves (call : ClientCall) (s : SessionState × Unit) :
    ∃ reply t, server.Serves call s reply t := by
  obtain ⟨reply, hreply⟩ := server.exists_reply call.req
  exact ⟨reply, s, .refl s.1, hreply⟩

/-- The result that the server's data gives is that of every run. -/
theorem result_of_ends {α : Type} {op : SessionOp α} {x : Except Exn α} {s : SessionState}
    {result : Except Exn α} {t : SessionState × Unit}
    (hop : Computes server.sessionService op x) (hs : server.Mirrored s)
    (hends : (op s).Ends server.Serves () result t) : result = x := by
  have hserves : ∀ (call : ClientCall) s reply (t : SessionState × Unit), server.Mirrored s →
      call.req.Reads → server.Serves call (s, ()) reply t →
        server.Mirrored t.1 ∧ server.Replies call.req reply ∧ t.2 = () :=
    fun call s reply t hs _ hserved => ⟨hs.forgets hserved.1, hserved.2, rfl⟩
  exact ((hop s hs).ends hserves hends).2.1

/-- An existing conference can be read if and only if the references that the class follows
exist. -/
theorem reads_iff_resolves {s : SessionState} {confNo : ℕ} {uconf : UConference}
    {conf : Conference} (hs : server.Mirrored s)
    (hconf : server.conferences confNo = some (uconf, conf)) :
    server.Reads cls s confNo ↔ server.Resolves conf cls := by
  rw [← isOk_conference_iff_resolves hconf, isOk_iff]
  have hresult : ∀ result t, (cls.getConference confNo false s).Ends server.Serves () result t →
      result = (server.conference cls confNo).map .inr :=
    fun result t hends => result_of_ends (computes_getConference confNo false) hs hends
  have hends := Suspended.exists_ends server.exists_serves (cls.getConference confNo false s) ()
  constructor
  · rintro ⟨⟨result, t, hends⟩, hreads⟩
    obtain ⟨read, hread⟩ := hreads result t hends
    rw [hresult result t hends] at hread
    cases hx : server.conference cls confNo with
    | ok read => exact ⟨read, rfl⟩
    | error e =>
      rw [hx] at hread
      exact nomatch hread
  · rintro ⟨read, hread⟩
    refine ⟨hends, fun result t hends => ⟨read, ?_⟩⟩
    rw [hresult result t hends, hread]
    rfl

/-- A conference without a supervisor, to which anyone may submit texts. -/
def sampleConference : Conference where
  name := ascii "Inbox"
  type := ⟨List.replicate 8 false, rfl⟩
  creationTime := ⟨0, 0, 0, 1, 4, 124, 6, 152, 0⟩
  lastWritten := ⟨0, 0, 0, 1, 4, 124, 6, 152, 0⟩
  creator := 6
  presentation := 0
  supervisor := 0
  permittedSubmitters := 0
  superConf := 0
  msgOfDay := 0
  nice := 77
  keepCommented := 77
  noOfMembers := 0
  firstLocalNo := 1
  noOfTexts := 0
  expire := 0
  auxItems := []

def sampleUConference : UConference := ⟨ascii "Inbox", ⟨List.replicate 8 false, rfl⟩, 0, 77⟩

/-- The conference has the number 1, and its creator has been deleted. -/
def sampleServer : ServerData where
  conferences no := if no = 1 then some (sampleUConference, sampleConference) else none
  textStats _ := none
  conferences_zero := rfl

/-- `AioKomSession` can read it. -/
theorem reads_sampleConference :
    sampleServer.Reads .aioKomSession
      ⟨some { ClientState.init with connected := true }, some 1, none, none⟩ 1 :=
  (reads_iff_resolves (mirrored_connected (some 1) none none) rfl).mpr (Or.inl rfl)

/-- `KomSession` asks for the supervisor with the number 0, which is refused. -/
theorem not_reads_withoutSupervisor :
    ¬ ∀ (server : ServerData) (cls : SessionClass) (s : SessionState) (confNo : ℕ)
      (uconf : UConference) (conf : Conference), server.Mirrored s →
        server.conferences confNo = some (uconf, conf) → server.Reads cls s confNo := by
  intro h
  obtain ⟨⟨result, t, hends⟩, hreads⟩ := h sampleServer .komSession _ 1 _ _
    (mirrored_connected (some 1) none none) rfl
  obtain ⟨read, rfl⟩ := hreads result t hends
  have hresult := result_of_ends (computes_getConference 1 false)
    (mirrored_connected (some 1) none none) hends
  exact nomatch hresult

end ServerData
end Pylyskom
