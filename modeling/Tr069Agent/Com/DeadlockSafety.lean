import Tr069Agent.Com.SessionLocks
import Tr069Agent.Library.Transition

/-! # When the session mutexes can block each other

The scheduler takes the mutex of the ACS session with its own two mutexes held; the other threads
take one of these two with the mutex of the ACS session held. Every other nesting follows one order.
-/

namespace Tr069Agent.Com.SessionLocks

open Engine Library Library.Mutex Library.Transition Command Call

set_option autoImplicit false

def mayLock : Thread → List SessionLocks.Mutex → SessionLocks.Mutex → Prop
  | .scheduler, [], m => m = .scheduler ∨ m = .httpSendThreadControl
  | .scheduler, [.scheduler], m => m = .status ∨ m = .httpSendThreadControl
  | .scheduler, [.status, .scheduler], m => m = .httpSendThreadControl ∨ m = .acsSession
  | .scheduler, _, _ => False
  | _, [], _ => True
  | _, [.acsSession], m => m ≠ .acsSession
  | _, [.scheduler], m => m = .httpSendThreadControl
  | _, _, _ => False

/-- Outside the scheduler, with the mutex of the ACS session or none. -/
def inCom (t : Thread) (held : List SessionLocks.Mutex) : Prop :=
  t ≠ .scheduler ∧ (held = [] ∨ held = [.acsSession])

def mayCall (t : Thread) (held : List SessionLocks.Mutex) : Call → Prop
  | .run | .unlockParameters _ => t = .scheduler ∧ held = []
  | .runLoop | .sendMessage _ | .sessionLoop => t = .scheduler ∧ held = [.scheduler]
  | .inform _ | .informSent | .sessionStep => t = .scheduler ∧ held = [.status, .scheduler]
  | .sendHttpMessage => t = .scheduler ∧ held = [.status, .scheduler] ∨ inCom t held
  | .httpThread | .perform | .header _ | .data _ | .forceACSSessionToClose | .supervise =>
    t ≠ .scheduler ∧ held = []
  | .sendLoop => t ≠ .scheduler ∧ held = [.httpSendThreadControl]
  | .noContent _ | .noContentReady _ | .transferResponse _ _ | .checkSession =>
    t ≠ .scheduler ∧ held = [.acsSession]
  | .askedReady _ | .isSessionOpened | .isReadyToClose | .readyIfOpened | .closeACSSession _
  | .sessionClosed _ => inCom t held
  | .openSession | .setStatus _ | .nextMessage | .closingIfSent | .handOver | .openedBody | .closeHttp
  | .leaveSession | .endSession => True

/-- Only the scheduler waits for a condition. -/
def mayWait (t : Thread) (held : List SessionLocks.Mutex) (m : SessionLocks.Mutex) : Prop :=
  t = .scheduler ∧ held = [.scheduler] ∧ m = .scheduler

def discipline : Discipline Thread SessionLocks.Mutex Call := ⟨mayLock, mayWait, mayCall⟩

theorem follows_noticeCode {t : Thread} (n : Notice) {rest : Code} (h : discipline.Follows t [] rest) :
    discipline.Follows t [] (noticeCode n ++ rest) := by
  cases n <;> cases t <;> simpa [noticeCode, Discipline.Follows, discipline, mayLock] using h

theorem follows_notices {t : Thread} (notices : List Notice) {rest : Code}
    (h : discipline.Follows t [] rest) :
    discipline.Follows t [] (notices.flatMap noticeCode ++ rest) := by
  induction notices with
  | nil => exact h
  | cons n notices ih =>
    rw [List.flatMap_cons, List.append_assoc]
    exact follows_noticeCode n ih

theorem follows_rpc {t : Thread} (hCom : t ≠ .scheduler) (steps : List RpcStep) {rest : Code}
    (h : discipline.Follows t [] rest) :
    discipline.Follows t [] (steps.flatMap rpcCode ++ rest) := by
  induction steps with
  | nil => exact h
  | cons s steps ih =>
    rw [List.flatMap_cons, List.append_assoc]
    cases s with
    | isSessionOpened => exact ⟨⟨hCom, .inl rfl⟩, ih⟩
    | notice n => exact follows_noticeCode n ih
    | answer => exact ⟨.inr ⟨hCom, .inl rfl⟩, ih⟩

theorem follows_waits (waits : Nat) {rest : Code}
    (h : discipline.Follows .scheduler [.scheduler] rest) :
    discipline.Follows .scheduler [.scheduler] (List.replicate waits (wait .scheduler) ++ rest) := by
  induction waits with
  | zero => exact h
  | succ n ih => exact ⟨⟨rfl, rfl, rfl⟩, .inl rfl, ih⟩

theorem follows_runPass (pass : RunChoice) {rest : Code}
    (h : discipline.Follows .scheduler [.scheduler] rest) :
    discipline.Follows .scheduler [.scheduler] (runPass pass ++ rest) := by
  cases pass with
  | stopped notices => exact ⟨⟨rfl, rfl⟩, .inl rfl, h⟩
  | session informed => exact ⟨⟨rfl, rfl⟩, ⟨rfl, rfl⟩, ⟨rfl, rfl⟩, h⟩
  | pause notices waits lastWait again =>
    simp only [runPass, List.cons_append, List.nil_append, List.append_assoc]
    refine ⟨⟨rfl, rfl⟩, .inl rfl, follows_waits waits ?_⟩
    cases lastWait with
    | false => exact h
    | true =>
      refine ⟨⟨rfl, rfl, rfl⟩, .inl rfl, ?_⟩
      cases again with
      | false => exact h
      | true => exact ⟨.inl rfl, ⟨rfl, rfl⟩, h⟩

theorem follows_updateAcsSessionTimer {t : Thread} (hCom : t ≠ .scheduler) {rest : Code}
    (h : discipline.Follows t [] rest) : discipline.Follows t [] (updateAcsSessionTimer ++ rest) := by
  cases t with
  | scheduler => exact absurd rfl hCom
  | httpSend => exact ⟨trivial, h⟩
  | supervisor => exact ⟨trivial, h⟩

theorem follows_dataBody {t : Thread} (hCom : t ≠ .scheduler) (a : Answer) {rest : Code}
    (h : discipline.Follows t [] rest) : discipline.Follows t [] (dataBody a ++ rest) := by
  have hNone : inCom t [] := ⟨hCom, .inl rfl⟩
  cases a with
  | partialMessage => exact h
  | badBody => exact ⟨.inr hNone, h⟩
  | fault retry =>
    rw [dataBody, List.append_assoc]
    apply follows_updateAcsSessionTimer hCom
    cases retry with
    | false => exact ⟨⟨hCom, rfl⟩, h⟩
    | true => exact ⟨.inr hNone, h⟩
  | request steps =>
    rw [dataBody, List.append_assoc]
    exact follows_updateAcsSessionTimer hCom (follows_rpc hCom steps h)
  | informResponse known holdRequests ready =>
    rw [dataBody, List.append_assoc]
    apply follows_updateAcsSessionTimer hCom
    cases known with
    | false => exact h
    | true =>
      cases holdRequests with
      | false => exact ⟨hNone, hNone, h⟩
      | true => exact ⟨.inr hNone, h⟩
  | transferResponse known holdRequests ready =>
    rw [dataBody, List.append_assoc, List.append_assoc]
    apply follows_updateAcsSessionTimer hCom
    cases known with
    | false => exact h
    | true =>
      refine ⟨?_, ⟨hCom, rfl⟩, h⟩
      cases t with
      | scheduler => exact absurd rfl hCom
      | httpSend => trivial
      | supervisor => trivial
  | unknown =>
    rw [dataBody, List.append_assoc]
    exact follows_updateAcsSessionTimer hCom ⟨⟨hCom, rfl⟩, h⟩

theorem inCom.mayLock {t : Thread} {held : List SessionLocks.Mutex} (h : inCom t held)
    {m : SessionLocks.Mutex} (hNot : m ≠ .acsSession) : mayLock t held m := by
  obtain ⟨hCom, rfl | rfl⟩ := h
  · cases t with
    | scheduler => exact absurd rfl hCom
    | httpSend => trivial
    | supervisor => trivial
  · cases t with
    | scheduler => exact absurd rfl hCom
    | httpSend => exact hNot
    | supervisor => exact hNot

theorem mayLock_acsSession {t : Thread} (hCom : t ≠ .scheduler) : mayLock t [] .acsSession := by
  cases t with
  | scheduler => exact absurd rfl hCom
  | httpSend => trivial
  | supervisor => trivial

theorem follows_leaf {t : Thread} {held : List SessionLocks.Mutex} {m : SessionLocks.Mutex}
    {rest : Code} (hLock : mayLock t held m) (h : discipline.Follows t held rest) :
    discipline.Follows t held (lock m :: unlock m :: rest) := by
  refine ⟨hLock, ?_⟩
  rw [Discipline.Follows, List.erase_cons_head]
  exact h

/-- A section under one mutex, with nothing but a change of the data in it. -/
theorem follows_section {t : Thread} {held : List SessionLocks.Mutex} {m : SessionLocks.Mutex}
    {f : Call} {rest : Code} (hLock : mayLock t held m) (hCall : mayCall t (m :: held) f)
    (h : discipline.Follows t held rest) :
    discipline.Follows t held (lock m :: call f :: unlock m :: rest) := by
  refine ⟨hLock, hCall, ?_⟩
  rw [Discipline.Follows, List.erase_cons_head]
  exact h

theorem follows_closeACSSession {t : Thread} {held : List SessionLocks.Mutex} (hCom : inCom t held)
    (success : Bool) {rest : Code} (h : discipline.Follows t held rest) :
    discipline.Follows t held (lock .httpSendThreadControl :: call closeHttp ::
      unlock .httpSendThreadControl :: call leaveSession :: call (sessionClosed success) ::
      call endSession :: rest) :=
  follows_section (hCom.mayLock (by decide)) trivial ⟨trivial, hCom, trivial, h⟩

theorem follows_sessionClosed {t : Thread} {held : List SessionLocks.Mutex} (hCom : inCom t held)
    (success : Bool) {rest : Code} (h : discipline.Follows t held rest) :
    discipline.Follows t held ((if success then [call isSessionOpened] else []) ++
      lock .scheduler :: call (setStatus (if success then .completed else .cancelled)) ::
        unlock .scheduler :: rest) := by
  have hClosed := follows_section (f := setStatus (if success then .completed else .cancelled))
    (hCom.mayLock (m := .scheduler) (by decide)) trivial h
  cases success with
  | false => exact hClosed
  | true => exact ⟨hCom, hClosed⟩

theorem sound_discipline : discipline.Sound body := by
  intro t choice data f data' code held hCall hBody rest h
  cases f with
  | run =>
    obtain ⟨rfl, rfl⟩ := hCall
    cases hBody
    exact ⟨.inl rfl, ⟨rfl, rfl⟩, ⟨rfl, rfl⟩, h⟩
  | runLoop =>
    obtain ⟨rfl, rfl⟩ := hCall
    cases choice <;> cases hBody
    exact follows_runPass _ h
  | unlockParameters notices =>
    obtain ⟨rfl, rfl⟩ := hCall
    cases hBody
    exact follows_notices notices h
  | sendMessage informed =>
    obtain ⟨rfl, rfl⟩ := hCall
    cases hBody
    cases informed with
    | none => exact h
    | some case => exact ⟨.inl rfl, ⟨rfl, rfl⟩, h⟩
  | inform case =>
    obtain ⟨rfl, rfl⟩ := hCall
    cases case with
    | unchanged =>
      cases hBody
      exact ⟨trivial, h⟩
    | callback ready =>
      cases hBody
      cases ready with
      | false => exact ⟨trivial, h⟩
      | true => exact ⟨.inl ⟨rfl, rfl⟩, ⟨rfl, rfl⟩, h⟩
  | informSent =>
    obtain ⟨rfl, rfl⟩ := hCall
    cases hBody
    split
    · exact ⟨.inr rfl, trivial, trivial, h⟩
    · exact ⟨trivial, h⟩
  | openSession => cases hBody; exact h
  | setStatus status => cases hBody; exact h
  | sessionLoop =>
    obtain ⟨rfl, rfl⟩ := hCall
    cases choice <;> cases hBody
    split
    · exact ⟨⟨rfl, rfl, rfl⟩, .inl rfl, .inl rfl, ⟨rfl, rfl⟩, ⟨rfl, rfl⟩, h⟩
    · exact h
  | sessionStep =>
    obtain ⟨rfl, rfl⟩ := hCall
    have hSend (sends : Prop) [Decidable sends] : discipline.Follows .scheduler
        [.status, .scheduler] ((if sends then [call sendHttpMessage] else []) ++ rest) := by
      split
      · exact ⟨.inl ⟨rfl, rfl⟩, h⟩
      · exact h
    cases choice <;> cases hBody
    apply hSend
  | httpThread =>
    obtain ⟨hCom, rfl⟩ := hCall
    simp only [body] at hBody
    split at hBody <;> cases hBody
    exact ⟨inCom.mayLock ⟨hCom, .inl rfl⟩ (by decide), ⟨hCom, rfl⟩, ⟨hCom, rfl⟩, h⟩
  | sendLoop =>
    obtain ⟨hCom, rfl⟩ := hCall
    simp only [body] at hBody
    split at hBody <;> cases hBody
    · exact ⟨⟨hCom, rfl⟩, inCom.mayLock ⟨hCom, .inl rfl⟩ (by decide), trivial, ⟨hCom, rfl⟩, h⟩
    · exact h
  | nextMessage => cases hBody; exact h
  | perform =>
    obtain ⟨hCom, rfl⟩ := hCall
    cases choice with
    | performed => cases hBody; exact h
    | received hd => cases hBody; exact ⟨⟨hCom, rfl⟩, ⟨hCom, rfl⟩, h⟩
    | receivedData a => cases hBody; exact ⟨⟨hCom, rfl⟩, ⟨hCom, rfl⟩, h⟩
    | none => cases hBody
    | run pass => cases hBody
    | alive b => cases hBody
    | sessionStep timedOut sends => cases hBody
    | initOK ok => cases hBody
    | timedOut b => cases hBody
  | header hd =>
    obtain ⟨hCom, rfl⟩ := hCall
    cases hd with
    | ok =>
      cases hBody
      split
      · exact ⟨⟨hCom, .inl rfl⟩, h⟩
      · exact h
    | noContent ready =>
      simp only [body, headerBody] at hBody
      split at hBody <;> cases hBody
      · exact h
      · exact ⟨mayLock_acsSession hCom, ⟨hCom, rfl⟩, h⟩
    | contentLengthZero =>
      cases hBody
      split
      · exact ⟨.inr ⟨hCom, .inl rfl⟩, trivial, h⟩
      · exact h
    | other => cases hBody; exact h
  | noContent ready =>
    obtain ⟨hCom, rfl⟩ := hCall
    cases hBody
    rw [noContentBody]
    split
    · split
      · exact ⟨⟨hCom, .inr rfl⟩, h⟩
      · exact ⟨⟨hCom, .inr rfl⟩, ⟨hCom, rfl⟩, h⟩
    · exact h
  | noContentReady ready =>
    obtain ⟨hCom, rfl⟩ := hCall
    cases hBody
    split
    · exact ⟨.inr ⟨hCom, .inr rfl⟩, trivial, h⟩
    · exact h
  | closingIfSent => cases hBody; exact h
  | data a =>
    obtain ⟨hCom, rfl⟩ := hCall
    cases hBody
    exact follows_dataBody hCom a h
  | transferResponse holdRequests ready =>
    obtain ⟨hCom, rfl⟩ := hCall
    cases hBody
    rw [transferResponseBody]
    split
    · split
      · exact ⟨.inr ⟨hCom, .inr rfl⟩, h⟩
      · exact ⟨⟨hCom, .inr rfl⟩, ⟨hCom, .inr rfl⟩, h⟩
    · exact h
  | askedReady ready =>
    cases hBody
    split
    · exact ⟨.inr hCall, h⟩
    · exact h
  | sendHttpMessage =>
    cases hBody
    refine follows_section ?_ trivial h
    obtain ⟨rfl, rfl⟩ | hCom := hCall
    · exact .inl rfl
    · exact hCom.mayLock (by decide)
  | handOver => cases choice <;> cases hBody; exact h
  | isSessionOpened =>
    cases hBody
    exact follows_section (hCall.mayLock (by decide)) trivial h
  | openedBody => cases hBody; exact h
  | isReadyToClose =>
    cases hBody
    exact ⟨hCall, hCall, h⟩
  | readyIfOpened =>
    cases hBody
    split
    · exact follows_leaf (hCall.mayLock (by decide)) h
    · exact h
  | forceACSSessionToClose =>
    obtain ⟨hCom, rfl⟩ := hCall
    cases hBody
    exact ⟨mayLock_acsSession hCom, ⟨hCom, .inr rfl⟩, h⟩
  | closeACSSession success =>
    cases hBody
    exact follows_closeACSSession hCall success h
  | closeHttp => cases hBody; exact h
  | leaveSession => cases hBody; exact h
  | sessionClosed success =>
    cases hBody
    rw [List.append_assoc]
    exact follows_sessionClosed hCall success h
  | endSession => cases hBody; exact h
  | supervise =>
    obtain ⟨hCom, rfl⟩ := hCall
    cases hBody
    exact ⟨mayLock_acsSession hCom, ⟨hCom, rfl⟩, ⟨hCom, rfl⟩, h⟩
  | checkSession =>
    obtain ⟨hCom, rfl⟩ := hCall
    cases choice <;> cases hBody
    split
    · exact ⟨⟨hCom, .inr rfl⟩, h⟩
    · exact h

theorem inv_init : discipline.Inv init := by
  refine ⟨fun _ => [], fun m t hOwned => by simp [init] at hOwned, fun t => ?_⟩
  cases t with
  | scheduler => exact ⟨⟨rfl, rfl⟩, trivial⟩
  | httpSend => exact ⟨⟨by decide, rfl⟩, trivial⟩
  | supervisor => exact ⟨⟨by decide, rfl⟩, trivial⟩

/-- The code enters the engine before it gives the mutex of the ACS session back. -/
def entersEngine : Code → Bool
  | [] => false
  | .lock m :: rest => m = .scheduler || m = .status || entersEngine rest
  | .unlock m :: rest => m ≠ .acsSession && entersEngine rest
  | .wait _ :: rest => entersEngine rest
  | .call f :: rest =>
    match f with
    | .isSessionOpened | .isReadyToClose | .closeACSSession _ | .sessionClosed _ => true
    | _ => entersEngine rest

/-- The scheduler has handed an Inform over, and takes the mutex of the ACS session to open it. -/
def opensSession (s : Agent) : Prop := lock .acsSession ∈ s.code .scheduler

/-- Whether a call made with the mutex of the ACS session held asks the engine whether the session
may be closed, or closes it. -/
def asksOrCloses (choice : Choice) (data : Data) : Call → Bool
  | .noContent _ => data.bSession
  | .transferResponse holdRequests _ => data.bSession && !holdRequests
  | .readyIfOpened => data.sendMessageStatus = .sessionOpened
  | .checkSession =>
    data.bSession &&
      match choice with
      | .timedOut timedOut => timedOut
      | _ => false
  | _ => false

/-- The next step of a thread enters the engine with the mutex of the ACS session held. -/
def entersNow (choice : Choice) (data : Data) : Code → Bool
  | .lock .acsSession :: rest => entersEngine rest
  | .call f :: _ => asksOrCloses choice data f
  | _ => false

/-- The opening of a session by the scheduler never meets another thread that, with the mutex of
the ACS session held, asks the engine about the session or closes it. -/
def Guard (s : Agent) (l : Thread × Choice) : Prop :=
  if l.1 = .scheduler then
    (s.code .scheduler).head? = some (call informSent) → s.data.messageSent .scheduler = true →
      ∀ u ∈ s.owner .acsSession, ¬ entersEngine (s.code u)
  else entersNow l.2 s.data (s.code l.1) → ¬ opensSession s

instance (s : Agent) : Decidable (opensSession s) :=
  inferInstanceAs (Decidable (lock .acsSession ∈ s.code .scheduler))

instance (s : Agent) (l : Thread × Choice) : Decidable (Guard s l) :=
  inferInstanceAs (Decidable (if l.1 = .scheduler then _ else _))

def NoClash (s : Agent) : Prop :=
  opensSession s → ∀ u ∈ s.owner .acsSession, u ≠ .scheduler → ¬ entersEngine (s.code u)

theorem not_mem_noticeCode (n : Notice) : lock .acsSession ∉ noticeCode n := by
  cases n <;> decide

theorem eq_informSent_of_mem {choice : Choice} {data data' : Data} {f : Call} {code : Code}
    {held : List SessionLocks.Mutex} (hCall : mayCall .scheduler held f)
    (hBody : body .scheduler choice data f = some (data', code)) (hMem : lock .acsSession ∈ code) :
    f = informSent ∧ data.messageSent .scheduler = true := by
  have hCom {held} : ¬ inCom .scheduler held := fun h => h.1 rfl
  cases f with
  | informSent =>
    cases hBody
    split at hMem
    · exact ⟨rfl, ‹_›⟩
    · simp at hMem
  | runLoop =>
    cases choice <;> cases hBody
    rename_i pass
    cases pass with
    | stopped notices => simp [runPass] at hMem
    | session informed => simp [runPass] at hMem
    | pause notices waits lastWait again =>
      cases lastWait <;> cases again <;> simp [runPass] at hMem
  | unlockParameters notices =>
    cases hBody
    obtain ⟨n, -, hNotice⟩ := List.mem_flatMap.mp hMem
    exact absurd hNotice (not_mem_noticeCode n)
  | sendMessage informed =>
    cases hBody
    cases informed <;> simp at hMem
  | inform case =>
    cases case with
    | unchanged => cases hBody; simp at hMem
    | callback ready => cases hBody; cases ready <;> simp at hMem
  | sessionLoop =>
    cases choice <;> cases hBody
    split at hMem <;> simp at hMem
  | sessionStep =>
    cases choice <;> simp only [body, sessionStepBody, Option.some.injEq, Prod.mk.injEq, reduceCtorEq] at hBody
    obtain ⟨-, rfl⟩ := hBody
    split at hMem <;> simp at hMem
  | run => cases hBody; simp at hMem
  | sendHttpMessage => cases hBody; simp at hMem
  | openSession => cases hBody; simp at hMem
  | setStatus status => cases hBody; simp at hMem
  | nextMessage => cases hBody; simp at hMem
  | closingIfSent => cases hBody; simp at hMem
  | handOver => cases choice <;> cases hBody; simp at hMem
  | openedBody => cases hBody; simp at hMem
  | closeHttp => cases hBody; simp at hMem
  | leaveSession => cases hBody; simp at hMem
  | endSession => cases hBody; simp at hMem
  | httpThread => exact absurd rfl hCall.1
  | perform => exact absurd rfl hCall.1
  | header hd => exact absurd rfl hCall.1
  | data a => exact absurd rfl hCall.1
  | forceACSSessionToClose => exact absurd rfl hCall.1
  | supervise => exact absurd rfl hCall.1
  | sendLoop => exact absurd rfl hCall.1
  | noContent ready => exact absurd rfl hCall.1
  | noContentReady ready => exact absurd rfl hCall.1
  | transferResponse holdRequests ready => exact absurd rfl hCall.1
  | checkSession => exact absurd rfl hCall.1
  | askedReady ready => exact absurd hCall hCom
  | isSessionOpened => exact absurd hCall hCom
  | isReadyToClose => exact absurd hCall hCom
  | readyIfOpened => exact absurd hCall hCom
  | closeACSSession success => exact absurd hCall hCom
  | sessionClosed success => exact absurd hCall hCom

/-- With the mutex of the ACS session held, a call that neither asks nor closes does not make the
code enter the engine. -/
theorem entersEngine_body {t : Thread} {choice : Choice} {data data' : Data} {f : Call}
    {code rest : Code} {held : List SessionLocks.Mutex} (hCom : t ≠ .scheduler)
    (hCall : mayCall t held f) (hHeld : SessionLocks.Mutex.acsSession ∈ held)
    (hBody : body t choice data f = some (data', code)) (hNot : ¬ asksOrCloses choice data f)
    (h : entersEngine (code ++ rest)) : entersEngine (call f :: rest) := by
  cases f with
  | noContent ready =>
    cases hBody
    have hClosed : data.bSession = false := by simpa [asksOrCloses] using hNot
    simpa [noContentBody, hClosed, entersEngine] using h
  | transferResponse holdRequests ready =>
    cases hBody
    rw [transferResponseBody] at h
    split at h
    · rename_i hSession
      have hHold : holdRequests = true := by simpa [asksOrCloses, hSession] using hNot
      simpa [hHold, entersEngine] using h
    · simpa [entersEngine] using h
  | checkSession =>
    cases choice <;> cases hBody
    rw [if_neg (by simpa [asksOrCloses] using hNot)] at h
    simpa [entersEngine] using h
  | noContentReady ready => cases hBody; cases ready <;> simpa [entersEngine] using h
  | askedReady ready => cases hBody; cases ready <;> simpa [entersEngine] using h
  | sendHttpMessage => cases hBody; simpa [entersEngine] using h
  | readyIfOpened =>
    cases hBody
    rw [if_neg (by simpa [asksOrCloses] using hNot)] at h
    exact h
  | isSessionOpened => rfl
  | isReadyToClose => rfl
  | closeACSSession success => rfl
  | sessionClosed success => rfl
  | openSession => cases hBody; exact h
  | setStatus status => cases hBody; exact h
  | nextMessage => cases hBody; exact h
  | closingIfSent => cases hBody; exact h
  | handOver => cases choice <;> cases hBody; exact h
  | openedBody => cases hBody; exact h
  | closeHttp => cases hBody; exact h
  | leaveSession => cases hBody; exact h
  | endSession => cases hBody; exact h
  | run => exact absurd hCall.1 hCom
  | runLoop => exact absurd hCall.1 hCom
  | unlockParameters notices => exact absurd hCall.1 hCom
  | sendMessage informed => exact absurd hCall.1 hCom
  | inform case => exact absurd hCall.1 hCom
  | informSent => exact absurd hCall.1 hCom
  | sessionLoop => exact absurd hCall.1 hCom
  | sessionStep => exact absurd hCall.1 hCom
  | httpThread => simp [hCall.2] at hHeld
  | perform => simp [hCall.2] at hHeld
  | header hd => simp [hCall.2] at hHeld
  | data a => simp [hCall.2] at hHeld
  | forceACSSessionToClose => simp [hCall.2] at hHeld
  | supervise => simp [hCall.2] at hHeld
  | sendLoop => simp [hCall.2] at hHeld

theorem noClash_scheduler {s s' : Agent} {choice : Choice} (hInv : discipline.Inv s)
    (h : NoClash s) (hGuard : Guard s (.scheduler, choice))
    (hStep : step s (.scheduler, choice) = some s') : NoClash s' := by
  obtain ⟨held, -, hCode⟩ := hInv
  have hHere := hCode .scheduler
  rw [Guard, if_pos rfl] at hGuard
  intro hOpens u hOwned hOther
  have hOwned' : s.owner .acsSession = some u := State.owner_of_step hStep hOther hOwned
  rw [State.code_of_step hStep hOther]
  suffices hBefore : lock .acsSession ∈ s.code .scheduler ∨ ¬ entersEngine (s.code u) by
    obtain hBefore | hNot := hBefore
    · exact h hBefore u hOwned' hOther
    · exact hNot
  cases State.step_cases hStep with
  | lock m rest hHead hFree hOwner hCode' =>
    left
    rw [opensSession, hCode', Function.update_self] at hOpens
    rw [hHead]
    exact List.mem_cons_of_mem _ hOpens
  | unlock m rest hHead hOwner hCode' =>
    left
    rw [opensSession, hCode', Function.update_self] at hOpens
    rw [hHead]
    exact List.mem_cons_of_mem _ hOpens
  | wait m rest hHead hOwner hCode' =>
    left
    rw [hHead] at hHere
    obtain ⟨-, -, rfl⟩ := hHere.1
    rw [opensSession, hCode', Function.update_self] at hOpens
    rw [hHead]
    exact List.mem_cons_of_mem _ (by simpa using hOpens)
  | call f rest code hHead hBody hOwner hCode' =>
    rw [opensSession, hCode', Function.update_self] at hOpens
    rw [hHead] at hHere ⊢
    obtain hNew | hOld := List.mem_append.mp hOpens
    · right
      obtain ⟨rfl, hSent⟩ := eq_informSent_of_mem hHere.1 hBody hNew
      exact hGuard (congrArg List.head? hHead) hSent u hOwned'
    · left
      exact List.mem_cons_of_mem _ hOld

theorem noClash_com {s s' : Agent} {t : Thread} {choice : Choice} (hCom : t ≠ .scheduler)
    (hInv : discipline.Inv s) (h : NoClash s) (hGuard : Guard s (t, choice))
    (hStep : step s (t, choice) = some s') : NoClash s' := by
  obtain ⟨held, hHeld, hCode⟩ := hInv
  have hHere := hCode t
  rw [Guard, if_neg hCom] at hGuard
  intro hOpens u hOwned hOther
  rw [opensSession, State.code_of_step hStep hCom.symm] at hOpens
  have hNotNow : ¬ entersNow choice s.data (s.code t) := fun hNow => hGuard hNow hOpens
  obtain rfl | hNe := eq_or_ne u t
  case inr =>
    rw [State.code_of_step hStep hNe]
    exact h hOpens u (State.owner_of_step hStep hNe hOwned) hOther
  have hBefore : s.owner .acsSession = some u → ¬ entersEngine (s.code u) := fun hOwned' =>
    h hOpens u hOwned' hOther
  cases State.step_cases hStep with
  | lock m rest hHead hFree hOwner hCode' =>
    rw [hCode', Function.update_self]
    rw [hHead] at hBefore hNotNow
    obtain rfl | hNot := eq_or_ne m .acsSession
    · exact hNotNow
    · rw [hOwner, Function.update_of_ne hNot.symm] at hOwned
      intro hEnters
      apply hBefore hOwned
      simp [entersEngine, hEnters]
  | unlock m rest hHead hOwner hCode' =>
    rw [hCode', Function.update_self]
    rw [hHead] at hBefore
    obtain rfl | hNot := eq_or_ne m .acsSession
    · simp [hOwner] at hOwned
    · rw [hOwner, Function.update_of_ne hNot.symm] at hOwned
      intro hEnters
      apply hBefore hOwned
      simp [entersEngine, hEnters, hNot]
  | wait m rest hHead hOwner hCode' =>
    rw [hHead] at hHere
    exact absurd hHere.1.1 hCom
  | call f rest code hHead hBody hOwner hCode' =>
    rw [hOwner] at hOwned
    rw [hHead] at hHere hBefore hNotNow
    rw [hCode', Function.update_self]
    intro hEnters
    exact hBefore hOwned
      (entersEngine_body hCom hHere.1 (hHeld _ _ hOwned) hBody hNotNow hEnters)

def Thread.index : Thread → Fin 3
  | .scheduler => 0
  | .httpSend => 1
  | .supervisor => 2

instance : Finite Thread :=
  Finite.of_injective Thread.index fun t u h => by cases t <;> cases u <;> simp_all [Thread.index]

/-- The ranks of the mutexes. While the scheduler asks for the mutex of the ACS session, this mutex
comes after the two of the scheduler. -/
def rank (opening : Bool) : SessionLocks.Mutex → Nat
  | .acsSession => if opening then 3 else 0
  | .scheduler => 1
  | .status => 2
  | .httpSendThreadControl => 4

theorem mem_of_mayLock_scheduler {held : List SessionLocks.Mutex} {m m' : SessionLocks.Mutex}
    (h : mayLock .scheduler held m') (hMem : m ∈ held) :
    m = .scheduler ∧ (m' = .status ∨ m' = .httpSendThreadControl) ∨
      (m = .scheduler ∨ m = .status) ∧ (m' = .httpSendThreadControl ∨ m' = .acsSession) := by
  match held, h with
  | [.scheduler], h => exact .inl ⟨by simpa using hMem, h⟩
  | [.status, .scheduler], h => exact .inr ⟨by simpa [or_comm] using hMem, h⟩

theorem mem_of_mayLock_com {t : Thread} {held : List SessionLocks.Mutex} {m m' : SessionLocks.Mutex}
    (hCom : t ≠ .scheduler) (h : mayLock t held m') (hMem : m ∈ held) :
    m = .acsSession ∧ m' ≠ .acsSession ∨ m = .scheduler ∧ m' = .httpSendThreadControl := by
  match t, held, h with
  | .scheduler, _, _ => exact absurd rfl hCom
  | .httpSend, [.acsSession], h => exact .inl ⟨by simpa using hMem, h⟩
  | .supervisor, [.acsSession], h => exact .inl ⟨by simpa using hMem, h⟩
  | .httpSend, [.scheduler], h => exact .inr ⟨by simpa using hMem, h⟩
  | .supervisor, [.scheduler], h => exact .inr ⟨by simpa using hMem, h⟩

theorem entersEngine_of_wants {s : Agent} {t : Thread} {m : SessionLocks.Mutex}
    (hWants : s.wants t = some m) (hEngine : m = .scheduler ∨ m = .status) :
    entersEngine (s.code t) := by
  rw [State.wants] at hWants
  split at hWants
  · rename_i hHead
    cases hWants
    obtain rfl | rfl := hEngine <;> simp [hHead, entersEngine]
  · cases hWants

theorem opensSession_of_wants {s : Agent} (hWants : s.wants .scheduler = some .acsSession) :
    opensSession s := by
  rw [State.wants] at hWants
  split at hWants
  · rename_i hHead
    cases hWants
    rw [opensSession, hHead]
    exact List.mem_cons_self
  · cases hWants

theorem deadlockFree_of_noClash {s : Agent} (hInv : discipline.Inv s) (h : NoClash s) :
    s.DeadlockFree := by
  apply State.deadlockFree_of_rank (rank (s.wants .scheduler = some .acsSession))
  rintro t u ⟨-, m, hWants, hOwned⟩ m' hWants' m'' hNext
  obtain rfl : m = m' := Option.some.inj (hWants.symm.trans hWants')
  obtain ⟨held, hMem, hMay⟩ := hInv.mayLock_of_wants hOwned hNext
  obtain rfl | hCom := eq_or_ne u .scheduler
  · obtain ⟨rfl, rfl | rfl⟩ | ⟨rfl | rfl, rfl | rfl⟩ := mem_of_mayLock_scheduler hMay hMem
    all_goals simp_all [rank]
  · obtain ⟨rfl, hNot⟩ | ⟨rfl, rfl⟩ := mem_of_mayLock_com hCom hMay hMem
    · have hEnters (hEngine : m'' = .scheduler ∨ m'' = .status) :
          s.wants .scheduler ≠ some .acsSession := fun hOpening =>
        h (opensSession_of_wants hOpening) u hOwned hCom (entersEngine_of_wants hNext hEngine)
      cases m'' with
      | acsSession => exact absurd rfl hNot
      | scheduler => simp [rank, hEnters]
      | status => simp [rank, hEnters]
      | httpSendThreadControl => simp only [rank]; split <;> omega
    · simp [rank]

theorem step_safe (s : Agent) (l : Thread × Choice) (s' : Agent)
    (h : discipline.Inv s ∧ NoClash s) (hGuard : Guard s l) (hStep : step s l = some s') :
    discipline.Inv s' ∧ NoClash s' := by
  refine ⟨Discipline.inv_step sound_discipline h.1 hStep, ?_⟩
  obtain ⟨t, choice⟩ := l
  obtain rfl | hCom := eq_or_ne t .scheduler
  · exact noClash_scheduler h.1 h.2 hGuard hStep
  · exact noClash_com hCom h.1 h.2 hGuard hStep

/-- In every run whose steps meet the condition no state has a deadlocked set of threads. -/
theorem deadlockFree_of_guard (labels : List (Thread × Choice)) (h : Along step Guard init labels) :
    Throughout step State.DeadlockFree init labels := by
  have hInit : discipline.Inv init ∧ NoClash init := by
    refine ⟨inv_init, fun hOpens => ?_⟩
    simp [opensSession, init] at hOpens
  exact (throughout_of_along step_safe hInit h).mono fun _ hs => deadlockFree_of_noClash hs.1 hs.2

section Samples

def schedulerSteps (n : Nat) : List (Thread × Choice) := List.replicate n (.scheduler, .none)

def httpSteps (n : Nat) : List (Thread × Choice) := List.replicate n (.httpSend, .none)

/-- The scheduler hands an Inform over, and the sending thread starts. -/
def informHandedOver : List (Thread × Choice) :=
  schedulerSteps 2 ++ [(.scheduler, .run (.session (some (.callback true))))] ++
    schedulerSteps 5 ++ [(.scheduler, .initOK true)] ++ schedulerSteps 1 ++ httpSteps 4

/-- The session is opened, the ACS answers the Inform, and then that there is nothing more. -/
def sessionClosedByAcs : List (Thread × Choice) :=
  informHandedOver ++ schedulerSteps 6 ++ [(.scheduler, .alive true), (.scheduler, .none)] ++
    [(.httpSend, .receivedData (.informResponse true false true))] ++ httpSteps 14 ++
    [(.httpSend, .initOK true)] ++ httpSteps 1 ++ [(.httpSend, .received (.noContent true))] ++
    httpSteps 1 ++ [(.httpSend, .received (.noContent true))] ++ httpSteps 16

theorem deadlockFree_sessionClosedByAcs :
    Throughout step State.DeadlockFree init sessionClosedByAcs :=
  deadlockFree_of_guard _ (by decide +kernel)

/-- The answer to the Inform is no message that is known, and it comes before the session is
opened: the sending thread closes the session while the scheduler opens it. -/
def earlyUnknownAnswer : List (Thread × Choice) :=
  informHandedOver ++ [(.httpSend, .receivedData .unknown)] ++ httpSteps 11 ++ schedulerSteps 1

theorem deadlock_after_earlyUnknownAnswer :
    ¬ Throughout step State.DeadlockFree init earlyUnknownAnswer := by
  rw [throughout_iff_exec]
  intro h
  have hEnd : (exec step init earlyUnknownAnswer).map (fun s =>
      (s.wants .scheduler, s.owner .acsSession, s.wants .httpSend, s.owner .scheduler)) =
      some (some .acsSession, some .httpSend, some .scheduler, some .scheduler) := by decide +kernel
  obtain ⟨s, hExec, hs⟩ := Option.map_eq_some_iff.mp hEnd
  obtain ⟨hOpening, hs⟩ := Prod.mk.inj hs
  obtain ⟨hHttp, hs⟩ := Prod.mk.inj hs
  obtain ⟨hClosing, hScheduler⟩ := Prod.mk.inj hs
  apply h _ (List.prefix_refl _) s hExec {.scheduler, .httpSend}
  refine ⟨⟨.scheduler, by simp⟩, ?_⟩
  rintro t (rfl | rfl)
  · exact ⟨.httpSend, by simp, by decide, .acsSession, hOpening, hHttp⟩
  · exact ⟨.scheduler, by simp, by decide, .scheduler, hClosing, hScheduler⟩

end Samples

end Tr069Agent.Com.SessionLocks
