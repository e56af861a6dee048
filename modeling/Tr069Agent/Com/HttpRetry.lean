import Tr069Agent.Com.HttpQueue

/-! # The copy that is kept for a retry

The copy is made where a thread is launched, so that it is the first message of that thread. The messages
that the thread comes to later are not copied.
-/

namespace Tr069Agent.Com.HttpClient

open Library Library.Transition

set_option autoImplicit false

/-- While a thread is there, the copy is that of the text with which it was launched. -/
def CopyKept (s : Client) : Prop :=
  s.threads ≠ [] → ∃ text, s.launched = some text ∧ s.retryBuffer = updateRetryBuffer text

section Copies

variable {s s' : Client}

theorem updateRetryBuffer_eq_some_iff {text copy : Text} (hSome : copy ≠ []) :
    updateRetryBuffer text = some copy ↔ text = copy := by
  rw [updateRetryBuffer]
  split
  · exact Option.some_inj
  · rename_i hEmpty
    refine iff_of_false nofun ?_
    rintro rfl
    exact hEmpty fun hLength => hSome (List.eq_nil_of_length_eq_zero hLength)

theorem CopyKept.keep (h : CopyKept s) (hLaunched : s'.launched = s.launched)
    (hBuffer : s'.retryBuffer = s.retryBuffer) (hThreads : s'.threads ≠ [] → s.threads ≠ []) : CopyKept s' := by
  intro hSome
  rw [hLaunched, hBuffer]
  exact h (hThreads hSome)

theorem copyKept_sendHttpMessage (h : CopyKept s) (text : Text) (initOK threadOK : Bool) :
    CopyKept (sendHttpMessage text initOK threadOK s).2 := by
  have hInit : CopyKept (initHttpSession initOK s) := by
    rw [initHttpSession]
    repeat' split
    all_goals exact h
  rw [sendHttpMessage]
  simp only [accept]
  repeat' split
  · exact h
  · exact h
  · exact hInit
  · exact fun _ => ⟨text, rfl, rfl⟩
  · exact hInit

theorem copyKept_beginRound (h : CopyKept s) (i : Nat) : CopyKept (beginRound i s) := by
  rw [beginRound]
  split
  · exact h.keep rfl rfl fun hSet hNone => hSet (by rw [hNone, List.set_nil])
  · dsimp only
    split <;> exact h.keep rfl rfl fun hErase hNone => hErase (by simp [closeHttpSession, hNone])

theorem copyKept_threadStep (h : CopyKept s) {i : Nat} (hStep : threadStep i s = some s') : CopyKept s' := by
  have hSet (place : Place) (hSome : s.threads.set i place ≠ []) : s.threads ≠ [] := by
    intro hNone
    exact hSome (by rw [hNone, List.set_nil])
  rw [threadStep] at hStep
  split at hStep
  · cases hStep
  · obtain rfl := Option.some.inj hStep
    exact copyKept_beginRound h i
  · obtain rfl := Option.some.inj hStep
    exact h.keep rfl rfl (hSet _)
  · obtain rfl := Option.some.inj hStep
    exact h.keep rfl rfl (hSet _)
  · obtain rfl := Option.some.inj hStep
    refine copyKept_beginRound ?_ i
    exact h.keep rfl rfl id

theorem copyKept_step (h : CopyKept s) {e : Event} (hStep : step s e = some s') : CopyKept s' := by
  cases e with
  | send text initOK threadOK =>
    obtain rfl := Option.some.inj hStep
    exact copyKept_sendHttpMessage h text initOK threadOK
  | close =>
    obtain rfl := Option.some.inj hStep
    exact h.keep rfl rfl id
  | thread i => exact copyKept_threadStep h hStep
  | fault i faultCodes =>
    simp only [step] at hStep
    split at hStep
    · obtain ⟨result, hParse, rfl⟩ := Option.map_eq_some_iff.mp hStep
      rw [parseFault, retryRequest] at hParse
      repeat' split at hParse
      · obtain rfl := Option.some.inj hParse
        exact h
      · obtain rfl := Option.some.inj hParse
        exact copyKept_sendHttpMessage h _ _ _
      · cases hParse
      · obtain rfl := Option.some.inj hParse
        exact h
    · cases hStep

end Copies

theorem retryCpeRequest_all {faultCodes : List (Option Int)}
    (h : ∀ code ∈ faultCodes, code = some Session.acsErrorRetryRequest) :
    Session.retryCpeRequest true faultCodes = true := by
  induction faultCodes with
  | nil => rfl
  | cons code codes ih =>
    obtain ⟨rfl, hRest⟩ := List.forall_mem_cons.mp h
    rw [Session.retryCpeRequest, if_pos rfl]
    exact ih hRest

/-- The answers in whose treatment a message is sent again. -/
theorem retryCpeRequest_of_all {faultCodes : List (Option Int)} (hSome : faultCodes ≠ [])
    (h : ∀ code ∈ faultCodes, code = some Session.acsErrorRetryRequest) :
    Session.retryCpeRequest false faultCodes = true := by
  cases faultCodes with
  | nil => exact absurd rfl hSome
  | cons code codes =>
    obtain ⟨rfl, hRest⟩ := List.forall_mem_cons.mp h
    rw [Session.retryCpeRequest, if_pos rfl]
    exact retryCpeRequest_all hRest

theorem retryRequest_eq_some_iff {s : Client} {message : Message} (hMessage : s.httpMessageBeingSent = some message) :
    (retryRequest s).map Prod.fst = some (some message.text) ↔ s.retryBuffer = some message.text := by
  rw [retryRequest]
  split
  · rename_i hNone
    rw [hNone]
    exact iff_of_false (by simp) (by simp)
  · rename_i text hSome
    rw [hSome, hMessage, if_pos (by rfl), Option.map_some, Option.some_inj]

/-- What is sent again is what was answered if and only if that has the text of the launch. -/
theorem retriesAnswered_iff {s : Client} (hCopy : CopyKept s) (e : Event) :
    RetriesAnswered s e ↔ AnswersLaunched s e := by
  cases e with
  | fault i faultCodes =>
    refine forall_congr' fun hPlace => forall_congr' fun hSome => forall_congr' fun hCodes =>
      forall_congr' fun message => forall_congr' fun hMessage => forall_congr' fun hText => ?_
    have hMessage : s.httpMessageBeingSent = some message := hMessage
    have hThread : s.threads ≠ [] := by
      intro hNone
      rw [hNone, List.getElem?_nil] at hPlace
      cases hPlace
    obtain ⟨text, hLaunched, hBuffer⟩ := hCopy hThread
    rw [parseFault, if_pos (retryCpeRequest_of_all hSome hCodes), retryRequest_eq_some_iff hMessage, hBuffer,
      hLaunched, updateRetryBuffer_eq_some_iff hText, Option.some_inj]
  | send | close | thread => exact Iff.rfl

/-- Along every run, the ACS gets again what it has answered if and only if it answers the messages with
whose text a thread was launched. -/
theorem retries_answered_iff (events : List Event) :
    Along step RetriesAnswered init events ↔ Along step AnswersLaunched init events :=
  along_iff_of_step (fun _ _ _ h hStep => copyKept_step h hStep) (fun _ e h => retriesAnswered_iff h e)
    fun hSome => absurd rfl hSome

/-- An answer comes while a message is in hand, so that no thread is launched with the copy itself. -/
theorem parseFault_defined {s : Client} (h : QueueInv s) {i : Nat} (hPlace : s.threads[i]? = some .performing)
    (faultCodes : List (Option Int)) : (parseFault faultCodes s).isSome = true := by
  have hMessage : s.httpMessageBeingSent.isSome = true := by
    obtain hIdle | ⟨place, message, session, hBusy⟩ := h.shape
    · rw [hIdle.threads, List.getElem?_nil] at hPlace
      cases hPlace
    · rw [hBusy.message]
      rfl
  rw [parseFault, retryRequest]
  split
  · split
    · rfl
    · rfl
  · rfl

instance (s : Client) (e : Event) : Decidable (RetriesAnswered s e) :=
  match e with
  | .fault i faultCodes =>
    inferInstanceAs (Decidable (s.threads[i]? = some .performing → faultCodes ≠ [] →
      (∀ code ∈ faultCodes, code = some Session.acsErrorRetryRequest) →
        ∀ message ∈ s.httpMessageBeingSent, message.text ≠ [] →
          (parseFault faultCodes s).map Prod.fst = some (some message.text)))
  | .send _ _ _ | .close | .thread _ => inferInstanceAs (Decidable True)

/-- The ACS asks for the second message of a thread again, and gets the first. -/
theorem first_message_retried :
    ¬ Along step RetriesAnswered init
      [.send "Inform".toList true true, .thread 0, .thread 0, .send "TransferComplete".toList true true, .thread 0,
        .thread 0, .thread 0, .fault 0 [some 8005]] := by
  decide +kernel

end Tr069Agent.Com.HttpClient
