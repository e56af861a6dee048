import Mathlib.Data.List.Nodup
import Tr069Agent.Com.HttpClient

/-! # The HTTP client is one ordered queue

A thread is there exactly while a message is in hand, so there is one at most. What was transmitted and
what waits is, in this order, a part of what was accepted.
-/

namespace Tr069Agent.Com.HttpClient

open Library Library.Transition

set_option autoImplicit false

section Waiting

variable {s : Client} {message : Message}

theorem waiting_of_performing (h : s.threads = [.performing] ∨ s.threads = [.performed]) :
    waiting s = s.pendingHttpMessages := by
  obtain h | h := h <;> simp [waiting, h]

theorem waiting_of_starting (h : s.threads = [.starting] ∨ s.threads = [.prepared])
    (hMessage : s.httpMessageBeingSent = some message) : waiting s = message :: s.pendingHttpMessages := by
  obtain h | h := h <;> simp [waiting, h, hMessage]

theorem waiting_of_idle (h : s.httpMessageBeingSent = none) (hPending : s.pendingHttpMessages = []) :
    waiting s = [] := by
  simp [waiting, h, hPending]

end Waiting

/-- Nothing is in hand. -/
structure Idle (s : Client) : Prop where
  threads : s.threads = []
  message : s.httpMessageBeingSent = none
  pending : s.pendingHttpMessages = []
  closing : s.closeHttpSessionExpected = false

/-- One thread has a message in hand. -/
structure Busy (s : Client) (place : Place) (message : Message) (session : Nat) : Prop where
  threads : s.threads = [place]
  message : s.httpMessageBeingSent = some message
  session : s.sessionHandle = some session

/-- What happened to the messages. -/
structure Traced (s : Client) : Prop where
  numbered : ∀ (i : Nat) (message : Message), s.accepted[i]? = some message → message.number = i
  order : (s.transmitted.map Prod.fst ++ waiting s).Sublist s.accepted
  kept : ∀ message ∈ s.accepted,
    message ∈ s.transmitted.map Prod.fst ∨ message ∈ waiting s ∨ message ∈ s.discarded
  discarded : ∀ message ∈ s.discarded,
    message ∈ s.accepted ∧ message ∉ s.transmitted.map Prod.fst ∧ message ∉ waiting s

/-- What happened to the sessions. -/
structure Closed (s : Client) : Prop where
  opened : ∀ session ∈ s.sessionHandle, session < s.opened
  closing : ∀ session before, (session, before) ∈ s.closes → session < s.opened ∧
    (s.sessionHandle = some session → s.closeHttpSessionExpected = true ∧ s.accepted.length ≤ before)
  closed : ∀ session before, (session, before) ∈ s.closes →
    ∀ sent ∈ s.transmitted, before ≤ sent.1.number → sent.2 ≠ some session

structure QueueInv (s : Client) : Prop where
  shape : Idle s ∨ ∃ place message session, Busy s place message session
  traced : Traced s
  closed : Closed s

theorem queueInv_init : QueueInv init where
  shape := .inl ⟨rfl, rfl, rfl, rfl⟩
  traced := ⟨by simp [init], by simp [init, waiting], by simp [init], by simp [init]⟩
  closed := ⟨by simp [init], by simp [init], by simp [init]⟩

section Facts

variable {s : Client}

theorem Traced.number_lt (h : Traced s) {message : Message} (hMem : message ∈ s.accepted) :
    message.number < s.accepted.length := by
  obtain ⟨i, hLess, hGet⟩ := List.mem_iff_getElem.mp hMem
  rw [h.numbered i message (List.getElem?_eq_some_iff.mpr ⟨hLess, hGet⟩)]
  exact hLess

theorem Traced.distinct (h : Traced s) : s.accepted.Nodup := by
  rw [List.nodup_iff_getElem?_ne_getElem?]
  intro i j hLess hBound hSame
  obtain ⟨message, hMessage⟩ := Option.isSome_iff_exists.mp
    (List.getElem?_eq_some_iff.mpr ⟨hBound, rfl⟩ ▸ rfl : (s.accepted[j]?).isSome = true)
  have hLeft := h.numbered i message (hSame.trans hMessage)
  have hRight := h.numbered j message hMessage
  omega

theorem QueueInv.ordered (h : QueueInv s) : Ordered s where
  alone := by
    obtain hIdle | ⟨place, message, session, hBusy⟩ := h.shape
    · simp [hIdle.threads]
    · rw [hBusy.threads]
      exact List.count_le_length
  distinct := h.traced.distinct
  order := (List.sublist_append_left _ _).trans h.traced.order
  kept := h.traced.kept
  discarded message hMem := (h.traced.discarded message hMem).2.1
  closed := h.closed.closed

end Facts

section Steps

variable {s s' : Client}

theorem Traced.accept (h : Traced s) (text : Text)
    (hAccepted : s'.accepted = s.accepted ++ [⟨s.accepted.length, text⟩])
    (hWaiting : waiting s' = waiting s ++ [⟨s.accepted.length, text⟩])
    (hTransmitted : s'.transmitted = s.transmitted) (hDiscarded : s'.discarded = s.discarded) : Traced s' where
  numbered i message hGet := by
    rw [hAccepted] at hGet
    obtain hLess | hEq | hMore := Nat.lt_trichotomy i s.accepted.length
    · rw [List.getElem?_append_left hLess] at hGet
      exact h.numbered i message hGet
    · subst hEq
      rw [List.getElem?_concat_length] at hGet
      obtain rfl := Option.some.inj hGet
      rfl
    · rw [List.getElem?_eq_none (by simp; omega)] at hGet
      cases hGet
  order := by
    rw [hAccepted, hWaiting, hTransmitted, ← List.append_assoc]
    exact h.order.append (List.Sublist.refl _)
  kept message hMem := by
    rw [hAccepted, List.mem_append, List.mem_singleton] at hMem
    rw [hWaiting, hTransmitted, hDiscarded, List.mem_append, List.mem_singleton]
    obtain hOld | hNew := hMem
    · obtain hSent | hWait | hGone := h.kept message hOld
      · exact .inl hSent
      · exact .inr (.inl (.inl hWait))
      · exact .inr (.inr hGone)
    · exact .inr (.inl (.inr hNew))
  discarded message hMem := by
    rw [hDiscarded] at hMem
    obtain ⟨hAcc, hSent, hWait⟩ := h.discarded message hMem
    rw [hAccepted, hWaiting, hTransmitted, List.mem_append, List.mem_append, List.mem_singleton]
    refine ⟨.inl hAcc, hSent, not_or.mpr ⟨hWait, ?_⟩⟩
    rintro rfl
    exact absurd (h.number_lt hAcc) (lt_irrefl _)

theorem Traced.move (h : Traced s) (hAccepted : s'.accepted = s.accepted)
    (hMoved : s'.transmitted.map Prod.fst ++ waiting s' = s.transmitted.map Prod.fst ++ waiting s)
    (hDiscarded : s'.discarded = s.discarded) : Traced s' where
  numbered := hAccepted ▸ h.numbered
  order := by rw [hAccepted, hMoved]; exact h.order
  kept message hMem := by
    rw [hAccepted] at hMem
    have hKept := h.kept message hMem
    rw [← or_assoc, ← List.mem_append] at hKept ⊢
    rw [hMoved, hDiscarded]
    exact hKept
  discarded message hMem := by
    rw [hDiscarded] at hMem
    have hGone := h.discarded message hMem
    rw [← not_or, ← List.mem_append] at hGone ⊢
    rw [hAccepted, hMoved]
    exact hGone

theorem Traced.discard (h : Traced s) (hAccepted : s'.accepted = s.accepted)
    (hTransmitted : s'.transmitted = s.transmitted) {gone : List Message} (hWaiting : waiting s = waiting s' ++ gone)
    (hDiscarded : s'.discarded = s.discarded ++ gone) : Traced s' where
  numbered := hAccepted ▸ h.numbered
  order := by
    have hOrder := h.order
    rw [hWaiting, ← List.append_assoc] at hOrder
    rw [hAccepted, hTransmitted]
    exact (List.sublist_append_left _ _).trans hOrder
  kept message hMem := by
    rw [hAccepted] at hMem
    have hKept := h.kept message hMem
    rw [hWaiting, List.mem_append] at hKept
    rw [hTransmitted, hDiscarded, List.mem_append]
    obtain hSent | (hWait | hGone) | hOld := hKept
    · exact .inl hSent
    · exact .inr (.inl hWait)
    · exact .inr (.inr (.inr hGone))
    · exact .inr (.inr (.inl hOld))
  discarded message hMem := by
    rw [hAccepted, hTransmitted]
    rw [hDiscarded, List.mem_append] at hMem
    obtain hOld | hGone := hMem
    · obtain ⟨hAcc, hSent, hWait⟩ := h.discarded message hOld
      rw [hWaiting, List.mem_append, not_or] at hWait
      exact ⟨hAcc, hSent, hWait.1⟩
    · have hOrder := h.order
      rw [hWaiting, ← List.append_assoc] at hOrder
      have hApart := List.disjoint_of_nodup_append (h.distinct.sublist hOrder)
      refine ⟨hOrder.subset (List.mem_append_right _ hGone), fun hSent => ?_, fun hWait => ?_⟩
      · exact hApart (List.mem_append_left _ hSent) hGone
      · exact hApart (List.mem_append_right _ hWait) hGone

theorem Traced.sent_lt (h : Traced s) {sent : Message × Option Nat} (hMem : sent ∈ s.transmitted) :
    sent.1.number < s.accepted.length :=
  h.number_lt (h.order.subset (List.mem_append_left _ (List.mem_map_of_mem hMem)))

theorem waiting_busy {place : Place} {message : Message} {session : Nat} (h : Busy s place message session) :
    waiting s = (if place = .performing ∨ place = .performed then [] else [message]) ++ s.pendingHttpMessages := by
  rw [waiting, h.threads, h.message]
  cases place <;> simp

theorem queueInv_send_pending (h : QueueInv s) (text : Text) (hOpen : s.closeHttpSessionExpected = false)
    {place : Place} {message : Message} {session : Nat} (hBusy : Busy s place message session) :
    QueueInv { s with
      accepted := s.accepted ++ [⟨s.accepted.length, text⟩]
      pendingHttpMessages := s.pendingHttpMessages ++ [⟨s.accepted.length, text⟩] } where
  shape := .inr ⟨place, message, session, hBusy.threads, hBusy.message, hBusy.session⟩
  traced := by
    refine h.traced.accept text rfl ?_ rfl rfl
    rw [waiting_busy hBusy, List.append_assoc]
    exact waiting_busy ⟨hBusy.threads, hBusy.message, hBusy.session⟩
  closed := by
    refine ⟨h.closed.opened, fun session before hMem => ?_, h.closed.closed⟩
    obtain ⟨hOpened, hClosing⟩ := h.closed.closing session before hMem
    refine ⟨hOpened, fun hHandle => ?_⟩
    rw [(hClosing hHandle).1] at hOpen
    cases hOpen

theorem queueInv_initHttpSession (h : QueueInv s) (hIdle : Idle s) (initOK : Bool) :
    QueueInv (initHttpSession initOK s) ∧ Idle (initHttpSession initOK s) := by
  rw [initHttpSession]
  split
  · exact ⟨h, hIdle⟩
  rename_i hHandle
  split
  · refine ⟨⟨.inl ⟨hIdle.threads, hIdle.message, hIdle.pending, hIdle.closing⟩, h.traced.move rfl rfl rfl, ?_⟩,
      hIdle.threads, hIdle.message, hIdle.pending, hIdle.closing⟩
    refine ⟨fun session hSession => ?_, fun session before hMem => ?_, h.closed.closed⟩
    · obtain rfl := Option.some.inj hSession
      exact Nat.lt_succ_self _
    · have hOpened := (h.closed.closing session before hMem).1
      refine ⟨Nat.lt_succ_of_lt hOpened, fun hSession => ?_⟩
      obtain rfl := Option.some.inj hSession
      exact absurd hOpened (lt_irrefl _)
  · exact ⟨h, hIdle⟩

theorem queueInv_launch (h : QueueInv s) (hIdle : Idle s) (text : Text) {session : Nat}
    (hSession : s.sessionHandle = some session) :
    QueueInv { s with
      accepted := s.accepted ++ [⟨s.accepted.length, text⟩]
      httpMessageBeingSent := some ⟨s.accepted.length, text⟩
      threads := s.threads ++ [.starting]
      retryBuffer := updateRetryBuffer text
      launched := some text } := by
  have hThreads : s.threads ++ [.starting] = [Place.starting] := by rw [hIdle.threads, List.nil_append]
  refine ⟨.inr ⟨.starting, _, session, hThreads, rfl, hSession⟩, ?_, ?_⟩
  · refine h.traced.accept text rfl ?_ rfl rfl
    rw [waiting_of_idle hIdle.message hIdle.pending, waiting_of_starting (.inl hThreads) rfl]
    dsimp only
    rw [hIdle.pending, List.nil_append]
  · refine ⟨h.closed.opened, fun session before hMem => ?_, h.closed.closed⟩
    obtain ⟨hOpened, hClosing⟩ := h.closed.closing session before hMem
    refine ⟨hOpened, fun hHandle => ?_⟩
    have hOpen := (hClosing hHandle).1
    rw [hIdle.closing] at hOpen
    cases hOpen

theorem queueInv_sendHttpMessage (h : QueueInv s) (text : Text) (initOK threadOK : Bool) :
    QueueInv (sendHttpMessage text initOK threadOK s).2 := by
  rw [sendHttpMessage]
  split
  · exact h
  rename_i hOpen
  have hOpen : s.closeHttpSessionExpected = false := Bool.eq_false_iff.mpr hOpen
  obtain hIdle | ⟨place, message, session, hBusy⟩ := h.shape
  · rw [if_neg (by simp [hIdle.message])]
    obtain ⟨hInv, hIdle⟩ := queueInv_initHttpSession h hIdle initOK
    dsimp only
    split
    · exact hInv
    rename_i hHandle
    split
    · obtain ⟨session, hSession⟩ := Option.ne_none_iff_exists'.mp (fun hNone =>
        hHandle (Option.isNone_iff_eq_none.mpr hNone))
      exact queueInv_launch hInv hIdle text hSession
    · exact hInv
  · rw [if_pos (by simp [hBusy.message])]
    exact queueInv_send_pending h text hOpen hBusy

/-- A close that comes while a thread has a message in hand leaves the session to it. -/
theorem queueInv_closeHttpSession (h : QueueInv s) : QueueInv (closeHttpSession s) := by
  obtain hIdle | ⟨place, message, session, hBusy⟩ := h.shape
  · have hClose : closeHttpSession s = { s with sessionHandle := none } := by
      simp [closeHttpSession, hIdle.message, hIdle.pending, hIdle.closing]
    rw [hClose]
    refine ⟨.inl ⟨hIdle.threads, hIdle.message, hIdle.pending, hIdle.closing⟩, h.traced.move rfl rfl rfl, ?_⟩
    refine ⟨nofun, fun session before hMem => ?_, h.closed.closed⟩
    exact ⟨(h.closed.closing session before hMem).1, nofun⟩
  · have hClose : closeHttpSession s = { s with
        closeHttpSessionExpected := true
        pendingHttpMessages := []
        discarded := s.discarded ++ s.pendingHttpMessages } := by
      simp [closeHttpSession, hBusy.message]
    rw [hClose]
    refine ⟨.inr ⟨place, message, session, hBusy.threads, hBusy.message, hBusy.session⟩, ?_, ?_⟩
    · refine h.traced.discard rfl rfl ?_ rfl
      have hAfter : Busy { s with
          closeHttpSessionExpected := true
          pendingHttpMessages := []
          discarded := s.discarded ++ s.pendingHttpMessages } place message session :=
        ⟨hBusy.threads, hBusy.message, hBusy.session⟩
      rw [waiting_busy hBusy, waiting_busy hAfter, List.append_nil]
    · refine ⟨h.closed.opened, fun session before hMem => ?_, h.closed.closed⟩
      obtain ⟨hOpened, hClosing⟩ := h.closed.closing session before hMem
      exact ⟨hOpened, fun hHandle => ⟨rfl, (hClosing hHandle).2⟩⟩

theorem mem_closes {session before : Nat} (h : (session, before) ∈ (close s).closes) :
    (session, before) ∈ s.closes ∨ s.sessionHandle = some session ∧ before = s.accepted.length := by
  cases hHandle : s.sessionHandle with
  | none =>
    rw [close, hHandle] at h
    exact .inl h
  | some open' =>
    rw [close, hHandle] at h
    obtain hNew | hOld := List.mem_cons.mp h
    · obtain ⟨rfl, rfl⟩ := Prod.mk.inj hNew
      exact .inr ⟨rfl, rfl⟩
    · exact .inl hOld

theorem queueInv_close (h : QueueInv s) : QueueInv (close s) := by
  have hInv := queueInv_closeHttpSession h
  refine ⟨?_, hInv.traced.move rfl rfl rfl, hInv.closed.opened, fun session before hMem => ?_,
    fun session before hMem sent hSent hBefore => ?_⟩
  · obtain hIdle | ⟨place, message, session, hBusy⟩ := hInv.shape
    · exact .inl ⟨hIdle.threads, hIdle.message, hIdle.pending, hIdle.closing⟩
    · exact .inr ⟨place, message, session, hBusy.threads, hBusy.message, hBusy.session⟩
  · obtain hOld | ⟨hHandle, hLength⟩ := mem_closes hMem
    · exact hInv.closed.closing session before hOld
    · refine ⟨h.closed.opened session hHandle, fun hAfter => ⟨?_, hLength.ge⟩⟩
      have hSome : s.httpMessageBeingSent.isSome = true := by
        by_contra hNone
        simp [close, closeHttpSession, hNone] at hAfter
      exact hSome
  · obtain hOld | ⟨hHandle, hLength⟩ := mem_closes hMem
    · exact hInv.closed.closed session before hOld sent hSent hBefore
    · have hLess := h.traced.sent_lt hSent
      omega

theorem Closed.keep (h : Closed s) (hOpened : s'.opened = s.opened) (hCloses : s'.closes = s.closes)
    (hAccepted : s'.accepted = s.accepted) (hTransmitted : s'.transmitted = s.transmitted)
    (hHandle : s'.sessionHandle = none ∨
      s'.sessionHandle = s.sessionHandle ∧ s'.closeHttpSessionExpected = s.closeHttpSessionExpected) : Closed s' where
  opened session hSession := by
    obtain hNone | ⟨hSame, -⟩ := hHandle
    · rw [hNone] at hSession
      cases hSession
    · rw [hOpened]
      exact h.opened session (hSame ▸ hSession)
  closing session before hMem := by
    rw [hCloses] at hMem
    obtain ⟨hLess, hClosing⟩ := h.closing session before hMem
    rw [hOpened, hAccepted]
    refine ⟨hLess, fun hSession => ?_⟩
    obtain hNone | ⟨hSame, hExpected⟩ := hHandle
    · rw [hNone] at hSession
      cases hSession
    · rw [hExpected]
      exact hClosing (hSame ▸ hSession)
  closed := by
    rw [hCloses, hTransmitted]
    exact h.closed

/-- A round begins: the next message is set, or the thread ends and the session with it. -/
theorem queueInv_nextRound (h : QueueInv s) {message : Message} {session : Nat}
    (hBusy : Busy s .performed message session) :
    QueueInv (beginRound 0 { s with
      httpMessageBeingSent := s.pendingHttpMessages.head?
      pendingHttpMessages := s.pendingHttpMessages.tail }) := by
  have hWaiting := waiting_of_performing (.inr hBusy.threads)
  cases hPending : s.pendingHttpMessages with
  | nil =>
    rw [hPending] at hWaiting
    rw [beginRound, if_neg (by simp)]
    have hErase : s.threads.eraseIdx 0 = [] := by rw [hBusy.threads]; rfl
    have hMove {after : Client} (hThreads : after.threads = []) (hNone : after.httpMessageBeingSent = none)
        (hEmpty : after.pendingHttpMessages = []) (hAccepted : after.accepted = s.accepted)
        (hTransmitted : after.transmitted = s.transmitted) (hDiscarded : after.discarded = s.discarded) :
        Traced after :=
      h.traced.move hAccepted (by rw [hTransmitted, hWaiting, waiting_of_idle hNone hEmpty]) hDiscarded
    split
    · refine ⟨.inl ⟨hErase, rfl, rfl, rfl⟩, hMove hErase rfl rfl rfl rfl ?_,
        h.closed.keep rfl rfl rfl rfl (.inl rfl)⟩
      exact List.append_nil _
    · rename_i hOpen
      exact ⟨.inl ⟨hErase, rfl, rfl, Bool.eq_false_iff.mpr hOpen⟩, hMove hErase rfl rfl rfl rfl rfl,
        h.closed.keep rfl rfl rfl rfl (.inr ⟨rfl, rfl⟩)⟩
  | cons next rest =>
    rw [hPending] at hWaiting
    rw [beginRound, if_pos (by simp)]
    have hSet : s.threads.set 0 .prepared = [.prepared] := by rw [hBusy.threads]; rfl
    refine ⟨.inr ⟨.prepared, next, session, hSet, rfl, hBusy.session⟩, ?_,
      h.closed.keep rfl rfl rfl rfl (.inr ⟨rfl, rfl⟩)⟩
    refine h.traced.move rfl ?_ rfl
    rw [hWaiting, waiting_of_starting (.inr hSet) rfl]
    rfl

theorem queueInv_perform (h : QueueInv s) {message : Message} {session : Nat}
    (hBusy : Busy s .prepared message session) :
    QueueInv { s with
      threads := s.threads.set 0 .performing
      transmitted := s.transmitted ++ s.httpMessageBeingSent.toList.map fun message =>
        (message, s.sessionHandle) } := by
  have hSet : s.threads.set 0 .performing = [.performing] := by rw [hBusy.threads]; rfl
  refine ⟨.inr ⟨.performing, message, session, hSet, hBusy.message, hBusy.session⟩, ?_, ?_⟩
  · refine h.traced.move rfl ?_ rfl
    rw [waiting_of_starting (.inr hBusy.threads) hBusy.message, waiting_of_performing (.inl hSet)]
    simp [hBusy.message]
  · refine ⟨h.closed.opened, h.closed.closing, fun session' before hMem sent hSent hBefore => ?_⟩
    obtain hOld | hNew := List.mem_append.mp hSent
    · exact h.closed.closed session' before hMem sent hOld hBefore
    · rw [hBusy.message, Option.toList_some, List.map_singleton, List.mem_singleton] at hNew
      subst hNew
      intro hSession
      have hLate := ((h.closed.closing session' before hMem).2 hSession).2
      have hAccepted : message ∈ s.accepted := by
        refine h.traced.order.subset (List.mem_append_right _ ?_)
        rw [waiting_of_starting (.inr hBusy.threads) hBusy.message]
        exact List.mem_cons_self
      have hLess := h.traced.number_lt hAccepted
      dsimp only at hBefore
      omega

theorem threadStep_zero {i : Nat} (h : QueueInv s) (hStep : threadStep i s = some s') :
    i = 0 ∧ ∃ place message session, Busy s place message session := by
  rw [threadStep] at hStep
  obtain hIdle | ⟨place, message, session, hBusy⟩ := h.shape
  · rw [hIdle.threads, List.getElem?_nil] at hStep
    cases hStep
  · refine ⟨?_, place, message, session, hBusy⟩
    cases i with
    | zero => rfl
    | succ i =>
      rw [hBusy.threads, List.getElem?_cons_succ, List.getElem?_nil] at hStep
      cases hStep

theorem queueInv_threadStep (h : QueueInv s) {i : Nat} (hStep : threadStep i s = some s') : QueueInv s' := by
  obtain ⟨rfl, place, message, session, hBusy⟩ := threadStep_zero h hStep
  have hPlace : s.threads[0]? = some place := by rw [hBusy.threads, List.getElem?_cons_zero]
  rw [threadStep, hPlace] at hStep
  cases place with
  | starting =>
    obtain rfl := Option.some.inj hStep
    have hSet : s.threads.set 0 .prepared = [.prepared] := by rw [hBusy.threads]; rfl
    rw [beginRound, if_pos (by simp [hBusy.message])]
    refine ⟨.inr ⟨.prepared, message, session, hSet, hBusy.message, hBusy.session⟩, ?_,
      h.closed.keep rfl rfl rfl rfl (.inr ⟨rfl, rfl⟩)⟩
    have hAfter : waiting { s with threads := s.threads.set 0 .prepared } = message :: s.pendingHttpMessages :=
      waiting_of_starting (.inr hSet) hBusy.message
    refine h.traced.move rfl (congrArg _ ?_) rfl
    rw [hAfter, waiting_of_starting (.inl hBusy.threads) hBusy.message]
  | prepared =>
    obtain rfl := Option.some.inj hStep
    exact queueInv_perform h hBusy
  | performing =>
    obtain rfl := Option.some.inj hStep
    have hSet : s.threads.set 0 .performed = [.performed] := by rw [hBusy.threads]; rfl
    refine ⟨.inr ⟨.performed, message, session, hSet, hBusy.message, hBusy.session⟩, ?_,
      h.closed.keep rfl rfl rfl rfl (.inr ⟨rfl, rfl⟩)⟩
    refine h.traced.move rfl ?_ rfl
    exact congrArg _ ((waiting_of_performing (.inr hSet)).trans (waiting_of_performing (.inl hBusy.threads)).symm)
  | performed =>
    obtain rfl := Option.some.inj hStep
    exact queueInv_nextRound h hBusy

theorem queueInv_parseFault (h : QueueInv s) {faultCodes : List (Option Int)} {result : Option Text × Client}
    (hParse : parseFault faultCodes s = some result) : QueueInv result.2 := by
  rw [parseFault] at hParse
  split at hParse
  · rw [retryRequest] at hParse
    split at hParse
    · obtain rfl := Option.some.inj hParse
      exact h
    split at hParse
    · obtain rfl := Option.some.inj hParse
      exact queueInv_sendHttpMessage h _ _ _
    · cases hParse
  · obtain rfl := Option.some.inj hParse
    exact h

theorem queueInv_step (h : QueueInv s) {e : Event} (hStep : step s e = some s') : QueueInv s' := by
  cases e with
  | send text initOK threadOK =>
    obtain rfl := Option.some.inj hStep
    exact queueInv_sendHttpMessage h text initOK threadOK
  | close =>
    obtain rfl := Option.some.inj hStep
    exact queueInv_close h
  | thread i => exact queueInv_threadStep h hStep
  | fault i faultCodes =>
    simp only [step] at hStep
    split at hStep
    · obtain ⟨result, hParse, rfl⟩ := Option.map_eq_some_iff.mp hStep
      exact queueInv_parseFault h hParse
    · cases hStep

end Steps

section Release

variable {s s' : Client}

theorem sessionHandle_sendHttpMessage {text : Text} {initOK threadOK : Bool} {session : Nat}
    (h : s.sessionHandle = some session) :
    (sendHttpMessage text initOK threadOK s).2.sessionHandle = some session := by
  have hInit : initHttpSession initOK s = s := by rw [initHttpSession, h]
  rw [sendHttpMessage, hInit]
  simp only [accept]
  repeat' split
  all_goals exact h

/-- Only a close with nothing in hand, and the end of the last round, release the handle. -/
theorem releasedIdle (h : QueueInv s) (e : Event) : ReleasedIdle s e := by
  intro s' hStep session hSession hReleased
  have hAfter := queueInv_step h hStep
  have hIdle {s : Client} (hIdle : Idle s) : Place.performing ∉ s.threads := by
    rw [hIdle.threads]
    exact List.not_mem_nil
  cases e with
  | send text initOK threadOK =>
    obtain rfl := Option.some.inj hStep
    exact absurd (sessionHandle_sendHttpMessage hSession) hReleased
  | close =>
    obtain rfl := Option.some.inj hStep
    obtain hNow | ⟨place, message, session', hBusy⟩ := h.shape
    · exact ⟨hIdle hNow, fun hMem => hIdle hNow hMem⟩
    · refine absurd ?_ hReleased
      simpa [close, closeHttpSession, hBusy.message] using hSession
  | thread i =>
    obtain ⟨rfl, place, message, session', hBusy⟩ := threadStep_zero h hStep
    have hStep : threadStep 0 s = some s' := hStep
    have hPlace : s.threads[0]? = some place := by rw [hBusy.threads, List.getElem?_cons_zero]
    rw [threadStep, hPlace] at hStep
    cases place with
    | starting =>
      obtain rfl := Option.some.inj hStep
      rw [beginRound, if_pos (by simp [hBusy.message])] at hReleased
      exact absurd hSession hReleased
    | prepared | performing =>
      obtain rfl := Option.some.inj hStep
      exact absurd hSession hReleased
    | performed =>
      refine ⟨by simp [hBusy.threads], ?_⟩
      obtain hNow | ⟨place, message', session', hLater⟩ := hAfter.shape
      · exact hIdle hNow
      · obtain rfl := Option.some.inj hStep
        rw [beginRound] at hReleased
        split at hReleased
        · exact absurd hSession hReleased
        · rename_i hNone
          rw [beginRound, if_neg hNone] at hLater
          have hThreads := hLater.threads
          dsimp only at hThreads
          split at hThreads <;> simp [closeHttpSession, hBusy.threads] at hThreads
  | fault i faultCodes =>
    simp only [step] at hStep
    split at hStep
    · obtain ⟨result, hParse, rfl⟩ := Option.map_eq_some_iff.mp hStep
      rw [parseFault, retryRequest] at hParse
      split at hParse
      · split at hParse
        · obtain rfl := Option.some.inj hParse
          exact absurd hSession hReleased
        split at hParse
        · obtain rfl := Option.some.inj hParse
          exact absurd (sessionHandle_sendHttpMessage hSession) hReleased
        · cases hParse
      · obtain rfl := Option.some.inj hParse
        exact absurd hSession hReleased
    · cases hStep

end Release

section Draining

variable {s : Client}

/-- The messages in hand, each with the steps that the thread still needs for it. -/
def remaining (s : Client) : Nat :=
  (match s.threads.head? with
    | none => 0
    | some .starting => 4
    | some .prepared => 3
    | some .performing => 2
    | some .performed => 1) + 3 * s.pendingHttpMessages.length

/-- A step of the thread takes it on, and nothing more is accepted or discarded by it. -/
theorem threadStep_progress (h : QueueInv s) (hSome : s.threads ≠ []) :
    ∃ s', threadStep 0 s = some s' ∧ remaining s' < remaining s ∧ s'.accepted = s.accepted ∧
      s'.discarded = s.discarded := by
  obtain hIdle | ⟨place, message, session, hBusy⟩ := h.shape
  · exact absurd hIdle.threads hSome
  have hPlace : s.threads[0]? = some place := by rw [hBusy.threads, List.getElem?_cons_zero]
  rw [threadStep, hPlace]
  cases place with
  | starting =>
    refine ⟨_, rfl, ?_, ?_⟩ <;> simp [beginRound, remaining, hBusy.threads, hBusy.message]
  | prepared | performing => exact ⟨_, rfl, by simp [remaining, hBusy.threads], rfl, rfl⟩
  | performed =>
    refine ⟨_, rfl, ?_⟩
    cases hPending : s.pendingHttpMessages with
    | nil =>
      rw [beginRound, if_neg (by simp)]
      split <;> simp [closeHttpSession, remaining, hBusy.threads, hPending]
    | cons next rest =>
      rw [beginRound, if_pos (by simp)]
      refine ⟨?_, rfl, rfl⟩
      simp [remaining, hBusy.threads, hPending]
      omega

/-- Left to itself, the thread comes to its end with every message that waits. -/
theorem exists_drained (h : QueueInv s) :
    ∃ steps s', exec step s (List.replicate steps (.thread 0)) = some s' ∧ s'.threads = [] ∧
      s'.accepted = s.accepted ∧ s'.discarded = s.discarded := by
  induction hRemaining : remaining s using Nat.strong_induction_on generalizing s with
  | _ n ih =>
    by_cases hSome : s.threads = []
    · exact ⟨0, s, rfl, hSome, rfl, rfl⟩
    · obtain ⟨next, hStep, hLess, hAccepted, hDiscarded⟩ := threadStep_progress h hSome
      obtain ⟨steps, s', hExec, hEnd, hAccepted', hDiscarded'⟩ :=
        ih _ (hRemaining ▸ hLess) (queueInv_threadStep h hStep) rfl
      refine ⟨steps + 1, s', ?_, hEnd, hAccepted'.trans hAccepted, hDiscarded'.trans hDiscarded⟩
      rw [List.replicate_succ, exec]
      exact (congrArg (Option.bind · _) hStep).trans hExec

theorem QueueInv.transmitted_of_drained (h : QueueInv s) (hEnd : s.threads = []) :
    ∀ message ∈ s.accepted, message ∈ s.transmitted.map Prod.fst ∨ message ∈ s.discarded := by
  intro message hMem
  obtain hSent | hWait | hGone := h.traced.kept message hMem
  · exact .inl hSent
  · obtain hIdle | ⟨place, other, session, hBusy⟩ := h.shape
    · rw [waiting_of_idle hIdle.message hIdle.pending] at hWait
      cases hWait
    · rw [hBusy.threads] at hEnd
      cases hEnd
  · exact .inr hGone

end Draining

section Reports

variable (s : Client)

theorem accepted_initHttpSession (initOK : Bool) : (initHttpSession initOK s).accepted = s.accepted := by
  rw [initHttpSession]
  split
  · rfl
  · split
    · rfl
    · rfl

theorem reported (text : Text) (initOK threadOK : Bool) : Reported s text initOK threadOK := by
  rw [Reported, sendHttpMessage]
  split
  · exact (List.append_nil _).symm
  split
  · rfl
  dsimp only
  split
  · exact (accepted_initHttpSession s initOK).trans (List.append_nil _).symm
  split
  · simp only [accept, accepted_initHttpSession, if_true]
  · exact (accepted_initHttpSession s initOK).trans (List.append_nil _).symm

theorem accepted_beginRound (i : Nat) : (beginRound i s).accepted = s.accepted := by
  rw [beginRound]
  split
  · rfl
  · dsimp only
    split
    · rfl
    · rfl

theorem acceptsReported (e : Event) : AcceptsReported s e := by
  cases e with
  | send text initOK threadOK => exact reported s text initOK threadOK
  | fault i faultCodes => exact fun text _ => reported s text true true
  | close => rfl
  | thread i =>
    intro s' hStep
    rw [threadStep] at hStep
    split at hStep
    · cases hStep
    · obtain rfl := Option.some.inj hStep
      exact accepted_beginRound s i
    · obtain rfl := Option.some.inj hStep
      rfl
    · obtain rfl := Option.some.inj hStep
      rfl
    · obtain rfl := Option.some.inj hStep
      exact accepted_beginRound _ i

end Reports

end Tr069Agent.Com.HttpClient
