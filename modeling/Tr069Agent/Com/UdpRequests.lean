import Tr069Agent.Com.StunSignature

/-! # The UDP connection requests that are honoured

The thread remembers the timestamp and the identifier of the last request it considered. The timestamp is
compared first, and only an older one is refused, so the identifier alone tells requests with one timestamp
apart.
-/

namespace Tr069Agent.Com.Stun

open Library Library.Transition

set_option autoImplicit false

/-- What a request is told apart by. -/
structure RequestKey where
  timeStamp : Nat
  messageId : Nat
  deriving DecidableEq

/-- The thread with the two variables of the loop, and what happened so far: the requests that were read
and those for which `DM_ENG_RequestConnection` was called. -/
structure Listener where
  thread : RequestKey
  locals : RequestKey
  read : List RequestKey
  requested : List RequestKey
  deriving DecidableEq

def Listener.init : Listener where
  thread := ⟨0, 0⟩
  locals := ⟨0, 0⟩
  read := []
  requested := []

/-- A round of the loop of `DM_STUN_readManagement`, the first one of a call or a further one, with what it
finds: the text received, the former contents of the stack and whether too many connections came. -/
structure Round where
  first : Bool
  received : Option Text
  username : Text
  cnonce : Text
  signature : Text
  maxConnectionReached : Bool
  deriving DecidableEq

def Round.buffers (round : Round) (s : Listener) : UdpBuffers where
  timeStamp := if round.first then 0 else s.locals.timeStamp
  messageId := if round.first then 0 else s.locals.messageId
  username := round.username
  cnonce := round.cnonce
  signature := round.signature

def UdpBuffers.key (buffers : UdpBuffers) : RequestKey := ⟨buffers.timeStamp, buffers.messageId⟩

/-- The case `UDP_REQUEST` of `DM_STUN_readManagement`. -/
def udpRequestRead (key : RequestKey) (maxConnectionReached : Bool) (s : Listener) : Listener :=
  let s := { s with read := key :: s.read }
  if key.timeStamp ≥ s.thread.timeStamp then
    let s := { s with thread.timeStamp := key.timeStamp }
    if s.thread.messageId ≠ key.messageId then
      let s := { s with thread.messageId := key.messageId }
      if maxConnectionReached then s else { s with requested := key :: s.requested }
    else s
  else s

section Requests

variable (hmacSha1 : Text → Text → Digest) (parseAttributes : Text → Option StunMessage) (config : Configuration)

def step (s : Listener) (round : Round) : Option Listener :=
  (readMessage hmacSha1 parseAttributes config round.received (round.buffers s)).map fun (type, after) =>
    let s := { s with locals := after.key }
    if type = .udpRequest then udpRequestRead after.key round.maxConnectionReached s else s

/-- The requests for which the engine is called are different. -/
def RequestedOnce (s : Listener) : Prop := s.requested.Nodup

/-- A request that was read before, with the timestamp of the last one, has also its identifier. -/
def NotOvertaken (s : Listener) (round : Round) : Prop :=
  ∀ result ∈ readMessage hmacSha1 parseAttributes config round.received (round.buffers s),
    result.1 = .udpRequest → result.2.key ∈ s.read →
      result.2.timeStamp = s.thread.timeStamp → result.2.messageId = s.thread.messageId

/-- The requests were read, none with a timestamp behind the last one. -/
structure ListenerInv (s : Listener) : Prop where
  once : RequestedOnce s
  read : ∀ key ∈ s.requested, key ∈ s.read
  newest : ∀ key ∈ s.requested, key.timeStamp ≤ s.thread.timeStamp

section Steps

variable {s : Listener} {key : RequestKey}

theorem listenerInv_udpRequestRead (h : ListenerInv s) (maxConnectionReached : Bool)
    (hNew : key ∈ s.read → key.timeStamp = s.thread.timeStamp → key.messageId = s.thread.messageId) :
    ListenerInv (udpRequestRead key maxConnectionReached s) := by
  have hRead : ∀ old ∈ s.requested, old ∈ key :: s.read := fun old hOld => List.mem_cons_of_mem _ (h.read old hOld)
  unfold udpRequestRead
  by_cases hLater : key.timeStamp ≥ s.thread.timeStamp
  · have hNewest : ∀ old ∈ s.requested, old.timeStamp ≤ key.timeStamp := fun old hOld =>
      (h.newest old hOld).trans hLater
    simp only [ge_iff_le, if_pos hLater]
    split
    · rename_i hOther
      split
      · exact ⟨h.once, hRead, hNewest⟩
      · refine ⟨List.nodup_cons.mpr ⟨fun hOld => ?_, h.once⟩, ?_, ?_⟩
        · have hSame : key.timeStamp = s.thread.timeStamp := by
            have := h.newest key hOld
            omega
          exact hOther (hNew (h.read key hOld) hSame).symm
        · rintro old hOld
          obtain rfl | hOld := List.mem_cons.mp hOld
          · exact List.mem_cons_self
          · exact hRead old hOld
        · rintro old hOld
          obtain rfl | hOld := List.mem_cons.mp hOld
          · exact le_rfl
          · exact hNewest old hOld
    · exact ⟨h.once, hRead, hNewest⟩
  · simp only [ge_iff_le, if_neg hLater]
    exact ⟨h.once, hRead, h.newest⟩

variable {hmacSha1 parseAttributes config}

theorem listenerInv_step {s' : Listener} {round : Round} (h : ListenerInv s)
    (hGuard : NotOvertaken hmacSha1 parseAttributes config s round)
    (hStep : step hmacSha1 parseAttributes config s round = some s') : ListenerInv s' := by
  obtain ⟨⟨type, after⟩, hResult, rfl⟩ := Option.map_eq_some_iff.mp hStep
  have hInv : ListenerInv { s with locals := after.key } := ⟨h.once, h.read, h.newest⟩
  by_cases hType : type = .udpRequest
  · simp only [if_pos hType]
    exact listenerInv_udpRequestRead hInv _ (hGuard _ hResult hType)
  · simp only [if_neg hType]
    exact hInv

end Steps

end Requests

/-- In a run in which no request is overtaken by another one with the same timestamp and then repeated, the
engine is called at most once for each request. -/
theorem requested_once (hmacSha1 : Text → Text → Digest) (parseAttributes : Text → Option StunMessage)
    (config : Configuration) (rounds : List Round)
    (hGuard : Along (step hmacSha1 parseAttributes config) (NotOvertaken hmacSha1 parseAttributes config)
      Listener.init rounds) :
    Throughout (step hmacSha1 parseAttributes config) RequestedOnce Listener.init rounds := by
  have hInit : ListenerInv Listener.init := ⟨List.nodup_nil, by simp [Listener.init], by simp [Listener.init]⟩
  exact (throughout_of_along (fun _ _ _ h hGuard hStep => listenerInv_step h hGuard hStep) hInit hGuard).mono
    fun _ h => h.once

section Samples

instance (hmacSha1 : Text → Text → Digest) (parseAttributes : Text → Option StunMessage) (config : Configuration)
    (s : Listener) (round : Round) : Decidable (NotOvertaken hmacSha1 parseAttributes config s round) :=
  inferInstanceAs (Decidable (∀ result ∈ readMessage hmacSha1 parseAttributes config round.received (round.buffers s),
    result.1 = .udpRequest → result.2.key ∈ s.read →
      result.2.timeStamp = s.thread.timeStamp → result.2.messageId = s.thread.messageId))

instance (s : Listener) : Decidable (RequestedOnce s) := inferInstanceAs (Decidable s.requested.Nodup)

def sampleRound (received : String) : Round where
  first := false
  received := some received.toList
  username := []
  cnonce := []
  signature := []
  maxConnectionReached := false

def firstRequest : Round :=
  sampleRound "GET ?ts=1&id=1&un=openstb&cn=7&sig=1CD56FB1043E62801865FEE64E1FF3B17E862137 HTTP/1.1"

def secondRequest : Round :=
  sampleRound "GET ?ts=1&id=2&un=openstb&cn=7&sig=C4EC5EEBE4DA89602AEC21E49E7EF803AD6C47A7 HTTP/1.1"

theorem requested_once_repeated :
    Throughout (step sampleHmac (fun _ => none) sampleConfig) RequestedOnce Listener.init
      [firstRequest, firstRequest, secondRequest] :=
  requested_once sampleHmac _ sampleConfig _ (by decide +kernel)

/-- The first request is honoured again after the second one, which has the same timestamp. -/
theorem requested_twice :
    ¬ Throughout (step sampleHmac (fun _ => none) sampleConfig) RequestedOnce Listener.init
      [firstRequest, secondRequest, firstRequest] := by
  decide +kernel

end Samples

end Tr069Agent.Com.Stun
