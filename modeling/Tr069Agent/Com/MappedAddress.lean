import Tr069Agent.Com.UdpRequests

/-! # The address that is published

Answers of the STUN server tell the address under which the client is seen. The address received is a
variable of one call of the reading function, and the one recorded and published is a field of the thread.
-/

namespace Tr069Agent.Com.Stun

open Library Library.Decimal Library.Transition

set_option autoImplicit false

/-- An IPv4 address, byte by byte as it is sent. -/
structure Ipv4 where
  a : UInt8
  b : UInt8
  c : UInt8
  d : UInt8
  deriving DecidableEq

def Ipv4.unknown : Ipv4 := ⟨0, 0, 0, 0⟩

/-- `inet_ntoa` -/
def inetNtoa (addr : Ipv4) : Text :=
  showInt addr.a.toNat ++ ".".toList ++ showInt addr.b.toNat ++ ".".toList ++ showInt addr.c.toNat ++ ".".toList ++
    showInt addr.d.toNat

structure MappedAddress where
  addr : Ipv4
  port : UInt16
  deriving DecidableEq

/-- The text of `UDPConnectionRequestAddress`. -/
def addressText (addr : Ipv4) (port : UInt16) : Text := inetNtoa addr ++ ":".toList ++ showInt port.toNat

inductive WanIpNotification where
  | notNotified
  | notified
  | validated
  deriving DecidableEq

/-- The fields of the thread about its addresses, with the two parameters that it publishes and the last mapped
address that came. -/
structure Addresses where
  stunClientPort : UInt16
  lanIp : Ipv4
  wanIp : Ipv4
  natDetected : Bool
  bCanNotificateWanIP : Bool
  bThrirdThreadLaunched : Bool
  udpConnectionRequestAddress : Text
  natDetectedValue : Bool
  lastMapped : Option MappedAddress

/-- The thread with the variables of the call of `DM_STUN_readManagement` that is running, and how many changes
it has sent. -/
structure StunThread extends Addresses where
  listener : Listener
  natReceivedPort : UInt16
  stunWanIpNotification : WanIpNotification
  lastStunMessageReceivedType : MessageType
  wanIpReceived : Ipv4
  natPortReceived : UInt16
  alreadyReceived : Bool
  timeoutReached : Bool
  bindingChanges : Nat

/-- The thread when it has published its first values. -/
def StunThread.start (lanIp : Ipv4) (stunClientPort : UInt16) : StunThread where
  stunClientPort
  lanIp
  wanIp := .unknown
  natDetected := false
  bCanNotificateWanIP := true
  bThrirdThreadLaunched := false
  udpConnectionRequestAddress := addressText .unknown stunClientPort
  natDetectedValue := false
  lastMapped := none
  listener := Listener.init
  natReceivedPort := 0
  stunWanIpNotification := .notNotified
  lastStunMessageReceivedType := .messageUnknown
  wanIpReceived := .unknown
  natPortReceived := 0
  alreadyReceived := false
  timeoutReached := false
  bindingChanges := 0

/-- A call begins, after the thread has read the LAN address and found STUN enabled anew or not, or a round
of it ends. -/
inductive StunEvent where
  | call (enabled : Bool) (lanIp : Ipv4)
  | read (received : Option Text) (username cnonce signature : Text) (maxConnectionReached engineAnswers : Bool)

section Reading

variable (hmacSha1 : Text → Text → Digest) (parseAttributes : Text → Option StunMessage)
  (mappedAddress : Text → MappedAddress) (asserts : Bool) (config : Configuration)

/-- `DM_STUN_readMessage` with the address it stores. The assertion ends the process where traces are built
in, and is empty elsewhere. -/
def readMapped (received : Option Text) (buffers : UdpBuffers) :
    Option (MessageType × UdpBuffers × Option MappedAddress) :=
  match received with
  | none => some (.none, buffers, none)
  | some datagram =>
    if datagram = [] ∨ datagram.length + 1 ≥ stunMaxMessageSize then some (.messageUnknown, buffers, none)
    else
      match stunParseMessage parseAttributes datagram with
      | some answer =>
        let type := (answerType answer).or (if asserts then none else some .messageUnknown)
        type.map fun type =>
          (type, buffers, if answer.hasMappedAddress then some (mappedAddress datagram) else none)
      | none => (readRequest hmacSha1 config datagram buffers).map fun (type, after) => (type, after, none)

/-- The fields that `DM_STUN_initValues` sets and the variables of a call. -/
def beginCall (enabled : Bool) (lanIp : Ipv4) (s : StunThread) : StunThread :=
  let s := { s with lanIp, listener.locals := ⟨0, 0⟩, wanIpReceived := .unknown, natPortReceived := 0
                    alreadyReceived := false, timeoutReached := false }
  if enabled then
    { s with natReceivedPort := 0, lastStunMessageReceivedType := .messageUnknown, natDetected := false
             stunWanIpNotification := .notNotified }
  else s

def storeMapped (mapped : Option MappedAddress) (s : StunThread) : StunThread :=
  match mapped with
  | none => s
  | some mapped => { s with wanIpReceived := mapped.addr, natPortReceived := mapped.port, lastMapped := some mapped }

/-- The address received is recorded, published where this is allowed, and the change is sent. -/
def recordWanIp (type : MessageType) (s : StunThread) : StunThread :=
  { s with wanIp := s.wanIpReceived, natReceivedPort := s.natPortReceived
           udpConnectionRequestAddress :=
             if s.bCanNotificateWanIP then addressText s.wanIpReceived s.stunClientPort
             else s.udpConnectionRequestAddress
           bindingChanges := s.bindingChanges + 1
           stunWanIpNotification :=
             if type = .bindingResponse then .notified
             else if type = .msgIntegrityResponse then .validated
             else s.stunWanIpNotification }

/-- The detection of a NAT; the flag changes only together with its parameter. -/
def detectNat (natDetected : Bool) (s : StunThread) : StunThread :=
  if s.bCanNotificateWanIP && s.natDetected != natDetected then { s with natDetected, natDetectedValue := natDetected }
  else s

/-- What is done with an address that is not the recorded one. -/
def newWanIp (type : MessageType) (s : StunThread) : StunThread :=
  detectNat (s.wanIpReceived ≠ s.lanIp) (recordWanIp type s)

/-- The end of a round; behind the loop the same is done once more. -/
def saveType (type : MessageType) (s : StunThread) : StunThread :=
  { s with lastStunMessageReceivedType :=
            if s.alreadyReceived ∨ (s.timeoutReached = true ∧ s.lastStunMessageReceivedType = .bindingErrorResponse)
            then s.lastStunMessageReceivedType
            else type }

/-- The `switch` of `DM_STUN_readManagement`. -/
def manage (type : MessageType) (key : RequestKey) (maxConnectionReached engineAnswers : Bool) (s : StunThread) :
    StunThread :=
  match type with
  | .none => saveType type { s with timeoutReached := true }
  | .messageUnknown => saveType type s
  | .udpRequest =>
    let listener := udpRequestRead key maxConnectionReached s.listener
    let requested : Bool := listener.requested ≠ s.listener.requested
    saveType type { s with listener, alreadyReceived := s.alreadyReceived || (requested && engineAnswers) }
  | _ =>
    if s.bThrirdThreadLaunched = true ∧ s.wanIp ≠ s.wanIpReceived then
      { s with lastStunMessageReceivedType := .bindingResponse }
    else if s.wanIp ≠ s.wanIpReceived then saveType type (newWanIp type s)
    else saveType type s

def stunStep (s : StunThread) : StunEvent → Option StunThread
  | .call enabled lanIp => some (beginCall enabled lanIp s)
  | .read received username cnonce signature maxConnectionReached engineAnswers =>
    let buffers : UdpBuffers := ⟨s.listener.locals.timeStamp, s.listener.locals.messageId, username, cnonce, signature⟩
    (readMapped hmacSha1 parseAttributes mappedAddress asserts config received buffers).map
      fun (type, after, mapped) =>
        manage type after.key maxConnectionReached engineAnswers
          (storeMapped mapped { s with listener.locals := after.key })

end Reading

section Following

/-- The address of the last message that carried one, and the first one that was published before. -/
def Addresses.followed (a : Addresses) : MappedAddress := a.lastMapped.getD ⟨.unknown, a.stunClientPort⟩

/-- What is recorded and published is the address of the last message that carried one. -/
structure FollowsMapped (a : Addresses) : Prop where
  recorded : a.wanIp = a.followed.addr
  published : a.udpConnectionRequestAddress = addressText a.followed.addr a.followed.port
  natPublished : a.natDetectedValue = a.natDetected
  nat : a.lastMapped ≠ none → (a.natDetected = true ↔ a.followed.addr ≠ a.lanIp)

/-- The types of the default case. -/
def MessageType.isAnswer : MessageType → Bool
  | .none | .messageUnknown | .udpRequest => false
  | _ => true

/-- The recorded address is replaced, and published with the port of the client. -/
def Addresses.moved (addr : Ipv4) (a : Addresses) : Addresses :=
  { a with wanIp := addr, udpConnectionRequestAddress := addressText addr a.stunClientPort
           natDetected := addr ≠ a.lanIp, natDetectedValue := addr ≠ a.lanIp }

/-- What a message does with the addresses, when the call had received an address before or none. -/
def Addresses.receive (type : MessageType) (wanIpReceived : Ipv4) (mapped : Option MappedAddress) (a : Addresses) :
    Addresses :=
  let addr := (mapped.map MappedAddress.addr).getD wanIpReceived
  let a := { a with lastMapped := mapped.or a.lastMapped }
  if type.isAnswer = true ∧ a.wanIp ≠ addr then a.moved addr else a

/-- The invariant of the runs in which the publication follows. -/
structure FollowInv (a : Addresses) : Prop extends FollowsMapped a where
  port : a.followed.port = a.stunClientPort
  allowed : a.bCanNotificateWanIP = true
  alone : a.bThrirdThreadLaunched = false
  undetected : a.lastMapped = none → a.natDetected = false

/-- A message without an address is no answer, or the call has received the recorded address before; one with
an address has the port of the client, it is an answer where the address is new, and the first address is new
or that of the LAN. -/
def CarriesOn (type : MessageType) (wanIpReceived : Ipv4) (mapped : Option MappedAddress) (a : Addresses) : Prop :=
  match mapped with
  | none => type.isAnswer = true → a.wanIp = wanIpReceived
  | some mapped => mapped.port = a.stunClientPort ∧ (type.isAnswer = false → a.wanIp = mapped.addr) ∧
      (a.lastMapped = none → a.wanIp = mapped.addr → mapped.addr = a.lanIp)

theorem addressText_inj {addr : Ipv4} {port port' : UInt16} :
    addressText addr port = addressText addr port' ↔ port = port' := by
  constructor
  · intro h
    have hShown : showInt port.toNat = showInt port'.toNat := by simpa [addressText] using h
    have hNat := congrArg atol hShown
    rw [atol_showInt, atol_showInt] at hNat
    exact UInt16.toNat_inj.mp (by exact_mod_cast hNat)
  · rintro rfl
    rfl

variable {a : Addresses} {type : MessageType} {wanIpReceived : Ipv4}

theorem followsMapped_moved_iff {mapped : MappedAddress} :
    FollowsMapped ({ a with lastMapped := some mapped }.moved mapped.addr) ↔ mapped.port = a.stunClientPort := by
  constructor
  · intro h
    exact (addressText_inj.mp h.published).symm
  · intro hPort
    refine ⟨rfl, ?_, rfl, fun _ => ?_⟩
    · exact addressText_inj.mpr hPort.symm
    · exact decide_eq_true_iff

/-- An address that is the recorded one is not published anew. -/
theorem FollowInv.followsMapped_iff (h : FollowInv a) {mapped : MappedAddress} (hSame : a.wanIp = mapped.addr) :
    FollowsMapped { a with lastMapped := some mapped } ↔
      mapped.port = a.stunClientPort ∧ (a.lastMapped = none → mapped.addr = a.lanIp) := by
  have hAddr : a.followed.addr = mapped.addr := h.recorded.symm.trans hSame
  have hText : a.udpConnectionRequestAddress = addressText mapped.addr a.stunClientPort := by
    rw [h.published, hAddr, h.port]
  constructor
  · intro hFollows
    have hPublished : a.udpConnectionRequestAddress = addressText mapped.addr mapped.port := hFollows.published
    refine ⟨addressText_inj.mp (hPublished.symm.trans hText), fun hNone => ?_⟩
    have hNat : a.natDetected = true ↔ mapped.addr ≠ a.lanIp := hFollows.nat (by simp)
    rw [h.undetected hNone] at hNat
    exact not_not.mp fun hOther => Bool.false_ne_true (hNat.mpr hOther)
  · rintro ⟨hPort, hLan⟩
    refine ⟨hSame, ?_, h.natPublished, fun _ => ?_⟩
    · exact hText.trans (addressText_inj.mpr hPort.symm)
    · change a.natDetected = true ↔ mapped.addr ≠ a.lanIp
      by_cases hNone : a.lastMapped = none
      · simp [h.undetected hNone, hLan hNone]
      · rw [← hAddr]
        exact h.nat hNone

theorem FollowInv.receive_iff (h : FollowInv a) (mapped : Option MappedAddress) :
    FollowsMapped (a.receive type wanIpReceived mapped) ↔ CarriesOn type wanIpReceived mapped a := by
  cases mapped with
  | none =>
    have hReceive : a.receive type wanIpReceived none =
        if type.isAnswer = true ∧ a.wanIp ≠ wanIpReceived then a.moved wanIpReceived else a := rfl
    rw [hReceive]
    split
    · rename_i hMoved
      refine iff_of_false (fun hFollows => ?_) fun hCarries => hMoved.2 (hCarries hMoved.1)
      have hRecorded : wanIpReceived = a.followed.addr := hFollows.recorded
      exact hMoved.2 (h.recorded.trans hRecorded.symm)
    · rename_i hStays
      exact iff_of_true h.toFollowsMapped fun hAnswer => not_not.mp fun hOther => hStays ⟨hAnswer, hOther⟩
  | some mapped =>
    have hReceive : a.receive type wanIpReceived (some mapped) =
        if type.isAnswer = true ∧ a.wanIp ≠ mapped.addr then
          { a with lastMapped := some mapped }.moved mapped.addr
        else { a with lastMapped := some mapped } := rfl
    rw [hReceive, CarriesOn]
    by_cases hSame : a.wanIp = mapped.addr
    · rw [if_neg (fun hMoved => hMoved.2 hSame), h.followsMapped_iff hSame]
      simp [hSame]
    · cases hAnswer : type.isAnswer with
      | true =>
        rw [if_pos ⟨rfl, hSame⟩, followsMapped_moved_iff]
        simp [hSame]
      | false =>
        refine iff_of_false (fun hFollows => ?_) fun hCarries => hSame (hCarries.2.1 rfl)
        exact hSame hFollows.recorded

/-- What the two branches of a message with an address have in common. -/
theorem exists_receive_some (a : Addresses) (mapped : MappedAddress) :
    ∃ wanIp text nat value, a.receive type wanIpReceived (some mapped) =
      { a with lastMapped := some mapped, wanIp, udpConnectionRequestAddress := text, natDetected := nat
               natDetectedValue := value } := by
  have hReceive : a.receive type wanIpReceived (some mapped) =
      if type.isAnswer = true ∧ a.wanIp ≠ mapped.addr then { a with lastMapped := some mapped }.moved mapped.addr
      else { a with lastMapped := some mapped } := rfl
  rw [hReceive]
  split
  · exact ⟨_, _, _, _, rfl⟩
  · exact ⟨_, _, _, _, rfl⟩

theorem FollowInv.receive (h : FollowInv a) {mapped : Option MappedAddress}
    (hCarries : CarriesOn type wanIpReceived mapped a) : FollowInv (a.receive type wanIpReceived mapped) := by
  have hFollows := (h.receive_iff mapped).mpr hCarries
  cases mapped with
  | none =>
    have hStays : a.receive type wanIpReceived none = a := if_neg fun hMoved => hMoved.2 (hCarries hMoved.1)
    rw [hStays]
    exact h
  | some mapped =>
    obtain ⟨wanIp, text, nat, value, hReceive⟩ := exists_receive_some a mapped
    rw [hReceive] at hFollows ⊢
    exact ⟨hFollows, hCarries.1, h.allowed, h.alone, nofun⟩

end Following

section Runs

variable {s : StunThread} {type : MessageType}

/-- The flag is published whenever it changes, so that both values are the new one. -/
theorem toAddresses_newWanIp (hAllowed : s.bCanNotificateWanIP = true) (hValue : s.natDetectedValue = s.natDetected) :
    (newWanIp type s).toAddresses = s.toAddresses.moved s.wanIpReceived := by
  rw [newWanIp, Addresses.moved]
  generalize decide (s.wanIpReceived ≠ s.lanIp) = natDetected
  by_cases hNat : s.natDetected = natDetected
  · simp [detectNat, recordWanIp, hAllowed, hNat, hValue]
  · simp [detectNat, recordWanIp, hAllowed, hNat]

theorem toAddresses_manage (hAllowed : s.bCanNotificateWanIP = true) (hAlone : s.bThrirdThreadLaunched = false)
    (hValue : s.natDetectedValue = s.natDetected) (key : RequestKey) (maxConnectionReached engineAnswers : Bool) :
    (manage type key maxConnectionReached engineAnswers s).toAddresses =
      if type.isAnswer = true ∧ s.wanIp ≠ s.wanIpReceived then s.toAddresses.moved s.wanIpReceived
      else s.toAddresses := by
  have hAnswer : (if s.bThrirdThreadLaunched = true ∧ s.wanIp ≠ s.wanIpReceived then
        { s with lastStunMessageReceivedType := .bindingResponse }
      else if s.wanIp ≠ s.wanIpReceived then saveType type (newWanIp type s) else saveType type s).toAddresses =
      if s.wanIp ≠ s.wanIpReceived then s.toAddresses.moved s.wanIpReceived else s.toAddresses := by
    rw [if_neg (by simp [hAlone])]
    split
    · exact toAddresses_newWanIp hAllowed hValue
    · rfl
  cases type with
  | none | messageUnknown | udpRequest => rfl
  | bindingResponse | timeoutResponse | msgIntegrityResponse | bindingErrorResponse =>
    exact hAnswer.trans (if_congr (by simp [MessageType.isAnswer]) rfl rfl)

/-- The result of the reading function in a round. -/
def StunThread.reading (hmacSha1 : Text → Text → Digest) (parseAttributes : Text → Option StunMessage)
    (mappedAddress : Text → MappedAddress) (asserts : Bool) (config : Configuration) (received : Option Text)
    (username cnonce signature : Text) (s : StunThread) : Option (MessageType × UdpBuffers × Option MappedAddress) :=
  readMapped hmacSha1 parseAttributes mappedAddress asserts config received
    ⟨s.listener.locals.timeStamp, s.listener.locals.messageId, username, cnonce, signature⟩

/-- The condition on a step: where a call begins, STUN is enabled anew only while no NAT is detected, and the
LAN address is the recorded one as before or is not; a message carries on. -/
def KeepsFollowing (hmacSha1 : Text → Text → Digest) (parseAttributes : Text → Option StunMessage)
    (mappedAddress : Text → MappedAddress) (asserts : Bool) (config : Configuration) (s : StunThread) :
    StunEvent → Prop
  | .call enabled lanIp =>
    (enabled = true → s.natDetected = false) ∧ (s.lastMapped ≠ none → (s.wanIp = lanIp ↔ s.wanIp = s.lanIp))
  | .read received username cnonce signature _ _ =>
    ∀ result ∈ s.reading hmacSha1 parseAttributes mappedAddress asserts config received username cnonce signature,
      CarriesOn result.1 s.wanIpReceived result.2.2 s.toAddresses

/-- A round does with the addresses what the message tells. -/
theorem toAddresses_round (h : FollowInv s.toAddresses) (mapped : Option MappedAddress) (key : RequestKey)
    (maxConnectionReached engineAnswers : Bool) :
    (manage type key maxConnectionReached engineAnswers
        (storeMapped mapped { s with listener.locals := key })).toAddresses =
      s.toAddresses.receive type s.wanIpReceived mapped := by
  cases mapped with
  | none =>
    exact @toAddresses_manage { s with listener.locals := key } type h.allowed h.alone h.natPublished key
      maxConnectionReached engineAnswers
  | some mapped =>
    exact @toAddresses_manage (storeMapped (some mapped) { s with listener.locals := key }) type h.allowed h.alone
      h.natPublished key maxConnectionReached engineAnswers

theorem toAddresses_beginCall {enabled : Bool} (lanIp : Ipv4) (hEnabled : enabled = true → s.natDetected = false) :
    (beginCall enabled lanIp s).toAddresses = { s.toAddresses with lanIp } := by
  cases enabled with
  | false => rfl
  | true => simp [beginCall, hEnabled rfl]

/-- With another LAN address the flag is right where the recorded address is the LAN address as before. -/
theorem FollowInv.followsMapped_lan_iff {a : Addresses} (h : FollowInv a) (lanIp : Ipv4) :
    FollowsMapped { a with lanIp } ↔ (a.lastMapped ≠ none → (a.wanIp = lanIp ↔ a.wanIp = a.lanIp)) := by
  constructor
  · intro hFollows hLast
    have hNow : a.natDetected = true ↔ a.followed.addr ≠ lanIp := hFollows.nat hLast
    rw [h.recorded]
    exact not_iff_not.mp (hNow.symm.trans (h.nat hLast))
  · intro hLan
    refine ⟨h.recorded, h.published, h.natPublished, fun hLast => ?_⟩
    have hSame := hLan hLast
    rw [h.recorded] at hSame
    exact (h.nat hLast).trans (not_congr hSame.symm)

theorem followInv_beginCall (h : FollowInv s.toAddresses) {enabled : Bool} {lanIp : Ipv4}
    (hEnabled : enabled = true → s.natDetected = false)
    (hLan : s.lastMapped ≠ none → (s.wanIp = lanIp ↔ s.wanIp = s.lanIp)) :
    FollowInv (beginCall enabled lanIp s).toAddresses := by
  rw [toAddresses_beginCall lanIp hEnabled]
  exact ⟨(h.followsMapped_lan_iff lanIp).mpr hLan, h.port, h.allowed, h.alone, h.undetected⟩

/-- Where the condition fails when a call begins, the flag is false but was published as true, or it tells of
the LAN address that was. -/
theorem not_followsMapped_beginCall (h : FollowInv s.toAddresses) {enabled : Bool} {lanIp : Ipv4}
    (hNot : ¬ ((enabled = true → s.natDetected = false) ∧
      (s.lastMapped ≠ none → (s.wanIp = lanIp ↔ s.wanIp = s.lanIp)))) :
    ¬ FollowsMapped (beginCall enabled lanIp s).toAddresses := by
  intro hFollows
  have hEnabled : enabled = true → s.natDetected = false := by
    rintro rfl
    have hValue : s.natDetectedValue = false := hFollows.natPublished
    exact h.natPublished.symm.trans hValue
  rw [toAddresses_beginCall lanIp hEnabled, h.followsMapped_lan_iff] at hFollows
  exact hNot ⟨hEnabled, hFollows⟩

variable {hmacSha1 : Text → Text → Digest} {parseAttributes : Text → Option StunMessage}
  {mappedAddress : Text → MappedAddress} {asserts : Bool} {config : Configuration}

theorem followInv_stunStep {s' : StunThread} {event : StunEvent} (h : FollowInv s.toAddresses)
    (hKeeps : KeepsFollowing hmacSha1 parseAttributes mappedAddress asserts config s event)
    (hStep : stunStep hmacSha1 parseAttributes mappedAddress asserts config s event = some s') :
    FollowInv s'.toAddresses := by
  cases event with
  | call enabled lanIp =>
    obtain rfl := Option.some.inj hStep
    exact followInv_beginCall h hKeeps.1 hKeeps.2
  | read received username cnonce signature maxConnectionReached engineAnswers =>
    obtain ⟨result, hResult, rfl⟩ := Option.map_eq_some_iff.mp hStep
    rw [toAddresses_round h]
    exact h.receive (hKeeps result hResult)

theorem exists_stunStep_breaks {event : StunEvent} (h : FollowInv s.toAddresses)
    (hNot : ¬ KeepsFollowing hmacSha1 parseAttributes mappedAddress asserts config s event) :
    ∃ s', stunStep hmacSha1 parseAttributes mappedAddress asserts config s event = some s' ∧
      ¬ FollowsMapped s'.toAddresses := by
  cases event with
  | call enabled lanIp => exact ⟨_, rfl, not_followsMapped_beginCall h hNot⟩
  | read received username cnonce signature maxConnectionReached engineAnswers =>
    simp only [KeepsFollowing, not_forall] at hNot
    obtain ⟨result, hResult, hBreaks⟩ := hNot
    refine ⟨_, Option.map_eq_some_iff.mpr ⟨result, hResult, rfl⟩, ?_⟩
    rw [toAddresses_round h, h.receive_iff]
    exact hBreaks

end Runs

/-- The published address follows the mapped one in every state of a run if and only if every step meets the
condition. -/
theorem address_follows_iff (hmacSha1 : Text → Text → Digest) (parseAttributes : Text → Option StunMessage)
    (mappedAddress : Text → MappedAddress) (asserts : Bool) (config : Configuration) (lanIp : Ipv4)
    (stunClientPort : UInt16) (events : List StunEvent) :
    Throughout (stunStep hmacSha1 parseAttributes mappedAddress asserts config)
        (fun s => FollowsMapped s.toAddresses) (StunThread.start lanIp stunClientPort) events ↔
      Along (stunStep hmacSha1 parseAttributes mappedAddress asserts config)
        (KeepsFollowing hmacSha1 parseAttributes mappedAddress asserts config)
        (StunThread.start lanIp stunClientPort) events := by
  have hStart : FollowInv (StunThread.start lanIp stunClientPort).toAddresses :=
    ⟨⟨rfl, rfl, rfl, fun hLast => absurd rfl hLast⟩, rfl, rfl, rfl, fun _ => rfl⟩
  refine @throughout_iff_along _ _ _ _ (fun s : StunThread => FollowInv s.toAddresses) _
    (fun _ h => FollowInv.toFollowsMapped h) ?_ ?_ _ _ hStart
  · exact fun s event s' h hKeeps hStep => followInv_stunStep h hKeeps hStep
  · exact fun s event h hNot => exists_stunStep_breaks h hNot

section Samples

/-- The bytes of a datagram. -/
def datagramOf (bytes : List Nat) : Text := bytes.map Char.ofNat

/-- A binding response that tells the mapped address 203.0.113.5 and a port. -/
def bindingResponseFrom (high low : Nat) : Text :=
  datagramOf ([1, 1, 0, 36] ++ List.replicate 16 7 ++ [0, 1, 0, 8, 0, 1, high, low, 203, 0, 113, 5] ++
    [0, 4, 0, 8, 0, 1, 13, 150, 198, 51, 100, 1] ++ [0, 5, 0, 8, 0, 1, 13, 151, 198, 51, 100, 2])

def bindingErrorResponse : Text :=
  datagramOf ([1, 17, 0, 8] ++ List.replicate 16 7 ++ [0, 9, 0, 4, 0, 0, 4, 31])

/-- The attributes of the two datagrams. -/
def sampleAttributes (datagram : Text) : Option StunMessage :=
  let response : Bool := datagram[1]? = some '\x01'
  some ⟨response, response, response, false, false, !response⟩

def sampleMapped (datagram : Text) : MappedAddress :=
  match (datagram.drop 26).map Char.toNat with
  | high :: low :: a :: b :: c :: d :: _ =>
    ⟨⟨.ofNat a, .ofNat b, .ofNat c, .ofNat d⟩, .ofNat (high * 2 ^ 8 + low)⟩
  | _ => ⟨.unknown, 0⟩

def lanAddress : Ipv4 := ⟨192, 168, 1, 10⟩

def plainRead (datagram : Text) : StunEvent := .read (some datagram) [] [] [] false false

instance (a : Addresses) : Decidable (FollowsMapped a) :=
  decidable_of_iff (a.wanIp = a.followed.addr ∧
      a.udpConnectionRequestAddress = addressText a.followed.addr a.followed.port ∧
      a.natDetectedValue = a.natDetected ∧
      (a.lastMapped ≠ none → (a.natDetected = true ↔ a.followed.addr ≠ a.lanIp)))
    ⟨fun h => ⟨h.1, h.2.1, h.2.2.1, h.2.2.2⟩, fun h => ⟨h.recorded, h.published, h.natPublished, h.nat⟩⟩

/-- The port 40000 is published as that of the client, 5000. An error that comes in the next call, where no address
has come, takes the place of the address. -/
theorem address_not_followed :
    ¬ Throughout (stunStep sampleHmac sampleAttributes sampleMapped false sampleConfig)
        (fun s => FollowsMapped s.toAddresses) (StunThread.start lanAddress 5000)
        [.call false lanAddress, plainRead (bindingResponseFrom 156 64)] ∧
      ¬ Throughout (stunStep sampleHmac sampleAttributes sampleMapped false sampleConfig)
        (fun s => FollowsMapped s.toAddresses) (StunThread.start lanAddress 5000)
        [.call false lanAddress, plainRead (bindingResponseFrom 19 136), .call false lanAddress,
          plainRead bindingErrorResponse] := by
  constructor <;> decide +kernel

end Samples

end Tr069Agent.Com.Stun
