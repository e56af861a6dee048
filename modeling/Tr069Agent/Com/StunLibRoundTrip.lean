import Tr069Agent.Com.StunLibFormat

/-! # The parser of the STUN library reads back what its encoder writes -/

namespace Tr069Agent.Com.StunLib

open Library.Words Library.Tlv

set_option autoImplicit false

section Attributes

def addressAttribute (type : UInt16) (atr : StunAtrAddress4) : Attribute :=
  ⟨type, [atr.pad, IPv4Family] ++ bytes16 atr.ipv4.port ++ bytes32 atr.ipv4.addr, (by decide : 8 < 2 ^ 16)⟩

def changeAttribute (value : UInt32) : Attribute := ⟨ChangeRequest, bytes32 value, (by decide : 4 < 2 ^ 16)⟩

def errorAttribute (atr : StunAtrError) : Attribute where
  type := ErrorCode
  value := bytes16 atr.pad ++ [atr.errorClass, atr.number] ++ atr.reason
  fits := by
    have hFits : atr.reason.length < 256 := atr.fits
    simp
    omega

def stringAttribute (type : UInt16) (atr : StunAtrString) : Attribute :=
  ⟨type, atr.value, atr.fits.trans (by decide)⟩

def integrityAttribute (atr : StunAtrIntegrity) : Attribute :=
  ⟨MessageIntegrity, atr.hash, atr.twenty.trans_lt (by decide)⟩

def bindingChangeAttribute : Attribute := ⟨BINGIND_CHANGE, [], by decide⟩

theorem encodeAtrAddress4_eq (type : UInt16) (atr : StunAtrAddress4) :
    encodeAtrAddress4 type atr = (addressAttribute type atr).bytes := by
  simp only [encodeAtrAddress4, Attribute.bytes, addressAttribute, List.append_assoc]
  rfl

theorem encodeAtrError_eq (atr : StunAtrError) : encodeAtrError atr = (errorAttribute atr).bytes := by
  have hLength : (errorAttribute atr).value.length = 4 + atr.reason.length := by
    simp [errorAttribute]
    omega
  simp only [encodeAtrError, Attribute.bytes, hLength]
  simp only [errorAttribute, List.append_assoc]

/-- The texts of a message that are written. -/
def StunMessage.strings (msg : StunMessage) : List StunAtrString :=
  msg.username.toList ++ msg.password.toList ++ msg.serverName.toList ++ msg.connectionRequestBinding.toList

/-- The attributes of a message without a list of unknown attributes and without the type that stands alone. -/
def attributesOf (msg : StunMessage) : List Attribute :=
  (msg.mappedAddress.map (addressAttribute MappedAddress)).toList ++
    (msg.responseAddress.map (addressAttribute ResponseAddress)).toList ++
    (msg.changeRequest.map changeAttribute).toList ++
    (msg.sourceAddress.map (addressAttribute SourceAddress)).toList ++
    (msg.changedAddress.map (addressAttribute ChangedAddress)).toList ++
    (msg.username.map (stringAttribute Username)).toList ++ (msg.password.map (stringAttribute Password)).toList ++
    (msg.errorCode.map errorAttribute).toList ++ (msg.reflectedFrom.map (addressAttribute ReflectedFrom)).toList ++
    (msg.xorMappedAddress.map (addressAttribute XorMappedAddress)).toList ++
    (msg.serverName.map (stringAttribute ServerName)).toList ++
    (msg.secondaryAddress.map (addressAttribute SecondaryAddress)).toList ++
    (msg.connectionRequestBinding.map (stringAttribute CONNECTION_REQUEST_BINDING)).toList ++
    (if msg.hasBindingChange then [bindingChangeAttribute] else [])

theorem flatMap_toList {α : Type} (o : Option α) (write : α → Attribute) :
    (o.map write).toList.flatMap Attribute.bytes = (o.map fun a => (write a).bytes).getD [] := by
  cases o with
  | none => rfl
  | some a => exact List.flatMap_singleton _ _

/-- A text in its attribute, where its length is a multiple of four. -/
theorem string_toList {type : UInt16} {o : Option StunAtrString} (h : ∀ atr ∈ o, atr.value.length % 4 = 0) :
    o.elim (some []) (encodeAtrString type) = some ((o.map fun atr => (stringAttribute type atr).bytes).getD []) := by
  cases o with
  | none => rfl
  | some atr => exact if_pos (h atr rfl)

theorem encodeAttributes_eq {msg : StunMessage} (hAligned : ∀ atr ∈ msg.strings, atr.value.length % 4 = 0)
    (hUnknown : msg.unknownAttributes = none) (hOnly : msg.xorOnly = false) :
    encodeAttributes msg = some ((attributesOf msg).flatMap Attribute.bytes) := by
  simp only [StunMessage.strings, List.mem_append, Option.mem_toList, or_imp, forall_and] at hAligned
  obtain ⟨⟨⟨hUsername, hPassword⟩, hServer⟩, hBinding⟩ := hAligned
  have hAddress (type : UInt16) : encodeAtrAddress4 type = fun atr => (addressAttribute type atr).bytes :=
    funext (encodeAtrAddress4_eq type)
  have hError : encodeAtrError = fun atr => (errorAttribute atr).bytes := funext encodeAtrError_eq
  have hChange : encodeAtrChangeRequest = fun value => (changeAttribute value).bytes := rfl
  have hChanged : (if msg.hasBindingChange = true then encodeBindingChange else []) =
      (if msg.hasBindingChange = true then [bindingChangeAttribute] else []).flatMap Attribute.bytes := by
    split <;> rfl
  simp only [encodeAttributes, string_toList hUsername, string_toList hPassword, string_toList hServer,
    string_toList hBinding, hUnknown, hOnly, hAddress, hError, hChange, hChanged, attributesOf, List.flatMap_append,
    flatMap_toList, Option.bind_eq_bind, Option.bind_some, Option.map_none, Option.getD_none, List.append_nil,
    if_false, Bool.false_eq_true, pure]

end Attributes

section Reading

/-- The attributes are taken into the first message, which becomes the other. -/
def Reads (msg : StunMessage) (as : List Attribute) (msg' : StunMessage) : Prop := as.foldlM store msg = .ok msg'

theorem Reads.append {msg msg' msg'' : StunMessage} {as bs : List Attribute} (h : Reads msg as msg')
    (h' : Reads msg' bs msg'') : Reads msg (as ++ bs) msg'' := by
  rw [Reads, List.foldlM_append, h]
  exact h'

theorem reads_singleton {msg msg' : StunMessage} {a : Attribute} (h : store msg a = .ok msg') : Reads msg [a] msg' := by
  rw [Reads, List.foldlM_cons, h]
  rfl

/-- An attribute that may be there is taken into its field. -/
theorem reads_field {α : Type} {parse : Bytes → Nat → α → Parsed α} {zero : α} {write : α → Attribute} {read : α → α}
    {o : Option α} (hParse : ∀ a ∈ o, ∀ result, parse (write a).value (write a).value.length result = .ok (read a))
    (put : Option α → StunMessage) (old : Option α)
    (hType : ∀ a body attrLen, parseAttribute (write a).type body attrLen (put old) =
      (parse body attrLen (old.getD zero)).into fun a => put (some a)) :
    Reads (put old) (o.map write).toList (put ((o.map read).or old)) := by
  cases o with
  | none => rfl
  | some a =>
    refine reads_singleton ?_
    rw [store, hType, hParse a rfl]
    rfl

/-- An address comes back with the only family that is written. -/
def StunAtrAddress4.received (atr : StunAtrAddress4) : StunAtrAddress4 := { atr with family := IPv4Family }

theorem parse_address (type : UInt16) (o : Option StunAtrAddress4) (atr : StunAtrAddress4) (_ : atr ∈ o)
    (result : StunAtrAddress4) :
    stunParseAtrAddress (addressAttribute type atr).value (addressAttribute type atr).value.length result =
      .ok atr.received := by
  change Except.ok _ = _
  rw [word16_bytes, word32_bytes]
  rfl

theorem parse_change (o : Option UInt32) (value : UInt32) (_ : value ∈ o) (result : UInt32) :
    stunParseAtrChangeRequest (changeAttribute value).value (changeAttribute value).value.length result =
      .ok (id value) := by
  change Except.ok _ = _
  rw [word32_bytes, id]

theorem parse_string (type : UInt16) {o : Option StunAtrString} (hAligned : ∀ atr ∈ o, atr.value.length % 4 = 0)
    (atr : StunAtrString) (h : atr ∈ o) (result : StunAtrString) :
    stunParseAtrString (stringAttribute type atr).value (stringAttribute type atr).value.length result =
      .ok (id atr) := by
  change stunParseAtrString atr.value atr.value.length result = _
  rw [stunParseAtrString, dif_neg (Nat.not_le.mpr atr.fits), if_neg (not_not.mpr (hAligned atr h)), if_pos le_rfl]
  simp only [List.take_length, id]

theorem parse_integrity (o : Option StunAtrIntegrity) (atr : StunAtrIntegrity) (_ : atr ∈ o)
    (result : StunAtrIntegrity) :
    stunParseAtrIntegrity (integrityAttribute atr).value (integrityAttribute atr).value.length result =
      .ok (id atr) := by
  have hLength : atr.hash.length = 20 := atr.twenty
  have hTake : atr.hash.take 20 = atr.hash := List.take_of_length_le hLength.le
  change stunParseAtrIntegrity atr.hash atr.hash.length result = _
  rw [stunParseAtrIntegrity, if_neg (not_not.mpr hLength), dif_pos hLength.ge]
  simp only [hTake, id]

theorem parse_error (o : Option StunAtrError) (atr : StunAtrError) (_ : atr ∈ o) (result : StunAtrError) :
    stunParseAtrError (errorAttribute atr).value (errorAttribute atr).value.length result = .ok (id atr) := by
  have hFits : atr.reason.length < 256 := atr.fits
  have hMax : STUN_MAX_STRING = 256 := rfl
  have hLength : (errorAttribute atr).value.length = atr.reason.length + 4 := by
    simp [errorAttribute]
    omega
  have hSize := sizeReason_eq (by omega : atr.reason.length + 4 < STUN_MAX_STRING + 6)
  rw [if_neg (by omega), Nat.add_sub_cancel] at hSize
  unfold stunParseAtrError
  rw [hLength, if_neg (by omega)]
  simp only [errorAttribute, bytes16, List.cons_append, List.nil_append, hSize]
  rw [dif_pos ⟨le_rfl, atr.fits⟩]
  simp only [word16_bytes, List.take_length, id]

/-- What the other side reads: only the flag of a connection request binding comes back, and the signature is
that of the datagram. -/
def StunMessage.received (msg : StunMessage) (msgHdr : StunMsgHdr) (signature : Option StunAtrIntegrity) :
    StunMessage :=
  { msg with
    msgHdr
    mappedAddress := msg.mappedAddress.map StunAtrAddress4.received
    responseAddress := msg.responseAddress.map StunAtrAddress4.received
    sourceAddress := msg.sourceAddress.map StunAtrAddress4.received
    changedAddress := msg.changedAddress.map StunAtrAddress4.received
    messageIntegrity := signature
    reflectedFrom := msg.reflectedFrom.map StunAtrAddress4.received
    xorMappedAddress := msg.xorMappedAddress.map StunAtrAddress4.received
    connectionRequestBinding := msg.connectionRequestBinding.map fun _ => .zero
    secondaryAddress := msg.secondaryAddress.map StunAtrAddress4.received }

theorem reads_attributesOf {msg : StunMessage} (hAligned : ∀ atr ∈ msg.strings, atr.value.length % 4 = 0)
    (hUnknown : msg.unknownAttributes = none) (hOnly : msg.xorOnly = false) (msgHdr : StunMsgHdr) :
    Reads (.blank msgHdr) (attributesOf msg) (msg.received msgHdr none) := by
  simp only [StunMessage.strings, List.mem_append, Option.mem_toList, or_imp, forall_and] at hAligned
  obtain ⟨⟨⟨hUsername, hPassword⟩, hServer⟩, hBinding⟩ := hAligned
  have hMapped (m : StunMessage) : Reads m _ { m with mappedAddress := _ } :=
    reads_field (parse_address MappedAddress msg.mappedAddress) (fun atr =>
      { m with mappedAddress := atr }) m.mappedAddress
      fun _ _ _ => rfl
  have hResponse (m : StunMessage) : Reads m _ { m with responseAddress := _ } :=
    reads_field (parse_address ResponseAddress msg.responseAddress) (fun atr =>
      { m with responseAddress := atr }) m.responseAddress
      fun _ _ _ => rfl
  have hChange (m : StunMessage) : Reads m _ { m with changeRequest := _ } :=
    reads_field (parse_change msg.changeRequest) (fun atr => { m with changeRequest := atr }) m.changeRequest
      fun _ _ _ => rfl
  have hSource (m : StunMessage) : Reads m _ { m with sourceAddress := _ } :=
    reads_field (parse_address SourceAddress msg.sourceAddress) (fun atr =>
      { m with sourceAddress := atr }) m.sourceAddress
      fun _ _ _ => rfl
  have hChanged (m : StunMessage) : Reads m _ { m with changedAddress := _ } :=
    reads_field (parse_address ChangedAddress msg.changedAddress) (fun atr =>
      { m with changedAddress := atr }) m.changedAddress
      fun _ _ _ => rfl
  have hUsername (m : StunMessage) : Reads m _ { m with username := _ } :=
    reads_field (parse_string Username hUsername) (fun atr => { m with username := atr }) m.username
      fun _ _ _ => rfl
  have hPassword (m : StunMessage) : Reads m _ { m with password := _ } :=
    reads_field (parse_string Password hPassword) (fun atr => { m with password := atr }) m.password
      fun _ _ _ => rfl
  have hError (m : StunMessage) : Reads m _ { m with errorCode := _ } :=
    reads_field (parse_error msg.errorCode) (fun atr => { m with errorCode := atr }) m.errorCode
      fun _ _ _ => rfl
  have hReflected (m : StunMessage) : Reads m _ { m with reflectedFrom := _ } :=
    reads_field (parse_address ReflectedFrom msg.reflectedFrom) (fun atr =>
      { m with reflectedFrom := atr }) m.reflectedFrom
      fun _ _ _ => rfl
  have hXor (m : StunMessage) : Reads m _ { m with xorMappedAddress := _ } :=
    reads_field (parse_address XorMappedAddress msg.xorMappedAddress) (fun atr =>
      { m with xorMappedAddress := atr }) m.xorMappedAddress
      fun _ _ _ => rfl
  have hServer (m : StunMessage) : Reads m _ { m with serverName := _ } :=
    reads_field (parse_string ServerName hServer) (fun atr => { m with serverName := atr }) m.serverName
      fun _ _ _ => rfl
  have hSecondary (m : StunMessage) : Reads m _ { m with secondaryAddress := _ } :=
    reads_field (parse_address SecondaryAddress msg.secondaryAddress) (fun atr =>
      { m with secondaryAddress := atr }) m.secondaryAddress
      fun _ _ _ => rfl
  have hBinding (m : StunMessage) :
      Reads m (msg.connectionRequestBinding.map (stringAttribute CONNECTION_REQUEST_BINDING)).toList
        { m with
          connectionRequestBinding :=
            (msg.connectionRequestBinding.map fun _ => m.connectionRequestBinding.getD .zero).or
              m.connectionRequestBinding } := by
    cases msg.connectionRequestBinding <;> rfl
  have hBindingChange (m : StunMessage) : Reads m (if msg.hasBindingChange then [bindingChangeAttribute] else [])
      { m with hasBindingChange := msg.hasBindingChange || m.hasBindingChange } := by
    cases msg.hasBindingChange <;> rfl
  have hAll := (((((((((((((hMapped (.blank msgHdr)).append (hResponse _)).append (hChange _)).append
    (hSource _)).append (hChanged _)).append (hUsername _)).append (hPassword _)).append (hError _)).append
    (hReflected _)).append (hXor _)).append (hServer _)).append (hSecondary _)).append (hBinding _)).append
    (hBindingChange _)
  simp only [StunMessage.blank, Option.or_none, Option.map_id, id, Bool.or_false, Option.getD_none] at hAll
  rw [StunMessage.received, hUnknown, hOnly]
  exact hAll

theorem reads_signed {msg : StunMessage} (hAligned : ∀ atr ∈ msg.strings, atr.value.length % 4 = 0)
    (hUnknown : msg.unknownAttributes = none) (hOnly : msg.xorOnly = false) (msgHdr : StunMsgHdr)
    (signature : Option StunAtrIntegrity) :
    Reads (.blank msgHdr) (attributesOf msg ++ (signature.map integrityAttribute).toList)
      (msg.received msgHdr signature) := by
  have hSigned : Reads (msg.received msgHdr none) _ { msg.received msgHdr none with messageIntegrity := _ } :=
    reads_field (parse_integrity signature) (fun atr => { msg.received msgHdr none with messageIntegrity := atr }) none
      fun _ _ _ => rfl
  rw [Option.map_id, id, Option.or_none] at hSigned
  exact (reads_attributesOf hAligned hUnknown hOnly msgHdr).append hSigned

end Reading

section Sizes

theorem length_string_le {type : UInt16} {o : Option StunAtrString} {bytes : Bytes}
    (h : o.elim (some []) (encodeAtrString type) = some bytes) : bytes.length ≤ 259 := by
  cases o with
  | none =>
    cases h
    exact Nat.zero_le _
  | some atr =>
    have hFits : atr.value.length < 256 := atr.fits
    simp only [Option.elim, encodeAtrString] at h
    split at h
    · cases h
      simp
      omega
    · cases h

theorem length_getD_le {α : Type} {o : Option α} {write : α → Bytes} {size : Nat} (h : ∀ a, (write a).length ≤ size) :
    ((o.map write).getD []).length ≤ size := by
  cases o with
  | none => exact Nat.zero_le _
  | some a => exact h a

theorem length_encodeAttributes_le {msg : StunMessage} {bytes : Bytes} (h : encodeAttributes msg = some bytes) :
    bytes.length ≤ 1417 := by
  obtain ⟨username, hUsername, h⟩ := Option.bind_eq_some_iff.mp h
  obtain ⟨password, hPassword, h⟩ := Option.bind_eq_some_iff.mp h
  obtain ⟨server, hServer, h⟩ := Option.bind_eq_some_iff.mp h
  obtain ⟨binding, hBinding, h⟩ := Option.bind_eq_some_iff.mp h
  cases h
  have hAddress (type : UInt16) (o : Option StunAtrAddress4) : ((o.map (encodeAtrAddress4 type)).getD []).length ≤ 12 :=
    length_getD_le fun _ => le_rfl
  have hChange : ((msg.changeRequest.map encodeAtrChangeRequest).getD []).length ≤ 8 := length_getD_le fun _ => le_rfl
  have hError : ((msg.errorCode.map encodeAtrError).getD []).length ≤ 263 := by
    refine length_getD_le fun atr => ?_
    have hFits : atr.reason.length < 256 := atr.fits
    simp [encodeAtrError]
    omega
  have hUnknown : ((msg.unknownAttributes.map encodeAtrUnknown).getD []).length ≤ 20 := by
    refine length_getD_le fun atr => ?_
    have hFits : atr.attrType.length ≤ 8 := atr.fits
    simp [encodeAtrUnknown]
    omega
  have hOnly : (if msg.xorOnly then encodeXorOnly else []).length ≤ 2 := by split <;> decide
  have hChanged : (if msg.hasBindingChange then encodeBindingChange else []).length ≤ 4 := by split <;> decide
  have hMapped := hAddress MappedAddress msg.mappedAddress
  have hResponse := hAddress ResponseAddress msg.responseAddress
  have hSource := hAddress SourceAddress msg.sourceAddress
  have hChangedAddress := hAddress ChangedAddress msg.changedAddress
  have hReflected := hAddress ReflectedFrom msg.reflectedFrom
  have hXor := hAddress XorMappedAddress msg.xorMappedAddress
  have hSecondary := hAddress SecondaryAddress msg.secondaryAddress
  have hTexts := Nat.add_le_add (Nat.add_le_add (length_string_le hUsername) (length_string_le hPassword))
    (Nat.add_le_add (length_string_le hServer) (length_string_le hBinding))
  simp only [List.length_append]
  omega

theorem isSome_string {type : UInt16} {o : Option StunAtrString} :
    (o.elim (some []) (encodeAtrString type)).isSome = true ↔ ∀ atr ∈ o, atr.value.length % 4 = 0 := by
  cases o with
  | none => exact iff_of_true rfl nofun
  | some atr =>
    simp only [Option.elim, encodeAtrString]
    split
    · rename_i hAligned
      exact iff_of_true rfl (by rintro _ ⟨⟩; exact hAligned)
    · rename_i hAligned
      exact iff_of_false nofun fun h => hAligned (h atr rfl)

theorem isSome_encodeAttributes (msg : StunMessage) :
    (encodeAttributes msg).isSome = true ↔ ∀ atr ∈ msg.strings, atr.value.length % 4 = 0 := by
  simp only [StunMessage.strings, List.mem_append, Option.mem_toList, or_imp, forall_and]
  have hUsername := @isSome_string Username msg.username
  have hPassword := @isSome_string Password msg.password
  have hServer := @isSome_string ServerName msg.serverName
  have hBinding := @isSome_string CONNECTION_REQUEST_BINDING msg.connectionRequestBinding
  simp only [Option.mem_def] at hUsername hPassword hServer hBinding
  rw [← hUsername, ← hPassword, ← hServer, ← hBinding]
  unfold encodeAttributes
  dsimp only
  generalize msg.username.elim (some []) (encodeAtrString Username) = username
  generalize msg.password.elim (some []) (encodeAtrString Password) = password
  generalize msg.serverName.elim (some []) (encodeAtrString ServerName) = server
  generalize msg.connectionRequestBinding.elim (some []) (encodeAtrString CONNECTION_REQUEST_BINDING) = binding
  cases username <;> cases password <;> cases server <;> cases binding <;> simp

end Sizes

section Datagrams

variable {stack : Sha1.SHA1_CTX} {msg : StunMessage} {password : StunAtrString}

/-- The header as it is sent with a body. -/
def StunMsgHdr.sent (hdr : StunMsgHdr) (size : Nat) : StunMsgHdr := { hdr with msgLength := UInt16.ofNat size }

/-- The signature of a datagram covers all in front of it. -/
def signature (password : StunAtrString) (signed : Bytes) : Option StunAtrIntegrity :=
  if password.value.length > 0 then some ⟨Sha1.standardHmac password.value signed, Sha1.length_standardDigest _⟩
  else none

theorem isSome_signature (password : StunAtrString) (signed : Bytes) :
    (signature password signed).isSome = !password.value.isEmpty := by
  rw [signature]
  split
  · rename_i hKey
    rw [Option.isSome_some, List.isEmpty_eq_false_iff.mpr (List.ne_nil_of_length_pos hKey), Bool.not_false]
  · rename_i hNone
    rw [Option.isSome_none, List.eq_nil_of_length_eq_zero (Nat.eq_zero_of_not_pos hNone), List.isEmpty_nil,
      Bool.not_true]

def signatureSize (password : StunAtrString) : Nat := if password.value.length > 0 then 24 else 0

/-- The header, which counts the signature, and the attributes. -/
def unsigned (msg : StunMessage) (password : StunAtrString) (attributes : Bytes) : Bytes :=
  (msg.msgHdr.sent (attributes.length + signatureSize password)).bytes ++ attributes

theorem length_unsigned (attributes : Bytes) : (unsigned msg password attributes).length = 20 + attributes.length := by
  rw [unsigned, List.length_append, StunMsgHdr.length_bytes]

theorem length_signature (signed : Bytes) :
    ((signature password signed).map integrityAttribute).toList.flatMap Attribute.bytes =
        ((signature password signed).map fun atr => encodeAtrIntegrity atr.hash).getD [] ∧
      (((signature password signed).map integrityAttribute).toList.flatMap Attribute.bytes).length =
        signatureSize password := by
  rw [signature, signatureSize]
  split
  · exact ⟨rfl, rfl⟩
  · exact ⟨rfl, rfl⟩

theorem stunEncodeMessage_eq (hBuffer : stack.buffer.length = 64) {attributes : Bytes}
    (h : encodeAttributes msg = some attributes) :
    stunEncodeMessage stack msg STUN_MAX_MESSAGE_SIZE password =
      some (unsigned msg password attributes ++
        ((signature password (unsigned msg password attributes)).map fun atr =>
          encodeAtrIntegrity atr.hash).getD []) := by
  have hLength := length_encodeAttributes_le h
  have hSize : UInt16.ofNat attributes.length + (if password.value.length > 0 then 24 else 0) =
      UInt16.ofNat (attributes.length + signatureSize password) := by
    rw [UInt16.ofNat_add, signatureSize]
    split <;> rfl
  have hUnsigned : bytes16 msg.msgHdr.msgType ++ bytes16 (UInt16.ofNat (attributes.length + signatureSize password)) ++
      msg.msgHdr.id ++ attributes = unsigned msg password attributes := rfl
  have hTotal := @length_unsigned msg password attributes
  have hFits : password.value.length < 256 := password.fits
  have hHmac := Sha1.hmac_sha1_eq hBuffer (show Sha1.Countable password.value by unfold Sha1.Countable; omega)
    (show Sha1.Countable (unsigned msg password attributes) by unfold Sha1.Countable; omega)
  simp only [stunEncodeMessage, h, hSize, hUnsigned, Option.bind_eq_bind, Option.bind_some, computeHmac, hHmac,
    signature]
  rw [if_neg (by decide)]
  split
  · rw [Option.map_some, Option.bind_some, if_pos]
    · rfl
    · have hMac := Sha1.length_standardDigest
      have hMax : STUN_MAX_MESSAGE_SIZE = 2048 := rfl
      rw [List.length_append, hTotal]
      simp only [encodeAtrIntegrity, Sha1.standardHmac, List.length_append, length_bytes16, hMac]
      omega
  · have hMax : STUN_MAX_MESSAGE_SIZE = 2048 := rfl
    rw [if_pos (by omega), Option.map_none, Option.getD_none, List.append_nil]

theorem length_written (hBuffer : stack.buffer.length = 64) {datagram : Bytes}
    (h : stunEncodeMessage stack msg STUN_MAX_MESSAGE_SIZE password = some datagram) :
    20 ≤ datagram.length ∧ datagram.length ≤ 1461 := by
  rcases hAttributes : encodeAttributes msg with _ | attributes
  · simp [stunEncodeMessage, hAttributes] at h
  · rw [stunEncodeMessage_eq hBuffer hAttributes] at h
    cases h
    have hLength := length_encodeAttributes_le hAttributes
    have hSize : signatureSize password ≤ 24 := by
      rw [signatureSize]
      split <;> decide
    obtain ⟨hMac, hMacLength⟩ := @length_signature password (unsigned msg password attributes)
    rw [← hMac, List.length_append, hMacLength, length_unsigned]
    omega

/-- The encoder stays inside of the buffer, and only the assertion on the texts stops it. -/
theorem isSome_stunEncodeMessage (hBuffer : stack.buffer.length = 64) :
    (stunEncodeMessage stack msg STUN_MAX_MESSAGE_SIZE password).isSome = true ↔
      ∀ atr ∈ msg.strings, atr.value.length % 4 = 0 := by
  rw [← isSome_encodeAttributes]
  rcases hAttributes : encodeAttributes msg with _ | attributes
  · simp [stunEncodeMessage, hAttributes]
  · rw [stunEncodeMessage_eq hBuffer hAttributes]
    simp

theorem exists_written (hBuffer : stack.buffer.length = 64) (hAligned : ∀ atr ∈ msg.strings, atr.value.length % 4 = 0) :
    ∃ datagram, stunEncodeMessage stack msg STUN_MAX_MESSAGE_SIZE password = some datagram := by
  obtain ⟨attributes, hAttributes⟩ := Option.isSome_iff_exists.mp ((isSome_encodeAttributes msg).mpr hAligned)
  exact ⟨_, stunEncodeMessage_eq hBuffer hAttributes⟩

theorem parse_written (hBuffer : stack.buffer.length = 64) (hAligned : ∀ atr ∈ msg.strings, atr.value.length % 4 = 0)
    (hUnknown : msg.unknownAttributes = none) (hOnly : msg.xorOnly = false) {datagram : Bytes}
    (h : stunEncodeMessage stack msg STUN_MAX_MESSAGE_SIZE password = some datagram) (after : Bytes) :
    stunParseMessage (datagram ++ after) datagram.length =
      .ok (msg.received (msg.msgHdr.sent (datagram.length - 20))
        (signature password (datagram.take (datagram.length - signatureSize password)))) := by
  have hAttributes := encodeAttributes_eq hAligned hUnknown hOnly
  rw [stunEncodeMessage_eq hBuffer hAttributes] at h
  cases h
  have hBounded := length_encodeAttributes_le hAttributes
  generalize hSigned : unsigned msg password ((attributesOf msg).flatMap Attribute.bytes) = signed
  obtain ⟨hMac, hMacLength⟩ := @length_signature password signed
  have hTake (mac : Bytes) (h : mac.length = signatureSize password) :
      (signed ++ mac).take ((signed ++ mac).length - signatureSize password) = signed := by
    rw [List.length_append, h, Nat.add_sub_cancel, List.take_left]
  rw [← hMac, hTake _ hMacLength]
  clear hMac
  generalize signature password signed = mac at hMacLength
  have hReads := reads_signed hAligned hUnknown hOnly
    (msg.msgHdr.sent ((attributesOf msg).flatMap Attribute.bytes ++
      (mac.map integrityAttribute).toList.flatMap Attribute.bytes).length) mac
  rw [← List.flatMap_append] at hReads
  have hDatagram : signed ++ (mac.map integrityAttribute).toList.flatMap Attribute.bytes =
      (msg.msgHdr.sent ((attributesOf msg ++
        (mac.map integrityAttribute).toList).flatMap Attribute.bytes).length).bytes ++
        (attributesOf msg ++ (mac.map integrityAttribute).toList).flatMap Attribute.bytes := by
    rw [← hSigned, unsigned, List.flatMap_append, List.length_append, hMacLength, List.append_assoc]
  have hSmall : signatureSize password ≤ 24 := by
    rw [signatureSize]
    split <;> decide
  have hLength := congrArg List.length
    (List.flatMap_append : (attributesOf msg ++ (mac.map integrityAttribute).toList).flatMap Attribute.bytes = _)
  rw [List.length_append, hMacLength] at hLength
  rw [hDatagram, List.length_append, StunMsgHdr.length_bytes, Nat.add_sub_cancel_left]
  generalize attributesOf msg ++ (mac.map integrityAttribute).toList = all at hReads hLength
  have hSize : ((msg.msgHdr.sent (all.flatMap Attribute.bytes).length).msgLength).toNat =
      (all.flatMap Attribute.bytes).length := by
    change (UInt16.ofNat _).toNat = _
    rw [UInt16.toNat_ofNat', Nat.mod_eq_of_lt (by omega)]
  rw [stunParseMessage_framed hSize, attributes_flatMap]
  rw [Reads] at hReads
  rw [hReads]
  rfl

/-- The parser reads back what the encoder wrote: families, the text of a connection request binding and an
older signature aside. -/
theorem parse_encode (hBuffer : stack.buffer.length = 64) (hAligned : ∀ atr ∈ msg.strings, atr.value.length % 4 = 0)
    (hUnknown : msg.unknownAttributes = none) (hOnly : msg.xorOnly = false) :
    ∃ datagram, stunEncodeMessage stack msg STUN_MAX_MESSAGE_SIZE password = some datagram ∧
      ∀ after, stunParseMessage (datagram ++ after) datagram.length =
        .ok (msg.received (msg.msgHdr.sent (datagram.length - 20))
          (signature password (datagram.take (datagram.length - signatureSize password)))) := by
  obtain ⟨datagram, hWritten⟩ := @exists_written stack msg password hBuffer hAligned
  exact ⟨datagram, hWritten, parse_written hBuffer hAligned hUnknown hOnly hWritten⟩

/-- A binding response with a user name, a reason and a flag. -/
def sampleMessage : StunMessage :=
  { StunMessage.blank { sampleHeader with msgLength := 0 } with
    mappedAddress := some ⟨0, 0, ⟨3478, 0xC0A8010A⟩⟩
    username := some ⟨[99, 112, 101, 49], by decide⟩
    errorCode := some ⟨0, 4, 1, [110, 111], by decide⟩
    hasBindingChange := true }

def samplePassword : StunAtrString := ⟨[49, 50, 51, 52], by decide⟩

theorem isSome_stunEncodeMessage_sample :
    (stunEncodeMessage ⟨Sha1.initialState, 0, 0, List.replicate 64 0xaa⟩ sampleMessage STUN_MAX_MESSAGE_SIZE
      samplePassword).isSome = true ↔ ∀ atr ∈ sampleMessage.strings, atr.value.length % 4 = 0 :=
  isSome_stunEncodeMessage List.length_replicate

theorem parse_encode_sample :
    ∃ datagram, stunEncodeMessage ⟨Sha1.initialState, 0, 0, List.replicate 64 0xaa⟩ sampleMessage
        STUN_MAX_MESSAGE_SIZE samplePassword = some datagram ∧
      ∀ after, stunParseMessage (datagram ++ after) datagram.length =
        .ok (sampleMessage.received (sampleMessage.msgHdr.sent (datagram.length - 20))
          (signature samplePassword (datagram.take (datagram.length - signatureSize samplePassword)))) :=
  parse_encode List.length_replicate (by decide) rfl rfl

end Datagrams

end Tr069Agent.Com.StunLib
