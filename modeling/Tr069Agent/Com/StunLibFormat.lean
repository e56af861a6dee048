import Tr069Agent.Com.StunLib

/-! # What the parser of the STUN library accepts, and where it leaves its arrays -/

namespace Tr069Agent.Com.StunLib

open Library.Words Library.Tlv

set_option autoImplicit false

section Bounds

/-! No attribute is read behind its own length. -/

theorem stunParseAtrAddress_take {body : Bytes} {hdrLen : Nat} (h : hdrLen ≤ body.length) (result : StunAtrAddress4) :
    stunParseAtrAddress (body.take hdrLen) hdrLen result = stunParseAtrAddress body hdrLen result := by
  simp only [stunParseAtrAddress]
  split
  · rfl
  · rename_i hEight
    obtain rfl : hdrLen = 8 := not_not.mp hEight
    rcases body with _ | ⟨a, _ | ⟨b, _ | ⟨c, _ | ⟨d, _ | ⟨e, _ | ⟨f, _ | ⟨g, _ | ⟨i, body⟩⟩⟩⟩⟩⟩⟩⟩
    iterate 8 · simp at h
    rfl

theorem stunParseAtrChangeRequest_take {body : Bytes} {hdrLen : Nat} (h : hdrLen ≤ body.length) (result : UInt32) :
    stunParseAtrChangeRequest (body.take hdrLen) hdrLen result = stunParseAtrChangeRequest body hdrLen result := by
  simp only [stunParseAtrChangeRequest]
  split
  · rfl
  · rename_i hFour
    obtain rfl : hdrLen = 4 := not_not.mp hFour
    rcases body with _ | ⟨a, _ | ⟨b, _ | ⟨c, _ | ⟨d, body⟩⟩⟩⟩
    iterate 4 · simp at h
    rfl

/-- The size of the reason as the source computes it. -/
theorem sizeReason_eq {hdrLen : Nat} (h : hdrLen < STUN_MAX_STRING + 6) :
    (UInt16.ofNat hdrLen - 4).toNat = if hdrLen < 4 then hdrLen + 65532 else hdrLen - 4 := by
  have hFour : (4 : UInt16).toNat = 4 := rfl
  have hMax : STUN_MAX_STRING = 256 := rfl
  rw [UInt16.toNat_sub, UInt16.toNat_ofNat', hFour]
  split <;> omega

theorem stunParseAtrError_take {body : Bytes} {hdrLen : Nat} (h : hdrLen ≤ body.length) (result : StunAtrError) :
    stunParseAtrError (body.take hdrLen) hdrLen result = stunParseAtrError body hdrLen result := by
  have hMax : STUN_MAX_STRING = 256 := rfl
  simp only [stunParseAtrError]
  split
  · rfl
  · rename_i hShort
    have hSize := sizeReason_eq (Nat.lt_of_not_ge hShort)
    rcases body with _ | ⟨p1, _ | ⟨p0, _ | ⟨errorClass, _ | ⟨number, body⟩⟩⟩⟩
    iterate 4 · rcases hdrLen with _ | _ | _ | _ | hdrLen <;> rfl
    by_cases hFour : hdrLen < 4
    · -- the size has wrapped: the reason has no room for it
      rw [if_pos hFour] at hSize
      have hFull : ¬((UInt16.ofNat hdrLen - 4).toNat ≤ body.length ∧
          (UInt16.ofNat hdrLen - 4).toNat < STUN_MAX_STRING) := by
        omega
      rcases hdrLen with _ | _ | _ | _ | hdrLen
      iterate 4 · simp only [List.take_succ_cons, List.take_zero, dif_neg hFull]
      omega
    · obtain ⟨size, rfl⟩ : ∃ size, hdrLen = size + 4 := ⟨hdrLen - 4, by omega⟩
      rw [if_neg hFour, Nat.add_sub_cancel] at hSize
      simp only [List.take_succ_cons, hSize, List.length_take, List.take_take, min_self]
      have hRoom : size ≤ body.length := by simpa using h
      simp only [Nat.le_min, le_refl, hRoom, true_and]

theorem readTypes_take {n m : Nat} (h : 2 * n ≤ m) (body : Bytes) : readTypes n (body.take m) = readTypes n body := by
  induction n, body using readTypes.induct generalizing m with
  | case1 => rfl
  | case2 n t1 t0 body ih =>
    obtain ⟨k, rfl⟩ : ∃ k, m = k + 2 := ⟨m - 2, by omega⟩
    rw [List.take_succ_cons, List.take_succ_cons, readTypes, readTypes, ih (by omega)]
  | case3 n body hShort =>
    obtain ⟨k, rfl⟩ : ∃ k, m = k + 2 := ⟨m - 2, by omega⟩
    rcases body with _ | ⟨t1, _ | ⟨t0, body⟩⟩
    · rfl
    · rfl
    · exact absurd rfl (hShort t1 t0 body)

theorem stunParseAtrUnknown_take (body : Bytes) (hdrLen : Nat) (result : StunAtrUnknown) :
    stunParseAtrUnknown (body.take hdrLen) hdrLen result = stunParseAtrUnknown body hdrLen result := by
  simp only [stunParseAtrUnknown, readTypes_take (by omega : 2 * (hdrLen / 4) ≤ hdrLen)]

theorem stunParseAtrString_take {body : Bytes} {hdrLen : Nat} (h : hdrLen ≤ body.length) (result : StunAtrString) :
    stunParseAtrString (body.take hdrLen) hdrLen result = stunParseAtrString body hdrLen result := by
  simp only [stunParseAtrString, List.length_take, List.take_take, min_self, Nat.le_min, le_refl, true_and, if_pos h]

theorem stunParseAtrIntegrity_take {body : Bytes} {hdrLen : Nat} (h : hdrLen ≤ body.length)
    (result : StunAtrIntegrity) :
    stunParseAtrIntegrity (body.take hdrLen) hdrLen result = stunParseAtrIntegrity body hdrLen result := by
  simp only [stunParseAtrIntegrity]
  split
  · rfl
  · rename_i hTwenty
    obtain rfl : hdrLen = 20 := not_not.mp hTwenty
    simp only [List.length_take, List.take_take, min_self, Nat.le_min, le_refl, true_and]

theorem parseAttribute_take {body : Bytes} {attrLen : Nat} (h : attrLen ≤ body.length) (atrType : UInt16)
    (msg : StunMessage) :
    parseAttribute atrType (body.take attrLen) attrLen msg = parseAttribute atrType body attrLen msg := by
  simp only [parseAttribute, stunParseAtrAddress_take h, stunParseAtrChangeRequest_take h, stunParseAtrError_take h,
    stunParseAtrUnknown_take, stunParseAtrString_take h, stunParseAtrIntegrity_take h]

end Bounds

section Store

/-- One attribute is taken into a message. -/
def store (msg : StunMessage) (a : Attribute) : Except (Stop StunMessage) StunMessage :=
  parseAttribute a.type a.value a.value.length msg

/-- The end of the loop: nothing, or less than a whole attribute, is left of the message; `after` follows in the
buffer. -/
def finish (rest after : Bytes) (msg : StunMessage) : Except (Stop StunMessage) StunMessage :=
  if rest = [] then .ok msg
  else if (rest ++ after).length < 4 then .error .outOfArray
  else .error (.refused msg)

theorem parseAttributes_short {body : Bytes} {size : Nat} (hSize : size ≠ 0) (h : body.length < 4) (msg : StunMessage) :
    parseAttributes body size msg = .error .outOfArray := by
  rcases body with _ | ⟨b3, _ | ⟨b2, _ | ⟨b1, _ | ⟨b0, body⟩⟩⟩⟩
  iterate 4 · rw [parseAttributes.eq_def, if_neg hSize]
  simp only [List.length_cons] at h
  omega

theorem parseAttributes_long {t1 t0 l1 l0 : UInt8} {body : Bytes} {size : Nat}
    (h : (word16 l1 l0).toNat + 4 > size) (hSize : size ≠ 0) (msg : StunMessage) :
    parseAttributes (t1 :: t0 :: l1 :: l0 :: body) size msg = .error (.refused msg) := by
  rw [parseAttributes.eq_def, if_neg hSize]
  exact if_pos h

theorem parseAttributes_bytes (a : Attribute) (body : Bytes) (size : Nat) (msg : StunMessage) :
    parseAttributes (a.bytes ++ body) (a.bytes.length + size) msg =
      store msg a >>= fun next => parseAttributes body size next := by
  have hLength : (UInt16.ofNat a.value.length).toNat = a.value.length := by
    rw [UInt16.toNat_ofNat', Nat.mod_eq_of_lt a.fits]
  have hRoom : a.value.length ≤ (a.value ++ body).length := by simp
  have hLeft : 4 + a.value.length + size - 4 - a.value.length = size := by omega
  rw [parseAttributes.eq_def, a.length_bytes, if_neg (by omega)]
  simp only [Attribute.bytes, bytes16, List.cons_append, List.nil_append, word16_bytes, hLength,
    ← parseAttribute_take hRoom, List.take_left, List.drop_left, hLeft]
  rw [if_neg (by omega), store]
  cases parseAttribute a.type a.value a.value.length msg <;> rfl

/-- The loop in place takes the whole attributes one after the other. -/
theorem parseAttributes_eq (bytes after : Bytes) (msg : StunMessage) :
    parseAttributes (bytes ++ after) bytes.length msg =
      (attributes bytes).1.foldlM store msg >>= finish (attributes bytes).2 after := by
  induction bytes using (measure List.length).wf.induction generalizing msg with
  | h bytes ih =>
    rcases hFront : takeAttribute bytes with _ | ⟨a, rest⟩
    · -- what is left is no whole attribute
      rw [attributes_of_none hFront, List.foldlM_nil, pure_bind, finish]
      split
      · rename_i hEmpty
        obtain rfl := hEmpty
        rw [parseAttributes.eq_def, if_pos List.length_nil]
      rename_i hSome
      have hSize : bytes.length ≠ 0 := fun h => hSome (List.eq_nil_of_length_eq_zero h)
      split
      · rename_i hShort
        exact parseAttributes_short hSize hShort msg
      · rename_i hHeader
        rcases hAll : bytes ++ after with _ | ⟨t1, _ | ⟨t0, _ | ⟨l1, _ | ⟨l0, body⟩⟩⟩⟩
        iterate 4 · simp [hAll] at hHeader
        refine parseAttributes_long ?_ hSize msg
        by_contra hFits
        rcases bytes with _ | ⟨b3, _ | ⟨b2, _ | ⟨b1, _ | ⟨b0, bytes⟩⟩⟩⟩
        iterate 4 · simp at hFits
        simp only [List.cons_append, List.cons.injEq] at hAll
        obtain ⟨rfl, rfl, rfl, rfl, -⟩ := hAll
        rw [takeAttribute, if_pos (by simpa using hFits)] at hFront
        cases hFront
    · obtain rfl := bytes_of_takeAttribute hFront
      rw [attributes_of_some hFront, List.foldlM_cons, bind_assoc, List.append_assoc, List.length_append,
        parseAttributes_bytes]
      exact bind_congr fun next => ih rest (length_of_takeAttribute hFront) next

end Store

section Attributes

def addressTypes : List UInt16 :=
  [MappedAddress, ResponseAddress, SourceAddress, ChangedAddress, ReflectedFrom, XorMappedAddress, SecondaryAddress]

def stringTypes : List UInt16 := [Username, Password, ServerName]

/-- An attribute that is taken into the message. -/
def Readable (a : Attribute) : Prop :=
  if a.type ∈ addressTypes then a.value.length = 8 ∧ a.value[1]? = some IPv4Family
  else if a.type = ChangeRequest then a.value.length = 4
  else if a.type ∈ stringTypes then a.value.length < STUN_MAX_STRING ∧ a.value.length % 4 = 0
  else if a.type = MessageIntegrity then a.value.length = HMAC_SIZE
  else if a.type = ErrorCode then 4 ≤ a.value.length ∧ a.value.length < STUN_MAX_STRING + 4
  else if a.type = UnknownAttribute then
    a.value.length < 2 * STUN_MAX_UNKNOWN_ATTRIBUTES + 2 ∧ a.value.length % 4 = 0
  else a.type = XorOnly ∨ 0x7FFF < a.type

instance (a : Attribute) : Decidable (Readable a) := by
  unfold Readable
  infer_instance

/-- An attribute whose reason has no room: the size wraps, or it is the size of the array or more. -/
def Overruns (a : Attribute) : Prop :=
  a.type = ErrorCode ∧ (a.value.length < 4 ∨ a.value.length = STUN_MAX_STRING + 4 ∨
    a.value.length = STUN_MAX_STRING + 5)

instance (a : Attribute) : Decidable (Overruns a) := inferInstanceAs (Decidable (_ ∧ _))

/-- The outcome of reading as it is described: read exactly when, outside of an array exactly when. -/
structure Settles {α : Type} (parsed : Parsed α) (read leaves : Prop) : Prop where
  read : parsed.isOk = true ↔ read
  leaves : parsed = .error .outOfArray ↔ leaves

theorem Settles.into {α β : Type} {parsed : Parsed α} {read leaves : Prop} (h : Settles parsed read leaves)
    (put : α → β) :
    Settles (parsed.into put) read leaves := by
  rcases parsed with (left | _) | value
  · exact ⟨h.read, by simpa [Parsed.into] using h.leaves⟩
  · exact ⟨h.read, by simpa [Parsed.into] using h.leaves⟩
  · exact ⟨h.read, by simpa [Parsed.into] using h.leaves⟩

theorem settles_ok {α : Type} {value : α} {read leaves : Prop} (hRead : read) (hLeaves : ¬leaves) :
    Settles (.ok value) read leaves :=
  ⟨iff_of_true rfl hRead, iff_of_false nofun hLeaves⟩

theorem settles_refused {α : Type} {left : α} {read leaves : Prop} (hRead : ¬read) (hLeaves : ¬leaves) :
    Settles (.error (.refused left)) read leaves :=
  ⟨iff_of_false nofun hRead, iff_of_false nofun hLeaves⟩

theorem settles_outOfArray {α : Type} {read leaves : Prop} (hRead : ¬read) (hLeaves : leaves) :
    Settles (.error .outOfArray : Parsed α) read leaves :=
  ⟨iff_of_false nofun hRead, iff_of_true rfl hLeaves⟩

theorem settles_address (value : Bytes) (result : StunAtrAddress4) :
    Settles (stunParseAtrAddress value value.length result)
      (value.length = 8 ∧ value[1]? = some IPv4Family) False := by
  unfold stunParseAtrAddress
  split
  · rename_i hEight
    exact settles_refused (fun h => hEight h.1) not_false
  · rename_i hEight
    replace hEight := not_not.mp hEight
    rcases value with _ | ⟨pad, _ | ⟨family, _ | ⟨c, _ | ⟨d, _ | ⟨e, _ | ⟨f, _ | ⟨g, _ | ⟨i, value⟩⟩⟩⟩⟩⟩⟩⟩
    iterate 8 · cases hEight
    dsimp only
    split
    · rename_i hFamily
      exact settles_ok ⟨hEight, congrArg some hFamily⟩ not_false
    · rename_i hFamily
      exact settles_refused (fun h => hFamily (Option.some.inj h.2)) not_false

theorem settles_changeRequest (value : Bytes) (result : UInt32) :
    Settles (stunParseAtrChangeRequest value value.length result) (value.length = 4) False := by
  unfold stunParseAtrChangeRequest
  split
  · rename_i hFour
    exact settles_refused hFour not_false
  · rename_i hFour
    replace hFour := not_not.mp hFour
    rcases value with _ | ⟨a, _ | ⟨b, _ | ⟨c, _ | ⟨d, value⟩⟩⟩⟩
    iterate 4 · cases hFour
    exact settles_ok hFour not_false

theorem settles_string (value : Bytes) (result : StunAtrString) :
    Settles (stunParseAtrString value value.length result)
      (value.length < STUN_MAX_STRING ∧ value.length % 4 = 0) False := by
  rw [stunParseAtrString]
  split
  · rename_i hLong
    exact settles_refused (fun h => Nat.not_lt.mpr hLong h.1) not_false
  · rename_i hShort
    split
    · rename_i hFour
      exact settles_refused (fun h => hFour h.2) not_false
    · rename_i hFour
      rw [if_pos le_rfl]
      exact settles_ok ⟨Nat.lt_of_not_ge hShort, not_not.mp hFour⟩ not_false

theorem settles_integrity (value : Bytes) (result : StunAtrIntegrity) :
    Settles (stunParseAtrIntegrity value value.length result) (value.length = HMAC_SIZE) False := by
  rw [stunParseAtrIntegrity]
  split
  · rename_i hTwenty
    exact settles_refused hTwenty not_false
  · rename_i hTwenty
    replace hTwenty := not_not.mp hTwenty
    rw [dif_pos hTwenty.ge]
    exact settles_ok hTwenty not_false

theorem settles_error (value : Bytes) (result : StunAtrError) :
    Settles (stunParseAtrError value value.length result)
      (4 ≤ value.length ∧ value.length < STUN_MAX_STRING + 4)
      (value.length < 4 ∨ value.length = STUN_MAX_STRING + 4 ∨ value.length = STUN_MAX_STRING + 5) := by
  have hMax : STUN_MAX_STRING = 256 := rfl
  unfold stunParseAtrError
  split
  · exact settles_refused (by omega) (by omega)
  · rename_i hShort
    have hSize := sizeReason_eq (Nat.lt_of_not_ge hShort)
    rcases value with _ | ⟨p1, _ | ⟨p0, _ | ⟨errorClass, _ | ⟨number, reason⟩⟩⟩⟩
    iterate 4 · exact settles_outOfArray (by simp) (by simp)
    have hLength : (p1 :: p0 :: errorClass :: number :: reason).length = reason.length + 4 := rfl
    rw [hLength, if_neg (by omega), Nat.add_sub_cancel] at hSize
    dsimp only
    rw [hLength]
    split
    · exact settles_ok (by omega) (by omega)
    · exact settles_outOfArray (by omega) (by omega)

theorem isSome_readTypes {n : Nat} {body : Bytes} (h : 2 * n ≤ body.length) : (readTypes n body).isSome = true := by
  induction n, body using readTypes.induct with
  | case1 => rfl
  | case2 n t1 t0 body ih =>
    rw [readTypes, Option.isSome_map]
    exact ih (by simp only [List.length_cons] at h; omega)
  | case3 n body hShort =>
    rcases body with _ | ⟨t1, _ | ⟨t0, body⟩⟩
    · simp at h
    · simp only [List.length_singleton] at h
      omega
    · exact absurd rfl (hShort t1 t0 body)

theorem settles_unknown (value : Bytes) (result : StunAtrUnknown) :
    Settles (stunParseAtrUnknown value value.length result)
      (value.length < 2 * STUN_MAX_UNKNOWN_ATTRIBUTES + 2 ∧ value.length % 4 = 0) False := by
  have hMax : STUN_MAX_UNKNOWN_ATTRIBUTES = 8 := rfl
  rw [stunParseAtrUnknown]
  split
  · exact settles_refused (by omega) not_false
  · split
    · exact settles_refused (by omega) not_false
    · obtain ⟨types, hTypes⟩ := Option.isSome_iff_exists.mp
        (isSome_readTypes (by omega : 2 * (value.length / 4) ≤ value.length))
      have hLength := length_readTypes hTypes
      simp only [hTypes]
      rw [dif_pos (by omega)]
      exact settles_ok (by omega) not_false

theorem overruns_iff_false {type : UInt16} {value : Bytes} {fits : value.length < 2 ^ 16} (h : type ≠ ErrorCode) :
    Overruns ⟨type, value, fits⟩ ↔ False :=
  iff_false_intro fun hOver => h hOver.1

theorem Settles.congr {α : Type} {parsed : Parsed α} {read leaves read' leaves' : Prop} (h : Settles parsed read leaves)
    (hRead : read' ↔ read) (hLeaves : leaves' ↔ leaves) : Settles parsed read' leaves' :=
  ⟨h.read.trans hRead.symm, h.leaves.trans hLeaves.symm⟩

/-- One attribute is read or leaves the arrays by itself, whatever the message holds. -/
theorem settles_store (msg : StunMessage) (a : Attribute) : Settles (store msg a) (Readable a) (Overruns a) := by
  obtain ⟨type, value, fits⟩ := a
  by_cases hAddress : type ∈ addressTypes
  · have hRead : Readable ⟨type, value, fits⟩ ↔ value.length = 8 ∧ value[1]? = some IPv4Family := by
      rw [Readable, if_pos hAddress]
    simp only [addressTypes, List.mem_cons, List.not_mem_nil, or_false] at hAddress
    rcases hAddress with rfl | rfl | rfl | rfl | rfl | rfl | rfl <;>
      exact ((settles_address value _).into _).congr hRead (overruns_iff_false (by decide))
  by_cases hString : type ∈ stringTypes
  · have hRead : Readable ⟨type, value, fits⟩ ↔ value.length < STUN_MAX_STRING ∧ value.length % 4 = 0 := by
      have hNe : type ≠ ChangeRequest := by
        rintro rfl
        exact absurd hString (by decide)
      rw [Readable, if_neg hAddress, if_neg hNe, if_pos hString]
    simp only [stringTypes, List.mem_cons, List.not_mem_nil, or_false] at hString
    rcases hString with rfl | rfl | rfl <;>
      exact ((settles_string value _).into _).congr hRead (overruns_iff_false (by decide))
  by_cases hChange : type = ChangeRequest
  · subst hChange
    exact ((settles_changeRequest value _).into _).congr Iff.rfl (overruns_iff_false (by decide))
  by_cases hIntegrity : type = MessageIntegrity
  · subst hIntegrity
    exact ((settles_integrity value _).into _).congr Iff.rfl (overruns_iff_false (by decide))
  by_cases hError : type = ErrorCode
  · subst hError
    exact ((settles_error value _).into _).congr Iff.rfl (and_iff_right rfl)
  by_cases hUnknown : type = UnknownAttribute
  · subst hUnknown
    exact ((settles_unknown value _).into _).congr Iff.rfl (overruns_iff_false (by decide))
  -- the flags, and the types the source does not know
  have hRead : Readable ⟨type, value, fits⟩ ↔ type = XorOnly ∨ 0x7FFF < type := by
    rw [Readable, if_neg hAddress, if_neg hChange, if_neg hString, if_neg hIntegrity, if_neg hError, if_neg hUnknown]
  suffices hSettles : Settles (store msg ⟨type, value, fits⟩) (type = XorOnly ∨ 0x7FFF < type) False from
    hSettles.congr hRead (overruns_iff_false hError)
  simp only [addressTypes, stringTypes, List.mem_cons, List.not_mem_nil, or_false, not_or] at hAddress hString
  simp only [store, parseAttribute, hAddress, hString, hChange, hIntegrity, hError, hUnknown, if_false]
  split
  · rename_i hOnly
    exact settles_ok (.inl hOnly) not_false
  rename_i hOnly
  split
  · rename_i hBinding
    exact settles_ok (.inr (hBinding ▸ by decide)) not_false
  split
  · rename_i hChanged
    exact settles_ok (.inr (hChanged ▸ by decide)) not_false
  split
  · rename_i hLow
    exact settles_refused (fun h => h.elim hOnly (UInt16.not_lt.mpr hLow)) not_false
  · rename_i hHigh
    exact settles_ok (.inr (UInt16.not_le.mp hHigh)) not_false

theorem isOk_foldlM_store (as : List Attribute) (msg : StunMessage) :
    (as.foldlM store msg).isOk = true ↔ ∀ a ∈ as, Readable a := by
  induction as generalizing msg with
  | nil => exact iff_of_true rfl nofun
  | cons a as ih =>
    have hFirst := (settles_store msg a).read
    rw [List.foldlM_cons, List.forall_mem_cons, ← hFirst]
    rcases store msg a with stop | next
    · exact iff_of_false nofun (fun h => nomatch h.1)
    · exact (ih next).trans (and_iff_right rfl).symm

/-- The whole attributes lead out of the arrays when one without room comes after readable ones. -/
theorem foldlM_store_outOfArray (as : List Attribute) (msg : StunMessage) :
    as.foldlM store msg = .error .outOfArray ↔
      ∃ front a back, as = front ++ a :: back ∧ (∀ b ∈ front, Readable b) ∧ Overruns a := by
  induction as generalizing msg with
  | nil =>
    refine iff_of_false nofun ?_
    rintro ⟨front, a, back, hAs, -⟩
    simp at hAs
  | cons a as ih =>
    have hFirst := settles_store msg a
    rw [List.foldlM_cons]
    constructor
    · intro hOut
      rcases hStored : store msg a with stop | next
      · rw [hStored] at hOut
        obtain rfl : stop = .outOfArray := Except.error.inj hOut
        exact ⟨[], a, as, rfl, nofun, hFirst.leaves.mp hStored⟩
      · rw [hStored] at hOut
        obtain ⟨front, b, back, rfl, hFront, hOver⟩ := (ih next).mp hOut
        exact ⟨a :: front, b, back, rfl,
          List.forall_mem_cons.mpr ⟨hFirst.read.mp (by rw [hStored]; rfl), hFront⟩, hOver⟩
    · rintro ⟨front, b, back, hAs, hFront, hOver⟩
      rcases front with _ | ⟨c, front⟩
      · obtain ⟨rfl, rfl⟩ := List.cons.inj hAs
        rw [hFirst.leaves.mpr hOver]
        rfl
      · obtain ⟨rfl, rfl⟩ := List.cons.inj hAs
        obtain ⟨hHead, hTail⟩ := List.forall_mem_cons.mp hFront
        rcases hStored : store msg a with stop | next
        · have hOk := hFirst.read.mpr hHead
          rw [hStored] at hOk
          cases hOk
        · exact (ih next).mpr ⟨front, b, back, rfl, hTail, hOver⟩

end Attributes

section Datagrams

def StunMsgHdr.bytes (hdr : StunMsgHdr) : Bytes := bytes16 hdr.msgType ++ bytes16 hdr.msgLength ++ hdr.id

theorem StunMsgHdr.length_bytes (hdr : StunMsgHdr) : hdr.bytes.length = 20 := by
  rw [bytes, List.length_append, List.length_append, length_bytes16, length_bytes16, hdr.sixteen]

/-- A datagram with its header and a body of the length the header gives. -/
structure Framed (datagram : Bytes) (hdr : StunMsgHdr) (body : Bytes) : Prop where
  bytes : datagram = hdr.bytes ++ body
  length : hdr.msgLength.toNat = body.length

theorem stunParseMessage_framed {hdr : StunMsgHdr} {body : Bytes} (h : hdr.msgLength.toNat = body.length)
    (after : Bytes) :
    stunParseMessage (hdr.bytes ++ body ++ after) (20 + body.length) =
      (attributes body).1.foldlM store (.blank hdr) >>= finish (attributes body).2 after := by
  have hRoom : 16 ≤ (hdr.id ++ (body ++ after)).length := by
    rw [List.length_append, hdr.sixteen]
    omega
  have hTake : (hdr.id ++ (body ++ after)).take 16 = hdr.id := by rw [← hdr.sixteen, List.take_left]
  have hDrop : (hdr.id ++ (body ++ after)).drop 16 = body ++ after := by rw [← hdr.sixteen, List.drop_left]
  rw [← parseAttributes_eq]
  unfold stunParseMessage
  rw [if_neg (by omega)]
  simp only [StunMsgHdr.bytes, bytes16, List.cons_append, List.nil_append, List.append_assoc, word16_bytes]
  rw [dif_pos hRoom]
  simp only [StunMessage.blank, hTake, hDrop, h]
  rw [if_neg (by omega)]

theorem stunParseMessage_unframed {buf : Bytes} {bufLen : Nat} (hLength : bufLen ≤ buf.length)
    (h : ∀ hdr body, ¬Framed (buf.take bufLen) hdr body) :
    ∃ left, stunParseMessage buf bufLen = .error (.refused left) := by
  unfold stunParseMessage
  split
  · exact ⟨_, rfl⟩
  rename_i hHeader
  rcases buf with _ | ⟨t1, _ | ⟨t0, _ | ⟨l1, _ | ⟨l0, rest⟩⟩⟩⟩
  iterate 4 · simp only [List.length_cons, List.length_nil] at hLength; omega
  have hRest : 16 ≤ rest.length := by
    simp only [List.length_cons] at hLength
    omega
  simp only [dif_pos hRest]
  split
  · exact ⟨_, rfl⟩
  · rename_i hSame
    refine absurd ?_ (h ⟨word16 t1 t0, word16 l1 l0, rest.take 16, List.length_take_of_le hRest⟩
      ((rest.drop 16).take (bufLen - 20)))
    obtain ⟨size, rfl⟩ : ∃ size, bufLen = 16 + size + 4 := ⟨bufLen - 20, by omega⟩
    have hSize : 16 + size + 4 - 20 = size := by omega
    simp only [List.length_cons] at hLength
    simp only [StunMessage.blank, not_not] at hSame
    rw [hSize]
    refine ⟨?_, ?_⟩
    · simp only [StunMsgHdr.bytes, bytes16_word, List.take_succ_cons, List.cons_append, List.nil_append, List.take_add]
    · rw [List.length_take_of_le (by rw [List.length_drop]; omega)]
      change (word16 l1 l0).toNat = size
      omega

theorem framed_of_take {buf : Bytes} {bufLen : Nat} {hdr : StunMsgHdr} {body : Bytes}
    (hLength : bufLen ≤ buf.length) (h : Framed (buf.take bufLen) hdr body) :
    bufLen = 20 + body.length ∧ buf = hdr.bytes ++ body ++ buf.drop bufLen := by
  have hCount := congrArg List.length h.bytes
  rw [List.length_take_of_le hLength, List.length_append, hdr.length_bytes] at hCount
  exact ⟨hCount, by rw [← h.bytes, List.take_append_drop]⟩

/-- A datagram is accepted exactly when it is a header with a body of that length which is made of readable
attributes. -/
theorem stunParseMessage_accepts_iff {buf : Bytes} {bufLen : Nat} (hLength : bufLen ≤ buf.length) :
    (∃ msg, stunParseMessage buf bufLen = .ok msg) ↔
      ∃ (hdr : StunMsgHdr) (as : List Attribute),
        Framed (buf.take bufLen) hdr (as.flatMap Attribute.bytes) ∧ ∀ a ∈ as, Readable a := by
  constructor
  · rintro ⟨msg, hParse⟩
    by_cases hFramed : ∃ hdr body, Framed (buf.take bufLen) hdr body
    · obtain ⟨hdr, body, hFramed⟩ := hFramed
      obtain ⟨hCount, hBuf⟩ := framed_of_take hLength hFramed
      rw [hBuf, hCount, stunParseMessage_framed hFramed.length] at hParse
      rcases hStored : (attributes body).1.foldlM store (.blank hdr) with stop | next
      · rw [hStored] at hParse
        cases hParse
      · have hReadable := (isOk_foldlM_store (attributes body).1 (.blank hdr)).mp (by rw [hStored]; rfl)
        have hRest : (attributes body).2 = [] := by
          rw [hStored] at hParse
          by_contra hRest
          change finish (attributes body).2 _ next = .ok msg at hParse
          rw [finish, if_neg hRest] at hParse
          split at hParse <;> cases hParse
        have hBody := attributes_eq_iff.mp (Prod.ext rfl hRest : attributes body = ((attributes body).1, []))
        exact ⟨hdr, (attributes body).1, hBody ▸ hFramed, hReadable⟩
    · simp only [not_exists] at hFramed
      obtain ⟨left, hLeft⟩ := stunParseMessage_unframed hLength hFramed
      rw [hLeft] at hParse
      cases hParse
  · rintro ⟨hdr, as, hFramed, hReadable⟩
    obtain ⟨hCount, hBuf⟩ := framed_of_take hLength hFramed
    have hOk := (isOk_foldlM_store as (.blank hdr)).mpr hReadable
    rw [hBuf, hCount, stunParseMessage_framed hFramed.length, attributes_flatMap]
    rcases hStored : as.foldlM store (.blank hdr) with stop | next
    · rw [hStored] at hOk
      cases hOk
    · exact ⟨next, rfl⟩

/-- A binding response with a mapped address, 192.168.1.10:3478. -/
def sampleHeader : StunMsgHdr := ⟨BindResponseMsg, 12, List.replicate 16 7, by decide⟩

def sampleAddress : Attribute := ⟨MappedAddress, [0, 1, 0x0d, 0x96, 192, 168, 1, 10], by decide⟩

theorem stunParseMessage_accepts_sample :
    ∃ msg, stunParseMessage (sampleHeader.bytes ++ sampleAddress.bytes ++ [0, 0, 0]) 32 = .ok msg :=
  (stunParseMessage_accepts_iff (by decide)).mpr ⟨sampleHeader, [sampleAddress], ⟨by decide, by decide⟩, by decide⟩

/-- The body leads out of the arrays: by an attribute without room, or by the header of an attribute that is
not whole, where less than `spare` bytes follow in the buffer. -/
def LeadsOut (body : Bytes) (spare : Nat) : Prop :=
  (∃ front a back, (attributes body).1 = front ++ a :: back ∧ (∀ b ∈ front, Readable b) ∧ Overruns a) ∨
    (∀ a ∈ (attributes body).1, Readable a) ∧ (attributes body).2 ≠ [] ∧ (attributes body).2.length + spare < 4

theorem finish_outOfArray_iff {rest after : Bytes} {msg : StunMessage} :
    finish rest after msg = .error .outOfArray ↔ rest ≠ [] ∧ rest.length + after.length < 4 := by
  rw [finish, List.length_append]
  split
  · rename_i hRest
    exact iff_of_false nofun (fun h => h.1 hRest)
  · rename_i hRest
    split
    · rename_i hShort
      exact iff_of_true rfl ⟨hRest, hShort⟩
    · rename_i hShort
      exact iff_of_false nofun (fun h => hShort h.2)

theorem leadsOut_iff (hdr : StunMsgHdr) (body after : Bytes) :
    ((attributes body).1.foldlM store (.blank hdr) >>= finish (attributes body).2 after) = .error .outOfArray ↔
      LeadsOut body after.length := by
  rw [LeadsOut, ← foldlM_store_outOfArray _ (.blank hdr), ← isOk_foldlM_store _ (.blank hdr)]
  rcases (attributes body).1.foldlM store (.blank hdr) with stop | next
  · exact ⟨fun h => .inl h, fun h => h.elim id fun h => nomatch h.1⟩
  · refine Iff.trans ?_ (or_iff_right (by simp)).symm
    exact finish_outOfArray_iff.trans (and_iff_right rfl).symm

/-- Reading leaves the arrays exactly on these datagrams. -/
theorem stunParseMessage_outOfArray_iff {buf : Bytes} {bufLen : Nat} (hLength : bufLen ≤ buf.length) :
    stunParseMessage buf bufLen = .error .outOfArray ↔
      ∃ hdr body, Framed (buf.take bufLen) hdr body ∧ LeadsOut body (buf.length - bufLen) := by
  constructor
  · intro hParse
    by_cases hFramed : ∃ hdr body, Framed (buf.take bufLen) hdr body
    · obtain ⟨hdr, body, hFramed⟩ := hFramed
      obtain ⟨hCount, hBuf⟩ := framed_of_take hLength hFramed
      rw [hBuf, hCount, stunParseMessage_framed hFramed.length, leadsOut_iff, ← hCount, List.length_drop] at hParse
      exact ⟨hdr, body, hFramed, hParse⟩
    · simp only [not_exists] at hFramed
      obtain ⟨left, hLeft⟩ := stunParseMessage_unframed hLength hFramed
      rw [hLeft] at hParse
      cases hParse
  · rintro ⟨hdr, body, hFramed, hOut⟩
    obtain ⟨hCount, hBuf⟩ := framed_of_take hLength hFramed
    rw [← List.length_drop] at hOut
    rw [hBuf, hCount, stunParseMessage_framed hFramed.length, leadsOut_iff, ← hCount]
    exact hOut

/-- An error code of two bytes: its reason would have 65534. -/
def sampleError : Attribute := ⟨ErrorCode, [0, 4], by decide⟩

theorem stunParseMessage_outOfArray_sample :
    stunParseMessage ({ sampleHeader with msgLength := 6 }.bytes ++ sampleError.bytes ++ List.replicate 6 0) 26 =
      .error .outOfArray :=
  (stunParseMessage_outOfArray_iff (by decide)).mpr
    ⟨{ sampleHeader with msgLength := 6 }, sampleError.bytes, ⟨by decide, by decide⟩, .inl ⟨[], sampleError, [], by
      rw [show sampleError.bytes = [sampleError].flatMap Attribute.bytes by decide, attributes_flatMap]
      rfl, nofun, by decide⟩⟩

end Datagrams

end Tr069Agent.Com.StunLib
