import Tr069Agent.Com.Stun

/-! # The bounds of the pass over a UDP request

The pass reads the array of a datagram by positions. It leaves the array where a comparison or a value goes on at its
end, and it does not end where the eight bits of a size come round without a separator.
-/

namespace Tr069Agent.Com.Stun

open Library

set_option autoImplicit false

/-- What goes wrong in a pass. -/
inductive UdpFault where
  | endless
  | outside (position : Nat)
  | overrun (destination : UdpParameter) (size : Nat)
  deriving DecidableEq

section Pass

variable (message : Text)

def readAt (i : Nat) : Except UdpFault Char :=
  match message[i]? with
  | some c => .ok c
  | none => .error (.outside i)

/-- The comparisons with the characters of a token, up to the first that differs. -/
def comparedAt (i : Nat) : Text → Except UdpFault Bool
  | [] => .ok true
  | c :: token => do
    let d ← readAt message i
    if d = c then comparedAt (i + 1) token else .ok false

def matchAt (i : Nat) : List UdpParameter → Except UdpFault (Option UdpParameter)
  | [] => .ok none
  | param :: params => do
    let found ← comparedAt message i param.token
    if found then .ok (some param) else matchAt i params

/-- The loop `for ( size=0 ; message[i+size]!='&' ; size++ )`: after `left` more rounds the size is zero again. -/
def separatorAt (i : Nat) : (left size : Nat) → Except UdpFault Nat
  | 0, _ => .error .endless
  | left + 1, size => do
    let c ← readAt message (i + size)
    if c = '&' then .ok size else separatorAt i left (size + 1)

/-- The places in the destinations. -/
def capacity : UdpParameter → Nat
  | .ts | .id => 50
  | .un | .cn => stunMaxString
  | .sig => hmacSize

/-- The places that so many characters need: a zero is written behind some of them. -/
def needed (size : Nat) : UdpParameter → Nat
  | .un | .cn => size + 1
  | _ => size

def copyTo (destination : UdpParameter) (size : Nat) : Except UdpFault Unit :=
  if needed size destination ≤ capacity destination then .ok () else .error (.overrun destination size)

/-- The value at a position is looked for and copied. -/
def copyParameter (i : Nat) (param : UdpParameter) : Except UdpFault Unit :=
  match param with
  | .sig => if i + hmacSize ≤ message.length then copyTo .sig hmacSize else .error (.outside message.length)
  | _ => do
    let size ← separatorAt message i (2 ^ 8) 0
    copyTo param size

/-- The loop of `DM_STUN_extractUdpParameters` from a position on, where `left` more parameters are looked for. Every
round goes at least one position on. -/
def scanFrom : (fuel left i : Nat) → Except UdpFault Unit
  | 0, _, _ => .error .endless
  | _, 0, _ => .ok ()
  | fuel + 1, left + 1, i =>
    if stunMaxMessageSize ≤ i then .ok ()
    else do
      match ← matchAt message i [.ts, .id, .un, .cn, .sig] with
      | none => scanFrom fuel (left + 1) (i + 1)
      | some param => do
        let start := i + param.token.length
        copyParameter message start param
        scanFrom fuel left (start + 1)

end Pass

/-- The array of a datagram. -/
def messageArray (datagram : Text) : Text :=
  datagram ++ List.replicate (stunMaxMessageSize - datagram.length) '\x00'

/-- The pass ends, stays in the array and copies no more than there is room for. -/
def StaysInside (datagram : Text) : Prop :=
  scanFrom (messageArray datagram) (stunMaxMessageSize + 1) 5 0 = .ok ()

/-- The texts from the positions at which the tokens are compared, as far as `findParameters` goes. -/
def visited : (left skip : Nat) → Text → List Text
  | 0, _, _ => []
  | _, _, [] => []
  | left + 1, skip + 1, _ :: message => visited (left + 1) skip message
  | left + 1, 0, c :: message =>
    (c :: message) :: match parameterAt (c :: message) with
      | none => visited (left + 1) 0 message
      | some param => visited left param.token.length message

/-- A token has only begun where the array ends. -/
def BreaksOff (text : Text) : Prop := ∃ param : UdpParameter, text <+: param.token ∧ text ≠ param.token

/-- The value ends with a separator in time, and the destination holds it. -/
def HasRoom : UdpParameter × Text → Prop
  | (.ts, text) | (.id, text) => ∃ value ∈ valueText text, value.length ≤ 50
  | (.un, text) | (.cn, text) => (valueText text).isSome = true
  | (.sig, text) => hmacSize ≤ text.length

section Faults

variable {α β : Type}

theorem bind_ok (a : α) (f : α → Except UdpFault β) : (Except.ok a >>= f) = f a := rfl

theorem bind_error (fault : UdpFault) (f : α → Except UdpFault β) : (Except.error fault >>= f) = .error fault := rfl

theorem bind_eq_ok_iff {x : Except UdpFault α} {f : α → Except UdpFault β} {b : β} :
    (x >>= f) = .ok b ↔ ∃ a, x = .ok a ∧ f a = .ok b := by
  cases x with
  | error fault => simp [bind_error]
  | ok a => simp [bind_ok]

theorem then_eq_ok_iff {x : Except UdpFault Unit} {y : Except UdpFault β} {b : β} :
    (x >>= fun _ => y) = .ok b ↔ x = .ok () ∧ y = .ok b := by
  rw [bind_eq_ok_iff]
  exact ⟨fun ⟨(), hX, hY⟩ => ⟨hX, hY⟩, fun ⟨hX, hY⟩ => ⟨(), hX, hY⟩⟩

end Faults

section Reads

variable {message rest : Text} {i : Nat}

theorem readAt_cons {c : Char} (h : message.drop i = c :: rest) : readAt message i = .ok c := by
  have hHead : message[i]? = some c := by rw [← List.head?_drop, h, List.head?_cons]
  rw [readAt, hHead]

theorem readAt_nil (h : message.drop i = []) : readAt message i = .error (.outside i) := by
  have hHead : message[i]? = none := by rw [← List.head?_drop, h, List.head?_nil]
  rw [readAt, hHead]

theorem drop_succ {c : Char} (h : message.drop i = c :: rest) : message.drop (i + 1) = rest := by
  rw [← List.tail_drop, h, List.tail_cons]

theorem comparedAt_eq (token : Text) (h : message.drop i = rest) :
    comparedAt message i token =
      if token <+: rest then .ok true
      else if rest <+: token then .error (.outside (i + rest.length))
      else .ok false := by
  induction token generalizing i rest with
  | nil => rw [comparedAt, if_pos List.nil_prefix]
  | cons c token ih =>
    rw [comparedAt]
    cases rest with
    | nil =>
      rw [readAt_nil h, if_neg (by simp), if_pos List.nil_prefix]
      rfl
    | cons d rest =>
      rw [readAt_cons h]
      by_cases hSame : d = c
      · have hTail := ih (drop_succ h)
        have hEnd : i + (rest.length + 1) = i + 1 + rest.length := by omega
        simp only [bind_ok, hSame, if_true, List.cons_prefix_cons, true_and, List.length_cons, hEnd]
        exact hTail
      · have hOther : c ≠ d := Ne.symm hSame
        simp only [bind_ok, hSame, hOther, if_false, List.cons_prefix_cons, false_and]

theorem token_injective {param other : UdpParameter} (h : param.token <+: other.token) : param = other := by
  revert h
  cases param <;> cases other <;> decide

theorem matchAt_eq {params : List UdpParameter} (h : message.drop i = rest)
    (hWhole : ∀ param ∈ params, rest <+: param.token → rest = param.token) :
    matchAt message i params = .ok (params.find? fun param => param.token.isPrefixOf rest) := by
  induction params with
  | nil => rfl
  | cons param params ih =>
    obtain ⟨hHere, hWhole⟩ := List.forall_mem_cons.mp hWhole
    rw [matchAt, comparedAt_eq param.token h, List.find?_cons]
    by_cases hFound : param.token <+: rest
    · rw [if_pos hFound, List.isPrefixOf_iff_prefix.mpr hFound]
      rfl
    · have hNotPart : ¬ rest <+: param.token := fun hPart => hFound (hHere hPart ▸ List.prefix_refl _)
      have hNot : param.token.isPrefixOf rest = false :=
        Bool.eq_false_iff.mpr (mt List.isPrefixOf_iff_prefix.mp hFound)
      rw [if_neg hFound, if_neg hNotPart, hNot]
      exact ih hWhole

/-- Before the token that breaks off no other one matches. -/
theorem matchAt_breaksOff {params : List UdpParameter} (h : message.drop i = rest) {param : UdpParameter}
    (hMem : param ∈ params) (hPart : rest <+: param.token) (hCut : rest ≠ param.token) :
    ∃ fault, matchAt message i params = .error fault := by
  induction params with
  | nil => cases hMem
  | cons first params ih =>
    rw [matchAt, comparedAt_eq first.token h]
    have hNot : ¬ first.token <+: rest := by
      intro hFound
      obtain rfl := token_injective (hFound.trans hPart)
      exact hCut (hPart.eq_of_length_le hFound.length_le)
    rw [if_neg hNot]
    by_cases hFirst : rest <+: first.token
    · rw [if_pos hFirst]
      exact ⟨_, rfl⟩
    · rw [if_neg hFirst]
      refine ih ((List.mem_cons.mp hMem).resolve_left ?_)
      rintro rfl
      exact hFirst hPart

theorem separatorAt_eq_ok_iff {left size found : Nat} (h : message.drop (i + size) = rest) :
    separatorAt message i left size = .ok found ↔ (rest.takeWhile (· ≠ '&')).length < left ∧
      (rest.takeWhile (· ≠ '&')).length < rest.length ∧ found = size + (rest.takeWhile (· ≠ '&')).length := by
  induction left generalizing size rest with
  | zero => simp [separatorAt]
  | succ left ih =>
    rw [separatorAt]
    cases rest with
    | nil =>
      rw [readAt_nil h]
      simp [bind_error]
    | cons c rest =>
      rw [readAt_cons h]
      by_cases hHere : c = '&'
      · subst hHere
        simp [bind_ok, eq_comm]
      · have hNext := @ih rest (size + 1) (drop_succ h)
        rw [bind_ok, if_neg hHere, hNext]
        simp [hHere]
        omega

end Reads

section Rounds

variable {message : Text}

theorem findParameters_skip (left skip : Nat) (text : Text) :
    findParameters left skip text = findParameters left 0 (text.drop skip) := by
  induction skip generalizing text with
  | zero => rfl
  | succ skip ih =>
    cases left with
    | zero => simp [findParameters]
    | succ left =>
      cases text with
      | nil => rfl
      | cons c text =>
        rw [findParameters, ih]
        rfl

theorem visited_skip (left skip : Nat) (text : Text) : visited left skip text = visited left 0 (text.drop skip) := by
  induction skip generalizing text with
  | zero => rfl
  | succ skip ih =>
    cases left with
    | zero => simp [visited]
    | succ left =>
      cases text with
      | nil => rfl
      | cons c text =>
        rw [visited, ih]
        rfl

theorem separatorAt_ok_iff {start found : Nat} :
    separatorAt message start (2 ^ 8) 0 = .ok found ↔
      ∃ value ∈ valueText (message.drop start), value.length = found := by
  rw [separatorAt_eq_ok_iff rfl, Nat.zero_add, Nat.add_zero, valueText]
  by_cases hValue : ((message.drop start).takeWhile (· ≠ '&')).length < 2 ^ 8 ∧
      ((message.drop start).takeWhile (· ≠ '&')).length < (message.drop start).length
  · simp only [if_pos hValue, Option.mem_def, Option.some.injEq, exists_eq_left']
    exact ⟨fun h => h.2.2.symm, fun h => ⟨hValue.1, hValue.2, h.symm⟩⟩
  · simp only [if_neg hValue, Option.mem_def, reduceCtorEq, false_and, exists_false, iff_false]
    exact fun h => hValue ⟨h.1, h.2.1⟩

theorem copyTo_ok_iff {destination : UdpParameter} {size : Nat} :
    copyTo destination size = .ok () ↔ needed size destination ≤ capacity destination := by
  rw [copyTo]
  split <;> simp [*]

theorem copyParameter_ok_iff {start : Nat} (param : UdpParameter) :
    copyParameter message start param = .ok () ↔ HasRoom (param, message.drop start) := by
  have hCopy (destination : UdpParameter) (hValue : destination ≠ .sig) :
      copyParameter message start destination = .ok () ↔
        ∃ value ∈ valueText (message.drop start), copyTo destination value.length = .ok () := by
    have hUnfold : copyParameter message start destination =
        separatorAt message start (2 ^ 8) 0 >>= copyTo destination := by
      cases destination <;> first | rfl | exact absurd rfl hValue
    rw [hUnfold, bind_eq_ok_iff]
    simp only [separatorAt_ok_iff]
    constructor
    · rintro ⟨size, ⟨value, hMem, rfl⟩, hRoom⟩
      exact ⟨value, hMem, hRoom⟩
    · rintro ⟨value, hMem, hRoom⟩
      exact ⟨_, ⟨value, hMem, rfl⟩, hRoom⟩
  have hShort {value : Text} (hMem : value ∈ valueText (message.drop start)) : value.length + 1 ≤ stunMaxString := by
    rw [valueText] at hMem
    split at hMem
    · rename_i hValue
      obtain rfl := Option.some.inj hMem
      exact hValue.1
    · cases hMem
  cases param with
  | ts | id =>
    rw [hCopy _ (by decide)]
    simp only [copyTo_ok_iff]
    rfl
  | un | cn =>
    rw [hCopy _ (by decide), HasRoom, Option.isSome_iff_exists]
    exact exists_congr fun value => and_iff_left_of_imp fun hMem => copyTo_ok_iff.mpr (hShort hMem)
  | sig =>
    have hSize : start + hmacSize ≤ message.length ↔ hmacSize ≤ (message.drop start).length := by
      rw [List.length_drop, hmacSize]
      omega
    rw [HasRoom, ← hSize, copyParameter]
    by_cases hRoom : start + hmacSize ≤ message.length
    · have hCopied : copyTo .sig hmacSize = .ok () := copyTo_ok_iff.mpr (by decide)
      simp only [if_pos, hRoom, hCopied]
    · simp [hRoom]

theorem HasRoom.length_pos {found : UdpParameter × Text} (h : HasRoom found) : 0 < found.2.length := by
  have hValue {text value : Text} (hMem : value ∈ valueText text) : 0 < text.length := by
    rw [valueText] at hMem
    split at hMem
    · rename_i hShorter
      exact Nat.zero_lt_of_lt hShorter.2
    · cases hMem
  obtain ⟨param, text⟩ := found
  cases param with
  | ts | id =>
    obtain ⟨value, hMem, -⟩ := h
    exact hValue hMem
  | un | cn =>
    obtain ⟨value, hMem⟩ := Option.isSome_iff_exists.mp h
    exact hValue hMem
  | sig => exact Nat.lt_of_lt_of_le (by decide) h

theorem visited_cons (left : Nat) (c : Char) (text : Text) :
    visited (left + 1) 0 (c :: text) = (c :: text) :: match parameterAt (c :: text) with
      | none => visited (left + 1) 0 text
      | some param => visited left 0 (text.drop param.token.length) := by
  rw [visited]
  cases parameterAt (c :: text) with
  | none => rfl
  | some param => simp only [visited_skip left param.token.length text]

theorem findParameters_cons (left : Nat) (c : Char) (text : Text) :
    findParameters (left + 1) 0 (c :: text) = match parameterAt (c :: text) with
      | none => findParameters (left + 1) 0 text
      | some param => (param, (c :: text).drop param.token.length) ::
          findParameters left 0 (text.drop param.token.length) := by
  rw [findParameters]
  cases parameterAt (c :: text) with
  | none => rfl
  | some param => simp only [findParameters_skip left param.token.length text]

/-- A round reads past the array exactly where a token breaks off; else it finds the parameter that stands there. -/
theorem matchAt_udpParameters {i : Nat} {text : Text} (h : message.drop i = text) :
    (BreaksOff text ∧ ∃ fault, matchAt message i [.ts, .id, .un, .cn, .sig] = .error fault) ∨
      (¬ BreaksOff text ∧ matchAt message i [.ts, .id, .un, .cn, .sig] = .ok (parameterAt text)) := by
  by_cases hBreaks : BreaksOff text
  · obtain ⟨param, hPart, hCut⟩ := hBreaks
    exact .inl ⟨⟨param, hPart, hCut⟩, matchAt_breaksOff h (by cases param <;> decide) hPart hCut⟩
  · exact .inr ⟨hBreaks, matchAt_eq h fun param _ hPart => not_not.mp fun hCut => hBreaks ⟨param, hPart, hCut⟩⟩

/-- The pass goes well from a position on exactly when every parameter has room and no comparison breaks off. -/
theorem scanFrom_ok_iff (hArray : message.length = stunMaxMessageSize) {fuel left i : Nat}
    (hInside : i ≤ stunMaxMessageSize)
    (hFuel : stunMaxMessageSize < i + fuel) :
    scanFrom message fuel left i = .ok () ↔ (∀ found ∈ findParameters left 0 (message.drop i), HasRoom found) ∧
      ∀ text ∈ visited left 0 (message.drop i), ¬ BreaksOff text := by
  induction fuel generalizing left i with
  | zero => omega
  | succ fuel ih =>
    cases left with
    | zero => simp [scanFrom, findParameters, visited]
    | succ left =>
      rw [scanFrom]
      by_cases hEnd : stunMaxMessageSize ≤ i
      · have hNil : message.drop i = [] := List.drop_eq_nil_iff.mpr (by omega)
        simp [if_pos hEnd, hNil, findParameters, visited]
      · rw [if_neg hEnd]
        obtain ⟨c, rest, hRest⟩ := List.exists_cons_of_ne_nil
          (List.ne_nil_of_length_pos (l := message.drop i) (by rw [List.length_drop]; omega))
        have hNext := drop_succ hRest
        rw [hRest, visited_cons, findParameters_cons, List.forall_mem_cons]
        rcases matchAt_udpParameters hRest with ⟨hBreaks, fault, hFault⟩ | ⟨hWhole, hMatch⟩
        · simp [hFault, bind_error, hBreaks]
        · rw [hMatch, bind_ok]
          cases parameterAt (c :: rest) with
          | none =>
            have hRound := @ih (left + 1) (i + 1) (by omega) (by omega)
            rw [hNext] at hRound
            simp only [hRound, hWhole, not_false_eq_true, true_and]
          | some param =>
            have hStart : (c :: rest).drop param.token.length = message.drop (i + param.token.length) := by
              rw [← hRest, List.drop_drop]
            have hLater : rest.drop param.token.length = message.drop (i + param.token.length + 1) := by
              rw [← hNext, List.drop_drop, Nat.add_right_comm]
            simp only [hWhole, not_false_eq_true, true_and, List.forall_mem_cons, hStart, hLater, then_eq_ok_iff,
              copyParameter_ok_iff, and_assoc]
            refine and_congr_right fun hRoom => ih ?_ ?_
            · have hSome := hRoom.length_pos
              rw [List.length_drop] at hSome
              omega
            · omega

end Rounds

/-- The pass ends inside the array if and only if each parameter that is found has its separator and its room, and no
token has only begun at the end of a full array. -/
theorem staysInside_iff {datagram : Text} (h : datagram.length ≤ stunMaxMessageSize) :
    StaysInside datagram ↔ (∀ found ∈ parametersOf datagram, HasRoom found) ∧
      ∀ text ∈ visited 5 0 (messageArray datagram), ¬ BreaksOff text := by
  have hArray : (messageArray datagram).length = stunMaxMessageSize := by
    rw [messageArray, List.length_append, List.length_replicate]
    omega
  exact scanFrom_ok_iff hArray (Nat.zero_le _) (by omega)

theorem suffix_of_mem_visited {left skip : Nat} {message text : Text} (h : text ∈ visited left skip message) :
    text <:+ message ∧ text ≠ [] := by
  induction message generalizing left skip with
  | nil => cases left <;> cases h
  | cons c message ih =>
    have hLater {left skip : Nat} (hMem : text ∈ visited left skip message) : text <:+ c :: message ∧ text ≠ [] :=
      ⟨(ih hMem).1.trans (List.suffix_cons c message), (ih hMem).2⟩
    cases left with
    | zero => cases h
    | succ left =>
      cases skip with
      | succ skip => exact hLater h
      | zero =>
        rw [visited] at h
        rcases List.mem_cons.mp h with rfl | hMem
        · exact ⟨List.suffix_refl _, List.cons_ne_nil c message⟩
        · split at hMem
          · exact hLater hMem
          · exact hLater hMem

theorem not_breaksOff_of_short {datagram : Text} (h : datagram.length < stunMaxMessageSize) {text : Text}
    (hMem : text ∈ visited 5 0 (messageArray datagram)) : ¬ BreaksOff text := by
  obtain ⟨hSuffix, hSome⟩ := suffix_of_mem_visited hMem
  have hLast : (messageArray datagram).getLast? = some '\x00' := by
    rw [messageArray, List.getLast?_append_of_ne_nil _ (by simp; omega), List.getLast?_replicate, if_neg (by omega)]
  have hZero : '\x00' ∈ text := by
    obtain ⟨front, hArray⟩ := hSuffix
    rw [← hArray, List.getLast?_append_of_ne_nil _ hSome] at hLast
    exact List.mem_of_getLast? hLast
  rintro ⟨param, hPart, -⟩
  have hToken : '\x00' ∉ param.token := by cases param <;> decide
  exact hToken (hPart.subset hZero)

def sampleDatagram : Text :=
  "GET ?ts=1120673700&id=1234&un=CPE57689&cn=XTGRWIPC6D3IPXS3".toList ++
    "&sig=3545F7B5820D76A3DF45A3A509DA8D8C38F13512 HTTP/1.1".toList

theorem staysInside_sample : StaysInside sampleDatagram ↔ (∀ found ∈ parametersOf sampleDatagram, HasRoom found) ∧
    ∀ text ∈ visited 5 0 (messageArray sampleDatagram), ¬ BreaksOff text :=
  staysInside_iff (by decide +kernel)

/-- Without a separator behind the time stamp the search for it never ends. -/
theorem time_stamp_without_end :
    isRequest "GET ?ts=1 HTTP/1.1".toList = true ∧ "GET ?ts=1 HTTP/1.1".toList.length ≤ stunMaxMessageSize ∧
      scanFrom (messageArray "GET ?ts=1 HTTP/1.1".toList) (stunMaxMessageSize + 1) 5 0 = .error .endless ∧
        ¬ StaysInside "GET ?ts=1 HTTP/1.1".toList := by
  have hEndless : scanFrom (messageArray "GET ?ts=1 HTTP/1.1".toList) (stunMaxMessageSize + 1) 5 0 =
      .error .endless := by
    decide +kernel
  refine ⟨by decide +kernel, by decide +kernel, hEndless, fun hStays => ?_⟩
  rw [StaysInside, hEndless] at hStays
  cases hStays

end Tr069Agent.Com.Stun
