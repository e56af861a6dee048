import Mathlib.Data.List.TakeWhile
import Tr069Agent.Library.Framing
import Tr069Agent.Library.Text

/-! # Reassembly of the SOAP messages of the ACS

The data callback of the HTTP client receives a message in pieces. It looks for the begin and end
tags of the envelope in each piece, under the namespace prefix kept from an earlier message of the
session or guessed from the piece, and submits the stored text when a piece holds the end tag.
-/

namespace Tr069Agent.Com.Reassembly

open Library Library.Text Library.Framing

set_option autoImplicit false

def authorizationRequired : Text := "401 Authorization Required".toList

def jspExceptionAcs : Text := "<b>exception</b>".toList

def envTag : Text := "Envelope".toList

/-- `DM_COM_SoapEnv_NS`: not set, the static default, or a prefix read in a message. -/
inductive SoapEnvNs where
  | null
  | default
  | received (ns : Text)
  deriving DecidableEq

/-- `_BeginEnvelopeTag` for the prefix `ns`. -/
def beginEnvelopeTag (ns : Text) : Text := '<' :: (ns ++ ':' :: envTag)

/-- `_EndEnvelopeTag` for the prefix `ns`. -/
def endEnvelopeTag (ns : Text) : Text := '<' :: '/' :: (ns ++ ':' :: (envTag ++ ['>']))

/-- The text between the first `<` and the first `:` of the piece, at most fifteen apart. -/
def guessNs (data : Text) : Option Text :=
  match data.idxOf? '<', data.idxOf? ':' with
  | some c1, some c2 =>
    if c1 > c2 ∨ c2 - c1 > 15 then none else some ((data.drop (c1 + 1)).take (c2 - c1 - 1))
  | _, _ => none

/-- The prefix the tags are built from while `data` is treated. -/
def nsInEffect (current : SoapEnvNs) (data : Text) : Option Text :=
  match current with
  | .received ns => some ns
  | .null => guessNs data
  | .default => guessNs data

/-- The static buffer of the callback and the prefix shared with the rest of the program. -/
structure ClientData where
  pMessage : Option Text
  soapEnvNs : SoapEnvNs
  deriving DecidableEq

/-- One call: the state left, the text submitted to `DM_AnalyseSoapMessage`, the value returned. -/
structure CallbackResult where
  state : ClientData
  submitted : Option Text
  result : Int

section Callback

-- what the analysis and execution of a submitted text leave of the prefix in effect
variable (afterSubmit : Text → Text → SoapEnvNs)

def httpCallbackClientData (s : ClientData) (data : Text) : CallbackResult :=
  if strstr data authorizationRequired then ⟨s, none, 0⟩
  else if strstr data jspExceptionAcs then ⟨s, none, -1⟩
  else
    match nsInEffect s.soapEnvNs data with
    | none => ⟨s, none, 0⟩
    | some ns =>
      -- a new message begins while an incomplete one is stored
      let pMessage := if s.pMessage.isSome && strstr data (beginEnvelopeTag ns) then none else s.pMessage
      match pMessage with
      | none =>
        if !strstr data (beginEnvelopeTag ns) then ⟨⟨none, .received ns⟩, none, data.length⟩
        else if strstr data (endEnvelopeTag ns) then
          ⟨⟨none, afterSubmit data ns⟩, some data, data.length⟩
        else ⟨⟨some data, .received ns⟩, none, data.length⟩
      | some stored =>
        if strstr data (endEnvelopeTag ns) then
          ⟨⟨none, afterSubmit (stored ++ data) ns⟩, some (stored ++ data), data.length⟩
        else ⟨⟨some (stored ++ data), .received ns⟩, none, data.length⟩

/-- The callback on the pieces of a message in order: the state left and what each call submits. -/
def callbackAll (s : ClientData) : List Text → ClientData × List (Option Text)
  | [] => (s, [])
  | data :: chunks =>
    let r := httpCallbackClientData afterSubmit s data
    let rest := callbackAll r.state chunks
    (rest.1, r.submitted :: rest.2)

end Callback

/-- A SOAP envelope text as the ACS sends it: the envelope carries the prefix `ns`, its two tags
occur once, in order, with or without a declaration in front, and no error marker occurs. -/
structure EnvelopeText (ns text : Text) : Prop where
  length_pos : 0 < ns.length
  length_le : ns.length ≤ 14
  letters : ∀ c ∈ ns, c.isAlpha = true
  shape : ∃ prolog content trailer,
    text = prolog ++ beginEnvelopeTag ns ++ content ++ endEnvelopeTag ns ++ trailer
  beginOnce : occurrences (beginEnvelopeTag ns) text = 1
  endOnce : occurrences (endEnvelopeTag ns) text = 1
  notUnauthorized : ¬ authorizationRequired <:+: text
  notException : ¬ jspExceptionAcs <:+: text

/-- The states between two messages: the first one, those left by a message delivered in pieces, and
those where another thread releases the prefix or puts the default one. -/
inductive Reachable : ClientData → Prop
  | start : Reachable ⟨none, .null⟩
  | delivered {s : ClientData} (afterSubmit : Text → Text → SoapEnvNs) {ns text : Text}
      (chunks : List Text) : Reachable s → EnvelopeText ns text → chunks.flatten = text →
      (∀ data ∈ chunks, data ≠ []) → Reachable (callbackAll afterSubmit s chunks).1
  | freePrefixedTag {s : ClientData} : Reachable s → Reachable { s with soapEnvNs := .null }
  | initPrefixedTag {s : ClientData} : Reachable s → s.soapEnvNs = .null →
      Reachable { s with soapEnvNs := .default }

/-- The condition on the cut. With the pieces in front dropped as long as no prefix is in effect:
the first piece left and no later one holds the begin tag (nothing being dropped), or the buffer
holds exactly what was dropped and no piece holds the begin tag; the last piece left and no earlier
one holds the end tag. -/
def TagsUncut (s : ClientData) (chunks : List Text) : Prop :=
  let ignored := chunks.takeWhile fun data => (nsInEffect s.soapEnvNs data).isNone
  match chunks.dropWhile fun data => (nsInEffect s.soapEnvNs data).isNone with
  | [] => False
  | first :: rest => ∃ ns, nsInEffect s.soapEnvNs first = some ns ∧
    ((ignored = [] ∧ beginEnvelopeTag ns <:+: first ∧ ∀ data ∈ rest, ¬ beginEnvelopeTag ns <:+: data) ∨
      (s.pMessage = some ignored.flatten ∧ ∀ data ∈ first :: rest, ¬ beginEnvelopeTag ns <:+: data)) ∧
    endEnvelopeTag ns <:+: (first :: rest).getLast (by simp) ∧
    ∀ data ∈ (first :: rest).dropLast, ¬ endEnvelopeTag ns <:+: data

def isBegin (ns data : Text) : Bool := strstr data (beginEnvelopeTag ns)

def isEnd (ns data : Text) : Bool := strstr data (endEnvelopeTag ns)

def Unmarked (data : Text) : Prop :=
  ¬ authorizationRequired <:+: data ∧ ¬ jspExceptionAcs <:+: data

section Refinement

variable (afterSubmit : Text → Text → SoapEnvNs)

/-- A piece dropped because no prefix is in effect changes nothing. -/
theorem callback_of_nsInEffect_none {s : ClientData} {data : Text} (hData : Unmarked data)
    (hNs : nsInEffect s.soapEnvNs data = none) :
    httpCallbackClientData afterSubmit s data = ⟨s, none, 0⟩ := by
  simp [httpCallbackClientData, strstr, hData.1, hData.2, hNs]

/-- Under a prefix, one call is one step of the collector for its two tags. -/
theorem callback_collect (s : ClientData) (data : Text) {ns : Text} (hData : Unmarked data)
    (hNs : nsInEffect s.soapEnvNs data = some ns) :
    let r := httpCallbackClientData afterSubmit s data
    let c := collect (isBegin ns) (isEnd ns) s.pMessage data
    r.submitted = c.2 ∧ r.state.pMessage = c.1 ∧ (c.2 = none → r.state.soapEnvNs = .received ns) := by
  obtain ⟨pMessage, soapEnvNs⟩ := s
  have hAuth : strstr data authorizationRequired = false := strstr_eq_false_iff.mpr hData.1
  have hJsp : strstr data jspExceptionAcs = false := strstr_eq_false_iff.mpr hData.2
  simp only [httpCallbackClientData, hAuth, hJsp, Bool.false_eq_true, if_false, hNs, collect, keep,
    isBegin, isEnd]
  by_cases hBegin : strstr data (beginEnvelopeTag ns) = true <;>
    by_cases hEnd : strstr data (endEnvelopeTag ns) = true <;>
    cases pMessage <;> simp only [hBegin, hEnd] <;> simp

/-- The pieces from the first one a prefix is in effect for go through the collector. -/
theorem submitted_collectAll {message ns data : Text} {chunks : List Text}
    (hChunks : ∀ d ∈ data :: chunks, Unmarked d) (s : ClientData)
    (hNs : nsInEffect s.soapEnvNs data = some ns) :
    HandsOverLast message (callbackAll afterSubmit s (data :: chunks)).2 ↔
      HandsOverLast message (collectAll (isBegin ns) (isEnd ns) s.pMessage (data :: chunks)) := by
  induction chunks generalizing s data with
  | nil =>
    have hStep := callback_collect afterSubmit s data (hChunks data (by simp)) hNs
    simp [callbackAll, collectAll, hStep.1]
  | cons next chunks ih =>
    rw [List.forall_mem_cons] at hChunks
    obtain ⟨hOut, hBuffer, hKeep⟩ := callback_collect afterSubmit s data hChunks.1 hNs
    rw [callbackAll, collectAll]
    simp only [hOut]
    rw [callbackAll, collectAll, handsOverLast_cons, handsOverLast_cons]
    apply and_congr_right
    intro hSilent
    have hNext := ih hChunks.2 (httpCallbackClientData afterSubmit s data).state
      (by rw [hKeep hSilent]; rfl)
    rw [hBuffer] at hNext
    exact hNext

theorem submitted_ignored (s : ClientData) {ignored : List Text} (chunks : List Text)
    (hUnmarked : ∀ data ∈ ignored, Unmarked data)
    (hIgnored : ∀ data ∈ ignored, nsInEffect s.soapEnvNs data = none) :
    (callbackAll afterSubmit s (ignored ++ chunks)).2 =
      List.replicate ignored.length none ++ (callbackAll afterSubmit s chunks).2 := by
  induction ignored with
  | nil => simp
  | cons data ignored ih =>
    rw [List.forall_mem_cons] at hUnmarked hIgnored
    have hStep := callback_of_nsInEffect_none afterSubmit hUnmarked.1 hIgnored.1
    simp [callbackAll, hStep, ih hUnmarked.2 hIgnored.2, List.replicate_succ]

theorem callback_pMessage_ne_nil (s : ClientData) (data : Text) (h : s.pMessage ≠ some []) :
    (httpCallbackClientData afterSubmit s data).state.pMessage ≠ some [] := by
  obtain ⟨pMessage, soapEnvNs⟩ := s
  have hBegin : ∀ ns, strstr [] (beginEnvelopeTag ns) = false := by simp [beginEnvelopeTag]
  unfold httpCallbackClientData
  split_ifs
  · exact h
  · exact h
  · split
    · exact h
    · dsimp only
      split
      · split_ifs with hNoBegin
        · simp
        · simp
        · rintro hNil
          obtain rfl : data = [] := by simpa using hNil
          simp [hBegin] at hNoBegin
      · rename_i stored hStored
        split_ifs
        · simp
        · have : stored ≠ [] := by
            rintro rfl
            split_ifs at hStored
            exact h hStored
          simp [this]

theorem callbackAll_pMessage_ne_nil (s : ClientData) (chunks : List Text)
    (h : s.pMessage ≠ some []) : (callbackAll afterSubmit s chunks).1.pMessage ≠ some [] := by
  induction chunks generalizing s with
  | nil => exact h
  | cons data chunks ih => exact ih _ (callback_pMessage_ne_nil afterSubmit s data h)

end Refinement

theorem Reachable.pMessage_ne_nil {s : ClientData} (h : Reachable s) : s.pMessage ≠ some [] := by
  induction h with
  | start => simp
  | delivered afterSubmit chunks _ _ _ _ ih => exact callbackAll_pMessage_ne_nil afterSubmit _ chunks ih
  | freePrefixedTag _ ih => exact ih
  | initPrefixedTag _ _ ih => exact ih

theorem EnvelopeText.unmarked {ns : Text} {chunks : List Text}
    (h : EnvelopeText ns chunks.flatten) : ∀ data ∈ chunks, Unmarked data := by
  intro data hData
  have hInfix := List.infix_of_mem_flatten hData
  exact ⟨fun hAuth => h.notUnauthorized (hAuth.trans hInfix),
    fun hJsp => h.notException (hJsp.trans hInfix)⟩

/-- In every state left by earlier messages, the pieces of a message make the callback submit the
message once, after the last piece, exactly when the cut keeps the tags it looks for whole. -/
theorem submits_message_iff_tagsUncut (afterSubmit : Text → Text → SoapEnvNs) {s : ClientData}
    (hs : Reachable s) {ns text : Text} (hText : EnvelopeText ns text) {chunks : List Text}
    (hCut : chunks.flatten = text) (hNonempty : ∀ data ∈ chunks, data ≠ []) :
    HandsOverLast text (callbackAll afterSubmit s chunks).2 ↔ TagsUncut s chunks := by
  subst hCut
  have hUnmarked := hText.unmarked
  unfold TagsUncut
  dsimp only
  obtain ⟨ignored, hIgnored⟩ : ∃ ignored, ignored =
      chunks.takeWhile fun data => (nsInEffect s.soapEnvNs data).isNone := ⟨_, rfl⟩
  obtain ⟨accepted, hAccepted⟩ : ∃ accepted, accepted =
      chunks.dropWhile fun data => (nsInEffect s.soapEnvNs data).isNone := ⟨_, rfl⟩
  have hSplit : chunks = ignored ++ accepted := by
    rw [hIgnored, hAccepted, List.takeWhile_append_dropWhile]
  have hDropped : ∀ data ∈ ignored, nsInEffect s.soapEnvNs data = none := by
    intro data hData
    rw [hIgnored] at hData
    simpa using List.mem_takeWhile_imp hData
  rw [← hIgnored, ← hAccepted]
  have hRun := submitted_ignored afterSubmit s accepted
    (fun data hData => hUnmarked data (by simp [hSplit, hData])) hDropped
  rw [hSplit] at hUnmarked hNonempty ⊢
  rw [hRun]
  cases accepted with
  | nil =>
    rw [iff_false]
    exact not_handsOverLast_of_silent _ (by simp [callbackAll])
  | cons first rest =>
    obtain ⟨g, hg⟩ : ∃ g, nsInEffect s.soapEnvNs first = some g := by
      have hHead := List.head_dropWhile_not (fun data => (nsInEffect s.soapEnvNs data).isNone)
        (show chunks.dropWhile _ ≠ [] by rw [← hAccepted]; simp)
      simp only [← hAccepted, List.head_cons] at hHead
      exact Option.isSome_iff_exists.mp (by simpa using hHead)
    have hEmpty : ignored.flatten = [] ↔ ignored = [] := by
      constructor
      · intro h
        cases ignored with
        | nil => rfl
        | cons data ignored =>
          exact absurd (List.append_eq_nil_iff.mp h).1 (hNonempty data (by simp))
      · rintro rfl
        rfl
    rw [handsOverLast_replicate_append _ _ _ (by simp [callbackAll]), submitted_collectAll afterSubmit
      (fun d hd => hUnmarked d (List.mem_append_right _ hd)) s hg, List.flatten_append,
      delivers_iff _ _ hs.pMessage_ne_nil (hNonempty first (by simp)), hEmpty]
    simp [hg, isBegin, isEnd]

theorem EnvelopeText.colon_not_mem {ns text : Text} (h : EnvelopeText ns text) : ':' ∉ '<' :: ns := by
  intro hMem
  rcases List.mem_cons.mp hMem with hEq | hMem
  · exact absurd hEq (by decide)
  · exact absurd (h.letters _ hMem) (by decide)

/-- A first piece that reaches the colon of the envelope tag gives the prefix of the envelope. -/
theorem guessNs_of_colon_mem {ns content first : Text}
    (hText : EnvelopeText ns (beginEnvelopeTag ns ++ content))
    (hFirst : first <+: beginEnvelopeTag ns ++ content) (hMem : ':' ∈ first) :
    guessNs first = some ns := by
  have hShape : beginEnvelopeTag ns ++ content = ('<' :: ns) ++ ':' :: (envTag ++ content) := by
    simp [beginEnvelopeTag]
  rw [hShape] at hFirst
  obtain ⟨tail, rfl⟩ := exists_eq_of_isPrefix hText.colon_not_mem hFirst hMem
  have hLength := hText.length_le
  rw [guessNs, idxOf?_append_cons hText.colon_not_mem]
  simp [List.idxOf?_cons]
  omega

theorem guessNs_of_colon_not_mem {first : Text} (h : ':' ∉ first) : guessNs first = none := by
  have hNone : first.idxOf? ':' = none := List.idxOf?_eq_none_iff.mpr h
  cases hLt : first.idxOf? '<' <;> simp [guessNs, hNone, hLt]

/-- In a new session, and for an envelope with nothing in front, the condition is that the first
piece holds the whole begin tag and the last piece the whole end tag. -/
theorem tagsUncut_new_session_iff {ns content : Text}
    (hText : EnvelopeText ns (beginEnvelopeTag ns ++ content)) {first : Text} {rest : List Text}
    (hCut : (first :: rest).flatten = beginEnvelopeTag ns ++ content) :
    TagsUncut ⟨none, .null⟩ (first :: rest) ↔
      beginEnvelopeTag ns <:+: first ∧ endEnvelopeTag ns <:+: (first :: rest).getLast (by simp) := by
  have hFirst : first <+: beginEnvelopeTag ns ++ content := ⟨rest.flatten, hCut⟩
  by_cases hColon : ':' ∈ first
  · have hGuess := guessNs_of_colon_mem hText hFirst hColon
    have hLater : beginEnvelopeTag ns <:+: first → ∀ data ∈ rest, ¬ beginEnvelopeTag ns <:+: data := by
      intro hBegin data hData hAgain
      have hOnce := hText.beginOnce
      rw [← hCut, List.flatten_cons] at hOnce
      exact not_infix_right_of_once (by simp [beginEnvelopeTag]) hOnce hBegin
        (hAgain.trans (List.infix_of_mem_flatten hData))
    have hEarlier : endEnvelopeTag ns <:+: (first :: rest).getLast (by simp) →
        ∀ data ∈ (first :: rest).dropLast, ¬ endEnvelopeTag ns <:+: data := by
      intro hEnd data hData hAgain
      have hOnce := hText.endOnce
      rw [← hCut, ← List.dropLast_append_getLast (show first :: rest ≠ [] by simp),
        List.flatten_append, List.flatten_singleton] at hOnce
      exact not_infix_right_of_once (by simp [endEnvelopeTag]) hOnce
        (hAgain.trans (List.infix_of_mem_flatten hData)) hEnd
    simp only [TagsUncut, nsInEffect, hGuess, List.takeWhile_cons, List.dropWhile_cons,
      Option.isNone_some, Bool.false_eq_true, if_false, Option.some.injEq, exists_eq_left',
      true_and, reduceCtorEq, false_and, or_false]
    constructor
    · rintro ⟨⟨hBegin, -⟩, hEnd, -⟩
      exact ⟨hBegin, hEnd⟩
    · rintro ⟨hBegin, hEnd⟩
      exact ⟨⟨hBegin, hLater hBegin⟩, hEnd, hEarlier hEnd⟩
  · have hGuess := guessNs_of_colon_not_mem hColon
    have hNoBegin : ¬ beginEnvelopeTag ns <:+: first := by
      intro hBegin
      exact hColon (hBegin.mem (by simp [beginEnvelopeTag]))
    simp only [TagsUncut, nsInEffect, List.takeWhile_cons, List.dropWhile_cons, hGuess,
      Option.isNone_none, if_true, hNoBegin, false_and, iff_false]
    split
    · exact not_false
    · simp

def soapMessage : Text := "<soap:Envelope><soap:Body/></soap:Envelope>".toList

theorem soapMessage_envelopeText : EnvelopeText "soap".toList soapMessage where
  length_pos := by decide
  length_le := by decide
  letters := by simp
  shape := ⟨[], "><soap:Body/>".toList, [], by decide⟩
  beginOnce := by decide
  endOnce := by decide
  notUnauthorized := by decide
  notException := by decide

theorem submits_soapMessage_in_two_pieces :
    HandsOverLast soapMessage (callbackAll (fun _ ns => .received ns) ⟨none, .null⟩
      [soapMessage.take 20, soapMessage.drop 20]).2 :=
  (submits_message_iff_tagsUncut (fun _ ns => .received ns) .start soapMessage_envelopeText
    (show [soapMessage.take 20, soapMessage.drop 20].flatten = soapMessage by decide)
    (by decide)).mpr
    ⟨"soap".toList, by decide, .inl ⟨by decide, by decide, by decide⟩, by decide, by decide⟩

/-- A cut inside the end tag keeps the message from being submitted. -/
theorem cut_end_tag_not_submitted :
    EnvelopeText "soap".toList soapMessage ∧ Reachable ⟨none, .null⟩ ∧
      [soapMessage.take 36, soapMessage.drop 36].flatten = soapMessage ∧
      (∀ data ∈ [soapMessage.take 36, soapMessage.drop 36], data ≠ []) ∧
      ¬ HandsOverLast soapMessage (callbackAll (fun _ ns => .received ns) ⟨none, .null⟩
        [soapMessage.take 36, soapMessage.drop 36]).2 :=
  ⟨soapMessage_envelopeText, .start, by decide, by decide, by decide⟩

end Tr069Agent.Com.Reassembly
