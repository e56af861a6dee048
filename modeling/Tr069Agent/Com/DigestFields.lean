import Mathlib.Data.List.Basic
import Mathlib.Data.List.TakeWhile
import Mathlib.Tactic.Common
import Tr069Agent.Com.DigestAuthentication
import Tr069Agent.Library.Lines

/-! # The fields of a digest answer

A field is looked for by its name and the sign behind it, so the first name that ends so is taken, and a value without
quotes is ended by the next comma. The order of the fields therefore matters in two ways.
-/

namespace Tr069Agent.Com.ConnectionRequest

open Library Library.Lines

set_option autoImplicit false

section Search

variable {name text rest : Text}

theorem eq_of_prefix_equals (hName : '=' ∉ name) (hText : '=' ∉ text) (h : name ++ ['='] <+: text ++ '=' :: rest) :
    name = text := by
  obtain ⟨behind, hSame⟩ := h
  have hTaken := congrArg (List.takeWhile (· ≠ '=')) hSame
  rwa [List.append_assoc, List.singleton_append, takeWhile_ne_append hName, takeWhile_ne_append hText] at hTaken

theorem textFrom_skip (hName : '=' ∉ name) (hText : '=' ∉ text) (h : ¬ name <:+ text) :
    textFrom (name ++ ['=']) (text ++ '=' :: rest) = textFrom (name ++ ['=']) rest := by
  induction text with
  | nil =>
    have hNot : ¬ name ++ ['='] <+: '=' :: rest := fun hPrefix =>
      h (eq_of_prefix_equals hName hText hPrefix ▸ List.suffix_refl _)
    rw [List.nil_append, textFrom, if_neg (by rwa [List.isPrefixOf_iff_prefix])]
  | cons c text ih =>
    have hNot : ¬ name ++ ['='] <+: c :: text ++ '=' :: rest := fun hPrefix =>
      h (eq_of_prefix_equals hName hText hPrefix ▸ List.suffix_refl _)
    rw [List.cons_append, textFrom, if_neg (by rwa [List.isPrefixOf_iff_prefix])]
    exact ih (List.not_mem_of_not_mem_cons hText) fun hSuffix => h (hSuffix.trans (List.suffix_cons c text))

theorem textFrom_found (hName : '=' ∉ name) (hText : '=' ∉ text) (h : name <:+ text) :
    textFrom (name ++ ['=']) (text ++ '=' :: rest) = some (name ++ '=' :: rest) := by
  induction text with
  | nil =>
    obtain rfl : name = [] := List.suffix_nil.mp h
    simp [textFrom]
  | cons c text ih =>
    rw [List.cons_append, textFrom]
    rcases List.suffix_cons_iff.mp h with rfl | hSuffix
    · rw [if_pos (by rw [List.isPrefixOf_iff_prefix]; exact ⟨rest, by simp⟩), List.cons_append]
    · have hNot : ¬ name ++ ['='] <+: c :: text ++ '=' :: rest := fun hPrefix => by
        have hLength := hSuffix.length_le
        rw [eq_of_prefix_equals hName hText hPrefix, List.length_cons] at hLength
        omega
      rw [if_neg (by rwa [List.isPrefixOf_iff_prefix])]
      exact ih (List.not_mem_of_not_mem_cons hText) hSuffix

end Search

inductive DigestField where
  | realm
  | nonce
  | uri
  | response
  | opaqueStr
  | qop
  | nc
  | cnonce
  deriving DecidableEq

namespace DigestField

def all : List DigestField := [.realm, .nonce, .uri, .response, .opaqueStr, .qop, .nc, .cnonce]

def name : DigestField → Text
  | .realm => "realm".toList
  | .nonce => "nonce".toList
  | .uri => "uri".toList
  | .response => "response".toList
  | .opaqueStr => "opaque".toList
  | .qop => "qop".toList
  | .nc => "nc".toList
  | .cnonce => "cnonce".toList

def quoted : DigestField → Bool
  | .qop => false
  | .nc => false
  | _ => true

theorem equals_notMem_name (field : DigestField) : '=' ∉ field.name := by cases field <;> decide

theorem blank_notMem_name (field : DigestField) : ' ' ∉ field.name := by cases field <;> decide

theorem name_suffix_iff (field other : DigestField) :
    field.name <:+ other.name ↔ other = field ∨ field = .nonce ∧ other = .cnonce := by
  cases field <;> cases other <;> decide

end DigestField

/-- A value that a field can carry. -/
def PlainValue (value : Text) : Prop := value.length ≤ 98 ∧ '"' ∉ value ∧ ',' ∉ value ∧ '=' ∉ value

instance (value : Text) : Decidable (PlainValue value) := inferInstanceAs (Decidable (_ ∧ _))

/-- A request with the answer to a challenge: the fields in some order behind the name of the user. -/
structure DigestRequest where
  before : Text
  username : Text
  order : List DigestField
  value : DigestField → Text
  rest : Text
  ordered : order.Perm DigestField.all
  plainName : PlainValue username
  plainValue : ∀ field, PlainValue (value field)
  noEquals : '=' ∉ before ∧ '=' ∉ rest

namespace DigestRequest

variable (request : DigestRequest)

def written (field : DigestField) : Text :=
  if field.quoted then '"' :: (request.value field ++ ['"']) else request.value field

def fieldText (field : DigestField) : Text := ", ".toList ++ field.name ++ '=' :: request.written field

def text : Text :=
  request.before ++ "Authorization: Digest username=\"".toList ++ request.username ++ ['"'] ++
    request.order.flatMap request.fieldText ++ "\r\n".toList ++ request.rest

/-- The values that were written. -/
def tokens : DigestTokens where
  username := request.username
  realm := request.value .realm
  nonce := request.value .nonce
  uri := request.value .uri
  response := request.value .response
  opaqueStr := request.value .opaqueStr
  qop := request.value .qop
  nc := request.value .nc
  cnonce := request.value .cnonce

section Fields

variable {request}

theorem equals_notMem_separated {front : Text} (hFront : '=' ∉ front) (field : DigestField) :
    '=' ∉ front ++ ", ".toList ++ field.name := by
  simp only [List.mem_append, not_or]
  exact ⟨⟨hFront, by decide⟩, field.equals_notMem_name⟩

theorem suffix_separated_iff (field other : DigestField) (front : Text) :
    field.name <:+ front ++ ", ".toList ++ other.name ↔ field.name <:+ other.name := by
  have hText : front ++ ", ".toList ++ other.name = front ++ [','] ++ (' ' :: other.name) := by simp
  constructor
  · intro h
    by_cases hShort : field.name.length ≤ other.name.length
    · exact List.suffix_of_suffix_length_le h (List.suffix_append _ _) hShort
    · rw [hText] at h
      have hBlank : ' ' :: other.name <:+ field.name :=
        List.suffix_of_suffix_length_le (List.suffix_append _ _) h (by rw [List.length_cons]; omega)
      exact absurd (hBlank.subset List.mem_cons_self) field.blank_notMem_name
  · exact fun h => h.trans (List.suffix_append _ _)

theorem equals_notMem_written (field : DigestField) : '=' ∉ request.written field := by
  obtain ⟨-, -, -, hValue⟩ := request.plainValue field
  rw [written]
  split
  · simpa using hValue
  · exact hValue

/-- The first field whose name ends so is the one that is found. -/
theorem textFrom_fields {field found : DigestField} (hFound : field.name <:+ found.name) {front : Text}
    (hFront : '=' ∉ front) {passed : List DigestField} (hPassed : ∀ other ∈ passed, ¬ field.name <:+ other.name)
    (others : List DigestField) (rest : Text) :
    textFrom (field.name ++ ['=']) (front ++ ((passed ++ found :: others).flatMap request.fieldText ++ rest)) =
      some (field.name ++ '=' :: (request.written found ++ (others.flatMap request.fieldText ++ rest))) := by
  induction passed generalizing front with
  | nil =>
    have hText : front ++ (([] ++ found :: others).flatMap request.fieldText ++ rest) =
        front ++ ", ".toList ++ found.name ++ '=' ::
          (request.written found ++ (others.flatMap request.fieldText ++ rest)) := by
      simp [fieldText]
    rw [hText]
    exact textFrom_found field.equals_notMem_name (equals_notMem_separated hFront found)
      ((suffix_separated_iff field found front).mpr hFound)
  | cons other passed ih =>
    obtain ⟨hOther, hPassed⟩ := List.forall_mem_cons.mp hPassed
    have hText : front ++ ((other :: passed ++ found :: others).flatMap request.fieldText ++ rest) =
        front ++ ", ".toList ++ other.name ++ '=' ::
          (request.written other ++ ((passed ++ found :: others).flatMap request.fieldText ++ rest)) := by
      simp [fieldText]
    rw [hText, textFrom_skip field.equals_notMem_name (equals_notMem_separated hFront other)
      (mt (suffix_separated_iff field other front).mp hOther)]
    exact ih (equals_notMem_written other) hPassed

theorem text_eq (request : DigestRequest) : request.text =
    request.before ++ "Authorization: Digest username".toList ++ '=' :: ('"' :: (request.username ++ ['"']) ++
      (request.order.flatMap request.fieldText ++ ("\r\n".toList ++ request.rest))) := by
  have hHeader : "Authorization: Digest username=\"".toList = "Authorization: Digest username".toList ++
      ['=', '"'] := by
    decide
  rw [text, hHeader]
  simp only [List.append_assoc, List.cons_append, List.nil_append]

/-- The header itself ends with no name of a field. -/
theorem textFrom_field {field found : DigestField} {passed others : List DigestField}
    (hOrder : request.order = passed ++ found :: others) (hFound : field.name <:+ found.name)
    (hPassed : ∀ other ∈ passed, ¬ field.name <:+ other.name) :
    textFrom (field.name ++ ['=']) request.text = some (field.name ++ '=' :: (request.written found ++
      (others.flatMap request.fieldText ++ ("\r\n".toList ++ request.rest)))) := by
  have hHeader : '=' ∉ request.before ++ "Authorization: Digest username".toList := by
    simp only [List.mem_append, not_or]
    exact ⟨request.noEquals.1, by decide⟩
  have hSkip : ¬ field.name <:+ request.before ++ "Authorization: Digest username".toList := by
    intro h
    have hShort : field.name.length ≤ "Authorization: Digest username".toList.length := by cases field <;> decide
    have hEnds := List.suffix_of_suffix_length_le h (List.suffix_append _ _) hShort
    revert hEnds
    cases field <;> decide
  have hUser : '=' ∉ '"' :: (request.username ++ ['"']) := by
    simpa using request.plainName.2.2.2
  rw [text_eq, textFrom_skip field.equals_notMem_name hHeader hSkip, hOrder]
  exact textFrom_fields hFound hUser hPassed others _

end Fields

section Values

variable {request}

theorem textBetween_eq {opening closing : Char} {front value : Text} (hFront : opening ∉ front)
    (hValue : closing ∉ value)
    (hLength : value.length < maxTokenSize) (rest : Text) :
    textBetween opening closing (front ++ opening :: (value ++ closing :: rest)) = some value := by
  simp only [textBetween, dropWhile_ne_append hFront, takeWhile_ne_append hValue, List.tail_cons]
  rw [if_neg (by simp), if_pos hLength]

/-- What the function reads of a field. -/
def read (request : DigestRequest) (field : DigestField) : Option Text :=
  (textFrom (field.name ++ ['=']) request.text).bind (if field.quoted then getQuotedString else getNonQuotedString)

theorem getDigestMessageToken_eq_some_iff (request : DigestRequest) (tokens : DigestTokens) :
    getDigestMessageToken request.text = some tokens ↔
      (textFrom "Digest username=".toList request.text).bind getQuotedString = some tokens.username ∧
        request.read .realm = some tokens.realm ∧ request.read .nonce = some tokens.nonce ∧
          request.read .uri = some tokens.uri ∧ request.read .response = some tokens.response ∧
            request.read .opaqueStr = some tokens.opaqueStr ∧ request.read .qop = some tokens.qop ∧
              request.read .nc = some tokens.nc ∧ request.read .cnonce = some tokens.cnonce := by
  have hRealm : "realm=".toList = DigestField.realm.name ++ ['='] := by decide
  have hNonce : "nonce=".toList = DigestField.nonce.name ++ ['='] := by decide
  have hUri : "uri=".toList = DigestField.uri.name ++ ['='] := by decide
  have hResponse : "response=".toList = DigestField.response.name ++ ['='] := by decide
  have hOpaque : "opaque=".toList = DigestField.opaqueStr.name ++ ['='] := by decide
  have hQop : "qop=".toList = DigestField.qop.name ++ ['='] := by decide
  have hNc : "nc=".toList = DigestField.nc.name ++ ['='] := by decide
  have hCnonce : "cnonce=".toList = DigestField.cnonce.name ++ ['='] := by decide
  obtain ⟨username, realm, nonce, uri, response, opaqueStr, qop, nc, cnonce⟩ := tokens
  simp only [read, DigestField.quoted, if_true, Bool.false_eq_true, if_false, getDigestMessageToken, hRealm, hNonce,
    hUri, hResponse, hOpaque, hQop, hNc, hCnonce,
    Option.bind_eq_bind, Option.pure_def, Option.bind_eq_some_iff, Option.some.injEq, DigestTokens.mk.injEq]
  constructor
  · rintro ⟨_, hUser, _, h1, _, h2, _, h3, _, h4, _, h5, _, h6, _, h7, _, h8, rfl, rfl, rfl, rfl, rfl, rfl, rfl, rfl,
      rfl⟩
    exact ⟨hUser, h1, h2, h3, h4, h5, h6, h7, h8⟩
  · rintro ⟨hUser, h1, h2, h3, h4, h5, h6, h7, h8⟩
    exact ⟨_, hUser, _, h1, _, h2, _, h3, _, h4, _, h5, _, h6, _, h7, _, h8, rfl, rfl, rfl, rfl, rfl, rfl, rfl, rfl,
      rfl⟩

theorem read_username (request : DigestRequest) :
    (textFrom "Digest username=".toList request.text).bind getQuotedString = some request.username := by
  obtain ⟨hLength, hQuote, -, hEquals⟩ := request.plainName
  have hName : "Digest username=".toList = "Digest username".toList ++ ['='] := by decide
  have hHeader : '=' ∉ request.before ++ "Authorization: Digest username".toList := by
    simp only [List.mem_append, not_or]
    exact ⟨request.noEquals.1, by decide⟩
  have hEnds : "Digest username".toList <:+ request.before ++ "Authorization: Digest username".toList :=
    (by decide : "Digest username".toList <:+ "Authorization: Digest username".toList).trans (List.suffix_append _ _)
  have hFront : '"' ∉ "Digest username=".toList := by decide
  rw [text_eq, hName, textFrom_found (by decide) hHeader hEnds, Option.bind_some]
  have hBetween := textBetween_eq hFront hQuote (Nat.lt_of_le_of_lt hLength (by decide : 98 < maxTokenSize))
    (request.order.flatMap request.fieldText ++ ("\r\n".toList ++ request.rest))
  rw [hName] at hBetween
  simpa [getQuotedString] using hBetween

section Found

variable {field found : DigestField} {passed others : List DigestField}

theorem read_quoted (hOrder : request.order = passed ++ found :: others) (hFound : field.name <:+ found.name)
    (hPassed : ∀ other ∈ passed, ¬ field.name <:+ other.name) (hField : field.quoted = true)
    (hQuoted : found.quoted = true) :
    request.read field = some (request.value found) := by
  obtain ⟨hLength, hQuote, -, -⟩ := request.plainValue found
  have hFront : '"' ∉ field.name ++ ['='] := by cases field <;> decide
  have hBetween := textBetween_eq hFront hQuote (Nat.lt_of_le_of_lt hLength (by decide : 98 < maxTokenSize))
    (others.flatMap request.fieldText ++ ("\r\n".toList ++ request.rest))
  rw [read, textFrom_field hOrder hFound hPassed, Option.bind_some, if_pos hField, written, if_pos hQuoted]
  simpa [getQuotedString] using hBetween

/-- A value without quotes is read where another field follows. -/
theorem read_unquoted_iff (hOrder : request.order = passed ++ field :: others)
    (hPassed : ∀ other ∈ passed, ¬ field.name <:+ other.name) (hField : field.quoted = false) :
    request.read field = some (request.value field) ↔ others ≠ [] := by
  obtain ⟨hLength, -, hComma, -⟩ := request.plainValue field
  rw [read, textFrom_field hOrder (List.suffix_refl _) hPassed, Option.bind_some, written]
  simp only [hField, Bool.false_eq_true, if_false]
  cases others with
  | nil =>
    have hMore : (request.value field ++ '\r' :: '\n' :: request.rest).takeWhile (· ≠ ',') ≠ request.value field := by
      rw [List.takeWhile_append_of_pos (decide_ne_of_notMem hComma)]
      intro hSame
      have hLonger := congrArg List.length hSame
      simp at hLonger
    rw [List.flatMap_nil, List.nil_append, getNonQuotedString]
    change textBetween '=' ',' (field.name ++ '=' :: (request.value field ++ '\r' :: '\n' :: request.rest)) = _ ↔ _
    simp only [textBetween, dropWhile_ne_append field.equals_notMem_name, List.tail_cons, ne_eq, not_true_eq_false,
      iff_false]
    split
    · exact fun hNone => nomatch hNone
    · split
      · exact fun hSome => hMore (Option.some.inj hSome)
      · exact fun hNone => nomatch hNone
  | cons next others =>
    have hBetween := textBetween_eq field.equals_notMem_name hComma
      (Nat.lt_of_le_of_lt hLength (by decide : 98 < maxTokenSize))
      (' ' :: (next.name ++ '=' :: request.written next) ++ (others.flatMap request.fieldText ++
        ("\r\n".toList ++ request.rest)))
    have hText : (next :: others).flatMap request.fieldText ++ ("\r\n".toList ++ request.rest) =
        ',' :: (' ' :: (next.name ++ '=' :: request.written next) ++ (others.flatMap request.fieldText ++
          ("\r\n".toList ++ request.rest))) := by
      simp [fieldText]
    rw [hText, getNonQuotedString, hBetween]
    simp

end Found

theorem mem_order (request : DigestRequest) (field : DigestField) : field ∈ request.order :=
  request.ordered.mem_iff.mpr (by cases field <;> decide)

/-- Any other field than the nonce is found by its own name. -/
theorem exists_passed (request : DigestRequest) {field : DigestField} (hField : field ≠ .nonce) :
    ∃ passed others, request.order = passed ++ field :: others ∧ ∀ other ∈ passed, ¬ field.name <:+ other.name := by
  obtain ⟨passed, others, hOrder, hNot⟩ := List.eq_append_cons_of_mem (request.mem_order field)
  refine ⟨passed, others, hOrder, fun other hMem hSuffix => ?_⟩
  rcases (DigestField.name_suffix_iff field other).mp hSuffix with rfl | ⟨hNonce, -⟩
  · exact hNot hMem
  · exact hField hNonce

theorem read_eq_of_quoted (request : DigestRequest) (field : DigestField) (hField : field ≠ .nonce)
    (hQuoted : field.quoted = true) : request.read field = some (request.value field) := by
  obtain ⟨passed, others, hOrder, hPassed⟩ := request.exists_passed hField
  exact read_quoted hOrder (List.suffix_refl _) hPassed hQuoted hQuoted

theorem read_unquoted_iff_last (request : DigestRequest) (field : DigestField) (hField : field ≠ .nonce)
    (hPlain : field.quoted = false) :
    request.read field = some (request.value field) ↔ request.order.getLast? ≠ some field := by
  obtain ⟨passed, others, hOrder, hPassed⟩ := request.exists_passed hField
  rw [read_unquoted_iff hOrder hPassed hPlain]
  have hNodup : request.order.Nodup := request.ordered.nodup_iff.mpr (by decide)
  rw [hOrder] at hNodup ⊢
  rcases List.eq_nil_or_concat others with rfl | ⟨front, last, rfl⟩
  · simp
  · have hNot : field ∉ front.concat last := ((List.nodup_append.mp hNodup).2.1 |> List.nodup_cons.mp).1
    rw [List.concat_eq_append] at hNot ⊢
    have hLast : last ≠ field := by
      rintro rfl
      exact hNot (by simp)
    have hGetLast : (passed ++ field :: (front ++ [last])).getLast? = some last := by
      rw [← List.cons_append, ← List.append_assoc, List.getLast?_concat]
    simp [hGetLast, hLast]

/-- The nonce stands before the client's nonce. -/
def NonceFirst (request : DigestRequest) : Prop := .nonce ∈ request.order.takeWhile (· ≠ .cnonce)

instance (request : DigestRequest) : Decidable request.NonceFirst := inferInstanceAs (Decidable (_ ∈ _))

/-- The name of the nonce is also found at the end of the name of the client's nonce. -/
theorem read_nonce (request : DigestRequest) :
    request.read .nonce = some (if request.NonceFirst then request.value .nonce else request.value .cnonce) := by
  obtain ⟨front, back, hOrder, hNot⟩ := List.eq_append_cons_of_mem (request.mem_order .cnonce)
  have hFront : request.order.takeWhile (· ≠ .cnonce) = front := by
    rw [hOrder, List.takeWhile_append_of_pos]
    · simp
    · intro other hMem
      simp only [decide_eq_true_eq]
      rintro rfl
      exact hNot hMem
  have hIff : request.NonceFirst ↔ .nonce ∈ front := by
    unfold NonceFirst
    rw [hFront]
  by_cases hFirst : .nonce ∈ front
  · obtain ⟨passed, others, rfl, hNonce⟩ := List.eq_append_cons_of_mem hFirst
    have hPassed : ∀ other ∈ passed, ¬ DigestField.nonce.name <:+ other.name := by
      intro other hMem hSuffix
      rcases (DigestField.name_suffix_iff .nonce other).mp hSuffix with rfl | ⟨-, rfl⟩
      · exact hNonce hMem
      · exact hNot (List.mem_append_left _ hMem)
    rw [List.append_assoc, List.cons_append] at hOrder
    rw [if_pos (hIff.mpr hFirst)]
    exact read_quoted hOrder (List.suffix_refl _) hPassed rfl rfl
  · have hPassed : ∀ other ∈ front, ¬ DigestField.nonce.name <:+ other.name := by
      intro other hMem hSuffix
      rcases (DigestField.name_suffix_iff .nonce other).mp hSuffix with rfl | ⟨-, rfl⟩
      · exact hFirst hMem
      · exact hNot hMem
    rw [if_neg (mt hIff.mp hFirst)]
    exact read_quoted hOrder ((DigestField.name_suffix_iff .nonce .cnonce).mpr (.inr ⟨rfl, rfl⟩)) hPassed rfl rfl

end Values

/-- The values are read as they were written if and only if the nonce stands before the client's nonce, unless these are
the same, and the last field has quotes. -/
theorem tokens_read_iff (request : DigestRequest) :
    getDigestMessageToken request.text = some request.tokens ↔
      (request.NonceFirst ∨ request.value .nonce = request.value .cnonce) ∧
        request.order.getLast? ≠ some .qop ∧ request.order.getLast? ≠ some .nc := by
  have hNonce : request.read .nonce = some (request.value .nonce) ↔
      request.NonceFirst ∨ request.value .nonce = request.value .cnonce := by
    rw [request.read_nonce, Option.some.injEq]
    by_cases hFirst : request.NonceFirst
    · simp [hFirst]
    · rw [if_neg hFirst, eq_comm]
      simp [hFirst]
  have hQop := request.read_unquoted_iff_last .qop (by decide) rfl
  have hNc := request.read_unquoted_iff_last .nc (by decide) rfl
  rw [getDigestMessageToken_eq_some_iff]
  simp only [tokens, request.read_username, hNonce, hQop, hNc,
    request.read_eq_of_quoted .realm (by decide) rfl, request.read_eq_of_quoted .uri (by decide) rfl,
    request.read_eq_of_quoted .response (by decide) rfl,
    request.read_eq_of_quoted .opaqueStr (by decide) rfl,
    request.read_eq_of_quoted .cnonce (by decide) rfl, true_and, and_true]

def sampleRequest (order : List DigestField) (ordered : order.Perm DigestField.all) : DigestRequest where
  before := "GET /acs HTTP/1.1\r\n".toList
  username := "acs".toList
  order := order
  value
    | .realm => "box".toList
    | .nonce => "4f2a".toList
    | .uri => "/acs".toList
    | .response => "6629".toList
    | .opaqueStr => "5ccc".toList
    | .qop => "auth".toList
    | .nc => "00000001".toList
    | .cnonce => "0a4f".toList
  rest := "Host: box, local\r\n\r\n".toList
  ordered := ordered
  plainName := by decide
  plainValue := fun field => by cases field <;> decide
  noEquals := ⟨by decide, by decide⟩

example : (sampleRequest DigestField.all (List.Perm.refl _)).NonceFirst := by decide

/-- The client's nonce is taken for the nonce that stands behind it. -/
theorem cnonce_taken_for_nonce :
    ∃ request : DigestRequest, request.order = [.realm, .cnonce, .nonce, .qop, .nc, .uri, .response, .opaqueStr] ∧
      (getDigestMessageToken request.text).map (·.nonce) = some (request.value .cnonce) ∧
        getDigestMessageToken request.text ≠ some request.tokens := by
  refine ⟨sampleRequest _ (by decide), rfl, ?_⟩
  have hNonce : (getDigestMessageToken (sampleRequest [.realm, .cnonce, .nonce, .qop, .nc, .uri, .response, .opaqueStr]
      (by decide)).text).map (·.nonce) = some "0a4f".toList := by decide +kernel
  refine ⟨hNonce, fun hSame => ?_⟩
  rw [hSame] at hNonce
  exact absurd hNonce (by decide)

end DigestRequest

end Tr069Agent.Com.ConnectionRequest
