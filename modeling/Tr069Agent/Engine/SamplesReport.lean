import Tr069Agent.Engine.SamplePush
import Tr069Agent.Library.FieldList

/-! # One item for each interval of a report

A push leaves each list with an item for every interval of the report, where its own value has no comma
in it, the report begins before the bound that was reached, and the counts and the size of the list stay
within their types.
-/

namespace Tr069Agent.Engine.Sampling

open Library Library.Lines Library.Transition Statistics

set_option autoImplicit false

section Items

theorem splitOn_behindComma {d p : Nat} {text : Text} (hPassed : p < d)
    (hMore : d - p < (text.splitOn ',').length) :
    (behindComma d p text).splitOn ',' = (text.splitOn ',').drop (d - p) := by
  induction text generalizing p with
  | nil => simp at hMore; omega
  | cons c rest ih =>
    obtain ⟨k, hk⟩ : ∃ k, d - p = k + 1 := ⟨d - p - 1, by omega⟩
    rw [List.splitOn_cons_eq_if_modifyHead] at hMore ⊢
    by_cases hComma : c = ','
    · have hBeq : (c == ',') = true := by simpa using hComma
      rw [behindComma, if_pos hComma, if_pos hBeq]
      rw [if_pos hBeq, List.length_cons] at hMore
      by_cases hLast : p + 1 = d
      · have hOne : d - p = 1 := by omega
        rw [if_pos hLast, hOne]
        rfl
      · have hNext : d - (p + 1) = k := by omega
        rw [if_neg hLast, ih (by omega) (by omega), hNext, hk]
        rfl
    · have hBeq : ¬ (c == ',') = true := by simpa using hComma
      rw [behindComma, if_neg hComma, if_neg hBeq]
      rw [if_neg hBeq] at hMore
      obtain ⟨first, fields, hSplit⟩ := List.exists_cons_of_ne_nil (List.splitOn_ne_nil ',' rest)
      rw [ih hPassed (by simpa using hMore), hSplit, hk]
      rfl

theorem length_splitOn_eq_samplesStored (value : Option Text) :
    ((value.getD []).splitOn ',').length = samplesStored value := by
  rw [length_splitOn, samplesStored, Nat.add_comm]

theorem splitOn_oldValue {drop : Nat} {sValue : Text} (h : drop < (sValue.splitOn ',').length) :
    (oldValue drop (sValue.splitOn ',').length sValue).splitOn ',' = (sValue.splitOn ',').drop drop := by
  rw [oldValue]
  by_cases hZero : drop = 0
  · rw [if_pos hZero, hZero]
    rfl
  · rw [if_neg hZero, if_pos h, splitOn_behindComma (by omega) (by simpa using h)]
    rfl

theorem splitOn_newValue {drop add : Nat} (sValue sCurrentValue : Text) :
    (newValue drop add (sValue.splitOn ',').length (oldValue drop (sValue.splitOn ',').length sValue)
        sCurrentValue).splitOn ',' =
      ((sValue.splitOn ',').drop drop ++ List.replicate add []).dropLast ++ sCurrentValue.splitOn ',' := by
  have hSome : 0 < (sValue.splitOn ',').length := List.length_pos_of_ne_nil (List.splitOn_ne_nil ',' sValue)
  rw [newValue]
  by_cases hAll : (sValue.splitOn ',').length ≤ drop
  · -- the empty text stands for the first of the items added
    have hOld : oldValue drop (sValue.splitOn ',').length sValue = [] := by
      rw [oldValue, if_neg (by omega), if_neg (by omega)]
    rw [hOld, if_neg (by simp), if_pos hAll, List.drop_eq_nil_of_le hAll]
    dsimp only
    rw [List.nil_append, List.nil_append, splitOn_replicate_append, List.dropLast_replicate]
  · have hOld : (oldValue drop (sValue.splitOn ',').length sValue).splitOn ',' = (sValue.splitOn ',').drop drop :=
      splitOn_oldValue (by omega)
    rw [if_neg hAll]
    cases add with
    | zero =>
      split
      · rw [splitOn_rdropWhile_append, hOld, List.replicate_zero, List.append_nil]
      · rename_i hEmpty
        have hNil : oldValue drop (sValue.splitOn ',').length sValue = [] := by
          simpa using hEmpty
        rw [hNil] at hOld ⊢
        rw [List.replicate_zero, List.append_nil, ← hOld]
        rfl
    | succ k =>
      rw [if_neg (by simp)]
      dsimp only
      rw [Nat.sub_zero, splitOn_append_replicate, hOld, List.replicate_succ', ← List.append_assoc,
        List.dropLast_concat]

end Items

section Counts

/-- The sum of the items dropped and expected wraps around, and less are stored than are expected. -/
def CountsWrap (plan : ReportPlan) (prmSamplesStored : Nat) : Prop :=
  plan.samplesToDrop ≤ prmSamplesStored ∧ prmSamplesStored < plan.samplesExpected ∧
    2 ^ 32 ≤ plan.samplesToDrop + plan.samplesExpected

instance (plan : ReportPlan) (prmSamplesStored : Nat) : Decidable (CountsWrap plan prmSamplesStored) :=
  inferInstanceAs (Decidable (_ ∧ _))

variable {plan : ReportPlan} {stored : Nat}

theorem dropAndAdd_count (hExpected : plan.samplesExpected < 2 ^ 32) (hDrop : plan.samplesToDrop < 2 ^ 32)
    (hStored : stored ≤ 2 ^ 31) :
    stored - (dropAndAdd plan stored).1 + (dropAndAdd plan stored).2 =
      if CountsWrap plan stored then 0 else plan.samplesExpected := by
  have hCases : (dropAndAdd plan stored = (stored, plan.samplesExpected) ∧ stored < plan.samplesToDrop) ∨
      (∃ extent, extent = (plan.samplesToDrop + plan.samplesExpected) % 2 ^ 32 ∧ plan.samplesToDrop ≤ stored ∧
        (dropAndAdd plan stored = (plan.samplesToDrop, extent - stored) ∧ stored ≤ extent ∨
          dropAndAdd plan stored = ((stored + 2 ^ 32 - plan.samplesExpected) % 2 ^ 32, 0) ∧ extent < stored)) := by
    unfold dropAndAdd wrap
    by_cases hFew : stored < plan.samplesToDrop
    · exact .inl ⟨if_pos hFew, hFew⟩
    · rw [if_neg hFew]
      dsimp only
      by_cases hExtent : stored ≤ (plan.samplesToDrop + plan.samplesExpected) % 2 ^ 32
      · exact .inr ⟨_, rfl, by omega, .inl ⟨if_pos hExtent, hExtent⟩⟩
      · exact .inr ⟨_, rfl, by omega, .inr ⟨if_neg hExtent, by omega⟩⟩
  by_cases hWrap : CountsWrap plan stored
  · rw [if_pos hWrap]
    obtain ⟨hDropped, hMissing, hLarge⟩ := hWrap
    obtain ⟨-, hFew⟩ | ⟨extent, hExtent, -, ⟨-, hIn⟩ | ⟨hCounts, -⟩⟩ := hCases
    · omega
    · omega
    · rw [hCounts]
      dsimp only
      omega
  · rw [if_neg hWrap]
    simp only [CountsWrap, not_and_or] at hWrap
    obtain ⟨hCounts, hFew⟩ | ⟨extent, hExtent, hDropped, ⟨hCounts, hIn⟩ | ⟨hCounts, hOut⟩⟩ := hCases <;>
      rw [hCounts] <;> dsimp only <;> omega

/-- A list has the items expected, of which the last one is the value. -/
structure FullList (expected : Nat) (list sCurrentValue : Text) : Prop where
  length : (list.splitOn ',').length = expected
  last : (list.splitOn ',').getLast? = some sCurrentValue

/-- The value is one item, and the counts and the size of the list stay within their types. -/
structure Reportable (plan : ReportPlan) (value sCurrentValue : Option Text) : Prop where
  noComma : ',' ∉ sCurrentValue.getD []
  noWrap : ¬ CountsWrap plan (samplesStored value)
  noOverflow : ¬ overflows plan value sCurrentValue

instance (plan : ReportPlan) (value sCurrentValue : Option Text) : Decidable (Reportable plan value sCurrentValue) :=
  decidable_of_iff (',' ∉ sCurrentValue.getD [] ∧ ¬ CountsWrap plan (samplesStored value) ∧
      ¬ overflows plan value sCurrentValue)
    ⟨fun ⟨hComma, hWrap, hOver⟩ => ⟨hComma, hWrap, hOver⟩, fun ⟨hComma, hWrap, hOver⟩ => ⟨hComma, hWrap, hOver⟩⟩

theorem fullList_append_iff {front : List Text} {list sCurrentValue : Text} {expected : Nat}
    (h : list.splitOn ',' = front ++ sCurrentValue.splitOn ',') :
    FullList expected list sCurrentValue ↔ ',' ∉ sCurrentValue ∧ front.length + 1 = expected := by
  constructor
  · intro ⟨hLength, hLast⟩
    have hNo := (mem_splitOn (List.mem_of_getLast? hLast)).1
    rw [h, List.length_append, length_splitOn_eq_one.mpr hNo] at hLength
    exact ⟨hNo, hLength⟩
  · rintro ⟨hNo, hLength⟩
    rw [splitOn_of_notMem hNo] at h
    exact ⟨by rw [h]; simpa using hLength, by rw [h]; simp⟩

/-- The list gets the items expected exactly where the value can be reported. -/
theorem reportSample_full_iff {value sCurrentValue : Option Text} (hSome : 1 ≤ plan.samplesExpected)
    (hExpected : plan.samplesExpected < 2 ^ 32) (hDrop : plan.samplesToDrop < 2 ^ 32) :
    (∃ list, reportSample plan value sCurrentValue = some list ∧
        FullList plan.samplesExpected list (sCurrentValue.getD [])) ↔
      Reportable plan value sCurrentValue := by
  by_cases hOver : overflows plan value sCurrentValue
  · constructor
    · rintro ⟨list, hReport, -⟩
      rw [reportSample, if_pos hOver] at hReport
      cases hReport
    · exact fun hReportable => absurd hOver hReportable.noOverflow
  · have hStored : samplesStored value ≤ 2 ^ 31 := by
      have hCount := List.count_le_length (a := ',') (l := value.getD [])
      have hIndex : ¬ 2 ^ 31 ≤ (value.getD []).length := fun h => hOver (.inl h)
      rw [samplesStored]
      omega
    have hCount := dropAndAdd_count hExpected hDrop hStored
    have hItems := @splitOn_newValue (dropAndAdd plan (samplesStored value)).1
      (dropAndAdd plan (samplesStored value)).2 (value.getD []) (sCurrentValue.getD [])
    rw [length_splitOn_eq_samplesStored] at hItems
    have hFull : FullList plan.samplesExpected _ (sCurrentValue.getD []) ↔ _ := fullList_append_iff hItems
    rw [List.length_dropLast, List.length_append, List.length_drop, List.length_replicate,
      length_splitOn_eq_samplesStored, hCount] at hFull
    simp only [reportSample, if_neg hOver, Option.some.injEq, exists_eq_left']
    rw [oldSamples, hFull]
    constructor
    · rintro ⟨hComma, hLength⟩
      refine ⟨hComma, fun hWrap => ?_, hOver⟩
      rw [if_pos hWrap] at hLength
      have hLarge := hWrap.2.2
      have hFew := hWrap.1
      omega
    · rintro ⟨hComma, hWrap, -⟩
      rw [if_neg hWrap]
      exact ⟨hComma, by omega⟩

end Counts

section Times

/-- The count is that of the intervals in a time, rounded up. -/
structure RoundsUp (interval time : Int) (count : Nat) : Prop where
  enough : time ≤ count * interval
  needed : (count - 1) * interval < time

theorem RoundsUp.unique {interval time : Int} {count other : Nat} (hInterval : 0 < interval)
    (h : RoundsUp interval time count) (hOther : RoundsUp interval time other) : count = other := by
  have hLe {m n : Nat} (hm : RoundsUp interval time m) (hn : RoundsUp interval time n) : m ≤ n := by
    have hLt : ((m : Int) - 1) * interval < n * interval := Int.lt_of_lt_of_le hm.needed hn.enough
    have := Int.lt_of_mul_lt_mul_right hLt (Int.le_of_lt hInterval)
    omega
  exact Nat.le_antisymm (hLe h hOther) (hLe hOther h)

/-- The list of a report over some time: an item for each interval, the last of them the value. -/
structure OneItemPerInterval (settings : SampleSettings) (time : Int) (list sCurrentValue : Text) : Prop where
  count : RoundsUp settings.sampleInterval time (list.splitOn ',').length
  atMost : (list.splitOn ',').length ≤ settings.reportSamples
  last : (list.splitOn ',').getLast? = some sCurrentValue

variable {settings : SampleSettings} {time : Int} {list sCurrentValue : Text}

theorem oneItemPerInterval_iff_fullList {expected : Nat} (hInterval : 1 ≤ settings.sampleInterval)
    (hCount : RoundsUp settings.sampleInterval time expected) (hMost : expected ≤ settings.reportSamples) :
    OneItemPerInterval settings time list sCurrentValue ↔ FullList expected list sCurrentValue := by
  constructor
  · intro h
    exact ⟨h.count.unique (by omega) hCount, h.last⟩
  · rintro ⟨hLength, hLast⟩
    exact ⟨by rwa [hLength], by rwa [hLength], hLast⟩

/-- Even the empty list has an item. -/
theorem not_oneItemPerInterval (h : time ≤ 0) : ¬ OneItemPerInterval settings time list sCurrentValue := by
  intro hItems
  have hNeeded := hItems.count.needed
  have hLength : 1 ≤ (list.splitOn ',').length := by
    rw [length_splitOn]
    omega
  have hPos : (0 : Int) ≤ ((list.splitOn ',').length - 1) * settings.sampleInterval :=
    Int.mul_nonneg (by omega) (by omega)
  omega

end Times

section Plans

variable {a : PushArguments} {startTime : Int}

/-- The start of the report after the push. -/
def PushArguments.newStart (a : PushArguments) (startTime : Int) : Int := a.plan.startReport.getD startTime

theorem reportSamples_lt (hInterval : 1 ≤ a.settings.sampleInterval)
    (hProduct : a.settings.reportSamples * a.settings.sampleInterval < 2 ^ 32) :
    a.settings.reportSamples < 2 ^ 32 :=
  Nat.lt_of_le_of_lt (Nat.le_mul_of_pos_right a.settings.reportSamples hInterval) hProduct

theorem intervals_spec {time : Int} (hInterval : 1 ≤ a.settings.sampleInterval) (hPos : 0 < time)
    (hProduct : a.settings.reportSamples * a.settings.sampleInterval < 2 ^ 32)
    (hTime : time ≤ a.settings.reportSamples * a.settings.sampleInterval) :
    RoundsUp a.settings.sampleInterval time (a.intervals time) ∧ 1 ≤ a.intervals time ∧
      a.intervals time ≤ a.settings.reportSamples := by
  have hSamples := reportSamples_lt hInterval hProduct
  have hS : (0 : Int) < a.settings.sampleInterval := by omega
  obtain ⟨q, hq⟩ : ∃ q, (time + a.settings.sampleInterval - 1).tdiv a.settings.sampleInterval = q := ⟨_, rfl⟩
  have hEuclid := Int.mul_ediv_add_emod (time + a.settings.sampleInterval - 1) a.settings.sampleInterval
  have hLow := Int.emod_nonneg (time + a.settings.sampleInterval - 1) (Int.ne_of_gt hS)
  have hHigh := Int.emod_lt_of_pos (time + a.settings.sampleInterval - 1) hS
  rw [← Int.tdiv_eq_ediv_of_nonneg (by omega), hq, Int.mul_comm] at hEuclid
  have hRest : (q - 1) * a.settings.sampleInterval = q * a.settings.sampleInterval - a.settings.sampleInterval := by
    rw [Int.sub_mul, Int.one_mul]
  have hSome : 0 < q := by
    refine Int.pos_of_mul_pos_left ?_ hS
    omega
  have hMost : q - 1 < a.settings.reportSamples := by
    refine Int.lt_of_mul_lt_mul_right ?_ (Int.le_of_lt hS)
    omega
  have hCount : (a.intervals time : Int) = q := by
    rw [PushArguments.intervals, hq, toUint]
    omega
  refine ⟨⟨by rw [hCount]; omega, by rw [hCount]; omega⟩, by omega, by omega⟩

theorem plan_spec (hInterval : 1 ≤ a.settings.sampleInterval) (hReport : 1 ≤ a.settings.reportSamples)
    (hProduct : a.settings.reportSamples * a.settings.sampleInterval < 2 ^ 32) (hStart : a.startTime = some startTime)
    (hBegun : startTime < a.boundTime) :
    RoundsUp a.settings.sampleInterval (a.boundTime - a.newStart startTime) a.plan.samplesExpected ∧
      1 ≤ a.plan.samplesExpected ∧ a.plan.samplesExpected ≤ a.settings.reportSamples ∧
      a.plan.samplesToDrop < 2 ^ 32 := by
  have hWrap : wrap (a.settings.reportSamples * a.settings.sampleInterval) =
      a.settings.reportSamples * a.settings.sampleInterval := Nat.mod_eq_of_lt hProduct
  have hEarliest : a.earliestStart = a.boundTime - a.settings.reportSamples * a.settings.sampleInterval := by
    rw [PushArguments.earliestStart, hWrap, Int.natCast_mul]
  unfold PushArguments.newStart PushArguments.plan
  rw [hStart]
  dsimp only
  by_cases hEarly : startTime < a.earliestStart
  · rw [if_pos hEarly]
    by_cases hFirst : startTime = 0
    · rw [if_pos hFirst]
      refine ⟨⟨?_, ?_⟩, Nat.le_refl 1, hReport, Nat.two_pow_pos 32⟩
      · dsimp only [Option.getD_some]
        omega
      · dsimp only [Option.getD_some]
        omega
    · rw [if_neg hFirst]
      have hTime : a.boundTime - a.earliestStart = a.settings.reportSamples * a.settings.sampleInterval := by omega
      have hLess : ((a.settings.reportSamples : Int) - 1) * a.settings.sampleInterval =
          a.settings.reportSamples * a.settings.sampleInterval - a.settings.sampleInterval := by
        rw [Int.sub_mul, Int.one_mul]
      refine ⟨⟨Int.le_of_eq hTime, ?_⟩, hReport, Nat.le_refl _, Nat.lt_succ_of_le (toUint_le _)⟩
      rw [Option.getD_some, hTime, hLess]
      omega
  · rw [if_neg hEarly]
    obtain ⟨hRounds, hSome, hMost⟩ :=
      @intervals_spec a (a.boundTime - startTime) hInterval (by omega) hProduct (by omega)
    exact ⟨hRounds, hSome, hMost, Nat.two_pow_pos 32⟩

theorem newStart_of_not_begun (hStart : a.startTime = some startTime) (hBegun : ¬ startTime < a.boundTime) :
    a.newStart startTime = startTime := by
  have hLate : ¬ startTime < a.earliestStart := by
    rw [PushArguments.earliestStart]
    omega
  rw [PushArguments.newStart, PushArguments.plan, hStart]
  dsimp only
  rw [if_neg hLate]
  rfl

theorem reached_le {interval timeRef time : Int} (hInterval : 0 < interval) :
    reached interval timeRef time ≤ time ∧ time ≤ reached interval timeRef time + interval := by
  rw [reached]
  by_cases hPast : timeRef ≤ time
  · have hEuclid := Int.mul_ediv_add_emod (time - timeRef) interval
    have hLow := Int.emod_nonneg (time - timeRef) (Int.ne_of_gt hInterval)
    have hHigh := Int.emod_lt_of_pos (time - timeRef) hInterval
    rw [if_pos hPast, Int.tdiv_eq_ediv_of_nonneg (by omega)]
    omega
  · have hEuclid := Int.mul_ediv_add_emod (timeRef - time) interval
    have hLow := Int.emod_nonneg (timeRef - time) (Int.ne_of_gt hInterval)
    have hHigh := Int.emod_lt_of_pos (timeRef - time) hInterval
    rw [if_neg hPast, Int.tdiv_eq_ediv_of_nonneg (by omega), Int.mul_add, Int.mul_one]
    omega

theorem bound_le (hInterval : 1 ≤ a.settings.sampleInterval) :
    a.bound ≤ a.timestamp ∧ a.timestamp ≤ a.bound + a.settings.sampleInterval := reached_le (by omega)

theorem not_tooEarly (h : a.ignored = false) : a.tooEarly = false := by
  rw [PushArguments.ignored, Bool.or_assoc, Bool.or_eq_false_iff] at h
  exact h.1

theorem not_ignored (h : a.ignored = false) :
    a.endReport < a.timestamp ∧ (a.isAfter = true → a.endReport < a.bound) := by
  simp only [PushArguments.ignored, Bool.or_eq_false_iff, Bool.and_eq_false_iff, decide_eq_false_iff_not,
    Int.not_le] at h
  obtain ⟨⟨-, hBound⟩, hTimestamp⟩ := h
  refine ⟨hTimestamp, fun hAfter => ?_⟩
  simpa [hAfter] using hBound

/-- The push leaves a report that begins before its end again. -/
theorem newStart_le_timestamp (hInterval : 1 ≤ a.settings.sampleInterval) (hReport : 1 ≤ a.settings.reportSamples)
    (hProduct : a.settings.reportSamples * a.settings.sampleInterval < 2 ^ 32) (hStart : a.startTime = some startTime)
    (hIgnored : a.ignored = false) (hOrder : startTime ≤ a.endReport) : a.newStart startTime ≤ a.timestamp := by
  obtain ⟨hTimestamp, -⟩ := not_ignored hIgnored
  obtain ⟨hBound, -⟩ := bound_le hInterval
  have hLast : a.boundTime - a.settings.sampleInterval ≤ a.bound := by
    rw [PushArguments.boundTime]
    split <;> omega
  have hEarliest : a.earliestStart ≤ a.boundTime - a.settings.sampleInterval := by
    have hOne : a.settings.sampleInterval ≤ a.settings.reportSamples * a.settings.sampleInterval :=
      Nat.le_mul_of_pos_left _ hReport
    have hWrap : wrap (a.settings.reportSamples * a.settings.sampleInterval) =
        a.settings.reportSamples * a.settings.sampleInterval := Nat.mod_eq_of_lt hProduct
    rw [PushArguments.earliestStart, hWrap]
    omega
  rw [PushArguments.newStart, PushArguments.plan, hStart]
  dsimp only
  split
  · split
    · exact Int.le_trans hLast hBound
    · exact Int.le_trans hEarliest (Int.le_trans hLast hBound)
  · exact Int.le_trans hOrder (Int.le_of_lt hTimestamp)

end Plans

section Leaves

variable {ctx : SamplingContext} {statObject : Text}

/-- Loading a parameter takes no parameter away and leaves those of the report alone. -/
structure LoadsApart (ctx : SamplingContext) (statObject : Text) : Prop where
  kept : ∀ store name, store.names ⊆ (ctx.loadLeaf store name).names
  report : ∀ store name shortName,
    getStatParameter (ctx.loadLeaf store name) (statObject ++ samplesReportNode) shortName =
      getStatParameter store (statObject ++ samplesReportNode) shortName

def shortName (statObject prmName : Text) : Text := prmName.drop (statObject ++ currentPeriodNode).length

/-- The value of a parameter of the current sample that is pushed. -/
def currentValue (ctx : SamplingContext) (store : ParameterStore) (prmName : Text) : Option Text :=
  (store.getParameter prmName).bind fun param =>
    ((loadSampled ctx store param).getParameter prmName).bind (·.value)

/-- The parameter of the report that the value of this one is pushed to. -/
def reported (statObject : Text) (store : ParameterStore) (prmName : Text) : Option Parameter :=
  (getStatParameter store (statObject ++ samplesReportNode) (shortName statObject prmName)).bind fun param =>
    if param.storageMode = .computed then none else some param

theorem eq_append_shortName {prmName : Text} (h : isSampled statObject prmName = true) :
    prmName = statObject ++ currentPeriodNode ++ shortName statObject prmName ∧
      shortName statObject prmName ≠ startTimeName := by
  simp only [isSampled, Bool.and_eq_true, List.isPrefixOf_iff_prefix, Bool.not_eq_true', decide_eq_false_iff_not] at h
  obtain ⟨⟨-, rest, hRest⟩, hStart⟩ := h
  have hShort : prmName.drop (statObject ++ currentPeriodNode).length = rest := by
    rw [← hRest]
    exact List.drop_left
  rw [shortName, hShort]
  refine ⟨hRest.symm, fun hEq => hStart ?_⟩
  rw [hShort, hEq]
  exact List.mem_cons_self

theorem ne_report {prmName : Text} (h : isSampled statObject prmName = true) (name : Text) :
    statObject ++ samplesReportNode ++ name ≠ prmName := by
  obtain ⟨hName, -⟩ := eq_append_shortName h
  intro hEq
  rw [hName, List.append_assoc, List.append_assoc] at hEq
  have hHead := congrArg List.head? (List.append_cancel_left hEq)
  have hReport : (samplesReportNode ++ name).head? = some 'S' := rfl
  have hCurrent : (currentPeriodNode ++ shortName statObject prmName).head? = some 'C' := rfl
  rw [hReport, hCurrent] at hHead
  exact absurd hHead (by decide)

theorem names_put (store : ParameterStore) (prm : Parameter) : (store.put prm).names = store.names := by
  simp only [ParameterStore.names, ParameterStore.put, List.map_map]
  refine List.map_congr_left fun p _ => ?_
  simp only [Function.comp_apply]
  split
  · rename_i hName
    exact hName.symm
  · rfl

/-- What a round does: the list of its parameter gets a new value, and no other one of the report. -/
theorem pushLeaf_spec (hLoad : LoadsApart ctx statObject) (plan : ReportPlan) (keepValue : Bool)
    {store : ParameterStore} {prmName : Text} (hSampled : isSampled statObject prmName = true)
    (hHere : prmName ∈ store.names) :
    ∃ loaded : ParameterStore, store.names ⊆ loaded.names ∧
      (∀ shortName, getStatParameter loaded (statObject ++ samplesReportNode) shortName =
        getStatParameter store (statObject ++ samplesReportNode) shortName) ∧
      pushLeaf ctx statObject plan keepValue store prmName =
        match reported statObject store prmName with
        | none => some loaded
        | some param =>
          (reportSample plan param.value (currentValue ctx store prmName)).map fun list =>
            updateNewValue loaded param (some list) := by
  obtain ⟨param, hParam⟩ := ParameterStore.exists_of_mem_names hHere
  have hName : param.name = prmName := ParameterStore.name_of_getParameter hParam
  have hKept : store.names ⊆ (loadSampled ctx store param).names := by
    rw [loadSampled]
    split
    · exact fun _ h => h
    · exact hLoad.kept store param.name
  have hReport (shortName : Text) :
      getStatParameter (loadSampled ctx store param) (statObject ++ samplesReportNode) shortName =
        getStatParameter store (statObject ++ samplesReportNode) shortName := by
    rw [loadSampled]
    split
    · rfl
    · exact hLoad.report store param.name shortName
  obtain ⟨current, hCurrent⟩ := ParameterStore.exists_of_mem_names (hKept hHere)
  have hValue : currentValue ctx store prmName = current.value := by
    rw [currentValue, hParam, Option.bind_some, hCurrent]
    rfl
  let cleared := if keepValue then loadSampled ctx store param
    else (loadSampled ctx store param).put (current.updateValue (some []) false)
  have hCleared (name : Text) :
      getStatParameter cleared (statObject ++ samplesReportNode) name =
        getStatParameter store (statObject ++ samplesReportNode) name := by
    dsimp only [cleared]
    split
    · exact hReport name
    · have hOther : statObject ++ samplesReportNode ++ name ≠ (current.updateValue (some []) false).name := by
        rw [← ParameterStore.name_of_getParameter hCurrent] at hSampled
        exact ne_report hSampled name
      rw [← hReport, getStatParameter, ParameterStore.getParameter_put_of_ne hOther]
      rfl
  refine ⟨cleared, fun name hMem => ?_, hCleared, ?_⟩
  · dsimp only [cleared]
    split
    · exact hKept hMem
    · rw [names_put]
      exact hKept hMem
  · have hPush : pushLeaf ctx statObject plan keepValue store prmName =
        match getStatParameter cleared (statObject ++ samplesReportNode) (shortName statObject prmName) with
        | none => some cleared
        | some report =>
          if report.storageMode = .computed then some cleared
          else (reportSample plan report.value current.value).map fun list =>
            updateNewValue cleared report (some list) := by
      simp only [pushLeaf, hParam, Option.bind_eq_bind, Option.bind_some, hCurrent, Option.map_eq_bind]
      rfl
    rw [hPush, hCleared, reported, hValue]
    cases getStatParameter store (statObject ++ samplesReportNode) (shortName statObject prmName) with
    | none => rfl
    | some report =>
      dsimp only [Option.bind_some]
      split <;> rfl

theorem reported_eq_some {store : ParameterStore} {prmName : Text} {param : Parameter}
    (h : reported statObject store prmName = some param) :
    getStatParameter store (statObject ++ samplesReportNode) (shortName statObject prmName) = some param := by
  obtain ⟨found, hFound, hParam⟩ := Option.bind_eq_some_iff.mp h
  split at hParam
  · cases hParam
  · rwa [Option.some.inj hParam] at hFound

section Round

variable (hLoad : LoadsApart ctx statObject) {plan : ReportPlan} {keepValue : Bool}
  {store after : ParameterStore} {prmName : Text} (hSampled : isSampled statObject prmName = true)
  (hHere : prmName ∈ store.names)
include hLoad hSampled hHere

theorem isSome_pushLeaf_iff :
    (pushLeaf ctx statObject plan keepValue store prmName).isSome = true ↔
      ∀ param ∈ reported statObject store prmName,
        (reportSample plan param.value (currentValue ctx store prmName)).isSome = true := by
  obtain ⟨loaded, -, -, hPush⟩ := pushLeaf_spec hLoad plan keepValue hSampled hHere
  rw [hPush]
  cases reported statObject store prmName with
  | none => simp
  | some param => simp

theorem pushLeaf_eq_some (hStep : pushLeaf ctx statObject plan keepValue store prmName = some after) :
    store.names ⊆ after.names ∧
      (∀ name ≠ shortName statObject prmName,
        valueAt after (statObject ++ samplesReportNode ++ name) =
          valueAt store (statObject ++ samplesReportNode ++ name)) ∧
      ∀ param ∈ reported statObject store prmName,
        ∃ list, reportSample plan param.value (currentValue ctx store prmName) = some list ∧
          valueAt after (statObject ++ samplesReportNode ++ shortName statObject prmName) = some (some list) := by
  obtain ⟨loaded, hNames, hReport, hPush⟩ :=
    pushLeaf_spec hLoad plan keepValue hSampled hHere
  have hKept (name : Text) : valueAt loaded (statObject ++ samplesReportNode ++ name) =
      valueAt store (statObject ++ samplesReportNode ++ name) := by
    have hGet := hReport name
    rw [getStatParameter, getStatParameter] at hGet
    rw [valueAt, valueAt, hGet]
  rw [hPush] at hStep
  cases hReported : reported statObject store prmName with
  | none =>
    rw [hReported] at hStep
    obtain rfl := Option.some.inj hStep
    exact ⟨hNames, fun name _ => hKept name, fun param hNone => absurd hNone (Option.not_mem_none param)⟩
  | some param =>
    rw [hReported] at hStep
    obtain ⟨list, hList, rfl⟩ := Option.map_eq_some_iff.mp hStep
    have hFound := reported_eq_some hReported
    have hName : param.name = statObject ++ samplesReportNode ++ shortName statObject prmName :=
      ParameterStore.name_of_getParameter hFound
    refine ⟨?_, fun name hOther => ?_, fun other hOther => ?_⟩
    · rw [updateNewValue, names_put]
      exact hNames
    · rw [valueAt_updateNewValue, hName, if_neg fun hEq => hOther (List.append_cancel_left hEq), hKept]
    · obtain rfl := Option.some.inj hOther
      refine ⟨list, hList, ?_⟩
      rw [valueAt_updateNewValue, if_pos hName.symm, hKept, valueAt_getStatParameter hFound]
      rfl

end Round

end Leaves

section Reports

variable {ctx : SamplingContext} {statObject : Text} {a : PushArguments} {startTime : Int} {keepValue : Bool}

/-- In the store that is left, the list of a parameter covers the time of the report and ends with its value. -/
def LeafReported (ctx : SamplingContext) (statObject : Text) (settings : SampleSettings) (time : Int)
    (last store : ParameterStore) (prmName : Text) : Prop :=
  ∀ param ∈ reported statObject store prmName,
    ∃ list, valueAt last (statObject ++ samplesReportNode ++ shortName statObject prmName) = some (some list) ∧
      OneItemPerInterval settings time list ((currentValue ctx store prmName).getD [])

/-- The report begins before the bound, and the value can be reported. -/
def LeafReportable (ctx : SamplingContext) (statObject : Text) (a : PushArguments) (startTime : Int)
    (store : ParameterStore) (prmName : Text) : Prop :=
  ∀ param ∈ reported statObject store prmName,
    startTime < a.boundTime ∧ Reportable a.plan param.value (currentValue ctx store prmName)

instance (ctx : SamplingContext) (statObject : Text) (a : PushArguments) (startTime : Int) (store : ParameterStore)
    (prmName : Text) : Decidable (LeafReportable ctx statObject a startTime store prmName) :=
  inferInstanceAs (Decidable (∀ param ∈ reported statObject store prmName,
    startTime < a.boundTime ∧ Reportable a.plan param.value (currentValue ctx store prmName)))

theorem leafReported_congr {settings : SampleSettings} {time : Int} {last after store : ParameterStore}
    {prmName : Text}
    (h : valueAt last (statObject ++ samplesReportNode ++ shortName statObject prmName) =
      valueAt after (statObject ++ samplesReportNode ++ shortName statObject prmName)) :
    LeafReported ctx statObject settings time last store prmName ↔
      LeafReported ctx statObject settings time after store prmName := by
  rw [LeafReported, LeafReported, h]

variable (hInterval : 1 ≤ a.settings.sampleInterval) (hReport : 1 ≤ a.settings.reportSamples)
  (hProduct : a.settings.reportSamples * a.settings.sampleInterval < 2 ^ 32) (hStart : a.startTime = some startTime)
include hInterval hReport hProduct hStart

theorem reportSample_iff {value sCurrentValue : Option Text} :
    (∃ list, reportSample a.plan value sCurrentValue = some list ∧
        OneItemPerInterval a.settings (a.boundTime - a.newStart startTime) list (sCurrentValue.getD [])) ↔
      startTime < a.boundTime ∧ Reportable a.plan value sCurrentValue := by
  by_cases hBegun : startTime < a.boundTime
  · obtain ⟨hCount, hSome, hMost, hDrop⟩ := plan_spec hInterval hReport hProduct hStart hBegun
    have hExpected := Nat.lt_of_le_of_lt hMost (reportSamples_lt hInterval hProduct)
    simp only [oneItemPerInterval_iff_fullList hInterval hCount hMost, hBegun, true_and]
    exact reportSample_full_iff hSome hExpected hDrop
  · rw [newStart_of_not_begun hStart hBegun]
    constructor
    · rintro ⟨list, -, hItems⟩
      exact absurd hItems (not_oneItemPerInterval (by omega))
    · exact fun h => absurd h.1 hBegun

variable (hLoad : LoadsApart ctx statObject)
include hLoad

theorem leafReported_iff {store : ParameterStore} {prmName : Text} (hSampled : isSampled statObject prmName = true)
    (hHere : prmName ∈ store.names) :
    (∃ after, pushLeaf ctx statObject a.plan keepValue store prmName = some after ∧
        LeafReported ctx statObject a.settings (a.boundTime - a.newStart startTime) after store prmName) ↔
      LeafReportable ctx statObject a startTime store prmName := by
  constructor
  · rintro ⟨after, hStep, hReported⟩ param hParam
    obtain ⟨-, -, hLists⟩ := pushLeaf_eq_some hLoad hSampled hHere hStep
    obtain ⟨list, hList, hValue⟩ := hLists param hParam
    obtain ⟨other, hOther, hItems⟩ := hReported param hParam
    obtain rfl := Option.some.inj (Option.some.inj (hValue.symm.trans hOther))
    exact (reportSample_iff hInterval hReport hProduct hStart).mp ⟨list, hList, hItems⟩
  · intro hReportable
    have hIsSome : (pushLeaf ctx statObject a.plan keepValue store prmName).isSome = true := by
      rw [isSome_pushLeaf_iff hLoad hSampled hHere]
      intro param hParam
      obtain ⟨list, hList, -⟩ :=
        (reportSample_iff hInterval hReport hProduct hStart).mpr (hReportable param hParam)
      rw [hList]
      rfl
    obtain ⟨after, hStep⟩ := Option.isSome_iff_exists.mp hIsSome
    refine ⟨after, hStep, fun param hParam => ?_⟩
    obtain ⟨-, -, hLists⟩ := pushLeaf_eq_some hLoad hSampled hHere hStep
    obtain ⟨list, hList, hValue⟩ := hLists param hParam
    obtain ⟨other, hOther, hItems⟩ :=
      (reportSample_iff hInterval hReport hProduct hStart).mpr (hReportable param hParam)
    obtain rfl := Option.some.inj (hList.symm.trans hOther)
    exact ⟨list, hValue, hItems⟩

end Reports

section Rounds

variable {ctx : SamplingContext} {statObject : Text} {plan : ReportPlan} {keepValue : Bool}

theorem shortName_inj {prmName other : Text} (hSampled : isSampled statObject prmName = true)
    (hOther : isSampled statObject other = true) (h : shortName statObject prmName = shortName statObject other) :
    prmName = other := by
  rw [(eq_append_shortName hSampled).1, (eq_append_shortName hOther).1, h]

theorem valueAt_exec (hLoad : LoadsApart ctx statObject) {store last : ParameterStore} {leaves : List Text}
    {name : Text} (hSampled : ∀ prmName ∈ leaves, isSampled statObject prmName = true)
    (hHere : leaves ⊆ store.names) (hName : ∀ prmName ∈ leaves, name ≠ shortName statObject prmName)
    (hExec : exec (pushLeaf ctx statObject plan keepValue) store leaves = some last) :
    valueAt last (statObject ++ samplesReportNode ++ name) =
      valueAt store (statObject ++ samplesReportNode ++ name) := by
  induction leaves generalizing store with
  | nil =>
    obtain rfl := Option.some.inj hExec
    rfl
  | cons prmName leaves ih =>
    obtain ⟨after, hStep, hRest⟩ := Option.bind_eq_some_iff.mp hExec
    obtain ⟨hFirst, hLater⟩ := List.forall_mem_cons.mp hSampled
    obtain ⟨hPresent, hOthers⟩ := List.cons_subset.mp hHere
    obtain ⟨hNames, hKept, -⟩ := pushLeaf_eq_some hLoad hFirst hPresent hStep
    obtain ⟨hNe, hNames'⟩ := List.forall_mem_cons.mp hName
    rw [ih hLater (fun _ h => hNames (hOthers h)) hNames' hRest, hKept name hNe]

variable {a : PushArguments} {startTime : Int} (hInterval : 1 ≤ a.settings.sampleInterval)
  (hReport : 1 ≤ a.settings.reportSamples)
  (hProduct : a.settings.reportSamples * a.settings.sampleInterval < 2 ^ 32) (hStart : a.startTime = some startTime)
  (hLoad : LoadsApart ctx statObject)
include hInterval hReport hProduct hStart hLoad

theorem exec_pushLeaf_iff {store : ParameterStore} {leaves : List Text} (hNodup : leaves.Nodup)
    (hSampled : ∀ prmName ∈ leaves, isSampled statObject prmName = true) (hHere : leaves ⊆ store.names) :
    (∃ last, exec (pushLeaf ctx statObject a.plan keepValue) store leaves = some last ∧
        Along (pushLeaf ctx statObject a.plan keepValue)
          (LeafReported ctx statObject a.settings (a.boundTime - a.newStart startTime) last) store leaves) ↔
      Along (pushLeaf ctx statObject a.plan keepValue) (LeafReportable ctx statObject a startTime) store leaves := by
  induction leaves generalizing store with
  | nil => exact ⟨fun _ => trivial, fun _ => ⟨store, rfl, trivial⟩⟩
  | cons prmName leaves ih =>
    obtain ⟨hNew, hNodup⟩ := List.nodup_cons.mp hNodup
    obtain ⟨hFirst, hLater⟩ := List.forall_mem_cons.mp hSampled
    obtain ⟨hPresent, hOthers⟩ := List.cons_subset.mp hHere
    have hOther : ∀ other ∈ leaves, shortName statObject prmName ≠ shortName statObject other := by
      intro other hMem hEq
      exact hNew (shortName_inj hFirst (hLater other hMem) hEq ▸ hMem)
    have hLeaf := @leafReported_iff _ _ _ _ keepValue hInterval hReport hProduct hStart hLoad _ _ hFirst hPresent
    constructor
    · rintro ⟨last, hExec, hNow, hNext⟩
      obtain ⟨after, hStep, hRest⟩ := Option.bind_eq_some_iff.mp hExec
      obtain ⟨hNames, -, -⟩ := pushLeaf_eq_some hLoad hFirst hPresent hStep
      have hStay : leaves ⊆ after.names := fun _ h => hNames (hOthers h)
      have hKept := valueAt_exec hLoad hLater hStay hOther hRest
      refine ⟨hLeaf.mp ⟨after, hStep, (leafReported_congr hKept).mp hNow⟩, fun other hOtherStep => ?_⟩
      · obtain rfl := Option.some.inj (hStep.symm.trans hOtherStep)
        exact (ih hNodup hLater hStay).mp ⟨last, hRest, hNext after hStep⟩
    · rintro ⟨hNow, hNext⟩
      obtain ⟨after, hStep, hReported⟩ := hLeaf.mpr hNow
      obtain ⟨hNames, -, -⟩ := pushLeaf_eq_some hLoad hFirst hPresent hStep
      have hStay : leaves ⊆ after.names := fun _ h => hNames (hOthers h)
      obtain ⟨last, hRest, hAlong⟩ := (ih hNodup hLater hStay).mpr (hNext after hStep)
      have hKept := valueAt_exec hLoad hLater hStay hOther hRest
      refine ⟨last, ?_, (leafReported_congr hKept).mpr hReported, fun other hOtherStep => ?_⟩
      · rw [exec, hStep, Option.bind_some, hRest]
      · obtain rfl := Option.some.inj (hStep.symm.trans hOtherStep)
        exact hAlong

end Rounds

section Push

variable {ctx : SamplingContext} {statObject : Text} {a : PushArguments} {startTime : Int}

/-- The start of a report, as it is read from its parameter. -/
def readStartTime (ctx : SamplingContext) (statObject : Text) (store : ParameterStore) : Option Int :=
  (valueAt store (statObject ++ samplesReportNode ++ startTimeName)).map fun value =>
    (value.bind ctx.dateStringToTime).getD 0

theorem readStartTime_eq {pushCase : PushCase} {argTime : Int} {store : ParameterStore}
    (hArgs : pushArguments ctx statObject pushCase argTime store = some a) :
    readStartTime ctx statObject store = a.startTime := by
  obtain ⟨timestamp, -, hRecord⟩ := Option.bind_eq_some_iff.mp hArgs
  obtain rfl := Option.some.inj hRecord
  rw [readStartTime, valueAt, Option.map_map]
  rfl

theorem valueAt_prepareReport (store : ParameterStore) :
    valueAt (prepareReport ctx statObject a store) (statObject ++ samplesReportNode ++ startTimeName) =
      match a.plan.startReport with
      | none => valueAt store (statObject ++ samplesReportNode ++ startTimeName)
      | some startReport =>
        (valueAt store (statObject ++ samplesReportNode ++ startTimeName)).map fun _ =>
          some (ctx.dateTimeToString startReport) := by
  have hEnd : statObject ++ samplesReportNode ++ startTimeName ≠ statObject ++ samplesReportNode ++ endTimeName :=
    fun hEq => absurd (List.append_cancel_left hEq) (by decide)
  have hStatus : statObject ++ samplesReportNode ++ startTimeName ≠ statObject ++ sampleStatusName := by
    rw [List.append_assoc]
    exact fun hEq => absurd (List.append_cancel_left hEq) (by decide)
  have hTrigger (s : ParameterStore) :
      valueAt (if a.triggers then updateStat s statObject sampleStatusName fun _ => some statusTrigger else s)
          (statObject ++ samplesReportNode ++ startTimeName) =
        valueAt s (statObject ++ samplesReportNode ++ startTimeName) := by
    split
    · exact valueAt_updateStat_of_ne hStatus s _
    · rfl
  rw [prepareReport, hTrigger]
  cases a.plan.startReport with
  | none => exact valueAt_updateStat_of_ne hEnd store _
  | some startReport =>
    dsimp only
    rw [valueAt_updateStat_self, valueAt_updateStat_of_ne hEnd]
    rfl

theorem readStartTime_prepareReport {store : ParameterStore}
    (hStart : readStartTime ctx statObject store = some startTime)
    (hDates : ∀ t ∈ a.plan.startReport, ctx.dateStringToTime (ctx.dateTimeToString t) = some t) :
    readStartTime ctx statObject (prepareReport ctx statObject a store) = some (a.newStart startTime) := by
  rw [readStartTime, valueAt_prepareReport, PushArguments.newStart]
  cases hMoved : a.plan.startReport with
  | none => exact hStart
  | some startReport =>
    obtain ⟨value, hValue, -⟩ := Option.map_eq_some_iff.mp hStart
    rw [hValue]
    dsimp only [Option.map_some, Option.bind_some, Option.getD_some]
    rw [hDates startReport hMoved]
    rfl

theorem fetchInterval_ne_zero (hInterval : a.settings.sampleInterval ≠ 0) (hFetches : a.fetches = true)
    (hProduct : a.settings.fetchSamples * a.settings.sampleInterval < 2 ^ 32) : a.fetchInterval ≠ 0 := by
  simp only [PushArguments.fetches, Bool.and_eq_true, decide_eq_true_eq] at hFetches
  obtain ⟨⟨-, hSome⟩, -⟩ := hFetches
  have hPos := Nat.mul_pos hSome (Nat.pos_of_ne_zero hInterval)
  rw [PushArguments.fetchInterval, wrap, Nat.mod_eq_of_lt hProduct]
  omega

theorem pushSample_of_not_ignored {pushCase : PushCase} {argTime : Int} {slidingMode : Bool} {store : ParameterStore}
    (hArgs : pushArguments ctx statObject pushCase argTime store = some a) (hIgnored : a.ignored = false)
    (hInterval : 1 ≤ a.settings.sampleInterval)
    (hProduct : a.settings.reportSamples * a.settings.sampleInterval < 2 ^ 32) :
    pushSample ctx statObject pushCase argTime slidingMode store =
      (pushLeaves ctx statObject a.plan (pushCase = .forceSample || slidingMode)
        (prepareReport ctx statObject a store)).map fun store => (true, store) := by
  have hEarly : ¬ a.tooEarly = true := Bool.eq_false_iff.mp (not_tooEarly hIgnored)
  have hFetch : ¬ (a.fetches = true ∧ a.fetchInterval = 0) := by
    rintro ⟨hFetches, hZero⟩
    have hLess : a.settings.fetchSamples ≤ a.settings.reportSamples := by
      simp only [PushArguments.fetches, Bool.and_eq_true, decide_eq_true_eq] at hFetches
      exact hFetches.2
    have hFits := Nat.lt_of_le_of_lt (Nat.mul_le_mul_right a.settings.sampleInterval hLess) hProduct
    exact fetchInterval_ne_zero (by omega) hFetches hFits hZero
  rw [pushSample, hArgs]
  dsimp only
  rw [if_neg (by omega), if_neg hEarly, if_neg (by rw [hIgnored]; decide), if_neg hFetch]

/-- The push that is not ignored leaves the lists with an item for each interval of the report exactly where
the value of each parameter can be reported. -/
theorem pushSample_reports_iff {pushCase : PushCase} {argTime : Int} {slidingMode : Bool} {store : ParameterStore}
    (hArgs : pushArguments ctx statObject pushCase argTime store = some a) (hIgnored : a.ignored = false)
    (hInterval : 1 ≤ a.settings.sampleInterval) (hReport : 1 ≤ a.settings.reportSamples)
    (hProduct : a.settings.reportSamples * a.settings.sampleInterval < 2 ^ 32) (hStart : a.startTime = some startTime)
    (hDates : ∀ t ∈ a.plan.startReport, ctx.dateStringToTime (ctx.dateTimeToString t) = some t)
    (hLoad : LoadsApart ctx statObject) :
    let keepValue := pushCase = .forceSample || slidingMode
    let prepared := prepareReport ctx statObject a store
    (∃ last start, pushSample ctx statObject pushCase argTime slidingMode store = some (true, last) ∧
        readStartTime ctx statObject last = some start ∧
        Along (pushLeaf ctx statObject a.plan keepValue)
          (LeafReported ctx statObject a.settings (a.boundTime - start) last) prepared
          (sampledNames statObject prepared)) ↔
      Along (pushLeaf ctx statObject a.plan keepValue) (LeafReportable ctx statObject a startTime) prepared
        (sampledNames statObject prepared) := by
  intro keepValue prepared
  have hSampled : ∀ prmName ∈ sampledNames statObject prepared, isSampled statObject prmName = true :=
    fun prmName hMem => (List.mem_filter.mp hMem).2
  have hHere : sampledNames statObject prepared ⊆ prepared.names := List.filter_subset_self _
  have hNodup : (sampledNames statObject prepared).Nodup := prepared.nodup.filter _
  have hPush : pushSample ctx statObject pushCase argTime slidingMode store =
      (exec (pushLeaf ctx statObject a.plan keepValue) prepared (sampledNames statObject prepared)).map
        fun store => (true, store) := pushSample_of_not_ignored hArgs hIgnored hInterval hProduct
  have hRead (last : ParameterStore)
      (hExec : exec (pushLeaf ctx statObject a.plan keepValue) prepared (sampledNames statObject prepared) =
        some last) :
      readStartTime ctx statObject last = some (a.newStart startTime) := by
    have hOther : ∀ prmName ∈ sampledNames statObject prepared, startTimeName ≠ shortName statObject prmName :=
      fun prmName hMem => (eq_append_shortName (hSampled prmName hMem)).2.symm
    have hKept := valueAt_exec hLoad hSampled hHere hOther hExec
    rw [readStartTime, hKept]
    exact readStartTime_prepareReport ((readStartTime_eq hArgs).trans hStart) hDates
  rw [← exec_pushLeaf_iff hInterval hReport hProduct hStart hLoad hNodup hSampled hHere, hPush]
  constructor
  · rintro ⟨last, start, hSome, hStartRead, hAlong⟩
    obtain ⟨other, hExec, hPair⟩ := Option.map_eq_some_iff.mp hSome
    obtain rfl : other = last := congrArg Prod.snd hPair
    obtain rfl := Option.some.inj (hStartRead.symm.trans (hRead other hExec))
    exact ⟨other, hExec, hAlong⟩
  · rintro ⟨last, hExec, hAlong⟩
    exact ⟨last, _, by rw [hExec]; rfl, hRead last hExec, hAlong⟩

end Push

section Samples

def storedParameter (name value : Text) : Parameter where
  name
  type := .string
  minValue := -1
  maxValue := -1
  storageMode := .dmOnly
  writable := false
  immediateChanges := 0
  accessList := none
  notification := .off
  mandatoryNotification := false
  activeNotificationDenied := false
  loadingMode := 0
  state := .initial
  backValue := none
  value := some value
  configKey := none
  definition := none

/-- A sample set with a report of one hour, and a current sample with the value given. -/
def sampleSet (sCurrentValue : Text) : ParameterStore where
  parameters :=
    [storedParameter "S.LastTimeStamp".toList "1970-01-01T10:00:00Z".toList,
      storedParameter "S.SampleInterval".toList "3600".toList,
      storedParameter "S.ReportSamples".toList "3".toList,
      storedParameter "S.CurrentSample.Bytes".toList sCurrentValue,
      storedParameter "S.SamplesReport.StartTime".toList "1970-01-01T08:00:00Z".toList,
      storedParameter "S.SamplesReport.EndTime".toList "1970-01-01T09:00:00Z".toList,
      storedParameter "S.SamplesReport.Bytes".toList "5".toList]
  nodup := by
    simp only [List.map_cons, List.map_nil, storedParameter]
    decide +kernel

/-- A clock that knows the hours of one day; no parameter has to be loaded. -/
def oneDay : SamplingContext where
  dmPrefix := "Device.".toList
  dateTimeToString t := if t = 36000 then "1970-01-01T10:00:00Z".toList else unknownTime
  dateStringToTime ch :=
    if ch = "1970-01-01T08:00:00Z".toList then some 28800
    else if ch = "1970-01-01T09:00:00Z".toList then some 32400
    else if ch = "1970-01-01T10:00:00Z".toList then some 36000
    else if ch = unknownTime then some 0
    else none
  parameterValue _ _ := none
  loadLeaf store _ := store

def secondHour : PushArguments where
  pushCase := .afterAddingSampleData
  argTime := 0
  timestamp := 36000
  settings := ⟨0, 3600, 3, 0⟩
  endTime := some 32400
  startTime := some 28800

theorem loadsApart_oneDay : LoadsApart oneDay "S.".toList := ⟨fun _ _ => fun _ h => h, fun _ _ _ => rfl⟩

theorem pushSample_reports_second_hour :
    let store := prepareReport oneDay "S.".toList secondHour (sampleSet "7".toList)
    ∃ last start, pushSample oneDay "S.".toList .afterAddingSampleData 0 false (sampleSet "7".toList) =
        some (true, last) ∧
      readStartTime oneDay "S.".toList last = some start ∧
      Along (pushLeaf oneDay "S.".toList secondHour.plan false)
        (LeafReported oneDay "S.".toList secondHour.settings (secondHour.boundTime - start) last) store
        (sampledNames "S.".toList store) :=
  (pushSample_reports_iff rfl (by decide) (by decide) (by decide) (by decide) rfl
    (fun t hMem => absurd hMem (by decide +revert)) loadsApart_oneDay).mpr (by decide +kernel)

/-- A value with a comma in it makes three items for two hours. -/
theorem pushSample_comma_in_value :
    let pushed := pushSample oneDay "S.".toList .afterAddingSampleData 0 false (sampleSet "7,8".toList)
    pushArguments oneDay "S.".toList .afterAddingSampleData 0 (sampleSet "7,8".toList) = some secondHour ∧
      secondHour.ignored = false ∧
      pushed.map (fun res => (res.1, readStartTime oneDay "S.".toList res.2,
        valueAt res.2 "S.SamplesReport.Bytes".toList)) = some (true, some 28800, some (some "5,7,8".toList)) ∧
      ¬ OneItemPerInterval secondHour.settings (secondHour.boundTime - 28800) "5,7,8".toList "7,8".toList := by
  refine ⟨rfl, by decide, by decide +kernel, fun hItems => ?_⟩
  exact absurd hItems.count.needed (by decide)

end Samples

end Tr069Agent.Engine.Sampling
