import Tr069Agent.Library.RunningAverage
import Tr069Agent.Engine.StatisticsModule

/-! # Statistics kept and statistics computed again

A variable that takes one sample at a time keeps the numbers that are computed from the list of all
its samples, but for the average, which loses a remainder with every sample, and for the statistics
that the first way leaves without a value.
-/

namespace Tr069Agent.Engine.Statistics

open Library Library.Lines Library.Decimal Library.RunningAverage

set_option autoImplicit false

/-- A sample of an unsigned variable, as it is notified. -/
structure Sample where
  text : Text
  number : Nat
  timestamp : Int
  read : stringToUint text = some number

namespace Sample

def isTrue (sample : Sample) : Bool := (writtenBool sample.text).getD false

end Sample

def numbers (samples : List Sample) : List Nat := samples.map (·.number)

def least (samples : List Sample) : Nat := (numbers samples).foldl min uintMax

def largest (samples : List Sample) : Nat := (numbers samples).foldl max 0

/-- The list of the samples, as the window holds it. -/
def csvOf (samples : List Sample) : Text := join ',' (samples.map (·.text))

def foldStats (ctx : StatisticsContext) (name : Text) (samples : List Sample) (store : ParameterStore) :
    Option ParameterStore :=
  samples.foldlM (fun store sample =>
    computeStats ctx name sample.number sample.text sample.timestamp store) store

def numberSuffixes : List Text :=
  [sumSuffix, valueSuffix, minSuffix, maxSuffix, countSuffix, averageSuffix, orSuffix]

def IsEmpty (value : Option Text) : Prop := value.getD [] = []

/-- No statistic of the variable has a value. -/
def EmptyStats (store : ParameterStore) (name : Text) : Prop :=
  ∀ suffix ∈ numberSuffixes, ∀ value ∈ valueAt store (name ++ suffix), IsEmpty value

instance (value : Option Text) : Decidable (IsEmpty value) := inferInstanceAs (Decidable (_ = _))

instance (store : ParameterStore) (name : Text) : Decidable (EmptyStats store name) :=
  inferInstanceAs (Decidable (∀ suffix ∈ numberSuffixes, ∀ value ∈ _, IsEmpty value))

def Has (store : ParameterStore) (name suffix : Text) : Prop :=
  (valueAt store (name ++ suffix)).isSome = true

instance (store : ParameterStore) (name suffix : Text) : Decidable (Has store name suffix) :=
  inferInstanceAs (Decidable (_ = true))

section Readings

def readUint (value : Option Text) : Option Nat := value.bind stringToUint

theorem readUint_showInt {n : Nat} (h : n ≤ uintMax) : readUint (some (showInt n)) = some n :=
  stringToUint_showInt h

theorem uintOr_eq (default : Nat) (value : Option Text) : uintOr default value = (readUint value).getD default :=
  rfl

theorem readUint_of_isEmpty {value : Option Text} (h : IsEmpty value) : readUint value = none := by
  cases value with
  | none => rfl
  | some text =>
    obtain rfl : text = [] := h
    decide

theorem writtenBool_of_isEmpty {value : Option Text} (h : IsEmpty value) :
    (value.bind writtenBool).getD false = false := by
  cases value with
  | none => rfl
  | some text =>
    obtain rfl : text = [] := h
    decide

theorem readUint_text (sample : Sample) : readUint (some sample.text) = some sample.number := sample.read

theorem wrap_le (n : Nat) : wrap n ≤ uintMax := by
  rw [wrap, uintMax]
  omega

theorem wrap_of_lt {n : Nat} (h : n < 2 ^ 32) : wrap n = n := Nat.mod_eq_of_lt h

theorem wrap_wrap_add (m n : Nat) : wrap (wrap m + n) = wrap (m + n) := by
  rw [wrap, wrap, wrap]
  omega

theorem number_le (sample : Sample) : sample.number ≤ uintMax := by
  have hRead := sample.read
  dsimp only [stringToUint] at hRead
  split at hRead
  · split at hRead
    · cases hRead
    · simp only [Option.some.injEq] at hRead
      omega
  · cases hRead

end Readings

section Keeping

/-- The readings of the statistics after these samples, where the statistics were empty before. -/
structure Tracks (start store : ParameterStore) (name : Text) (samples : List Sample) : Prop where
  present : ∀ suffix ∈ [minSuffix, countSuffix, averageSuffix, orSuffix],
    Has store name suffix ↔ Has start name suffix
  sum : ∀ value ∈ totalAt store name, uintOr 0 value = wrap (numbers samples).sum
  minimum : ∀ value ∈ valueAt store (name ++ minSuffix),
    readUint value = if least samples < uintMax then some (least samples) else none
  maximum : ∀ value ∈ valueAt store (name ++ maxSuffix), uintOr 0 value = largest samples
  count : ∀ value ∈ valueAt store (name ++ countSuffix),
    readUint value = if samples = [] then none else some (wrap samples.length)
  average : ∀ value ∈ valueAt store (name ++ averageSuffix),
    readUint value =
      if samples = [] ∨ ¬ Has start name countSuffix then none else some (average (numbers samples))
  either : ∀ value ∈ valueAt store (name ++ orSuffix),
    if samples.any Sample.isTrue then value = some trueString else IsEmpty value
  counted : Has start name countSuffix → Has start name averageSuffix → samples.length < 2 ^ 32

variable {ctx : StatisticsContext} {name : Text} {start store store' : ParameterStore}
  {samples : List Sample} {sample : Sample}

theorem totalAt_isEmpty (hEmpty : EmptyStats store name) : ∀ value ∈ totalAt store name, IsEmpty value := by
  intro value hMem
  rw [totalAt, Option.mem_def, Option.or_eq_some_iff] at hMem
  obtain hSum | ⟨-, hValue⟩ := hMem
  · exact hEmpty sumSuffix (by decide) value hSum
  · exact hEmpty valueSuffix (by decide) value hValue

theorem Tracks.initial (hEmpty : EmptyStats start name) : Tracks start start name [] where
  present _ _ := Iff.rfl
  sum value hMem := by
    rw [uintOr_eq, readUint_of_isEmpty (totalAt_isEmpty hEmpty value hMem)]
    rfl
  minimum value hMem := readUint_of_isEmpty (hEmpty minSuffix (by decide) value hMem)
  maximum value hMem := by
    rw [uintOr_eq, readUint_of_isEmpty (hEmpty maxSuffix (by decide) value hMem)]
    rfl
  count value hMem := readUint_of_isEmpty (hEmpty countSuffix (by decide) value hMem)
  average value hMem := by
    rw [readUint_of_isEmpty (hEmpty averageSuffix (by decide) value hMem)]
    simp
  either value hMem := hEmpty orSuffix (by decide) value hMem
  counted _ _ := by decide

theorem numbers_concat (samples : List Sample) (sample : Sample) :
    numbers (samples ++ [sample]) = numbers samples ++ [sample.number] := by
  simp [numbers]

theorem least_concat (samples : List Sample) (sample : Sample) :
    least (samples ++ [sample]) = min (least samples) sample.number := by
  simp [least, numbers_concat]

theorem largest_concat (samples : List Sample) (sample : Sample) :
    largest (samples ++ [sample]) = max (largest samples) sample.number := by
  simp [largest, numbers_concat]

theorem least_le (samples : List Sample) : least samples ≤ uintMax := by
  induction samples using List.reverseRecOn with
  | nil => exact Nat.le_refl _
  | append_singleton samples sample ih =>
    rw [least_concat]
    exact Nat.le_trans (Nat.min_le_left _ _) ih

theorem has_of_map {suffix : Text} {new : Option Text → Option Text}
    (h : valueAt store' (name ++ suffix) = (valueAt store (name ++ suffix)).map new) :
    Has store' name suffix ↔ Has store name suffix := by
  rw [Has, Has, h, Option.isSome_map]

theorem has_of_eq {suffix : Text} (h : valueAt store' (name ++ suffix) = valueAt store (name ++ suffix)) :
    Has store' name suffix ↔ Has store name suffix := by
  rw [Has, Has, h]

theorem exists_of_map {suffix : Text} {new : Option Text → Option Text}
    (h : valueAt store' (name ++ suffix) = (valueAt store (name ++ suffix)).map new) {value : Option Text}
    (hMem : value ∈ valueAt store' (name ++ suffix)) :
    ∃ old ∈ valueAt store (name ++ suffix), new old = value := by
  rw [h] at hMem
  exact Option.map_eq_some_iff.mp hMem

theorem average_step {samples : List Sample} {sample : Sample} {value : Option Text}
    (hSum : (numbers (samples ++ [sample])).sum < 2 ^ 32) (hCount : wrap (samples.length + 1) ≠ 0)
    (hFits : samples.length < 2 ^ 32)
    (hValue : readUint value = if samples = [] then none else some (average (numbers samples))) :
    wrap (wrap ((wrap (samples.length + 1) - 1) * uintOr 0 value) + sample.number) /
      wrap (samples.length + 1) = average (numbers (samples ++ [sample])) := by
  have hLength : samples.length + 1 < 2 ^ 32 := by
    rw [wrap] at hCount
    omega
  have hOld : uintOr 0 value = average (numbers samples) := by
    rw [uintOr_eq, hValue]
    split
    · rename_i hNil
      rw [hNil]
      rfl
    · rfl
  have hProduct := mul_average_le_sum (numbers samples)
  have hNumbers : (numbers samples).length = samples.length := List.length_map _
  rw [hNumbers] at hProduct
  rw [numbers_concat, List.sum_append, List.sum_singleton] at hSum
  rw [hOld, wrap_of_lt hLength, Nat.add_sub_cancel, wrap_wrap_add, wrap_of_lt (by omega), numbers_concat,
    average_concat, next, hNumbers]

theorem sum_step {value : Option Text} (hValue : uintOr 0 value = wrap (numbers samples).sum) :
    uintOr 0 (if sample.number = 0 then value else some (showInt (wrap (uintOr 0 value + sample.number) : Nat))) =
      wrap (numbers (samples ++ [sample])).sum := by
  rw [numbers_concat, List.sum_append, List.sum_singleton]
  split
  · rename_i hZero
    rw [hValue, hZero, Nat.add_zero]
  · rw [uintOr_eq, readUint_showInt (wrap_le _), hValue, wrap_wrap_add]
    rfl

theorem minimum_step {value : Option Text}
    (hValue : readUint value = if least samples < uintMax then some (least samples) else none) :
    readUint (if sample.number < uintOr uintMax value then some sample.text else value) =
      if least (samples ++ [sample]) < uintMax then some (least (samples ++ [sample])) else none := by
  have hLe := least_le samples
  have hRead : uintOr uintMax value = least samples := by
    rw [uintOr_eq, hValue]
    split
    · rfl
    · rw [Option.getD_none]
      omega
  rw [hRead, least_concat]
  split
  · rename_i hLess
    rw [readUint_text, min_eq_right hLess.le, if_pos (by omega)]
  · rename_i hMore
    rw [hValue, min_eq_left (not_lt.mp hMore)]

theorem maximum_step {value : Option Text} (hValue : uintOr 0 value = largest samples) :
    uintOr 0 (if uintOr 0 value < sample.number then some sample.text else value) = largest (samples ++ [sample]) := by
  rw [hValue, largest_concat]
  split
  · rename_i hMore
    rw [uintOr_eq, readUint_text, Option.getD_some, max_eq_right hMore.le]
  · rename_i hLess
    rw [hValue, max_eq_left (not_lt.mp hLess)]

theorem either_step {value : Option Text}
    (hValue : if samples.any Sample.isTrue then value = some trueString else IsEmpty value) :
    if (samples ++ [sample]).any Sample.isTrue then
      (if !((value.bind writtenBool).getD false) && (writtenBool sample.text).getD false then some trueString
        else value) = some trueString
    else
      IsEmpty (if !((value.bind writtenBool).getD false) && (writtenBool sample.text).getD false then some trueString
        else value) := by
  rw [List.any_append, List.any_cons, List.any_nil, Bool.or_false]
  cases hAny : samples.any Sample.isTrue with
  | true =>
    rw [hAny, if_pos rfl] at hValue
    have hTrue : writtenBool trueString = some true := by decide
    simp [hValue, hTrue]
  | false =>
    rw [hAny, if_neg Bool.false_ne_true] at hValue
    have hWord : (writtenBool sample.text).getD false = sample.isTrue := rfl
    rw [writtenBool_of_isEmpty hValue, hWord]
    cases sample.isTrue with
    | true => simp
    | false => simpa using hValue

theorem Tracks.uintOr_count (h : Tracks start store name samples) {value : Option Text}
    (hMem : value ∈ valueAt store (name ++ countSuffix)) : uintOr 0 value = wrap samples.length := by
  rw [uintOr_eq, h.count value hMem]
  split
  · rename_i hNil
    rw [hNil]
    rfl
  · rfl

theorem Tracks.step (h : Tracks start store name samples)
    (hSum : (numbers (samples ++ [sample])).sum < 2 ^ 32)
    (hStep : computeStats ctx name sample.number sample.text sample.timestamp store = some store') :
    Tracks start store' name (samples ++ [sample]) := by
  obtain ⟨maxed, counted, hBefore, hTotal, hMin, hMax, hCount, hAfter, hOr⟩ :=
    computeStats_cases ctx name hStep
  have hCounting := changes_computeCount name hCount
  have hFromMax := hCounting.trans hAfter
  rw [← hFromMax.totalAt (by decide) (by decide)] at hTotal
  rw [← hFromMax _ (by decide)] at hMin hMax
  have hNumber := valueAt_computeCount name hCount
  rw [← hAfter _ (by decide), hBefore _ (by decide)] at hNumber
  have hHasCount := h.present countSuffix (by decide)
  have hHasAverage := h.present averageSuffix (by decide)
  have hCell := hBefore countSuffix (by decide)
  have hAverageCell := hBefore averageSuffix (by decide)
  have hUncounted (hNot : ¬ Has start name countSuffix) :
      valueAt store' (name ++ averageSuffix) = valueAt store (name ++ averageSuffix) := by
    rw [← hHasCount, Has, Option.not_isSome_iff_eq_none, ← hCell] at hNot
    rw [hAfter _ (by decide), computeCount_of_none name hNot hCount, hAverageCell]
  have hFits (hHas : Has start name countSuffix) :
      (Has start name averageSuffix → wrap (samples.length + 1) ≠ 0) ∧
        valueAt store' (name ++ averageSuffix) =
          (valueAt store (name ++ averageSuffix)).map fun value =>
            some (showInt (wrap (wrap ((wrap (samples.length + 1) - 1) * uintOr 0 value) + sample.number) /
              wrap (samples.length + 1) : Nat)) := by
    obtain ⟨old, hOld⟩ := Option.isSome_iff_exists.mp (hHasCount.mpr hHas)
    have hRead : uintOr 0 old = wrap samples.length := h.uintOr_count hOld
    obtain ⟨hPos, hMap⟩ := average_computeCount name (hCell.trans hOld) hCount
    rw [hRead, wrap_wrap_add] at hPos hMap
    rw [hAverageCell] at hPos hMap
    exact ⟨fun hAvg => hPos (hHasAverage.mpr hAvg), (hAfter _ (by decide)).trans hMap⟩
  refine { present := ?_, sum := ?_, minimum := ?_, maximum := ?_, count := ?_, average := ?_,
           either := ?_, counted := ?_ }
  · intro suffix hMem
    rw [← h.present suffix hMem]
    simp only [List.mem_cons, List.not_mem_nil, or_false] at hMem
    obtain rfl | rfl | rfl | rfl := hMem
    · exact has_of_map hMin
    · exact has_of_map hNumber
    · obtain hHas | hNot := em (Has start name countSuffix)
      · exact has_of_map (hFits hHas).2
      · exact has_of_eq (hUncounted hNot)
    · exact has_of_map hOr
  · intro value hMem
    rw [hTotal] at hMem
    obtain ⟨old, hOld, rfl⟩ := Option.map_eq_some_iff.mp hMem
    exact sum_step (h.sum old hOld)
  · intro value hMem
    obtain ⟨old, hOld, rfl⟩ := exists_of_map hMin hMem
    exact minimum_step (h.minimum old hOld)
  · intro value hMem
    obtain ⟨old, hOld, rfl⟩ := exists_of_map hMax hMem
    exact maximum_step (h.maximum old hOld)
  · intro value hMem
    obtain ⟨old, hOld, rfl⟩ := exists_of_map hNumber hMem
    rw [readUint_showInt (wrap_le _), h.uintOr_count hOld, wrap_wrap_add]
    simp
  · intro value hMem
    obtain hHas | hNot := em (Has start name countSuffix)
    · obtain ⟨old, hOld, rfl⟩ := exists_of_map (hFits hHas).2 hMem
      have hAvg : Has start name averageSuffix := hHasAverage.mp (Option.isSome_iff_exists.mpr ⟨old, hOld⟩)
      have hValue := h.average old hOld
      simp only [hHas, not_true, or_false] at hValue
      have hNext := average_step hSum ((hFits hHas).1 hAvg) (h.counted hHas hAvg) hValue
      have hSmall := average_le (numbers (samples ++ [sample]))
      rw [hNext, readUint_showInt (by rw [uintMax]; omega)]
      simp [hHas]
    · rw [hUncounted hNot] at hMem
      rw [h.average value hMem]
      simp [hNot]
  · intro value hMem
    obtain ⟨old, hOld, rfl⟩ := exists_of_map hOr hMem
    exact either_step (h.either old hOld)
  · intro hHas hAvg
    have hMore := (hFits hHas).1 hAvg
    have hLess := h.counted hHas hAvg
    rw [wrap] at hMore
    rw [List.length_append, List.length_singleton]
    omega

theorem foldStats_concat (ctx : StatisticsContext) (name : Text) (samples : List Sample) (sample : Sample)
    (store : ParameterStore) :
    foldStats ctx name (samples ++ [sample]) store =
      (foldStats ctx name samples store).bind
        (computeStats ctx name sample.number sample.text sample.timestamp) := by
  rw [foldStats, List.foldlM_append]
  simp [foldStats]

theorem sum_le_concat (samples : List Sample) (sample : Sample) :
    (numbers samples).sum ≤ (numbers (samples ++ [sample])).sum := by
  rw [numbers_concat, List.sum_append]
  exact Nat.le_add_right _ _

theorem tracks_foldStats (hEmpty : EmptyStats start name) (hSum : (numbers samples).sum < 2 ^ 32)
    (hFold : foldStats ctx name samples start = some store) : Tracks start store name samples := by
  induction samples using List.reverseRecOn generalizing store with
  | nil =>
    obtain rfl := Option.some.inj hFold
    exact Tracks.initial hEmpty
  | append_singleton samples sample ih =>
    rw [foldStats_concat] at hFold
    obtain ⟨before, hBefore, hStep⟩ := Option.bind_eq_some_iff.mp hFold
    exact (ih (Nat.lt_of_le_of_lt (sum_le_concat samples sample) hSum) hBefore).step hSum hStep

theorem exists_foldStats (ctx : StatisticsContext) (hEmpty : EmptyStats start name)
    (hSum : (numbers samples).sum < 2 ^ 32)
    (hCounted : Has start name countSuffix → Has start name averageSuffix → samples.length < 2 ^ 32) :
    ∃ store, foldStats ctx name samples start = some store := by
  induction samples using List.reverseRecOn with
  | nil => exact ⟨start, rfl⟩
  | append_singleton samples sample ih =>
    rw [List.length_append, List.length_singleton] at hCounted
    have hSumBefore := Nat.lt_of_le_of_lt (sum_le_concat samples sample) hSum
    obtain ⟨before, hBefore⟩ := ih hSumBefore fun hCount hAverage => by
      have hMore := hCounted hCount hAverage
      omega
    have hTracks := tracks_foldStats hEmpty hSumBefore hBefore
    rw [foldStats_concat, hBefore]
    apply exists_computeStats
    intro old hOld hAverage
    have hHas : Has before name countSuffix := Option.isSome_iff_exists.mpr ⟨old, hOld⟩
    have hMore := hCounted ((hTracks.present _ (by decide)).mp hHas)
      ((hTracks.present _ (by decide)).mp hAverage)
    rw [hTracks.uintOr_count hOld, wrap_wrap_add, wrap]
    omega

end Keeping

section Recomputing

variable {samples : List Sample}

theorem csvItems_csvOf (hSome : samples ≠ []) :
    csvItems (some (csvOf samples)) = samples.map (·.text) := by
  have hComma : ∀ item ∈ samples.map (·.text), ',' ∉ item := by
    intro item hMem
    obtain ⟨sample, -, rfl⟩ := List.mem_map.mp hMem
    exact comma_notMem_of_stringToUint sample.read
  dsimp only [csvItems, csvOf]
  rw [splitOn_join hComma (by simpa using hSome), if_neg]
  rw [List.getLast?_map]
  cases samples.getLast? with
  | none => simp
  | some sample => simpa using (chars_of_stringToUint sample.read).1

theorem countCsv_csvOf (hSome : samples ≠ []) :
    countCsv (some (csvOf samples)) = wrap samples.length := by
  rw [countCsv, csvItems_csvOf hSome]
  clear hSome
  induction samples using List.reverseRecOn with
  | nil => rfl
  | append_singleton samples sample ih =>
    rw [List.map_append, List.foldl_append, ih]
    simp [sample.read, wrap_wrap_add]

theorem sumCsv_csvOf (hSome : samples ≠ []) :
    sumCsv (some (csvOf samples)) = wrap (numbers samples).sum := by
  rw [sumCsv, csvItems_csvOf hSome]
  clear hSome
  induction samples using List.reverseRecOn with
  | nil => rfl
  | append_singleton samples sample ih =>
    rw [List.map_append, List.foldl_append, ih, numbers_concat, List.sum_append]
    simp [uintOr, sample.read, wrap_wrap_add]

/-- The best number of the list is found by going through the samples. -/
theorem bestCsv_csvOf (hSome : samples ≠ []) (better : Nat → Nat → Bool) (start : Nat) :
    (bestCsv better start (some (csvOf samples))).1 =
      (numbers samples).foldl (fun res v => if better v res then v else res) start := by
  rw [bestCsv, csvItems_csvOf hSome]
  clear hSome
  induction samples using List.reverseRecOn with
  | nil => rfl
  | append_singleton samples sample ih =>
    rw [List.map_append, List.zipIdx_append, List.foldl_append, numbers_concat, List.foldl_append, ← ih]
    simp only [List.map_cons, List.map_nil, List.zipIdx_singleton, List.foldl_cons, List.foldl_nil,
      sample.read]
    split <;> rfl

theorem minCsv_csvOf (hSome : samples ≠ []) : (minCsv (some (csvOf samples))).1 = least samples := by
  rw [minCsv, bestCsv_csvOf hSome, least]
  congr 1
  funext res v
  simp only [decide_eq_true_eq]
  split <;> omega

theorem maxCsv_csvOf (hSome : samples ≠ []) : (maxCsv (some (csvOf samples))).1 = largest samples := by
  rw [maxCsv, bestCsv_csvOf hSome, largest]
  congr 1
  funext res v
  simp only [decide_eq_true_eq]
  split <;> omega

theorem orCsv_csvOf (hSome : samples ≠ []) :
    orCsv (some (csvOf samples)) = samples.any Sample.isTrue := by
  rw [orCsv, csvItems_csvOf hSome, List.any_map]
  rfl

theorem largest_le (samples : List Sample) : largest samples ≤ uintMax := by
  induction samples using List.reverseRecOn with
  | nil => exact Nat.zero_le _
  | append_singleton samples sample ih =>
    rw [largest_concat]
    exact Nat.max_le.mpr ⟨ih, number_le sample⟩

end Recomputing

section Agreement

def readBool (value : Option Text) : Option Bool := value.bind stringToBool

/-- Each statistic that both variables have reads the same, and a sum or a maximum that is missing reads
as zero. -/
structure Agree (store : ParameterStore) (name : Text) (window : ParameterStore) (windowName : Text) :
    Prop where
  sum : ∀ value ∈ totalAt store name, ∀ other ∈ totalAt window windowName,
    uintOr 0 value = uintOr 0 other
  minimum : ∀ value ∈ valueAt store (name ++ minSuffix),
    ∀ other ∈ valueAt window (windowName ++ minSuffix), readUint value = readUint other
  maximum : ∀ value ∈ valueAt store (name ++ maxSuffix),
    ∀ other ∈ valueAt window (windowName ++ maxSuffix), uintOr 0 value = uintOr 0 other
  count : ∀ value ∈ valueAt store (name ++ countSuffix),
    ∀ other ∈ valueAt window (windowName ++ countSuffix), readUint value = readUint other
  average : ∀ value ∈ valueAt store (name ++ averageSuffix),
    ∀ other ∈ valueAt window (windowName ++ averageSuffix), readUint value = readUint other
  either : ∀ value ∈ valueAt store (name ++ orSuffix),
    ∀ other ∈ valueAt window (windowName ++ orSuffix), readBool value = readBool other

/-- The samples whose statistics agree: a minimum below the greatest number, a sample that is true, few
enough samples to be counted, and an average that loses nothing. -/
structure Agreeable (store : ParameterStore) (name : Text) (window : ParameterStore) (windowName : Text)
    (samples : List Sample) : Prop where
  minimum : Has store name minSuffix → Has window windowName minSuffix →
    ∃ sample ∈ samples, sample.number < uintMax
  either : Has store name orSuffix → Has window windowName orSuffix →
    ∃ sample ∈ samples, sample.isTrue = true
  counted : Has store name countSuffix → Has store name averageSuffix → samples.length < 2 ^ 32
  average : Has store name averageSuffix → Has window windowName averageSuffix →
    if Has store name countSuffix then Exact (numbers samples) else 2 ^ 32 ∣ samples.length

variable {name windowName : Text} {start store window : ParameterStore} {samples : List Sample}

theorem least_lt_iff : least samples < uintMax ↔ ∃ sample ∈ samples, sample.number < uintMax := by
  induction samples using List.reverseRecOn with
  | nil => simp [least, numbers]
  | append_singleton samples sample ih =>
    rw [least_concat, min_lt_iff, ih]
    simp [or_and_right, exists_or]

theorem readBool_of_isEmpty {value : Option Text} (h : IsEmpty value) : readBool value = none := by
  cases value with
  | none => rfl
  | some text =>
    obtain rfl : text = [] := h
    decide

/-- The statistics of a window that holds exactly these samples. -/
structure Recomputed (window : ParameterStore) (name : Text) (samples : List Sample) : Prop where
  sum : ∀ value ∈ totalAt window name, uintOr 0 value = wrap (numbers samples).sum
  minimum : ∀ value ∈ valueAt window (name ++ minSuffix), readUint value = some (least samples)
  maximum : ∀ value ∈ valueAt window (name ++ maxSuffix), uintOr 0 value = largest samples
  count : ∀ value ∈ valueAt window (name ++ countSuffix), readUint value = some (wrap samples.length)
  average : ∀ value ∈ valueAt window (name ++ averageSuffix), readUint value =
    if wrap samples.length = 0 then none
    else some (wrap (numbers samples).sum / wrap samples.length)
  either : ∀ value ∈ valueAt window (name ++ orSuffix), readBool value = some (samples.any Sample.isTrue)

theorem recomputed_of_csv {currentNodeName : Text} {sNewValue : Option Text} {valuesToSave : Nat}
    {before : ParameterStore} (hSome : samples ≠ [])
    (hWindow : computeSlidingStats name currentNodeName sNewValue valuesToSave before = window)
    (hCsv : valueAt window (name ++ csvSuffix) = some (some (csvOf samples))) :
    Recomputed window name samples := by
  obtain ⟨hSum, hMin, hMax, hCount, hAverage, hOr⟩ :=
    computeSlidingStats_spec name currentNodeName hWindow hCsv
  rw [sumCsv_csvOf hSome] at hSum hAverage
  rw [countCsv_csvOf hSome] at hCount hAverage
  rw [minCsv_csvOf hSome] at hMin
  rw [maxCsv_csvOf hSome] at hMax
  rw [orCsv_csvOf hSome] at hOr
  constructor
  · intro value hMem
    rw [hSum] at hMem
    obtain ⟨old, -, rfl⟩ := Option.map_eq_some_iff.mp hMem
    rw [uintOr_eq, readUint_showInt (wrap_le _), Option.getD_some]
  · intro value hMem
    obtain ⟨old, -, rfl⟩ := exists_of_map hMin hMem
    exact readUint_showInt (least_le samples)
  · intro value hMem
    obtain ⟨old, -, rfl⟩ := exists_of_map hMax hMem
    rw [uintOr_eq, readUint_showInt (largest_le samples), Option.getD_some]
  · intro value hMem
    obtain ⟨old, -, rfl⟩ := exists_of_map hCount hMem
    exact readUint_showInt (wrap_le _)
  · intro value hMem
    obtain ⟨old, -, rfl⟩ := exists_of_map hAverage hMem
    split
    · decide
    · exact readUint_showInt (Nat.le_trans (Nat.div_le_self _ _) (wrap_le _))
  · intro value hMem
    obtain ⟨old, -, rfl⟩ := exists_of_map hOr hMem
    cases samples.any Sample.isTrue with
    | true => decide
    | false => decide

theorem averages_eq_iff (hSome : samples ≠ []) (hSum : (numbers samples).sum < 2 ^ 32)
    (hTracks : Tracks start store name samples) (hRecomputed : Recomputed window windowName samples)
    {value other : Option Text} (hValue : value ∈ valueAt store (name ++ averageSuffix))
    (hOther : other ∈ valueAt window (windowName ++ averageSuffix)) :
    readUint value = readUint other ↔
      if Has start name countSuffix then Exact (numbers samples) else 2 ^ 32 ∣ samples.length := by
  have hAverage : Has start name averageSuffix :=
    (hTracks.present _ (by decide)).mp (Option.isSome_iff_exists.mpr ⟨value, hValue⟩)
  rw [hTracks.average value hValue, hRecomputed.average other hOther]
  obtain hHas | hNot := em (Has start name countSuffix)
  · have hLength := hTracks.counted hHas hAverage
    have hNumbers : (numbers samples).length = samples.length := List.length_map _
    have hPos : samples.length ≠ 0 := by simpa using hSome
    have hList : numbers samples ≠ [] := by simpa [numbers] using hSome
    rw [wrap_of_lt hLength, wrap_of_lt hSum, if_neg (by simp [hSome, hHas]), if_neg hPos, if_pos hHas,
      Option.some_inj, ← hNumbers, average_eq_div_iff hList]
  · rw [if_pos (.inr hNot), if_neg hNot, Nat.dvd_iff_mod_eq_zero, ← wrap]
    split
    · simp [*]
    · simp [*]

/-- Statistics kept from sample to sample agree with those of a window that holds exactly the samples
when, and only when, no remainder is lost and no statistic is left without a value. -/
theorem statistics_agree_iff (ctx : StatisticsContext) {currentNodeName : Text} {sNewValue : Option Text}
    {valuesToSave : Nat} {before : ParameterStore} (hSome : samples ≠ [])
    (hSum : (numbers samples).sum < 2 ^ 32) (hEmpty : EmptyStats start name)
    (hWindow : computeSlidingStats windowName currentNodeName sNewValue valuesToSave before = window)
    (hCsv : valueAt window (windowName ++ csvSuffix) = some (some (csvOf samples))) :
    (∃ store, foldStats ctx name samples start = some store ∧ Agree store name window windowName) ↔
      Agreeable start name window windowName samples := by
  have hRecomputed := recomputed_of_csv hSome hWindow hCsv
  constructor
  · rintro ⟨store, hFold, hAgree⟩
    have hTracks := tracks_foldStats hEmpty hSum hFold
    refine ⟨fun hHas hOther => ?_, fun hHas hOther => ?_, hTracks.counted, fun hHas hOther => ?_⟩
    · obtain ⟨value, hValue⟩ := Option.isSome_iff_exists.mp ((hTracks.present _ (by decide)).mpr hHas)
      obtain ⟨other, hOther⟩ := Option.isSome_iff_exists.mp hOther
      have hEq := hAgree.minimum value hValue other hOther
      rw [hTracks.minimum value hValue, hRecomputed.minimum other hOther] at hEq
      apply least_lt_iff.mp
      split at hEq
      · assumption
      · cases hEq
    · obtain ⟨value, hValue⟩ := Option.isSome_iff_exists.mp ((hTracks.present _ (by decide)).mpr hHas)
      obtain ⟨other, hOther⟩ := Option.isSome_iff_exists.mp hOther
      have hEq := hAgree.either value hValue other hOther
      have hEither := hTracks.either value hValue
      rw [hRecomputed.either other hOther] at hEq
      split at hEither
      · exact List.any_eq_true.mp ‹_›
      · rw [readBool_of_isEmpty hEither] at hEq
        cases hEq
    · obtain ⟨value, hValue⟩ := Option.isSome_iff_exists.mp ((hTracks.present _ (by decide)).mpr hHas)
      obtain ⟨other, hOther⟩ := Option.isSome_iff_exists.mp hOther
      exact (averages_eq_iff hSome hSum hTracks hRecomputed hValue hOther).mp
        (hAgree.average value hValue other hOther)
  · intro hAgreeable
    obtain ⟨store, hFold⟩ := exists_foldStats ctx hEmpty hSum hAgreeable.counted
    have hTracks := tracks_foldStats hEmpty hSum hFold
    have hHas {suffix : Text} (hMem : suffix ∈ [minSuffix, countSuffix, averageSuffix, orSuffix])
        {value : Option Text} (hValue : value ∈ valueAt store (name ++ suffix)) : Has start name suffix :=
      (hTracks.present suffix hMem).mp (Option.isSome_iff_exists.mpr ⟨value, hValue⟩)
    refine ⟨store, hFold, ?_, ?_, ?_, ?_, ?_, ?_⟩
    · intro value hValue other hOther
      rw [hTracks.sum value hValue, hRecomputed.sum other hOther]
    · intro value hValue other hOther
      have hLess := least_lt_iff.mpr (hAgreeable.minimum (hHas (by decide) hValue)
        (Option.isSome_iff_exists.mpr ⟨other, hOther⟩))
      rw [hTracks.minimum value hValue, hRecomputed.minimum other hOther, if_pos hLess]
    · intro value hValue other hOther
      rw [hTracks.maximum value hValue, hRecomputed.maximum other hOther]
    · intro value hValue other hOther
      rw [hTracks.count value hValue, hRecomputed.count other hOther, if_neg hSome]
    · intro value hValue other hOther
      exact (averages_eq_iff hSome hSum hTracks hRecomputed hValue hOther).mpr
        (hAgreeable.average (hHas (by decide) hValue) (Option.isSome_iff_exists.mpr ⟨other, hOther⟩))
    · intro value hValue other hOther
      have hAny : samples.any Sample.isTrue = true := List.any_eq_true.mpr
        (hAgreeable.either (hHas (by decide) hValue) (Option.isSome_iff_exists.mpr ⟨other, hOther⟩))
      have hEither := hTracks.either value hValue
      rw [if_pos hAny] at hEither
      rw [hEither, hRecomputed.either other hOther, hAny]
      decide

end Agreement

section Examples

/-- A parameter of the kind that the statistics module makes for a variable. -/
def statParameter (name : Text) (value : Option Text) : Parameter where
  name
  type := .any
  minValue := 0
  maxValue := 0
  storageMode := .dmOnly
  writable := false
  immediateChanges := 0
  accessList := none
  notification := .off
  mandatoryNotification := false
  activeNotificationDenied := false
  loadingMode := 0
  state := .initial
  backValue := none
  value
  configKey := none
  definition := none

/-- The statistics of a variable `V` without values, but for the list of its samples. -/
def statStore (csv : Text) : ParameterStore where
  parameters := (statParameter "V!Csv".toList (some csv)) ::
    ["V!Sum", "V!Min", "V!Max", "V!Count", "V!Average", "V!Or"].map fun name =>
      statParameter name.toList none
  nodup := by
    simp only [List.map_cons, List.map_map, Function.comp_def, statParameter]
    decide

/-- No time is known, and no parameter is read. -/
def timelessContext : StatisticsContext where
  dmPrefix := "Device.".toList
  dateTimeToString _ := unknownTime
  dateStringToTime ch := if ch = unknownTime then some 0 else none
  parameterValue _ _ := none

def sampleOf (text : Text) (number : Nat) (h : stringToUint text = some number) : Sample :=
  ⟨text, number, 0, h⟩

def twoOnes : List Sample := [sampleOf "1".toList 1 (by decide), sampleOf "1".toList 1 (by decide)]

def oneTwoThree : List Sample :=
  [sampleOf "1".toList 1 (by decide), sampleOf "2".toList 2 (by decide), sampleOf "3".toList 3 (by decide)]

def slideLast (csv last : Text) : ParameterStore :=
  computeSlidingStats "V".toList [] (some last) 20 (statStore csv)

theorem emptyStats_statStore : EmptyStats (statStore []) "V".toList := by decide +kernel

theorem statistics_agree_twoOnes :
    ∃ store, foldStats timelessContext "V".toList twoOnes (statStore []) = some store ∧
      Agree store "V".toList (slideLast "1".toList "1".toList) "V".toList := by
  apply (statistics_agree_iff timelessContext (by decide) (by decide) emptyStats_statStore
    rfl (by decide +kernel)).mpr
  refine ⟨fun _ _ => by decide, fun _ _ => by decide, fun _ _ => by decide, fun _ _ => ?_⟩
  rw [if_pos (by decide)]
  exact exact_of_loss (by decide)

theorem averages_differ_oneTwoThree :
    (foldStats timelessContext "V".toList oneTwoThree (statStore [])).map
        (valueAt · "V!Average".toList) = some (some (some "1".toList)) ∧
      valueAt (slideLast "1,2".toList "3".toList) "V!Average".toList = some (some "2".toList) ∧
      ¬ ∃ store, foldStats timelessContext "V".toList oneTwoThree (statStore []) = some store ∧
        Agree store "V".toList (slideLast "1,2".toList "3".toList) "V".toList := by
  have hKept : (foldStats timelessContext "V".toList oneTwoThree (statStore [])).map
      (valueAt · "V!Average".toList) = some (some (some "1".toList)) := by decide +kernel
  have hAgain : valueAt (slideLast "1,2".toList "3".toList) "V!Average".toList =
      some (some "2".toList) := by decide +kernel
  refine ⟨hKept, hAgain, ?_⟩
  rintro ⟨store, hFold, hAgree⟩
  rw [hFold] at hKept
  have hEq := hAgree.average _ (Option.some.inj hKept) _ hAgain
  exact absurd hEq (by decide)

end Examples

end Tr069Agent.Engine.Statistics
