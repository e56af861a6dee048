import Tr069Agent.Data.ControlReload
import Tr069Agent.Data.ScheduledInforms

/-! # The loop over the scheduled informs that are due

Each turn takes one time off only as long as there is a key to take off too. In the control file the keys are one
field, which a semicolon ends and an underscore at its beginning makes missing.
-/

namespace Tr069Agent.Data

open Library Library.Lines Library.Decimal Library.Transition Library.Scanner Engine

set_option autoImplicit false

/-- A turn of the loop of `DM_ENG_ParameterManager_manageEvents`. -/
def ControlData.scheduledTurn (data : ControlData) : ControlData :=
  let events := if EventList.isInEvents data.events .scheduled then data.events
    else EventList.add data.events ⟨.scheduled, none⟩
  let events := EventList.add events ⟨.mScheduleInform, data.getScheduledInformCommandKey⟩
  { data with events }.nextScheduledInformCommand

/-- The loop itself, none when it has not ended after so many turns. -/
def ControlData.drainScheduled (now : Int) : Nat → ControlData → Option ControlData
  | turns, data =>
    let scheduledInformTime := data.getScheduledInformTime
    if scheduledInformTime ≠ 0 ∧ scheduledInformTime ≤ now then
      match turns with
      | 0 => none
      | turns + 1 => drainScheduled now turns data.scheduledTurn
    else some data

/-- The items of a text; a missing text has none. -/
def itemsOf (text : Option Text) : List Text := text.elim [] (List.splitOn ',')

/-- The number of requests that are due. -/
def ControlData.dueInforms (now : Int) (data : ControlData) : Nat :=
  (itemsOf data.sScheduledInformTime).countP fun time => atol time ≤ now

/-- Whatever the time, the loop ends after as many turns as there are due requests. -/
def Drains (data : ControlData) : Prop := ∀ now, (data.drainScheduled now (data.dueInforms now)).isSome = true

section Loop

variable {data : ControlData} {times : List Int} {keys : List Text}

theorem itemsOf_listOf {items : List Text} (h : ∀ item ∈ items, ',' ∉ item) : itemsOf (listOf items) = items := by
  cases items with
  | nil => rfl
  | cons item items => rw [listOf_cons, itemsOf, Option.elim_some, splitOn_join h (List.cons_ne_nil item items)]

theorem Holds.items_time (h : Holds data times keys) : itemsOf data.sScheduledInformTime = times.map showInt := by
  rw [h.timeList]
  apply itemsOf_listOf
  intro item hMem
  obtain ⟨time, -, rfl⟩ := List.mem_map.mp hMem
  exact comma_notMem_showInt time

theorem Holds.dueInforms (h : Holds data times keys) (now : Int) :
    data.dueInforms now = times.countP (· ≤ now) := by
  rw [ControlData.dueInforms, h.items_time, List.countP_map]
  congr 1
  funext time
  simp [atol_showInt]

theorem Holds.events (h : Holds data times keys) (events : List EventStruct) :
    Holds { data with events } times keys :=
  ⟨h.timeList, h.keyList, h.positive, h.plain⟩

theorem Holds.scheduledTurn {first : Int} {key : Text} (h : Holds data (first :: times) (key :: keys)) :
    Holds data.scheduledTurn times keys :=
  (h.events _).next

theorem Holds.scheduledTurn_of_nil (h : Holds data times []) : Holds data.scheduledTurn times [] := by
  rw [ControlData.scheduledTurn, (h.events _).next_eq_self (.inr rfl)]
  exact h.events _

/-- With a key for each time every turn takes a time off. -/
theorem Holds.drains (h : Holds data times keys) (hEnough : times.length ≤ keys.length) (now : Int) {turns : Nat}
    (hTurns : times.countP (· ≤ now) ≤ turns) : (data.drainScheduled now turns).isSome = true := by
  induction times generalizing data keys turns with
  | nil =>
    rw [ControlData.drainScheduled.eq_def]
    simp [h.getScheduledInformTime]
  | cons first times ih =>
    obtain ⟨key, keys, rfl⟩ := List.exists_cons_of_length_pos (Nat.lt_of_lt_of_le (Nat.succ_pos _) hEnough)
    have hTime : data.getScheduledInformTime = first := h.getScheduledInformTime
    rw [ControlData.drainScheduled.eq_def]
    simp only [hTime]
    split
    · rename_i hDue
      rw [List.countP_cons_of_pos (by simpa using hDue.2)] at hTurns
      obtain ⟨turns, rfl⟩ := Nat.exists_eq_add_one_of_ne_zero
        (Nat.ne_of_gt (Nat.lt_of_lt_of_le (Nat.succ_pos _) hTurns))
      exact ih h.scheduledTurn (Nat.le_of_succ_le_succ hEnough) (Nat.le_of_succ_le_succ hTurns)
    · rfl

/-- With fewer keys than times, all of them due, the last times are never taken off. -/
theorem Holds.not_drained {now : Int} (h : Holds data times keys) (hLost : keys.length < times.length)
    (hDue : ∀ time ∈ times, time ≤ now) (turns : Nat) : data.drainScheduled now turns = none := by
  induction turns generalizing data times keys with
  | zero =>
    obtain ⟨first, times, rfl⟩ := List.exists_cons_of_length_pos (Nat.zero_lt_of_lt hLost)
    have hTime : data.getScheduledInformTime = first := h.getScheduledInformTime
    have hPositive := h.positive first List.mem_cons_self
    rw [ControlData.drainScheduled, hTime, if_pos ⟨hPositive.ne', hDue first List.mem_cons_self⟩]
  | succ turns ih =>
    obtain ⟨first, times, rfl⟩ := List.exists_cons_of_length_pos (Nat.zero_lt_of_lt hLost)
    have hTime : data.getScheduledInformTime = first := h.getScheduledInformTime
    have hPositive := h.positive first List.mem_cons_self
    rw [ControlData.drainScheduled, hTime, if_pos ⟨hPositive.ne', hDue first List.mem_cons_self⟩]
    cases keys with
    | nil => exact ih h.scheduledTurn_of_nil hLost hDue
    | cons key keys =>
      exact ih h.scheduledTurn (Nat.lt_of_succ_lt_succ hLost) fun time hMem =>
        hDue time (List.mem_cons_of_mem first hMem)

theorem exists_now (times : List Int) : ∃ now, ∀ time ∈ times, time ≤ now := by
  induction times with
  | nil => exact ⟨0, by simp⟩
  | cons first times ih =>
    obtain ⟨now, hNow⟩ := ih
    refine ⟨max first now, List.forall_mem_cons.mpr ⟨le_max_left first now, fun time hMem => ?_⟩⟩
    exact le_max_of_le_right (hNow time hMem)

/-- The loop ends in time exactly when there is a key for each time. -/
theorem Holds.drains_iff (h : Holds data times keys) : Drains data ↔ times.length ≤ keys.length := by
  constructor
  · intro hDrains
    obtain ⟨now, hDue⟩ := exists_now times
    by_contra hLost
    have hEnds := hDrains now
    rw [h.not_drained (not_le.mp hLost) hDue] at hEnds
    cases hEnds
  · intro hEnough now
    exact h.drains hEnough now (h.dueInforms now).ge

end Loop

/-- The keys that are read from the line in which the key text is written. -/
def keysRead (keys : Option Text) : Option Text := (nextToken (orNullCode keys)).1

section Reload

variable {data : ControlData}

theorem endsPlain_othersLine (data : ControlData) : EndsPlain (othersLine data) := by
  intro c hLast
  change c ∈ (join ';' ([_, _, _, _] ++ [showInt data.retryCount])).getLast? at hLast
  rw [join_concat (List.cons_ne_nil _ _), List.getLast?_append_of_ne_nil _ (List.cons_ne_nil _ _)] at hLast
  obtain ⟨d, digits, hDigits⟩ := List.exists_cons_of_ne_nil (showInt_ne_nil data.retryCount)
  rw [hDigits, List.getLast?_cons_cons, ← hDigits] at hLast
  have hToken := (isToken_showInt data.retryCount).1 c (List.mem_of_getLast? hLast)
  exact (Bool.or_eq_false_iff.mp hToken).2

theorem fst_nextToken_join (field other : Text) (fields : List Text) :
    (nextToken (join ';' (field :: other :: fields))).1 = (nextToken field).1 := by
  have hCut : (cut endsToken (join ';' (field :: other :: fields))).1 = (cut endsToken field).1 := by
    rw [join_cons (List.cons_ne_nil other fields)]
    exact fst_cut_append (by decide) _ _
  have hNext (it : Text) : (nextToken it).1 =
      if (cut endsToken it).1.head? = some '_' then none else some (cut endsToken it).1 := rfl
  rw [hNext, hNext, hCut]

theorem othersOf_othersLine (hTime : IsTokenOrNull data.sScheduledInformTime) :
    ∃ rebootKey, IsTokenOrNull rebootKey ∧ othersOf (some (othersLine data)) =
      some (data.sScheduledInformTime, keysRead data.sScheduledInformCommandKey, rebootKey) := by
  have hReads : Reads scanScheduled (othersLine data) _ _ :=
    (reads_number data.periodicInformTime _).bind <| (reads_token hTime _).bind <|
      (reads_nextToken _).bind <| (reads_nextToken _).bind (reads_pure _ _)
  rw [fst_nextToken_join] at hReads
  exact ⟨_, isTokenOrNull_nextToken _, congrArg (Option.map Prod.fst) hReads⟩

theorem scheduled_fileContents (hEvents : data.events = []) (hLength : (othersLine data).length < maxLineLen)
    (hLine : '\n' ∉ othersLine data) (hTime : IsTokenOrNull data.sScheduledInformTime) {contents : FileContents}
    (hContents : fileContents (writeDmControl data) = some contents) :
    contents.events = [] ∧ contents.scheduledTime = data.sScheduledInformTime ∧
      contents.scheduledKey = keysRead data.sScheduledInformCommandKey ∧ IsTokenOrNull contents.rebootKey := by
  have hFile : ∃ tail, writeDmControl data = '\n' :: (othersLine data ++ '\n' :: tail) := by
    rw [writeDmControl, writeFile, controlLines, hEvents, eventsLine, unlines, List.cons_append, List.cons_append,
      List.flatMap_cons, List.flatMap_cons, List.nil_append, List.append_assoc]
    exact ⟨_, rfl⟩
  obtain ⟨tail, hFile⟩ := hFile
  obtain ⟨ending, rest, hEnding, hPieces⟩ : ∃ ending rest, (ending = [] ∨ ending = ['\n']) ∧
      piecesFrom maxLineLen (maxLineLen - 1) [] (othersLine data ++ '\n' :: tail) =
        (othersLine data ++ ending) :: rest :=
    exists_piecesFrom_line hLine (Nat.le_sub_one_of_lt hLength) (by decide) tail
  have hOpen : fgets maxLineLen (writeDmControl data) = ['\n'] :: (othersLine data ++ ending) :: rest := by
    rw [hFile, fgets, piecesFrom, if_pos (.inl rfl), hPieces]
    rfl
  have hNoCrc : isCrcLine (othersLine data) = false := isCrcLine_join_showInt _ (List.cons_ne_nil _ _)
  have hPlain := endsPlain_othersLine data
  have hTrim : (othersLine data ++ ending).rdropWhile belowSpace = othersLine data := by
    rcases hEnding with rfl | rfl
    · rw [List.append_nil, List.rdropWhile_eq_self_iff]
      intro hNe
      have hLast := hPlain _ (List.getLast_mem_getLast? hNe)
      simp [hLast]
    · exact rdropWhile_line (by decide) hPlain
  obtain ⟨rebootKey, hReboot, hOthers⟩ := othersOf_othersLine hTime
  have hFirst : isCrcLine (List.rdropWhile belowSpace ['\n']) = false := by decide
  simp only [fileContents, LineReader.open, hOpen, readln, hTrim, hNoCrc, hFirst, Bool.false_eq_true, if_false,
    hOthers] at hContents
  obtain ⟨_, hOthers', hContents⟩ := Option.bind_eq_some_iff.mp hContents
  obtain rfl := Option.some.inj hOthers'
  obtain ⟨transfers, -, hContents⟩ := Option.bind_eq_some_iff.mp hContents
  obtain ⟨downloads, -, hContents⟩ := Option.bind_eq_some_iff.mp hContents
  obtain rfl := Option.some.inj hContents
  have hNoEvent : readEvents 1 [] = [] := rfl
  exact ⟨hNoEvent, rfl, rfl, hReboot⟩

end Reload

/-- A key without an end of line. -/
def LineText := { text : Text // '\n' ∉ text }

inductive DrainAction where
  | schedule (time : Int) (commandKey : LineText)
  | remove
  | reload

namespace DmControl

/-- After a save the file is read by a new process; the line buffer must hold each line that is written. -/
def step (s : DmControl) : DrainAction → Option DmControl
  | .schedule time commandKey => do
    let data ← s.addScheduledInformCommand time (some commandKey.val)
    return { s with toControlData := data }
  | .remove => some { s with toControlData := s.nextScheduledInformCommand }
  | .reload =>
    if ∀ line ∈ controlLines s.toControlData, line.length < maxLineLen then
      readDmControl .empty (writeDmControl s.toControlData)
    else none

/-- At a reload there are as many keys left as there are times. -/
def KeysSurvive (s : DmControl) : DrainAction → Prop
  | .reload => (itemsOf s.sScheduledInformTime).length ≤ (itemsOf (keysRead s.sScheduledInformCommandKey)).length
  | _ => True

instance (s : DmControl) (act : DrainAction) : Decidable (KeysSurvive s act) := by
  cases act with
  | reload => exact inferInstanceAs (Decidable (_ ≤ _))
  | _ => exact isTrue trivial

structure DrainInv (s : DmControl) : Prop where
  queue : ∃ times keys, Holds s.toControlData times keys ∧ times.length ≤ keys.length ∧ ∀ key ∈ keys, '\n' ∉ key
  noEvent : s.events = []
  rebootKey : ∀ key ∈ s.sRebootCommandKey, '\n' ∉ key

section Steps

variable {s s' : DmControl}

theorem drainInv_empty : DrainInv .empty := by
  refine ⟨⟨[], [], ⟨rfl, rfl, ?_, ?_⟩, le_refl 0, ?_⟩, rfl, ?_⟩
  · exact fun time hMem => nomatch hMem
  · exact fun key hMem => nomatch hMem
  · exact fun key hMem => nomatch hMem
  · exact fun key hMem => nomatch hMem

theorem DrainInv.drains (h : DrainInv s) : Drains s.toControlData := by
  obtain ⟨times, keys, hHolds, hEnough, -⟩ := h.queue
  exact hHolds.drains_iff.mpr hEnough

theorem newline_notMem_of_isToken {text : Option Text} (h : IsTokenOrNull text) : ∀ t ∈ text, '\n' ∉ t := by
  intro t hText hNewline
  exact absurd ((h t hText).1 '\n' hNewline) (by decide)

theorem kept_next (data : ControlData) : data.nextScheduledInformCommand.events = data.events ∧
    data.nextScheduledInformCommand.sRebootCommandKey = data.sRebootCommandKey := by
  rw [ControlData.nextScheduledInformCommand]
  split
  · exact ⟨rfl, rfl⟩
  · exact ⟨rfl, rfl⟩

theorem kept_add {data data' : ControlData} {time : Int} {commandKey : Option Text}
    (h : data.addScheduledInformCommand time commandKey = some data') :
    data'.events = data.events ∧ data'.sRebootCommandKey = data.sRebootCommandKey := by
  rw [ControlData.addScheduledInformCommand.eq_def] at h
  split at h
  · obtain rfl := Option.some.inj h
    exact ⟨rfl, rfl⟩
  · split at h
    · obtain rfl := Option.some.inj h
      exact ⟨rfl, rfl⟩
    · split at h
      · obtain rfl := Option.some.inj h
        exact ⟨rfl, rfl⟩
      · obtain ⟨-, -, h⟩ := Option.bind_eq_some_iff.mp h
        obtain ⟨⟨rest, newTime, newKey⟩, -, h⟩ := Option.bind_eq_some_iff.mp h
        simp only at h
        split at h
        · obtain ⟨restTimes, -, h⟩ := Option.bind_eq_some_iff.mp h
          obtain ⟨restKeys, -, h⟩ := Option.bind_eq_some_iff.mp h
          obtain rfl := Option.some.inj h
          exact ⟨rfl, rfl⟩
        · obtain rfl := Option.some.inj h
          exact ⟨rfl, rfl⟩

theorem length_insert_le {times : List Int} {keys : List Text} (h : times.length ≤ keys.length) (time : Int)
    (commandKey : Text) : (StableQueue.insert id time times).length ≤
      (insertKey commandKey (earlier time times) keys (times.dropWhile (· ≤ time))).length := by
  have hSplit := congrArg List.length (List.takeWhile_append_dropWhile (p := (· ≤ time)) (l := times))
  have hKey := List.length_pos_iff.mpr (List.splitOn_ne_nil ',' commandKey)
  rw [List.length_append] at hSplit
  simp only [StableQueue.insert, insertKey, earlier, List.length_append, List.length_cons, List.length_take, id_eq]
  cases hBack : times.dropWhile (· ≤ time) with
  | nil =>
    rw [hBack, List.length_nil] at hSplit
    simp only [if_true, List.length_nil]
    omega
  | cons later back =>
    rw [hBack] at hSplit
    simp only [List.cons_ne_nil, if_false, List.length_drop]
    omega

theorem drainInv_schedule (h : DrainInv s) {time : Int} {commandKey : LineText} {data : ControlData}
    (hAdd : s.addScheduledInformCommand time (some commandKey.val) = some data) :
    DrainInv { s with toControlData := data } := by
  obtain ⟨hEvents, hReboot⟩ := kept_add hAdd
  refine ⟨?_, hEvents.trans h.noEvent, fun key hMem => h.rebootKey key (hReboot ▸ hMem)⟩
  obtain ⟨times, keys, hHolds, hEnough, hLine⟩ := h.queue
  by_cases hTime : 0 < time
  · obtain ⟨data', hSame, hNew⟩ := hHolds.add hEnough hTime commandKey.val
    obtain rfl := Option.some.inj (hSame.symm.trans hAdd)
    refine ⟨_, _, hNew, length_insert_le hEnough time commandKey.val, forall_insertKey hLine ?_⟩
    exact fun key hMem hNewline => commandKey.property ((mem_splitOn hMem).2 hNewline)
  · simp only [ControlData.addScheduledInformCommand, if_pos (not_lt.mp hTime)] at hAdd
    obtain rfl := Option.some.inj hAdd
    exact ⟨times, keys, hHolds, hEnough, hLine⟩

theorem drainInv_remove (h : DrainInv s) : DrainInv { s with toControlData := s.nextScheduledInformCommand } := by
  obtain ⟨hEvents, hReboot⟩ := kept_next s.toControlData
  refine ⟨?_, hEvents.trans h.noEvent, fun key hMem => h.rebootKey key (hReboot ▸ hMem)⟩
  obtain ⟨times, keys, hHolds, hEnough, hLine⟩ := h.queue
  cases times with
  | nil =>
    rw [hHolds.next_eq_self (.inl rfl)]
    exact ⟨[], keys, hHolds, hEnough, hLine⟩
  | cons first times =>
    obtain ⟨key, keys, rfl⟩ := List.exists_cons_of_length_pos (Nat.lt_of_lt_of_le (Nat.succ_pos _) hEnough)
    exact ⟨times, keys, hHolds.next, Nat.le_of_succ_le_succ hEnough, fun other hMem =>
      hLine other (List.mem_cons_of_mem key hMem)⟩

theorem newline_notMem_othersLine (h : DrainInv s) : '\n' ∉ othersLine s.toControlData := by
  obtain ⟨times, keys, hHolds, -, hLine⟩ := h.queue
  have hNumber (n : Int) : '\n' ∉ showInt n := not_mem_showInt (by decide) (by decide) n
  have hOr {text : Option Text} (hText : ∀ t ∈ text, '\n' ∉ t) : '\n' ∉ orNullCode text := by
    cases text with
    | none => decide
    | some text => exact hText text rfl
  have hListOf {items : List Text} (hItems : ∀ item ∈ items, '\n' ∉ item) : '\n' ∉ orNullCode (listOf items) := by
    apply hOr
    intro t hMem hNewline
    cases items with
    | nil => cases hMem
    | cons item items =>
      rw [listOf_cons] at hMem
      obtain rfl := Option.some.inj hMem
      rcases mem_join hNewline with hComma | ⟨field, hField, hIn⟩
      · cases hComma
      · exact hItems field hField hIn
  intro hMem
  rcases mem_join hMem with hSemicolon | ⟨field, hField, hIn⟩
  · cases hSemicolon
  · simp only [hHolds.timeList, hHolds.keyList, List.mem_cons, List.not_mem_nil, or_false] at hField
    rcases hField with rfl | rfl | rfl | rfl | rfl
    · exact hNumber _ hIn
    · refine hListOf (fun item hItem => ?_) hIn
      obtain ⟨time, -, rfl⟩ := List.mem_map.mp hItem
      exact hNumber time
    · exact hListOf hLine hIn
    · exact hOr h.rebootKey hIn
    · exact hNumber _ hIn

theorem isTokenOrNull_times (times : List Int) : IsTokenOrNull (listOf (times.map showInt)) := by
  intro text hText
  cases times with
  | nil => cases hText
  | cons first times =>
    rw [List.map_cons, listOf_cons] at hText
    obtain rfl := Option.some.inj hText
    constructor
    · intro c hMem
      rcases mem_join hMem with rfl | ⟨field, hField, hIn⟩
      · decide
      · obtain ⟨time, -, rfl⟩ := List.mem_map.mp (List.map_cons ▸ hField)
        exact (isToken_showInt time).1 c hIn
    · intro hHead
      rcases mem_join (List.mem_of_mem_head? hHead) with hComma | ⟨field, hField, hIn⟩
      · cases hComma
      · obtain ⟨time, -, rfl⟩ := List.mem_map.mp (List.map_cons ▸ hField)
        exact not_mem_showInt (by decide) (by decide) time hIn

theorem listOf_itemsOf (text : Option Text) : listOf (itemsOf text) = text := by
  cases text with
  | none => rfl
  | some text =>
    rw [listOf, itemsOf, Option.elim_some, if_neg (List.splitOn_ne_nil ',' text)]
    exact congrArg some (List.intercalate_splitOn ',')

/-- A reload gives the same times and the keys that the reader finds. -/
theorem drainInv_reload (h : DrainInv s) (hKeys : KeysSurvive s .reload)
    (hLength : (othersLine s.toControlData).length < maxLineLen)
    (hRead : readDmControl .empty (writeDmControl s.toControlData) = some s') : DrainInv s' := by
  have hLine := newline_notMem_othersLine h
  obtain ⟨times, keys, hHolds, -, -⟩ := h.queue
  have hTime : IsTokenOrNull s.sScheduledInformTime := hHolds.timeList ▸ isTokenOrNull_times times
  by_cases hCrc : (readLines (.open (writeDmControl s.toControlData))).2.crcOK = true
  · obtain ⟨time, retryCount, hSame⟩ := readDmControl_eq .empty hCrc
    rw [hRead] at hSame
    obtain ⟨contents, hContents, rfl⟩ := Option.map_eq_some_iff.mp hSame.symm
    obtain ⟨hNoEvent, hTimes, hKey, hReboot⟩ := scheduled_fileContents h.noEvent hLength hLine hTime hContents
    have hItems : ∀ key ∈ itemsOf contents.scheduledKey, ',' ∉ key ∧ '\n' ∉ key := by
      intro key hMem
      rw [hKey] at hMem
      cases hText : keysRead s.sScheduledInformCommandKey with
      | none =>
        rw [hText] at hMem
        cases hMem
      | some text =>
        rw [hText] at hMem
        obtain ⟨hComma, hSub⟩ := mem_splitOn hMem
        have hToken := isTokenOrNull_nextToken (orNullCode s.sScheduledInformCommandKey)
        exact ⟨hComma, fun hNewline => newline_notMem_of_isToken hToken text hText (hSub hNewline)⟩
    refine ⟨⟨times, itemsOf contents.scheduledKey, ?_, ?_, fun key hMem => (hItems key hMem).2⟩, hNoEvent, ?_⟩
    · refine ⟨hTimes.trans hHolds.timeList, (listOf_itemsOf _).symm, hHolds.positive, ?_⟩
      exact fun key hMem => (hItems key hMem).1
    · rw [KeysSurvive, hHolds.items_time, List.length_map] at hKeys
      rw [hKey]
      exact hKeys
    · exact newline_notMem_of_isToken hReboot
  · simp only [readDmControl, hCrc] at hRead
    obtain rfl := Option.some.inj hRead
    exact drainInv_empty

theorem drainInv_step (h : DrainInv s) {act : DrainAction} (hKeys : KeysSurvive s act) (hStep : step s act = some s') :
    DrainInv s' := by
  cases act with
  | schedule time commandKey =>
    obtain ⟨data, hAdd, hData⟩ := Option.bind_eq_some_iff.mp hStep
    obtain rfl := Option.some.inj hData
    exact drainInv_schedule h hAdd
  | remove =>
    obtain rfl := Option.some.inj hStep
    exact drainInv_remove h
  | reload =>
    rw [step] at hStep
    split at hStep
    · rename_i hLength
      exact drainInv_reload h hKeys (hLength _ (List.mem_cons_of_mem _ List.mem_cons_self)) hStep
    · cases hStep

end Steps

/-- The loop over the due requests ends in time in every state of a run whose reloads leave enough keys. -/
theorem drains_throughout (acts : List DrainAction) (h : Along step KeysSurvive .empty acts) :
    Throughout step (fun s => Drains s.toControlData) .empty acts :=
  (throughout_of_along (fun _ _ _ hInv hKeys hStep => drainInv_step hInv hKeys hStep) drainInv_empty h).mono
    fun _ hInv => hInv.drains

def sampleRun (key : String) (h : '\n' ∉ key.toList) : List DrainAction :=
  [.schedule 30 ⟨"late".toList, by decide⟩, .schedule 10 ⟨key.toList, h⟩, .reload, .schedule 20 ⟨[], by decide⟩,
    .remove, .reload]

theorem drains_throughout_sample :
    Throughout step (fun s => Drains s.toControlData) .empty (sampleRun "wake, up" (by decide)) :=
  drains_throughout _ (by decide +kernel)

/-- A key with an underscore in front is not there any more after a reload, and the loop never ends. -/
theorem underscore_key_never_drained :
    ∃ s, exec step .empty [.schedule 10 ⟨"_night".toList, by decide⟩, .reload] = some s ∧
      (∀ turns, s.toControlData.drainScheduled 10 turns = none) ∧
      ¬ Throughout step (fun s => Drains s.toControlData) .empty
        [.schedule 10 ⟨"_night".toList, by decide⟩, .reload] := by
  have hExec : exec step .empty [.schedule 10 ⟨"_night".toList, by decide⟩, .reload] =
      some { DmControl.empty with sScheduledInformTime := some "10".toList } := by
    decide +kernel
  have hHolds : Holds { DmControl.empty.toControlData with sScheduledInformTime := some "10".toList } [10] [] :=
    ⟨by decide, rfl, by decide, by decide⟩
  have hNever (turns : Nat) : ControlData.drainScheduled 10 turns _ = none :=
    hHolds.not_drained (by decide) (by decide) turns
  refine ⟨_, hExec, hNever, fun hThroughout => ?_⟩
  have hDrains := throughout_iff_exec.mp hThroughout _ (List.prefix_refl _) _ hExec 10
  rw [hNever] at hDrains
  cases hDrains

end DmControl

end Tr069Agent.Data
