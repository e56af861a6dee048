import Tr069Agent.Data.TransferReading

/-! # Reboot and factory reset

The command keys of the reboots are kept in one text until the next boot, separated by commas. Its
first character is a star when a factory reset is asked for. The reboot ends the process, and the next one finds the
text in the control file.
-/

namespace Tr069Agent.Engine

open Library Library.Lines Data

set_option autoImplicit false

/-- `*sRebootCommandKey = '*'`. In an empty text it takes the place of the end of the text, and the
text goes on with what lies `beyond` in memory. -/
def putStar (beyond : Text) : Text → Text
  | [] => '*' :: beyond
  | _ :: rest => '*' :: rest

def addRebootCommandKey (beyond : Text) (sRebootCommandKey : Option Text) (commandKey : Text) :
    Option Text :=
  match sRebootCommandKey with
  | none => some commandKey
  | some oldCommandKey =>
    if commandKey.head? = some '*' then some (putStar beyond oldCommandKey)
    else some (oldCommandKey ++ ',' :: commandKey)

inductive RebootCall where
  | reboot (commandKey : Text)
  | factoryReset
  deriving DecidableEq

def RebootCall.commandKey : RebootCall → Text
  | .reboot commandKey => commandKey
  | .factoryReset => "*".toList

/-- What the calls leave when there was no command key. -/
def rebootCommandKey (beyond : Text) (calls : List RebootCall) : Option Text :=
  calls.foldl (fun key call => addRebootCommandKey beyond key call.commandKey) none

/-- Whether the device is asked to reboot, and to what: `some true` is a factory reset. -/
def checkReboot (sRebootCommandKey : Option Text) : Option Bool :=
  sRebootCommandKey.map fun ck => ck.head? = some '*'

def addMReboots (pendingEvents : List EventStruct) (commandKeys : List Text) : List EventStruct :=
  commandKeys.foldl (fun events key => EventList.add events ⟨.mReboot, some key⟩) pendingEvents

/-- `_bootEvent`: the pending events and the command key after it. -/
def bootEvent (factoryReset : Bool) (sRebootCommandKey : Option Text)
    (pendingEvents : List EventStruct) : List EventStruct × Option Text :=
  let events :=
    if factoryReset then EventList.add pendingEvents ⟨.bootstrap, none⟩ else pendingEvents
  let events := EventList.add events ⟨.boot, none⟩
  match sRebootCommandKey with
  | none => (events, none)
  | some commandKey => (addMReboots events (commandKey.splitOn ','), none)

/-- The control data of the process that starts after the reboot. -/
def restart (others : ControlData) (sRebootCommandKey : Option Text) : Option DmControl :=
  readDmControl .empty (writeDmControl { others with sRebootCommandKey })

/-- The command keys that the ACS gave. -/
def rebootKeys (calls : List RebootCall) : List Text :=
  calls.filterMap fun
    | .reboot commandKey => some commandKey
    | .factoryReset => none

/-- A factory reset is asked for when it was requested; after a plain reboot each command key has
one more event, unless it was pending, and no other event of a reboot is added. -/
def RebootLaw (others : ControlData) (beyond : Text) (calls : List RebootCall) : Prop :=
  (checkReboot (rebootCommandKey beyond calls) = some true ↔ .factoryReset ∈ calls) ∧
    (.factoryReset ∉ calls → ∃ control, restart others (rebootCommandKey beyond calls) = some control ∧
      ∀ factoryReset pendingEvents es, es.eventCode = .mReboot →
        (bootEvent factoryReset control.sRebootCommandKey pendingEvents).1.count es =
          pendingEvents.count es +
            if es.commandKey ∈ (rebootKeys calls).map some ∧ es ∉ pendingEvents then 1 else 0)

/-- The control file can be read but for the command key, which has room in its line. -/
structure RoomFor (others : ControlData) (sRebootCommandKey : Option Text) : Prop where
  readable : ReadableData { others with sRebootCommandKey := none }
  scheduledTime : Unsplit others.sScheduledInformTime
  scheduledKey : Unsplit others.sScheduledInformCommandKey
  room : (othersLine { others with sRebootCommandKey }).length + 1 < maxLineLen

def starred (call : RebootCall) : Bool := call.commandKey.head? = some '*'

theorem exists_head_foldl (beyond : Text) (calls : List RebootCall) (oldCommandKey : Text) :
    ∃ ck, calls.foldl (fun key call => addRebootCommandKey beyond key call.commandKey)
        (some oldCommandKey) = some ck ∧
      (ck.head? = some '*' ↔ oldCommandKey.head? = some '*' ∨ calls.any starred = true) := by
  induction calls generalizing oldCommandKey with
  | nil => exact ⟨oldCommandKey, rfl, by simp⟩
  | cons call calls ih =>
    rw [List.foldl_cons, addRebootCommandKey, List.any_cons]
    split
    · rename_i hStar
      obtain ⟨ck, hFold, hHead⟩ := ih (putStar beyond oldCommandKey)
      refine ⟨ck, hFold, ?_⟩
      have hPut : (putStar beyond oldCommandKey).head? = some '*' := by
        cases oldCommandKey <;> rfl
      have hCall : starred call = true := by simpa [starred] using hStar
      simp [hHead, hPut, hCall]
    · rename_i hPlain
      obtain ⟨ck, hFold, hHead⟩ := ih (oldCommandKey ++ ',' :: call.commandKey)
      refine ⟨ck, hFold, ?_⟩
      have hCall : starred call = false := by simpa [starred] using hPlain
      rw [hHead, hCall]
      cases oldCommandKey with
      | nil => simp
      | cons c rest => simp

theorem checkReboot_eq_some_true_iff (beyond : Text) (calls : List RebootCall) :
    checkReboot (rebootCommandKey beyond calls) = some true ↔ ∃ call ∈ calls, starred call = true := by
  cases calls with
  | nil => simp [rebootCommandKey, checkReboot]
  | cons call calls =>
    obtain ⟨ck, hFold, hHead⟩ := exists_head_foldl beyond calls call.commandKey
    rw [rebootCommandKey, List.foldl_cons, addRebootCommandKey, hFold, checkReboot, Option.map_some]
    simp [hHead, starred, List.any_eq_true]

theorem foldl_of_not_starred (beyond : Text) {calls : List RebootCall}
    (h : ∀ call ∈ calls, starred call = false) (oldCommandKey : Text) :
    calls.foldl (fun key call => addRebootCommandKey beyond key call.commandKey) (some oldCommandKey) =
      some (join ',' (oldCommandKey :: calls.map (·.commandKey))) := by
  induction calls generalizing oldCommandKey with
  | nil => simp [join_singleton]
  | cons call calls ih =>
    have hCall : ¬ call.commandKey.head? = some '*' := by
      simpa [starred] using h call List.mem_cons_self
    rw [List.foldl_cons, addRebootCommandKey, if_neg hCall,
      ih fun call' hMem => h call' (List.mem_cons_of_mem call hMem)]
    congr 1
    rw [← append_flatMap_sep, ← append_flatMap_sep]
    simp

theorem commandKeys_of_not_mem {calls : List RebootCall} (h : .factoryReset ∉ calls) :
    calls.map (·.commandKey) = rebootKeys calls := by
  induction calls with
  | nil => rfl
  | cons call calls ih =>
    obtain ⟨hHead, hTail⟩ := List.ne_and_not_mem_of_not_mem_cons h
    cases call with
    | factoryReset => exact absurd rfl hHead
    | reboot key => simpa [rebootKeys, RebootCall.commandKey] using ih hTail

theorem mem_rebootKeys {calls : List RebootCall} {key : Text} :
    key ∈ rebootKeys calls ↔ .reboot key ∈ calls := by
  rw [rebootKeys, List.mem_filterMap]
  constructor
  · rintro ⟨call, hMem, hKey⟩
    cases call with
    | factoryReset => cases hKey
    | reboot key' => cases hKey; exact hMem
  · intro hMem
    exact ⟨.reboot key, hMem, rfl⟩

theorem count_add_of_ne (events : List EventStruct) {es evt : EventStruct} (h : evt ≠ es) :
    (EventList.add events es).count evt = events.count evt := by
  rw [EventList.add]
  split
  · rfl
  · simp [List.count_append, h.symm]

theorem count_add {events : List EventStruct} {es evt : EventStruct}
    (hIntern : es.eventCode.isIntern = true) :
    (EventList.add events es).count evt =
      events.count evt + if evt = es ∧ es ∉ events then 1 else 0 := by
  have hContains : EventList.contains events es = true ↔ es ∈ events := by
    rw [EventList.contains, List.any_eq_true]
    constructor
    · rintro ⟨other, hMem, hSame⟩
      exact EventStruct.eq_of_same hSame ▸ hMem
    · intro hMem
      exact ⟨es, hMem, by simp [EventStruct.same, hIntern]⟩
  rw [EventList.add]
  split
  · rename_i h
    rw [if_neg fun hNew => hNew.2 (hContains.mp h), Nat.add_zero]
  · rename_i h
    have hNot : es ∉ events := fun hMem => h (hContains.mpr hMem)
    obtain rfl | hNe := eq_or_ne evt es
    · rw [if_pos ⟨rfl, hNot⟩, List.count_append, List.count_singleton_self]
    · rw [if_neg fun h' => hNe h'.1, List.count_append, List.count_singleton, if_neg]
      simpa using hNe.symm

theorem count_addMReboots (commandKeys : List Text) (events : List EventStruct) {es : EventStruct}
    (hCode : es.eventCode = .mReboot) :
    (addMReboots events commandKeys).count es =
      events.count es + if es.commandKey ∈ commandKeys.map some ∧ es ∉ events then 1 else 0 := by
  induction commandKeys generalizing events with
  | nil => simp [addMReboots]
  | cons key keys ih =>
    have hIntern : EventCode.isIntern .mReboot = true := rfl
    have hAdd : (EventList.add events ⟨.mReboot, some key⟩).count es =
        events.count es + if es = ⟨.mReboot, some key⟩ ∧ ⟨.mReboot, some key⟩ ∉ events then 1 else 0 :=
      count_add hIntern
    have hRest := ih (EventList.add events ⟨.mReboot, some key⟩)
    rw [addMReboots, List.foldl_cons]
    rw [addMReboots] at hRest
    rw [hRest, hAdd]
    obtain ⟨code, commandKey⟩ := es
    cases hCode
    rw [Nat.add_assoc]
    congr 1
    obtain hOld | hNew := Decidable.em ((⟨.mReboot, commandKey⟩ : EventStruct) ∈ events)
    · have hKey : ¬ ((⟨.mReboot, commandKey⟩ : EventStruct) = ⟨.mReboot, some key⟩ ∧
          (⟨.mReboot, some key⟩ : EventStruct) ∉ events) := fun h => h.2 (h.1 ▸ hOld)
      rw [if_neg hKey, if_neg fun h => h.2 (EventList.mem_add.mpr (.inl hOld)),
        if_neg fun h => h.2 hOld]
    · obtain rfl | hOther := eq_or_ne commandKey (some key)
      · simp [hNew]
      · have hNe : (⟨.mReboot, commandKey⟩ : EventStruct) ≠ ⟨.mReboot, some key⟩ := by
          simpa using hOther
        rw [if_neg fun h => hNe h.1]
        simp [hNew, hOther]

theorem count_bootEvent (factoryReset : Bool) (sRebootCommandKey : Option Text)
    (pendingEvents : List EventStruct) {es : EventStruct} (hCode : es.eventCode = .mReboot) :
    (bootEvent factoryReset sRebootCommandKey pendingEvents).1.count es = pendingEvents.count es +
      if es.commandKey ∈ (sRebootCommandKey.elim [] (·.splitOn ',')).map some ∧ es ∉ pendingEvents then 1
      else 0 := by
  have hNe {code : EventCode} (hOther : code ≠ .mReboot) : es ≠ ⟨code, none⟩ := by
    rintro rfl
    exact hOther hCode
  have hBoot : es ≠ ⟨.boot, none⟩ := hNe (by decide)
  have hBootstrap : es ≠ ⟨.bootstrap, none⟩ := hNe (by decide)
  cases sRebootCommandKey with
  | none =>
    cases factoryReset <;>
      simp [bootEvent, count_add_of_ne _ hBoot, count_add_of_ne _ hBootstrap]
  | some commandKey =>
    cases factoryReset <;>
      simp [bootEvent, count_addMReboots _ _ hCode, count_add_of_ne _ hBoot,
        count_add_of_ne _ hBootstrap, hBoot, hBootstrap]

theorem fits_othersLine {data : ControlData} (hTime : Unsplit data.sScheduledInformTime)
    (hKey : Unsplit data.sScheduledInformCommandKey) (hReboot : Unsplit data.sRebootCommandKey)
    (hLength : (othersLine data).length + 1 < maxLineLen) : Fits (othersLine data) := by
  have hCode {t : Option Text} (h : Unsplit t) : ∀ c ∈ orNullCode t, endsToken c = false := by
    cases t with
    | none => exact List.forall_mem_singleton.mpr (by decide)
    | some text => exact h text rfl
  have hPlain : ∀ c ∈ othersLine data, belowSpace c = false := by
    intro c hMem
    obtain rfl | ⟨field, hField, hIn⟩ := mem_join hMem
    · decide
    · have hEnds : endsToken c = false := by
        simp only [List.mem_cons, List.not_mem_nil, or_false] at hField
        obtain rfl | rfl | rfl | rfl | rfl := hField
        · exact (isToken_showInt _).1 c hIn
        · exact hCode hTime c hIn
        · exact hCode hKey c hIn
        · exact hCode hReboot c hIn
        · exact (isToken_showInt _).1 c hIn
      exact (Bool.or_eq_false_iff.mp hEnds).2
  exact ⟨hLength, newline_notMem_of_forall hPlain, endsPlain_of_forall hPlain⟩

/-- A key that ends no field comes back, unless it begins with an underscore. -/
theorem exists_restart {others : ControlData} {key : Option Text} (hRoom : RoomFor others key)
    (hKey : Unsplit key) : ∃ control, restart others key = some control ∧
    control.sRebootCommandKey = rereadText key := by
  have hRead : ReadableData { others with sRebootCommandKey := key } := by
    refine ⟨?_, ?_, hRoom.readable.unsplit, hRoom.readable.downloads⟩
    · obtain ⟨hFirst, hRest⟩ := List.forall_mem_cons.mp hRoom.readable.fits
      exact List.forall_mem_cons.mpr ⟨hFirst, List.forall_mem_cons.mpr
        ⟨fits_othersLine hRoom.scheduledTime hRoom.scheduledKey hKey hRoom.room, (List.forall_mem_cons.mp hRest).2⟩⟩
    · obtain ⟨hFirst, hRest⟩ := List.forall_mem_cons.mp hRoom.readable.noCrcLine
      exact List.forall_mem_cons.mpr ⟨hFirst, List.forall_mem_cons.mpr
        ⟨isCrcLine_join_showInt _ (List.cons_ne_nil _ _), (List.forall_mem_cons.mp hRest).2⟩⟩
  obtain ⟨control, hControl, -, -, hOthers⟩ := exists_readDmControl hRead .empty
  refine ⟨control, hControl, ?_⟩
  have hLine := @othersOf_readable { others with sRebootCommandKey := key } hRoom.scheduledTime
    hRoom.scheduledKey hKey
  exact congrArg (fun read => read.2.2) (Option.some.inj (hOthers.symm.trans hLine))

/-- What the next process has read ends no field. -/
theorem unsplit_of_restart {others : ControlData} {key : Option Text} {control : DmControl}
    (h : restart others key = some control) : Unsplit control.sRebootCommandKey :=
  fun text hText => ((plain_readDmControl h).rebootKey text hText).1

theorem unsplit_join {keys : List Text} (h : ∀ key ∈ keys, ∀ c ∈ key, endsToken c = false) :
    Unsplit (some (join ',' keys)) := by
  rintro _ ⟨⟩ c hMem
  obtain rfl | ⟨key, hKey, hIn⟩ := mem_join hMem
  · decide
  · exact h key hKey c hIn

theorem head_join (key : Text) (keys : List Text) (h : key.head? = some '_') :
    (join ',' (key :: keys)).head? = some '_' := by
  obtain ⟨rest, rfl⟩ := List.head?_eq_some_iff.mp h
  cases keys with
  | nil => rw [join_singleton, List.head?_cons]
  | cons other keys => rw [join_cons (List.cons_ne_nil _ _), List.cons_append, List.head?_cons]

theorem head_join_ne (key : Text) (keys : List Text) (h : key.head? ≠ some '_') :
    (join ',' (key :: keys)).head? ≠ some '_' := by
  cases keys with
  | nil => rwa [join_singleton]
  | cons other keys =>
    rw [join_cons (List.cons_ne_nil _ _)]
    cases key with
    | nil => exact (by decide : some ',' ≠ some '_')
    | cons c key => exact h

/-- The law holds of the calls with a factory reset among them, and else when no command key starts with a star or
holds a comma or what ends a field of the control file, and the first one starts with no underscore. -/
theorem rebootLaw_iff (others : ControlData) (beyond : Text) (calls : List RebootCall)
    (hRoom : RoomFor others (rebootCommandKey beyond calls)) :
    RebootLaw others beyond calls ↔ .factoryReset ∈ calls ∨
      (∀ commandKey, .reboot commandKey ∈ calls → commandKey.head? ≠ some '*' ∧ ',' ∉ commandKey ∧
          ∀ c ∈ commandKey, endsToken c = false) ∧
        ∀ commandKey, calls.head? = some (.reboot commandKey) → commandKey.head? ≠ some '_' := by
  rw [RebootLaw, checkReboot_eq_some_true_iff]
  obtain hReset | hPlain := Decidable.em (RebootCall.factoryReset ∈ calls)
  · have hStar : ∃ call ∈ calls, starred call = true := ⟨.factoryReset, hReset, rfl⟩
    simp [hReset, hStar]
  have hStars : (∀ call ∈ calls, starred call = false) ↔
      ∀ commandKey, .reboot commandKey ∈ calls → commandKey.head? ≠ some '*' := by
    constructor
    · intro h key hMem
      exact of_decide_eq_false (h (.reboot key) hMem)
    · intro h call hMem
      cases call with
      | factoryReset => exact absurd hMem hPlain
      | reboot key => exact decide_eq_false (h key hMem)
  -- without a star the text holds the keys joined by commas
  have hKeys (hNone : ∀ call ∈ calls, starred call = false) {first : Text}
    (hFirst : calls.head? = some (.reboot first)) :
      ∃ keys, rebootKeys calls = first :: keys ∧
        rebootCommandKey beyond calls = some (join ',' (rebootKeys calls)) := by
    obtain ⟨rest, rfl⟩ := List.head?_eq_some_iff.mp hFirst
    refine ⟨rebootKeys rest, rfl, ?_⟩
    rw [← commandKeys_of_not_mem hPlain, rebootCommandKey, List.foldl_cons, addRebootCommandKey]
    exact foldl_of_not_starred beyond (fun call' hMem => hNone call' (List.mem_cons_of_mem _ hMem)) _
  have hFirst {commandKey : Text} (hMem : .reboot commandKey ∈ calls) :
      ∃ first, calls.head? = some (.reboot first) := by
    cases calls with
    | nil => cases hMem
    | cons call calls =>
      cases call with
      | factoryReset => exact absurd List.mem_cons_self hPlain
      | reboot first => exact ⟨first, rfl⟩
  constructor
  · rintro ⟨hReset, hEvents⟩
    right
    obtain ⟨control, hControl, hEvents⟩ := hEvents hPlain
    have hNone : ∀ call ∈ calls, starred call = false := by
      intro call hCall
      by_contra hStar
      exact hPlain (hReset.mp ⟨call, hCall, by simpa using hStar⟩)
    -- a key with an event of its own is a piece of the text that was read
    have hPiece {key : Text} (hMem : .reboot key ∈ calls) :
        ∃ text, control.sRebootCommandKey = some text ∧ key ∈ text.splitOn ',' := by
      have hKey : key ∈ rebootKeys calls := mem_rebootKeys.mpr hMem
      have hCount := hEvents false [] ⟨.mReboot, some key⟩ rfl
      rw [count_bootEvent _ _ _ rfl] at hCount
      cases hText : control.sRebootCommandKey with
      | none => simp [hText, hKey] at hCount
      | some text =>
        refine ⟨text, rfl, ?_⟩
        by_contra hNot
        simp [hText, hKey, hNot] at hCount
    have hEach : ∀ commandKey, .reboot commandKey ∈ calls → commandKey.head? ≠ some '*' ∧ ',' ∉ commandKey ∧
        ∀ c ∈ commandKey, endsToken c = false := by
      intro key hMem
      obtain ⟨text, hText, hKey⟩ := hPiece hMem
      obtain ⟨hComma, hSub⟩ := mem_splitOn hKey
      exact ⟨hStars.mp hNone key hMem, hComma, fun c hC => unsplit_of_restart hControl text hText c (hSub hC)⟩
    refine ⟨hEach, fun first hHead hMarker => ?_⟩
    obtain ⟨keys, hRest, hJoin⟩ := hKeys hNone hHead
    have hUnsplit : Unsplit (rebootCommandKey beyond calls) := by
      rw [hJoin]
      exact unsplit_join fun key hMem => (hEach key (mem_rebootKeys.mp hMem)).2.2
    obtain ⟨control', hControl', hRead⟩ := exists_restart hRoom hUnsplit
    cases hControl.symm.trans hControl'
    obtain ⟨text, hText, -⟩ := hPiece (mem_rebootKeys.mp (hRest ▸ List.mem_cons_self))
    have hMissing : rereadText (rebootCommandKey beyond calls) = none := by
      rw [hJoin, hRest]
      exact if_pos (head_join first keys hMarker)
    rw [hRead, hMissing] at hText
    cases hText
  · rintro (hReset | ⟨hEach, hMarker⟩)
    · exact absurd hReset hPlain
    have hNone := hStars.mpr fun key hMem => (hEach key hMem).1
    constructor
    · constructor
      · rintro ⟨call, hMem, hStar⟩
        rw [hNone call hMem] at hStar
        cases hStar
      · exact fun hReset => absurd hReset hPlain
    · intro _
      rcases eq_or_ne (rebootKeys calls) [] with hNil | hSome
      · have hCalls : calls = [] := by
          rw [← commandKeys_of_not_mem hPlain] at hNil
          simpa using hNil
        subst hCalls
        obtain ⟨control, hControl, hRead⟩ := exists_restart hRoom (fun text hText => nomatch hText)
        refine ⟨control, hControl, fun factoryReset pendingEvents es hCode => ?_⟩
        have hMissing : control.sRebootCommandKey = none := hRead
        rw [count_bootEvent _ _ _ hCode, hMissing, hNil, Option.elim_none]
      · obtain ⟨key, hMem⟩ := List.exists_mem_of_ne_nil _ hSome
        obtain ⟨first, hHead⟩ := hFirst (mem_rebootKeys.mp hMem)
        obtain ⟨keys, hRest, hJoin⟩ := hKeys hNone hHead
        have hUnsplit : Unsplit (rebootCommandKey beyond calls) := by
          rw [hJoin]
          exact unsplit_join fun key hMem => (hEach key (mem_rebootKeys.mp hMem)).2.2
        obtain ⟨control, hControl, hRead⟩ := exists_restart hRoom hUnsplit
        refine ⟨control, hControl, fun factoryReset pendingEvents es hCode => ?_⟩
        have hSame : control.sRebootCommandKey = some (join ',' (rebootKeys calls)) := by
          rw [hRead, hJoin, hRest]
          exact if_neg (head_join_ne first keys (hMarker first hHead))
        rw [count_bootEvent _ _ _ hCode, hSame, Option.elim_some, splitOn_join _ hSome]
        exact fun key hMem => (hEach key (mem_rebootKeys.mp hMem)).2.1

theorem roomFor_sample (key : Option Text) (h : (orNullCode key).length < 700) :
    RoomFor DmControl.empty.toControlData key := by
  refine ⟨by decide +kernel, nofun, nofun, ?_⟩
  have hLine : othersLine { DmControl.empty.toControlData with sRebootCommandKey := key } =
      "0;_;_;".toList ++ (orNullCode key ++ ";0".toList) := rfl
  rw [hLine]
  simp [maxLineLen]
  omega

theorem rebootLaw_two_keys :
    RebootLaw DmControl.empty.toControlData [] [.reboot "a".toList, .reboot "b".toList] ↔
      .factoryReset ∈ [RebootCall.reboot "a".toList, .reboot "b".toList] ∨
      (∀ commandKey, .reboot commandKey ∈ [RebootCall.reboot "a".toList, .reboot "b".toList] →
          commandKey.head? ≠ some '*' ∧ ',' ∉ commandKey ∧ ∀ c ∈ commandKey, endsToken c = false) ∧
        ∀ commandKey, [RebootCall.reboot "a".toList, .reboot "b".toList].head? = some (.reboot commandKey) →
          commandKey.head? ≠ some '_' :=
  rebootLaw_iff _ _ _ (roomFor_sample _ (by decide))

/-- A key with a star makes a reboot a factory reset, a key with a comma makes two events, and a semicolon cuts the
key in the control file. -/
theorem reboot_with_star_or_comma : ¬ RebootLaw DmControl.empty.toControlData [] [.reboot "*7".toList] ∧
    ¬ RebootLaw DmControl.empty.toControlData [] [.reboot "a,b".toList] ∧
    ¬ RebootLaw DmControl.empty.toControlData [] [.reboot "a;b".toList] := by
  have hRead (key : Text) : ∀ control, restart DmControl.empty.toControlData (rebootCommandKey [] [.reboot key]) =
      some control → ∃ text, (restart DmControl.empty.toControlData (some key)).map (·.sRebootCommandKey) = some text ∧
        control.sRebootCommandKey = text := fun control hControl =>
    ⟨_, (congrArg (Option.map (·.sRebootCommandKey)) hControl), rfl⟩
  refine ⟨?_, ?_, ?_⟩
  · rintro ⟨hReset, -⟩
    exact absurd (hReset.mp (by decide)) (by decide)
  · rintro ⟨-, hEvents⟩
    obtain ⟨control, hControl, hEvents⟩ := hEvents (by decide)
    obtain ⟨text, hText, hSame⟩ := hRead _ control hControl
    have hCount := hEvents false [] ⟨.mReboot, some "a,b".toList⟩ rfl
    have hLoaded : text = some "a,b".toList := Option.some.inj (hText.symm.trans (by decide +kernel))
    rw [hSame, hLoaded] at hCount
    revert hCount
    decide +kernel
  · rintro ⟨-, hEvents⟩
    obtain ⟨control, hControl, hEvents⟩ := hEvents (by decide)
    obtain ⟨text, hText, hSame⟩ := hRead _ control hControl
    have hCount := hEvents false [] ⟨.mReboot, some "a;b".toList⟩ rfl
    have hLoaded : text = some "a".toList := Option.some.inj (hText.symm.trans (by decide +kernel))
    rw [hSame, hLoaded] at hCount
    revert hCount
    decide +kernel

end Tr069Agent.Engine
