import Tr069Agent.Data.ControlData
import Tr069Agent.Library.StableQueue
import Tr069Agent.Library.Transition

/-! # The scheduled informs

The times of the informs that are asked for and their command keys are kept in two texts, each with a comma
between its items. A new inform is put behind those that are not later, for which the items before it are
taken off one by one and written again.
-/

namespace Tr069Agent.Data

open Library Library.Lines Library.Decimal Library.Transition

set_option autoImplicit false

section Items

def firstItem (list : Text) : Text := list.takeWhile (· ≠ ',')

/-- The text behind the first comma. -/
def otherItems (list : Text) : Option Text :=
  match list.dropWhile (· ≠ ',') with
  | [] => none
  | _ :: rest => some rest

/-- No items are no text. -/
def listOf (items : List Text) : Option Text := if items = [] then none else some (join ',' items)

theorem firstItem_join {item : Text} (h : ',' ∉ item) (items : List Text) :
    firstItem (join ',' (item :: items)) = item := by
  cases items with
  | nil =>
    rw [join_singleton]
    exact takeWhile_ne h
  | cons other items =>
    rw [join_cons (List.cons_ne_nil other items)]
    exact takeWhile_ne_append h _

theorem otherItems_join {item : Text} (h : ',' ∉ item) (items : List Text) :
    otherItems (join ',' (item :: items)) = listOf items := by
  cases items with
  | nil =>
    rw [join_singleton, otherItems, dropWhile_ne h]
    rfl
  | cons other items =>
    rw [join_cons (List.cons_ne_nil other items), otherItems, dropWhile_ne_append h]
    simp [listOf]

theorem join_append_cons (front : List Text) (item : Text) (back : List Text) :
    join ',' (front ++ item :: back) = front.flatMap (· ++ [',']) ++ join ',' (item :: back) := by
  induction front with
  | nil => rfl
  | cons first front ih =>
    rw [List.cons_append, join_cons (by simp), ih, List.flatMap_cons]
    simp

theorem listOf_cons (item : Text) (items : List Text) : listOf (item :: items) = some (join ',' (item :: items)) :=
  if_neg (List.cons_ne_nil item items)

theorem listOf_concat (front : List Text) (item : Text) :
    listOf (front ++ [item]) = some (front.flatMap (· ++ [',']) ++ item) := by
  rw [listOf, if_neg (by simp), join_append_cons, join_singleton]

theorem listOf_append (front : List Text) (item : Text) {back : List Text} (h : back ≠ []) :
    listOf (front ++ item :: back) = some (front.flatMap (· ++ [',']) ++ item ++ ',' :: join ',' back) := by
  rw [listOf, if_neg (by simp), join_append_cons, join_cons h, List.append_assoc]

theorem comma_notMem_showInt (n : Int) : ',' ∉ showInt n := not_mem_showInt (by decide) (by decide) n

end Items

namespace ControlData

def getScheduledInformTime (data : ControlData) : Int :=
  match data.sScheduledInformTime with
  | none => 0
  | some times => atol (firstItem times)

def getScheduledInformCommandKey (data : ControlData) : Option Text := data.sScheduledInformCommandKey.map firstItem

def nextScheduledInformCommand (data : ControlData) : ControlData :=
  match data.sScheduledInformTime, data.sScheduledInformCommandKey with
  | some times, some keys =>
    { data with sScheduledInformTime := otherItems times, sScheduledInformCommandKey := otherItems keys }
  | _, _ => data

/-- The loop of `DM_ENG_ParameterData_addScheduledInformCommand`: what is left, and the beginnings of the new
texts. Each round takes at least one character off; none where `strcat` gets a null pointer. -/
def takeEarlier (time : Int) : Nat → ControlData → Text → Text → Option (ControlData × Text × Text)
  | 0, _, _, _ => none
  | fuel + 1, data, newTime, newKey =>
    let prevTime := data.getScheduledInformTime
    if prevTime ≠ 0 ∧ prevTime ≤ time then do
      let prevCmdKey ← data.getScheduledInformCommandKey
      takeEarlier time fuel data.nextScheduledInformCommand (newTime ++ showInt prevTime ++ [','])
        (newKey ++ prevCmdKey ++ [','])
    else some (data, newTime, newKey)

/-- `DM_ENG_ParameterData_addScheduledInformCommand`, which does nothing without a time or a key. -/
def addScheduledInformCommand (data : ControlData) (time : Int) (commandKey : Option Text) : Option ControlData :=
  match commandKey with
  | none => some data
  | some commandKey =>
    if time ≤ 0 then some data
    else
      match data.sScheduledInformTime with
      | none =>
        some { data with sScheduledInformTime := some (showInt time), sScheduledInformCommandKey := some commandKey }
      | some times => do
        guard data.sScheduledInformCommandKey.isSome
        let (rest, newTime, newKey) ← takeEarlier time (times.length + 2) data [] []
        let newTime := newTime ++ showInt time
        let newKey := newKey ++ commandKey
        if rest.getScheduledInformTime ≠ 0 then
          let restTimes ← rest.sScheduledInformTime
          let restKeys ← rest.sScheduledInformCommandKey
          return { data with sScheduledInformTime := some (newTime ++ ',' :: restTimes)
                             sScheduledInformCommandKey := some (newKey ++ ',' :: restKeys) }
        else
          return { data with sScheduledInformTime := some newTime, sScheduledInformCommandKey := some newKey }

end ControlData

/-- The items of the two texts. There may be more keys than times, since a key may hold commas. -/
structure Holds (data : ControlData) (times : List Int) (keys : List Text) : Prop where
  timeList : data.sScheduledInformTime = listOf (times.map showInt)
  keyList : data.sScheduledInformCommandKey = listOf keys
  positive : ∀ time ∈ times, 0 < time
  plain : ∀ key ∈ keys, ',' ∉ key

section Items

variable {data : ControlData} {times : List Int} {keys : List Text}

theorem Holds.getScheduledInformTime (h : Holds data times keys) :
    data.getScheduledInformTime = times.head?.getD 0 := by
  rw [ControlData.getScheduledInformTime, h.timeList]
  cases times with
  | nil => rfl
  | cons first times =>
    rw [List.map_cons, listOf_cons]
    simp only [firstItem_join (comma_notMem_showInt first), atol_showInt]
    rfl

theorem Holds.getScheduledInformCommandKey (h : Holds data times keys) :
    data.getScheduledInformCommandKey = keys.head? := by
  rw [ControlData.getScheduledInformCommandKey, h.keyList]
  cases keys with
  | nil => rfl
  | cons key keys => rw [listOf_cons, Option.map_some, firstItem_join (h.plain key List.mem_cons_self), List.head?_cons]

theorem Holds.next {first : Int} {key : Text} (h : Holds data (first :: times) (key :: keys)) :
    Holds data.nextScheduledInformCommand times keys := by
  have hTimes := h.timeList
  have hKeys := h.keyList
  rw [List.map_cons, listOf_cons] at hTimes
  rw [listOf_cons] at hKeys
  simp only [ControlData.nextScheduledInformCommand, hTimes, hKeys]
  constructor
  · exact otherItems_join (comma_notMem_showInt first) _
  · exact otherItems_join (h.plain key List.mem_cons_self) _
  · exact fun time hMem => h.positive time (List.mem_cons_of_mem first hMem)
  · exact fun other hMem => h.plain other (List.mem_cons_of_mem key hMem)

theorem Holds.next_eq_self (h : Holds data times keys) (hNone : times = [] ∨ keys = []) :
    data.nextScheduledInformCommand = data := by
  rcases hNone with rfl | rfl
  · simp only [ControlData.nextScheduledInformCommand, h.timeList]
    rfl
  · have hKeys : data.sScheduledInformCommandKey = none := h.keyList
    rw [ControlData.nextScheduledInformCommand, hKeys]
    split
    · rename_i hSome
      cases hSome
    · rfl

/-- The number of times that are not later. -/
def earlier (time : Int) (times : List Int) : Nat := (times.takeWhile (· ≤ time)).length

theorem takeEarlier_of_holds (time : Int) {fuel : Nat} (h : Holds data times keys)
    (hEnough : times.length ≤ keys.length) (hFuel : times.length < fuel) (newTime newKey : Text) :
    ∃ rest, Holds rest (times.dropWhile (· ≤ time)) (keys.drop (earlier time times)) ∧
      ControlData.takeEarlier time fuel data newTime newKey = some (rest,
        newTime ++ ((times.takeWhile (· ≤ time)).map showInt).flatMap (· ++ [',']),
        newKey ++ (keys.take (earlier time times)).flatMap (· ++ [','])) := by
  induction times generalizing fuel data keys newTime newKey with
  | nil =>
    obtain ⟨fuel, rfl⟩ := Nat.exists_eq_add_one_of_ne_zero (Nat.ne_of_gt hFuel)
    refine ⟨data, h, ?_⟩
    simp [ControlData.takeEarlier, h.getScheduledInformTime, earlier]
  | cons first times ih =>
    obtain ⟨fuel, rfl⟩ := Nat.exists_eq_add_one_of_ne_zero (Nat.ne_of_gt (Nat.zero_lt_of_lt hFuel))
    obtain ⟨key, keys, rfl⟩ := List.exists_cons_of_length_pos (Nat.lt_of_lt_of_le (Nat.succ_pos _) hEnough)
    have hTime : data.getScheduledInformTime = first := h.getScheduledInformTime
    have hKey : data.getScheduledInformCommandKey = some key := h.getScheduledInformCommandKey
    have hPositive := h.positive first List.mem_cons_self
    rw [ControlData.takeEarlier, hTime, hKey]
    by_cases hEarlier : first ≤ time
    · have hCount : earlier time (first :: times) = earlier time times + 1 := by simp [earlier, hEarlier]
      obtain ⟨rest, hRest, hRun⟩ := ih h.next (Nat.le_of_succ_le_succ hEnough) (Nat.lt_of_succ_lt_succ hFuel)
        (newTime ++ showInt first ++ [',']) (newKey ++ key ++ [','])
      refine ⟨rest, ?_, ?_⟩
      · rw [hCount]
        simpa [hEarlier] using hRest
      · simp only [ne_eq, hPositive.ne', not_false_eq_true, hEarlier, and_self, if_true, Option.bind_eq_bind,
          Option.bind_some]
        rw [hRun, hCount]
        simp [hEarlier]
    · have hCount : earlier time (first :: times) = 0 := by simp [earlier, hEarlier]
      refine ⟨data, ?_, ?_⟩
      · rw [hCount]
        simpa [hEarlier] using h
      · rw [hCount]
        simp [hEarlier]

/-- The keys when one is put behind the first `count` of them; the others stay when times are left. -/
def insertKey (commandKey : Text) (count : Nat) (keys : List Text) (back : List Int) : List Text :=
  keys.take count ++ (commandKey.splitOn ',' ++ if back = [] then [] else keys.drop count)

theorem forall_insertKey {commandKey : Text} {count : Nat} {back : List Int} {P : Text → Prop}
    (hOld : ∀ key ∈ keys, P key)
    (hNew : ∀ key ∈ commandKey.splitOn ',', P key) : ∀ key ∈ insertKey commandKey count keys back, P key := by
  intro key hMem
  rw [insertKey, List.mem_append, List.mem_append] at hMem
  rcases hMem with hFront | hHere | hBack
  · exact hOld key ((List.take_subset count keys) hFront)
  · exact hNew key hHere
  · split at hBack
    · cases hBack
    · exact hOld key ((List.drop_subset count keys) hBack)

theorem listOf_insertKey (commandKey : Text) (count : Nat) {back : List Int}
    (hRest : back ≠ [] → keys.drop count ≠ []) :
    listOf (insertKey commandKey count keys back) =
      some ((keys.take count).flatMap (· ++ [',']) ++ commandKey ++
        if back = [] then [] else ',' :: join ',' (keys.drop count)) := by
  obtain ⟨first, items, hSplit⟩ := List.exists_cons_of_ne_nil (List.splitOn_ne_nil ',' commandKey)
  have hKey : join ',' (first :: items) = commandKey := by
    rw [← hSplit]
    exact List.intercalate_splitOn ','
  rw [insertKey, hSplit, List.cons_append, listOf, if_neg (by simp), join_append_cons]
  split
  · rw [List.append_nil, hKey, List.append_nil]
  · rename_i hBack
    rw [← List.cons_append, join_append (List.cons_ne_nil _ _) (hRest hBack), hKey, List.append_assoc]

theorem forall_pos_insert {time : Int} (hTime : 0 < time) (hTimes : ∀ other ∈ times, 0 < other) :
    ∀ other ∈ StableQueue.insert id time times, 0 < other := by
  intro other hOther
  rcases StableQueue.mem_insert.mp hOther with rfl | hOld
  · exact hTime
  · exact hTimes other hOld

theorem drop_earlier_ne_nil {time : Int} (hEnough : times.length ≤ keys.length)
    (hBack : times.dropWhile (· ≤ time) ≠ []) : keys.drop (earlier time times) ≠ [] := by
  intro hNone
  have hAll := List.drop_eq_nil_iff.mp hNone
  have hLength := congrArg List.length (List.takeWhile_append_dropWhile (p := (· ≤ time)) (l := times))
  have hPos := List.length_pos_iff.mpr hBack
  rw [List.length_append] at hLength
  rw [earlier] at hAll
  omega

/-- The text of the list is a bound for the rounds. -/
theorem length_lt_join_showInt (times : List Int) : times.length < (join ',' (times.map showInt)).length + 2 := by
  have hLength : _ ≤ (join ',' (times.map showInt)).length + 1 := length_le_length_join (times.map showInt)
  rw [List.length_map] at hLength
  omega

/-- A request is put at its place, and its key behind those of the times before it. -/
theorem Holds.add (h : Holds data times keys) (hEnough : times.length ≤ keys.length) {time : Int} (hTime : 0 < time)
    (commandKey : Text) :
    ∃ data', data.addScheduledInformCommand time (some commandKey) = some data' ∧
      Holds data' (StableQueue.insert id time times)
        (insertKey commandKey (earlier time times) keys (times.dropWhile (· ≤ time))) := by
  have hPositives : ∀ other ∈ StableQueue.insert id time times, 0 < other := forall_pos_insert hTime h.positive
  have hPlains : ∀ key ∈ insertKey commandKey (earlier time times) keys (times.dropWhile (· ≤ time)), ',' ∉ key :=
    forall_insertKey h.plain fun key hNew => (mem_splitOn hNew).1
  have hNot : ¬ time ≤ 0 := not_le.mpr hTime
  rw [ControlData.addScheduledInformCommand]
  simp only [if_neg hNot]
  have hTimes : listOf ((StableQueue.insert id time times).map showInt) =
      listOf ((times.takeWhile (· ≤ time)).map showInt ++ showInt time ::
        (times.dropWhile (· ≤ time)).map showInt) := by
    rw [← List.map_cons, ← List.map_append]
    rfl
  cases times with
  | nil =>
    rw [h.timeList]
    refine ⟨_, rfl, ?_, ?_, hPositives, hPlains⟩
    · rw [hTimes]
      simp [listOf, join_singleton]
    · rw [listOf_insertKey _ _ (by simp)]
      simp [earlier]
  | cons first times =>
    obtain ⟨rest, hRest, hRun⟩ := takeEarlier_of_holds time h hEnough (length_lt_join_showInt (first :: times)) [] []
    have hKeys : keys ≠ [] := List.ne_nil_of_length_pos (Nat.lt_of_lt_of_le (Nat.succ_pos _) hEnough)
    have hOld : data.sScheduledInformTime = some (join ',' ((first :: times).map showInt)) :=
      h.timeList.trans (listOf_cons _ _)
    have hSome : data.sScheduledInformCommandKey.isSome = true := by
      rw [h.keyList, listOf, if_neg hKeys]
      rfl
    have hDrop : (first :: times).dropWhile (· ≤ time) ≠ [] →
        keys.drop (earlier time (first :: times)) ≠ [] := drop_earlier_ne_nil hEnough
    simp only [hOld, hSome, guard_true, Option.bind_eq_bind, Option.pure_def, Option.bind_some, hRun,
      hRest.getScheduledInformTime]
    have hRestTimes := hRest.timeList
    have hRestKeys := hRest.keyList
    cases hBack : (first :: times).dropWhile (· ≤ time) with
    | nil =>
      rw [hBack] at hTimes
      refine ⟨_, if_neg (by simp), ?_, ?_, hPositives, hBack ▸ hPlains⟩
      · rw [hTimes, List.map_nil, listOf_concat]
        rfl
      · rw [listOf_insertKey _ _ (by simp), if_pos rfl, List.append_nil]
        rfl
    | cons later back =>
      rw [hBack, List.map_cons, listOf_cons] at hRestTimes
      rw [listOf, if_neg (hDrop (hBack ▸ List.cons_ne_nil _ _))] at hRestKeys
      rw [hBack] at hTimes hDrop
      have hLater : later ∈ first :: times := (List.dropWhile_suffix _).subset (hBack ▸ List.mem_cons_self)
      have hLast : (later :: back).head?.getD 0 ≠ 0 := (h.positive later hLater).ne'
      rw [if_pos hLast, hRestTimes, hRestKeys]
      refine ⟨_, rfl, ?_, ?_, hPositives, hBack ▸ hPlains⟩
      · rw [hTimes, listOf_append _ _ (by simp)]
        rfl
      · rw [listOf_insertKey _ _ hDrop, if_neg (List.cons_ne_nil later back)]
        rfl

end Items

structure ScheduledInform where
  time : Int
  commandKey : Text
  deriving DecidableEq

/-- A queue of requests whose keys hold no comma: there are as many keys as times. -/
def HoldsQueue (data : ControlData) (queue : List ScheduledInform) : Prop :=
  Holds data (queue.map (·.time)) (queue.map (·.commandKey))

section Queue

variable {data : ControlData} {queue : List ScheduledInform}

theorem HoldsQueue.tail (h : HoldsQueue data queue) : HoldsQueue data.nextScheduledInformCommand queue.tail := by
  cases queue with
  | nil =>
    rw [Holds.next_eq_self h (.inl rfl)]
    exact h
  | cons first queue => exact Holds.next h

theorem map_insert (inform : ScheduledInform) (queue : List ScheduledInform) :
    (StableQueue.insert (·.time) inform queue).map (·.time) =
      StableQueue.insert id inform.time (queue.map (·.time)) := by
  simp [StableQueue.insert, List.takeWhile_map, List.dropWhile_map, Function.comp_def]

theorem insertKey_map (inform : ScheduledInform) (queue : List ScheduledInform) (hPlain : ',' ∉ inform.commandKey) :
    insertKey inform.commandKey (earlier inform.time (queue.map (·.time))) (queue.map (·.commandKey))
        ((queue.map (·.time)).dropWhile (· ≤ inform.time)) =
      (StableQueue.insert (·.time) inform queue).map (·.commandKey) := by
  have hKey : (join ',' [inform.commandKey]).splitOn ',' = [inform.commandKey] :=
    splitOn_join (List.forall_mem_singleton.mpr hPlain) (by simp)
  have hSplit := List.takeWhile_append_dropWhile (p := (·.time ≤ inform.time)) (l := queue)
  have hKeys : queue.map (·.commandKey) = (queue.takeWhile (·.time ≤ inform.time)).map (·.commandKey) ++
      (queue.dropWhile (·.time ≤ inform.time)).map (·.commandKey) := by rw [← List.map_append, hSplit]
  have hCount : earlier inform.time (queue.map (·.time)) =
      ((queue.takeWhile (·.time ≤ inform.time)).map (·.commandKey)).length := by
    simp [earlier, List.takeWhile_map, Function.comp_def]
  rw [join_singleton] at hKey
  rw [insertKey, hKeys, hCount, List.take_left, List.drop_left, hKey, StableQueue.insert, List.map_append,
    List.dropWhile_map]
  congr 1
  change _ ++ (if (queue.dropWhile (·.time ≤ inform.time)).map (·.time) = [] then _ else _) = _
  cases queue.dropWhile (·.time ≤ inform.time) <;> rfl

theorem HoldsQueue.add (h : HoldsQueue data queue) (inform : ScheduledInform) (hTime : 0 < inform.time)
    (hPlain : ',' ∉ inform.commandKey) :
    ∃ data', data.addScheduledInformCommand inform.time (some inform.commandKey) = some data' ∧
      HoldsQueue data' (StableQueue.insert (·.time) inform queue) := by
  obtain ⟨data', hAdd, hHolds⟩ := Holds.add h (by simp) hTime inform.commandKey
  refine ⟨data', hAdd, ?_⟩
  rw [HoldsQueue, map_insert, ← insertKey_map inform queue hPlain]
  exact hHolds

end Queue

inductive ScheduleCall where
  | add (time : Int) (commandKey : Option Text)
  | next

/-- The control data and the history: the requests that were added, those still pending in the order in which
they came, and those that were returned. -/
structure Schedule where
  data : ControlData
  added : List ScheduledInform
  pending : List ScheduledInform
  returned : List ScheduledInform
  deriving DecidableEq

namespace Schedule

def init : Schedule := ⟨DmControl.empty.toControlData, [], [], []⟩

/-- The request that a call adds. -/
def request (time : Int) (commandKey : Option Text) : Option ScheduledInform :=
  if 0 < time then commandKey.map fun key => ⟨time, key⟩ else none

/-- The request with the smallest time, the first one of them. -/
def earliest : List ScheduledInform → Option ScheduledInform
  | [] => none
  | inform :: pending =>
    match earliest pending with
    | none => some inform
    | some other => if other.time < inform.time then some other else some inform

theorem earliest_eq_head? (pending : List ScheduledInform) :
    earliest pending = (StableQueue.ofArrivals (·.time) pending).head? := by
  induction pending with
  | nil => rfl
  | cons inform pending ih =>
    rw [StableQueue.head?_ofArrivals_cons, ← ih]
    cases hFirst : earliest pending <;> simp [earliest, hFirst]

/-- What the functions return of the first request. -/
def front (data : ControlData) : Option ScheduledInform :=
  data.getScheduledInformCommandKey.map fun key => ⟨data.getScheduledInformTime, key⟩

def step (s : Schedule) : ScheduleCall → Option Schedule
  | .add time commandKey => do
    let data ← s.data.addScheduledInformCommand time commandKey
    let new := (request time commandKey).toList
    return { s with data, added := s.added ++ new, pending := s.pending ++ new }
  | .next =>
    some { s with data := s.data.nextScheduledInformCommand
                  pending := (earliest s.pending).elim s.pending s.pending.erase
                  returned := s.returned ++ (front s.data).toList }

/-- The time and the key are those of the earliest pending request, and the requests returned are those that
were added and are not pending any more. -/
structure Agrees (s : Schedule) : Prop where
  time : s.data.getScheduledInformTime = ((earliest s.pending).map (·.time)).getD 0
  commandKey : s.data.getScheduledInformCommandKey = (earliest s.pending).map (·.commandKey)
  once : (s.returned ++ s.pending).Perm s.added

instance (s : Schedule) : Decidable (Agrees s) :=
  decidable_of_iff (s.data.getScheduledInformTime = ((earliest s.pending).map (·.time)).getD 0 ∧
      s.data.getScheduledInformCommandKey = (earliest s.pending).map (·.commandKey) ∧
      (s.returned ++ s.pending).Perm s.added)
    ⟨fun h => ⟨h.1, h.2.1, h.2.2⟩, fun h => ⟨h.time, h.commandKey, h.once⟩⟩

/-- The key of a request that is added holds no comma. -/
def NoComma (_ : Schedule) (call : ScheduleCall) : Prop :=
  match call with
  | .add time commandKey => ∀ inform ∈ request time commandKey, ',' ∉ inform.commandKey
  | .next => True

instance (s : Schedule) : (call : ScheduleCall) → Decidable (NoComma s call)
  | .add time commandKey => inferInstanceAs (Decidable (∀ inform ∈ request time commandKey, ',' ∉ inform.commandKey))
  | .next => isTrue trivial

structure Inv (s : Schedule) : Prop where
  queue : HoldsQueue s.data (StableQueue.ofArrivals (·.time) s.pending)
  once : (s.returned ++ s.pending).Perm s.added

section Steps

variable {s s' : Schedule} {call : ScheduleCall}

theorem Inv.agrees (h : Inv s) : Agrees s := by
  refine ⟨?_, ?_, h.once⟩
  · rw [h.queue.getScheduledInformTime, List.head?_map, ← earliest_eq_head?]
  · rw [h.queue.getScheduledInformCommandKey, List.head?_map, ← earliest_eq_head?]

theorem Agrees.front (h : Agrees s) : front s.data = earliest s.pending := by
  rw [Schedule.front, h.time, h.commandKey]
  cases earliest s.pending <;> rfl

theorem inv_init : Inv init := by
  refine ⟨⟨rfl, rfl, ?_, ?_⟩, List.Perm.refl []⟩
  · exact fun time hMem => nomatch hMem
  · exact fun key hMem => nomatch hMem

theorem exists_add (h : Inv s) {time : Int} {commandKey : Option Text}
    (hPlain : ∀ inform ∈ request time commandKey, ',' ∉ inform.commandKey) :
    ∃ data, s.data.addScheduledInformCommand time commandKey = some data ∧
      HoldsQueue data (StableQueue.ofArrivals (·.time) (s.pending ++ (request time commandKey).toList)) := by
  have hNothing : request time commandKey = none →
      HoldsQueue s.data (StableQueue.ofArrivals (·.time) (s.pending ++ (request time commandKey).toList)) := by
    intro hNone
    rw [hNone, Option.toList_none, List.append_nil]
    exact h.queue
  cases commandKey with
  | none => exact ⟨s.data, rfl, hNothing (by simp [request])⟩
  | some key =>
    by_cases hTime : 0 < time
    · have hRequest : request time (some key) = some ⟨time, key⟩ := if_pos hTime
      rw [hRequest] at hPlain ⊢
      have hAdd := h.queue.add (ScheduledInform.mk time key) hTime (hPlain _ rfl)
      rw [Option.toList_some, StableQueue.ofArrivals_concat]
      exact hAdd
    · refine ⟨s.data, ?_, hNothing (if_neg hTime)⟩
      simp only [ControlData.addScheduledInformCommand, if_pos (not_lt.mp hTime)]

theorem inv_step (h : Inv s) (hCall : NoComma s call) : ∃ s', step s call = some s' ∧ Inv s' := by
  cases call with
  | add time commandKey =>
    obtain ⟨data, hAdd, hQueue⟩ := exists_add h hCall
    refine ⟨_, by rw [step, hAdd]; rfl, hQueue, ?_⟩
    rw [← List.append_assoc]
    exact h.once.append_right _
  | next =>
    have hNext := h.queue.tail
    refine ⟨_, rfl, ?_, ?_⟩
    · cases hMin : earliest s.pending with
      | none =>
        rw [earliest_eq_head?, List.head?_eq_none_iff] at hMin
        rw [hMin] at hNext
        rw [Option.elim_none, hMin]
        exact hNext
      | some first =>
        rw [earliest_eq_head?] at hMin
        rw [StableQueue.tail_ofArrivals _ hMin] at hNext
        exact hNext
    · simp only [h.agrees.front]
      cases hMin : earliest s.pending with
      | none => simpa using h.once
      | some first =>
        rw [earliest_eq_head?] at hMin
        have hMem : first ∈ s.pending := StableQueue.mem_of_head?_ofArrivals _ hMin
        rw [Option.toList_some, Option.elim_some, List.append_assoc, List.singleton_append]
        exact ((List.perm_cons_erase hMem).symm.append_left s.returned).trans h.once

end Steps

/-- Without commas in the keys no call fails, and the requests are returned in the order of their times. -/
theorem informs_in_order (calls : List ScheduleCall) (h : Along step NoComma init calls) :
    (exec step init calls).isSome = true ∧ Throughout step Agrees init calls := by
  obtain ⟨hExec, hInv⟩ := runs_of_along (fun _ _ hInv hCall => inv_step hInv hCall) inv_init h
  exact ⟨hExec, hInv.mono fun _ hInv => hInv.agrees⟩

def sampleCalls (key : String) : List ScheduleCall :=
  [.add 20 (some "late".toList), .add 10 (some key.toList), .add 20 (some "later".toList), .next, .next]

theorem informs_in_order_sample :
    (exec step init (sampleCalls "early")).isSome = true ∧ Throughout step Agrees init (sampleCalls "early") :=
  informs_in_order _ (by decide +kernel)

/-- Behind a key with a comma the second half is taken for the key of the next request. -/
theorem key_with_comma_shifts_keys :
    (exec step init ((sampleCalls "a,b").take 4)).map (front ·.data) = some (some ⟨20, "b".toList⟩) ∧
      ¬ Throughout step Agrees init (sampleCalls "a,b") := by
  decide +kernel

end Schedule

end Tr069Agent.Data
