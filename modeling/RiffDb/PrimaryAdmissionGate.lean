import RiffDb.FlaggedCounter
import RiffDb.Runs

/-!
# The admission gate of the primary

One word holds the number of live submissions and two flags, paused and fenced. Submissions begin by
a compare and swap and end by a decrement, a pause sets its flag by a compare and swap and clears it
by a mask, and the end of a fence stores a whole word. The owner of a pause waits until the counter
is zero; the last submission wakes it, in a step after its decrement.

Tasks take these steps in any order.
-/

namespace PrimaryAdmissionGate

open FlaggedCounter List

/-- The sizes of a pointer on the platforms that the runtime supports. -/
inductive PointerWidth where
  | bits32
  | bits64

namespace PointerWidth

def bits : PointerWidth → Nat
  | .bits32 => 32
  | .bits64 => 64

def counterBits (width : PointerWidth) : Nat := width.bits - 2

end PointerWidth

section Words

variable (width : PointerWidth)

def pausing : Nat := 2 ^ (width.bits - 1)

def fenced : Nat := 2 ^ (width.bits - 2)

/-- The complement of a word. -/
def complement (word : Nat) : Nat := 2 ^ width.bits - 1 - word

def countMask : Nat := complement width (pausing width ||| fenced width)

def wrappingDecrement (word : Nat) : Nat := (word + (2 ^ width.bits - 1)) % 2 ^ width.bits

end Words

def maxSubmissions : Nat := 2 ^ 16 - 1

inductive PrimaryAdmissionRefusal where
  | draining
  | fenced
deriving DecidableEq

/-- Where a task stands. `release` tells a pause that clears its flag from one taken on a fenced
gate, `woken` whether a registered wake has come. -/
inductive Task where
  | idle
  | beginning (observed : Nat)
  | submitted
  | notifying
  | pausing (forFence : Bool) (observed : Nat)
  | paused (release : Bool)
  | registered (release woken : Bool)
  | waiting (release woken : Bool)
  | drained (release : Bool)
  | refused (reason : PrimaryAdmissionRefusal)
  | done
deriving DecidableEq

inductive Action where
  | begin
  | pause
  | pauseForFence
  | exchange (spurious : Bool)
  | dropSubmission
  | notify
  | drain
  | load
  | await
  | dropPause
  | finishFenced
deriving DecidableEq

/-- The word and the task after one atomic step; none when the task cannot take it. A weak compare
and swap may fail on the word that it expects. -/
def act (width : PointerWidth) (word : Nat) : Task → Action → Option (Nat × Task)
  | .idle, .begin => some (word, .beginning word)
  | .beginning observed, .exchange spurious =>
    if observed &&& fenced width ≠ 0 then some (word, .refused .fenced)
    else if observed &&& pausing width ≠ 0 ∨ maxSubmissions ≤ observed &&& countMask width then
      some (word, .refused .draining)
    else if word = observed ∧ spurious = false then some (observed + 1, .submitted)
    else some (word, .beginning word)
  | .submitted, .dropSubmission =>
    some (wrappingDecrement width word,
      if word &&& pausing width ≠ 0 ∧ word &&& countMask width = 1 then .notifying else .done)
  | .notifying, .notify => some (word, .done)
  | .idle, .pause => some (word, .pausing false word)
  | .idle, .pauseForFence => some (word, .pausing true word)
  | .pausing forFence observed, .exchange spurious =>
    if observed &&& fenced width ≠ 0 then
      some (word, if forFence then .paused false else .refused .fenced)
    else if observed &&& pausing width ≠ 0 then some (word, .refused .draining)
    else if word = observed ∧ spurious = false then some (observed ||| pausing width, .paused true)
    else some (word, .pausing forFence word)
  | .paused release, .drain => some (word, .registered release false)
  | .registered release woken, .load =>
    some (word, if word &&& countMask width = 0 then .drained release else .waiting release woken)
  | .waiting release true, .await => some (word, .registered release false)
  | .paused release, .dropPause | .registered release _, .dropPause | .waiting release _, .dropPause
  | .drained release, .dropPause =>
    some (if release then word &&& complement width (pausing width) else word, .done)
  | .drained _, .finishFenced => some (fenced width, .done)
  | _, _ => none

/-- `notify_waiters` reaches every task that has registered. -/
def Task.wake : Task → Task
  | .registered release _ => .registered release true
  | .waiting release _ => .waiting release true
  | task => task

structure GateState where
  word : Nat
  tasks : List Task

def notified (action : Action) (tasks : List Task) : List Task :=
  if action = .notify then tasks.map Task.wake else tasks

/-- One event: a task, by its number, takes a step. -/
def step (width : PointerWidth) (state : GateState) (event : Nat × Action) : GateState :=
  match state.tasks[event.1]? with
  | none => state
  | some task =>
    match act width state.word task event.2 with
    | none => state
    | some taken => ⟨taken.1, (notified event.2 state.tasks).set event.1 taken.2⟩

/-- `from_repository`, with any number of tasks. -/
def opened (width : PointerWidth) (isFenced : Bool) (tasks : Nat) : GateState :=
  ⟨if isFenced then fenced width else 0, List.replicate tasks .idle⟩

def isSubmitted (task : Task) : Bool := task = .submitted

def liveSubmissions (state : GateState) : Nat := state.tasks.countP isSubmitted

/-- The `release` of a pause, wherever its owner stands. -/
def Task.pauseRelease : Task → Option Bool
  | .paused release | .registered release _ | .waiting release _ | .drained release => some release
  | _ => none

def isReleasable (task : Task) : Bool := task.pauseRelease = some true

/-- The event makes a submission begin. -/
def Begins (width : PointerWidth) (state : GateState) (event : Nat × Action) : Prop :=
  (∃ observed, state.tasks[event.1]? = some (.beginning observed)) ∧
    (step width state event).tasks[event.1]? = some .submitted

section Parts

variable {width : PointerWidth} {high low : Bool} {count : Nat}

section

variable (width : PointerWidth)

theorem maxSubmissions_lt : maxSubmissions + 1 < 2 ^ width.counterBits := by
  cases width <;> decide

theorem pausing_eq : pausing width = 2 ^ (width.counterBits + 1) := by
  cases width <;> rfl

theorem fenced_eq : fenced width = 2 ^ width.counterBits := by
  cases width <;> rfl

theorem bits_eq : width.bits = width.counterBits + 2 := by
  cases width <;> rfl

end

section

variable (bounded : count ≤ maxSubmissions)

include bounded

theorem isPausing : pack width.counterBits high low count &&& pausing width ≠ 0 ↔ high = true := by
  have small := maxSubmissions_lt width
  rw [pausing_eq]
  exact pack_and_high (by omega)

theorem isFenced : pack width.counterBits high low count &&& fenced width ≠ 0 ↔ low = true := by
  have small := maxSubmissions_lt width
  rw [fenced_eq]
  exact pack_and_low (by omega)

theorem storedCount : pack width.counterBits high low count &&& countMask width = count := by
  have small := maxSubmissions_lt width
  rw [countMask, complement, pausing_eq, fenced_eq, bits_eq]
  exact pack_and_count (by omega)

theorem pause_set :
    pack width.counterBits false low count ||| pausing width =
      pack width.counterBits true low count := by
  have small := maxSubmissions_lt width
  rw [pausing_eq]
  exact pack_or_high (by omega)

theorem pause_cleared : pack width.counterBits high low count &&& complement width (pausing width) =
      pack width.counterBits false low count := by
  have small := maxSubmissions_lt width
  rw [complement, pausing_eq, bits_eq]
  exact pack_and_not_high (by omega)

end

theorem decremented (bounded : count + 1 ≤ maxSubmissions) :
    wrappingDecrement width (pack width.counterBits high low (count + 1)) =
      pack width.counterBits high low count := by
  have small := maxSubmissions_lt width
  rw [wrappingDecrement, bits_eq]
  exact pack_sub_one (by omega)

theorem fenced_packed (width : PointerWidth) :
    fenced width = pack width.counterBits false true 0 := by
  rw [fenced_eq, pack, Bool.toNat_false, Bool.toNat_true, Nat.zero_mul, Nat.one_mul, Nat.zero_add,
    Nat.add_zero]

end Parts

/-- The parts of the word and what they say about the tasks. -/
structure Valid (width : PointerWidth) (word : Nat) (tasks : List Task) (high low : Bool)
    (count : Nat) : Prop where
  packed : word = pack width.counterBits high low count
  counted : tasks.countP isSubmitted = count
  bounded : count ≤ maxSubmissions
  owned : tasks.countP isReleasable = high.toNat
  closed : low = true → count = 0 ∧ high = false
  kept : ∀ task ∈ tasks, task.pauseRelease = some false → low = true
  seen : ∀ forFence observed, .pausing forFence observed ∈ tasks → observed &&& fenced width ≠ 0 →
    low = true
  empty : ∀ release, .drained release ∈ tasks → count = 0
  woken : ∀ release, .waiting release false ∈ tasks → 0 < count ∨ .notifying ∈ tasks

variable {action : Action}

section Step

variable {width : PointerWidth} {word : Nat} {tasks others : List Task}
  {high low : Bool} {count : Nat}

theorem Valid.perm (valid : Valid width word tasks high low count) (same : tasks.Perm others) :
    Valid width word others high low count where
  packed := valid.packed
  counted := by rw [← valid.counted, same.countP_eq]
  bounded := valid.bounded
  owned := by rw [← valid.owned, same.countP_eq]
  closed := valid.closed
  kept := fun task member => valid.kept task (same.mem_iff.mpr member)
  seen := fun forFence observed member => valid.seen forFence observed (same.mem_iff.mpr member)
  empty := fun release member => valid.empty release (same.mem_iff.mpr member)
  woken := by
    intro release member
    rcases valid.woken release (same.mem_iff.mpr member) with live | due
    · exact Or.inl live
    · exact Or.inr (same.mem_iff.mp due)

variable {task : Task}

/-- The owner of a releasable pause has set the flag. -/
theorem Valid.flag_of_releasable (valid : Valid width word tasks high low count)
    (member : task ∈ tasks) (releasable : task.pauseRelease = some true) : high = true := by
  have positive : 0 < tasks.countP isReleasable :=
    countP_pos_iff.mpr ⟨task, member, by simp [isReleasable, releasable]⟩
  rw [valid.owned] at positive
  cases high with
  | true => rfl
  | false => simp at positive

variable {release : Bool}

/-- While there is a pause the gate is closed. -/
theorem Valid.flag_of_pause (valid : Valid width word tasks high low count)
    (member : task ∈ tasks) (held : task.pauseRelease = some release) :
      high = true ∨ low = true := by
  cases release with
  | true => exact Or.inl (valid.flag_of_releasable member held)
  | false => exact Or.inr (valid.kept task member held)

variable {release woken : Bool}

/-- A task that waits holds a releasable pause: a fenced gate has nothing to wait for. -/
theorem Valid.waiting_flag (valid : Valid width word tasks high low count)
    (member : .waiting release woken ∈ tasks) (live : 0 < count) : high = true := by
  rcases valid.flag_of_pause member rfl with flag | sealed
  · exact flag
  · obtain ⟨none, _⟩ := valid.closed sealed
    omega

variable {task next : Task}

theorem countP_cons_toNat (p : Task → Bool) (task : Task) (others : List Task) :
    (task :: others).countP p = others.countP p + (p task).toNat := by
  cases isP : p task with
  | true => rw [countP_cons_of_pos isP, Bool.toNat_true]
  | false => rw [countP_cons_of_neg (by simp [isP]), Bool.toNat_false, Nat.add_zero]

variable {after : Nat}

/-- What one task relies on: the fence that it found or saw, the drained gate, or the wake to
come. -/
structure Relies (width : PointerWidth) (low : Bool) (count : Nat) (task : Task) : Prop where
  kept : task.pauseRelease = some false → low = true
  seen : ∀ forFence observed, task = .pausing forFence observed → observed &&& fenced width ≠
    0 → low = true
  empty : ∀ release, task = .drained release → count = 0
  woken : ∀ release, task = .waiting release false → 0 < count

/-- Only a task that has read the word or waits for the drain relies on more than its pause. -/
theorem Relies.of_kept (kept : task.pauseRelease = some false → low = true)
    (plain :
      task = .done ∨ task = .submitted ∨ task = .notifying ∨ (∃ release, task = .paused release) ∨
      ∃ release woken, task = .registered release woken) : Relies width low count task := by
  refine ⟨kept, ?_, ?_, ?_⟩ <;> intros <;> subst task <;> simp at plain

section

variable (valid : Valid width word (task :: others) high low count)

include valid

section

variable {high' low' : Bool}
  (owned : high'.toNat + (isReleasable task).toNat = high.toNat + (isReleasable next).toNat)
  (grows : low = true → low' = true)

include owned grows

/-- One task replaced and the word changed with it. The hypotheses are what the task and the word
contribute; the other tasks are as they were. -/
theorem Valid.change {count' : Nat}
    (packed : after = pack width.counterBits high' low' count')
    (counted : count' + (isSubmitted task).toNat = count + (isSubmitted next).toNat)
    (bounded : count' ≤ maxSubmissions)
    (closed : low' = true → count' = 0 ∧ high' = false)
    (here : Relies width low' count' next)
    (empty : ∀ release, .drained release ∈ others → count' = 0)
    (woken :
      ∀ release, .waiting release false ∈ others → 0 < count' ∨ .notifying ∈ next :: others) :
    Valid width after (next :: others) high' low' count' where
  packed := packed
  counted := by
    have before := valid.counted
    rw [countP_cons_toNat] at before ⊢
    omega
  bounded := bounded
  owned := by
    have before := valid.owned
    rw [countP_cons_toNat] at before ⊢
    omega
  closed := closed
  kept := by
    intro held member isHeld
    rcases mem_cons.mp member with rfl | member
    · exact here.kept isHeld
    · exact grows (valid.kept held (mem_cons_of_mem _ member) isHeld)
  seen := by
    intro forFence observed member isSeen
    rcases mem_cons.mp member with same | member
    · exact here.seen forFence observed same.symm isSeen
    · exact grows (valid.seen forFence observed (mem_cons_of_mem _ member) isSeen)
  empty := by
    intro release member
    rcases mem_cons.mp member with same | member
    · exact here.empty release same.symm
    · exact empty release member
  woken := by
    intro release member
    rcases mem_cons.mp member with same | member
    · exact Or.inl (here.woken release same.symm)
    · exact woken release member

/-- A step that leaves the counter alone. -/
theorem Valid.change_flags (packed : after = pack width.counterBits high' low' count)
    (submitted : isSubmitted next = isSubmitted task)
    (closed : low' = true → count = 0 ∧ high' = false)
    (notDue : task ≠ .notifying) (here : Relies width low' count next) :
    Valid width after (next :: others) high' low' count := by
  refine valid.change owned grows packed (by rw [submitted]) valid.bounded closed here
    (fun release member => valid.empty release (mem_cons_of_mem _ member)) fun release member => ?_
  rcases valid.woken release (mem_cons_of_mem _ member) with live | due
  · exact Or.inl live
  · rcases mem_cons.mp due with same | due
    · exact absurd same.symm notDue
    · exact Or.inr (mem_cons_of_mem _ due)

end

/-- A step that leaves the word alone. -/
theorem Valid.replace (submitted : isSubmitted next = isSubmitted task)
    (releasable : isReleasable next = isReleasable task)
    (notDue : task ≠ .notifying) (here : Relies width low count next) :
    Valid width word (next :: others) high low count :=
  valid.change_flags (by rw [releasable]) id valid.packed submitted valid.closed notDue here

end

variable {observed : Nat}

theorem valid_begun (valid : Valid width word (.beginning observed :: others) high low count)
    (notFenced : ¬ word &&& fenced width ≠ 0)
    (notFull : ¬ (word &&& pausing width ≠ 0 ∨ maxSubmissions ≤ word &&& countMask width)) :
    Valid width (word + 1) (.submitted :: others) high low (count + 1) ∧ high = false ∧
      low = false := by
  have packed := valid.packed
  rw [packed, isFenced valid.bounded, Bool.not_eq_true] at notFenced
  rw [packed, isPausing valid.bounded, storedCount valid.bounded, not_or,
    Bool.not_eq_true] at notFull
  obtain ⟨notPaused, room⟩ := notFull
  refine ⟨?_, notPaused, notFenced⟩
  apply valid.change
  case packed =>
    rw [packed, pack, pack]
    omega
  case counted => rfl
  case bounded => omega
  case owned => rfl
  case closed =>
    intro sealed
    rw [notFenced] at sealed
    cases sealed
  case grows => exact id
  case here =>
    refine .of_kept ?_ (by simp)
    intro held
    cases held
  case empty =>
    -- a drained pause keeps the gate closed
    intro release member
    rcases valid.flag_of_pause (mem_cons_of_mem _ member) rfl with flag | sealed
    · rw [notPaused] at flag
      cases flag
    · rw [notFenced] at sealed
      cases sealed
  case woken => exact fun _ _ => Or.inl (Nat.succ_pos count)

theorem valid_dropSubmission (valid : Valid width word (.submitted :: others) high low count) :
    ∃ rest, count = rest + 1 ∧ Valid width (wrappingDecrement width word)
      ((if word &&& pausing width ≠ 0 ∧ word &&& countMask width = 1 then Task.notifying
        else .done) :: others) high low rest := by
  have counted := valid.counted
  rw [countP_cons_toNat] at counted
  obtain ⟨rest, isCount⟩ : ∃ rest, count = rest + 1 := ⟨_, counted.symm⟩
  subst isCount
  refine ⟨rest, rfl, ?_⟩
  have bounded := valid.bounded
  simp only [valid.packed, decremented bounded, isPausing bounded, storedCount bounded]
  generalize isNext : (if high = true ∧ rest + 1 = 1 then Task.notifying else .done) = next
  have isEither : next = .notifying ∨ next = .done := by
    rw [← isNext]
    split
    · exact Or.inl rfl
    · exact Or.inr rfl
  apply valid.change
  case packed => rfl
  case counted => rcases isEither with rfl | rfl <;> rfl
  case bounded => omega
  case owned => rcases isEither with rfl | rfl <;> rfl
  case closed =>
    intro sealed
    have := (valid.closed sealed).1
    omega
  case grows => exact id
  case here => rcases isEither with rfl | rfl <;> exact .of_kept nofun (by simp)
  case empty =>
    intro release member
    have := valid.empty release (mem_cons_of_mem _ member)
    omega
  case woken =>
    -- whoever waits has set the flag, so the last decrement is followed by a wake
    intro release member
    have flag := valid.waiting_flag (mem_cons_of_mem _ member) (Nat.succ_pos rest)
    by_cases last : rest = 0
    · rw [if_pos ⟨flag, by omega⟩] at isNext
      rw [← isNext]
      exact Or.inr mem_cons_self
    · exact Or.inl (Nat.pos_of_ne_zero last)

theorem wake_submitted (task : Task) : isSubmitted task.wake = isSubmitted task := by
  cases task <;> rfl

theorem wake_pauseRelease (task : Task) : task.wake.pauseRelease = task.pauseRelease := by
  cases task <;> rfl

theorem valid_notify (valid : Valid width word (.notifying :: others) high low count) :
    Valid width word (.done :: others.map Task.wake) high low count where
  packed := valid.packed
  counted := by
    have before := valid.counted
    rw [countP_cons_of_neg (by simp [isSubmitted])] at before
    rw [countP_cons_of_neg (by simp [isSubmitted]), countP_map, ← before]
    exact countP_congr fun task _ => by simp [wake_submitted]
  bounded := valid.bounded
  owned := by
    have before := valid.owned
    rw [countP_cons_of_neg (by simp [isReleasable, Task.pauseRelease])] at before
    rw [countP_cons_of_neg (by simp [isReleasable, Task.pauseRelease]), countP_map, ← before]
    exact countP_congr fun task _ => by simp [isReleasable, wake_pauseRelease]
  closed := valid.closed
  kept := by
    intro held member isHeld
    rcases mem_cons.mp member with rfl | member
    · cases isHeld
    · obtain ⟨task, isTask, rfl⟩ := mem_map.mp member
      rw [wake_pauseRelease] at isHeld
      exact valid.kept task (mem_cons_of_mem _ isTask) isHeld
  seen := by
    intro forFence observed member isSeen
    rcases mem_cons.mp member with same | member
    · cases same
    · obtain ⟨task, isTask, same⟩ := mem_map.mp member
      cases task <;> cases same
      exact valid.seen forFence observed (mem_cons_of_mem _ isTask) isSeen
  empty := by
    intro release member
    rcases mem_cons.mp member with same | member
    · cases same
    · obtain ⟨task, isTask, same⟩ := mem_map.mp member
      cases task <;> cases same
      exact valid.empty release (mem_cons_of_mem _ isTask)
  woken := by
    intro release member
    rcases mem_cons.mp member with same | member
    · cases same
    · obtain ⟨task, _, same⟩ := mem_map.mp member
      cases task <;> cases same

theorem valid_paused {forFence : Bool}
    (valid : Valid width word (.pausing forFence observed :: others) high low count)
    (notFenced : ¬ word &&& fenced width ≠ 0) (notPaused : ¬ word &&& pausing width ≠ 0) :
    Valid width (word ||| pausing width) (.paused true :: others) true low count := by
  have packed := valid.packed
  rw [packed, isFenced valid.bounded, Bool.not_eq_true] at notFenced
  rw [packed, isPausing valid.bounded, Bool.not_eq_true] at notPaused
  subst notPaused
  apply valid.change_flags
  case packed => rw [packed, pause_set valid.bounded]
  case submitted => rfl
  case owned => rfl
  case closed =>
    intro sealed
    rw [notFenced] at sealed
    cases sealed
  case grows => exact id
  case notDue => exact nofun
  case here => exact .of_kept nofun (by simp)

/-- A releasable pause means that the gate is not fenced. -/
theorem Valid.open_of_releasable (valid : Valid width word tasks high low count)
    (member : task ∈ tasks) (releasable : task.pauseRelease = some true) : low = false := by
  have flag := valid.flag_of_releasable member releasable
  cases isLow : low with
  | false => rfl
  | true =>
    rw [(valid.closed isLow).2] at flag
    cases flag

section

variable (valid : Valid width word (task :: others) high low count)

include valid

/-- The end of a releasable pause clears its flag, whether it is dropped or ends in a fence. -/
theorem valid_released {sealed : Bool} (released : task.pauseRelease = some true)
    (isAfter : after = pack width.counterBits false sealed count)
    (drained : sealed = true → count = 0) :
    Valid width after (.done :: others) false sealed count := by
  have flag := valid.flag_of_releasable mem_cons_self released
  have isOpen := valid.open_of_releasable mem_cons_self released
  apply valid.change_flags
  case packed => exact isAfter
  case submitted => cases task <;> first | rfl | cases released
  case owned =>
    have mine : isReleasable task = true := by simp [isReleasable, released]
    rw [flag, mine]
    rfl
  case closed => exact fun isSealed => ⟨drained isSealed, rfl⟩
  case grows =>
    intro isLow
    rw [isOpen] at isLow
    cases isLow
  case notDue =>
    rintro rfl
    cases released
  case here => exact .of_kept nofun (by simp)

/-- The end of a pause taken on a fenced gate changes nothing. -/
theorem valid_unreleased (held : task.pauseRelease = some false) : Valid width word
    (.done :: others) high low count := by
  apply valid.replace
  · cases task <;> first | rfl | cases held
  · have notMine : isReleasable task = false := by simp [isReleasable, held]
    rw [notMine]
    rfl
  · rintro rfl
    cases held
  · exact .of_kept nofun (by simp)

theorem valid_dropPause (held : task.pauseRelease = some release) :
    ∃ high', Valid width (if release then word &&& complement width (pausing width) else word)
      (.done :: others) high' low count ∧ (release = true → high' = false) := by
  cases release with
  | true =>
    have isOpen := valid.open_of_releasable mem_cons_self held
    refine ⟨false, ?_, fun _ => rfl⟩
    rw [isOpen] at valid ⊢
    apply valid_released valid held
    · rw [if_pos rfl, valid.packed, pause_cleared valid.bounded]
    · intro impossible
      cases impossible
  | false => exact ⟨high, valid_unreleased valid held, fun impossible => by cases impossible⟩

end

/-- The store of the fence overwrites a word whose counter is zero. -/
theorem valid_finishFenced (valid : Valid width word (.drained release :: others) high low count) :
    Valid width (fenced width) (.done :: others) false true 0 := by
  have nothing := valid.empty release mem_cons_self
  subst nothing
  cases release with
  | true => exact valid_released valid rfl (fenced_packed width) fun _ => rfl
  | false =>
    have sealed := valid.kept _ mem_cons_self rfl
    obtain ⟨_, unpaused⟩ := valid.closed sealed
    have same : word = fenced width := by
      rw [valid.packed, sealed, unpaused, fenced_packed]
    rw [← same]
    have after := valid_unreleased valid rfl
    rw [sealed, unpaused] at after
    exact after

/-- A task that has only read the word, or has been refused. -/
theorem valid_read (valid : Valid width word (task :: others) high low count)
    (outside : isSubmitted task = false ∧ task.pauseRelease = none ∧ task ≠ .notifying)
    (stays : isSubmitted next = false ∧ next.pauseRelease = none)
    (seen : ∀ forFence observed, next = .pausing forFence observed → observed = word) :
    Valid width word (next :: others) high low count := by
  obtain ⟨notSubmitted, noPause, notDue⟩ := outside
  obtain ⟨stillNot, stillNone⟩ := stays
  apply valid.replace
  · rw [notSubmitted, stillNot]
  · simp only [isReleasable, noPause, stillNone]
  · exact notDue
  · constructor
    · intro held
      rw [stillNone] at held
      cases held
    · intro forFence observed same isSeen
      rw [seen forFence observed same, valid.packed] at isSeen
      exact (isFenced valid.bounded).mp isSeen
    · rintro release rfl
      cases stillNone
    · rintro release rfl
      cases stillNone

theorem valid_registered_load
    (valid : Valid width word (.registered release woken :: others) high low count) :
    Valid width word ((if word &&& countMask width = 0 then Task.drained release
      else .waiting release woken) :: others) high low count := by
  have kept : some release = some false → low = true :=
    valid.kept (.registered release woken) mem_cons_self
  rw [valid.packed, storedCount valid.bounded, ← valid.packed]
  split
  · next zero => exact valid.replace rfl rfl nofun ⟨kept, nofun, fun _ _ => zero, nofun⟩
  · next live => exact valid.replace rfl rfl nofun ⟨kept, nofun, nofun, fun _ _ =>
      Nat.pos_of_ne_zero live⟩

/-- The owner of a pause registers for the wake, for the first time or again. -/
theorem valid_register (valid : Valid width word (task :: others) high low count)
    (held : task.pauseRelease = some release) :
    Valid width word (.registered release false :: others) high low count := by
  apply valid.replace
  · cases task <;> first | rfl | cases held
  · have mine : isReleasable task = decide (some release = some true) := by rw [isReleasable, held]
    rw [mine]
    rfl
  · rintro rfl
    cases held
  · exact .of_kept (fun isFalse => valid.kept task mem_cons_self (held.trans isFalse)) (by simp)

/-- Every step keeps the invariant, and a fence stays. -/
theorem valid_act (valid : Valid width word (task :: others) high low count)
    (acted : act width word task action = some (after, next)) :
    ∃ high' low' count', Valid width after (next :: notified action others) high' low' count' ∧
      (low = true → low' = true) := by
  unfold act at acted
  split at acted
  case h_5 | h_6 =>
    cases acted
    refine ⟨high, low, count, valid_read valid (by decide) ⟨rfl, rfl⟩ ?_, id⟩
    rintro _ _ ⟨⟩
    rfl
  case h_8 | h_10 =>
    cases acted
    exact ⟨high, low, count, valid_register valid rfl, id⟩
  case h_11 | h_12 | h_13 | h_14 =>
    cases acted
    obtain ⟨high', dropped, _⟩ := valid_dropPause valid rfl
    exact ⟨high', low, count, dropped, id⟩
  · cases acted
    exact ⟨high, low, count, valid_read valid (by decide) ⟨rfl, rfl⟩ nofun, id⟩
  · next observed spurious =>
    split at acted
    · cases acted
      exact ⟨high, low, count, valid_read valid ⟨rfl, rfl, nofun⟩ ⟨rfl, rfl⟩ nofun, id⟩
    next notFenced =>
    split at acted
    · cases acted
      exact ⟨high, low, count, valid_read valid ⟨rfl, rfl, nofun⟩ ⟨rfl, rfl⟩ nofun, id⟩
    next notFull =>
    split at acted
    · next exchanged =>
      obtain ⟨rfl, _⟩ := exchanged
      cases acted
      exact ⟨high, low, count + 1, (valid_begun valid notFenced notFull).1, id⟩
    · cases acted
      exact ⟨high, low, count, valid_read valid ⟨rfl, rfl, nofun⟩ ⟨rfl, rfl⟩ nofun, id⟩
  · cases acted
    obtain ⟨rest, _, dropped⟩ := valid_dropSubmission valid
    exact ⟨high, low, rest, dropped, id⟩
  · cases acted
    exact ⟨high, low, count, valid_notify valid, id⟩
  · next forFence observed spurious =>
    split at acted
    · next isSeen =>
      have sealed := valid.seen forFence observed mem_cons_self isSeen
      cases acted
      refine ⟨high, low, count, ?_, id⟩
      cases forFence with
      | true => exact valid.replace rfl rfl nofun (.of_kept (fun _ => sealed) (by simp))
      | false => exact valid_read valid ⟨rfl, rfl, nofun⟩ ⟨rfl, rfl⟩ nofun
    next notFenced =>
    split at acted
    · cases acted
      exact ⟨high, low, count, valid_read valid ⟨rfl, rfl, nofun⟩ ⟨rfl, rfl⟩ nofun, id⟩
    next notPaused =>
    split at acted
    · next exchanged =>
      obtain ⟨rfl, _⟩ := exchanged
      cases acted
      exact ⟨true, low, count, valid_paused valid notFenced notPaused, id⟩
    · cases acted
      refine ⟨high, low, count, valid_read valid ⟨rfl, rfl, nofun⟩ ⟨rfl, rfl⟩ ?_, id⟩
      rintro _ _ ⟨⟩
      rfl
  · cases acted
    exact ⟨high, low, count, valid_registered_load valid, id⟩
  · cases acted
    exact ⟨false, true, 0, valid_finishFenced valid, fun _ => rfl⟩
  · cases acted

end Step

section Runs

variable {width : PointerWidth} {state : GateState} {high low : Bool} {count : Nat}

theorem length_notified (action : Action) (tasks : List Task) :
    (notified action tasks).length = tasks.length := by
  unfold notified
  split
  · exact length_map _
  · rfl

variable {number after : Nat} {task next : Task}

/-- A step taken apart: the acting task, the others, and what they become. -/
theorem step_eq (standing : state.tasks[number]? = some task)
    (acted : act width state.word task action = some (after, next)) :
    (step width state (number, action)).word = after ∧
      (step width state (number, action)).tasks = (notified action state.tasks).set number next ∧
      ∃ others, state.tasks.Perm (task :: others) ∧
        (step width state (number, action)).tasks.Perm (next :: notified action others) := by
  have stepped : step width state (number, action) =
      ⟨after, (notified action state.tasks).set number next⟩ := by
    simp only [step, standing, acted]
  rw [stepped]
  refine ⟨rfl, rfl, ?_⟩
  obtain ⟨bounded, isTask⟩ := List.getElem?_eq_some_iff.mp standing
  refine ⟨state.tasks.eraseIdx number, ?_, ?_⟩
  · rw [← isTask]
    exact (getElem_cons_eraseIdx_perm bounded).symm
  · have long : number < (notified action state.tasks).length := by rwa [length_notified]
    have removed : notified action (state.tasks.eraseIdx number) =
        (notified action state.tasks).eraseIdx number := by
      unfold notified
      split
      · exact (eraseIdx_map ..).symm
      · rfl
    rw [removed]
    exact set_perm_cons_eraseIdx long next

def Sound (width : PointerWidth) (state : GateState) : Prop :=
  ∃ high low count, Valid width state.word state.tasks high low count

theorem valid_step (valid : Valid width state.word state.tasks high low count)
    (event : Nat × Action) :
    ∃ high' low' count', Valid width (step width state event).word (step width state event).tasks
      high' low' count' ∧ (low = true → low' = true) := by
  obtain ⟨number, action⟩ := event
  cases standing : state.tasks[number]? with
  | none =>
    have stays : step width state (number, action) = state := by simp only [step, standing]
    rw [stays]
    exact ⟨high, low, count, valid, id⟩
  | some task =>
    cases acted : act width state.word task action with
    | none =>
      have stays : step width state (number, action) = state := by simp only [step, standing, acted]
      rw [stays]
      exact ⟨high, low, count, valid, id⟩
    | some taken =>
      obtain ⟨isWord, _, others, before, after⟩ := step_eq standing acted
      obtain ⟨high', low', count', next, grows⟩ := valid_act (valid.perm before) acted
      refine ⟨high', low', count', ?_, grows⟩
      rw [isWord]
      exact next.perm after.symm

theorem sound_opened (width : PointerWidth) (isFenced : Bool) (tasks : Nat) :
    Valid width (opened width isFenced tasks).word (opened width isFenced tasks).tasks
      false isFenced 0 := by
  have idle : ∀ task ∈ (opened width isFenced tasks).tasks, task = .idle := fun task member =>
    eq_of_mem_replicate member
  refine
    { packed := ?_
      counted := countP_eq_zero.mpr fun task member => by simp [idle task member, isSubmitted]
      bounded := Nat.zero_le _
      owned := countP_eq_zero.mpr fun task member => by
        simp [idle task member, isReleasable, Task.pauseRelease]
      closed := fun _ => ⟨rfl, rfl⟩
      kept := fun task member held => by rw [idle task member] at held; cases held
      seen := fun _ _ member => by cases idle _ member
      empty := fun _ _ => rfl
      woken := fun _ member => by cases idle _ member }
  cases isFenced with
  | true => exact fenced_packed width
  | false => simp [opened, pack]

theorem sound_run (width : PointerWidth) (isFenced : Bool) (tasks : Nat)
    (events : List (Nat × Action)) :
    Sound width (Runs.run (step width) (opened width isFenced tasks) events) := by
  apply Runs.run_invariant (P := Sound width)
  · rintro state event ⟨high, low, count, valid⟩
    obtain ⟨high', low', count', next, _⟩ := valid_step valid event
    exact ⟨high', low', count', next⟩
  · exact ⟨_, _, _, sound_opened width isFenced tasks⟩

/-- A submission begins only while neither flag is set. -/
theorem begins_open (valid : Valid width state.word state.tasks high low count)
    {event : Nat × Action} (begins : Begins width state event) : high = false ∧ low = false := by
  obtain ⟨number, action⟩ := event
  obtain ⟨⟨observed, standing⟩, submitted⟩ := begins
  simp only [step, standing] at submitted
  cases acted : act width state.word (.beginning observed) action with
  | none =>
    rw [acted, standing] at submitted
    cases submitted
  | some taken =>
    obtain ⟨_, isTasks, others, before, _⟩ := step_eq standing acted
    cases action with
    | exchange spurious =>
      obtain ⟨after, next⟩ := taken
      obtain ⟨bounded, _⟩ := List.getElem?_eq_some_iff.mp standing
      have isNext : next = .submitted := by
        rw [acted, List.getElem?_set_self (by simpa [notified] using bounded)] at submitted
        exact Option.some.inj submitted
      subst isNext
      unfold act at acted
      simp only at acted
      split at acted
      · cases acted
      next notFenced =>
      split at acted
      · cases acted
      next notFull =>
      split at acted
      · next exchanged =>
        obtain ⟨rfl, _⟩ := exchanged
        exact (valid_begun (valid.perm before) notFenced notFull).2
      · cases acted
    | _ => cases acted

def Sealed (width : PointerWidth) (state : GateState) : Prop :=
  ∃ high count, Valid width state.word state.tasks high true count

/-- On a fenced gate nothing begins, after any number of steps. -/
theorem fenced_forever (valid : Valid width state.word state.tasks high true count)
    (events : List (Nat × Action)) (event : Nat × Action) :
    ¬ Begins width (Runs.run (step width) state events) event := by
  have sealed : Sealed width (Runs.run (step width) state events) := by
    apply Runs.run_invariant (P := Sealed width)
    · rintro state event ⟨high, count, valid⟩
      obtain ⟨high', low', count', next, grows⟩ := valid_step valid event
      rw [grows rfl] at next
      exact ⟨high', count', next⟩
    · exact ⟨high, count, valid⟩
  obtain ⟨_, _, later⟩ := sealed
  intro begins
  have isOpen := (begins_open later begins).2
  cases isOpen

variable {release : Bool}

theorem drained_excludes (valid : Valid width state.word state.tasks high low count)
    (drained : .drained release ∈ state.tasks) :
    liveSubmissions state = 0 ∧ ∀ event, ¬ Begins width state event := by
  refine ⟨valid.counted.trans (valid.empty release drained), fun event begins => ?_⟩
  obtain ⟨notPaused, notFenced⟩ := begins_open valid begins
  rcases valid.flag_of_pause drained rfl with flag | sealed
  · rw [notPaused] at flag
    cases flag
  · rw [notFenced] at sealed
    cases sealed

/-- The acting task stands where its step leads. -/
theorem step_standing (standing : state.tasks[number]? = some task)
    (acted : act width state.word task action = some (after, next)) :
    (step width state (number, action)).word = after ∧
      (step width state (number, action)).tasks[number]? = some next := by
  obtain ⟨isWord, isTasks, _⟩ := step_eq standing acted
  refine ⟨isWord, ?_⟩
  obtain ⟨inside, _⟩ := List.getElem?_eq_some_iff.mp standing
  have long : number < (notified action state.tasks).length := by rwa [length_notified]
  rw [isTasks]
  exact List.getElem?_set_self long

variable {waiter : Nat}

/-- A woken task registers again, and the load after that finds no submission. -/
theorem woken_drains (woken : state.tasks[waiter]? = some (.waiting release true))
    (zero : state.word &&& countMask width = 0) :
    (Runs.run (step width) state [(waiter, .await), (waiter, .load)]).tasks[waiter]? =
      some (.drained release) := by
  obtain ⟨sameWord, registered⟩ := step_standing woken
    (show act width state.word (.waiting release true) .await =
      some (state.word, .registered release false) from rfl)
  rw [← sameWord] at zero
  obtain ⟨_, loaded⟩ := step_standing registered
    (show act width _ (.registered release false) .load =
      some ((step width state (waiter, .await)).word,
      .drained release) by simp only [act, zero, if_pos])
  exact loaded

/-- With no submission left, a wake is on its way to a task that waits, and with it the task goes on
to own the drained gate. -/
theorem waiter_woken (valid : Valid width state.word state.tasks high low count)
    (waiting : state.tasks[waiter]? = some (.waiting release false))
    (nothing : liveSubmissions state = 0) :
    ∃ dropper, state.tasks[dropper]? = some .notifying ∧
      (step width state (dropper, .notify)).tasks[waiter]? = some (.waiting release true) ∧
      (Runs.run (step width) state [(dropper, .notify), (waiter, .await),
        (waiter, .load)]).tasks[waiter]? = some (.drained release) := by
  have isCount : count = 0 := valid.counted.symm.trans nothing
  rcases valid.woken release (mem_of_getElem? waiting) with live | due
  · omega
  obtain ⟨dropper, notifying⟩ := List.getElem?_of_mem due
  have apart : dropper ≠ waiter := by
    rintro rfl
    rw [waiting] at notifying
    cases notifying
  obtain ⟨isWord, isTasks, _⟩ := step_eq notifying
    (show act width state.word .notifying .notify = some (state.word, .done) from rfl)
  have woken :
      (step width state (dropper, .notify)).tasks[waiter]? = some (.waiting release true) := by
    rw [isTasks, List.getElem?_set_ne apart, notified, if_pos rfl, List.getElem?_map, waiting]
    rfl
  refine ⟨dropper, notifying, woken, ?_⟩
  rw [Runs.run_cons]
  apply woken_drains woken
  rw [isWord, valid.packed, storedCount valid.bounded, isCount]

/-- On an open gate with room a submission begins. -/
theorem begins_again (valid : Valid width state.word state.tasks false false count) {caller : Nat}
    (idle : state.tasks[caller]? = some .idle) (room : liveSubmissions state < maxSubmissions) :
    (Runs.run (step width) state [(caller, .begin), (caller, .exchange false)]).tasks[caller]? =
      some .submitted := by
  have isCount : liveSubmissions state = count := valid.counted
  have notFenced : ¬ state.word &&& fenced width ≠ 0 := by
    rw [valid.packed, isFenced valid.bounded]
    exact Bool.false_ne_true
  have notFull :
      ¬ (state.word &&& pausing width ≠ 0 ∨ maxSubmissions ≤ state.word &&& countMask width) := by
    rw [valid.packed, isPausing valid.bounded, storedCount valid.bounded]
    simp only [Bool.false_eq_true, false_or]
    omega
  obtain ⟨sameWord, beginning⟩ := step_standing idle
    (show act width state.word .idle .begin = some (state.word, .beginning state.word) from rfl)
  have exchanged : act width (step width state (caller, .begin)).word (.beginning state.word)
      (.exchange false) = some (state.word + 1, .submitted) := by
    rw [sameWord, act, if_neg notFenced, if_neg notFull, if_pos ⟨rfl, rfl⟩]
  exact (step_standing beginning exchanged).2

variable {owner : Nat}

/-- The end of a releasable pause leaves an open gate. -/
theorem dropPause_opens (valid : Valid width state.word state.tasks high low count)
    (standing : state.tasks[owner]? = some task) (released : task.pauseRelease = some true) :
    Valid width (step width state (owner, .dropPause)).word
      (step width state (owner, .dropPause)).tasks false false count := by
  have dropped : act width state.word task .dropPause =
      some (state.word &&& complement width (pausing width), .done) := by
    cases task with
    | waiting _ woken => cases woken <;> cases released <;> rfl
    | _ => cases released <;> rfl
  obtain ⟨isWord, _, others, before, after⟩ := step_eq standing dropped
  have here := valid.perm before
  have isOpen := here.open_of_releasable mem_cons_self released
  rw [isWord]
  refine Valid.perm (valid_released here released ?_ nofun) after.symm
  rw [valid.packed, pause_cleared valid.bounded, isOpen]

theorem finishFenced_seals (valid : Valid width state.word state.tasks high low count)
    (standing : state.tasks[owner]? = some (.drained release)) :
    Valid width (step width state (owner, .finishFenced)).word
      (step width state (owner, .finishFenced)).tasks false true 0 := by
  obtain ⟨isWord, _, others, before, after⟩ := step_eq standing
    (show act width state.word (.drained release) .finishFenced =
      some (fenced width, .done) from rfl)
  rw [isWord]
  exact (valid_finishFenced (valid.perm before)).perm after.symm

/-- Whatever the interleaving, submissions keep their limit, and the pausing flag is set exactly
while one task owns a pause that will be released. -/
theorem pause_owned_by_one (isFenced : Bool) (tasks : Nat) (events : List (Nat × Action)) :
    let state := Runs.run (step width) (opened width isFenced tasks) events
    liveSubmissions state ≤ maxSubmissions ∧
      state.tasks.countP isReleasable = if state.word &&& pausing width = 0 then 0 else 1 := by
  obtain ⟨high, low, count, valid⟩ := sound_run width isFenced tasks events
  have flag := @isPausing width high low count valid.bounded
  rw [← valid.packed] at flag
  refine ⟨valid.counted.trans_le valid.bounded, valid.owned.trans ?_⟩
  cases high <;> simp_all

end Runs

/-- In every state that any interleaving reaches, from an open or a fenced gate and with any number
of tasks: the stored count is the number of live submissions; next to a drained pause there is
none and none begins; a task that waits when none is left has a wake on its way; the end of a
releasable pause opens the gate again, up to the limit; and after the end of a fence nothing ever
begins. -/
theorem gate_drains_and_reopens (width : PointerWidth) (isFenced : Bool) (tasks : Nat)
    (events : List (Nat × Action)) :
    let state := Runs.run (step width) (opened width isFenced tasks) events
    state.word &&& countMask width = liveSubmissions state ∧
    (∀ release, .drained release ∈ state.tasks →
      liveSubmissions state = 0 ∧ ∀ event, ¬ Begins width state event) ∧
    (∀ waiter release, state.tasks[waiter]? = some (.waiting release false) →
      liveSubmissions state = 0 → ∃ dropper, state.tasks[dropper]? = some .notifying ∧
        (step width state (dropper, .notify)).tasks[waiter]? = some (.waiting release true) ∧
        (Runs.run (step width) state
          [(dropper, .notify), (waiter, .await), (waiter, .load)]).tasks[waiter]? =
            some (.drained release)) ∧
    (∀ owner task, state.tasks[owner]? = some task → task.pauseRelease = some true →
      let after := step width state (owner, .dropPause)
      ∀ caller, after.tasks[caller]? = some .idle → liveSubmissions after < maxSubmissions →
        (Runs.run (step width) after [(caller, .begin), (caller, .exchange false)]).tasks[caller]? =
          some .submitted) ∧
    ∀ owner release, state.tasks[owner]? = some (.drained release) → ∀ later event,
      ¬ Begins width (Runs.run (step width)
        (step width state (owner, .finishFenced)) later) event := by
  intro state
  obtain ⟨high, low, count, valid⟩ := sound_run width isFenced tasks events
  refine ⟨?_, ?_, ?_, ?_, ?_⟩
  · rw [valid.packed, storedCount valid.bounded]
    exact valid.counted.symm
  · exact fun release drained => drained_excludes valid drained
  · exact fun waiter release waiting nothing => waiter_woken valid waiting nothing
  · intro owner task standing released after caller idle room
    exact begins_again (dropPause_opens valid standing released) idle room
  · intro owner release standing later event
    exact fenced_forever (finishFenced_seals valid standing) later event

/-- A submission, a pause that waits for it, and a fence: the submission ends and wakes the
pause. -/
theorem gate_drains_and_reopens_sample :
    let state := Runs.run (step .bits64) (opened .bits64 false 2)
      [(0, .begin), (0, .exchange false), (1, .pauseForFence), (1, .exchange true),
        (1, .exchange false), (1, .drain), (1, .load), (0, .dropSubmission)]
    state.tasks = [.notifying, .waiting true false] ∧ ∃ dropper, state.tasks[dropper]? =
      some .notifying ∧
        (step .bits64 state (dropper, .notify)).tasks[1]? = some (.waiting true true) := by
  intro state
  have standing : state.tasks = [.notifying, .waiting true false] := by decide
  refine ⟨standing, ?_⟩
  have nothing : liveSubmissions state = 0 := by
    rw [liveSubmissions, standing]
    rfl
  have waiting : state.tasks[1]? = some (.waiting true false) := by
    rw [standing]
    rfl
  obtain ⟨dropper, notifying, woken, _⟩ :=
    (gate_drains_and_reopens .bits64 false 2 _).2.2.1 1 true waiting nothing
  exact ⟨dropper, notifying, woken⟩

end PrimaryAdmissionGate
