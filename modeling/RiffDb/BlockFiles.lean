import RiffDb.ByteWire

/-!
# Files that are torn by a crash

A file is a byte for every index and a length. A crash before the next sync leaves every block,
independently of the others, as it was at the last sync or as the writes made it.

A batch of writes that ascends from block to block touches no block twice. A crash after any part of
it is a crash after all of it, with the rest not persisted.
-/

namespace BlockFiles

open ByteWire List

@[ext] structure File where
  byte : Nat → UInt8
  length : Nat

variable (file : File)

namespace File

def readAt (position count : Nat) : Bytes :=
  (List.range count).map fun offset => file.byte (position + offset)

def writeAt (position : Nat) (bytes : Bytes) : File where
  byte index :=
    if position ≤ index ∧ index < position + bytes.length then bytes.getD (index - position) 0
    else file.byte index
  length := max file.length (position + bytes.length)

end File

/-- Two files hold the same bytes from `start` up to `stop`. -/
def Agree (left right : File) (start stop : Nat) : Prop :=
  ∀ index, start ≤ index → index < stop → left.byte index = right.byte index

namespace Agree

variable {left middle right : File} {start stop : Nat}

theorem refl (start stop : Nat) : Agree file file start stop := fun _ _ _ => rfl

theorem symm (same : Agree left right start stop) : Agree right left start stop :=
  fun index low high => (same index low high).symm

theorem trans (first : Agree left middle start stop) (second : Agree middle right start stop) :
    Agree left right start stop :=
  fun index low high => (first index low high).trans (second index low high)

theorem mono (same : Agree left right start stop) {inner outer : Nat} (low : start ≤ inner)
    (high : outer ≤ stop) : Agree left right inner outer :=
  fun index above below => same index (low.trans above) (below.trans_le high)

end Agree

namespace File

variable {file left right : File} {position count : Nat} {bytes : Bytes}

@[simp] theorem length_readAt (file : File) (position count : Nat) :
    (file.readAt position count).length = count := by
  simp [readAt]

theorem readAt_congr (same : Agree left right position (position + count)) :
    left.readAt position count = right.readAt position count := by
  unfold readAt
  apply map_congr_left
  intro offset inside
  rw [mem_range] at inside
  exact same _ (by omega) (by omega)

theorem slice_readAt {start stop : Nat} (inside : stop ≤ count) :
    slice (file.readAt position count) start stop = file.readAt (position + start)
    (stop - start) := by
  apply ext_getElem?
  intro index
  simp only [slice, readAt, getElem?_take, getElem?_drop, getElem?_map]
  by_cases within : index < stop - start
  · rw [if_pos within, getElem?_range (by omega), getElem?_range within]
    simp only [Option.map_some]
    congr 2
    omega
  · rw [if_neg within, getElem?_eq_none (by rw [length_range]; omega)]
    rfl

theorem readAt_writeAt_self (file : File) (position : Nat) (bytes : Bytes) :
    (file.writeAt position bytes).readAt position bytes.length = bytes := by
  apply ext_getElem?
  intro index
  simp only [readAt, getElem?_map, writeAt]
  by_cases within : index < bytes.length
  · rw [getElem?_range within, Option.map_some, if_pos (by omega),
      show position + index - position = index by omega, getD_eq_getElem?_getD,
      getElem?_eq_getElem within]
    rfl
  · rw [getElem?_eq_none (by rw [length_range]; omega), getElem?_eq_none (by omega)]
    rfl

theorem byte_writeAt_outside {index : Nat}
    (outside : index < position ∨ position + bytes.length ≤ index) :
    (file.writeAt position bytes).byte index = file.byte index := by
  simp only [writeAt]
  rw [if_neg (by omega)]

theorem length_writeAt_inside (inside : position + bytes.length ≤ file.length) :
    (file.writeAt position bytes).length = file.length := by
  simp only [writeAt]
  omega

end File

structure Write where
  position : Nat
  bytes : Bytes

namespace Write

def stop (write : Write) : Nat := write.position + write.bytes.length

end Write

def applyAll (writes : List Write) : File :=
  writes.foldl (fun file write => file.writeAt write.position write.bytes) file

@[simp] theorem applyAll_nil : applyAll file [] = file := rfl

@[simp] theorem applyAll_cons (write : Write) (writes : List Write) :
    applyAll file (write :: writes) = applyAll (file.writeAt write.position write.bytes) writes :=
  rfl

theorem applyAll_append (first second : List Write) :
    applyAll file (first ++ second) = applyAll (applyAll file first) second := by
  simp only [applyAll, foldl_append]

variable {writes : List Write}

theorem byte_applyAll_outside {index : Nat} (file : File)
    (outside : ∀ write ∈ writes, index < write.position ∨ write.stop ≤ index) :
    (applyAll file writes).byte index = file.byte index := by
  induction writes generalizing file with
  | nil => rfl
  | cons write writes ih =>
    rw [applyAll_cons, ih _ fun later member => outside later (mem_cons_of_mem _ member)]
    exact File.byte_writeAt_outside (outside write mem_cons_self)

theorem length_applyAll_inside (inside : ∀ write ∈ writes, write.stop ≤ file.length) :
    (applyAll file writes).length = file.length := by
  induction writes generalizing file with
  | nil => rfl
  | cons write writes ih =>
    have kept : (file.writeAt write.position write.bytes).length = file.length :=
      File.length_writeAt_inside (inside write mem_cons_self)
    rw [applyAll_cons, ih, kept]
    intro later member
    rw [kept]
    exact inside later (mem_cons_of_mem _ member)

/-- The writes start at block boundaries, each at or after the end of the one before. -/
def Laid (size : Nat) : Nat → List Write → Prop
  | _, [] => True
  | start, write :: writes =>
    start ≤ write.position ∧ size ∣ write.position ∧ Laid size write.stop writes

variable {size start : Nat}

theorem Laid.start_le (laid : Laid size start writes) :
    ∀ write ∈ writes, start ≤ write.position := by
  induction writes generalizing start with
  | nil => simp
  | cons write writes ih =>
    intro other member
    rcases mem_cons.mp member with rfl | later
    · exact laid.1
    · have stopped := ih laid.2.2 other later
      have begun := laid.1
      simp only [Write.stop] at stopped
      omega

theorem agree_applyAll_before (laid : Laid size start writes) :
    Agree (applyAll file writes) file 0 start :=
  fun _ _ below => byte_applyAll_outside file fun write member =>
    .inl (below.trans_le (laid.start_le write member))

/-- Where one batch is cut, the part after the cut starts beyond everything before it. -/
theorem Laid.split {first second : List Write} {write : Write}
    (laid : Laid size start (first ++ write :: second)) :
    (∀ earlier ∈ first, earlier.stop ≤ write.position) ∧ size ∣ write.position ∧
      Laid size write.position (write :: second) := by
  induction first generalizing start with
  | nil => exact ⟨by simp, laid.2.1, le_rfl, laid.2.1, laid.2.2⟩
  | cons head first ih =>
    obtain ⟨before, aligned, rest⟩ := ih laid.2.2
    refine ⟨?_, aligned, rest⟩
    intro earlier member
    rcases mem_cons.mp member with rfl | later
    · exact laid.2.2.start_le write (by simp)
    · exact before earlier later

/-- Every block holds what it held before or what the writes since then left in it. -/
def Torn (size : Nat) (before after crashed : File) : Prop :=
  (crashed.length = before.length ∨ crashed.length = after.length) ∧
    ∀ block, Agree crashed before (block * size) (block * size + size) ∨
      Agree crashed after (block * size) (block * size + size)

/-- A crash after any number of the unsynced writes. -/
def Crashed (size : Nat) (file : File) (writes : List Write) (crashed : File) : Prop :=
  ∃ done rest, writes = done ++ rest ∧ Torn size file (applyAll file done) crashed

namespace Torn

variable {size : Nat} {before after crashed : File}

theorem persisted (size : Nat) (before after : File) : Torn size before after after :=
  ⟨.inr rfl, fun _ => .inr (.refl _ _ _)⟩

/-- Where the writes changed nothing, neither did the crash. -/
theorem agree (torn : Torn size before after crashed) (positive : 0 < size) {start stop : Nat}
    (same : Agree after before start stop) : Agree crashed before start stop := by
  intro index low high
  have low' : index / size * size ≤ index := Nat.div_mul_le_self index size
  have high' : index < index / size * size + size := by
    have := Nat.lt_div_mul_add positive (a := index)
    omega
  rcases torn.2 (index / size) with old | new
  · exact old index low' high'
  · exact (new index low' high').trans (same index low high)

/-- A block read at its boundary is the old block or the new one. -/
theorem block_at (torn : Torn size before after crashed) {position : Nat}
    (aligned : size ∣ position) :
    Agree crashed before position (position + size) ∨
      Agree crashed after position (position + size) := by
  obtain ⟨block, rfl⟩ := aligned
  rw [Nat.mul_comm]
  exact torn.2 block

end Torn

/-- An ascending batch cut anywhere: the writes that were not made count as not persisted. -/
theorem Crashed.torn {file crashed : File}
    (crash : Crashed size file writes crashed) (laid : Laid size start writes)
    (inside : ∀ write ∈ writes, write.stop ≤ file.length) :
    Torn size file (applyAll file writes) crashed := by
  obtain ⟨done, rest, rfl, length, blocks⟩ := crash
  have whole := length_applyAll_inside file inside
  have part := length_applyAll_inside file fun write member =>
    inside write (mem_append_left _ member)
  refine ⟨.inl (by rcases length with old | new; exacts [old, new.trans part]), fun block => ?_⟩
  rcases blocks block with old | new
  · exact .inl old
  cases rest with
  | nil => exact .inr (by rwa [append_nil])
  | cons write rest =>
    obtain ⟨earlier, ⟨boundary, place⟩, later⟩ := laid.split
    by_cases before : block * size + size ≤ write.position
    · -- The remaining writes start beyond this block.
      refine .inr (new.trans ?_)
      rw [applyAll_append]
      exact ((agree_applyAll_before _ later).mono (Nat.zero_le _) before).symm
    · -- The writes made so far stop before this block.
      refine .inl (new.trans fun index low _ =>
        byte_applyAll_outside file fun made member => .inr ?_)
      have reached : write.position ≤ block * size := by
        rw [place, Nat.mul_comm size] at before ⊢
        refine Nat.mul_le_mul_right _ ?_
        by_contra below
        have step : (block + 1) * size ≤ boundary * size := Nat.mul_le_mul_right _ (by omega)
        rw [Nat.add_mul, Nat.one_mul] at step
        exact before step
      exact ((earlier made member).trans reached).trans low

end BlockFiles
