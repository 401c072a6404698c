import RiffDb.ByteWire
import RiffDb.CheckedCode

/-!
# Readers that consume a byte string from the front

A decoder takes fields off the front of its input. Each reader has one lemma that says which inputs
it accepts and what it leaves, so a record read field by field is taken apart, or put together, by
rewriting. `Exact` is the result for a whole value: its encoding is read back whatever follows it,
and nothing else is accepted. -/

namespace ByteReader

open ByteWire CheckedCode List

variable {ε α β : Type}

abbrev Reader (ε : Type) := StateT Bytes (Except ε)

/-- Split off a given number of bytes. -/
def take (short : ε) (count : Nat) : Reader ε Bytes := fun input =>
  if count ≤ input.length then .ok (input.take count, input.drop count) else .error short

/-- A check that consumes nothing. -/
def check (result : Except ε α) : Reader ε α := fun input => result.map (·, input)

def array (short : ε) (count : Nat) : Reader ε (ByteArrayOf count) := do
  let bytes ← take short count
  check (okOr (arrayOf count bytes) short)

/-- A big-endian word of the given width. -/
def word (short : ε) (width : Nat) : Reader ε Nat := do
  let bytes ← take short width
  pure (beValue bytes)

/-- The same reader a given number of times. -/
def repeated (read : Reader ε α) : Nat → Reader ε (List α)
  | 0 => pure []
  | count + 1 => do
    let item ← read
    let items ← repeated read count
    pure (item :: items)

/-- Given the bytes of a value followed by anything, the reader returns exactly that value. -/
def Reads (read : Reader ε α) (bytes : Bytes) (value : α) : Prop :=
  ∀ rest, read (bytes ++ rest) = .ok (value, rest)

section Exact

variable {next : α → Reader ε β} {encode : α → Bytes} {bytes input rest : Bytes}

theorem read_bind_eq_ok {first : Reader ε α} {result : β} :
    (first >>= next) input = .ok (result, rest) ↔
      ∃ value middle, first input = .ok (value, middle) ∧
        next value middle = .ok (result, rest) := by
  change (first input >>= fun taken => next taken.1 taken.2) = _ ↔ _
  rw [bind_eq_ok]
  exact ⟨fun ⟨taken, found, later⟩ => ⟨taken.1, taken.2, found, later⟩,
    fun ⟨value, middle, found, later⟩ => ⟨(value, middle), found, later⟩⟩

theorem read_pure_eq_ok {value result : α} :
    (pure value : Reader ε α) input = .ok (result, rest) ↔ value = result ∧ input = rest := by
  change Except.ok (value, input) = Except.ok (result, rest) ↔ _
  rw [Except.ok.injEq, Prod.mk.injEq]

variable {read : Reader ε α}

theorem read_map_eq_ok {view : α → β} {result : β} : (view <$> read) input = .ok (result, rest) ↔
      ∃ value, read input = .ok (value, rest) ∧ view value = result := by
  rw [← bind_pure_comp, read_bind_eq_ok]
  constructor
  · rintro ⟨value, middle, found, done⟩
    obtain ⟨viewed, rfl⟩ := read_pure_eq_ok.mp done
    exact ⟨value, found, viewed⟩
  · rintro ⟨value, found, viewed⟩
    exact ⟨value, rest, found, read_pure_eq_ok.mpr ⟨viewed, rfl⟩⟩

theorem check_eq_ok {result : Except ε α} {value : α} :
    check result input = .ok (value, rest) ↔ result = .ok value ∧ input = rest := by
  cases result with
  | error reason => simp [check, Except.map]
  | ok found => simp [check, Except.map]

variable {count : Nat} {short : ε}

theorem take_eq_ok :
    take short count input = .ok (bytes, rest) ↔ bytes.length = count ∧ input = bytes ++ rest := by
  unfold take
  constructor
  · intro taken
    split at taken
    · next enough =>
      cases taken
      exact ⟨length_take_of_le enough, (take_append_drop count input).symm⟩
    · cases taken
  · rintro ⟨rfl, rfl⟩
    simp

theorem array_eq_ok {bytes : ByteArrayOf count} :
    array short count input = .ok (bytes, rest) ↔ input = bytes.toList ++ rest := by
  simp only [array, read_bind_eq_ok, check_eq_ok, take_eq_ok, okOr_eq_ok, arrayOf_eq_some]
  constructor
  · rintro ⟨taken, middle, ⟨_, whole⟩, rfl, rfl⟩
    exact whole
  · intro whole
    exact ⟨bytes.toList, rest, ⟨bytes.toList_length, whole⟩, rfl, rfl⟩

theorem word_eq_ok {width value : Nat} : word short width input = .ok (value, rest) ↔
      value < 256 ^ width ∧ input = beBytes width value ++ rest := by
  simp only [word, read_bind_eq_ok, read_pure_eq_ok, take_eq_ok]
  constructor
  · rintro ⟨taken, middle, ⟨rfl, whole⟩, rfl, rfl⟩
    exact ⟨beValue_lt taken, by rw [beBytes_beValue, whole]⟩
  · rintro ⟨fits, whole⟩
    exact ⟨beBytes width value, rest, ⟨length_beBytes width value, whole⟩,
      beValue_beBytes fits, rfl⟩

/-- The reader accepts exactly the encodings of the admitted values, whatever follows them. -/
def Exact (read : Reader ε α) (admitted : α → Prop) (encode : α → Bytes) : Prop :=
  ∀ input value rest, read input = .ok (value, rest) ↔ admitted value ∧ input = encode value ++ rest

variable {admitted : α → Prop}

theorem Exact.reads (exact : Exact read admitted encode) (value : α) (fits : admitted value) :
    Reads read (encode value) value := fun rest => (exact _ value rest).mpr ⟨fits, rfl⟩

/-- An encoded value followed by anything splits in one way only. -/
theorem Exact.split
    (exact : Exact read admitted encode) {left right : α} {leftRest rightRest : Bytes}
    (leftAdmitted : admitted left) (rightAdmitted : admitted right)
    (same : encode left ++ leftRest = encode right ++ rightRest) :
      left = right ∧ leftRest = rightRest := by
  have readRight := exact.reads right rightAdmitted rightRest
  rw [← same, exact.reads left leftAdmitted leftRest] at readRight
  cases readRight
  exact ⟨rfl, rfl⟩

/-- Reading the same item a given number of times is exact when reading it once is. -/
theorem Exact.repeated (exact : Exact read admitted encode) {items : List α} :
    ByteReader.repeated read count input = .ok (items, rest) ↔
      items.length = count ∧ (∀ item ∈ items, admitted item) ∧
        input = items.flatMap encode ++ rest := by
  induction count generalizing input rest items with
  | zero =>
    rw [ByteReader.repeated, read_pure_eq_ok, eq_comm, length_eq_zero_iff]
    refine and_congr_right ?_
    rintro rfl
    simp
  | succ count ih =>
    simp only [ByteReader.repeated, read_bind_eq_ok, read_pure_eq_ok, ih, exact input]
    constructor
    · rintro ⟨item, middle, ⟨fits, rfl⟩, others, _, ⟨rfl, all, rfl⟩, rfl, rfl⟩
      exact ⟨rfl, forall_mem_cons.mpr ⟨fits, all⟩, by simp⟩
    · rintro ⟨counted, all, rfl⟩
      obtain ⟨item, others, rfl⟩ := exists_cons_of_length_eq_add_one counted
      obtain ⟨fits, rest⟩ := forall_mem_cons.mp all
      exact ⟨item, _, ⟨fits, by rw [flatMap_cons, append_assoc]⟩, others, _,
        ⟨by simpa using counted, rest, rfl⟩, rfl, rfl⟩

end Exact

/-- Items of at least so many bytes each are no more than their bytes allow. -/
theorem length_le_div_flatMap {items : List α} {layout : α → Bytes} {least : Nat}
    (positive : 0 < least) (long : ∀ item ∈ items, least ≤ (layout item).length) :
    items.length ≤ (items.flatMap layout).length / least := by
  rw [Nat.le_div_iff_mul_le positive, length_flatMap, ← length_map]
  exact card_nsmul_le_sum _ least (forall_mem_map.mpr long)

end ByteReader
