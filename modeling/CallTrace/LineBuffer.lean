import CallTrace.Text.Utf8

/-!
# Line buffer

A store of fixed size that collects lines until they are handed on. Only the cells in use are ever
shown, so clearing moves the mark and leaves the cells alone.

A line that does not fit makes the buffer hand on what it holds first. A line longer than the whole
buffer is then handed on by itself. So what is handed on consists of whole lines in their order.
-/

namespace CallTrace

/-- Why there is no buffer. -/
inductive BufferError where
  | zeroCapacity
deriving DecidableEq, Repr

/-- The wording of a refusal. -/
def BufferError.message : BufferError → String
  | zeroCapacity => "Record buffer capacity must be > 0"

/-- Cells of which the first `used` ones are in use. -/
structure LineBuffer where
  capacity : Nat
  capacity_pos : 0 < capacity
  store : Vector UInt8 capacity
  used : Nat
  used_le : used ≤ capacity

namespace LineBuffer

/-- A buffer with nothing in it. -/
def empty (capacity : Nat) (capacity_pos : 0 < capacity) : LineBuffer :=
  ⟨capacity, capacity_pos, Vector.replicate capacity 0, 0, Nat.zero_le _⟩

/-- A buffer with nothing in it, if it can hold something. -/
def ofCapacity (capacity : Nat) : Except BufferError LineBuffer :=
  if h : 0 < capacity then .ok (empty capacity h) else .error .zeroCapacity

/-- The bytes in use. -/
def contents (buffer : LineBuffer) : Bytes :=
  (buffer.store.toArray.extract 0 buffer.used).toList

/-- The number of bytes in use. -/
def size (buffer : LineBuffer) : Nat :=
  buffer.used

/-- Whether nothing is in use. -/
def isEmpty (buffer : LineBuffer) : Bool :=
  buffer.used == 0

/-- How many bytes can be added. -/
def remaining (buffer : LineBuffer) : Nat :=
  buffer.capacity - buffer.used

/-- Whether `count` more bytes can be added. -/
def fits (buffer : LineBuffer) (count : Nat) : Bool :=
  count ≤ buffer.remaining

/-- Writes bytes into cells that follow one another. -/
def writeAt {n : Nat} (store : Vector UInt8 n) (start : Nat) :
    (bytes : Bytes) → start + bytes.length ≤ n → Vector UInt8 n
  | [], _ => store
  | b :: rest, h =>
    have h : start + (rest.length + 1) ≤ n := h
    writeAt (store.set start b (by omega)) (start + 1) rest (by omega)

/-- Adds bytes behind those in use, where all of them fit. -/
def push : (buffer : LineBuffer) → (bytes : Bytes) →
    buffer.used + bytes.length ≤ buffer.capacity → LineBuffer
  | ⟨capacity, capacity_pos, store, used, _⟩, bytes, h =>
    ⟨capacity, capacity_pos, writeAt store used bytes h, used + bytes.length, h⟩

/-- Adds bytes behind those in use, if all of them fit. -/
def push? (buffer : LineBuffer) (bytes : Bytes) : Option LineBuffer :=
  if h : buffer.used + bytes.length ≤ buffer.capacity then some (buffer.push bytes h) else none

/-- Puts all cells out of use. -/
def clear (buffer : LineBuffer) : LineBuffer :=
  { buffer with used := 0, used_le := Nat.zero_le _ }

/-! ## Contents -/

/-- The written cells hold the bytes, and the other cells are as before. -/
theorem toList_writeAt {n : Nat} (store : Vector UInt8 n) (start : Nat) (bytes : Bytes)
    (h : start + bytes.length ≤ n) :
    (writeAt store start bytes h).toList =
      store.toList.take start ++ bytes ++ store.toList.drop (start + bytes.length) := by
  induction bytes generalizing store start with
  | nil => simp [writeAt]
  | cons b rest ih =>
    have hlen : start < store.toList.length := by
      simp only [Vector.length_toList]; simp only [List.length_cons] at h; omega
    simp only [writeAt, ih, Vector.toList_set]
    have hset : (store.toList.set start b).take (start + 1) = store.toList.take start ++ [b] := by
      rw [List.take_succ_eq_append_getElem (by simpa using hlen), List.take_set_of_le (by omega),
        List.getElem_set_self]
    rw [hset, List.drop_set_of_lt (by omega), List.append_assoc, List.append_assoc,
      List.append_assoc]
    simp [Nat.add_comm 1 rest.length, Nat.add_assoc]

/-- The bytes in use are those of the first cells. -/
theorem contents_eq (buffer : LineBuffer) :
    buffer.contents = buffer.store.toList.take buffer.used := by
  simp [contents, Vector.toList]

theorem length_contents (buffer : LineBuffer) : buffer.contents.length = buffer.size := by
  simp only [contents_eq, List.length_take, Vector.length_toList, size]
  have := buffer.used_le
  omega

@[simp] theorem contents_empty (capacity : Nat) (h : 0 < capacity) :
    (empty capacity h).contents = [] := by
  simp [contents_eq, empty]

@[simp] theorem contents_clear (buffer : LineBuffer) : buffer.clear.contents = [] := by
  simp [contents_eq, clear]

/-- What is pushed comes behind what is in use, and nothing else comes into use. -/
theorem contents_push (buffer : LineBuffer) (bytes : Bytes)
    (h : buffer.used + bytes.length ≤ buffer.capacity) :
    (buffer.push bytes h).contents = buffer.contents ++ bytes := by
  obtain ⟨capacity, hc, store, used, hu⟩ := buffer
  simp only [push, contents_eq, toList_writeAt]
  have : (store.toList.take used ++ bytes).length = used + bytes.length := by
    simp only [List.length_append, List.length_take, Vector.length_toList]; omega
  rw [List.take_append_of_le_length (by omega), List.take_of_length_le (by omega)]

/-! ## Handing on -/

/-- Empties the buffer, and tells what it hands on: what it held, if that was anything. -/
def drain (buffer : LineBuffer) : LineBuffer × List Bytes :=
  if buffer.isEmpty then (buffer, []) else
    let payload := buffer.contents
    (buffer.clear, [payload])

/-- Makes room for a line, if there is not enough. -/
def makeRoom (buffer : LineBuffer) (line : Bytes) : LineBuffer × List Bytes :=
  if buffer.fits line.length then (buffer, []) else buffer.drain

/-- Adds a line, and tells what is handed on for that: what was held, if the line did not fit, and
the line itself, if it does not fit an empty buffer either. -/
def append (buffer : LineBuffer) (line : Bytes) : LineBuffer × List Bytes :=
  match buffer.makeRoom line with
  | (buffer, payloads) =>
    if h : buffer.used + line.length ≤ buffer.capacity then (buffer.push line h, payloads)
    else (buffer, payloads ++ [line])

end LineBuffer

end CallTrace
