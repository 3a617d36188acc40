import CallTrace.LineBuffer

/-!
# A line buffer shows what it accepted

A buffer is pushed to and cleared in any order (`LineBuffer.after`), and it answers each push with
whether it takes the bytes. What it shows is told by these answers alone: the bytes of the pushes
that it accepted since it was cleared last (`LineBuffer.acceptedIn`), whatever its cells still hold
from before. One operation keeps that (`LineBuffer.Shows.perform`), so every run does
(`LineBuffer.Shows.after`). A push that is accepted writes into cells that there are
(`LineBuffer.writeCells?_toArray`).
-/

namespace CallTrace.LineBuffer

/-! ## Runs -/

inductive Operation where
  | push (bytes : Bytes)
  | clear

/-- Whether an operation is carried out, and the buffer that it leaves. -/
def perform (buffer : LineBuffer) : Operation → Bool × LineBuffer
  | .push bytes =>
    match buffer.push? bytes with
    | some pushed => (true, pushed)
    | none => (false, buffer)
  | .clear => (true, buffer.clear)

/-- The buffer after some operations, of which the latest comes first. -/
def after (buffer : LineBuffer) : List Operation → LineBuffer
  | [] => buffer
  | operation :: earlier => ((buffer.after earlier).perform operation).2

/-- The operations with the answers that the buffer gave. -/
def answered (buffer : LineBuffer) : List Operation → List (Operation × Bool)
  | [] => []
  | operation :: earlier =>
    (operation, ((buffer.after earlier).perform operation).1) :: buffer.answered earlier

/-- The bytes of the pushes that were accepted since the latest clear. -/
def acceptedIn : List (Operation × Bool) → Bytes
  | [] => []
  | (.clear, _) :: _ => []
  | (.push bytes, true) :: earlier => acceptedIn earlier ++ bytes
  | (.push _, false) :: earlier => acceptedIn earlier

/-! ## Cells -/

/-- Writes bytes into cells that follow one another, unless one of them is behind the last cell. -/
def writeCells? (cells : Array UInt8) (start : Nat) : Bytes → Option (Array UInt8)
  | [] => some cells
  | b :: rest =>
    if h : start < cells.size then writeCells? (cells.set start b) (start + 1) rest else none

theorem writeCells?_toArray {n : Nat} (store : Vector UInt8 n) (start : Nat) (bytes : Bytes)
    (h : start + bytes.length ≤ n) :
    writeCells? store.toArray start bytes = some (writeAt store start bytes h).toArray := by
  induction bytes generalizing store start with
  | nil => rfl
  | cons b rest ih =>
    rw [List.length_cons] at h
    have hstart : start < store.toArray.size := by
      rw [Vector.size_toArray]
      omega
    rw [writeCells?, dif_pos hstart, writeAt, ← ih, Vector.toArray_set]

/-! ## Pushes -/

variable {buffer : LineBuffer} {bytes : Bytes}

theorem size_add_remaining (buffer : LineBuffer) :
    buffer.size + buffer.remaining = buffer.capacity :=
  Nat.add_sub_cancel' buffer.used_le

theorem perform_push_of_fits (h : buffer.used + bytes.length ≤ buffer.capacity) :
    buffer.perform (.push bytes) = (true, buffer.push bytes h) := by
  rw [perform, push?, dif_pos h]

theorem perform_push_of_not_fits (h : ¬buffer.used + bytes.length ≤ buffer.capacity) :
    buffer.perform (.push bytes) = (false, buffer) := by
  rw [perform, push?, dif_neg h]

theorem perform_push_fst :
    (buffer.perform (.push bytes)).1 = true ↔ buffer.used + bytes.length ≤ buffer.capacity := by
  by_cases h : buffer.used + bytes.length ≤ buffer.capacity
  · rw [perform_push_of_fits h, iff_true_right h]
  · rw [perform_push_of_not_fits h, iff_false_right h]
    exact Bool.false_ne_true

/-! ## What is shown -/

/-- A buffer of the given capacity that shows the given bytes. -/
structure Shows (capacity : Nat) (accepted : Bytes) (buffer : LineBuffer) : Prop where
  capacity_eq : buffer.capacity = capacity
  contents_eq : buffer.contents = accepted

namespace Shows

variable {capacity : Nat} {accepted : Bytes}

theorem size_eq (h : Shows capacity accepted buffer) : buffer.size = accepted.length := by
  rw [← h.contents_eq, length_contents]

theorem fits_iff (h : Shows capacity accepted buffer) (bytes : Bytes) :
    buffer.used + bytes.length ≤ buffer.capacity ↔ (accepted ++ bytes).length ≤ capacity := by
  rw [List.length_append, ← h.size_eq, h.capacity_eq, size]

theorem perform {history : List (Operation × Bool)} (h : Shows capacity (acceptedIn history) buffer)
    (operation : Operation) :
    Shows capacity (acceptedIn ((operation, (buffer.perform operation).1) :: history))
      (buffer.perform operation).2 := by
  cases operation with
  | clear => exact ⟨h.capacity_eq, contents_clear buffer⟩
  | push bytes =>
    by_cases hfits : buffer.used + bytes.length ≤ buffer.capacity
    · rw [perform_push_of_fits hfits]
      refine ⟨h.capacity_eq, ?_⟩
      rw [contents_push, h.contents_eq, acceptedIn]
    · rw [perform_push_of_not_fits hfits]
      exact h

theorem after {start : LineBuffer} (h : Shows capacity [] start) (operations : List Operation) :
    Shows capacity (acceptedIn (start.answered operations)) (start.after operations) := by
  induction operations with
  | nil => exact h
  | cons operation earlier ih => exact ih.perform operation

end Shows

/-- **A buffer shows what it accepted since it was cleared last**, after any operations. It is full
up to the bytes that remain, and takes a push if and only if that many are enough. It then writes
into cells that it has. A push that it refuses changes nothing that is seen. -/
theorem shows_accepted {capacity : Nat} (hcapacity : 0 < capacity) :
    ∃ start, ofCapacity capacity = .ok start ∧ ∀ operations,
      let buffer := start.after operations
      let accepted := acceptedIn (start.answered operations)
      buffer.capacity = capacity ∧ buffer.size + buffer.remaining = capacity ∧
        buffer.contents = accepted ∧ buffer.size = accepted.length ∧
        ∀ bytes,
          let pushed := buffer.perform (.push bytes)
          (pushed.1 = true ↔ (accepted ++ bytes).length ≤ capacity) ∧
            (pushed.1 = true →
              writeCells? buffer.store.toArray buffer.used bytes = some pushed.2.store.toArray) ∧
            (pushed.1 = false → pushed.2.contents = buffer.contents ∧
              pushed.2.size = buffer.size ∧ pushed.2.remaining = buffer.remaining) := by
  refine ⟨empty capacity hcapacity, dif_pos hcapacity, fun operations => ?_⟩
  dsimp only
  have hempty : Shows capacity [] (empty capacity hcapacity) :=
    ⟨rfl, contents_empty capacity hcapacity⟩
  have hshows := hempty.after operations
  generalize (empty capacity hcapacity).after operations = buffer at hshows ⊢
  refine ⟨hshows.capacity_eq, ?_, hshows.contents_eq, hshows.size_eq, fun bytes => ⟨?_, ?_, ?_⟩⟩
  · rw [size_add_remaining, hshows.capacity_eq]
  · rw [perform_push_fst, hshows.fits_iff]
  · intro haccepted
    have hfits := perform_push_fst.1 haccepted
    rw [perform_push_of_fits hfits]
    exact writeCells?_toArray buffer.store buffer.used bytes hfits
  · intro hrefused
    have hfull := mt perform_push_fst.2 (Bool.eq_false_iff.1 hrefused)
    rw [perform_push_of_not_fits hfull]
    exact ⟨rfl, rfl, rfl⟩

/-- Fewer bytes after a clear than before it, an exact fit, an empty push and a refused one. -/
theorem shows_accepted_after_clear :
    let operations : List Operation :=
      [.push [5], .push [], .push [3, 4], .push [1, 2], .clear, .push [9, 9, 9, 9]]
    0 < 4 ∧ ∃ start, ofCapacity 4 = .ok start ∧
      (start.after operations).contents = [1, 2, 3, 4] ∧
      (start.after operations).size + (start.after operations).remaining = 4 ∧
      ((start.after operations).perform (.push [6])).1 ≠ true := by
  intro operations
  have hcapacity : 0 < 4 := by decide
  obtain ⟨start, hstart, hshows⟩ := shows_accepted hcapacity
  obtain ⟨-, hsum, hcontents, -, hpush⟩ := hshows operations
  obtain rfl : empty 4 hcapacity = start := Except.ok.inj hstart
  have haccepted : acceptedIn ((empty 4 (by decide)).answered operations) = [1, 2, 3, 4] := by
    decide +kernel
  rw [haccepted] at hcontents
  refine ⟨hcapacity, _, hstart, hcontents, hsum, ?_⟩
  rw [Ne, (hpush [6]).1, haccepted]
  decide

end CallTrace.LineBuffer
