/-!
# Decimal numbers

The decimal text of an integer, a writer that fills twenty cells from the right, and readers for
integers of a fixed width.
-/

namespace CallTrace

namespace Decimal

/-! ## Canonical text -/

/-- The decimal text of a natural number, without leading zeros. -/
def ofNat (n : Nat) : List Char :=
  Nat.toDigits 10 n

/-- The decimal text of an integer: a minus sign for negative numbers only, no leading zeros. -/
def ofInt (n : Int) : List Char :=
  if n < 0 then '-' :: ofNat n.natAbs else ofNat n.natAbs

/-! ## The writer -/

/-- As many cells as the longest text of a 64-bit integer needs, its sign included. -/
def cellCount : Nat := 20

/-- Cells of which the last `used` ones hold text. -/
structure Scratch where
  cells : Vector Char cellCount
  used : Nat
deriving Repr

namespace Scratch

/-- No text yet; what the cells hold is of no account. -/
def blank (cells : Vector Char cellCount) : Scratch :=
  ⟨cells, 0⟩

/-- The text written so far. -/
def text (s : Scratch) : List Char :=
  s.cells.toList.drop (cellCount - s.used)

/-- Writes one character to the left of the text, if there is a cell left. -/
def put? (s : Scratch) (c : Char) : Option Scratch :=
  if h : s.used < cellCount then
    some ⟨s.cells.set (cellCount - 1 - s.used) c (by omega), s.used + 1⟩
  else
    none

/-- Writes the digits of `n`, the last one first. -/
def putDigits? (s : Scratch) (n : Nat) : Option Scratch :=
  (s.put? (Nat.digitChar (n % 10))).bind fun s =>
    if n / 10 = 0 then some s else s.putDigits? (n / 10)
termination_by n

/-- Writes the digits of the magnitude, then the sign of a negative number. -/
def putInt64? (s : Scratch) (value : Int64) : Option Scratch :=
  (s.putDigits? value.toInt.natAbs).bind fun s =>
    if value < 0 then s.put? '-' else some s

/-- A character that there is a cell for comes to stand before the text. -/
theorem put?_eq_some {s : Scratch} {c : Char} (h : s.used < cellCount) :
    ∃ s', s.put? c = some s' ∧ s'.used = s.used + 1 ∧ s'.text = c :: s.text := by
  refine ⟨_, dif_pos h, rfl, ?_⟩
  have hn : cellCount = 20 := rfl
  simp only [text, Vector.toList_set]
  rw [show cellCount - (s.used + 1) = cellCount - 1 - s.used by omega,
    List.drop_eq_getElem_cons (by simp; omega)]
  simp only [List.getElem_set_self, List.cons.injEq, true_and]
  rw [show cellCount - s.used = cellCount - 1 - s.used + 1 by omega,
    List.drop_set_of_lt (by omega)]

/-- The digits come to stand before the text, if there are cells for them. -/
theorem putDigits?_eq_some {s : Scratch} {n : Nat} (h : s.used + (ofNat n).length ≤ cellCount) :
    ∃ s', s.putDigits? n = some s' ∧ s'.used = s.used + (ofNat n).length
      ∧ s'.text = ofNat n ++ s.text := by
  induction n using Nat.strongRecOn generalizing s with
  | _ n ih =>
    rw [putDigits?]
    by_cases hn : n < 10
    · have hd : ofNat n = [Nat.digitChar n] := by
        rw [ofNat, Nat.toDigits_eq_if (by decide), if_pos hn]
      rw [hd] at h ⊢
      obtain ⟨s', hp, hu, ht⟩ :=
        put?_eq_some (c := Nat.digitChar (n % 10)) (show s.used < cellCount from h)
      refine ⟨s', ?_, hu, ?_⟩
      · rw [hp]; simp [Nat.div_eq_of_lt hn]
      · rw [ht, Nat.mod_eq_of_lt hn]; rfl
    · have hd : ofNat n = ofNat (n / 10) ++ [Nat.digitChar (n % 10)] := by
        rw [ofNat, Nat.toDigits_eq_if (by decide), if_neg hn]; rfl
      rw [hd, List.length_append, List.length_singleton] at h
      obtain ⟨s', hp, hu, ht⟩ :=
        put?_eq_some (c := Nat.digitChar (n % 10)) (show s.used < cellCount by omega)
      obtain ⟨s'', hq, hv, hw⟩ := ih (n / 10) (by omega) (s := s') (by omega)
      refine ⟨s'', ?_, ?_, ?_⟩
      · rw [hp]
        simp only [Option.bind_some]
        rw [if_neg (by omega), hq]
      · rw [hv, hu, hd, List.length_append, List.length_singleton]; omega
      · rw [hw, ht, hd, List.append_assoc]; rfl

end Scratch

/-- The decimal text of `value`, written into the given cells. -/
def writeInt64 (cells : Vector Char cellCount) (value : Int64) : List Char :=
  match (Scratch.blank cells).putInt64? value with
  | some s => s.text
  | none => []

/-- The decimal text of a 64-bit integer. -/
def ofInt64 (value : Int64) : List Char :=
  writeInt64 (Vector.replicate cellCount '0') value

/-- The digits of a 64-bit integer leave a cell for the sign. -/
theorem length_ofNat_natAbs (value : Int64) : (ofNat value.toInt.natAbs).length ≤ 19 := by
  have h1 := Int64.le_toInt value
  have h2 := Int64.toInt_lt value
  rw [ofNat, Nat.length_toDigits_le_iff (by decide) (by decide)]
  omega

/-- There are cells enough for each 64-bit integer, whatever they held before. -/
theorem Scratch.putInt64?_eq_some (cells : Vector Char cellCount) (value : Int64) :
    ∃ s, (blank cells).putInt64? value = some s ∧ s.used = (ofInt value.toInt).length
      ∧ s.text = ofInt value.toInt := by
  have hl := length_ofNat_natAbs value
  have hn : cellCount = 20 := rfl
  obtain ⟨s, hs, hu, ht⟩ := putDigits?_eq_some (s := blank cells) (n := value.toInt.natAbs)
    (by simp only [blank]; omega)
  have hb : (blank cells).text = [] := by
    simp [text, blank]
  rw [hb, List.append_nil] at ht
  rw [show (blank cells).used = 0 from rfl, Nat.zero_add] at hu
  have hneg : value < 0 ↔ value.toInt < 0 := by
    rw [Int64.lt_iff_toInt_lt]; rfl
  by_cases h : value.toInt < 0
  · obtain ⟨s', hp, hu', ht'⟩ := put?_eq_some (s := s) (c := '-') (by omega)
    exact ⟨s', by simp [putInt64?, hs, hneg, h, hp], by simp [ofInt, h, hu', hu],
      by simp [ofInt, h, ht', ht]⟩
  · exact ⟨s, by simp [putInt64?, hs, hneg, h], by simp [ofInt, h, hu], by simp [ofInt, h, ht]⟩

theorem writeInt64_eq (cells : Vector Char cellCount) (value : Int64) :
    writeInt64 cells value = ofInt value.toInt := by
  obtain ⟨s, hs, _, ht⟩ := Scratch.putInt64?_eq_some cells value
  rw [writeInt64, hs]
  exact ht

theorem ofInt64_eq (value : Int64) : ofInt64 value = ofInt value.toInt :=
  writeInt64_eq _ value

/-! ## The readers -/

/-- The value of a text of one or more ASCII digits. -/
def readDigits? (digits : List Char) : Option Nat :=
  if !digits.isEmpty && digits.all Char.isDigit then
    some (Nat.ofDigitChars 10 digits 0)
  else
    none

/-- The integer that a text denotes: a sign may stand before the digits, and zeros may lead. -/
def readInt? : List Char → Option Int
  | '-' :: digits => (readDigits? digits).map fun n => -(n : Int)
  | '+' :: digits => (readDigits? digits).map Int.ofNat
  | digits => (readDigits? digits).map Int.ofNat

/-- The natural number that a text denotes: a plus sign may stand before the digits. -/
def readNat? : List Char → Option Nat
  | '+' :: digits => readDigits? digits
  | digits => readDigits? digits

/-- A signed integer of 64 bits. -/
def readInt64? (text : List Char) : Option Int64 :=
  (readInt? text).bind fun n =>
    if Int64.minValue.toInt ≤ n ∧ n ≤ Int64.maxValue.toInt then some (Int64.ofInt n) else none

/-- A signed integer of 32 bits. -/
def readInt32? (text : List Char) : Option Int32 :=
  (readInt? text).bind fun n =>
    if Int32.minValue.toInt ≤ n ∧ n ≤ Int32.maxValue.toInt then some (Int32.ofInt n) else none

/-- A natural number below `limit`. -/
def readBelow? (limit : Nat) (text : List Char) : Option Nat :=
  (readNat? text).bind fun n => if n < limit then some n else none

end Decimal

end CallTrace
