import CallTrace.Text.Decimal
import CallTrace.Text.Utf8
import Mathlib.Algebra.Group.Nat.Defs

/-!
# Decimal numbers are read back

The canonical text of an integer is one or more digits, after a minus sign if the integer is
negative, and every reader that admits the integer gives it back (`readInt?_ofInt`,
`readInt64?_ofInt64`, `readInt32?_ofInt64`). So different integers have different texts
(`ofInt_injective`). The writer has cells enough for each of them (`written_canonically`).

An integer has other numerals too, with a plus sign or with zeros in front (`Denotes`). The readers
take all of them and nothing else (`readInt?_eq_some_iff`), as long as the integer is in their range
(`readInt64?_eq_some_iff`, `readInt32?_eq_some_iff`).
-/

namespace CallTrace.Decimal

/-! ## Digits -/

theorem isDigit_of_mem_ofNat {n : Nat} {c : Char} (h : c ∈ ofNat n) : c.isDigit :=
  Nat.isDigit_of_mem_toDigits (by decide) (by decide) h

theorem ofNat_ne_nil (n : Nat) : ofNat n ≠ [] :=
  Nat.toDigits_ne_nil

theorem readDigits?_ofNat (n : Nat) : readDigits? (ofNat n) = some n := by
  have hne : (ofNat n).isEmpty = false := by simpa using ofNat_ne_nil n
  have hall : (ofNat n).all Char.isDigit = true :=
    List.all_eq_true.2 fun _ hc => isDigit_of_mem_ofNat hc
  simp only [readDigits?, hne, hall, Bool.not_false, Bool.and_self, ↓reduceIte, Option.some.injEq]
  exact Nat.ofDigitChars_ten_toDigits

/-! ## Signs -/

/-- Without a sign in front, the readers read digits. -/
theorem readInt?_of_isDigit {c : Char} {rest : List Char} (h : c.isDigit) :
    readInt? (c :: rest) = (readDigits? (c :: rest)).map Int.ofNat := by
  unfold readInt?
  split
  · rename_i heq
    cases heq
    exact absurd h (by decide)
  · rename_i heq
    cases heq
    exact absurd h (by decide)
  · rfl

theorem readInt?_ofInt (n : Int) : readInt? (ofInt n) = some n := by
  by_cases hn : n < 0
  · simp only [ofInt, hn, ↓reduceIte, readInt?, readDigits?_ofNat]
    exact congrArg some (show -(n.natAbs : Int) = n by omega)
  · simp only [ofInt, hn, ↓reduceIte]
    have hread := readDigits?_ofNat n.natAbs
    have hdigit := @isDigit_of_mem_ofNat n.natAbs
    have hne := ofNat_ne_nil n.natAbs
    cases hd : ofNat n.natAbs with
    | nil => exact absurd hd hne
    | cons c rest =>
      rw [hd] at hread hdigit
      rw [readInt?_of_isDigit (hdigit List.mem_cons_self), hread]
      simp only [Option.map_some, Option.some.injEq, Int.ofNat_eq_natCast]
      omega

theorem ofInt_injective {m n : Int} (h : ofInt m = ofInt n) : m = n := by
  have hm := readInt?_ofInt m
  rw [h, readInt?_ofInt] at hm
  exact (Option.some.inj hm).symm

/-! ## Fixed widths -/

theorem readInt64?_ofInt64 (value : Int64) : readInt64? (ofInt64 value) = some value := by
  have hlo := Int64.minValue_le_toInt value
  have hhi := Int64.toInt_le value
  simp only [readInt64?, ofInt64_eq, readInt?_ofInt, Option.bind_some]
  rw [if_pos ⟨hlo, hhi⟩, Int64.ofInt_toInt]

theorem readInt32?_ofInt64 (value : Int32) : readInt32? (ofInt64 value.toInt64) = some value := by
  have hlo := Int32.minValue_le_toInt value
  have hhi := Int32.toInt_le value
  simp only [readInt32?, ofInt64_eq, Int32.toInt_toInt64, readInt?_ofInt, Option.bind_some]
  rw [if_pos ⟨hlo, hhi⟩, Int32.ofInt_toInt]

/-! ## Characters -/

theorem mem_ofInt {n : Int} {c : Char} (h : c ∈ ofInt n) : c = '-' ∨ c.isDigit := by
  unfold ofInt at h
  split at h
  · rcases List.mem_cons.1 h with rfl | h
    · exact .inl rfl
    · exact .inr (isDigit_of_mem_ofNat h)
  · exact .inr (isDigit_of_mem_ofNat h)

/-- A character that is neither a sign nor a digit stands in no number. -/
theorem not_mem_ofInt64 {value : Int64} {c : Char} (hsign : c ≠ '-') (hdigit : c.isDigit = false) :
    c ∉ ofInt64 value := by
  intro h
  rw [ofInt64_eq] at h
  rcases mem_ofInt h with h | h
  · exact hsign h
  · rw [hdigit] at h; cases h

/-- The text of a number ends with a digit. -/
theorem ofInt64_eq_concat (value : Int64) :
    ∃ front last, ofInt64 value = front ++ [last] ∧ last.isDigit = true := by
  rw [ofInt64_eq]
  have hne := ofNat_ne_nil value.toInt.natAbs
  have hlast := isDigit_of_mem_ofNat (List.getLast_mem hne)
  have heq := List.dropLast_concat_getLast hne
  unfold ofInt
  split
  · exact ⟨'-' :: (ofNat value.toInt.natAbs).dropLast, _, by rw [List.cons_append, heq], hlast⟩
  · exact ⟨(ofNat value.toInt.natAbs).dropLast, _, heq.symm, hlast⟩

/-! ## Numerals -/

/-- One or more digits, and the number that they write. -/
inductive Digits : List Char → Nat → Prop
  | one {d : Nat} (h : d < 10) : Digits [Nat.digitChar d] d
  | cons {d n : Nat} {digits : List Char} (h : d < 10) (hrest : Digits digits n) :
      Digits (Nat.digitChar d :: digits) (d * 10 ^ digits.length + n)

/-- Digits after one sign at most, and the integer that they denote. -/
inductive Denotes : List Char → Int → Prop
  | unsigned {digits : List Char} {n : Nat} (h : Digits digits n) : Denotes digits n
  | positive {digits : List Char} {n : Nat} (h : Digits digits n) : Denotes ('+' :: digits) n
  | negative {digits : List Char} {n : Nat} (h : Digits digits n) : Denotes ('-' :: digits) (-n)

/-- Digits after a plus sign at most, and the number that they write. -/
inductive Counts : List Char → Nat → Prop
  | unsigned {digits : List Char} {n : Nat} (h : Digits digits n) : Counts digits n
  | positive {digits : List Char} {n : Nat} (h : Digits digits n) : Counts ('+' :: digits) n

theorem exists_digitChar {c : Char} (h : c.isDigit) : ∃ d, d < 10 ∧ c = Nat.digitChar d := by
  obtain ⟨hlo, hhi⟩ := Char.isDigit_iff_toNat.1 h
  simp only [Char.reduceToNat] at hlo hhi
  refine ⟨c.toNat - 48, by omega, ?_⟩
  rw [← Char.toNat_inj, Nat.toNat_digitChar_of_lt_ten (by omega)]
  omega

theorem readDigits?_cons {d : Nat} (h : d < 10) (rest : List Char) :
    readDigits? (Nat.digitChar d :: rest) =
      if rest = [] then some d else (readDigits? rest).map (d * 10 ^ rest.length + ·) := by
  have hdigit : (Nat.digitChar d).isDigit = true := by simp [Nat.isDigit_digitChar, h]
  have hvalue : Nat.ofDigitChars 10 (Nat.digitChar d :: rest) 0 =
      d * 10 ^ rest.length + Nat.ofDigitChars 10 rest 0 := by
    rw [Nat.ofDigitChars_cons_digitChar_of_lt_ten h, Nat.ofDigitChars_eq_ofDigitChars_zero,
      Nat.mul_zero, Nat.zero_add, Nat.mul_comm]
  unfold readDigits?
  rw [hvalue]
  cases rest with
  | nil => simp [hdigit]
  | cons c rest =>
    by_cases hall : (c :: rest).all Char.isDigit = true
    · simp [hdigit, hall]
    · simp [hdigit, hall]

theorem Digits.ne_nil {digits : List Char} {n : Nat} (h : Digits digits n) : digits ≠ [] := by
  cases h <;> exact List.cons_ne_nil _ _

theorem Digits.isDigit {digits : List Char} {n : Nat} (h : Digits digits n) :
    ∀ c ∈ digits, c.isDigit = true := by
  induction h with
  | one hd =>
    intro c hc
    rw [List.mem_singleton.1 hc, Nat.isDigit_digitChar, decide_eq_true hd]
  | cons hd _ ih =>
    refine List.forall_mem_cons.2 ⟨?_, ih⟩
    rw [Nat.isDigit_digitChar, decide_eq_true hd]

theorem readDigits?_eq_some_iff {digits : List Char} {n : Nat} :
    readDigits? digits = some n ↔ Digits digits n := by
  constructor
  · intro h
    induction digits generalizing n with
    | nil => cases h
    | cons c rest ih =>
      have hc : c.isDigit = true := by
        unfold readDigits? at h
        split at h
        · rename_i hall
          simp only [List.all_cons, Bool.and_eq_true] at hall
          exact hall.2.1
        · cases h
      obtain ⟨d, hd, rfl⟩ := exists_digitChar hc
      rw [readDigits?_cons hd] at h
      split at h
      · rename_i hnil
        cases hnil
        cases h
        exact .one hd
      · obtain ⟨m, hm, rfl⟩ := Option.map_eq_some_iff.1 h
        exact .cons hd (ih hm)
  · intro h
    induction h with
    | one hd => rw [readDigits?_cons hd, if_pos rfl]
    | cons hd hrest ih => rw [readDigits?_cons hd, if_neg hrest.ne_nil, ih, Option.map_some]

/-- The digits of a number of which the first is no zero, unless it is the only one. -/
structure Canonical (text : List Char) (n : Nat) : Prop where
  digits : Digits text n
  leading : text.head? = some '0' → text = ['0']

theorem head?_ofNat_of_ten_le {n : Nat} (h : 10 ≤ n) :
    (ofNat n).head? = (ofNat (n / 10)).head? := by
  have hsplit : ofNat n = ofNat (n / 10) ++ [Nat.digitChar (n % 10)] := by
    rw [ofNat, Nat.toDigits_eq_if (by decide), if_neg (by omega)]
    rfl
  rw [hsplit, List.head?_append, List.head?_eq_some_head (ofNat_ne_nil _), Option.some_or]

theorem head?_ofNat_ne_zero {n : Nat} (h : n ≠ 0) : (ofNat n).head? ≠ some '0' := by
  induction n using Nat.strongRecOn with
  | _ n ih =>
    by_cases hn : n < 10
    · rw [ofNat, Nat.toDigits_eq_if (by decide), if_pos hn, List.head?_cons]
      intro heq
      have hzero := congrArg Char.toNat (Option.some.inj heq)
      rw [Nat.toNat_digitChar_of_lt_ten hn] at hzero
      simp only [Char.reduceToNat] at hzero
      omega
    · rw [head?_ofNat_of_ten_le (by omega)]
      exact ih (n / 10) (by omega) (by omega)

theorem canonical_ofNat (n : Nat) : Canonical (ofNat n) n where
  digits := readDigits?_eq_some_iff.1 (readDigits?_ofNat n)
  leading hzero := by
    by_cases hn : n = 0
    · rw [hn]
      rfl
    · exact absurd hzero (head?_ofNat_ne_zero hn)

/-- **The texts that are read as an integer are its numerals.** -/
theorem readInt?_eq_some_iff {text : List Char} {n : Int} :
    readInt? text = some n ↔ Denotes text n := by
  constructor
  · intro h
    unfold readInt? at h
    split at h
    · obtain ⟨_, hcast, rfl⟩ := Option.map_eq_some_iff.1 h
      obtain ⟨m, hm, hcast⟩ := Option.bind_eq_some_iff.1 hcast
      cases hcast
      exact .negative (readDigits?_eq_some_iff.1 hm)
    · obtain ⟨m, hm, rfl⟩ := Option.map_eq_some_iff.1 h
      exact .positive (readDigits?_eq_some_iff.1 hm)
    · obtain ⟨m, hm, rfl⟩ := Option.map_eq_some_iff.1 h
      exact .unsigned (readDigits?_eq_some_iff.1 hm)
  · intro h
    cases h with
    | unsigned hdigits =>
      have hread := readDigits?_eq_some_iff.2 hdigits
      -- the first character is a digit and no sign
      cases hdigits with
      | one hd => rw [readInt?_of_isDigit (by simp [Nat.isDigit_digitChar, hd]), hread]; rfl
      | cons hd _ => rw [readInt?_of_isDigit (by simp [Nat.isDigit_digitChar, hd]), hread]; rfl
    | positive hdigits => rw [readInt?, readDigits?_eq_some_iff.2 hdigits]; rfl
    | negative hdigits => rw [readInt?, readDigits?_eq_some_iff.2 hdigits]; rfl

theorem Denotes.unique {text : List Char} {m n : Int} (hm : Denotes text m) (hn : Denotes text n) :
    m = n :=
  Option.some.inj ((readInt?_eq_some_iff.2 hm).symm.trans (readInt?_eq_some_iff.2 hn))

theorem readNat?_of_isDigit {c : Char} {rest : List Char} (h : c.isDigit) :
    readNat? (c :: rest) = readDigits? (c :: rest) := by
  unfold readNat?
  split
  · rename_i heq
    cases heq
    exact absurd h (by decide)
  · rfl

theorem readNat?_eq_some_iff {text : List Char} {n : Nat} :
    readNat? text = some n ↔ Counts text n := by
  constructor
  · intro h
    unfold readNat? at h
    split at h
    · exact .positive (readDigits?_eq_some_iff.1 h)
    · exact .unsigned (readDigits?_eq_some_iff.1 h)
  · intro h
    cases h with
    | unsigned hdigits =>
      have hread := readDigits?_eq_some_iff.2 hdigits
      -- the first character is a digit and no sign
      cases hdigits with
      | one hd => rw [readNat?_of_isDigit (by simp [Nat.isDigit_digitChar, hd]), hread]
      | cons hd _ => rw [readNat?_of_isDigit (by simp [Nat.isDigit_digitChar, hd]), hread]
    | positive hdigits => rw [readNat?, readDigits?_eq_some_iff.2 hdigits]

/-- **The texts that are read as a number below the limit** write such a number, with a plus sign
at most. -/
theorem readBelow?_eq_some_iff {limit : Nat} {text : List Char} {n : Nat} :
    readBelow? limit text = some n ↔ Counts text n ∧ n < limit := by
  rw [← readNat?_eq_some_iff, readBelow?, Option.bind_eq_some_iff]
  constructor
  · rintro ⟨m, hm, h⟩
    split at h
    · rename_i hlt
      cases h
      exact ⟨hm, hlt⟩
    · cases h
  · intro h
    exact ⟨n, h.1, if_pos h.2⟩

theorem readInt64?_eq_some_iff {text : List Char} {value : Int64} :
    readInt64? text = some value ↔ Denotes text value.toInt := by
  rw [← readInt?_eq_some_iff, readInt64?, Option.bind_eq_some_iff]
  constructor
  · rintro ⟨n, hn, h⟩
    split at h
    · rename_i hrange
      cases h
      have hlt : n < 2 ^ 63 := Int.lt_add_one_of_le hrange.2
      rw [Int64.toInt_ofInt_of_le hrange.1 hlt]
      exact hn
    · cases h
  · intro h
    refine ⟨value.toInt, h, ?_⟩
    rw [if_pos ⟨Int64.minValue_le_toInt value, Int64.toInt_le value⟩, Int64.ofInt_toInt]

theorem readInt32?_eq_some_iff {text : List Char} {value : Int32} :
    readInt32? text = some value ↔ Denotes text value.toInt := by
  rw [← readInt?_eq_some_iff, readInt32?, Option.bind_eq_some_iff]
  constructor
  · rintro ⟨n, hn, h⟩
    split at h
    · rename_i hrange
      cases h
      have hlt : n < 2 ^ 31 := Int.lt_add_one_of_le hrange.2
      rw [Int32.toInt_ofInt_of_le hrange.1 hlt]
      exact hn
    · cases h
  · intro h
    refine ⟨value.toInt, h, ?_⟩
    rw [if_pos ⟨Int32.minValue_le_toInt value, Int32.toInt_le value⟩, Int32.ofInt_toInt]

/-! ## Writing -/

theorem toNat_lt_of_mem_ofInt {n : Int} {c : Char} (h : c ∈ ofInt n) : c.toNat < 128 := by
  rcases mem_ofInt h with rfl | hdigit
  · decide
  · have hle := (Char.isDigit_iff_toNat.1 hdigit).2
    simp only [Char.reduceToNat] at hle
    omega

theorem length_ofInt_le (value : Int64) : (ofInt value.toInt).length ≤ cellCount := by
  have hdigits := length_ofNat_natAbs value
  unfold ofInt cellCount
  split
  · rw [List.length_cons]
    omega
  · omega

/-- **Integers are written canonically, and the cells are enough.** Whatever the cells held before,
the writer never lacks one, and what it writes is the canonical text of the integer, a byte in each
cell in use. The text is read back, so different integers have different texts. -/
theorem written_canonically (cells : Vector Char cellCount) (value : Int64) :
    (∃ s, (Scratch.blank cells).putInt64? value = some s ∧ s.used ≤ 20 ∧
        s.text = writeInt64 cells value ∧ (Utf8.encode s.text).length = s.used) ∧
      (∃ digits, Canonical digits value.toInt.natAbs ∧
        writeInt64 cells value = if value < 0 then '-' :: digits else digits) ∧
      readInt64? (writeInt64 cells value) = some value ∧
      ∀ cells' value', writeInt64 cells' value' = writeInt64 cells value → value' = value := by
  have hread (cells : Vector Char cellCount) (value : Int64) :
      readInt64? (writeInt64 cells value) = some value := by
    rw [writeInt64_eq, ← ofInt64_eq, readInt64?_ofInt64]
  refine ⟨?_, ?_, hread cells value, fun cells' value' heq => ?_⟩
  · obtain ⟨s, hput, hused, htext⟩ := Scratch.putInt64?_eq_some cells value
    refine ⟨s, hput, ?_, ?_, ?_⟩
    · rw [hused]
      exact length_ofInt_le value
    · rw [htext, writeInt64_eq]
    · rw [htext, hused, Utf8.length_encode_of_ascii fun _ => toNat_lt_of_mem_ofInt]
  · have hnegative : value < 0 ↔ value.toInt < 0 := Int64.lt_iff_toInt_lt
    refine ⟨ofNat value.toInt.natAbs, canonical_ofNat _, ?_⟩
    simp only [writeInt64_eq, ofInt, hnegative]
  · have hvalue := hread cells' value'
    rw [heq, hread cells value] at hvalue
    exact (Option.some.inj hvalue).symm

/-- The longest text takes all cells. -/
example : ((Scratch.blank (Vector.replicate cellCount 'x')).putInt64? Int64.minValue).map
    (fun s => (s.used, String.ofList s.text)) = some (20, "-9223372036854775808") := by
  decide +kernel

end CallTrace.Decimal
