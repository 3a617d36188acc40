import CallTrace.Proofs.Decimal
import CallTrace.Settings
import Mathlib.Algebra.Group.Int.Defs

/-!
# The stack depth of an environment

A text spells an integer if it is a numeral with blanks around it at most (`Settings.Spells`), that
is, if trimming leaves a numeral (`Settings.spells_iff`). The depth nearest to the integer is what
counts (`Settings.toNat_clampDepth`), but the integer is read with 64 bits before. So one that needs
more is refused like a text that spells none (`Settings.readDepth_of_spells`,
`Settings.readDepth_eq_error`), and the depth is the one that holds by default
(`Settings.stackDepth_clamped_iff`).
-/

namespace CallTrace

namespace Decimal

open Text

variable {numeral : List Char} {n : Int}

theorem Denotes.ne_nil (h : Denotes numeral n) : numeral ≠ [] := by
  cases h with
  | unsigned h => exact h.ne_nil
  | positive _ | negative _ => exact List.cons_ne_nil _ _

theorem Denotes.isBlank_eq_false (h : Denotes numeral n) : ∀ c ∈ numeral, isBlank c = false := by
  have hdigits {digits : List Char} {n : Nat} (h : Digits digits n) :
      ∀ c ∈ digits, isBlank c = false := fun c hc => isBlank_of_isDigit (h.isDigit c hc)
  cases h with
  | unsigned h => exact hdigits h
  | positive h | negative h => exact List.forall_mem_cons.2 ⟨rfl, hdigits h⟩

end Decimal

namespace Settings

open Text

/-- A decimal text of an integer: a numeral with blanks around it at most. -/
inductive Spells : List Char → Int → Prop
  | padded {front numeral back : List Char} {n : Int} (hfront : ∀ c ∈ front, isBlank c = true)
      (hnumeral : Decimal.Denotes numeral n) (hback : ∀ c ∈ back, isBlank c = true) :
      Spells (front ++ (numeral ++ back)) n

variable {text : List Char} {n : Int}

theorem spells_iff : Spells text n ↔ Decimal.Denotes (trim text) n := by
  constructor
  · rintro ⟨hfront, hnumeral, hback⟩
    have hblank := hnumeral.isBlank_eq_false
    rwa [trim_append_of_blank hfront hback hnumeral.ne_nil
      (fun c hc => hblank c (List.mem_of_head? hc)) fun c hc => hblank c (List.mem_of_getLast? hc)]
  · intro h
    obtain ⟨front, back, htext, hfront, hback⟩ := exists_append_trim text
    rw [htext]
    exact .padded hfront h hback

/-! ## What is read -/

theorem toNat_clampDepth (n : Int64) :
    ((clampDepth n).toNat : Int) = max 0 (min n.toInt (2 ^ 32 - 1)) := by
  have hnegative : n < 0 ↔ n.toInt < 0 := Int64.lt_iff_toInt_lt
  have hhuge : 4294967295 < n ↔ 4294967295 < n.toInt := Int64.lt_iff_toInt_lt
  rw [clampDepth]
  split
  · rename_i h
    rw [hnegative] at h
    rw [UInt32.toNat_zero]
    omega
  · rename_i hnonneg
    rw [hnegative] at hnonneg
    split
    · rename_i h
      rw [hhuge] at h
      rw [show UInt32.toNat 4294967295 = 4294967295 from rfl]
      omega
    · rename_i h
      rw [hhuge] at h
      rw [UInt32.toNat_ofNat_of_lt' (by simp only [UInt32.size]; omega)]
      omega

variable {value : String}

/-- An integer of 64 bits is read, and the nearest depth is what counts. -/
theorem readDepth_of_spells (h : Spells value.toList n) (hlo : -2 ^ 63 ≤ n) (hhi : n < 2 ^ 63) :
    ∃ depth, readDepth value = .ok depth ∧ (depth.toNat : Int) = max 0 (min n (2 ^ 32 - 1)) := by
  have hn : (Int64.ofInt n).toInt = n := Int64.toInt_ofInt_of_le hlo hhi
  rw [← hn, spells_iff, ← Decimal.readInt64?_eq_some_iff] at h
  refine ⟨clampDepth (Int64.ofInt n), ?_, ?_⟩
  · rw [readDepth, h]
  · rw [toNat_clampDepth, hn]

/-- A text is refused if it has no numeral, and also if the integer needs more than 64 bits. -/
theorem readDepth_eq_error (h : ∀ n, Spells value.toList n → ¬(-2 ^ 63 ≤ n ∧ n < 2 ^ 63)) :
    readDepth value = .error (.invalidNumber .depth value) := by
  rw [readDepth]
  cases hread : Decimal.readInt64? (trim value.toList) with
  | none => rfl
  | some n =>
    rw [Decimal.readInt64?_eq_some_iff, ← spells_iff] at hread
    exact absurd ⟨n.le_toInt, n.toInt_lt⟩ (h n.toInt hread)

theorem stackDepth_of_variable {environment : Environment}
    (h : environment "TRACE_DEPTH" = some value) :
    (ofEnvironment environment).stackDepth =
      (readDepth value).toOption.getD default.stackDepth := by
  have hread : readVariable environment NumberVariable.depth.name readDepth =
      (readDepth value).toOption := by
    rw [readVariable, NumberVariable.name, h, Option.bind_some]
  rw [← hread, ofEnvironment]
  dsimp only
  split <;> rfl

/-- **A stack depth is clamped if its integer has 64 bits, and only then.** The depth is the nearest
one to the integer that the text spells. It stays the one that holds by default if the integer needs
more bits, and if the text spells none. Within 64 bits, no greater integer sets a smaller depth. -/
theorem stackDepth_clamped_iff {environment : Environment}
    (hvalue : environment "TRACE_DEPTH" = some value) :
    (∀ n, Spells value.toList n →
      ((∃ depth, readDepth value = .ok depth ∧
          (depth.toNat : Int) = max 0 (min n (2 ^ 32 - 1)) ∧
          (ofEnvironment environment).stackDepth = depth) ↔ -2 ^ 63 ≤ n ∧ n < 2 ^ 63) ∧
        (¬(-2 ^ 63 ≤ n ∧ n < 2 ^ 63) →
          readDepth value = .error (.invalidNumber .depth value) ∧
            (ofEnvironment environment).stackDepth = default.stackDepth)) ∧
      ((∀ n, ¬Spells value.toList n) →
        readDepth value = .error (.invalidNumber .depth value) ∧
          (ofEnvironment environment).stackDepth = default.stackDepth) ∧
      ∀ (environment' : Environment) (value' : String) (m n : Int),
        environment' "TRACE_DEPTH" = some value' → Spells value.toList m →
        Spells value'.toList n → -2 ^ 63 ≤ m → m ≤ n → n < 2 ^ 63 →
          (ofEnvironment environment).stackDepth ≤ (ofEnvironment environment').stackDepth := by
  have hdefault (h : readDepth value = .error (.invalidNumber .depth value)) :
      (ofEnvironment environment).stackDepth = default.stackDepth := by
    rw [stackDepth_of_variable hvalue, h]
    rfl
  refine ⟨fun n hn => ?_, fun hnone => ?_,
    fun environment' value' m n hvalue' hm hn hlo hle hhi => ?_⟩
  · have herror (hrange : ¬(-2 ^ 63 ≤ n ∧ n < 2 ^ 63)) :
        readDepth value = .error (.invalidNumber .depth value) := by
      refine readDepth_eq_error fun m hm => ?_
      rwa [(spells_iff.1 hm).unique (spells_iff.1 hn)]
    refine ⟨⟨fun ⟨depth, hread, _⟩ => ?_, fun hrange => ?_⟩,
      fun hrange => ⟨herror hrange, hdefault (herror hrange)⟩⟩
    · refine Decidable.byContradiction fun hrange => ?_
      rw [herror hrange] at hread
      cases hread
    · obtain ⟨depth, hread, hdepth⟩ := readDepth_of_spells hn hrange.1 hrange.2
      refine ⟨depth, hread, hdepth, ?_⟩
      rw [stackDepth_of_variable hvalue, hread]
      rfl
  · have herror := readDepth_eq_error fun n hn => absurd hn (hnone n)
    exact ⟨herror, hdefault herror⟩
  · obtain ⟨depth, hread, hdepth⟩ := readDepth_of_spells hm hlo (Int.lt_of_le_of_lt hle hhi)
    obtain ⟨depth', hread', hdepth'⟩ := readDepth_of_spells hn (Int.le_trans hlo hle) hhi
    rw [stackDepth_of_variable hvalue, stackDepth_of_variable hvalue', hread, hread',
      UInt32.le_iff_toNat_le]
    show depth.toNat ≤ depth'.toNat
    omega

theorem spells_of_readInt? (h : Decimal.readInt? (trim text) = some n) : Spells text n :=
  spells_iff.2 (Decimal.readInt?_eq_some_iff.1 h)

/-- One above the greatest depth, with a sign, zeros and blanks, and another environment with a
negative integer. -/
theorem stackDepth_clamped_iff_padded :
    let environment : Environment := fun name =>
      if name = "TRACE_DEPTH" then some " +004294967296\n" else none
    let environment' : Environment := fun name =>
      if name = "TRACE_DEPTH" then some "-9223372036854775808" else none
    environment "TRACE_DEPTH" = some " +004294967296\n" ∧
      Spells " +004294967296\n".toList 4294967296 ∧
      environment' "TRACE_DEPTH" = some "-9223372036854775808" ∧
      Spells "-9223372036854775808".toList (-9223372036854775808) ∧
      (∃ depth, readDepth " +004294967296\n" = .ok depth ∧ (depth.toNat : Int) = 4294967295 ∧
        (ofEnvironment environment).stackDepth = depth) ∧
      (ofEnvironment environment').stackDepth ≤ (ofEnvironment environment).stackDepth := by
  intro environment environment'
  have hspells : Spells " +004294967296\n".toList 4294967296 :=
    spells_of_readInt? (by decide +kernel)
  have hspells' : Spells "-9223372036854775808".toList (-9223372036854775808) :=
    spells_of_readInt? (by decide +kernel)
  have hvalue : environment "TRACE_DEPTH" = some " +004294967296\n" := by decide +kernel
  have hvalue' : environment' "TRACE_DEPTH" = some "-9223372036854775808" := by decide +kernel
  obtain ⟨hclamped, -, -⟩ := stackDepth_clamped_iff hvalue
  obtain ⟨-, -, hmono⟩ := stackDepth_clamped_iff hvalue'
  exact ⟨hvalue, hspells, hvalue', hspells', (hclamped _ hspells).1.2 (by decide),
    hmono environment _ _ _ hvalue hspells' hspells (by decide) (by decide) (by decide)⟩

/-- One above the greatest integer of 64 bits, the text is refused, and the depth is not the
nearest one. -/
theorem stackDepth_beyond_int64 :
    let value := "9223372036854775808"
    let environment : Environment := fun name => if name = "TRACE_DEPTH" then some value else none
    Spells value.toList 9223372036854775808 ∧
      (¬∃ depth, readDepth value = .ok depth) ∧ (ofEnvironment environment).stackDepth = 100 ∧
      ((ofEnvironment environment).stackDepth.toNat : Int) ≠
        max 0 (min 9223372036854775808 (2 ^ 32 - 1)) := by
  intro value environment
  have hspells : Spells value.toList 9223372036854775808 := spells_of_readInt? (by decide +kernel)
  have herror : readDepth value = .error (.invalidNumber .depth value) := by
    refine readDepth_eq_error fun n hn => ?_
    rw [(spells_iff.1 hn).unique (spells_iff.1 hspells)]
    decide
  have hdepth : (ofEnvironment environment).stackDepth = 100 := by decide +kernel
  refine ⟨hspells, ?_, hdepth, ?_⟩
  · rintro ⟨depth, hread⟩
    rw [herror] at hread
    cases hread
  · rw [hdepth]
    decide

end Settings

end CallTrace
