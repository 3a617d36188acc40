import CallTrace.Script
import Mathlib.Algebra.Group.Nat.Defs

/-!
# Offsets are located

The table of a source lists zero and the offsets right after the line feeds (`mem_starts_ofSource`),
in ascending order (`pairwise_starts_ofSource`). In a table in ascending order the search by halves
finds the place up to which the starts are at most the given offset (`Between.countUpTo`), so it
counts them, and there is one more of them than line feeds below the offset
(`countUpTo_ofSource`). The last of them is where the line of the offset opens
(`opensLine_of_last`).
-/

namespace CallTrace

/-- The order of places in a source: by lines, and in a line by columns. -/
def LineColumn.Before (a b : LineColumn) : Prop :=
  a.line < b.line ∨ a.line = b.line ∧ a.column < b.column

/-- The line of an offset opens at `start`: right after a line feed or at the start of the source,
and no line feed stands from there up to the offset. -/
structure OpensLine (source : Bytes) (offset start : Nat) : Prop where
  behind : start = 0 ∨ ∃ i, source[i]? = some 0x0a ∧ start = i + 1
  le : start ≤ offset
  unbroken : ∀ i, start ≤ i → i < offset → source[i]? ≠ some 0x0a

/-- The line and column of an offset whose line opens at `start`. -/
structure LocatedAt (source : Bytes) (offset start : Nat) (place : LineColumn) : Prop where
  line : place.line.toInt = (source.take offset).count 0x0a
  opens : OpensLine source offset start
  column : place.column.toInt = offset - start

namespace LineTable

/-! ## The starts of a source -/

theorem toInt_clampOffset {n : Nat} (h : n ≤ maxOffset) : (clampOffset n).toInt = n := by
  rw [clampOffset, if_pos h]
  exact Int32.toInt_ofNat_of_lt (Nat.lt_succ_of_le h)

theorem mem_startsAfter {offset : Nat} {source : Bytes} (h : offset + source.length ≤ maxOffset)
    {start : Int32} :
    start ∈ startsAfter offset source ↔
      ∃ i : Nat, source[i]? = some 0x0a ∧ start.toInt = (offset + i + 1 : Nat) := by
  induction source generalizing offset with
  | nil => simp [startsAfter]
  | cons b rest ih =>
    rw [List.length_cons] at h
    have hrest := ih (show offset + 1 + rest.length ≤ maxOffset by omega)
    have hhead : start = clampOffset (offset + 1) ↔ start.toInt = (offset + 0 + 1 : Nat) := by
      rw [← Int32.toInt_inj, toInt_clampOffset (by omega), Nat.add_zero]
    have hshift (i : Nat) : offset + (i + 1) + 1 = offset + 1 + i + 1 := by omega
    rw [← Nat.or_exists_add_one]
    simp only [List.getElem?_cons_zero, List.getElem?_cons_succ, hshift, ← hrest,
      Option.some.injEq, startsAfter]
    split
    · rename_i hb
      rw [List.mem_cons, hhead, and_iff_right hb]
    · rename_i hb
      rw [or_iff_right fun h => hb h.1]

theorem pairwise_startsAfter {offset : Nat} {source : Bytes}
    (h : offset + source.length ≤ maxOffset) : (startsAfter offset source).Pairwise (· < ·) := by
  induction source generalizing offset with
  | nil => exact .nil
  | cons b rest ih =>
    rw [List.length_cons] at h
    have hrest := ih (show offset + 1 + rest.length ≤ maxOffset by omega)
    rw [startsAfter]
    split
    · refine .cons (fun start hstart => ?_) hrest
      obtain ⟨i, -, hi⟩ := (mem_startsAfter (by omega)).1 hstart
      rw [Int32.lt_iff_toInt_lt, toInt_clampOffset (by omega), hi]
      omega
    · exact hrest

/-- As many starts are at most an offset as line feeds stand below it. -/
theorem countP_startsAfter {offset : Nat} {source : Bytes}
    (h : offset + source.length ≤ maxOffset) {p : Int32} {n : Nat} (hp : p.toInt = n) :
    (startsAfter offset source).countP (· ≤ p) = (source.take (n - offset)).count 0x0a := by
  induction source generalizing offset with
  | nil => simp [startsAfter]
  | cons b rest ih =>
    rw [List.length_cons] at h
    have hrest := ih (show offset + 1 + rest.length ≤ maxOffset by omega)
    have hhead : clampOffset (offset + 1) ≤ p ↔ offset < n := by
      rw [Int32.le_iff_toInt_le, toInt_clampOffset (by omega), hp]
      omega
    rw [startsAfter]
    by_cases hn : offset < n
    · rw [show n - offset = n - (offset + 1) + 1 by omega, List.take_succ_cons, List.count_cons,
        ← hrest]
      by_cases hb : b = 0x0a
      · simp [hb, hhead, hn]
      · simp [hb]
    · rw [show n - offset = 0 by omega, List.take_zero, List.count_nil]
      rw [show n - (offset + 1) = 0 by omega, List.take_zero, List.count_nil] at hrest
      split
      · rw [List.countP_cons_of_neg (by simpa [hhead] using hn), hrest]
      · exact hrest

theorem toList_starts_ofSource (source : Bytes) :
    (ofSource source).starts.toList = 0 :: startsAfter 0 source :=
  rfl

section

variable {source : Bytes} (h : source.length < 2 ^ 31)

include h

theorem length_le_maxOffset : 0 + source.length ≤ maxOffset := by
  rw [Nat.zero_add]
  exact Nat.le_of_lt_succ h

theorem mem_starts_ofSource {start : Int32} :
    start ∈ (ofSource source).starts.toList ↔
      start = 0 ∨ ∃ i : Nat, source[i]? = some 0x0a ∧ start.toInt = (i + 1 : Nat) := by
  rw [toList_starts_ofSource, List.mem_cons, mem_startsAfter (length_le_maxOffset h)]
  simp only [Nat.zero_add]

theorem pairwise_starts_ofSource : (ofSource source).starts.toList.Pairwise (· < ·) := by
  rw [toList_starts_ofSource]
  refine .cons (fun start hstart => ?_) (pairwise_startsAfter (length_le_maxOffset h))
  obtain ⟨i, -, hi⟩ := (mem_startsAfter (length_le_maxOffset h)).1 hstart
  rw [Int32.lt_iff_toInt_lt, hi]
  exact Int.natCast_pos.2 (Nat.succ_pos _)

theorem countP_starts_ofSource {p : Int32} {n : Nat} (hp : p.toInt = n) :
    (ofSource source).starts.toList.countP (· ≤ p) = (source.take n).count 0x0a + 1 := by
  have hzero : (0 : Int32) ≤ p := by
    rw [Int32.le_iff_toInt_le, hp]
    exact Int.natCast_nonneg n
  rw [toList_starts_ofSource, List.countP_cons_of_pos (by simpa using hzero),
    countP_startsAfter (length_le_maxOffset h) hp, Nat.sub_zero]

end

/-! ## The search -/

theorem le_of_getElem? {table : LineTable} (h : table.starts.toList.Pairwise (· < ·)) {i j : Nat}
    {a b : Int32} (ha : table.starts[i]? = some a) (hb : table.starts[j]? = some b) (hij : i ≤ j) :
    a ≤ b := by
  obtain ⟨hi, rfl⟩ := Array.getElem?_eq_some_iff.1 ha
  obtain ⟨hj, rfl⟩ := Array.getElem?_eq_some_iff.1 hb
  rcases Nat.eq_or_lt_of_le hij with rfl | hlt
  · exact Int32.le_refl _
  · exact Int32.le_of_lt (List.pairwise_iff_getElem.1 h i j hi hj hlt)

/-- The starts before `low` are at most the offset, and those from `high` on are above it. -/
structure Between (table : LineTable) (offset : Int32) (low high : Nat) : Prop where
  low_le : low ≤ high
  high_le : high ≤ table.starts.size
  below : ∀ i start, table.starts[i]? = some start → i < low → start ≤ offset
  above : ∀ i start, table.starts[i]? = some start → high ≤ i → offset < start

namespace Between

variable {table : LineTable} {offset : Int32} {low high : Nat}

theorem all (table : LineTable) (offset : Int32) : table.Between offset 0 table.starts.size where
  low_le := Nat.zero_le _
  high_le := Nat.le_refl _
  below _ _ _ hi := absurd hi (Nat.not_lt_zero _)
  above i start hstart hi := by
    rw [Array.getElem?_eq_none hi] at hstart
    cases hstart

theorem countP_eq {count : Nat} (h : table.Between offset count count) :
    table.starts.toList.countP (· ≤ offset) = count := by
  have hbelow : ∀ start ∈ table.starts.toList.take count, start ≤ offset := by
    intro start hstart
    obtain ⟨i, hi, rfl⟩ := List.mem_take_iff_getElem.1 hstart
    exact h.below i _ (by simp) (by omega)
  have habove : ∀ start ∈ table.starts.toList.drop count, ¬start ≤ offset := by
    intro start hstart
    obtain ⟨i, hi, rfl⟩ := List.mem_drop_iff_getElem.1 hstart
    exact Int32.not_le.2 (h.above (count + i) _ (by simp) (by omega))
  rw [← List.take_append_drop count table.starts.toList, List.countP_append,
    List.countP_eq_length.2 (by simpa using hbelow), List.countP_eq_zero.2 (by simpa using habove),
    List.length_take, Array.length_toList]
  have := h.high_le
  omega

/-- The search ends where the starts at most the offset end. -/
theorem countUpTo (hsorted : table.starts.toList.Pairwise (· < ·))
    (h : table.Between offset low high) :
    table.Between offset (table.countUpTo offset low high) (table.countUpTo offset low high) := by
  fun_induction LineTable.countUpTo table offset low high with
  | case1 low high hlt middle hle ih =>
    have hmiddle : middle < table.starts.size := by
      have := h.high_le
      omega
    rw [Array.getElem?_eq_getElem hmiddle] at hle
    refine ih ⟨by omega, h.high_le, fun i start hstart hi => ?_, h.above⟩
    exact Int32.le_trans
      (le_of_getElem? hsorted hstart (Array.getElem?_eq_getElem hmiddle) (by omega)) hle
  | case2 low high hlt middle hgt ih =>
    have hmiddle : middle < table.starts.size := by
      have := h.high_le
      omega
    rw [Array.getElem?_eq_getElem hmiddle] at hgt
    refine ih ⟨by omega, by omega, h.below, fun i start hstart hi => ?_⟩
    exact Int32.lt_of_lt_of_le (Int32.not_le.1 hgt)
      (le_of_getElem? hsorted (Array.getElem?_eq_getElem hmiddle) hstart hi)
  | case3 low high hge =>
    obtain rfl : low = high := Nat.le_antisymm h.low_le (by omega)
    exact h

end Between

/-! ## The line of an offset -/

section

variable {source : Bytes} (h : source.length < 2 ^ 31) {p : Int32} {n : Nat} (hp : p.toInt = n)

include h hp

theorem countUpTo_ofSource :
    (ofSource source).countUpTo p 0 (ofSource source).starts.size =
      (source.take n).count 0x0a + 1 := by
  have hsearch := (Between.all (ofSource source) p).countUpTo (pairwise_starts_ofSource h)
  rw [← hsearch.countP_eq, countP_starts_ofSource h hp]

theorem between_ofSource :
    (ofSource source).Between p ((source.take n).count 0x0a + 1)
      ((source.take n).count 0x0a + 1) := by
  rw [← countUpTo_ofSource h hp]
  exact (Between.all (ofSource source) p).countUpTo (pairwise_starts_ofSource h)

theorem exists_last :
    ∃ start : Nat, (ofSource source).starts[(source.take n).count 0x0a]? =
        some (Int32.ofNat start) ∧
      (start = 0 ∨ ∃ i, source[i]? = some 0x0a ∧ start = i + 1) ∧ start ≤ n := by
  have hbetween := between_ofSource h hp
  obtain ⟨last, hlast⟩ : ∃ last,
      (ofSource source).starts[(source.take n).count 0x0a]? = some last :=
    ⟨_, Array.getElem?_eq_getElem hbetween.high_le⟩
  have hmem := (mem_starts_ofSource h).1 (List.mem_iff_getElem?.2 ⟨_, by simpa using hlast⟩)
  obtain ⟨start, hstart, hbehind⟩ : ∃ start : Nat, last.toInt = start ∧
      (start = 0 ∨ ∃ i, source[i]? = some 0x0a ∧ start = i + 1) := by
    rcases hmem with rfl | ⟨i, hi, hlast⟩
    · exact ⟨0, rfl, .inl rfl⟩
    · exact ⟨i + 1, hlast, .inr ⟨i, hi, rfl⟩⟩
  have hle := Int32.le_iff_toInt_le.1 (hbetween.below _ _ hlast (Nat.lt_succ_self _))
  have heq : last = Int32.ofNat start := by
    have hlt := last.toInt_lt
    rw [← Int32.toInt_inj, Int32.toInt_ofNat_of_lt (by omega), hstart]
  exact ⟨start, heq ▸ hlast, hbehind, by omega⟩

/-- A line feed below the offset has a start behind it, which is the last one at most. -/
theorem lt_last_of_lineFeed {start i : Nat} (hstart : start ≤ n)
    (hlast : (ofSource source).starts[(source.take n).count 0x0a]? = some (Int32.ofNat start))
    (hfeed : source[i]? = some 0x0a) (hi : i < n) : i < start := by
  have hbetween := between_ofSource h hp
  have hp' := p.toInt_lt
  have hlength := (List.getElem?_eq_some_iff.1 hfeed).1
  have hnext := toInt_clampOffset (n := i + 1) (by have := length_le_maxOffset h; omega)
  obtain ⟨k, hk⟩ := List.mem_iff_getElem?.1 ((mem_starts_ofSource h).2 (.inr ⟨i, hfeed, hnext⟩))
  rw [Array.getElem?_toList] at hk
  rcases Nat.lt_or_ge ((source.take n).count 0x0a) k with hlt | hge
  · have habove := Int32.lt_iff_toInt_lt.1 (hbetween.above _ _ hk hlt)
    omega
  · have hle := Int32.le_iff_toInt_le.1
      (le_of_getElem? (pairwise_starts_ofSource h) hk hlast hge)
    rw [hnext, Int32.toInt_ofNat_of_lt (by omega)] at hle
    omega

theorem opensLine_of_last :
    ∃ start : Nat, (ofSource source).starts[(source.take n).count 0x0a]? =
      some (Int32.ofNat start) ∧ OpensLine source n start := by
  obtain ⟨start, hlast, hbehind, hle⟩ := exists_last h hp
  refine ⟨start, hlast, hbehind, hle, fun i hi hin hfeed => ?_⟩
  exact absurd (lt_last_of_lineFeed h hp hle hlast hfeed hin) (Nat.not_lt.2 hi)

theorem locate_ofSource :
    ∃ place start, (ofSource source).locate p = some place ∧ LocatedAt source n start place ∧
      (ofSource source).starts[(source.take n).count 0x0a]? = some (Int32.ofNat start) := by
  obtain ⟨start, hstart, hopens⟩ := opensLine_of_last h hp
  have hp' := p.toInt_lt
  have hle := hopens.le
  have hline : (source.take n).count 0x0a ≤ source.length :=
    Nat.le_trans ((List.take_sublist n source).count_le _) List.count_le_length
  have hnonneg : ¬p < 0 := by
    rw [Int32.lt_iff_toInt_lt, hp]
    exact Int.not_lt.2 (Int.natCast_nonneg n)
  refine ⟨⟨Int32.ofNat ((source.take n).count 0x0a), p - Int32.ofNat start⟩, start, ?_, ?_, hstart⟩
  · rw [locate, if_neg hnonneg, countUpTo_ofSource h hp, Nat.add_sub_cancel]
    dsimp only
    rw [hstart, Option.getD_some]
  · refine ⟨Int32.toInt_ofNat_of_lt (by omega), hopens, ?_⟩
    rw [Int32.toInt_sub, hp, Int32.toInt_ofNat_of_lt (by omega)]
    exact Int.bmod_eq_of_le (by omega) (by omega)

end

/-- Later offsets lie in later lines, or in later columns of one line. -/
theorem before_of_lt {source : Bytes} (h : source.length < 2 ^ 31) {p q : Int32} (hp : 0 ≤ p)
    (hlt : p < q) :
    ∃ a b, (ofSource source).locate p = some a ∧ (ofSource source).locate q = some b ∧
      a.Before b := by
  rw [Int32.le_iff_toInt_le] at hp
  rw [Int32.lt_iff_toInt_lt] at hlt
  obtain ⟨n, hn⟩ := Int.eq_ofNat_of_zero_le hp
  obtain ⟨m, hm⟩ := Int.eq_ofNat_of_zero_le (Int.le_trans hp (Int.le_of_lt hlt))
  obtain ⟨a, start, ha, hata, hstart⟩ := locate_ofSource h hn
  obtain ⟨b, start', hb, hatb, hstart'⟩ := locate_ofSource h hm
  have hcount : (source.take n).count 0x0a ≤ (source.take m).count 0x0a :=
    (List.take_prefix_take_left (by omega)).sublist.count_le _
  refine ⟨a, b, ha, hb, ?_⟩
  rcases Nat.lt_or_eq_of_le hcount with hless | hsame
  · refine .inl (Int32.lt_iff_toInt_lt.2 ?_)
    rw [hata.line, hatb.line]
    exact Int.ofNat_lt.2 hless
  · have hline : a.line = b.line := by
      rw [← Int32.toInt_inj, hata.line, hatb.line, hsame]
    rw [hsame, hstart'] at hstart
    have hopens := congrArg Int32.toInt (Option.some.inj hstart)
    have hq := q.toInt_lt
    have hle := hata.opens.le
    have hle' := hatb.opens.le
    rw [Int32.toInt_ofNat_of_lt (by omega), Int32.toInt_ofNat_of_lt (by omega)] at hopens
    refine .inr ⟨hline, Int32.lt_iff_toInt_lt.2 ?_⟩
    rw [hata.column, hatb.column]
    omega

end LineTable

theorem LineColumn.Before.irrefl (a : LineColumn) : ¬a.Before a := by
  rintro (h | ⟨-, h⟩) <;> exact Int32.lt_irrefl h

namespace Script

open LineTable

/-- **Offsets are located by the line feeds.** A negative offset is nowhere. Any other one, behind
the end of the source too, is in the line that the line feeds below it count, and in the column
that counts from the start of this line, which the table has at the index of the line. The search
counts at least one start, so that its index exists. Places come in the order of their offsets, so
no two offsets share one. -/
theorem located_by_lineFeeds {source : Bytes} (h : source.length < 2 ^ 31) {script : Script}
    (hscript : (∃ name, script = named name source) ∨ script = unnamed source) :
    (∀ p < 0, script.locate p = none) ∧
      (∀ (p : Int32) (n : Nat), p.toInt = n → ∃ place start, script.locate p = some place ∧
        LocatedAt source n start place ∧ 0 ≤ place.column ∧
        (ofSource source).countUpTo p 0 (ofSource source).starts.size = place.line.toInt + 1 ∧
        (ofSource source).starts[place.line.toInt.toNat]? = some (Int32.ofNat start) ∧
        start + place.column.toInt = p.toInt) ∧
      (∀ p q, 0 ≤ p → p < q →
        ∃ a b, script.locate p = some a ∧ script.locate q = some b ∧ a.Before b) ∧
      ∀ p q, 0 ≤ p → 0 ≤ q → script.locate p = script.locate q → p = q := by
  have hlocate : script.locate = (ofSource source).locate := by
    rcases hscript with ⟨name, rfl⟩ | rfl <;> rfl
  rw [hlocate]
  refine ⟨fun p hp => if_pos hp, fun p n hp => ?_, fun p q => before_of_lt h, ?_⟩
  · obtain ⟨place, start, hplace, hat, hstart⟩ := locate_ofSource h hp
    have hle := hat.opens.le
    refine ⟨place, start, hplace, hat, ?_, ?_, ?_, ?_⟩
    · rw [Int32.le_iff_toInt_le, hat.column]
      exact Int.sub_nonneg_of_le (Int.ofNat_le.2 hle)
    · rw [countUpTo_ofSource h hp, hat.line]
      rfl
    · rw [hat.line]
      exact hstart
    · rw [hat.column, hp]
      omega
  · have hne (p q : Int32) (hp : 0 ≤ p) (hlt : p < q) :
        (ofSource source).locate p ≠ (ofSource source).locate q := by
      obtain ⟨a, b, ha, hb, hbefore⟩ := before_of_lt h hp hlt
      rw [ha, hb]
      rintro ⟨⟩
      exact LineColumn.Before.irrefl _ hbefore
    intro p q hp hq heq
    rcases Int.lt_trichotomy p.toInt q.toInt with hlt | hsame | hlt
    · exact absurd heq (hne p q hp (Int32.lt_iff_toInt_lt.2 hlt))
    · exact Int32.toInt_inj.1 hsame
    · exact absurd heq.symm (hne q p hq (Int32.lt_iff_toInt_lt.2 hlt))

/-- An empty line, and offsets on both sides of a line feed and behind the end. -/
theorem located_by_lineFeeds_behind_end :
    let source := Utf8.ofString "a;\n\nb;\n"
    let script := named "/app/b.js" source
    source.length < 2 ^ 31 ∧ script.locate (-1) = none ∧
      (∃ place start, script.locate 9 = some place ∧ LocatedAt source 9 start place ∧
        start + place.column.toInt = 9) ∧
      [2, 3, 4, 9].map script.locate =
        [some ⟨0, 2⟩, some ⟨1, 0⟩, some ⟨2, 0⟩, some ⟨3, 2⟩] ∧
      script.locate 6 ≠ script.locate 7 := by
  intro source script
  have hlength : source.length < 2 ^ 31 := by decide +kernel
  obtain ⟨hnone, hlocate, -, hinjective⟩ :=
    located_by_lineFeeds hlength (.inl ⟨"/app/b.js", rfl⟩ : _ ∨ script = unnamed source)
  obtain ⟨place, start, hplace, hat, -, -, -, hsum⟩ := hlocate 9 9 rfl
  exact ⟨hlength, hnone (-1) (by decide), ⟨place, start, hplace, hat, hsum⟩, by decide +kernel,
    fun heq => absurd (hinjective 6 7 (by decide) (by decide) heq) (by decide)⟩

end Script

end CallTrace
