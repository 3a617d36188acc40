import CallTrace.Proofs.Record.Grammar
import CallTrace.Proofs.Record.RoundTrip
import CallTrace.Proofs.Record.Trace

/-!
# Faults of a trace stay local

A line is read alike with a carriage return at its end and without (`Trace.alike_concat_return`), so
a trace is read as the pieces between its line feeds (`Trace.read_eq_readFrom`). Each piece counts
by itself: all of them have to be UTF-8, and the records are those of the pieces in order
(`Trace.readFrom_eq_ok_iff`). The first piece that is not UTF-8 ends the reading
(`Trace.readFrom_eq_error_iff`); any other fault has no effect on the lines around it
(`Trace.faults_stay_local`).
-/

namespace CallTrace

open Text

/-! ## Carriage returns -/

namespace Utf8

theorem getLast?_of_encode {text : List Char} {c : Char} {b : UInt8} (hb : b.toNat < 128)
    (hcb : c.toNat = b.toNat) (h : (encode text).getLast? = some b) : text.getLast? = some c := by
  rcases List.eq_nil_or_concat text with rfl | ⟨front, x, rfl⟩
  · cases h
  · rw [List.concat_eq_append] at h ⊢
    have hlast : (String.utf8EncodeChar x).getLast? = some b := by
      obtain ⟨init, last, hx⟩ :=
        (List.eq_nil_or_concat (String.utf8EncodeChar x)).resolve_left String.utf8EncodeChar_ne_nil
      rw [encode_append, encode_cons, hx] at h
      simpa [hx] using h
    have hx : x.toNat = c.toNat :=
      (toNat_of_mem_encodeChar (List.mem_of_getLast? hlast) hb).trans hcb.symm
    rw [List.getLast?_concat, Char.toNat_inj.1 hx]

/-- A carriage return is no part of another character. -/
theorem decode?_concat_return (bytes : Bytes) :
    decode? (bytes ++ [0x0d]) = (decode? bytes).map (· ++ ['\r']) := by
  have hreturn : encode ['\r'] = [0x0d] := by decide
  cases h : decode? bytes with
  | some text =>
    rw [eq_encode_of_decode? h, ← hreturn, ← encode_append, decode?_encode]
    rfl
  | none =>
    cases hall : decode? (bytes ++ [0x0d]) with
    | none => rfl
    | some text =>
      exfalso
      have hencode := eq_encode_of_decode? hall
      have hlast : (encode text).getLast? = some 0x0d := by rw [← hencode, List.getLast?_concat]
      obtain ⟨front, rfl⟩ :=
        List.getLast?_eq_some_iff.1 (getLast?_of_encode (c := '\r') (by decide) (by decide) hlast)
      rw [encode_append, hreturn] at hencode
      rw [List.append_cancel_right hencode, decode?_encode] at h
      cases h

end Utf8

namespace Trace

/-- A line that is not UTF-8 cannot be read. -/
def isUnreadable (line : Bytes) : Bool :=
  (Utf8.decode? line).isNone

/-- The record of a line, unless the line is blank, faulty or not UTF-8. -/
def lineRecord? (line : Bytes) : Option Record :=
  (Utf8.decode? line).bind record?

/-- Two lines are read alike, whatever stands around them. -/
def Alike (line line' : Bytes) : Prop :=
  isUnreadable line = isUnreadable line' ∧ lineRecord? line = lineRecord? line'

theorem alike_concat_return (line : Bytes) : Alike (line ++ [0x0d]) line := by
  have htext (text : List Char) : record? (text ++ ['\r']) = record? text := by
    rw [record?, record?, Record.ofLine, Record.ofLine, Record.dropLineEnds_append (by decide)]
  unfold Alike isUnreadable lineRecord?
  rw [Utf8.decode?_concat_return, Option.isNone_map, Option.bind_map]
  simp only [Function.comp_def, htext, and_self]

theorem alike_dropReturn (line : Bytes) : Alike (dropReturn 0x0d line) line := by
  unfold dropReturn
  split
  · rename_i h
    obtain ⟨front, rfl⟩ := List.getLast?_eq_some_iff.1 (beq_iff_eq.1 h)
    rw [List.dropLast_concat]
    obtain ⟨hunreadable, hrecord⟩ := alike_concat_return front
    exact ⟨hunreadable.symm, hrecord.symm⟩
  · exact ⟨rfl, rfl⟩

/-! ## Reading lines -/

theorem readFrom_cons (number : Nat) (line : Bytes) (rest : List Bytes) :
    readFrom number (line :: rest) =
      if isUnreadable line then .error (.unreadableLine number .notUtf8)
      else ((lineRecord? line).toList ++ ·) <$> readFrom (number + 1) rest := by
  rw [readFrom, isUnreadable, lineRecord?]
  cases Utf8.decode? line with
  | none => rfl
  | some text => cases readFrom (number + 1) rest <;> rfl

theorem readFrom_eq_ok_iff {number : Nat} {lines : List Bytes} {records : List Record} :
    readFrom number lines = .ok records ↔
      (∀ line ∈ lines, isUnreadable line = false) ∧ records = lines.filterMap lineRecord? := by
  induction lines generalizing number records with
  | nil =>
    constructor
    · rintro ⟨⟩
      exact ⟨fun _ h => (List.not_mem_nil h).elim, rfl⟩
    · rintro ⟨-, rfl⟩
      rfl
  | cons line rest ih =>
    rw [readFrom_cons]
    cases hline : isUnreadable line with
    | true => simp [hline]
    | false =>
      simp only [Bool.false_eq_true, if_false, map_eq_ok_iff, ih, List.forall_mem_cons, hline,
        true_and]
      constructor
      · rintro ⟨_, ⟨hrest, rfl⟩, rfl⟩
        refine ⟨hrest, ?_⟩
        rw [List.filterMap_cons]
        cases lineRecord? line <;> rfl
      · rintro ⟨hrest, rfl⟩
        refine ⟨_, ⟨hrest, rfl⟩, ?_⟩
        rw [List.filterMap_cons]
        cases lineRecord? line <;> rfl

theorem readFrom_eq_error_iff {number : Nat} {lines : List Bytes} {e : TraceError} :
    readFrom number lines = .error e ↔
      ∃ i, lines.findIdx? isUnreadable = some i ∧ e = .unreadableLine (number + i) .notUtf8 := by
  induction lines generalizing number with
  | nil => simp [readFrom]
  | cons line rest ih =>
    rw [readFrom_cons, List.findIdx?_cons]
    cases isUnreadable line with
    | true => simp [eq_comm]
    | false =>
      simp only [Bool.false_eq_true, if_false, map_eq_error_iff, ih, Option.map_eq_some_iff]
      constructor
      · rintro ⟨i, hi, rfl⟩
        exact ⟨i + 1, ⟨i, hi, rfl⟩, by rw [Nat.add_assoc, Nat.add_comm 1 i]⟩
      · rintro ⟨_, ⟨i, hi, rfl⟩, rfl⟩
        exact ⟨i, hi, by rw [Nat.add_assoc, Nat.add_comm 1 i]⟩

theorem readFrom_map_append {f : Bytes → Bytes} (hf : ∀ line, Alike (f line) line) (number : Nat)
    (lines others : List Bytes) :
    readFrom number (lines.map f ++ others) = readFrom number (lines ++ others) := by
  induction lines generalizing number with
  | nil => rfl
  | cons line rest ih =>
    simp only [List.map_cons, List.cons_append, readFrom_cons, (hf _).1, (hf _).2, ih]

theorem readFrom_concat_nil (number : Nat) (lines : List Bytes) :
    readFrom number (lines ++ [[]]) = readFrom number lines := by
  induction lines generalizing number with
  | nil => rfl
  | cons line rest ih => simp only [List.cons_append, readFrom_cons, ih]

/-! ## Complete lines -/

/-- The bytes of complete lines. -/
def complete (lines : List Bytes) : Bytes :=
  lines.flatMap (· ++ [0x0a])

theorem complete_cons (line : Bytes) (rest : List Bytes) :
    complete (line :: rest) = line ++ [0x0a] ++ complete rest :=
  List.flatMap_cons

theorem splitOn_complete {lines : List Bytes} (h : ∀ line ∈ lines, 0x0a ∉ line) (rest : Bytes) :
    (complete lines ++ rest).splitOn 0x0a = lines ++ rest.splitOn 0x0a := by
  induction lines with
  | nil => rfl
  | cons line others ih =>
    obtain ⟨hline, hothers⟩ := List.forall_mem_cons.1 h
    rw [complete_cons, List.append_assoc, List.append_assoc, List.singleton_append,
      List.splitOn_append_cons_self_of_not_mem hline, ih hothers, List.cons_append]

/-- A trace is some complete lines, and a last piece without a line feed. -/
theorem exists_complete (data : Bytes) :
    ∃ lines last, (∀ line ∈ lines, 0x0a ∉ line) ∧ 0x0a ∉ last ∧ data = complete lines ++ last := by
  induction data with
  | nil => exact ⟨[], [], fun _ h => (List.not_mem_nil h).elim, List.not_mem_nil, rfl⟩
  | cons b rest ih =>
    obtain ⟨lines, last, hlines, hlast, rfl⟩ := ih
    by_cases hb : b = 0x0a
    · subst hb
      exact ⟨[] :: lines, last, List.forall_mem_cons.2 ⟨List.not_mem_nil, hlines⟩, hlast, rfl⟩
    · -- the byte goes to the front of the first piece
      have hcons {piece : Bytes} (h : 0x0a ∉ piece) : 0x0a ∉ b :: piece :=
        fun hmem => (List.mem_cons.1 hmem).elim (fun he => hb he.symm) h
      cases lines with
      | nil => exact ⟨[], b :: last, hlines, hcons hlast, rfl⟩
      | cons line others =>
        obtain ⟨hline, hothers⟩ := List.forall_mem_cons.1 hlines
        exact ⟨(b :: line) :: others, last, List.forall_mem_cons.2 ⟨hcons hline, hothers⟩, hlast,
          rfl⟩

theorem splitOn_complete_append {lines : List Bytes} {last : Bytes}
    (hlines : ∀ line ∈ lines, 0x0a ∉ line) (hlast : 0x0a ∉ last) :
    (complete lines ++ last).splitOn 0x0a = lines ++ [last] := by
  rw [splitOn_complete hlines, List.splitOn_eq_singleton hlast]

/-- A trace is read as the pieces between its line feeds. -/
theorem read_eq_readFrom (data : Bytes) : read data = readFrom 1 (data.splitOn 0x0a) := by
  obtain ⟨lines, last, hlines, hlast, rfl⟩ := exists_complete data
  have hsplit := splitOn_complete_append hlines hlast
  have hbytes : byteLines (complete lines ++ last) =
      lines.map (dropReturn 0x0d) ++ if last = [] then [] else [last] := by
    unfold byteLines Text.lines
    simp only [hsplit, List.dropLast_concat, List.getLast?_concat]
    cases last <;> rfl
  rw [read, hbytes, readFrom_map_append alike_dropReturn, hsplit]
  split
  · rename_i hnil
    rw [hnil, List.append_nil, readFrom_concat_nil]
  · rfl

/-! ## Line ends -/

/-- With a carriage return before every line feed. -/
def withReturns (data : Bytes) : Bytes :=
  data.flatMap fun b => if b = 0x0a then [0x0d, 0x0a] else [b]

theorem withReturns_append (data data' : Bytes) :
    withReturns (data ++ data') = withReturns data ++ withReturns data' :=
  List.flatMap_append

theorem withReturns_of_not_mem {piece : Bytes} (h : 0x0a ∉ piece) : withReturns piece = piece := by
  unfold withReturns
  induction piece with
  | nil => rfl
  | cons b rest ih =>
    rw [List.mem_cons, not_or] at h
    rw [List.flatMap_cons, if_neg fun he => h.1 he.symm, ih h.2]
    rfl

theorem withReturns_complete {lines : List Bytes} (h : ∀ line ∈ lines, 0x0a ∉ line) :
    withReturns (complete lines) = complete (lines.map (· ++ [0x0d])) := by
  induction lines with
  | nil => rfl
  | cons line rest ih =>
    obtain ⟨hline, hrest⟩ := List.forall_mem_cons.1 h
    rw [complete_cons, withReturns_append, withReturns_append, withReturns_of_not_mem hline,
      ih hrest, List.map_cons, complete_cons]
    simp only [List.append_assoc]
    rfl

theorem read_withReturns (data : Bytes) : read (withReturns data) = read data := by
  obtain ⟨lines, last, hlines, hlast, rfl⟩ := exists_complete data
  have hreturned : ∀ line ∈ lines.map (· ++ [0x0d]), (0x0a : UInt8) ∉ line := by
    intro line hline
    obtain ⟨piece, hpiece, rfl⟩ := List.mem_map.1 hline
    simpa using hlines piece hpiece
  rw [withReturns_append, withReturns_complete hlines, withReturns_of_not_mem hlast,
    read_eq_readFrom, read_eq_readFrom, splitOn_complete_append hreturned hlast,
    splitOn_complete_append hlines hlast,
    readFrom_map_append alike_concat_return]

/-! ## What stands behind complete lines -/

theorem exists_eq_complete {data : Bytes} (h : data = [] ∨ data.getLast? = some 0x0a) :
    ∃ lines, (∀ line ∈ lines, 0x0a ∉ line) ∧ data = complete lines := by
  obtain ⟨lines, last, hlines, hlast, rfl⟩ := exists_complete data
  refine ⟨lines, hlines, ?_⟩
  rcases List.eq_nil_or_concat last with rfl | ⟨front, b, rfl⟩
  · exact List.append_nil _
  · rcases h with h | h
    · simp at h
    · rw [List.concat_eq_append, ← List.append_assoc, List.getLast?_concat] at h
      cases h
      simp at hlast

theorem read_complete_append_eq_ok_iff {lines : List Bytes} (h : ∀ line ∈ lines, 0x0a ∉ line)
    {data : Bytes} {records : List Record} :
    read (complete lines ++ data) = .ok records ↔
      (∀ line ∈ lines, isUnreadable line = false) ∧
        ∃ rest, read data = .ok rest ∧ records = lines.filterMap lineRecord? ++ rest := by
  simp only [read_eq_readFrom, splitOn_complete h, readFrom_eq_ok_iff, List.forall_mem_append,
    List.filterMap_append]
  constructor
  · rintro ⟨⟨hlines, hdata⟩, rfl⟩
    exact ⟨hlines, _, ⟨hdata, rfl⟩, rfl⟩
  · rintro ⟨hlines, _, ⟨hdata, rfl⟩, rfl⟩
    exact ⟨⟨hlines, hdata⟩, rfl⟩

theorem read_complete_eq_ok_iff {lines : List Bytes} (h : ∀ line ∈ lines, 0x0a ∉ line)
    {records : List Record} :
    read (complete lines) = .ok records ↔
      (∀ line ∈ lines, isUnreadable line = false) ∧ records = lines.filterMap lineRecord? := by
  have hnil : read [] = .ok [] := rfl
  rw [← List.append_nil (complete lines), read_complete_append_eq_ok_iff h, hnil]
  simp

theorem lineRecord?_eq_none {line : Bytes} {text : List Char} (h : Utf8.decode? line = some text)
    (hrecord : ∀ r, Record.ofLine text ≠ .ok (some r)) : lineRecord? line = none := by
  rw [lineRecord?, h, Option.bind_some, record?]
  split
  · rename_i r hr
    cases r with
    | none => rfl
    | some r => exact absurd hr (hrecord r)
  · rfl

/-- **Faults of a trace stay local.** A trace that is cut behind a line feed can be read if both
parts can, and then gives the records of the first part and those of the second. If it cannot be
read, the error tells the number of the first line that is not UTF-8, counted in the whole. Lines
that are UTF-8 and hold no record, because they are blank or faulty, make no difference where they
are put in or left out, and neither do carriage returns before the line feeds. -/
theorem faults_stay_local {x : Bytes} (hx : x = [] ∨ x.getLast? = some 0x0a) (y : Bytes) :
    (∀ records, read (x ++ y) = .ok records ↔
      ∃ first rest, read x = .ok first ∧ read y = .ok rest ∧ records = first ++ rest) ∧
    (∀ e, read (x ++ y) = .error e ↔
      ∃ i, ((x ++ y).splitOn 0x0a).findIdx? isUnreadable = some i ∧
        e = .unreadableLine (i + 1) .notUtf8) ∧
    (∀ extra : List Bytes,
      (∀ line ∈ extra, 0x0a ∉ line ∧
        ∃ text, Utf8.decode? line = some text ∧ ∀ r, Record.ofLine text ≠ .ok (some r)) →
      ∀ records, read (x ++ complete extra ++ y) = .ok records ↔ read (x ++ y) = .ok records) ∧
    read (withReturns (x ++ y)) = read (x ++ y) := by
  obtain ⟨lines, hlines, rfl⟩ := exists_eq_complete hx
  refine ⟨fun records => ?_, fun e => ?_, fun extra hextra records => ?_, read_withReturns _⟩
  · simp only [read_complete_append_eq_ok_iff hlines, read_complete_eq_ok_iff hlines]
    constructor
    · rintro ⟨hreadable, rest, hrest, rfl⟩
      exact ⟨_, rest, ⟨hreadable, rfl⟩, hrest, rfl⟩
    · rintro ⟨_, rest, ⟨hreadable, rfl⟩, hrest, rfl⟩
      exact ⟨hreadable, rest, hrest, rfl⟩
  · rw [read_eq_readFrom, readFrom_eq_error_iff]
    simp only [Nat.add_comm 1]
  · have hfeed : ∀ line ∈ extra, 0x0a ∉ line := fun line hline => (hextra line hline).1
    have hreadable : ∀ line ∈ extra, isUnreadable line = false := by
      intro line hline
      obtain ⟨-, text, htext, -⟩ := hextra line hline
      rw [isUnreadable, htext, Option.isNone_some]
    have hnone : extra.filterMap lineRecord? = [] := by
      rw [List.filterMap_eq_nil_iff]
      intro line hline
      obtain ⟨-, text, htext, hrecord⟩ := hextra line hline
      exact lineRecord?_eq_none htext hrecord
    have hskip (rest : List Record) :
        read (complete extra ++ y) = .ok rest ↔ read y = .ok rest := by
      rw [read_complete_append_eq_ok_iff hfeed, hnone]
      constructor
      · rintro ⟨-, _, hrest, rfl⟩
        exact hrest
      · intro hrest
        exact ⟨hreadable, rest, hrest, rfl⟩
    simp only [List.append_assoc, read_complete_append_eq_ok_iff hlines, hskip]

/-- A trace whose last line ends with a carriage return alone, with a faulty and a blank line put
in; and a trace whose third line breaks off within a character. -/
theorem faults_stay_local_broken_off :
    let x := Utf8.ofString "1\t2\n-1\t0\t11\r\n"
    let y := Utf8.ofString "0\t-1\t12\r"
    let extra := [Utf8.ofString "a\tb\tc", [0x0d]]
    let records : List Record :=
      [.call ⟨none, some ⟨0, by decide⟩, 11⟩, .call ⟨some ⟨0, by decide⟩, none, 12⟩]
    x.getLast? = some 0x0a ∧ read (x ++ complete extra ++ y) = .ok records ∧
      read (withReturns (x ++ y)) = .ok records ∧
      read (x ++ (0xe2 :: 0x82 :: 0x0a :: y)) = .error (.unreadableLine 3 .notUtf8) := by
  intro x y extra records
  have hx : x.getLast? = some 0x0a := by decide
  have hread : read (x ++ y) = .ok records := by
    rw [read_eq_readFrom, readFrom_eq_ok_iff]
    decide +kernel
  have hextra : ∀ line ∈ extra, 0x0a ∉ line ∧
      ∃ text, Utf8.decode? line = some text ∧ ∀ r, Record.ofLine text ≠ .ok (some r) := by
    have hfault : Record.ofLine "a\tb\tc".toList = .error (.invalidInteger .caller "a") := by rfl
    have hblank : Record.ofLine ['\r'] = .ok none := by rfl
    simp only [extra, List.forall_mem_cons]
    refine ⟨⟨by decide, _, Utf8.decode?_encode _, ?_⟩,
      ⟨by decide, _, Utf8.decode?_encode ['\r'], ?_⟩, fun _ h => (List.not_mem_nil h).elim⟩
    · intro r
      rw [hfault]
      rintro ⟨⟩
    · intro r
      rw [hblank]
      rintro ⟨⟩
  obtain ⟨-, -, hinsert, hreturns⟩ := faults_stay_local (.inr hx) y
  obtain ⟨-, herror, -⟩ := faults_stay_local (.inr hx) (0xe2 :: 0x82 :: 0x0a :: y)
  refine ⟨hx, (hinsert extra hextra records).2 hread, hreturns.trans hread,
    (herror _).2 ⟨2, ?_, rfl⟩⟩
  decide +kernel

end Trace

end CallTrace
