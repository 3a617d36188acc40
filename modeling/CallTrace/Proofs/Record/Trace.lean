import CallTrace.Proofs.Record.ReadBack

/-!
# Traces are read back

The bytes of a record's line are those of its body and a line feed, and no byte of the body is one
(`Record.encode_eq`, `Record.lineFeed_not_mem`). So the lines of the records written one after the
other are their bodies, and reading the whole gives every record back, in order
(`Trace.read_flatMap_encode`).
-/

namespace CallTrace

open Text

/-! ## Bytes of characters -/

namespace Utf8

/-- A byte below 128 stands for itself: the bytes of all other characters are larger. -/
theorem toNat_of_mem_encodeChar {c : Char} {b : UInt8} (h : b ∈ String.utf8EncodeChar c)
    (hb : b.toNat < 128) : c.toNat = b.toNat := by
  have hc : c.val.toNat = c.toNat := rfl
  unfold String.utf8EncodeChar at h
  simp only [hc] at h
  split at h
  · obtain rfl := List.mem_singleton.1 h
    simp only [UInt8.toNat_ofNat']
    omega
  · -- every byte of a longer form has its highest bit set
    exfalso
    split at h
    · simp only [List.mem_cons, List.not_mem_nil, or_false] at h
      rcases h with rfl | rfl <;> simp only [UInt8.toNat_ofNat'] at hb <;> omega
    · split at h
      · simp only [List.mem_cons, List.not_mem_nil, or_false] at h
        rcases h with rfl | rfl | rfl <;> simp only [UInt8.toNat_ofNat'] at hb <;> omega
      · simp only [List.mem_cons, List.not_mem_nil, or_false] at h
        rcases h with rfl | rfl | rfl | rfl <;> simp only [UInt8.toNat_ofNat'] at hb <;> omega

/-- A text without a character below 128 has no such byte. -/
theorem not_mem_encode {text : List Char} {c : Char} {b : UInt8} (hb : b.toNat < 128)
    (hcb : c.toNat = b.toNat) (h : c ∉ text) : b ∉ encode text := by
  intro hm
  obtain ⟨x, hx, hbx⟩ := List.mem_flatMap.1 hm
  have heq : x.toNat = c.toNat := (toNat_of_mem_encodeChar hbx hb).trans hcb.symm
  exact h (Char.toNat_inj.1 heq ▸ hx)

end Utf8

/-! ## Lines -/

section
variable {α : Type} [BEq α] {lf cr : α}

theorem lines_nil : lines lf cr ([] : List α) = [] := by
  simp [lines]

variable [LawfulBEq α]

/-- The first line is what stands before the first line feed. -/
theorem lines_append_cons {line : List α} (h : lf ∉ line) (rest : List α) :
    lines lf cr (line ++ lf :: rest) = dropReturn cr line :: lines lf cr rest := by
  obtain ⟨piece, pieces, hp⟩ := List.exists_cons_of_ne_nil (List.splitOn_ne_nil lf rest)
  simp [lines, List.splitOn_append_cons_self_of_not_mem h, hp]

theorem dropReturn_of_ne {line : List α} (h : line.getLast? ≠ some cr) :
    dropReturn cr line = line := by
  simp [dropReturn, h]

end

/-! ## Records -/

namespace Record

theorem encode_eq (r : Record) : r.encode = Utf8.encode r.body ++ [0x0a] := by
  rw [encode, toLine_eq, Utf8.encode_append]
  rfl

theorem encode_ne_nil (r : Record) : r.encode ≠ [] := by
  simp [encode_eq]

theorem lineFeed_not_mem (r : Record) : (0x0a : UInt8) ∉ Utf8.encode r.body :=
  Utf8.not_mem_encode (c := '\n') (by decide) (by decide) (not_mem_body (.inl rfl))

theorem getLast?_encode_body (r : Record) : (Utf8.encode r.body).getLast? ≠ some 0x0d := by
  intro h
  exact Utf8.not_mem_encode (c := '\r') (by decide) (by decide) (not_mem_body (.inr rfl))
    (List.mem_of_getLast? h)

theorem byteLines_flatMap_encode (records : List Record) :
    Trace.byteLines (records.flatMap encode) = records.map fun r => Utf8.encode r.body := by
  unfold Trace.byteLines
  induction records with
  | nil => exact lines_nil
  | cons r rest ih =>
    rw [List.flatMap_cons, encode_eq, List.append_assoc, List.singleton_append,
      lines_append_cons r.lineFeed_not_mem, ih, dropReturn_of_ne r.getLast?_encode_body,
      List.map_cons]

end Record

namespace Trace

theorem readFrom_map_encode (records : List Record) (number : Nat) :
    readFrom number (records.map fun r => Utf8.encode r.body)
      = .ok (records.filterMap Record.readBack?) := by
  induction records generalizing number with
  | nil => rfl
  | cons r rest ih =>
    simp only [List.map_cons, readFrom, Utf8.decode?_encode, ih, Record.record?_body, bind,
      Except.bind, pure, Except.pure, List.filterMap_cons]
    cases r.readBack? <;> rfl

/-- **Written records are read back**, all of them and in order. -/
theorem read_flatMap_encode (records : List Record) :
    read (records.flatMap Record.encode) = .ok (records.filterMap Record.readBack?) := by
  rw [read, Record.byteLines_flatMap_encode, readFrom_map_encode]

end Trace

end CallTrace
