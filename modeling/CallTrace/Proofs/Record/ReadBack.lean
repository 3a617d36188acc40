import CallTrace.Proofs.Decimal
import CallTrace.Record.Reader

/-!
# Records are read back

The fields of a record hold no separator and the last one ends with a digit, so its line splits
into these fields again (`Record.splitOn_body`) and is never blank. Reading the fields gives the
record back (`ofFields_call`, `ofFields_definition`): a call as it was, a definition in the form
`Definition.readBack`, and no record for a definition without an id (`Record.ofLine_body`).
-/

namespace CallTrace

open Text

/-! ## What is read -/

/-- A definition as it comes back from its line: separators in its texts are spaces, and a name
that ends like that of a constructor is taken for one. -/
def Definition.readBack (d : Definition) : Definition :=
  let name := sanitize d.name.toList
  let unmarked := !d.isConstructor && constructorSuffix.isSuffixOf d.name.toList
  { d with
    name := String.ofList
      (if unmarked then name.take (name.length - constructorSuffix.length) else name)
    isConstructor := d.isConstructor || unmarked
    path := String.ofList (sanitize d.path.toList) }

/-- A record as it comes back from its line, unless it is a definition without an id. -/
def Record.readBack? : Record → Option Record
  | .definition d => if d.id.isSome then some (.definition d.readBack) else none
  | .call c => some (.call c)

/-- The fields of a record's line. -/
def Record.fields : Record → List (List Char)
  | .definition d => d.fields
  | .call c => c.fields

/-- The line of a record without its end. -/
def Record.body (r : Record) : List Char :=
  ['\t'].intercalate r.fields

theorem Record.toLine_eq (r : Record) : r.toLine = r.body ++ ['\n'] := by
  cases r <;> rfl

/-! ## Sanitized text -/

/-- The characters that would end a field or a line. -/
def separators : List Char := ['\t', '\n', '\r']

theorem sanitizeChar_eq (c : Char) : sanitizeChar c = c ∨ sanitizeChar c = ' ' := by
  unfold sanitizeChar
  split
  · exact .inr rfl
  · exact .inl rfl

theorem not_mem_sanitize {c : Char} (hc : c ∈ separators) (text : List Char) :
    c ∉ sanitize text := by
  intro h
  obtain ⟨x, -, rfl⟩ := List.mem_map.1 h
  unfold sanitizeChar at hc
  split at hc
  · simp [separators] at hc
  · simp_all [separators]

/-- Sanitizing neither makes nor breaks the mark of a constructor, which has no space. -/
theorem isSuffixOf_sanitize (text : List Char) :
    constructorSuffix.isSuffixOf (sanitize text) = constructorSuffix.isSuffixOf text := by
  rw [Bool.eq_iff_iff, List.isSuffixOf_iff_suffix, List.isSuffixOf_iff_suffix]
  constructor
  · rintro ⟨front, h⟩
    obtain ⟨l₁, l₂, rfl, -, h₂⟩ := List.map_eq_append_iff.1 h.symm
    have hfix : ∀ c ∈ l₂, sanitizeChar c = c := by
      intro c hc
      have hm : sanitizeChar c ∈ constructorSuffix := h₂ ▸ List.mem_map_of_mem hc
      rcases sanitizeChar_eq c with h | h
      · exact h
      · rw [h] at hm; exact absurd hm (by decide)
    rw [← h₂, List.map_congr_left hfix, List.map_id']
    exact List.suffix_append _ _
  · intro h
    have hs : sanitize constructorSuffix = constructorSuffix := by decide
    rw [← hs]
    exact h.map sanitizeChar

/-! ## Splitting a line -/

theorem mem_intercalate {sep x : Char} {ls : List (List Char)} (h : x ∈ [sep].intercalate ls) :
    x = sep ∨ ∃ l ∈ ls, x ∈ l := by
  induction ls with
  | nil => simp at h
  | cons l rest ih =>
    cases rest with
    | nil => exact .inr ⟨l, List.mem_cons_self, by simpa using h⟩
    | cons l' rest =>
      rw [List.intercalate_cons_cons, List.mem_append, List.mem_append] at h
      rcases h with (h | h) | h
      · exact .inr ⟨l, List.mem_cons_self, h⟩
      · exact .inl (by simpa using h)
      · rcases ih h with h | ⟨l₂, hl, h⟩
        · exact .inl h
        · exact .inr ⟨l₂, List.mem_cons_of_mem _ hl, h⟩

theorem intercalate_concat (sep : List Char) (ls : List (List Char)) (l : List Char) :
    ∃ front, sep.intercalate (ls ++ [l]) = front ++ l := by
  induction ls with
  | nil => exact ⟨[], by simp⟩
  | cons x rest ih =>
    obtain ⟨front, h⟩ := ih
    refine ⟨x ++ sep ++ front, ?_⟩
    rw [List.cons_append, List.intercalate_cons_of_ne_nil (by simp), h, ← List.append_assoc]

/-- What a text is split into are parts of it without a separator. -/
theorem spec_of_mem_splitOn {α : Type} [BEq α] [LawfulBEq α] {sep : α} {text part : List α}
    (h : part ∈ text.splitOn sep) : sep ∉ part ∧ part ⊆ text := by
  induction text generalizing part with
  | nil =>
    rw [List.splitOn_nil, List.mem_singleton] at h
    subst h
    exact ⟨List.not_mem_nil, List.Subset.refl _⟩
  | cons x rest ih =>
    rw [List.splitOn_cons_eq_if_modifyHead] at h
    split at h
    · rcases List.mem_cons.1 h with rfl | h
      · exact ⟨List.not_mem_nil, List.nil_subset _⟩
      · exact ⟨(ih h).1, List.subset_cons_of_subset x (ih h).2⟩
    · rename_i hx
      -- `x` goes to the front of the first part
      obtain ⟨first, others, hsplit⟩ := List.exists_cons_of_ne_nil (List.splitOn_ne_nil sep rest)
      rw [hsplit] at h ih
      rcases List.mem_cons.1 h with rfl | h
      · obtain ⟨hnot, hsub⟩ := ih List.mem_cons_self
        refine ⟨?_, List.cons_subset_cons x hsub⟩
        rw [List.mem_cons, not_or]
        exact ⟨fun he => hx (beq_iff_eq.2 he.symm), hnot⟩
      · obtain ⟨hnot, hsub⟩ := ih (List.mem_cons_of_mem _ h)
        exact ⟨hnot, List.subset_cons_of_subset x hsub⟩

theorem Record.not_mem_of_mem_fields {r : Record} {c : Char} (hc : c ∈ separators)
    {field : List Char} (hf : field ∈ r.fields) : c ∉ field := by
  have hnum : ∀ value, c ∉ Decimal.ofInt64 value := fun value =>
    Decimal.not_mem_ofInt64 (by rintro rfl; exact absurd hc (by decide))
      (by simp only [separators, List.mem_cons, List.not_mem_nil, or_false] at hc
          rcases hc with rfl | rfl | rfl <;> rfl)
  have hsuffix : c ∉ constructorSuffix := by
    simp only [separators, List.mem_cons, List.not_mem_nil, or_false] at hc
    rcases hc with rfl | rfl | rfl <;> decide
  cases r with
  | definition d =>
    have hname : c ∉ d.nameField := by
      unfold Definition.nameField
      split <;> simp [not_mem_sanitize hc, hsuffix]
    simp only [fields, Definition.fields, List.mem_cons, List.not_mem_nil, or_false] at hf
    rcases hf with rfl | rfl | rfl | rfl | rfl | rfl | rfl | rfl | rfl <;>
      first
        | exact hnum _
        | exact hname
        | exact not_mem_sanitize hc _
  | call call =>
    simp only [fields, Call.fields, List.mem_cons, List.not_mem_nil, or_false] at hf
    rcases hf with rfl | rfl | rfl <;> exact hnum _

theorem Record.splitOn_body (r : Record) : r.body.splitOn '\t' = r.fields :=
  List.splitOn_intercalate '\t' (fun _ hf => r.not_mem_of_mem_fields (by decide) hf)
    (by cases r <;> exact List.cons_ne_nil _ _)

/-- A line ends right after its body. -/
theorem Record.not_mem_body {r : Record} {c : Char} (hc : c = '\n' ∨ c = '\r') : c ∉ r.body := by
  intro h
  rcases mem_intercalate h with h | ⟨field, hf, h⟩
  · rcases hc with rfl | rfl <;> exact absurd h (by decide)
  · exact r.not_mem_of_mem_fields (by rcases hc with rfl | rfl <;> decide) hf h

/-- A line ends with the digits of its timestamp. -/
theorem Record.body_eq_concat (r : Record) :
    ∃ front last, r.body = front ++ [last] ∧ last.isDigit = true := by
  obtain ⟨init, value, h⟩ : ∃ init value, r.fields = init ++ [Decimal.ofInt64 value] := by
    cases r with
    | definition d => exact ⟨d.fields.dropLast, d.timestamp, rfl⟩
    | call c => exact ⟨c.fields.dropLast, c.timestamp, rfl⟩
  obtain ⟨front, hfront⟩ := intercalate_concat ['\t'] init (Decimal.ofInt64 value)
  obtain ⟨digits, last, hdigits, hlast⟩ := Decimal.ofInt64_eq_concat value
  refine ⟨front ++ digits, last, ?_, hlast⟩
  rw [body, h, hfront, hdigits, List.append_assoc]

/-! ## Reading the fields -/

theorem FunctionId.toInt_wire (id : FunctionId) : (wire (some id)).toInt = id.val := by
  have hlt : id.val < 4294967295 := id.isLt
  exact Int64.toInt_ofNat_of_lt (by omega)

theorem FunctionId.ofWire?_wire (id : Option FunctionId) : ofWire? (wire id) = some id := by
  cases id with
  | none => rfl
  | some id =>
    have hint := id.toInt_wire
    have hneg : ¬ wire (some id) < 0 := by
      rw [Int64.lt_iff_toInt_lt, hint, Int64.toInt_zero]
      omega
    simp only [ofWire?, hneg, ↓reduceIte, hint, Int.toNat_natCast, ofRaw?, id.isLt, ↓reduceDIte]

namespace Record

theorem readInt64_ofInt64 (field : NumberField) (value : Int64) :
    readInt64 field (Decimal.ofInt64 value) = .ok value := by
  rw [readInt64, Decimal.readInt64?_ofInt64]

theorem readInt32_ofInt64 (field : NumberField) (value : Int32) :
    readInt32 field (Decimal.ofInt64 value.toInt64) = .ok value := by
  rw [readInt32, Decimal.readInt32?_ofInt64]

theorem readId_wire (field : NumberField) (id : Option FunctionId) :
    readId field (Decimal.ofInt64 (FunctionId.wire id)) = .ok id := by
  simp only [readId, readInt64_ofInt64, bind, Except.bind, FunctionId.ofWire?_wire]

theorem readDefinitionId_wire (id : FunctionId) :
    readDefinitionId (Decimal.ofInt64 (FunctionId.wire (some id))) = .ok id := by
  simp only [readDefinitionId, readId_wire, bind, Except.bind]

theorem splitName_nameField (d : Definition) :
    splitName d.nameField = (d.readBack.name.toList, d.readBack.isConstructor) := by
  unfold splitName Definition.nameField Definition.readBack beforeTail?
  cases hc : d.isConstructor with
  | true =>
    have hs : constructorSuffix.isSuffixOf (sanitize d.name.toList ++ constructorSuffix) = true :=
      List.isSuffixOf_iff_suffix.2 (List.suffix_append _ _)
    simp [hs]
  | false =>
    simp only [Bool.false_eq_true, ↓reduceIte, List.append_nil, isSuffixOf_sanitize]
    cases constructorSuffix.isSuffixOf d.name.toList <;> simp

theorem ofFields_call (c : Call) : ofFields c.fields = .ok (.call c) := by
  simp only [ofFields, Call.fields, readCall, readId_wire, readInt64_ofInt64, bind, Except.bind]
  rfl

theorem ofFields_definition (d : Definition) :
    ofFields d.fields =
      if d.id.isSome then .ok (.definition d.readBack) else .error (.invalidId (-1)) := by
  cases h : d.id with
  | none =>
    simp only [ofFields, Definition.fields, h, readDefinition, readDefinitionId, readId_wire, bind,
      Except.bind]
    rfl
  | some id =>
    simp only [ofFields, Definition.fields, h, readDefinition, readDefinitionId_wire,
      readInt32_ofInt64, readInt64_ofInt64, splitName_nameField, bind, Except.bind]
    simp [Definition.readBack, h]
    rfl

/-! ## Reading the line -/

theorem dropLineEnds_concat {text : List Char} {c : Char} (h : isLineEnd c = false) :
    dropLineEnds (text ++ [c]) = text ++ [c] := by
  simp [dropLineEnds, h]

/-- A written record is no blank line, and its fields are read. -/
theorem ofLine_body (r : Record) : ofLine r.body = some <$> ofFields r.fields := by
  obtain ⟨front, last, hbody, hlast⟩ := r.body_eq_concat
  have hend : isLineEnd last = false := by
    unfold isLineEnd
    rw [decide_eq_false_iff_not]
    rintro (rfl | rfl) <;> exact absurd hlast (by decide)
  have hblank : isBlank last = false := isBlank_of_isDigit hlast
  have hdrop : dropLineEnds r.body = r.body := by
    rw [hbody, dropLineEnds_concat hend]
  have hall : r.body.all isBlank = false := by
    rw [hbody, List.all_append, List.all_cons, hblank, Bool.false_and, Bool.and_false]
  simp only [ofLine, hdrop, hall, Bool.false_eq_true, ↓reduceIte, splitOn_body]

theorem record?_body (r : Record) : Trace.record? r.body = r.readBack? := by
  unfold Trace.record?
  rw [ofLine_body]
  cases r with
  | definition d =>
    simp only [fields, ofFields_definition, readBack?]
    cases d.id.isSome <;> rfl
  | call c =>
    simp only [fields, ofFields_call, readBack?]
    rfl

end Record

end CallTrace
