import CallTrace.Proofs.Record.ReadBack

/-!
# The grammar of a line

What a line says, told without its reader: which fields make up a call (`CallFields`) or a
definition (`DefinitionFields`), and what is wrong with the fields of all other lines
(`Column.Refuses`). The reader of a field gives what the field says, or what is wrong with it. A
line is read field by field, so its fault is that of the leftmost faulty field (`FirstFault`,
`FirstFault.bind_eq_error_iff`). Together they tell what becomes of every line
(`Record.ofLine_by_grammar`).
-/

namespace CallTrace

open Text Decimal

/-! ## What fields say -/

/-- A field refers to a function by its number. A negative number, and the largest one of 32 bits,
refer to none. -/
inductive ReferenceField : List Char → Option FunctionId → Prop
  | none {text : List Char} {n : Int64} (h : Denotes text n.toInt)
      (hn : n.toInt < 0 ∨ n.toInt = 4294967295) : ReferenceField text none
  | some {text : List Char} (id : FunctionId) (h : Denotes text id.val) :
      ReferenceField text (some id)

/-- A field holds a name, and behind that of a constructor its mark. The name of another function
has no mark to lose. -/
structure NameField (text : List Char) (name : String) (isConstructor : Bool) : Prop where
  text_eq : text = name.toList ++ if isConstructor then constructorSuffix else []
  isConstructor_of_suffix : constructorSuffix <:+ text → isConstructor = true

/-- Three fields that make up a call. -/
inductive CallFields : List (List Char) → Call → Prop
  | mk {caller callee timestamp : List Char} {c : Call} (hcaller : ReferenceField caller c.caller)
      (hcallee : ReferenceField callee c.callee)
      (htimestamp : Denotes timestamp c.timestamp.toInt) :
      CallFields [caller, callee, timestamp] c

/-- Nine fields that make up a definition. -/
inductive DefinitionFields : List (List Char) → Definition → Prop
  | mk {id name line column fileIndex positionStart positionEnd path timestamp : List Char}
      {d : Definition} {i : FunctionId} (hid : Denotes id i.val) (hsome : d.id = some i)
      (hname : NameField name d.name d.isConstructor) (hline : Denotes line d.line.toInt)
      (hcolumn : Denotes column d.column.toInt) (hfileIndex : Denotes fileIndex d.fileIndex.toInt)
      (hpositionStart : Denotes positionStart d.positionStart.toInt)
      (hpositionEnd : Denotes positionEnd d.positionEnd.toInt) (hpath : path = d.path.toList)
      (htimestamp : Denotes timestamp d.timestamp.toInt) :
      DefinitionFields
        [id, name, line, column, fileIndex, positionStart, positionEnd, path, timestamp] d

/-! ## What is wrong with fields -/

/-- What a field is to hold. -/
inductive Column where
  | int32 (field : NumberField)
  | int64 (field : NumberField)
  /-- The number of a function, or of none. -/
  | reference (field : NumberField)
  /-- The number of the function that is defined. -/
  | id
  | text

/-- What is wrong with a field of a column. Nothing is wrong with a text. -/
inductive Column.Refuses : Column → List Char → LineError → Prop
  | int32 {field : NumberField} {text : List Char} (h : ∀ n : Int32, ¬Denotes text n.toInt) :
      Refuses (int32 field) text (.invalidInteger field (String.ofList text))
  | int64 {field : NumberField} {text : List Char} (h : ∀ n : Int64, ¬Denotes text n.toInt) :
      Refuses (int64 field) text (.invalidInteger field (String.ofList text))
  | reference {field : NumberField} {text : List Char} {fault : LineError}
      (h : Refuses (int64 field) text fault) : Refuses (reference field) text fault
  | tooLarge {field : NumberField} {text : List Char} {n : Int64} (h : Denotes text n.toInt)
      (hn : 4294967295 < n.toInt) : Refuses (reference field) text (.invalidId n)
  | id {text : List Char} {fault : LineError} (h : Refuses (reference .id) text fault) :
      Refuses id text fault
  | missing {text : List Char} (h : ReferenceField text none) : Refuses id text (.invalidId (-1))

/-- What is wrong with the leftmost field that is not what its column asks for. -/
inductive FirstFault : List Column → List (List Char) → LineError → Prop
  | here {column : Column} {columns : List Column} {field : List Char} {fields : List (List Char)}
      {fault : LineError} (h : column.Refuses field fault) :
      FirstFault (column :: columns) (field :: fields) fault
  | later {column : Column} {columns : List Column} {field : List Char} {fields : List (List Char)}
      {fault : LineError} (hfield : ∀ fault, ¬column.Refuses field fault)
      (h : FirstFault columns fields fault) : FirstFault (column :: columns) (field :: fields) fault

/-- The columns of a call. -/
def callColumns : List Column :=
  [.reference .caller, .reference .callee, .int64 .timestamp]

/-- The columns of a definition. -/
def definitionColumns : List Column :=
  [.id, .text, .int32 .line, .int32 .column, .int32 .fileIndex, .int32 .positionStart,
    .int32 .positionEnd, .text, .int64 .timestamp]

/-! ## Readers in a row -/

section
variable {ε α β : Type} {x : Except ε α} {b : β} {e : ε}

theorem bind_eq_ok_iff {f : α → Except ε β} :
    x >>= f = .ok b ↔ ∃ a, x = .ok a ∧ f a = .ok b := by
  cases x with
  | error e => simp [bind, Except.bind]
  | ok a => simp [bind, Except.bind]

theorem bind_eq_error_iff {f : α → Except ε β} :
    x >>= f = .error e ↔ x = .error e ∨ ∃ a, x = .ok a ∧ f a = .error e := by
  cases x with
  | error e' => simp [bind, Except.bind]
  | ok a => simp [bind, Except.bind]

theorem map_eq_ok_iff {f : α → β} : f <$> x = .ok b ↔ ∃ a, x = .ok a ∧ f a = b := by
  cases x with
  | error e => simp [Functor.map, Except.map]
  | ok a => simp [Functor.map, Except.map]

theorem map_eq_error_iff {f : α → β} : f <$> x = .error e ↔ x = .error e := by
  cases x with
  | error e' => simp [Functor.map, Except.map]
  | ok a => simp [Functor.map, Except.map]

theorem elim_eq_ok_iff {o : Option α} {a : α} :
    o.elim (.error e) Except.ok = .ok a ↔ o = some a := by
  cases o with
  | none => simp
  | some a' => simp

theorem elim_eq_error_iff {o : Option α} {e' : ε} :
    o.elim (.error e) Except.ok = .error e' ↔ (∀ a, o ≠ some a) ∧ e = e' := by
  cases o with
  | none => simp
  | some a => simp

end

/-! ## Reading fields -/

/-- A written value refers to no function, to one, or is too large to refer to anything. -/
theorem FunctionId.ofWire?_cases (n : Int64) :
    ((n.toInt < 0 ∨ n.toInt = 4294967295) ∧ ofWire? n = some none) ∨
      (∃ id : FunctionId, n.toInt = id.val ∧ ofWire? n = some (some id)) ∨
      4294967295 < n.toInt ∧ ofWire? n = none := by
  have hzero : n < 0 ↔ n.toInt < 0 := Int64.lt_iff_toInt_lt
  by_cases hneg : n.toInt < 0
  · exact .inl ⟨.inl hneg, if_pos (hzero.2 hneg)⟩
  · obtain ⟨raw, hraw⟩ := Int.eq_ofNat_of_zero_le (Int.not_lt.1 hneg)
    have hread : ofWire? n = ofRaw? raw := by
      rw [ofWire?, if_neg (mt hzero.1 hneg), hraw]
      rfl
    rw [hread, hraw]
    unfold ofRaw?
    split
    · rename_i hlt
      exact .inr (.inl ⟨⟨raw, hlt⟩, rfl, rfl⟩)
    · rename_i hle
      unfold limit at hle ⊢
      split
      · exact .inl ⟨.inr (by omega), rfl⟩
      · exact .inr (.inr ⟨by omega, rfl⟩)

theorem FunctionId.ofWire?_eq_none_iff {n : Int64} : ofWire? n = none ↔ 4294967295 < n.toInt := by
  rcases ofWire?_cases n with ⟨hnone, hread⟩ | ⟨i, hval, hread⟩ | ⟨hlarge, hread⟩
  · rw [hread]
    exact iff_of_false nofun (by omega)
  · have hlt : i.val < 4294967295 := i.isLt
    rw [hread]
    exact iff_of_false nofun (by omega)
  · rw [hread]
    exact iff_of_true rfl hlarge

theorem FunctionId.ofWire?_eq_some_none_iff {n : Int64} :
    ofWire? n = some none ↔ n.toInt < 0 ∨ n.toInt = 4294967295 := by
  rcases ofWire?_cases n with ⟨hnone, hread⟩ | ⟨i, hval, hread⟩ | ⟨hlarge, hread⟩
  · rw [hread]
    exact iff_of_true rfl hnone
  · have hlt : i.val < 4294967295 := i.isLt
    rw [hread]
    exact iff_of_false nofun (by omega)
  · rw [hread]
    exact iff_of_false nofun (by omega)

theorem FunctionId.ofWire?_eq_some_some_iff {n : Int64} {id : FunctionId} :
    ofWire? n = some (some id) ↔ n.toInt = id.val := by
  constructor
  · intro h
    rcases ofWire?_cases n with ⟨-, hread⟩ | ⟨i, hval, hread⟩ | ⟨-, hread⟩
    · rw [hread] at h
      cases h
    · rw [hread] at h
      cases h
      exact hval
    · rw [hread] at h
      cases h
  · intro h
    have hwire : n = wire (some id) := Int64.toInt_inj.1 (h.trans (toInt_wire id).symm)
    rw [hwire, ofWire?_wire]

namespace Record

section
variable {field : NumberField} {text : List Char}

theorem readInt64_eq_elim :
    readInt64 field text =
      (Decimal.readInt64? text).elim (.error (.invalidInteger field (String.ofList text))) .ok := by
  unfold readInt64
  cases Decimal.readInt64? text <;> rfl

theorem readInt32_eq_elim :
    readInt32 field text =
      (Decimal.readInt32? text).elim (.error (.invalidInteger field (String.ofList text))) .ok := by
  unfold readInt32
  cases Decimal.readInt32? text <;> rfl

theorem readInt64_eq_ok_iff {n : Int64} : readInt64 field text = .ok n ↔ Denotes text n.toInt := by
  rw [readInt64_eq_elim, elim_eq_ok_iff, readInt64?_eq_some_iff]

theorem readInt32_eq_ok_iff {n : Int32} : readInt32 field text = .ok n ↔ Denotes text n.toInt := by
  rw [readInt32_eq_elim, elim_eq_ok_iff, readInt32?_eq_some_iff]

theorem readId_eq_elim :
    readId field text = readInt64 field text >>= fun n =>
      (FunctionId.ofWire? n).elim (.error (.invalidId n)) .ok := by
  unfold readId
  congr 1
  funext n
  cases FunctionId.ofWire? n <;> rfl

theorem readId_eq_ok_iff {id : Option FunctionId} :
    readId field text = .ok id ↔ ReferenceField text id := by
  simp only [readId_eq_elim, bind_eq_ok_iff, readInt64_eq_ok_iff, elim_eq_ok_iff]
  constructor
  · rintro ⟨n, hn, h⟩
    cases id with
    | none => exact .none hn (FunctionId.ofWire?_eq_some_none_iff.1 h)
    | some id => exact .some id (FunctionId.ofWire?_eq_some_some_iff.1 h ▸ hn)
  · intro h
    cases h with
    | none hn hnone => exact ⟨_, hn, FunctionId.ofWire?_eq_some_none_iff.2 hnone⟩
    | some id hid =>
      refine ⟨FunctionId.wire (some id), ?_, FunctionId.ofWire?_wire _⟩
      rw [FunctionId.toInt_wire]
      exact hid

theorem readDefinitionId_eq_ok_iff {id : FunctionId} :
    readDefinitionId text = .ok id ↔ Denotes text id.val := by
  unfold readDefinitionId
  rw [bind_eq_ok_iff]
  constructor
  · rintro ⟨i, hi, h⟩
    cases i with
    | none => cases h
    | some i =>
      cases h
      cases readId_eq_ok_iff.1 hi with
      | some _ hdenotes => exact hdenotes
  · intro h
    exact ⟨some id, readId_eq_ok_iff.2 (.some id h), rfl⟩

theorem readInt64_eq_error_iff {fault : LineError} :
    readInt64 field text = .error fault ↔ (Column.int64 field).Refuses text fault := by
  simp only [readInt64_eq_elim, elim_eq_error_iff, ne_eq, readInt64?_eq_some_iff]
  constructor
  · rintro ⟨hnone, rfl⟩
    exact .int64 hnone
  · intro h
    cases h with
    | int64 hnone => exact ⟨hnone, rfl⟩

theorem readInt32_eq_error_iff {fault : LineError} :
    readInt32 field text = .error fault ↔ (Column.int32 field).Refuses text fault := by
  simp only [readInt32_eq_elim, elim_eq_error_iff, ne_eq, readInt32?_eq_some_iff]
  constructor
  · rintro ⟨hnone, rfl⟩
    exact .int32 hnone
  · intro h
    cases h with
    | int32 hnone => exact ⟨hnone, rfl⟩

theorem readId_eq_error_iff {fault : LineError} :
    readId field text = .error fault ↔ (Column.reference field).Refuses text fault := by
  simp only [readId_eq_elim, bind_eq_error_iff, readInt64_eq_error_iff, readInt64_eq_ok_iff,
    elim_eq_error_iff, ← Option.eq_none_iff_forall_ne_some, FunctionId.ofWire?_eq_none_iff]
  constructor
  · rintro (h | ⟨n, hn, hlarge, rfl⟩)
    · exact .reference h
    · exact .tooLarge hn hlarge
  · intro h
    cases h with
    | reference h => exact .inl h
    | tooLarge hn hlarge => exact .inr ⟨_, hn, hlarge, rfl⟩

theorem readDefinitionId_eq_error_iff {fault : LineError} :
    readDefinitionId text = .error fault ↔ Column.id.Refuses text fault := by
  unfold readDefinitionId
  rw [bind_eq_error_iff]
  constructor
  · rintro (h | ⟨i, hi, h⟩)
    · exact .id (readId_eq_error_iff.1 h)
    · cases i with
      | none =>
        cases h
        exact .missing (readId_eq_ok_iff.1 hi)
      | some i => cases h
  · intro h
    cases h with
    | id h => exact .inl (readId_eq_error_iff.2 h)
    | missing h => exact .inr ⟨none, readId_eq_ok_iff.2 h, rfl⟩

end

theorem nameField_splitName (text : List Char) :
    NameField text (String.ofList (splitName text).1) (splitName text).2 := by
  unfold splitName beforeTail?
  by_cases hsuffix : constructorSuffix.isSuffixOf text = true
  · obtain ⟨stem, rfl⟩ := List.isSuffixOf_iff_suffix.1 hsuffix
    simp only [hsuffix, if_true]
    exact ⟨by simp, fun _ => rfl⟩
  · simp only [hsuffix, Bool.false_eq_true, if_false]
    exact ⟨by simp, fun h => absurd (List.isSuffixOf_iff_suffix.2 h) hsuffix⟩

end Record

/-- A name field has one reading. -/
theorem NameField.unique {text : List Char} {name name' : String} {c c' : Bool}
    (h : NameField text name c) (h' : NameField text name' c') : name = name' ∧ c = c' := by
  have hmarked {name : String} (h : NameField text name true) : constructorSuffix <:+ text :=
    ⟨name.toList, h.text_eq.symm⟩
  obtain rfl : c = c' := by
    cases c with
    | true => exact (h'.isConstructor_of_suffix (hmarked h)).symm
    | false =>
      cases c' with
      | true => exact h.isConstructor_of_suffix (hmarked h')
      | false => rfl
  refine ⟨?_, rfl⟩
  have heq := h.text_eq.symm.trans h'.text_eq
  rw [List.append_left_inj] at heq
  exact String.toList_inj.1 heq

/-! ## The first fault -/

namespace FirstFault

variable {columns : List Column} {field : List Char} {fields : List (List Char)}
  {fault : LineError}

theorem cons_text_iff :
    FirstFault (.text :: columns) (field :: fields) fault ↔ FirstFault columns fields fault := by
  constructor
  · intro h
    cases h with
    | here h => cases h
    | later _ h => exact h
  · intro h
    refine .later (fun _ h => ?_) h
    cases h

/-- A reader that reads a field first fails with the fault of the field, or else as it fails with
the other fields. -/
theorem bind_eq_error_iff {α β : Type} {column : Column} {x : Except LineError α}
    {f : α → Except LineError β}
    (hx : ∀ {fault}, x = .error fault ↔ column.Refuses field fault)
    (hf : ∀ a, f a = .error fault ↔ FirstFault columns fields fault) :
    x >>= f = .error fault ↔ FirstFault (column :: columns) (field :: fields) fault := by
  rw [CallTrace.bind_eq_error_iff]
  constructor
  · rintro (h | ⟨a, ha, h⟩)
    · exact .here (hx.1 h)
    · refine .later (fun fault' hrefused => ?_) ((hf a).1 h)
      rw [hx.2 hrefused] at ha
      cases ha
  · intro h
    cases h with
    | here h => exact .inl (hx.2 h)
    | later hfield h =>
      cases hread : x with
      | error e => exact absurd (hx.1 hread) (hfield e)
      | ok a => exact .inr ⟨a, rfl, (hf a).2 h⟩

theorem not_nil : ¬FirstFault [] [] fault := by
  rintro ⟨⟩

end FirstFault

/-! ## Reading lines -/

namespace Record

theorem readCall_eq_ok_iff {caller callee timestamp : List Char} {c : Call} :
    readCall caller callee timestamp = .ok c ↔ CallFields [caller, callee, timestamp] c := by
  unfold readCall
  simp only [bind_eq_ok_iff, readId_eq_ok_iff, readInt64_eq_ok_iff]
  constructor
  · rintro ⟨a, ha, b, hb, t, ht, h⟩
    cases h
    exact .mk ha hb ht
  · rintro ⟨ha, hb, ht⟩
    exact ⟨_, ha, _, hb, _, ht, rfl⟩

theorem readCall_eq_error_iff {caller callee timestamp : List Char} {fault : LineError} :
    readCall caller callee timestamp = .error fault ↔
      FirstFault callColumns [caller, callee, timestamp] fault := by
  unfold readCall callColumns
  refine FirstFault.bind_eq_error_iff readId_eq_error_iff fun caller => ?_
  refine FirstFault.bind_eq_error_iff readId_eq_error_iff fun callee => ?_
  refine FirstFault.bind_eq_error_iff readInt64_eq_error_iff fun timestamp => ?_
  exact iff_of_false (fun h => by cases h) FirstFault.not_nil

section
variable {id name line column fileIndex positionStart positionEnd path timestamp : List Char}

theorem readDefinition_eq_ok_iff {d : Definition} :
    readDefinition id name line column fileIndex positionStart positionEnd path timestamp = .ok d ↔
      DefinitionFields
        [id, name, line, column, fileIndex, positionStart, positionEnd, path, timestamp] d := by
  unfold readDefinition
  simp only [bind_eq_ok_iff, readDefinitionId_eq_ok_iff, readInt32_eq_ok_iff, readInt64_eq_ok_iff]
  constructor
  · rintro ⟨_, hid, _, hline, _, hcolumn, _, hfileIndex, _, hstart, _, hend, _, htimestamp, h⟩
    cases h
    exact .mk hid rfl (nameField_splitName name) hline hcolumn hfileIndex hstart hend
      String.toList_ofList.symm htimestamp
  · intro h
    cases h with
    | mk hid hsome hname hline hcolumn hfileIndex hstart hend hpath htimestamp =>
      refine ⟨_, hid, _, hline, _, hcolumn, _, hfileIndex, _, hstart, _, hend, _, htimestamp, ?_⟩
      obtain ⟨hn, hc⟩ := (nameField_splitName name).unique hname
      obtain ⟨_, _, _, _, _, _, _, _, _, _⟩ := d
      dsimp only at *
      subst hsome hn hc hpath
      simp [pure, Except.pure]

theorem readDefinition_eq_error_iff {fault : LineError} :
    readDefinition id name line column fileIndex positionStart positionEnd path timestamp =
        .error fault ↔
      FirstFault definitionColumns
        [id, name, line, column, fileIndex, positionStart, positionEnd, path, timestamp]
        fault := by
  unfold readDefinition definitionColumns
  refine FirstFault.bind_eq_error_iff readDefinitionId_eq_error_iff fun id => ?_
  rw [FirstFault.cons_text_iff]
  refine FirstFault.bind_eq_error_iff readInt32_eq_error_iff fun line => ?_
  refine FirstFault.bind_eq_error_iff readInt32_eq_error_iff fun column => ?_
  refine FirstFault.bind_eq_error_iff readInt32_eq_error_iff fun fileIndex => ?_
  refine FirstFault.bind_eq_error_iff readInt32_eq_error_iff fun positionStart => ?_
  refine FirstFault.bind_eq_error_iff readInt32_eq_error_iff fun positionEnd => ?_
  rw [FirstFault.cons_text_iff]
  refine FirstFault.bind_eq_error_iff readInt64_eq_error_iff fun timestamp => ?_
  exact iff_of_false (fun h => by cases h) FirstFault.not_nil

end

section
variable {fields : List (List Char)}

theorem ofFields_eq_call_iff {c : Call} :
    ofFields fields = .ok (.call c) ↔ CallFields fields c := by
  unfold ofFields
  split
  · rw [map_eq_ok_iff]
    constructor
    · rintro ⟨_, -, ⟨⟩⟩
    · rintro ⟨⟩
  · rw [map_eq_ok_iff, ← readCall_eq_ok_iff]
    constructor
    · rintro ⟨_, hread, ⟨⟩⟩
      exact hread
    · intro hread
      exact ⟨c, hread, rfl⟩
  · rename_i hshape
    constructor
    · rintro ⟨⟩
    · rintro ⟨⟩
      exact absurd rfl (hshape _ _ _)

theorem ofFields_eq_definition_iff {d : Definition} :
    ofFields fields = .ok (.definition d) ↔ DefinitionFields fields d := by
  unfold ofFields
  split
  · rw [map_eq_ok_iff, ← readDefinition_eq_ok_iff]
    constructor
    · rintro ⟨_, hread, ⟨⟩⟩
      exact hread
    · intro hread
      exact ⟨d, hread, rfl⟩
  · rw [map_eq_ok_iff]
    constructor
    · rintro ⟨_, -, ⟨⟩⟩
    · rintro ⟨⟩
  · rename_i hshape _
    constructor
    · rintro ⟨⟩
    · rintro ⟨⟩
      exact absurd rfl (hshape _ _ _ _ _ _ _ _ _)

theorem ofFields_eq_error_iff {fault : LineError} :
    ofFields fields = .error fault ↔
      fields.length ≠ 3 ∧ fields.length ≠ 9 ∧ fault = .fieldCount fields.length ∨
        fields.length = 3 ∧ FirstFault callColumns fields fault ∨
        fields.length = 9 ∧ FirstFault definitionColumns fields fault := by
  unfold ofFields
  split
  · rw [map_eq_error_iff, readDefinition_eq_error_iff]
    simp
  · rw [map_eq_error_iff, readCall_eq_error_iff]
    simp
  · rename_i hdefinition hcall
    have hthree : fields.length ≠ 3 := by
      intro h
      match fields, h with
      | [_, _, _], _ => exact hcall _ _ _ rfl
    have hnine : fields.length ≠ 9 := by
      intro h
      match fields, h with
      | [_, _, _, _, _, _, _, _, _], _ => exact hdefinition _ _ _ _ _ _ _ _ _ rfl
    simp [hthree, hnine, eq_comm]

end

theorem dropLineEnds_spec (text : List Char) :
    ∃ ends, text = dropLineEnds text ++ ends ∧ (∀ c ∈ ends, isLineEnd c = true) ∧
      ∀ c, (dropLineEnds text).getLast? = some c → isLineEnd c = false := by
  refine ⟨(text.reverse.takeWhile isLineEnd).reverse, ?_, ?_, ?_⟩
  · rw [dropLineEnds, ← List.reverse_append, List.takeWhile_append_dropWhile, List.reverse_reverse]
  · intro c hc
    exact List.all_eq_true.1 List.all_takeWhile c (List.mem_reverse.1 hc)
  · intro c hc
    rw [dropLineEnds, List.getLast?_reverse] at hc
    have h := List.head?_dropWhile_not isLineEnd text.reverse
    rw [hc] at h
    simpa using h

theorem ofLine_eq (text : List Char) :
    ofLine text =
      if (dropLineEnds text).all isBlank then .ok none
      else some <$> ofFields ((dropLineEnds text).splitOn '\t') :=
  rfl

/-- **Every line is what the grammar makes of it.** A text is a line and the line feeds and carriage
returns that it ends with. A blank line holds no record. Any other line whose fields make up a call
or a definition is read as that. All others are refused, for the number of their fields unless that
is three or nine, and else for the leftmost field that is not what its column asks for. -/
theorem ofLine_by_grammar (text : List Char) :
    ∃ line ends, text = line ++ ends ∧ (∀ c ∈ ends, c = '\n' ∨ c = '\r') ∧
      line.getLast? ≠ some '\n' ∧ line.getLast? ≠ some '\r' ∧
      let fields := line.splitOn '\t'
      (ofLine text = .ok none ↔ ∀ c ∈ line, isBlank c) ∧
      (∀ c, ofLine text = .ok (some (.call c)) ↔
        (¬∀ c ∈ line, isBlank c) ∧ CallFields fields c) ∧
      (∀ d, ofLine text = .ok (some (.definition d)) ↔
        (¬∀ c ∈ line, isBlank c) ∧ DefinitionFields fields d) ∧
      ∀ fault, ofLine text = .error fault ↔
        (¬∀ c ∈ line, isBlank c) ∧
          (fields.length ≠ 3 ∧ fields.length ≠ 9 ∧ fault = .fieldCount fields.length ∨
            fields.length = 3 ∧ FirstFault callColumns fields fault ∨
            fields.length = 9 ∧ FirstFault definitionColumns fields fault) := by
  obtain ⟨ends, htext, hends, hlast⟩ := dropLineEnds_spec text
  have hlineEnd {c : Char} : isLineEnd c = true ↔ c = '\n' ∨ c = '\r' := decide_eq_true_iff
  refine ⟨dropLineEnds text, ends, htext, fun c hc => hlineEnd.1 (hends c hc), ?_, ?_, ?_⟩
  · intro h
    cases hlast _ h
  · intro h
    cases hlast _ h
  simp only [← ofFields_eq_call_iff, ← ofFields_eq_definition_iff, ← ofFields_eq_error_iff,
    ← List.all_eq_true, ofLine_eq]
  by_cases hblank : (dropLineEnds text).all isBlank = true
  · simp [hblank]
  · simp [hblank, map_eq_ok_iff, map_eq_error_iff]

example :
    ofLine "\t-1\t+04294967295\t99999999999999999999\r\n".toList = .error (.fieldCount 4) ∧
      ofLine "-2\t4294967296\tx".toList = .error (.invalidId 4294967296) ∧
      ofLine "-2\t+04294967295\t--1".toList = .error (.invalidInteger .timestamp "--1") := by
  exact ⟨rfl, rfl, rfl⟩

end Record

end CallTrace
