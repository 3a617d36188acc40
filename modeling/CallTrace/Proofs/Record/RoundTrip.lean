import CallTrace.Proofs.Record.ReadBack

/-!
# Which definitions come back as they were

Of a definition its line keeps everything but the separators in its texts, which come back as
spaces, and a name of its own that ends like a constructor's, which comes back without that end
(`Definition.readBack`). So a definition comes back as it was exactly if it has an id and neither
is the case (`Definition.readBack_eq_self_iff`, `Definition.ofLine_toLine_eq_self_iff`).
-/

namespace CallTrace

/-! ## Texts -/

theorem sanitizeChar_of_not_mem {c : Char} (h : c ∉ separators) : sanitizeChar c = c := by
  simp only [separators, List.mem_cons, List.not_mem_nil, or_false] at h
  rw [sanitizeChar, if_neg h]

/-- A text without separators, and no other, stands in a field as it is. -/
theorem sanitize_eq_self_iff (text : List Char) :
    sanitize text = text ↔ ∀ c ∈ separators, c ∉ text := by
  constructor
  · intro h c hc
    rw [← h]
    exact not_mem_sanitize hc text
  · intro h
    have hfix : ∀ c ∈ text, sanitizeChar c = c := by
      intro c hc
      apply sanitizeChar_of_not_mem
      intro hsep
      exact h c hsep hc
    rw [sanitize, List.map_congr_left hfix, List.map_id']

theorem length_splitOn (c : Char) (text : List Char) :
    (text.splitOn c).length = text.count c + 1 := by
  induction text with
  | nil => simp
  | cons x rest ih =>
    rw [List.splitOn_cons_eq_if_modifyHead, List.count_cons]
    split
    · simp [ih]
    · simp [ih]

theorem ofList_sanitize_eq_iff (text : String) :
    String.ofList (sanitize text.toList) = text ↔ ∀ c ∈ separators, c ∉ text.toList := by
  rw [← sanitize_eq_self_iff, ← String.toList_inj, String.toList_ofList]

/-! ## Definitions -/

namespace Definition

/-- The name of a function looks like that of a constructor, which it is not. -/
def Misleads (d : Definition) : Prop :=
  d.isConstructor = false ∧ constructorSuffix <:+ d.name.toList

theorem readBack_eq_self_iff (d : Definition) :
    d.readBack = d ↔
      (∀ c ∈ separators, c ∉ d.name.toList ∧ c ∉ d.path.toList) ∧ ¬d.Misleads := by
  obtain ⟨id, fileIndex, positionStart, positionEnd, line, column, name, isConstructor, path,
    timestamp⟩ := d
  have hsuffix := @List.isSuffixOf_iff_suffix _ _ _ constructorSuffix name.toList
  cases isConstructor with
  | true =>
    -- the mark of the line is the constructor's own, so the name is kept
    simp only [readBack, Misleads, mk.injEq, true_and, and_true, Bool.not_true, Bool.false_and,
      Bool.false_eq_true, if_false, Bool.true_or, Bool.true_eq_false, false_and, not_false_eq_true,
      ofList_sanitize_eq_iff]
    simp only [forall_and]
  | false =>
    by_cases hmisleads : constructorSuffix.isSuffixOf name.toList = true
    · simp [readBack, Misleads, hmisleads, hsuffix.1 hmisleads]
    · have hnot : ¬constructorSuffix <:+ name.toList := mt hsuffix.2 hmisleads
      simp only [readBack, Misleads, mk.injEq, true_and, and_true, hmisleads, hnot, Bool.and_false,
        Bool.false_eq_true, if_false, Bool.or_false, and_false, not_false_eq_true,
        ofList_sanitize_eq_iff]
      simp only [forall_and]

end Definition

/-! ## Lines -/

namespace Record

theorem dropLineEnds_append {text : List Char} {c : Char} (h : isLineEnd c = true) :
    dropLineEnds (text ++ [c]) = dropLineEnds text := by
  simp [dropLineEnds, h]

theorem ofLine_toLine (r : Record) : ofLine r.toLine = some <$> ofFields r.fields := by
  rw [← ofLine_body, toLine_eq, ofLine, dropLineEnds_append (by decide)]
  rfl

/-- A line ends where its only line feed is. -/
theorem count_lineFeed_toLine (r : Record) : r.toLine.count '\n' = 1 := by
  rw [toLine_eq, List.count_append, List.count_eq_zero.2 (not_mem_body (.inl rfl))]
  rfl

theorem return_not_mem_toLine (r : Record) : '\r' ∉ r.toLine := by
  rw [toLine_eq, List.mem_append, not_or]
  exact ⟨not_mem_body (.inr rfl), by decide⟩

theorem getLast?_toLine (r : Record) : r.toLine.getLast? = some '\n' := by
  rw [toLine_eq, List.getLast?_concat]

/-- The line feed stands in the last field, so it adds none. -/
theorem length_splitOn_toLine (r : Record) : (r.toLine.splitOn '\t').length = r.fields.length := by
  rw [← splitOn_body, length_splitOn, length_splitOn, toLine_eq, List.count_append]
  rfl

end Record

/-- The line of a definition is read back, or refused for want of an id. -/
theorem Definition.ofLine_toLine (d : Definition) :
    Record.ofLine d.toLine =
      if d.id.isSome then .ok (some (.definition d.readBack)) else .error (.invalidId (-1)) := by
  have hread := (Record.definition d).ofLine_toLine
  rw [Record.fields, Record.ofFields_definition] at hread
  apply hread.trans
  split
  · rfl
  · rfl

/-- **The definitions that come back as they were.** The line of a definition is read as that very
definition exactly if it has an id, its texts hold no separators, and its name does not look like
that of a constructor, which it is not. Whatever the definition, its line has one line feed, at its
end, no carriage return, and nine fields. -/
theorem Definition.ofLine_toLine_eq_self_iff (d : Definition) :
    (Record.ofLine d.toLine = .ok (some (.definition d)) ↔
      d.id ≠ none ∧ (∀ c ∈ separators, c ∉ d.name.toList ∧ c ∉ d.path.toList) ∧ ¬d.Misleads) ∧
      d.toLine.count '\n' = 1 ∧ d.toLine.getLast? = some '\n' ∧ '\r' ∉ d.toLine ∧
      (d.toLine.splitOn '\t').length = 9 := by
  let r : Record := .definition d
  refine ⟨?_, r.count_lineFeed_toLine, r.getLast?_toLine, r.return_not_mem_toLine,
    r.length_splitOn_toLine⟩
  rw [ofLine_toLine, ← readBack_eq_self_iff]
  cases d.id with
  | none => simp
  | some id => simp

end CallTrace
