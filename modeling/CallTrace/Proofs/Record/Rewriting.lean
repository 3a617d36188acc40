import CallTrace.Proofs.Record.Grammar
import CallTrace.Proofs.Record.RoundTrip

/-!
# What was read is written and read again

A text need not be a line that was written to be read: it may hold other numerals, and line breaks
where only its end should have one. Numerals leave no trace in the record, and line breaks within
a name or a path are written as spaces (`Record.unbroken`). Once it was read, the name of a function
that is no constructor does not end like one's (`DefinitionFields.not_misleads`), so nothing is
taken off it when it is read again. Hence the line of a record that was read is read as the
unbroken record, which has the same line (`Record.ofLine_toLine_of_ofLine`).
-/

namespace CallTrace

open Text

/-! ## Line breaks -/

/-- A space in place of a line break. -/
def unbreakChar (c : Char) : Char :=
  if c = '\n' ∨ c = '\r' then ' ' else c

/-- A definition with spaces in place of the line breaks in its texts. -/
def Definition.unbroken (d : Definition) : Definition :=
  { d with name := d.name.map unbreakChar, path := d.path.map unbreakChar }

/-- A record with spaces in place of the line breaks in its texts. -/
def Record.unbroken : Record → Record
  | definition d => definition d.unbroken
  | call c => call c

theorem sanitizeChar_unbreakChar (c : Char) : sanitizeChar (unbreakChar c) = sanitizeChar c := by
  unfold unbreakChar
  split
  · rename_i h
    rw [sanitizeChar, sanitizeChar, if_neg (by decide), if_pos (.inr h)]
  · rfl

theorem sanitize_map_unbreakChar (text : List Char) :
    sanitize (text.map unbreakChar) = sanitize text := by
  simp only [sanitize, List.map_map, Function.comp_def, sanitizeChar_unbreakChar]

theorem sanitize_eq_map_unbreakChar {text : List Char} (h : '\t' ∉ text) :
    sanitize text = text.map unbreakChar := by
  apply List.map_congr_left
  intro c hc
  have htab : c ≠ '\t' := fun he => h (he ▸ hc)
  simp [sanitizeChar, unbreakChar, htab]

theorem map_unbreakChar_eq_self {text : String} (hfeed : '\n' ∉ text.toList)
    (hreturn : '\r' ∉ text.toList) : text.map unbreakChar = text := by
  have hfix : ∀ c ∈ text.toList, unbreakChar c = c := by
    intro c hc
    apply if_neg
    rintro (rfl | rfl)
    · exact hfeed hc
    · exact hreturn hc
  rw [← String.toList_inj, String.toList_map, List.map_congr_left hfix, List.map_id']

/-! ## Texts that were read -/

namespace DefinitionFields

variable {fields : List (List Char)} {d : Definition}

theorem isSome_id (h : DefinitionFields fields d) : d.id.isSome = true := by
  cases h with
  | mk _ hsome => rw [hsome]; rfl

theorem not_misleads (h : DefinitionFields fields d) : ¬d.Misleads := by
  rintro ⟨hnot, hsuffix⟩
  cases h with
  | mk _ _ hname =>
    have htext := hname.text_eq
    rw [hnot, if_neg Bool.false_ne_true, List.append_nil] at htext
    have hmarked := hname.isConstructor_of_suffix (htext ▸ hsuffix)
    rw [hnot] at hmarked
    cases hmarked

theorem exists_field (h : DefinitionFields fields d) :
    (∃ field ∈ fields, d.name.toList ⊆ field) ∧ ∃ field ∈ fields, d.path.toList ⊆ field := by
  cases h with
  | @mk _ name _ _ _ _ _ path _ _ _ _ _ hname _ _ _ _ _ hpath =>
    refine ⟨⟨name, by simp, ?_⟩, ⟨path, by simp, ?_⟩⟩
    · rw [hname.text_eq]
      exact List.subset_append_left _ _
    · rw [hpath]
      exact List.Subset.refl _

variable {line : List Char}

theorem tab_not_mem (h : DefinitionFields (line.splitOn '\t') d) :
    '\t' ∉ d.name.toList ∧ '\t' ∉ d.path.toList := by
  obtain ⟨⟨name, hname, hnameSub⟩, path, hpath, hpathSub⟩ := h.exists_field
  exact ⟨fun htab => (spec_of_mem_splitOn hname).1 (hnameSub htab),
    fun htab => (spec_of_mem_splitOn hpath).1 (hpathSub htab)⟩

theorem texts_subset (h : DefinitionFields (line.splitOn '\t') d) :
    d.name.toList ⊆ line ∧ d.path.toList ⊆ line := by
  obtain ⟨⟨name, hname, hnameSub⟩, path, hpath, hpathSub⟩ := h.exists_field
  exact ⟨List.Subset.trans hnameSub (spec_of_mem_splitOn hname).2,
    List.Subset.trans hpathSub (spec_of_mem_splitOn hpath).2⟩

end DefinitionFields

theorem Definition.readBack_eq_unbroken {d : Definition}
    (htab : '\t' ∉ d.name.toList ∧ '\t' ∉ d.path.toList) (hmisleads : ¬d.Misleads) :
    d.readBack = d.unbroken := by
  have hunmarked : (!d.isConstructor && constructorSuffix.isSuffixOf d.name.toList) = false := by
    rw [← Bool.not_eq_true, Bool.and_eq_true, Bool.not_eq_true', List.isSuffixOf_iff_suffix]
    exact hmisleads
  unfold readBack unbroken
  simp only [hunmarked, Bool.false_eq_true, if_false, Bool.or_false,
    sanitize_eq_map_unbreakChar htab.1, sanitize_eq_map_unbreakChar htab.2, ← String.toList_map,
    String.ofList_toList]

theorem Definition.nameField_unbroken (d : Definition) : d.unbroken.nameField = d.nameField := by
  unfold nameField unbroken
  rw [String.toList_map, sanitize_map_unbreakChar]

/-! ## Lines -/

namespace Record

theorem toLine_unbroken (r : Record) : r.unbroken.toLine = r.toLine := by
  cases r with
  | call c => rfl
  | definition d =>
    have hname := d.nameField_unbroken
    simp only [unbroken, toLine, Definition.toLine, Definition.fields, hname]
    simp only [Definition.unbroken, String.toList_map, sanitize_map_unbreakChar]

theorem dropLineEnds_append_subset {line ends : List Char} (h : ∀ c ∈ ends, isLineEnd c = true) :
    dropLineEnds (line ++ ends) ⊆ line := by
  have hends : ∀ c ∈ ends.reverse, isLineEnd c = true := fun c hc => h c (List.mem_reverse.1 hc)
  rw [dropLineEnds, List.reverse_append, List.dropWhile_append_of_pos hends]
  intro c hc
  exact List.mem_reverse.1 ((List.dropWhile_sublist _).subset (List.mem_reverse.1 hc))

theorem ofFields_of_ofLine {text : List Char} {r : Record} (h : ofLine text = .ok (some r)) :
    ofFields ((dropLineEnds text).splitOn '\t') = .ok r := by
  rw [ofLine_eq] at h
  split at h
  · cases h
  · obtain ⟨_, hread, heq⟩ := map_eq_ok_iff.1 h
    cases heq
    exact hread

/-- **What was read is written and read again.** Whatever text a record was read from, its line is
read as the record with spaces in place of the line breaks in its texts. That is the record itself
if the text has line breaks at its end only. In any case it has the same line, so that nothing
changes any more when it is written and read once again. -/
theorem ofLine_toLine_of_ofLine {text : List Char} {r : Record}
    (h : ofLine text = .ok (some r)) :
    ofLine r.toLine = .ok (some r.unbroken) ∧
      (∀ line ends, text = line ++ ends → (∀ c ∈ ends, c = '\n' ∨ c = '\r') → '\n' ∉ line →
        '\r' ∉ line → r.unbroken = r) ∧
      r.unbroken.encode = r.encode := by
  have hread := ofFields_of_ofLine h
  refine ⟨?_, ?_, congrArg Utf8.encode r.toLine_unbroken⟩
  · cases r with
    | call c =>
      rw [ofLine_toLine, fields, ofFields_call]
      rfl
    | definition d =>
      have hfields := ofFields_eq_definition_iff.1 hread
      rw [toLine, Definition.ofLine_toLine, if_pos hfields.isSome_id,
        Definition.readBack_eq_unbroken hfields.tab_not_mem hfields.not_misleads]
      rfl
  · rintro line ends rfl hends hfeed hreturn
    cases r with
    | call c => rfl
    | definition d =>
      have hsub : dropLineEnds (line ++ ends) ⊆ line :=
        dropLineEnds_append_subset fun c hc => decide_eq_true (hends c hc)
      obtain ⟨hname, hpath⟩ := (ofFields_eq_definition_iff.1 hread).texts_subset
      have hname := List.Subset.trans hname hsub
      have hpath := List.Subset.trans hpath hsub
      rw [unbroken, Definition.unbroken,
        map_unbreakChar_eq_self (fun hc => hfeed (hname hc)) fun hc => hreturn (hname hc),
        map_unbreakChar_eq_self (fun hc => hfeed (hpath hc)) fun hc => hreturn (hpath hc)]

/-- Numerals with signs and zeros in front, two marks of a constructor, and line breaks within and
behind the line. -/
theorem ofLine_toLine_of_ofLine_marked_twice :
    let text :=
      "+007\ta\rb.constructor.constructor\t-0\t+5\t1\t-3\t09\t/x\n.js\t-00\r\n\n".toList
    let d : Definition :=
      ⟨some ⟨7, by decide⟩, 1, -3, 9, 0, 5, "a\rb.constructor", true, "/x\n.js", 0⟩
    let written : Definition := { d with name := "a b.constructor", path := "/x .js" }
    ofLine text = .ok (some (.definition d)) ∧
      ofLine d.toLine = .ok (some (.definition written)) ∧ written.toLine = d.toLine := by
  intro text d written
  have h : ofLine text = .ok (some (.definition d)) := by rfl
  have hwritten : (definition d).unbroken = definition written := by decide +kernel
  obtain ⟨hread, -, -⟩ := ofLine_toLine_of_ofLine h
  rw [hwritten] at hread
  refine ⟨h, hread, ?_⟩
  have hline := (definition d).toLine_unbroken
  rw [hwritten] at hline
  exact hline

end Record

end CallTrace
