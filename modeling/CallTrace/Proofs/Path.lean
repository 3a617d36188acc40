import CallTrace.Disk.Path

/-!
# Components of paths

A path is read from slash to slash (`Path.slash_induction`). Cutting its text where a component
stops leaves the components up to there (`Path.marksFrom_take`), and cutting it where one starts
leaves those from there on (`Path.marksFrom_drop`). So the ancestors of a path, the empty one aside,
have the proper beginnings of its components, the longest first (`Path.parts_getElem_outward`), and
what a path is relative to one of them leads from there back to the path
(`Path.relativeTo?_of_mem_outward`).
-/

namespace CallTrace.Path

/-! ## From slash to slash -/

/-- A text has no slash, or it is cut at its first one. -/
theorem slash_induction {motive : List Char → Prop}
    (last : ∀ piece, '/' ∉ piece → motive piece)
    (cut : ∀ piece rest, '/' ∉ piece → motive rest → motive (piece ++ '/' :: rest))
    (text : List Char) : motive text := by
  by_cases h : '/' ∈ text
  · obtain ⟨piece, rest, rfl, hpiece⟩ := List.eq_append_cons_of_mem h
    exact cut piece rest hpiece (slash_induction last cut rest)
  · exact last text h
termination_by text.length

/-- The components of a text that stands at `offset` of a path. -/
def marksFrom (isFirst : Bool) (offset : Nat) (text : List Char) : List Mark :=
  marksOfPieces isFirst offset (text.splitOn '/')

def markOf (offset : Nat) (piece : List Char) (part : Part) : Mark :=
  ⟨part, offset, if part = .root then offset + 1 else offset + piece.length⟩

variable {isFirst : Bool} {offset : Nat} {piece rest text : List Char} {part : Part}
  {before after : List Mark} {mark : Mark}

theorem marksFrom_piece (h : '/' ∉ piece) :
    marksFrom isFirst offset piece =
      ((partOfPiece isFirst true piece).map (markOf offset piece)).toList := by
  rw [marksFrom, List.splitOn_eq_singleton h, marksOfPieces, marksOfPieces, List.append_nil]
  rfl

theorem marksFrom_cut (h : '/' ∉ piece) :
    marksFrom isFirst offset (piece ++ '/' :: rest) =
      ((partOfPiece isFirst false piece).map (markOf offset piece)).toList ++
        marksFrom false (offset + piece.length + 1) rest := by
  have hrest : (rest.splitOn '/').isEmpty = false := by simp [List.splitOn_ne_nil]
  rw [marksFrom, List.splitOn_append_cons_self_of_not_mem h, marksOfPieces, hrest]
  rfl

theorem marksFrom_nil : marksFrom false offset [] = [] := rfl

/-- Whether a piece is the only one matters to an empty first piece alone. -/
theorem partOfPiece_congr (h : isFirst = false ∨ piece ≠ []) (isOnly isOnly' : Bool) :
    partOfPiece isFirst isOnly piece = partOfPiece isFirst isOnly' piece := by
  unfold partOfPiece
  rcases h with rfl | h
  · simp
  · simp [h]

/-- A root is the slash after an empty first piece. -/
theorem eq_nil_of_partOfPiece_eq_root {isOnly : Bool}
    (h : partOfPiece isFirst isOnly piece = some .root) :
    piece = [] ∧ isFirst = true ∧ isOnly = false := by
  unfold partOfPiece at h
  split at h
  · rename_i hnil
    split at h
    · rename_i hroot
      simp at hnil hroot
      exact ⟨hnil, hroot.1, hroot.2⟩
    · cases h
  · split at h
    · split at h <;> cases h
    · split at h <;> cases h

/-- A component other than a root is there whether or not its piece is the only one. -/
theorem partOfPiece_of_ne_root {isOnly : Bool} (hroot : part ≠ .root)
    (h : partOfPiece isFirst isOnly piece = some part) (isOnly' : Bool) :
    partOfPiece isFirst isOnly' piece = some part := by
  rw [← h]
  apply partOfPiece_congr
  cases isFirst with
  | false => exact .inl rfl
  | true =>
    refine .inr ?_
    rintro rfl
    cases isOnly with
    | false => exact hroot (Option.some.inj h).symm
    | true => cases h

theorem ne_nil_of_partOfPiece {isOnly : Bool} (h : partOfPiece false isOnly piece = some part) :
    piece ≠ [] := by
  rintro rfl
  cases h

/-! ## Cutting at a component -/

theorem le_of_mem_marksFrom (h : mark ∈ marksFrom isFirst offset text) :
    offset ≤ mark.start ∧ mark.start ≤ mark.stop := by
  have hof : ∀ offset (piece : List Char) part,
      offset ≤ (markOf offset piece part).start ∧
        (markOf offset piece part).start ≤ (markOf offset piece part).stop := by
    intro offset piece part
    unfold markOf
    split <;> simp
  induction text using slash_induction generalizing isFirst offset with
  | last piece hpiece =>
    rw [marksFrom_piece hpiece, Option.mem_toList, Option.map_eq_some_iff] at h
    obtain ⟨part, -, rfl⟩ := h
    exact hof ..
  | cut piece rest hpiece ih =>
    rw [marksFrom_cut hpiece, List.mem_append, Option.mem_toList, Option.map_eq_some_iff] at h
    rcases h with ⟨part, -, rfl⟩ | h
    · exact hof ..
    · have := ih h
      omega

/-- A component of a last piece is that piece. -/
theorem of_marksFrom_piece (hpiece : '/' ∉ piece)
    (h : marksFrom isFirst offset piece = before ++ mark :: after) :
    before = [] ∧ ∃ part, partOfPiece isFirst true piece = some part ∧
      mark = markOf offset piece part := by
  rw [marksFrom_piece hpiece] at h
  cases hpart : partOfPiece isFirst true piece with
  | none => simp [hpart] at h
  | some part => cases before <;> simp_all

/-- A component is the first piece or one of those that follow it. -/
theorem of_marksFrom_cut (hpiece : '/' ∉ piece)
    (h : marksFrom isFirst offset (piece ++ '/' :: rest) = before ++ mark :: after) :
    (before = [] ∧ ∃ part, partOfPiece isFirst false piece = some part ∧
      mark = markOf offset piece part) ∨
    ∃ later,
      before = ((partOfPiece isFirst false piece).map (markOf offset piece)).toList ++ later ∧
      marksFrom false (offset + piece.length + 1) rest = later ++ mark :: after := by
  rw [marksFrom_cut hpiece] at h
  cases hpart : partOfPiece isFirst false piece with
  | none =>
    rw [hpart] at h
    exact .inr ⟨before, rfl, h⟩
  | some part =>
    rw [hpart] at h
    cases before with
    | nil => exact .inl ⟨rfl, part, rfl, (List.cons.inj h).1.symm⟩
    | cons first later =>
      obtain ⟨rfl, hrest⟩ := List.cons.inj h
      exact .inr ⟨later, rfl, hrest⟩

/-- Up to where a component stops, a text has the components up to that one. -/
theorem marksFrom_take (h : marksFrom isFirst offset text = before ++ mark :: after) :
    marksFrom isFirst offset (text.take (mark.stop - offset)) = before ++ [mark] := by
  induction text using slash_induction generalizing isFirst offset before with
  | last piece hpiece =>
    obtain ⟨rfl, part, hpart, rfl⟩ := of_marksFrom_piece hpiece h
    have hroot : part ≠ .root := by
      rintro rfl
      cases (eq_nil_of_partOfPiece_eq_root hpart).2.2
    have hall : piece.take ((markOf offset piece part).stop - offset) = piece := by
      simp [markOf, hroot]
    rw [hall, marksFrom_piece hpiece, hpart]
    rfl
  | cut piece rest hpiece ih =>
    rcases of_marksFrom_cut hpiece h with ⟨rfl, part, hpart, rfl⟩ | ⟨later, rfl, hrest⟩
    · by_cases hroot : part = .root
      · subst hroot
        obtain ⟨rfl, rfl, -⟩ := eq_nil_of_partOfPiece_eq_root hpart
        have hslash : ([] ++ '/' :: rest).take ((markOf offset [] .root).stop - offset) =
            [] ++ ['/'] := by simp [markOf]
        rw [hslash, marksFrom_cut List.not_mem_nil, hpart, marksFrom_nil]
        rfl
      · have hall : (piece ++ '/' :: rest).take ((markOf offset piece part).stop - offset) =
            piece := by simp [markOf, hroot]
        rw [hall, marksFrom_piece hpiece, partOfPiece_of_ne_root hroot hpart]
        rfl
    · have hle := le_of_mem_marksFrom (hrest ▸ List.mem_append_right later List.mem_cons_self)
      have hstop : mark.stop - offset =
          piece.length + (mark.stop - (offset + piece.length + 1) + 1) := by omega
      rw [hstop, List.take_length_add_append, List.take_succ_cons, marksFrom_cut hpiece, ih hrest,
        List.append_assoc]

theorem head?_ne_slash (hpiece : '/' ∉ piece) (hne : piece ≠ []) (rest : List Char) :
    (piece ++ rest).head? ≠ some '/' := by
  cases piece with
  | nil => exact absurd rfl hne
  | cons c piece =>
    rintro ⟨⟩
    exact hpiece List.mem_cons_self

/-- From where a later component starts, a text has the components from that one on. -/
theorem marksFrom_drop (hlater : isFirst = false ∨ before ≠ [])
    (h : marksFrom isFirst offset text = before ++ mark :: after) :
    (text.drop (mark.start - offset)).head? ≠ some '/' ∧
      marksFrom false mark.start (text.drop (mark.start - offset)) = mark :: after := by
  induction text using slash_induction generalizing isFirst offset before with
  | last piece hpiece =>
    obtain ⟨rfl, part, hpart, rfl⟩ := of_marksFrom_piece hpiece h
    obtain rfl : isFirst = false := by simpa using hlater
    have hall : piece.drop ((markOf offset piece part).start - offset) = piece := by simp [markOf]
    rw [hall]
    refine ⟨?_, h⟩
    simpa using head?_ne_slash hpiece (ne_nil_of_partOfPiece hpart) []
  | cut piece rest hpiece ih =>
    rcases of_marksFrom_cut hpiece h with ⟨rfl, part, hpart, rfl⟩ | ⟨later, -, hrest⟩
    · obtain rfl : isFirst = false := by simpa using hlater
      have hall : (piece ++ '/' :: rest).drop ((markOf offset piece part).start - offset) =
          piece ++ '/' :: rest := by simp [markOf]
      rw [hall]
      exact ⟨head?_ne_slash hpiece (ne_nil_of_partOfPiece hpart) _, h⟩
    · have hle := le_of_mem_marksFrom (hrest ▸ List.mem_append_right later List.mem_cons_self)
      have hstart : mark.start - offset =
          piece.length + (mark.start - (offset + piece.length + 1) + 1) := by omega
      rw [hstart, List.drop_length_add_append, List.drop_succ_cons]
      exact ih (.inl rfl) hrest

/-! ## Joining -/

/-- The components of a text that is not the start of a path. -/
def innerParts (text : List Char) : List Part :=
  (marksFrom false 0 text).map Mark.part

theorem map_part_marksFrom (offset : Nat) (text : List Char) :
    (marksFrom false offset text).map Mark.part = innerParts text := by
  unfold innerParts
  generalize 0 = offset'
  induction text using slash_induction generalizing offset offset' with
  | last piece hpiece =>
    rw [marksFrom_piece hpiece, marksFrom_piece hpiece]
    cases partOfPiece false true piece <;> rfl
  | cut piece rest hpiece ih =>
    rw [marksFrom_cut hpiece, marksFrom_cut hpiece, List.map_append, List.map_append, ih _ _]
    cases partOfPiece false false piece <;> rfl

/-- What follows a slash is not the start of a path. -/
theorem map_part_marksFrom_append_cons (text rest : List Char) :
    (marksFrom isFirst offset (text ++ '/' :: rest)).map Mark.part =
      (marksFrom isFirst offset (text ++ ['/'])).map Mark.part ++ innerParts rest := by
  induction text using slash_induction generalizing isFirst offset with
  | last piece hpiece =>
    rw [marksFrom_cut hpiece, marksFrom_cut hpiece, marksFrom_nil, List.append_nil,
      List.map_append, map_part_marksFrom]
  | cut piece before hpiece ih =>
    rw [List.append_assoc, List.append_assoc, List.cons_append, List.cons_append,
      marksFrom_cut hpiece, marksFrom_cut hpiece, List.map_append, List.map_append,
      List.append_assoc, ih]

/-- A slash at the end does not count. -/
theorem marksFrom_concat_slash (h : isFirst = false ∨ text ≠ []) :
    marksFrom isFirst offset (text ++ ['/']) = marksFrom isFirst offset text := by
  induction text using slash_induction generalizing isFirst offset with
  | last piece hpiece =>
    rw [marksFrom_cut hpiece, marksFrom_piece hpiece, marksFrom_nil, List.append_nil,
      partOfPiece_congr h]
  | cut piece rest hpiece ih =>
    rw [List.append_assoc, List.cons_append, marksFrom_cut hpiece, marksFrom_cut hpiece,
      ih (.inl rfl)]

theorem marks_eq (text : List Char) : marks text = marksFrom true 0 text := rfl

theorem parts_join {dir inner : String} (hdir : dir ≠ "") (hinner : inner.toList.head? ≠ some '/') :
    parts (join dir inner) = parts dir ++ innerParts inner.toList := by
  have hne : dir.toList ≠ [] := by simpa using hdir
  have hslash : ¬(inner.toList.head? == some '/' || dir.toList.isEmpty) = true := by
    simp [hinner, hne]
  unfold join
  rw [if_neg hslash]
  split
  · rename_i hlast
    obtain ⟨front, hfront⟩ := List.getLast?_eq_some_iff.1 (beq_iff_eq.1 hlast)
    rw [parts, parts, String.toList_append, hfront, marks_eq, marks_eq, List.append_assoc]
    exact map_part_marksFrom_append_cons front inner.toList
  · rw [parts, parts, String.toList_append, String.toList_append, marks_eq, marks_eq,
      List.append_assoc]
    show (marksFrom true 0 (dir.toList ++ '/' :: inner.toList)).map Mark.part = _
    rw [map_part_marksFrom_append_cons, marksFrom_concat_slash (.inr hne)]

/-! ## Ancestors -/

/-- The ancestors of a path but the empty one. -/
def outward (path : String) : List String :=
  (ancestors path).takeWhile fun dir => !dir.isEmpty

variable {path dir : String}

theorem parts_take_stop (h : marks path.toList = before ++ mark :: after) :
    parts (String.ofList (path.toList.take mark.stop)) = (before ++ [mark]).map Mark.part := by
  rw [parts, String.toList_ofList, marks_eq]
  exact congrArg _ (marksFrom_take h)

theorem ne_empty_of_parts_ne_nil (h : parts path ≠ []) : path ≠ "" := by
  rintro rfl
  exact h rfl

theorem outward_eq (path : String) :
    outward path = (marks path.toList).dropLast.reverse.map fun mark =>
      String.ofList (path.toList.take mark.stop) := by
  have hfull : ∀ dir ∈ (marks path.toList).dropLast.reverse.map fun mark =>
      String.ofList (path.toList.take mark.stop), (!dir.isEmpty) = true := by
    intro dir hdir
    obtain ⟨mark, hmark, rfl⟩ := List.mem_map.1 hdir
    obtain ⟨before, after, hmarks⟩ :=
      List.append_of_mem (List.dropLast_subset _ (List.mem_reverse.1 hmark))
    have hparts : parts (String.ofList (path.toList.take mark.stop)) ≠ [] := by
      rw [parts_take_stop hmarks]
      simp
    simpa using ne_empty_of_parts_ne_nil hparts
  have hstop := fun rest => @List.takeWhile_append_of_pos String _ _ rest hfull
  unfold outward ancestors
  dsimp only
  split
  · rename_i hnil
    simp only [Option.map_eq_none_iff, List.head?_eq_none_iff] at hnil
    rw [hnil]
    rfl
  · simpa using hstop []
  · simpa using hstop [""]

theorem length_outward (path : String) : (outward path).length = (parts path).length - 1 := by
  simp [outward_eq, parts]

/-- The ancestors have the proper beginnings of the components, the longest first. -/
theorem parts_getElem_outward {i : Nat} (h : i < (outward path).length) :
    parts (outward path)[i] = (parts path).take ((parts path).length - 1 - i) := by
  have hlength := length_outward path
  have hmarks : (marks path.toList).length = (parts path).length := by simp [parts]
  obtain ⟨k, hk⟩ : ∃ k, (parts path).length - 1 - i = k + 1 :=
    ⟨(parts path).length - 1 - i - 1, by omega⟩
  have hlt : k < (marks path.toList).length := by omega
  have hsplit : marks path.toList = (marks path.toList).take k ++
      (marks path.toList)[k] :: (marks path.toList).drop (k + 1) := by
    rw [← List.drop_eq_getElem_cons, List.take_append_drop]
  have hmark : (outward path)[i] =
      String.ofList (path.toList.take (marks path.toList)[k].stop) := by
    have hindex : (marks path.toList).length - 1 - 1 - i = k := by omega
    simp [outward_eq, hindex]
  rw [hmark, parts_take_stop hsplit, hk, List.take_append_getElem, List.map_take]
  rfl

example : outward "/pkg//./lib/a.js" = ["/pkg//./lib", "/pkg", "/"] := by decide

/-- Slashes after the last component do not count. -/
theorem marks_take_stop_last {text : List Char} {last : Mark}
    (h : (marks text).getLast? = some last) : marks (text.take last.stop) = marks text := by
  obtain ⟨front, hfront⟩ := List.getLast?_eq_some_iff.1 h
  rw [marks_eq] at hfront
  rw [marks_eq, marks_eq, hfront]
  exact marksFrom_take hfront

theorem toList_dropParts {count : Nat} {first last : Mark} {others : List Mark}
    (hfirst : (marks path.toList).drop count = first :: others)
    (hlast : (marks path.toList).getLast? = some last) :
    (dropParts count path).toList = (path.toList.take last.stop).drop first.start := by
  have hrest : ((marks path.toList).drop count).getLast? = some last := by
    have hne : (marks path.toList).drop count ≠ [] := by
      rw [hfirst]
      exact List.cons_ne_nil first others
    rw [List.getLast?_drop, if_neg (mt List.drop_eq_nil_of_le hne), hlast]
  unfold dropParts
  simp only [hrest]
  simp only [hfirst, List.head?_cons, String.toList_ofList]

/-- What follows some but not all of the components has the others, not as the start of a path. -/
theorem dropParts_spec {path : String} {count : Nat} (hpos : 0 < count)
    (hlt : count < (parts path).length) :
    (dropParts count path).toList.head? ≠ some '/' ∧
      innerParts (dropParts count path).toList = (parts path).drop count := by
  have hlt' : count < (marks path.toList).length := by simpa [parts] using hlt
  have hne : marks path.toList ≠ [] := List.ne_nil_of_length_pos (by omega)
  have hlast := List.getLast?_eq_some_getLast hne
  have hfirst := List.drop_eq_getElem_cons hlt'
  have hsplit := (marks_take_stop_last hlast).trans (List.take_append_drop count _).symm
  rw [hfirst] at hsplit
  have hbefore : (marks path.toList).take count ≠ [] := by
    apply List.ne_nil_of_length_pos
    rw [List.length_take]
    omega
  obtain ⟨hhead, hmarks⟩ := marksFrom_drop (.inr hbefore) hsplit
  rw [toList_dropParts hfirst hlast]
  refine ⟨hhead, ?_⟩
  rw [← map_part_marksFrom (marks path.toList)[count].start, parts, ← List.map_drop, hfirst]
  exact congrArg _ hmarks

/-- What a path is relative to an ancestor leads from there back to the path. -/
theorem relativeTo?_of_mem_outward (h : dir ∈ outward path) :
    ∃ inner, relativeTo? dir path = some inner ∧ inner.toList.head? ≠ some '/' ∧
      parts (join dir inner) = parts path := by
  obtain ⟨i, hi, rfl⟩ := List.mem_iff_getElem.1 h
  have hlength := length_outward path
  have hdir := parts_getElem_outward hi
  have hcount : (parts (outward path)[i]).length = (parts path).length - 1 - i := by
    rw [hdir, List.length_take]
    omega
  have hpos : 0 < (parts path).length - 1 - i := by omega
  obtain ⟨hhead, hinner⟩ := dropParts_spec hpos (show _ < (parts path).length by omega)
  refine ⟨dropParts ((parts path).length - 1 - i) path, ?_, hhead, ?_⟩
  · have hbelow : ((parts (outward path)[i]).isPrefixOf (parts path)) = true := by
      rw [hdir]
      exact List.isPrefixOf_iff_prefix.2 (List.take_prefix _ _)
    rw [relativeTo?, if_pos hbelow, hcount]
  · have hne : parts (outward path)[i] ≠ [] := List.ne_nil_of_length_pos (by omega)
    rw [parts_join (ne_empty_of_parts_ne_nil hne) hhead, hinner, hdir, List.take_append_drop]

example : relativeTo? "/pkg" "/pkg//./lib/a.js" = some "lib/a.js" := by decide

end CallTrace.Path
