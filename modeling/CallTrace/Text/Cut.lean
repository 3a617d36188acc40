/-!
# Cutting text

Taking off what a list starts or ends with, and finding the place where another list occurs in it.
Splitting at a separator is `List.splitOn`.
-/

namespace CallTrace.Text

variable {α : Type} [BEq α]

/-- The rest of `text` after `head`, if it starts with it. -/
def afterHead? (head text : List α) : Option (List α) :=
  if head.isPrefixOf text then some (text.drop head.length) else none

/-- The part of `text` before `tail`, if it ends with it. -/
def beforeTail? (tail text : List α) : Option (List α) :=
  if tail.isSuffixOf text then some (text.take (text.length - tail.length)) else none

/-- What stands before and after the first occurrence of `needle`. -/
def cutAt? (needle : List α) : List α → Option (List α × List α)
  | [] => if needle.isEmpty then some ([], []) else none
  | c :: rest =>
    if needle.isPrefixOf (c :: rest) then some ([], (c :: rest).drop needle.length)
    else (cutAt? needle rest).map fun cut => (c :: cut.1, cut.2)

/-- What stands before and after the last `mark`. -/
def cutAtLast? (mark : α) : List α → Option (List α × List α)
  | [] => none
  | c :: rest =>
    match cutAtLast? mark rest with
    | some cut => some (c :: cut.1, cut.2)
    | none => if c == mark then some ([], rest) else none

/-- Whether `needle` occurs somewhere in `text`. -/
def occursIn (needle text : List α) : Bool :=
  (cutAt? needle text).isSome

theorem afterHead?_eq_some_iff [LawfulBEq α] {head text rest : List α} :
    afterHead? head text = some rest ↔ text = head ++ rest := by
  unfold afterHead?
  split
  · rename_i hp
    obtain ⟨after, rfl⟩ := List.isPrefixOf_iff_prefix.1 hp
    simp
  · rename_i hp
    refine iff_of_false (Option.some_ne_none _).symm ?_
    rintro rfl
    exact absurd (List.isPrefixOf_iff_prefix.2 (List.prefix_append head rest)) hp

theorem beforeTail?_eq_some_iff [LawfulBEq α] {tail text rest : List α} :
    beforeTail? tail text = some rest ↔ text = rest ++ tail := by
  unfold beforeTail?
  split
  · rename_i hs
    obtain ⟨before, rfl⟩ := List.isSuffixOf_iff_suffix.1 hs
    simp
  · rename_i hs
    refine iff_of_false (Option.some_ne_none _).symm ?_
    rintro rfl
    exact absurd (List.isSuffixOf_iff_suffix.2 (List.suffix_append rest tail)) hs

/-- Where the first occurrence of `needle` cuts a text, the three parts make up the text. -/
theorem append_of_cutAt? [LawfulBEq α] {needle text : List α} {cut : List α × List α}
    (h : cutAt? needle text = some cut) : cut.1 ++ needle ++ cut.2 = text := by
  induction text generalizing cut with
  | nil =>
    simp only [cutAt?] at h
    split at h
    · rename_i hn; cases h; simpa using hn
    · cases h
  | cons c rest ih =>
    simp only [cutAt?] at h
    split at h
    · rename_i hp
      cases h
      have hp := List.isPrefixOf_iff_prefix.1 hp
      simpa using List.prefix_iff_eq_append.1 hp
    · obtain ⟨inner, hi, rfl⟩ := Option.map_eq_some_iff.1 h
      have := ih hi
      simp_all

section

variable [LawfulBEq α] {needle front text : List α}

/-- There is no first occurrence exactly if there is no occurrence. -/
theorem cutAt?_eq_none_iff : cutAt? needle text = none ↔ ¬needle <:+: text := by
  induction text with
  | nil => simp [cutAt?]
  | cons c rest ih =>
    rw [cutAt?, List.infix_cons_iff, not_or]
    split
    · rename_i hp
      exact iff_of_false (Option.some_ne_none _) fun h => h.1 (List.isPrefixOf_iff_prefix.1 hp)
    · rename_i hp
      rw [Option.map_eq_none_iff, ih]
      exact (and_iff_right fun h => hp (List.isPrefixOf_iff_prefix.2 h)).symm

/-- What stands in front is passed over if `needle` does not start there. -/
theorem cutAt?_append
    (h : ∀ suffix, suffix <:+ front → suffix ≠ [] → ¬needle <+: suffix ++ text) :
    cutAt? needle (front ++ text) =
      (cutAt? needle text).map fun cut => (front ++ cut.1, cut.2) := by
  induction front with
  | nil => simp
  | cons c front ih =>
    have hc := h (c :: front) List.suffix_rfl (List.cons_ne_nil c front)
    have hfront := ih fun suffix hs => h suffix (hs.trans (List.suffix_cons c front))
    rw [List.cons_append] at hc ⊢
    rw [cutAt?, if_neg (mt List.isPrefixOf_iff_prefix.1 hc), hfront, Option.map_map]
    rfl

theorem cutAt?_append_of_not_mem {c : α} {more : List α} (h : c ∉ front) :
    cutAt? (c :: more) (front ++ text) =
      (cutAt? (c :: more) text).map fun cut => (front ++ cut.1, cut.2) := by
  refine cutAt?_append fun suffix hs hne hp => ?_
  cases suffix with
  | nil => exact hne rfl
  | cons x suffix =>
    have hx := (List.cons_prefix_cons.1 hp).1
    exact h (hx ▸ hs.subset List.mem_cons_self)

/-- An occurrence that no other one starts before is the first. -/
theorem cutAt?_append_append (h : ¬needle <:+: front ++ needle.dropLast) (rest : List α) :
    cutAt? needle (front ++ (needle ++ rest)) = some (front, rest) := by
  have hcut : cutAt? needle (needle ++ rest) = some ([], rest) := by
    cases needle with
    | nil => exact absurd List.nil_infix h
    | cons c more => simp [cutAt?]
  rw [cutAt?_append, hcut]
  · simp
  · intro suffix hs hsuffix hp
    obtain ⟨before, rfl⟩ := hs
    have hlength : needle.length ≤ (suffix ++ needle.dropLast).length := by
      have := List.length_pos_iff.2 hsuffix
      rw [List.length_append, List.length_dropLast]
      omega
    have hshort : suffix ++ needle.dropLast <+: suffix ++ (needle ++ rest) :=
      (List.prefix_append_right_inj suffix).2
        ((List.dropLast_prefix needle).trans (List.prefix_append ..))
    refine h ?_
    rw [List.append_assoc]
    exact (List.prefix_of_prefix_length_le hp hshort hlength).isInfix.trans
      (List.suffix_append ..).isInfix

end

/-- Where the last mark cuts a text, the three parts make up the text. -/
theorem append_of_cutAtLast? [LawfulBEq α] {mark : α} {text : List α} {cut : List α × List α}
    (h : cutAtLast? mark text = some cut) : cut.1 ++ mark :: cut.2 = text := by
  induction text generalizing cut with
  | nil => cases h
  | cons c rest ih =>
    simp only [cutAtLast?] at h
    split at h
    · rename_i inner hi
      cases h
      simpa using ih hi
    · split at h
      · rename_i hc; cases h; simpa using (eq_of_beq hc).symm
      · cases h

/-- There is a last mark exactly if there is a mark. -/
theorem cutAtLast?_eq_none_iff [LawfulBEq α] {mark : α} {text : List α} :
    cutAtLast? mark text = none ↔ mark ∉ text := by
  induction text with
  | nil => simp [cutAtLast?]
  | cons c rest ih =>
    simp only [cutAtLast?]
    split
    · rename_i inner hi
      have : mark ∈ rest := by
        rw [← append_of_cutAtLast? hi]; simp
      simp [this]
    · rename_i hn
      have hm := ih.1 hn
      split
      · rename_i hc; simp [eq_of_beq hc]
      · rename_i hc
        have : mark ≠ c := fun e => hc (by simp [e])
        simp [hm, this]

/-- What follows the last mark is all that follows a mark after which there is none. -/
theorem cutAtLast?_append_cons [LawfulBEq α] {mark : α} {before after : List α}
    (h : mark ∉ after) :
    cutAtLast? mark (before ++ mark :: after) = some (before, after) := by
  induction before with
  | nil => simp [cutAtLast?, cutAtLast?_eq_none_iff.2 h]
  | cons c before ih => simp [cutAtLast?, ih]

end CallTrace.Text
