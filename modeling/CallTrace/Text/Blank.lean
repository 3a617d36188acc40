/-!
# Blank characters

The characters that Unicode calls white space, and trimming by them.
-/

namespace CallTrace.Text

/-- The characters with the Unicode property `White_Space`. -/
def isBlank (c : Char) : Bool :=
  let n := c.toNat
  (0x09 ≤ n && n ≤ 0x0d) || n == 0x20 || n == 0x85 || n == 0xa0 || n == 0x1680
    || (0x2000 ≤ n && n ≤ 0x200a) || n == 0x2028 || n == 0x2029 || n == 0x202f
    || n == 0x205f || n == 0x3000

/-- Without the blanks at the start. -/
def trimStart (text : List Char) : List Char :=
  text.dropWhile isBlank

/-- Without the blanks at the end. -/
def trimEnd (text : List Char) : List Char :=
  (text.reverse.dropWhile isBlank).reverse

/-- Without the blanks at both ends. -/
def trim (text : List Char) : List Char :=
  trimEnd (trimStart text)

theorem isBlank_of_isDigit {c : Char} (h : c.isDigit = true) : isBlank c = false := by
  obtain ⟨hlo, hhi⟩ := Char.isDigit_iff_toNat.1 h
  simp only [Char.reduceToNat] at hlo hhi
  simp only [isBlank, Bool.or_eq_false_iff, Bool.and_eq_false_iff, decide_eq_false_iff_not,
    beq_eq_false_iff_ne]
  omega

variable {front : List Char}

/-- Nothing is taken off in front of a character that is not blank. -/
theorem trimEnd_append (h : ∀ c ∈ front.getLast?, isBlank c = false) (text : List Char) :
    trimEnd (front ++ text) = front ++ trimEnd text := by
  have hfront : front.reverse.dropWhile isBlank = front.reverse := by
    cases hr : front.reverse with
    | nil => rfl
    | cons c rest =>
      rw [List.dropWhile_cons_of_neg]
      simp [h c (by rw [← List.head?_reverse, hr]; rfl)]
  rw [trimEnd, trimEnd, List.reverse_append, List.dropWhile_append, hfront]
  split
  · rename_i hempty
    rw [List.isEmpty_iff.1 hempty]
    simp
  · simp

theorem trim_append (hne : front ≠ []) (hhead : ∀ c ∈ front.head?, isBlank c = false)
    (hlast : ∀ c ∈ front.getLast?, isBlank c = false) (text : List Char) :
    trim (front ++ text) = front ++ trimEnd text := by
  have hstart : trimStart (front ++ text) = front ++ text := by
    cases front with
    | nil => exact absurd rfl hne
    | cons c front =>
      rw [List.cons_append, trimStart, List.dropWhile_cons_of_neg]
      simp [hhead c rfl]
  rw [trim, hstart, trimEnd_append hlast]

theorem trimEnd_eq_self {text : List Char} (h : ∀ c ∈ text.getLast?, isBlank c = false) :
    trimEnd text = text := by
  have happend := trimEnd_append h []
  rwa [List.append_nil, show trimEnd [] = [] from rfl, List.append_nil] at happend

theorem isPrefix_trimEnd (text : List Char) : trimEnd text <+: text := by
  rw [trimEnd, ← List.reverse_suffix, List.reverse_reverse]
  exact List.dropWhile_suffix isBlank

theorem isBlank_getLast?_trimEnd (text : List Char) :
    ∀ c ∈ (trimEnd text).getLast?, isBlank c = false := by
  intro c hc
  rw [trimEnd, List.getLast?_reverse] at hc
  have := List.head?_dropWhile_not isBlank text.reverse
  rw [hc] at this
  exact this

theorem trim_append_of_blank {front back text : List Char} (hfront : ∀ c ∈ front, isBlank c = true)
    (hback : ∀ c ∈ back, isBlank c = true) (hne : text ≠ [])
    (hhead : ∀ c ∈ text.head?, isBlank c = false) (hlast : ∀ c ∈ text.getLast?, isBlank c = false) :
    trim (front ++ (text ++ back)) = text := by
  have hstart : trim (front ++ (text ++ back)) = trim (text ++ back) := by
    rw [trim, trim, trimStart, List.dropWhile_append_of_pos hfront, ← trimStart]
  have hend : trimEnd back = [] := by
    rw [trimEnd, List.reverse_eq_nil_iff, ← List.append_nil back.reverse,
      List.dropWhile_append_of_pos fun c hc => hback c (List.mem_reverse.1 hc), List.dropWhile_nil]
  rw [hstart, trim_append hne hhead hlast, hend, List.append_nil]

/-- Only blanks are taken off. -/
theorem exists_append_trim (text : List Char) :
    ∃ front back, text = front ++ (trim text ++ back) ∧ (∀ c ∈ front, isBlank c = true) ∧
      ∀ c ∈ back, isBlank c = true := by
  have hblank (text : List Char) : ∀ c ∈ text.takeWhile isBlank, isBlank c = true :=
    List.all_eq_true.1 List.all_takeWhile
  have hend : trimStart text =
      trim text ++ ((trimStart text).reverse.takeWhile isBlank).reverse := by
    rw [trim, trimEnd, ← List.reverse_append, List.takeWhile_append_dropWhile,
      List.reverse_reverse]
  refine ⟨text.takeWhile isBlank, ((trimStart text).reverse.takeWhile isBlank).reverse, ?_,
    hblank text, fun c hc => hblank _ c (List.mem_reverse.1 hc)⟩
  rw [← hend, trimStart, List.takeWhile_append_dropWhile]

end CallTrace.Text
