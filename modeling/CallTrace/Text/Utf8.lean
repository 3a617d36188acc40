/-!
# UTF-8

Text as bytes. Decoding is either strict, or puts the replacement character for every stretch of
bytes that is no part of a character.
-/

namespace CallTrace

/-- What streams, files and requests are made of. -/
abbrev Bytes := List UInt8

namespace Utf8

/-- The bytes of a text. -/
def encode (text : List Char) : Bytes :=
  text.flatMap String.utf8EncodeChar

/-- The bytes of a string. -/
def ofString (text : String) : Bytes :=
  encode text.toList

/-- The text that the bytes encode, if they encode one. -/
def decode? (bytes : Bytes) : Option (List Char) :=
  (String.fromUTF8? bytes.toByteArray).map String.toList

/-- What stands for bytes that are no character. -/
def replacement : Char := '\ufffd'

/-- Whether `second` may follow `lead` in a character of three or four bytes. -/
def mayFollow (lead second : UInt8) : Bool :=
  if lead == 0xe0 then 0xa0 ≤ second && second ≤ 0xbf
  else if lead == 0xed then 0x80 ≤ second && second ≤ 0x9f
  else if lead == 0xf0 then 0x90 ≤ second && second ≤ 0xbf
  else if lead == 0xf4 then 0x80 ≤ second && second ≤ 0x8f
  else 0xe1 ≤ lead && lead ≤ 0xf3 && 0x80 ≤ second && second ≤ 0xbf

/-- Where no character starts with `lead`: how many bytes make up the longest start of a character
there, or one if `lead` starts none. -/
def malformedLength (lead : UInt8) : Bytes → Nat
  | [] => 1
  | [second] => if mayFollow lead second then 2 else 1
  | second :: third :: _ =>
    if mayFollow lead second then
      if 0xf0 ≤ lead && 0x80 ≤ third && third ≤ 0xbf then 3 else 2
    else 1

/-- The text of the bytes, with one replacement character for each malformed stretch. -/
def decodeLossy : Bytes → List Char
  | [] => []
  | lead :: rest =>
    match ((lead :: rest.take 3).toByteArray).utf8DecodeChar? 0 with
    | some c => c :: decodeLossy (rest.drop (c.utf8Size - 1))
    | none => replacement :: decodeLossy (rest.drop (malformedLength lead rest - 1))
termination_by bytes => bytes.length
decreasing_by all_goals simp only [List.length_drop, List.length_cons]; omega

@[simp] theorem encode_nil : encode [] = [] := rfl

@[simp] theorem encode_append (a b : List Char) : encode (a ++ b) = encode a ++ encode b := by
  simp [encode]

theorem encode_cons (c : Char) (text : List Char) :
    encode (c :: text) = String.utf8EncodeChar c ++ encode text := by
  simp [encode]

theorem length_encode_of_ascii {text : List Char} (h : ∀ c ∈ text, c.toNat < 128) :
    (encode text).length = text.length := by
  induction text with
  | nil => rfl
  | cons c text ih =>
    obtain ⟨hc, htext⟩ := List.forall_mem_cons.1 h
    have hsize : c.utf8Size = 1 := Char.utf8Size_eq_one_iff.2 (Nat.le_of_lt_succ hc)
    rw [encode_cons, List.length_append, String.length_utf8EncodeChar, hsize, ih htext,
      List.length_cons, Nat.add_comm]

/-- Decoding gives back the text that was encoded. -/
theorem decode?_encode (text : List Char) : decode? (encode text) = some text := by
  have h : (encode text).toByteArray = (String.ofList text).toByteArray := by
    rw [String.toByteArray_ofList]; rfl
  have hv := (String.ofList text).isValidUTF8
  simp only [decode?, String.fromUTF8?, h, hv, ↓reduceDIte, Option.map_some]
  exact congrArg some String.toList_ofList

/-- Only the bytes of a text decode to it. -/
theorem eq_encode_of_decode? {bytes : Bytes} {text : List Char} (h : decode? bytes = some text) :
    bytes = encode text := by
  obtain ⟨s, hs, rfl⟩ := Option.map_eq_some_iff.1 h
  simp only [String.fromUTF8?] at hs
  split at hs
  · cases hs
    rename_i hv
    have he := (String.fromUTF8 bytes.toByteArray hv).utf8Encode_toList
    have : (encode (String.fromUTF8 bytes.toByteArray hv).toList).toByteArray
        = bytes.toByteArray := he
    have := congrArg (fun b => b.data.toList) this
    simpa using this.symm
  · cases hs

theorem decode?_eq_some_iff {bytes : Bytes} {text : List Char} :
    decode? bytes = some text ↔ bytes = encode text :=
  ⟨eq_encode_of_decode?, fun h => h ▸ decode?_encode text⟩

end Utf8

end CallTrace
