import CallTrace.Proofs.Endpoint.Writing
import CallTrace.Proofs.Record.Trace
import CallTrace.Request

/-!
# Requests are framed

A receiver takes the bytes up to the first empty line for the head, whose lines end in a carriage
return and a line feed, and after it as many bytes as the head tells (`Request.receive?`). No line
of the head is empty or has a carriage return in it (`Request.spec_of_mem_headLines`), so the first
empty line is the one that ends the head (`Request.cutAt?_blankLine`), whatever the body has in it,
and the receiver finds the lines (`Request.linesOf_intercalate`) and the body
(`Request.post_framed`).
-/

namespace CallTrace.Request

open Text

/-! ## What a receiver does -/

/-- A line end in bytes. -/
def crlf : Bytes := [0x0d, 0x0a]

/-- The line end of the last line of a head, and the empty line after it. -/
def blankLine : Bytes := crlf ++ crlf

/-- The lines of bytes, which line ends separate. -/
def linesOf : Bytes → List Bytes
  | [] => [[]]
  | 0x0d :: 0x0a :: rest => [] :: linesOf rest
  | b :: rest => (linesOf rest).modifyHead (List.cons b)

/-- The length of the body, as the first line that gives one has it. -/
def contentLength? (lines : List Bytes) : Option Nat :=
  ((lines.findSome? (afterHead? (Utf8.ofString "Content-Length: "))).bind Utf8.decode?).bind
    Decimal.readDigits?

/-- The body of the request that a stream of bytes starts with, and what follows it. -/
def receive? (stream : Bytes) : Option (Bytes × Bytes) :=
  (cutAt? blankLine stream).bind fun (head, rest) =>
    (contentLength? (linesOf head)).bind fun length =>
      if length ≤ rest.length then some (rest.take length, rest.drop length) else none

/-! ## Lines -/

/-- The bytes of a line of a head. -/
structure IsLine (line : Bytes) : Prop where
  ne_nil : line ≠ []
  return_not_mem : 0x0d ∉ line
  lineFeed_not_mem : 0x0a ∉ line

section

variable {line : Bytes} {lines : List Bytes}

theorem IsLine.head?_ne (h : IsLine line) (rest : Bytes) : (line ++ rest).head? ≠ some 0x0d := by
  obtain ⟨b, line, rfl⟩ := List.exists_cons_of_ne_nil h.ne_nil
  exact fun heq => h.return_not_mem (Option.some.inj heq ▸ List.mem_cons_self)

theorem cutAt?_blankLine_of_not_mem (h : 0x0d ∉ line) (rest : Bytes) :
    cutAt? blankLine (line ++ rest) =
      (cutAt? blankLine rest).map fun cut => (line ++ cut.1, cut.2) :=
  cutAt?_append_of_not_mem h

/-- The search for the empty line goes on behind a line that is followed by another. -/
theorem cutAt?_blankLine_append (h : 0x0d ∉ line) {rest : Bytes} (hrest : rest.head? ≠ some 0x0d) :
    cutAt? blankLine (line ++ (crlf ++ rest)) =
      (cutAt? blankLine rest).map fun cut => (line ++ (crlf ++ cut.1), cut.2) := by
  have hcrlf : cutAt? blankLine (crlf ++ rest) =
      (cutAt? blankLine rest).map fun cut => (crlf ++ cut.1, cut.2) := by
    refine cutAt?_append fun suffix hsuffix hne hblank => ?_
    rcases List.suffix_cons_iff.1 hsuffix with rfl | hsuffix
    · obtain ⟨rest, rfl⟩ : crlf <+: rest := (List.prefix_append_right_inj crlf).1 hblank
      exact hrest rfl
    · rcases List.suffix_cons_iff.1 hsuffix with rfl | hsuffix
      · exact absurd (List.cons_prefix_cons.1 hblank).1 (by decide)
      · exact hne (List.suffix_nil.1 hsuffix)
  rw [cutAt?_blankLine_of_not_mem h, hcrlf, Option.map_map]
  rfl

theorem cutAt?_blankLine (hne : lines ≠ []) (h : ∀ line ∈ lines, IsLine line) (rest : Bytes) :
    cutAt? blankLine (lines.flatMap (· ++ crlf) ++ (crlf ++ rest)) =
      some (crlf.intercalate lines, rest) := by
  induction lines with
  | nil => exact absurd rfl hne
  | cons line lines ih =>
    have hline := (h line List.mem_cons_self).return_not_mem
    cases lines with
    | nil =>
      have hblank : cutAt? blankLine (crlf ++ (crlf ++ rest)) = some ([], rest) := by
        simp [crlf, blankLine, cutAt?]
      rw [List.flatMap_singleton, List.append_assoc, List.intercalate_singleton,
        cutAt?_blankLine_of_not_mem hline, hblank, Option.map_some, List.append_nil]
    | cons next lines =>
      have hnext := h next (List.mem_cons_of_mem _ List.mem_cons_self)
      have hrest := ih (List.cons_ne_nil next lines) fun line hmem =>
        h line (List.mem_cons_of_mem _ hmem)
      rw [List.flatMap_cons, List.append_assoc, List.append_assoc, cutAt?_blankLine_append hline,
        hrest, List.intercalate_cons_cons]
      · simp
      · rw [List.flatMap_cons, List.append_assoc, List.append_assoc]
        exact hnext.head?_ne _

theorem linesOf_cons {b : UInt8} (h : b ≠ 0x0d) (rest : Bytes) :
    linesOf (b :: rest) = (linesOf rest).modifyHead (List.cons b) := by
  rw [linesOf]
  exact fun _ hb _ => h hb

theorem linesOf_append (h : 0x0d ∉ line) (rest : Bytes) :
    linesOf (line ++ (crlf ++ rest)) = line :: linesOf rest := by
  induction line with
  | nil => rfl
  | cons b line ih =>
    rw [List.cons_append, linesOf_cons (List.ne_of_not_mem_cons h).symm,
      ih (List.not_mem_of_not_mem_cons h), List.modifyHead_cons]

theorem linesOf_of_not_mem (h : 0x0d ∉ line) : linesOf line = [line] := by
  induction line with
  | nil => rfl
  | cons b line ih =>
    rw [linesOf_cons (List.ne_of_not_mem_cons h).symm, ih (List.not_mem_of_not_mem_cons h),
      List.modifyHead_cons]

theorem linesOf_intercalate (hne : lines ≠ []) (h : ∀ line ∈ lines, IsLine line) :
    linesOf (crlf.intercalate lines) = lines := by
  induction lines with
  | nil => exact absurd rfl hne
  | cons line lines ih =>
    have hline := (h line List.mem_cons_self).return_not_mem
    cases lines with
    | nil => rw [List.intercalate_singleton, linesOf_of_not_mem hline]
    | cons next lines =>
      rw [List.intercalate_cons_cons, List.append_assoc, linesOf_append hline,
        ih (List.cons_ne_nil next lines) fun line hmem => h line (List.mem_cons_of_mem _ hmem)]

end

/-! ## The head -/

theorem encode_lineEnd : Utf8.encode lineEnd = crlf := rfl

theorem encode_flatMap_lineEnd (lines : List (List Char)) :
    Utf8.encode (lines.flatMap (· ++ lineEnd)) =
      (lines.map Utf8.encode).flatMap (· ++ crlf) := by
  induction lines with
  | nil => rfl
  | cons line lines ih =>
    rw [List.flatMap_cons, List.map_cons, List.flatMap_cons, Utf8.encode_append,
      Utf8.encode_append, ih, encode_lineEnd]

theorem post_eq (endpoint : Endpoint) (body : Bytes) :
    post endpoint body =
      ((headLines endpoint body.length).map Utf8.encode).flatMap (· ++ crlf) ++ (crlf ++ body) := by
  rw [post, head, Utf8.encode_append, encode_flatMap_lineEnd, encode_lineEnd, List.append_assoc]

/-- A name is not found where another one stands. -/
theorem afterHead?_append_eq_none {name other : Bytes} (h : ¬name <+: other) (h' : ¬other <+: name)
    (rest : Bytes) : afterHead? name (other ++ rest) = none := by
  refine Option.eq_none_iff_forall_ne_some.2 fun value hvalue => ?_
  have heq := afterHead?_eq_some_iff.1 hvalue
  rcases List.prefix_or_prefix_of_prefix ⟨value, heq.symm⟩ ⟨rest, rfl⟩ with hp | hp
  · exact h hp
  · exact h' hp

variable {endpoint : Endpoint}

/-- The length of the body stands in one line of the head only, whatever the others say. -/
theorem contentLength?_headLines (endpoint : Endpoint) (length : Nat) :
    contentLength? ((headLines endpoint length).map Utf8.encode) = some length := by
  have hlength : afterHead? (Utf8.ofString "Content-Length: ")
      (Utf8.encode "Content-Length: ".toList ++ Utf8.encode (Decimal.ofNat length)) =
        some (Utf8.encode (Decimal.ofNat length)) :=
    afterHead?_eq_some_iff.2 rfl
  have htype : afterHead? (Utf8.ofString "Content-Length: ")
      (Utf8.encode "Content-Type: text/plain".toList) = none := by decide +kernel
  simp only [contentLength?, headLines, List.map_cons, Utf8.encode_append, List.append_assoc,
    List.findSome?_cons, htype, hlength]
  rw [afterHead?_append_eq_none (by decide +kernel) (by decide +kernel),
    afterHead?_append_eq_none (by decide +kernel) (by decide +kernel),
    afterHead?_append_eq_none (by decide +kernel) (by decide +kernel)]
  simp only [Option.bind_some, Utf8.decode?_encode, Decimal.readDigits?_ofNat]

/-- No line of the head is empty, and no line end stands in one unless it stands in the host or in
the target. -/
theorem spec_of_mem_headLines {c : Char} (hc : c ∈ lineEnd) (hhost : c ∉ endpoint.host.toList)
    (htarget : c ∉ endpoint.target.toList) {length : Nat} {line : List Char}
    (hline : line ∈ headLines endpoint length) : line ≠ [] ∧ c ∉ line := by
  have hchar : c = '\r' ∨ c = '\n' := by simpa [lineEnd] using hc
  have hdigit : c.isDigit = false := by rcases hchar with rfl | rfl <;> rfl
  have hheader : c ∉ endpoint.hostHeader.toList := by
    refine (Endpoint.addresses_hostHeader endpoint).not_mem hhost ?_ hdigit
    rcases hchar with rfl | rfl <;> decide
  have hlength : c ∉ Decimal.ofNat length := by
    intro h
    rw [Decimal.isDigit_of_mem_ofNat h] at hdigit
    cases hdigit
  simp only [headLines, List.mem_cons, List.not_mem_nil, or_false] at hline
  -- what is left are the fixed texts of the lines
  rcases hchar with rfl | rfl <;> rcases hline with rfl | rfl | rfl | rfl | rfl | rfl <;>
    simp [htarget, hheader, hlength, userAgent]

section

variable (hhost : ∀ c ∈ lineEnd, c ∉ endpoint.host.toList)
  (htarget : ∀ c ∈ lineEnd, c ∉ endpoint.target.toList)

include hhost htarget

theorem isLine_of_mem_headLines {length : Nat} {line : Bytes}
    (h : line ∈ (headLines endpoint length).map Utf8.encode) : IsLine line := by
  obtain ⟨text, htext, rfl⟩ := List.mem_map.1 h
  have hspec {c : Char} (hc : c ∈ lineEnd) :=
    spec_of_mem_headLines hc (hhost c hc) (htarget c hc) htext
  have hreturn : '\r' ∈ lineEnd := List.mem_cons_self
  have hlineFeed : '\n' ∈ lineEnd := List.mem_cons_of_mem _ List.mem_cons_self
  obtain ⟨hne, hmem⟩ := hspec hreturn
  refine ⟨?_, Utf8.not_mem_encode (by decide) (by decide) hmem,
    Utf8.not_mem_encode (by decide) (by decide) (hspec hlineFeed).2⟩
  obtain ⟨c, text, rfl⟩ := List.exists_cons_of_ne_nil hne
  rw [Utf8.encode_cons]
  exact List.append_ne_nil_of_left_ne_nil (String.utf8EncodeChar_ne_nil) _

/-- The first empty line is the one that ends the head. -/
theorem cutAt?_post (body more : Bytes) :
    cutAt? blankLine (post endpoint body ++ more) =
      some (crlf.intercalate ((headLines endpoint body.length).map Utf8.encode), body ++ more) := by
  rw [post_eq, List.append_assoc, List.append_assoc]
  exact cutAt?_blankLine (List.cons_ne_nil _ _)
    (fun _ hline => isLine_of_mem_headLines hhost htarget hline) (body ++ more)

theorem linesOf_head (length : Nat) :
    linesOf (crlf.intercalate ((headLines endpoint length).map Utf8.encode)) =
      (headLines endpoint length).map Utf8.encode :=
  linesOf_intercalate (List.cons_ne_nil _ _) fun _ hline =>
    isLine_of_mem_headLines hhost htarget hline

theorem receive?_post (body more : Bytes) :
    receive? (post endpoint body ++ more) = some (body, more) := by
  rw [receive?, cutAt?_post hhost htarget, Option.bind_some]
  dsimp only
  rw [linesOf_head hhost htarget, contentLength?_headLines, Option.bind_some, if_pos (by simp),
    List.take_left, List.drop_left]

/-- **Requests are framed.** Up to the first empty line there are exactly the six lines of the head,
in which no line end stands, and after it there is exactly the body, whatever it is made of. The
length in the head is the canonical text of the body's length, so a receiver that takes as many
bytes recovers the body from a stream, and different bodies make different requests. -/
theorem post_framed (body : Bytes) :
    ∃ (head : Bytes) (length : String),
      cutAt? blankLine (post endpoint body) = some (head, body) ∧
        linesOf head =
          ["POST " ++ endpoint.target ++ " HTTP/1.1", "Host: " ++ endpoint.hostHeader,
            "User-Agent: cgtrace/0.1.0", "Content-Type: text/plain", "Content-Length: " ++ length,
            "Connection: close"].map Utf8.ofString ∧
        (∀ line ∈ linesOf head, 0x0d ∉ line ∧ 0x0a ∉ line) ∧
        Decimal.Canonical length.toList body.length ∧
        (∀ more, receive? (post endpoint body ++ more) = some (body, more)) ∧
        ∀ body', post endpoint body' = post endpoint body → body' = body := by
  have hcut (body : Bytes) := cutAt?_post hhost htarget body []
  simp only [List.append_nil] at hcut
  refine ⟨_, String.ofList (Decimal.ofNat body.length), hcut body, ?_, ?_, ?_,
    receive?_post hhost htarget body, fun body' heq => ?_⟩
  · rw [linesOf_head hhost htarget]
    simp [headLines, Utf8.ofString, userAgent]
  · rw [linesOf_head hhost htarget]
    intro line hline
    have hspec := isLine_of_mem_headLines hhost htarget hline
    exact ⟨hspec.return_not_mem, hspec.lineFeed_not_mem⟩
  · rw [String.toList_ofList]
    exact Decimal.canonical_ofNat _
  · have hbody := hcut body'
    rw [heq, hcut body] at hbody
    exact (Prod.mk.inj (Option.some.inj hbody)).2.symm

end

/-- A body that looks like the end of a head and the start of another request. -/
theorem post_framed_nested :
    let endpoint : Endpoint := ⟨"::1", 8081, "/in?Content-Length: 1"⟩
    let body := Utf8.ofString "\r\n\r\nPOST / HTTP/1.1\r\nContent-Length: 2\r\n\r\n\n"
    Endpoint.ofUrl "http://[::1]:8081/in?Content-Length: 1" = .ok endpoint ∧
      (∀ c ∈ lineEnd, c ∉ endpoint.host.toList) ∧ (∀ c ∈ lineEnd, c ∉ endpoint.target.toList) ∧
      (∃ head, cutAt? blankLine (post endpoint body) = some (head, body)) ∧
      receive? (post endpoint body ++ post endpoint []) = some (body, post endpoint []) := by
  intro endpoint body
  have hread : Endpoint.ofUrl "http://[::1]:8081/in?Content-Length: 1" = .ok endpoint :=
    Endpoint.ofUrl_eq_ok_iff.2 (by decide +kernel)
  have hhost : ∀ c ∈ lineEnd, c ∉ endpoint.host.toList :=
    List.forall_mem_cons.2 ⟨by decide +kernel, List.forall_mem_singleton.2 (by decide +kernel)⟩
  have htarget : ∀ c ∈ lineEnd, c ∉ endpoint.target.toList :=
    List.forall_mem_cons.2 ⟨by decide +kernel, List.forall_mem_singleton.2 (by decide +kernel)⟩
  obtain ⟨head, length, hcut, -, -, -, hreceive, -⟩ := post_framed hhost htarget body
  exact ⟨hread, hhost, htarget, ⟨head, hcut⟩, hreceive _⟩

end CallTrace.Request
