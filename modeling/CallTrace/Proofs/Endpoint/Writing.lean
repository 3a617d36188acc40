import CallTrace.Proofs.Decimal
import CallTrace.Proofs.Endpoint.Reading
import Mathlib.Data.List.Basic

/-!
# Written URLs are read back

The host of an endpoint that was read has no slash and does not start with a bracket that is closed
(`Endpoint.Legible`, `Endpoint.legible_of_ofUrl`). Such a host, written out with a port or without
one, is read as it is (`Endpoint.splitAuthority_written`), unless it has both a colon, so that it
comes to stand in brackets, and a closing bracket, which then ends it too early
(`Endpoint.splitAuthority_written_ne`).

An address and a `Host` header write the host and the port in one way, which may leave out the
default port (`Endpoint.Addresses`). Whichever stands in a URL, the endpoint is read back from it
unless the host is of that kind (`Endpoint.Legible.ofUrl_of_addresses`).
-/

namespace CallTrace.Endpoint

open Text

/-! ## Authorities -/

/-- No bracket at the start is closed. -/
def Unbracketed (text : List Char) : Prop :=
  text.head? = some '[' → ']' ∉ text

section

variable {authority host port : List Char}

theorem splitAuthority_bracketed (h : ']' ∉ host) (after : List Char) :
    splitAuthority ('[' :: (host ++ ']' :: after)) = (host, afterHead? [':'] after) := by
  have hopen : afterHead? ['['] ('[' :: (host ++ ']' :: after)) = some (host ++ ']' :: after) :=
    afterHead?_eq_some_iff.2 rfl
  have hclose : cutAt? [']'] (host ++ ']' :: after) = some (host, after) := by
    rw [cutAt?_append_of_not_mem h]
    simp [cutAt?]
  simp only [splitAuthority, hopen, Option.bind_some, hclose]

theorem splitAuthority_of_unbracketed (h : Unbracketed authority) :
    splitAuthority authority =
      match cutAtLast? ':' authority with
      | some (host, port) => (host, some port)
      | none => (authority, none) := by
  have hnone : (afterHead? ['['] authority).bind (cutAt? [']']) = none := by
    rw [Option.bind_eq_none_iff]
    intro rest hrest
    obtain rfl := afterHead?_eq_some_iff.1 hrest
    rw [cutAt?_eq_none_iff]
    exact fun hclose => h rfl (List.mem_cons_of_mem _ (hclose.subset List.mem_cons_self))
  cases hcut : cutAtLast? ':' authority <;> simp only [splitAuthority, hnone, hcut]

theorem splitAuthority_port (h : Unbracketed (host ++ ':' :: port)) (hport : ':' ∉ port) :
    splitAuthority (host ++ ':' :: port) = (host, some port) := by
  rw [splitAuthority_of_unbracketed h, cutAtLast?_append_cons hport]

theorem splitAuthority_without_port (h : Unbracketed host) (hcolon : ':' ∉ host) :
    splitAuthority host = (host, none) := by
  rw [splitAuthority_of_unbracketed h, cutAtLast?_eq_none_iff.2 hcolon]

theorem exists_of_not_unbracketed (h : ¬Unbracketed authority) :
    ∃ host after, ']' ∉ host ∧ authority = '[' :: (host ++ ']' :: after) := by
  obtain ⟨hopen, hclose⟩ := Classical.not_imp.1 h
  replace hclose := Classical.not_not.1 hclose
  obtain ⟨rest, rfl⟩ := List.head?_eq_some_iff.1 hopen
  have hrest : ']' ∈ rest := (List.mem_cons.1 hclose).resolve_left (by decide)
  obtain ⟨host, after, rfl, hhost⟩ := List.eq_append_cons_of_mem hrest
  exact ⟨host, after, hhost, rfl⟩

/-- A host that is split off does not start with a bracket that is closed. -/
theorem splitAuthority_spec (authority : List Char) :
    Unbracketed (splitAuthority authority).1 ∧ (splitAuthority authority).1 ⊆ authority := by
  by_cases h : Unbracketed authority
  · rw [splitAuthority_of_unbracketed h]
    split
    · rename_i host port hcut
      obtain rfl := append_of_cutAtLast? hcut
      refine ⟨fun hopen hclose => h ?_ (List.mem_append_left _ hclose), List.subset_append_left ..⟩
      rw [List.head?_append, hopen, Option.some_or]
    · exact ⟨h, List.Subset.refl _⟩
  · obtain ⟨host, after, hhost, rfl⟩ := exists_of_not_unbracketed h
    rw [splitAuthority_bracketed hhost]
    exact ⟨fun _ => hhost, fun c hc => List.mem_cons_of_mem _ (List.mem_append_left _ hc)⟩

end

/-! ## Written hosts -/

/-- A host as it is written: in brackets if it has a colon. -/
def written (host : List Char) : List Char :=
  if ':' ∈ host then '[' :: (host ++ [']']) else host

/-- The end of an authority that names a port or none. -/
def portPart : Option (List Char) → List Char
  | some port => ':' :: port
  | none => []

theorem not_mem_written {host : List Char} {c : Char} (hopen : c ≠ '[') (hclose : c ≠ ']')
    (hhost : c ∉ host) : c ∉ written host := by
  unfold written
  split
  · simp [hopen, hclose, hhost]
  · exact hhost

theorem not_mem_portPart {port : Option (List Char)} {c : Char} (hcolon : c ≠ ':')
    (hport : ∀ text ∈ port, c ∉ text) : c ∉ portPart port := by
  cases port with
  | none => exact List.not_mem_nil
  | some port => exact List.not_mem_cons_of_ne_of_not_mem hcolon (hport port rfl)

theorem afterHead?_portPart (port : Option (List Char)) :
    afterHead? [':'] (portPart port) = port := by
  cases port with
  | none => rfl
  | some port => exact afterHead?_eq_some_iff.2 rfl

section

variable {host : List Char}

/-- **A written host is read as it is,** with a port or without one. -/
theorem splitAuthority_written (hhost : Unbracketed host) (hends : ¬(':' ∈ host ∧ ']' ∈ host))
    {port : Option (List Char)} (hport : ∀ text ∈ port, ':' ∉ text ∧ ']' ∉ text) :
    splitAuthority (written host ++ portPart port) = (host, port) := by
  by_cases hcolon : ':' ∈ host
  · have hclose : ']' ∉ host := fun h => hends ⟨hcolon, h⟩
    have hshape : written host ++ portPart port = '[' :: (host ++ ']' :: portPart port) := by
      simp [written, hcolon]
    rw [hshape, splitAuthority_bracketed hclose, afterHead?_portPart]
  · rw [written, if_neg hcolon]
    cases port with
    | none =>
      rw [portPart, List.append_nil]
      exact splitAuthority_without_port hhost hcolon
    | some port =>
      obtain ⟨hport, hclose⟩ := hport port rfl
      refine splitAuthority_port (fun hopen => ?_) hport
      -- a bracket at the start is the start of the host
      cases host with
      | nil => cases hopen
      | cons c host => simpa [hclose] using hhost hopen

/-- **A closing bracket in a host that is put in brackets** ends it too early. -/
theorem splitAuthority_written_ne (hcolon : ':' ∈ host) (hclose : ']' ∈ host)
    (after : List Char) : (splitAuthority (written host ++ after)).1 ≠ host := by
  obtain ⟨inner, rest, rfl, hinner⟩ := List.eq_append_cons_of_mem hclose
  have hshape : written (inner ++ ']' :: rest) ++ after =
      '[' :: (inner ++ ']' :: (rest ++ ']' :: after)) := by
    simp only [written, if_pos hcolon, List.cons_append, List.append_assoc, List.nil_append]
  rw [hshape, splitAuthority_bracketed hinner]
  intro (heq : inner = inner ++ ']' :: rest)
  rw [← heq] at hclose
  exact hinner hclose

end

/-! ## Targets -/

theorem splitTarget_append {authority target : List Char} (hslash : '/' ∉ authority)
    (htarget : target.head? = some '/') :
    splitTarget (authority ++ target) = (authority, target) := by
  obtain ⟨rest, rfl⟩ := List.head?_eq_some_iff.1 htarget
  have hall : ∀ c ∈ authority, (c != '/') = true := by
    intro c hc
    simpa using fun h : c = '/' => hslash (h ▸ hc)
  unfold splitTarget
  rw [List.takeWhile_append_of_pos hall, List.dropWhile_append_of_pos hall]
  simp

/-- A target starts with a slash, and it ends as the URL does or is a slash. -/
theorem splitTarget_spec (rest : List Char) :
    '/' ∉ (splitTarget rest).1 ∧ (splitTarget rest).2.head? = some '/' ∧
      ∀ c ∈ (splitTarget rest).2.getLast?, c = '/' ∨ c ∈ rest.getLast? := by
  have htarget : (rest.dropWhile (· != '/')).head? = some '/' ∨ rest.dropWhile (· != '/') = [] := by
    have hhead := List.head?_dropWhile_not (· != '/') rest
    cases hdrop : rest.dropWhile (· != '/') with
    | nil => exact .inr rfl
    | cons c target =>
      rw [hdrop] at hhead
      exact .inl (congrArg some (by simpa using hhead))
  refine ⟨fun h => ?_, ?_⟩
  · simpa using List.all_eq_true.1 List.all_takeWhile '/' h
  · unfold splitTarget
    dsimp only
    rcases htarget with hhead | hnil
    · have hne : (rest.dropWhile (· != '/')).isEmpty = false := by
        obtain ⟨target, htarget⟩ := List.head?_eq_some_iff.1 hhead
        rw [htarget]
        rfl
      rw [if_neg (by simp [hne])]
      refine ⟨hhead, fun c hc => .inr ?_⟩
      have hrest := List.takeWhile_append_dropWhile (p := (· != '/')) (l := rest)
      rw [← hrest, List.getLast?_append, hc]
      rfl
    · rw [hnil]
      exact ⟨rfl, fun c hc => .inl (Option.some.inj hc).symm⟩

/-! ## Endpoints that were read -/

/-- What holds of an endpoint that was read. -/
structure Legible (endpoint : Endpoint) : Prop where
  host_ne : endpoint.host ≠ ""
  slash_not_mem : '/' ∉ endpoint.host.toList
  unbracketed : Unbracketed endpoint.host.toList
  head?_target : endpoint.target.toList.head? = some '/'
  getLast?_target : ∀ c ∈ endpoint.target.toList.getLast?, isBlank c = false

variable {url : String} {endpoint : Endpoint}

theorem ofAuthority?_eq_some_iff {authority target : List Char} :
    ofAuthority? authority target = some endpoint ↔
      (splitAuthority authority).1 = endpoint.host.toList ∧ endpoint.host ≠ "" ∧
        readPort (splitAuthority authority).2 = endpoint.port ∧
        target = endpoint.target.toList := by
  obtain ⟨host, port, target'⟩ := endpoint
  have hempty : host ≠ "" ↔ host.toList ≠ [] := by simp
  simp only [ofAuthority?, hempty]
  generalize splitAuthority authority = parts
  obtain ⟨host', port'⟩ := parts
  cases host' with
  | nil =>
    refine iff_of_false (by simp) fun h => h.2.1 h.1.symm
  | cons c host' =>
    simp only [List.isEmpty_cons, Bool.false_eq_true, if_false, Option.some.injEq,
      Endpoint.mk.injEq, ← String.toList_inj, String.toList_ofList]
    constructor
    · rintro ⟨hhost, hport, htarget⟩
      exact ⟨hhost, hhost ▸ List.cons_ne_nil c host', hport, htarget⟩
    · rintro ⟨hhost, -, hport, htarget⟩
      exact ⟨hhost, hport, htarget⟩

theorem legible_of_ofUrl (h : ofUrl url = .ok endpoint) : endpoint.Legible := by
  have hrest := ofUrl_eq_ok_iff.1 h
  generalize hurl : dropScheme (trim url.toList) = rest at hrest
  obtain ⟨hslash, hhead, hlast⟩ := splitTarget_spec rest
  obtain ⟨hhost, hne, -, htarget⟩ := ofAuthority?_eq_some_iff.1 hrest
  obtain ⟨hopen, hsubset⟩ := splitAuthority_spec (splitTarget rest).1
  rw [hhost] at hopen hsubset
  rw [htarget] at hhead hlast
  refine ⟨hne, fun hc => hslash (hsubset hc), hopen, hhead, fun c hc => ?_⟩
  rcases hlast c hc with rfl | hc
  · rfl
  · obtain ⟨front, hfront⟩ := hurl ▸ dropScheme_suffix (trim url.toList)
    refine isBlank_getLast?_trimEnd (trimStart url.toList) c ?_
    show c ∈ (trim url.toList).getLast?
    rw [← hfront, List.getLast?_append, hc]
    rfl

/-! ## Written endpoints -/

/-- The authority is the written host, with the port of the endpoint in digits or, if it is the
default one, without it. -/
def Addresses (endpoint : Endpoint) (authority : String) : Prop :=
  ∃ port, authority.toList = written endpoint.host.toList ++ portPart port ∧
    (∀ text ∈ port, ∀ c ∈ text, c.isDigit = true) ∧ readPort port = endpoint.port

theorem Addresses.not_mem {authority : String} (h : endpoint.Addresses authority) {c : Char}
    (hhost : c ∉ endpoint.host.toList) (hmark : c ∉ ['[', ']', ':'])
    (hdigit : c.isDigit = false) : c ∉ authority.toList := by
  obtain ⟨port, hauthority, hdigits, -⟩ := h
  simp only [List.mem_cons, List.not_mem_nil, or_false, not_or] at hmark
  rw [hauthority]
  refine List.not_mem_append (not_mem_written hmark.1 hmark.2.1 hhost)
    (not_mem_portPart hmark.2.2 fun text htext hc => ?_)
  rw [hdigits text htext c hc] at hdigit
  cases hdigit

theorem toList_hostText (endpoint : Endpoint) :
    endpoint.hostText.toList = written endpoint.host.toList := by
  unfold hostText written
  simp only [List.contains_iff_mem]
  split
  · simp
  · rfl

theorem readPort_ofNat (port : UInt16) : readPort (some (Decimal.ofNat port.toNat)) = port := by
  have hread : Decimal.readBelow? 65536 (Decimal.ofNat port.toNat) = some port.toNat :=
    Decimal.readBelow?_eq_some_iff.2
      ⟨.unsigned (Decimal.canonical_ofNat _).digits, port.toNat_lt⟩
  rw [readPort, Option.bind_some, hread]
  exact UInt16.ofNat_toNat

theorem addresses_address (endpoint : Endpoint) : endpoint.Addresses endpoint.address := by
  refine ⟨some (Decimal.ofNat endpoint.port.toNat), ?_, fun text htext c hc => ?_,
    readPort_ofNat endpoint.port⟩
  · simp [address, portText, toList_hostText, portPart]
  · exact Decimal.isDigit_of_mem_ofNat (Option.some.inj htext ▸ hc)

theorem addresses_hostHeader (endpoint : Endpoint) : endpoint.Addresses endpoint.hostHeader := by
  unfold hostHeader
  split
  · rename_i hdefault
    exact ⟨none, by simp [toList_hostText, portPart], by simp, hdefault.symm⟩
  · exact addresses_address endpoint

/-- **An endpoint is read back from its host and port** as they are written, unless the host has
both a colon and a closing bracket. -/
theorem Legible.ofUrl_of_addresses (h : endpoint.Legible) {authority : String}
    (haddresses : endpoint.Addresses authority) :
    ofUrl ("http://" ++ authority ++ endpoint.target) = .ok endpoint ↔
      ¬(':' ∈ endpoint.host.toList ∧ ']' ∈ endpoint.host.toList) := by
  have hslash : '/' ∉ authority.toList := haddresses.not_mem h.slash_not_mem (by decide) rfl
  obtain ⟨port, hauthority, hdigits, hport⟩ := haddresses
  have hmark {c : Char} (hc : c.isDigit = false) : ∀ text ∈ port, c ∉ text :=
    fun text htext hmem => by simpa [hc] using hdigits text htext c hmem
  have hend : trimEnd (authority ++ endpoint.target).toList =
      authority.toList ++ endpoint.target.toList := by
    rw [String.toList_append]
    refine trimEnd_eq_self fun c hc => h.getLast?_target c ?_
    have hne : endpoint.target.toList ≠ [] := by
      intro hnil
      simpa [hnil] using h.head?_target
    rwa [List.getLast?_append_of_ne_nil _ hne] at hc
  rw [← toOption_ofUrl_eq_some_iff, String.append_assoc, toOption_ofUrl_http, hend, ofRest?,
    splitTarget_append hslash h.head?_target, ofAuthority?_eq_some_iff, hauthority]
  constructor
  · rintro ⟨hhost, -⟩ ⟨hcolon, hclose⟩
    exact splitAuthority_written_ne hcolon hclose _ hhost
  · intro hends
    rw [splitAuthority_written h.unbracketed hends fun text htext =>
      ⟨hmark rfl text htext, hmark rfl text htext⟩]
    exact ⟨rfl, h.host_ne, hport, rfl⟩

/-- **An endpoint is read back from its URL,** and from one made of its `Host` header and its
target, if and only if its host does not have both a colon and a closing bracket. Its host is not
empty and has no slash, and its target starts with one. -/
theorem ofUrl_toUrl {url : String} {endpoint : Endpoint} (h : ofUrl url = .ok endpoint) :
    endpoint.host ≠ "" ∧ '/' ∉ endpoint.host.toList ∧
      endpoint.target.toList.head? = some '/' ∧
      (ofUrl endpoint.toUrl = .ok endpoint ↔
        ¬(':' ∈ endpoint.host.toList ∧ ']' ∈ endpoint.host.toList)) ∧
      (ofUrl ("http://" ++ endpoint.hostHeader ++ endpoint.target) = .ok endpoint ↔
        ¬(':' ∈ endpoint.host.toList ∧ ']' ∈ endpoint.host.toList)) := by
  have hlegible := legible_of_ofUrl h
  exact ⟨hlegible.host_ne, hlegible.slash_not_mem, hlegible.head?_target,
    hlegible.ofUrl_of_addresses (addresses_address endpoint),
    hlegible.ofUrl_of_addresses (addresses_hostHeader endpoint)⟩

/-- A host that starts with a bracket is written in brackets and read back; one with a colon and a
closing bracket is not. -/
theorem ofUrl_toUrl_bracketed :
    let plain : Endpoint := ⟨"[fe80::1", 8081, "/t? x"⟩
    let closed : Endpoint := ⟨"a]:b", 80, "/"⟩
    ofUrl " [[fe80::1]:+8081/t? x\t" = .ok plain ∧ ofUrl plain.toUrl = .ok plain ∧
      ofUrl ("http://" ++ plain.hostHeader ++ plain.target) = .ok plain ∧
      ofUrl "a]:b:" = .ok closed ∧ ofUrl closed.toUrl ≠ .ok closed := by
  intro plain closed
  have hplain : ofUrl " [[fe80::1]:+8081/t? x\t" = .ok plain :=
    ofUrl_eq_ok_iff.2 (by decide +kernel)
  have hclosed : ofUrl "a]:b:" = .ok closed := ofUrl_eq_ok_iff.2 (by decide +kernel)
  have hends : ¬(':' ∈ plain.host.toList ∧ ']' ∈ plain.host.toList) := by decide +kernel
  have hboth : ':' ∈ closed.host.toList ∧ ']' ∈ closed.host.toList := by decide +kernel
  obtain ⟨-, -, -, hurl, hheader⟩ := ofUrl_toUrl hplain
  obtain ⟨-, -, -, hurl', -⟩ := ofUrl_toUrl hclosed
  exact ⟨hplain, hurl.2 hends, hheader.2 hends, hclosed, fun h => hurl'.1 h hboth⟩

end CallTrace.Endpoint
