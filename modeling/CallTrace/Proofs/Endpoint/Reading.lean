import CallTrace.Endpoint

/-!
# Reading URLs

What stands behind the scheme of a URL decides about the endpoint (`Endpoint.ofRest?`), and with
`http://` in front that is all the rest of the URL (`Endpoint.toOption_ofUrl_http`). Without it the
first `://` is taken for the end of a scheme wherever it stands, in the target too. So a URL may go
without its scheme if its target has no `://` (`Endpoint.ofUrl_without_scheme`).
-/

namespace CallTrace.Endpoint

open Text

/-! ## Behind the scheme -/

/-- The endpoint that an authority and a target name. -/
def ofAuthority? (authority target : List Char) : Option Endpoint :=
  match splitAuthority authority with
  | (host, port) =>
    if host.isEmpty then none
    else some ⟨String.ofList host, readPort port, String.ofList target⟩

/-- The endpoint that a URL without its scheme names. -/
def ofRest? (rest : List Char) : Option Endpoint :=
  ofAuthority? (splitTarget rest).1 (splitTarget rest).2

theorem toOption_ofUrl (url : String) :
    (ofUrl url).toOption = ofRest? (dropScheme (trim url.toList)) := by
  unfold ofUrl ofRest? ofAuthority?
  dsimp only
  split <;> rfl

theorem toOption_ofUrl_eq_some_iff {url : String} {endpoint : Endpoint} :
    (ofUrl url).toOption = some endpoint ↔ ofUrl url = .ok endpoint := by
  cases ofUrl url <;> simp [Except.toOption]

theorem ofUrl_eq_ok_iff {url : String} {endpoint : Endpoint} :
    ofUrl url = .ok endpoint ↔ ofRest? (dropScheme (trim url.toList)) = some endpoint := by
  rw [← toOption_ofUrl_eq_some_iff, toOption_ofUrl]

theorem dropScheme_suffix (url : List Char) : dropScheme url <:+ url := by
  unfold dropScheme
  split
  · rename_i before rest hcut
    rw [← append_of_cutAt? hcut]
    exact List.suffix_append ..
  · exact List.suffix_rfl

/-- The scheme of the URLs that are written. -/
def httpScheme : List Char := "http://".toList

theorem dropScheme_http (rest : List Char) : dropScheme (httpScheme ++ rest) = rest :=
  rfl

theorem trim_http (rest : List Char) : trim (httpScheme ++ rest) = httpScheme ++ trimEnd rest := by
  apply trim_append
  · decide
  · intro c hc
    obtain rfl : 'h' = c := Option.some.inj hc
    rfl
  · intro c hc
    obtain rfl : '/' = c := Option.some.inj hc
    rfl

/-- With `http://` in front, the rest of the URL decides. -/
theorem toOption_ofUrl_http (rest : String) :
    (ofUrl ("http://" ++ rest)).toOption = ofRest? (trimEnd rest.toList) := by
  rw [toOption_ofUrl, String.toList_append]
  exact congrArg ofRest? ((congrArg dropScheme (trim_http rest.toList)).trans (dropScheme_http _))

/-! ## Without a scheme -/

/-- No scheme ends in an authority or where it stops. -/
theorem cutAt?_schemeMark_append {authority : List Char} (hslash : '/' ∉ authority)
    (hcolon : authority.getLast? ≠ some ':') (target : List Char) :
    cutAt? schemeMark (authority ++ target) =
      (cutAt? schemeMark target).map fun cut => (authority ++ cut.1, cut.2) := by
  refine cutAt?_append fun suffix hsuffix hne hmark => ?_
  obtain ⟨before, rfl⟩ := hsuffix
  obtain ⟨c, suffix, rfl⟩ := List.exists_cons_of_ne_nil hne
  obtain ⟨rfl, hslashes⟩ := List.cons_prefix_cons.1 hmark
  cases suffix with
  | nil => exact hcolon (by simp)
  | cons c suffix =>
    obtain ⟨rfl, -⟩ := List.cons_prefix_cons.1 hslashes
    exact hslash (by simp)

theorem dropScheme_authority_append {authority : List Char} (hslash : '/' ∉ authority)
    (hcolon : authority.getLast? ≠ some ':') {target : List Char}
    (h : ¬schemeMark <:+: target) : dropScheme (authority ++ target) = authority ++ target := by
  have hcut := cutAt?_schemeMark_append hslash hcolon target
  rw [cutAt?_eq_none_iff.2 h] at hcut
  rw [dropScheme, hcut]
  rfl

theorem dropScheme_of_first {authority : List Char} (hslash : '/' ∉ authority)
    (hcolon : authority.getLast? ≠ some ':') {before : List Char}
    (h : ¬schemeMark <:+: before ++ [':', '/']) (rest : List Char) :
    dropScheme (authority ++ (before ++ (schemeMark ++ rest))) = rest := by
  have hcut := cutAt?_schemeMark_append hslash hcolon (before ++ (schemeMark ++ rest))
  rw [cutAt?_append_append h] at hcut
  rw [dropScheme, hcut]
  rfl

theorem trim_authority_append {authority : String} (hauthority : authority ≠ "")
    (hblank : ∀ c ∈ authority.toList, isBlank c = false) (target : String) :
    trim (authority ++ target).toList = authority.toList ++ trimEnd target.toList ∧
      trimEnd (authority ++ target).toList = authority.toList ++ trimEnd target.toList := by
  have hlast : ∀ c ∈ authority.toList.getLast?, isBlank c = false :=
    fun c hc => hblank c (List.mem_of_getLast? hc)
  rw [String.toList_append]
  refine ⟨trim_append ?_ (fun c hc => hblank c (List.mem_of_head? hc)) hlast _,
    trimEnd_append hlast _⟩
  simpa using hauthority

/-- **Without a scheme** in front of the authority, a URL names the same endpoint as with one, if
no `://` stands in its target. Otherwise the endpoint is the one that what follows the first `://`
names. -/
theorem ofUrl_without_scheme {authority : String} (hauthority : authority ≠ "")
    (hslash : '/' ∉ authority.toList) (hblank : ∀ c ∈ authority.toList, isBlank c = false)
    (hcolon : authority.toList.getLast? ≠ some ':') (target : String) :
    (¬schemeMark <:+: target.toList →
      (ofUrl (authority ++ target)).toOption =
        (ofUrl ("http://" ++ authority ++ target)).toOption) ∧
      ∀ before rest : String, target = before ++ "://" ++ rest →
        ¬schemeMark <:+: (before ++ ":/").toList →
        (ofUrl (authority ++ target)).toOption = (ofUrl ("http://" ++ rest)).toOption := by
  obtain ⟨htrim, htrimEnd⟩ := trim_authority_append hauthority hblank target
  constructor
  · intro hnone
    have htarget : ¬schemeMark <:+: trimEnd target.toList := fun h =>
      hnone (h.trans (isPrefix_trimEnd _).isInfix)
    rw [String.append_assoc, toOption_ofUrl_http, toOption_ofUrl, htrim, htrimEnd,
      dropScheme_authority_append hslash hcolon htarget]
  · rintro before rest rfl hfirst
    have hmark : (before ++ "://").toList = before.toList ++ schemeMark := String.toList_append
    have hend : trimEnd (before ++ "://" ++ rest).toList =
        before.toList ++ (schemeMark ++ trimEnd rest.toList) := by
      rw [String.toList_append, hmark, trimEnd_append, List.append_assoc]
      intro c hc
      rw [List.getLast?_append] at hc
      obtain rfl : '/' = c := Option.some.inj hc
      rfl
    rw [toOption_ofUrl_http, toOption_ofUrl, htrim, hend, dropScheme_of_first hslash hcolon]
    simpa using hfirst

/-- Colons in the target are harmless, and a URL in it is read in place of the whole. -/
theorem ofUrl_without_scheme_queried :
    let authority := "[::1]:9000"
    let plain := "/cg?at=12:30"
    let nested := "/cg?next=http://elsewhere/x"
    authority ≠ "" ∧ '/' ∉ authority.toList ∧ (∀ c ∈ authority.toList, isBlank c = false) ∧
      authority.toList.getLast? ≠ some ':' ∧ ¬schemeMark <:+: plain.toList ∧
      (ofUrl (authority ++ plain)).toOption = (ofUrl ("http://" ++ authority ++ plain)).toOption ∧
      nested = "/cg?next=http" ++ "://" ++ "elsewhere/x" ∧
      ¬schemeMark <:+: ("/cg?next=http" ++ ":/").toList ∧
      (ofUrl (authority ++ nested)).toOption = (ofUrl ("http://" ++ "elsewhere/x")).toOption := by
  intro authority plain nested
  have hne : authority ≠ "" := by decide +kernel
  have hslash : '/' ∉ authority.toList := by decide +kernel
  have hblank : ∀ c ∈ authority.toList, isBlank c = false := by
    have hall : authority.toList.all (!isBlank ·) = true := by decide +kernel
    simpa using hall
  have hcolon : authority.toList.getLast? ≠ some ':' := by decide +kernel
  have hplain : ¬schemeMark <:+: plain.toList := by decide +kernel
  have hnested : nested = "/cg?next=http" ++ "://" ++ "elsewhere/x" := by decide +kernel
  have hfirst : ¬schemeMark <:+: ("/cg?next=http" ++ ":/").toList := by decide +kernel
  exact ⟨hne, hslash, hblank, hcolon, hplain,
    (ofUrl_without_scheme hne hslash hblank hcolon plain).1 hplain, hnested, hfirst,
    (ofUrl_without_scheme hne hslash hblank hcolon nested).2 _ _ hnested hfirst⟩

/-- So a target with a URL in it takes its batches to the place of that URL, unless the scheme is
there. -/
theorem ofUrl_without_scheme_elsewhere :
    let authority := "collector:9000"
    let target := "/ingest?next=http://elsewhere/x"
    authority ≠ "" ∧ '/' ∉ authority.toList ∧ (∀ c ∈ authority.toList, isBlank c = false) ∧
      authority.toList.getLast? ≠ some ':' ∧ target.toList.head? = some '/' ∧
      ofUrl (authority ++ target) = .ok ⟨"elsewhere", 80, "/x"⟩ ∧
      ofUrl ("http://" ++ authority ++ target) = .ok ⟨"collector", 9000, target⟩ := by
  intro authority target
  have hblank : authority.toList.all (!isBlank ·) = true := by decide +kernel
  exact ⟨by decide +kernel, by decide +kernel, by simpa using hblank, by decide +kernel,
    by decide +kernel, ofUrl_eq_ok_iff.2 (by decide +kernel), ofUrl_eq_ok_iff.2 (by decide +kernel)⟩

end CallTrace.Endpoint
