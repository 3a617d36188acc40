import CallTrace.Command.Manifest
import CallTrace.Proofs.Package.Search
import Mathlib.Data.Finset.Card

/-!
# Finding packages on a changing disk

A finder answers queries of all kinds, each on the disk of its moment. Histories have the latest
step first. The directories that a history looked at are read off a view of the packages
(`PackageView.sights`), and the view is frozen at first sight if it shows each of them as it was
when it was first looked at (`PackageView.FirstSeen`). Under such a view a finder has found what
the view shows in these directories (`PackageFinder.Holds.after`), and a view of what a finder has
found is one (`PackageFinder.firstSeen_of_agrees`). So for every history there is such a view, and
the finder answers as a search without a memory does under it
(`PackageFinder.frozen_at_first_sight`).
-/

namespace CallTrace

/-! ## Queries -/

inductive PackageQuery where
  | directory (dir : String)
  | owner (file : String)
  | uri (name : String) (positionStart positionEnd : Int32) (path : String)

inductive PackageAnswer where
  | package (package : Option Package)
  | owner (ownership : Ownership)
  | uri (text : String)
deriving DecidableEq

namespace PackageQuery

/-- The directories to search, in their order. -/
def searched : PackageQuery → List String
  | directory dir => [dir]
  | owner file => Path.outward file
  | uri _ _ _ path =>
    match Text.afterHead? PackageFinder.moduleScheme path.toList with
    | some _ => []
    | none => Path.outward path

end PackageQuery

namespace PackageFinder

/-- A query and the disk as it is when the query is put. -/
structure Step where
  query : PackageQuery
  disk : Disk

variable [ManifestReader]

def perform (finder : PackageFinder) (step : Step) : PackageAnswer × PackageFinder :=
  match step.query with
  | .directory dir =>
    let found := finder.ofDirectory step.disk dir
    (.package found.1, found.2)
  | .owner file =>
    let found := finder.ownerOf step.disk file
    (.owner found.1, found.2)
  | .uri name positionStart positionEnd path =>
    let found := finder.uriOf step.disk name positionStart positionEnd path
    (.uri found.1, found.2)

def after (finder : PackageFinder) : List Step → PackageFinder
  | [] => finder
  | step :: earlier => ((finder.after earlier).perform step).2

def answers (finder : PackageFinder) : List Step → List PackageAnswer
  | [] => []
  | step :: earlier => ((finder.after earlier).perform step).1 :: finder.answers earlier

end PackageFinder

namespace PackageView

/-! ## What a search sees -/

/-- A directory that is looked at, and the disk at that moment. -/
structure Sight where
  dir : String
  disk : Disk

def Sight.key (sight : Sight) : List Path.Part :=
  Path.parts sight.dir

/-- What a search sees, the last directory first. -/
def sightsOf (disk : Disk) (dirs : List String) : List Sight :=
  (dirs.map fun dir => ⟨dir, disk⟩).reverse

variable (view : PackageView)

/-- The answer of a search without a memory. -/
def answer : PackageQuery → PackageAnswer
  | .directory dir => .package (view (Path.parts dir))
  | .owner file => .owner (view.ownerOf file)
  | .uri name positionStart positionEnd path =>
    .uri (view.uriOf name positionStart positionEnd path)

/-- What searches without a memory see along a history, the latest first. -/
def sights : List PackageFinder.Step → List Sight
  | [] => []
  | step :: earlier => sightsOf step.disk (view.looksAt step.query.searched) ++ sights earlier

variable {view}

theorem sightsOf_cons_append (disk : Disk) (dir : String) (dirs : List String)
    (seen : List Sight) :
    sightsOf disk (dir :: dirs) ++ seen = sightsOf disk dirs ++ ⟨dir, disk⟩ :: seen := by
  simp [sightsOf]

theorem looksAt_of_some {dir : String} {package : Package}
    (h : view (Path.parts dir) = some package) (rest : List String) :
    view.looksAt (dir :: rest) = [dir] := by
  simp [looksAt, h]

theorem looksAt_of_none {dir : String} (h : view (Path.parts dir) = none) (rest : List String) :
    view.looksAt (dir :: rest) = dir :: view.looksAt rest := by
  simp [looksAt, h]

/-! ## First sight -/

variable [ManifestReader]

def Sight.package (sight : Sight) : Option Package :=
  Package.ofDirectory? sight.disk sight.dir

/-- The view shows every directory as it was when it was first looked at. -/
def FirstSeen (view : PackageView) (seen : List Sight) : Prop :=
  ∀ sight earlier, sight :: earlier <:+ seen →
    sight.key ∉ earlier.map Sight.key → view sight.key = sight.package

variable {sight : Sight} {seen later : List Sight}

theorem firstSeen_nil : view.FirstSeen [] := by
  intro sight earlier h
  cases List.suffix_nil.1 h

theorem firstSeen_cons :
    view.FirstSeen (sight :: seen) ↔
      (sight.key ∉ seen.map Sight.key → view sight.key = sight.package) ∧ view.FirstSeen seen := by
  constructor
  · intro h
    refine ⟨h sight seen (List.suffix_refl _), ?_⟩
    intro other earlier hother
    exact h other earlier (hother.trans (List.suffix_cons _ _))
  · intro h other earlier hother
    rcases List.suffix_cons_iff.1 hother with heq | hother
    · obtain ⟨rfl, rfl⟩ := List.cons.inj heq
      exact h.1
    · exact h.2 other earlier hother

theorem FirstSeen.of_append (h : view.FirstSeen (later ++ seen)) : view.FirstSeen seen :=
  fun sight earlier hsight => h sight earlier (hsight.trans (List.suffix_append _ _))

end PackageView

/-! ## One search for all queries -/

/-- The answer to a query, given the first of the directories searched that has a package. -/
def PackageQuery.answerFor (query : PackageQuery) (found : Option (String × Package)) :
    PackageAnswer :=
  match query with
  | directory _ => .package (found.map Prod.snd)
  | owner file => .owner (ownershipOf file found)
  | uri name positionStart positionEnd path =>
    .uri (uriFor name positionStart positionEnd path (ownershipOf path found))

theorem PackageView.answer_eq (view : PackageView) (query : PackageQuery) :
    view.answer query = query.answerFor (view.firstPackage query.searched) := by
  cases query with
  | directory dir =>
    simp only [answer, PackageQuery.answerFor, PackageQuery.searched, firstPackage,
      List.findSome?_cons, List.findSome?_nil]
    cases view (Path.parts dir) <;> rfl
  | owner file => rfl
  | uri name positionStart positionEnd path =>
    simp only [answer, uriOf, uriFor, PackageQuery.answerFor, PackageQuery.searched]
    cases Text.afterHead? PackageFinder.moduleScheme path.toList <;> rfl

namespace PackageFinder

open PackageView

/-! ## What a finder has found -/

variable {finder : PackageFinder} {view : PackageView} {seen : List Sight} {disk : Disk}
  {dir : String} {dirs : List String} {step : Step}

/-- The finder has found what the view shows in the directories looked at, and nothing else. -/
def Holds (finder : PackageFinder) (view : PackageView) (seen : List Sight) : Prop :=
  ∀ key, finder.found[key]? = if key ∈ seen.map Sight.key then some (view key) else none

/-- The view shows what the finder has found. -/
def Agrees (finder : PackageFinder) (view : PackageView) : Prop :=
  ∀ key package, finder.found[key]? = some package → view key = package

namespace Holds

theorem empty (view : PackageView) : PackageFinder.empty.Holds view [] := by
  intro key
  simp [PackageFinder.empty]

theorem again (h : finder.Holds view seen) {sight : Sight} (hmem : sight.key ∈ seen.map Sight.key) :
    finder.Holds view (sight :: seen) := by
  intro key
  have hsame : key ∈ (sight :: seen).map Sight.key ↔ key ∈ seen.map Sight.key := by
    rw [List.map_cons, List.mem_cons]
    exact ⟨fun hkey => hkey.elim (fun he => he ▸ hmem) id, .inr⟩
  rw [h key]
  exact if_congr hsame.symm rfl rfl

theorem insert (h : finder.Holds view seen) (sight : Sight) :
    (PackageFinder.mk (finder.found.insert sight.key (view sight.key))).Holds view
      (sight :: seen) := by
  intro key
  rw [Std.HashMap.getElem?_insert, List.map_cons, h key]
  by_cases hkey : sight.key = key
  · subst hkey
    simp
  · have hother : key ∈ sight.key :: seen.map Sight.key ↔ key ∈ seen.map Sight.key := by
      rw [List.mem_cons]
      exact or_iff_right (Ne.symm hkey)
    rw [if_neg (by simpa using hkey)]
    exact if_congr hother.symm rfl rfl

theorem size_eq (h : finder.Holds view seen) :
    finder.size = (seen.map Sight.key).toFinset.card := by
  have hkeys : (seen.map Sight.key).toFinset = finder.found.keys.toFinset := by
    ext key
    rw [List.mem_toFinset, List.mem_toFinset, Std.HashMap.mem_keys,
      Std.HashMap.mem_iff_isSome_getElem?, h key]
    split <;> simp_all
  rw [hkeys, List.toFinset_card_of_nodup Std.HashMap.nodup_keys, Std.HashMap.length_keys]
  rfl

end Holds

/-! ## Searching with a memory -/

section

variable [ManifestReader]

theorem ownerOf_eq (finder : PackageFinder) (disk : Disk) (file : String) :
    finder.ownerOf disk file =
      (ownershipOf file (finder.firstPackage disk (Path.outward file)).1,
        (finder.firstPackage disk (Path.outward file)).2) := by
  unfold ownerOf Path.outward
  rcases finder.firstPackage disk _ with ⟨_ | ⟨dir, package⟩, finder'⟩ <;> rfl

theorem perform_eq (finder : PackageFinder) (step : Step) :
    finder.perform step =
      (step.query.answerFor (finder.firstPackage step.disk step.query.searched).1,
        (finder.firstPackage step.disk step.query.searched).2) := by
  obtain ⟨query, disk⟩ := step
  cases query with
  | directory dir =>
    simp only [perform, PackageQuery.answerFor, PackageQuery.searched, firstPackage]
    rcases finder.ofDirectory disk dir with ⟨_ | package, finder'⟩ <;> rfl
  | owner file =>
    simp only [perform, ownerOf_eq]
    rfl
  | uri name positionStart positionEnd path =>
    simp only [perform, uriOf, uriFor, ownerOf_eq, PackageQuery.answerFor, PackageQuery.searched]
    cases Text.afterHead? moduleScheme path.toList <;> rfl

theorem ofDirectory_of_some {package : Option Package}
    (h : finder.found[Path.parts dir]? = some package) (disk : Disk) :
    finder.ofDirectory disk dir = (package, finder) := by
  simp only [ofDirectory, h]

theorem ofDirectory_of_none (h : finder.found[Path.parts dir]? = none) (disk : Disk) :
    finder.ofDirectory disk dir =
      (Package.ofDirectory? disk dir,
        ⟨finder.found.insert (Path.parts dir) (Package.ofDirectory? disk dir)⟩) := by
  simp only [ofDirectory, h]

theorem firstPackage_of_some {package : Package} {finder' : PackageFinder}
    (h : finder.ofDirectory disk dir = (some package, finder')) (rest : List String) :
    finder.firstPackage disk (dir :: rest) = (some (dir, package), finder') := by
  simp only [firstPackage, h]

theorem firstPackage_of_none {finder' : PackageFinder}
    (h : finder.ofDirectory disk dir = (none, finder')) (rest : List String) :
    finder.firstPackage disk (dir :: rest) = finder'.firstPackage disk rest := by
  simp only [firstPackage, h]

namespace Holds

/-- A directory is shown as it was found; on first sight it is found as it is. -/
theorem ofDirectory (h : finder.Holds view seen)
    (hfirst : view.FirstSeen (⟨dir, disk⟩ :: seen)) :
    (finder.ofDirectory disk dir).1 = view (Path.parts dir) ∧
      (finder.ofDirectory disk dir).2.Holds view (⟨dir, disk⟩ :: seen) := by
  by_cases hmem : Path.parts dir ∈ seen.map Sight.key
  · rw [ofDirectory_of_some ((h _).trans (if_pos hmem))]
    exact ⟨rfl, h.again hmem⟩
  · have hseen : view (Path.parts dir) = Package.ofDirectory? disk dir :=
      (firstSeen_cons.1 hfirst).1 hmem
    rw [ofDirectory_of_none ((h _).trans (if_neg hmem)), ← hseen]
    exact ⟨rfl, h.insert ⟨dir, disk⟩⟩

/-- A finder searches as far as a search without a memory. -/
theorem firstPackage (h : finder.Holds view seen)
    (hfirst : view.FirstSeen (sightsOf disk (view.looksAt dirs) ++ seen)) :
    (finder.firstPackage disk dirs).1 = view.firstPackage dirs ∧
      (finder.firstPackage disk dirs).2.Holds view
        (sightsOf disk (view.looksAt dirs) ++ seen) := by
  induction dirs generalizing finder seen with
  | nil => exact ⟨rfl, h⟩
  | cons dir rest ih =>
    rw [PackageView.firstPackage, List.findSome?_cons]
    rcases hpair : finder.ofDirectory disk dir with ⟨found, finder'⟩
    cases hview : view (Path.parts dir) with
    | some package =>
      rw [looksAt_of_some hview] at hfirst ⊢
      obtain ⟨hfound, hholds⟩ := h.ofDirectory hfirst
      rw [hpair] at hfound hholds
      obtain rfl : found = some package := hfound.trans hview
      rw [firstPackage_of_some hpair]
      exact ⟨rfl, hholds⟩
    | none =>
      rw [looksAt_of_none hview, sightsOf_cons_append] at hfirst ⊢
      obtain ⟨hfound, hholds⟩ := h.ofDirectory hfirst.of_append
      rw [hpair] at hfound hholds
      obtain rfl : found = none := hfound.trans hview
      rw [firstPackage_of_none hpair]
      exact ih hholds hfirst

theorem perform (h : finder.Holds view seen)
    (hfirst : view.FirstSeen (sightsOf step.disk (view.looksAt step.query.searched) ++ seen)) :
    (finder.perform step).1 = view.answer step.query ∧
      (finder.perform step).2.Holds view
        (sightsOf step.disk (view.looksAt step.query.searched) ++ seen) := by
  obtain ⟨hfound, hholds⟩ := h.firstPackage hfirst
  rw [perform_eq, hfound, view.answer_eq]
  exact ⟨rfl, hholds⟩

theorem after {history : List Step} (hfirst : view.FirstSeen (view.sights history)) :
    PackageFinder.empty.answers history = history.map (fun step => view.answer step.query) ∧
      (PackageFinder.empty.after history).Holds view (view.sights history) := by
  induction history with
  | nil => exact ⟨rfl, .empty view⟩
  | cons step earlier ih =>
    obtain ⟨hanswers, hholds⟩ := ih hfirst.of_append
    obtain ⟨hanswer, hholds'⟩ := hholds.perform hfirst
    refine ⟨?_, hholds'⟩
    rw [answers, hanswer, hanswers, List.map_cons]

end Holds

/-! ## A view of what was found -/

/-- What was found stays found. -/
theorem Agrees.of_ofDirectory (h : (finder.ofDirectory disk dir).2.Agrees view) :
    finder.Agrees view := by
  cases hdir : finder.found[Path.parts dir]? with
  | some package =>
    rw [ofDirectory_of_some hdir] at h
    exact h
  | none =>
    rw [ofDirectory_of_none hdir] at h
    intro key package hkey
    apply h
    have hne : Path.parts dir ≠ key := by
      rintro rfl
      rw [hdir] at hkey
      cases hkey
    rw [Std.HashMap.getElem?_insert, if_neg (by simpa using hne)]
    exact hkey

theorem Agrees.of_firstPackage (h : (finder.firstPackage disk dirs).2.Agrees view) :
    finder.Agrees view := by
  induction dirs generalizing finder with
  | nil => exact h
  | cons dir rest ih =>
    have hdir : (finder.ofDirectory disk dir).2.Agrees view := by
      rcases hpair : finder.ofDirectory disk dir with ⟨_ | package, finder'⟩
      · rw [firstPackage_of_none hpair] at h
        exact ih h
      · rw [firstPackage_of_some hpair] at h
        exact h
    exact hdir.of_ofDirectory

namespace Holds

theorem firstSeen_ofDirectory (h : finder.Holds view seen) (hfirst : view.FirstSeen seen)
    (hagrees : (finder.ofDirectory disk dir).2.Agrees view) :
    view.FirstSeen (⟨dir, disk⟩ :: seen) := by
  refine firstSeen_cons.2 ⟨?_, hfirst⟩
  intro hmem
  have hdir : finder.found[Path.parts dir]? = none := (h _).trans (if_neg hmem)
  rw [ofDirectory_of_none hdir] at hagrees
  exact hagrees _ _ Std.HashMap.getElem?_insert_self

theorem firstSeen_firstPackage (h : finder.Holds view seen) (hfirst : view.FirstSeen seen)
    (hagrees : (finder.firstPackage disk dirs).2.Agrees view) :
    view.FirstSeen (sightsOf disk (view.looksAt dirs) ++ seen) := by
  induction dirs generalizing finder seen with
  | nil => exact hfirst
  | cons dir rest ih =>
    rcases hpair : finder.ofDirectory disk dir with ⟨found, finder'⟩
    have hdir (hagrees' : finder'.Agrees view) :
        view.FirstSeen (⟨dir, disk⟩ :: seen) ∧ found = view (Path.parts dir) ∧
          finder'.Holds view (⟨dir, disk⟩ :: seen) := by
      have hcons := h.firstSeen_ofDirectory hfirst (by rw [hpair]; exact hagrees')
      have hfound := h.ofDirectory hcons
      rw [hpair] at hfound
      exact ⟨hcons, hfound⟩
    cases found with
    | none =>
      rw [firstPackage_of_none hpair] at hagrees
      obtain ⟨hcons, hfound, hholds⟩ := hdir hagrees.of_firstPackage
      rw [looksAt_of_none hfound.symm, sightsOf_cons_append]
      exact ih hholds hcons hagrees
    | some package =>
      rw [firstPackage_of_some hpair] at hagrees
      obtain ⟨hcons, hfound, -⟩ := hdir hagrees
      rw [looksAt_of_some hfound.symm]
      exact hcons

end Holds

/-- A view of what a finder has found is frozen at first sight. -/
theorem firstSeen_of_agrees {history : List Step}
    (h : (PackageFinder.empty.after history).Agrees view) :
    view.FirstSeen (view.sights history) := by
  induction history with
  | nil => exact firstSeen_nil
  | cons step earlier ih =>
    rw [after, perform_eq] at h
    have hfirst := ih h.of_firstPackage
    exact (Holds.after hfirst).2.firstSeen_firstPackage hfirst h

theorem exists_firstSeen (history : List Step) :
    ∃ view : PackageView, view.FirstSeen (view.sights history) := by
  refine ⟨fun key => (PackageFinder.empty.after history).found[key]?.join, ?_⟩
  apply firstSeen_of_agrees
  intro key package hkey
  show (PackageFinder.empty.after history).found[key]?.join = package
  rw [hkey]
  rfl

end

/-- For every history of queries on a changing disk, and whatever reads the manifests, there is a
view that shows each directory as it was when it was first looked at. Under it, the finder answers
as a search without a memory does, and it counts the different directories looked at. A directory
has a package if its manifest is readable and gives both name and version. The search without a
memory takes the package of the nearest directory above a file that has one, and tells the way from
there to the file. -/
theorem frozen_at_first_sight [ManifestReader] (history : List Step) :
    (∃ view : PackageView, view.FirstSeen (view.sights history)) ∧
    (∀ view : PackageView, view.FirstSeen (view.sights history) →
      PackageFinder.empty.answers history = history.map (fun step => view.answer step.query) ∧
      (PackageFinder.empty.after history).size =
        ((view.sights history).map Sight.key).toFinset.card) ∧
    (∀ (sight : Sight) (package : Package), sight.package = some package ↔
      ∃ bytes text, sight.disk.read (Path.join sight.dir "package.json") = .ok bytes ∧
        Utf8.decode? bytes = some text ∧
        ManifestReader.read? text = some ⟨some package.name, some package.version⟩) ∧
    ∀ (view : PackageView) (file : String), view.Owns file (view.ownerOf file) := by
  refine ⟨exists_firstSeen history, ?_, fun _ _ => Package.ofDirectory?_eq_some_iff, owns_ownerOf⟩
  intro view hfirst
  obtain ⟨hanswers, hholds⟩ := Holds.after hfirst
  exact ⟨hanswers, hholds.size_eq⟩

/-- A manifest that is taken away after a first query counts in the second. -/
theorem frozen_at_first_sight_taken_away :
    letI := Json.manifestReader
    let app : Package := ⟨"app", "1.0.0"⟩
    let manifest := Utf8.encode "\x7b\"name\": \"app\", \"version\": \"1.0.0\"\x7d".toList
    let disk : Disk :=
      ⟨[(["pkg"], .directory), (["pkg", "package.json"], .file manifest)], []⟩
    let history : List Step :=
      [⟨.owner "/pkg/b.ts", disk.erase ["pkg"]⟩, ⟨.owner "/pkg/a.js", disk⟩]
    PackageFinder.empty.answers history = [.owner ⟨app, "b"⟩, .owner ⟨app, "a"⟩] ∧
      (PackageFinder.empty.after history).size = 1 := by
  let _ := Json.manifestReader
  intro app manifest disk history
  obtain ⟨⟨view, hfirst⟩, hanswers, -⟩ := frozen_at_first_sight history
  obtain ⟨hanswers, hsize⟩ := hanswers view hfirst
  have hb : Path.outward "/pkg/b.ts" = ["/pkg", "/"] := by decide
  have ha : Path.outward "/pkg/a.js" = ["/pkg", "/"] := by decide
  have hsights : view.sights history =
      sightsOf (disk.erase ["pkg"]) (view.looksAt ["/pkg", "/"]) ++
        (sightsOf disk (view.looksAt ["/pkg", "/"]) ++ []) := by
    show sightsOf _ (view.looksAt (Path.outward "/pkg/b.ts")) ++
      (sightsOf disk (view.looksAt (Path.outward "/pkg/a.js")) ++ []) = _
    rw [hb, ha]
  -- the directory is first seen with its manifest
  have hpackage : view (Path.parts "/pkg") = some app := by
    rw [hsights] at hfirst
    have hearlier := hfirst.of_append
    rw [looksAt, sightsOf_cons_append] at hearlier
    exact ((firstSeen_cons.1 hearlier.of_append).1 List.not_mem_nil).trans (by decide +kernel)
  have howner (file : String) (hfile : Path.outward file = ["/pkg", "/"]) :
      view.ownerOf file =
        ⟨app, dropScriptExtension ((Path.relativeTo? "/pkg" file).getD file)⟩ := by
    rw [PackageView.ownerOf, hfile, PackageView.firstPackage, List.findSome?_cons, hpackage]
    rfl
  refine ⟨hanswers.trans ?_, hsize.trans ?_⟩
  · show [PackageAnswer.owner (view.ownerOf "/pkg/b.ts"), .owner (view.ownerOf "/pkg/a.js")] = _
    rw [howner _ hb, howner _ ha]
    decide
  · rw [hsights, looksAt_of_some hpackage]
    decide

end PackageFinder

end CallTrace
