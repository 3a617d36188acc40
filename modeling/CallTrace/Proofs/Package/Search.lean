import CallTrace.Package.Finder
import CallTrace.Proofs.Path

/-!
# Searching packages without a memory

A search that remembers nothing sees the directories as they are shown to it (`PackageView`). It
takes the package of the nearest directory above the file that has one, and tells the rest of the
file's path without the extension of a script (`PackageView.owns_ownerOf`).
-/

namespace CallTrace

/-! ## Manifests -/

theorem Manifest.package?_eq_some_iff {manifest : Manifest} {package : Package} :
    manifest.package? = some package ↔ manifest = ⟨some package.name, some package.version⟩ := by
  obtain ⟨_ | name, _ | version⟩ := manifest <;> cases package <;> simp [Manifest.package?]

/-- A directory has a package if its manifest is readable and gives both name and version. -/
theorem Package.ofDirectory?_eq_some_iff [ManifestReader] {disk : Disk} {dir : String}
    {package : Package} :
    ofDirectory? disk dir = some package ↔
      ∃ bytes text, disk.read (Path.join dir "package.json") = .ok bytes ∧
        Utf8.decode? bytes = some text ∧
        ManifestReader.read? text = some ⟨some package.name, some package.version⟩ := by
  unfold ofDirectory? manifestFile
  cases disk.read (Path.join dir "package.json") with
  | error fault => simp [Except.toOption]
  | ok bytes =>
    simp [Except.toOption, Option.bind_eq_some_iff, Manifest.package?_eq_some_iff]

/-! ## The search -/

/-- The packages of directories, by the components of their paths. -/
abbrev PackageView := List Path.Part → Option Package

/-- The package of a file, given the first directory above it that has one. -/
def ownershipOf (file : String) : Option (String × Package) → Ownership
  | some (dir, package) =>
    ⟨package, dropScriptExtension ((Path.relativeTo? dir file).getD file)⟩
  | none => ⟨Package.unknown, dropScriptExtension file⟩

/-- The name of a function, given the package of its file. -/
def uriFor (name : String) (positionStart positionEnd : Int32) (path : String)
    (owner : Ownership) : String :=
  let name := shownName name positionStart positionEnd
  match Text.afterHead? PackageFinder.moduleScheme path.toList with
  | some module => "node://node/[node:" ++ String.ofList module ++ "]/" ++ name ++ "()"
  | none =>
    "javascript://" ++ owner.package.name ++ "$" ++ owner.package.version ++ "/["
      ++ owner.package.name ++ ":" ++ owner.package.version ++ ":" ++ owner.path ++ "]/" ++ name
      ++ "()"

namespace PackageView

section

variable (view : PackageView)

/-- The first of the directories that has a package, with that package. -/
def firstPackage (dirs : List String) : Option (String × Package) :=
  dirs.findSome? fun dir => (view (Path.parts dir)).map (Prod.mk dir)

def ownerOf (file : String) : Ownership :=
  ownershipOf file (view.firstPackage (Path.outward file))

def uriOf (name : String) (positionStart positionEnd : Int32) (path : String) : String :=
  uriFor name positionStart positionEnd path (view.ownerOf path)

/-- The directories that a search looks at: it ends with the first that has a package. -/
def looksAt : List String → List String
  | [] => []
  | dir :: rest => dir :: if (view (Path.parts dir)).isSome then [] else looksAt rest

end

/-! ## What is found -/

/-- `short` is `whole` without one extension of a script at its end, if it has one. -/
def WithoutExtension (whole short : String) : Prop :=
  whole = short ++ ".js" ∨ whole = short ++ ".ts" ∨
    whole = short ∧ ∀ rest, whole ≠ rest ++ ".js" ∧ whole ≠ rest ++ ".ts"

/-- The components of a directory above a file, which is not the empty path. -/
def Above (key : List Path.Part) (file : String) : Prop :=
  key ≠ [] ∧ key <+: Path.parts file ∧ key ≠ Path.parts file

/-- The package of a file and the place of the file in it, as the view shows them. -/
inductive Owns (view : PackageView) (file : String) : Ownership → Prop
  | within {dir inner path : String} {package : Package} :
      Above (Path.parts dir) file →
      view (Path.parts dir) = some package →
      (∀ key, Above key file → (Path.parts dir).length < key.length → view key = none) →
      inner.toList.head? ≠ some '/' →
      Path.parts (Path.join dir inner) = Path.parts file →
      WithoutExtension inner path →
      Owns view file ⟨package, path⟩
  | nowhere {path : String} :
      (∀ key, Above key file → view key = none) →
      WithoutExtension file path →
      Owns view file ⟨Package.unknown, path⟩

theorem beforeTail?_toList_eq_some_iff {whole tail : String} {rest : List Char} :
    Text.beforeTail? tail.toList whole.toList = some rest ↔
      whole = String.ofList rest ++ tail := by
  rw [Text.beforeTail?_eq_some_iff, ← String.toList_inj, String.toList_append, String.toList_ofList]

theorem ne_append_of_beforeTail?_eq_none {whole tail : String}
    (h : Text.beforeTail? tail.toList whole.toList = none) (rest : String) :
    whole ≠ rest ++ tail := by
  intro hwhole
  have hsome : Text.beforeTail? tail.toList whole.toList = some rest.toList := by
    rw [beforeTail?_toList_eq_some_iff, String.ofList_toList]
    exact hwhole
  rw [h] at hsome
  cases hsome

theorem dropScriptExtension_spec (whole : String) :
    WithoutExtension whole (dropScriptExtension whole) := by
  unfold dropScriptExtension scriptExtensions
  rw [List.findSome?_cons, List.findSome?_cons, List.findSome?_nil]
  cases hjs : Text.beforeTail? ".js".toList whole.toList with
  | some rest => exact .inl (beforeTail?_toList_eq_some_iff.1 hjs)
  | none =>
    cases hts : Text.beforeTail? ".ts".toList whole.toList with
    | some rest => exact .inr (.inl (beforeTail?_toList_eq_some_iff.1 hts))
    | none =>
      exact .inr (.inr ⟨rfl, fun rest => ⟨ne_append_of_beforeTail?_eq_none hjs rest,
        ne_append_of_beforeTail?_eq_none hts rest⟩⟩)

/-! ## Going outward -/

variable {view : PackageView} {file : String} {key : List Path.Part}

theorem length_parts_outward {i : Nat} (h : i < (Path.outward file).length) :
    (Path.parts (Path.outward file)[i]).length = (Path.parts file).length - 1 - i := by
  rw [Path.parts_getElem_outward h, List.length_take]
  omega

theorem above_iff : Above key file ↔ ∃ dir ∈ Path.outward file, Path.parts dir = key := by
  have hlength := Path.length_outward file
  constructor
  · rintro ⟨hne, hbegins, hproper⟩
    have hpos := List.length_pos_iff.2 hne
    have hle := hbegins.length_le
    have hlt : key.length ≠ (Path.parts file).length := fun he =>
      hproper (hbegins.eq_of_length he)
    have hi : (Path.parts file).length - 1 - key.length < (Path.outward file).length := by omega
    refine ⟨_, List.getElem_mem hi, ?_⟩
    have hcount : (Path.parts file).length - 1 - ((Path.parts file).length - 1 - key.length) =
        key.length := by omega
    rw [Path.parts_getElem_outward hi, hcount]
    exact (List.prefix_iff_eq_take.1 hbegins).symm
  · rintro ⟨dir, hdir, rfl⟩
    obtain ⟨i, hi, rfl⟩ := List.mem_iff_getElem.1 hdir
    have hcount := length_parts_outward hi
    refine ⟨List.ne_nil_of_length_pos (by omega), ?_, ?_⟩
    · rw [Path.parts_getElem_outward hi]
      exact List.take_prefix _ _
    · intro he
      have := congrArg List.length he
      omega

theorem firstPackage_eq_none_iff {dirs : List String} :
    view.firstPackage dirs = none ↔ ∀ dir ∈ dirs, view (Path.parts dir) = none := by
  simp [firstPackage]

/-- The first ancestor that has a package is the nearest. -/
theorem firstPackage_outward_eq_some {dir : String} {package : Package}
    (h : view.firstPackage (Path.outward file) = some (dir, package)) :
    dir ∈ Path.outward file ∧ view (Path.parts dir) = some package ∧
      ∀ key, Above key file → (Path.parts dir).length < key.length → view key = none := by
  obtain ⟨nearer, found, others, hsplit, hfound, hnone⟩ := List.findSome?_eq_some_iff.1 h
  obtain ⟨_, hpackage, hpair⟩ := Option.map_eq_some_iff.1 hfound
  obtain ⟨rfl, rfl⟩ := Prod.mk.inj hpair
  refine ⟨hsplit ▸ List.mem_append_right nearer List.mem_cons_self, hpackage, ?_⟩
  intro key habove hlonger
  obtain ⟨other, hother, rfl⟩ := above_iff.1 habove
  obtain ⟨i, hi, rfl⟩ := List.mem_iff_getElem.1 hother
  -- a longer path stands before the one that was found
  have hfoundAt : nearer.length < (Path.outward file).length := by simp [hsplit]
  have hdir : (Path.outward file)[nearer.length] = found := by simp [hsplit]
  have hlength := length_parts_outward hfoundAt
  have hlength' := length_parts_outward hi
  rw [hdir] at hlength
  have hbefore : i < nearer.length := by omega
  have hmem : (Path.outward file)[i] ∈ nearer := by
    simp only [hsplit, List.getElem_append_left hbefore]
    exact List.getElem_mem hbefore
  simpa using hnone _ hmem

theorem owns_ownerOf (view : PackageView) (file : String) : view.Owns file (view.ownerOf file) := by
  unfold ownerOf
  cases hfound : view.firstPackage (Path.outward file) with
  | none =>
    refine .nowhere ?_ (dropScriptExtension_spec file)
    intro key habove
    obtain ⟨dir, hdir, rfl⟩ := above_iff.1 habove
    exact firstPackage_eq_none_iff.1 hfound dir hdir
  | some found =>
    obtain ⟨dir, package⟩ := found
    obtain ⟨hdir, hpackage, hnearest⟩ := firstPackage_outward_eq_some hfound
    obtain ⟨inner, hinner, hhead, hparts⟩ := Path.relativeTo?_of_mem_outward hdir
    rw [ownershipOf, hinner, Option.getD_some]
    exact .within (above_iff.2 ⟨dir, hdir, rfl⟩) hpackage hnearest hhead hparts
      (dropScriptExtension_spec inner)

end PackageView

end CallTrace
