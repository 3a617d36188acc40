import CallTrace.Merge.Directory
import CallTrace.Proofs.Decimal
import Mathlib.Data.Prod.Lex
import Mathlib.Data.String.Basic
import Mathlib.Order.WithBot

/-!
# The order of a listing does not matter

The files of a process are told by its label (`ProcessFiles.ofProcess`), and labels have a linear
order (`ProcessFiles.rank`), so sorting the names in a directory leaves nothing of the order in
which they were listed (`ProcessFiles.ofFileNames_perm`). What a disk holds under a path does not
depend on how the disk lists its nodes, either (`Disk.Reordered`). Together that makes the traces
that are merged, and the graph, the same (`merge_reordered`).
-/

namespace CallTrace

open Text

namespace ProcessFiles

/-! ## Names of trace files -/

theorem processOf?_eq_some_iff {fileName process : String} :
    processOf? fileName = some process ↔
      fileName = definitionFileStem ++ process ++ ".tsv" := by
  have htoList : fileName = definitionFileStem ++ process ++ ".tsv" ↔
      fileName.toList = definitionFileStem.toList ++ (process.toList ++ fileSuffix) := by
    rw [← String.toList_inj, String.toList_append, String.toList_append, List.append_assoc]
    rfl
  simp only [processOf?, Option.map_eq_some_iff, Option.bind_eq_some_iff, afterHead?_eq_some_iff,
    beforeTail?_eq_some_iff, htoList]
  constructor
  · rintro ⟨label, ⟨rest, hname, hrest⟩, rfl⟩
    rw [hname, hrest, String.toList_ofList]
  · intro h
    exact ⟨process.toList, ⟨_, h, rfl⟩, String.ofList_toList⟩

/-- The files of a process in a directory. -/
def ofProcess (dir process : String) : ProcessFiles :=
  ⟨process, Path.join dir (definitionFileStem ++ process ++ ".tsv"),
    Path.join dir (callFileStem ++ process ++ ".tsv")⟩

theorem ofFileName?_eq_some_iff {dir fileName : String} {files : ProcessFiles} :
    ofFileName? dir fileName = some files ↔
      ∃ process, fileName = definitionFileStem ++ process ++ ".tsv" ∧
        files = ofProcess dir process := by
  simp only [ofFileName?, Option.map_eq_some_iff, processOf?_eq_some_iff]
  constructor
  · rintro ⟨process, rfl, rfl⟩
    exact ⟨process, rfl, rfl⟩
  · rintro ⟨process, rfl, rfl⟩
    exact ⟨process, rfl, rfl⟩

/-! ## The order -/

/-- The place in the order: the number of the label first, of which those that have none come
before all others, and then the label. -/
def rank (files : ProcessFiles) : WithBot Nat ×ₗ String :=
  toLex (files.number?.elim ⊥ WithBot.some, files.process)

theorem notAfter_iff {a b : ProcessFiles} : a.notAfter b = true ↔ a.rank ≤ b.rank := by
  unfold notAfter rank
  rw [Prod.Lex.le_iff]
  cases a.number? <;> cases b.number? <;> simp [-String.lt_iff_ltb, not_lt]

/-- Files of one place in the order are those of one process. -/
theorem process_eq_of_rank_eq {a b : ProcessFiles} (h : a.rank = b.rank) : a.process = b.process :=
  congrArg (fun rank => (ofLex rank).2) h

/-! ## The files of a directory -/

variable {dir : String} {fileNames fileNames' : List String}

theorem mem_ofFileNames {files : ProcessFiles} :
    files ∈ ofFileNames dir fileNames ↔
      ∃ process, definitionFileStem ++ process ++ ".tsv" ∈ fileNames ∧
        files = ofProcess dir process := by
  simp only [ofFileNames, List.mem_mergeSort, List.mem_filterMap, ofFileName?_eq_some_iff]
  constructor
  · rintro ⟨_, hname, process, rfl, rfl⟩
    exact ⟨process, hname, rfl⟩
  · rintro ⟨process, hname, rfl⟩
    exact ⟨_, hname, process, rfl, rfl⟩

theorem pairwise_rank_le (dir : String) (fileNames : List String) :
    (ofFileNames dir fileNames).Pairwise fun a b => a.rank ≤ b.rank := by
  have hsorted : (ofFileNames dir fileNames).Pairwise fun a b => a.notAfter b = true := by
    apply List.pairwise_mergeSort
    · intro a b c hab hbc
      rw [notAfter_iff] at *
      exact le_trans hab hbc
    · intro a b
      rw [Bool.or_eq_true, notAfter_iff, notAfter_iff]
      exact le_total _ _
  exact hsorted.imp notAfter_iff.1

/-- **In a listing without repetitions** no two files have one place in the order. -/
theorem pairwise_rank_lt (hnodup : fileNames.Nodup) :
    (ofFileNames dir fileNames).Pairwise fun a b => a.rank < b.rank := by
  have hlisted : (fileNames.filterMap (ofFileName? dir)).Pairwise
      fun a b => a.process ≠ b.process := by
    refine List.Pairwise.filterMap _ (fun name name' hne a ha b hb heq => hne ?_) hnodup
    obtain ⟨process, rfl, rfl⟩ := ofFileName?_eq_some_iff.1 ha
    obtain ⟨process', rfl, rfl⟩ := ofFileName?_eq_some_iff.1 hb
    exact congrArg (definitionFileStem ++ · ++ ".tsv") heq
  have hne : (ofFileNames dir fileNames).Pairwise fun a b => a.process ≠ b.process :=
    ((List.mergeSort_perm ..).pairwise_iff fun h => h.symm).2 hlisted
  exact ((pairwise_rank_le dir fileNames).and hne).imp fun h =>
    lt_of_le_of_ne h.1 fun heq => h.2 (process_eq_of_rank_eq heq)

/-- **The order of a listing does not matter.** -/
theorem ofFileNames_perm (h : fileNames.Perm fileNames') :
    ofFileNames dir fileNames = ofFileNames dir fileNames' := by
  have hperm : (ofFileNames dir fileNames).Perm (ofFileNames dir fileNames') :=
    (List.mergeSort_perm ..).trans ((h.filterMap _).trans (List.mergeSort_perm ..).symm)
  refine hperm.eq_of_pairwise ?_ (pairwise_rank_le dir fileNames) (pairwise_rank_le dir fileNames')
  intro a b ha hb hab hba
  obtain ⟨process, -, rfl⟩ := mem_ofFileNames.1 ha
  obtain ⟨process', -, rfl⟩ := mem_ofFileNames.1 hb
  exact congrArg (ofProcess dir) (process_eq_of_rank_eq (le_antisymm hab hba))

end ProcessFiles

/-! ## Disks that list in another order -/

namespace Disk

/-- The same nodes, of which no two stand at one place, listed in any order. -/
structure Reordered (disk disk' : Disk) : Prop where
  nodes_perm : disk.nodes.Perm disk'.nodes
  places_nodup : (disk.nodes.map Prod.fst).Nodup
  workingDirectory_eq : disk.workingDirectory = disk'.workingDirectory

theorem mem_lookup_iff {α β : Type} [BEq α] [LawfulBEq α] {entries : List (α × β)}
    (h : (entries.map Prod.fst).Nodup) {a : α} {b : β} :
    entries.lookup a = some b ↔ (a, b) ∈ entries := by
  induction entries with
  | nil => simp
  | cons entry rest ih =>
    obtain ⟨hnew, hrest⟩ := List.nodup_cons.1 h
    rw [List.lookup_cons]
    by_cases heq : a = entry.1
    · subst heq
      have hnone : (entry.1, b) ∉ rest := fun hmem =>
        hnew (List.mem_map.2 ⟨_, hmem, rfl⟩)
      simp [hnone, Prod.ext_iff, eq_comm]
    · have hbeq : (a == entry.1) = false := by simpa using heq
      have hne : (a, b) ≠ entry := fun h => heq (congrArg Prod.fst h)
      rw [hbeq, List.mem_cons]
      simp [hne, ih hrest]

namespace Reordered

variable {disk disk' : Disk} (h : disk.Reordered disk')
include h

theorem at?_eq : disk.at? = disk'.at? := by
  funext place
  have hnodup : (disk'.nodes.map Prod.fst).Nodup := (h.nodes_perm.map _).nodup_iff.1 h.places_nodup
  have hlookup : disk.nodes.lookup place = disk'.nodes.lookup place := by
    ext node
    rw [mem_lookup_iff h.places_nodup, mem_lookup_iff hnodup, h.nodes_perm.mem_iff]
  rw [at?, at?, hlookup]

theorem walk_eq : disk.walk = disk'.walk := by
  have hstep : disk.step = disk'.step := by
    funext place piece
    simp only [step, h.at?_eq]
  funext place pieces
  induction pieces generalizing place with
  | nil => rfl
  | cons piece rest ih =>
    rw [walk, walk, hstep]
    exact bind_congr ih

theorem resolve_eq : disk.resolve = disk'.resolve := by
  funext path
  simp only [resolve, route, h.workingDirectory_eq, h.walk_eq, h.at?_eq]

theorem contains_eq : disk.contains = disk'.contains := by
  funext path
  rw [contains, contains, h.resolve_eq]

theorem openFile_eq : disk.openFile = disk'.openFile := by
  funext path
  rw [openFile, openFile, h.resolve_eq]

/-- The same names are listed, in any order and without repetitions. -/
theorem list_perm (path : String) :
    (∃ fault, disk.list path = .error fault ∧ disk'.list path = .error fault) ∨
      ∃ names names', disk.list path = .ok names ∧ disk'.list path = .ok names' ∧
        names.Perm names' ∧ names.Nodup := by
  unfold list
  rw [h.resolve_eq]
  rcases disk'.resolve path with fault | ⟨place, node⟩
  · exact .inl ⟨fault, rfl, rfl⟩
  cases node with
  | directory =>
    refine .inr ⟨_, _, rfl, rfl, h.nodes_perm.filterMap _, ?_⟩
    refine (List.pairwise_map.1 h.places_nodup).filterMap _ fun entry entry' hne name hname name'
      hname' heq => hne ?_
    subst heq
    -- both names stand in the one directory
    split at hname
    · rename_i hplace
      split at hname'
      · rename_i hplace'
        rw [← List.dropLast_append_getLast? _ hname, ← List.dropLast_append_getLast? _ hname',
          hplace, hplace']
      · cases hname'
    · cases hname
  | file content => exact .inl ⟨.notDirectory, rfl, rfl⟩
  | fullDevice => exact .inl ⟨.notDirectory, rfl, rfl⟩

end Reordered

end Disk

/-! ## Merging -/

namespace GraphBuilder

variable {disk disk' : Disk} (h : disk.Reordered disk')
include h

theorem readRecords_eq (path : String) : readRecords disk path = readRecords disk' path := by
  simp only [readRecords, Trace.readAt, h.openFile_eq]

theorem addTraces_eq (builder : GraphBuilder) (files : ProcessFiles) :
    builder.addTraces disk files = builder.addTraces disk' files := by
  simp only [addTraces, readRecords_eq h, h.contains_eq]

theorem addAllTraces_eq (builder : GraphBuilder) (processes : List ProcessFiles) :
    builder.addAllTraces disk processes = builder.addAllTraces disk' processes := by
  induction processes generalizing builder with
  | nil => rfl
  | cons files rest ih =>
    rw [addAllTraces, addAllTraces, addTraces_eq h]
    exact bind_congr ih

end GraphBuilder

open ProcessFiles

theorem traceFilesIn_eq {disk disk' : Disk} (h : disk.Reordered disk') (dir : String) :
    traceFilesIn disk dir = traceFilesIn disk' dir := by
  unfold traceFilesIn
  rcases h.list_perm dir with ⟨fault, hlist, hlist'⟩ | ⟨names, names', hlist, hlist', hperm, -⟩
  · rw [hlist, hlist']
  · rw [hlist, hlist']
    exact congrArg Except.ok (ofFileNames_perm hperm)

/-- **The order in which a directory is listed does not matter.** On disks with the same nodes the
same trace files are found, one pair for each file name that names a process, in strictly ascending
order: first the labels without a number, then by number, and labels of one number as texts. So the
merged graphs are the same, ids and all, or both fail for the same reason. A label has a number if
it is digits after a plus sign at most, and the number fits in 64 bits. -/
theorem merge_reordered (disk disk' : Disk) (h : disk.Reordered disk') (dir : String) :
    traceFilesIn disk dir = traceFilesIn disk' dir ∧
      CallGraph.ofDirectory disk dir = CallGraph.ofDirectory disk' dir ∧
      (∀ fault, disk.list dir = .error fault →
        traceFilesIn disk dir = .error (.readDirectory dir fault)) ∧
      (∀ names, disk.list dir = .ok names → ∃ processes, traceFilesIn disk dir = .ok processes ∧
        (∀ files, files ∈ processes ↔ ∃ label, definitionFileStem ++ label ++ ".tsv" ∈ names ∧
          files = ⟨label, Path.join dir (definitionFileStem ++ label ++ ".tsv"),
            Path.join dir (callFileStem ++ label ++ ".tsv")⟩) ∧
        processes.Pairwise fun a b => a.rank < b.rank) ∧
      ∀ (files : ProcessFiles) n, files.number? = some n ↔
        Decimal.Counts files.process.toList n ∧ n < 2 ^ 64 := by
  refine ⟨traceFilesIn_eq h dir, ?_, ?_, ?_, fun files n => Decimal.readBelow?_eq_some_iff⟩
  · simp only [CallGraph.ofDirectory, traceFilesIn_eq h, GraphBuilder.addAllTraces_eq h]
  · intro fault hlist
    rw [traceFilesIn, hlist]
  · intro names hlist
    rcases h.list_perm dir with ⟨fault, hlist', -⟩ | ⟨_, names', hlist', -, -, hnodup⟩
    · rw [hlist] at hlist'
      cases hlist'
    · obtain rfl : names = _ := Except.ok.inj (hlist.symm.trans hlist')
      refine ⟨ofFileNames dir names, ?_, fun files => mem_ofFileNames, pairwise_rank_lt hnodup⟩
      rw [traceFilesIn, hlist]

/-- Labels of one number, one without a number and one that is empty, among other names. -/
theorem merge_reordered_shuffled :
    let nodes : List (Place × Node) :=
      [(["func_x.tsv"], .file []), (["func_+7.tsv"], .file []), (["func_.tsv"], .directory),
        (["cg_07.tsv"], .file []), (["func_07.tsv"], .file []), (["func_", ".tsv"], .file [])]
    let disk : Disk := ⟨nodes, []⟩
    let disk' : Disk := ⟨nodes.reverse, []⟩
    disk.Reordered disk' ∧ CallGraph.ofDirectory disk "." = CallGraph.ofDirectory disk' "." ∧
      ∃ processes, traceFilesIn disk' "." = .ok processes ∧
        ⟨"07", "./func_07.tsv", "./cg_07.tsv"⟩ ∈ processes ∧
        (∀ files ∈ processes, files.process ≠ "8") ∧
        processes.Pairwise fun a b => a.rank < b.rank := by
  intro nodes disk disk'
  have h : disk.Reordered disk' :=
    ⟨(List.reverse_perm nodes).symm, by decide, rfl⟩
  have hlist : disk.list "." =
      .ok ["func_x.tsv", "func_+7.tsv", "func_.tsv", "cg_07.tsv", "func_07.tsv"] := by
    rfl
  obtain ⟨hfiles, hgraph, -, hfound, -⟩ := merge_reordered disk disk' h "."
  obtain ⟨processes, hprocesses, hmem, hsorted⟩ := hfound _ hlist
  refine ⟨h, hgraph, processes, hfiles.symm.trans hprocesses, ?_, ?_, hsorted⟩
  · exact (hmem _).2 ⟨"07", by decide, by decide⟩
  · intro files hfiles heq
    obtain ⟨label, hname, rfl⟩ := (hmem files).1 hfiles
    obtain rfl : label = "8" := heq
    exact absurd hname (by decide)

end CallTrace
