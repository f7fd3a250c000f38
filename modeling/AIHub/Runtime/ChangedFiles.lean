import AIHub.Domain.Tasks
import AIHub.Lib.PosixPath
import AIHub.Lib.Utf8
import Mathlib.Data.List.Dedup
import Mathlib.Data.List.Sort
import Mathlib.Data.String.Basic

/-!
# Changed files

After a run the runtime asks `git status` which files have changed. The answer is a list of
records, each ended by NUL: two status letters, a space and a path, and after the record of a
rename or of a copy the bare path of the source. The reader does not look at the letters. It takes
a record for one with letters if its third character is a space, and otherwise for a bare path.

A bare path whose third character is a space is so read without its first three characters: the
file `ab cd.txt` that was renamed is reported as `cd.txt`.

* `mem_collectChangedFiles`: what is reported of the records.
* `validateChangedFiles_collect`: what is reported is accepted in a result.
* `changedFiles_iff`: exactly the paths of the entries are reported if and only if every source
  path that is read so is also reported otherwise, and what is left of it is such a path or none.
-/

namespace AIHub

/-! ## The answer of git -/

/-- The state of a path in the index or in the work tree. -/
inductive GitStatus where
  | unmodified
  | modified
  | typeChanged
  | added
  | deleted
  | renamed
  | copied
  | unmerged
  | untracked
  | ignored
  deriving DecidableEq

namespace GitStatus

def letter : GitStatus → Char
  | unmodified => ' '
  | modified => 'M'
  | typeChanged => 'T'
  | added => 'A'
  | deleted => 'D'
  | renamed => 'R'
  | copied => 'C'
  | unmerged => 'U'
  | untracked => '?'
  | ignored => '!'

theorem letter_ne_nul (status : GitStatus) : status.letter ≠ Char.ofNat 0 := by
  cases status <;> decide

end GitStatus

/-- A relative path without empty components, dots and double dots. -/
structure GitPath where
  text : String
  noNul : Char.ofNat 0 ∉ text.toList
  ok : ∀ part ∈ text.toList.splitOn '/', part ≠ [] ∧ part ≠ ['.'] ∧ part ≠ ['.', '.']
  deriving DecidableEq

inductive GitEntry where
  | ordinary (index worktree : GitStatus) (path : GitPath)
  | moved (index worktree : GitStatus) (path source : GitPath)

namespace GitEntry

/-- The path of the entry, of a rename or a copy the destination. -/
def path : GitEntry → GitPath
  | ordinary _ _ path => path
  | moved _ _ path _ => path

def sources : GitEntry → List GitPath
  | ordinary .. => []
  | moved _ _ _ source => [source]

def paths (entry : GitEntry) : List GitPath := entry.path :: entry.sources

/-- The first record of an entry. -/
def statusRecord : GitEntry → List Char
  | ordinary index worktree path => index.letter :: worktree.letter :: ' ' :: path.text.toList
  | moved index worktree path _ => index.letter :: worktree.letter :: ' ' :: path.text.toList

def records (entry : GitEntry) : List (List Char) :=
  entry.statusRecord :: entry.sources.map fun source => source.text.toList

end GitEntry

/-- The output of `git status --porcelain=v1 -z`. -/
def porcelain (entries : List GitEntry) : List UInt8 :=
  (entries.flatMap GitEntry.records).flatMap fun record => Utf8.encode record ++ [0]

/-! ## Reading it -/

/-- Is the third character a space? -/
def looksLikeStatus (record : List Char) : Bool := 3 ≤ record.length && record[2]? = some ' '

theorem looksLikeStatus_cons (x y : Char) (rest : List Char) :
    looksLikeStatus (x :: y :: ' ' :: rest) = true := by
  simp [looksLikeStatus]

/-- The path that a text stands for, unless it is skipped. -/
def changedPath (candidate : List Char) : Option String :=
  let path := PurePosixPath.ofString (String.ofList candidate)
  if path.isAbsolute || path.parts.contains ['.', '.'] || candidate = [] then none
  else some path.asPosix

def recordPath (record : List Char) : Option String :=
  changedPath (if looksLikeStatus record then record.drop 3 else record)

/-- `_collect_changed_files`, where `git` is the exit code and the output of the process, if it
could be launched. -/
def collectChangedFiles (git : Option (Int × List UInt8)) : List String :=
  match git with
  | none => []
  | some (returncode, output) =>
    if returncode ≠ 0 then []
    else
      let records := (output.splitOn 0).filter fun rawRecord => rawRecord ≠ []
      let paths := records.filterMap fun rawRecord => recordPath (Utf8.decode rawRecord)
      paths.dedup.insertionSort (· ≤ ·)

/-- `RuntimeResult.validate_changed_files`. -/
def validateChangedFiles (value : List String) : Except HubError (List String) :=
  if ¬ value.Nodup then
    .error (.validation "changed_files must not contain duplicates")
  else if value.any fun fileName =>
      (PurePosixPath.ofString fileName).isAbsolute ||
        (PurePosixPath.ofString fileName).parts.contains ['.', '.'] then
    .error (.validation "changed_files must contain safe relative paths")
  else .ok value

/-! ## What is reported -/

/-- The records that are read from an output. -/
def readRecords (output : List UInt8) : List (List Char) :=
  ((output.splitOn 0).filter fun rawRecord => rawRecord ≠ []).map Utf8.decode

theorem mem_collectChangedFiles {text : String} {git : Option (Int × List UInt8)} :
    text ∈ collectChangedFiles git ↔ ∃ output, git = some (0, output) ∧
      ∃ record ∈ readRecords output, recordPath record = some text := by
  unfold collectChangedFiles
  cases git with
  | none => simp
  | some git =>
    obtain ⟨returncode, output⟩ := git
    dsimp only
    split_ifs with hcode
    · simp [hcode]
    · have hcode : returncode = 0 := not_not.1 hcode
      subst hcode
      simp [readRecords]

/-- What is reported is sorted, without duplicates. -/
theorem sortedLT_collectChangedFiles (git : Option (Int × List UInt8)) :
    (collectChangedFiles git).Pairwise (· < ·) := by
  unfold collectChangedFiles
  cases git with
  | none => exact List.Pairwise.nil
  | some git =>
    obtain ⟨returncode, output⟩ := git
    dsimp only
    split_ifs
    · exact List.Pairwise.nil
    · generalize List.filterMap _ _ = paths
      have hsorted := List.pairwise_insertionSort (· ≤ ·) paths.dedup
      have hnodup := (List.perm_insertionSort (· ≤ ·) paths.dedup).nodup_iff.2 paths.nodup_dedup
      exact hsorted.imp₂ (fun _ _ hle hne => lt_of_le_of_ne hle hne) hnodup

theorem changedPath_eq_some {candidate : List Char} {text : String} :
    changedPath candidate = some text ↔ candidate ≠ [] ∧
      (PurePosixPath.ofString (String.ofList candidate)).isAbsolute = false ∧
      ['.', '.'] ∉ (PurePosixPath.ofString (String.ofList candidate)).parts ∧
      (PurePosixPath.ofString (String.ofList candidate)).asPosix = text := by
  unfold changedPath
  dsimp only
  split_ifs with h
  · simp only [Bool.or_eq_true, decide_eq_true_eq, List.contains_iff_mem] at h
    rcases h with (h | h) | h <;> simp [h]
  · simp only [Bool.or_eq_true, decide_eq_true_eq, List.contains_iff_mem, not_or] at h
    simp [h.1.1, h.1.2, h.2]

/-- What is reported is accepted in a result, unchanged. -/
theorem validateChangedFiles_collect (git : Option (Int × List UInt8)) :
    validateChangedFiles (collectChangedFiles git) = .ok (collectChangedFiles git) := by
  have hnodup : (collectChangedFiles git).Nodup :=
    (sortedLT_collectChangedFiles git).imp fun h => ne_of_lt h
  rw [validateChangedFiles, if_neg (not_not.2 hnodup), if_neg]
  simp only [List.any_eq_true, Bool.or_eq_true, List.contains_iff_mem, not_exists, not_and, not_or]
  intro fileName hmem
  obtain ⟨output, _, record, _, hpath⟩ := mem_collectChangedFiles.1 hmem
  obtain ⟨_, habsolute, hdots, rfl⟩ := changedPath_eq_some.1 hpath
  rw [PurePosixPath.ofString_asPosix]
  exact ⟨ne_true_of_eq_false habsolute, hdots⟩

/-! ## Reading the records back -/

theorem splitOn_terminated {records : List (List UInt8)} (h : ∀ record ∈ records, 0 ∉ record) :
    (records.flatMap fun record => record ++ [0]).splitOn 0 = records ++ [[]] := by
  induction records with
  | nil => rfl
  | cons record records ih =>
    have hrest := ih fun r hr => h r (List.mem_cons_of_mem _ hr)
    rw [List.flatMap_cons, List.append_assoc, List.singleton_append,
      List.splitOn_append_cons_self_of_not_mem (h record List.mem_cons_self), hrest,
      List.cons_append]

namespace GitPath

theorem ne_nil (path : GitPath) : path.text.toList ≠ [] := by
  intro hnil
  have hok := path.ok
  rw [hnil] at hok
  exact (hok [] List.mem_cons_self).1 rfl

/-- The path of a text that is one is the text. -/
theorem changedPath_text (path : GitPath) : changedPath path.text.toList = some path.text := by
  have hparts : ∀ part ∈ path.text.toList.splitOn '/', IsPathPart part := by
    intro part hpart
    obtain ⟨hne, hdot, _⟩ := path.ok part hpart
    exact ⟨hne, hdot, fun hslash => (List.mem_of_mem_splitOn hpart _ hslash).2 rfl⟩
  have htext : ['/'].intercalate (path.text.toList.splitOn '/') = path.text.toList :=
    List.intercalate_splitOn '/'
  have hroot : PurePosixPath.splitRoot path.text.toList = (.none, path.text.toList) := by
    have h := PurePosixPath.splitRoot_append .none (PurePosixPath.head_intercalate hparts)
    rwa [htext] at h
  have hofString : PurePosixPath.ofString path.text =
      ⟨.none, path.text.toList.splitOn '/', hparts⟩ := by
    refine PurePosixPath.ext (congrArg Prod.fst hroot) ?_
    rw [PurePosixPath.ofString]
    dsimp only
    rw [hroot]
    dsimp only
    conv_lhs => rw [← htext]
    exact PurePosixPath.splitParts_intercalate hparts
  rw [changedPath_eq_some, String.ofList_toList, hofString]
  refine ⟨path.ne_nil, rfl, ?_, ?_⟩
  · intro hdots
    exact (path.ok _ hdots).2.2 rfl
  · refine String.toList_injective ?_
    rw [PurePosixPath.toList_asPosix rfl (List.splitOn_ne_nil _ _)]
    exact htext

end GitPath

namespace GitEntry

theorem statusRecord_eq (entry : GitEntry) : ∃ x y, x ≠ Char.ofNat 0 ∧ y ≠ Char.ofNat 0 ∧
    entry.statusRecord = x :: y :: ' ' :: entry.path.text.toList := by
  cases entry with
  | ordinary index worktree path =>
    exact ⟨_, _, index.letter_ne_nul, worktree.letter_ne_nul, rfl⟩
  | moved index worktree path source =>
    exact ⟨_, _, index.letter_ne_nul, worktree.letter_ne_nul, rfl⟩

theorem recordPath_statusRecord (entry : GitEntry) :
    recordPath entry.statusRecord = some entry.path.text := by
  obtain ⟨x, y, _, _, hrecord⟩ := entry.statusRecord_eq
  rw [hrecord, recordPath, if_pos (looksLikeStatus_cons _ _ _)]
  exact entry.path.changedPath_text

theorem records_ok {entry : GitEntry} {record : List Char} (h : record ∈ entry.records) :
    record ≠ [] ∧ Char.ofNat 0 ∉ record := by
  rcases List.mem_cons.1 h with rfl | h
  · obtain ⟨x, y, hx, hy, hrecord⟩ := entry.statusRecord_eq
    rw [hrecord]
    refine ⟨List.cons_ne_nil _ _, ?_⟩
    simp only [List.mem_cons, not_or]
    exact ⟨hx.symm, hy.symm, by decide, entry.path.noNul⟩
  · obtain ⟨source, _, rfl⟩ := List.mem_map.1 h
    exact ⟨source.ne_nil, source.noNul⟩

end GitEntry

/-- The records are read back from the output. -/
theorem readRecords_porcelain (entries : List GitEntry) :
    readRecords (porcelain entries) = entries.flatMap GitEntry.records := by
  have hok : ∀ record ∈ entries.flatMap GitEntry.records,
      record ≠ [] ∧ Char.ofNat 0 ∉ record := by
    intro record hrecord
    obtain ⟨entry, _, hrecord⟩ := List.mem_flatMap.1 hrecord
    exact GitEntry.records_ok hrecord
  unfold readRecords porcelain
  generalize entries.flatMap GitEntry.records = records at hok
  have hencoded : ∀ raw ∈ records.map Utf8.encode, raw ≠ [] ∧ 0 ∉ raw := by
    intro raw hraw
    obtain ⟨record, hrecord, rfl⟩ := List.mem_map.1 hraw
    exact ⟨Utf8.encode_ne_nil (hok record hrecord).1,
      fun hzero => (hok record hrecord).2 (Utf8.zero_mem_encode hzero)⟩
  have hsplit := splitOn_terminated fun raw hraw => (hencoded raw hraw).2
  rw [List.flatMap_map] at hsplit
  rw [hsplit, List.filter_append, List.filter_eq_self.2, List.map_append, List.map_map]
  · have hdecode : Utf8.decode ∘ Utf8.encode = id := funext Utf8.decode_encode
    simp [hdecode]
  · intro raw hraw
    exact decide_eq_true (hencoded raw hraw).1

/-! ## The paths of the entries -/

/-- The paths that the entries report. -/
def reportedPaths (entries : List GitEntry) : List String :=
  (entries.flatMap GitEntry.paths).map GitPath.text

/-- The paths that stand in records with status letters. -/
def lettered (entries : List GitEntry) : List String := entries.map fun entry => entry.path.text

/-- The bare paths that are read as records with status letters. -/
def misread (entries : List GitEntry) : List GitPath :=
  (entries.flatMap GitEntry.sources).filter fun source => looksLikeStatus source.text.toList

/-- What is left of a text after its first three characters, read as a path. -/
def remainder (path : GitPath) : Option String := changedPath (path.text.toList.drop 3)

theorem mem_reportedPaths {entries : List GitEntry} {text : String} :
    text ∈ reportedPaths entries ↔ text ∈ lettered entries ∨
      ∃ source ∈ entries.flatMap GitEntry.sources, source.text = text := by
  simp only [reportedPaths, lettered, GitEntry.paths, List.mem_map, List.mem_flatMap, List.mem_cons]
  constructor
  · intro h
    obtain ⟨path, ⟨entry, hentry, rfl | hpath⟩, rfl⟩ := h
    · exact .inl ⟨entry, hentry, rfl⟩
    · exact .inr ⟨path, ⟨entry, hentry, hpath⟩, rfl⟩
  · intro h
    rcases h with ⟨entry, hentry, rfl⟩ | ⟨source, ⟨entry, hentry, hsource⟩, rfl⟩
    · exact ⟨entry.path, ⟨entry, hentry, .inl rfl⟩, rfl⟩
    · exact ⟨source, ⟨entry, hentry, .inr hsource⟩, rfl⟩

/-- A source path is reported as it is, unless it is misread. -/
theorem recordPath_source (source : GitPath) : recordPath source.text.toList =
    if looksLikeStatus source.text.toList then remainder source else some source.text := by
  unfold recordPath
  split_ifs
  · rfl
  · exact source.changedPath_text

theorem mem_collect_porcelain {entries : List GitEntry} {text : String} :
    text ∈ collectChangedFiles (some (0, porcelain entries)) ↔ text ∈ lettered entries ∨
      (∃ source ∈ entries.flatMap GitEntry.sources,
        looksLikeStatus source.text.toList = false ∧ source.text = text) ∨
      ∃ source ∈ misread entries, remainder source = some text := by
  have hread : text ∈ collectChangedFiles (some (0, porcelain entries)) ↔
      ∃ record ∈ entries.flatMap GitEntry.records, recordPath record = some text := by
    rw [mem_collectChangedFiles]
    constructor
    · intro h
      obtain ⟨output, houtput, h⟩ := h
      cases houtput
      rwa [readRecords_porcelain] at h
    · intro h
      exact ⟨_, rfl, by rwa [readRecords_porcelain]⟩
  rw [hread]
  constructor
  · intro h
    obtain ⟨record, hrecord, hpath⟩ := h
    obtain ⟨entry, hentry, hrecord⟩ := List.mem_flatMap.1 hrecord
    rcases List.mem_cons.1 hrecord with rfl | hrecord
    · rw [entry.recordPath_statusRecord, Option.some.injEq] at hpath
      exact .inl (List.mem_map.2 ⟨entry, hentry, hpath⟩)
    · obtain ⟨source, hsource, rfl⟩ := List.mem_map.1 hrecord
      have hmem := List.mem_flatMap.2 ⟨entry, hentry, hsource⟩
      rw [recordPath_source] at hpath
      split_ifs at hpath with hlooks
      · exact .inr (.inr ⟨source, List.mem_filter.2 ⟨hmem, hlooks⟩, hpath⟩)
      · exact .inr (.inl ⟨source, hmem, Bool.not_eq_true _ ▸ hlooks, Option.some.inj hpath⟩)
  · have hbare : ∀ source ∈ entries.flatMap GitEntry.sources,
        source.text.toList ∈ entries.flatMap GitEntry.records := by
      intro source hsource
      obtain ⟨entry, hentry, hsource⟩ := List.mem_flatMap.1 hsource
      exact List.mem_flatMap.2 ⟨entry, hentry, List.mem_cons_of_mem _ (List.mem_map_of_mem hsource)⟩
    intro h
    rcases h with h | ⟨source, hsource, hlooks, rfl⟩ | ⟨source, hsource, hremains⟩
    · obtain ⟨entry, hentry, rfl⟩ := List.mem_map.1 h
      exact ⟨_, List.mem_flatMap.2 ⟨entry, hentry, List.mem_cons_self⟩,
        entry.recordPath_statusRecord⟩
    · refine ⟨_, hbare source hsource, ?_⟩
      rw [recordPath_source, hlooks]
      rfl
    · obtain ⟨hsource, hlooks⟩ := List.mem_filter.1 hsource
      refine ⟨_, hbare source hsource, ?_⟩
      rw [recordPath_source, if_pos hlooks, hremains]

/-- Exactly the paths of the entries are reported, sorted and without duplicates, if and only if
every source path that is misread is also reported by another record, and what is left of it is a
path that is reported, or none. -/
theorem changedFiles_iff (entries : List GitEntry) :
    ((collectChangedFiles (some (0, porcelain entries))).Pairwise (· < ·) ∧
      ∀ text, text ∈ collectChangedFiles (some (0, porcelain entries)) ↔
        text ∈ reportedPaths entries) ↔
    ∀ source ∈ misread entries,
      (source.text ∈ lettered entries ∨
        ∃ other ∈ misread entries, remainder other = some source.text) ∧
      ∀ text, remainder source = some text → text ∈ reportedPaths entries := by
  constructor
  · intro h source hsource
    obtain ⟨hmem, hlooks⟩ := List.mem_filter.1 hsource
    refine ⟨?_, fun text hremains => ?_⟩
    · have hcollected := (h.2 source.text).2 (mem_reportedPaths.2 (.inr ⟨source, hmem, rfl⟩))
      rcases mem_collect_porcelain.1 hcollected with h | ⟨other, _, hother, htext⟩ | h
      · exact .inl h
      · -- the other source has the same text, and is misread as well
        rw [htext, hlooks] at hother
        cases hother
      · exact .inr h
    · exact (h.2 text).1 (mem_collect_porcelain.2 (.inr (.inr ⟨source, hsource, hremains⟩)))
  · intro h
    refine ⟨sortedLT_collectChangedFiles _, fun text => ?_⟩
    rw [mem_collect_porcelain]
    constructor
    · intro hcollected
      rcases hcollected with hpath | ⟨source, hsource, _, rfl⟩ | ⟨source, hsource, hremains⟩
      · exact mem_reportedPaths.2 (.inl hpath)
      · exact mem_reportedPaths.2 (.inr ⟨source, hsource, rfl⟩)
      · exact (h source hsource).2 text hremains
    · intro hreported
      rcases mem_reportedPaths.1 hreported with hpath | ⟨source, hsource, rfl⟩
      · exact .inl hpath
      · by_cases hlooks : looksLikeStatus source.text.toList = true
        · rcases (h source (List.mem_filter.2 ⟨hsource, hlooks⟩)).1 with hpath | hother
          · exact .inl hpath
          · exact .inr (.inr hother)
        · exact .inr (.inl ⟨source, hsource, Bool.not_eq_true _ ▸ hlooks, rfl⟩)

/-! ## A renamed file -/

namespace Sample

def renamedFrom : GitPath where
  text := "ab cd.txt"
  noNul := by decide
  ok := by decide

def renamedTo : GitPath where
  text := "new.txt"
  noNul := by decide
  ok := by decide

end Sample

/-- The source of a rename has a space as its third character: a path is reported that git did not
report. -/
theorem unreported_path : ∃ entries : List GitEntry,
    ¬ ((collectChangedFiles (some (0, porcelain entries))).Pairwise (· < ·) ∧
      ∀ text, text ∈ collectChangedFiles (some (0, porcelain entries)) ↔
        text ∈ reportedPaths entries) := by
  refine ⟨[.moved .renamed .unmodified Sample.renamedTo Sample.renamedFrom], fun h => ?_⟩
  have hcollected := (h.2 "cd.txt").1 (mem_collect_porcelain.2 (.inr (.inr ⟨Sample.renamedFrom,
    by decide, by decide⟩)))
  exact absurd hcollected (by decide)

end AIHub
