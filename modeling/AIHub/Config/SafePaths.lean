import AIHub.Config.Workspaces

/-!
# Safe relative paths

The settings and the projects take relative paths, which `validateRelativePath` checks and writes
anew. The check is made on the text and on its path, in which empty parts and single dots are
dropped. Two dots are looked for in the path; that something is left is only looked for in the text,
so a text of nothing but dots and slashes is taken and written as a dot.

* `relativePath_again`: what is written is taken again as it is, unless it is the dot.
* `safeRelative_iff`: it is a safe relative path exactly if some part of the text is neither empty
  nor a single dot.
* `workspaces_safe`: the workspaces of an accepted bundle are safe relative paths. Its workspace
  root may be the dot.
-/

namespace AIHub.Config

/-- `Settings.validate_workspace_root`. -/
def validateWorkspaceRoot (value : String) : Except HubError String :=
  validateRelativePath value "workspace_root"

/-- `ProjectDefinition.validate_workspace`. -/
def validateWorkspace (value : String) : Except HubError String :=
  validateRelativePath value "workspace"

/-- A text that names something below whatever it is joined to, and that validation leaves as it
is. -/
structure SafeRelative (text : String) : Prop where
  someComponent : (PurePosixPath.ofString text).parts ≠ []
  components : ∀ part ∈ text.toList.splitOn '/', part ≠ [] ∧ part ≠ ['.'] ∧ part ≠ ['.', '.']
  relative : (PurePosixPath.ofString text).isAbsolute = false
  below : ∀ root : PurePosixPath, (root.join (.ofString text)).IsRelativeTo root ∧
    root.join (.ofString text) ≠ root
  again : ∀ fieldName, validateRelativePath text fieldName = .ok text

/-! ## What is checked -/

/-- What an accepted text is, beside relative. -/
structure Checked (value : String) : Prop where
  posix : '\\' ∉ value.toList
  relative : (PurePosixPath.ofString value).root = .none
  noDrive : hasDrivePrefix (.ofString value) = false
  noParent : ['.', '.'] ∉ (PurePosixPath.ofString value).tail

theorem parts_eq_tail {p : PurePosixPath} (h : p.root = .none) : p.parts = p.tail := if_pos h

theorem checked_of_ok {value fieldName text : String}
    (h : validateRelativePath value fieldName = .ok text) : Checked value := by
  obtain ⟨hroot, _⟩ := validateRelativePath_ok h
  unfold validateRelativePath at h
  split_ifs at h with hslash
  dsimp only at h
  split_ifs at h with hunsafe
  simp only [Bool.or_eq_true, not_or, List.contains_iff_mem, Bool.not_eq_true] at hslash hunsafe
  refine ⟨hslash, hroot, hunsafe.1.1.1.2, ?_⟩
  rw [← parts_eq_tail hroot]
  exact hunsafe.2

theorem Checked.accepted {value : String} (h : Checked value) (hempty : value ≠ "")
    (hdot : value ≠ ".") (fieldName : String) :
    validateRelativePath value fieldName = .ok (PurePosixPath.ofString value).asPosix := by
  have hslash : ¬ value.toList.contains '\\' = true := by
    rw [List.contains_iff_mem]
    exact h.posix
  unfold validateRelativePath
  rw [if_neg hslash]
  dsimp only
  rw [if_neg]
  simp [PurePosixPath.isAbsolute, h.relative, h.noDrive, hempty, hdot, parts_eq_tail, h.noParent]

/-- The text that is written for the path passes the checks that the text passed. -/
theorem Checked.written {value : String} (h : Checked value) :
    Checked (PurePosixPath.ofString value).asPosix := by
  refine ⟨fun hmem => ?_, ?_, ?_, ?_⟩
  · rcases PurePosixPath.mem_asPosix hmem with hc | hc | ⟨part, hpart, hc⟩
    · exact absurd hc (by decide)
    · exact absurd hc (by decide)
    · exact h.posix (PurePosixPath.mem_ofString hpart hc)
  · rw [PurePosixPath.ofString_asPosix]
    exact h.relative
  · rw [PurePosixPath.ofString_asPosix]
    exact h.noDrive
  · rw [PurePosixPath.ofString_asPosix]
    exact h.noParent

/-- What is written is taken again as it is, unless it is the dot. -/
theorem relativePath_again {value fieldName text : String}
    (h : validateRelativePath value fieldName = .ok text) (hdot : text ≠ ".")
    (fieldName' : String) : validateRelativePath text fieldName' = .ok text := by
  obtain ⟨_, rfl⟩ := validateRelativePath_ok h
  have hagain := (checked_of_ok h).written.accepted (PurePosixPath.asPosix_ne_empty _) hdot
    fieldName'
  rwa [PurePosixPath.ofString_asPosix] at hagain

/-! ## When something is left -/

/-- The path of a text without a root has parts exactly if the text has one that is neither empty
nor a single dot. -/
theorem tail_ne_nil_iff {value : String} (h : (PurePosixPath.ofString value).root = .none) :
    (PurePosixPath.ofString value).tail ≠ [] ↔
      ∃ part ∈ value.toList.splitOn '/', part ≠ [] ∧ part ≠ ['.'] := by
  rw [← PurePosixPath.splitParts_of_relative h, PurePosixPath.splitParts, ne_eq,
    List.filter_eq_nil_iff]
  simp

/-- What is written for a path with parts is a safe relative path. -/
theorem safeRelative_of_tail {value fieldName text : String}
    (h : validateRelativePath value fieldName = .ok text)
    (htail : (PurePosixPath.ofString value).tail ≠ []) : SafeRelative text := by
  obtain ⟨hroot, htext⟩ := validateRelativePath_ok h
  have hpath : PurePosixPath.ofString text = .ofString value := by
    rw [htext, PurePosixPath.ofString_asPosix]
  have hdot : text ≠ "." := by
    intro hdot
    exact htail (PurePosixPath.asPosix_eq_dot.1 (htext.symm.trans hdot)).2
  refine ⟨?_, ?_, ?_, ?_, relativePath_again h hdot⟩
  · rwa [hpath, parts_eq_tail hroot]
  · -- the parts of the text are those of the path
    have hsplit : text.toList.splitOn '/' = (PurePosixPath.ofString value).tail := by
      rw [htext, PurePosixPath.toList_asPosix hroot htail, List.splitOn_intercalate _ _ htail]
      exact fun part hpart => ((PurePosixPath.ofString value).ok part hpart).2.2
    intro part hpart
    rw [hsplit] at hpart
    obtain ⟨hne, hsingle, _⟩ := (PurePosixPath.ofString value).ok part hpart
    refine ⟨hne, hsingle, ?_⟩
    rintro rfl
    exact (checked_of_ok h).noParent hpart
  · rw [hpath, PurePosixPath.isAbsolute, hroot]
    rfl
  · intro root
    rw [hpath]
    exact (PurePosixPath.join_below hroot root).2 htail

/-- An accepted text is written as a safe relative path exactly if some part of it is neither empty
nor a single dot. -/
theorem safeRelative_iff (value fieldName text : String)
    (h : validateRelativePath value fieldName = .ok text) :
    SafeRelative text ↔ ∃ part ∈ value.toList.splitOn '/', part ≠ [] ∧ part ≠ ['.'] := by
  obtain ⟨hroot, htext⟩ := validateRelativePath_ok h
  rw [← tail_ne_nil_iff hroot]
  constructor
  · intro hsafe
    have hparts := hsafe.someComponent
    rwa [htext, PurePosixPath.ofString_asPosix, parts_eq_tail hroot] at hparts
  · exact safeRelative_of_tail h

theorem safeRelative_iff_sample : SafeRelative "workspace/projects/shop" :=
  (safeRelative_iff "./workspace//projects/shop/" "workspace" "workspace/projects/shop"
    (by decide +kernel)).2 ⟨"shop".toList, by decide +kernel, by decide, by decide⟩

/-- A dot and a slash are written as a dot, which has no part and is not taken again. -/
theorem dot_accepted : ¬ ∀ value fieldName text : String,
    validateRelativePath value fieldName = .ok text → SafeRelative text := by
  intro h
  have hsafe := h "./" "workspace_root" "." (by decide +kernel)
  exact hsafe.someComponent rfl

example : validateWorkspaceRoot "./" = .ok "." := by decide +kernel

/-! ## Workspaces of projects -/

/-- In an accepted bundle the workspaces are safe, even where the workspace root is not. -/
theorem ConfigBundle.workspaces_safe {repr : String → String} {b : ConfigBundle}
    (h : b.validateRelationships repr = .ok ()) :
    ∀ p ∈ b.projects, SafeRelative p.2.workspace.text := by
  intro p hp
  have htail := tail_ne_nil_of_placed ((loop_ok (projectErrors_eq_nil h)).1 p hp).1
  obtain ⟨value, fieldName, hok⟩ := p.2.workspace.ok
  obtain ⟨_, htext⟩ := validateRelativePath_ok hok
  rw [ProjectDefinition.path, RelativePath.path, htext, PurePosixPath.ofString_asPosix] at htail
  exact safeRelative_of_tail hok htail

example : validateWorkspace "./workspace//projects/shop/" = .ok "workspace/projects/shop" := by
  decide +kernel

end AIHub.Config
