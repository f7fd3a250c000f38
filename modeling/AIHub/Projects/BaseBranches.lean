import AIHub.Domain.Tasks
import AIHub.Lib.PosixPath
import AIHub.Projects.BranchNames

/-!
# Base branches

A project may name the branch of its remote that its tasks start from. The name goes into a
reference, `refs/remotes/origin/<base_branch>`, which should be one that Git's rules allow. The
rules are about the components of a reference; the validator checks some of them on the components
and some on the whole name. That a component ends in `.lock` is only looked for at the end of the
name.

* `taskBaseRef_returns`: the reference that the branch of a task starts from.
* `refFormat_iff`: the reference of an accepted name is one that the rules allow exactly if no
  component before the last ends in `.lock`.
-/

namespace AIHub

/-! ## Validation -/

/-- `[A-Za-z0-9][-A-Za-z0-9._/]*`. -/
def gitBranchPattern : List Char → Bool :=
  Text.headThen Text.isAlnum fun c =>
    Text.isAlnum c || c == '.' || c == '_' || c == '/' || c == '-'

abbrev GitBranchName := Constrained ⟨1, 120, gitBranchPattern⟩

/-- The condition of `validate_base_branch`. -/
def unsafeBaseBranch (value : List Char) : Bool :=
  let parts := value.splitOn '/'
  Text.contains "..".toList value || Text.contains "@\x7b".toList value ||
    Text.contains "//".toList value ||
    ["/".toList, ".".toList, ".lock".toList].any (fun suffix => suffix.isSuffixOf value) ||
    parts.any fun part => ".".toList.isPrefixOf part || ".".toList.isSuffixOf part

def validateBaseBranch : Option GitBranchName → Except HubError (Option GitBranchName)
  | none => .ok none
  | some value =>
    if unsafeBaseBranch value.val.toList then
      .error (.validation "base_branch is not a safe Git branch name")
    else .ok (some value)

/-- The field `base_branch` of a project: its type, and then its validator. -/
def baseBranchField (value : Option String) : Except HubError (Option GitBranchName) := do
  validateBaseBranch (← validateOptional ⟨1, 120, gitBranchPattern⟩ "base_branch" value)

/-- The stripped text has passed the pattern and the validator. -/
structure AcceptedBranch (cs : List Char) : Prop where
  pattern : gitBranchPattern cs = true
  safe : unsafeBaseBranch cs = false

theorem baseBranchField_ok {value : String} {branch : GitBranchName}
    (h : baseBranchField (some value) = .ok (some branch)) :
    branch.val.toList = Text.strip value.toList ∧ AcceptedBranch branch.val.toList := by
  rw [baseBranchField, validateOptional] at h
  cases hfield : validateField ⟨1, 120, gitBranchPattern⟩ "base_branch" value with
  | error e =>
    rw [hfield] at h
    cases h
  | ok branch' =>
    rw [hfield] at h
    change validateBaseBranch (some branch') = _ at h
    rw [validateBaseBranch] at h
    split_ifs at h with hunsafe
    cases h
    have hok := branch.ok
    simp only [StringConstraints.accepts, decide_eq_true_eq] at hok
    refine ⟨?_, hok.2.2.2, Bool.eq_false_iff.2 hunsafe⟩
    rw [val_of_validateField hfield, String.toList_ofList]

/-! ## The reference -/

/-- A bind returns normally only where both parts do. -/
theorem WorkspaceM.returns_of_bind {α β : Type} {x : WorkspaceM α} {f : α → WorkspaceM β} {b : β}
    (h : Program.Returns (x >>= f).run (.ok b)) :
    ∃ a, Program.Returns x.run (.ok a) ∧ Program.Returns (f a).run (.ok b) := by
  obtain ⟨result, hx, hf⟩ := Program.Returns.of_bind h
  cases result with
  | error e => cases hf
  | ok a => exact ⟨a, hx, hf⟩

/-- The reference that the branch of a task starts from, where the project names its base. -/
theorem ProjectWorkspaceManager.taskBaseRef_returns {workspace : WorkspacePath}
    {project : ProjectDefinition} {branch ref : String} (hbranch : project.baseBranch = some branch)
    (h : Program.Returns (taskBaseRef workspace project).run (.ok ref)) :
    ref = s!"refs/remotes/origin/{branch}" := by
  unfold taskBaseRef at h
  rw [hbranch] at h
  obtain ⟨remoteRef, hpure, h⟩ := WorkspaceM.returns_of_bind h
  cases hpure
  obtain ⟨verification, _, h⟩ := WorkspaceM.returns_of_bind h
  split_ifs at h
  · obtain ⟨_, hthrow, _⟩ := WorkspaceM.returns_of_bind h
    cases hthrow
  · obtain ⟨_, hthrow, _⟩ := WorkspaceM.returns_of_bind h
    cases hthrow
  · cases h
    rfl

/-- The rules of `git check-ref-format` for the name of a reference. -/
structure RefFormat (name : List Char) : Prop where
  components : ∀ part ∈ name.splitOn '/',
    part ≠ [] ∧ part.head? ≠ some '.' ∧ ¬ ".lock".toList <:+ part
  noDots : ¬ "..".toList <:+: name
  noBrace : ¬ "@\x7b".toList <:+: name
  chars : ∀ c ∈ name, isRefChar c = true
  lastSlash : name.getLast? ≠ some '/'
  lastDot : name.getLast? ≠ some '.'

/-- What the validator has checked. -/
structure SafeBase (cs : List Char) : Prop where
  noDots : ¬ "..".toList <:+: cs
  noBrace : ¬ "@\x7b".toList <:+: cs
  noEmpty : ¬ "//".toList <:+: cs
  lastSlash : ¬ "/".toList <:+ cs
  lastDot : ¬ ".".toList <:+ cs
  lastLock : ¬ ".lock".toList <:+ cs
  parts : ∀ part ∈ cs.splitOn '/', ¬ ".".toList <+: part

theorem safeBase {cs : List Char} (h : unsafeBaseBranch cs = false) : SafeBase cs := by
  simp only [unsafeBaseBranch, ← Bool.not_eq_true, Bool.or_eq_true, not_or, List.any_cons,
    List.any_eq_true, not_exists, not_and, List.isSuffixOf_iff_suffix, List.isPrefixOf_iff_prefix,
    Text.contains_iff] at h
  obtain ⟨⟨⟨⟨hdots, hbrace⟩, hempty⟩, hslash, hdot, hlock, _⟩, hparts⟩ := h
  exact ⟨hdots, hbrace, hempty, hslash, hdot, hlock, fun part hpart => (hparts part hpart).1⟩

theorem gitBranchPattern_chars {cs : List Char} (h : gitBranchPattern cs = true) :
    cs ≠ [] ∧ cs.head? ≠ some '/' ∧ ∀ c ∈ cs, isRefChar c = true := by
  cases cs with
  | nil => cases h
  | cons c cs =>
    obtain ⟨hc, hcs⟩ := Bool.and_eq_true_iff.1 h
    have hchar : ∀ d, Text.isAlnum d = true → isRefChar d = true := by
      intro d hd
      apply isRefChar_of_branchChar
      rw [isBranchChar, hd, Bool.true_or]
    refine ⟨List.cons_ne_nil _ _, ?_, List.forall_mem_cons.2 ⟨hchar c hc, fun d hd => ?_⟩⟩
    · intro hslash
      cases hslash
      exact absurd hc (by decide)
    · have hd := List.all_eq_true.1 hcs d hd
      simp only [Bool.or_eq_true, beq_iff_eq] at hd
      rcases hd with (((hd | rfl) | rfl) | rfl) | rfl
      · exact hchar d hd
      all_goals decide

/-- No component of an accepted name is empty. -/
theorem AcceptedBranch.part_ne_nil {cs part : List Char} (h : AcceptedBranch cs)
    (hpart : part ∈ cs.splitOn '/') : part ≠ [] := by
  obtain ⟨hne, hhead, _⟩ := gitBranchPattern_chars h.pattern
  have hsafe := safeBase h.safe
  rintro rfl
  obtain ⟨parts, parts', hparts⟩ := List.append_of_mem hpart
  obtain ⟨before, after, rfl, hbefore, hafter⟩ := List.eq_of_splitOn_eq hparts
  rcases hbefore with rfl | ⟨before, rfl⟩ <;> rcases hafter with rfl | ⟨_, after, rfl⟩
  · exact hne rfl
  · exact hhead rfl
  · exact hsafe.lastSlash ⟨before, by simp⟩
  · exact hsafe.noEmpty ⟨before, after, by simp⟩

/-- A component of an accepted name that ends in `.lock` is not the last one. -/
theorem AcceptedBranch.mem_dropLast {cs part : List Char} (h : AcceptedBranch cs)
    (hpart : part ∈ cs.splitOn '/') (hlock : ".lock".toList <:+ part) :
    part ∈ (cs.splitOn '/').dropLast := by
  obtain ⟨parts, parts', hparts⟩ := List.append_of_mem hpart
  obtain ⟨before, after, hcs, _, hafter⟩ := List.eq_of_splitOn_eq hparts
  rcases hafter with rfl | ⟨hne, _⟩
  · rw [List.append_nil] at hcs
    exact absurd (hlock.trans ⟨before, hcs.symm⟩) (safeBase h.safe).lastLock
  · rw [hparts, List.dropLast_append_of_ne_nil (List.cons_ne_nil _ _),
      List.dropLast_cons_of_ne_nil hne]
    exact List.mem_append_right _ List.mem_cons_self

theorem splitOn_ref (cs : List Char) : ("refs/remotes/origin/".toList ++ cs).splitOn '/' =
    ["refs".toList, "remotes".toList, "origin".toList] ++ cs.splitOn '/' := by
  have hpre : "refs/remotes/origin/".toList ++ cs =
      "refs/remotes/origin".toList ++ '/' :: cs := by simp
  rw [hpre, List.splitOn_append_cons_self]
  exact congrArg (· ++ cs.splitOn '/') (by decide)

theorem toList_ref (branch : String) :
    s!"refs/remotes/origin/{branch}".toList = "refs/remotes/origin/".toList ++ branch.toList := by
  simp [toString]

/-- A part without slashes that is not in the prefix is in the reference only if it is in the
name. -/
theorem not_infix_ref {part cs : List Char} (hslash : '/' ∉ part)
    (hpre : Text.contains part "refs/remotes/origin".toList = false) (h : ¬ part <:+: cs) :
    ¬ part <:+: "refs/remotes/origin/".toList ++ cs := by
  have hsplit : "refs/remotes/origin/".toList ++ cs =
      "refs/remotes/origin".toList ++ '/' :: cs := by simp
  rw [hsplit, Text.infix_append_cons hslash, not_or, ← Text.contains_iff]
  exact ⟨ne_true_of_eq_false hpre, h⟩

/-- The reference of an accepted name is one that Git's rules allow exactly if no component before
the last ends in `.lock`. -/
theorem refFormat_iff (value : String) (branch : GitBranchName)
    (h : baseBranchField (some value) = .ok (some branch)) :
    RefFormat s!"refs/remotes/origin/{branch.val}".toList ↔
      ∀ part ∈ ((Text.strip value.toList).splitOn '/').dropLast, ¬ ".lock".toList <:+ part := by
  obtain ⟨hstrip, haccepted⟩ := baseBranchField_ok h
  rw [toList_ref, ← hstrip]
  constructor
  · intro hformat part hpart
    refine (hformat.components part ?_).2.2
    rw [splitOn_ref]
    exact List.mem_append_right _ (List.mem_of_mem_dropLast hpart)
  · intro hlock
    have hsafe := safeBase haccepted.safe
    obtain ⟨hne, _, hchars⟩ := gitBranchPattern_chars haccepted.pattern
    have hlast : ∀ c, ¬ [c] <:+ branch.val.toList →
        ("refs/remotes/origin/".toList ++ branch.val.toList).getLast? ≠ some c := by
      intro c hc hend
      rw [List.getLast?_append_of_ne_nil _ hne] at hend
      exact hc (List.singleton_suffix_iff_getLast?_eq_some.2 hend)
    refine ⟨?_, ?_, ?_, ?_, hlast _ hsafe.lastSlash, hlast _ hsafe.lastDot⟩
    · intro part hpart
      rw [splitOn_ref, List.mem_append] at hpart
      rcases hpart with hpart | hpart
      · revert part
        decide
      · refine ⟨haccepted.part_ne_nil hpart, ?_, fun hend => ?_⟩
        · intro hhead
          exact hsafe.parts part hpart (List.singleton_prefix_iff_head?_eq_some.2 hhead)
        · exact hlock part (haccepted.mem_dropLast hpart hend) hend
    · exact not_infix_ref (by decide) (by decide) hsafe.noDots
    · exact not_infix_ref (by decide) (by decide) hsafe.noBrace
    · intro c hc
      rcases List.mem_append.1 hc with hc | hc
      · exact List.all_eq_true.1 (by decide) c hc
      · exact hchars c hc

namespace Sample

def releaseBranch : GitBranchName := ⟨"release/1.x", by decide +kernel⟩
def lockedBranch : GitBranchName := ⟨"release.lock/1.x", by decide +kernel⟩

end Sample

open Sample in
theorem refFormat_iff_sample : RefFormat s!"refs/remotes/origin/{releaseBranch.val}".toList :=
  (refFormat_iff " release/1.x " releaseBranch (by decide +kernel)).2 (by decide +kernel)

open Sample in
/-- A component that ends in `.lock` is accepted before the last one. -/
theorem lock_component_accepted : ¬ ∀ (value : String) (branch : GitBranchName),
    baseBranchField (some value) = .ok (some branch) →
    RefFormat s!"refs/remotes/origin/{branch.val}".toList := by
  intro h
  have hformat := h "release.lock/1.x" lockedBranch (by decide +kernel)
  exact (hformat.components "release.lock".toList (by decide +kernel)).2.2 (by decide +kernel)

end AIHub
