import AIHub.Lib.Dialogue
import AIHub.Projects.TaskWorkspace

/-!
# What the workspace manager asks of Git

Every run of `create_task_branch`, whatever the file system and Git answer.

**Before a question** (`Justified`). Each Git call is one of eight commands; it runs below the
workspace root, and what comes from the registry, the task or Git's own output stands where Git
reads no option (`Confined`). The checkout is cloned only where there was nothing (`Absent`), and
the branch is created only after all the checks (`Verified`).

* `git_confined`: no run asks Git for anything else.
* `switch_verified`: the branch is created at most once, after the checks, and a run that returns
  has created it.
-/

namespace AIHub

open Program

abbrev WorkspaceDialogue := Dialogue WorkspaceOp WorkspaceOp.Answer

/-- Git was run, and ended with the result. -/
def GitAnswered (log : WorkspaceDialogue) (arguments : List String) (cwd : WorkspacePath)
    (result : CompletedProcess) : Prop :=
  ⟨.git arguments cwd, .ok result⟩ ∈ log

/-! ## Arguments -/

def managerCommands : List String :=
  ["check-ref-format", "clone", "remote", "rev-parse", "show-ref", "status", "switch",
    "symbolic-ref"]

/-- The options that the manager writes itself. -/
def managerOptions : List String :=
  ["--branch", "--create", "--origin", "--porcelain=v1", "--quiet", "--short", "--show-toplevel",
    "--untracked-files=all", "--verify"]

def isDashed (argument : String) : Bool := argument.toList.head? == some '-'

/-- Up to `--`, the arguments with a dash are options of the manager. -/
def optionsFixed : List String → Bool
  | [] => true
  | argument :: rest =>
    argument == "--" || ((!isDashed argument || managerOptions.contains argument) &&
      optionsFixed rest)

namespace ProjectWorkspaceManager

variable (M : ProjectWorkspaceManager)

/-- Strictly below the workspace root. -/
def Below (path : WorkspacePath) : Prop := path ≠ M.workspaceRoot ∧ M.workspaceRoot <+: path

/-- A Git call that the manager may make. -/
structure Confined (arguments : List String) (cwd : WorkspacePath) : Prop where
  command : ∃ command ∈ managerCommands, arguments.head? = some command
  options : optionsFixed arguments = true
  forbidden : ∀ argument ∈ arguments, argument ∉ forbiddenGitArguments
  directory : M.Below cwd ∨ arguments.head? = some "clone" ∧ M.workspaceRoot <+: cwd

/-- The registered repository is cloned to a place below the root where there was nothing. -/
def Absent (projectId : String) (log : WorkspaceDialogue) (arguments : List String)
    (cwd : WorkspacePath) : Prop :=
  ∃ project target, M.projects projectId = some project ∧ M.Below target ∧
    arguments = ["clone", "--origin", "origin", "--", project.repository, target.text] ∧
    cwd = target.dropLast ∧ ⟨.pathExists target, false⟩ ∈ log ∧ ⟨.isSymlink target, false⟩ ∈ log

/-- The workspace is the root of a clean checkout of the registered repository. -/
structure Selected (projectId : String) (log : WorkspaceDialogue) (workspace : WorkspacePath) :
    Prop where
  below : M.Below workspace
  root : ∃ top, GitAnswered log ["rev-parse", "--show-toplevel"] workspace top ∧
    top.returncode = 0 ∧ ⟨.resolve (stripText top.stdout) true, .ok workspace⟩ ∈ log
  origin : ∃ project origin, M.projects projectId = some project ∧
    GitAnswered log ["remote", "get-url", "origin"] workspace origin ∧ origin.returncode = 0 ∧
    stripText origin.stdout = project.repository
  clean : ∃ status, GitAnswered log ["status", "--porcelain=v1", "--untracked-files=all"]
    workspace status ∧ status.returncode = 0 ∧ status.stdout = ""

/-- What has been checked before `branch` is created at `baseRef`. -/
structure Verified (nfkdAscii : String → String) (projectId taskId description : String)
    (log : WorkspaceDialogue) (branch baseRef : String) (workspace : WorkspacePath) : Prop where
  selected : M.Selected projectId log workspace
  name : taskBranchName nfkdAscii taskId description = .ok branch
  wellFormed : ∃ r, GitAnswered log ["check-ref-format", "--branch", branch] workspace r ∧
    r.returncode = 0
  fresh : ∃ r, GitAnswered log ["show-ref", "--verify", "--quiet", s!"refs/heads/{branch}"]
    workspace r ∧ r.returncode = 1
  base : ∃ r, GitAnswered log ["show-ref", "--verify", "--quiet", baseRef] workspace r ∧
    r.returncode = 0
  baseOfOrigin : "refs/remotes/origin/".toList <+: baseRef.toList

end ProjectWorkspaceManager

def isSwitch : WorkspaceOp → Bool
  | .git arguments _ => arguments.head? == some "switch"
  | _ => false

namespace ProjectWorkspaceManager

variable (M : ProjectWorkspaceManager)

/-- What holds of a question of `create_task_branch`, and of the dialogue before it. -/
def Justified (nfkdAscii : String → String) (projectId taskId description : String)
    (log : WorkspaceDialogue) : WorkspaceOp → Prop
  | .git arguments cwd => M.Confined arguments cwd ∧
    (arguments.head? = some "clone" → M.Absent projectId log arguments cwd) ∧
    (arguments.head? = some "switch" → ∃ branch baseRef,
      arguments = ["switch", "--create", branch, baseRef] ∧
      M.Verified nfkdAscii projectId taskId description log branch baseRef cwd ∧
      ∀ e ∈ log, isSwitch e.1 = false)
  | .mkdir path => M.workspaceRoot <+: path
  | _ => True

end ProjectWorkspaceManager

/-! ## Rules for the steps of a program -/

section

variable {A : (o : WorkspaceOp) → o.Answer → Prop} {J : WorkspaceDialogue → WorkspaceOp → Prop}
  {R : ProjectError → WorkspaceDialogue → Prop} {log : WorkspaceDialogue}

theorem meetsE_resolve {path : String} {strict : Bool}
    {Q : WorkspacePath → WorkspaceDialogue → Prop} (hJ : J log (.resolve path strict))
    (hos : ∀ log, R .os log)
    (hQ : ∀ canonical, A (.resolve path strict) (.ok canonical) →
      Q canonical (log ++ [⟨.resolve path strict, .ok canonical⟩])) :
    MeetsE A J Q R log (resolve path strict) := by
  simp only [resolve, ask, meetsE_bind, meetsE_ask]
  refine ⟨hJ, ?_⟩
  rintro (_ | canonical) hA
  · exact hos _
  · exact hQ canonical hA

theorem meetsE_mkdir {path : WorkspacePath} {Q : Unit → WorkspaceDialogue → Prop}
    (hJ : J log (.mkdir path)) (hos : ∀ log, R .os log)
    (hQ : Q () (log ++ [⟨.mkdir path, .ok ()⟩])) : MeetsE A J Q R log (mkdir path) := by
  simp only [mkdir, ask, meetsE_bind, meetsE_ask]
  refine ⟨hJ, ?_⟩
  rintro (_ | _) _
  · exact hos _
  · exact hQ

theorem meetsE_runGit {command : String} {rest : List String} {cwd : WorkspacePath} {check : Bool}
    {Q : CompletedProcess → WorkspaceDialogue → Prop} (hcommand : command ∉ forbiddenGitCommands)
    (hJ : (∀ a ∈ command :: rest, a ∉ forbiddenGitArguments) → J log (.git (command :: rest) cwd))
    (hvalue : ∀ m log, R (.value m) log) (hgit : ∀ o c m log, R (.gitCommand o c m) log)
    (hQ : ∀ result, (check = true → result.returncode = 0) →
      Q result (log ++ [⟨.git (command :: rest) cwd, .ok result⟩])) :
    MeetsE A J Q R log (runGit (command :: rest) cwd check) := by
  simp only [runGit, if_neg hcommand]
  split
  · exact hvalue _ _
  · rename_i hfind
    have hforbidden : ∀ a ∈ command :: rest, a ∉ forbiddenGitArguments := by
      intro a ha hf
      have hnot := List.find?_eq_none.1 hfind a hf
      simp [ha] at hnot
    simp only [ask, meetsE_bind, meetsE_ask]
    refine ⟨hJ hforbidden, ?_⟩
    rintro (text | result) _
    · exact hgit _ _ _ _
    · dsimp only
      split_ifs with hcode
      · exact hgit _ _ _ _
      · refine hQ result fun hcheck => ?_
        simpa [hcheck] using hcode

theorem meetsE_assertContained {M : ProjectWorkspaceManager} {path : WorkspacePath}
    {Q : WorkspacePath → WorkspaceDialogue → Prop} (hJ : J log (.resolve path.text false))
    (hos : ∀ log, R .os log) (hbad : ∀ m log, R (.unsafeWorkspace m) log)
    (hQ : ∀ canonical, M.Below canonical →
      Q canonical (log ++ [⟨.resolve path.text false, .ok canonical⟩])) :
    MeetsE A J Q R log (M.assertContained path) := by
  refine meetsE_bind.2 (meetsE_resolve hJ hos fun canonical _ => ?_)
  split_ifs with hout
  · exact hbad _ _
  · exact hQ canonical ⟨fun h => hout (.inl h), not_not.1 fun h => hout (.inr h)⟩

/-- A check whose failure raises. -/
theorem meetsE_unless {α : Type} {c : Prop} {_ : Decidable c} {e : ProjectError}
    {k : Unit → WorkspaceM α} {Q : α → WorkspaceDialogue → Prop} (hR : c → R e log)
    (hk : ¬ c → MeetsE A J Q R log (k ())) :
    MeetsE A J Q R log (if c then throw e >>= k else k ()) := by
  split_ifs with hc
  · exact hR hc
  · exact hk hc

end

/-! ## Arguments that come from outside -/

theorem isDashed_of_head {a : String} {c : Char} (h : a.toList.head? = some c) (hc : c ≠ '-') :
    isDashed a = false := by
  simp [isDashed, h, hc]

theorem isDashed_text (path : WorkspacePath) : isDashed path.text = false := by
  refine isDashed_of_head (c := '/') ?_ (by decide)
  simp [WorkspacePath.text]

/-- A text after a fixed one that has no dash in front. -/
theorem isDashed_append {a : String} (b : String) (hne : a.toList ≠ []) (h : isDashed a = false) :
    isDashed (a ++ b) = false := by
  rw [isDashed, String.toList_append, List.head?_append_of_ne_nil _ hne]
  exact h

theorem isDashed_taskBranchName {nfkdAscii : String → String} {taskId description branch : String}
    (h : taskBranchName nfkdAscii taskId description = .ok branch) : isDashed branch = false := by
  unfold taskBranchName at h
  split_ifs at h
  cases h
  show isDashed ("agent/" ++ taskId ++ "-" ++ _) = false
  rw [String.append_assoc, String.append_assoc]
  exact isDashed_append _ (by decide) (by decide)

theorem optionsFixed_concat (arguments : List String) {argument : String}
    (h : optionsFixed arguments = true) (ha : isDashed argument = false) :
    optionsFixed (arguments ++ [argument]) = true := by
  induction arguments with
  | nil => simp [optionsFixed, ha]
  | cons a rest ih =>
    simp only [List.cons_append, optionsFixed, Bool.or_eq_true, Bool.and_eq_true] at h ⊢
    exact h.imp_right fun hrest => ⟨hrest.1, ih hrest.2⟩

/-! ## Every run -/

/-- No question of the dialogue creates a branch. -/
def NoSwitch (log : WorkspaceDialogue) : Prop := ∀ e ∈ log, isSwitch e.1 = false

theorem NoSwitch.snoc {log : WorkspaceDialogue} {o : WorkspaceOp} {x : o.Answer}
    (h : NoSwitch log) (ho : isSwitch o = false) : NoSwitch (log ++ [⟨o, x⟩]) := by
  intro e he
  rcases List.mem_append.1 he with he | he
  · exact h e he
  · rw [List.mem_singleton.1 he]
    exact ho

namespace ProjectWorkspaceManager

section

variable {M : ProjectWorkspaceManager} {nfkdAscii : String → String}
  {projectId taskId description : String} {log : WorkspaceDialogue} {α : Type}

/-- Each question of the program is justified, and its result meets `Q`. -/
abbrev Keeps (M : ProjectWorkspaceManager) (nfkdAscii : String → String)
    (projectId taskId description : String) (Q : α → WorkspaceDialogue → Prop)
    (log : WorkspaceDialogue) (x : WorkspaceM α) : Prop :=
  MeetsE (fun _ _ => True) (M.Justified nfkdAscii projectId taskId description) Q
    (fun _ _ => True) log x

theorem keeps_assertContained {path : WorkspacePath}
    {Q : WorkspacePath → WorkspaceDialogue → Prop}
    (hQ : ∀ canonical, M.Below canonical →
      Q canonical (log ++ [⟨.resolve path.text false, .ok canonical⟩])) :
    M.Keeps nfkdAscii projectId taskId description Q log (M.assertContained path) :=
  meetsE_assertContained trivial (fun _ => trivial) (fun _ _ => trivial) hQ

theorem keeps_projectPath {project : ProjectDefinition}
    {Q : WorkspacePath → WorkspaceDialogue → Prop}
    (hQ : ∀ target log', M.Below target → (NoSwitch log → NoSwitch log') → Q target log') :
    M.Keeps nfkdAscii projectId taskId description Q log (M.projectPath projectId project) := by
  refine meetsE_tryCatch.2 (meetsE_assertContained trivial (fun _ => trivial)
    (fun _ _ => trivial) fun target htarget => ?_)
  exact hQ target _ htarget fun hlog => hlog.snoc rfl

/-- The parent of a path below the root is the root or below it. -/
theorem Below.parent {path : WorkspacePath} (h : M.Below path) :
    M.workspaceRoot <+: path.dropLast := by
  refine List.prefix_of_prefix_length_le h.2 (List.dropLast_prefix path) ?_
  have hlt : M.workspaceRoot.length < path.length :=
    lt_of_le_of_ne h.2.length_le fun heq => h.1 (h.2.eq_of_length heq).symm
  rw [List.length_dropLast]
  omega

/-- A Git command that only reads. -/
theorem keeps_reads {command : String} {rest : List String} {cwd : WorkspacePath} {check : Bool}
    {Q : CompletedProcess → WorkspaceDialogue → Prop} (hcommand : command ∈ managerCommands)
    (hclone : command ≠ "clone") (hswitch : command ≠ "switch")
    (hoptions : optionsFixed (command :: rest) = true) (hbelow : M.Below cwd)
    (hQ : ∀ result, (check = true → result.returncode = 0) →
      Q result (log ++ [⟨.git (command :: rest) cwd, .ok result⟩])) :
    M.Keeps nfkdAscii projectId taskId description Q log (runGit (command :: rest) cwd check) := by
  have hallowed : ∀ command ∈ managerCommands, command ∉ forbiddenGitCommands := by decide
  refine meetsE_runGit (hallowed command hcommand) (fun hforbidden => ?_) (fun _ _ => trivial)
    (fun _ _ _ _ => trivial) hQ
  have hhead : (command :: rest).head? = some command := rfl
  refine ⟨⟨⟨command, hcommand, hhead⟩, hoptions, hforbidden, .inl hbelow⟩, ?_, ?_⟩
  · intro h
    exact absurd (Option.some.inj h) hclone
  · intro h
    exact absurd (Option.some.inj h) hswitch

theorem keeps_cloneOrSelect {Q : ProjectWorkspace → WorkspaceDialogue → Prop} (hlog : NoSwitch log)
    (hQ : ∀ w log, NoSwitch log → M.Selected projectId log w.path → Q w log) :
    M.Keeps nfkdAscii projectId taskId description Q log (M.cloneOrSelect projectId .reject) := by
  unfold cloneOrSelect project
  refine meetsE_bind.2 ?_
  split
  · rename_i project hproject
    refine meetsE_pure.2 (meetsE_bind.2 (keeps_projectPath fun target log htarget hgrown => ?_))
    replace hlog := hgrown hlog
    refine meetsE_bind.2 (meetsE_mkdir List.prefix_rfl (fun _ => trivial) ?_)
    refine meetsE_bind.2 (meetsE_ask.2 ⟨trivial, fun present _ => ?_⟩)
    extract_lets checked parent located
    have hchecked : ∀ log, NoSwitch log →
        M.Keeps nfkdAscii projectId taskId description Q log (checked ()) := by
      intro log hlog
      refine meetsE_bind.2 (keeps_assertContained fun canonical hbelow => ?_)
      refine meetsE_bind.2 (keeps_reads (by decide) (by decide) (by decide) (by decide) hbelow
        fun top htop => ?_)
      refine meetsE_bind.2 (meetsE_resolve trivial (fun _ => trivial) fun reported _ => ?_)
      refine meetsE_unless (fun _ => trivial) fun hreported => ?_
      refine meetsE_bind.2 (keeps_reads (by decide) (by decide) (by decide) (by decide) hbelow
        fun origin horigin => ?_)
      refine meetsE_unless (fun _ => trivial) fun hrepository => ?_
      unfold workingTreeStatus currentBranch
      refine meetsE_bind.2 (meetsE_bind.2 (keeps_reads (by decide) (by decide) (by decide)
        (by decide) hbelow fun status hstatus => meetsE_pure.2 ?_))
      refine meetsE_unless (fun _ => trivial) fun hclean => ?_
      refine meetsE_bind.2 (meetsE_bind.2 (keeps_assertContained fun again hagain => ?_))
      refine meetsE_bind.2 (keeps_reads (by decide) (by decide) (by decide) (by decide) hagain
        fun head _ => meetsE_pure.2 (meetsE_pure.2 (hQ _ _ ?_ ?_)))
      · iterate 6 refine NoSwitch.snoc ?_ rfl
        exact hlog.snoc rfl
      · have hsame : reported = canonical := not_not.1 hreported
        subst hsame
        refine ⟨hbelow, ⟨top, ?_, htop rfl, ?_⟩,
          ⟨project, origin, hproject, ?_, horigin rfl, not_not.1 hrepository⟩,
          ⟨status, ?_, hstatus rfl, not_not.1 fun h => hclean ⟨h, rfl⟩⟩⟩ <;>
        simp [GitAnswered]
    have hlocated : ∀ log present, NoSwitch log →
        (present = false → ⟨.pathExists target, false⟩ ∈ log ∧ ⟨.isSymlink target, false⟩ ∈ log) →
        M.Keeps nfkdAscii projectId taskId description Q log (located present) := by
      intro log present hlog habsent
      cases present with
      | true =>
        refine meetsE_bind.2 (meetsE_ask.2 ⟨trivial, fun directory _ => ?_⟩)
        exact meetsE_unless (fun _ => trivial) fun _ => hchecked _ (hlog.snoc rfl)
      | false =>
        obtain ⟨hpath, hlink⟩ := habsent rfl
        refine meetsE_bind.2 (meetsE_mkdir htarget.parent (fun _ => trivial) ?_)
        refine meetsE_bind.2 (meetsE_runGit (by decide) (fun hforbidden => ?_) (fun _ _ => trivial)
          (fun _ _ _ _ => trivial) fun _ _ => hchecked _ ((hlog.snoc rfl).snoc rfl))
        refine ⟨⟨⟨"clone", by decide, rfl⟩, rfl, hforbidden, .inr ⟨rfl, htarget.parent⟩⟩,
          fun _ => ⟨project, target, hproject, htarget, rfl, rfl, ?_, ?_⟩,
          fun h => absurd (Option.some.inj h) (by decide)⟩
        · exact List.mem_append_left _ hpath
        · exact List.mem_append_left _ hlink
    cases present with
    | true => exact hlocated _ true ((hlog.snoc rfl).snoc rfl) nofun
    | false =>
      refine meetsE_bind.2 ((meetsE_ask (o := WorkspaceOp.isSymlink target)).2
        ⟨trivial, fun linked _ => ?_⟩)
      refine hlocated _ linked (((hlog.snoc rfl).snoc rfl).snoc rfl) fun hnot => ?_
      subst hnot
      simp
  · trivial

theorem Selected.mono {log' : WorkspaceDialogue} {workspace : WorkspacePath}
    (hsub : log ⊆ log') (h : M.Selected projectId log workspace) :
    M.Selected projectId log' workspace := by
  obtain ⟨hbelow, ⟨top, htop, hcode, hroot⟩, ⟨project, origin, hproject, horigin, hrest⟩,
    ⟨status, hstatus, hclean⟩⟩ := h
  exact ⟨hbelow, ⟨top, hsub htop, hcode, hsub hroot⟩,
    ⟨project, origin, hproject, hsub horigin, hrest⟩, ⟨status, hsub hstatus, hclean⟩⟩

theorem keeps_taskBaseRef {workspace : WorkspacePath} {project : ProjectDefinition}
    {Q : String → WorkspaceDialogue → Prop} (hbelow : M.Below workspace) (hlog : NoSwitch log)
    (hQ : ∀ baseRef log', log ⊆ log' → NoSwitch log' →
      "refs/remotes/origin/".toList <+: baseRef.toList →
      (∃ r, GitAnswered log' ["show-ref", "--verify", "--quiet", baseRef] workspace r ∧
        r.returncode = 0) → Q baseRef log') :
    M.Keeps nfkdAscii projectId taskId description Q log (taskBaseRef workspace project) := by
  unfold taskBaseRef
  extract_lets verified
  have hverified : ∀ baseRef log', log ⊆ log' → NoSwitch log' →
      "refs/remotes/origin/".toList <+: baseRef.toList →
      M.Keeps nfkdAscii projectId taskId description Q log' (verified baseRef) := by
    intro baseRef log' hsub hlog' horigin
    have hundashed : isDashed baseRef = false := by
      obtain ⟨rest, hrest⟩ := horigin
      exact isDashed_of_head (c := 'r') (by rw [← hrest]; rfl) (by decide)
    refine meetsE_bind.2 (keeps_reads (by decide) (by decide) (by decide)
      (optionsFixed_concat ["show-ref", "--verify", "--quiet"] (by decide) hundashed) hbelow
      fun verification _ => ?_)
    split_ifs with hcode hone
    · trivial
    · trivial
    · refine hQ baseRef _ (fun e he => List.mem_append_left _ (hsub he)) (hlog'.snoc rfl) horigin
        ⟨verification, ?_, not_not.1 hcode⟩
      simp [GitAnswered]
  cases project.baseBranch with
  | some branch =>
    refine hverified _ log (List.Subset.refl log) hlog ?_
    exact ⟨branch.toList, (String.toList_append ..).symm⟩
  | none =>
    refine meetsE_bind.2 (keeps_reads (by decide) (by decide) (by decide) (by decide) hbelow
      fun result _ => ?_)
    extract_lets resolved found
    clear_value resolved
    refine meetsE_unless (fun _ => trivial) fun horigin => ?_
    exact hverified _ _ (List.subset_append_left _ _) (hlog.snoc rfl) (not_not.1 horigin)

/-- The branch has been created, by the last question of the dialogue. -/
def Created (log : WorkspaceDialogue) (branch : TaskBranch) : Prop :=
  ∃ log' baseRef result, log = log' ++
    [⟨.git ["switch", "--create", branch.branch, baseRef] branch.workspace, .ok result⟩] ∧
    result.returncode = 0

/-- Each question of `create_task_branch` is justified, and a result is a branch that has been
created. -/
theorem keeps_createTaskBranch :
    M.Keeps nfkdAscii projectId taskId description (fun branch log => Created log branch) []
      (M.createTaskBranch nfkdAscii projectId taskId description) := by
  unfold createTaskBranch
  refine meetsE_bind.2 (keeps_cloneOrSelect nofun fun workspace log hlog hselected => ?_)
  refine meetsE_bind.2 ?_
  cases hname : taskBranchName nfkdAscii taskId description with
  | error e => trivial
  | ok branch =>
    have hundashed := isDashed_taskBranchName hname
    refine meetsE_pure.2 (meetsE_bind.2 (keeps_reads (by decide) (by decide) (by decide)
      (optionsFixed_concat ["check-ref-format", "--branch"] (by decide) hundashed)
      hselected.below fun validation _ => ?_))
    refine meetsE_unless (fun _ => trivial) fun hvalid => ?_
    refine meetsE_bind.2 (keeps_reads (by decide) (by decide) (by decide)
      (optionsFixed_concat ["show-ref", "--verify", "--quiet"] (by decide)
        (isDashed_append branch (by decide) (by decide))) hselected.below fun collision _ => ?_)
    refine meetsE_unless (fun _ => trivial) fun _ => ?_
    refine meetsE_unless (fun _ => trivial) fun hfresh => ?_
    unfold project
    refine meetsE_bind.2 ?_
    split
    · refine meetsE_pure.2 (meetsE_bind.2 (keeps_taskBaseRef hselected.below
        ((hlog.snoc rfl).snoc rfl) fun baseRef log' hsub hlog' horigin hbase => ?_))
      have hdashed : isDashed baseRef = false := by
        obtain ⟨rest, hrest⟩ := horigin
        exact isDashed_of_head (c := 'r') (by rw [← hrest]; rfl) (by decide)
      refine meetsE_bind.2 (meetsE_runGit (by decide) (fun hforbidden => ?_) (fun _ _ => trivial)
        (fun _ _ _ _ => trivial) fun result hresult => ⟨log', baseRef, result, rfl, hresult rfl⟩)
      have hoptions := optionsFixed_concat _ (optionsFixed_concat ["switch", "--create"]
        (by decide) hundashed) hdashed
      refine ⟨⟨⟨"switch", by decide, rfl⟩, hoptions, hforbidden, .inl hselected.below⟩,
        fun h => absurd (Option.some.inj h) (by decide), fun _ => ⟨branch, baseRef, rfl, ?_, hlog'⟩⟩
      exact {
        selected := hselected.mono fun e he => hsub (by simp [he])
        name := hname
        wellFormed := ⟨validation, hsub (by simp), not_not.1 hvalid⟩
        fresh := ⟨collision, hsub (by simp), not_not.1 hfresh⟩
        base := hbase
        baseOfOrigin := horigin }
    · trivial

end

/-! ## What is asked, and when -/

section

variable {M : ProjectWorkspaceManager} {nfkdAscii : String → String}
  {projectId taskId description : String} {log : WorkspaceDialogue}

theorem justified {o : WorkspaceOp}
    (h : (M.createTaskBranch nfkdAscii projectId taskId description).run.Asks log o) :
    M.Justified nfkdAscii projectId taskId description log o := by
  exact Meets.asks keeps_createTaskBranch h fun _ _ => trivial

/-- Whatever the file system and Git answer, `create_task_branch` runs only its eight Git commands,
below the workspace root, without a force flag, and without an option that comes from outside; it
clones only where there was nothing. -/
theorem git_confined {arguments : List String} {cwd : WorkspacePath}
    (h : (M.createTaskBranch nfkdAscii projectId taskId description).run.Asks log
      (.git arguments cwd)) :
    M.Confined arguments cwd ∧
      (arguments.head? = some "clone" → M.Absent projectId log arguments cwd) :=
  ⟨(justified h).1, (justified h).2.1⟩

/-- The branch is created at most once, in a clean checkout of the registered repository, when it
has a well-formed name that no branch has, at an existing branch of origin; and who gets a result
has a branch that was created. -/
theorem switch_verified :
    (∀ log rest cwd, (M.createTaskBranch nfkdAscii projectId taskId description).run.Asks log
        (.git ("switch" :: rest) cwd) →
      ∃ branch baseRef, rest = ["--create", branch, baseRef] ∧
        M.Verified nfkdAscii projectId taskId description log branch baseRef cwd ∧
        ∀ e ∈ log, isSwitch e.1 = false) ∧
    ∀ log branch, (M.createTaskBranch nfkdAscii projectId taskId description).run.Ends log
        (.ok branch) → Created log branch := by
  constructor
  · intro log rest cwd h
    obtain ⟨branch, baseRef, hargs, hverified⟩ := (justified h).2.2 rfl
    exact ⟨branch, baseRef, List.tail_eq_of_cons_eq hargs, hverified⟩
  · intro log branch h
    exact Meets.ends keeps_createTaskBranch h fun _ _ => trivial

end

end ProjectWorkspaceManager

namespace Sample

def fixLogin : WorkspaceM TaskBranch :=
  manager.createTaskBranch id "website" "TASK-1" "Fix the login"

/-- Nothing has been cloned yet. -/
def firstClone : WorkspaceDialogue × Except ProjectError TaskBranch :=
  fixLogin.run.runWith fun
    | .pathExists _ => false
    | o => checkout o

def cloneCall : List String :=
  ["clone", "--origin", "origin", "--", "ssh://git/website", "/srv/hub/projects/website"]

end Sample

open Sample ProjectWorkspaceManager in
/-- The checkout is cloned into the workspace root. -/
theorem git_confined_sample :
    manager.Confined cloneCall ["srv", "hub", "projects"] ∧
      manager.Absent "website" (firstClone.1.take 5) cloneCall ["srv", "hub", "projects"] := by
  have hasks : fixLogin.run.Asks (firstClone.1.take 5)
      (.git cloneCall ["srv", "hub", "projects"]) := asks_runWith (by decide +kernel)
  exact (git_confined hasks).imp_right fun habsent => habsent rfl

open Sample ProjectWorkspaceManager in
/-- The branch is made by the last question. -/
theorem switch_verified_sample :
    ∃ branch, firstClone.2 = .ok branch ∧ branch.branch = "agent/TASK-1-fix-the-login" ∧
      Created firstClone.1 branch := by
  have hok : firstClone.2 = .ok ⟨"website", website, "agent/TASK-1-fix-the-login"⟩ := by
    decide +kernel
  exact ⟨_, hok, rfl, switch_verified.2 _ _ (hok ▸ ends_runWith _ _)⟩

end AIHub
