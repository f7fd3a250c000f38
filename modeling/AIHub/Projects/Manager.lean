import AIHub.Lib.Text
import AIHub.Lib.Worker

/-!
# Task branches

`ProjectWorkspaceManager.create_task_branch` and what it calls, as a program that asks the file
system and runs Git. `runGit` refuses a forbidden command or flag before it asks for a process.
-/

namespace AIHub

/-- An absolute path, by its components. -/
abbrev WorkspacePath := List String

/-- `str(path)`. -/
def WorkspacePath.text (path : WorkspacePath) : String := "/" ++ "/".intercalate path

/-- `text.split("/")`. -/
def splitSlash (text : String) : List String := (text.toList.splitOn '/').map String.ofList

structure ProjectDefinition where
  repository : String
  workspace : String
  baseBranch : Option String := none
  deriving DecidableEq, Repr

inductive ProjectError where
  | notFound (message : String)
  | unsafeWorkspace (message : String)
  | repositoryOrigin (message : String)
  | dirtyWorkingTree (message : String)
  | branchCollision (message : String)
  | gitCommand (operation : String) (returncode : Int) (message : String)
  | value (message : String)
  /-- An `OSError` from a file operation. -/
  | os
  deriving DecidableEq, Repr

structure CompletedProcess where
  returncode : Int
  stdout : String := ""
  stderr : String := ""
  deriving DecidableEq, Repr

/-! ## The environment -/

inductive WorkspaceOp where
  | resolve (path : String) (strict : Bool)
  | pathExists (path : WorkspacePath)
  | isSymlink (path : WorkspacePath)
  | isDir (path : WorkspacePath)
  /-- `mkdir(parents=True, exist_ok=True, mode=0o700)`. -/
  | mkdir (path : WorkspacePath)
  | git (arguments : List String) (cwd : WorkspacePath)
  deriving DecidableEq, Repr

/-- A file operation may raise an `OSError`, and `subprocess.run` an exception with a text. -/
abbrev WorkspaceOp.Answer : WorkspaceOp → Type
  | resolve _ _ => Except Unit WorkspacePath
  | pathExists _ | isSymlink _ | isDir _ => Bool
  | mkdir _ => Except Unit Unit
  | git _ _ => Except String CompletedProcess

abbrev WorkspaceProgram := Program WorkspaceOp WorkspaceOp.Answer

abbrev WorkspaceM := ExceptT ProjectError WorkspaceProgram

def ask (o : WorkspaceOp) : WorkspaceM o.Answer := ExceptT.lift (.ask o .done)

def resolve (path : String) (strict : Bool) : WorkspaceM WorkspacePath := do
  match ← ask (.resolve path strict) with
  | .ok canonical => pure canonical
  | .error _ => throw .os

def mkdir (path : WorkspacePath) : WorkspaceM Unit := do
  match ← ask (.mkdir path) with
  | .ok _ => pure ()
  | .error _ => throw .os

/-! ## Git -/

def forbiddenGitCommands : List String := ["clean", "merge", "push", "reset"]

/-- In the order in which `sorted` puts them. -/
def forbiddenGitArguments : List String := ["--force", "--force-with-lease", "--hard", "-f"]

/-- `str.strip`, whose white space has the four separators besides. -/
def stripText (s : String) : String :=
  let isSpace c := Text.isSpace c || Text.inRange (Char.ofNat 0x1c) (Char.ofNat 0x1f) c
  String.ofList ((s.toList.dropWhile isSpace).rdropWhile isSpace)

/-- `GitCommandError`. -/
def gitCommandError (operation : String) (returncode : Int) (stderr : String) : ProjectError :=
  let detail :=
    if stripText stderr = "" then "Git returned no diagnostic output" else stripText stderr
  .gitCommand operation returncode
    s!"Git {operation} failed with exit code {returncode}: {detail}"

/-- `_run_git`. -/
def runGit (arguments : List String) (cwd : WorkspacePath) (check : Bool := true) :
    WorkspaceM CompletedProcess := do
  match arguments with
  | [] => throw (.value "Git arguments must not be empty")
  | command :: _ =>
    if command ∈ forbiddenGitCommands then
      throw (.value s!"forbidden Git command: {command}")
    match forbiddenGitArguments.find? (· ∈ arguments) with
    | some argument => throw (.value s!"forbidden Git argument: {argument}")
    | none =>
      match ← ask (.git arguments cwd) with
      | .error text => throw (gitCommandError command (-1) text)
      | .ok result =>
        if check && result.returncode ≠ 0 then
          throw (gitCommandError command result.returncode result.stderr)
        pure result

/-! ## Branch names -/

/-- `[A-Za-z0-9][A-Za-z0-9._-]{0,63}`. -/
def branchTaskIdPattern (cs : List Char) : Bool :=
  Text.headThen Text.isAlnum
    (fun c => Text.isAlnum c || c == '.' || c == '_' || c == '-') cs && cs.length ≤ 64

/-- Write one dash for every longest run of characters outside `[a-z0-9]`. -/
def dashRuns : Bool → List Char → List Char
  | _, [] => []
  | inRun, c :: cs =>
    if Text.isLower c || Text.isDigit c then c :: dashRuns false cs
    else if inRun then dashRuns true cs
    else '-' :: dashRuns true cs

/-- `or "task"`. -/
def orTask (slug : List Char) : List Char := if slug = [] then "task".toList else slug

/-- `task_branch_name`; `nfkdAscii` is the NFKD form of a text without its non-ASCII characters. -/
def taskBranchName (nfkdAscii : String → String) (taskId description : String) :
    Except ProjectError String :=
  if branchTaskIdPattern taskId.toList then
    let isDash := (· == '-')
    let runs := dashRuns false (Text.lower (nfkdAscii description)).toList
    let slug := orTask ((runs.dropWhile isDash).rdropWhile isDash)
    let available := max 1 (120 - "agent/".length - taskId.length - 1)
    let slug := orTask ((slug.take available).rdropWhile isDash)
    .ok s!"agent/{taskId}-{String.ofList slug}"
  else .error (.value "task_id contains characters that are unsafe in a Git branch")

/-! ## Workspaces -/

inductive DirtyTreePolicy where
  | reject | allow
  deriving DecidableEq, Repr

structure ProjectWorkspace where
  projectId : String
  path : WorkspacePath
  repository : String
  branch : String
  dirty : Bool
  deriving DecidableEq, Repr

structure TaskBranch where
  projectId : String
  workspace : WorkspacePath
  branch : String
  deriving DecidableEq, Repr

structure ProjectWorkspaceManager where
  repositoryRoot : WorkspacePath
  workspaceRoot : WorkspacePath
  /-- The registry. -/
  projects : String → Option ProjectDefinition

namespace ProjectWorkspaceManager

variable (M : ProjectWorkspaceManager)

/-- `_project`. -/
def project (projectId : String) : WorkspaceM ProjectDefinition :=
  match M.projects projectId with
  | some project => pure project
  | none => throw (.notFound s!"unknown project: {projectId}")

/-- `_assert_contained`. -/
def assertContained (path : WorkspacePath) : WorkspaceM WorkspacePath := do
  let canonical ← resolve path.text false
  if canonical = M.workspaceRoot ∨ ¬ M.workspaceRoot <+: canonical then
    throw (.unsafeWorkspace
      s!"workspace path must be below {M.workspaceRoot.text}: {canonical.text}")
  pure canonical

/-- `_project_path`. -/
def projectPath (projectId : String) (project : ProjectDefinition) : WorkspaceM WorkspacePath :=
  tryCatch (M.assertContained (M.repositoryRoot ++ splitSlash project.workspace)) fun
    | .unsafeWorkspace _ => throw (.unsafeWorkspace
        s!"project '{projectId}' workspace escapes the configured projects directory")
    | e => throw e

/-- `current_branch`. -/
def currentBranch (workspace : WorkspacePath) : WorkspaceM String := do
  let canonical ← M.assertContained workspace
  let result ← runGit ["symbolic-ref", "--quiet", "--short", "HEAD"] canonical
  pure (stripText result.stdout)

/-- `_working_tree_status`. -/
def workingTreeStatus (workspace : WorkspacePath) : WorkspaceM String := do
  let result ← runGit ["status", "--porcelain=v1", "--untracked-files=all"] workspace
  pure result.stdout

/-- `clone_or_select`. -/
def cloneOrSelect (projectId : String) (dirtyPolicy : DirtyTreePolicy) :
    WorkspaceM ProjectWorkspace := do
  let project ← M.project projectId
  let target ← M.projectPath projectId project
  mkdir M.workspaceRoot
  let present ← ask (.pathExists target)
  let present ← if present then pure true else ask (.isSymlink target)
  if present then
    let directory ← ask (.isDir target)
    if !directory then
      throw (.unsafeWorkspace s!"project workspace is not a directory: {target.text}")
  else
    let parent := target.dropLast
    mkdir parent
    let _ ← runGit ["clone", "--origin", "origin", "--", project.repository, target.text] parent
  let canonical ← M.assertContained target
  let topLevel ← runGit ["rev-parse", "--show-toplevel"] canonical
  let reported ← resolve (stripText topLevel.stdout) true
  if reported ≠ canonical then
    throw (.unsafeWorkspace
      s!"registered workspace is not the repository root: {canonical.text}")
  let origin ← runGit ["remote", "get-url", "origin"] canonical
  if stripText origin.stdout ≠ project.repository then
    throw (.repositoryOrigin
      s!"project '{projectId}' origin does not match the registered repository")
  let status ← workingTreeStatus canonical
  if status ≠ "" ∧ dirtyPolicy = .reject then
    throw (.dirtyWorkingTree s!"project '{projectId}' working tree is dirty")
  let branch ← M.currentBranch canonical
  pure {
    projectId := projectId
    path := canonical
    repository := project.repository
    branch := branch
    dirty := status ≠ "" }

/-- `_task_base_ref`. -/
def taskBaseRef (workspace : WorkspacePath) (project : ProjectDefinition) :
    WorkspaceM String := do
  let remoteRef ← match project.baseBranch with
    | some branch => pure s!"refs/remotes/origin/{branch}"
    | none => do
      let result ← runGit ["symbolic-ref", "--quiet", "refs/remotes/origin/HEAD"] workspace
      let resolved := stripText result.stdout
      if ¬ "refs/remotes/origin/".toList <+: resolved.toList then
        throw (.repositoryOrigin "origin/HEAD does not name an origin branch")
      pure resolved
  let verification ← runGit ["show-ref", "--verify", "--quiet", remoteRef] workspace false
  if verification.returncode ≠ 0 then
    if verification.returncode = 1 then
      throw (.repositoryOrigin s!"configured task base branch does not exist: {remoteRef}")
    throw (gitCommandError "show-ref" verification.returncode verification.stderr)
  pure remoteRef

/-- `create_task_branch`. -/
def createTaskBranch (nfkdAscii : String → String) (projectId taskId description : String) :
    WorkspaceM TaskBranch := do
  let workspace ← M.cloneOrSelect projectId .reject
  let branch ← MonadExcept.ofExcept (taskBranchName nfkdAscii taskId description)
  let validation ← runGit ["check-ref-format", "--branch", branch] workspace.path false
  if validation.returncode ≠ 0 then
    throw (.value s!"generated task branch is not a valid Git branch: {branch}")
  let reference := s!"refs/heads/{branch}"
  let collision ← runGit ["show-ref", "--verify", "--quiet", reference] workspace.path false
  if collision.returncode = 0 then
    throw (.branchCollision s!"task branch already exists: {branch}")
  if collision.returncode ≠ 1 then
    throw (gitCommandError "show-ref" collision.returncode collision.stderr)
  let project ← M.project projectId
  let baseRef ← taskBaseRef workspace.path project
  let _ ← runGit ["switch", "--create", branch, baseRef] workspace.path
  pure { projectId := projectId, workspace := workspace.path, branch := branch }

end ProjectWorkspaceManager

end AIHub
