import AIHub.Config.Workspaces
import AIHub.Projects.GitCalls

/-!
# Startup

What `validate_startup_configuration` approves, and what the workspace manager built from it does.

Both resolve the workspace of a project below the repository root, and both compare the result with
the directory of the projects. Startup compares it with that directory as it is written below the
workspace; the manager resolves that directory too. A path above a resolved one is resolved, so
there is no link to follow where startup has found a project below it.

* `stays_where_approved`: after a startup that succeeds, `create_task_branch` works on a registered
  project in the directory that startup approved, and never finds the project unregistered or
  outside.
-/

namespace AIHub

open Program Config

/-! ## Settings and paths -/

/-- What is asked of the file system. -/
structure FileSystem where
  /-- `Path.resolve`. -/
  resolve : String → WorkspacePath
  isDir : WorkspacePath → Bool
  isFile : WorkspacePath → Bool
  pathExists : WorkspacePath → Bool
  /-- A path above a resolved one has no links. -/
  resolved : ∀ text path, path <+: resolve text → resolve (WorkspacePath.text path) = path

/-- The paths among the settings. -/
structure OperationalSettings where
  repositoryRoot : PurePosixPath
  configDir : PurePosixPath
  workspaceDir : PurePosixPath
  databasePath : PurePosixPath
  useExampleConfig : Bool := false

structure RuntimePaths where
  repositoryRoot : WorkspacePath
  configDirectory : WorkspacePath
  workspaceDirectory : WorkspacePath
  projectsDirectory : WorkspacePath
  databasePath : WorkspacePath
  logsDirectory : WorkspacePath
  locksDirectory : WorkspacePath
  deriving DecidableEq

namespace FileSystem

variable (fs : FileSystem)

/-- `resolve_from_root`. -/
def resolveFromRoot (root : WorkspacePath) (path : PurePosixPath) : WorkspacePath :=
  if path.isAbsolute then fs.resolve path.asPosix
  else fs.resolve (WorkspacePath.text root ++ "/" ++ path.asPosix)

/-- `resolve_paths`. -/
def resolvePaths (settings : OperationalSettings) : Except HubError RuntimePaths :=
  let root := fs.resolve settings.repositoryRoot.asPosix
  let configDirectory := fs.resolveFromRoot root settings.configDir
  let workspaceDirectory := fs.resolveFromRoot root settings.workspaceDir
  let databasePath := fs.resolveFromRoot root settings.databasePath
  if ¬ workspaceDirectory <+: databasePath then
    .error (.value "database_path must stay inside workspace_dir")
  else .ok {
    repositoryRoot := root
    configDirectory := configDirectory
    workspaceDirectory := workspaceDirectory
    projectsDirectory := workspaceDirectory ++ ["projects"]
    databasePath := databasePath
    logsDirectory := workspaceDirectory ++ ["logs"]
    locksDirectory := workspaceDirectory ++ ["locks"] }

/-- `_validate_repository_root`. -/
def validateRepositoryRoot (root : WorkspacePath) : Except HubError Unit :=
  if !fs.isDir root || !fs.pathExists (root ++ [".git"]) ||
      !fs.isFile (root ++ ["pyproject.toml"]) then
    .error (.value "repository_root must identify a complete AI Hub Git checkout")
  else .ok ()

/-- Where a project has its workspace. -/
def projectTarget (root : WorkspacePath) (workspace : String) : WorkspacePath :=
  fs.resolve (WorkspacePath.text (root ++ splitSlash workspace))

/-- `_validate_workspace_contract`. -/
def validateWorkspaceContract (repr : String → String) (paths : RuntimePaths) (b : ConfigBundle) :
    Except HubError Unit :=
  let declared := fs.resolve (paths.repositoryRoot.text ++ "/" ++ b.workspaceRoot.text)
  if declared ≠ paths.workspaceDirectory then
    .error (.value "operational workspace_dir must match settings.workspace_root")
  else
    match b.projects.rows.find? fun entry =>
      let target := fs.projectTarget paths.repositoryRoot entry.2.workspace.text
      target = paths.projectsDirectory ∨ ¬ paths.projectsDirectory <+: target with
    | some entry =>
      .error (.value s!"project {repr entry.1.val} workspace is outside workspace/projects")
    | none => .ok ()

/-- `validate_startup_configuration`; `load` reads the registries and checks their
relationships. -/
def validateStartupConfiguration (repr : String → String)
    (load : WorkspacePath → Bool → Except HubError ConfigBundle) (settings : OperationalSettings) :
    Except HubError (RuntimePaths × ConfigBundle) := do
  let paths ← fs.resolvePaths settings
  fs.validateRepositoryRoot paths.repositoryRoot
  let bundle ← load paths.configDirectory settings.useExampleConfig
  fs.validateWorkspaceContract repr paths bundle
  return (paths, bundle)

end FileSystem

/-! ## The manager that is built -/

/-- The registered projects; what the relationships do not read comes from `repository` and
`baseBranch`. -/
def registeredProjects (repository : Identifier → String)
    (baseBranch : Identifier → Option String) (b : ConfigBundle) (projectId : String) :
    Option AIHub.ProjectDefinition :=
  (b.projects.rows.find? fun entry => entry.1.val = projectId).map fun entry =>
    ⟨repository entry.1, entry.2.workspace.text, baseBranch entry.1⟩

/-- The `ProjectWorkspaceManager` of `build_application`. -/
def FileSystem.buildManager (fs : FileSystem) (repository : Identifier → String)
    (baseBranch : Identifier → Option String) (paths : RuntimePaths) (b : ConfigBundle) :
    ProjectWorkspaceManager where
  repositoryRoot := fs.resolve paths.repositoryRoot.text
  workspaceRoot := fs.resolve paths.projectsDirectory.text
  projects := registeredProjects repository baseBranch b

/-- The links are where they were at startup. -/
def FileSystem.Answers (fs : FileSystem) : (o : WorkspaceOp) → o.Answer → Prop
  | .resolve path false, answer => answer = .ok (fs.resolve path)
  | _, _ => True

section

variable {fs : FileSystem} {repr : String → String}
  {load : WorkspacePath → Bool → Except HubError ConfigBundle} {settings : OperationalSettings}
  {paths : RuntimePaths} {b : ConfigBundle}

theorem resolvePaths_root (h : fs.resolvePaths settings = .ok paths) :
    paths.repositoryRoot = fs.resolve settings.repositoryRoot.asPosix := by
  simp only [FileSystem.resolvePaths] at h
  split_ifs at h
  cases h
  rfl

theorem contract_ok (h : fs.validateWorkspaceContract repr paths b = .ok ()) :
    ∀ entry ∈ b.projects.rows,
      fs.projectTarget paths.repositoryRoot entry.2.workspace.text ≠ paths.projectsDirectory ∧
        paths.projectsDirectory <+:
          fs.projectTarget paths.repositoryRoot entry.2.workspace.text := by
  simp only [FileSystem.validateWorkspaceContract] at h
  split_ifs at h
  split at h
  · cases h
  · rename_i hfind
    intro entry hentry
    have hnone := List.find?_eq_none.1 hfind entry hentry
    simpa using hnone

theorem startup_ok
    (h : fs.validateStartupConfiguration repr load settings = .ok (paths, b)) :
    fs.resolvePaths settings = .ok paths ∧
      load paths.configDirectory settings.useExampleConfig = .ok b ∧
      fs.validateWorkspaceContract repr paths b = .ok () := by
  simp only [FileSystem.validateStartupConfiguration, bind_eq_ok, pure_eq_ok] at h
  obtain ⟨paths', hpaths, _, -, b', hload, _, hcontract, hpair⟩ := h
  cases hpair
  exact ⟨hpaths, hload, hcontract⟩

/-! ## Where a project is worked on -/

/-- A registered project is one of the bundle. -/
theorem registeredProjects_eq_some {repository : Identifier → String}
    {baseBranch : Identifier → Option String} {projectId : String}
    {project : AIHub.ProjectDefinition}
    (h : registeredProjects repository baseBranch b projectId = some project) :
    ∃ entry ∈ b.projects.rows, project.workspace = entry.2.workspace.text := by
  obtain ⟨entry, hentry, rfl⟩ := Option.map_eq_some_iff.1 h
  exact ⟨entry, List.mem_of_find?_eq_some hentry, rfl⟩

/-- The manager sees the paths that startup has seen. -/
theorem buildManager_roots (repository : Identifier → String)
    {baseBranch : Identifier → Option String}
    (h : fs.validateStartupConfiguration repr load settings = .ok (paths, b)) :
    (fs.buildManager repository baseBranch paths b).repositoryRoot = paths.repositoryRoot ∧
      ∀ projectId project, registeredProjects repository baseBranch b projectId = some project →
        (fs.buildManager repository baseBranch paths b).Below
          (fs.projectTarget paths.repositoryRoot project.workspace) := by
  obtain ⟨hpaths, -, hcontract⟩ := startup_ok h
  have hroot : fs.resolve paths.repositoryRoot.text = paths.repositoryRoot := by
    rw [resolvePaths_root hpaths]
    exact fs.resolved _ _ List.prefix_rfl
  refine ⟨hroot, fun projectId project hproject => ?_⟩
  obtain ⟨entry, hentry, htext⟩ := registeredProjects_eq_some hproject
  rw [htext]
  obtain ⟨hne, hprefix⟩ := contract_ok hcontract entry hentry
  -- The directory of the projects is above a resolved path, so it is resolved.
  have hprojects : fs.resolve paths.projectsDirectory.text = paths.projectsDirectory :=
    fs.resolved _ _ hprefix
  refine ⟨fun heq => hne (heq.trans hprojects), ?_⟩
  show fs.resolve paths.projectsDirectory.text <+: _
  rwa [hprojects]

end

/-- Git runs in `target`, or clones beside it. -/
def WorksIn (target : WorkspacePath) (_ : WorkspaceDialogue) : WorkspaceOp → Prop
  | .git arguments cwd => cwd = target ∨ arguments.head? = some "clone" ∧ cwd = target.dropLast
  | _ => True

/-- The project is neither unregistered nor outside. -/
def Expected (target : WorkspacePath) : ProjectError → Prop
  | .notFound _ => False
  | .unsafeWorkspace message =>
    message = s!"project workspace is not a directory: {target.text}" ∨
      message = s!"registered workspace is not the repository root: {target.text}"
  | _ => True

section

variable {fs : FileSystem} {M : ProjectWorkspaceManager} {target : WorkspacePath}
  {log : WorkspaceDialogue} {α : Type}

/-- With the links where they were, the program works in `target`. -/
abbrev Stays (fs : FileSystem) (target : WorkspacePath) (Q : α → WorkspaceDialogue → Prop)
    (log : WorkspaceDialogue) (x : WorkspaceM α) : Prop :=
  MeetsE fs.Answers (WorksIn target) Q (fun e _ => Expected target e) log x

theorem stays_assertContained {path : WorkspacePath} {Q : WorkspacePath → WorkspaceDialogue → Prop}
    {R : ProjectError → WorkspaceDialogue → Prop} (hos : ∀ log, R .os log)
    (hpath : fs.resolve path.text = target) (hbelow : M.Below target)
    (hQ : ∀ log, Q target log) :
    MeetsE fs.Answers (WorksIn target) Q R log (M.assertContained path) := by
  refine meetsE_bind.2 (meetsE_resolve trivial hos fun canonical hanswer => ?_)
  obtain rfl : canonical = target := by
    rw [← hpath]
    exact Except.ok.inj hanswer
  have hinside : ¬ (canonical = M.workspaceRoot ∨ ¬ M.workspaceRoot <+: canonical) :=
    not_or.2 ⟨hbelow.1, not_not.2 hbelow.2⟩
  rw [if_neg hinside]
  exact hQ _

theorem stays_runGit {command : String} {rest : List String} {check : Bool}
    {Q : CompletedProcess → WorkspaceDialogue → Prop} (hcommand : command ∉ forbiddenGitCommands)
    (hQ : ∀ result log, Q result log) :
    Stays fs target Q log (runGit (command :: rest) target check) :=
  meetsE_runGit hcommand (fun _ => .inl rfl) (fun _ _ => trivial) (fun _ _ _ _ => trivial)
    fun _ _ => hQ _ _

theorem stays_cloneOrSelect {projectId : String} {project : AIHub.ProjectDefinition}
    {policy : DirtyTreePolicy} {Q : ProjectWorkspace → WorkspaceDialogue → Prop}
    (hproject : M.projects projectId = some project)
    (hpath : fs.resolve (WorkspacePath.text (M.repositoryRoot ++ splitSlash project.workspace)) =
      target)
    (hself : fs.resolve target.text = target) (hbelow : M.Below target)
    (hQ : ∀ w log, w.path = target → Q w log) :
    Stays fs target Q log (M.cloneOrSelect projectId policy) := by
  unfold ProjectWorkspaceManager.cloneOrSelect ProjectWorkspaceManager.project
  rw [hproject]
  refine meetsE_bind.2 (meetsE_pure.2 (meetsE_bind.2 (meetsE_tryCatch.2 ?_)))
  refine stays_assertContained (fun _ => trivial) hpath hbelow fun log => ?_
  refine meetsE_bind.2 (meetsE_mkdir trivial (fun _ => trivial) ?_)
  refine meetsE_bind.2 (meetsE_ask.2 ⟨trivial, fun present _ => ?_⟩)
  extract_lets checked parent located
  have hchecked : ∀ log, Stays fs target Q log (checked ()) := by
    intro log
    refine meetsE_bind.2 (stays_assertContained (fun _ => trivial) hself hbelow fun log => ?_)
    refine meetsE_bind.2 (stays_runGit (by decide) fun top log => ?_)
    refine meetsE_bind.2 (meetsE_resolve trivial (fun _ => trivial) fun reported _ => ?_)
    refine meetsE_unless (fun _ => .inr rfl) fun _ => ?_
    refine meetsE_bind.2 (stays_runGit (by decide) fun origin log => ?_)
    refine meetsE_unless (fun _ => trivial) fun _ => ?_
    refine meetsE_bind.2 (meetsE_bind.2 (stays_runGit (by decide) fun status log =>
      meetsE_pure.2 ?_))
    refine meetsE_unless (fun _ => trivial) fun _ => ?_
    refine meetsE_bind.2 (meetsE_bind.2 (stays_assertContained (fun _ => trivial) hself hbelow
      fun log => ?_))
    exact meetsE_bind.2 (stays_runGit (by decide) fun head log =>
      meetsE_pure.2 (meetsE_pure.2 (hQ _ _ rfl)))
  have hlocated : ∀ log present, Stays fs target Q log (located present) := by
    intro log present
    cases present with
    | true =>
      refine meetsE_bind.2 (meetsE_ask.2 ⟨trivial, fun directory _ => ?_⟩)
      exact meetsE_unless (fun _ => .inl rfl) fun _ => hchecked _
    | false =>
      refine meetsE_bind.2 (meetsE_mkdir trivial (fun _ => trivial) ?_)
      exact meetsE_bind.2 (meetsE_runGit (by decide) (fun _ => .inr ⟨rfl, rfl⟩)
        (fun _ _ => trivial) (fun _ _ _ _ => trivial) fun _ _ => hchecked _)
  cases present with
  | true => exact hlocated _ true
  | false =>
    refine meetsE_bind.2 ((meetsE_ask (o := WorkspaceOp.isSymlink target)).2
      ⟨trivial, fun linked _ => ?_⟩)
    exact hlocated _ linked

theorem stays_taskBaseRef {project : AIHub.ProjectDefinition}
    {Q : String → WorkspaceDialogue → Prop} (hQ : ∀ baseRef log, Q baseRef log) :
    Stays fs target Q log (ProjectWorkspaceManager.taskBaseRef target project) := by
  unfold ProjectWorkspaceManager.taskBaseRef
  extract_lets verified
  have hverified : ∀ baseRef log, Stays fs target Q log (verified baseRef) := by
    intro baseRef log
    refine meetsE_bind.2 (stays_runGit (by decide) fun verification log => ?_)
    split_ifs
    · trivial
    · trivial
    · exact hQ _ _
  cases project.baseBranch with
  | some branch => exact hverified _ log
  | none =>
    refine meetsE_bind.2 (stays_runGit (by decide) fun result log => ?_)
    extract_lets resolved found
    clear_value resolved
    exact meetsE_unless (fun _ => trivial) fun _ => hverified _ log

theorem stays_createTaskBranch {projectId : String} {project : AIHub.ProjectDefinition}
    {nfkdAscii : String → String} {taskId description : String}
    (hproject : M.projects projectId = some project)
    (hpath : fs.resolve (WorkspacePath.text (M.repositoryRoot ++ splitSlash project.workspace)) =
      target)
    (hself : fs.resolve target.text = target) (hbelow : M.Below target) :
    Stays fs target (fun branch _ => branch.workspace = target) log
      (M.createTaskBranch nfkdAscii projectId taskId description) := by
  unfold ProjectWorkspaceManager.createTaskBranch
  refine meetsE_bind.2 (stays_cloneOrSelect hproject hpath hself hbelow fun workspace log hw => ?_)
  refine meetsE_bind.2 ?_
  cases hname : taskBranchName nfkdAscii taskId description with
  | error e =>
    have hvalue : ∃ m, e = .value m := by
      unfold taskBranchName at hname
      split_ifs at hname
      exact ⟨_, (Except.error.inj hname).symm⟩
    obtain ⟨m, rfl⟩ := hvalue
    trivial
  | ok branch =>
    rw [hw]
    refine meetsE_pure.2 (meetsE_bind.2 (stays_runGit (by decide) fun validation log => ?_))
    refine meetsE_unless (fun _ => trivial) fun _ => ?_
    refine meetsE_bind.2 (stays_runGit (by decide) fun collision log => ?_)
    refine meetsE_unless (fun _ => trivial) fun _ => ?_
    refine meetsE_unless (fun _ => trivial) fun _ => ?_
    unfold ProjectWorkspaceManager.project
    rw [hproject]
    refine meetsE_bind.2 (meetsE_pure.2 (meetsE_bind.2 (stays_taskBaseRef fun baseRef log => ?_)))
    exact meetsE_bind.2 (stays_runGit (by decide) fun result log => rfl)

end

/-- After a startup that succeeds, and with the links where they were, `create_task_branch` works
on a registered project in the directory that startup has approved, and does not find it
unregistered or outside. -/
theorem stays_where_approved {fs : FileSystem} {repr : String → String}
    {load : WorkspacePath → Bool → Except HubError ConfigBundle} {settings : OperationalSettings}
    {paths : RuntimePaths} {b : ConfigBundle} {repository : Identifier → String}
    {baseBranch : Identifier → Option String} {projectId : String}
    {project : AIHub.ProjectDefinition} {nfkdAscii : String → String} {taskId description : String}
    {log : WorkspaceDialogue}
    (h : fs.validateStartupConfiguration repr load settings = .ok (paths, b))
    (hproject : registeredProjects repository baseBranch b projectId = some project)
    (hlinks : Answered fs.Answers log) :
    let program := ((fs.buildManager repository baseBranch paths b).createTaskBranch nfkdAscii
      projectId taskId description).run
    let target := fs.projectTarget paths.repositoryRoot project.workspace
    (∀ o, program.Asks log o → WorksIn target log o) ∧
      (∀ e, program.Ends log (.error e) → Expected target e) ∧
      ∀ branch, program.Ends log (.ok branch) → branch.workspace = target := by
  intro program target
  obtain ⟨hroot, hbelow⟩ := buildManager_roots repository h
  have hself : fs.resolve (WorkspacePath.text target) = target := fs.resolved _ _ List.prefix_rfl
  have hstays : Stays fs target (fun branch _ => branch.workspace = target) []
      ((fs.buildManager repository baseBranch paths b).createTaskBranch nfkdAscii projectId taskId
        description) :=
    stays_createTaskBranch hproject (by rw [hroot]; rfl) hself (hbelow projectId project hproject)
  exact ⟨fun o hasks => hstays.asks hasks hlinks, fun e hends => hstays.ends hends hlinks,
    fun branch hends => hstays.ends hends hlinks⟩

namespace Sample

/-- The workspace is a link to another disk. -/
def links : List (String × WorkspacePath) :=
  [(".", ["srv", "hub"]), ("/srv", ["srv"]), ("/srv/hub", ["srv", "hub"]),
    ("/srv/hub/config", ["srv", "hub", "config"]), ("/srv/hub/workspace", ["data", "ws"]),
    ("/srv/hub/workspace/hub.sqlite3", ["data", "ws", "hub.sqlite3"]),
    ("/srv/hub/workspace/projects/shop", ["data", "ws", "projects", "shop"]),
    ("/srv/hub/workspace/projects/shop-blog", ["data", "ws", "projects", "shop-blog"]),
    ("/data", ["data"]), ("/data/ws", ["data", "ws"]),
    ("/data/ws/hub.sqlite3", ["data", "ws", "hub.sqlite3"]),
    ("/data/ws/projects", ["data", "ws", "projects"]),
    ("/data/ws/projects/shop", ["data", "ws", "projects", "shop"]),
    ("/data/ws/projects/shop-blog", ["data", "ws", "projects", "shop-blog"])]

def followLinks (text : String) : WorkspacePath := (links.lookup text).getD []

theorem followLinks_resolved (text : String) (path : WorkspacePath)
    (h : path <+: followLinks text) : followLinks path.text = path := by
  have hall : ∀ target ∈ [] :: links.map Prod.snd, ∀ path ∈ target.inits,
      followLinks (WorkspacePath.text path) = path := by decide +kernel
  refine hall (followLinks text) ?_ path ((List.mem_inits _ _).2 h)
  unfold followLinks
  cases hlookup : links.lookup text with
  | none => exact List.mem_cons_self
  | some target =>
    obtain ⟨before, after, hlinks, -⟩ := List.lookup_eq_some_iff.1 hlookup
    refine List.mem_cons_of_mem _ (List.mem_map.2 ⟨(text, target), ?_, rfl⟩)
    simp [hlinks]

def disk : FileSystem where
  resolve := followLinks
  isDir _ := true
  isFile _ := true
  pathExists _ := true
  resolved := followLinks_resolved

def hubSettings : OperationalSettings where
  repositoryRoot := .ofString "."
  configDir := .ofString "config"
  workspaceDir := .ofString "workspace"
  databasePath := .ofString "workspace/hub.sqlite3"

def hubPaths : RuntimePaths where
  repositoryRoot := ["srv", "hub"]
  configDirectory := ["srv", "hub", "config"]
  workspaceDirectory := ["data", "ws"]
  projectsDirectory := ["data", "ws", "projects"]
  databasePath := ["data", "ws", "hub.sqlite3"]
  logsDirectory := ["data", "ws", "logs"]
  locksDirectory := ["data", "ws", "locks"]

def hubRepository (id : Identifier) : String := s!"ssh://git/{id.val}"

/-- The manager of the disk and two projects. -/
def hubManager : ProjectWorkspaceManager :=
  disk.buildManager hubRepository (fun _ => none) hubPaths Config.Sample.besides

/-- A clean checkout of the shop. -/
def shopCheckout : ∀ o : WorkspaceOp, o.Answer
  | .resolve text _ => .ok (followLinks text)
  | .git ["rev-parse", _] _ => .ok ⟨0, "/data/ws/projects/shop\n", ""⟩
  | .git ["remote", _, _] _ => .ok ⟨0, "ssh://git/shop\n", ""⟩
  | .git ["symbolic-ref", _, _] _ => .ok ⟨0, "refs/remotes/origin/main\n", ""⟩
  | .git ["show-ref", _, _, "refs/heads/agent/TASK-1-fix-the-cart"] _ => .ok ⟨1, "", ""⟩
  | o => checkout o

def fixCart : WorkspaceDialogue × Except ProjectError TaskBranch :=
  (hubManager.createTaskBranch id "shop" "TASK-1" "Fix the cart").run.runWith shopCheckout

end Sample

open Sample in
/-- The shop is worked on where the link leads. -/
theorem stays_where_approved_sample :
    ∃ branch, fixCart.2 = .ok branch ∧ branch.workspace = ["data", "ws", "projects", "shop"] := by
  have hstartup : disk.validateStartupConfiguration id (fun _ _ => .ok Config.Sample.besides)
      hubSettings = .ok (hubPaths, Config.Sample.besides) := by
    rfl
  have hok : fixCart.2.isOk = true := by decide +kernel
  cases hbranch : fixCart.2 with
  | error e => rw [hbranch] at hok; cases hok
  | ok branch =>
    have hanswers : Answered disk.Answers fixCart.1 := answered_runWith fun o => by
      cases o with
      | resolve path strict => cases strict <;> trivial
      | _ => trivial
    have hproject : registeredProjects hubRepository (fun _ => none) Config.Sample.besides "shop" =
        some ⟨"ssh://git/shop", "workspace/projects/shop", none⟩ := rfl
    refine ⟨branch, rfl, ?_⟩
    exact (stays_where_approved hstartup hproject hanswers).2.2 branch (hbranch ▸ ends_runWith _ _)

end AIHub
