import AIHub.Domain.Tasks
import AIHub.Lib.PosixPath
import AIHub.Lib.Table

/-!
# Project workspaces

A bundle of registries is accepted if its relationships hold. Among them, every project has its
workspace below the directory of the projects, and no two projects have the same workspace.

The workspaces are compared as paths with those of the projects before. Equal ones are found; a
workspace inside another one is not, so the trees of two projects of an accepted bundle may
overlap, with one repository inside the other.

* `loop_ok`: what the loop over the projects has checked when it has found no error.
* `workspaces_apart`: the workspaces of an accepted bundle are apart exactly if the text of none is
  that of another one followed by a slash and more.
* `directories_disjoint`: then no directory belongs to two projects, wherever the repository is.
-/

namespace AIHub.Config

/-! ## Registries -/

def hasDrivePrefix (path : PurePosixPath) : Bool :=
  match path.parts with
  | part :: _ => part.getLast? = some ':' && part.length = 2
  | [] => false

def validateRelativePath (value fieldName : String) : Except HubError String :=
  if value.toList.contains '\\' then .error (.validation s!"{fieldName} must use POSIX separators")
  else
    let path := PurePosixPath.ofString value
    if path.isAbsolute || hasDrivePrefix path || value = "" || value = "." ||
        path.parts.contains ['.', '.'] then
      .error (.validation s!"{fieldName} must be a non-empty safe relative path")
    else .ok path.asPosix

/-- A path field of a validated record. -/
structure RelativePath where
  text : String
  ok : ∃ value fieldName, validateRelativePath value fieldName = .ok text

inductive TeamType where
  | platform | product
  deriving DecidableEq

inductive RuntimeKind where
  | disabled | codex
  deriving DecidableEq

def RuntimeKind.value : RuntimeKind → String
  | disabled => "disabled"
  | codex => "codex"

inductive WorkingDirectoryPolicy where
  | projectWorkspace | readOnly
  deriving DecidableEq

inductive Capability where
  | read | write | execute | git | network | deploy | admin
  deriving DecidableEq

structure AgentDefinition where
  role : Identifier
  team : Identifier
  runtime : RuntimeKind
  enabled : Bool := true
  permissionProfile : Identifier
  workingDirectoryPolicy : WorkingDirectoryPolicy := .projectWorkspace
  deriving DecidableEq

/-- A validated team has agents, no agent twice, and a project exactly if it is a product team. -/
structure TeamDefinition where
  type : TeamType
  room : Identifier
  agents : List Identifier
  project : Option Identifier := none
  someAgent : agents ≠ []
  uniqueAgents : agents.Nodup
  projectOfKind : project.isSome = true ↔ type = .product

structure PermissionProfile where
  capabilities : List Capability
  someCapability : capabilities ≠ []
  unique : capabilities.Nodup

structure ProjectDefinition where
  workspace : RelativePath
  team : Identifier

abbrev Registry (α : Type) := Table fun entry : Identifier × α => entry.1

/-- All registries. -/
structure ConfigBundle where
  workspaceRoot : RelativePath
  agents : Registry AgentDefinition
  teams : Registry TeamDefinition
  projects : Registry ProjectDefinition
  permissions : Registry PermissionProfile

def RelativePath.path (p : RelativePath) : PurePosixPath := .ofString p.text

def ProjectDefinition.path (p : ProjectDefinition) : PurePosixPath := p.workspace.path

namespace ConfigBundle

/-! ## Relationships -/

section

-- how a text is quoted in a message
variable (repr : String → String) (b : ConfigBundle)

def permissionProfiles : List Identifier := b.permissions.rows.map Prod.fst

def agentErrors (id : Identifier) (agent : AgentDefinition) : List String :=
  (match b.teams.get? agent.team with
    | none => [s!"agent {repr id.val} references unknown team {repr agent.team.val}"]
    | some (_, team) =>
      if team.agents.contains id then []
      else [s!"agent {repr id.val} is not listed by team {repr agent.team.val}"]) ++
  if b.permissionProfiles.contains agent.permissionProfile then []
  else [s!"agent {repr id.val} references unknown permission profile " ++
    repr agent.permissionProfile.val]

def memberErrors (id agentId : Identifier) : List String :=
  match b.agents.get? agentId with
  | none => [s!"team {repr id.val} references unknown agent {repr agentId.val}"]
  | some (_, agent) =>
    if agent.team = id then []
    else [s!"team {repr id.val} lists agent {repr agentId.val}, " ++
      s!"which belongs to {repr agent.team.val}"]

def teamErrors (id : Identifier) (team : TeamDefinition) : List String :=
  team.agents.flatMap (b.memberErrors repr id) ++
  match team.type, team.project with
  | .product, some projectId =>
    match b.projects.get? projectId with
    | none => [s!"product team {repr id.val} references unknown project {repr projectId.val}"]
    | some (_, project) =>
      if project.team = id then []
      else [s!"product team {repr id.val} and project {repr projectId.val} are not reciprocal"]
  | _, _ => []

def ownerErrors (id : Identifier) (project : ProjectDefinition) : List String :=
  match b.teams.get? project.team with
  | none => [s!"project {repr id.val} references unknown team {repr project.team.val}"]
  | some (_, team) =>
    if team.type ≠ .product then [s!"project {repr id.val} must be owned by a product team"]
    else if team.project ≠ some id then
      [s!"project {repr id.val} and product team {repr project.team.val} are not reciprocal"]
    else []

/-- `PurePosixPath(workspace_root) / "projects"`. -/
def expectedProjectPrefix : PurePosixPath :=
  b.workspaceRoot.path.joined "projects".toList ⟨by decide, by decide, by decide⟩

def placeErrors (id : Identifier) (project : ProjectDefinition) : List String :=
  if project.path = b.expectedProjectPrefix ∨ ¬ project.path.IsRelativeTo b.expectedProjectPrefix
  then [s!"project {repr id.val} workspace must be under {repr b.expectedProjectPrefix.asPosix}"]
  else []

/-- The loop over the projects. The dictionary has the workspaces of the projects before, the
latest first. -/
def projectErrors :
    List (Identifier × ProjectDefinition) → List (PurePosixPath × Identifier) → List String
  | [], _ => []
  | (id, project) :: projects, seen =>
    b.ownerErrors repr id project ++ b.placeErrors repr id project ++
    (match seen.lookup project.path with
      | some existing => [s!"projects {repr existing.val} and {repr id.val} share workspace " ++
          repr project.path.asPosix]
      | none => []) ++
    projectErrors projects ((project.path, id) :: seen)

/-- The loop over the rooms of the teams. -/
def roomErrors : List (Identifier × TeamDefinition) → List (Identifier × Identifier) → List String
  | [], _ => []
  | (id, team) :: teams, seen =>
    (match seen.lookup team.room with
      | some existing =>
        [s!"teams {repr existing.val} and {repr id.val} share room {repr team.room.val}"]
      | none => []) ++
    roomErrors teams ((team.room, id) :: seen)

def validateRelationships : Except HubError Unit :=
  let errors := b.agents.rows.flatMap (fun (id, agent) => b.agentErrors repr id agent) ++
    b.teams.rows.flatMap (fun (id, team) => b.teamErrors repr id team) ++
    b.projectErrors repr b.projects.rows [] ++ roomErrors repr b.teams.rows []
  if errors = [] then .ok ()
  else
    let message := "; ".intercalate errors
    .error (.validation s!"invalid configuration relationships: {message}")

end

end ConfigBundle

/-! ## Paths of validated records -/

theorem validateRelativePath_ok {value fieldName text : String}
    (h : validateRelativePath value fieldName = .ok text) :
    (PurePosixPath.ofString value).root = .none ∧
      text = (PurePosixPath.ofString value).asPosix := by
  unfold validateRelativePath at h
  split_ifs at h
  dsimp only at h
  split_ifs at h with hunsafe
  simp only [Bool.or_eq_true, not_or] at hunsafe
  cases h
  exact ⟨by simpa [PurePosixPath.isAbsolute] using hunsafe.1.1.1.1, rfl⟩

namespace RelativePath

variable (p : RelativePath)

theorem root_path : p.path.root = .none := by
  obtain ⟨value, fieldName, h⟩ := p.ok
  obtain ⟨hroot, htext⟩ := validateRelativePath_ok h
  rw [path, htext, PurePosixPath.ofString_asPosix, hroot]

/-- The text is the one of the path. -/
theorem asPosix_path : p.path.asPosix = p.text := by
  obtain ⟨value, fieldName, h⟩ := p.ok
  obtain ⟨_, htext⟩ := validateRelativePath_ok h
  rw [path, htext, PurePosixPath.ofString_asPosix]

end RelativePath

namespace ConfigBundle

variable {repr : String → String} {b : ConfigBundle}

/-! ## What the loop has checked -/

theorem placeErrors_eq_nil {id : Identifier} {project : ProjectDefinition}
    (h : b.placeErrors repr id project = []) :
    project.path.IsRelativeTo b.expectedProjectPrefix ∧
      project.path ≠ b.expectedProjectPrefix := by
  unfold placeErrors at h
  split_ifs at h with hplace
  simp only [not_or, not_not] at hplace
  exact ⟨hplace.2, hplace.1⟩

/-- A path in the directory of the projects has parts. -/
theorem tail_ne_nil_of_placed {path : PurePosixPath}
    (h : path.IsRelativeTo b.expectedProjectPrefix) : path.tail ≠ [] := by
  obtain ⟨_, hprefix⟩ := h
  intro hnil
  rw [hnil, List.prefix_nil] at hprefix
  exact List.append_ne_nil_of_right_ne_nil _ (by simp) hprefix

/-- Without an error, each project is in its place, and its workspace is neither in the dictionary
nor that of another project. -/
theorem loop_ok {projects : List (Identifier × ProjectDefinition)}
    {seen : List (PurePosixPath × Identifier)} (h : b.projectErrors repr projects seen = []) :
    (∀ p ∈ projects, p.2.path.IsRelativeTo b.expectedProjectPrefix ∧
        p.2.path ≠ b.expectedProjectPrefix) ∧
      (∀ p ∈ projects, seen.lookup p.2.path = none) ∧
      projects.Pairwise fun p q => p.2.path ≠ q.2.path := by
  induction projects generalizing seen with
  | nil => simp
  | cons entry projects ih =>
    obtain ⟨id, project⟩ := entry
    simp only [projectErrors, List.append_eq_nil_iff] at h
    obtain ⟨⟨⟨_, hplace⟩, hshared⟩, hrest⟩ := h
    obtain ⟨hplaces, hseen, hpairs⟩ := ih hrest
    have hnew : seen.lookup project.path = none := by
      cases hlookup : seen.lookup project.path with
      | none => rfl
      | some existing => simp [hlookup] at hshared
    have hother : ∀ p ∈ projects, seen.lookup p.2.path = none ∧ project.path ≠ p.2.path := by
      intro p hp
      have hcons := hseen p hp
      by_cases heq : p.2.path = project.path
      · simp [heq] at hcons
      · rw [List.lookup_cons, beq_eq_false_iff_ne.2 heq] at hcons
        exact ⟨hcons, Ne.symm heq⟩
    refine ⟨?_, ?_, List.pairwise_cons.2 ⟨fun p hp => (hother p hp).2, hpairs⟩⟩
    · exact List.forall_mem_cons.2 ⟨placeErrors_eq_nil hplace, hplaces⟩
    · exact List.forall_mem_cons.2 ⟨hnew, fun p hp => (hother p hp).1⟩

theorem projectErrors_eq_nil (h : b.validateRelationships repr = .ok ()) :
    b.projectErrors repr b.projects.rows [] = [] := by
  unfold validateRelationships at h
  dsimp only at h
  split_ifs at h with herrors
  simp only [List.append_eq_nil_iff] at herrors
  exact herrors.1.2

/-! ## Workspaces that are apart -/

/-- Every workspace lies strictly below the directory of the projects, and no two projects have
workspaces of which one is the other or lies in it. -/
structure Apart (b : ConfigBundle) : Prop where
  below : ∀ p ∈ b.projects, p.2.path.IsRelativeTo b.expectedProjectPrefix ∧
    p.2.path ≠ b.expectedProjectPrefix
  distinct : ∀ p ∈ b.projects, ∀ q ∈ b.projects, p.1 ≠ q.1 → p.2.path ≠ q.2.path
  notInside : ∀ p ∈ b.projects, ∀ q ∈ b.projects, p.1 ≠ q.1 → ¬ p.2.path.IsRelativeTo q.2.path

/-- In an accepted bundle, the workspaces are apart exactly if the text of none is that of another
one followed by a slash and more. -/
theorem workspaces_apart (repr : String → String) (b : ConfigBundle)
    (h : b.validateRelationships repr = .ok ()) :
    b.Apart ↔ ∀ p ∈ b.projects, ∀ q ∈ b.projects, p.1 ≠ q.1 →
      ¬ q.2.workspace.text.toList ++ ['/'] <+: p.2.workspace.text.toList := by
  obtain ⟨hplaces, _, hpairs⟩ := loop_ok (projectErrors_eq_nil h)
  have hdistinct : ∀ p ∈ b.projects, ∀ q ∈ b.projects, p.1 ≠ q.1 → p.2.path ≠ q.2.path := by
    intro p hp q hq hne heq
    have hnodup : (b.projects.rows.map fun p => p.2.path).Nodup := List.pairwise_map.2 hpairs
    exact hne (congrArg Prod.fst (List.inj_on_of_nodup_map hnodup hp hq heq))
  have hinside : ∀ p ∈ b.projects, ∀ q ∈ b.projects, p.1 ≠ q.1 →
      (p.2.path.IsRelativeTo q.2.path ↔
        q.2.workspace.text.toList ++ ['/'] <+: p.2.workspace.text.toList) := by
    intro p hp q hq hne
    have htail : q.2.path.tail ≠ [] := tail_ne_nil_of_placed (hplaces q hq).1
    have htext := PurePosixPath.asPosix_prefix p.2.workspace.root_path q.2.workspace.root_path htail
    rw [RelativePath.asPosix_path, RelativePath.asPosix_path] at htext
    rw [← htext]
    exact (and_iff_left (hdistinct p hp q hq hne)).symm
  constructor
  · intro hapart p hp q hq hne htext
    exact hapart.notInside p hp q hq hne ((hinside p hp q hq hne).2 htext)
  · intro htext
    exact {
      below := hplaces
      distinct := hdistinct
      notInside := fun p hp q hq hne hin =>
        htext p hp q hq hne ((hinside p hp q hq hne).1 hin) }

/-! ## Directories -/

/-- `repository_root.joinpath(*workspace.split("/"))`, the directory that the manager of the
workspaces takes for a project. -/
def projectPath (repositoryRoot : PurePosixPath) (project : ProjectDefinition) : PurePosixPath :=
  repositoryRoot.joinpath project.workspace.text

theorem projectPath_isRelativeTo (repositoryRoot : PurePosixPath) (p q : ProjectDefinition) :
    (projectPath repositoryRoot p).IsRelativeTo (projectPath repositoryRoot q) ↔
      p.path.IsRelativeTo q.path := by
  have htail : ∀ p : ProjectDefinition, (projectPath repositoryRoot p).tail =
      repositoryRoot.tail ++ p.path.tail := by
    intro p
    exact congrArg (repositoryRoot.tail ++ ·)
      (PurePosixPath.splitParts_of_relative p.workspace.root_path)
  unfold PurePosixPath.IsRelativeTo
  rw [htail, htail, List.prefix_append_right_inj]
  exact and_congr_left fun _ => iff_of_true rfl
    (p.workspace.root_path.trans q.workspace.root_path.symm)

/-- Where the workspaces are apart, no directory belongs to two projects. -/
theorem directories_disjoint (hb : b.Apart) (repositoryRoot : PurePosixPath) :
    ∀ p ∈ b.projects, ∀ q ∈ b.projects, p.1 ≠ q.1 →
      ¬ ∃ directory : PurePosixPath, directory.IsRelativeTo (projectPath repositoryRoot p.2) ∧
        directory.IsRelativeTo (projectPath repositoryRoot q.2) := by
  intro p hp q hq hne h
  rw [PurePosixPath.exists_below_both, projectPath_isRelativeTo, projectPath_isRelativeTo] at h
  rcases h with h | h
  · exact hb.notInside p hp q hq hne h
  · exact hb.notInside q hq p hp hne.symm h

end ConfigBundle

namespace Sample

def shop : Identifier := ⟨"shop", by decide⟩
def blog : Identifier := ⟨"blog", by decide⟩

/-- A path that validation leaves as it is. -/
def pathField (text : String) (h : validateRelativePath text "workspace" = .ok text) :
    RelativePath := ⟨text, text, "workspace", h⟩

def developerRole : Identifier := ⟨"developer", rfl⟩

/-- An agent of a team with its name. -/
def agent (id : Identifier) : AgentDefinition where
  role := developerRole
  team := id
  runtime := .codex
  permissionProfile := shop

/-- A product team of one agent, with one project, that both have its name. -/
def team (id : Identifier) : TeamDefinition where
  type := .product
  room := id
  agents := [id]
  project := some id
  someAgent := List.cons_ne_nil _ _
  uniqueAgents := List.nodup_singleton _
  projectOfKind := by simp

def profile : PermissionProfile where
  capabilities := [.read, .write, .execute, .git]
  someCapability := List.cons_ne_nil _ _
  unique := by decide

/-- Two projects, each with a team of one agent that has its name. -/
def bundle (shopWorkspace blogWorkspace : RelativePath) : ConfigBundle where
  workspaceRoot := pathField "workspace" (by decide +kernel)
  agents := ⟨[(shop, agent shop), (blog, agent blog)], (by decide : [shop, blog].Nodup)⟩
  teams := ⟨[(shop, team shop), (blog, team blog)], (by decide : [shop, blog].Nodup)⟩
  projects := ⟨[(shop, ⟨shopWorkspace, shop⟩), (blog, ⟨blogWorkspace, blog⟩)],
    (by decide : [shop, blog].Nodup)⟩
  permissions := ⟨[(shop, profile)], List.nodup_singleton _⟩

def shopPath : RelativePath := pathField "workspace/projects/shop" (by decide +kernel)

def besides : ConfigBundle :=
  bundle shopPath (pathField "workspace/projects/shop-blog" (by decide +kernel))

/-- The second workspace is in the first one. -/
def inside : ConfigBundle :=
  bundle shopPath (pathField "workspace/projects/shop/blog" (by decide +kernel))

end Sample

open Sample in
theorem workspaces_apart_sample : besides.Apart := by
  have h : besides.validateRelationships id = .ok () := by decide +kernel
  refine (ConfigBundle.workspaces_apart id besides h).2 ?_
  intro p hp q hq hne
  have hp : p ∈ besides.projects.rows := hp
  have hq : q ∈ besides.projects.rows := hq
  simp only [besides, bundle, List.mem_cons, List.not_mem_nil, or_false] at hp hq
  rcases hp with rfl | rfl <;> rcases hq with rfl | rfl
  · exact absurd rfl hne
  · decide +kernel
  · decide +kernel
  · exact absurd rfl hne

open Sample in
/-- Only the same workspace is looked for, not one in another. -/
theorem workspace_inside_accepted : ¬ ∀ (repr : String → String) (b : ConfigBundle),
    b.validateRelationships repr = .ok () → b.Apart := by
  intro h
  have happart := h id inside (by decide +kernel)
  have hshop : (shop, ⟨shopPath, shop⟩) ∈ inside.projects := List.mem_cons_self
  have hblog : (blog, ⟨pathField "workspace/projects/shop/blog" (by decide +kernel), blog⟩) ∈
      inside.projects := List.mem_cons_of_mem _ List.mem_cons_self
  exact happart.notInside _ hblog _ hshop (by decide) (by decide +kernel)

end AIHub.Config
