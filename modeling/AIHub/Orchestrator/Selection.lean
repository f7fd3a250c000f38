import AIHub.Config.Workspaces
import AIHub.Orchestrator.Service

/-!
# The developer of a task

The orchestrator gives a task to the one agent of its team that may do it. The agents of the team
and their permission profiles are looked up without a check, and only the agents that the team
lists are looked at. In a bundle whose relationships hold, the listed agents are those that say they
belong to the team, so every look-up finds something and no other agent could do the task.

* `relationships_ok`: what the look-ups use of an accepted bundle.
* `candidates_eq`: the loop over the agents of a team, without a missing key.
* `developer_selected`: who is selected, and that nothing but a selection error is raised.
* `selection_ne_raises`: so the orchestrator goes on with a developer or fails the task.
-/

namespace AIHub.Config

/-! ## The selection -/

structure DeveloperSelection where
  agentId : Identifier
  definition : AgentDefinition
  deriving DecidableEq

inductive SelectionError where
  | developerSelection (message : String)
  /-- A `KeyError`. -/
  | missingKey (key : Identifier)
  deriving DecidableEq

def requiredCapabilities : List Capability := [.read, .write, .execute, .git]

def prohibitedCapabilities : List Capability := [.network, .deploy, .admin]

def eligible (agent : AgentDefinition) (capabilities : List Capability) : Bool :=
  agent.enabled && agent.role.val = "developer" && agent.runtime = .codex &&
    agent.workingDirectoryPolicy = .projectWorkspace &&
    requiredCapabilities.all (capabilities.contains ·) &&
    prohibitedCapabilities.all (!capabilities.contains ·)

namespace ConfigBundle

/-- `registry[key]`. -/
def item {α : Type} (registry : Registry α) (key : Identifier) : Except SelectionError α :=
  match registry.get? key with
  | some (_, value) => .ok value
  | none => .error (.missingKey key)

/-- The loop over the agents of the team. -/
def candidates (b : ConfigBundle) :
    List Identifier → Except SelectionError (List DeveloperSelection)
  | [] => .ok []
  | agentId :: rest => do
    let agent ← item b.agents agentId
    let profile ← item b.permissions agent.permissionProfile
    let others ← b.candidates rest
    return if eligible agent profile.capabilities then ⟨agentId, agent⟩ :: others else others

def selectDeveloper (repr : String → String) (b : ConfigBundle) (task : Task) :
    Except SelectionError DeveloperSelection :=
  match b.teams.get? task.team with
  | none => .error (.developerSelection s!"task team {repr task.team.val} is not a product team")
  | some (_, team) =>
    if team.type ≠ .product then
      .error (.developerSelection s!"task team {repr task.team.val} is not a product team")
    else match b.projects.get? task.project with
    | none => .error (.developerSelection "task project and product team are not reciprocal")
    | some (_, project) =>
      if project.team ≠ task.team ∨ team.project ≠ some task.project then
        .error (.developerSelection "task project and product team are not reciprocal")
      else do
        match ← b.candidates (team.agents.insertionSort fun x y => x.val ≤ y.val) with
        | [] => .error (.developerSelection (s!"team {repr task.team.val} has no enabled Codex " ++
            "Developer with required capabilities"))
        | [candidate] => .ok candidate
        | candidates =>
          let identifiers := ", ".intercalate (candidates.map fun c => c.agentId.val)
          .error (.developerSelection
            s!"Phase 1 requires exactly one eligible Developer, found: {identifiers}")

/-! ## What is required of the developer -/

/-- The team of the task is a product team, and it and the project of the task name each other. -/
def Reciprocal (b : ConfigBundle) (task : Task) : Prop :=
  ∃ team project, (task.team, team) ∈ b.teams ∧ (task.project, project) ∈ b.projects ∧
    team.type = .product ∧ project.team = task.team ∧ team.project = some task.project

/-- The agent may do the task. -/
structure CanDevelop (b : ConfigBundle) (task : Task) (agent : AgentDefinition) : Prop where
  team : agent.team = task.team
  enabled : agent.enabled = true
  role : agent.role.val = "developer"
  runtime : agent.runtime = .codex
  policy : agent.workingDirectoryPolicy = .projectWorkspace
  capabilities : ∃ profile, (agent.permissionProfile, profile) ∈ b.permissions ∧
    (∀ c ∈ requiredCapabilities, c ∈ profile.capabilities) ∧
    ∀ c ∈ prohibitedCapabilities, c ∉ profile.capabilities

/-- The same registries, with their entries in another order. -/
structure SameEntries (b b' : ConfigBundle) : Prop where
  agents : b.agents.rows.Perm b'.agents.rows
  teams : b.teams.rows.Perm b'.teams.rows
  projects : b.projects.rows.Perm b'.projects.rows
  permissions : b.permissions.rows.Perm b'.permissions.rows

variable {repr : String → String} {b : ConfigBundle} {task : Task}

theorem eligible_iff {agent : AgentDefinition} {capabilities : List Capability} :
    eligible agent capabilities = true ↔ agent.enabled = true ∧ agent.role.val = "developer" ∧
      agent.runtime = .codex ∧ agent.workingDirectoryPolicy = .projectWorkspace ∧
      (∀ c ∈ requiredCapabilities, c ∈ capabilities) ∧
      ∀ c ∈ prohibitedCapabilities, c ∉ capabilities := by
  simp [eligible, and_assoc]

/-! ## Look-ups -/

theorem get?_of_entry {α : Type} {registry : Registry α} {key : Identifier} {value : α}
    (h : (key, value) ∈ registry) : registry.get? key = some (key, value) :=
  Table.get?_of_mem h

theorem entry_of_get? {α : Type} {registry : Registry α} {key : Identifier}
    {entry : Identifier × α} (h : registry.get? key = some entry) :
    (key, entry.2) ∈ registry := by
  obtain ⟨hmem, hkey⟩ := Table.get?_eq_some.1 h
  rwa [← hkey]

theorem entry_unique {α : Type} {registry : Registry α} {key : Identifier} {value value' : α}
    (h : (key, value) ∈ registry) (h' : (key, value') ∈ registry) : value = value' :=
  congrArg Prod.snd (Table.eq_of_key_eq h h' rfl)

theorem item_of_entry {α : Type} {registry : Registry α} {key : Identifier} {value : α}
    (h : (key, value) ∈ registry) : item registry key = .ok value := by
  rw [item, get?_of_entry h]

/-- The order of the entries does not matter to a look-up. -/
theorem get?_perm {α : Type} {registry registry' : Registry α}
    (h : registry.rows.Perm registry'.rows) (key : Identifier) :
    registry.get? key = registry'.get? key := by
  cases hget : registry'.get? key with
  | none =>
    rw [Table.get?_eq_none] at hget ⊢
    exact fun entry hentry => hget entry (h.mem_iff.1 hentry)
  | some entry =>
    rw [Table.get?_eq_some] at hget ⊢
    exact ⟨h.mem_iff.2 hget.1, hget.2⟩

theorem candidates_perm {b' : ConfigBundle} (h : b.SameEntries b') (ids : List Identifier) :
    b.candidates ids = b'.candidates ids := by
  induction ids with
  | nil => rfl
  | cons id ids ih =>
    unfold candidates item
    simp only [get?_perm h.agents, get?_perm h.permissions, ih]

theorem selectDeveloper_perm {b' : ConfigBundle} (h : b.SameEntries b') :
    b.selectDeveloper repr task = b'.selectDeveloper repr task := by
  unfold selectDeveloper
  simp only [get?_perm h.teams, get?_perm h.projects, candidates_perm h]

/-! ## An accepted bundle -/

/-- What the look-ups use: an agent is listed by its team and has a profile, and an agent that is
listed says so. -/
structure Linked (b : ConfigBundle) : Prop where
  listed : ∀ id agent, (id, agent) ∈ b.agents →
    ∃ team, (agent.team, team) ∈ b.teams ∧ id ∈ team.agents
  profiled : ∀ id agent, (id, agent) ∈ b.agents →
    ∃ profile, (agent.permissionProfile, profile) ∈ b.permissions
  member : ∀ id team, (id, team) ∈ b.teams → ∀ agentId ∈ team.agents,
    ∃ agent, (agentId, agent) ∈ b.agents ∧ agent.team = id

theorem agentErrors_eq_nil {id : Identifier} {agent : AgentDefinition}
    (h : b.agentErrors repr id agent = []) :
    (∃ team, (agent.team, team) ∈ b.teams ∧ id ∈ team.agents) ∧
      ∃ profile, (agent.permissionProfile, profile) ∈ b.permissions := by
  obtain ⟨hteam, hprofile⟩ := List.append_eq_nil_iff.1 h
  constructor
  · cases hget : b.teams.get? agent.team with
    | none => simp [hget] at hteam
    | some entry =>
      obtain ⟨teamId, team⟩ := entry
      refine ⟨team, entry_of_get? hget, ?_⟩
      by_contra hmem
      simp [hget, hmem] at hteam
  · by_cases hmem : agent.permissionProfile ∈ b.permissionProfiles
    · obtain ⟨entry, hentry, hkey⟩ := List.mem_map.1 hmem
      exact ⟨entry.2, hkey ▸ hentry⟩
    · simp [hmem] at hprofile

theorem memberErrors_eq_nil {id agentId : Identifier}
    (h : b.memberErrors repr id agentId = []) :
    ∃ agent, (agentId, agent) ∈ b.agents ∧ agent.team = id := by
  unfold memberErrors at h
  cases hget : b.agents.get? agentId with
  | none => simp [hget] at h
  | some entry =>
    obtain ⟨_, agent⟩ := entry
    refine ⟨agent, entry_of_get? hget, ?_⟩
    by_contra hne
    simp [hget, hne] at h

theorem relationships_ok (h : b.validateRelationships repr = .ok ()) : b.Linked := by
  unfold validateRelationships at h
  dsimp only at h
  split_ifs at h with herrors
  simp only [List.append_eq_nil_iff, List.flatMap_eq_nil_iff] at herrors
  obtain ⟨⟨⟨hagents, hteams⟩, _⟩, _⟩ := herrors
  exact {
    listed := fun id agent hmem => (agentErrors_eq_nil (hagents (id, agent) hmem)).1
    profiled := fun id agent hmem => (agentErrors_eq_nil (hagents (id, agent) hmem)).2
    member := by
      intro id team hmem agentId hagent
      have hteam := (List.append_eq_nil_iff.1 (hteams (id, team) hmem)).1
      exact memberErrors_eq_nil (List.flatMap_eq_nil_iff.1 hteam agentId hagent) }

/-! ## The loop -/

/-- The candidates of agents that are found are those of them that are eligible, in their order. -/
theorem candidates_eq (hb : b.Linked) {ids : List Identifier}
    (hids : ∀ id ∈ ids, ∃ agent, (id, agent) ∈ b.agents) (hnodup : ids.Nodup) :
    ∃ found, b.candidates ids = .ok found ∧ found.Nodup ∧ ∀ id agent,
      ⟨id, agent⟩ ∈ found ↔ id ∈ ids ∧ (id, agent) ∈ b.agents ∧
        ∃ profile, (agent.permissionProfile, profile) ∈ b.permissions ∧
          eligible agent profile.capabilities = true := by
  induction ids with
  | nil => exact ⟨[], rfl, List.nodup_nil, by simp⟩
  | cons id ids ih =>
    obtain ⟨hnew, hnodup⟩ := List.nodup_cons.1 hnodup
    obtain ⟨others, hothers, hdistinct, hmem⟩ :=
      ih (fun id hid => hids id (List.mem_cons_of_mem _ hid)) hnodup
    obtain ⟨agent, hagent⟩ := hids id List.mem_cons_self
    obtain ⟨profile, hprofile⟩ := hb.profiled id agent hagent
    refine ⟨if eligible agent profile.capabilities then ⟨id, agent⟩ :: others else others, ?_, ?_,
      ?_⟩
    · rw [candidates, item_of_entry hagent, hothers]
      simp only [bind, Except.bind, item_of_entry hprofile]
      rfl
    · have hfresh : (⟨id, agent⟩ : DeveloperSelection) ∉ others :=
        fun h => hnew ((hmem id agent).1 h).1
      split_ifs
      · exact List.nodup_cons.2 ⟨hfresh, hdistinct⟩
      · exact hdistinct
    · intro id' agent'
      have hthis : (id', agent') ∈ b.agents → id' = id → agent' = agent := by
        intro hmem heq
        subst heq
        exact entry_unique hmem hagent
      split_ifs with heligible
      · rw [List.mem_cons, hmem, List.mem_cons, or_and_right]
        refine or_congr_left ⟨fun heq => ?_, fun h => ?_⟩
        · cases heq
          exact ⟨rfl, hagent, profile, hprofile, heligible⟩
        · obtain ⟨rfl, hmem', _⟩ := h
          rw [hthis hmem' rfl]
      · rw [hmem, List.mem_cons, or_and_right]
        refine (or_iff_right ?_).symm
        intro h
        obtain ⟨rfl, hmem', profile', hprofile', heligible'⟩ := h
        cases hthis hmem' rfl
        cases entry_unique hprofile hprofile'
        exact heligible heligible'

theorem eq_singleton_iff {α : Type} {l : List α} (h : l.Nodup) {a : α} :
    l = [a] ↔ a ∈ l ∧ ∀ x ∈ l, x = a := by
  constructor
  · intro hl
    subst hl
    simp
  · intro hl
    obtain ⟨ha, hall⟩ := hl
    refine List.perm_singleton.1 ((List.perm_ext_iff_of_nodup h (List.nodup_singleton a)).2 ?_)
    intro x
    rw [List.mem_singleton]
    exact ⟨hall x, fun hx => hx ▸ ha⟩

/-! ## Who is selected -/

/-- An agent of an accepted bundle that may do the task is listed by the team of the task. -/
theorem listed_of_canDevelop (hb : b.Linked) {id : Identifier} {agent : AgentDefinition}
    {team : TeamDefinition} (hteam : (task.team, team) ∈ b.teams) (hagent : (id, agent) ∈ b.agents)
    (hcan : b.CanDevelop task agent) : id ∈ team.agents := by
  obtain ⟨team', hteam', hlisted⟩ := hb.listed id agent hagent
  rw [hcan.team] at hteam'
  rwa [entry_unique hteam hteam']

/-- The candidates among the agents of the team are the agents of the bundle that may do the
task. -/
theorem candidates_team (hb : b.Linked) {team : TeamDefinition}
    (hteam : (task.team, team) ∈ b.teams) :
    ∃ found, b.candidates (team.agents.insertionSort fun x y => x.val ≤ y.val) = .ok found ∧
      found.Nodup ∧ ∀ id agent, ⟨id, agent⟩ ∈ found ↔
        (id, agent) ∈ b.agents ∧ b.CanDevelop task agent := by
  have hperm := List.perm_insertionSort (fun x y : Identifier => x.val ≤ y.val) team.agents
  have hfound : ∀ id ∈ team.agents.insertionSort fun x y => x.val ≤ y.val,
      ∃ agent, (id, agent) ∈ b.agents := by
    intro id hid
    obtain ⟨agent, hagent, _⟩ := hb.member _ team hteam id (hperm.mem_iff.1 hid)
    exact ⟨agent, hagent⟩
  obtain ⟨found, hcandidates, hdistinct, hmem⟩ :=
    candidates_eq hb hfound (hperm.nodup_iff.2 team.uniqueAgents)
  refine ⟨found, hcandidates, hdistinct, fun id agent => ?_⟩
  rw [hmem, hperm.mem_iff]
  constructor
  · intro h
    obtain ⟨hlisted, hagent, profile, hprofile, heligible⟩ := h
    obtain ⟨henabled, hrole, hruntime, hpolicy, hcapabilities⟩ := eligible_iff.1 heligible
    obtain ⟨agent', hagent', hbelongs⟩ := hb.member _ team hteam id hlisted
    cases entry_unique hagent hagent'
    exact ⟨hagent, hbelongs, henabled, hrole, hruntime, hpolicy, profile, hprofile, hcapabilities⟩
  · intro h
    obtain ⟨hagent, hcan⟩ := h
    obtain ⟨profile, hprofile, hcapabilities⟩ := hcan.capabilities
    exact ⟨listed_of_canDevelop hb hteam hagent hcan, hagent, profile, hprofile, eligible_iff.2
      ⟨hcan.enabled, hcan.role, hcan.runtime, hcan.policy, hcapabilities⟩⟩

/-- The developer of the task: the only agent that may do it. -/
def IsDeveloper (b : ConfigBundle) (task : Task) (selection : DeveloperSelection) : Prop :=
  b.Reciprocal task ∧ (selection.agentId, selection.definition) ∈ b.agents ∧
    b.CanDevelop task selection.definition ∧
    ∀ other ∈ b.agents, b.CanDevelop task other.2 → other.1 = selection.agentId

theorem isDeveloper_iff (hreciprocal : b.Reciprocal task) {found : List DeveloperSelection}
    (hdistinct : found.Nodup) (hmem : ∀ id agent, ⟨id, agent⟩ ∈ found ↔
      (id, agent) ∈ b.agents ∧ b.CanDevelop task agent) (selection : DeveloperSelection) :
    b.IsDeveloper task selection ↔ found = [selection] := by
  rw [eq_singleton_iff hdistinct]
  constructor
  · intro h
    obtain ⟨_, hagent, hcan, honly⟩ := h
    refine ⟨(hmem _ _).2 ⟨hagent, hcan⟩, fun other hother => ?_⟩
    obtain ⟨hagent', hcan'⟩ := (hmem _ _).1 hother
    obtain ⟨otherId, other⟩ := other
    obtain ⟨id, definition⟩ := selection
    cases honly _ hagent' hcan'
    exact congrArg _ (entry_unique hagent' hagent)
  · intro h
    obtain ⟨hselected, honly⟩ := h
    obtain ⟨hagent, hcan⟩ := (hmem _ _).1 hselected
    refine ⟨hreciprocal, hagent, hcan, fun other hother hcan' => ?_⟩
    exact congrArg DeveloperSelection.agentId
      (honly ⟨other.1, other.2⟩ ((hmem _ _).2 ⟨hother, hcan'⟩))

theorem error_ne_ok {ε α : Type} (e : ε) (a : α) : Except.error e ≠ Except.ok a := by
  intro h
  cases h

theorem selectDeveloper_linked (hb : b.Linked) :
    (∀ selection, b.selectDeveloper repr task = .ok selection ↔ b.IsDeveloper task selection) ∧
      ((∃ selection, b.selectDeveloper repr task = .ok selection) ∨
        ∃ message, b.selectDeveloper repr task = .error (.developerSelection message)) := by
  unfold selectDeveloper
  -- what the team and the project of the task have to be
  have hreciprocal : ∀ {selection}, b.IsDeveloper task selection → ∃ team project,
      b.teams.get? task.team = some (task.team, team) ∧
      b.projects.get? task.project = some (task.project, project) ∧ team.type = .product ∧
      project.team = task.team ∧ team.project = some task.project := by
    intro selection h
    obtain ⟨⟨team, project, hteam, hproject, hrest⟩, _⟩ := h
    exact ⟨team, project, get?_of_entry hteam, get?_of_entry hproject, hrest⟩
  cases hteam : b.teams.get? task.team with
  | none =>
    refine ⟨fun selection => iff_of_false (error_ne_ok _ _) fun h => ?_, .inr ⟨_, rfl⟩⟩
    obtain ⟨team, project, hget, _⟩ := hreciprocal h
    rw [hteam] at hget
    cases hget
  | some entry =>
    obtain ⟨teamId, team⟩ := entry
    dsimp only
    have hsame : ∀ {team'}, some (teamId, team) = some (task.team, team') → team = team' := by
      intro team' h
      cases h
      rfl
    split_ifs with htype
    · refine ⟨fun selection => iff_of_false not_false fun h => ?_, .inr ⟨_, rfl⟩⟩
      obtain ⟨team', project, hget, _, htype', _⟩ := hreciprocal h
      rw [hsame (hteam.symm.trans hget)] at htype
      exact htype htype'
    · have hentry := entry_of_get? hteam
      cases hproject : b.projects.get? task.project with
      | none =>
        refine ⟨fun selection => iff_of_false (error_ne_ok _ _) fun h => ?_, .inr ⟨_, rfl⟩⟩
        obtain ⟨_, project, _, hget, _⟩ := hreciprocal h
        rw [hproject] at hget
        cases hget
      | some entry =>
        obtain ⟨projectId, project⟩ := entry
        dsimp only
        split_ifs with hnames
        · refine ⟨fun selection => iff_of_false not_false fun h => ?_, .inr ⟨_, rfl⟩⟩
          obtain ⟨team', project', hget, hget', _, howner, howned⟩ := hreciprocal h
          rw [hsame (hteam.symm.trans hget)] at hnames
          cases hproject.symm.trans hget'
          exact hnames.elim (absurd howner) (absurd howned)
        · simp only [not_or, not_not] at hnames htype
          obtain ⟨found, hcandidates, hdistinct, hmem⟩ := candidates_team hb hentry
          have hdeveloper : ∀ selection, b.IsDeveloper task selection ↔ found = [selection] :=
            isDeveloper_iff ⟨team, project, hentry, entry_of_get? hproject, htype, hnames⟩
              hdistinct hmem
          simp only [hcandidates, hdeveloper, bind, Except.bind]
          cases found with
          | nil =>
            exact ⟨fun _ => iff_of_false (error_ne_ok _ _) (List.cons_ne_nil _ _).symm,
              .inr ⟨_, rfl⟩⟩
          | cons candidate found =>
            cases found with
            | nil =>
              refine ⟨fun selection => ?_, .inl ⟨candidate, rfl⟩⟩
              rw [Except.ok.injEq, List.cons.injEq, and_iff_left rfl]
            | cons candidate' found =>
              refine ⟨fun _ => iff_of_false (error_ne_ok _ _) fun h => ?_, .inr ⟨_, rfl⟩⟩
              exact List.cons_ne_nil _ _ (List.cons.inj h).2

/-- In an accepted bundle the only agent that may do the task is selected, whatever the order of
the registries; if there is no such agent, that is the error. -/
theorem developer_selected (repr : String → String) (b : ConfigBundle) (task : Task)
    (h : b.validateRelationships repr = .ok ()) :
    (∀ selection, b.selectDeveloper repr task = .ok selection ↔ b.IsDeveloper task selection) ∧
      ((¬ ∃ selection, b.IsDeveloper task selection) →
        ∃ message, b.selectDeveloper repr task = .error (.developerSelection message)) ∧
      ∀ b' : ConfigBundle, b.SameEntries b' →
        b'.selectDeveloper repr task = b.selectDeveloper repr task := by
  obtain ⟨hselected, houtcome⟩ := selectDeveloper_linked (relationships_ok h)
  refine ⟨hselected, fun hnone => ?_, fun b' hsame => (selectDeveloper_perm hsame).symm⟩
  refine houtcome.resolve_left fun hsome => ?_
  obtain ⟨selection, hselection⟩ := hsome
  exact hnone ⟨selection, (hselected selection).1 hselection⟩

/-! ## In the orchestrator -/

/-- What the orchestrator sees of the selection. -/
def selection (repr : String → String) (b : ConfigBundle) (task : Task) : Selection :=
  match b.selectDeveloper repr task with
  | .ok developer => .developer ⟨developer.agentId, developer.definition.runtime.value⟩
  | .error (.developerSelection _) => .selectionError
  | .error (.missingKey _) => .raises

/-- With an accepted bundle the orchestrator goes on with a developer or fails the task. -/
theorem selection_ne_raises (h : b.validateRelationships repr = .ok ()) :
    b.selection repr task ≠ .raises := by
  unfold selection
  rcases (selectDeveloper_linked (relationships_ok h)).2 with ⟨developer, hselect⟩ | ⟨_, hselect⟩
  · rw [hselect]
    intro h
    cases h
  · rw [hselect]
    intro h
    cases h

end ConfigBundle

namespace Sample

def shopTask : Task := ⟨{
  taskId := ⟨"TASK-3001", by decide⟩, source := shop, project := shop, team := shop,
  request := ⟨"Implement the approved test change.", by decide⟩,
  createdAt := ⟨0, 0⟩ }, by decide⟩

theorem shopTask_developer : besides.IsDeveloper shopTask ⟨shop, agent shop⟩ := by
  refine ⟨⟨team shop, _, List.mem_cons_self, List.mem_cons_self, rfl, rfl, rfl⟩,
    List.mem_cons_self, ⟨rfl, rfl, by decide, rfl, rfl, profile, List.mem_cons_self, by decide,
    by decide⟩, ?_⟩
  intro other hother hcan
  rcases List.mem_cons.1 hother with rfl | hother
  · rfl
  · -- the other agent is in the other team
    obtain rfl := List.mem_singleton.1 hother
    exact absurd hcan.team (by decide)

end Sample

theorem developer_selected_sample : Sample.besides.selectDeveloper id Sample.shopTask =
    .ok ⟨Sample.shop, Sample.agent Sample.shop⟩ :=
  ((ConfigBundle.developer_selected id Sample.besides Sample.shopTask (by decide +kernel)).1 _).2
    Sample.shopTask_developer

end AIHub.Config
