import AIHub.Locks.FileLock
import AIHub.Projects.Manager
import Mathlib.Data.List.Chain

/-!
# Branch names

The branch of a task is named after its id and a slug of its description.

**The slug.** The description is cut into runs of letters and digits, joined by single dashes, and
bounded so that the name has at most 120 characters. The bound may cut a run, or leave a dash at the
end, which is dropped. `branchSlug_valid`: what remains are runs joined by single dashes.

**Task ids.** The domain accepts ids of up to 69 characters, the lock files of up to 128, and the
branch names of up to 64. So `branch_named_iff`: the name of a task's branch is as it should be
exactly for the ids of up to 64 characters.

**Different tasks.** Ids and slugs may both have dashes in them, so the dash between them can be
read in more than one place: `branchNames_eq_iff`.
-/

namespace AIHub

/-! ## Slugs -/

def isSlugChar (c : Char) : Bool := Text.isLower c || Text.isDigit c

/-- `[a-z0-9]+(-[a-z0-9]+)*`. -/
def slugPattern : List Char → Bool
  | [] => false
  | c :: cs => isSlugChar c && identifierTail cs

/-- The slug in the name of a branch. -/
def branchSlug (nfkdAscii : String → String) (taskId description : String) : List Char :=
  let isDash := (· == '-')
  let runs := dashRuns false (Text.lower (nfkdAscii description)).toList
  let slug := orTask ((runs.dropWhile isDash).rdropWhile isDash)
  orTask ((slug.take (max 1 (120 - "agent/".length - taskId.length - 1))).rdropWhile isDash)

theorem taskBranchName_eq {nfkdAscii : String → String} {taskId description : String}
    (h : branchTaskIdPattern taskId.toList = true) :
    taskBranchName nfkdAscii taskId description = .ok
      s!"agent/{taskId}-{String.ofList (branchSlug nfkdAscii taskId description)}" := by
  rw [taskBranchName, if_pos h]
  rfl

/-- Runs of letters and digits with single dashes between them, and perhaps one at the end. -/
structure SlugStart (cs : List Char) : Prop where
  chars : ∀ c ∈ cs, isSlugChar c = true ∨ c = '-'
  single : cs.IsChain fun a b => ¬ (a = '-' ∧ b = '-')
  head : cs.head? ≠ some '-'

theorem SlugStart.shorter {cs ds : List Char} (h : SlugStart cs) (hds : ds <+: cs) :
    SlugStart ds where
  chars c hc := h.chars c (hds.subset hc)
  single := List.IsChain.infix h.single hds.isInfix
  head := by
    obtain ⟨rest, rfl⟩ := hds
    cases ds with
    | nil => simp
    | cons d ds => exact h.head

theorem SlugStart.task : SlugStart "task".toList where
  chars c hc := by
    have hall : ("task".toList.all fun c => isSlugChar c || c == '-') = true := by decide
    simpa using List.all_eq_true.1 hall c hc
  single := by decide
  head := by decide

theorem SlugStart.orTask {cs : List Char} (h : SlugStart cs) : SlugStart (orTask cs) := by
  unfold AIHub.orTask
  split_ifs
  · exact .task
  · exact h

theorem dashRuns_chars (cs : List Char) (inRun : Bool) :
    ∀ c ∈ dashRuns inRun cs, isSlugChar c = true ∨ c = '-' := by
  induction cs generalizing inRun with
  | nil => simp [dashRuns]
  | cons c cs ih =>
    unfold dashRuns
    split_ifs with hc hrun
    · exact List.forall_mem_cons.2 ⟨.inl hc, ih false⟩
    · exact ih true
    · exact List.forall_mem_cons.2 ⟨.inr rfl, ih true⟩

/-- No two dashes follow each other, and none follows the dash of a run. -/
theorem dashRuns_single (cs : List Char) (inRun : Bool) :
    (dashRuns inRun cs).IsChain (fun a b => ¬ (a = '-' ∧ b = '-')) ∧
      (inRun = true → (dashRuns inRun cs).head? ≠ some '-') := by
  induction cs generalizing inRun with
  | nil => simp [dashRuns]
  | cons c cs ih =>
    unfold dashRuns
    split_ifs with hc hrun
    · have hne : c ≠ '-' := by
        rintro rfl
        exact absurd hc (by decide)
      refine ⟨List.isChain_cons.2 ⟨fun d _ h => hne h.1, (ih false).1⟩, fun _ h => hne ?_⟩
      simpa using h
    · exact ⟨(ih true).1, fun _ => (ih true).2 rfl⟩
    · refine ⟨List.isChain_cons.2 ⟨fun d hd h => ?_, (ih true).1⟩, fun h => absurd h hrun⟩
      exact (ih true).2 rfl (h.2 ▸ hd)

theorem SlugStart.runs (cs : List Char) : SlugStart ((dashRuns false cs).dropWhile (· == '-')) where
  chars c hc := dashRuns_chars cs false c ((List.dropWhile_suffix _).subset hc)
  single := List.IsChain.infix (dashRuns_single cs false).1 (List.dropWhile_suffix _).isInfix
  head h := by
    have hfirst := List.head?_dropWhile_not (· == '-') (dashRuns false cs)
    rw [h] at hfirst
    exact absurd hfirst (by decide)

theorem identifierTail_of_runs {cs : List Char} (h : ∀ c ∈ cs, isSlugChar c = true ∨ c = '-')
    (hsingle : cs.IsChain fun a b => ¬ (a = '-' ∧ b = '-')) (hlast : cs.getLast? ≠ some '-') :
    identifierTail cs = true := by
  induction cs using identifierTail.induct with
  | case1 => rfl
  | case2 => exact absurd rfl hlast
  | case3 c cs ih =>
    obtain ⟨hdash, hsingle⟩ := List.isChain_cons_cons.1 hsingle
    have hc : c ≠ '-' := fun hc => hdash ⟨rfl, hc⟩
    rw [identifierTail, Bool.and_eq_true]
    refine ⟨(h c (by simp)).resolve_right hc, ih (fun d hd => h d (by simp [hd])) hsingle.tail ?_⟩
    cases cs with
    | nil => simp
    | cons d ds => simpa using hlast
  | case4 c cs h₁ h₂ ih =>
    have hc : c ≠ '-' := by
      rintro rfl
      cases cs with
      | nil => exact h₁ rfl rfl
      | cons d ds => exact h₂ d ds rfl rfl
    rw [identifierTail.eq_4 c cs h₁ h₂, Bool.and_eq_true]
    refine ⟨(h c (by simp)).resolve_right hc, ih (fun d hd => h d (by simp [hd])) hsingle.tail ?_⟩
    cases cs with
    | nil => simp
    | cons d ds => simpa using hlast

/-- The first cut of the slug, before it is shortened. -/
theorem SlugStart.firstCut (cs : List Char) :
    SlugStart (AIHub.orTask (((dashRuns false cs).dropWhile (· == '-')).rdropWhile (· == '-'))) :=
  ((SlugStart.runs cs).shorter (List.rdropWhile_prefix _ _)).orTask

/-- The slug is runs of letters and digits joined by single dashes. -/
theorem branchSlug_valid (nfkdAscii : String → String) (taskId description : String) :
    slugPattern (branchSlug nfkdAscii taskId description) = true := by
  unfold branchSlug
  dsimp only
  generalize hcut : List.take _ _ = cut
  have hstart : SlugStart (cut.rdropWhile (· == '-')) := by
    rw [← hcut]
    exact ((SlugStart.firstCut _).shorter (List.take_prefix _ _)).shorter
      (List.rdropWhile_prefix _ _)
  unfold orTask
  split_ifs with hnil
  · decide
  · have hlast : (cut.rdropWhile (· == '-')).getLast? ≠ some '-' := by
      rw [List.getLast?_eq_some_getLast hnil]
      have hnot := List.rdropWhile_last_not (· == '-') cut hnil
      simpa using hnot
    cases hslug : cut.rdropWhile (· == '-') with
    | nil => exact absurd hslug hnil
    | cons c cs =>
      rw [hslug] at hstart hlast
      have hc : c ≠ '-' := fun hc => hstart.head (hc ▸ rfl)
      rw [slugPattern, Bool.and_eq_true]
      refine ⟨(hstart.chars c (by simp)).resolve_right hc,
        identifierTail_of_runs (fun d hd => hstart.chars d (by simp [hd])) hstart.single.tail ?_⟩
      cases cs with
      | nil => simp
      | cons d ds => simpa using hlast

/-- The slug fits into what the bound leaves for it, or is `task`. -/
theorem branchSlug_length (nfkdAscii : String → String) (taskId description : String) :
    (branchSlug nfkdAscii taskId description).length ≤ max 4 (113 - taskId.length) := by
  unfold branchSlug
  dsimp only
  generalize hcut : List.take _ _ = cut
  have hprefix : "agent/".length = 6 := rfl
  have hlength : (cut.rdropWhile (· == '-')).length ≤ max 1 (113 - taskId.length) := by
    refine (List.rdropWhile_prefix _ _).length_le.trans ?_
    rw [← hcut]
    refine (List.length_take_le _ _).trans ?_
    omega
  unfold orTask
  split_ifs
  · exact Nat.le_max_left _ _
  · omega

/-! ## Names that Git accepts -/

def isRefChar (c : Char) : Bool :=
  0x20 < c.toNat && c.toNat != 0x7f && !"~^:?*[\\".toList.contains c

/-- `git check-ref-format --branch`. -/
def checkRefFormat (name : List Char) : Bool :=
  (name.splitOn '/').all (fun part =>
      part ≠ [] && part.head? ≠ some '.' && !".lock".toList.isSuffixOf part) &&
    name.all isRefChar && !Text.contains "..".toList name && !Text.contains "@\x7b".toList name &&
    name.getLast? ≠ some '.' && name.head? ≠ some '-' && name ≠ ['@'] && name ≠ "HEAD".toList

/-- The characters of the ids and slugs in names of branches. -/
def isBranchChar (c : Char) : Bool := Text.isAlnum c || c == '-'

theorem branchChar_range {c : Char} (h : isBranchChar c = true) :
    0x2d ≤ c.toNat ∧ c.toNat ≤ 0x7a := by
  simp only [isBranchChar, Text.isAlnum, Text.isDigit, Text.isLower, Text.isUpper, Text.inRange,
    Bool.or_eq_true, Bool.and_eq_true, decide_eq_true_eq, beq_iff_eq, Char.reduceToNat] at h
  rcases h with ((hdigit | hlower) | hupper) | rfl
  · omega
  · omega
  · omega
  · decide

theorem isRefChar_of_branchChar {c : Char} (h : isBranchChar c = true) : isRefChar c = true := by
  have hrange := branchChar_range h
  have hlisted : "~^:?*[\\".toList.contains c = false := by
    have hnone : "~^:?*[\\".toList.all (fun d => !isBranchChar d) = true := by decide
    refine Bool.eq_false_iff.2 fun hmem => ?_
    rw [List.contains_iff_mem] at hmem
    have hc := List.all_eq_true.1 hnone c hmem
    rw [h] at hc
    cases hc
  rw [isRefChar, hlisted]
  simp only [Bool.and_eq_true, decide_eq_true_eq, bne_iff_ne, Bool.not_false, and_true]
  omega

/-- Nothing is found of a text with a character that the name does not have. -/
theorem contains_eq_false {part name : List Char} {c : Char} (hc : c ∈ part) (hname : c ∉ name) :
    Text.contains part name = false :=
  Bool.eq_false_iff.2 fun h => hname ((Text.contains_iff.1 h).subset hc)

theorem checkRefFormat_agent {rest : List Char} (hne : rest ≠ [])
    (h : ∀ c ∈ rest, isBranchChar c = true) : checkRefFormat ("agent/".toList ++ rest) = true := by
  have hdot : '.' ∉ rest := fun hmem => absurd (h _ hmem) (by decide)
  have hat : '@' ∉ rest := fun hmem => absurd (h _ hmem) (by decide)
  have hslash : '/' ∉ rest := fun hmem => absurd (h _ hmem) (by decide)
  have hdots : Text.contains "..".toList ("agent/".toList ++ rest) = false :=
    contains_eq_false (c := '.') (by decide) (by simp [hdot])
  have hbrace : Text.contains "@\x7b".toList ("agent/".toList ++ rest) = false :=
    contains_eq_false (c := '@') (by decide) (by simp [hat])
  have hchars : ("agent/".toList ++ rest).all isRefChar = true := by
    rw [List.all_append, Bool.and_eq_true, List.all_eq_true (l := rest)]
    exact ⟨by decide, fun c hc => isRefChar_of_branchChar (h c hc)⟩
  have hsplit : ("agent/".toList ++ rest).splitOn '/' = ["agent".toList, rest] := by
    have hparts : (['/'].intercalate ["agent".toList, rest]).splitOn '/' =
        ["agent".toList, rest] := List.splitOn_intercalate '/' (by simp [hslash]) (by simp)
    simpa [List.intercalate] using hparts
  have hhead : rest.head? ≠ some '.' := fun hfirst => hdot (List.mem_of_mem_head? hfirst)
  have hlock : ".lock".toList.isSuffixOf rest = false := by
    refine Bool.eq_false_iff.2 fun hsuffix => hdot ?_
    exact (List.isSuffixOf_iff_suffix.1 hsuffix).subset (by decide)
  have hparts : (["agent".toList, rest].all fun part =>
      part ≠ [] && part.head? ≠ some '.' && !".lock".toList.isSuffixOf part) = true := by
    rw [List.all_cons, List.all_cons, List.all_nil, hlock]
    simp only [hne, hhead, ne_eq, not_false_eq_true, decide_true, Bool.not_false, Bool.and_true]
    decide
  have hlast : ("agent/".toList ++ rest).getLast? ≠ some '.' := by
    rw [List.getLast?_append_of_ne_nil _ hne]
    exact fun hend => hdot (List.mem_of_getLast? hend)
  unfold checkRefFormat
  rw [hsplit, hparts, hchars, hdots, hbrace]
  simp only [hlast, ne_eq, not_false_eq_true, decide_true, Bool.not_false, Bool.and_true]
  rfl

/-! ## Ids of the domain -/

theorem slugPattern_chars {cs : List Char} (h : slugPattern cs = true) :
    cs ≠ [] ∧ ∀ c ∈ cs, isBranchChar c = true := by
  cases cs with
  | nil => cases h
  | cons c cs =>
    rw [slugPattern, Bool.and_eq_true] at h
    have hname : ∀ d, isNameChar d = true → isBranchChar d = true := by
      intro d hd
      simp only [isNameChar, Bool.or_eq_true] at hd
      simp only [isBranchChar, Text.isAlnum, Bool.or_eq_true]
      tauto
    refine ⟨List.cons_ne_nil _ _, List.forall_mem_cons.2 ⟨?_, fun d hd => ?_⟩⟩
    · apply hname
      rw [isNameChar, Bool.or_eq_true]
      exact .inl h.1
    · exact hname d (identifierTail_chars h.2 d hd)

theorem TaskId.branchChars (id : TaskId) : ∀ c ∈ id.val.toList, isBranchChar c = true := by
  intro c hc
  have hchar := id.chars c hc
  simp only [isIdChar, Bool.or_eq_true] at hchar
  simp only [isBranchChar, Text.isAlnum, Bool.or_eq_true]
  tauto

/-- The pattern of an id in names of branches and in lock files, but for the bound. -/
theorem TaskId.headThen (id : TaskId) :
    Text.headThen Text.isAlnum (fun c => Text.isAlnum c || c == '.' || c == '_' || c == '-')
      id.val.toList = true := by
  have h := id.ok
  simp only [StringConstraints.accepts, decide_eq_true_eq] at h
  have hpattern := h.2.2.2
  rw [upperIdPattern, Bool.and_eq_true, List.isPrefixOf_iff_prefix] at hpattern
  obtain ⟨rest, hrest⟩ := hpattern.1
  have hall := id.branchChars
  rw [← hrest] at hall ⊢
  have hfirst : Text.isAlnum 'T' = true := by decide
  refine Bool.and_eq_true_iff.2 ⟨hfirst, List.all_eq_true.2 fun c hc => ?_⟩
  have hchar := hall c (List.mem_cons_of_mem _ hc)
  simp only [isBranchChar, Bool.or_eq_true] at hchar ⊢
  tauto

theorem TaskId.length_le (id : TaskId) : id.val.toList.length ≤ 69 := by
  have h := id.ok
  simp only [StringConstraints.accepts, decide_eq_true_eq] at h
  exact h.2.2.1

theorem TaskId.branchTaskIdPattern_iff (id : TaskId) :
    branchTaskIdPattern id.val.toList = true ↔ id.val.length ≤ 64 := by
  rw [branchTaskIdPattern, id.headThen, Bool.true_and, decide_eq_true_eq, String.length_toList]

/-- Lock files take every id of the domain. -/
theorem TaskId.lockIdPattern (id : TaskId) : lockIdPattern id.val.toList = true := by
  have hlength := id.length_le
  rw [AIHub.lockIdPattern, id.headThen, Bool.true_and, decide_eq_true_eq]
  omega

/-- The branch of a task is named as it should be, and its lock can be taken and read. -/
structure BranchNamed (nfkdAscii : String → String) (id : TaskId) (description : String) :
    Prop where
  named : ∃ slug, taskBranchName nfkdAscii id.val description =
      .ok s!"agent/{id.val}-{String.ofList slug}" ∧ slugPattern slug = true ∧
    s!"agent/{id.val}-{String.ofList slug}".length ≤ 120 ∧
    checkRefFormat s!"agent/{id.val}-{String.ofList slug}".toList = true
  locked : ∀ projectId pid, AIHub.lockIdPattern projectId.toList = true →
    ∃ L : ProjectFileLock, L.projectId = projectId ∧ L.taskId = id.val ∧ L.pid = pid
  read : ∀ fromisoformat (m : LockMetadata), m.task = id.val → 0 < m.pid →
    AIHub.lockIdPattern m.project.toList = true → m.ownerToken ≠ "" → m.ownerToken.length ≤ 64 →
    LockMetadata.parseTimestamp fromisoformat m.createdAt = .ok () →
    LockMetadata.fromMapping fromisoformat m.asDict = .ok m

theorem toList_branch (id : String) (slug : List Char) :
    s!"agent/{id}-{String.ofList slug}".toList = "agent/".toList ++ (id.toList ++ '-' :: slug) := by
  simp [toString]

/-- The name of a branch is at most 120 characters long, and Git takes it, exactly if the id has at
most 64 characters. The locks take every id. -/
theorem branch_named_iff (nfkdAscii : String → String) (id : TaskId) (description : String) :
    BranchNamed nfkdAscii id description ↔ id.val.length ≤ 64 := by
  constructor
  · intro h
    obtain ⟨slug, hname, _⟩ := h.named
    by_contra hlong
    have hpattern : branchTaskIdPattern id.val.toList ≠ true := fun hpattern =>
      hlong (id.branchTaskIdPattern_iff.1 hpattern)
    rw [taskBranchName, if_neg hpattern] at hname
    cases hname
  · intro hlength
    refine ⟨⟨branchSlug nfkdAscii id.val description, ?_, branchSlug_valid _ _ _, ?_, ?_⟩,
      ?_, ?_⟩
    · exact taskBranchName_eq (id.branchTaskIdPattern_iff.2 hlength)
    · have hslug := branchSlug_length nfkdAscii id.val description
      have hprefix : "agent/".length = 6 := rfl
      rw [← String.length_toList, toList_branch, List.length_append, List.length_append,
        List.length_cons]
      simp only [String.length_toList, hprefix]
      omega
    · obtain ⟨hne, hchars⟩ := slugPattern_chars (branchSlug_valid nfkdAscii id.val description)
      rw [toList_branch]
      refine checkRefFormat_agent (by simp) fun c hc => ?_
      rcases List.mem_append.1 hc with hid | hslug
      · exact id.branchChars c hid
      · rcases List.mem_cons.1 hslug with rfl | hslug
        · decide
        · exact hchars c hslug
    · intro projectId pid hproject
      exact ⟨⟨projectId, id.val, pid, hproject, id.lockIdPattern⟩, rfl, rfl, rfl⟩
    · intro fromisoformat m htask hpid hproject htoken htoken' htime
      have hid : AIHub.lockIdPattern m.task.toList = true := htask ▸ id.lockIdPattern
      exact LockMetadata.fromMapping_asDict hpid hproject hid htoken htoken' htime

/-- The longest id of the domain. -/
def Sample.longId : TaskId :=
  ⟨"TASK-0123456789ABCDEF0123456789ABCDEF0123456789ABCDEF0123456789ABCDEF", by decide +kernel⟩

open Sample in
/-- The domain accepts ids that are too long for the name of a branch. -/
theorem long_id_unnamed : ¬ ∀ nfkdAscii id description, BranchNamed nfkdAscii id description := by
  intro h
  exact absurd ((branch_named_iff id longId "Add a cart").1 (h id longId "Add a cart"))
    (by decide +kernel)

/-! ## Different tasks -/

/-- The second id goes on after the first one with a dash and a text, and the first slug is that
text, a dash and the second slug. -/
def ReadsOn (nfkdAscii : String → String) (id description id' description' : String) : Prop :=
  ∃ text, id'.toList = id.toList ++ '-' :: text ∧
    branchSlug nfkdAscii id description =
      text ++ '-' :: branchSlug nfkdAscii id' description'

/-- A text with two dashes at which it may be divided. -/
theorem append_dash_eq_iff {a b s t : List Char} (hne : a ≠ b) :
    a ++ '-' :: s = b ++ '-' :: t ↔
      (∃ x, b = a ++ '-' :: x ∧ s = x ++ '-' :: t) ∨
        ∃ x, a = b ++ '-' :: x ∧ t = x ++ '-' :: s := by
  constructor
  · intro h
    rcases List.append_eq_append_iff.1 h with ⟨x, hb, hs⟩ | ⟨x, ha, ht⟩
    · cases x with
      | nil => exact absurd (by simpa using hb.symm) hne
      | cons c x =>
        obtain ⟨rfl, htail⟩ := List.cons.inj hs
        exact .inl ⟨x, hb, htail⟩
    · cases x with
      | nil => exact absurd (by simpa using ha) hne
      | cons c x =>
        obtain ⟨rfl, htail⟩ := List.cons.inj ht
        exact .inr ⟨x, ha, htail⟩
  · intro h
    rcases h with ⟨x, rfl, rfl⟩ | ⟨x, rfl, rfl⟩ <;> simp

/-- Two tasks have the same branch name exactly if one id goes on after the other one with what
the slug of the other one begins with. -/
theorem branchNames_eq_iff (nfkdAscii : String → String) (id id' description description' : String)
    (hid : branchTaskIdPattern id.toList = true) (hid' : branchTaskIdPattern id'.toList = true)
    (hne : id ≠ id') :
    taskBranchName nfkdAscii id description = taskBranchName nfkdAscii id' description' ↔
      ReadsOn nfkdAscii id description id' description' ∨
        ReadsOn nfkdAscii id' description' id description := by
  have hne' : id.toList ≠ id'.toList := fun h => hne (String.toList_inj.1 h)
  rw [taskBranchName_eq hid, taskBranchName_eq hid', Except.ok.injEq, ← String.toList_inj,
    toList_branch, toList_branch, List.append_cancel_left_eq, append_dash_eq_iff hne']
  rfl

theorem branchNames_eq_iff_sample :
    taskBranchName id "TASK-1" "2 retry" = taskBranchName id "TASK-1-2" "retry" := by
  refine (branchNames_eq_iff id "TASK-1" "TASK-1-2" "2 retry" "retry" (by decide) (by decide)
    (by decide)).2 (.inl ⟨['2'], by decide, by decide +kernel⟩)

/-- The slug of one task begins with what the id of the other one ends in. -/
theorem branch_shared :
    ¬ ∀ (nfkdAscii : String → String) (id id' description description' : String),
    branchTaskIdPattern id.toList = true → branchTaskIdPattern id'.toList = true → id ≠ id' →
    taskBranchName nfkdAscii id description ≠ taskBranchName nfkdAscii id' description' := by
  intro h
  exact h id "TASK-1" "TASK-1-2" "2 retry" "retry" (by decide) (by decide) (by decide)
    (by decide +kernel)

end AIHub
