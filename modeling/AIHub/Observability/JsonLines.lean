import AIHub.Domain.Isoformat
import AIHub.Domain.JsonText
import AIHub.Lib.Rotation
import AIHub.Lib.Utf8
import AIHub.Observability.TextRedaction
import Mathlib.Data.List.Sort

/-!
# The log

Each record is one line with a JSON object, whose texts are redacted and cut, in a file that is
rotated when it would grow too large. The texts are whatever was logged. A line feed in one is
escaped, so no text begins a line of its own.

When a record is written a rollover comes first or not, by what is in the file and the record. The
results hold for each such rule, and so for each size limit.

* `loads_format`: the line of a record is read as its document.
* `log_read_back`: the lines of all log files, oldest first, are the documents of the last records.
-/

namespace AIHub

/-! ## Records -/

/-- A log record: `extra` are the attributes that are texts, and `excInfo` is the formatted
exception. -/
structure LogRecord where
  created : Int
  levelname : String
  name : String
  message : String
  extra : String → Option String
  excInfo : Option String

namespace RedactedJsonFormatter

/-- `text[:n]`. -/
def slice (n : Nat) (text : String) : String := String.ofList (text.toList.take n)

def extraNames : List String := ["task_id", "project", "team", "agent"]

section

variable (alnum : Char → Bool)

def extraMember (r : LogRecord) (name : String) : Option (String × String) := do
  let value ← r.extra name
  if value = "" then none else some (name, slice 200 (redactText alnum value))

/-- The document of a record, in the order in which its members are set. -/
def members (r : LogRecord) : List (String × String) :=
  [("timestamp", Timestamp.isoformat ⟨r.created, 0⟩), ("level", r.levelname), ("logger", r.name),
      ("message", slice 4000 (redactText alnum r.message))] ++
    extraNames.filterMap (extraMember alnum r) ++
    r.excInfo.toList.map fun text => ("exception", slice 8000 (redactText alnum text))

/-- The members by key, with `sort_keys=True`. -/
def document (r : LogRecord) : List (String × String) :=
  (members alnum r).insertionSort fun m n => m.1 ≤ n.1

/-! ## Lines -/

/-- A character inside a string, with `ensure_ascii=False`. -/
def escapeControl (c : Char) : List Char :=
  if c = '"' then ['\\', '"']
  else if c = '\\' then ['\\', '\\']
  else if c = '\n' then ['\\', 'n']
  else if c = '\r' then ['\\', 'r']
  else if c = '\t' then ['\\', 't']
  else if c = '\x0c' then ['\\', 'f']
  else if c = '\x08' then ['\\', 'b']
  else if c.toNat < 0x20 then '\\' :: 'u' :: JsonValue.hexQuad c.toNat
  else [c]

def quoted (s : String) : List Char := '"' :: (s.toList.flatMap escapeControl ++ ['"'])

def memberText (m : String × String) : List Char := quoted m.1 ++ ':' :: quoted m.2

/-- `json.dumps` of an object of strings, with the compact separators. -/
def dumps (o : List (String × String)) : List Char :=
  '{' :: ([','].intercalate (o.map memberText) ++ ['}'])

def format (r : LogRecord) : List Char := dumps (document alnum r)

end

/-! ## Reading a line -/

open JsonValue (readUnits joinUnits skipBlanks)

theorem readUnits_raw {c : Char} (hquote : c ≠ '"') (hslash : c ≠ '\\') (hlow : ¬ c.toNat < 0x20)
    (cs : List Char) : readUnits (c :: cs) = (readUnits cs).map fun r => (c.toNat :: r.1, r.2) := by
  rw [readUnits]
  · rw [if_neg (by simp only [hslash, hlow, or_self, not_false_eq_true])]
    cases readUnits cs <;> rfl
  all_goals simp_all

theorem readUnits_escapeControl (c : Char) (cs : List Char) :
    readUnits (escapeControl c ++ cs) = (readUnits cs).map fun r => (c.toNat :: r.1, r.2) := by
  unfold escapeControl
  split_ifs with hquote hslash hn hr ht hf hb hlow
  · subst hquote
    exact JsonValue.readUnits_unescape rfl cs
  · subst hslash
    exact JsonValue.readUnits_unescape rfl cs
  · subst hn
    exact JsonValue.readUnits_unescape rfl cs
  · subst hr
    exact JsonValue.readUnits_unescape rfl cs
  · subst ht
    exact JsonValue.readUnits_unescape rfl cs
  · subst hf
    exact JsonValue.readUnits_unescape rfl cs
  · subst hb
    exact JsonValue.readUnits_unescape rfl cs
  · exact JsonValue.readUnits_hexQuad (by omega) cs
  · exact readUnits_raw hquote hslash hlow cs

/-- Characters are no surrogates. -/
theorem joinUnits_toNat (cs : List Char) : joinUnits (cs.map Char.toNat) = cs := by
  have hchar : ∀ c : Char, JsonValue.isHigh c.toNat = false ∧
      JsonValue.unitChar c.toNat = c := by
    intro c
    have hvalid : c.toNat < 0xD800 ∨ 0xDFFF < c.toNat ∧ c.toNat < 0x110000 := c.valid
    have hhigh : JsonValue.isHigh c.toNat = false := by
      simp only [JsonValue.isHigh, Bool.and_eq_false_iff, decide_eq_false_iff_not]
      omega
    have hlow : JsonValue.isLow c.toNat = false := by
      simp only [JsonValue.isLow, Bool.and_eq_false_iff, decide_eq_false_iff_not]
      omega
    exact ⟨hhigh, by simp [JsonValue.unitChar, hhigh, hlow]⟩
  induction cs with
  | nil => rfl
  | cons c cs ih =>
    cases cs with
    | nil => rw [List.map_singleton, joinUnits, (hchar c).2]
    | cons d cs =>
      rw [List.map_cons, List.map_cons, joinUnits, (hchar c).1, Bool.false_and,
        if_neg Bool.false_ne_true, (hchar c).2, ← List.map_cons, ih]

theorem readString_escapeControl (s : String) (cs : List Char) :
    JsonValue.readString (s.toList.flatMap escapeControl ++ '"' :: cs) = some (s, cs) := by
  have hunits : ∀ ds : List Char, readUnits (ds.flatMap escapeControl ++ '"' :: cs) =
      some (ds.map Char.toNat, cs) := by
    intro ds
    induction ds with
    | nil => rfl
    | cons d ds ih =>
      rw [List.flatMap_cons, List.append_assoc, readUnits_escapeControl, ih]
      rfl
  rw [JsonValue.readString, hunits, Option.map_some, joinUnits_toNat, String.ofList_toList]

/-- An object whose members are texts. -/
def asObject (o : List (String × String)) : JsonObject := o.map fun m => (m.1, .string m.2)

/-- A member that is a text, and what follows it. -/
theorem readMembers_member {fuel : Nat} (m : String × String) (rest : List Char) :
    JsonValue.readMembers (fuel + 2) (memberText m ++ rest) =
      match skipBlanks rest with
      | ',' :: rest => (JsonValue.readMembers (fuel + 1) (skipBlanks rest)).map fun r =>
        ((m.1, .string m.2) :: r.1, r.2)
      | '}' :: rest => some ([(m.1, .string m.2)], rest)
      | _ => none := by
  have htext : memberText m ++ rest = '"' :: (m.1.toList.flatMap escapeControl ++ '"' :: ':' ::
      '"' :: (m.2.toList.flatMap escapeControl ++ '"' :: rest)) := by
    simp [memberText, quoted]
  have hvalue : JsonValue.readValue (fuel + 1)
      ('"' :: (m.2.toList.flatMap escapeControl ++ '"' :: rest)) = some (.string m.2, rest) := by
    show (JsonValue.readString _).map _ = _
    rw [readString_escapeControl]
    rfl
  have hcolon : JsonValue.isBlank ':' = false := rfl
  have hquote : JsonValue.isBlank '"' = false := rfl
  rw [htext, JsonValue.readMembers]
  simp only [readString_escapeControl, Option.bind_eq_bind, Option.bind_some,
    JsonValue.skipBlanks_cons hcolon, JsonValue.skipBlanks_cons hquote, hvalue]
  all_goals rfl

theorem readMembers_memberText {fuel : Nat} {m : String × String} {o : List (String × String)}
    (hfuel : o.length < fuel) (rest : List Char) :
    JsonValue.readMembers (fuel + 1) ([','].intercalate ((m :: o).map memberText) ++ '}' :: rest) =
      some (asObject (m :: o), rest) := by
  induction o generalizing m fuel with
  | nil =>
    obtain ⟨fuel, rfl⟩ := Nat.exists_eq_add_one.2 (show 0 < fuel from hfuel)
    have htext : [','].intercalate ([m].map memberText) ++ '}' :: rest =
        memberText m ++ '}' :: rest := by
      simp [List.intercalate]
    rw [htext, readMembers_member]
    rfl
  | cons n o ih =>
    obtain ⟨fuel, rfl⟩ := Nat.exists_eq_add_one.2 (show 0 < fuel by omega)
    have hrest : o.length < fuel := by
      simp only [List.length_cons] at hfuel
      omega
    have hnext := ih (m := n) hrest
    have htext : [','].intercalate ((m :: n :: o).map memberText) ++ '}' :: rest =
        memberText m ++ ',' :: ([','].intercalate ((n :: o).map memberText) ++ '}' :: rest) := by
      simp [List.intercalate]
    have hquote : ∃ cs, [','].intercalate ((n :: o).map memberText) ++ '}' :: rest = '"' :: cs := by
      cases o <;> exact ⟨_, rfl⟩
    obtain ⟨cs, hcs⟩ := hquote
    rw [hcs] at hnext
    rw [htext, readMembers_member, hcs]
    show (JsonValue.readMembers (fuel + 1) ('"' :: cs)).map _ = _
    rw [hnext]
    rfl

theorem length_le_memberText (m : String × String) (o : List (String × String)) :
    o.length + 1 ≤ ([','].intercalate ((m :: o).map memberText)).length := by
  induction o generalizing m with
  | nil => simp [List.intercalate, memberText, quoted]
  | cons n o ih =>
    have htext : [','].intercalate ((m :: n :: o).map memberText) =
        memberText m ++ ',' :: [','].intercalate ((n :: o).map memberText) := by
      simp [List.intercalate]
    have hrest := ih n
    rw [htext, List.length_append, List.length_cons, List.length_cons]
    omega

/-- The text of an object of strings is read back, whatever the strings are. -/
theorem loads_dumps {o : List (String × String)} (h : (o.map Prod.fst).Pairwise (· < ·)) :
    JsonValue.loads (String.ofList (dumps o)) = some (.object (asObject o)) := by
  cases o with
  | nil => rfl
  | cons m o =>
    have hlength := length_le_memberText m o
    have hquote : ∃ cs, [','].intercalate ((m :: o).map memberText) ++ ['}'] = '"' :: cs := by
      cases o <;> exact ⟨_, rfl⟩
    obtain ⟨cs, hcs⟩ := hquote
    obtain ⟨fuel, hfuel⟩ : ∃ fuel, 2 * (dumps (m :: o)).length = fuel + 2 ∧ o.length < fuel := by
      refine ⟨2 * (dumps (m :: o)).length - 2, ?_, ?_⟩ <;>
        simp only [dumps, List.length_cons, List.length_append] at hlength ⊢ <;> omega
    have hread := readMembers_memberText (m := m) hfuel.2 []
    rw [hcs] at hread
    have hvalue : JsonValue.readValue (fuel + 2) ('{' :: '"' :: cs) =
        some (.object (asObject (m :: o)), []) := by
      rw [JsonValue.readValue_object, hread, Option.map_some, JsonValue.toObject_sorted]
      rwa [asObject, List.map_map]
    have hbrace : JsonValue.isBlank '{' = false := rfl
    rw [JsonValue.loads, String.toList_ofList, hfuel.1, dumps, hcs,
      JsonValue.skipBlanks_cons hbrace, hvalue]
    rfl

/-- Line feeds are escaped. -/
theorem lineFeed_not_mem_quoted (s : String) : '\n' ∉ quoted s := by
  have hchar : ∀ c : Char, '\n' ∉ escapeControl c := by
    intro c
    have hhex : ∀ k < 16, Nat.digitChar k ≠ '\n' := by decide
    unfold escapeControl
    split_ifs with hquote hslash hn hr ht hf hb hlow
    iterate 7 decide
    · simp only [JsonValue.hexQuad, JsonValue.hexDigit, List.mem_cons, List.not_mem_nil, or_false,
        not_or]
      exact ⟨by decide, by decide, (hhex _ (Nat.mod_lt _ (by decide))).symm,
        (hhex _ (Nat.mod_lt _ (by decide))).symm, (hhex _ (Nat.mod_lt _ (by decide))).symm,
        (hhex _ (Nat.mod_lt _ (by decide))).symm⟩
    · rw [List.mem_singleton]
      exact fun h => hn h.symm
  simp only [quoted, List.mem_cons, List.mem_append, List.mem_flatMap, List.not_mem_nil, or_false,
    not_or, not_exists, not_and]
  exact ⟨by decide, fun c _ => hchar c, by decide⟩

theorem lineFeed_not_mem_dumps (o : List (String × String)) : '\n' ∉ dumps o := by
  have hmembers : '\n' ∉ [','].intercalate (o.map memberText) := by
    induction o with
    | nil => decide
    | cons m o ih =>
      have hm : '\n' ∉ memberText m := by
        simp only [memberText, List.mem_append, List.mem_cons, not_or]
        exact ⟨lineFeed_not_mem_quoted _, by decide, lineFeed_not_mem_quoted _⟩
      cases o with
      | nil => simpa [List.intercalate] using hm
      | cons n o =>
        have htext : [','].intercalate ((m :: n :: o).map memberText) =
            memberText m ++ ',' :: [','].intercalate ((n :: o).map memberText) := by
          simp [List.intercalate]
        rw [htext, List.mem_append, List.mem_cons, not_or, not_or]
        exact ⟨hm, by decide, ih⟩
  simp only [dumps, List.mem_cons, List.mem_append, List.not_mem_nil, or_false, not_or]
  exact ⟨by decide, hmembers, by decide⟩

variable {alnum : Char → Bool}

theorem lineFeed_not_mem_format (r : LogRecord) : '\n' ∉ format alnum r :=
  lineFeed_not_mem_dumps _

/-- A record has each member at most once. -/
theorem document_sorted (r : LogRecord) :
    ((document alnum r).map Prod.fst).Pairwise (· < ·) := by
  have hextra : ((extraNames.filterMap (extraMember alnum r)).map Prod.fst).Sublist extraNames := by
    generalize extraNames = names
    induction names with
    | nil => exact List.Sublist.slnil
    | cons name names ih =>
      have hname : ∀ m ∈ extraMember alnum r name, m.1 = name := by
        intro m hm
        simp only [extraMember, Option.bind_eq_bind, Option.mem_def, Option.bind_eq_some_iff]
          at hm
        obtain ⟨value, -, hm⟩ := hm
        split_ifs at hm
        cases hm
        rfl
      cases hm : extraMember alnum r name with
      | none => rw [List.filterMap_cons_none hm]; exact ih.cons _
      | some m => rw [List.filterMap_cons_some hm, List.map_cons, hname m hm]; exact ih.cons_cons _
  have hexception : ((r.excInfo.toList.map fun text =>
      ("exception", slice 8000 (redactText alnum text))).map Prod.fst).Sublist ["exception"] := by
    cases r.excInfo with
    | none => exact List.nil_sublist _
    | some text => exact List.Sublist.refl _
  have hnodup : ((members alnum r).map Prod.fst).Nodup := by
    have hall : (["timestamp", "level", "logger", "message"] ++ extraNames ++
        ["exception"]).Nodup := by decide
    rw [members, List.map_append, List.map_append]
    exact (((List.Sublist.refl _).append hextra).append hexception).nodup hall
  have hkeys : (document alnum r).map Prod.fst =
      ((members alnum r).map Prod.fst).insertionSort (· ≤ ·) :=
    List.map_insertionSort _ _ _ _ fun _ _ _ _ => Iff.rfl
  rw [hkeys]
  exact (List.sortedLE_insertionSort.sortedLT_of_nodup
    ((List.perm_insertionSort _ _).nodup_iff.2 hnodup)).pairwise

/-- The line of a record is read as its document, whatever was logged. -/
theorem loads_format (r : LogRecord) : JsonValue.loads (String.ofList (format alnum r)) =
    some (.object (asObject (document alnum r))) :=
  loads_dumps (document_sorted r)

end RedactedJsonFormatter

/-! ## The log files -/

open Rotation RedactedJsonFormatter

/-- A rotating handler with its rule for rollovers: the text in the file, and the new line. -/
structure RotatingFileHandler where
  backupCount : Nat
  shouldRollover : List UInt8 → List Char → Bool
  backupCount_pos : 0 < backupCount

/-- The handler of the service, for the rule that a size limit gives. -/
def configureRotatingJsonLogging (rule : Int → List UInt8 → List Char → Bool)
    (maxBytes backupCount : Int) : Except String RotatingFileHandler :=
  if h : maxBytes < 1 ∨ backupCount < 1 then .error "log rotation bounds must be positive"
  else .ok ⟨backupCount.toNat, rule maxBytes, by omega⟩

namespace RotatingFileHandler

variable (alnum : Char → Bool)

/-- What is appended for a record. -/
def line (r : LogRecord) : List UInt8 := Utf8.encode (format alnum r ++ ['\n'])

def emit (h : RotatingFileHandler) (files : Files UInt8) (r : LogRecord) : Files UInt8 :=
  files.emit h.backupCount (h.shouldRollover ((files 0).getD []) (format alnum r)) (line alnum r)

/-- The files after some records, where there were none. -/
def emitAll (h : RotatingFileHandler) (records : List LogRecord) : Files UInt8 :=
  records.foldl (h.emit alnum) fun _ => none

/-- The values on the lines of the files, the oldest file first. -/
def readBack (h : RotatingFileHandler) (files : Files UInt8) : Option (List JsonValue) :=
  (((Utf8.decode (files.contents h.backupCount)).splitOn '\n').filter (· ≠ [])).mapM fun cs =>
    JsonValue.loads (String.ofList cs)

/-! ### Records in files -/

variable {alnum} {h : RotatingFileHandler}

/-- These records are in the files: the last ones, and all of them unless the last backup exists. -/
structure Holds (h : RotatingFileHandler) (records : List LogRecord) (g : Files LogRecord) :
    Prop where
  kept : ∃ lost, records = lost ++ g.contents h.backupCount ∧
    (g h.backupCount = none → lost = [])
  last : records.getLast? = (g.contents h.backupCount).getLast?
  beyond : ∀ j, h.backupCount < j → g j = none

theorem Holds.emit {records : List LogRecord} {g : Files LogRecord} (hg : h.Holds records g)
    (rollover : Bool) (r : LogRecord) :
    h.Holds (records ++ [r]) (g.emit h.backupCount rollover [r]) := by
  obtain ⟨lost, hrecords, hlost⟩ := hg.kept
  obtain ⟨dropped, kept, hcontents, hemit, hdropped⟩ :=
    Files.contents_emit (f := g) rollover [r] h.backupCount_pos
  refine ⟨⟨lost ++ dropped, ?_, fun hlast => ?_⟩, ?_, fun j hj => ?_⟩
  · rw [hemit, hrecords, hcontents]
    simp only [List.append_assoc]
  · -- a last backup that exists is replaced by another
    have hnone : g h.backupCount = none := by
      by_contra hsome
      have hemit := Files.emit_last rollover [r] h.backupCount_pos
        (Option.isSome_iff_ne_none.2 hsome)
      rw [hlast] at hemit
      cases hemit
    rw [hlost hnone, hdropped hnone, List.append_nil]
  · rw [hemit, List.getLast?_append, List.getLast?_append]
    rfl
  · rw [Files.emit_of_lt h.backupCount_pos hj, hg.beyond j hj]

/-- After each run, the files hold whole lines, of the last records. -/
theorem emitAll_holds (alnum : Char → Bool) (records : List LogRecord) :
    ∃ g, h.Holds records g ∧ h.emitAll alnum records = g.flatMap (line alnum) := by
  induction records using List.reverseRecOn with
  | nil =>
    have hnone : ∀ n, Files.contents n (fun _ => none : Files LogRecord) = [] := by
      intro n
      induction n with
      | zero => rfl
      | succ n ih => rw [Files.contents, ih]; rfl
    refine ⟨fun _ => none, ⟨⟨[], by rw [hnone]; rfl, fun _ => rfl⟩, by rw [hnone], fun _ _ => rfl⟩,
      rfl⟩
  | append_singleton records r ih =>
    obtain ⟨g, hg, hfiles⟩ := ih
    refine ⟨_, hg.emit (h.shouldRollover ((h.emitAll alnum records 0).getD []) (format alnum r)) r,
      ?_⟩
    have hstep : h.emitAll alnum (records ++ [r]) = h.emit alnum (h.emitAll alnum records) r := by
      rw [emitAll, List.foldl_append, List.foldl_cons, List.foldl_nil, emitAll]
    rw [hstep, Files.flatMap_emit, ← hfiles, List.flatMap_singleton, emit]

/-! ### Lines of records -/

theorem decode_lines (records : List LogRecord) : Utf8.decode (records.flatMap (line alnum)) =
    records.flatMap fun r => format alnum r ++ ['\n'] := by
  have hencode : records.flatMap (line alnum) =
      Utf8.encode (records.flatMap fun r => format alnum r ++ ['\n']) := by
    rw [Utf8.encode, List.flatMap_assoc]
    rfl
  rw [hencode, Utf8.decode_encode]

theorem splitOn_lines (records : List LogRecord) :
    (records.flatMap fun r => format alnum r ++ ['\n']).splitOn '\n' =
      records.map (format alnum) ++ [[]] := by
  induction records with
  | nil => rfl
  | cons r records ih =>
    rw [List.flatMap_cons, List.append_assoc, List.singleton_append,
      List.splitOn_append_cons_self_of_not_mem (lineFeed_not_mem_format r), ih]
    rfl

theorem mapM_loads (records : List LogRecord) :
    ((records.map (format alnum)).mapM fun cs => JsonValue.loads (String.ofList cs)) =
      some (records.map fun r => .object (asObject (document alnum r))) := by
  induction records with
  | nil => rfl
  | cons r records ih =>
    rw [List.map_cons, List.mapM_cons, loads_format, ih]
    rfl

theorem readBack_lines {files : Files UInt8} {records : List LogRecord}
    (hfiles : files.contents h.backupCount = records.flatMap (line alnum)) :
    h.readBack files = some (records.map fun r => .object (asObject (document alnum r))) := by
  have hfilter : (records.map (format alnum) ++ [[]]).filter (· ≠ []) =
      records.map (format alnum) := by
    rw [List.filter_append, List.filter_eq_self.2]
    · simp
    · intro cs hcs
      obtain ⟨r, -, rfl⟩ := List.mem_map.1 hcs
      rfl
  rw [readBack, hfiles, decode_lines, splitOn_lines, hfilter, mapM_loads]

/-- Whatever has been logged and whenever the files are rotated, the lines of all files are the
documents of the last records, one each. The records before them have been dropped with a last
backup, and the last record is always there. -/
theorem log_read_back (h : RotatingFileHandler) (records : List LogRecord) :
    ∃ lost kept, records = lost ++ kept ∧ records.getLast? = kept.getLast? ∧
      h.readBack (h.emitAll alnum records) =
        some (kept.map fun r => .object (asObject (document alnum r))) ∧
      (h.emitAll alnum records h.backupCount = none → lost = []) ∧
      ∀ j, h.backupCount < j → h.emitAll alnum records j = none := by
  obtain ⟨g, hg, hfiles⟩ := emitAll_holds (h := h) alnum records
  obtain ⟨lost, hrecords, hlost⟩ := hg.kept
  refine ⟨lost, _, hrecords, hg.last, readBack_lines ?_, fun hlast => hlost ?_, fun j hj => ?_⟩
  · rw [hfiles, Files.contents_flatMap]
  · rw [hfiles, Files.flatMap, Option.map_eq_none_iff] at hlast
    exact hlast
  · rw [hfiles, Files.flatMap, hg.beyond j hj]
    rfl

end RotatingFileHandler

end AIHub
