import CalmBoard.Lib.DateText
import CalmBoard.Lib.Fallible
import CalmBoard.Schema

/-!
# CalmBoard.Tasks.Clipboard — tasks as rows of a table on the clipboard

* `serializeTasksForClipboard`, `parseTaskClipboard`: what is copied, and what is pasted.
* `Copyable`: the tasks that can be pasted.
* `clipboard_round_trip`: they come back as they were.
-/

namespace CalmBoard.Clipboard

open Fallible Text IsoDate

/-- `String` and `Number` on numbers. -/
structure Numbers where
  text : Number → List Char
  read : List Char → Number

/-- The text of an id; that of a UUID has no white space. -/
structure UserId where
  text : List Char
  ne_nil : text ≠ []
  plain : ∀ ch ∈ text, isSpace ch = false

/-- `dueDate` is `new Date(task.dueDate)`. -/
structure Task where
  title : List Char
  status : TaskStatus
  priority : TaskPriority
  assigneeId : Option UserId
  storyPoints : Option Number
  estimatedHours : Option Number
  dueDate : Option JsDate

structure TaskClipboardUpdate where
  title : List Char
  status : List Char
  priority : List Char
  assigneeId : Option (List Char)
  assigneeIds : List (List Char)
  storyPoints : Option Number
  estimatedHours : Option Number
  dueDate : Option (List Char)

variable (N : Numbers)

/-! ### Copying -/

def columns : List (List Char) :=
  ["title", "status", "priority", "assigneeId", "storyPoints", "estimatedHours", "dueDate"].map String.toList

def encodeCell (value : List Char) : List Char :=
  value.map fun ch => if ch = '\t' ∨ ch = '\r' ∨ ch = '\n' then ' ' else ch

def dueCell : Option JsDate → Except String (List Char)
  | none => .ok []
  | some .invalid => .error "Invalid time value"
  | some (.time ms) => .ok ((toISOString ms).take 10)

/-- `String(value ?? "")` of every column. -/
def cells (task : Task) (due : List Char) : List (List Char) :=
  [task.title, task.status.label.toList, task.priority.label.toList,
    task.assigneeId.elim [] UserId.text, task.storyPoints.elim [] N.text,
    task.estimatedHours.elim [] N.text, due]

def taskRow (task : Task) : Except String (List Char) := do
  let due ← dueCell task.dueDate
  return ['\t'].intercalate ((cells N task due).map encodeCell)

def serializeTasksForClipboard (tasks : List Task) : Except String (List Char) := do
  let rows ← tasks.mapM (taskRow N)
  return ['\n'].intercalate (['\t'].intercalate columns :: rows)

/-! ### Pasting -/

/-- `text.replace(/\r\n?/g, "\n")` -/
def newlines : List Char → List Char
  | '\r' :: '\n' :: rest => '\n' :: newlines rest
  | '\r' :: rest => '\n' :: newlines rest
  | ch :: rest => ch :: newlines rest
  | [] => []

def optionalNumber (value : List Char) (field : String) (rowNumber : ℕ) :
    Except String (Option Number) :=
  if value = [] then .ok none
  else
    match N.read value with
    | .fin q =>
      if q < 0 ∨ 100000 < q then .error s!"Row {rowNumber}: {field} must be a number from 0 to 100000."
      else .ok (some (.fin q))
    | _ => .error s!"Row {rowNumber}: {field} must be a number from 0 to 100000."

/-- The fields of the date that is read are those of the text if the text is a date of the calendar. -/
def optionalDate (value : List Char) (rowNumber : ℕ) : Except String (Option (List Char)) :=
  if value = [] then .ok none
  else
    match matchDate value with
    | some (date, []) =>
      if utcDate (Civil.daysFromCivil date * msPerDay) = date then
        .ok (some (value ++ "T00:00:00.000Z".toList))
      else .error s!"Row {rowNumber}: dueDate must use YYYY-MM-DD."
    | _ => .error s!"Row {rowNumber}: dueDate must use YYYY-MM-DD."

def parseRow (rowNumber : ℕ) (line : List Char) : Except String TaskClipboardUpdate :=
  match (line.splitOn '\t').map trimChars with
  | [title, status, priority, assigneeId, storyPoints, estimatedHours, dueDate] => do
    if title = [] then throw s!"Row {rowNumber}: title is required."
    if status ∉ TaskStatus.all.map fun v => v.label.toList then
      throw s!"Row {rowNumber}: unsupported status."
    if priority ∉ TaskPriority.all.map fun v => v.label.toList then
      throw s!"Row {rowNumber}: unsupported priority."
    let points ← optionalNumber N storyPoints "storyPoints" rowNumber
    let hours ← optionalNumber N estimatedHours "estimatedHours" rowNumber
    let due ← optionalDate dueDate rowNumber
    return { title, status, priority
             assigneeId := if assigneeId = [] then none else some assigneeId
             assigneeIds := if assigneeId = [] then [] else [assigneeId]
             storyPoints := points
             estimatedHours := hours
             dueDate := due }
  | _ => .error s!"Row {rowNumber}: expected {columns.length} columns."

def parseRows : ℕ → List (List Char) → Except String (List TaskClipboardUpdate)
  | _, [] => .ok []
  | rowNumber, line :: rest => do
    let update ← parseRow N rowNumber line
    let updates ← parseRows (rowNumber + 1) rest
    return update :: updates

def parseTaskClipboard (text : List Char) (maxRows : ℕ) : Except String (List TaskClipboardUpdate) :=
  match ((newlines text).splitOn '\n').rdropWhile (· = []) with
  | header :: line :: rest =>
    if rest.length + 1 > maxRows then .error s!"Clipboard data is limited to {maxRows} task rows."
    else if header.splitOn '\t' ≠ columns then
      .error ("Clipboard header must be: " ++ String.ofList (['\\', 't'].intercalate columns))
    else parseRows N 2 (line :: rest)
  | _ => .error "Clipboard data must include a header and at least one task row."

/-! ### Cells -/

/-- The number is written without white space, and read from its text. -/
structure Numbers.Inverse (n : Number) : Prop where
  ne_nil : N.text n ≠ []
  plain : ∀ ch ∈ N.text n, isSpace ch = false
  read : N.read (N.text n) = n

def InRange (n : Number) : Prop := ∃ q, n = .fin q ∧ 0 ≤ q ∧ q ≤ 100000

/-- What the clipboard carries without loss. -/
structure Copyable (task : Task) : Prop where
  title : trimChars task.title ≠ []
  points : ∀ n ∈ task.storyPoints, N.Inverse n ∧ InRange n
  hours : ∀ n ∈ task.estimatedHours, N.Inverse n ∧ InRange n
  due : ∀ d ∈ task.dueDate, ∃ ms, d = .time ms ∧ IsoYear (ms / msPerDay)

def dayOf : JsDate → List Char
  | .invalid => []
  | .time ms => isoDay (ms / msPerDay)

def pasted (task : Task) : TaskClipboardUpdate where
  title := trimChars (encodeCell task.title)
  status := task.status.label.toList
  priority := task.priority.label.toList
  assigneeId := task.assigneeId.map UserId.text
  assigneeIds := (task.assigneeId.map UserId.text).toList
  storyPoints := task.storyPoints
  estimatedHours := task.estimatedHours
  dueDate := task.dueDate.map fun d => dayOf d ++ "T00:00:00.000Z".toList

variable {N}

/-- A cell of a row starts no other cell and no other row. -/
theorem encodeCell_clean (value : List Char) {ch : Char} (h : ch ∈ encodeCell value) :
    ch ≠ '\t' ∧ ch ≠ '\r' ∧ ch ≠ '\n' := by
  obtain ⟨c, -, rfl⟩ := List.mem_map.mp h
  by_cases hc : c = '\t' ∨ c = '\r' ∨ c = '\n'
  · rw [if_pos hc]
    decide
  · rw [if_neg hc]
    exact ⟨fun h => hc (.inl h), fun h => hc (.inr (.inl h)), fun h => hc (.inr (.inr h))⟩

theorem trim_encodeCell {value : List Char} (h : ∀ ch ∈ value, isSpace ch = false) :
    trimChars (encodeCell value) = value := by
  have hsame : encodeCell value = value := by
    refine (List.map_congr_left fun ch hch => if_neg ?_).trans (List.map_id' value)
    rintro (rfl | rfl | rfl) <;> exact absurd (h _ hch) (by decide)
  rw [hsame]
  exact trimChars_of_trimmed
    ⟨fun ch hch => h ch (List.mem_of_head? hch), fun ch hch => h ch (List.mem_of_getLast? hch)⟩

theorem title_ne_nil {title : List Char} (h : trimChars title ≠ []) :
    trimChars (encodeCell title) ≠ [] := by
  intro hnil
  have hall := isSpace_of_trim_eq (s := String.ofList (encodeCell title)) (by simp [trim, hnil])
  rw [String.toList_ofList] at hall
  have hspaces : ∀ ch ∈ title, isSpace ch = true := by
    intro ch hch
    by_cases hc : ch = '\t' ∨ ch = '\r' ∨ ch = '\n'
    · rcases hc with rfl | rfl | rfl <;> decide
    · exact hall ch (List.mem_map.mpr ⟨ch, hch, if_neg hc⟩)
  refine h ?_
  rw [trimChars, List.dropWhile_eq_nil_iff.mpr hspaces]
  rfl

theorem plain_of_all {text : List Char} (h : (text.all fun ch => !isSpace ch) = true) :
    ∀ ch ∈ text, isSpace ch = false :=
  fun ch hch => by simpa using List.all_eq_true.mp h ch hch

theorem label_plain : (∀ v : TaskStatus, (∀ ch ∈ v.label.toList, isSpace ch = false) ∧
      v.label.toList ∈ TaskStatus.all.map fun v => v.label.toList) ∧
    ∀ v : TaskPriority, (∀ ch ∈ v.label.toList, isSpace ch = false) ∧
      v.label.toList ∈ TaskPriority.all.map fun v => v.label.toList := by
  constructor <;> intro v <;> cases v <;> exact ⟨plain_of_all (by decide), by decide⟩

theorem isoDay_plain (n : ℤ) : ∀ ch ∈ isoDay n, isSpace ch = false := by
  have hdigit : ∀ k, isSpace (digit k) = false := by
    have hall : ∀ d < 10, isSpace (Char.ofNat (48 + d)) = false := by decide
    exact fun k => hall _ (Nat.mod_lt _ (by decide))
  have hdash : isSpace '-' = false := by decide
  simp [isoDay, pad4, pad3, pad2, hdigit, hdash]

theorem optionalNumber_text {n : Option Number} (h : ∀ k ∈ n, N.Inverse k ∧ InRange k)
    (field : String) (rowNumber : ℕ) :
    optionalNumber N (trimChars (encodeCell (n.elim [] N.text))) field rowNumber = .ok n := by
  cases n with
  | none => rfl
  | some k =>
    obtain ⟨hk, q, rfl, hlow, hhigh⟩ := h k rfl
    have hq : ¬(q < 0 ∨ 100000 < q) := by
      rintro (hlt | hlt)
      · exact absurd hlow (not_le.mpr hlt)
      · exact absurd hhigh (not_le.mpr hlt)
    rw [Option.elim, trim_encodeCell hk.plain, optionalNumber, if_neg hk.ne_nil, hk.read]
    exact if_neg hq

theorem optionalDate_day {n : ℤ} (h : IsoYear n) (rowNumber : ℕ) :
    optionalDate (isoDay n) rowNumber = .ok (some (isoDay n ++ "T00:00:00.000Z".toList)) := by
  have hne : isoDay n ≠ [] := by simp [isoDay, pad4]
  have hdate : utcDate (Civil.daysFromCivil (Civil.civilFromDays n) * msPerDay) =
      Civil.civilFromDays n := by
    rw [Civil.daysFromCivil_civilFromDays, utcDate, Int.mul_ediv_cancel _ (by decide)]
  rw [optionalDate, if_neg hne, matchDate_isoDay h]
  exact if_pos hdate

/-! ### Rows -/

def rowCells (N : Numbers) (task : Task) : List (List Char) :=
  (cells N task (task.dueDate.elim [] dayOf)).map encodeCell

theorem taskRow_ok {task : Task} (h : Copyable N task) :
    taskRow N task = .ok (['\t'].intercalate (rowCells N task)) := by
  have hdue : dueCell task.dueDate = .ok (task.dueDate.elim [] dayOf) := by
    cases hd : task.dueDate with
    | none => rfl
    | some d =>
      obtain ⟨ms, rfl, hyear⟩ := h.due d hd
      exact congrArg Except.ok (take_toISOString hyear)
  rw [taskRow, hdue]
  rfl

theorem not_mem_intercalate {sep ch : Char} (hsep : ch ≠ sep) {l : List (List Char)}
    (h : ∀ cell ∈ l, ch ∉ cell) : ch ∉ [sep].intercalate l := by
  induction l with
  | nil => simp
  | cons cell l ih =>
    have hl := ih fun x hx => h x (List.mem_cons_of_mem cell hx)
    have hcell := h cell List.mem_cons_self
    cases l with
    | nil => simpa using hcell
    | cons y l =>
      rw [List.intercalate_cons_cons]
      simp only [List.mem_append, List.mem_singleton, not_or]
      exact ⟨⟨hcell, hsep⟩, hl⟩

/-- A line of the clipboard: a row that is not empty and ends neither itself nor the text. -/
theorem row_clean (task : Task) : ['\t'].intercalate (rowCells N task) ≠ [] ∧
    '\r' ∉ ['\t'].intercalate (rowCells N task) ∧ '\n' ∉ ['\t'].intercalate (rowCells N task) := by
  have hcells : ∀ cell ∈ rowCells N task, '\r' ∉ cell ∧ '\n' ∉ cell := by
    intro cell hcell
    obtain ⟨value, -, rfl⟩ := List.mem_map.mp hcell
    exact ⟨fun h => (encodeCell_clean value h).2.1 rfl, fun h => (encodeCell_clean value h).2.2 rfl⟩
  exact ⟨by simp [rowCells, cells], not_mem_intercalate (by decide) fun cell h => (hcells cell h).1,
    not_mem_intercalate (by decide) fun cell h => (hcells cell h).2⟩

theorem parseRow_pasted {task : Task} (h : Copyable N task) (rowNumber : ℕ) :
    parseRow N rowNumber (['\t'].intercalate (rowCells N task)) = .ok (pasted task) := by
  have hsplit : (['\t'].intercalate (rowCells N task)).splitOn '\t' = rowCells N task := by
    refine List.splitOn_intercalate '\t' (fun cell hcell htab => ?_) (List.cons_ne_nil _ _)
    obtain ⟨value, -, rfl⟩ := List.mem_map.mp hcell
    exact (encodeCell_clean value htab).1 rfl
  have hstatus := label_plain.1 task.status
  have hpriority := label_plain.2 task.priority
  have hassignee : trimChars (encodeCell (task.assigneeId.elim [] UserId.text)) =
      task.assigneeId.elim [] UserId.text := by
    cases task.assigneeId with
    | none => rfl
    | some id => exact trim_encodeCell id.plain
  have hdue : optionalDate (trimChars (encodeCell (task.dueDate.elim [] dayOf))) rowNumber =
      .ok (task.dueDate.map fun d => dayOf d ++ "T00:00:00.000Z".toList) := by
    cases hd : task.dueDate with
    | none => rfl
    | some d =>
      obtain ⟨ms, rfl, hyear⟩ := h.due d hd
      rw [Option.elim, dayOf, trim_encodeCell (isoDay_plain _), optionalDate_day hyear]
      rfl
  rw [parseRow, hsplit]
  simp only [rowCells, cells, List.map_cons, List.map_nil, hassignee, trim_encodeCell hstatus.1,
    trim_encodeCell hpriority.1, optionalNumber_text h.points, optionalNumber_text h.hours, hdue]
  rw [if_neg (title_ne_nil h.title), if_neg (not_not.mpr hstatus.2), if_neg (not_not.mpr hpriority.2)]
  cases hid : task.assigneeId with
  | none => simp [pasted, hid]; rfl
  | some id => simp [pasted, hid, id.ne_nil]; rfl

theorem parseRows_pasted {tasks : List Task} (h : ∀ task ∈ tasks, Copyable N task) (rowNumber : ℕ) :
    parseRows N rowNumber (tasks.map fun task => ['\t'].intercalate (rowCells N task)) =
      .ok (tasks.map pasted) := by
  induction tasks generalizing rowNumber with
  | nil => rfl
  | cons task tasks ih =>
    rw [List.map_cons, parseRows, parseRow_pasted (h task List.mem_cons_self),
      ih fun x hx => h x (List.mem_cons_of_mem task hx)]
    rfl

theorem newlines_clean {text : List Char} (h : '\r' ∉ text) : newlines text = text := by
  induction text using newlines.induct with
  | case1 => exact absurd List.mem_cons_self h
  | case2 => exact absurd List.mem_cons_self h
  | case3 ch rest _ _ ih =>
    rw [newlines, ih fun hmem => h (List.mem_cons_of_mem ch hmem)] <;> assumption
  | case4 => rfl

/-- **Round trip**: what is copied from tasks is pasted as one row for each, in their order. -/
theorem clipboard_round_trip {tasks : List Task} (hne : tasks ≠ []) (hcount : tasks.length ≤ 500)
    (h : ∀ task ∈ tasks, Copyable N task) :
    ∃ text, serializeTasksForClipboard N tasks = .ok text ∧
      parseTaskClipboard N text 500 = .ok (tasks.map pasted) := by
  have hheader : '\r' ∉ ['\t'].intercalate columns ∧ '\n' ∉ ['\t'].intercalate columns ∧
      (['\t'].intercalate columns).splitOn '\t' = columns := by decide +kernel
  obtain ⟨task, rest, rfl⟩ := List.exists_cons_of_ne_nil hne
  let rows := (task :: rest).map fun task => ['\t'].intercalate (rowCells N task)
  have hrows : ∀ row ∈ rows, row ≠ [] ∧ '\r' ∉ row ∧ '\n' ∉ row :=
    List.forall_mem_map.mpr fun task _ => row_clean task
  have hlines : (['\n'].intercalate (['\t'].intercalate columns :: rows)).splitOn '\n' =
      ['\t'].intercalate columns :: rows :=
    List.splitOn_intercalate '\n' (List.forall_mem_cons.mpr ⟨hheader.2.1, fun row hrow =>
      (hrows row hrow).2.2⟩) (List.cons_ne_nil _ _)
  have hreturn : '\r' ∉ ['\n'].intercalate (['\t'].intercalate columns :: rows) :=
    not_mem_intercalate (by decide)
      (List.forall_mem_cons.mpr ⟨hheader.1, fun row hrow => (hrows row hrow).2.1⟩)
  have htrailing : (['\t'].intercalate columns :: rows).rdropWhile (· = []) =
      ['\t'].intercalate columns :: rows := by
    refine List.rdropWhile_eq_self_iff.mpr fun hl hempty => ?_
    have hall : ∀ line ∈ ['\t'].intercalate columns :: rows, line ≠ [] :=
      List.forall_mem_cons.mpr ⟨by simp [columns], fun row hrow => (hrows row hrow).1⟩
    exact hall _ (List.getLast_mem hl) (of_decide_eq_true hempty)
  refine ⟨_, bind_ok.mpr ⟨rows, mapM_of_ok fun task htask => taskRow_ok (h task htask), rfl⟩, ?_⟩
  rw [parseTaskClipboard, newlines_clean hreturn, hlines, htrailing]
  have hmax : ¬(rest.map fun task => ['\t'].intercalate (rowCells N task)).length + 1 > 500 := by
    rw [List.length_map]
    exact not_lt.mpr hcount
  exact (if_neg hmax).trans ((if_neg (not_not.mpr hheader.2.2)).trans (parseRows_pasted h 2))

/-- The numbers 3 and 8, and their digits. -/
def sampleNumbers : Numbers where
  text n := if n = .fin 3 then ['3'] else ['8']
  read l := if l = ['3'] then .fin 3 else if l = ['8'] then .fin 8 else .nan

/-- A title with a tab, due on 2026-08-10. -/
def sampleTask : Task where
  title := [' ', 'a', '\t', 'b']
  status := .todo
  priority := .high
  assigneeId := none
  storyPoints := some (.fin 3)
  estimatedHours := some (.fin 8)
  dueDate := some (.time 1786320000000)

/-- A task whose last four cells are empty. -/
def bareTask : Task :=
  { sampleTask with title := ['c'], storyPoints := none, estimatedHours := none, dueDate := none }

theorem clipboard_round_trip_sample : ∃ text,
    serializeTasksForClipboard sampleNumbers [bareTask, sampleTask, bareTask, bareTask] = .ok text ∧
      parseTaskClipboard sampleNumbers text 500 =
        .ok [pasted bareTask, pasted sampleTask, pasted bareTask, pasted bareTask] := by
  have hbare : Copyable sampleNumbers bareTask := ⟨by decide, by nofun, by nofun, by nofun⟩
  have hsample : Copyable sampleNumbers sampleTask := by
    refine ⟨by decide, ?_, ?_, ?_⟩
    · rintro n ⟨⟩
      exact ⟨⟨by decide, plain_of_all (by decide), by decide⟩, 3, rfl, by norm_num, by norm_num⟩
    · rintro n ⟨⟩
      exact ⟨⟨by decide, plain_of_all (by decide), by decide⟩, 8, rfl, by norm_num, by norm_num⟩
    · rintro d ⟨⟩
      exact ⟨_, rfl, by decide +kernel⟩
  exact clipboard_round_trip (List.cons_ne_nil _ _) (by decide) (List.forall_mem_cons.mpr ⟨hbare,
    List.forall_mem_cons.mpr ⟨hsample, List.forall_mem_cons.mpr ⟨hbare,
      List.forall_mem_singleton.mpr hbare⟩⟩⟩)

end CalmBoard.Clipboard
