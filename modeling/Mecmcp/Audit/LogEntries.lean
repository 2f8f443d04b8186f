import Mecmcp.Audit.DeviceLog

/-!
# LogEntries — one entry of a device log after another

Both log parsers carry what the last header said from line to line.  A `commit` line of a git log
sets all of it.  An entry header of a Junos log sets it only if a UTC timestamp can be read from it;
the references of an entry without one are reported under the timestamp of the entry before.
-/

namespace Mecmcp.Audit

open List

/-! ### Git -/

def GitState.after (commits : List DeviceCommitRef) (state : GitState) : GitState :=
  { state with commits := commits ++ state.commits }

theorem GitState.step_after (commits : List DeviceCommitRef) (state : GitState) (line : Text) :
    (state.after commits).step line = (state.step line).after commits := by
  have hheader : (state.after commits).header line = (state.header line).after commits := by
    unfold GitState.header GitState.after
    split_ifs <;> cases secondPiece deviceMarker line <;> rfl
  unfold GitState.step
  rw [hheader]
  rcases state.header line with ⟨_ | sha, _ | device, found⟩ <;> simp only [GitState.after] <;>
    split_ifs <;> simp

/-- A `commit` line forgets what was carried. -/
theorem GitState.step_header {header : Text} (hheader : commitMarker.isPrefixOf header = true)
    (state : GitState) :
    state.step header = (GitState.step ⟨none, none, []⟩ header).after state.commits := by
  rw [← step_after]
  simp [GitState.step, GitState.header, GitState.after, hheader]

theorem parseDeviceLog_append {header : Text} (hheader : commitMarker.isPrefixOf header = true)
    (earlier later : List Text) :
    parseDeviceLog (earlier ++ header :: later) =
      parseDeviceLog earlier ++ parseDeviceLog (header :: later) := by
  unfold parseDeviceLog
  rw [foldl_append, foldl_cons, GitState.step_header hheader,
    foldl_hom (GitState.after _) fun state line => GitState.step_after _ state line]
  rfl

/-! ### Junos -/

/-- The line is not indented and starts with a digit. -/
def isEntryHeader (line : Text) : Bool :=
  !(line.head? = some ' ' ∨ line.head? = some '\t') &&
    (line.dropWhile isWhitespace).head?.any fun c => '0' ≤ c && c ≤ '9'

/-- The line is an entry header with a timestamp the parser reads. -/
def isDated (line : Text) : Bool := isEntryHeader line && (extractJunosTimestamp line).isSome

variable (deviceId : Text)

def JunosState.after (commits : List DeviceCommitRef) (state : JunosState) : JunosState :=
  { state with commits := commits ++ state.commits }

theorem JunosState.step_after (commits : List DeviceCommitRef) (state : JunosState) (line : Text) :
    (state.after commits).step deviceId line = (state.step deviceId line).after commits := by
  have hheader : (state.after commits).header line = (state.header line).after commits := by
    unfold JunosState.header JunosState.after
    split_ifs
    · rfl
    · cases extractJunosTimestamp line <;> rfl
    · rfl
  unfold JunosState.step
  rw [hheader]
  rcases state.header line with ⟨_ | timestamp, _ | _, found⟩ <;>
    by_cases hrequest : containsSub requestMarker line = true <;>
    by_cases hid : requestIdIn line = [] <;> simp [hrequest, hid, JunosState.after]

/-- A dated header forgets what was carried. -/
theorem JunosState.step_dated {line : Text} (hdated : isDated line = true) (state : JunosState) :
    state.step deviceId line = ⟨extractJunosTimestamp line, false, state.commits⟩ := by
  simp only [isDated, isEntryHeader, Bool.and_eq_true, Bool.not_eq_true',
    decide_eq_false_iff_not] at hdated
  obtain ⟨⟨hindent, hdigit⟩, hstamp⟩ := hdated
  obtain ⟨timestamp, hstamp⟩ := Option.isSome_iff_exists.mp hstamp
  simp [JunosState.step, JunosState.header, hindent, hdigit, hstamp]

theorem JunosState.foldl_after (commits : List DeviceCommitRef) (state : JunosState)
    (lines : List Text) : lines.foldl (JunosState.step deviceId) (state.after commits) =
      (lines.foldl (JunosState.step deviceId) state).after commits :=
  foldl_hom (JunosState.after commits) fun state line => step_after deviceId commits state line

def isIndented (line : Text) : Bool := line.head? = some ' ' ∨ line.head? = some '\t'

/-- An undated line keeps the date, and reports what it names in a comment under it. -/
theorem JunosState.step_undated (state : JunosState) {line : Text}
    (hline : isDated line = false) : state.step deviceId line =
      { state with
        inCommentBlock := state.inCommentBlock || isIndented line
        commits := state.commits ++
          if (state.inCommentBlock || isIndented line) ∧ requestIdIn line ≠ [] then
            (state.timestamp.map fun t => ⟨deviceId, t, requestIdIn line⟩).toList
          else [] } := by
  have hheader : state.header line =
      { state with inCommentBlock := state.inCommentBlock || isIndented line } := by
    unfold JunosState.header
    split_ifs with hindent hdigit
    · simp [isIndented, hindent]
    · have hstamp : extractJunosTimestamp line = none := by
        simpa [isDated, isEntryHeader, hindent, hdigit] using hline
      simp [hstamp, isIndented, hindent]
    · simp [isIndented, hindent]
  have hmarker : containsSub requestMarker line = false → requestIdIn line = [] := by
    intro h
    rcases hfind : findSub requestMarker line with _ | i
    · simp [requestIdIn, secondPiece, hfind]
    · simp [containsSub, hfind] at h
  rw [JunosState.step, hheader]
  rcases state with ⟨_ | timestamp, block, commits⟩ <;>
    rcases hcontains : containsSub requestMarker line with _ | _ <;>
    rcases hblock : block || isIndented line with _ | _ <;>
    by_cases hid : requestIdIn line = [] <;> simp_all

/-- The references of the lines before the first dated header, read in a state. -/
def JunosState.undated (state : JunosState) (lines : List Text) : List DeviceCommitRef :=
  ((lines.takeWhile fun line => !isDated line).foldl (JunosState.step deviceId)
    { state with commits := [] }).commits

theorem JunosState.foldl_undated {fresh : JunosState} (hnone : fresh.timestamp = none)
    (hfresh : fresh.commits = []) (state : JunosState) (lines : List Text) :
    (lines.foldl (JunosState.step deviceId) state).commits = state.commits ++
      (state.undated deviceId lines ++ (lines.foldl (JunosState.step deviceId) fresh).commits) := by
  induction lines generalizing state fresh with
  | nil => simp [undated, hfresh]
  | cons line lines ih =>
    have hstate : ∀ state : JunosState, state = after state.commits { state with commits := [] } :=
      fun state => by simp [after]
    cases hdated : isDated line with
    | true =>
      rw [foldl_cons, foldl_cons, step_dated deviceId hdated, step_dated deviceId hdated fresh,
        hfresh, hstate ⟨_, _, state.commits⟩, foldl_after, undated,
        takeWhile_cons_of_neg (by simp [hdated])]
      rfl
    | false =>
      have hnone' : (fresh.step deviceId line).timestamp = none := by
        rw [step_undated deviceId fresh hdated, hnone]
      have hfresh' : (fresh.step deviceId line).commits = [] := by
        simp [step_undated deviceId fresh hdated, hnone, hfresh]
      rw [foldl_cons, foldl_cons, ih hnone' hfresh', undated, undated,
        takeWhile_cons_of_pos (by simp [hdated]), foldl_cons, ← append_assoc, ← append_assoc]
      conv_lhs => rw [hstate state, step_after]
      conv_rhs => rw [hstate (step deviceId _ line), foldl_after]
      simp [after]

theorem JunosState.undated_eq_nil {state : JunosState} (hnone : state.timestamp = none)
    (lines : List Text) : state.undated deviceId lines = [] := by
  have hself := @foldl_undated deviceId { state with commits := [] } hnone rfl
    { state with commits := [] } lines
  exact append_left_eq_self.mp hself.symm

/-- The references of the lines before the first dated header, read after `earlier`. -/
def misreported (earlier lines : List Text) : List DeviceCommitRef :=
  (earlier.foldl (JunosState.step deviceId) ⟨none, false, []⟩).undated deviceId lines

theorem parseJunosNativeLog_append (earlier lines : List Text) :
    parseJunosNativeLog deviceId (earlier ++ lines) = parseJunosNativeLog deviceId earlier ++
      (misreported deviceId earlier lines ++ parseJunosNativeLog deviceId lines) := by
  unfold parseJunosNativeLog
  rw [foldl_append]
  exact JunosState.foldl_undated deviceId rfl rfl _ lines

/-! ### The lines whose references go to another entry -/

/-- `line` stands before the first dated header of `lines`, in the comment of an entry whose date is
that of `earlier`. -/
def TakesDate (earlier lines : List Text) (line : Text) : Prop :=
  ∃ before header since front back, earlier = before ++ header :: since ∧
    isDated header = true ∧ lines = front ++ line :: back ∧
    (∀ l ∈ since ++ (front ++ [line]), isDated l = false) ∧
    ∃ l ∈ since ++ (front ++ [line]), isIndented l = true

/-- The state the lines of a log leave: the date of the last dated header, and whether an indented
line has followed it. -/
theorem JunosState.foldl_carried (earlier : List Text) :
    (∃ before header since, earlier = before ++ header :: since ∧ isDated header = true ∧
      (∀ l ∈ since, isDated l = false) ∧
      (earlier.foldl (step deviceId) ⟨none, false, []⟩).timestamp.isSome = true ∧
      (earlier.foldl (step deviceId) ⟨none, false, []⟩).inCommentBlock = since.any isIndented) ∨
    ((∀ l ∈ earlier, isDated l = false) ∧
      (earlier.foldl (step deviceId) ⟨none, false, []⟩).timestamp = none) := by
  induction earlier using reverseRecOn with
  | nil => exact .inr ⟨by simp, rfl⟩
  | append_singleton earlier line ih =>
    rw [foldl_append, foldl_cons, foldl_nil]
    cases hdated : isDated line with
    | true =>
      rw [step_dated deviceId hdated]
      have hstamp : (extractJunosTimestamp line).isSome = true := by simp_all [isDated]
      exact .inl ⟨earlier, line, [], rfl, hdated, by simp, hstamp, rfl⟩
    | false =>
      rw [step_undated deviceId _ hdated]
      rcases ih with ⟨before, header, since, rfl, hheader, hsince, hstamp, hblock⟩ | ⟨hnone, hstamp⟩
      · refine .inl ⟨before, header, since ++ [line], by simp, hheader, ?_, hstamp, ?_⟩
        · simpa [or_imp, forall_and, hdated] using hsince
        · simp only [hblock, any_append, any_cons, any_nil, Bool.or_false]
      · exact .inr ⟨by simpa [or_imp, forall_and, hdated] using hnone, hstamp⟩

/-- No undated line reports a reference if those in a comment name no request. -/
theorem JunosState.foldl_silent {lines : List Text} (hlines : ∀ l ∈ lines, isDated l = false)
    {state : JunosState} (hstamp : state.timestamp.isSome = true) (hfresh : state.commits = []) :
    (lines.foldl (step deviceId) state).commits = [] ↔
      ∀ front line back, lines = front ++ line :: back →
        (state.inCommentBlock = true ∨ ∃ l ∈ front ++ [line], isIndented l = true) →
        requestIdIn line = [] := by
  induction lines generalizing state with
  | nil => simp [hfresh]
  | cons line lines ih =>
    have hline := hlines line mem_cons_self
    obtain ⟨timestamp, hstamp⟩ := Option.isSome_iff_exists.mp hstamp
    rw [foldl_cons, step_undated deviceId state hline, hstamp, hfresh, nil_append]
    by_cases hnames : (state.inCommentBlock || isIndented line) = true ∧ requestIdIn line ≠ []
    · have hblock : state.inCommentBlock = true ∨ ∃ l ∈ [] ++ [line], isIndented l = true := by
        simpa using hnames.1
      rw [if_pos hnames]
      refine iff_of_false ?_ fun h => hnames.2 (h [] line lines rfl hblock)
      have hafter := foldl_after deviceId [⟨deviceId, timestamp, requestIdIn line⟩]
        ⟨some timestamp, state.inCommentBlock || isIndented line, []⟩ lines
      rw [after, append_nil] at hafter
      simp [hafter, after]
    · rw [if_neg hnames, ih (fun l hl => hlines l (mem_cons_of_mem _ hl)) rfl rfl]
      constructor
      · intro h front named back hsplit hblock
        rcases front with _ | ⟨first, front⟩
        · obtain ⟨rfl, rfl⟩ := cons.inj hsplit
          by_contra hid
          exact hnames ⟨by simpa using hblock, hid⟩
        · obtain ⟨rfl, rfl⟩ := cons.inj hsplit
          refine h front named back rfl ?_
          simpa [or_assoc] using hblock
      · intro h front named back hsplit hblock
        refine h (line :: front) named back (by rw [hsplit, cons_append]) ?_
        simpa [or_assoc] using hblock

/-- The lines before the first dated one, and those after the last. -/
theorem takeWhile_undated {front back : List Text} {header : Text}
    (hfront : ∀ l ∈ front, isDated l = false) (hheader : isDated header = true) :
    (front ++ header :: back).takeWhile (!isDated ·) = front := by
  rw [takeWhile_append_of_pos (by simpa using hfront), takeWhile_cons_of_neg (by simp [hheader]),
    append_nil]

theorem since_unique {before before' since since' : List Text} {header header' : Text}
    (h : before ++ header :: since = before' ++ header' :: since') (hheader : isDated header = true)
    (hheader' : isDated header' = true) (hsince : ∀ l ∈ since, isDated l = false)
    (hsince' : ∀ l ∈ since', isDated l = false) : since = since' := by
  have hreverse := congrArg (fun l => l.reverse.takeWhile (!isDated ·)) h
  simp only [reverse_append, reverse_cons, append_assoc, singleton_append] at hreverse
  rwa [takeWhile_undated (by simpa using hsince) hheader,
    takeWhile_undated (by simpa using hsince') hheader', reverse_inj] at hreverse

theorem misreported_eq_nil {earlier lines : List Text} :
    misreported deviceId earlier lines = [] ↔
      ∀ line, TakesDate earlier lines line → requestIdIn line = [] := by
  have hundated : ∀ l ∈ lines.takeWhile (!isDated ·), isDated l = false := fun l hl => by
    simpa using mem_takeWhile_imp hl
  rcases JunosState.foldl_carried deviceId earlier with
    ⟨before, header, since, rfl, hheader, hsince, hstamp, hblock⟩ | ⟨hnone, hstamp⟩
  · refine (JunosState.foldl_silent deviceId hundated (by exact hstamp) rfl).trans ?_
    simp only [hblock]
    constructor
    · rintro h line ⟨before', header', since', front, back, hsplit, hheader', rfl, hall, hindent⟩
      obtain rfl := since_unique hsplit hheader hheader' hsince fun l hl => hall l (by simp [hl])
      refine h front line (back.takeWhile (!isDated ·)) ?_ ?_
      · rw [takeWhile_append_of_pos, takeWhile_cons_of_pos]
        · simpa using hall line (by simp)
        · exact fun l hl => by simpa using hall l (by simp [hl])
      · simpa [or_and_right, exists_or] using hindent
    · intro h front line back hsplit hindent
      refine h line ⟨before, header, since, front, back ++ lines.dropWhile (!isDated ·), rfl,
        hheader, ?_, ?_, ?_⟩
      · rw [← cons_append, ← append_assoc, ← hsplit, takeWhile_append_dropWhile]
      · intro l hl
        rcases mem_append.mp hl with hl | hl
        · exact hsince l hl
        · refine hundated l (hsplit ▸ ?_)
          simp only [mem_append, mem_cons, not_mem_nil, or_false] at hl ⊢
          exact hl.imp_right .inl
      · simpa [or_and_right, exists_or] using hindent
  · refine iff_of_true ?_ ?_
    · exact JunosState.undated_eq_nil deviceId hstamp lines
    · rintro line ⟨before, header, since, -, -, rfl, hheader, -⟩
      simpa [hheader] using hnone header (by simp)

/-- **Logs one after another.**  A git log followed by one that starts with a `commit` line is
parsed as the two; a Junos log followed by one that starts with an entry header is exactly if no
line names a request that stands before the first dated header of the second, in the comment of an
entry, and after a dated header of the first. -/
theorem log_entries_independent_iff (deviceId : Option Text) (earlier later : List Text)
    (header : Text) :
    (commitMarker.isPrefixOf header = true →
      parseDeviceLogWithFormat .git deviceId (earlier ++ header :: later) =
        parseDeviceLogWithFormat .git deviceId earlier ++
          parseDeviceLogWithFormat .git deviceId (header :: later)) ∧
    (isEntryHeader header = true →
      (parseDeviceLogWithFormat .junosNative deviceId (earlier ++ header :: later) =
          parseDeviceLogWithFormat .junosNative deviceId earlier ++
            parseDeviceLogWithFormat .junosNative deviceId (header :: later) ↔
        ∀ line, TakesDate earlier (header :: later) line → requestIdIn line = [])) := by
  refine ⟨fun hheader => parseDeviceLog_append hheader _ _, fun _ => ?_⟩
  simp only [parseDeviceLogWithFormat, parseJunosNativeLog_append, append_cancel_left_eq,
    append_left_eq_self, misreported_eq_nil]

/-- An entry with a local time is reported under the time of the entry before. -/
theorem local_time_entry_misreported :
    parseDeviceLogWithFormat .junosNative none
        ["0 2026-08-12 18:36:55 UTC by a".toList, " request.id=x".toList] =
      [⟨"unknown".toList, "2026-08-12T18:36:55Z".toList, "x".toList⟩] ∧
    parseDeviceLogWithFormat .junosNative none
        (["0 2026-08-12 18:36:55 UTC by a".toList, " request.id=x".toList] ++
          ["1 2026-08-12 17:58:05 PDT by a".toList, " request.id=y".toList]) =
      [⟨"unknown".toList, "2026-08-12T18:36:55Z".toList, "x".toList⟩,
        ⟨"unknown".toList, "2026-08-12T18:36:55Z".toList, "y".toList⟩] ∧
    parseDeviceLogWithFormat .junosNative none
      ["1 2026-08-12 17:58:05 PDT by a".toList, " request.id=y".toList] = [] := by
  decide

end Mecmcp.Audit
