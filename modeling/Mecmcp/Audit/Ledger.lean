import Mecmcp.Changeset.Preimage

/-!
# Ledger — the delivery ledger

`delivery_ledger.rs`: a file of JSON lines, appended to by the `mark` calls and read by `open`,
which first cuts off an unterminated last line.  A write may stop after any number of bytes.

`ledger_reopens_iff` says that the ledger opens again to what was acknowledged exactly if no line
was completed on a handle that had left an unterminated one behind: `open` repairs the end of the
file, the calls in between do not.
-/

namespace Mecmcp.Audit

open List Option

open Changeset (samplePrinter)

variable {buffer bytes : List UInt8} {scan next : Scan} {byte : UInt8} {lines : List (List UInt8)}

/-! ### Entries -/

structure SegmentId where
  serverId : String
  runId : String
  segmentSeq : UInt64
  deriving DecidableEq

inductive DeliveryStatus where
  | pending
  | delivered (deliveredAt : String)
  | failed (failedAt error : String) (attempts : UInt64)
  deriving DecidableEq

/-- `LedgerEntry`: the members of the id, with those of the status flattened in. -/
structure LedgerEntry where
  id : SegmentId
  status : DeliveryStatus
  deriving DecidableEq

/-- The tag and the members of a status. -/
def encodeStatus : DeliveryStatus → List (String × Json)
  | .pending => [("status", .str "pending")]
  | .delivered deliveredAt => [("status", .str "delivered"), ("delivered_at", .str deliveredAt)]
  | .failed failedAt error attempts =>
    [("status", .str "failed"), ("failed_at", .str failedAt), ("error", .str error),
      ("attempts", .ofUInt64 attempts)]

/-- `LedgerEntry`, serialized. -/
def encodeEntry (entry : LedgerEntry) : Json :=
  .obj ([("server_id", .str entry.id.serverId), ("run_id", .str entry.id.runId),
    ("segment_seq", .ofUInt64 entry.id.segmentSeq)] ++ encodeStatus entry.status)

/-- `serde_json::to_string` on an entry. -/
def entryText (P : Printer) (entry : LedgerEntry) : List UInt8 := P.render (encodeEntry entry)

/-- Unfinished writes: non-empty fronts of entries, one after the other. -/
def Fragments (P : Printer) (fragments : List (List UInt8)) : Prop :=
  ∀ fragment ∈ fragments, fragment ≠ [] ∧ ∃ entry, fragment <+: entryText P entry

/-- How `serde_json` writes entries, and what `open` makes of a line: decoding, the test for a blank
line and `serde_json::from_str`. -/
structure EntryCodec where
  printer : Printer
  newline_not_mem : ∀ entry, 10 ∉ entryText printer entry
  /-- `none` is an error, `some none` a blank line. -/
  readLine : List UInt8 → Option (Option LedgerEntry)
  readLine_text : ∀ entry, readLine (entryText printer entry) = some (some entry)
  /-- An entry behind unfinished ones is not read. -/
  readLine_welded : ∀ fragments entry, fragments ≠ [] → Fragments printer fragments →
    readLine (fragments.flatten ++ entryText printer entry) = none

/-- What `write_entry` writes. -/
def entryLine (C : EntryCodec) (entry : LedgerEntry) : List UInt8 :=
  entryText C.printer entry ++ [10]

/-! ### The file -/

/-- `Iterator::rposition` of a newline. -/
def rposition (buffer : List UInt8) : Option ℕ :=
  (buffer.reverse.findIdx? (· == 10)).map fun i => buffer.length - 1 - i

/-- The loop of `last_newline_end`: the file is searched backwards, `size` bytes at a time. -/
def searchBackwards (size : ℕ) (hsize : 0 < size) (file : List UInt8) (stop : ℕ) : ℕ :=
  if stop = 0 then 0
  else
    let start := stop - size
    match rposition ((file.take stop).drop start) with
    | some offset => start + offset + 1
    | none => searchBackwards size hsize file start
termination_by stop
decreasing_by omega

def chunk : ℕ := 8192

def lastNewlineEnd (file : List UInt8) (length : ℕ) : ℕ :=
  searchBackwards chunk (by decide) file length

/-- `BufRead::lines`: the pieces before newlines, and what stands behind the last one. -/
def linesOf (file : List UInt8) : List (List UInt8) :=
  let pieces := file.splitOn 10
  let pieces := if pieces.getLast? = some [] then pieces.dropLast else pieces
  pieces.map fun piece => if piece.getLast? = some 13 then piece.dropLast else piece

abbrev Index : Type := SegmentId → Option DeliveryStatus

/-- `index.insert`. -/
def Index.insert (index : Index) (entry : LedgerEntry) : Index :=
  fun id => if id = entry.id then some entry.status else index id

section
variable (C : EntryCodec)

/-- The loop of `open` over the lines. -/
def loadLines : List (List UInt8) → Index → Option Index
  | [], index => some index
  | line :: lines, index =>
    match C.readLine line with
    | none => none
    | some none => loadLines lines index
    | some (some entry) => loadLines lines (index.insert entry)

/-- `DeliveryLedger::open`: the file as it leaves it, and the index; `none` where it fails. -/
def openLedger (file : List UInt8) : Option (List UInt8 × Index) :=
  let file := file.take (lastNewlineEnd file file.length)
  (loadLines C (linesOf file) fun _ => none).map fun index => (file, index)

/-! ### Runs -/

/-- A call on the ledger or a restart of its process. -/
inductive LedgerEvent where
  /-- `mark_pending`, `mark_delivered` or `mark_failed`; where the write failed, the number of bytes
  written before that -/
  | mark (entry : LedgerEntry) (failure : Option ℕ)
  | crash

/-- The bytes a `mark` call adds to the file. -/
def written (entry : LedgerEntry) : Option ℕ → List UInt8
  | none => entryLine C entry
  | some bytes => (entryLine C entry).take bytes

/-- The file after the events, where every `open` on the way succeeds. -/
def fileAfter (file : List UInt8) : List LedgerEvent → Option (List UInt8)
  | [] => some file
  | .mark entry failure :: events => fileAfter (file ++ written C entry failure) events
  | .crash :: events =>
    match openLedger C file with
    | none => none
    | some (file, _) => fileAfter file events

/-- The whole line is in the file. -/
def completed (entry : LedgerEntry) : Option ℕ → Bool
  | none => true
  | some bytes => decide ((entryLine C entry).length ≤ bytes)

/-- The status of the last call for an id that returned `Ok`, or whose line was written whole. -/
def acknowledged (index : Index) : List LedgerEvent → Index
  | [] => index
  | .mark entry failure :: events =>
    acknowledged (if completed C entry failure then index.insert entry else index) events
  | .crash :: events => acknowledged index events

/-- `open` succeeds after the events, and to what was acknowledged. -/
def Reopens (events : List LedgerEvent) : Prop :=
  ∃ file, fileAfter C [] events = some file ∧
    ∃ file' index, openLedger C file = some (file', index) ∧
      index = acknowledged C (fun _ => none) events

/-- No line is completed on a handle that has left an unterminated one behind. -/
def NoneWelded (torn : Bool) : List LedgerEvent → Prop
  | [] => True
  | .mark entry failure :: events =>
    if completed C entry failure then torn = false ∧ NoneWelded false events
    else NoneWelded (torn || !(written C entry failure).isEmpty) events
  | .crash :: events => NoneWelded false events

end

/-! ### The end of the file -/

/-- The file up to its last newline. -/
def complete (file : List UInt8) : List UInt8 := (file.reverse.dropWhile (· != 10)).reverse

theorem complete_append_of_not_mem (front : List UInt8) {back : List UInt8} (h : 10 ∉ back) :
    complete (front ++ back) = complete front := by
  rw [complete, reverse_append, dropWhile_append_of_pos]
  · rfl
  · intro byte hbyte
    have hne : byte ≠ 10 := fun heq => h (heq ▸ mem_reverse.mp hbyte)
    simpa using hne

theorem complete_append_newline (front : List UInt8) :
    complete (front ++ [10]) = front ++ [10] := by
  simp [complete]

theorem rposition_some {offset : ℕ} (h : rposition buffer = some offset) :
    ∃ front back, buffer = front ++ 10 :: back ∧ 10 ∉ back ∧ front.length = offset := by
  obtain ⟨i, hi, hoffset⟩ := map_eq_some_iff.mp h
  obtain ⟨hlt, hnewline, hbefore⟩ := findIdx?_eq_some_iff_getElem.mp hi
  have hsplit : buffer.reverse = buffer.reverse.take i ++ 10 :: buffer.reverse.drop (i + 1) := by
    have hcons := drop_eq_getElem_cons hlt
    rw [beq_iff_eq.mp hnewline] at hcons
    rw [← hcons, take_append_drop]
  refine ⟨(buffer.reverse.drop (i + 1)).reverse, (buffer.reverse.take i).reverse, ?_, ?_, ?_⟩
  · have hreverse := congrArg List.reverse hsplit
    rw [reverse_reverse, reverse_append, reverse_cons, append_assoc] at hreverse
    exact hreverse
  · intro hmem
    obtain ⟨j, hj, hget⟩ := mem_iff_getElem.mp (mem_reverse.mp hmem)
    rw [length_take] at hj
    rw [getElem_take] at hget
    exact hbefore j (by omega) (by simp [hget])
  · rw [length_reverse, length_drop, length_reverse]
    rw [length_reverse] at hlt
    omega

theorem rposition_none (h : rposition buffer = none) : 10 ∉ buffer := by
  intro hmem
  have hfind := findIdx?_eq_none_iff.mp (map_eq_none_iff.mp h)
  have hne := hfind 10 (mem_reverse.mpr hmem)
  simp at hne

theorem take_searchBackwards {size : ℕ} (hsize : 0 < size) (file : List UInt8) (stop : ℕ)
    (hstop : stop ≤ file.length) :
    file.take (searchBackwards size hsize file stop) = complete (file.take stop) := by
  induction stop using Nat.strong_induction_on with
  | _ stop ih =>
    rw [searchBackwards]
    by_cases hzero : stop = 0
    · subst hzero
      simp [complete]
    · have hsplit : file.take stop =
          file.take (stop - size) ++ (file.take stop).drop (stop - size) := by
        conv_lhs => rw [← take_append_drop (stop - size) (file.take stop), take_take,
          min_eq_left (Nat.sub_le _ _)]
      rw [if_neg hzero]
      dsimp only
      cases hfound : rposition ((file.take stop).drop (stop - size)) with
      | none =>
        dsimp only
        rw [ih (stop - size) (by omega) (by omega)]
        rw [hsplit, complete_append_of_not_mem _ (rposition_none hfound)]
      | some offset =>
        obtain ⟨front, back, hbuffer, hback, hlength⟩ := rposition_some hfound
        have hfile : file.take stop = (file.take (stop - size) ++ front ++ [10]) ++ back := by
          rw [hsplit, hbuffer]
          simp
        have hend :
            (file.take (stop - size) ++ front ++ [10]).length = stop - size + offset + 1 := by
          simp only [length_append, length_take, length_singleton, hlength]
          omega
        have hle : stop - size + offset + 1 ≤ stop := by
          have hlen := congrArg List.length hfile
          rw [length_append, hend, length_take] at hlen
          omega
        have htake : file.take (stop - size + offset + 1) =
            file.take (stop - size) ++ front ++ [10] := by
          have heq : file.take (stop - size + offset + 1) =
              (file.take stop).take (stop - size + offset + 1) := by
            rw [take_take, min_eq_left hle]
          rw [heq, hfile, ← hend, take_left]
        dsimp only
        rw [htake, hfile, complete_append_of_not_mem _ hback, complete_append_newline]

theorem take_lastNewlineEnd (file : List UInt8) :
    file.take (lastNewlineEnd file file.length) = complete file := by
  rw [lastNewlineEnd, take_searchBackwards _ file file.length le_rfl, take_length]

/-! ### The text of an entry -/

theorem entry_members (entry : LedgerEntry) : ∃ fields, encodeEntry entry = .obj fields ∧
    ∀ field ∈ fields, (∃ s, field.2 = .str s) ∨ ∃ n, field.2 = .num n := by
  obtain ⟨id, status⟩ := entry
  cases status <;> exact ⟨_, rfl, by simp [encodeStatus, Json.ofUInt64]⟩

theorem entryText_shape (P : Printer) (entry : LedgerEntry) :
    ∃ inner, entryText P entry = 123 :: (inner ++ [125]) := by
  obtain ⟨fields, hfields, -⟩ := entry_members entry
  refine ⟨P.renderFields true fields, ?_⟩
  rw [entryText, hfields, Printer.render]

theorem getLast?_append_entryText (P : Printer) (front : List UInt8) (entry : LedgerEntry) :
    (front ++ entryText P entry).getLast? = some 125 := by
  obtain ⟨inner, htext⟩ := entryText_shape P entry
  rw [htext, ← cons_append, ← append_assoc, getLast?_concat]

theorem Fragments.newline_not_mem {C : EntryCodec} {fragments : List (List UInt8)}
    (h : Fragments C.printer fragments) : 10 ∉ fragments.flatten := by
  intro hmem
  obtain ⟨fragment, hfragment, hmem⟩ := mem_flatten.mp hmem
  obtain ⟨-, entry, hfront⟩ := h fragment hfragment
  exact C.newline_not_mem entry (hfront.subset hmem)

/-! ### The lines of a file -/

/-- Terminated lines, and what stands behind the last newline. -/
def layout (lines : List (List UInt8)) (tail : List UInt8) : List UInt8 :=
  (lines.map (· ++ [10])).flatten ++ tail

theorem layout_append (lines : List (List UInt8)) (tail more : List UInt8) :
    layout lines tail ++ more = layout lines (tail ++ more) := by
  rw [layout, layout, append_assoc]

theorem layout_concat (lines : List (List UInt8)) (line tail : List UInt8) :
    layout lines (line ++ 10 :: tail) = layout (lines ++ [line]) tail := by
  simp [layout]

variable {tail : List UInt8}

theorem complete_layout (lines : List (List UInt8)) (h : 10 ∉ tail) :
    complete (layout lines tail) = layout lines [] := by
  rw [layout, complete_append_of_not_mem _ h, layout, append_nil]
  induction lines using List.reverseRecOn with
  | nil => rfl
  | append_singleton lines line _ =>
    rw [map_append, flatten_append, map_singleton, flatten_singleton,
      ← append_assoc, complete_append_newline]

theorem splitOn_layout (h : ∀ line ∈ lines, 10 ∉ line)
    (tail : List UInt8) : (layout lines tail).splitOn 10 = lines ++ tail.splitOn 10 := by
  induction lines with
  | nil => rfl
  | cons line lines ih =>
    have hcons : layout (line :: lines) tail = line ++ 10 :: layout lines tail := by
      simp [layout]
    rw [hcons, splitOn_append_cons_self_of_not_mem (h line mem_cons_self),
      ih fun l hl => h l (.tail _ hl)]
    rfl

theorem linesOf_layout (h : ∀ line ∈ lines, 10 ∉ line ∧ line.getLast? ≠ some 13) :
    linesOf (layout lines []) = lines := by
  have hsplit : (layout lines []).splitOn 10 = lines ++ [[]] :=
    splitOn_layout (fun line hline => (h line hline).1) []
  rw [linesOf, hsplit, getLast?_concat, if_pos rfl, dropLast_concat]
  refine (map_congr_left fun line hline => ?_).trans (List.map_id _)
  rw [if_neg (h line hline).2]
  rfl

variable (C : EntryCodec)

theorem loadLines_text (entries : List LedgerEntry) (index : Index) :
    loadLines C (entries.map (entryText C.printer)) index =
      some (entries.foldl Index.insert index) := by
  induction entries generalizing index with
  | nil => rfl
  | cons entry entries ih =>
    rw [map_cons, loadLines, C.readLine_text]
    exact ih _

theorem loadLines_bad {lines : List (List UInt8)} {line : List UInt8} (hline : line ∈ lines)
    (hbad : C.readLine line = none) (index : Index) : loadLines C lines index = none := by
  induction lines generalizing index with
  | nil => cases hline
  | cons first lines ih =>
    rw [loadLines]
    rcases mem_cons.mp hline with rfl | hline
    · rw [hbad]
    · cases C.readLine first with
      | none => rfl
      | some entry =>
        cases entry with
        | none => exact ih hline _
        | some entry => exact ih hline _

/-! ### Intact and broken files -/

/-- Entries on lines of their own, with unfinished writes behind the last newline. -/
structure Intact (file : List UInt8) (torn : Bool) (entries : List LedgerEntry)
    (fragments : List (List UInt8)) : Prop where
  file_eq : file = layout (entries.map (entryText C.printer)) fragments.flatten
  fronts : Fragments C.printer fragments
  torn_eq : torn = !fragments.isEmpty

/-- Terminated lines, one of which cannot be read. -/
structure Broken (file : List UInt8) (lines : List (List UInt8)) (tail : List UInt8) : Prop where
  file_eq : file = layout lines tail
  terminated : ∀ line ∈ lines, 10 ∉ line ∧ line.getLast? ≠ some 13
  unterminated : 10 ∉ tail
  bad : ∃ line ∈ lines, C.readLine line = none

theorem entryText_line (front : List UInt8) (hfront : 10 ∉ front) (entry : LedgerEntry) :
    10 ∉ front ++ entryText C.printer entry ∧
      (front ++ entryText C.printer entry).getLast? ≠ some 13 := by
  refine ⟨?_, ?_⟩
  · rw [mem_append, not_or]
    exact ⟨hfront, C.newline_not_mem entry⟩
  · rw [getLast?_append_entryText]
    decide

variable {C} {file : List UInt8} {entries : List LedgerEntry} {torn : Bool}

theorem openLedger_intact {fragments : List (List UInt8)} (h : Intact C file torn entries fragments) :
    openLedger C file = some (layout (entries.map (entryText C.printer)) [],
      entries.foldl Index.insert fun _ => none) := by
  have hlines : ∀ line ∈ entries.map (entryText C.printer),
      10 ∉ line ∧ line.getLast? ≠ some 13 := by
    intro line hline
    obtain ⟨entry, -, rfl⟩ := List.mem_map.mp hline
    exact entryText_line C [] (by simp) entry
  rw [openLedger, take_lastNewlineEnd, h.file_eq, complete_layout _ h.fronts.newline_not_mem,
    linesOf_layout hlines, loadLines_text]
  rfl

theorem openLedger_broken {lines : List (List UInt8)}
    (h : Broken C file lines tail) : openLedger C file = none := by
  obtain ⟨line, hline, hbad⟩ := h.bad
  rw [openLedger, take_lastNewlineEnd, h.file_eq, complete_layout _ h.unterminated,
    linesOf_layout h.terminated, loadLines_bad C hline hbad]
  rfl

/-! ### One call -/

variable {failure : Option ℕ} {entry : LedgerEntry}

theorem written_completed (h : completed C entry failure = true) :
    written C entry failure = entryText C.printer entry ++ [10] := by
  cases failure with
  | none => rfl
  | some bytes => exact take_of_length_le (of_decide_eq_true h)

theorem written_fragment (h : completed C entry failure = false) :
    written C entry failure <+: entryText C.printer entry := by
  cases failure with
  | none => cases h
  | some bytes =>
    have hbytes : bytes < (entryText C.printer entry ++ [10]).length :=
      Nat.not_le.mp (of_decide_eq_false h)
    rw [length_append, length_singleton] at hbytes
    rw [written, entryLine, take_append_of_le_length (by omega)]
    exact take_prefix _ _

theorem Intact.mark_completed (h : Intact C file false entries [])
    (hcompleted : completed C entry failure = true) :
    Intact C (file ++ written C entry failure) false (entries ++ [entry]) [] where
  file_eq := by
    rw [h.file_eq, layout_append, flatten_nil, nil_append, written_completed hcompleted,
      layout_concat, map_append, map_singleton]
  fronts := h.fronts
  torn_eq := rfl

theorem Intact.mark_welded {fragments : List (List UInt8)} (h : Intact C file true entries fragments)
    (hcompleted : completed C entry failure = true) :
    Broken C (file ++ written C entry failure)
      (entries.map (entryText C.printer) ++ [fragments.flatten ++ entryText C.printer entry]) [] where
  file_eq := by
    rw [h.file_eq, layout_append, written_completed hcompleted, ← append_assoc, layout_concat]
  terminated := by
    intro line hline
    rcases mem_append.mp hline with hline | hline
    · obtain ⟨entry, -, rfl⟩ := List.mem_map.mp hline
      exact entryText_line C [] (by simp) entry
    · rw [mem_singleton.mp hline]
      exact entryText_line C _ h.fronts.newline_not_mem entry
  unterminated := by simp
  bad := by
    have hne : fragments ≠ [] := by
      rintro rfl
      exact absurd h.torn_eq (by decide)
    exact ⟨_, mem_append_right _ (mem_singleton_self _),
      C.readLine_welded fragments entry hne h.fronts⟩

theorem Intact.mark_torn {fragments : List (List UInt8)} (h : Intact C file torn entries fragments)
    (hcompleted : completed C entry failure = false) :
    ∃ fragments', Intact C (file ++ written C entry failure)
      (torn || !(written C entry failure).isEmpty) entries fragments' := by
  have hfront := written_fragment hcompleted
  cases hwritten : written C entry failure with
  | nil =>
    refine ⟨fragments, ?_, h.fronts, ?_⟩
    · rw [append_nil, h.file_eq]
    · rw [isEmpty_nil, Bool.not_true, Bool.or_false, h.torn_eq]
  | cons byte rest =>
    rw [hwritten] at hfront
    refine ⟨fragments ++ [byte :: rest], ?_, ?_, ?_⟩
    · rw [h.file_eq, layout_append, flatten_append, flatten_singleton]
    · intro fragment hfragment
      rcases mem_append.mp hfragment with hfragment | hfragment
      · exact h.fronts fragment hfragment
      · rw [mem_singleton.mp hfragment]
        exact ⟨cons_ne_nil _ _, entry, hfront⟩
    · simp

theorem Broken.mark {lines : List (List UInt8)}
    (h : Broken C file lines tail) (entry : LedgerEntry) (failure : Option ℕ) :
    ∃ lines' tail', Broken C (file ++ written C entry failure) lines' tail' := by
  obtain ⟨line, hline, hbad⟩ := h.bad
  cases hcompleted : completed C entry failure with
  | true =>
    refine ⟨lines ++ [tail ++ entryText C.printer entry], [], ?_, ?_, by simp,
      line, mem_append_left _ hline, hbad⟩
    · rw [h.file_eq, layout_append, written_completed hcompleted, ← append_assoc,
        layout_concat]
    · intro l hl
      rcases mem_append.mp hl with hl | hl
      · exact h.terminated l hl
      · rw [mem_singleton.mp hl]
        exact entryText_line C _ h.unterminated entry
  | false =>
    have hfront := written_fragment hcompleted
    refine ⟨lines, tail ++ written C entry failure, ?_, h.terminated, ?_, line, hline, hbad⟩
    · rw [h.file_eq, layout_append]
    · rw [mem_append, not_or]
      exact ⟨h.unterminated, fun hmem => C.newline_not_mem entry (hfront.subset hmem)⟩

/-! ### Whole runs -/

def OpensTo (C : EntryCodec) (file : List UInt8) (events : List LedgerEvent) (index : Index) :
    Prop :=
  ∃ last, fileAfter C file events = some last ∧
    ∃ file' index', openLedger C last = some (file', index') ∧ index' = index

theorem Broken.not_opensTo {lines : List (List UInt8)}
    (h : Broken C file lines tail) (events : List LedgerEvent) (index : Index) :
    ¬ OpensTo C file events index := by
  induction events generalizing file lines tail with
  | nil =>
    rintro ⟨last, hlast, file', index', hopen, -⟩
    obtain rfl := Option.some.inj hlast
    rw [openLedger_broken h] at hopen
    cases hopen
  | cons event events ih =>
    cases event with
    | mark entry failure =>
      obtain ⟨lines', tail', hbroken⟩ := h.mark entry failure
      exact ih hbroken
    | crash =>
      rintro ⟨last, hlast, -⟩
      rw [fileAfter, openLedger_broken h] at hlast
      cases hlast

/-- From an intact file, the ledger opens to what was acknowledged exactly if nothing is welded. -/
theorem Intact.opensTo_iff {fragments : List (List UInt8)} (h : Intact C file torn entries fragments)
    (events : List LedgerEvent) :
    OpensTo C file events
        (acknowledged C (entries.foldl Index.insert fun _ => none) events) ↔
      NoneWelded C torn events := by
  induction events generalizing file torn entries fragments with
  | nil => exact iff_of_true ⟨file, rfl, _, _, openLedger_intact h, rfl⟩ trivial
  | cons event events ih =>
    cases event with
    | mark entry failure =>
      cases hcompleted : completed C entry failure with
      | true =>
        rw [acknowledged, NoneWelded, hcompleted, if_pos rfl, if_pos rfl]
        cases torn with
        | true =>
          refine iff_of_false ?_ fun hwelded => absurd hwelded.1 (by decide)
          exact (h.mark_welded hcompleted).not_opensTo events _
        | false =>
          have hnil : fragments = [] := by
            have htorn := h.torn_eq
            simpa using htorn
          subst hnil
          have hnext := ih (h.mark_completed hcompleted)
          rw [foldl_append, foldl_cons, foldl_nil] at hnext
          exact ⟨fun hopens => ⟨rfl, hnext.mp hopens⟩, fun hwelded => hnext.mpr hwelded.2⟩
      | false =>
        rw [acknowledged, NoneWelded, hcompleted, if_neg Bool.false_ne_true,
          if_neg Bool.false_ne_true]
        obtain ⟨fragments', hintact⟩ := h.mark_torn hcompleted
        exact ih hintact
    | crash =>
      have hopen := @openLedger_intact C _ _ _ _ h
      have hintact : Intact C (layout (entries.map (entryText C.printer)) []) false entries [] :=
        ⟨rfl, fun _ hmem => absurd hmem not_mem_nil, rfl⟩
      rw [acknowledged, NoneWelded, ← ih hintact, OpensTo, OpensTo, fileAfter, hopen]

/-- From an intact file, the ledger opens to nothing but what was acknowledged. -/
theorem Intact.opensTo_eq {fragments : List (List UInt8)} {events : List LedgerEvent}
    {index : Index} (h : Intact C file torn entries fragments)
    (hopens : OpensTo C file events index) :
    index = acknowledged C (entries.foldl Index.insert fun _ => none) events := by
  induction events generalizing file torn entries fragments with
  | nil =>
    obtain ⟨_, ⟨⟩, _, _, hopen, rfl⟩ := hopens
    rw [openLedger_intact h] at hopen
    cases hopen
    rfl
  | cons event events ih =>
    cases event with
    | mark entry failure =>
      rw [acknowledged]
      split_ifs with hcompleted
      · cases torn with
        | true => exact absurd hopens ((h.mark_welded hcompleted).not_opensTo events index)
        | false =>
          cases (show fragments = [] by simpa using h.torn_eq)
          have hnext := ih (h.mark_completed hcompleted) hopens
          rwa [foldl_append, foldl_cons, foldl_nil] at hnext
      · obtain ⟨_, hintact⟩ := h.mark_torn (Bool.eq_false_iff.mpr hcompleted)
        exact ih hintact hopens
    | crash =>
      rw [OpensTo, fileAfter, openLedger_intact h] at hopens
      exact ih ⟨rfl, fun _ hmem => absurd hmem not_mem_nil, rfl⟩ hopens

theorem intact_nil : Intact C [] false [] [] :=
  ⟨rfl, fun _ hmem => absurd hmem not_mem_nil, rfl⟩

/-- **The ledger opens again to what was acknowledged** exactly if no line is completed on a handle
that has left an unterminated one behind. -/
theorem ledger_reopens_iff (C : EntryCodec) (events : List LedgerEvent) :
    Reopens C events ↔ NoneWelded C false events :=
  intact_nil.opensTo_iff events

/-- **The ledger opens to what was acknowledged or not at all**: no mark is lost in silence, and
none appears that was not made. -/
theorem ledger_opens_exactly (C : EntryCodec) (events : List LedgerEvent) (index : Index) :
    OpensTo C [] events index ↔
      NoneWelded C false events ∧ index = acknowledged C (fun _ => none) events := by
  constructor
  · intro h
    obtain rfl := intact_nil.opensTo_eq h
    exact ⟨(intact_nil.opensTo_iff events).mp h, rfl⟩
  · rintro ⟨hnone, rfl⟩
    exact (intact_nil.opensTo_iff events).mpr hnone

/-! ### The texts of `serde_json` -/

/-- Where a scan of an object with strings and integers in it stands. -/
inductive Scan where
  | start
  | outside
  | inside
  | escaped
  | closed
  deriving DecidableEq

/-- One byte of such an object; behind a string literal stands a comma, a colon or the end. -/
def Scan.step : Scan → UInt8 → Option Scan
  | .start, byte => if byte = 123 then some .outside else none
  | .outside, byte =>
    if byte = 34 then some .inside else if byte = 123 ∨ byte = 10 then none else some .outside
  | .inside, byte =>
    if byte = 34 then some .closed
    else if byte = 92 then some .escaped
    else if byte = 10 then none else some .inside
  | .escaped, byte => if byte = 123 ∨ byte = 10 then none else some .inside
  | .closed, byte => if byte = 44 ∨ byte = 58 ∨ byte = 125 then some .outside else none

def Scan.run (scan : Scan) (bytes : List UInt8) : Option Scan := bytes.foldlM Scan.step scan

theorem Scan.run_append (scan : Scan) (front back : List UInt8) :
    scan.run (front ++ back) = (scan.run front).bind fun next => next.run back :=
  foldlM_append

theorem Scan.run_cons (scan : Scan) (byte : UInt8) (back : List UInt8) :
    scan.run (byte :: back) = (scan.step byte).bind fun next => next.run back :=
  foldlM_cons

theorem Scan.run_escapeByte (byte : UInt8) :
    Scan.inside.run (Changeset.escapeByte byte) = some .inside := by
  unfold Changeset.escapeByte
  split_ifs with hquote hback hb ht hn hf hr hcontrol
  · rfl
  · rfl
  · rfl
  · rfl
  · rfl
  · rfl
  · rfl
  · have hdigit : ∀ n < 16, Scan.inside.step (Changeset.hexByte n) = some .inside := by decide
    have hhigh := hdigit (byte.toNat / 16) (by omega)
    have hlow := hdigit (byte.toNat % 16) (by omega)
    have hfront : Scan.inside.run [92, 117, 48, 48] = some .inside := rfl
    refine (Scan.run_append .inside [92, 117, 48, 48] _).trans ?_
    rw [hfront, bind_some, Scan.run_cons, hhigh, bind_some, Scan.run_cons, hlow]
    rfl
  · rw [Scan.run_cons, Scan.step, if_neg hquote, if_neg hback, if_neg hn]
    rfl

theorem Scan.run_escape (bytes : List UInt8) :
    Scan.inside.run (Changeset.escape bytes) = some .inside := by
  induction bytes with
  | nil => rfl
  | cons byte bytes ih =>
    rw [Changeset.escape, flatMap_cons, Scan.run_append, Scan.run_escapeByte]
    exact ih

theorem Scan.run_string (s : String) :
    Scan.outside.run (samplePrinter.string s) = some .closed := by
  have hstring : samplePrinter.string s =
      34 :: (Changeset.escape (Changeset.utf8 s) ++ [34]) := rfl
  have hopen : Scan.outside.step 34 = some .inside := rfl
  rw [hstring, Scan.run_cons, hopen, bind_some, Scan.run_append, Scan.run_escape]
  rfl

theorem Scan.run_number (n : Number) :
    Scan.outside.run (samplePrinter.number n) = some .outside := by
  have hbytes := samplePrinter.number_bytes n
  generalize samplePrinter.number n = bytes at hbytes
  induction bytes with
  | nil => rfl
  | cons byte bytes ih =>
    have hbyte := hbytes byte (.head _)
    have hquote : byte ≠ 34 := by
      rintro rfl
      exact absurd hbyte (by decide)
    have hbrace : ¬ (byte = 123 ∨ byte = 10) := by
      rintro (rfl | rfl) <;> exact absurd hbyte (by decide)
    rw [Scan.run_cons, Scan.step, if_neg hquote, if_neg hbrace]
    exact ih fun b hb => hbytes b (.tail _ hb)

/-- Behind a member. -/
def Scan.AfterValue (scan : Scan) : Prop := scan = .outside ∨ scan = .closed

theorem Scan.AfterValue.step (h : scan.AfterValue)
    (hbyte : byte = 44 ∨ byte = 125) : scan.step byte = some .outside := by
  rcases h with rfl | rfl <;> rcases hbyte with rfl | rfl <;> rfl

theorem Scan.run_renderFields {fields : List (String × Json)} {scan : Scan} {first : Bool}
    (hscan : if first then scan = .outside else scan.AfterValue)
    (h : ∀ field ∈ fields, (∃ s, field.2 = .str s) ∨ ∃ n, field.2 = .num n) :
    ∃ next, scan.run (samplePrinter.renderFields first fields) = some next ∧
      next.AfterValue := by
  induction fields generalizing scan first with
  | nil =>
    refine ⟨scan, rfl, ?_⟩
    cases first with
    | true => exact Or.inl hscan
    | false => exact hscan
  | cons field fields ih =>
    have hcomma : scan.run (if first then [] else [44]) = some .outside := by
      cases first with
      | true =>
        obtain rfl : scan = .outside := hscan
        rfl
      | false =>
        have hscan : scan.AfterValue := hscan
        exact (Scan.run_cons _ _ _).trans (by rw [hscan.step (Or.inl rfl)]; rfl)
    have hcolon : Scan.closed.step 58 = some .outside := rfl
    obtain ⟨value, hvalue, hafter⟩ : ∃ value, Scan.outside.run
        (samplePrinter.render field.2) = some value ∧ value.AfterValue := by
      rcases h field (.head _) with ⟨s, hs⟩ | ⟨n, hn⟩
      · exact ⟨.closed, by rw [hs]; exact Scan.run_string s, Or.inr rfl⟩
      · exact ⟨.outside, by rw [hn]; exact Scan.run_number n, Or.inl rfl⟩
    obtain ⟨next, hnext, hlast⟩ := @ih value false hafter
      fun f hf => h f (.tail _ hf)
    refine ⟨next, ?_, hlast⟩
    rw [Printer.renderFields, Scan.run_append, hcomma, bind_some, Scan.run_append,
      Scan.run_string, bind_some, Scan.run_cons, hcolon, bind_some, Scan.run_append,
      hvalue, bind_some, hnext]

theorem Scan.run_entryText (entry : LedgerEntry) :
    Scan.start.run (entryText samplePrinter entry) = some .outside := by
  obtain ⟨fields, hfields, hvalues⟩ := entry_members entry
  obtain ⟨next, hnext, hafter⟩ := @Scan.run_renderFields fields .outside true rfl hvalues
  have hopen : Scan.start.step 123 = some .outside := rfl
  rw [entryText, hfields, Printer.render, Scan.run_cons, hopen, bind_some, Scan.run_append,
    hnext, bind_some, Scan.run_cons, hafter.step (Or.inr rfl)]
  rfl

theorem Scan.newline_not_mem (h : scan.run bytes = some next) : 10 ∉ bytes := by
  induction bytes generalizing scan with
  | nil => exact not_mem_nil
  | cons byte bytes ih =>
    rw [Scan.run_cons] at h
    obtain ⟨middle, hstep, hrest⟩ := bind_eq_some_iff.mp h
    rw [mem_cons, not_or]
    refine ⟨?_, ih hrest⟩
    rintro rfl
    cases scan <;> cases hstep

theorem Scan.step_ne_start (h : scan.step byte = some next) :
    next ≠ .start := by
  rintro rfl
  cases scan <;> simp only [Scan.step] at h <;> split_ifs at h <;> cases h

theorem Scan.run_ne_start (hscan : scan ≠ .start) (h : scan.run bytes = some next) :
    next ≠ .start := by
  induction bytes generalizing scan with
  | nil =>
    obtain rfl : scan = next := Option.some.inj h
    exact hscan
  | cons byte bytes ih =>
    rw [Scan.run_cons] at h
    obtain ⟨middle, hstep, hrest⟩ := bind_eq_some_iff.mp h
    exact ih (Scan.step_ne_start hstep) hrest

theorem entryText_ne_append {front : List UInt8} (hfront : front ≠ [])
    (entry entry' : LedgerEntry) :
    entryText samplePrinter entry' ≠ front ++ entryText samplePrinter entry := by
  intro heq
  have hrun := Scan.run_entryText entry'
  rw [heq, Scan.run_append] at hrun
  obtain ⟨scan, hscan, hrest⟩ := bind_eq_some_iff.mp hrun
  have hstart : scan ≠ .start := by
    cases front with
    | nil => exact absurd rfl hfront
    | cons byte front =>
      rw [Scan.run_cons] at hscan
      obtain ⟨middle, hstep, hmiddle⟩ := bind_eq_some_iff.mp hscan
      exact Scan.run_ne_start (Scan.step_ne_start hstep) hmiddle
  -- the brace of the second entry would have to stand inside a string, which its quote then closes
  have hhead : ∃ rest, entryText samplePrinter entry = [123, 34, 115] ++ rest := ⟨_, rfl⟩
  obtain ⟨rest, hhead⟩ := hhead
  rw [hhead, Scan.run_append] at hrest
  have hnone : scan.run [123, 34, 115] = none := by
    cases scan with
    | start => exact absurd rfl hstart
    | outside => rfl
    | inside => rfl
    | escaped => rfl
    | closed => rfl
  rw [hnone] at hrest
  cases hrest

theorem entryText_injective : Function.Injective (entryText samplePrinter) := by
  intro entry entry' h
  have hencode := Printer.render_injective h
  obtain ⟨⟨server, run, seq⟩, status⟩ := entry
  obtain ⟨⟨server', run', seq'⟩, status'⟩ := entry'
  cases status <;> cases status' <;>
    simp_all [encodeEntry, encodeStatus, Json.ofUInt64]

/-- A reader that takes the printed entries and nothing else. -/
noncomputable def EntryCodec.strict : EntryCodec where
  printer := samplePrinter
  newline_not_mem entry := Scan.newline_not_mem (Scan.run_entryText entry)
  readLine line :=
    open Classical in
    if h : ∃ entry, entryText samplePrinter entry = line then some (some h.choose) else none
  readLine_text := by
    intro entry
    have hexists : ∃ entry', entryText samplePrinter entry' = entryText samplePrinter entry :=
      ⟨entry, rfl⟩
    rw [dif_pos hexists, entryText_injective hexists.choose_spec]
  readLine_welded := by
    intro fragments entry hne hfragments
    have hfront : fragments.flatten ≠ [] := by
      obtain ⟨fragment, rest, rfl⟩ := List.exists_cons_of_ne_nil hne
      have hfragment := (hfragments fragment List.mem_cons_self).1
      rw [List.flatten_cons]
      exact List.append_ne_nil_of_left_ne_nil hfragment _
    exact dif_neg fun ⟨entry', hentry'⟩ => entryText_ne_append hfront entry entry' hentry'

/-- One byte of an entry reaches the disk, and the next call on the handle succeeds. -/
def tornThenMarked : List LedgerEvent :=
  [.mark ⟨⟨"s", "r", 0⟩, .pending⟩ (some 1), .mark ⟨⟨"s", "r", 1⟩, .pending⟩ none]

/-- The ledger does not open any more. -/
theorem torn_then_marked_not_reopened : ¬ Reopens EntryCodec.strict tornThenMarked := by
  have hshort : ∀ entry, completed EntryCodec.strict entry (some 1) = false ∧
      written EntryCodec.strict entry (some 1) = [123] := by
    intro entry
    obtain ⟨inner, htext⟩ := entryText_shape EntryCodec.strict.printer entry
    simp [completed, written, entryLine, htext]
  intro hreopens
  have hwelded : NoneWelded EntryCodec.strict false tornThenMarked :=
    (intact_nil.opensTo_iff _).mp hreopens
  rw [tornThenMarked, NoneWelded, (hshort _).1, (hshort _).2] at hwelded
  exact absurd hwelded.1 (by decide)

end Mecmcp.Audit
