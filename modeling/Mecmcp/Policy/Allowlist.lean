import Mecmcp.Lib.Tokens
import Mecmcp.Policy.Rules

/-!
# Allowlist — the command allowlist

`evaluate_allowlist` refuses forbidden characters in the raw command, then decides on a normalised
copy: cut at `|`, each stage cut into words, and each stage compared with the token sequences of an
allowlist.  `allowlist_decides_on_tokens` says that normalising makes no difference to the decision:
it is a function of the words of the raw command, stage by stage.
-/

namespace Mecmcp.Policy

open List

open Tokens

def splitWhitespace (text : Text) : List Text := words isWhitespace text

/-- `normalize_input`: trimmed, and runs of whitespace collapsed to a space. -/
def normalizeInput (s : Text) : Text := Tokens.collapse isWhitespace ' ' false (trimText s)

/-! ### Entries -/

/-- `AllowlistEntry`: a literal token sequence, which `compile_allowlist_entries` makes of the words
of a text that has some. -/
structure AllowlistEntry where
  tokens : List Text
  nonempty : tokens ≠ []

structure CommandAllowlist where
  entries : List AllowlistEntry
  allowedPipes : List AllowlistEntry

/-! ### Evaluation -/

def isForbiddenMetachar (c : Char) : Bool :=
  c == ';' || c == '>' || c == '<' || c == '\x60' || c == '\n' || c == '\r'

def containsForbiddenMetachar (raw : Text) : Bool := raw.any isForbiddenMetachar

def isTokenPrefix (entry : AllowlistEntry) (inputTokens : List Text) : Bool :=
  decide (entry.tokens.length ≤ inputTokens.length) &&
    (entry.tokens.zip inputTokens).all fun pair => pair.1 == pair.2

def matchesAnyEntry (list : List AllowlistEntry) (inputTokens : List Text) : Bool :=
  list.any fun entry => isTokenPrefix entry inputTokens

/-- `str::split` at a pipe. -/
def splitPipes (text : Text) : List Text := text.splitOnP (· == '|')

/-- The loop over the stages behind the first one. -/
def evaluatePipes {A : Type} (allowlist : CommandAllowlist) (normalized : Text) :
    List Text → Decision A
  | [] => .allow
  | stage :: stages =>
    if matchesAnyEntry allowlist.allowedPipes (splitWhitespace stage) then
      evaluatePipes allowlist normalized stages
    else .denyAllowlist .allowlist .pipeNotAllowlisted normalized

def evaluateAllowlist {A : Type} (command : Text) (allowlist : CommandAllowlist) : Decision A :=
  let normalized := normalizeInput command
  if containsForbiddenMetachar command then
    .denyAllowlist .allowlist .forbiddenMetachar normalized
  else
    let stages := splitPipes normalized
    let firstStageTokens := splitWhitespace (stages.head?.getD [])
    if matchesAnyEntry allowlist.entries firstStageTokens then
      evaluatePipes allowlist normalized stages.tail
    else .denyAllowlist .allowlist .notAllowlisted normalized

/-! ### Token prefixes -/

theorem isTokenPrefix_iff (entry : AllowlistEntry) (inputTokens : List Text) :
    isTokenPrefix entry inputTokens = true ↔ entry.tokens <+: inputTokens := by
  rw [isTokenPrefix]
  generalize entry.tokens = tokens
  induction tokens generalizing inputTokens with
  | nil => simp
  | cons token tokens ih =>
    cases inputTokens with
    | nil => simp
    | cons inputToken inputTokens =>
      simp only [length_cons, Nat.add_le_add_iff_right, zip_cons_cons, all_cons,
        cons_prefix_cons, ← ih, Bool.and_eq_true, beq_iff_eq]
      tauto

theorem matchesAnyEntry_iff (list : List AllowlistEntry) (inputTokens : List Text) :
    matchesAnyEntry list inputTokens = true ↔ ∃ entry ∈ list, entry.tokens <+: inputTokens := by
  simp only [matchesAnyEntry, any_eq_true, isTokenPrefix_iff]

/-! ### Normalised and raw text -/

def stageTokens (text : Text) : List (List Text) := (splitPipes text).map splitWhitespace

theorem pipe_not_whitespace (c : Char) (hc : isWhitespace c = true) : (c == '|') = false := by
  by_contra hpipe
  rw [Bool.not_eq_false, beq_iff_eq] at hpipe
  rw [hpipe] at hc
  exact absurd hc (by decide)

theorem stageTokens_normalizeInput (command : Text) :
    stageTokens (normalizeInput command) = stageTokens command :=
  parts_collapse_trim pipe_not_whitespace (by decide) command

theorem normalizeInput_eq (command : Text) :
    normalizeInput command = [' '].intercalate (splitWhitespace command) :=
  collapse_trim_eq ' ' command

theorem normalizeInput_normalizeInput (command : Text) :
    normalizeInput (normalizeInput command) = normalizeInput command := by
  have hwords : splitWhitespace (normalizeInput command) = splitWhitespace command :=
    words_collapse_trim (by decide) command
  rw [normalizeInput_eq (normalizeInput command), hwords, normalizeInput_eq]

/-! ### The decision as a function of the tokens -/

variable {A : Type} (allowlist : CommandAllowlist)

/-- What the stages' tokens come to. -/
def tokensOutcome : List (List Text) → Outcome A
  | [] => .denyAllowlist .allowlist .notAllowlisted
  | first :: later =>
    if matchesAnyEntry allowlist.entries first then
      if later.all (matchesAnyEntry allowlist.allowedPipes) then .allow
      else .denyAllowlist .allowlist .pipeNotAllowlisted
    else .denyAllowlist .allowlist .notAllowlisted

theorem outcome_evaluatePipes (normalized : Text) (stages : List Text) :
    (evaluatePipes (A := A) allowlist normalized stages).outcome =
      if (stages.map splitWhitespace).all (matchesAnyEntry allowlist.allowedPipes) then .allow
      else .denyAllowlist .allowlist .pipeNotAllowlisted := by
  induction stages with
  | nil => rfl
  | cons stage stages ih =>
    rw [evaluatePipes, map_cons, all_cons]
    cases hstage : matchesAnyEntry allowlist.allowedPipes (splitWhitespace stage) with
    | true => exact ih
    | false => rfl

theorem outcome_evaluateAllowlist (command : Text) :
    (evaluateAllowlist (A := A) command allowlist).outcome =
      if containsForbiddenMetachar command then .denyAllowlist .allowlist .forbiddenMetachar
      else tokensOutcome allowlist (stageTokens command) := by
  cases hforbidden : containsForbiddenMetachar command with
  | true =>
    rw [evaluateAllowlist, hforbidden]
    rfl
  | false =>
    obtain ⟨first, later, hstages⟩ :=
      exists_cons_of_ne_nil (splitOnP_ne_nil (· == '|') (normalizeInput command))
    have hsplit : splitPipes (normalizeInput command) = first :: later := hstages
    rw [evaluateAllowlist, hforbidden, ← stageTokens_normalizeInput, stageTokens, hsplit]
    change (if matchesAnyEntry allowlist.entries (splitWhitespace first) = true then
        evaluatePipes (A := A) allowlist (normalizeInput command) later
      else .denyAllowlist .allowlist .notAllowlisted (normalizeInput command)).outcome =
        tokensOutcome allowlist (splitWhitespace first :: later.map splitWhitespace)
    rw [tokensOutcome]
    by_cases hfirst : matchesAnyEntry allowlist.entries (splitWhitespace first) = true
    · rw [if_pos hfirst, if_pos hfirst, outcome_evaluatePipes]
    · rw [if_neg hfirst, if_neg hfirst]
      rfl

theorem outcome_eq_allow (decision : Decision A) :
    decision.outcome = .allow ↔ decision = .allow := by
  cases decision <;> simp [Decision.outcome]

theorem containsForbiddenMetachar_iff (raw : Text) : containsForbiddenMetachar raw = false ↔
    ∀ c ∈ raw, c ∉ [';', '>', '<', '\x60', '\n', '\r'] := by
  simp [containsForbiddenMetachar, isForbiddenMetachar, and_assoc]

theorem tokensOutcome_eq_allow (stages : List (List Text)) :
    tokensOutcome (A := A) allowlist stages = .allow ↔ ∃ first later, stages = first :: later ∧
      (∃ entry ∈ allowlist.entries, entry.tokens <+: first) ∧
      ∀ tokens ∈ later, ∃ entry ∈ allowlist.allowedPipes, entry.tokens <+: tokens := by
  cases stages with
  | nil => simp [tokensOutcome]
  | cons first later =>
    have hpipes : later.all (matchesAnyEntry allowlist.allowedPipes) = true ↔
        ∀ tokens ∈ later, ∃ entry ∈ allowlist.allowedPipes, entry.tokens <+: tokens := by
      simp only [all_eq_true, matchesAnyEntry_iff]
    rw [tokensOutcome]
    split_ifs with hfirst hlater
    · exact iff_of_true rfl
        ⟨first, later, rfl, (matchesAnyEntry_iff _ _).mp hfirst, hpipes.mp hlater⟩
    · refine iff_of_false (by simp) ?_
      rintro ⟨_, _, heq, -, hall⟩
      obtain ⟨rfl, rfl⟩ := List.cons.inj heq
      exact hlater (hpipes.mpr hall)
    · refine iff_of_false (by simp) ?_
      rintro ⟨_, _, heq, hentry, -⟩
      obtain ⟨rfl, rfl⟩ := List.cons.inj heq
      exact hfirst ((matchesAnyEntry_iff _ _).mpr hentry)

/-- **The allowlist decides on tokens only.**  A command is allowed exactly when its raw text has no
forbidden character, an entry is a token prefix of what stands before the first pipe, and an allowed
pipe one of each later part.  Commands without forbidden characters that have the same tokens in the
same stages come to the same outcome, and normalising twice is normalising once. -/
theorem allowlist_decides_on_tokens :
    (∀ command : Text, evaluateAllowlist (A := A) command allowlist = .allow ↔
      (∀ c ∈ command, c ∉ [';', '>', '<', '\x60', '\n', '\r']) ∧
      ∃ first later, splitPipes command = first :: later ∧
        (∃ entry ∈ allowlist.entries, entry.tokens <+: splitWhitespace first) ∧
        ∀ stage ∈ later, ∃ entry ∈ allowlist.allowedPipes, entry.tokens <+: splitWhitespace stage) ∧
    (∀ command other : Text, containsForbiddenMetachar command = false →
      containsForbiddenMetachar other = false → stageTokens command = stageTokens other →
      (evaluateAllowlist (A := A) command allowlist).outcome =
        (evaluateAllowlist (A := A) other allowlist).outcome) ∧
    ∀ command : Text, normalizeInput (normalizeInput command) = normalizeInput command := by
  refine ⟨fun command => ?_, fun command other hcommand hother htokens => ?_,
    normalizeInput_normalizeInput⟩
  · rw [← outcome_eq_allow, outcome_evaluateAllowlist, ← containsForbiddenMetachar_iff]
    cases hforbidden : containsForbiddenMetachar command with
    | true => simp
    | false =>
      rw [if_neg Bool.false_ne_true, tokensOutcome_eq_allow, stageTokens]
      constructor
      · rintro ⟨first, later, hstages, hentry, hpipes⟩
        obtain ⟨stage, stages, hsplit, rfl, rfl⟩ := map_eq_cons_iff.mp hstages
        exact ⟨rfl, stage, stages, hsplit, hentry,
          fun next hnext => hpipes _ (mem_map_of_mem hnext)⟩
      · rintro ⟨-, first, later, hsplit, hentry, hpipes⟩
        refine ⟨splitWhitespace first, later.map splitWhitespace, ?_, hentry, ?_⟩
        · rw [hsplit, map_cons]
        · exact fun tokens htokens => by
            obtain ⟨stage, hstage, rfl⟩ := mem_map.mp htokens
            exact hpipes stage hstage
  · rw [outcome_evaluateAllowlist, outcome_evaluateAllowlist, hcommand, hother, htokens]

/-- `show version` with a `count` pipe, once spaced out and once not. -/
theorem spaced_command_allowed :
    let entry : AllowlistEntry := ⟨["show".toList, "version".toList], by decide⟩
    let pipe : AllowlistEntry := ⟨["count".toList], by decide⟩
    let spaced := " show \t version|count".toList
    let plain := "show version | count".toList
    evaluateAllowlist (A := Unit) spaced ⟨[entry], [pipe]⟩ = .allow ∧
      (evaluateAllowlist (A := Unit) spaced ⟨[entry], []⟩).outcome =
        (evaluateAllowlist (A := Unit) plain ⟨[entry], []⟩).outcome := by
  intro entry pipe spaced plain
  refine ⟨((allowlist_decides_on_tokens ⟨[entry], [pipe]⟩).1 spaced).mpr ?_,
    (allowlist_decides_on_tokens ⟨[entry], []⟩).2.1 spaced plain (by decide) (by decide)
      (by decide)⟩
  refine ⟨(containsForbiddenMetachar_iff spaced).mp (by decide), " show \t version".toList,
    ["count".toList], by decide, ?_, ?_⟩
  · exact ⟨entry, mem_singleton_self _, by decide⟩
  · intro stage hstage
    rw [mem_singleton.mp hstage]
    exact ⟨pipe, mem_singleton_self _, by decide⟩

end Mecmcp.Policy
