import Mecmcp.Lib.Text

/-!
# Rules — glob rules and decisions

The rules of `mecmcp-policy` with their precedence: the most specific rule that matches decides, a
device's own rule before a default one.  A rule carries its compiled matcher; what a glob pattern
matches is not modelled.
-/

namespace Mecmcp.Policy

inductive RuleSource where
  | defaults | device
  deriving DecidableEq

/-- `CompiledRule`, with the matcher as the set of candidates it matches. -/
structure CompiledRule (A : Type) where
  pattern : Text
  action : A
  source : RuleSource
  isMatch : Text → Bool
  /-- literal characters of the pattern, and its length -/
  specificity : ℕ × ℕ

/-- The order in which two matching rules are compared: specificity, then a device's own rule. -/
def CompiledRule.precedence {A : Type} (rule : CompiledRule A) : ℕ ×ₗ ℕ ×ₗ ℕ :=
  toLex (rule.specificity.1, toLex (rule.specificity.2,
    match rule.source with
    | .defaults => 0
    | .device => 1))

/-- `Iterator::max_by`: of several greatest elements, the last. -/
def maxBy {A : Type} : List (CompiledRule A) → Option (CompiledRule A)
  | [] => none
  | rule :: rules =>
    some (rules.foldl (fun best next => if best.precedence ≤ next.precedence then next else best)
      rule)

/-- `evaluate`: the most specific rule that matches. -/
def evaluate {A : Type} (rules : List (CompiledRule A)) (candidate : Text) :
    Option (CompiledRule A) :=
  maxBy (rules.filter fun rule => rule.isMatch candidate)

/-! ### Decisions -/

inductive CommandMode where
  | allowlist | blocklist
  deriving DecidableEq

inductive AllowlistDenyReason where
  | notAllowlisted | pipeNotAllowlisted | forbiddenMetachar
  deriving DecidableEq

inductive Decision (A : Type) where
  | allow
  | deny (rule : CompiledRule A) (source : RuleSource) (lineNumber : Option ℕ)
  | denyAllowlist (mode : CommandMode) (reason : AllowlistDenyReason) (normalized : Text)

/-- What a decision comes to, without the text it carries for the log. -/
inductive Outcome (A : Type) where
  | allow
  | deny (rule : CompiledRule A) (source : RuleSource) (lineNumber : Option ℕ)
  | denyAllowlist (mode : CommandMode) (reason : AllowlistDenyReason)

def Decision.outcome {A : Type} : Decision A → Outcome A
  | .allow => .allow
  | .deny rule source lineNumber => .deny rule source lineNumber
  | .denyAllowlist mode reason _ => .denyAllowlist mode reason

end Mecmcp.Policy
