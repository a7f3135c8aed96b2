/-
The editor of the moderation policy on the dashboard: a policy is loaded into two text fields, one
word a line, and saved from them.
-/
import MuxivoConsole.Contracts.ModerationPolicies
import MuxivoConsole.Text.Splitting

namespace MuxivoConsole.Control

open Text

/-- What `String.prototype.trim` removes: white space and line terminators. -/
def isScriptSpace (code : Nat) : Bool :=
  (0x09 ≤ code && code ≤ 0x0d) || code == 0x20 || code == 0xa0 || code == 0x1680 ||
    (0x2000 ≤ code && code ≤ 0x200a) || code == 0x2028 || code == 0x2029 || code == 0x202f ||
    code == 0x205f || code == 0x3000 || code == 0xfeff

/-- `/[\n,]/` -/
def isPolicySeparator (code : Nat) : Bool :=
  code == 10 || code == 44

/-- `splitPolicyValues` -/
def splitPolicyValues (value : Str) : List Str :=
  unique (((value.splitOnP isPolicySeparator).map (trim isScriptSpace)).filter (· ≠ []))

/-- `values.join("\n")` -/
def joinPolicyValues (values : List Str) : Str :=
  [10].intercalate values

/-- `PlatformAiModerationPolicyState`, as the server returns it. -/
structure PolicyStateAnswer where
  policy : AiModerationPolicyUpdateFields
  isDefaultPolicy : Bool
  deriving DecidableEq

/-- The part of the dashboard's state that the editor uses. -/
structure PolicyEditor where
  /-- `selectedDiscordConnectionPath()` -/
  selectedPath : Option Str
  canRunSelectedDiscordWrites : Bool
  aiModerationPolicy : Option PolicyStateAnswer := none
  aiModerationBlacklistWords : Str := []
  aiModerationAllowedDomains : Str := []

namespace PolicyEditor

/-- `loadDiscordAiModerationPolicy`; the answer is `none` if the request fails. -/
def load (editor : PolicyEditor) (answer : Option PolicyStateAnswer) : PolicyEditor :=
  if editor.selectedPath.isNone || !editor.canRunSelectedDiscordWrites then editor
  else
    match answer with
    | some state =>
        { editor with
          aiModerationPolicy := some state
          aiModerationBlacklistWords := joinPolicyValues state.policy.blacklistWords
          aiModerationAllowedDomains := joinPolicyValues state.policy.allowedDomains }
    | none => { editor with aiModerationPolicy := none }

/-- The body of the `PUT` of `saveDiscordAiModerationPolicy`, if one is sent. -/
def saved (editor : PolicyEditor) : Option AiModerationPolicyUpdateFields :=
  if editor.selectedPath.isNone || !editor.canRunSelectedDiscordWrites then none
  else
    editor.aiModerationPolicy.map fun state =>
      { state.policy with
        blacklistWords := splitPolicyValues editor.aiModerationBlacklistWords
        allowedDomains := splitPolicyValues editor.aiModerationAllowedDomains }

end PolicyEditor

end MuxivoConsole.Control
