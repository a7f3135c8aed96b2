/-
The moderation policy on the dashboard while its requests are in flight: a connection is selected,
its policy is loaded, edited and saved, and the answers arrive in any order.
-/
import MuxivoConsole.Web.PolicyEditor

namespace MuxivoConsole.Control

open Text

/-- A request of the editor, with the path it was sent to. -/
inductive PolicyRequest where
  | load (path : Str)
  | save (path : Str) (policy : AiModerationPolicyUpdateFields)
  deriving DecidableEq

structure PolicyDashboard where
  editor : PolicyEditor
  inFlight : List PolicyRequest := []

/-- What the user does, and the answers that arrive. A save that fails is answered by `false`. -/
inductive PolicyEvent where
  | selectConnection (path : Option Str) (canRunSelectedDiscordWrites : Bool)
  | load
  | save
  | editPolicy (edit : AiModerationPolicyUpdateFields → AiModerationPolicyUpdateFields)
  | editBlacklistWords (words : Str)
  | editAllowedDomains (domains : Str)
  | loaded (path : Str) (answer : Option PolicyStateAnswer)
  | saved (path : Str) (policy : AiModerationPolicyUpdateFields) (succeeded : Bool)

namespace PolicyDashboard

/-- `resetDiscordConnectionDetails`, as far as the editor is concerned -/
def resetDiscordConnectionDetails (editor : PolicyEditor) : PolicyEditor :=
  { editor with
    aiModerationPolicy := none
    aiModerationBlacklistWords := []
    aiModerationAllowedDomains := [] }

/-- Whether the form of the policy is shown, so that it can be edited. -/
def isShown (editor : PolicyEditor) : Bool :=
  editor.aiModerationPolicy.isSome

/-- What `onSuccess` and `onFailure` of the load do. -/
def applyLoaded (editor : PolicyEditor) : Option PolicyStateAnswer → PolicyEditor
  | some state =>
      { editor with
        aiModerationPolicy := some state
        aiModerationBlacklistWords := joinPolicyValues state.policy.blacklistWords
        aiModerationAllowedDomains := joinPolicyValues state.policy.allowedDomains }
  | none => { editor with aiModerationPolicy := none }

/-- What `onSuccess` of the save does: spreading a policy that is gone gives no fields. -/
def applySaved (editor : PolicyEditor) (policy : AiModerationPolicyUpdateFields) : PolicyEditor :=
  { editor with aiModerationPolicy := some ⟨policy, false⟩ }

/-- The path and the body of the `PUT` that saving sends, if one is sent. -/
def sent (dashboard : PolicyDashboard) : Option (Str × AiModerationPolicyUpdateFields) :=
  dashboard.editor.selectedPath.bind fun path =>
    dashboard.editor.saved.map fun policy => (path, policy)

def step (dashboard : PolicyDashboard) : PolicyEvent → Option PolicyDashboard
  | .selectConnection path canRunSelectedDiscordWrites =>
      some { dashboard with
        editor := resetDiscordConnectionDetails { dashboard.editor with
          selectedPath := path
          canRunSelectedDiscordWrites := canRunSelectedDiscordWrites } }
  | .load =>
      some <| match dashboard.editor.selectedPath with
        | some path =>
            if dashboard.editor.canRunSelectedDiscordWrites then
              { dashboard with inFlight := dashboard.inFlight ++ [.load path] }
            else dashboard
        | none => dashboard
  | .save =>
      some <| match dashboard.sent with
        | some (path, policy) =>
            { dashboard with inFlight := dashboard.inFlight ++ [.save path policy] }
        | none => dashboard
  | .editPolicy edit =>
      if isShown dashboard.editor then
        some { dashboard with editor := { dashboard.editor with
          aiModerationPolicy := dashboard.editor.aiModerationPolicy.map fun state =>
            { state with policy := edit state.policy } } }
      else none
  | .editBlacklistWords words =>
      if isShown dashboard.editor then
        some { dashboard with editor := { dashboard.editor with
          aiModerationBlacklistWords := words } }
      else none
  | .editAllowedDomains domains =>
      if isShown dashboard.editor then
        some { dashboard with editor := { dashboard.editor with
          aiModerationAllowedDomains := domains } }
      else none
  | .loaded path answer =>
      if .load path ∈ dashboard.inFlight then
        some { editor := applyLoaded dashboard.editor answer
               inFlight := dashboard.inFlight.erase (.load path) }
      else none
  | .saved path policy succeeded =>
      if .save path policy ∈ dashboard.inFlight then
        some { editor := if succeeded then applySaved dashboard.editor policy else dashboard.editor
               inFlight := dashboard.inFlight.erase (.save path policy) }
      else none

end PolicyDashboard

end MuxivoConsole.Control
