/-
A moderation policy is saved to the connection it belongs to, in every run in which the answers find
the editor as their requests left it.
-/
import MuxivoConsole.Events.Runs
import MuxivoConsole.Web.PolicyDashboard

namespace MuxivoConsole.Control

open Text Events

/-- A policy in the form of the editor. -/
structure PolicyContent where
  policy : AiModerationPolicyUpdateFields
  blacklistWords : Str
  allowedDomains : Str

/-- The form in which a loaded policy is shown. -/
def PolicyContent.ofPolicy (policy : AiModerationPolicyUpdateFields) : PolicyContent :=
  ⟨policy, joinPolicyValues policy.blacklistWords, joinPolicyValues policy.allowedDomains⟩

/-- The body that saving sends. -/
def PolicyContent.body (content : PolicyContent) : AiModerationPolicyUpdateFields :=
  { content.policy with
    blacklistWords := splitPolicyValues content.blacklistWords
    allowedDomains := splitPolicyValues content.allowedDomains }

/-- What was last loaded from or saved to each connection, with the user's edits since. -/
structure PolicyLedger where
  selectedPath : Option Str := none
  content : Str → Option PolicyContent := fun _ => none

namespace PolicyLedger

variable (ledger : PolicyLedger)

def set (path : Str) (content : PolicyContent) : PolicyLedger :=
  { ledger with content := Function.update ledger.content path (some content) }

/-- An edit changes the policy of the selected connection. -/
def edit (change : PolicyContent → PolicyContent) : PolicyLedger :=
  match ledger.selectedPath with
  | some path =>
      { ledger with
        content := Function.update ledger.content path ((ledger.content path).map change) }
  | none => ledger

def record : PolicyEvent → PolicyLedger
  | .selectConnection path _ => { ledger with selectedPath := path }
  | .editPolicy edit => ledger.edit fun content => { content with policy := edit content.policy }
  | .editBlacklistWords words => ledger.edit fun content => { content with blacklistWords := words }
  | .editAllowedDomains domains =>
      ledger.edit fun content => { content with allowedDomains := domains }
  | .loaded path (some state) => ledger.set path (.ofPolicy state.policy)
  | .saved path policy true =>
      ledger.set path { (ledger.content path).getD (.ofPolicy policy) with policy := policy }
  | _ => ledger

/-- The ledger of a run, the latest event of which comes first. -/
def ofEvents (events : List PolicyEvent) : PolicyLedger :=
  events.foldr (fun event ledger => ledger.record event) {}

@[simp] theorem ofEvents_cons (event : PolicyEvent) (events : List PolicyEvent) :
    ofEvents (event :: events) = (ofEvents events).record event := rfl

end PolicyLedger

/-- An answer that changes the editor finds its connection selected, and that of a save a policy. -/
def Undisturbed (dashboard : PolicyDashboard) : PolicyEvent → Prop
  | .loaded path (some _) => dashboard.editor.selectedPath = some path
  | .saved path _ true =>
      dashboard.editor.selectedPath = some path ∧ PolicyDashboard.isShown dashboard.editor = true
  | _ => True

instance (dashboard : PolicyDashboard) (event : PolicyEvent) :
    Decidable (Undisturbed dashboard event) :=
  match event with
  | .loaded _ (some _) => inferInstanceAs (Decidable (_ = _))
  | .saved _ _ true => inferInstanceAs (Decidable (_ ∧ _))
  | .loaded _ none | .saved _ _ false | .selectConnection _ _ | .load | .save | .editPolicy _
  | .editBlacklistWords _ | .editAllowedDomains _ => isTrue trivial

section Runs

variable {dashboard dashboard' : PolicyDashboard} {events : List PolicyEvent} {event : PolicyEvent}

/-- The policy that is shown is the one that the ledger has for the selected connection. -/
structure PolicyDashboard.Faithful (ledger : PolicyLedger) (dashboard : PolicyDashboard) :
    Prop where
  selected : ledger.selectedPath = dashboard.editor.selectedPath
  shown : ∀ state, dashboard.editor.aiModerationPolicy = some state →
    ∃ path, dashboard.editor.selectedPath = some path ∧ ledger.content path =
      some ⟨state.policy, dashboard.editor.aiModerationBlacklistWords,
        dashboard.editor.aiModerationAllowedDomains⟩

/-- An edit of the form is an edit of the ledger. -/
theorem PolicyDashboard.Faithful.edit {ledger : PolicyLedger} {editor : PolicyEditor}
    (hfaithful : dashboard.Faithful ledger) {change : PolicyContent → PolicyContent}
    (hpath : editor.selectedPath = dashboard.editor.selectedPath)
    (hchange : ∀ state', editor.aiModerationPolicy = some state' →
      ∃ state, dashboard.editor.aiModerationPolicy = some state ∧
        change ⟨state.policy, dashboard.editor.aiModerationBlacklistWords,
          dashboard.editor.aiModerationAllowedDomains⟩ = ⟨state'.policy,
            editor.aiModerationBlacklistWords, editor.aiModerationAllowedDomains⟩) :
    PolicyDashboard.Faithful (ledger.edit change) { dashboard with editor := editor } := by
  have hselected := hfaithful.selected
  cases hledger : ledger.selectedPath with
  | none =>
      refine ⟨?_, fun state' hstate' => ?_⟩
      · rw [PolicyLedger.edit, hledger, hledger, hpath, ← hselected, hledger]
      · obtain ⟨state, hstate, -⟩ := hchange state' hstate'
        obtain ⟨path, hshown, -⟩ := hfaithful.shown state hstate
        rw [← hselected, hledger] at hshown
        cases hshown
  | some path =>
      refine ⟨?_, fun state' hstate' => ⟨path, ?_, ?_⟩⟩
      · rw [PolicyLedger.edit, hledger, hpath, ← hselected, hledger]
      · rw [hpath, ← hselected, hledger]
      · obtain ⟨state, hstate, hsame⟩ := hchange state' hstate'
        obtain ⟨path', hshown, hcontent⟩ := hfaithful.shown state hstate
        rw [← hselected, hledger] at hshown
        cases hshown
        rw [PolicyLedger.edit, hledger]
        simp only [Function.update_self, hcontent, Option.map_some, hsame]

/-- One step keeps the editor faithful. -/
theorem PolicyDashboard.Faithful.step (hfaithful : dashboard.Faithful (.ofEvents events))
    (hundisturbed : Undisturbed dashboard event) (hstep : dashboard.step event = some dashboard') :
    dashboard'.Faithful (.ofEvents (event :: events)) := by
  rw [PolicyLedger.ofEvents_cons]
  generalize PolicyLedger.ofEvents events = ledger at hfaithful ⊢
  match event with
  | .selectConnection path canWrite =>
      cases hstep
      exact ⟨rfl, fun state hstate => nomatch hstate⟩
  | .load =>
      simp only [PolicyDashboard.step, Option.some.injEq] at hstep
      have hsame : dashboard'.editor = dashboard.editor := by
        rw [← hstep]
        split
        · split_ifs <;> rfl
        · rfl
      exact ⟨hfaithful.selected.trans (by rw [hsame]), hsame ▸ hfaithful.shown⟩
  | .save =>
      simp only [PolicyDashboard.step, Option.some.injEq] at hstep
      have hsame : dashboard'.editor = dashboard.editor := by
        rw [← hstep]
        split <;> rfl
      exact ⟨hfaithful.selected.trans (by rw [hsame]), hsame ▸ hfaithful.shown⟩
  | .editPolicy edit =>
      simp only [PolicyDashboard.step] at hstep
      split_ifs at hstep
      cases hstep
      refine hfaithful.edit rfl fun state' hstate' => ?_
      obtain ⟨state, hstate, rfl⟩ := Option.map_eq_some_iff.mp hstate'
      exact ⟨state, hstate, rfl⟩
  | .editBlacklistWords words =>
      simp only [PolicyDashboard.step] at hstep
      split_ifs at hstep
      cases hstep
      exact hfaithful.edit rfl fun state hstate => ⟨state, hstate, rfl⟩
  | .editAllowedDomains domains =>
      simp only [PolicyDashboard.step] at hstep
      split_ifs at hstep
      cases hstep
      exact hfaithful.edit rfl fun state hstate => ⟨state, hstate, rfl⟩
  | .loaded path none =>
      simp only [PolicyDashboard.step] at hstep
      split_ifs at hstep
      cases hstep
      exact ⟨hfaithful.selected, fun state hstate => nomatch hstate⟩
  | .loaded path (some state) =>
      simp only [PolicyDashboard.step] at hstep
      split_ifs at hstep
      cases hstep
      refine ⟨hfaithful.selected, fun other hother => ⟨path, hundisturbed, ?_⟩⟩
      cases hother
      simp [PolicyLedger.record, PolicyLedger.set, PolicyContent.ofPolicy,
        PolicyDashboard.applyLoaded]
  | .saved path policy false =>
      simp only [PolicyDashboard.step, Bool.false_eq_true, if_false] at hstep
      split_ifs at hstep
      cases hstep
      exact ⟨hfaithful.selected, hfaithful.shown⟩
  | .saved path policy true =>
      simp only [PolicyDashboard.step, if_true] at hstep
      split_ifs at hstep
      cases hstep
      obtain ⟨hpath, hshown⟩ := hundisturbed
      refine ⟨hfaithful.selected, fun other hother => ⟨path, hpath, ?_⟩⟩
      cases hother
      obtain ⟨state, hstate⟩ := Option.isSome_iff_exists.mp hshown
      obtain ⟨path', hpath', hcontent⟩ := hfaithful.shown state hstate
      rw [hpath] at hpath'
      cases hpath'
      simp [PolicyLedger.record, PolicyLedger.set, PolicyDashboard.applySaved, hcontent]

end Runs

/-- Nothing is selected yet. -/
def emptyDashboard : PolicyDashboard where
  editor := { selectedPath := none, canRunSelectedDiscordWrites := false }

/-- In a run whose answers find the editor undisturbed, what saving sends to a connection is the
policy last loaded from or saved to it, with the user's edits. -/
theorem saved_policy_is_of_its_connection {events : List PolicyEvent} {dashboard : PolicyDashboard}
    (hruns : Runs PolicyDashboard.step Undisturbed emptyDashboard events dashboard) {path : Str}
    {body : AiModerationPolicyUpdateFields} (hsent : dashboard.sent = some (path, body)) :
    ∃ content, (PolicyLedger.ofEvents events).content path = some content ∧
      body = content.body := by
  have hfaithful : dashboard.Faithful (.ofEvents events) :=
    Runs.invariant (motive := fun events dashboard => dashboard.Faithful (.ofEvents events))
      ⟨rfl, fun state hstate => nomatch hstate⟩
      (fun _ _ _ _ hfaithful hundisturbed hstep => hfaithful.step hundisturbed hstep) hruns
  rw [PolicyDashboard.sent, Option.bind_eq_some_iff] at hsent
  obtain ⟨selected, hselected, hbody⟩ := hsent
  obtain ⟨policy, hsaved, hsame⟩ := Option.map_eq_some_iff.mp hbody
  cases hsame
  unfold PolicyEditor.saved at hsaved
  split_ifs at hsaved
  obtain ⟨state, hstate, rfl⟩ := Option.map_eq_some_iff.mp hsaved
  obtain ⟨path', hpath', hcontent⟩ := hfaithful.shown state hstate
  rw [hselected] at hpath'
  cases hpath'
  exact ⟨_, hcontent, rfl⟩

/-- A policy that deletes messages of one word. -/
def strictPolicy : PolicyStateAnswer where
  policy := { blacklistWords := [codesOf "spam"] }
  isDefaultPolicy := false

/-- The policy of `a` is loaded and shown. -/
def promptPolicy : List PolicyEvent :=
  [.selectConnection (some (codesOf "a")) true, .load, .loaded (codesOf "a") (some strictPolicy)]

theorem prompt_policy_is_saved : ∃ dashboard : PolicyDashboard,
    Runs PolicyDashboard.step Undisturbed emptyDashboard promptPolicy.reverse dashboard ∧
      dashboard.sent = some (codesOf "a", strictPolicy.policy) ∧
        ∃ content, (PolicyLedger.ofEvents promptPolicy.reverse).content (codesOf "a") =
          some content ∧ strictPolicy.policy = content.body := by
  obtain ⟨dashboard, hdashboard⟩ : ∃ dashboard,
      replay PolicyDashboard.step Undisturbed emptyDashboard promptPolicy = some dashboard :=
    Option.isSome_iff_exists.mp (by decide +kernel)
  have hsent : (replay PolicyDashboard.step Undisturbed emptyDashboard promptPolicy).any
      (·.sent = some (codesOf "a", strictPolicy.policy)) = true := by
    decide +kernel
  rw [hdashboard, Option.any_some] at hsent
  have hruns := runs_of_replay hdashboard
  exact ⟨dashboard, hruns, of_decide_eq_true hsent,
    saved_policy_is_of_its_connection hruns (of_decide_eq_true hsent)⟩

/-- `b` is selected before the policy of `a` arrives. -/
def overtakenPolicy : List PolicyEvent :=
  [.selectConnection (some (codesOf "a")) true, .load,
    .selectConnection (some (codesOf "b")) true, .loaded (codesOf "a") (some strictPolicy)]

theorem overtaken_policy_is_sent : ∃ (events : List PolicyEvent) (dashboard : PolicyDashboard)
    (path : Str) (body : AiModerationPolicyUpdateFields),
    Runs PolicyDashboard.step (fun _ _ => True) emptyDashboard events dashboard ∧
      dashboard.sent = some (path, body) ∧
        ¬ ∃ content, (PolicyLedger.ofEvents events).content path = some content ∧
          body = content.body := by
  obtain ⟨dashboard, hdashboard⟩ : ∃ dashboard,
      replay PolicyDashboard.step (fun _ _ => True) emptyDashboard overtakenPolicy =
        some dashboard :=
    Option.isSome_iff_exists.mp (by decide +kernel)
  have hsent : (replay PolicyDashboard.step (fun _ _ => True) emptyDashboard overtakenPolicy).any
      (·.sent = some (codesOf "b", strictPolicy.policy)) = true := by
    decide +kernel
  rw [hdashboard, Option.any_some] at hsent
  refine ⟨_, dashboard, codesOf "b", strictPolicy.policy, runs_of_replay hdashboard,
    of_decide_eq_true hsent, ?_⟩
  rintro ⟨content, hcontent, -⟩
  have hnone : ((PolicyLedger.ofEvents overtakenPolicy.reverse).content (codesOf "b")).isNone =
      true := by
    decide +kernel
  rw [hcontent] at hnone
  cases hnone

end MuxivoConsole.Control
