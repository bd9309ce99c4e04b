import WebhookRelay.Api.Store

/-!
# Membership and roles

`app/middleware/rbac.py`, after `get_current_user`.
-/

namespace WebhookRelay.Api

/-- `ROLE_HIERARCHY`. -/
def roleLevel : Role → ℕ
  | .viewer => 0
  | .member => 1
  | .admin => 2
  | .owner => 3

def roleName : Role → String
  | .viewer => "viewer"
  | .member => "member"
  | .admin => "admin"
  | .owner => "owner"

/-- `get_workspace_membership`; `caller` is what `get_current_user` comes to. -/
def getWorkspaceMembership (db : Database) (caller : Except Failure UUID) (workspaceId : String) :
    Except Failure WorkspaceMembership := do
  let user ← caller
  match UUID.parse workspaceId with
  | none => .error (.http 400 "invalid workspace id")
  | some ws =>
      match membershipById db user ws with
      | none => .error (.http 403 "not a member of this workspace")
      | some membership => .ok membership

/-- `require_workspace_role`. -/
def requireWorkspaceRole (minimumRole : Role) (membership : WorkspaceMembership) :
    Except Failure WorkspaceMembership :=
  if roleLevel membership.role < roleLevel minimumRole then
    .error (.http 403 ("requires role '" ++ roleName minimumRole ++ "' or higher"))
  else .ok membership

end WebhookRelay.Api
