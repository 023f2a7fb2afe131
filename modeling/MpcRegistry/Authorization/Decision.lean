import MpcRegistry.Authorization.Policies

/-!
# The authorization decision

Source: packages/api-contract/src/authorization.ts and apps/api/src/plugins/authorize.ts. A record
from ids to values is a list of its entries.
-/
namespace MpcRegistry.Authorization
open Library

inductive DenyReason
  | roleActionNotAllowed
  | assuranceLevelInsufficient
  | tenantScopeMismatch
  | projectScopeMismatch
  | jurisdictionScopeMismatch
  | sensitivityClearanceInsufficient
  | credentialOrAssignmentInvalid
  | resourceStateForbidsAction
  | conflictOrSeparationViolation
  deriving DecidableEq, Repr

inductive ProjectScope
  | all
  | projects (ids : List Text)
  deriving DecidableEq, Repr

inductive ConflictStatus
  | none
  | disclosedResolved
  | unresolved
  deriving DecidableEq, Repr

structure AuthorizationContext where
  role : Text
  assuranceLevel : AssuranceLevel
  actorTenantId : Text
  actorProjectIds : ProjectScope
  sensitivityClearance : List Text
  hasRequiredCredential : Bool
  hasRequiredAssignment : Bool
  conflictStatus : ConflictStatus
  jurisdictionScope : Option (List Text)
  deriving DecidableEq, Repr

/-- `jurisdiction` is absent, null or a code. -/
structure ResourceContext where
  tenantId : Text
  projectId : Option Text
  sensitivity : Text
  state : Text
  statesAllowingAction : List Text
  requiresCredential : Bool
  requiresAssignment : Bool
  separationSensitive : Bool
  jurisdiction : Option (Option Text)
  filteredByProjectScope : Bool
  deriving DecidableEq, Repr

structure Denial where
  reason : DenyReason
  requiredRoles : Option (List Text)
  requiredAssurance : Option AssuranceLevel
  accessRequestPath : Option Text
  deriving DecidableEq, Repr

inductive AuthorizationDecision
  | allow
  | deny (denial : Denial)
  deriving DecidableEq, Repr

def deny (reason : DenyReason) : AuthorizationDecision := .deny ⟨reason, none, none, none⟩

/-! ## One binding -/

/-- `ACCESS_REQUEST_PATHS.project` -/
def projectAccessPath (projectId : Text) : Text :=
  units "/w/projects/" ++ projectId ++ units "/access-requests"

def jurisdictionMatches (actor : AuthorizationContext) (resource : ResourceContext) : Bool :=
  match actor.jurisdictionScope with
  | none => true
  | some scope =>
    (resource.projectId = none && resource.filteredByProjectScope) ||
      (resource.jurisdiction.join.any fun host => scope.contains host)

def authorizeResourceConditions (actor : AuthorizationContext) (resource : ResourceContext) :
    AuthorizationDecision :=
  if resource.sensitivity ∉ actor.sensitivityClearance then deny .sensitivityClearanceInsufficient
  else if resource.requiresCredential && !actor.hasRequiredCredential then
    deny .credentialOrAssignmentInvalid
  else if resource.requiresAssignment && !actor.hasRequiredAssignment then
    deny .credentialOrAssignmentInvalid
  else if resource.state ∉ resource.statesAllowingAction then deny .resourceStateForbidsAction
  else if resource.separationSensitive && actor.conflictStatus = .unresolved then
    deny .conflictOrSeparationViolation
  else .allow

def ProjectScope.includes : ProjectScope → Text → Bool
  | .all, _ => true
  | .projects ids, projectId => ids.contains projectId

def authorize (policy : ActionPolicy) (actor : AuthorizationContext)
    (resource : ResourceContext) : AuthorizationDecision :=
  if actor.role ∉ policy.allowedRoles then
    -- An empty project id is no project to ask for.
    let path := match resource.projectId with
      | some (u :: rest) => projectAccessPath (u :: rest)
      | _ => units "/w/access-requests"
    .deny ⟨.roleActionNotAllowed, some policy.allowedRoles, none, some path⟩
  else
    let requiredAssurance := requiredAssuranceOf actor.role
    if satisfiesAssurance actor.assuranceLevel requiredAssurance = false then
      .deny ⟨.assuranceLevelInsufficient, none, some requiredAssurance,
        some (units "/w/identity/upgrade")⟩
    else if actor.actorTenantId ≠ resource.tenantId then deny .tenantScopeMismatch
    else
      match resource.projectId.filter fun projectId => !actor.actorProjectIds.includes projectId with
      | some projectId =>
        .deny ⟨.projectScopeMismatch, none, none, some (projectAccessPath projectId)⟩
      | none =>
        if jurisdictionMatches actor resource = false then deny .jurisdictionScopeMismatch
        else authorizeResourceConditions actor resource

/-! ## A session -/

structure RoleBinding where
  role : Text
  organizationId : Option Text
  projectId : Option Text
  jurisdiction : Option (List Text)
  deriving DecidableEq, Repr

structure NarrowedRole where
  role : Text
  requiredAal : Option Text
  deriving DecidableEq, Repr

structure Session where
  tenantId : Option Text
  assuranceLevel : AssuranceLevel
  roleBindings : List RoleBinding
  narrowedRoles : List NarrowedRole
  organizationProjectIds : Option (List (Text × List Text))
  projectJurisdictions : Option (List (Text × Text))
  deriving DecidableEq, Repr

structure ActorFacts where
  sensitivityClearance : List Text
  hasRequiredCredential : Bool
  hasRequiredAssignment : Bool
  conflictStatus : ConflictStatus
  deriving DecidableEq, Repr

def clearanceByAssurance : AssuranceLevel → List Text
  | .walletOnly => [units "public"]
  | .identityBound => [units "public", units "restricted"]
  | .highAssurance => [units "public", units "restricted"]

/-- `sessionFacts(session)`, without overrides -/
def sessionFacts (session : Session) : ActorFacts :=
  ⟨clearanceByAssurance session.assuranceLevel, false, false, .none⟩

def baseScopeOf (session : Session) (binding : RoleBinding) : ProjectScope :=
  match binding.projectId with
  | some projectId => .projects [projectId]
  | none =>
    if binding.role ∈ tenantWideRoles then .all
    else
      match binding.organizationId with
      | none => .projects []
      | some organizationId =>
        .projects ((session.organizationProjectIds.bind (·.lookup organizationId)).getD [])

def withinJurisdiction (session : Session) (binding : RoleBinding) (scope : ProjectScope) :
    ProjectScope :=
  match binding.jurisdiction with
  | none => scope
  | some jurisdiction =>
    let hosts := session.projectJurisdictions.getD []
    let inScope (projectId : Text) : Bool :=
      (hosts.lookup projectId).any fun host => jurisdiction.contains host
    match scope with
    | .all => .projects ((hosts.map Prod.fst).filter inScope)
    | .projects ids => .projects (ids.filter inScope)

def scopeOf (session : Session) (binding : RoleBinding) : ProjectScope :=
  withinJurisdiction session binding (baseScopeOf session binding)

def usableBindings (session : Session) (action : Text) : List RoleBinding :=
  match policyOf action with
  | none => []
  | some policy =>
    session.roleBindings.filter fun binding =>
      policy.allowedRoles.contains binding.role &&
        satisfiesAssurance session.assuranceLevel (requiredAssuranceOf binding.role)

def bindingToAuthorizationContext (session : Session) (binding : RoleBinding)
    (facts : ActorFacts) : AuthorizationContext where
  role := binding.role
  assuranceLevel := session.assuranceLevel
  actorTenantId := session.tenantId.getD []
  actorProjectIds := baseScopeOf session binding
  sensitivityClearance := facts.sensitivityClearance
  hasRequiredCredential := facts.hasRequiredCredential
  hasRequiredAssignment := facts.hasRequiredAssignment
  conflictStatus := facts.conflictStatus
  jurisdictionScope := binding.jurisdiction

def ProjectScope.ids : ProjectScope → List Text
  | .all => []
  | .projects ids => ids

def visibleProjectScope (session : Session) (action : Text) : ProjectScope :=
  let scopes := (usableBindings session action).map (scopeOf session)
  if scopes.any (· = .all) then .all
  else .projects (scopes.flatMap ProjectScope.ids).eraseDups

/-- `projectResource(tenantId, projectId)`, without overrides -/
def projectResource (tenantId projectId : Text) : ResourceContext where
  tenantId := tenantId
  projectId := some projectId
  sensitivity := units "restricted"
  state := units "active"
  statesAllowingAction := [units "active"]
  requiresCredential := false
  requiresAssignment := false
  separationSensitive := false
  jurisdiction := none
  filteredByProjectScope := false

def withResourceJurisdiction (session : Session) (resource : ResourceContext) : ResourceContext :=
  match resource.jurisdiction, resource.projectId, session.projectJurisdictions with
  | none, some projectId, some hosts =>
    { resource with jurisdiction := some (hosts.lookup projectId) }
  | _, _, _ => resource

def publicReader : RoleBinding := ⟨units "public_reader", none, none, none⟩

/-- `badRequest` and `forbidden`, with their details. -/
inductive ApiError
  | actionUnknown (message : Text)
  | authenticationLevel (message role : Text) (requiredAal : Option Text)
  | denied (message : Text) (denial : Option Denial)
  deriving DecidableEq, Repr

/-- The loop over the candidates: the role of the first that passes, or the last denial. -/
def firstAllowed (policy : ActionPolicy) (session : Session) (facts : ActorFacts)
    (located : ResourceContext) : Option Denial → List RoleBinding → Except (Option Denial) Text
  | lastDenial, [] => .error lastDenial
  | _, binding :: rest =>
    match authorize policy (bindingToAuthorizationContext session binding facts) located with
    | .allow => .ok binding.role
    | .deny denial => firstAllowed policy session facts located (some denial) rest

def assertAuthorized (session : Session) (action : Text) (resource : ResourceContext)
    (facts : ActorFacts) : Except ApiError Text :=
  match policyOf action with
  | none => .error (.actionUnknown (units "Unknown action: " ++ action))
  | some policy =>
    let candidates :=
      if session.roleBindings.length > 0 then session.roleBindings else [publicReader]
    let located := withResourceJurisdiction session resource
    match firstAllowed policy session facts located none candidates with
    | .ok role => .ok role
    | .error lastDenial =>
      match session.narrowedRoles.find? fun entry => policy.allowedRoles.contains entry.role with
      | some narrowed =>
        .error (.authenticationLevel
          (units "This session's sign-in level does not allow this role") narrowed.role
          narrowed.requiredAal)
      | none =>
        .error (.denied (units "You do not have permission to perform this action") lastDenial)

end MpcRegistry.Authorization
