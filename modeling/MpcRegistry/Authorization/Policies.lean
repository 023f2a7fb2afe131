import MpcRegistry.Library.Utf16

/-!
# Roles and actions

Source: packages/api-contract/src/authorization.ts, auth.ts and accounts.ts. The name of a
two-person rule takes no part in a decision and is left out.
-/
namespace MpcRegistry.Authorization
open Library

inductive AssuranceLevel
  | walletOnly
  | identityBound
  | highAssurance
  deriving DecidableEq, Repr

def assuranceRank : AssuranceLevel → Nat
  | .walletOnly => 0
  | .identityBound => 1
  | .highAssurance => 2

def satisfiesAssurance (actual required : AssuranceLevel) : Bool :=
  assuranceRank actual ≥ assuranceRank required

def roleMinimumAssurance : List (Text × AssuranceLevel) :=
  [(units "public_reader", .walletOnly), (units "protocol_voter", .walletOnly),
    (units "project_voter", .walletOnly), (units "protocol_proposer", .identityBound),
    (units "project_proposer", .identityBound), (units "data_steward", .identityBound),
    (units "project_admin", .identityBound), (units "project_sponsor_operator", .identityBound),
    (units "spv_representative", .identityBound), (units "execution_recorder", .identityBound),
    (units "auditor", .identityBound),
    (units "external_regulated_service_provider", .highAssurance),
    (units "scan_service", .highAssurance), (units "cre_reporter", .highAssurance),
    (units "reviewer_cp_qp", .highAssurance), (units "reviewer_lab", .highAssurance),
    (units "reviewer_legal", .highAssurance), (units "reviewer_assurance", .highAssurance),
    (units "disclosure_approver", .highAssurance), (units "issuer_officer", .highAssurance),
    (units "gate_approver", .highAssurance), (units "mpc_operator", .highAssurance),
    (units "treasury_signer", .highAssurance), (units "security_operator", .highAssurance)]

/-- `ROLE_MINIMUM_ASSURANCE[role] ?? "high_assurance"` -/
def requiredAssuranceOf (role : Text) : AssuranceLevel :=
  (roleMinimumAssurance.lookup role).getD .highAssurance

/-- Roles whose organization-level binding reaches the whole tenant. -/
def tenantWideRoles : List Text :=
  [units "public_reader", units "mpc_operator", units "security_operator", units "auditor",
    units "scan_service", units "cre_reporter", units "treasury_signer", units "gate_approver",
    units "protocol_proposer", units "protocol_voter", units "project_voter",
    units "external_regulated_service_provider", units "reviewer_cp_qp", units "reviewer_lab",
    units "reviewer_legal", units "reviewer_assurance", units "disclosure_approver"]

def workspaceReaders : List Text :=
  [units "mpc_operator", units "security_operator", units "auditor", units "project_admin",
    units "project_sponsor_operator", units "spv_representative", units "data_steward",
    units "gate_approver", units "issuer_officer", units "execution_recorder",
    units "external_regulated_service_provider", units "reviewer_cp_qp", units "reviewer_lab",
    units "reviewer_legal", units "reviewer_assurance", units "disclosure_approver"]

def governanceReaders : List Text :=
  workspaceReaders ++ [units "protocol_voter", units "project_voter", units "protocol_proposer",
    units "project_proposer"]

def registryApproverRoles : List Text := [units "reviewer_assurance"]

def disclosureApproverRoles : List Text := [units "disclosure_approver"]

def breakGlassRole : Text := units "break_glass"

structure ActionPolicy where
  action : Text
  allowedRoles : List Text
  deriving DecidableEq, Repr

/-- A verb of a governance space with its roles in the two spaces. -/
def governanceSpaceRoles : List (Text × List Text × List Text) :=
  [(units "propose", [units "protocol_proposer"], [units "project_proposer"]),
    (units "vote", [units "protocol_voter"], [units "project_voter"]),
    (units "administer", [units "protocol_proposer", units "mpc_operator"],
      [units "project_proposer", units "mpc_operator"])]

def governanceActions : List ActionPolicy :=
  governanceSpaceRoles.flatMap fun entry =>
    [⟨units "governance.protocol." ++ entry.1, entry.2.1⟩,
      ⟨units "governance.project." ++ entry.1, entry.2.2⟩,
      ⟨units "governance." ++ entry.1, (entry.2.1 ++ entry.2.2).eraseDups⟩]

def accountActionPolicies : List ActionPolicy := [
    ⟨units "admin.invitation.manage", [units "mpc_operator", units "security_operator"]⟩,
    ⟨units "admin.email_change.propose", [units "mpc_operator", units "security_operator"]⟩,
    ⟨units "admin.email_change.approve", [units "mpc_operator", units "security_operator"]⟩]

/-- The entries of `ACTION_POLICIES`, each under its action. -/
def actionPolicies : List ActionPolicy :=
  [
    ⟨units "project.read", workspaceReaders⟩,
    ⟨units "evidence.read", workspaceReaders ++ [units "scan_service"]⟩,
    ⟨units "verification.read", workspaceReaders⟩,
    ⟨units "readiness.read", workspaceReaders⟩,
    ⟨units "registry.read", workspaceReaders⟩,
    ⟨units "authority.read", workspaceReaders⟩,
    ⟨units "governance.read", governanceReaders⟩,
    ⟨units "project.create", [units "mpc_operator", units "project_admin",
      units "project_sponsor_operator"]⟩,
    ⟨units "project.update", [units "mpc_operator", units "project_admin"]⟩,
    ⟨units "project.party.submit", [units "project_admin", units "project_sponsor_operator",
      units "spv_representative", units "issuer_officer", units "data_steward"]⟩,
    ⟨units "project.fact.record", [units "data_steward"]⟩,
    ⟨units "project.registration.request", [units "project_admin",
      units "project_sponsor_operator"]⟩,
    ⟨units "project.stakeholder.record", [units "data_steward", units "project_sponsor_operator"]⟩,
    ⟨units "source.upload", [units "data_steward", units "project_admin",
      units "project_sponsor_operator", units "spv_representative"]⟩,
    ⟨units "upload.scan_result", [units "scan_service"]⟩,
    ⟨units "authority.register", [units "mpc_operator"]⟩,
    ⟨units "authority.review", [units "reviewer_legal", units "reviewer_assurance",
      units "auditor"]⟩,
    ⟨units "connection.configure", [units "mpc_operator", units "security_operator"]⟩,
    ⟨units "source.collect", [units "data_steward", units "mpc_operator"]⟩,
    ⟨units "cre.report", [units "data_steward", units "mpc_operator", units "cre_reporter"]⟩,
    ⟨units "claim.curate", [units "data_steward"]⟩,
    ⟨units "document.rule.manage", [units "mpc_operator"]⟩,
    ⟨units "attestation.dispute", [units "data_steward", units "reviewer_cp_qp",
      units "reviewer_lab", units "reviewer_legal", units "reviewer_assurance",
      units "auditor", units "mpc_operator", units "project_admin"]⟩,
    ⟨units "attestation.sign", [units "reviewer_cp_qp", units "reviewer_lab",
      units "reviewer_legal", units "reviewer_assurance"]⟩,
    ⟨units "attestation.revoke", [units "reviewer_cp_qp", units "reviewer_lab",
      units "reviewer_legal", units "reviewer_assurance"]⟩,
    ⟨units "credential.status.change", registryApproverRoles ++ [units "security_operator"]⟩,
    ⟨units "readiness.recompute", [units "mpc_operator", units "data_steward",
      units "gate_approver"]⟩,
    ⟨units "gate.decide", [units "gate_approver"]⟩,
    ⟨units "registry.draft", [units "mpc_operator"]⟩,
    ⟨units "registry.publish", disclosureApproverRoles⟩,
    ⟨units "registry.revoke", [units "mpc_operator"]⟩,
    ⟨units "anchor.submit", [units "mpc_operator"]⟩,
    ⟨units "disclosure.restrict", [units "issuer_officer", units "mpc_operator"]⟩] ++
  governanceActions ++
  [
    ⟨units "governance.execution.record", [units "execution_recorder"]⟩,
    ⟨units "audit.read", [units "auditor", units "security_operator", units "mpc_operator"]⟩,
    ⟨units "audit.export", [units "auditor", units "security_operator"]⟩,
    ⟨units "project.export", workspaceReaders⟩,
    ⟨units "admin.read", [units "mpc_operator", units "security_operator", units "auditor"]⟩,
    ⟨units "admin.subject.manage", [units "mpc_operator", units "security_operator"]⟩,
    ⟨units "admin.wallet.manage", [units "mpc_operator", units "security_operator"]⟩,
    ⟨units "admin.role.propose", [units "mpc_operator", units "security_operator"]⟩,
    ⟨units "admin.role.approve", [units "mpc_operator", units "security_operator"]⟩,
    ⟨units "admin.mfa_reset.propose", [units "mpc_operator", units "security_operator"]⟩,
    ⟨units "admin.mfa_reset.approve", [units "mpc_operator", units "security_operator"]⟩,
    ⟨units "admin.subject_suspension.propose", [units "mpc_operator", units "security_operator"]⟩,
    ⟨units "admin.subject_suspension.approve", [units "mpc_operator", units "security_operator"]⟩,
    ⟨units "admin.notification.manage", [units "mpc_operator", units "security_operator"]⟩] ++
  accountActionPolicies ++
  [
    ⟨units "review_registry.read", [units "mpc_operator", units "security_operator",
      units "auditor"] ++ registryApproverRoles⟩,
    ⟨units "review_registry.propose", [units "mpc_operator"]⟩,
    ⟨units "review_registry.approve", registryApproverRoles⟩,
    ⟨units "project.lifecycle.suspend", [units "mpc_operator", units "security_operator",
      units "issuer_officer"]⟩,
    ⟨units "project.lifecycle.advance", [units "issuer_officer", units "gate_approver"]⟩,
    ⟨units "connection.security_review", [units "security_operator"]⟩,
    ⟨units "break_glass.read", [units "security_operator", units "auditor"]⟩,
    ⟨units "break_glass.request", [units "security_operator"]⟩,
    ⟨units "break_glass.approve", [units "security_operator"]⟩,
    ⟨units "break_glass.incident", [units "security_operator"]⟩,
    ⟨units "break_glass.release", [units "security_operator"]⟩,
    ⟨units "break_glass.quarantine", [breakGlassRole]⟩]

def policyOf (action : Text) : Option ActionPolicy := actionPolicies.find? (·.action = action)

end MpcRegistry.Authorization
