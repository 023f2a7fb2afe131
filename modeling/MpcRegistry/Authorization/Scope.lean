import MpcRegistry.Authorization.Decision

/-!
# Decisions and scopes

A session is allowed what one of its bindings allows on its own. The projects of a list are those
that a single decision passes.
-/
namespace MpcRegistry.Authorization
open Library

/-! ## What a binding allows -/

/-- The projects that a binding reaches. -/
def Reaches (session : Session) (binding : RoleBinding) (projectId : Text) : Prop :=
  binding.projectId = some projectId ∨
    (binding.projectId = none ∧ (binding.role ∈ tenantWideRoles ∨
      ∃ organizationId projects, binding.organizationId = some organizationId ∧
        (session.organizationProjectIds.bind (·.lookup organizationId)) = some projects ∧
          projectId ∈ projects))

/-- The host of the resource's project: as the resource says, or else as the session knows it. -/
def HostOf (session : Session) (resource : ResourceContext) (host : Text) : Prop :=
  resource.jurisdiction = some (some host) ∨
    (resource.jurisdiction = none ∧ ∃ projectId hosts, resource.projectId = some projectId ∧
      session.projectJurisdictions = some hosts ∧ hosts.lookup projectId = some host)

/-- The conditions on the resource alone. -/
structure Meets (facts : ActorFacts) (resource : ResourceContext) : Prop where
  sensitivity : resource.sensitivity ∈ facts.sensitivityClearance
  credential : resource.requiresCredential = true → facts.hasRequiredCredential = true
  assignment : resource.requiresAssignment = true → facts.hasRequiredAssignment = true
  state : resource.state ∈ resource.statesAllowingAction
  separation : resource.separationSensitive = true → facts.conflictStatus ≠ .unresolved

/-- Everything that one binding has to satisfy. -/
structure Permits (session : Session) (policy : ActionPolicy) (facts : ActorFacts)
    (resource : ResourceContext) (binding : RoleBinding) : Prop where
  role : binding.role ∈ policy.allowedRoles
  assurance : assuranceRank (requiredAssuranceOf binding.role) ≤
    assuranceRank session.assuranceLevel
  tenant : session.tenantId.getD [] = resource.tenantId
  project : ∀ projectId, resource.projectId = some projectId →
    Reaches session binding projectId
  jurisdiction : ∀ scope, binding.jurisdiction = some scope →
    (resource.projectId = none ∧ resource.filteredByProjectScope = true) ∨
      ∃ host, HostOf session resource host ∧ host ∈ scope
  conditions : Meets facts resource

section Decisions

variable {session : Session} {policy : ActionPolicy} {facts : ActorFacts}
  {resource : ResourceContext} {binding : RoleBinding} {action projectId : Text}

theorem includes_baseScopeOf :
    (baseScopeOf session binding).includes projectId = true ↔
      Reaches session binding projectId := by
  unfold baseScopeOf Reaches
  cases hproject : binding.projectId with
  | some own => simp [ProjectScope.includes, eq_comm]
  | none =>
    by_cases hrole : binding.role ∈ tenantWideRoles
    · simp [hrole, ProjectScope.includes]
    · cases horganization : binding.organizationId with
      | none => simp [hrole, ProjectScope.includes]
      | some organizationId =>
        cases howned : session.organizationProjectIds.bind (·.lookup organizationId) <;>
          simp [hrole, ProjectScope.includes, howned]

theorem authorizeResourceConditions_eq_allow {actor : AuthorizationContext} :
    authorizeResourceConditions actor resource = .allow ↔
      Meets ⟨actor.sensitivityClearance, actor.hasRequiredCredential,
        actor.hasRequiredAssignment, actor.conflictStatus⟩ resource := by
  unfold authorizeResourceConditions deny
  constructor
  · intro h
    split_ifs at h with hsensitivity hcredential hassignment hstate hseparation
    exact ⟨hsensitivity, by simpa using hcredential, by simpa using hassignment, hstate,
      by simpa using hseparation⟩
  · rintro ⟨hsensitivity, hcredential, hassignment, hstate, hseparation⟩
    rw [if_neg (by simpa using hsensitivity), if_neg (by simpa using hcredential),
      if_neg (by simpa using hassignment), if_neg (by simpa using hstate),
      if_neg (by simpa using hseparation)]

theorem jurisdictionMatches_iff {actor : AuthorizationContext} :
    jurisdictionMatches actor resource = true ↔
      ∀ scope, actor.jurisdictionScope = some scope →
        (resource.projectId = none ∧ resource.filteredByProjectScope = true) ∨
          ∃ host, resource.jurisdiction = some (some host) ∧ host ∈ scope := by
  unfold jurisdictionMatches
  cases actor.jurisdictionScope with
  | none => simp
  | some scope =>
    cases hjurisdiction : resource.jurisdiction with
    | none => simp
    | some host => cases host <;> simp

/-- The resource with its host filled in. -/
theorem located_host {host : Text} :
    (withResourceJurisdiction session resource).jurisdiction = some (some host) ↔
      HostOf session resource host := by
  unfold withResourceJurisdiction HostOf
  cases hjurisdiction : resource.jurisdiction with
  | some own => simp [hjurisdiction]
  | none =>
    cases hproject : resource.projectId with
    | none => simp [hjurisdiction]
    | some projectId =>
      cases hhosts : session.projectJurisdictions with
      | none => simp [hjurisdiction]
      | some hosts => simp

theorem withResourceJurisdiction_eq (session : Session) (resource : ResourceContext) :
    ∃ jurisdiction, withResourceJurisdiction session resource =
      { resource with jurisdiction := jurisdiction } := by
  unfold withResourceJurisdiction
  split
  · exact ⟨_, rfl⟩
  · exact ⟨resource.jurisdiction, rfl⟩

theorem authorize_iff {actor : AuthorizationContext} : authorize policy actor resource = .allow ↔
    actor.role ∈ policy.allowedRoles ∧
      satisfiesAssurance actor.assuranceLevel (requiredAssuranceOf actor.role) = true ∧
      actor.actorTenantId = resource.tenantId ∧
      (∀ projectId, resource.projectId = some projectId →
        actor.actorProjectIds.includes projectId = true) ∧
      jurisdictionMatches actor resource = true ∧
      authorizeResourceConditions actor resource = .allow := by
  have hlast : (if jurisdictionMatches actor resource = false then
      deny .jurisdictionScopeMismatch else authorizeResourceConditions actor resource) = .allow ↔
        jurisdictionMatches actor resource = true ∧
          authorizeResourceConditions actor resource = .allow := by
    by_cases hmatches : jurisdictionMatches actor resource = true
    · simp [hmatches]
    · simp [hmatches, deny]
  unfold authorize
  by_cases hrole : actor.role ∈ policy.allowedRoles
  swap
  · simp [hrole]
  by_cases hassurance :
      satisfiesAssurance actor.assuranceLevel (requiredAssuranceOf actor.role) = true
  swap
  · simp [hrole, hassurance]
  by_cases htenant : actor.actorTenantId = resource.tenantId
  swap
  · simp [hrole, hassurance, htenant, deny]
  cases hproject : resource.projectId with
  | none => simpa [hrole, hassurance, htenant] using hlast
  | some projectId =>
    by_cases hscope : actor.actorProjectIds.includes projectId = true
    · simpa [hrole, hassurance, htenant, hscope, Option.filter] using hlast
    · simp [hrole, hassurance, htenant, hscope, Option.filter]

/-- One binding's decision on a located resource. -/
theorem authorize_eq_allow : authorize policy (bindingToAuthorizationContext session binding facts)
    (withResourceJurisdiction session resource) = .allow ↔
      Permits session policy facts resource binding := by
  have hlocated := fun host => @located_host session resource host
  obtain ⟨jurisdiction, heq⟩ := withResourceJurisdiction_eq session resource
  rw [authorize_iff, jurisdictionMatches_iff, authorizeResourceConditions_eq_allow]
  simp only [hlocated]
  rw [heq]
  simp only [bindingToAuthorizationContext, includes_baseScopeOf, satisfiesAssurance]
  constructor
  · rintro ⟨hrole, hassurance, htenant, hproject, hjurisdiction, hconditions⟩
    exact ⟨hrole, of_decide_eq_true hassurance, htenant, hproject, hjurisdiction,
      ⟨hconditions.sensitivity, hconditions.credential, hconditions.assignment,
        hconditions.state, hconditions.separation⟩⟩
  · rintro ⟨hrole, hassurance, htenant, hproject, hjurisdiction, hconditions⟩
    exact ⟨hrole, decide_eq_true hassurance, htenant, hproject, hjurisdiction,
      ⟨hconditions.sensitivity, hconditions.credential, hconditions.assignment,
        hconditions.state, hconditions.separation⟩⟩

theorem firstAllowed_ok {located : ResourceContext} {candidates : List RoleBinding} {role : Text}
    {lastDenial : Option Denial}
    (h : firstAllowed policy session facts located lastDenial candidates = .ok role) :
    ∃ binding ∈ candidates, authorize policy (bindingToAuthorizationContext session binding facts)
      located = .allow ∧ binding.role = role := by
  induction candidates generalizing lastDenial with
  | nil => simp [firstAllowed] at h
  | cons first rest ih =>
    unfold firstAllowed at h
    split at h
    · rename_i hallow
      exact ⟨first, List.mem_cons_self, hallow, Except.ok.inj h⟩
    · obtain ⟨binding, hmem, hbinding⟩ := ih h
      exact ⟨binding, List.mem_cons_of_mem _ hmem, hbinding⟩

theorem firstAllowed_of_allow {located : ResourceContext} {candidates : List RoleBinding}
    {lastDenial : Option Denial} (hmem : binding ∈ candidates)
    (h : authorize policy (bindingToAuthorizationContext session binding facts) located =
      .allow) : ∃ role, firstAllowed policy session facts located lastDenial candidates =
        .ok role := by
  induction candidates generalizing lastDenial with
  | nil => simp at hmem
  | cons first rest ih =>
    unfold firstAllowed
    split
    · exact ⟨first.role, rfl⟩
    · rename_i denial hdeny
      rcases List.mem_cons.mp hmem with rfl | hrest
      · exact absurd (h.symm.trans hdeny) (by simp)
      · exact ih hrest

/-- Allowed exactly where some binding permits it on its own. -/
theorem assertAuthorized_iff (hpolicy : policyOf action = some policy)
    (hbindings : session.roleBindings ≠ []) :
    (∃ role, assertAuthorized session action resource facts = .ok role) ↔
      ∃ binding ∈ session.roleBindings, Permits session policy facts resource binding := by
  unfold assertAuthorized
  rw [hpolicy]
  dsimp only
  rw [if_pos (List.length_pos_iff.mpr hbindings)]
  constructor
  · rintro ⟨role, h⟩
    split at h
    · rename_i first hfirst
      obtain ⟨binding, hmem, hallow, -⟩ := firstAllowed_ok hfirst
      exact ⟨binding, hmem, authorize_eq_allow.mp hallow⟩
    · split at h <;> simp at h
  · rintro ⟨binding, hmem, hpermits⟩
    obtain ⟨role, hrole⟩ := @firstAllowed_of_allow session policy facts binding
      (withResourceJurisdiction session resource) session.roleBindings none hmem
      (authorize_eq_allow.mpr hpermits)
    exact ⟨role, by rw [hrole]⟩

/-! ## More bindings -/

/-- The same person in the same tenant, with no fewer bindings, owned projects and known hosts. -/
structure Extends (session wider : Session) : Prop where
  tenantId : wider.tenantId = session.tenantId
  assuranceLevel : wider.assuranceLevel = session.assuranceLevel
  roleBindings : ∀ binding ∈ session.roleBindings, binding ∈ wider.roleBindings
  owned : ∀ organizationId projects,
    session.organizationProjectIds.bind (·.lookup organizationId) = some projects →
      ∃ more, wider.organizationProjectIds.bind (·.lookup organizationId) = some more ∧
        ∀ projectId ∈ projects, projectId ∈ more
  hosts : ∀ hosts projectId host, session.projectJurisdictions = some hosts →
    hosts.lookup projectId = some host →
      ∃ more, wider.projectJurisdictions = some more ∧ more.lookup projectId = some host

/-- A binding more. -/
theorem extends_roleBindings {bindings : List RoleBinding}
    (h : ∀ binding ∈ session.roleBindings, binding ∈ bindings) :
    Extends session { session with roleBindings := bindings } :=
  ⟨rfl, rfl, h, fun _ projects howned => ⟨projects, howned, fun _ hmem => hmem⟩,
    fun hosts _ _ hhosts hlookup => ⟨hosts, hhosts, hlookup⟩⟩

theorem Permits.extends {wider : Session} (h : Permits session policy facts resource binding)
    (hwider : Extends session wider) : Permits wider policy facts resource binding := by
  refine ⟨h.role, hwider.assuranceLevel ▸ h.assurance, hwider.tenantId ▸ h.tenant,
    fun projectId hproject => ?_, fun scope hscope => ?_, h.conditions⟩
  · rcases h.project projectId hproject with hown | ⟨hnone, hwide | howned⟩
    · exact .inl hown
    · exact .inr ⟨hnone, .inl hwide⟩
    · obtain ⟨organizationId, projects, horganization, hprojects, hmem⟩ := howned
      obtain ⟨more, hmore, hsub⟩ := hwider.owned organizationId projects hprojects
      exact .inr ⟨hnone, .inr ⟨organizationId, more, horganization, hmore, hsub projectId hmem⟩⟩
  · rcases h.jurisdiction scope hscope with hlist | ⟨host, hhost, hmem⟩
    · exact .inl hlist
    · refine .inr ⟨host, ?_, hmem⟩
      rcases hhost with hown | ⟨hnone, projectId, hosts, hproject, hhosts, hlookup⟩
      · exact .inl hown
      · obtain ⟨more, hmore, hlookup⟩ := hwider.hosts hosts projectId host hhosts hlookup
        exact .inr ⟨hnone, projectId, more, hproject, hmore, hlookup⟩

/-! ## The scope of a list -/

theorem includes_withinJurisdiction {scope : ProjectScope} :
    (withinJurisdiction session binding scope).includes projectId = true ↔
      scope.includes projectId = true ∧ ∀ jurisdiction, binding.jurisdiction = some jurisdiction →
        ∃ host, (session.projectJurisdictions.getD []).lookup projectId = some host ∧
          host ∈ jurisdiction := by
  unfold withinJurisdiction
  cases hjurisdiction : binding.jurisdiction with
  | none => simp
  | some jurisdiction =>
    cases hhost : (session.projectJurisdictions.getD []).lookup projectId with
    | none => cases scope <;> simp [ProjectScope.includes, hhost]
    | some host =>
      cases scope with
      | all =>
        have hkey : projectId ∈ (session.projectJurisdictions.getD []).map Prod.fst := by
          obtain ⟨before, after, hosts, -⟩ := List.lookup_eq_some_iff.mp hhost
          rw [hosts]
          simp
        simp only [ProjectScope.includes, List.contains_iff_mem, List.mem_filter, hkey, hhost]
        simp
      | projects ids => simp [ProjectScope.includes, hhost]

theorem ids_iff {scope : ProjectScope} (h : scope ≠ .all) :
    projectId ∈ scope.ids ↔ scope.includes projectId = true := by
  cases scope with
  | all => exact absurd rfl h
  | projects ids => simp [ProjectScope.ids, ProjectScope.includes]

theorem mem_visibleProjectScope : (visibleProjectScope session action).includes projectId = true ↔
    ∃ binding ∈ usableBindings session action,
      (scopeOf session binding).includes projectId = true := by
  unfold visibleProjectScope
  dsimp only
  by_cases hall : ((usableBindings session action).map (scopeOf session)).any (· = .all) = true
  · rw [if_pos hall]
    obtain ⟨scope, hscope, heq⟩ := List.any_eq_true.mp hall
    obtain ⟨binding, hbinding, rfl⟩ := List.mem_map.mp hscope
    refine iff_of_true rfl ⟨binding, hbinding, ?_⟩
    rw [of_decide_eq_true heq]
    rfl
  · rw [if_neg hall]
    have hnone : ∀ binding ∈ usableBindings session action, scopeOf session binding ≠ .all := by
      intro binding hbinding heq
      exact hall (List.any_eq_true.mpr ⟨_, List.mem_map_of_mem hbinding, decide_eq_true heq⟩)
    rw [ProjectScope.includes, List.contains_iff_mem, List.mem_eraseDups, List.mem_flatMap]
    constructor
    · rintro ⟨scope, hscope, hmem⟩
      obtain ⟨binding, hbinding, rfl⟩ := List.mem_map.mp hscope
      exact ⟨binding, hbinding, (ids_iff (hnone binding hbinding)).mp hmem⟩
    · rintro ⟨binding, hbinding, hmem⟩
      exact ⟨_, List.mem_map_of_mem hbinding, (ids_iff (hnone binding hbinding)).mpr hmem⟩

theorem mem_usableBindings (hpolicy : policyOf action = some policy) :
    binding ∈ usableBindings session action ↔ binding ∈ session.roleBindings ∧
      binding.role ∈ policy.allowedRoles ∧
        assuranceRank (requiredAssuranceOf binding.role) ≤
          assuranceRank session.assuranceLevel := by
  unfold usableBindings
  rw [hpolicy]
  simp [satisfiesAssurance]

/-- A project resource asks of a binding what the scope of its list does. -/
theorem permits_projectResource {tenantId : Text} (htenant : session.tenantId = some tenantId)
    (hmeets : Meets facts (projectResource tenantId projectId)) :
    Permits session policy facts (projectResource tenantId projectId) binding ↔
      (binding.role ∈ policy.allowedRoles ∧ assuranceRank (requiredAssuranceOf binding.role) ≤
        assuranceRank session.assuranceLevel) ∧
        (scopeOf session binding).includes projectId = true := by
  unfold scopeOf
  rw [includes_withinJurisdiction, includes_baseScopeOf]
  have hhost : ∀ host, HostOf session (projectResource tenantId projectId) host ↔
      (session.projectJurisdictions.getD []).lookup projectId = some host := by
    intro host
    unfold HostOf projectResource
    cases session.projectJurisdictions <;> simp
  constructor
  · intro h
    refine ⟨⟨h.role, h.assurance⟩, h.project projectId rfl, fun jurisdiction hbinding => ?_⟩
    rcases h.jurisdiction jurisdiction hbinding with ⟨hnone, -⟩ | ⟨host, hlocated, hmem⟩
    · simp [projectResource] at hnone
    · exact ⟨host, (hhost host).mp hlocated, hmem⟩
  · rintro ⟨⟨hrole, hassurance⟩, hreaches, hjurisdiction⟩
    refine ⟨hrole, hassurance, by rw [htenant]; rfl, ?_, ?_, ?_⟩
    · intro other hother
      obtain rfl := Option.some.inj hother
      exact hreaches
    · intro jurisdiction hbinding
      obtain ⟨host, hlookup, hmem⟩ := hjurisdiction jurisdiction hbinding
      exact .inr ⟨host, (hhost host).mpr hlookup, hmem⟩
    · exact hmeets

/-- Decisions are those of single bindings, more bindings allow no less, and a list's scope is what
single decisions pass. -/
theorem authorization_composes (hpolicy : policyOf action = some policy)
    (hbindings : session.roleBindings ≠ []) :
    (∀ resource facts, (∃ role, assertAuthorized session action resource facts = .ok role) ↔
      ∃ binding ∈ session.roleBindings, Permits session policy facts resource binding) ∧
      (∀ wider resource facts, Extends session wider →
        (∃ role, assertAuthorized session action resource facts = .ok role) →
          ∃ role, assertAuthorized wider action resource facts = .ok role) ∧
      ∀ tenantId projectId facts, session.tenantId = some tenantId →
        Meets facts (projectResource tenantId projectId) →
          ((visibleProjectScope session action).includes projectId = true ↔
            ∃ role, assertAuthorized session action (projectResource tenantId projectId) facts =
              .ok role) := by
  refine ⟨fun resource facts => assertAuthorized_iff hpolicy hbindings, ?_, ?_⟩
  · intro wider resource facts hwider hallowed
    obtain ⟨binding, hmem, hpermits⟩ := (assertAuthorized_iff hpolicy hbindings).mp hallowed
    have hmore := hwider.roleBindings binding hmem
    exact (assertAuthorized_iff hpolicy (List.ne_nil_of_mem hmore)).mpr
      ⟨binding, hmore, hpermits.extends hwider⟩
  · intro tenantId projectId facts htenant hmeets
    rw [assertAuthorized_iff hpolicy hbindings, mem_visibleProjectScope]
    simp only [permits_projectResource htenant hmeets, mem_usableBindings hpolicy, and_assoc]

end Decisions

/-- An auditor of one country. -/
def auditorSession : Session where
  tenantId := some (units "tenant")
  assuranceLevel := .identityBound
  roleBindings := [⟨units "auditor", none, none, some [units "MNG"]⟩]
  narrowedRoles := []
  organizationProjectIds := none
  projectJurisdictions := some [(units "mine", units "MNG"), (units "well", units "PER")]

/-- The listed project passes, also with a binding more. -/
theorem authorization_composes_auditor :
    ∃ role, assertAuthorized { auditorSession with
        roleBindings := publicReader :: auditorSession.roleBindings }
      (units "project.read") (projectResource (units "tenant") (units "mine"))
      (sessionFacts auditorSession) = .ok role := by
  have hpolicy : policyOf (units "project.read") =
      some ⟨units "project.read", workspaceReaders⟩ := by rfl
  have hmeets : Meets (sessionFacts auditorSession)
      (projectResource (units "tenant") (units "mine")) :=
    ⟨by decide, by decide, by decide, by decide, by decide⟩
  obtain ⟨-, hmore, hlist⟩ := authorization_composes hpolicy
    (show auditorSession.roleBindings ≠ [] by decide)
  refine hmore _ _ _ (extends_roleBindings fun binding hmem => List.mem_cons_of_mem _ hmem) ?_
  exact (hlist _ _ _ rfl hmeets).mp (by decide)

end MpcRegistry.Authorization
