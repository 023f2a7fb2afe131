import MpcRegistry.Ledger.Evaluator
import MpcRegistry.Policy.BetterEvidence

/-!
# What a stage is judged by and what it shows as covered

Source: packages/db/src/evidence-ledger.ts:39-111, 160-231. The verdict of a stage is taken
claim by claim, its coverage item by item. A date is its milliseconds; the context of the
facts is left open, and every requirement may have its own.
-/
namespace MpcRegistry.Ledger
open Library Utf16 Documents Ecma
open Policy (Grade AttestationType RequirementFacts RequirementResult ParsedRuleSet Facts
  AssessmentInput Assessment distinct sortTexts)

/-- The columns of a claim that only the stage rules read. -/
structure StageClaim extends LedgerClaim where
  asOf : Option Int
  conflictTypes : List Text

/-- A review with its type. The query counts none as valid that is not signed or active. -/
structure StageAttestation extends LedgerAttestation where
  attestationType : AttestationType
  signed : valid = true → state = .signed ∨ state = .active

/-- The definitions in force: `PRIMARY KEY (id)`,
`UNIQUE (tenant_id, claim_type, catalog_version)`. -/
structure Catalog where
  definitions : Table ClaimType.id
  versions : (definitions.rows.map fun d => (d.claimType, d.catalogVersion)).Nodup

/-! ## Items -/

/-- The item of a catalog definition in `computeEvidenceLedger`. -/
def itemOf (claims : List LedgerClaim) (attestations : List LedgerAttestation)
    (manual : List FactVersion) (definition : ClaimType) : LedgerItem :=
  let relevant := claims.filter (·.catalogEntryId = definition.id)
  let result := deriveLedgerItemStatus relevant attestations
    (manual.any fun f => f.factKey = definition.claimType && f.status = .notApplicable)
  { claimType := definition.claimType, catalogVersion := definition.catalogVersion,
    displayName := definition.displayName, status := result.status,
    grade := weakestGrade (relevant.map LedgerClaim.grade),
    reviewScope := ((relevant.filter fun c => attestations.any fun a => a.valid &&
      c.id ∈ a.claimScope).map LedgerClaim.claimType).dedup,
    claimIds := (relevant.map LedgerClaim.id).insertionSort (· ≤ ·),
    attestationIds := result.attestationIds, reasons := result.reasons,
    limitations := result.limitations }

/-- The evaluator over the tables builds its items the same way. -/
theorem Db.ledgerItem_eq (db : Db) (project : Uuid) (evaluatedAt : Instant)
    (definition : ClaimType) :
    db.ledgerItem project evaluatedAt definition =
      itemOf (db.ledgerClaims project evaluatedAt)
        (db.ledgerAttestations project evaluatedAt (db.ledgerClaims project evaluatedAt))
        (db.manual project evaluatedAt) definition := rfl

def itemsOf (catalog : Catalog) (claims : List StageClaim) (attestations : List StageAttestation)
    (manual : List FactVersion) : List LedgerItem :=
  catalog.definitions.rows.map <| itemOf (claims.map StageClaim.toLedgerClaim)
    (attestations.map StageAttestation.toLedgerAttestation) manual

/-! ## The facts a stage is judged by -/

/-- `Math.floor(date.getTime() / 86400000)` -/
def utcDay (date : Int) : Int := date / 86400000

def futureDated (evaluatedAt : Int) (c : StageClaim) : Bool :=
  c.asOf.any fun asOf => utcDay evaluatedAt < utcDay asOf

/-- A claim whose item is not applicable supplies no evidence. -/
def isIncluded (items : List LedgerItem) (c : StageClaim) : Bool :=
  !items.any fun item => item.status = .notApplicable && item.claimType = c.claimType &&
    item.catalogVersion = c.catalogVersion

/-- The condition under which a claim puts its type among the stale evidence. -/
def isStaleEvidence (attestations covered : List StageAttestation) (evaluatedAt : Int)
    (c : StageClaim) : Bool :=
  c.stale || c.excludedByRule || c.grade = .rejected || futureDated evaluatedAt c ||
    !c.hasEvidence || !covered.any (fun a => c.id ∈ a.claimScope) ||
    attestations.any fun a => c.id ∈ a.claimScope && !a.valid && a.state ≠ .superseded

/-- The oldest of the claims, in days. None of them is dated ahead, so that no age is negative. -/
def evidenceAgeDays (relevant : List StageClaim) (evaluatedAt : Int) : Option Text :=
  if relevant = [] ∨ relevant.any (fun c => c.asOf.isNone || futureDated evaluatedAt c) then none
  else some <| decimalText <| (relevant.map fun c =>
    (utcDay evaluatedAt - utcDay (c.asOf.getD 0)).toNat).foldl max 0

def ledgerRequirementEvidence (requiredClaimTypes : List Text) (claims : List StageClaim)
    (attestations : List StageAttestation) (items : List LedgerItem) (evaluatedAt : Int)
    (context : Facts) : RequirementFacts :=
  let included := claims.filter (isIncluded items)
  let relevant := included.filter (·.claimType ∈ requiredClaimTypes)
  let covered := attestations.filter fun a =>
    a.valid && a.claimScope.any fun id => relevant.any (·.id = id)
  { presentClaimTypes := distinct
      ((included.filter fun c => c.hasEvidence && !c.excludedByRule).map (·.claimType))
    grade := weakestGrade (relevant.map (·.grade))
    presentAttestations := (covered.map StageAttestation.attestationType).eraseDups
    evidenceAgeDays := evidenceAgeDays relevant evaluatedAt
    unresolvedConflictTypes := sortTexts (distinct (relevant.flatMap StageClaim.conflictTypes))
    staleEvidence := distinct
      ((relevant.filter (isStaleEvidence attestations covered evaluatedAt)).map (·.claimType))
    context }

/-- The facts of a stage, recorded under the id of each requirement; the last one would stay. -/
def stageFacts (ruleSet : ParsedRuleSet) (claims : List StageClaim)
    (attestations : List StageAttestation) (items : List LedgerItem) (evaluatedAt : Int)
    (context : Text → Facts) (requirementId : Text) : Option RequirementFacts :=
  (ruleSet.requirements.reverse.find? (·.requirementId = requirementId)).map fun requirement =>
    ledgerRequirementEvidence requirement.requiredClaimTypes claims attestations items evaluatedAt
      (context requirementId)

/-! ## The coverage a stage shows -/

/-- The types that the applicable requirements ask for, each of them once. -/
def requiredTypes (requirements : List Policy.Requirement) (results : List RequirementResult) :
    List Text :=
  let applicableIds := (results.filter (·.applicable)).map RequirementResult.requirementId
  distinct ((requirements.filter fun requirement =>
    requirement.requirementId ∈ applicableIds).flatMap Policy.Requirement.requiredClaimTypes)

def candidates (items : List LedgerItem) (type : Text) : List LedgerItem :=
  items.filter (·.claimType = type)

/-- The items with claims, or all of the type when there are none; without those that do not
apply. -/
def relevantItems (items : List LedgerItem) (type : Text) : List LedgerItem :=
  let pinned := (candidates items type).filter fun item => 0 < item.claimIds.length
  (if 0 < pinned.length then pinned else candidates items type).filter
    (·.status ≠ .notApplicable)

structure Counts where
  required : Nat
  reviewed : Nat

/-- The body of the loop over the types. -/
def countType (items : List LedgerItem) (counts : Counts) (type : Text) : Counts :=
  let relevant := relevantItems items type
  if candidates items type ≠ [] ∧ relevant = [] then counts
  else
    { required := counts.required + 1
      reviewed := if relevant ≠ [] ∧ relevant.all (·.status = .reviewed) then counts.reviewed + 1
        else counts.reviewed }

structure StageCoverage where
  reviewedItems : Text
  requiredItems : Text
  deriving DecidableEq, Repr

def stageEvidenceCoverage (requirements : List Policy.Requirement)
    (results : List RequirementResult) (items : List LedgerItem) : StageCoverage :=
  let counts := (requiredTypes requirements results).foldl (countType items) ⟨0, 0⟩
  { reviewedItems := decimalText counts.reviewed, requiredItems := decimalText counts.required }

/-! ## Items of a type -/

variable {catalog : Catalog} {claims : List StageClaim} {attestations : List StageAttestation}
  {manual : List FactVersion} {items : List LedgerItem} {evaluatedAt : Int} {type : Text}

/-- The claim was made under a definition of the catalog. -/
def Catalogued (catalog : Catalog) (c : StageClaim) : Prop :=
  ∃ d ∈ catalog.definitions, d.id = c.catalogEntryId ∧ d.claimType = c.claimType ∧
    d.catalogVersion = c.catalogVersion

/-- The claims an item is made of. -/
def itemClaims (claims : List StageClaim) (d : ClaimType) : List StageClaim :=
  claims.filter (·.catalogEntryId = d.id)

theorem map_itemClaims (d : ClaimType) :
    (claims.map StageClaim.toLedgerClaim).filter (·.catalogEntryId = d.id) =
      (itemClaims claims d).map StageClaim.toLedgerClaim := by
  rw [List.filter_map, itemClaims]
  rfl

theorem length_claimIds (d : ClaimType) :
    (itemOf (claims.map StageClaim.toLedgerClaim)
      (attestations.map StageAttestation.toLedgerAttestation) manual d).claimIds.length =
        (itemClaims claims d).length := by
  simp [itemOf, map_itemClaims]

theorem Catalogued.claimType_eq {c : StageClaim} {d : ClaimType} (h : Catalogued catalog c)
    (hd : d ∈ catalog.definitions) (hc : c ∈ itemClaims claims d) :
    d.claimType = c.claimType ∧ d.catalogVersion = c.catalogVersion := by
  obtain ⟨d', hd', hid, htype, hversion⟩ := h
  have hentry : c.catalogEntryId = d.id := by simpa using (List.mem_filter.mp hc).2
  obtain rfl := Table.eq_of_key hd' hd (hid.trans hentry)
  exact ⟨htype, hversion⟩

theorem Catalog.eq_of_version {d d' : ClaimType} (hd : d ∈ catalog.definitions)
    (hd' : d' ∈ catalog.definitions) (htype : d.claimType = d'.claimType)
    (hversion : d.catalogVersion = d'.catalogVersion) : d = d' :=
  List.inj_on_of_nodup_map catalog.versions hd hd' (Prod.ext htype hversion)

theorem mem_itemsOf {item : LedgerItem} :
    item ∈ itemsOf catalog claims attestations manual ↔ ∃ d ∈ catalog.definitions,
      itemOf (claims.map StageClaim.toLedgerClaim)
        (attestations.map StageAttestation.toLedgerAttestation) manual d = item := by
  simp only [itemsOf, List.mem_map, Table.mem_rows]

/-- The claims of one item are included together: no other item has its type and version. -/
theorem isIncluded_iff {c : StageClaim} {d : ClaimType} (h : Catalogued catalog c)
    (hd : d ∈ catalog.definitions) (hc : c ∈ itemClaims claims d) :
    isIncluded (itemsOf catalog claims attestations manual) c = true ↔
      (itemOf (claims.map StageClaim.toLedgerClaim)
        (attestations.map StageAttestation.toLedgerAttestation) manual d).status ≠
          .notApplicable := by
  obtain ⟨htype, hversion⟩ := h.claimType_eq hd hc
  simp only [isIncluded, Bool.not_eq_true', List.any_eq_false, Bool.and_eq_true, decide_eq_true_eq,
    mem_itemsOf]
  constructor
  · intro hnone hstatus
    exact hnone _ ⟨d, hd, rfl⟩ ⟨⟨hstatus, htype⟩, hversion⟩
  · rintro hstatus item ⟨d', hd', rfl⟩ ⟨⟨hstatus', htype'⟩, hversion'⟩
    obtain rfl : d' = d :=
      catalog.eq_of_version hd' hd (htype'.trans htype.symm) (hversion'.trans hversion.symm)
    exact hstatus hstatus'

/-! ## An item all of whose claims are current -/

/-- What is left of a claim that puts nothing among the stale evidence. -/
structure Current (attestations : List StageAttestation) (c : StageClaim) : Prop where
  fresh : c.stale = false
  kept : c.excludedByRule = false
  grade : c.grade ≠ .rejected
  evidence : c.hasEvidence = true
  covered : ∃ a ∈ attestations, a.valid = true ∧ c.id ∈ a.claimScope
  valid : ∀ a ∈ attestations, c.id ∈ a.claimScope → a.valid = true ∨ a.state = .superseded

theorem current_of_not_stale {covered : List StageAttestation} {c : StageClaim}
    (hcovered : ∀ a ∈ covered, a ∈ attestations ∧ a.valid = true)
    (h : isStaleEvidence attestations covered evaluatedAt c = false) : Current attestations c := by
  simp only [isStaleEvidence, Bool.or_eq_false_iff, Bool.not_eq_false', List.any_eq_true,
    List.any_eq_false, Bool.and_eq_true, decide_eq_true_eq, decide_eq_false_iff_not,
    Bool.not_eq_true'] at h
  obtain ⟨⟨⟨⟨⟨⟨hfresh, hkept⟩, hgrade⟩, -⟩, hevidence⟩, a, ha, hscope⟩, hvalid⟩ := h
  refine ⟨hfresh, hkept, hgrade, hevidence, ⟨a, (hcovered a ha).1, (hcovered a ha).2, hscope⟩, ?_⟩
  intro b hb hmem
  by_contra hneither
  rw [not_or, Bool.not_eq_true] at hneither
  exact hvalid b hb ⟨⟨hmem, hneither.1⟩, hneither.2⟩

section Status

variable {d : ClaimType}

/-- The reviews that bear on the claims of an item. -/
def itemAttestations (attestations : List StageAttestation) (claims : List StageClaim)
    (d : ClaimType) : List StageAttestation :=
  attestations.filter fun a => a.claimScope.any fun id => (itemClaims claims d).any (·.id = id)

theorem mem_itemAttestations {a : StageAttestation} :
    a ∈ itemAttestations attestations claims d ↔
      a ∈ attestations ∧ ∃ c ∈ itemClaims claims d, c.id ∈ a.claimScope := by
  simp only [itemAttestations, List.mem_filter, List.any_eq_true, decide_eq_true_eq]
  constructor
  · rintro ⟨ha, id, hid, c, hc, rfl⟩
    exact ⟨ha, c, hc, hid⟩
  · rintro ⟨ha, c, hc, hscope⟩
    exact ⟨ha, c.id, hscope, c, hc, rfl⟩

theorem map_itemAttestations :
    (attestations.map StageAttestation.toLedgerAttestation).filter (fun a =>
      a.claimScope.any fun id =>
        ((itemClaims claims d).map StageClaim.toLedgerClaim).any (·.id = id)) =
      (itemAttestations attestations claims d).map StageAttestation.toLedgerAttestation := by
  rw [List.filter_map, itemAttestations]
  congr 1
  refine List.filter_congr fun a _ => ?_
  simp [List.any_map, Function.comp_def]

/-- A disputed review is not valid, so it keeps a claim of its scope from being current. -/
theorem ne_disputed (hcurrent : ∀ c ∈ itemClaims claims d, Current attestations c)
    {a : StageAttestation} (ha : a ∈ itemAttestations attestations claims d) :
    a.state ≠ .disputed := by
  obtain ⟨hmem, c, hc, hscope⟩ := mem_itemAttestations.mp ha
  intro hdisputed
  rcases (hcurrent c hc).valid a hmem hscope with hvalid | hsuperseded
  · rcases a.signed hvalid with hstate | hstate <;> rw [hdisputed] at hstate <;> cases hstate
  · rw [hdisputed] at hsuperseded
    cases hsuperseded

theorem status_reviewed (hsome : itemClaims claims d ≠ [])
    (hunopposed : ∀ c ∈ itemClaims claims d, c.conflictIds = [])
    (hcurrent : ∀ c ∈ itemClaims claims d, Current attestations c)
    (happlies : (itemOf (claims.map StageClaim.toLedgerClaim)
      (attestations.map StageAttestation.toLedgerAttestation) manual d).status ≠ .notApplicable) :
    (itemOf (claims.map StageClaim.toLedgerClaim)
      (attestations.map StageAttestation.toLedgerAttestation) manual d).status = .reviewed := by
  simp only [itemOf, deriveLedgerItemStatus, map_itemClaims, map_itemAttestations] at happlies ⊢
  have hconflict : ((((itemClaims claims d).map StageClaim.toLedgerClaim).any fun c =>
      !c.conflictIds.isEmpty) || ((itemAttestations attestations claims d).map
        StageAttestation.toLedgerAttestation).any (·.state = .disputed)) = false := by
    simp only [Bool.or_eq_false_iff, List.any_eq_false, List.forall_mem_map]
    exact ⟨fun c hc => by simp [hunopposed c hc], fun a ha => by simpa using ne_disputed hcurrent ha⟩
  have hstale : (((itemClaims claims d).map StageClaim.toLedgerClaim).any LedgerClaim.stale ||
      ((itemAttestations attestations claims d).map StageAttestation.toLedgerAttestation).any
        fun a => !a.valid && a.state ≠ .superseded) = false := by
    simp only [Bool.or_eq_false_iff, List.any_eq_false, List.forall_mem_map]
    refine ⟨fun c hc => by simp [(hcurrent c hc).fresh], fun a ha => ?_⟩
    obtain ⟨hmem, c, hc, hscope⟩ := mem_itemAttestations.mp ha
    rcases (hcurrent c hc).valid a hmem hscope with hvalid | hsuperseded
    · simp [hvalid]
    · simp [hsuperseded]
  have hrejected : (((itemClaims claims d).map StageClaim.toLedgerClaim).any fun c =>
      c.grade = .rejected || c.excludedByRule) = false := by
    simp only [List.any_eq_false, List.forall_mem_map]
    exact fun c hc => by simp [(hcurrent c hc).grade, (hcurrent c hc).kept]
  have hall : (((itemClaims claims d).map StageClaim.toLedgerClaim).all fun c =>
      c.hasEvidence && (((itemAttestations attestations claims d).map
        StageAttestation.toLedgerAttestation).filter LedgerAttestation.valid).any fun a =>
          c.id ∈ a.claimScope) = true := by
    simp only [List.all_eq_true, Bool.and_eq_true, List.any_eq_true, List.mem_filter, List.mem_map,
      decide_eq_true_eq]
    rintro l ⟨c, hc, rfl⟩
    obtain ⟨a, ha, hvalid, hscope⟩ := (hcurrent c hc).covered
    exact ⟨(hcurrent c hc).evidence, _,
      ⟨⟨a, mem_itemAttestations.mpr ⟨ha, c, hc, hscope⟩, rfl⟩, hvalid⟩, hscope⟩
  have hnonempty : ((itemClaims claims d).map StageClaim.toLedgerClaim).isEmpty = false := by
    simpa using hsome
  rw [hconflict, hstale, hrejected, hnonempty, hall] at happlies ⊢
  simp only [Bool.false_eq_true, if_false, if_true] at happlies ⊢
  split
  · next hexcluded =>
    rw [if_pos hexcluded] at happlies
    exact absurd rfl happlies
  · rfl

end Status

/-! ## From the verdict to the coverage -/

/-- Every type that the loop sees has items left, all of them reviewed. -/
theorem foldl_countType {types : List Text}
    (h : ∀ type ∈ types, relevantItems items type ≠ [] ∧
      ∀ item ∈ relevantItems items type, item.status = .reviewed) (counts : Counts) :
    types.foldl (countType items) counts =
      ⟨counts.required + types.length, counts.reviewed + types.length⟩ := by
  induction types generalizing counts with
  | nil => rfl
  | cons type rest ih =>
    obtain ⟨hsome, hreviewed⟩ := h type List.mem_cons_self
    have hall : (relevantItems items type).all (·.status = .reviewed) = true := by simpa using hreviewed
    have hstep : countType items counts type = ⟨counts.required + 1, counts.reviewed + 1⟩ := by
      simp only [countType]
      rw [if_neg fun h => hsome h.2, if_pos ⟨hsome, hall⟩]
    rw [List.foldl_cons, hstep, ih fun other hmem => h other (List.mem_cons_of_mem _ hmem)]
    simp only [List.length_cons, Counts.mk.injEq]
    omega

theorem mem_requiredTypes {requirements : List Policy.Requirement}
    {results : List RequirementResult} :
    type ∈ requiredTypes requirements results ↔ ∃ requirement ∈ requirements,
      (∃ result ∈ results, result.applicable = true ∧
        result.requirementId = requirement.requirementId) ∧
      type ∈ requirement.requiredClaimTypes := by
  simp only [requiredTypes, Policy.mem_distinct, List.mem_flatMap, List.mem_filter,
    decide_eq_true_eq, List.mem_map]
  constructor
  · rintro ⟨requirement, ⟨hmem, result, ⟨hresult, happlicable⟩, hid⟩, htype⟩
    exact ⟨requirement, hmem, ⟨result, hresult, happlicable, hid⟩, htype⟩
  · rintro ⟨requirement, hmem, ⟨result, hresult, happlicable, hid⟩, htype⟩
    exact ⟨requirement, ⟨hmem, result, ⟨hresult, happlicable⟩, hid⟩, htype⟩

theorem stageFacts_eq {ruleSet : ParsedRuleSet} {requirement : Policy.Requirement}
    (hmem : requirement ∈ ruleSet.requirements) (context : Text → Facts) :
    stageFacts ruleSet claims attestations items evaluatedAt context requirement.requirementId =
      some (ledgerRequirementEvidence requirement.requiredClaimTypes claims attestations items
        evaluatedAt (context requirement.requirementId)) := by
  have hfind : ruleSet.requirements.reverse.find?
      (·.requirementId = requirement.requirementId) = some requirement := by
    cases hfound : ruleSet.requirements.reverse.find?
        (·.requirementId = requirement.requirementId) with
    | none =>
      rw [List.find?_eq_none] at hfound
      exact absurd (decide_eq_true rfl) (hfound requirement (List.mem_reverse.mpr hmem))
    | some other =>
      have hsame : other.requirementId = requirement.requirementId := by
        simpa using List.find?_some hfound
      have hother := List.mem_reverse.mp (List.mem_of_find?_eq_some hfound)
      rw [List.inj_on_of_nodup_map ruleSet.distinct hother hmem hsame]
  rw [stageFacts, hfind, Option.map_some]

section Requirement

variable {requirement : Policy.Requirement} {context : Facts}

/-- The types that a requirement with sufficient evidence asks for are covered. -/
theorem covered_of_suffices (hcatalogued : ∀ c ∈ claims, Catalogued catalog c)
    (hunopposed : ∀ c ∈ claims, c.conflictIds = [])
    (hitems : items = itemsOf catalog claims attestations manual)
    (h : Policy.Suffices requirement (ledgerRequirementEvidence requirement.requiredClaimTypes claims
      attestations items evaluatedAt context))
    (htype : type ∈ requirement.requiredClaimTypes) :
    relevantItems items type ≠ [] ∧
      ∀ item ∈ relevantItems items type, item.status = .reviewed := by
  -- some claim of the type is included, and its item has claims and applies
  have hpresent := h.claimTypes type htype
  simp only [ledgerRequirementEvidence, Policy.mem_distinct, List.mem_map, List.mem_filter] at hpresent
  obtain ⟨c, ⟨⟨hc, hincluded⟩, -⟩, hctype⟩ := hpresent
  obtain ⟨d, hd, hid, hdtype, -⟩ := hcatalogued c hc
  have hcd : c ∈ itemClaims claims d := List.mem_filter.mpr ⟨hc, by simpa using hid.symm⟩
  have happlies := (isIncluded_iff (hcatalogued c hc) hd hcd).mp (hitems ▸ hincluded)
  have hpinned : itemOf (claims.map StageClaim.toLedgerClaim)
      (attestations.map StageAttestation.toLedgerAttestation) manual d ∈
        (candidates items type).filter fun item => 0 < item.claimIds.length := by
    rw [List.mem_filter, candidates, List.mem_filter, hitems]
    refine ⟨⟨mem_itemsOf.mpr ⟨d, hd, rfl⟩, by simpa [itemOf] using hdtype.trans hctype⟩, ?_⟩
    rw [decide_eq_true_eq, length_claimIds]
    exact List.length_pos_of_mem hcd
  have hrelevant : relevantItems items type =
      ((candidates items type).filter fun item => 0 < item.claimIds.length).filter
        (·.status ≠ .notApplicable) := by
    rw [relevantItems, if_pos (List.length_pos_of_mem hpinned)]
  rw [hrelevant]
  refine ⟨List.ne_nil_of_mem (List.mem_filter.mpr ⟨hpinned, by simpa using happlies⟩), ?_⟩
  -- every item that counts has claims of the type, none of which is stale
  intro item hitem
  obtain ⟨hitem, hstatus⟩ := List.mem_filter.mp hitem
  obtain ⟨hitem, hlength⟩ := List.mem_filter.mp hitem
  obtain ⟨hitem, hitemType⟩ := List.mem_filter.mp hitem
  rw [hitems, mem_itemsOf] at hitem
  obtain ⟨e, he, rfl⟩ := hitem
  have hstatus := of_decide_eq_true hstatus
  have hetype : e.claimType = type := of_decide_eq_true hitemType
  rw [decide_eq_true_eq, length_claimIds] at hlength
  refine status_reviewed (List.ne_nil_of_length_pos hlength)
    (fun k hk => hunopposed k (List.mem_filter.mp hk).1) (fun k hk => ?_) hstatus
  have hkmem := (List.mem_filter.mp hk).1
  have hktype : k.claimType = type :=
    ((hcatalogued k hkmem).claimType_eq he hk).1.symm.trans hetype
  have hkincluded : isIncluded items k = true :=
    hitems ▸ (isIncluded_iff (hcatalogued k hkmem) he hk).mpr hstatus
  have hcurrent := h.current type
  simp only [ledgerRequirementEvidence, Policy.mem_distinct, List.mem_map, List.mem_filter] at hcurrent
  have hnotStale : isStaleEvidence attestations (attestations.filter fun a => a.valid &&
      a.claimScope.any fun id => ((claims.filter (isIncluded items)).filter
        (·.claimType ∈ requirement.requiredClaimTypes)).any (·.id = id)) evaluatedAt k = false := by
    by_contra hstale
    rw [Bool.not_eq_false] at hstale
    refine hcurrent ⟨k, ⟨⟨⟨hkmem, hkincluded⟩, ?_⟩, hstale⟩, hktype⟩ htype
    rw [hktype, decide_eq_true_eq]
    exact htype
  refine current_of_not_stale (fun a ha => ?_) hnotStale
  obtain ⟨hmem, hvalid⟩ := List.mem_filter.mp ha
  exact ⟨hmem, (Bool.and_eq_true_iff.mp hvalid).1⟩

end Requirement

section Stage

variable {ruleSet : ParsedRuleSet} {context : Text → Facts} {assessment : Assessment}

/-- What a stage is evaluated on. -/
def stageInput (subjectId gateId inputSnapshotHash evaluatedAsOf : Text) (ruleSet : ParsedRuleSet)
    (claims : List StageClaim) (attestations : List StageAttestation) (items : List LedgerItem)
    (evaluatedAt : Int) (context : Text → Facts) : AssessmentInput where
  subjectId := subjectId
  gateId := gateId
  inputSnapshotHash := inputSnapshotHash
  evaluatedAsOf := evaluatedAsOf
  requirementFacts := stageFacts ruleSet claims attestations items evaluatedAt context

/-- A stage that passes has covered every type its applicable requirements ask for. -/
theorem stage_coverage_complete (catalog : Catalog) (claims : List StageClaim)
    (attestations : List StageAttestation) (manual : List FactVersion) (ruleSet : ParsedRuleSet)
    (evaluatedAt : Int) (context : Text → Facts)
    (subjectId gateId inputSnapshotHash evaluatedAsOf : Text) (assessment : Assessment)
    (hcatalogued : ∀ c ∈ claims, Catalogued catalog c)
    (hunopposed : ∀ c ∈ claims, c.conflictIds = [])
    (heval : Policy.evaluateAssessment ruleSet.toRuleSet (stageInput subjectId gateId
      inputSnapshotHash evaluatedAsOf ruleSet claims attestations
      (itemsOf catalog claims attestations manual) evaluatedAt context) = .ok assessment)
    (hstatus : assessment.status = .ok ∨ assessment.status = .watch) :
    let coverage := stageEvidenceCoverage ruleSet.requirements assessment.requirementResults
      (itemsOf catalog claims attestations manual)
    coverage.reviewedItems = coverage.requiredItems ∧ coverage.requiredItems = decimalText
      (requiredTypes ruleSet.requirements assessment.requirementResults).length := by
  intro coverage
  have hpasses := Policy.passes_of_assessment heval hstatus
  have htypes : ∀ type ∈ requiredTypes ruleSet.requirements assessment.requirementResults,
      relevantItems (itemsOf catalog claims attestations manual) type ≠ [] ∧
        ∀ item ∈ relevantItems (itemsOf catalog claims attestations manual) type,
          item.status = .reviewed := by
    intro type htype
    obtain ⟨requirement, hmem, ⟨result, hresult, happlicable, hid⟩, htype⟩ :=
      mem_requiredTypes.mp htype
    obtain ⟨other, hother, hresultEval⟩ := hpasses.1 result hresult
    obtain rfl : other = requirement := by
      refine List.inj_on_of_nodup_map ruleSet.distinct hother hmem ?_
      exact (Policy.evaluateRequirement_id hresultEval).symm.trans hid
    simp only [stageInput, stageFacts_eq hother] at hresultEval
    exact covered_of_suffices hcatalogued hunopposed rfl
      (Policy.suffices_of_passes hresultEval happlicable (hpasses.2 result hresult happlicable)) htype
  have hcounts := foldl_countType htypes ⟨0, 0⟩
  simp only [coverage, stageEvidenceCoverage, hcounts, Nat.zero_add, and_self]

end Stage

section Witness

/-- Two versions of one claim type; only the first has claims. -/
def reserveCatalog : Catalog where
  definitions := ⟨[⟨10, units "reserve", 1, units "Reserve", 0⟩,
    ⟨11, units "reserve", 2, units "Reserve", 0⟩], by decide⟩
  versions := by decide

def reserveClaim : StageClaim where
  id := 20
  claimType := units "reserve"
  catalogEntryId := 10
  catalogVersion := 1
  grade := .partiallyVerified
  stale := false
  hasEvidence := true
  conflictIds := []
  excludedByRule := false
  asOf := some 86400000
  conflictTypes := []

def reserveReview : StageAttestation where
  id := 30
  claimScope := [20]
  state := .active
  limitations := []
  valid := true
  attestationType := .professionalSignoff
  signed := fun _ => .inr rfl

def reserveRules : ParsedRuleSet where
  ruleSetId := units "reserve_rules"
  version := units "1.0.0"
  requirements := [{
    requirementId := units "reserve_estimate"
    appliesWhen := .always
    requiredClaimTypes := [units "reserve"]
    minimumGrade := .partiallyVerified
    freshnessThresholdDays := some (units "90")
    requiredAttestations := [.professionalSignoff]
    blockingConflictTypes := []
    notEvaluableWhen := .never
    watchWhen := none }]
  distinct := by decide

def reserveAssessment : Assessment where
  subjectId := []
  gateId := []
  ruleSetId := units "reserve_rules"
  ruleSetVersion := units "1.0.0"
  inputSnapshotHash := []
  evaluatedAsOf := []
  status := .ok
  requirementResults := [Policy.satisfied (units "reserve_estimate") false]

theorem stage_coverage_complete_reserve :
    (stageEvidenceCoverage reserveRules.requirements reserveAssessment.requirementResults
      (itemsOf reserveCatalog [reserveClaim] [reserveReview] [])).reviewedItems = units "1" ∧
    (stageEvidenceCoverage reserveRules.requirements reserveAssessment.requirementResults
      (itemsOf reserveCatalog [reserveClaim] [reserveReview] [])).requiredItems = units "1" := by
  have h := stage_coverage_complete reserveCatalog [reserveClaim] [reserveReview] [] reserveRules
    864000000 (fun _ _ => none) [] [] [] [] reserveAssessment ?_ ?_ ?_ (.inl rfl)
  · have hone : decimalText (requiredTypes reserveRules.requirements
        reserveAssessment.requirementResults).length = units "1" := by decide
    exact ⟨h.1.trans (h.2.trans hone), h.2.trans hone⟩
  · intro c hc
    obtain rfl := List.mem_singleton.mp hc
    exact ⟨⟨10, units "reserve", 1, units "Reserve", 0⟩, List.mem_cons_self, rfl, rfl, rfl⟩
  · intro c hc
    obtain rfl := List.mem_singleton.mp hc
    rfl
  · rfl

end Witness

end MpcRegistry.Ledger
