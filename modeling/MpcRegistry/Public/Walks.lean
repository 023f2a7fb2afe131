import MpcRegistry.Public.Lists

/-!
# Walking the public lists

A cursor has the milliseconds of a time whose column has microseconds, so the rows between the two
are behind no cursor. A function never returns more than 100 rows, so a page of 100 is the last.
-/
namespace MpcRegistry.Public
open Library

/-! ## The keyset of a list -/

section Order

variable {ρ : Type} {key : ρ → Int × Nat}

/-- The cursor of a row, as it is compared in SQL. -/
def cursorKey (k : Int × Nat) : Int × Nat := decodeCursor (encodeCursor k.1 k.2)

theorem isBehind_iff {after k : Int × Nat} :
    isBehind after k = true ↔ k.1 < after.1 ∨ k.1 = after.1 ∧ k.2 < after.2 := by
  simp [isBehind]

theorem cursorKey_le (k : Int × Nat) : (cursorKey k).1 ≤ k.1 := by
  simp only [cursorKey, decodeCursor, encodeCursor, toDate]
  omega

theorem isBehind_mono {after : Int × Nat} {r s : ρ} (h : NotBefore key r s)
    (hr : isBehind after (key r) = true) : isBehind after (key s) = true := by
  rw [isBehind_iff] at hr ⊢
  unfold NotBefore at h
  omega

theorem isBehind_cursorKey {r s : ρ} (h : NotBefore key r s) :
    isBehind (cursorKey (key s)) (key r) = false := by
  rw [Bool.eq_false_iff, Ne, isBehind_iff]
  have hle := cursorKey_le (key s)
  have hid : (cursorKey (key s)).2 = (key s).2 := rfl
  unfold NotBefore at h
  omega

theorem NotBefore.antisymm {r s : ρ} (h : NotBefore key r s) (h' : NotBefore key s r) :
    key r = key s := by
  unfold NotBefore at h h'
  refine Prod.ext ?_ ?_
  · omega
  · omega

theorem NotBefore.refl (r : ρ) : NotBefore key r r := .inr ⟨rfl, Nat.le_refl _⟩

instance : IsTrans ρ (NotBefore key) where
  trans r s t hrs hst := by
    unfold NotBefore at *
    omega

instance : Std.Total (NotBefore key) where
  total r s := by
    unfold NotBefore
    omega

/-- The listed rows in the order of the list. -/
def listed (key : ρ → Int × Nat) (rows : List ρ) : List ρ := rows.insertionSort (NotBefore key)

theorem pairwise_listed (rows : List ρ) : (listed key rows).Pairwise (NotBefore key) :=
  List.pairwise_insertionSort _ rows

theorem listed_perm (rows : List ρ) : (listed key rows).Perm rows := List.perm_insertionSort _ rows

def listing (key : ρ → Int × Nat) (rows : List ρ) : Keyset ρ Cursor where
  rows := listed key rows
  cursor r := encodeCursor (key r).1 (key r).2
  isAfter c r := isBehind (decodeCursor c) (key r)
  onward := (pairwise_listed rows).imp fun h _ => isBehind_mono h
  past := (pairwise_listed rows).imp fun h => isBehind_cursorKey h
  fresh r _ := isBehind_cursorKey (NotBefore.refl r)

end Order

section Walk

variable {ρ α : Type} {key : ρ → Int × Nat} {rows : List ρ} {limit : Limit} {toItem : ρ → α}

theorem keysetQuery_eq (limit : Nat) (cursor : Option Cursor) :
    keysetQuery key rows limit (cursor.map decodeCursor) =
      ((listing key rows).from' cursor).take (rowLimit limit) := by
  rw [keysetQuery, insertionSort_filter]
  cases cursor <;> rfl

theorem listPage_eq (cursor : Option Cursor) :
    listPage key rows limit cursor =
      (listing key rows).fetch (rowLimit (limit.val + 1)) limit.val cursor := by
  rw [listPage, keysetQuery_eq]
  rfl

/-- What a walk shows when the walk over the rows comes to `visited`. -/
theorem walk_items {requests : Nat} {visited : List ρ}
    (h : Page.walk ((listing key rows).fetch (rowLimit (limit.val + 1)) limit.val) requests none =
      some visited) :
    Page.walk (fun cursor => (listPage key rows limit cursor).map toItem) requests none =
      some (visited.map toItem) := by
  rw [Page.walk_map, funext listPage_eq, h, Option.map_some]

theorem rowLimit_of_lt (h : limit.val < 100) : rowLimit (limit.val + 1) = limit.val + 1 := by
  unfold rowLimit
  omega

theorem rowLimit_of_eq (h : limit.val = 100) : rowLimit (limit.val + 1) = 100 := by
  unfold rowLimit
  omega

/-! ## Complete walks -/

/-- Following the cursors ends and shows every item exactly once. -/
def VisitsAll (fetch : Option Cursor → Page α Cursor) (items : List α) : Prop :=
  ∃ requests visited, Page.walk fetch requests none = some visited ∧ visited.Perm items

theorem visitsAll_iff_of_walk {requests : Nat} {visited : List ρ}
    (h : Page.walk ((listing key rows).fetch (rowLimit (limit.val + 1)) limit.val) requests none =
      some visited) (hsub : visited.Sublist (listed key rows)) :
    VisitsAll (fun cursor => (listPage key rows limit cursor).map toItem) (rows.map toItem) ↔
      visited = listed key rows := by
  constructor
  · rintro ⟨requests', visited', hwalk, hperm⟩
    have hsame := Page.walk_unique hwalk (walk_items h)
    have hlength := hperm.length_eq
    have hlisted : (listed key rows).length = rows.length := (listed_perm rows).length_eq
    rw [hsame, List.length_map, List.length_map, ← hlisted] at hlength
    exact hsub.eq_of_length hlength
  · rintro rfl
    exact ⟨requests, _, walk_items h, (listed_perm rows).map toItem⟩

/-- The first row of a page is behind the cursor of the last row of the page before it. -/
def Follows (last first : Int × Nat) : Prop :=
  first.1 < last.1 / 1000 * 1000 ∨ first.1 = last.1 / 1000 * 1000 ∧ first.2 < last.2

instance (last first : Int × Nat) : Decidable (Follows last first) :=
  inferInstanceAs (Decidable (_ ∨ _))

theorem isAfter_iff {last first : ρ} :
    (listing key rows).isAfter ((listing key rows).cursor last) first = true ↔
      Follows (key last) (key first) := isBehind_iff

/-- Keys in the order of a list that a walk of pages of this size goes through: at each boundary
the next page starts behind the cursor, or there is one page. -/
structure Gapless (limit : Limit) (keys : List (Int × Nat)) : Prop where
  boundaries : limit.val < 100 → ∀ k last first, 0 < k → keys[k * limit.val - 1]? = some last →
    keys[k * limit.val]? = some first → Follows last first
  whole : limit.val = 100 → keys.length ≤ 100

theorem seamless_iff_gapless (hlimit : limit.val < 100) :
    (listing key rows).Seamless limit.val ((listed key rows).length + 1) (listed key rows) ↔
      Gapless limit ((listed key rows).map key) := by
  constructor
  · intro h
    refine ⟨fun _ k last first hk hlast hfirst => ?_, fun heq => by omega⟩
    rw [List.getElem?_map, Option.map_eq_some_iff] at hlast hfirst
    obtain ⟨lastRow, hlast, rfl⟩ := hlast
    obtain ⟨firstRow, hfirst, rfl⟩ := hfirst
    have hlt := (List.getElem?_eq_some_iff.mp hfirst).1
    exact isAfter_iff.mp (h.boundaries k lastRow firstRow hk (by omega) hlast hfirst)
  · intro h
    refine ⟨fun k last first hk _ hlast hfirst => isAfter_iff.mpr ?_, fun hbehind => by omega⟩
    refine h.boundaries hlimit k (key last) (key first) hk ?_ ?_
    · rw [List.getElem?_map, hlast, Option.map_some]
    · rw [List.getElem?_map, hfirst, Option.map_some]

theorem visitsAll_iff :
    VisitsAll (fun cursor => (listPage key rows limit cursor).map toItem) (rows.map toItem) ↔
      Gapless limit ((listed key rows).map key) := by
  have hfrom : (listing key rows).from' none = listed key rows := (listing key rows).from'_none
  by_cases hlimit : limit.val < 100
  · have hasked : limit.val < rowLimit (limit.val + 1) := by
      rw [rowLimit_of_lt hlimit]
      omega
    have hrequests : ((listing key rows).from' none).length < (listed key rows).length + 1 := by
      rw [hfrom]
      omega
    obtain ⟨visited, hwalk, hsub, -, hspec⟩ :=
      Keyset.walk_spec limit.property.1 hasked _ none hrequests
    rw [hfrom] at hsub hspec
    rw [visitsAll_iff_of_walk hwalk hsub, ← seamless_iff_gapless hlimit, ← hspec _ (Nat.succ_pos _),
      List.take_of_length_le (Nat.le_succ _)]
  · have hlimit : limit.val = 100 := by
      have hle := limit.property.2
      omega
    have hasked : rowLimit (limit.val + 1) ≤ limit.val := by
      rw [rowLimit_of_eq hlimit]
      omega
    have hwalk := (listing key rows).walk_cut hasked 0 none
    rw [hfrom] at hwalk
    rw [visitsAll_iff_of_walk hwalk (List.take_sublist _ _), rowLimit_of_eq hlimit,
      List.take_eq_self_iff]
    constructor
    · intro hall
      exact ⟨fun hlt => by omega, fun _ => by rwa [List.length_map]⟩
    · intro h
      have hall := h.whole hlimit
      rwa [List.length_map] at hall

end Walk

/-! ## The three lists -/

/-- Keys of some rows, in the order of their list. -/
def sortedKeys {ρ : Type} (key : ρ → Int × Nat) (rows : List ρ) : List (Int × Nat) :=
  (listed key rows).map key

theorem public_lists_complete_iff (rules : TextRules) (db : Db) (limit : Limit) :
    (∀ registryType query status,
      VisitsAll (registriesRoute rules db registryType query status limit)
        ((registryRows rules db registryType query status).map toRegistryItem) ↔
      Gapless limit (sortedKeys RegistryRow.key
        (registryRows rules db registryType query status))) ∧
    (VisitsAll (proposalsRoute db limit) ((proposalRows db).map toProposal) ↔
      Gapless limit (sortedKeys ProposalRow.key (proposalRows db))) ∧
    (VisitsAll (disclosuresRoute db limit) ((eventRows db).map toDisclosure) ↔
      Gapless limit (sortedKeys EventRow.key (eventRows db))) :=
  ⟨fun _ _ _ => visitsAll_iff, visitsAll_iff, visitsAll_iff⟩

/-- A proposal in voting, created at a time. -/
def proposalAt (createdAt : Instant) (id : Uuid) : Proposal where
  id := id
  space := .protocol
  proposalType := units "parameter_change"
  title := units "Quorum"
  rationale := units "Too low"
  state := .voting
  quorumNumerator := 1
  quorumDenominator := 5
  thresholdNumerator := 1
  thresholdDenominator := 2
  votingOpensAt := none
  votingClosesAt := none
  createdAt := createdAt
  conflictDisclosure := none
  executionMode := some .recordOnly

def proposalsDb (proposals : Table Proposal.id) : Db where
  entries := .empty
  versions := .empty
  proposals := proposals
  votes := .empty
  proposalTransitions := .empty
  lifecycleTransitions := .empty
  restrictions := .empty
  disputes := .empty
  attestations := .empty
  cases := .empty
  versionsUnique := List.nodup_nil

/-- Two proposals of one millisecond. -/
def sameMillisecond : Db :=
  proposalsDb ⟨[proposalAt 1735689600000900 1, proposalAt 1735689600000500 2], by decide⟩

/-- Proposals a second apart. -/
def proposalsApart (count : Nat) : Db :=
  proposalsDb ⟨(List.range count).map fun n : Nat => proposalAt (1735689600000000 - 1000000 * n) n, by
    rw [List.map_map]
    exact (List.map_id _).symm ▸ List.nodup_range⟩

/-- With pages of one row the second proposal is never shown, and with pages of 100 rows the
101st is not. -/
theorem public_lists_incomplete :
    ¬ VisitsAll (proposalsRoute sameMillisecond ⟨1, by decide⟩)
      ((proposalRows sameMillisecond).map toProposal) ∧
    ¬ VisitsAll (proposalsRoute (proposalsApart 101) ⟨100, by decide⟩)
      ((proposalRows (proposalsApart 101)).map toProposal) := by
  constructor
  · intro hvisits
    have hgapless : Gapless ⟨1, by decide⟩ (sortedKeys ProposalRow.key (proposalRows sameMillisecond)) :=
      visitsAll_iff.mp hvisits
    have hfollows := hgapless.boundaries (by decide) 1 (1735689600000900, 1) (1735689600000500, 2)
      Nat.one_pos rfl rfl
    exact absurd hfollows (by decide)
  · intro hvisits
    have hgapless : Gapless ⟨100, by decide⟩
        (sortedKeys ProposalRow.key (proposalRows (proposalsApart 101))) := visitsAll_iff.mp hvisits
    have hlength := hgapless.whole rfl
    rw [sortedKeys, List.length_map, (listed_perm _).length_eq] at hlength
    exact absurd hlength (by decide +kernel)

/-! ## One proposal and the list -/

section Detail

variable {db : Db} {limit : Limit}

theorem nodup_proposalRows : ((proposalRows db).map (·.id)).Nodup := by
  have hids : (proposalRows db).map (·.id) = (db.proposals.rows.filter isPublicProposal).map (·.id) := by
    rw [proposalRows, List.map_map]
    rfl
  rw [hids]
  exact db.proposals.distinct.sublist (List.filter_sublist.map _)

theorem eq_of_id {row row' : ProposalRow} (h : row ∈ listed ProposalRow.key (proposalRows db))
    (h' : row' ∈ listed ProposalRow.key (proposalRows db)) (hid : row.id = row'.id) : row = row' :=
  List.inj_on_of_nodup_map nodup_proposalRows ((listed_perm _).mem_iff.mp h)
    ((listed_perm _).mem_iff.mp h') hid

/-- The detail route looks among the first 100 rows of the list. -/
theorem proposalRoute_eq_some {id : Uuid} {item : ProposalItem} :
    (proposalRoute db id).map ProposalDetail.proposal = some item ↔
      ∃ row ∈ (listed ProposalRow.key (proposalRows db)).take 100, row.id = id ∧
        toProposal row = item := by
  have hrows : publicProtocolProposals db 100 none =
      (listed ProposalRow.key (proposalRows db)).take 100 := by
    have hquery : keysetQuery ProposalRow.key (proposalRows db) 100 (none.map decodeCursor) = _ :=
      keysetQuery_eq 100 none
    rw [Keyset.from'_none] at hquery
    exact hquery
  rw [proposalRoute, hrows, Option.map_map, Option.map_eq_some_iff]
  constructor
  · rintro ⟨row, hrow, rfl⟩
    obtain ⟨hmem, hid⟩ := List.mem_filter.mp (List.mem_of_head? hrow)
    exact ⟨row, hmem, by simpa using hid, rfl⟩
  · rintro ⟨row, hmem, hid, rfl⟩
    have hfound : row ∈ ((listed ProposalRow.key (proposalRows db)).take 100).filter (·.id = id) :=
      List.mem_filter.mpr ⟨hmem, by simpa using hid⟩
    cases hrest : ((listed ProposalRow.key (proposalRows db)).take 100).filter (·.id = id) with
    | nil =>
      rw [hrest] at hfound
      cases hfound
    | cons other rest =>
      have hother := List.mem_filter.mp (hrest ▸ List.mem_cons_self :
        other ∈ ((listed ProposalRow.key (proposalRows db)).take 100).filter (·.id = id))
      refine ⟨other, rfl, ?_⟩
      rw [eq_of_id (List.mem_of_mem_take hother.1) (List.mem_of_mem_take hmem)
        ((of_decide_eq_true hother.2).trans hid.symm)]
      rfl

/-- Rows picked in the order of the list are those with the same members. -/
theorem eq_of_mem_iff {rows rows' : List ProposalRow}
    (h : rows.Sublist (listed ProposalRow.key (proposalRows db)))
    (h' : rows'.Sublist (listed ProposalRow.key (proposalRows db)))
    (hmem : ∀ row, row ∈ rows ↔ row ∈ rows') : rows = rows' := by
  have hnodup : (listed ProposalRow.key (proposalRows db)).Nodup :=
    (listed_perm _).nodup_iff.mpr (List.Nodup.of_map _ nodup_proposalRows)
  refine List.Perm.eq_of_pairwise ?_ ((pairwise_listed _).sublist h) ((pairwise_listed _).sublist h')
    ((List.perm_ext_iff_of_nodup (hnodup.sublist h) (hnodup.sublist h')).mpr hmem)
  intro row row' hrow hrow' hle hge
  exact eq_of_id (h.subset hrow) (h'.subset hrow') (congrArg Prod.snd (hle.antisymm hge))

/-- A walk of the list ends, and the detail route answers for a proposal exactly when the walk
visits it, with the fields that the walk shows. -/
def DetailAgrees (db : Db) (limit : Limit) : Prop :=
  ∃ requests visited, Page.walk (proposalsRoute db limit) requests none = some visited ∧
    ∀ id item, (proposalRoute db id).map ProposalDetail.proposal = some item ↔
      item ∈ visited ∧ item.id = id

theorem detailAgrees_iff_of_walk {requests : Nat} {visited : List ProposalRow}
    (h : Page.walk ((listing ProposalRow.key (proposalRows db)).fetch (rowLimit (limit.val + 1))
      limit.val) requests none = some visited)
    (hsub : visited.Sublist (listed ProposalRow.key (proposalRows db))) :
    DetailAgrees db limit ↔
      visited = (listed ProposalRow.key (proposalRows db)).take 100 := by
  have hwalk : Page.walk (proposalsRoute db limit) requests none =
      some (visited.map toProposal) := walk_items h
  constructor
  · rintro ⟨requests', visited', hwalk', hagrees⟩
    obtain rfl := Page.walk_unique hwalk' hwalk
    refine eq_of_mem_iff hsub (List.take_sublist _ _) fun row => ?_
    have hrow := hagrees row.id (toProposal row)
    have hitemId : (toProposal row).id = row.id := rfl
    rw [proposalRoute_eq_some, and_iff_left hitemId, List.mem_map] at hrow
    constructor
    · intro hmem
      obtain ⟨other, hother, hid, -⟩ := hrow.mpr ⟨row, hmem, rfl⟩
      rwa [← eq_of_id (List.mem_of_mem_take hother) (hsub.subset hmem) hid]
    · intro hmem
      obtain ⟨other, hother, hitem⟩ := hrow.mp ⟨row, hmem, rfl, rfl⟩
      have hid : other.id = row.id := congrArg ProposalItem.id hitem
      rwa [← eq_of_id (hsub.subset hother) (List.mem_of_mem_take hmem) hid]
  · rintro rfl
    refine ⟨requests, _, hwalk, fun id item => ?_⟩
    rw [proposalRoute_eq_some, List.mem_map]
    constructor
    · rintro ⟨row, hmem, hid, rfl⟩
      exact ⟨⟨row, hmem, rfl⟩, hid⟩
    · rintro ⟨⟨row, hmem, rfl⟩, hid⟩
      exact ⟨row, hmem, hid, rfl⟩

/-- The rows that a walk visits are the first 100: no boundary before them leaves a gap, and if
there are more, a page ends with the 100th row and every later one lies in the gap behind it. -/
structure FirstHundred (limit : Limit) (keys : List (Int × Nat)) : Prop where
  boundaries : ∀ k last first, 0 < k → k * limit.val < 100 →
    keys[k * limit.val - 1]? = some last → keys[k * limit.val]? = some first → Follows last first
  behind : 100 < keys.length → limit.val ∣ 100 ∧ ∀ last oldest, keys[99]? = some last →
    keys.getLast? = some oldest → ¬ Follows last oldest

theorem seamless_iff_firstHundred {ρ : Type} {key : ρ → Int × Nat} {rows : List ρ} :
    (listing key rows).Seamless limit.val 100 (listed key rows) ↔
      FirstHundred limit (sortedKeys key rows) := by
  have hafter : ∀ last first, (listing key rows).isAfter ((listing key rows).cursor last) first =
      false ↔ ¬ Follows (key last) (key first) := by
    intro last first
    rw [← isAfter_iff, Bool.not_eq_true]
  unfold sortedKeys
  constructor
  · intro h
    refine ⟨fun k last first hk hlt hlast hfirst => ?_, fun hbehind => ?_⟩
    · rw [List.getElem?_map, Option.map_eq_some_iff] at hlast hfirst
      obtain ⟨lastRow, hlast, rfl⟩ := hlast
      obtain ⟨firstRow, hfirst, rfl⟩ := hfirst
      exact isAfter_iff.mp (h.boundaries k lastRow firstRow hk hlt hlast hfirst)
    · rw [List.length_map] at hbehind
      obtain ⟨hdvd, hgap⟩ := h.behind hbehind
      refine ⟨hdvd, fun last oldest hlast hold => ?_⟩
      rw [List.getElem?_map, Option.map_eq_some_iff] at hlast
      rw [List.getLast?_map, Option.map_eq_some_iff] at hold
      obtain ⟨lastRow, hlast, rfl⟩ := hlast
      obtain ⟨oldestRow, hold, rfl⟩ := hold
      exact (hafter _ _).mp (hgap lastRow oldestRow hlast hold)
  · intro h
    refine ⟨fun k last first hk hlt hlast hfirst => isAfter_iff.mpr ?_, fun hbehind => ?_⟩
    · refine h.boundaries k (key last) (key first) hk hlt ?_ ?_
      · rw [List.getElem?_map, hlast, Option.map_some]
      · rw [List.getElem?_map, hfirst, Option.map_some]
    · obtain ⟨hdvd, hgap⟩ := h.behind (by rwa [List.length_map])
      refine ⟨hdvd, fun last oldest hlast hold => (hafter _ _).mpr ?_⟩
      refine hgap (key last) (key oldest) ?_ ?_
      · rw [List.getElem?_map, hlast, Option.map_some]
      · rw [List.getLast?_map, hold, Option.map_some]

theorem detailAgrees_iff_firstHundred (hlimit : limit.val < 100) :
    DetailAgrees db limit ↔ FirstHundred limit (sortedKeys ProposalRow.key (proposalRows db)) := by
  have hfrom : (listing ProposalRow.key (proposalRows db)).from' none =
      listed ProposalRow.key (proposalRows db) :=
    (listing ProposalRow.key (proposalRows db)).from'_none
  have hasked : limit.val < rowLimit (limit.val + 1) := by
    rw [rowLimit_of_lt hlimit]
    omega
  have hrequests : ((listing ProposalRow.key (proposalRows db)).from' none).length <
      (listed ProposalRow.key (proposalRows db)).length + 1 := by
    rw [hfrom]
    omega
  obtain ⟨visited, hwalk, hsub, -, hspec⟩ :=
    Keyset.walk_spec limit.property.1 hasked _ none hrequests
  rw [hfrom] at hsub hspec
  rw [detailAgrees_iff_of_walk hwalk hsub, hspec 100 (by omega), seamless_iff_firstHundred]

theorem detailAgrees_iff (db : Db) (limit : Limit) :
    DetailAgrees db limit ↔
      limit.val = 100 ∨ FirstHundred limit (sortedKeys ProposalRow.key (proposalRows db)) := by
  by_cases hlimit : limit.val = 100
  · have hfrom : (listing ProposalRow.key (proposalRows db)).from' none =
        listed ProposalRow.key (proposalRows db) :=
      (listing ProposalRow.key (proposalRows db)).from'_none
    have hasked : rowLimit (limit.val + 1) ≤ limit.val := by
      rw [rowLimit_of_eq hlimit]
      omega
    have hwalk := (listing ProposalRow.key (proposalRows db)).walk_cut hasked 0 none
    rw [hfrom] at hwalk
    rw [detailAgrees_iff_of_walk hwalk (List.take_sublist _ _), rowLimit_of_eq hlimit]
    exact ⟨fun _ => .inl hlimit, fun _ => rfl⟩
  · have hle := limit.property.2
    rw [or_iff_right hlimit, detailAgrees_iff_firstHundred (by omega)]

/-- Of 101 proposals the list shows the oldest, and the detail route answers 404 for it. -/
theorem detail_disagrees : ¬ DetailAgrees (proposalsApart 101) ⟨20, by decide⟩ := by
  intro hagrees
  have hfirst := (detailAgrees_iff_firstHundred (by decide)).mp hagrees
  obtain ⟨-, hgap⟩ := hfirst.behind (by decide +kernel)
  exact hgap (1735689501000000, 99) (1735689500000000, 100) (by decide +kernel) (by decide +kernel)
    (by decide)

end Detail

end MpcRegistry.Public
