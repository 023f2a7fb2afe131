import MpcRegistry.Library.MerkleTree
import MpcRegistry.Canonical.ProofSoundness
import MpcRegistry.Registry.ReportOrder
import MpcRegistry.Registry.VersionHistory

/-!
# The stored reports and the receiver

The reports of a project in the order of their sequence, and what the receiver
answers to any of them in that order: never that one is out of order, rolls a
version back or changes a version's content hash.
-/
namespace MpcRegistry.Registry
open Library ReadCommitted Canonical Ecma Cre
open Contracts.StatusReceiver (Report Receiver Revert Call States authenticate checkReport
  checkOrder onReport execute executeAll deployed checkedSub)

/-- `ORDER BY (report ->> 'sequence')::numeric` -/
def Db.reportHistory (db : Db) (tenantId projectId : Uuid) : List RegistryReport :=
  ((db.reportsOf tenantId projectId).insertionSort fun a b => a.sequence ≤ b.sequence).map
    (·.report)

/-- The public keys of the project's records. -/
def Db.recordKeys (db : Db) (tenantId projectId : Uuid) : List Text :=
  (db.entries.rows.filter fun e => e.tenantId = tenantId ∧ e.subjectId = projectId ∧
    e.registryType = .project).map (·.publicKey)

structure Counted (reports : List RegistryReport) : Prop where
  numbered : reports.map (fun report => readNumber report.sequence) = List.range' 1 reports.length
  observed : reports.Pairwise fun a b => readNumber a.observedAt ≤ readNumber b.observedAt

/-- Of one record the version does not decrease, and one version has one content hash. -/
def Consistent (reports : List RegistryReport) : Prop :=
  reports.Pairwise fun a b => a.recordId = b.recordId →
    readNumber a.registryVersion ≤ readNumber b.registryVersion ∧
      (readNumber a.registryVersion = readNumber b.registryVersion → a.contentHash = b.contentHash)

/-- The call has the ABI encoding of the report. -/
def Carries (wire : Report) (call : Call) : Prop := call.report = octets (abiEncode wire)

def Delivered (report : RegistryReport) (call : Call) : Prop :=
  ∃ wire, render wire = report ∧ Carries wire call

/-- The refusals that compare a report with the stored one. -/
def orderRefusals : List Revert := [.outOfOrderReport, .versionRollback, .contentHashConflict]

/-- A receiver that since its deployment is given some of the reports, in their
order, refuses none of them by comparison with an earlier one. -/
def NeverRefused (reports : List RegistryReport) : Prop :=
  ∀ (r : Receiver) (delivered : List RegistryReport) (before after : List Call) (call : Call)
    (refusal : Revert), delivered.Sublist reports →
    List.Forall₂ Delivered delivered (before ++ call :: after) →
    onReport r (executeAll r deployed before) call = .error refusal → refusal ∉ orderRefusals

/-! ## The receiver -/

section Receiver

theorem wordText_injective {a b : BitVec 256} (h : wordText a = wordText b) : a = b := by
  have hvalue := congrArg BigEndian.value (bytesToHex_injective h)
  rw [BigEndian.value_bytes_of_lt a.isLt, BigEndian.value_bytes_of_lt b.isLt] at hvalue
  exact BitVec.eq_of_toNat_eq hvalue

/-- What the guards against the stored report compare, for two reports of a list. -/
structure FollowsWire (previous next : Report) : Prop where
  sequence : previous.sequence.toNat < next.sequence.toNat
  observedAt : previous.observedAt.toNat ≤ next.observedAt.toNat
  registryVersion : previous.recordId = next.recordId →
    previous.registryVersion.toNat ≤ next.registryVersion.toNat
  contentHash : previous.recordId = next.recordId →
    previous.registryVersion = next.registryVersion → previous.contentHash = next.contentHash

theorem checkOrder_of_follows {previous next : Report} (h : FollowsWire previous next)
    (hrecord : previous.recordId = next.recordId) : checkOrder previous next = .ok () := by
  have hsequence := h.sequence
  have hobserved := h.observedAt
  have hversion := h.registryVersion hrecord
  have hhash : ¬ (next.registryVersion = previous.registryVersion ∧
      next.contentHash ≠ previous.contentHash) := fun ⟨hsame, hother⟩ =>
    hother (h.contentHash hrecord hsame.symm).symm
  rw [checkOrder, if_neg (by omega), if_neg (by omega), if_neg hhash]

theorem checkOrder_zero {next : Report} (h : FieldsInRange next) :
    checkOrder Report.zero next = .ok () := by
  have hsequence : 0 < next.sequence.toNat := by
    rw [Nat.pos_iff_ne_zero]
    exact fun hzero => h.sequence (BitVec.eq_of_toNat_eq hzero)
  have hversion : ¬ (next.registryVersion = Report.zero.registryVersion ∧
      next.contentHash ≠ Report.zero.contentHash) := fun hsame => h.registryVersion hsame.1
  have hzero : Report.zero.sequence.toNat = 0 ∧ Report.zero.observedAt.toNat = 0 ∧
      Report.zero.registryVersion.toNat = 0 := by decide
  rw [checkOrder, if_neg (by omega), if_neg (by omega), if_neg hversion]

theorem authenticate_refusal {r : Receiver} {call : Call} {refusal : Revert}
    (h : authenticate r call = .error refusal) : refusal ∉ orderRefusals := by
  unfold authenticate at h
  split at h
  · cases h
    decide
  · split at h
    · cases h
      decide
    · simp only at h
      split at h
      · cases h
        decide
      · cases h

theorem checkReport_refusal {r : Receiver} {timestamp : BitVec 256} {wire : Report}
    {refusal : Revert} (h : checkReport r timestamp wire = .error refusal) :
    refusal ∉ orderRefusals := by
  unfold checkReport at h
  split at h
  · cases h
    decide
  · split at h
    · cases h
      decide
    · split at h
      · cases h
        decide
      · rcases Outcome.bind_error.mp h with h | ⟨lifetime, -, h⟩
        · unfold checkedSub at h
          split at h
          · cases h
            decide
          · cases h
        · split at h
          · cases h
            decide
          · cases h

/-- Only the comparison answers with one of these refusals. -/
theorem checkOrder_of_onReport {r : Receiver} {states : States} {call : Call} {wire : Report}
    (hreport : Carries wire call) {refusal : Revert} (hrefusal : refusal ∈ orderRefusals)
    (h : onReport r states call = .error refusal) :
    checkOrder (states wire.recordId) wire = .error refusal := by
  have hlength : ¬ call.report.length ≠ 9 * 32 := by
    rw [show call.report = _ from hreport, octets, List.length_map, length_abiEncode]
    decide
  unfold onReport at h
  rcases Outcome.bind_error.mp h with h | ⟨_, -, h⟩
  · exact absurd hrefusal (authenticate_refusal h)
  · rw [if_neg hlength, show call.report = _ from hreport, abiDecode_abiEncode] at h
    rcases Outcome.bind_error.mp h with h | ⟨_, hdecoded, h⟩
    · cases h
    · cases hdecoded
      rcases Outcome.bind_error.mp h with h | ⟨_, -, h⟩
      · exact absurd hrefusal (checkReport_refusal h)
      · rcases Outcome.bind_error.mp h with h | ⟨_, -, h⟩
        · exact h
        · cases h

/-- Each record holds nothing or one of these reports. -/
def StoredFrom (states : States) (wires : List Report) : Prop :=
  ∀ recordId, states recordId = Report.zero ∨
    ∃ wire ∈ wires, wire.recordId = recordId ∧ states recordId = wire

theorem StoredFrom.execute {r : Receiver} {states : States} {wires : List Report} {call : Call}
    {wire : Report} (h : StoredFrom states wires) (hreport : Carries wire call) :
    StoredFrom (execute r states call) (wires ++ [wire]) := by
  have hkept : StoredFrom states (wires ++ [wire]) := fun recordId =>
    (h recordId).imp_right fun ⟨old, hold, hstored⟩ => ⟨old, List.mem_append_left _ hold, hstored⟩
  unfold Contracts.StatusReceiver.execute
  split
  · next next event haccepted =>
    obtain ⟨hdecoded, -⟩ := Contracts.StatusReceiver.onReport_ok haccepted
    rw [show call.report = _ from hreport, abiDecode_abiEncode, Except.ok.injEq] at hdecoded
    subst hdecoded
    intro recordId
    by_cases hrecord : recordId = wire.recordId
    · subst hrecord
      exact .inr ⟨wire, by simp, rfl, Function.update_self ..⟩
    · rw [Function.update_of_ne hrecord]
      exact hkept recordId
  · exact hkept

theorem storedFrom_executeAll (r : Receiver) {calls : List Call} {wires : List Report}
    (h : List.Forall₂ Carries wires calls)
    {states : States} {earlier : List Report} (hstates : StoredFrom states earlier) :
    StoredFrom (executeAll r states calls) (earlier ++ wires) := by
  induction h generalizing states earlier with
  | nil =>
    rw [List.append_nil]
    exact hstates
  | @cons wire call wires calls hreport _ ih =>
    have hnext := ih (hstates.execute (r := r) hreport)
    rw [List.append_assoc] at hnext
    exact hnext

/-- Of reports that each follow all before, no comparison refuses one. -/
theorem not_refused_of_follows {r : Receiver} {before after : List Call} {call : Call}
    {wires : List Report} (hpairwise : wires.Pairwise FollowsWire)
    (hrange : ∀ wire ∈ wires, FieldsInRange wire)
    (hcalls : List.Forall₂ Carries wires (before ++ call :: after)) {refusal : Revert}
    (h : onReport r (executeAll r deployed before) call = .error refusal) :
    refusal ∉ orderRefusals := by
  intro hrefusal
  have hearlier := List.forall₂_take_append _ _ _ hcalls
  have hlater := List.forall₂_drop_append _ _ _ hcalls
  rw [← List.take_append_drop before.length wires] at hpairwise hrange
  generalize wires.take before.length = earlier at hearlier hpairwise hrange
  generalize wires.drop before.length = later at hlater hpairwise hrange
  cases hlater with
  | @cons wire _ later _ hreport hlater =>
    have hdeployed : StoredFrom deployed [] := fun _ => .inl rfl
    have hstored := storedFrom_executeAll r hearlier hdeployed
    have horder := checkOrder_of_onReport hreport hrefusal h
    rcases hstored wire.recordId with hzero | ⟨previous, hprevious, hrecord, hstored⟩
    · rw [hzero, checkOrder_zero (hrange wire (by simp))] at horder
      cases horder
    · rw [List.nil_append] at hprevious
      have hfollows := (List.pairwise_append.mp hpairwise).2.2 previous hprevious wire (by simp)
      rw [hstored, checkOrder_of_follows hfollows hrecord] at horder
      cases horder

end Receiver

/-! ## The stored reports -/

section Stored

variable {keccak_256 : Bytes → Digest} {db : Db} {tenantId projectId : Uuid}

/-- The stored order is that of the sequence. -/
theorem ReportsKept.reportHistory_eq (h : ReportsKept keccak_256 db) (tenantId projectId : Uuid) :
    db.reportHistory tenantId projectId = (db.reportsOf tenantId projectId).map (·.report) := by
  have hsorted : (db.reportsOf tenantId projectId).Pairwise fun a b => a.sequence ≤ b.sequence := by
    have hrange := (List.pairwise_lt_range' (s := 1)
      (n := (db.reportsOf tenantId projectId).length) 1).imp Nat.le_of_lt
    rw [← h.numbered] at hrange
    exact List.pairwise_map.mp hrange
  rw [Db.reportHistory, hsorted.insertionSort_eq]

theorem ReportsKept.counted (h : ReportsKept keccak_256 db) (tenantId projectId : Uuid) :
    Counted (db.reportHistory tenantId projectId) := by
  rw [h.reportHistory_eq]
  constructor
  · rw [List.map_map, List.length_map]
    exact h.numbered tenantId projectId
  · exact List.pairwise_map.mpr ((h.ordered tenantId projectId).imp And.left)

/-- Keys whose record ids differ belong to different records. -/
theorem ReportsKept.consistent (h : ReportsKept keccak_256 db) (hdb : Wellformed keccak_256 db)
    (hsafe : ¬ Collides (recordIdFor keccak_256) (db.recordKeys tenantId projectId)) :
    Consistent (db.reportHistory tenantId projectId) := by
  have hkeys : ∀ row ∈ db.reportsOf tenantId projectId, ∀ entry, RecordOf keccak_256 db row entry →
      entry.publicKey ∈ db.recordKeys tenantId projectId := by
    intro row hrow entry hrecord
    obtain ⟨-, rfl, rfl⟩ := mem_reportsOf.mp hrow
    refine List.mem_map_of_mem (List.mem_filter.mpr ⟨hrecord.stored, decide_eq_true ?_⟩)
    exact ⟨hrecord.tenantId, hrecord.subjectId, hrecord.registryType⟩
  rw [h.reportHistory_eq]
  refine List.pairwise_map.mpr ((h.ordered tenantId projectId).imp_of_mem ?_)
  intro a b ha hb ⟨_, ea, eb, hea, heb, hversions⟩ hrecordId
  rw [hea.recordId, heb.recordId] at hrecordId
  have hkey := eq_of_not_collides hsafe (hkeys a ha ea hea) (hkeys b hb eb heb) hrecordId
  exact hversions (hdb.keys ea hea.stored eb heb.stored
    (hea.registryType.trans heb.registryType.symm) hkey)

/-- The record ids of two keys without unpaired surrogates, which is all that a
text column holds, are equal only where Keccak-256 collides. -/
theorem collides_of_recordIdFor {keys : List Text} (hpaired : ∀ key ∈ keys, ¬ Utf16.Unpaired key)
    (h : Collides (recordIdFor keccak_256) keys) :
    Collides keccak_256 (keys.map fun key =>
      Utf16.encodeUtf8 (units "mpc-registry:project:" ++ key)) := by
  obtain ⟨a, ha, b, hb, hne, hsame⟩ := h
  have hprefix : ¬ Utf16.Unpaired (units "mpc-registry:project:") :=
    Utf16.not_unpaired_of_any (by decide)
  have hdigest := Subtype.ext (bytesToHex_injective hsame)
  refine ⟨_, List.mem_map_of_mem ha, _, List.mem_map_of_mem hb, fun hbytes => hne ?_, hdigest⟩
  exact List.append_cancel_left (Utf16.encodeUtf8_injective
    (Utf16.not_unpaired_append hprefix (hpaired a ha))
    (Utf16.not_unpaired_append hprefix (hpaired b hb)) hbytes)

theorem exists_wires {delivered : List RegistryReport} {calls : List Call}
    (h : List.Forall₂ Delivered delivered calls) :
    ∃ wires : List Report, wires.map render = delivered ∧ List.Forall₂ Carries wires calls := by
  induction h with
  | nil => exact ⟨[], rfl, .nil⟩
  | cons hfirst _ ih =>
    obtain ⟨wire, rfl, hcarries⟩ := hfirst
    obtain ⟨wires, rfl, hcalls⟩ := ih
    exact ⟨wire :: wires, rfl, .cons hcarries hcalls⟩

theorem fieldsInRange_of_render {a b : Report} (h : render a = render b) (hb : FieldsInRange b) :
    FieldsInRange a := by
  have hnumber : ∀ {n : Nat} {x y : BitVec n}, decimalText x.toNat = decimalText y.toNat → x = y :=
    fun htext => BitVec.eq_of_toNat_eq (by simpa using congrArg readNumber htext)
  have hversion := hnumber (congrArg RegistryReport.registryVersion h)
  have hsequence := hnumber (congrArg RegistryReport.sequence h)
  have hstatus : a.status.toNat = b.status.toNat :=
    Rat.natCast_injective (congrArg RegistryReport.status h)
  exact ⟨hversion ▸ hb.registryVersion, hsequence ▸ hb.sequence, hstatus ▸ hb.status_ge,
    hstatus ▸ hb.status_le⟩

/-- Reports that are numbered, timed and consistent follow each other on the wire. -/
theorem neverRefused_of_consistent {reports : List RegistryReport} (hcounted : Counted reports)
    (hconsistent : Consistent reports)
    (hrendered : ∀ report ∈ reports, ∃ wire : Report, render wire = report ∧ FieldsInRange wire) :
    NeverRefused reports := by
  intro r delivered before after call refusal hsublist hdelivered hrefused
  obtain ⟨wires, rfl, hcalls⟩ := exists_wires hdelivered
  have hnumbers : reports.Pairwise fun a b => readNumber a.sequence < readNumber b.sequence := by
    have hrange := List.pairwise_lt_range' (s := 1) (n := reports.length) 1
    rw [← hcounted.numbered] at hrange
    exact List.pairwise_map.mp hrange
  have hpairwise : wires.Pairwise FollowsWire := by
    have hall := (hnumbers.and (hcounted.observed.and hconsistent)).sublist hsublist
    refine (List.pairwise_map.mp hall).imp fun {a b} ⟨hsequence, hobserved, hversions⟩ => ?_
    simp only [render, readNumber_decimalText] at hsequence hobserved hversions
    refine ⟨hsequence, hobserved, fun hrecord => (hversions (by rw [hrecord])).1,
      fun hrecord hsame => ?_⟩
    exact wordText_injective ((hversions (by rw [hrecord])).2 (by rw [hsame]))
  refine not_refused_of_follows hpairwise (fun wire hwire => ?_) hcalls hrefused
  obtain ⟨other, hrender, hrange⟩ :=
    hrendered (render wire) (hsublist.subset (List.mem_map_of_mem hwire))
  exact fieldsInRange_of_render hrender.symm hrange

end Stored

/-- In every state of every run the reports of a project are numbered from one
without a gap and observed in that order, and unless two public keys of its
records have one record id, they are consistent and a receiver given any of them
in order refuses none by comparison with an earlier one. -/
theorem reports_fit_receiver (keccak_256 : Bytes → Digest) (chainId : Text)
    {s : State Nat Db Point} (reached : (registrySystem keccak_256 chainId).Reachable s)
    (tenantId projectId : Uuid) :
    Counted (s.committed.reportHistory tenantId projectId) ∧
      (Collides (recordIdFor keccak_256) (s.committed.recordKeys tenantId projectId) ∨
        Consistent (s.committed.reportHistory tenantId projectId) ∧
          NeverRefused (s.committed.reportHistory tenantId projectId)) := by
  have hrule := (registry_maintains keccak_256 chainId fun _ _ => True).and
    (orders_maintains keccak_256 chainId fun _ _ => True)
  have hsound := hrule.reachable
    (fun db hdb => ⟨wellformed_of_startsEmpty hdb, reportsKept_of_startsEmpty hdb⟩)
    (reached.restrict fun _ _ => trivial)
  obtain ⟨hdb, hreports⟩ := hsound.committed
  have hcounted := hreports.counted tenantId projectId
  refine ⟨hcounted, or_iff_not_imp_left.mpr fun hsafe => ?_⟩
  have hconsistent := hreports.consistent hdb hsafe
  refine ⟨hconsistent, neverRefused_of_consistent hcounted hconsistent fun report hreport => ?_⟩
  rw [hreports.reportHistory_eq] at hreport
  obtain ⟨row, hrow, rfl⟩ := List.mem_map.mp hreport
  exact hreports.rendered row (mem_reportsOf.mp hrow).1

section Runs

/-- Keccak-256 on the projection and the record id preimage of the run below. -/
def reportKeccak (input : Bytes) : Digest :=
  match input.length with
  | 188 => digestOf 0xa00d921e77b32542399b45ce068903f75abaf3e8df6a88d4d6c08250c2722e50
  | 26 => digestOf 0xb464317df2948a9b0a0a268c87b88d10977c07a427b58ccae33a79ddce823fc7
  | _ => digestOf 0

def reportScript (key : Text) : List Given :=
  List.replicate 9 (given (.creReport {
    tenantId := units "tenant"
    projectId := units "project 1"
    idempotencyKey := key
    publicKey := units "KEY-1"
    chainId := units "31337"
    receiver := units "0x00000000000000000000000000000000000000ab"
    ttlSeconds := units "600" }) [])

/-- Two versions of one record, each with a report. -/
def reportedTwice : List (List Given) := [
  draftScript (plainDraft (units "draft 1") (units "project 1") (units "KEY-1")),
  publishScript 11 (units "draft 1") (units "version 1"),
  reportScript (units "first"),
  draftScript (plainDraft (units "draft 2") (units "project 1") (units "KEY-1")),
  publishScript 10 (units "draft 2") (units "version 2"),
  reportScript (units "second")]

/-- Two reports of one record, of its first and its second version. -/
theorem reports_fit_receiver_twice :
    ∃ s : State Nat Db Point,
      (s.committed.reportHistory (units "tenant") (units "project 1")).map (·.registryVersion) =
        [units "1", units "2"] ∧
      Counted (s.committed.reportHistory (units "tenant") (units "project 1")) ∧
      Consistent (s.committed.reportHistory (units "tenant") (units "project 1")) ∧
      NeverRefused (s.committed.reportHistory (units "tenant") (units "project 1")) := by
  have hrun : (((registry reportKeccak (units "31337")).inTurn (fun _ _ => true)
      (Db.empty 1767225600000000) reportedTwice).any fun db =>
        (db.reportHistory (units "tenant") (units "project 1")).map (·.registryVersion) =
          [units "1", units "2"] ∧
        db.recordKeys (units "tenant") (units "project 1") = [units "KEY-1"]) = true := by
    decide +kernel
  obtain ⟨db, hdb, hdone⟩ := Option.any_eq_true _ _ |>.mp hrun
  obtain ⟨hversions, hkeys⟩ := of_decide_eq_true hdone
  have hok := Protocol.permits_true (P := registry reportKeccak (units "31337")) (W := Nat)
    fun _ _ => true
  have reached := Protocol.reachable_inTurn StartsEmpty hok 0 ⟨1767225600000000, rfl⟩ hdb
  obtain ⟨hcounted, hrest⟩ := reports_fit_receiver reportKeccak (units "31337")
    reached.of_restrict (units "tenant") (units "project 1")
  have hsafe : ¬ Collides (recordIdFor reportKeccak)
      (db.recordKeys (units "tenant") (units "project 1")) := by
    rw [hkeys]
    rintro ⟨a, ha, b, hb, hne, -⟩
    exact hne ((List.mem_singleton.mp ha).trans (List.mem_singleton.mp hb).symm)
  exact ⟨_, hversions, hcounted, hrest.resolve_left hsafe⟩

end Runs

end MpcRegistry.Registry
