import MpcRegistry.Cre.Protocol

/-!
# The search for the log of a submission

Source: apps/anchor-worker/src/viem-chain-client.ts:168-220 and chain-profile.ts:114. A read of
the node fails or answers. Block numbers and timestamps are integers, as `bigint` has them.
-/
namespace MpcRegistry.Worker.LogSearch
open Library Library.Outcome
open Cre (toLowerCase)

/-- `LOG_SEARCH_CHUNK_BLOCKS` -/
def logSearchChunkBlocks : Int := 5000

/-- The reads of a search; a read that fails answers nothing. -/
structure LogSearchReader where
  headBlockNumber : Option Int
  blockTimestamp : Int → Option Int
  submissionHashes : Int → Int → Option (List Text)

inductive SearchError where
  | readFailed
  | incomplete (head : Int)
  deriving DecidableEq, Repr

def read {α : Type} (answer : Option α) : Except SearchError α := answer.elim (.error .readFailed) .ok

section Search

variable (reader : LogSearchReader) (submittedAt head oldest : Int)

/-- Absence counts only below a head that is newer than the batch. -/
def notFound : Except SearchError (Option Text) := do
  let at' ← read (reader.blockTimestamp head)
  if at' ≤ submittedAt then .error (.incomplete head) else .ok none

/-- The first block of the range that ends at `last`. -/
def rangeStart (last : Int) : Int :=
  if last - logSearchChunkBlocks + 1 > oldest then last - logSearchChunkBlocks + 1 else oldest

theorem rangeStart_cases (oldest last : Int) :
    rangeStart oldest last = oldest ∨
      (oldest < rangeStart oldest last ∧ rangeStart oldest last = last - 4999) := by
  by_cases hmore : last - logSearchChunkBlocks + 1 > oldest
  · simp only [rangeStart, logSearchChunkBlocks] at hmore ⊢
    omega
  · exact .inl (if_neg hmore)

/-- The first hash, if there is one and it is not empty. -/
def firstHash (hashes : List Text) : Option Text := hashes.head?.filter (· ≠ [])

/-- The loop, from `last` backwards. -/
def searchBack (last : Int) : Except SearchError (Option Text) :=
  let first := rangeStart oldest last
  (read (reader.submissionHashes first last)).bind fun hashes =>
    match firstHash hashes with
    | some hash => .ok (some (toLowerCase hash))
    | none =>
      if first = oldest then notFound reader submittedAt head
      else
        (read (reader.blockTimestamp first)).bind fun at' =>
          if at' < submittedAt then notFound reader submittedAt head
          else searchBack (first - 1)
termination_by (last - oldest).toNat
decreasing_by
  have hfirst : first ≠ oldest := by assumption
  rcases rangeStart_cases oldest last with hend | ⟨hmore, hstart⟩
  · exact absurd hend hfirst
  · simp only [hstart] at hmore ⊢
    omega

end Search

def findSubmissionHash (reader : LogSearchReader) (submittedAt : Int) (lookbackBlocks : Nat) :
    Except SearchError (Option Text) :=
  (read reader.headBlockNumber).bind fun head =>
    let span : Int := lookbackBlocks
    let oldest := if head ≥ span then head - span + 1 else 0
    searchBack reader submittedAt head oldest head

/-! ## The chain that is read -/

structure SubmissionLog where
  block : Int
  hash : Text

/-- A chain as it stands, with the logs of one batch. -/
structure Chain where
  head : Int
  timestamp : Int → Int
  submittedAt : Int
  logs : List SubmissionLog
  genesis : 0 ≤ head
  nondecreasing : ∀ block later, 0 ≤ block → block ≤ later → timestamp block ≤ timestamp later
  stamped : ∀ log ∈ logs, timestamp log.block = submittedAt
  hashed : ∀ log ∈ logs, log.hash ≠ []

namespace Chain

variable (chain : Chain)

/-- One of the last `lookbackBlocks` blocks up to the head. -/
def Recent (lookbackBlocks : Nat) (block : Int) : Prop :=
  0 ≤ block ∧ block ≤ chain.head ∧ chain.head - lookbackBlocks < block

/-- What the reader answers is what the chain has; it may also fail. -/
structure ReadBy (reader : LogSearchReader) : Prop where
  headBlockNumber : ∀ head ∈ reader.headBlockNumber, head = chain.head
  blockTimestamp : ∀ block, ∀ at' ∈ reader.blockTimestamp block, at' = chain.timestamp block
  submissionHashes : ∀ first last, ∀ hashes ∈ reader.submissionHashes first last,
    hashes = (chain.logs.filter fun log => first ≤ log.block && log.block ≤ last).map (·.hash)

end Chain

/-- No read fails. -/
structure LogSearchReader.Answers (reader : LogSearchReader) : Prop where
  headBlockNumber : reader.headBlockNumber ≠ none
  blockTimestamp : ∀ block, reader.blockTimestamp block ≠ none
  submissionHashes : ∀ first last, reader.submissionHashes first last ≠ none

/-- A range with the block in it was read and had no log. -/
def LogSearchReader.Searched (reader : LogSearchReader) (block : Int) : Prop :=
  ∃ first last, first ≤ block ∧ block ≤ last ∧ reader.submissionHashes first last = some []

/-! ## What a search finds -/

section Found

variable {reader : LogSearchReader} {chain : Chain} {last oldest : Int}

theorem read_ok {α : Type} {answer : Option α} {a : α} : read answer = .ok a ↔ answer = some a := by
  cases answer <;> simp [read]

theorem read_error {α : Type} {answer : Option α} {thrown : SearchError} :
    read answer = .error thrown ↔ answer = none ∧ thrown = .readFailed := by
  cases answer <;> simp [read, eq_comm]

theorem rangeStart_le (h : oldest ≤ last) : oldest ≤ rangeStart oldest last ∧
    rangeStart oldest last ≤ last := by
  have hcases := rangeStart_cases oldest last
  omega

/-- What the loop comes to when every block from `oldest` to `last` is yet to be searched. -/
inductive Outcome (reader : LogSearchReader) (chain : Chain) (oldest last : Int) :
    Except SearchError (Option Text) → Prop where
  | found (log : SubmissionLog) (mem : log ∈ chain.logs) (start : oldest ≤ log.block)
      (stop : log.block ≤ last) : Outcome reader chain oldest last (.ok (some (toLowerCase log.hash)))
  | absent (newer : chain.submittedAt < chain.timestamp chain.head)
      (searched : ∀ block, oldest ≤ block → block ≤ last →
        reader.Searched block ∨ chain.timestamp block < chain.submittedAt) :
      Outcome reader chain oldest last (.ok none)
  | incomplete (old : chain.timestamp chain.head ≤ chain.submittedAt)
      (searched : ∀ block, oldest ≤ block → block ≤ last →
        reader.Searched block ∨ chain.timestamp block < chain.submittedAt) :
      Outcome reader chain oldest last (.error (.incomplete chain.head))
  | failed (fails : ¬ reader.Answers) : Outcome reader chain oldest last (.error .readFailed)

/-- Without a log in what is left, the head decides. -/
theorem outcome_notFound (reads : chain.ReadBy reader)
    (searched : ∀ block, oldest ≤ block → block ≤ last →
      reader.Searched block ∨ chain.timestamp block < chain.submittedAt) :
    Outcome reader chain oldest last (notFound reader chain.submittedAt chain.head) := by
  unfold notFound
  cases hat : reader.blockTimestamp chain.head with
  | none => exact .failed fun answers => answers.blockTimestamp _ hat
  | some at' =>
    obtain rfl := reads.blockTimestamp _ _ hat
    simp only [read, Option.elim, bind, Except.bind]
    split
    next old => exact .incomplete old searched
    next newer => exact .absent (by omega) searched

/-- A range is searched, or it holds a log whose hash comes first. -/
theorem firstHash_cases (reads : chain.ReadBy reader) {first : Int} {hashes : List Text}
    (h : reader.submissionHashes first last = some hashes) :
    (hashes = [] ∧ firstHash hashes = none) ∨
      ∃ log ∈ chain.logs, first ≤ log.block ∧ log.block ≤ last ∧ firstHash hashes = some log.hash := by
  have hhashes := reads.submissionHashes first last hashes h
  cases hlogs : chain.logs.filter fun log => first ≤ log.block && log.block ≤ last with
  | nil =>
    rw [hlogs] at hhashes
    exact .inl ⟨hhashes, by rw [hhashes]; rfl⟩
  | cons log rest =>
    have hmem : log ∈ chain.logs.filter fun log => first ≤ log.block && log.block ≤ last := by
      rw [hlogs]
      exact List.mem_cons_self
    obtain ⟨hlog, hrange⟩ := List.mem_filter.mp hmem
    simp only [Bool.and_eq_true, decide_eq_true_eq] at hrange
    rw [hlogs] at hhashes
    refine .inr ⟨log, hlog, hrange.1, hrange.2, ?_⟩
    rw [hhashes, firstHash]
    simp [chain.hashed log hlog]

theorem outcome_searchBack (reads : chain.ReadBy reader) (hpos : 0 ≤ oldest) (h : oldest ≤ last) :
    Outcome reader chain oldest last
      (searchBack reader chain.submittedAt chain.head oldest last) := by
  induction hsteps : (last - oldest).toNat using Nat.strong_induction_on generalizing last with
  | _ steps ih =>
    obtain ⟨hstart, hstop⟩ := rangeStart_le h
    unfold searchBack
    dsimp only
    cases hhashes : reader.submissionHashes (rangeStart oldest last) last with
    | none => exact .failed fun answers => answers.submissionHashes _ _ hhashes
    | some hashes =>
      simp only [read, Option.elim_some, Except.bind]
      rcases firstHash_cases reads hhashes with ⟨rfl, hnone⟩ | ⟨log, hlog, hfirst, hlast, hsome⟩
      · have hrange : ∀ block, rangeStart oldest last ≤ block → block ≤ last →
            reader.Searched block := fun block hfirst hlast => ⟨_, _, hfirst, hlast, hhashes⟩
        simp only [hnone]
        split
        next hend =>
          refine outcome_notFound reads fun block hfirst hlast => .inl (hrange block ?_ hlast)
          omega
        next hmore =>
          cases hat : reader.blockTimestamp (rangeStart oldest last) with
          | none => exact .failed fun answers => answers.blockTimestamp _ hat
          | some at' =>
            obtain rfl := reads.blockTimestamp _ _ hat
            dsimp only [Option.elim]
            split
            next holder =>
              -- blocks before one that is older than the batch are older still
              refine outcome_notFound reads fun block hfirst hlast => ?_
              by_cases hin : rangeStart oldest last ≤ block
              · exact .inl (hrange block hin hlast)
              · have hmono := chain.nondecreasing block (rangeStart oldest last) (by omega) (by omega)
                exact .inr (by omega)
            next =>
              have hrest := ih (rangeStart oldest last - 1 - oldest).toNat (by omega) (by omega) rfl
              generalize searchBack reader chain.submittedAt chain.head oldest
                (rangeStart oldest last - 1) = result at hrest
              have hextend : (∀ block, oldest ≤ block → block ≤ rangeStart oldest last - 1 →
                  reader.Searched block ∨ chain.timestamp block < chain.submittedAt) →
                  ∀ block, oldest ≤ block → block ≤ last →
                    reader.Searched block ∨ chain.timestamp block < chain.submittedAt := by
                intro hbefore block hfirst hlast
                by_cases hin : rangeStart oldest last ≤ block
                · exact .inl (hrange block hin hlast)
                · exact hbefore block hfirst (by omega)
              cases hrest with
              | found log mem start stop => exact .found log mem start (by omega)
              | absent newer searched => exact .absent newer (hextend searched)
              | incomplete old searched => exact .incomplete old (hextend searched)
              | failed fails => exact .failed fails
      · simp only [hsome]
        exact .found log hlog (by omega) hlast

/-- A block that was searched, or is older than the batch, has no log. -/
theorem no_log_of_searched (reads : chain.ReadBy reader) {log : SubmissionLog}
    (hlog : log ∈ chain.logs)
    (h : reader.Searched log.block ∨ chain.timestamp log.block < chain.submittedAt) : False := by
  rcases h with ⟨first, last, hfirst, hlast, hnone⟩ | holder
  · have hempty := reads.submissionHashes first last _ hnone
    have hmem : log.hash ∈
        (chain.logs.filter fun log => first ≤ log.block && log.block ≤ last).map (·.hash) := by
      refine List.mem_map_of_mem (List.mem_filter.mpr ⟨hlog, ?_⟩)
      simp [hfirst, hlast]
    rw [← hempty] at hmem
    cases hmem
  · rw [chain.stamped log hlog] at holder
    omega

theorem outcome_findSubmissionHash (reads : chain.ReadBy reader) (lookbackBlocks : Nat)
    (hpos : 1 ≤ lookbackBlocks) : ∃ oldest,
      (∀ block, chain.Recent lookbackBlocks block ↔ oldest ≤ block ∧ block ≤ chain.head) ∧
      Outcome reader chain oldest chain.head
        (findSubmissionHash reader chain.submittedAt lookbackBlocks) := by
  have hgenesis := chain.genesis
  refine ⟨if chain.head ≥ lookbackBlocks then chain.head - lookbackBlocks + 1 else 0,
    fun block => ?_, ?_⟩
  · unfold Chain.Recent
    split <;> omega
  · unfold findSubmissionHash
    cases hhead : reader.headBlockNumber with
    | none => exact .failed fun answers => answers.headBlockNumber hhead
    | some head =>
      obtain rfl := reads.headBlockNumber _ hhead
      refine outcome_searchBack reads ?_ ?_
      · split <;> omega
      · split <;> omega

end Found

/-- The search ends. A hash that it returns is that of a log in one of the last `lookbackBlocks`
blocks, and with every read answered it returns one exactly when there is such a log. Where it
returns none, the head is newer than the batch and every one of these blocks was in a range
without a log or is older than the batch. Otherwise it throws. -/
theorem log_search_exact {reader : LogSearchReader} {chain : Chain} (reads : chain.ReadBy reader)
    {lookbackBlocks : Nat} (hpos : 1 ≤ lookbackBlocks) :
    (∀ hash, findSubmissionHash reader chain.submittedAt lookbackBlocks = .ok (some hash) →
      ∃ log ∈ chain.logs, chain.Recent lookbackBlocks log.block ∧ hash = toLowerCase log.hash) ∧
    (reader.Answers →
      ((∃ hash, findSubmissionHash reader chain.submittedAt lookbackBlocks = .ok (some hash)) ↔
        ∃ log ∈ chain.logs, chain.Recent lookbackBlocks log.block)) ∧
    (findSubmissionHash reader chain.submittedAt lookbackBlocks = .ok none →
      chain.submittedAt < chain.timestamp chain.head ∧
      (∀ log ∈ chain.logs, ¬ chain.Recent lookbackBlocks log.block) ∧
      ∀ block, chain.Recent lookbackBlocks block →
        reader.Searched block ∨ chain.timestamp block < chain.submittedAt) ∧
    (reader.Answers → chain.timestamp chain.head ≤ chain.submittedAt →
      (∀ log ∈ chain.logs, ¬ chain.Recent lookbackBlocks log.block) →
      ∃ thrown, findSubmissionHash reader chain.submittedAt lookbackBlocks = .error thrown) := by
  obtain ⟨oldest, hrecent, houtcome⟩ := outcome_findSubmissionHash reads lookbackBlocks hpos
  have hnone : (∀ block, oldest ≤ block → block ≤ chain.head →
      reader.Searched block ∨ chain.timestamp block < chain.submittedAt) →
      ∀ log ∈ chain.logs, ¬ chain.Recent lookbackBlocks log.block := by
    intro searched log hlog hin
    obtain ⟨hstart, hstop⟩ := (hrecent log.block).mp hin
    exact no_log_of_searched reads hlog (searched log.block hstart hstop)
  generalize findSubmissionHash reader chain.submittedAt lookbackBlocks = result at houtcome
  cases houtcome with
  | found log mem start stop =>
    have hin := (hrecent log.block).mpr ⟨start, stop⟩
    refine ⟨fun hash heq => ?_, fun _ => ⟨fun _ => ⟨log, mem, hin⟩, fun _ => ⟨_, rfl⟩⟩, ?_, ?_⟩
    · cases heq
      exact ⟨log, mem, hin, rfl⟩
    · intro heq
      cases heq
    · exact fun _ _ habsent => absurd hin (habsent log mem)
  | absent newer searched =>
    refine ⟨fun hash heq => (by cases heq), fun _ => ⟨?_, ?_⟩, fun _ => ?_, ?_⟩
    · rintro ⟨hash, heq⟩
      cases heq
    · rintro ⟨log, hlog, hin⟩
      exact absurd hin (hnone searched log hlog)
    · refine ⟨newer, hnone searched, fun block hin => ?_⟩
      obtain ⟨hstart, hstop⟩ := (hrecent block).mp hin
      exact searched block hstart hstop
    · exact fun _ hold _ => absurd newer (by omega)
  | incomplete old searched =>
    refine ⟨fun hash heq => (by cases heq), fun _ => ⟨?_, ?_⟩, ?_, fun _ _ _ => ⟨_, rfl⟩⟩
    · rintro ⟨hash, heq⟩
      cases heq
    · rintro ⟨log, hlog, hin⟩
      exact absurd hin (hnone searched log hlog)
    · intro heq
      cases heq
  | failed fails =>
    refine ⟨fun hash heq => (by cases heq), fun answers => absurd answers fails, ?_,
      fun answers => absurd answers fails⟩
    intro heq
    cases heq

section Example

/-- Ten blocks two to a second, with the log in the fourth of them. -/
def smallChain : Chain where
  head := 9
  timestamp block := block / 2
  submittedAt := 1
  logs := [⟨3, units "0xAB"⟩]
  genesis := by decide
  nondecreasing := by
    intro block later _ h
    omega
  stamped := by simp
  hashed := by decide

/-- A node that answers every read. -/
def Chain.reader (chain : Chain) : LogSearchReader where
  headBlockNumber := some chain.head
  blockTimestamp block := some (chain.timestamp block)
  submissionHashes first last :=
    some ((chain.logs.filter fun log => first ≤ log.block && log.block ≤ last).map (·.hash))

theorem Chain.readBy_reader (chain : Chain) : chain.ReadBy chain.reader where
  headBlockNumber _ h := (Option.some.inj h).symm
  blockTimestamp _ _ h := (Option.some.inj h).symm
  submissionHashes _ _ _ h := (Option.some.inj h).symm

theorem Chain.reader_answers (chain : Chain) : chain.reader.Answers where
  headBlockNumber := Option.some_ne_none _
  blockTimestamp _ := Option.some_ne_none _
  submissionHashes _ _ := Option.some_ne_none _

/-- The log is found among the last seven blocks. -/
theorem log_search_exact_found :
    ∃ hash, findSubmissionHash smallChain.reader smallChain.submittedAt 7 = .ok (some hash) :=
  ((log_search_exact smallChain.readBy_reader (by decide)).2.1 smallChain.reader_answers).mpr
    ⟨⟨3, units "0xAB"⟩, List.mem_singleton.mpr rfl, by decide, by decide, by decide⟩

end Example

end MpcRegistry.Worker.LogSearch
