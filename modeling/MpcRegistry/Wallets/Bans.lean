import MpcRegistry.Wallets.Binding

/-!
# Banned signing keys

A binding asks for the history of its address and inserts the wallet afterwards. The
indexes keep the active wallets apart; the history is as it was when it was read.
-/
namespace MpcRegistry.Wallets
open Library WriteSet ReadCommitted Utf16 Outcome

/-! ## What is kept -/

def WalletIdentity.SameKey (row other : WalletIdentity) : Prop :=
  row.walletAddress = other.walletAddress ∧ row.chainId = other.chainId

/-- The event is one of the wallet. -/
def DisableEvent.Of (event : DisableEvent) (wallet : WalletIdentity) : Prop :=
  event.walletIdentityId = wallet.id

/-- No event of its address keeps it from the subject. -/
def Free (rows : Table Row.key) (wallet : WalletIdentity) : Prop :=
  ∀ event, .disableEvent event ∈ rows → ∀ former, .wallet former ∈ rows → event.Of former →
    former.SameKey wallet → bars former (some event) wallet.subjectId = false

def NoneActive (rows : Table Row.key) (wallet : WalletIdentity) : Prop :=
  ∀ former, .wallet former ∈ rows → former.disabledAt = none → ¬ former.SameKey wallet

/-- Every active wallet is free, and an event has its wallet. -/
structure Lawful (rows : Table Row.key) : Prop where
  free : ∀ wallet, .wallet wallet ∈ rows → wallet.disabledAt = none → Free rows wallet
  known : ∀ event, .disableEvent event ∈ rows → ∃ wallet, .wallet wallet ∈ rows ∧ event.Of wallet

/-- Neither a wallet nor an event. -/
def Row.Neutral (row : Row) : Prop := row.wallet? = none ∧ row.disableEvent? = none

/-- What the last statement of a transaction has written. -/
inductive Wrote (rows : Table Row.key) : List (Write Row) → Prop where
  | neutral (writes : List (Write Row)) (neutral : ∀ write ∈ writes, write.new.Neutral) :
      Wrote rows writes
  | disables (wallet : WalletIdentity) (now : Nat) (event : DisableEvent) (rest : List (Write Row))
      (active : wallet.disabledAt = none) (ofWallet : event.Of wallet)
      (neutral : ∀ write ∈ rest, write.new.Neutral) :
      Wrote rows (⟨some (.wallet wallet), .wallet (wallet.disable now)⟩ ::
        ⟨none, .disableEvent event⟩ :: rest)
  | binds (wallet : WalletIdentity) (rest : List (Write Row)) (active : wallet.disabledAt = none)
      (free : Free rows wallet) (neutral : ∀ write ∈ rest, write.new.Neutral) :
      Wrote rows (⟨none, .wallet wallet⟩ :: rest)
  | replaces (old : WalletIdentity) (now : Nat) (event : DisableEvent) (wallet : WalletIdentity)
      (rest : List (Write Row)) (oldActive : old.disabledAt = none) (ofOld : event.Of old)
      (other : ¬ old.SameKey wallet) (active : wallet.disabledAt = none) (free : Free rows wallet)
      (neutral : ∀ write ∈ rest, write.new.Neutral) :
      Wrote rows (⟨some (.wallet old), .wallet (old.disable now)⟩ ::
        ⟨none, .disableEvent event⟩ :: ⟨none, .wallet wallet⟩ :: rest)

/-- What a transaction has read and written, by its stage. -/
def Stands (rows : Table Row.key) (writes : List (Write Row)) : Stage → Prop
  | .activeRead _ _ challenge active _ => writes = [] ∧ ∀ row ∈ active, .wallet row ∈ rows ∧
      ¬ (row.walletAddress = challenge.walletAddress ∧ row.chainId = challenge.chainId)
  | .historyRead _ _ challenge active _ => writes = [] ∧ ∀ row ∈ active, .wallet row ∈ rows ∧
      ¬ (row.walletAddress = challenge.walletAddress ∧ row.chainId = challenge.chainId)
  | .done _ => Wrote rows writes
  | _ => writes = []

/-! ## Rows -/

section Rows

variable {rows : Table Row.key} {wallet other old : WalletIdentity} {event : DisableEvent} {row : Row}
  {now : Nat} {writes : List (Write Row)}

theorem WalletIdentity.SameKey.symm (h : wallet.SameKey other) : other.SameKey wallet :=
  ⟨h.1.symm, h.2.symm⟩

theorem WalletIdentity.SameKey.trans {third : WalletIdentity} (h : wallet.SameKey other)
    (h' : other.SameKey third) : wallet.SameKey third :=
  ⟨h.1.trans h'.1, h.2.trans h'.2⟩

theorem wallet_mem_put : .wallet other ∈ rows.put (.wallet wallet) ↔
    other = wallet ∨ .wallet other ∈ rows ∧ other.id ≠ wallet.id := by
  simp [Table.mem_put, Row.key]

theorem event_mem_put_wallet : .disableEvent event ∈ rows.put (.wallet wallet) ↔
    .disableEvent event ∈ rows := by
  simp [Table.mem_put, Row.key]

theorem wallet_mem_put_event : .wallet wallet ∈ rows.put (.disableEvent event) ↔
    .wallet wallet ∈ rows := by
  simp [Table.mem_put, Row.key]

theorem event_mem_put {former : DisableEvent} : .disableEvent former ∈ rows.put (.disableEvent event) ↔
    former = event ∨ .disableEvent former ∈ rows ∧ former.id ≠ event.id := by
  simp [Table.mem_put, Row.key]

theorem wallet_mem_put_neutral (h : row.Neutral) : .wallet wallet ∈ rows.put row ↔
    .wallet wallet ∈ rows := by
  rw [Table.mem_put]
  cases row <;> simp_all [Row.Neutral, Row.wallet?, Row.disableEvent?, Row.key]

theorem event_mem_put_neutral (h : row.Neutral) : .disableEvent event ∈ rows.put row ↔
    .disableEvent event ∈ rows := by
  rw [Table.mem_put]
  cases row <;> simp_all [Row.Neutral, Row.wallet?, Row.disableEvent?, Row.key]

theorem wallet_mem_putAll_neutral (h : ∀ write ∈ writes, write.new.Neutral) :
    .wallet wallet ∈ putAll rows writes ↔ .wallet wallet ∈ rows := by
  induction writes generalizing rows with
  | nil => rfl
  | cons write rest ih =>
    rw [putAll_cons, ih fun w hw => h w (List.mem_cons_of_mem _ hw),
      wallet_mem_put_neutral (h write List.mem_cons_self)]

theorem event_mem_putAll_neutral (h : ∀ write ∈ writes, write.new.Neutral) :
    .disableEvent event ∈ putAll rows writes ↔ .disableEvent event ∈ rows := by
  induction writes generalizing rows with
  | nil => rfl
  | cons write rest ih =>
    rw [putAll_cons, ih fun w hw => h w (List.mem_cons_of_mem _ hw),
      event_mem_put_neutral (h write List.mem_cons_self)]

theorem Free.putAll_neutral (h : Free rows wallet) (neutral : ∀ write ∈ writes, write.new.Neutral) :
    Free (putAll rows writes) wallet := by
  intro event hevent former hformer
  rw [event_mem_putAll_neutral neutral] at hevent
  rw [wallet_mem_putAll_neutral neutral] at hformer
  exact h event hevent former hformer

theorem Lawful.putAll_neutral (h : Lawful rows) (neutral : ∀ write ∈ writes, write.new.Neutral) :
    Lawful (putAll rows writes) where
  free wallet hwallet hactive := by
    rw [wallet_mem_putAll_neutral neutral] at hwallet
    exact (h.free wallet hwallet hactive).putAll_neutral neutral
  known event hevent := by
    rw [event_mem_putAll_neutral neutral] at hevent
    obtain ⟨wallet, hwallet, hof⟩ := h.known event hevent
    exact ⟨wallet, (wallet_mem_putAll_neutral neutral).mpr hwallet, hof⟩

/-- A wallet is disabled, and the event says why. -/
def disabled (rows : Table Row.key) (old : WalletIdentity) (now : Nat) (event : DisableEvent) :
    Table Row.key :=
  (rows.put (.wallet (old.disable now))).put (.disableEvent event)

theorem wallet_mem_disabled : .wallet wallet ∈ disabled rows old now event ↔
    wallet = old.disable now ∨ .wallet wallet ∈ rows ∧ wallet.id ≠ old.id := by
  rw [disabled, wallet_mem_put_event, wallet_mem_put]
  rfl

theorem event_mem_disabled {former : DisableEvent} : .disableEvent former ∈ disabled rows old now event ↔
    former = event ∨ .disableEvent former ∈ rows ∧ former.id ≠ event.id := by
  rw [disabled, event_mem_put, event_mem_put_wallet]

/-- Another address is as free as it was. -/
theorem Free.disabled (h : Free rows wallet) (hof : event.Of old)
    (other : ¬ old.SameKey wallet) : Free (disabled rows old now event) wallet := by
  intro former hformer holder hholder hofHolder hsame
  rw [event_mem_disabled] at hformer
  rw [wallet_mem_disabled] at hholder
  have hbefore : holder.id ≠ old.id := by
    intro hid
    rcases hholder with rfl | ⟨-, hne⟩
    · exact other hsame
    · exact hne hid
  have hholder : .wallet holder ∈ rows := by
    rcases hholder with rfl | ⟨hholder, -⟩
    · exact absurd rfl hbefore
    · exact hholder
  rcases hformer with rfl | ⟨hformer, -⟩
  · exact absurd (hofHolder.symm.trans hof) hbefore
  · exact h former hformer holder hholder hofHolder hsame

theorem Lawful.disabled (h : Lawful rows) (distinct : Distinct Row.uniques rows)
    (hold : .wallet old ∈ rows) (hactive : old.disabledAt = none) (hof : event.Of old) :
    Lawful (disabled rows old now event) where
  free wallet hwallet hnow := by
    rw [wallet_mem_disabled] at hwallet
    rcases hwallet with rfl | ⟨hwallet, hne⟩
    · cases hnow
    · refine (h.free wallet hwallet hnow).disabled hof fun hsame => ?_
      refine distinct _ hold _ hwallet (fun hkey => hne (congrArg Prod.snd hkey).symm)
        (a := .activeAddress wallet.walletAddress wallet.chainId) ?_ ?_
      · simp [Row.uniques, hactive, hsame.1, hsame.2]
      · simp [Row.uniques, hnow]
  known former hformer := by
    rw [event_mem_disabled] at hformer
    have hafter : ∀ holder, .wallet holder ∈ rows → former.Of holder →
        ∃ wallet, .wallet wallet ∈ Wallets.disabled rows old now event ∧ former.Of wallet := by
      intro holder hholder hofHolder
      by_cases hid : holder.id = old.id
      · exact ⟨old.disable now, wallet_mem_disabled.mpr (.inl rfl), hofHolder.trans hid⟩
      · exact ⟨holder, wallet_mem_disabled.mpr (.inr ⟨hholder, hid⟩), hofHolder⟩
    rcases hformer with rfl | ⟨hformer, -⟩
    · exact hafter old hold hof
    · obtain ⟨holder, hholder, hofHolder⟩ := h.known former hformer
      exact hafter holder hholder hofHolder

/-- A new wallet has no events. -/
theorem Free.bound (h : Free rows wallet) (lawful : Lawful rows)
    (new : ∀ former, .wallet former ∈ rows → former.id ≠ other.id) :
    Free (rows.put (.wallet other)) wallet := by
  intro event hevent former hformer hof hsame
  rw [event_mem_put_wallet] at hevent
  rcases wallet_mem_put.mp hformer with rfl | ⟨hformer, -⟩
  · obtain ⟨holder, hholder, hofHolder⟩ := lawful.known event hevent
    exact absurd (hofHolder.symm.trans hof) (new holder hholder)
  · exact h event hevent former hformer hof hsame

theorem Lawful.bound (h : Lawful rows) (free : Free rows wallet)
    (new : ∀ former, .wallet former ∈ rows → former.id ≠ wallet.id) :
    Lawful (rows.put (.wallet wallet)) where
  free other hother hactive := by
    rcases wallet_mem_put.mp hother with rfl | ⟨hother, -⟩
    · exact free.bound h new
    · exact (h.free other hother hactive).bound h new
  known event hevent := by
    rw [event_mem_put_wallet] at hevent
    obtain ⟨holder, hholder, hof⟩ := h.known event hevent
    exact ⟨holder, wallet_mem_put.mpr (.inr ⟨hholder, new holder hholder⟩), hof⟩

theorem new_of_lookup (h : rows.lookup (Row.wallet wallet).key = none) :
    ∀ former, .wallet former ∈ rows → former.id ≠ wallet.id := by
  intro former hformer hid
  exact Table.lookup_eq_none.mp h _ hformer (congrArg (Prod.mk _) hid)

/-! ## Transactions -/

/-- A commit keeps what is lawful. -/
theorem Lawful.wrote (h : Lawful rows) (distinct : Distinct Row.uniques rows)
    (fits : Fits rows writes) (wrote : Wrote rows writes) : Lawful (putAll rows writes) := by
  cases wrote with
  | neutral _ hneutral => exact h.putAll_neutral hneutral
  | disables old now event rest hactive hof hneutral =>
    obtain ⟨hold, -⟩ := Table.lookup_eq_some.mp fits.1
    exact (h.disabled distinct hold hactive hof).putAll_neutral hneutral
  | binds wallet rest hactive hfree hneutral =>
    exact (h.bound hfree (new_of_lookup fits.1)).putAll_neutral hneutral
  | replaces old now event wallet rest holdActive hof hother hactive hfree hneutral =>
    obtain ⟨hold, -⟩ := Table.lookup_eq_some.mp fits.1
    have hdisabled : Lawful (Wallets.disabled rows old now event) :=
      h.disabled distinct hold holdActive hof
    exact (hdisabled.bound (hfree.disabled hof hother) (new_of_lookup fits.2.2.1)).putAll_neutral
      hneutral

/-- An address without an active wallet stays free while other transactions commit. -/
theorem Free.wrote (h : Free rows wallet) (none : NoneActive rows wallet) (lawful : Lawful rows)
    (distinct : Distinct Row.uniques rows) (fits : Fits rows writes) (wrote : Wrote rows writes) :
    Free (putAll rows writes) wallet := by
  cases wrote with
  | neutral _ hneutral => exact h.putAll_neutral hneutral
  | disables old now event rest hactive hof hneutral =>
    obtain ⟨hold, -⟩ := Table.lookup_eq_some.mp fits.1
    exact (h.disabled hof (none old hold hactive)).putAll_neutral hneutral
  | binds other rest hactive hfree hneutral =>
    exact (h.bound lawful (new_of_lookup fits.1)).putAll_neutral hneutral
  | replaces old now event other rest holdActive hof hother hactive hfree hneutral =>
    obtain ⟨hold, -⟩ := Table.lookup_eq_some.mp fits.1
    have hdisabled : Lawful (Wallets.disabled rows old now event) :=
      lawful.disabled distinct hold holdActive hof
    exact ((h.disabled hof (none old hold holdActive)).bound hdisabled
      (new_of_lookup fits.2.2.1)).putAll_neutral hneutral

/-- The index has let the wallet in. -/
theorem noneActive_of_admits (admits : Admits Row.uniques rows (.wallet wallet))
    (active : wallet.disabledAt = none) (new : ∀ former, .wallet former ∈ rows → former.id ≠ wallet.id) :
    NoneActive rows wallet := by
  intro former hformer hactive hsame
  refine admits _ hformer (fun hkey => new former hformer (congrArg Prod.snd hkey))
    (a := .activeAddress wallet.walletAddress wallet.chainId) ?_ ?_
  · simp [Row.uniques, hactive, hsame.1, hsame.2]
  · simp [Row.uniques, active]

theorem noneActive_of_disabled (hold : .wallet old ∈ rows) (other : ¬ old.SameKey wallet)
    (after : NoneActive (disabled rows old now event) wallet) : NoneActive rows wallet := by
  intro former hformer hactive hsame
  by_cases hid : former.id = old.id
  · have hkey : Row.key (.wallet former) = Row.key (.wallet old) := congrArg (Prod.mk _) hid
    rw [Row.wallet.inj (Table.eq_of_key hformer hold hkey)] at hsame
    exact other hsame
  · exact after former (wallet_mem_disabled.mpr (.inr ⟨hformer, hid⟩)) hactive hsame

/-- Other commits leave alone what a last statement has written. -/
theorem Wrote.stable {more : List (Write Row)} (h : Wrote rows writes) (fits : Fits rows writes)
    (admits : AdmitsAll Row.uniques rows writes) (lawful : Lawful rows)
    (distinct : Distinct Row.uniques rows) (fitsMore : Fits rows more) (wrote : Wrote rows more) :
    Wrote (putAll rows more) writes := by
  cases h with
  | neutral _ hneutral => exact .neutral _ hneutral
  | disables old now event rest hactive hof hneutral => exact .disables _ _ _ _ hactive hof hneutral
  | binds wallet rest hactive hfree hneutral =>
    have hnone := noneActive_of_admits admits.1 hactive (new_of_lookup fits.1)
    exact .binds _ _ hactive (hfree.wrote hnone lawful distinct fitsMore wrote) hneutral
  | replaces old now event wallet rest holdActive hof hother hactive hfree hneutral =>
    obtain ⟨hold, -⟩ := Table.lookup_eq_some.mp fits.1
    have hafter := noneActive_of_admits admits.2.2.1 hactive (new_of_lookup fits.2.2.1)
    have hnone := noneActive_of_disabled hold hother hafter
    exact .replaces _ _ _ _ _ holdActive hof hother hactive
      (hfree.wrote hnone lawful distinct fitsMore wrote) hneutral

end Rows

/-! ## Statements -/

section Statements

variable {db : Db} {given : Given} {changes : List (Change Row)} {writes : List (Write Row)}
  {rows : Table Row.key} {row : WalletIdentity} {event : DisableEvent} {id : Uuid} {now : Nat}

theorem Db.wallet?_eq_some : db.wallet? id = some row ↔ .wallet row ∈ db.rows ∧ row.id = id := by
  rw [Db.wallet?, Option.bind_eq_some_iff]
  constructor
  · rintro ⟨found, hfound, hrow⟩
    cases found <;> cases hrow
    obtain ⟨hmem, hkey⟩ := Table.lookup_eq_some.mp hfound
    exact ⟨hmem, congrArg Prod.snd hkey⟩
  · rintro ⟨hmem, rfl⟩
    exact ⟨.wallet row, Table.lookup_eq_some.mpr ⟨hmem, rfl⟩, rfl⟩

theorem mem_filterMap_wallet : row ∈ rows.rows.filterMap Row.wallet? ↔ .wallet row ∈ rows := by
  rw [List.mem_filterMap]
  constructor
  · rintro ⟨found, hfound, hsome⟩
    cases found <;> cases hsome
    exact hfound
  · intro hrow
    exact ⟨_, hrow, rfl⟩

theorem mem_filterMap_disableEvent :
    event ∈ rows.rows.filterMap Row.disableEvent? ↔ .disableEvent event ∈ rows := by
  rw [List.mem_filterMap]
  constructor
  · rintro ⟨found, hfound, hsome⟩
    cases found <;> cases hsome
    exact hfound
  · intro hrow
    exact ⟨_, hrow, rfl⟩

/-- The trigger lets only an active wallet be disabled. -/
theorem disableWallet_ok (h : disableWallet db id now = .ok changes) :
    ∃ row, .wallet row ∈ db.rows ∧ row.id = id ∧ row.disabledAt = none ∧
      changes = [.update (.wallet (row.disable now))] := by
  unfold disableWallet at h
  split at h
  · cases h
  · next row hfound =>
    obtain ⟨hactive, h⟩ := guard_ok.mp h
    cases h
    obtain ⟨hmem, hid⟩ := Db.wallet?_eq_some.mp hfound
    exact ⟨row, hmem, hid, by simpa using hactive, rfl⟩

theorem neutral_of_record (hrecord : record Row.uniques Refusal.walletUnavailable rows changes = .ok writes)
    (neutral : ∀ change ∈ changes, change.row.Neutral) : ∀ write ∈ writes, write.new.Neutral := by
  intro write hwrite
  obtain ⟨change, hchange, hrow, -⟩ := record_rows hrecord write hwrite
  exact hrow ▸ neutral change hchange

/-- The two writes of a disabling and what follows them. -/
theorem record_disable (found : .wallet row ∈ rows)
    (hrecord : record Row.uniques Refusal.walletUnavailable rows
      (.update (.wallet (row.disable now)) :: .insert (.disableEvent event) :: changes) = .ok writes) :
    ∃ rest, record Row.uniques Refusal.walletUnavailable (disabled rows row now event) changes = .ok rest ∧
      writes = ⟨some (.wallet row), .wallet (row.disable now)⟩ :: ⟨none, .disableEvent event⟩ :: rest := by
  obtain ⟨old, hold, -, more, hmore, rfl⟩ := record_update.mp hrecord
  obtain ⟨-, -, rest, hrest, rfl⟩ := record_insert.mp hmore
  obtain ⟨hmem, hkey⟩ := Table.lookup_eq_some.mp hold
  obtain rfl : old = .wallet row := Table.eq_of_key hmem found hkey
  exact ⟨rest, hrest, rfl⟩

theorem revokeSessions_neutral : ∀ change ∈ revokeSessions db id now, change.row.Neutral := by
  intro change hchange
  obtain ⟨row, -, rfl⟩ := List.mem_map.mp hchange
  exact ⟨rfl, rfl⟩

theorem deleteChallenges_neutral : ∀ change ∈ deleteChallenges db id, change.row.Neutral := by
  intro change hchange
  obtain ⟨row, -, rfl⟩ := List.mem_map.mp hchange
  exact ⟨rfl, rfl⟩

variable {stage next : Stage}

/-- A disabling, by its holder or by somebody else. -/
theorem wrote_disable {reason : ReasonCode} {decider : Option Uuid} {rest : List (Change Row)}
    {held : Locks}
    (h : (disableWallet db id now).map (fun changes => (Stage.done held, changes ++
      .insert (.disableEvent ⟨given.eventUuid, id, reason, none, decider⟩) :: rest)) =
        .ok (next, changes))
    (neutral : ∀ change ∈ rest, change.row.Neutral)
    (hrecord : record Row.uniques Refusal.walletUnavailable db.rows changes = .ok writes) :
    Stands db.rows writes next := by
  obtain ⟨disabling, hdisabling, h⟩ := map_ok.mp h
  obtain ⟨row, hmem, hid, hactive, rfl⟩ := disableWallet_ok hdisabling
  cases h
  obtain ⟨more, hmore, rfl⟩ := record_disable hmem hrecord
  exact .disables row now _ more hactive hid.symm (neutral_of_record hmore neutral)

theorem disableOwnWallet_stands {request : DisableRequest} {session : Session}
    (h : disableOwnWallet db given request session now = .ok (next, changes))
    (hrecord : record Row.uniques Refusal.walletUnavailable db.rows changes = .ok writes) :
    Stands db.rows writes next := by
  obtain ⟨-, h⟩ := guard_ok.mp h
  split at h
  · cases h
  · obtain ⟨-, h⟩ := require_ok.mp h
    exact wrote_disable h revokeSessions_neutral hrecord

theorem adminDisable_stands {request : AdminDisableRequest} {held : Locks}
    (h : adminDisable db given request held now = .ok (next, changes))
    (hrecord : record Row.uniques Refusal.walletUnavailable db.rows changes = .ok writes) :
    Stands db.rows writes next := by
  unfold adminDisable at h
  split at h
  · cases h
  · next row hfound =>
    obtain ⟨-, h⟩ := guard_ok.mp h
    obtain ⟨-, h⟩ := guard_ok.mp h
    split at h
    · cases h
    · obtain ⟨-, h⟩ := guard_ok.mp h
      refine wrote_disable h ?_ hrecord
      cases hholder : row.subjectId with
      | none => simp
      | some subjectId => simpa using revokeSessions_neutral

/-- The history is what it was, when the wallet is inserted. -/
def Stage.historyStill (db : Db) : Stage → Bool
  | .historyRead _ session challenge _ _ =>
    !db.unavailable challenge.walletAddress challenge.chainId (some session.subjectId)
  | _ => true

theorem mem_eventsOf (hevent : .disableEvent event ∈ db.rows) (hof : event.Of row) :
    some event ∈ db.eventsOf row := by
  have hmem : event ∈ (db.rows.rows.filterMap Row.disableEvent?).filter
      (·.walletIdentityId = row.id) :=
    List.mem_filter.mpr ⟨mem_filterMap_disableEvent.mpr hevent, decide_eq_true hof⟩
  unfold Db.eventsOf
  split
  · next hnil =>
    rw [hnil] at hmem
    cases hmem
  · exact List.mem_map_of_mem hmem

/-- What the query finds nothing against is free, as long as it is not active. -/
theorem free_of_unavailable {wallet : WalletIdentity}
    (h : db.unavailable wallet.walletAddress wallet.chainId wallet.subjectId = false)
    (none : NoneActive db.rows wallet) : Free db.rows wallet := by
  intro event hevent former hformer hof hsame
  have hdisabled : former.disabledAt.isSome = true := by
    by_contra hactive
    exact none former hformer (by simpa using hactive) hsame
  have hclear := List.any_eq_false.mp h former (mem_filterMap_wallet.mpr hformer)
  simp only [hsame.1, hsame.2, hdisabled, decide_true, Bool.and_self, Bool.true_and,
    Bool.not_eq_true, List.any_eq_false] at hclear
  simpa using hclear (some event) (mem_eventsOf hevent hof)

theorem lockSession_ok {request : Request} {tenantId sessionId : Uuid}
    (h : lockSession db request tenantId sessionId now = .ok (next, changes)) :
    ∃ session, next = .sessionLocked request session now ∧ changes = [] := by
  unfold lockSession at h
  split at h
  · cases h
  · cases h
    exact ⟨_, rfl, rfl⟩

/-- The binding inserts its wallet, after it has disabled the one it replaces. -/
theorem bind_stands {request : BindRequest} {session : Session} {challenge : BindingChallenge}
    {active : Option WalletIdentity}
    (stands : ∀ row ∈ active, .wallet row ∈ db.rows ∧
      ¬ (row.walletAddress = challenge.walletAddress ∧ row.chainId = challenge.chainId))
    (replaced : replaceWallet db given request session active now = .ok changes)
    (hrecord : record Row.uniques Refusal.walletUnavailable db.rows
      (changes ++ [.insert (.wallet (boundWallet given session challenge)),
        .update (.challenge { challenge with
          consumedAt := some now, walletIdentityId := some given.uuid })]) = .ok writes)
    (still : db.unavailable challenge.walletAddress challenge.chainId (some session.subjectId) = false) :
    Wrote db.rows writes := by
  have hneutral : ∀ change ∈ [Change.update (Row.challenge { challenge with
      consumedAt := some now, walletIdentityId := some given.uuid })], change.row.Neutral := by
    intro change hchange
    rw [List.mem_singleton.mp hchange]
    exact ⟨rfl, rfl⟩
  cases active with
  | none =>
    cases replaced
    obtain ⟨hlookup, hadmits, rest, hrest, rfl⟩ := record_insert.mp hrecord
    have hnone := noneActive_of_admits hadmits rfl (new_of_lookup hlookup)
    exact .binds _ _ rfl (free_of_unavailable still hnone) (neutral_of_record hrest hneutral)
  | some old =>
    obtain ⟨hold, hother⟩ := stands old rfl
    obtain ⟨disabling, hdisabling, rfl⟩ := map_ok.mp replaced
    obtain ⟨row, hmem, hid, hactive, rfl⟩ := disableWallet_ok hdisabling
    have hkey : Row.key (.wallet row) = Row.key (.wallet old) := congrArg (Prod.mk _) hid
    obtain rfl : row = old := Row.wallet.inj (Table.eq_of_key hmem hold hkey)
    obtain ⟨more, hmore, rfl⟩ := record_disable hmem hrecord
    obtain ⟨hlookup, hadmits, rest, hrest, rfl⟩ := record_insert.mp hmore
    have hafter := noneActive_of_admits hadmits rfl (new_of_lookup hlookup)
    have hother : ¬ row.SameKey (boundWallet given session challenge) := hother
    have hnone := noneActive_of_disabled hmem hother hafter
    exact .replaces _ _ _ _ _ hactive rfl hother rfl (free_of_unavailable still hnone)
      (neutral_of_record hrest hneutral)

theorem statement_stands {before : List (Write Row)} (stands : Stands db.rows before stage)
    (h : statement (db.write before) given stage = .ok (next, changes))
    (hrecord : record Row.uniques Refusal.walletUnavailable (putAll db.rows before) changes = .ok writes)
    (still : stage.historyStill (db.write before) = true) :
    Stands db.rows (before ++ writes) next := by
  cases stage with
  | idle =>
    obtain rfl : before = [] := stands
    cases h
    obtain rfl := record_nil.mp hrecord
    rfl
  | begun request startedAt =>
    obtain rfl : before = [] := stands
    cases request with
    | adminDisable disable =>
      cases h
      obtain rfl := record_nil.mp hrecord
      rfl
    | _ =>
      obtain ⟨session, rfl, rfl⟩ := lockSession_ok h
      obtain rfl := record_nil.mp hrecord
      rfl
  | sessionLocked request session startedAt =>
    obtain rfl : before = [] := stands
    cases request with
    | createChallenge tenantId sessionId wallet chainId =>
      obtain ⟨-, h⟩ := guard_ok.mp h
      cases h
      refine .neutral _ (neutral_of_record hrecord fun change hchange => ?_)
      rcases List.mem_append.mp hchange with hchange | hchange
      · exact deleteChallenges_neutral change hchange
      · rw [List.mem_singleton.mp hchange]
        exact ⟨rfl, rfl⟩
    | bind bind =>
      simp only [statement] at h
      split at h
      · cases h
      · cases h
        obtain rfl := record_nil.mp hrecord
        rfl
    | disableOwn disable => exact disableOwnWallet_stands h hrecord
    | adminDisable disable => cases h
  | challengeRead request session challenge startedAt =>
    obtain rfl : before = [] := stands
    obtain ⟨-, h⟩ := guard_ok.mp h
    obtain ⟨hother, h⟩ := guard_ok.mp h
    cases h
    obtain rfl := record_nil.mp hrecord
    refine ⟨rfl, fun row hrow => ⟨?_, fun hsame => hother ?_⟩⟩
    · exact mem_filterMap_wallet.mp (List.mem_of_find?_eq_some hrow)
    · rw [Option.mem_def.mp hrow]
      simpa using hsame
  | activeRead request session challenge active startedAt =>
    obtain ⟨rfl, hactive⟩ := stands
    obtain ⟨-, h⟩ := guard_ok.mp h
    cases h
    obtain rfl := record_nil.mp hrecord
    exact ⟨rfl, hactive⟩
  | historyRead request session challenge active startedAt =>
    obtain ⟨rfl, hactive⟩ := stands
    obtain ⟨changes, hreplaced, h⟩ := map_ok.mp h
    cases h
    have hstill : (!db.unavailable challenge.walletAddress challenge.chainId
        (some session.subjectId)) = true := still
    exact bind_stands hactive hreplaced hrecord (by simpa using hstill)
  | holderLocked request subjectId startedAt =>
    obtain rfl : before = [] := stands
    exact adminDisable_stands h hrecord
  | done held => cases h

end Statements

/-! ## Runs -/

section Runs

variable {W : Type} {s t : State W Db (Point Row Stage)}

/-- The indexes hold and every active wallet is free, as before the first request. -/
def StartsLawful (db : Db) : Prop := Distinct Row.uniques db.rows ∧ Lawful db.rows

abbrev walletSystem (W : Type) [DecidableEq W] : System (State W Db (Point Row Stage)) (Action W Given) :=
  program.protocol.system StartsLawful

/-- When a wallet is inserted, its history still says nothing against it. -/
def HistoryStill (s : State W Db (Point Row Stage)) : Action W Given → Prop
  | .statement w _ =>
    (s.point w).stage.historyStill (s.committed.write (s.point w).writes) = true
  | _ => True

/-- A statement's relied-on rows are its own or locked. -/
theorem Stands.stable {db : Db} {p q : Point Row Stage} (h : Stands db.rows p.writes p.stage)
    (fitting : program.Fitting db p) (lawful : Lawful db.rows) (distinct : Distinct Row.uniques db.rows)
    (fits : Fits db.rows q.writes) (wrote : Wrote db.rows q.writes)
    (apart : program.protocol.Compatible p q) :
    Stands (db.write q.writes).rows p.writes p.stage := by
  have locked : ∀ {row : WalletIdentity}, (.row (.wallets, row.id), .exclusive) ∈ p.stage.held →
      .wallet row ∈ db.rows → .wallet row ∈ (db.write q.writes).rows := by
    intro row hheld hrow
    have hlookup : (db.write q.writes).rows.lookup (.wallets, row.id) =
        db.rows.lookup (.wallets, row.id) := Program.lookup_held apart hheld
    have hfound : db.rows.lookup (.wallets, row.id) = some (.wallet row) :=
      Table.lookup_eq_some.mpr ⟨hrow, rfl⟩
    exact (Table.lookup_eq_some.mp (hlookup.trans hfound)).1
  obtain ⟨stage, writes⟩ := p
  cases stage with
  | activeRead request session challenge active startedAt =>
    refine ⟨h.1, fun row hrow => ⟨locked ?_ (h.2 row hrow).1, (h.2 row hrow).2⟩⟩
    rw [Option.mem_def.mp hrow]
    exact List.mem_cons_self
  | historyRead request session challenge active startedAt =>
    refine ⟨h.1, fun row hrow => ⟨locked ?_ (h.2 row hrow).1, (h.2 row hrow).2⟩⟩
    rw [Option.mem_def.mp hrow]
    exact List.mem_cons_self
  | done held => exact Wrote.stable h fitting.fits fitting.admits lawful distinct fits wrote
  | _ => exact h

theorem Stands.wrote {db : Db} {p : Point Row Stage} (h : Stands db.rows p.writes p.stage)
    (done : p.stage.isDone = true) : Wrote db.rows p.writes := by
  obtain ⟨stage, writes⟩ := p
  cases stage with
  | done held => exact h
  | _ => cases done

theorem bans_maintain : program.protocol.Maintains (W := W) HistoryStill
    (fun db => Distinct Row.uniques db.rows ∧ Lawful db.rows)
    fun db p => program.Fitting db p ∧ Stands db.rows p.writes p.stage := by
  refine Program.writes_maintains.and ?_
  constructor
  case idle => exact fun _ _ => rfl
  case statement =>
    intro s w given q sound allowed ran
    obtain ⟨changes, writes, hran, hrecord, hq⟩ := Program.statement_ok ran
    have hstands := statement_stands (sound.relies w) hran hrecord allowed.1
    rw [hq]
    exact hstands
  case commit =>
    intro s w f sound allowed done
    obtain ⟨hdone, rfl⟩ := Program.effect_some done
    exact sound.committed.wrote allowed.2.committed (allowed.2.relies w).fits
      ((sound.relies w).wrote hdone)
  case stable =>
    intro s w v f sound allowed hne done
    obtain ⟨hdone, rfl⟩ := Program.effect_some done
    exact (sound.relies v).stable (allowed.2.relies v) sound.committed allowed.2.committed
      (allowed.2.relies w).fits ((sound.relies w).wrote hdone) (sound.compatible v w hne)
  case outside =>
    intro s input db sound moved
    cases moved
    exact ⟨sound.committed, sound.relies⟩

/-- A disabled wallet and an event stay as they are, and a wallet keeps its address and
its subject. -/
def Keeps : Row → Row → Prop
  | .wallet old, .wallet new => new.SameKey old ∧ new.subjectId = old.subjectId ∧
      (old.disabledAt.isSome = true → new = old)
  | .wallet _, _ => False
  | .disableEvent old, new => new = .disableEvent old
  | _, _ => True

theorem Keeps.refl (row : Row) : Keeps row row := by
  cases row <;> simp [Keeps, WalletIdentity.SameKey]

theorem Keeps.trans (a b c : Row) (h : Keeps a b) (h' : Keeps b c) : Keeps a c := by
  cases a with
  | wallet old =>
    cases b with
    | wallet between =>
      cases c with
      | wallet new =>
        refine ⟨h'.1.trans h.1, h'.2.1.trans h.2.1, fun hdisabled => ?_⟩
        obtain rfl := h.2.2 hdisabled
        exact h'.2.2 hdisabled
      | _ => exact h'
    | _ => cases h
  | disableEvent old =>
    cases h
    exact h'
  | _ => trivial

/-- Only active wallets are written over, and events never are. -/
theorem Wrote.keeps {rows : Table Row.key} {writes : List (Write Row)} (h : Wrote rows writes)
    (fits : Fits rows writes) : ∀ write ∈ writes, ∀ old ∈ write.old, Keeps old write.new := by
  have neutral : ∀ {more : List (Write Row)}, (∀ write ∈ more, write ∈ writes) →
      (∀ write ∈ more, write.new.Neutral) →
        ∀ write ∈ more, ∀ old ∈ write.old, Keeps old write.new := by
    intro more hsub hneutral write hwrite old hold
    have hkey := fits.old_key write (hsub write hwrite) old hold
    have hnew := hneutral write hwrite
    revert hkey hnew
    cases old <;> cases write.new <;> simp [Row.key, Row.Neutral, Row.wallet?, Row.disableEvent?, Keeps]
  have disabling : ∀ {wallet : WalletIdentity} {now : Nat}, wallet.disabledAt = none →
      Keeps (.wallet wallet) (.wallet (wallet.disable now)) :=
    fun hactive => ⟨⟨rfl, rfl⟩, rfl, fun hdisabled => by simp [hactive] at hdisabled⟩
  cases h with
  | neutral _ hneutral => exact neutral (fun _ => id) hneutral
  | disables wallet now event rest hactive hof hneutral =>
    intro write hwrite
    rcases List.mem_cons.mp hwrite with rfl | hwrite
    · intro old hold
      cases hold
      exact disabling hactive
    · rcases List.mem_cons.mp hwrite with rfl | hwrite
      · intro old hold
        cases hold
      · exact neutral (fun w hw => by simp [hw]) hneutral write hwrite
  | binds wallet rest hactive hfree hneutral =>
    intro write hwrite
    rcases List.mem_cons.mp hwrite with rfl | hwrite
    · intro old hold
      cases hold
    · exact neutral (fun w hw => by simp [hw]) hneutral write hwrite
  | replaces old now event wallet rest holdActive hof hother hactive hfree hneutral =>
    intro write hwrite
    rcases List.mem_cons.mp hwrite with rfl | hwrite
    · intro old hold
      cases hold
      exact disabling holdActive
    · rcases List.mem_cons.mp hwrite with rfl | hwrite
      · intro old hold
        cases hold
      · rcases List.mem_cons.mp hwrite with rfl | hwrite
        · intro old hold
          cases hold
        · exact neutral (fun w hw => by simp [hw]) hneutral write hwrite

theorem Stands.keeps {db : Db} {p : Point Row Stage} (h : Stands db.rows p.writes p.stage)
    (fits : Fits db.rows p.writes) : ∀ write ∈ p.writes, ∀ old ∈ write.old, Keeps old write.new := by
  obtain ⟨stage, writes⟩ := p
  cases stage with
  | done held => exact Wrote.keeps h fits
  | activeRead => simp [show writes = [] from h.1]
  | historyRead => simp [show writes = [] from h.1]
  | _ => simp [show writes = [] from h]

/-- Compromised, or disabled by somebody else than the holder. -/
def DisableEvent.Bans (event : DisableEvent) (wallet : WalletIdentity) : Prop :=
  event.reasonCode = .keyCompromised ∨ event.replaceCause = some .keyCompromised ∨
    event.reasonCode ≠ .consolidatedSingleWallet ∧ event.disabledBySubjectId ≠ wallet.subjectId

def DisableEvent.Lost (event : DisableEvent) : Prop :=
  event.reasonCode = .keyLost ∨ event.replaceCause = some .keyLost

theorem bars_eq_false {wallet : WalletIdentity} {event : DisableEvent} {subjectId : Option Uuid}
    (h : bars wallet (some event) subjectId = false) :
    ¬ event.Bans wallet ∧ (event.Lost → subjectId = wallet.subjectId) := by
  simp only [bars, Option.any_some, Option.isNone_some, Bool.or_eq_false_iff,
    decide_eq_false_iff_not, Bool.and_eq_false_iff, Bool.false_or] at h
  obtain ⟨⟨⟨hreason, hcause⟩, hdecider⟩, hlost⟩ := h
  refine ⟨?_, fun h => ?_⟩
  · rintro (h | h | h)
    · exact hreason h
    · exact hcause h
    · exact hdecider h
  · rcases hlost with ⟨⟨hreason, hcause⟩, -⟩ | hholder
    · exact absurd h (not_or.mpr ⟨hreason, hcause⟩)
    · exact (not_not.mp hholder).symm

/-- Active wallets are apart by address and by subject. -/
theorem eq_of_active {rows : Table Row.key} (distinct : Distinct Row.uniques rows)
    {wallet other : WalletIdentity} (hwallet : .wallet wallet ∈ rows) (hother : .wallet other ∈ rows)
    (active : wallet.disabledAt = none) (otherActive : other.disabledAt = none)
    (shared : wallet.SameKey other ∨ wallet.subjectId.isSome = true ∧ wallet.subjectId = other.subjectId) :
    wallet = other := by
  by_contra hne
  have hkey : Row.key (.wallet wallet) ≠ Row.key (.wallet other) := fun hkey =>
    hne (Row.wallet.inj (Table.eq_of_key hwallet hother hkey))
  rcases shared with ⟨haddress, hchain⟩ | ⟨hsome, hsubject⟩
  · refine distinct _ hwallet _ hother hkey (a := .activeAddress other.walletAddress other.chainId) ?_ ?_
    · simp [Row.uniques, active, haddress, hchain]
    · simp [Row.uniques, otherActive]
  · obtain ⟨subjectId, hsubjectId⟩ := Option.isSome_iff_exists.mp hsome
    refine distinct _ hwallet _ hother hkey (a := .activeOf subjectId) ?_ ?_
    · simp [Row.uniques, active, hsubjectId]
    · simp [Row.uniques, otherActive, ← hsubject, hsubjectId]

variable [DecidableEq W]

/-- In every run in which each binding finds the history of its address still clear when it
inserts the wallet: the active wallets are apart, a disabled one stays as it is, and what
banned an address keeps it from being active again, or from every subject but one. -/
theorem banned_wallets_stay_out
    (reached : ((walletSystem W).restrict HistoryStill).Reachable s) :
    (∀ wallet other, .wallet wallet ∈ s.committed.rows → .wallet other ∈ s.committed.rows →
      wallet.disabledAt = none → other.disabledAt = none →
      (wallet.SameKey other ∨ wallet.subjectId.isSome = true ∧ wallet.subjectId = other.subjectId) →
        wallet = other) ∧
    ∀ labels t, ((walletSystem W).restrict HistoryStill).Run s labels t →
      ∀ wallet, .wallet wallet ∈ s.committed.rows →
        (wallet.disabledAt.isSome = true → .wallet wallet ∈ t.committed.rows) ∧
        ∀ event, .disableEvent event ∈ s.committed.rows → event.Of wallet →
          ∀ active, .wallet active ∈ t.committed.rows → active.disabledAt = none →
            active.SameKey wallet →
              ¬ event.Bans wallet ∧ (event.Lost → active.subjectId = wallet.subjectId) := by
  have rule : program.protocol.Maintains (W := W) HistoryStill
      (fun db => Distinct Row.uniques db.rows ∧ Lawful db.rows)
      fun db p => program.Fitting db p ∧ Stands db.rows p.writes p.stage := bans_maintain
  have sound := rule.reachable (fun _ => id) reached
  refine ⟨fun wallet other hwallet hother hactive hotherActive hshared =>
    eq_of_active sound.committed.1 hwallet hother hactive hotherActive hshared, ?_⟩
  intro labels t run wallet hwallet
  have soundAfter := rule.reachable (fun _ => id) (reached.run run)
  have follow := Program.rows_follow rule run sound Keeps.refl Keeps.trans
    fun _ _ h => ⟨h.1.fits, h.2.keeps h.1.fits⟩
  obtain ⟨later, hlater, hkey, hkeeps⟩ := follow _ hwallet
  cases later with
  | wallet later =>
    refine ⟨fun hdisabled => hkeeps.2.2 hdisabled ▸ hlater, ?_⟩
    intro event hevent hof active hactive hnow hsame
    obtain ⟨_, hevent', -, rfl⟩ := follow _ hevent
    have hid : later.id = wallet.id := congrArg Prod.snd hkey
    have hfree := soundAfter.committed.2.free active hactive hnow event hevent' later hlater
      (hof.trans hid.symm) (hkeeps.1.trans hsame.symm)
    have hclear := bars_eq_false hfree
    rw [DisableEvent.Bans, hkeeps.2.1] at hclear
    exact hclear
  | _ => cases hkeeps

/-! ## A key disabled while it is bound -/

/-- Two accounts of two tenants, without wallets. -/
def accounts : Db where
  rows := ((Table.empty.put (.session ⟨1, 10, 100, 1000, none⟩)).put
    (.session ⟨2, 20, 200, 1000, none⟩))
  now := 0

theorem accounts_lawful : StartsLawful accounts := by
  have hrows : ∀ row ∈ accounts.rows, ∃ session, row = .session session := by
    intro row hrow
    rcases Table.mem_put.mp hrow with rfl | ⟨hrow, -⟩
    · exact ⟨_, rfl⟩
    · rcases Table.mem_put.mp hrow with rfl | ⟨hrow, -⟩
      · exact ⟨_, rfl⟩
      · exact absurd hrow (Table.not_mem_empty row)
  refine ⟨fun r hr s hs _ => ?_, fun wallet hwallet => ?_, fun event hevent => ?_⟩
  · obtain ⟨session, rfl⟩ := hrows r hr
    simp [Row.uniques]
  · obtain ⟨session, hsession⟩ := hrows _ hwallet
    cases hsession
  · obtain ⟨session, hsession⟩ := hrows _ hevent
    cases hsession

/-- The statements of one request by one worker. -/
def script {V : Type} (w : V) (request : Request) (uuid : Uuid) (steps : Nat) : List (Action V Given) :=
  List.replicate steps (.statement w ⟨request, uuid, uuid, 0⟩)

def challenge (tenantId sessionId : Uuid) (wallet : Text) : Request :=
  .createChallenge tenantId sessionId wallet 1

def binding (tenantId sessionId challengeId : Uuid) (signer : Text) (cause : ReplaceCause) : Request :=
  .bind ⟨tenantId, sessionId, challengeId, signer, cause⟩

/-- The holder disables the key as compromised after somebody else's binding has read the
history: the wallet is bound, and active although it was banned. -/
theorem banned_wallet_bound :
    ∃ s : State Bool Db (Point Row Stage), (walletSystem Bool).Reachable s ∧
      ∃ wallet event active, .wallet wallet ∈ s.committed.rows ∧
        .disableEvent event ∈ s.committed.rows ∧ event.Of wallet ∧
        event.reasonCode = .keyCompromised ∧ .wallet active ∈ s.committed.rows ∧
        active.disabledAt = none ∧ active.SameKey wallet := by
  have hrun : (program.protocol.follow (fun _ _ => true) (program.protocol.atRest accounts)
      (script false (challenge 10 1 (units "0xAB")) 3 3 ++ [.commit false] ++
        script false (binding 10 1 3 (units "0xab") .rotation) 4 6 ++ [.commit false] ++
        script false (challenge 20 2 (units "0xAB")) 5 3 ++ [.commit false] ++
        script false (binding 20 2 5 (units "0xab") .rotation) 6 5 ++
        script true (.disableOwn ⟨10, 1, 4, .keyCompromised⟩) 7 3 ++ [.commit true] ++
        script false (binding 20 2 5 (units "0xab") .rotation) 6 1 ++ [.commit false])).any (fun s : State Bool Db (Point Row Stage) =>
      (s.committed.rows.rows.filterMap Row.wallet?).any fun wallet =>
        (s.committed.rows.rows.filterMap Row.disableEvent?).any fun event =>
          event.walletIdentityId = wallet.id && event.reasonCode = .keyCompromised &&
            (s.committed.rows.rows.filterMap Row.wallet?).any fun active =>
              active.disabledAt = none && active.walletAddress = wallet.walletAddress &&
                active.chainId = wallet.chainId) = true := by
    decide +kernel
  obtain ⟨s, hs, hrun⟩ := Option.any_eq_true _ _ |>.mp hrun
  obtain ⟨wallet, hwallet, hrun⟩ := List.any_eq_true.mp hrun
  obtain ⟨event, hevent, hrun⟩ := List.any_eq_true.mp hrun
  obtain ⟨hevents, hrun⟩ := Bool.and_eq_true_iff.mp hrun
  obtain ⟨hof, hreason⟩ := Bool.and_eq_true_iff.mp hevents
  obtain ⟨active, hactive, hrun⟩ := List.any_eq_true.mp hrun
  obtain ⟨hnow, hchain⟩ := Bool.and_eq_true_iff.mp hrun
  obtain ⟨hnow, haddress⟩ := Bool.and_eq_true_iff.mp hnow
  have hof : event.walletIdentityId = wallet.id := of_decide_eq_true hof
  have reached : ((walletSystem Bool).restrict fun _ _ => True).Reachable s :=
    Protocol.reachable_follow StartsLawful (fun _ _ _ => trivial) accounts_lawful hs
  exact ⟨s, reached.of_restrict, wallet, event, active, mem_filterMap_wallet.mp hwallet,
    mem_filterMap_disableEvent.mp hevent, hof, of_decide_eq_true hreason,
    mem_filterMap_wallet.mp hactive, of_decide_eq_true hnow, of_decide_eq_true haddress,
    of_decide_eq_true hchain⟩

def historyStill (s : State W Db (Point Row Stage)) : Action W Given → Bool
  | .statement w _ => (s.point w).stage.historyStill (s.committed.write (s.point w).writes)
  | _ => true

omit [DecidableEq W] in
theorem historyStill_ok (s : State W Db (Point Row Stage)) (a : Action W Given)
    (h : historyStill s a = true) : HistoryStill s a := by
  cases a with
  | statement w given => exact h
  | _ => trivial

/-- A lost key is bound again by its holder. -/
theorem banned_wallets_stay_out_lost :
    ∃ s : State Bool Db (Point Row Stage), ∃ wallet event active,
      .wallet wallet ∈ s.committed.rows ∧ .disableEvent event ∈ s.committed.rows ∧
      event.Of wallet ∧ event.Lost ∧ .wallet active ∈ s.committed.rows ∧
      active.disabledAt = none ∧ active.subjectId = wallet.subjectId := by
  have hrun : (program.protocol.follow historyStill (program.protocol.atRest accounts)
      (script false (challenge 10 1 (units "0xAB")) 3 3 ++ [.commit false] ++
        script false (binding 10 1 3 (units "0xab") .rotation) 4 6 ++ [.commit false] ++
        script false (challenge 10 1 (units "0xcd")) 5 3 ++ [.commit false] ++
        script false (binding 10 1 5 (units "0xcd") .keyLost) 6 6 ++ [.commit false] ++
        script false (challenge 10 1 (units "0xAB")) 7 3 ++ [.commit false] ++
        script false (binding 10 1 7 (units "0xab") .rotation) 8 6 ++ [.commit false])).any
      (fun s : State Bool Db (Point Row Stage) =>
        (s.committed.rows.rows.filterMap Row.wallet?).any fun wallet =>
          (s.committed.rows.rows.filterMap Row.disableEvent?).any fun event =>
            event.walletIdentityId = wallet.id && event.replaceCause = some .keyLost &&
              (s.committed.rows.rows.filterMap Row.wallet?).any fun active =>
                active.disabledAt = none && active.walletAddress = wallet.walletAddress &&
                  active.chainId = wallet.chainId) = true := by
    decide +kernel
  obtain ⟨s, hs, hrun⟩ := Option.any_eq_true _ _ |>.mp hrun
  obtain ⟨wallet, hwallet, hrun⟩ := List.any_eq_true.mp hrun
  obtain ⟨event, hevent, hrun⟩ := List.any_eq_true.mp hrun
  obtain ⟨hevents, hrun⟩ := Bool.and_eq_true_iff.mp hrun
  obtain ⟨hof, hcause⟩ := Bool.and_eq_true_iff.mp hevents
  obtain ⟨active, hactive, hrun⟩ := List.any_eq_true.mp hrun
  obtain ⟨hnow, hchain⟩ := Bool.and_eq_true_iff.mp hrun
  obtain ⟨hnow, haddress⟩ := Bool.and_eq_true_iff.mp hnow
  have hof : event.walletIdentityId = wallet.id := of_decide_eq_true hof
  have hlost : event.Lost := .inr (of_decide_eq_true hcause)
  have hwallet := mem_filterMap_wallet.mp hwallet
  have hevent := mem_filterMap_disableEvent.mp hevent
  have hactive := mem_filterMap_wallet.mp hactive
  have reached := Protocol.reachable_follow StartsLawful historyStill_ok accounts_lawful hs
  have hstays := ((banned_wallets_stay_out reached).2 [] s (.nil s) wallet hwallet).2 event hevent hof
    active hactive (of_decide_eq_true hnow) ⟨of_decide_eq_true haddress, of_decide_eq_true hchain⟩
  exact ⟨s, wallet, event, active, hwallet, hevent, hof, hlost, hactive, of_decide_eq_true hnow,
    hstays.2 hlost⟩

end Runs

end MpcRegistry.Wallets
