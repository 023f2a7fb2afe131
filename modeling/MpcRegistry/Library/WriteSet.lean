import MpcRegistry.Library.Outcome
import MpcRegistry.Library.ReadCommitted
import MpcRegistry.Library.Table

/-!
# Transactions and the rows they write

Transactions over one keyed table, whose rows may carry a tag so that it stands for
several tables. A transaction collects the rows it writes, sees them in its own
statements and has them locked, so that each of them is still under its key as the
transaction found it when the commit writes it. A row's unique entries are locked
with it.
-/
namespace MpcRegistry.Library

/-! ## Rows by their key -/

namespace Table

variable {ρ κ : Type} {key : ρ → κ} [DecidableEq κ]

/-- The row in place of the one with its key, or behind the others. -/
def putRow (key : ρ → κ) (row : ρ) : List ρ → List ρ
  | [] => [row]
  | r :: rest => if key r = key row then row :: rest else r :: putRow key row rest

variable {t : Table key} {r s row : ρ} {rows : List ρ} {k : κ}

theorem mem_putRow (distinct : (rows.map key).Nodup) :
    r ∈ putRow key row rows ↔ r = row ∨ r ∈ rows ∧ key r ≠ key row := by
  induction rows with
  | nil => simp [putRow]
  | cons s rest ih =>
    rw [List.map_cons, List.nodup_cons] at distinct
    by_cases hsame : key s = key row
    · rw [putRow, if_pos hsame, List.mem_cons, List.mem_cons]
      refine or_congr_right ⟨fun hr => ⟨.inr hr, fun hkey => ?_⟩, fun h => ?_⟩
      · exact distinct.1 (hsame.trans hkey.symm ▸ List.mem_map_of_mem hr)
      · obtain ⟨rfl | hr, hkey⟩ := h
        · exact absurd hsame hkey
        · exact hr
    · rw [putRow, if_neg hsame, List.mem_cons, ih distinct.2, List.mem_cons]
      constructor
      · rintro (rfl | rfl | ⟨hr, hkey⟩)
        · exact .inr ⟨.inl rfl, hsame⟩
        · exact .inl rfl
        · exact .inr ⟨.inr hr, hkey⟩
      · rintro (rfl | ⟨rfl | hr, hkey⟩)
        · exact .inr (.inl rfl)
        · exact .inl rfl
        · exact .inr (.inr ⟨hr, hkey⟩)

theorem nodup_putRow (distinct : (rows.map key).Nodup) : ((putRow key row rows).map key).Nodup := by
  induction rows with
  | nil => exact List.nodup_singleton _
  | cons r rest ih =>
    have hrest := List.nodup_cons.mp distinct
    by_cases hsame : key r = key row
    · rw [putRow, if_pos hsame, List.map_cons, ← hsame]
      exact distinct
    · rw [putRow, if_neg hsame, List.map_cons, List.nodup_cons]
      refine ⟨fun hmem => ?_, ih hrest.2⟩
      obtain ⟨s, hs, hkey⟩ := List.mem_map.mp hmem
      rcases (mem_putRow hrest.2).mp hs with rfl | ⟨hs, -⟩
      · exact hsame hkey.symm
      · exact hrest.1 (hkey ▸ List.mem_map_of_mem hs)

/-- The row in place of the one with its key, or as a new row. -/
def put (t : Table key) (row : ρ) : Table key :=
  ⟨putRow key row t.rows, nodup_putRow t.distinct⟩

theorem mem_put : r ∈ t.put row ↔ r = row ∨ r ∈ t ∧ key r ≠ key row := mem_putRow t.distinct

theorem mem_put_self : row ∈ t.put row := mem_put.mpr (.inl rfl)

theorem lookup_eq_none : t.lookup k = none ↔ ∀ r ∈ t, key r ≠ k := by
  rw [lookup, List.find?_eq_none]
  simp [mem_rows]

theorem lookup_put : (t.put row).lookup k = if k = key row then some row else t.lookup k := by
  split
  next hsame => exact lookup_eq_some.mpr ⟨mem_put_self, hsame.symm⟩
  next hother =>
    cases hfound : t.lookup k with
    | none =>
      rw [lookup_eq_none] at hfound ⊢
      intro r hr
      rcases mem_put.mp hr with rfl | ⟨hr, -⟩
      · exact Ne.symm hother
      · exact hfound r hr
    | some r =>
      obtain ⟨hr, rfl⟩ := lookup_eq_some.mp hfound
      exact lookup_eq_some.mpr ⟨mem_put.mpr (.inr ⟨hr, hother⟩), rfl⟩

end Table

namespace WriteSet
open ReadCommitted

/-! ## Rows written one after the other -/

/-- A row as it was found, if there was one, and as it is written. -/
structure Write (ρ : Type) where
  old : Option ρ
  new : ρ
  deriving Repr

/-- What a statement asks for. -/
inductive Change (ρ : Type) where
  | insert (row : ρ)
  | update (row : ρ)

def Change.row {ρ : Type} : Change ρ → ρ
  | insert row => row
  | update row => row

section Writes

variable {ρ κ υ ε : Type} {key : ρ → κ} [DecidableEq κ]

def putAll (t : Table key) (writes : List (Write ρ)) : Table key :=
  writes.foldl (fun t write => t.put write.new) t

/-- Each row is written where it was found. -/
def Fits (t : Table key) : List (Write ρ) → Prop
  | [] => True
  | write :: rest => t.lookup (key write.new) = write.old ∧ Fits (t.put write.new) rest

variable {t u : Table key} {writes more : List (Write ρ)} {r : ρ} {k : κ}

@[simp] theorem putAll_nil : putAll t [] = t := rfl

@[simp] theorem putAll_cons {write : Write ρ} :
    putAll t (write :: writes) = putAll (t.put write.new) writes := rfl

theorem putAll_append : putAll t (writes ++ more) = putAll (putAll t writes) more :=
  List.foldl_append

theorem fits_append : Fits t (writes ++ more) ↔ Fits t writes ∧ Fits (putAll t writes) more := by
  induction writes generalizing t with
  | nil => simp [Fits]
  | cons write rest ih => simp [Fits, ih, and_assoc]

theorem lookup_putAll_of_not_mem (h : ∀ write ∈ writes, key write.new ≠ k) :
    (putAll t writes).lookup k = t.lookup k := by
  induction writes generalizing t with
  | nil => rfl
  | cons write rest ih =>
    rw [putAll_cons, ih fun w hw => h w (List.mem_cons_of_mem _ hw), Table.lookup_put,
      if_neg (h write List.mem_cons_self).symm]

theorem lookup_putAll_congr (h : t.lookup k = u.lookup k) :
    (putAll t writes).lookup k = (putAll u writes).lookup k := by
  induction writes generalizing t u with
  | nil => exact h
  | cons write rest ih =>
    refine ih ?_
    rw [Table.lookup_put, Table.lookup_put, h]

theorem mem_putAll_of_not_mem (h : ∀ write ∈ writes, key write.new ≠ key r) :
    r ∈ putAll t writes ↔ r ∈ t := by
  rw [Table.mem_iff_lookup, Table.mem_iff_lookup, lookup_putAll_of_not_mem h]

theorem mem_of_mem_putAll (h : r ∈ putAll t writes) : r ∈ t ∨ ∃ write ∈ writes, write.new = r := by
  induction writes generalizing t with
  | nil => exact .inl h
  | cons write rest ih =>
    rcases ih h with h | ⟨other, hother, rfl⟩
    · rcases Table.mem_put.mp h with rfl | ⟨h, -⟩
      · exact .inr ⟨write, List.mem_cons_self, rfl⟩
      · exact .inl h
    · exact .inr ⟨other, List.mem_cons_of_mem _ hother, rfl⟩

/-- Only what is under the keys of the rows matters. -/
theorem Fits.congr (h : Fits t writes)
    (same : ∀ write ∈ writes, u.lookup (key write.new) = t.lookup (key write.new)) :
    Fits u writes := by
  induction writes generalizing t u with
  | nil => trivial
  | cons write rest ih =>
    refine ⟨(same write List.mem_cons_self).trans h.1, ih h.2 fun other hother => ?_⟩
    rw [Table.lookup_put, Table.lookup_put, same other (List.mem_cons_of_mem _ hother)]

/-- Rows written elsewhere are not in the way. -/
theorem Fits.putAll (h : Fits t writes)
    (apart : ∀ write ∈ writes, ∀ other ∈ more, key other.new ≠ key write.new) :
    Fits (putAll t more) writes :=
  h.congr fun write hwrite => lookup_putAll_of_not_mem (apart write hwrite)

/-- A row is written over one with its key. -/
theorem Fits.old_key (h : Fits t writes) :
    ∀ write ∈ writes, ∀ old ∈ write.old, key old = key write.new := by
  induction writes generalizing t with
  | nil => simp
  | cons write rest ih =>
    intro other hother old hold
    rcases List.mem_cons.mp hother with rfl | hother
    · exact (Table.lookup_eq_some.mp (h.1.trans hold)).2
    · exact ih h.2 other hother old hold

/-- What becomes of a row, when every write leads from the row it found to its own. -/
theorem Fits.exists_after {R : ρ → ρ → Prop} (h : Fits t writes) (refl : ∀ r, R r r)
    (trans : ∀ a b c, R a b → R b c → R a c)
    (leads : ∀ write ∈ writes, ∀ old ∈ write.old, R old write.new) (hr : r ∈ t) :
    ∃ s ∈ WriteSet.putAll t writes, key s = key r ∧ R r s := by
  induction writes generalizing t r with
  | nil => exact ⟨r, hr, rfl, refl r⟩
  | cons write rest ih =>
    have hrest := fun w hw => leads w (List.mem_cons_of_mem write hw)
    by_cases hsame : key r = key write.new
    · have hold : write.old = some r := h.1 ▸ Table.lookup_eq_some.mpr ⟨hr, hsame⟩
      obtain ⟨s, hs, hkey, hR⟩ := ih h.2 hrest Table.mem_put_self
      exact ⟨s, hs, hkey.trans hsame.symm, trans _ _ _ (leads write List.mem_cons_self r hold) hR⟩
    · exact ih h.2 hrest (Table.mem_put.mpr (.inr ⟨hr, hsame⟩))

/-! ## Unique entries -/

variable (uniques : ρ → List υ)

/-- No two rows share a unique entry. -/
def Distinct (t : Table key) : Prop :=
  ∀ r ∈ t, ∀ s ∈ t, key r ≠ key s → (uniques r).Disjoint (uniques s)

/-- The unique entries of a row are not those of another. -/
def Admits (t : Table key) (row : ρ) : Prop :=
  ∀ r ∈ t, key r ≠ key row → (uniques r).Disjoint (uniques row)

def AdmitsAll (t : Table key) : List (Write ρ) → Prop
  | [] => True
  | write :: rest => Admits uniques t write.new ∧ AdmitsAll (t.put write.new) rest

variable {uniques}

/-- Other rows are in the way of unique entries only if they share some. -/
theorem AdmitsAll.of_mem (h : AdmitsAll uniques t writes)
    (apart : ∀ r ∈ u, r ∈ t ∨ ∀ write ∈ writes, key r ≠ key write.new →
      (uniques r).Disjoint (uniques write.new)) : AdmitsAll uniques u writes := by
  induction writes generalizing t u with
  | nil => trivial
  | cons write rest ih =>
    refine ⟨fun r hr hother => ?_, ih h.2 fun r hr => ?_⟩
    · rcases apart r hr with hold | hapart
      · exact h.1 r hold hother
      · exact hapart write List.mem_cons_self hother
    · rcases Table.mem_put.mp hr with rfl | ⟨hr, hother⟩
      · exact .inl Table.mem_put_self
      · rcases apart r hr with hold | hapart
        · exact .inl (Table.mem_put.mpr (.inr ⟨hold, hother⟩))
        · exact .inr fun other hmem => hapart other (List.mem_cons_of_mem _ hmem)

theorem AdmitsAll.append (h : AdmitsAll uniques t writes)
    (hmore : AdmitsAll uniques (WriteSet.putAll t writes) more) :
    AdmitsAll uniques t (writes ++ more) := by
  induction writes generalizing t with
  | nil => exact hmore
  | cons write rest ih => exact ⟨h.1, ih h.2 hmore⟩

theorem Distinct.put {row : ρ} (h : Distinct uniques t) (admits : Admits uniques t row) :
    Distinct uniques (t.put row) := by
  intro r hput s hput' hother
  rcases Table.mem_put.mp hput with rfl | ⟨hr, hr'⟩
  · rcases Table.mem_put.mp hput' with rfl | ⟨hs, hs'⟩
    · exact absurd rfl hother
    · exact (admits s hs hs').symm
  · rcases Table.mem_put.mp hput' with rfl | ⟨hs, -⟩
    · exact admits r hr hr'
    · exact h r hr s hs hother

theorem Distinct.putAll (h : Distinct uniques t) (admits : AdmitsAll uniques t writes) :
    Distinct uniques (WriteSet.putAll t writes) := by
  induction writes generalizing t with
  | nil => exact h
  | cons write rest ih => exact ih (h.put admits.1) admits.2

/-! ## What a statement writes -/

/-- An insertion finds no row under its key, an update one. -/
def Change.finds : Change ρ → Option ρ → Bool
  | insert _, found => found.isNone
  | update _, found => found.isSome

variable [DecidableEq υ] (uniques) (violation : ε)

instance (t : Table key) (row : ρ) : Decidable (Admits uniques t row) :=
  inferInstanceAs (Decidable (∀ r ∈ t.rows, key r ≠ key row →
    ∀ ⦃entry⦄, entry ∈ uniques r → entry ∈ uniques row → False))

/-- The rows of a statement, each written where it is found, unless a key or a unique
entry is in the way. -/
def record (t : Table key) : List (Change ρ) → Except ε (List (Write ρ))
  | [] => .ok []
  | change :: rest =>
    if change.finds (t.lookup (key change.row)) ∧ Admits uniques t change.row then
      (record (t.put change.row) rest).map (⟨t.lookup (key change.row), change.row⟩ :: ·)
    else .error violation

variable {uniques violation} {changes : List (Change ρ)} {row : ρ}

@[simp] theorem record_nil : record uniques violation t [] = .ok writes ↔ writes = [] := by
  simp [record, eq_comm]

theorem record_cons {change : Change ρ} :
    record uniques violation t (change :: changes) = .ok writes ↔
      change.finds (t.lookup (key change.row)) ∧ Admits uniques t change.row ∧
        ∃ rest, record uniques violation (t.put change.row) changes = .ok rest ∧
          writes = ⟨t.lookup (key change.row), change.row⟩ :: rest := by
  rw [record, Outcome.require_ok, Outcome.map_ok, and_assoc]
  simp only [eq_comm]

/-- An inserted row is new. -/
theorem record_insert :
    record uniques violation t (.insert row :: changes) = .ok writes ↔
      t.lookup (key row) = none ∧ Admits uniques t row ∧
        ∃ rest, record uniques violation (t.put row) changes = .ok rest ∧
          writes = ⟨none, row⟩ :: rest := by
  rw [record_cons]
  simp only [Change.finds, Change.row, Option.isNone_iff_eq_none]
  constructor
  · rintro ⟨habsent, hadmits, rest, hrest, rfl⟩
    exact ⟨habsent, hadmits, rest, hrest, by rw [habsent]⟩
  · rintro ⟨habsent, hadmits, rest, hrest, rfl⟩
    exact ⟨habsent, hadmits, rest, hrest, by rw [habsent]⟩

/-- An updated row was there before. -/
theorem record_update :
    record uniques violation t (.update row :: changes) = .ok writes ↔
      ∃ old, t.lookup (key row) = some old ∧ Admits uniques t row ∧
        ∃ rest, record uniques violation (t.put row) changes = .ok rest ∧
          writes = ⟨some old, row⟩ :: rest := by
  rw [record_cons]
  simp only [Change.finds, Change.row, Option.isSome_iff_exists]
  constructor
  · rintro ⟨⟨old, hold⟩, hadmits, rest, hrest, rfl⟩
    exact ⟨old, hold, hadmits, rest, hrest, by rw [hold]⟩
  · rintro ⟨old, hold, hadmits, rest, hrest, rfl⟩
    exact ⟨⟨old, hold⟩, hadmits, rest, hrest, by rw [hold]⟩

/-- A statement that updates one row. -/
theorem record_update_single (h : record uniques violation t [.update row] = .ok writes) :
    ∃ old, t.lookup (key row) = some old ∧ writes = [⟨some old, row⟩] := by
  obtain ⟨old, hold, -, rest, hrest, rfl⟩ := record_update.mp h
  obtain rfl := record_nil.mp hrest
  exact ⟨old, hold, rfl⟩

theorem record_rows (h : record uniques violation t changes = .ok writes) :
    ∀ write ∈ writes, ∃ change ∈ changes, change.row = write.new ∧ change.finds write.old := by
  induction changes generalizing t writes with
  | nil =>
    obtain rfl := record_nil.mp h
    simp
  | cons change rest ih =>
    obtain ⟨hfinds, -, more, hmore, rfl⟩ := record_cons.mp h
    intro write hwrite
    rcases List.mem_cons.mp hwrite with rfl | hwrite
    · exact ⟨change, List.mem_cons_self, rfl, hfinds⟩
    · obtain ⟨other, hother, hrow⟩ := ih hmore write hwrite
      exact ⟨other, List.mem_cons_of_mem _ hother, hrow⟩

theorem record_written (h : record uniques violation t changes = .ok writes) :
    ∀ change ∈ changes, ∃ write ∈ writes, write.new = change.row := by
  induction changes generalizing t writes with
  | nil => simp
  | cons change rest ih =>
    obtain ⟨-, -, more, hmore, rfl⟩ := record_cons.mp h
    intro other hother
    rcases List.mem_cons.mp hother with rfl | hother
    · exact ⟨_, List.mem_cons_self, rfl⟩
    · obtain ⟨write, hwrite, hrow⟩ := ih hmore other hother
      exact ⟨write, List.mem_cons_of_mem _ hwrite, hrow⟩

theorem record_fits (h : record uniques violation t changes = .ok writes) :
    Fits t writes ∧ AdmitsAll uniques t writes := by
  induction changes generalizing t writes with
  | nil =>
    obtain rfl := record_nil.mp h
    exact ⟨trivial, trivial⟩
  | cons change rest ih =>
    obtain ⟨-, hadmits, more, hmore, rfl⟩ := record_cons.mp h
    obtain ⟨hfits, hall⟩ := ih hmore
    exact ⟨⟨rfl, hfits⟩, hadmits, hall⟩

/-- A statement that takes up each key once writes over what was there before it. -/
theorem record_old (h : record uniques violation t changes = .ok writes)
    (distinct : (changes.map fun change => key change.row).Nodup) :
    ∀ write ∈ writes, ∃ change ∈ changes, change.row = write.new ∧
      write.old = t.lookup (key write.new) ∧ change.finds write.old = true := by
  induction changes generalizing t writes with
  | nil =>
    obtain rfl := record_nil.mp h
    simp
  | cons change rest ih =>
    obtain ⟨hfinds, -, more, hmore, rfl⟩ := record_cons.mp h
    obtain ⟨hnew, hrest⟩ := List.nodup_cons.mp distinct
    intro write hwrite
    rcases List.mem_cons.mp hwrite with rfl | hwrite
    · exact ⟨change, List.mem_cons_self, rfl, rfl, hfinds⟩
    · obtain ⟨other, hother, hrow, hold, hfound⟩ := ih hmore hrest write hwrite
      have hkey : key write.new ≠ key change.row := fun hsame =>
        hnew (List.mem_map.mpr ⟨other, hother, hrow ▸ hsame⟩)
      rw [Table.lookup_put, if_neg hkey] at hold
      exact ⟨other, List.mem_cons_of_mem _ hother, hrow, hold, hfound⟩

/-- What such a statement has written is there after it. -/
theorem record_mem (h : record uniques violation t changes = .ok writes)
    (distinct : (changes.map fun change => key change.row).Nodup) :
    ∀ change ∈ changes, change.row ∈ putAll t writes := by
  induction changes generalizing t writes with
  | nil => simp
  | cons change rest ih =>
    obtain ⟨-, -, more, hmore, rfl⟩ := record_cons.mp h
    obtain ⟨hnew, hrest⟩ := List.nodup_cons.mp distinct
    intro other hother
    rcases List.mem_cons.mp hother with rfl | hother
    · have hlater : ∀ write ∈ more, key write.new ≠ key other.row := by
        intro write hwrite hsame
        obtain ⟨change, hchange, hrow, -⟩ := record_rows hmore write hwrite
        exact hnew (List.mem_map.mpr ⟨change, hchange, hrow ▸ hsame⟩)
      exact (mem_putAll_of_not_mem hlater).mpr Table.mem_put_self
    · exact ih hmore hrest other hother

end Writes

/-! ## Transactions -/

/-- The rows and the clock. -/
structure Database {ρ κ : Type} (key : ρ → κ) where
  rows : Table key
  now : Nat

inductive Lock (κ υ : Type) where
  | row (key : κ)
  | key (key : κ)
  | unique (entry : υ)
  deriving DecidableEq, Repr

/-- Where a transaction stands and what it has written. -/
structure Point (ρ Stage : Type) where
  stage : Stage
  writes : List (Write ρ)

/-- The transactions of a program. A statement sees what its transaction has written;
`held` are the locks taken besides those of the written rows. -/
structure Program {ρ κ : Type} (key : ρ → κ) (Stage ι ε υ : Type) where
  idle : Stage
  statement : Database key → Stage → ι → Except ε (Stage × List (Change ρ))
  done : Stage → Bool
  held : Stage → List (Lock κ υ × LockMode)
  uniques : ρ → List υ
  violation : ε
  elapsed : ι → Nat
  held_idle : held idle = []

section Program

variable {ρ κ υ ε ι Stage W : Type} {key : ρ → κ} [DecidableEq κ] [DecidableEq υ]

def Database.write (db : Database key) (writes : List (Write ρ)) : Database key :=
  { db with rows := putAll db.rows writes }

namespace Program

variable (P : Program key Stage ι ε υ)

def rowLocks (row : ρ) : List (Lock κ υ × LockMode) :=
  (.row (key row), .exclusive) :: (P.uniques row).map fun entry => (.unique entry, .exclusive)

def protocol : Protocol (Database key) (Point ρ Stage) ι ε (Lock κ υ) where
  idle := ⟨P.idle, []⟩
  statement db p input :=
    (P.statement (db.write p.writes) p.stage input).bind fun answer =>
      (record P.uniques P.violation (db.write p.writes).rows answer.2).map fun writes =>
        ⟨answer.1, p.writes ++ writes⟩
  effect p := if P.done p.stage then some fun db => db.write p.writes else none
  locks p := P.held p.stage ++ p.writes.flatMap fun write => P.rowLocks write.new
  outside db input := some { db with now := db.now + P.elapsed input }
  locks_idle := by rw [P.held_idle]; rfl

variable {P} {db : Database key} {p q : Point ρ Stage} {input : ι} {f : Database key → Database key}

theorem statement_ok (h : P.protocol.statement db p input = .ok q) :
    ∃ changes writes, P.statement (db.write p.writes) p.stage input = .ok (q.stage, changes) ∧
      record P.uniques P.violation (putAll db.rows p.writes) changes = .ok writes ∧
      q = ⟨q.stage, p.writes ++ writes⟩ := by
  obtain ⟨⟨stage, changes⟩, hran, h⟩ := Outcome.bind_ok.mp h
  obtain ⟨writes, hwrites, rfl⟩ := Outcome.map_ok.mp h
  exact ⟨changes, writes, hran, hwrites, rfl⟩

theorem effect_some (h : P.protocol.effect p = some f) :
    P.done p.stage = true ∧ f = fun db => db.write p.writes := by
  obtain ⟨hdone, h⟩ := Option.ite_none_right_eq_some.mp h
  exact ⟨hdone, (Option.some.inj h).symm⟩

variable (P) in
/-- The rows of a transaction are where it found them, and so they stay. -/
structure Fitting (db : Database key) (p : Point ρ Stage) : Prop where
  fits : Fits db.rows p.writes
  admits : AdmitsAll P.uniques db.rows p.writes

theorem mem_locks_row {write : Write ρ} (h : write ∈ p.writes) :
    (.row (key write.new), .exclusive) ∈ P.protocol.locks p :=
  List.mem_append_right _ (List.mem_flatMap.mpr ⟨write, h, List.mem_cons_self⟩)

theorem mem_locks_unique {write : Write ρ} (h : write ∈ p.writes) {entry : υ}
    (hentry : entry ∈ P.uniques write.new) : (.unique entry, .exclusive) ∈ P.protocol.locks p :=
  List.mem_append_right _ (List.mem_flatMap.mpr
    ⟨write, h, List.mem_cons_of_mem _ (List.mem_map_of_mem hentry)⟩)

/-- Two transactions write different rows. -/
theorem apart_of_compatible (h : P.protocol.Compatible p q) {write other : Write ρ}
    (hwrite : write ∈ p.writes) (hother : other ∈ q.writes) : key other.new ≠ key write.new := by
  intro hsame
  have hlock := mem_locks_row (P := P) hother
  rw [hsame] at hlock
  exact h.not_both (mem_locks_row hwrite) hlock

/-- A row that a transaction has locked is left alone by the others. -/
theorem lookup_held (h : P.protocol.Compatible p q) {k : κ}
    (held : (.row k, .exclusive) ∈ P.held p.stage) :
    (db.write q.writes).rows.lookup k = db.rows.lookup k := by
  refine lookup_putAll_of_not_mem fun write hwrite hsame => ?_
  have hlock := mem_locks_row (P := P) hwrite
  rw [hsame] at hlock
  exact h.not_both (List.mem_append_left _ held) hlock

/-- What a transaction sees under a key that it has locked, it still sees once another has
committed. -/
theorem lookup_view (h : P.protocol.Compatible p q) {k : κ}
    (locked : (.row k, .exclusive) ∈ P.protocol.locks p) :
    ((db.write q.writes).write p.writes).rows.lookup k = (db.write p.writes).rows.lookup k := by
  refine lookup_putAll_congr (lookup_putAll_of_not_mem fun write hwrite hsame => ?_)
  have hlock := mem_locks_row (P := P) hwrite
  rw [hsame] at hlock
  exact h.not_both locked hlock

/-- What a transaction sees once another has committed, it saw before or the other wrote. -/
theorem mem_view (h : P.protocol.Compatible p q) {r : ρ}
    (hr : r ∈ ((db.write q.writes).write p.writes).rows) :
    r ∈ (db.write p.writes).rows ∨ (∃ write ∈ q.writes, write.new = r) ∧
      r ∈ (db.write q.writes).rows ∧ ∀ own ∈ p.writes, key own.new ≠ key r := by
  by_cases hown : ∃ own ∈ p.writes, key own.new = key r
  · obtain ⟨own, hown, hkey⟩ := hown
    have hlock := mem_locks_row (P := P) hown
    rw [hkey] at hlock
    rw [Table.mem_iff_lookup, lookup_view h hlock, ← Table.mem_iff_lookup] at hr
    exact .inl hr
  · have hown : ∀ own ∈ p.writes, key own.new ≠ key r := fun own hmem hkey => hown ⟨own, hmem, hkey⟩
    have hcommitted : r ∈ (db.write q.writes).rows := (mem_putAll_of_not_mem hown).mp hr
    rcases mem_of_mem_putAll hcommitted with hr | hwrite
    · exact .inl ((mem_putAll_of_not_mem hown).mpr hr)
    · exact .inr ⟨hwrite, hcommitted, hown⟩

theorem Fitting.write (h : P.Fitting db p) (apart : P.protocol.Compatible p q) :
    P.Fitting (db.write q.writes) p where
  fits := h.fits.putAll fun _ hwrite _ hother => apart_of_compatible apart hwrite hother
  admits := by
    refine h.admits.of_mem fun r hr => (mem_of_mem_putAll hr).imp_right ?_
    rintro ⟨other, hother, rfl⟩ write hwrite -
    intro entry hentry hshared
    exact apart.not_both (mem_locks_unique hwrite hshared) (mem_locks_unique hother hentry)

theorem writes_maintains {ok : State W (Database key) (Point ρ Stage) → Action W ι → Prop} :
    P.protocol.Maintains ok (fun db => Distinct P.uniques db.rows) P.Fitting := by
  constructor
  case idle => exact fun db _ => ⟨trivial, trivial⟩
  case statement =>
    intro s w input q sound _ ran
    obtain ⟨changes, writes, -, hrecord, hq⟩ := statement_ok ran
    obtain ⟨hfits, hadmits⟩ := record_fits hrecord
    have hw := sound.relies w
    rw [hq]
    exact ⟨fits_append.mpr ⟨hw.fits, hfits⟩, hw.admits.append hadmits⟩
  case commit =>
    intro s w f sound _ done
    obtain ⟨-, rfl⟩ := effect_some done
    exact Distinct.putAll sound.committed (sound.relies w).admits
  case stable =>
    intro s w v f sound _ hne done
    obtain ⟨-, rfl⟩ := effect_some done
    exact (sound.relies v).write (sound.compatible v w hne)
  case outside =>
    intro s input db sound moved
    cases moved
    exact ⟨sound.committed, fun w => ⟨(sound.relies w).fits, (sound.relies w).admits⟩⟩

/-- What every written row has, as long as the rows that its statement sees have it. -/
theorem rows_maintain {ok : State W (Database key) (Point ρ Stage) → Action W ι → Prop}
    {G : ρ → Prop} (writes : ∀ (view : Database key) stage input next changes,
      (∀ row ∈ view.rows, G row) → P.statement view stage input = .ok (next, changes) →
        ∀ change ∈ changes, G change.row) :
    P.protocol.Maintains ok (fun db => ∀ row ∈ db.rows, G row)
      (fun _ p => ∀ write ∈ p.writes, G write.new) := by
  have view : ∀ {db : Database key} {p : Point ρ Stage}, (∀ row ∈ db.rows, G row) →
      (∀ write ∈ p.writes, G write.new) → ∀ row ∈ (db.write p.writes).rows, G row := by
    intro db p hrows hwrites row hrow
    rcases mem_of_mem_putAll hrow with hrow | ⟨write, hwrite, rfl⟩
    · exact hrows row hrow
    · exact hwrites write hwrite
  constructor
  case idle =>
    intro db _ write hwrite
    cases hwrite
  case statement =>
    intro s w input q sound _ ran write hwrite
    obtain ⟨changes, new, hran, hrecord, hq⟩ := statement_ok ran
    rw [hq] at hwrite
    rcases List.mem_append.mp hwrite with hwrite | hwrite
    · exact sound.relies w write hwrite
    · obtain ⟨change, hchange, hrow, -⟩ := record_rows hrecord write hwrite
      exact hrow ▸ writes _ _ _ _ _ (view sound.committed (sound.relies w)) hran change hchange
  case commit =>
    intro s w f sound _ done
    obtain ⟨-, rfl⟩ := effect_some done
    exact view sound.committed (sound.relies w)
  case stable =>
    intro s w v f sound _ _ _
    exact sound.relies v
  case outside =>
    intro s input db sound moved
    cases moved
    exact ⟨sound.committed, sound.relies⟩

/-- What the writes of every statement have, those of a transaction have together. -/
theorem writes_maintain {ok : State W (Database key) (Point ρ Stage) → Action W ι → Prop}
    {G : List (Write ρ) → Prop} (nil : G [])
    (append : ∀ first more, G first → G more → G (first ++ more))
    (statement : ∀ (s : State W (Database key) (Point ρ Stage)) w input next changes writes,
      ok s (.statement w input) →
      P.statement (s.committed.write (s.point w).writes) (s.point w).stage input =
        .ok (next, changes) →
      record P.uniques P.violation (putAll s.committed.rows (s.point w).writes) changes = .ok writes →
      G writes) :
    P.protocol.Maintains ok (fun _ => True) (fun _ p => G p.writes) := by
  constructor
  case idle => exact fun _ _ => nil
  case statement =>
    intro s w input q sound allowed ran
    obtain ⟨changes, writes, hran, hrecord, hq⟩ := statement_ok ran
    rw [hq]
    exact append _ _ (sound.relies w) (statement s w input _ _ _ allowed hran hrecord)
  case commit => exact fun _ _ _ _ _ _ => trivial
  case stable => exact fun s w v f sound _ _ _ => sound.relies v
  case outside => exact fun s input db sound _ => ⟨trivial, sound.relies⟩

/-- What becomes of a row along a run, when the writes of every transaction lead there. -/
theorem rows_follow [DecidableEq W] {ok : State W (Database key) (Point ρ Stage) → Action W ι → Prop}
    {Inv : Database key → Prop} {Relies : Database key → Point ρ Stage → Prop} {R : ρ → ρ → Prop}
    {start : Database key → Prop} {s t : State W (Database key) (Point ρ Stage)}
    {labels : List (Action W ι)} (rule : P.protocol.Maintains ok Inv Relies)
    (run : ((P.protocol.system start).restrict ok).Run s labels t)
    (sound : P.protocol.Sound Inv Relies s) (refl : ∀ r, R r r)
    (trans : ∀ a b c, R a b → R b c → R a c)
    (leads : ∀ db p, Relies db p → Fits db.rows p.writes ∧
      ∀ write ∈ p.writes, ∀ old ∈ write.old, R old write.new) :
    ∀ row ∈ s.committed.rows, ∃ later ∈ t.committed.rows, key later = key row ∧ R row later := by
  refine rule.relates (R := fun db db' => ∀ row ∈ db.rows, ∃ later ∈ db'.rows,
    key later = key row ∧ R row later) run sound (fun db row hrow => ⟨row, hrow, rfl, refl row⟩) ?_ ?_ ?_
  · intro a b c hab hbc row hrow
    obtain ⟨between, hbetween, hkey, hR⟩ := hab row hrow
    obtain ⟨later, hlater, hkey', hR'⟩ := hbc between hbetween
    exact ⟨later, hlater, hkey'.trans hkey, trans _ _ _ hR hR'⟩
  · intro u w f hu _ done row hrow
    obtain ⟨-, rfl⟩ := effect_some done
    obtain ⟨hfits, hleads⟩ := leads _ _ (hu.relies w)
    exact hfits.exists_after refl trans hleads hrow
  · intro u input db hu moved row hrow
    cases moved
    exact ⟨row, hrow, rfl, refl row⟩

end Program

end Program

end WriteSet

end MpcRegistry.Library
