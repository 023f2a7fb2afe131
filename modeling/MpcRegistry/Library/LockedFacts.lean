import MpcRegistry.Library.WriteSet

/-!
# Facts of rows under locks

A row states facts, and facts of two rows agree or not. Facts that disagree are guarded by
locks that are in each other's way, and a transaction that comes to state a fact holds the lock
that guards it. So what a transaction has found to agree with its own rows, and with those it is
about to write, still does once another has committed.
-/
namespace MpcRegistry.Library.WriteSet
open ReadCommitted

section Facts

variable {ρ κ υ ε ι γ Stage W : Type} {key : ρ → κ} [DecidableEq κ] [DecidableEq υ]

/-! ## What a transaction still sees -/

/-- Every row is still there, or one that it leads to. -/
def Grows (leads : ρ → ρ → Prop) (t u : Table key) : Prop :=
  ∀ r ∈ t, ∃ s ∈ u, key s = key r ∧ leads r s

/-- The rows are written over rows that lead to them. -/
def Follow (leads : ρ → ρ → Prop) (writes : List (Write ρ)) : Prop :=
  ∀ write ∈ writes, ∀ old ∈ write.old, leads old write.new

section Views

variable {P : Program key Stage ι ε υ} {t : Table key} {p q : Point ρ Stage}
  {writes more : List (Write ρ)} {r : ρ} {leads : ρ → ρ → Prop}

omit [DecidableEq κ] [DecidableEq υ] in
theorem Follow.append (h : Follow leads writes) (hmore : Follow leads more) :
    Follow leads (writes ++ more) := by
  intro write hwrite
  rcases List.mem_append.mp hwrite with hwrite | hwrite
  · exact h write hwrite
  · exact hmore write hwrite

omit [DecidableEq υ] in
theorem grows_putAll (refl : ∀ r, leads r r) (trans : ∀ a b c, leads a b → leads b c → leads a c)
    (h : Fits t writes) (follows : Follow leads writes) : Grows leads t (putAll t writes) :=
  fun _ hr => h.exists_after refl trans follows hr

/-- Where a transaction has locked a row, it sees what it saw. -/
theorem mem_view_locked (apart : P.protocol.Compatible p q)
    (locked : (.row (key r), .exclusive) ∈ P.protocol.locks p) :
    r ∈ putAll (putAll t q.writes) p.writes ↔ r ∈ putAll t p.writes := by
  have hview : (((⟨t, 0⟩ : Database key).write q.writes).write p.writes).rows.lookup (key r) =
      ((⟨t, 0⟩ : Database key).write p.writes).rows.lookup (key r) := Program.lookup_view apart locked
  rw [Table.mem_iff_lookup, Table.mem_iff_lookup]
  exact Eq.congr_left hview

/-- What a transaction sees once another has committed, it saw before or the other wrote. -/
theorem mem_view_cases (apart : P.protocol.Compatible p q)
    (hr : r ∈ putAll (putAll t q.writes) p.writes) :
    r ∈ putAll t p.writes ∨ (∃ write ∈ q.writes, write.new = r) ∧ r ∈ putAll t q.writes ∧
      ∀ own ∈ p.writes, key own.new ≠ key r := by
  have hview : r ∈ (((⟨t, 0⟩ : Database key).write q.writes).write p.writes).rows := hr
  exact Program.mem_view apart hview

theorem mem_view_own (apart : P.protocol.Compatible p q)
    (own : ∃ write ∈ p.writes, key write.new = key r) :
    r ∈ putAll (putAll t q.writes) p.writes ↔ r ∈ putAll t p.writes := by
  obtain ⟨own, hown, hkey⟩ := own
  exact mem_view_locked apart (hkey ▸ Program.mem_locks_row hown)

/-- Under every key, a transaction sees what it saw or what has been committed. -/
theorem grows_view (refl : ∀ r, leads r r) (trans : ∀ a b c, leads a b → leads b c → leads a c)
    (apart : P.protocol.Compatible p q) (hfits : Fits t q.writes) (follows : Follow leads q.writes) :
    Grows leads (putAll t p.writes) (putAll (putAll t q.writes) p.writes) := by
  intro r hr
  by_cases hown : ∃ write ∈ p.writes, key write.new = key r
  · exact ⟨r, (mem_view_own apart hown).mpr hr, rfl, refl r⟩
  · have hnot : ∀ write ∈ p.writes, key write.new ≠ key r := fun w hw hkey => hown ⟨w, hw, hkey⟩
    obtain ⟨s, hs, hkey, hleads⟩ :=
      grows_putAll refl trans hfits follows r ((mem_putAll_of_not_mem hnot).mp hr)
    exact ⟨s, (mem_putAll_of_not_mem (hkey ▸ hnot)).mpr hs, hkey, hleads⟩

/-- What another has committed, under the transaction's own writes. -/
theorem grows_committed (refl : ∀ r, leads r r)
    (trans : ∀ a b c, leads a b → leads b c → leads a c) (apart : P.protocol.Compatible p q)
    (hfits : Fits t p.writes) (follows : Follow leads p.writes) :
    Grows leads (putAll t q.writes) (putAll (putAll t q.writes) p.writes) :=
  grows_putAll refl trans (hfits.putAll fun _ hwrite _ hother =>
    Program.apart_of_compatible apart hwrite hother) follows

end Views

/-! ## Facts -/

/-- What the rows of a program state. A transaction `intends` the facts that it is about to
state of a row, and `excuses` the disagreements that it has yet to end. -/
structure Facts (P : Program key Stage ι ε υ) (γ : Type) where
  states : ρ → γ → Prop
  agree : Table key → γ → γ → Prop
  guard : γ → Lock κ υ × LockMode
  intends : Point ρ Stage → κ → γ → Prop
  excuses : Stage → γ → γ → Prop
  leads : ρ → ρ → Prop
  leads_refl : ∀ r, leads r r
  leads_trans : ∀ a b c, leads a b → leads b c → leads a c
  agree_grows : ∀ {t u : Table key} {c d : γ}, Grows leads t u → agree t c d → agree u c d
  guarded : ∀ {t : Table key} {c d : γ}, ¬ agree t c d → (guard c).1 = (guard d).1 ∧
    ((guard c).2 = .exclusive ∨ (guard d).2 = .exclusive)
  excuses_done : ∀ {stage : Stage} {c d : γ}, P.done stage = true → ¬ excuses stage c d

namespace Facts

variable {P : Program key Stage ι ε υ} (F : Facts P γ)

/-- The transaction holds the lock of the fact, or a stronger one. -/
def Locked (p : Point ρ Stage) (c : γ) : Prop :=
  ∃ mode, ((F.guard c).1, mode) ∈ P.protocol.locks p ∧
    ((F.guard c).2 = .exclusive → mode = .exclusive)

/-- A fact of a row agrees with those of the others. -/
def Clear (t : Table key) (k : κ) (c : γ) : Prop :=
  ∀ r ∈ t, key r ≠ k → ∀ d, F.states r d → F.agree t c d ∧ F.agree t d c

def Consistent (t : Table key) : Prop :=
  ∀ r ∈ t, ∀ s ∈ t, key r ≠ key s → ∀ c d, F.states r c → F.states s d → F.agree t c d

/-- What a transaction sees, over the committed rows. -/
structure Kept (t : Table key) (p : Point ρ Stage) : Prop where
  follows : Follow F.leads p.writes
  gains : ∀ r ∈ putAll t p.writes, ∀ c, F.states r c →
    (∃ s ∈ t, key s = key r ∧ F.states s c) ∨ F.Locked p c
  agrees : ∀ r ∈ putAll t p.writes, ∀ s ∈ putAll t p.writes, key r ≠ key s →
    ∀ c d, F.states r c → F.states s d → F.agree (putAll t p.writes) c d ∨ F.excuses p.stage c d
  ready : ∀ k c, F.intends p k c → F.Locked p c ∧ F.Clear (putAll t p.writes) k c

variable {F} {t u : Table key} {p q : Point ρ Stage} {writes : List (Write ρ)} {r s : ρ} {c d : γ}
  {k : κ}

/-- Two transactions do not both hold the locks of facts that disagree. -/
theorem agree_of_locked (h : P.protocol.Compatible p q) (hp : F.Locked p c) (hq : F.Locked q d) :
    F.agree t c d := by
  by_contra hdisagree
  obtain ⟨hsame, hmode⟩ := F.guarded hdisagree
  obtain ⟨m, hm, hm'⟩ := hp
  obtain ⟨n, hn, hn'⟩ := hq
  rw [hsame] at hm
  obtain ⟨rfl, rfl⟩ := h _ _ _ hm hn
  rcases hmode with hmode | hmode
  · cases hm' hmode
  · cases hn' hmode

theorem Locked.of_subset (h : F.Locked p c)
    (locks : ∀ lock ∈ P.protocol.locks p, lock ∈ P.protocol.locks q) : F.Locked q c := by
  obtain ⟨mode, hmode, hstrong⟩ := h
  exact ⟨mode, locks _ hmode, hstrong⟩

/-! ## Once another transaction has committed -/

section Stable

theorem not_own_of_other (apart : P.protocol.Compatible p q)
    (own : ∃ write ∈ p.writes, key write.new = k) : ∀ other ∈ q.writes, key other.new ≠ k := by
  obtain ⟨own, hown, rfl⟩ := own
  exact fun other hother => Program.apart_of_compatible apart hown hother

/-- What a row states once another has committed, a row under its key stated before, unless
the other holds the lock of the fact; the row is one the other left. -/
theorem states_before (hq : F.Kept t q) (apart : P.protocol.Compatible p q)
    (hr : r ∈ putAll (putAll t q.writes) p.writes) (hc : F.states r c) :
    (∃ s ∈ putAll t p.writes, key s = key r ∧ F.states s c) ∨
      F.Locked q c ∧ r ∈ putAll t q.writes ∧ ∀ own ∈ p.writes, key own.new ≠ key r := by
  rcases mem_view_cases apart hr with hr | ⟨-, hr, hown⟩
  · exact .inl ⟨r, hr, rfl, hc⟩
  · rcases hq.gains r hr c hc with ⟨s, hs, hkey, hsc⟩ | hlocked
    · exact .inl ⟨s, (mem_putAll_of_not_mem (hkey ▸ hown)).mpr hs, hkey, hsc⟩
    · exact .inr ⟨hlocked, hr, hown⟩

/-- A row that another leaves, against one that the transaction sees of its own. -/
theorem agree_other (hp : F.Kept t p) (hq : F.Consistent (putAll t q.writes))
    (apart : P.protocol.Compatible p q) (hlocked : F.Locked q d) (hs : s ∈ putAll t q.writes)
    (hd : F.states s d) (hr : r ∈ putAll t p.writes) (hown : ∃ write ∈ p.writes, key write.new = key r)
    (hother : key r ≠ key s) (hc : F.states r c) :
    F.agree (putAll t q.writes) c d ∧ F.agree (putAll t q.writes) d c := by
  rcases hp.gains r hr c hc with ⟨r', hr', hkey, hc'⟩ | hlocked'
  · have hnot := not_own_of_other apart hown
    rw [← hkey] at hnot hother
    have hleft := (mem_putAll_of_not_mem hnot).mpr hr'
    exact ⟨hq r' hleft s hs hother c d hc' hd, hq s hs r' hleft hother.symm d c hd hc'⟩
  · exact ⟨agree_of_locked apart hlocked' hlocked, agree_of_locked apart.symm hlocked hlocked'⟩

theorem Kept.consistent (h : F.Kept t p) (hdone : P.done p.stage = true) :
    F.Consistent (putAll t p.writes) :=
  fun r hr s hs hother c d hc hd =>
    (h.agrees r hr s hs hother c d hc hd).resolve_right (F.excuses_done hdone)

/-- What a transaction keeps, it keeps when another commits. -/
theorem Kept.stable (hp : F.Kept t p) (hq : F.Kept t q) (hfits : Fits t p.writes)
    (hfits' : Fits t q.writes) (apart : P.protocol.Compatible p q)
    (hdone : P.done q.stage = true) : F.Kept (putAll t q.writes) p := by
  have hview : Grows F.leads (putAll t p.writes) (putAll (putAll t q.writes) p.writes) :=
    grows_view F.leads_refl F.leads_trans apart hfits' hq.follows
  have hcommitted : Grows F.leads (putAll t q.writes) (putAll (putAll t q.writes) p.writes) :=
    grows_committed F.leads_refl F.leads_trans apart hfits hp.follows
  refine ⟨hp.follows, ?_, ?_, ?_⟩
  case refine_1 =>
    intro r hr c hc
    by_cases hown : ∃ write ∈ p.writes, key write.new = key r
    · refine (hp.gains r ((mem_view_own apart hown).mp hr) c hc).imp_left ?_
      rintro ⟨s, hs, hkey, hsc⟩
      refine ⟨s, (mem_putAll_of_not_mem ?_).mpr hs, hkey, hsc⟩
      rw [hkey]
      exact not_own_of_other apart hown
    · have hnot : ∀ write ∈ p.writes, key write.new ≠ key r := fun w hw hkey => hown ⟨w, hw, hkey⟩
      exact .inl ⟨r, (mem_putAll_of_not_mem hnot).mp hr, rfl, hc⟩
  case refine_2 =>
    intro r hr s hs hother c d hc hd
    have hleft := hq.consistent hdone
    -- a row that the transaction has not written is as the other left it
    have hnot : ∀ x, x ∈ putAll (putAll t q.writes) p.writes →
        (¬ ∃ write ∈ p.writes, key write.new = key x) → x ∈ putAll t q.writes := fun x hx hown =>
      (mem_putAll_of_not_mem fun w hw hkey => hown ⟨w, hw, hkey⟩).mp hx
    rcases states_before hq apart hr hc with ⟨r', hr', hkr, hc'⟩ | ⟨hlocked, hrq, -⟩
    · rcases states_before hq apart hs hd with ⟨s', hs', hks, hd'⟩ | ⟨hlocked, hsq, -⟩
      · exact (hp.agrees r' hr' s' hs' (hkr ▸ hks ▸ hother) c d hc' hd').imp_left
          (F.agree_grows hview)
      · refine .inl (F.agree_grows hcommitted ?_)
        by_cases hown : ∃ write ∈ p.writes, key write.new = key r
        · exact (agree_other hp hleft apart hlocked hsq hd ((mem_view_own apart hown).mp hr) hown
            hother hc).1
        · exact hleft r (hnot r hr hown) s hsq hother c d hc hd
    · refine .inl (F.agree_grows hcommitted ?_)
      by_cases hown : ∃ write ∈ p.writes, key write.new = key s
      · exact (agree_other hp hleft apart hlocked hrq hc ((mem_view_own apart hown).mp hs) hown
          hother.symm hd).2
      · exact hleft r hrq s (hnot s hs hown) hother c d hc hd
  case refine_3 =>
    intro k c hc
    obtain ⟨hlocked, hclear⟩ := hp.ready k c hc
    refine ⟨hlocked, fun r hr hother d hd => ?_⟩
    rcases states_before hq apart hr hd with ⟨r', hr', hkr, hd'⟩ | ⟨hlocked', -, -⟩
    · have hagree := hclear r' hr' (hkr ▸ hother) d hd'
      exact ⟨F.agree_grows hview hagree.1, F.agree_grows hview hagree.2⟩
    · exact ⟨agree_of_locked apart hlocked hlocked', agree_of_locked apart.symm hlocked' hlocked⟩

end Stable

/-! ## What a statement is to show -/

section Statement

variable {view : Table key} {next : Stage} {new : List (Write ρ)}

/-- A row comes to state a fact with a write. -/
def Fresh (F : Facts P γ) (new : List (Write ρ)) (k : κ) (c : γ) : Prop :=
  ∃ write ∈ new, key write.new = k ∧ F.states write.new c ∧ ¬ ∃ old ∈ write.old, F.states old c

omit [DecidableEq υ] in
theorem states_putAll (hfits : Fits view new) (hr : r ∈ putAll view new) (hc : F.states r c) :
    (∃ s ∈ view, key s = key r ∧ F.states s c) ∨ F.Fresh new (key r) c := by
  induction new generalizing view with
  | nil => exact .inl ⟨r, hr, rfl, hc⟩
  | cons write rest ih =>
    rcases ih hfits.2 hr with ⟨s, hs, hkey, hsc⟩ | ⟨other, hother, hfresh⟩
    · rcases Table.mem_put.mp hs with rfl | ⟨hs, -⟩
      · by_cases hold : ∃ old ∈ write.old, F.states old c
        · obtain ⟨old, hold, holdc⟩ := hold
          obtain ⟨hmem, hkeyold⟩ := Table.lookup_eq_some.mp (hfits.1.trans hold)
          exact .inl ⟨old, hmem, hkeyold.trans hkey, holdc⟩
        · exact .inr ⟨write, List.mem_cons_self, hkey, hsc, hold⟩
      · exact .inl ⟨s, hs, hkey, hsc⟩
    · exact .inr ⟨other, List.mem_cons_of_mem _ hother, hfresh⟩

/-- A statement that writes. -/
theorem Kept.statement (h : F.Kept t p) (hfits : Fits (putAll t p.writes) new)
    (follows : Follow F.leads new)
    (hlocks : ∀ lock ∈ P.protocol.locks p, lock ∈ P.protocol.locks ⟨next, p.writes ++ new⟩)
    (locked : ∀ k c, F.Fresh new k c → F.Locked ⟨next, p.writes ++ new⟩ c)
    (agrees : ∀ k c, F.Fresh new k c → ∀ s ∈ putAll (putAll t p.writes) new, key s ≠ k →
      ∀ d, F.states s d →
        (F.agree (putAll (putAll t p.writes) new) c d ∨ F.excuses next c d) ∧
        (F.agree (putAll (putAll t p.writes) new) d c ∨ F.excuses next d c))
    (excused : ∀ r ∈ putAll (putAll t p.writes) new, ∀ s ∈ putAll (putAll t p.writes) new,
      key r ≠ key s → ∀ c d, F.states r c → F.states s d → F.excuses p.stage c d →
        F.agree (putAll (putAll t p.writes) new) c d ∨ F.excuses next c d)
    (ready : ∀ k c, F.intends ⟨next, p.writes ++ new⟩ k c →
      F.Locked ⟨next, p.writes ++ new⟩ c ∧ F.Clear (putAll (putAll t p.writes) new) k c) :
    F.Kept t ⟨next, p.writes ++ new⟩ := by
  have hgrows := grows_putAll F.leads_refl F.leads_trans hfits follows
  constructor
  case follows => exact h.follows.append follows
  case gains =>
    rw [putAll_append]
    intro r hr c hc
    rcases states_putAll hfits hr hc with ⟨s, hs, hkey, hsc⟩ | hgained
    · rw [← hkey]
      exact (h.gains s hs c hsc).imp_right fun hlocked => hlocked.of_subset hlocks
    · exact .inr (locked _ _ hgained)
  case agrees =>
    rw [putAll_append]
    intro r hr s hs hother c d hc hd
    rcases states_putAll hfits hr hc with ⟨r', hr', hkr, hc'⟩ | hgained
    · rcases states_putAll hfits hs hd with ⟨s', hs', hks, hd'⟩ | hgained
      · rcases h.agrees r' hr' s' hs' (hkr ▸ hks ▸ hother) c d hc' hd' with hagree | hexcused
        · exact .inl (F.agree_grows hgrows hagree)
        · exact excused r hr s hs hother c d hc hd hexcused
      · exact (agrees _ _ hgained r hr hother c hc).2
    · exact (agrees _ _ hgained s hs hother.symm d hd).1
  case ready =>
    rw [putAll_append]
    exact ready

end Statement

/-- The rule: an idle worker intends nothing, and every statement keeps what it is to show. -/
theorem maintains {ok : State W (Database key) (Point ρ Stage) → Action W ι → Prop}
    (idle : ∀ k c, ¬ F.intends ⟨P.idle, []⟩ k c)
    (fits : ∀ s a, ok s a → ∀ w, Fits s.committed.rows (s.point w).writes)
    (statement : ∀ (s : State W (Database key) (Point ρ Stage)) w input next changes writes,
      F.Kept s.committed.rows (s.point w) → ok s (.statement w input) →
      P.statement (s.committed.write (s.point w).writes) (s.point w).stage input =
        .ok (next, changes) →
      record P.uniques P.violation (putAll s.committed.rows (s.point w).writes) changes =
        .ok writes →
      F.Kept s.committed.rows ⟨next, (s.point w).writes ++ writes⟩) :
    P.protocol.Maintains ok (fun db => F.Consistent db.rows) (fun db p => F.Kept db.rows p) := by
  constructor
  case idle =>
    intro db consistent
    refine ⟨?_, fun r hr c hc => .inl ⟨r, hr, rfl, hc⟩, ?_, ?_⟩
    · intro write hwrite
      cases hwrite
    · exact fun r hr s hs hother c d hc hd => .inl (consistent r hr s hs hother c d hc hd)
    · exact fun k c hc => absurd hc (idle k c)
  case statement =>
    intro s w input q sound allowed ran
    obtain ⟨changes, writes, hran, hrecord, hq⟩ := Program.statement_ok ran
    rw [hq]
    exact statement s w input q.stage changes writes (sound.relies w) allowed hran hrecord
  case commit =>
    intro s w f sound _ done
    obtain ⟨hdone, rfl⟩ := Program.effect_some done
    exact (sound.relies w).consistent hdone
  case stable =>
    intro s w v f sound allowed hne done
    obtain ⟨hdone, rfl⟩ := Program.effect_some done
    exact (sound.relies v).stable (sound.relies w) (fits s _ allowed v) (fits s _ allowed w)
      (sound.compatible v w hne) hdone
  case outside =>
    intro s input db sound moved
    cases moved
    exact ⟨sound.committed, sound.relies⟩

end Facts

end Facts

end MpcRegistry.Library.WriteSet
