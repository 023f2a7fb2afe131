import MpcRegistry.Library.LockedFacts

/-!
# References between rows

A row needs other rows, with what never changes of them. Rows are not lost, so that what a
transaction has found it finds again, and it need not lock it.
-/
namespace MpcRegistry.Library.WriteSet
open ReadCommitted

variable {ρ κ υ ε ι δ Stage W : Type} {key : ρ → κ} [DecidableEq κ] [DecidableEq υ]

/-- What rows need of others, and what a stage goes on with. -/
structure References (P : Program key Stage ι ε υ) (δ : Type) where
  needs : ρ → δ → Prop
  wants : Stage → δ → Prop
  meets : ρ → δ → Prop
  leads : ρ → ρ → Prop
  leads_refl : ∀ r, leads r r
  leads_trans : ∀ a b c, leads a b → leads b c → leads a c
  meets_leads : ∀ {r s : ρ} {d : δ}, meets r d → leads r s → meets s d
  wants_idle : ∀ d, ¬ wants P.idle d

namespace References

variable {P : Program key Stage ι ε υ} (R : References P δ)

def Met (t : Table key) (d : δ) : Prop := ∃ s ∈ t, R.meets s d

def Complete (t : Table key) : Prop := ∀ r ∈ t, ∀ d, R.needs r d → R.Met t d

structure Kept (t : Table key) (p : Point ρ Stage) : Prop where
  follows : Follow R.leads p.writes
  complete : R.Complete (putAll t p.writes)
  wanted : ∀ d, R.wants p.stage d → R.Met (putAll t p.writes) d

variable {R} {t u : Table key} {p q : Point ρ Stage} {d : δ} {next : Stage} {new : List (Write ρ)}

omit [DecidableEq κ] [DecidableEq υ] in
theorem Met.grows (h : R.Met t d) (grows : Grows R.leads t u) : R.Met u d := by
  obtain ⟨s, hs, hmeets⟩ := h
  obtain ⟨s', hs', -, hleads⟩ := grows s hs
  exact ⟨s', hs', R.meets_leads hmeets hleads⟩

theorem Kept.stable (hp : R.Kept t p) (hq : R.Kept t q) (hfits : Fits t p.writes)
    (hfits' : Fits t q.writes) (apart : P.protocol.Compatible p q) :
    R.Kept (putAll t q.writes) p := by
  have hview : Grows R.leads (putAll t p.writes) (putAll (putAll t q.writes) p.writes) :=
    grows_view R.leads_refl R.leads_trans apart hfits' hq.follows
  have hcommitted : Grows R.leads (putAll t q.writes) (putAll (putAll t q.writes) p.writes) :=
    grows_committed R.leads_refl R.leads_trans apart hfits hp.follows
  refine ⟨hp.follows, fun r hr d hd => ?_, fun d hd => (hp.wanted d hd).grows hview⟩
  rcases mem_view_cases apart hr with hr | ⟨-, hr, -⟩
  · exact (hp.complete r hr d hd).grows hview
  · exact (hq.complete r hr d hd).grows hcommitted

omit [DecidableEq υ] in
/-- What a statement is to show: what its rows need, and what it goes on with, is there. -/
theorem Kept.statement (h : R.Kept t p) (hfits : Fits (putAll t p.writes) new)
    (follows : Follow R.leads new)
    (needed : ∀ write ∈ new, ∀ d, R.needs write.new d → R.Met (putAll (putAll t p.writes) new) d)
    (wanted : ∀ d, R.wants next d → R.Met (putAll (putAll t p.writes) new) d) :
    R.Kept t ⟨next, p.writes ++ new⟩ := by
  refine ⟨h.follows.append follows, ?_, ?_⟩
  · rw [putAll_append]
    intro r hr d hd
    rcases mem_of_mem_putAll hr with hr | ⟨write, hwrite, rfl⟩
    · exact (h.complete r hr d hd).grows (grows_putAll R.leads_refl R.leads_trans hfits follows)
    · exact needed write hwrite d hd
  · rw [putAll_append]
    exact wanted

theorem maintains {ok : State W (Database key) (Point ρ Stage) → Action W ι → Prop}
    (fits : ∀ s a, ok s a → ∀ w, Fits s.committed.rows (s.point w).writes)
    (statement : ∀ (s : State W (Database key) (Point ρ Stage)) w input next changes writes,
      R.Kept s.committed.rows (s.point w) → ok s (.statement w input) →
      P.statement (s.committed.write (s.point w).writes) (s.point w).stage input =
        .ok (next, changes) →
      record P.uniques P.violation (putAll s.committed.rows (s.point w).writes) changes =
        .ok writes →
      R.Kept s.committed.rows ⟨next, (s.point w).writes ++ writes⟩) :
    P.protocol.Maintains ok (fun db => R.Complete db.rows) (fun db p => R.Kept db.rows p) := by
  constructor
  case idle =>
    intro db complete
    refine ⟨?_, complete, fun d hd => absurd hd (R.wants_idle d)⟩
    intro write hwrite
    cases hwrite
  case statement =>
    intro s w input q sound allowed ran
    obtain ⟨changes, writes, hran, hrecord, hq⟩ := Program.statement_ok ran
    rw [hq]
    exact statement s w input q.stage changes writes (sound.relies w) allowed hran hrecord
  case commit =>
    intro s w f sound _ done
    obtain ⟨-, rfl⟩ := Program.effect_some done
    exact (sound.relies w).complete
  case stable =>
    intro s w v f sound allowed hne done
    obtain ⟨-, rfl⟩ := Program.effect_some done
    exact (sound.relies v).stable (sound.relies w) (fits s _ allowed v) (fits s _ allowed w)
      (sound.compatible v w hne)
  case outside =>
    intro s input db sound moved
    cases moved
    exact ⟨sound.committed, sound.relies⟩

end References

end MpcRegistry.Library.WriteSet
