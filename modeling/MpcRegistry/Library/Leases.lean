import Mathlib

/-!
# Leases of one thing

A thing is leased for a time that is noted on it. A lease is taken when none is noted or the one
noted has expired, by a clock that moves on between two leases, and is released by striking out
the note it made. The leases taken are listed from the newest on.
-/
namespace MpcRegistry.Library

/-- A lease, and how it was released if it was. -/
structure Lease (τ ω ρ : Type) where
  owner : ω
  start : τ
  expiry : τ
  released : Option ρ
  deriving DecidableEq, Repr

namespace Lease

variable {τ ω ρ : Type}

/-- The note of the newest lease, unless that was released. -/
def noted (leases : List (Lease τ ω ρ)) : Option τ :=
  leases.head?.bind fun lease => if lease.released.isNone then some lease.expiry else none

/-- The lease taken at `start` is released as `how`. -/
def release [DecidableEq τ] (start : τ) (how : ρ) (leases : List (Lease τ ω ρ)) :
    List (Lease τ ω ρ) :=
  leases.map fun lease => if lease.start = start then { lease with released := some how } else lease

/-- The lease taken at `start` was released, or one was taken after it. -/
def Over [LT τ] (start : τ) (leases : List (Lease τ ω ρ)) : Prop :=
  ∃ lease ∈ leases, start < lease.start ∨ lease.start = start ∧ lease.released ≠ none

variable [LinearOrder τ]

/-- The leases taken up to `clock`, of which each began when those before it were over. -/
structure Sound (clock : τ) (note : Option τ) (leases : List (Lease τ ω ρ)) : Prop where
  note : note = noted leases
  past : ∀ lease ∈ leases, lease.start ≤ clock
  lasting : ∀ lease ∈ leases, lease.start < lease.expiry
  apart : leases.Pairwise fun later earlier => earlier.start < later.start ∧
    (earlier.released = none → earlier.expiry < later.start)

variable {clock now expiry : τ} {note : Option τ} {leases : List (Lease τ ω ρ)}
  {lease other : Lease τ ω ρ}

theorem sound_nil (clock : τ) : Sound clock none ([] : List (Lease τ ω ρ)) :=
  ⟨rfl, by simp, by simp, .nil⟩

theorem Sound.later (h : Sound clock note leases) (hle : clock ≤ now) : Sound now note leases where
  note := h.note
  past lease hlease := (h.past lease hlease).trans hle
  lasting := h.lasting
  apart := h.apart

/-- An unreleased lease that is not noted expired by the time of the newest. -/
theorem Sound.expired_of_ne (h : Sound clock note leases) (hmem : lease ∈ leases)
    (hheld : lease.released = none) : note = some lease.expiry ∨ lease.expiry < clock := by
  cases leases with
  | nil => cases hmem
  | cons newest rest =>
    have hapart := (List.pairwise_cons.mp h.apart).1
    rcases List.mem_cons.mp hmem with rfl | hrest
    · left
      rw [h.note]
      simp [noted, hheld]
    · right
      exact ((hapart lease hrest).2 hheld).trans_le (h.past newest List.mem_cons_self)

theorem Sound.take (h : Sound clock note leases) (owner : ω) (hnow : clock < now)
    (hexpiry : now < expiry) (hfree : ∀ noted, note = some noted → noted < now) :
    Sound now (some expiry) ({ owner, start := now, expiry, released := none } :: leases) where
  note := rfl
  past lease hmem := by
    rcases List.mem_cons.mp hmem with rfl | hmem
    · exact le_rfl
    · exact (h.past lease hmem).trans hnow.le
  lasting lease hmem := by
    rcases List.mem_cons.mp hmem with rfl | hmem
    · exact hexpiry
    · exact h.lasting lease hmem
  apart := by
    refine List.pairwise_cons.mpr ⟨fun lease hmem => ⟨?_, fun hheld => ?_⟩, h.apart⟩
    · exact (h.past lease hmem).trans_lt hnow
    · rcases h.expired_of_ne hmem hheld with hnote | hpast
      · exact hfree _ hnote
      · exact hpast.trans hnow

theorem Sound.eq_of_start (h : Sound clock note leases) (hlease : lease ∈ leases)
    (hother : other ∈ leases) (hstart : lease.start = other.start) : lease = other := by
  have hnodup : (leases.map Lease.start).Nodup := by
    rw [List.Nodup, List.pairwise_map]
    exact h.apart.imp fun hbefore => hbefore.1.ne'
  exact List.inj_on_of_nodup_map hnodup hlease hother hstart

/-- An unreleased lease whose expiry is noted is the newest. -/
theorem Sound.newest_of_note (h : Sound clock note leases) (hmem : lease ∈ leases)
    (hheld : lease.released = none) (hnote : note = some lease.expiry) :
    ∃ rest, leases = lease :: rest := by
  cases leases with
  | nil => cases hmem
  | cons newest rest =>
    rcases List.mem_cons.mp hmem with rfl | hrest
    · exact ⟨rest, rfl⟩
    · have hexpired := (List.rel_of_pairwise_cons h.apart hrest).2 hheld
      have hlasting := h.lasting newest List.mem_cons_self
      have hnewest := h.note
      rw [hnote] at hnewest
      simp only [noted, List.head?_cons, Option.bind_some] at hnewest
      split at hnewest
      · have heq : lease.expiry = newest.expiry := Option.some.inj hnewest
        rw [heq] at hexpired
        exact absurd (hexpired.trans hlasting) (lt_irrefl _)
      · cases hnewest

/-- Whoever holds a lease whose expiry is noted holds the one that counts. -/
theorem Sound.not_over (h : Sound clock note leases) (hmem : lease ∈ leases)
    (hheld : lease.released = none) (hnote : note = some lease.expiry) :
    ¬ Over lease.start leases := by
  intro hover
  obtain ⟨other, hother, hwhy⟩ := hover
  rcases hwhy with hlater | ⟨hstart, hreleased⟩
  · obtain ⟨rest, rfl⟩ := h.newest_of_note hmem hheld hnote
    rcases List.mem_cons.mp hother with rfl | hother
    · exact lt_irrefl _ hlater
    · exact lt_irrefl _ (hlater.trans (List.rel_of_pairwise_cons h.apart hother).1)
  · rw [h.eq_of_start hother hmem hstart] at hreleased
    exact hreleased hheld

theorem Sound.release_eq (h : Sound clock note leases) (hmem : lease ∈ leases)
    (hheld : lease.released = none) (hnote : note = some lease.expiry) (how : ρ) :
    ∃ rest, leases = lease :: rest ∧
      Lease.release lease.start how leases = { lease with released := some how } :: rest := by
  obtain ⟨rest, rfl⟩ := h.newest_of_note hmem hheld hnote
  refine ⟨rest, rfl, ?_⟩
  have hrest : Lease.release lease.start how rest = rest := by
    refine (List.map_congr_left fun other hother => ?_).trans (List.map_id rest)
    rw [if_neg (List.rel_of_pairwise_cons h.apart hother).1.ne]
    rfl
  rw [Lease.release, List.map_cons, if_pos rfl]
  exact congrArg _ hrest

theorem Sound.release (h : Sound clock note leases) (hmem : lease ∈ leases)
    (hheld : lease.released = none) (hnote : note = some lease.expiry) (how : ρ) :
    Sound clock none (release lease.start how leases) := by
  obtain ⟨rest, rfl, hreleased⟩ := h.release_eq hmem hheld hnote how
  rw [hreleased]
  constructor
  · rfl
  · intro other hother
    rcases List.mem_cons.mp hother with rfl | hother
    · exact h.past lease List.mem_cons_self
    · exact h.past other (List.mem_cons_of_mem _ hother)
  · intro other hother
    rcases List.mem_cons.mp hother with rfl | hother
    · exact h.lasting lease List.mem_cons_self
    · exact h.lasting other (List.mem_cons_of_mem _ hother)
  · exact List.pairwise_cons.mpr (List.pairwise_cons.mp h.apart)

/-- At any time from the clock on, at most one lease is neither released nor expired. -/
theorem Sound.unique (h : Sound clock note leases) (hlease : lease ∈ leases)
    (hother : other ∈ leases) (hheld : lease.released = none) (hheld' : other.released = none)
    (hnow : clock ≤ now) (hlasts : now ≤ lease.expiry) (hlasts' : now ≤ other.expiry) :
    lease = other := by
  have hnote : ∀ {one : Lease τ ω ρ}, one ∈ leases → one.released = none → now ≤ one.expiry →
      ∃ rest, leases = one :: rest := by
    intro one hone hopen hlast
    rcases h.expired_of_ne hone hopen with hnote | hpast
    · exact h.newest_of_note hone hopen hnote
    · exact absurd (hpast.trans_le (hnow.trans hlast)) (lt_irrefl _)
  obtain ⟨rest, hhead⟩ := hnote hlease hheld hlasts
  obtain ⟨rest', hhead'⟩ := hnote hother hheld' hlasts'
  exact (List.cons.inj (hhead.symm.trans hhead')).1

theorem mem_release {start : τ} {how : ρ} (hmem : lease ∈ leases) (hne : lease.start ≠ start) :
    lease ∈ release start how leases :=
  List.mem_map.mpr ⟨lease, hmem, if_neg hne⟩

end Lease

end MpcRegistry.Library
