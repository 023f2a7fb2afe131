import Mathlib

/-!
# Ranges of positions

Ranges sorted by their start alone are merged where they overlap or touch, and a text is cut into
the merged ranges and what lies between them.
-/
namespace MpcRegistry.Library

/-- The positions from `start` to before `stop`. -/
structure Range where
  start : Nat
  stop : Nat
  deriving DecidableEq, Repr

namespace Range

def Contains (outer inner : Range) : Prop := outer.start ≤ inner.start ∧ inner.stop ≤ outer.stop

/-- The next range by start joins the last one if it does not lie behind it. -/
def merge (merged : List Range) (range : Range) : List Range :=
  match merged.getLast? with
  | none => [range]
  | some last =>
    if range.start ≤ last.stop then
      merged.dropLast ++ [{ last with stop := max last.stop range.stop }]
    else merged ++ [range]

def mergeAll (ranges : List Range) : List Range :=
  (ranges.insertionSort fun a b => a.start ≤ b.start).foldl merge []

/-- A merged range starts with one of the ranges seen and ends with one of them. -/
structure Spans (seen : List Range) (m : Range) : Prop where
  start : ∃ r ∈ seen, r.start = m.start ∧ r.stop ≤ m.stop
  stop : ∃ r ∈ seen, r.stop = m.stop

/-- What merging has made of the ranges seen so far. -/
structure Merges (seen merged : List Range) : Prop where
  apart : merged.Pairwise fun a b => a.stop < b.start
  covered : ∀ r ∈ seen, ∃ m ∈ merged, m.Contains r
  spans : ∀ m ∈ merged, Spans seen m

section Merging

variable {seen merged before : List Range} {range last m : Range}

theorem Contains.refl (r : Range) : r.Contains r := ⟨Nat.le_refl _, Nat.le_refl _⟩

theorem Contains.trans {a b c : Range} (hab : a.Contains b) (hbc : b.Contains c) : a.Contains c :=
  ⟨hab.1.trans hbc.1, hbc.2.trans hab.2⟩

theorem Spans.mono {seen' : List Range} (h : Spans seen m) (hsub : seen ⊆ seen') :
    Spans seen' m := by
  obtain ⟨r, hr, hstart⟩ := h.start
  obtain ⟨t, ht, hstop⟩ := h.stop
  exact ⟨⟨r, hsub hr, hstart⟩, ⟨t, hsub ht, hstop⟩⟩

theorem spans_of_mem (h : m ∈ seen) : Spans seen m :=
  ⟨⟨m, h, rfl, Nat.le_refl _⟩, ⟨m, h, rfl⟩⟩

/-- The last range after another one has joined it. -/
theorem Spans.grow (h : Spans seen last) :
    Spans (seen ++ [range]) { last with stop := max last.stop range.stop } := by
  obtain ⟨r, hr, hstart, hle⟩ := h.start
  refine ⟨⟨r, List.mem_append_left _ hr, hstart, hle.trans (Nat.le_max_left _ _)⟩, ?_⟩
  rcases Nat.le_total range.stop last.stop with hshorter | hlonger
  · obtain ⟨t, ht, hstop⟩ := h.stop
    exact ⟨t, List.mem_append_left _ ht, hstop.trans (Nat.max_eq_left hshorter).symm⟩
  · exact ⟨range, by simp, (Nat.max_eq_right hlonger).symm⟩

theorem Merges.nil : Merges [] [] :=
  ⟨.nil, by simp, by simp⟩

/-- What covers the ranges seen so far still does, and something covers the next one. -/
theorem covered_concat {merged' : List Range}
    (hkept : ∀ m ∈ merged, ∃ m' ∈ merged', m'.Contains m)
    (hcovered : ∀ r ∈ seen, ∃ m ∈ merged, m.Contains r)
    (hnext : ∃ m' ∈ merged', m'.Contains range) :
    ∀ r ∈ seen ++ [range], ∃ m' ∈ merged', m'.Contains r := by
  intro r hr
  rcases List.mem_append.mp hr with hr | hr
  · obtain ⟨m, hm, hcontains⟩ := hcovered r hr
    obtain ⟨m', hm', hcontains'⟩ := hkept m hm
    exact ⟨m', hm', hcontains'.trans hcontains⟩
  · rw [List.mem_singleton] at hr
    exact hr ▸ hnext

/-- A range behind all the others is put after them. -/
theorem Merges.push (h : Merges seen merged) (hbehind : ∀ m ∈ merged, m.stop < range.start) :
    Merges (seen ++ [range]) (merged ++ [range]) := by
  have hlast : range ∈ merged ++ [range] := by simp
  refine ⟨List.pairwise_append.mpr ⟨h.apart, List.pairwise_singleton _ _, ?_⟩, ?_, ?_⟩
  · intro a ha b hb
    rw [List.mem_singleton] at hb
    exact hb ▸ hbehind a ha
  · exact covered_concat (fun m hm => ⟨m, List.mem_append_left _ hm, .refl m⟩) h.covered
      ⟨range, hlast, .refl range⟩
  · intro m hm
    rcases List.mem_append.mp hm with hm | hm
    · exact (h.spans m hm).mono (List.subset_append_left _ _)
    · rw [List.mem_singleton] at hm
      exact spans_of_mem (by simp [hm])

/-- A range that starts in the last one makes it grow. -/
theorem Merges.extend (h : Merges seen (before ++ [last])) (hstart : last.start ≤ range.start) :
    Merges (seen ++ [range])
      (before ++ [{ last with stop := max last.stop range.stop }]) := by
  have hapart := List.pairwise_append.mp h.apart
  have hlast : last ∈ before ++ [last] := by simp
  refine ⟨List.pairwise_append.mpr ⟨hapart.1, List.pairwise_singleton _ _, ?_⟩, ?_, ?_⟩
  · intro a ha b hb
    rw [List.mem_singleton] at hb
    exact hb ▸ hapart.2.2 a ha last (List.mem_singleton_self _)
  · refine covered_concat (fun m hm => ?_) h.covered
      ⟨_, List.mem_append_right _ (List.mem_singleton_self _), hstart, Nat.le_max_right _ _⟩
    rcases List.mem_append.mp hm with hm | hm
    · exact ⟨m, List.mem_append_left _ hm, .refl m⟩
    · rw [List.mem_singleton] at hm
      subst hm
      exact ⟨_, List.mem_append_right _ (List.mem_singleton_self _), Nat.le_refl _,
        Nat.le_max_left _ _⟩
  · intro m hm
    rcases List.mem_append.mp hm with hm | hm
    · exact (h.spans m (List.mem_append_left _ hm)).mono (List.subset_append_left _ _)
    · rw [List.mem_singleton] at hm
      exact hm ▸ (h.spans last hlast).grow

theorem Merges.merge (h : Merges seen merged) (hstart : ∀ m ∈ merged, m.start ≤ range.start) :
    Merges (seen ++ [range]) (merge merged range) := by
  unfold Range.merge
  cases hgetLast : merged.getLast? with
  | none =>
    have hnil := List.getLast?_eq_none_iff.mp hgetLast
    subst hnil
    exact h.push (by simp)
  | some last =>
    obtain ⟨before, rfl⟩ := List.getLast?_eq_some_iff.mp hgetLast
    simp only [List.dropLast_concat]
    split
    · exact h.extend (hstart last (by simp))
    · next hbehind =>
      refine h.push fun m hm => ?_
      rcases List.mem_append.mp hm with hm | hm
      · have hbefore := (List.pairwise_append.mp h.apart).2.2 m hm last (List.mem_singleton_self _)
        have hle := hstart last (by simp)
        omega
      · rw [List.mem_singleton] at hm
        subst hm
        omega

end Merging

theorem Merges.foldl {seen merged ranges : List Range} (h : Merges seen merged)
    (hsorted : (seen ++ ranges).Pairwise fun a b => a.start ≤ b.start) :
    Merges (seen ++ ranges) (ranges.foldl Range.merge merged) := by
  induction ranges generalizing seen merged with
  | nil => simpa using h
  | cons range rest ih =>
    have hstep : Merges (seen ++ [range]) (Range.merge merged range) := by
      refine h.merge fun m hm => ?_
      obtain ⟨r, hr, heq, -⟩ := (h.spans m hm).start
      exact heq ▸ (List.pairwise_append.mp hsorted).2.2 r hr range List.mem_cons_self
    have hrest := ih hstep (by simpa using hsorted)
    simpa using hrest

theorem merges_mergeAll (ranges : List Range) : Merges ranges (mergeAll ranges) := by
  have hperm := List.perm_insertionSort (fun a b : Range => a.start ≤ b.start) ranges
  have hsorted : List.Pairwise (fun a b : Range => a.start ≤ b.start)
      ([] ++ ranges.insertionSort fun a b => a.start ≤ b.start) := List.pairwise_insertionSort _ _
  have hfold := Merges.nil.foldl hsorted
  rw [List.nil_append] at hfold
  exact ⟨hfold.apart, fun r hr => hfold.covered r (hperm.mem_iff.mpr hr), fun m hm =>
    (hfold.spans m hm).mono hperm.subset⟩

end Range

/-! ## Pieces of a text -/

/-- A range that is left as it is or hidden. -/
structure Segment extends Range where
  hidden : Bool
  deriving DecidableEq, Repr

namespace Segment

/-- The segments follow one another from a position to another. -/
def Tiled : Nat → List Segment → Nat → Prop
  | pos, [], stop => pos = stop
  | pos, s :: rest, stop => s.start = pos ∧ s.start ≤ s.stop ∧ Tiled s.stop rest stop

/-- The ranges as hidden segments, with what lies before each of them. -/
def around (pos : Nat) : List Range → List Segment
  | [] => []
  | r :: rest => ⟨⟨pos, r.start⟩, false⟩ :: ⟨r, true⟩ :: around r.stop rest

/-- Where the last range ends. -/
def endOf (pos : Nat) : List Range → Nat
  | [] => pos
  | r :: rest => endOf r.stop rest

/-- The kept segments of a text, and something else in place of each hidden one. -/
def render {α : Type} (text placeholder : List α) (segments : List Segment) : List α :=
  segments.flatMap fun s =>
    if s.hidden then placeholder else (text.drop s.start).take (s.stop - s.start)

theorem render_append {α : Type} (text placeholder : List α) (segments rest : List Segment) :
    render text placeholder (segments ++ rest) =
      render text placeholder segments ++ render text placeholder rest :=
  List.flatMap_append

/-- What is cut off a text behind everything kept makes no difference. -/
theorem render_take {α : Type} (text placeholder : List α) {segments : List Segment} {n : Nat}
    (hkept : ∀ s ∈ segments, s.hidden = false → s.stop ≤ n) :
    render (text.take n) placeholder segments = render text placeholder segments := by
  unfold render
  refine List.flatMap_congr fun s hs => ?_
  cases hhidden : s.hidden with
  | true => simp
  | false =>
    have hstop := hkept s hs hhidden
    simp only [Bool.false_eq_true, if_false]
    rw [List.drop_take, List.take_take, Nat.min_eq_left (by omega)]

variable {pos mid stop : Nat} {segments rest : List Segment}

theorem Tiled.le (h : Tiled pos segments stop) : pos ≤ stop := by
  induction segments generalizing pos with
  | nil => exact Nat.le_of_eq h
  | cons s rest ih =>
    obtain ⟨rfl, hle, hrest⟩ := h
    exact hle.trans (ih hrest)

theorem Tiled.append (h : Tiled pos segments mid) (hrest : Tiled mid rest stop) :
    Tiled pos (segments ++ rest) stop := by
  induction segments generalizing pos with
  | nil =>
    obtain rfl : pos = mid := h
    exact hrest
  | cons s segments ih => exact ⟨h.1, h.2.1, ih h.2.2⟩

theorem Tiled.bounds (h : Tiled pos segments stop) :
    ∀ s ∈ segments, pos ≤ s.start ∧ s.stop ≤ stop := by
  induction segments generalizing pos with
  | nil => simp
  | cons s rest ih =>
    obtain ⟨rfl, hle, hrest⟩ := h
    intro t ht
    rcases List.mem_cons.mp ht with rfl | ht
    · exact ⟨Nat.le_refl _, hrest.le⟩
    · have hbounds := ih hrest t ht
      exact ⟨hle.trans hbounds.1, hbounds.2⟩

/-- Of two segments one ends before the other starts. -/
theorem Tiled.apart (h : Tiled pos segments stop) {s t : Segment} (hs : s ∈ segments)
    (ht : t ∈ segments) (hne : s ≠ t) : s.stop ≤ t.start ∨ t.stop ≤ s.start := by
  induction segments generalizing pos with
  | nil => cases hs
  | cons first rest ih =>
    obtain ⟨rfl, hle, hrest⟩ := h
    rcases List.mem_cons.mp hs with rfl | hs'
    · rcases List.mem_cons.mp ht with rfl | ht'
      · exact absurd rfl hne
      · exact .inl (hrest.bounds t ht').1
    · rcases List.mem_cons.mp ht with rfl | ht'
      · exact .inr (hrest.bounds s hs').1
      · exact ih hrest hs' ht'

theorem tiled_around {ranges : List Range} (hvalid : ∀ r ∈ ranges, r.start ≤ r.stop)
    (hpos : ∀ r ∈ ranges, pos ≤ r.start) (hapart : ranges.Pairwise fun a b => a.stop < b.start) :
    Tiled pos (around pos ranges) (endOf pos ranges) := by
  induction ranges generalizing pos with
  | nil => rfl
  | cons r rest ih =>
    rw [List.pairwise_cons] at hapart
    refine ⟨rfl, hpos r List.mem_cons_self, rfl, hvalid r List.mem_cons_self, ?_⟩
    exact ih (fun s hs => hvalid s (List.mem_cons_of_mem _ hs))
      (fun s hs => Nat.le_of_lt (hapart.1 s hs)) hapart.2

theorem mem_around {ranges : List Range} {r : Range} (h : r ∈ ranges) :
    (⟨r, true⟩ : Segment) ∈ around pos ranges := by
  induction ranges generalizing pos with
  | nil => cases h
  | cons first rest ih =>
    rcases List.mem_cons.mp h with rfl | h
    · simp [around]
    · exact List.mem_cons_of_mem _ (List.mem_cons_of_mem _ (ih h))

/-- What is kept ends where a range starts. -/
theorem exists_range_of_kept {ranges : List Range} {s : Segment} (h : s ∈ around pos ranges)
    (hkept : s.hidden = false) : ∃ r ∈ ranges, s.stop = r.start := by
  induction ranges generalizing pos with
  | nil => cases h
  | cons first rest ih =>
    simp only [around, List.mem_cons] at h
    rcases h with rfl | rfl | h
    · exact ⟨first, List.mem_cons_self, rfl⟩
    · cases hkept
    · obtain ⟨r, hr, heq⟩ := ih h
      exact ⟨r, List.mem_cons_of_mem _ hr, heq⟩

theorem endOf_eq (pos : Nat) (ranges : List Range) :
    endOf pos ranges = pos ∨ ∃ r ∈ ranges, endOf pos ranges = r.stop := by
  induction ranges generalizing pos with
  | nil => exact .inl rfl
  | cons first rest ih =>
    rcases ih first.stop with heq | ⟨r, hr, heq⟩
    · exact .inr ⟨first, List.mem_cons_self, heq⟩
    · exact .inr ⟨r, List.mem_cons_of_mem _ hr, heq⟩

end Segment

end MpcRegistry.Library
