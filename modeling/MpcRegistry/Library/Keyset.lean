import Mathlib

/-!
# Walking a list by keyset pages

A list is read page by page. Each page names the cursor of its last row when more rows were
fetched than it shows, and the next page holds the rows that are after that cursor. A cursor may
say less than the row it was taken of, so that rows behind the last one need not be after it.
-/
namespace MpcRegistry.Library

/-- What one request answers: some rows and the cursor of the next request, if there is one. -/
structure Page (α γ : Type) where
  items : List α
  next : Option γ
  deriving DecidableEq, Repr

namespace Page

variable {α β γ : Type}

/-- The first rows of what was fetched; one row more says that there is a next page. -/
def ofFetched (cursor : α → γ) (limit : Nat) (fetched : List α) : Page α γ where
  items := fetched.take limit
  next := if limit < fetched.length then (fetched.take limit).getLast?.map cursor else none

def map (f : α → β) (page : Page α γ) : Page β γ where
  items := page.items.map f
  next := page.next

/-- The pages from a cursor on until one names no next page, in so many requests at most. -/
def walk (fetch : Option γ → Page α γ) : Nat → Option γ → Option (List α)
  | 0, _ => none
  | requests + 1, cursor =>
    match (fetch cursor).next with
    | none => some (fetch cursor).items
    | some next => (walk fetch requests (some next)).map ((fetch cursor).items ++ ·)

theorem walk_map (f : α → β) (fetch : Option γ → Page α γ) (requests : Nat) (cursor : Option γ) :
    walk (fun c => (fetch c).map f) requests cursor =
      (walk fetch requests cursor).map (List.map f) := by
  induction requests generalizing cursor with
  | zero => rfl
  | succ requests ih =>
    cases hnext : (fetch cursor).next with
    | none => simp only [walk, map, hnext, Option.map_some]
    | some next =>
      have hrest := ih (some next)
      simp only [walk, map, hnext] at hrest ⊢
      rw [hrest]
      cases walk fetch requests (some next) with
      | none => rfl
      | some rest => simp

/-- More requests change nothing once the walk has ended. -/
theorem walk_mono {fetch : Option γ → Page α γ} {requests more : Nat} {cursor : Option γ}
    {visited : List α} (h : walk fetch requests cursor = some visited) (hle : requests ≤ more) :
    walk fetch more cursor = some visited := by
  induction requests generalizing more cursor visited with
  | zero => cases h
  | succ requests ih =>
    cases more with
    | zero => omega
    | succ more =>
      cases hnext : (fetch cursor).next with
      | none => simpa only [walk, hnext] using h
      | some next =>
        simp only [walk, hnext] at h ⊢
        obtain ⟨rest, hrest, heq⟩ := Option.map_eq_some_iff.mp h
        rw [ih hrest (by omega), Option.map_some, heq]

theorem walk_unique {fetch : Option γ → Page α γ} {requests requests' : Nat} {cursor : Option γ}
    {visited visited' : List α} (h : walk fetch requests cursor = some visited)
    (h' : walk fetch requests' cursor = some visited') : visited = visited' := by
  rcases Nat.le_total requests requests' with hle | hle
  · exact Option.some.inj ((walk_mono h hle).symm.trans h')
  · exact Option.some.inj (h.symm.trans (walk_mono h' hle))

end Page

section Sorting

variable {α : Type} {r : α → α → Prop} [DecidableRel r] {p : α → Bool}

theorem filter_orderedInsert {a : α} {sorted : List α} [IsTrans α r] (h : sorted.Pairwise r) :
    (sorted.orderedInsert r a).filter p =
      if p a then (sorted.filter p).orderedInsert r a else sorted.filter p := by
  induction sorted with
  | nil => cases hp : p a <;> simp [hp]
  | cons b rest ih =>
    rw [List.pairwise_cons] at h
    rw [List.orderedInsert_cons]
    by_cases hab : r a b
    · rw [if_pos hab, List.filter_cons]
      split
      · next hp =>
        cases hkept : (b :: rest).filter p with
        | nil => rfl
        | cons c kept =>
          have hc : r a c := by
            have hmem : c ∈ b :: rest :=
              (List.mem_filter.mp (hkept ▸ List.mem_cons_self : c ∈ (b :: rest).filter p)).1
            rcases List.mem_cons.mp hmem with rfl | hmem
            · exact hab
            · exact IsTrans.trans a b c hab (h.1 c hmem)
          rw [List.orderedInsert_cons, if_pos hc]
      · rfl
    · rw [if_neg hab, List.filter_cons, List.filter_cons, ih h.2]
      cases hp : p a <;> cases hb : p b <;> simp [hab]

/-- Selecting before or after a sort makes no difference. -/
theorem insertionSort_filter [Std.Total r] [IsTrans α r] (l : List α) :
    (l.filter p).insertionSort r = (l.insertionSort r).filter p := by
  induction l with
  | nil => rfl
  | cons a rest ih =>
    rw [List.insertionSort_cons, filter_orderedInsert (List.pairwise_insertionSort r rest), ← ih,
      List.filter_cons]
    split
    · rw [List.insertionSort_cons]
    · rfl

end Sorting

/-- Rows in the order of their list, and what is after a cursor: with a row all those behind it,
and of the row it was taken of neither that row nor one before it. -/
structure Keyset (ρ γ : Type) where
  rows : List ρ
  cursor : ρ → γ
  isAfter : γ → ρ → Bool
  onward : rows.Pairwise fun r s => ∀ c, isAfter c r = true → isAfter c s = true
  past : rows.Pairwise fun r s => isAfter (cursor s) r = false
  fresh : ∀ r ∈ rows, isAfter (cursor r) r = false

namespace Keyset

variable {ρ γ : Type} (keyset : Keyset ρ γ)

/-- The rows a request with this cursor selects. -/
def from' (cursor : Option γ) : List ρ :=
  keyset.rows.filter fun r => cursor.all fun c => keyset.isAfter c r

def fetch (asked limit : Nat) (cursor : Option γ) : Page ρ γ :=
  Page.ofFetched keyset.cursor limit ((keyset.from' cursor).take asked)

theorem from'_none : keyset.from' none = keyset.rows := by
  simp [from']

/-- A property that a list keeps once it has it holds of an end of the list. -/
theorem filter_isSuffix {p : ρ → Bool} {rows : List ρ}
    (h : rows.Pairwise fun r s => p r = true → p s = true) : rows.filter p <:+ rows := by
  induction rows with
  | nil => exact List.suffix_rfl
  | cons row rest ih =>
    rw [List.pairwise_cons] at h
    cases hrow : p row with
    | true =>
      have hall : ∀ r ∈ row :: rest, p r = true := by
        intro r hr
        rcases List.mem_cons.mp hr with rfl | hr
        · exact hrow
        · exact h.1 r hr hrow
      rw [List.filter_eq_self.mpr hall]
    | false =>
      rw [List.filter_cons_of_neg (by simp [hrow])]
      exact (ih h.2).trans (List.suffix_cons row rest)

theorem from'_isSuffix (cursor : Option γ) : keyset.from' cursor <:+ keyset.rows := by
  refine filter_isSuffix (keyset.onward.imp fun honward hr => ?_)
  cases cursor with
  | none => rfl
  | some c => exact honward c hr

/-- Behind a page, the next request selects of what is left what is after the page's last row. -/
theorem from'_last {cursor : Option γ} {limit : Nat} {last : ρ}
    (hlast : (keyset.from' cursor)[limit]? = some last) :
    keyset.from' (some (keyset.cursor last)) =
      ((keyset.from' cursor).drop (limit + 1)).filter (keyset.isAfter (keyset.cursor last)) := by
  obtain ⟨before, hrows⟩ := keyset.from'_isSuffix cursor
  obtain ⟨hlt, hget⟩ := List.getElem?_eq_some_iff.mp hlast
  have hsplit : keyset.from' cursor =
      (keyset.from' cursor).take limit ++ last :: (keyset.from' cursor).drop (limit + 1) := by
    rw [← hget, List.getElem_cons_drop, List.take_append_drop]
  have hwhole : keyset.rows = (before ++ (keyset.from' cursor).take limit) ++
      last :: (keyset.from' cursor).drop (limit + 1) := by
    rw [List.append_assoc, ← hsplit, hrows]
  have hnone : (before ++ (keyset.from' cursor).take limit).filter
      (keyset.isAfter (keyset.cursor last)) = [] := by
    rw [List.filter_eq_nil_iff]
    intro r hr
    have hpast := keyset.past
    rw [hwhole, List.pairwise_append] at hpast
    simp [hpast.2.2 r hr last List.mem_cons_self]
  have hself : keyset.isAfter (keyset.cursor last) last = false :=
    keyset.fresh last (by rw [hwhole]; simp)
  change keyset.rows.filter (keyset.isAfter (keyset.cursor last)) = _
  rw [hwhole, List.filter_append, hnone, List.nil_append, List.filter_cons_of_neg (by simp [hself])]

/-! ### What a walk visits -/

/-- No page boundary within the window leaves a gap. Rows behind the window are all in the gap of
its last row, which ends a page. -/
structure Seamless (limit window : Nat) (rest : List ρ) : Prop where
  boundaries : ∀ k last first, 0 < k → k * limit < window → rest[k * limit - 1]? = some last →
    rest[k * limit]? = some first → keyset.isAfter (keyset.cursor last) first = true
  behind : window < rest.length → limit ∣ window ∧ ∀ last oldest, rest[window - 1]? = some last →
    rest.getLast? = some oldest → keyset.isAfter (keyset.cursor last) oldest = false

variable {keyset} {limit asked window : Nat} {cursor : Option γ} {rest : List ρ} {last : ρ}

theorem fetch_all (hall : (keyset.from' cursor).length ≤ limit) (hasked : limit < asked) :
    keyset.fetch asked limit cursor = ⟨keyset.from' cursor, none⟩ := by
  have htake : (keyset.from' cursor).take asked = keyset.from' cursor :=
    List.take_of_length_le (by omega)
  rw [fetch, htake, Page.ofFetched, List.take_of_length_le hall, if_neg (by omega)]

theorem fetch_more (hmore : limit < (keyset.from' cursor).length) (hasked : limit < asked)
    (hlimit : 0 < limit) (hlast : (keyset.from' cursor)[limit - 1]? = some last) :
    keyset.fetch asked limit cursor =
      ⟨(keyset.from' cursor).take limit, some (keyset.cursor last)⟩ := by
  have htake : ((keyset.from' cursor).take asked).take limit = (keyset.from' cursor).take limit := by
    rw [List.take_take, Nat.min_eq_left (by omega)]
  have hgetLast : ((keyset.from' cursor).take limit).getLast? = some last := by
    rw [List.getLast?_eq_getElem?, List.length_take, Nat.min_eq_left (by omega),
      List.getElem?_take_of_lt (by omega), hlast]
  rw [fetch, Page.ofFetched, htake, hgetLast, if_pos (by rw [List.length_take]; omega),
    Option.map_some]

/-- Everything fits on one page. -/
theorem seamless_of_length_le (hall : rest.length ≤ limit) (hwindow : 0 < window) :
    rest = rest.take window ↔ keyset.Seamless limit window rest := by
  constructor
  · intro heq
    have hlength := congrArg List.length heq
    rw [List.length_take] at hlength
    refine ⟨fun k last first hk _ _ hfirst => ?_, fun hbehind => by omega⟩
    have hlt := (List.getElem?_eq_some_iff.mp hfirst).1
    have hle := Nat.le_mul_of_pos_left limit hk
    omega
  · intro h
    refine (List.take_of_length_le ?_).symm
    by_contra hbehind
    obtain ⟨hdvd, -⟩ := h.behind (by omega)
    have hle := Nat.le_of_dvd hwindow hdvd
    omega

theorem getLast?_drop (hmore : limit < rest.length) :
    (rest.drop limit).getLast? = rest.getLast? := by
  rw [List.getLast?_eq_getElem?, List.getLast?_eq_getElem?, List.getElem?_drop, List.length_drop]
  congr 1
  omega

/-- Past the first page the window is that much shorter. -/
theorem seamless_drop (hlimit : 0 < limit) (hwindow : limit < window) (hmore : limit < rest.length) :
    keyset.Seamless limit window rest ↔
      (∀ last first, rest[limit - 1]? = some last → rest[limit]? = some first →
        keyset.isAfter (keyset.cursor last) first = true) ∧
      keyset.Seamless limit (window - limit) (rest.drop limit) := by
  have hdvd : limit ∣ window ↔ limit ∣ window - limit :=
    (Nat.dvd_sub_iff_left (Nat.le_of_lt hwindow) (dvd_refl limit)).symm
  have hindex : limit + (window - limit - 1) = window - 1 := by omega
  constructor
  · intro h
    refine ⟨fun last first hlast hfirst => ?_, fun k last first hk hlt hlast hfirst => ?_,
      fun hbehind => ?_⟩
    · exact h.boundaries 1 last first Nat.one_pos (by omega) (by simpa using hlast)
        (by simpa using hfirst)
    · have hpos := Nat.mul_pos hk hlimit
      rw [List.getElem?_drop] at hlast hfirst
      have hsucc : (k + 1) * limit = limit + k * limit := by rw [Nat.succ_mul, Nat.add_comm]
      refine h.boundaries (k + 1) last first (by omega) (by omega) ?_ ?_
      · rw [hsucc, Nat.add_sub_assoc hpos]
        exact hlast
      · rw [hsucc]
        exact hfirst
    · rw [List.length_drop] at hbehind
      obtain ⟨hdivides, hgap⟩ := h.behind (by omega)
      refine ⟨hdvd.mp hdivides, fun last oldest hlast holdest => ?_⟩
      rw [List.getElem?_drop, hindex] at hlast
      rw [getLast?_drop hmore] at holdest
      exact hgap last oldest hlast holdest
  · rintro ⟨hfirstPage, h⟩
    refine ⟨fun k last first hk hlt hlast hfirst => ?_, fun hbehind => ?_⟩
    · cases k with
      | zero => omega
      | succ k =>
        have hsucc : (k + 1) * limit = limit + k * limit := by rw [Nat.succ_mul, Nat.add_comm]
        cases k with
        | zero => exact hfirstPage last first (by simpa using hlast) (by simpa using hfirst)
        | succ k =>
          have hpos := Nat.mul_pos (Nat.succ_pos k) hlimit
          refine h.boundaries (k + 1) last first (by omega) (by omega) ?_ ?_
          · rw [List.getElem?_drop, ← Nat.add_sub_assoc hpos, ← hsucc]
            exact hlast
          · rw [List.getElem?_drop, ← hsucc]
            exact hfirst
    · obtain ⟨hdivides, hgap⟩ := h.behind (by rw [List.length_drop]; omega)
      refine ⟨hdvd.mpr hdivides, fun last oldest hlast holdest => hgap last oldest ?_ ?_⟩
      · rw [List.getElem?_drop, hindex]
        exact hlast
      · rw [getLast?_drop hmore]
        exact holdest

/-- The rows that the second request finds, seen from the first row behind the first page. -/
theorem filter_eq_of_first {first : ρ} {behind : List ρ} (c : γ)
    (honward : (first :: behind).Pairwise fun r s => ∀ c, keyset.isAfter c r = true →
      keyset.isAfter c s = true) (hfirst : keyset.isAfter c first = true) :
    (first :: behind).filter (keyset.isAfter c) = first :: behind := by
  refine List.filter_eq_self.mpr fun r hr => ?_
  rcases List.mem_cons.mp hr with rfl | hr
  · exact hfirst
  · exact (List.pairwise_cons.mp honward).1 r hr c hfirst

/-- One page and what the rest of the walk visits. -/
theorem seamless_step {visited : List ρ} (hlimit : 0 < limit) (hmore : limit < rest.length)
    (hlast : rest[limit - 1]? = some last)
    (honward : (rest.drop limit).Pairwise fun r s => ∀ c, keyset.isAfter c r = true →
      keyset.isAfter c s = true)
    (hsub : visited.Sublist ((rest.drop limit).filter (keyset.isAfter (keyset.cursor last))))
    (hpage : ((rest.drop limit).filter (keyset.isAfter (keyset.cursor last))).take limit <+: visited)
    (hnext : ∀ w, 0 < w →
      (visited = ((rest.drop limit).filter (keyset.isAfter (keyset.cursor last))).take w ↔
        keyset.Seamless limit w
          ((rest.drop limit).filter (keyset.isAfter (keyset.cursor last)))))
    (hwindow : 0 < window) :
    rest.take limit ++ visited = rest.take window ↔ keyset.Seamless limit window rest := by
  obtain ⟨first, behind, hdrop⟩ := List.exists_cons_of_ne_nil
    (List.ne_nil_of_length_pos (by rw [List.length_drop]; omega : 0 < (rest.drop limit).length))
  have hfirstAt : rest[limit]? = some first := by
    have hget : (rest.drop limit)[0]? = rest[limit + 0]? := List.getElem?_drop
    rw [hdrop] at hget
    simpa using hget.symm
  rcases Nat.lt_trichotomy window limit with hlt | rfl | hlt
  · -- the page alone is longer than the window
    constructor
    · intro heq
      have hlength := congrArg List.length heq
      rw [List.length_append, List.length_take, List.length_take] at hlength
      omega
    · intro h
      have hle := Nat.le_of_dvd hwindow (h.behind (by omega)).1
      omega
  · -- the window is the page: nothing more may be visited
    have hnil : rest.take window ++ visited = rest.take window ↔ visited = [] := by
      rw [List.append_right_eq_self]
    rw [hnil]
    constructor
    · intro hvisited
      refine ⟨fun k last first hk hlt => ?_, fun _ => ⟨dvd_refl _, fun last' oldest hlast' hold => ?_⟩⟩
      · have hle := Nat.le_mul_of_pos_left window hk
        omega
      · obtain rfl := Option.some.inj (hlast.symm.trans hlast')
        rw [← getLast?_drop hmore] at hold
        by_contra hafter
        rw [Bool.not_eq_false] at hafter
        have hmem := List.mem_filter.mpr ⟨List.mem_of_getLast? hold, hafter⟩
        rw [hvisited, List.prefix_nil, List.take_eq_nil_iff] at hpage
        rcases hpage with hzero | hnone
        · omega
        · rw [hnone] at hmem
          cases hmem
    · intro h
      have hgap := (h.behind hmore).2 last
      have hnone : (rest.drop window).filter (keyset.isAfter (keyset.cursor last)) = [] := by
        rw [List.filter_eq_nil_iff]
        intro r hr hafter
        obtain ⟨before, hbefore⟩ := List.append_of_mem hr
        obtain ⟨after, hsplit⟩ := hbefore
        have hgetLast : rest.getLast? = (r :: after).getLast? := by
          rw [← getLast?_drop hmore, hsplit, List.getLast?_append, List.getLast?_cons,
            Option.some_or]
        cases hafterList : after.getLast? with
        | none =>
          rw [List.getLast?_eq_none_iff] at hafterList
          rw [hafterList] at hgetLast
          rw [hgap r hlast hgetLast] at hafter
          cases hafter
        | some oldest =>
          have hold : rest.getLast? = some oldest := by
            rw [hgetLast, List.getLast?_cons, hafterList]
            rfl
          rw [hsplit, List.pairwise_append] at honward
          have hstep := (List.pairwise_cons.mp honward.2.1).1 oldest (List.mem_of_getLast? hafterList)
          have hoff := hgap oldest hlast hold
          rw [hstep _ hafter] at hoff
          cases hoff
      rw [hnone] at hsub
      exact List.sublist_nil.mp hsub
  · -- the window goes on: the next page has to start where this one ends
    have hsplit : rest.take window = rest.take limit ++ (rest.drop limit).take (window - limit) := by
      have htake := List.take_append_drop limit (rest.take window)
      rw [List.take_take, Nat.min_eq_left (Nat.le_of_lt hlt), List.drop_take] at htake
      exact htake.symm
    rw [hsplit, List.append_cancel_left_eq, seamless_drop hlimit hlt hmore]
    constructor
    · intro hvisited
      have hmem : first ∈ visited := by
        rw [hvisited, hdrop]
        obtain ⟨w, hw⟩ := Nat.exists_eq_succ_of_ne_zero (by omega : window - limit ≠ 0)
        rw [hw, List.take_succ_cons]
        exact List.mem_cons_self
      have hafter := (List.mem_filter.mp (hsub.subset hmem)).2
      have hwhole : (rest.drop limit).filter (keyset.isAfter (keyset.cursor last)) =
          rest.drop limit := by
        rw [hdrop] at honward ⊢
        exact filter_eq_of_first _ honward hafter
      refine ⟨fun last' first' hlast' hfirst' => ?_, ?_⟩
      · obtain rfl := Option.some.inj (hlast.symm.trans hlast')
        obtain rfl := Option.some.inj (hfirstAt.symm.trans hfirst')
        exact hafter
      · rw [hwhole] at hnext
        exact (hnext _ (by omega)).mp hvisited
    · rintro ⟨hboundary, h⟩
      have hwhole : (rest.drop limit).filter (keyset.isAfter (keyset.cursor last)) =
          rest.drop limit := by
        rw [hdrop] at honward ⊢
        exact filter_eq_of_first _ honward (hboundary last first hlast hfirstAt)
      rw [hwhole] at hnext
      exact (hnext _ (by omega)).mpr h

/-- A walk that asks for a row more than it shows ends. It visits rows of the list in order, the
first page whole, and it comes to the rows within a window exactly when the list is seamless. -/
theorem walk_spec (hlimit : 0 < limit) (hasked : limit < asked) (requests : Nat)
    (cursor : Option γ) (hrequests : (keyset.from' cursor).length < requests) :
    ∃ visited, Page.walk (keyset.fetch asked limit) requests cursor = some visited ∧
      visited.Sublist (keyset.from' cursor) ∧
      (keyset.from' cursor).take limit <+: visited ∧
      ∀ window, 0 < window → (visited = (keyset.from' cursor).take window ↔
        keyset.Seamless limit window (keyset.from' cursor)) := by
  induction requests generalizing cursor with
  | zero => omega
  | succ requests ih =>
    by_cases hmore : limit < (keyset.from' cursor).length
    · have hlast := List.getElem?_eq_getElem
        (by omega : limit - 1 < (keyset.from' cursor).length)
      generalize (keyset.from' cursor)[limit - 1] = last at hlast
      have hfetch := fetch_more hmore hasked hlimit hlast
      have hnextRows := keyset.from'_last hlast
      rw [Nat.sub_add_cancel hlimit] at hnextRows
      have hshorter : (keyset.from' (some (keyset.cursor last))).length < requests := by
        rw [hnextRows]
        have hle := List.length_filter_le (keyset.isAfter (keyset.cursor last))
          ((keyset.from' cursor).drop limit)
        rw [List.length_drop] at hle
        omega
      obtain ⟨visited, hwalk, hsub, hpage, hnext⟩ := ih _ hshorter
      rw [hnextRows] at hsub hpage hnext
      have honward : ((keyset.from' cursor).drop limit).Pairwise fun r s =>
          ∀ c, keyset.isAfter c r = true → keyset.isAfter c s = true :=
        (keyset.onward.sublist (keyset.from'_isSuffix cursor).sublist).sublist
          (List.drop_sublist limit _)
      refine ⟨(keyset.from' cursor).take limit ++ visited, ?_, ?_, List.prefix_append _ _,
        fun window hwindow => seamless_step hlimit hmore hlast honward hsub hpage hnext hwindow⟩
      · rw [Page.walk, hfetch]
        change (Page.walk (keyset.fetch asked limit) requests (some (keyset.cursor last))).map _ = _
        rw [hwalk, Option.map_some]
      · have hwhole := (List.Sublist.refl ((keyset.from' cursor).take limit)).append
          (hsub.trans List.filter_sublist)
        rwa [List.take_append_drop] at hwhole
    · have hall : (keyset.from' cursor).length ≤ limit := by omega
      refine ⟨keyset.from' cursor, ?_, List.Sublist.refl _, List.take_prefix _ _,
        fun window hwindow => seamless_of_length_le hall hwindow⟩
      rw [Page.walk, fetch_all hall hasked]

variable (keyset) in
/-- A walk whose requests are cut to no more rows than a page shows ends with the first page. -/
theorem walk_cut (hasked : asked ≤ limit) (requests : Nat) (cursor : Option γ) :
    Page.walk (keyset.fetch asked limit) (requests + 1) cursor =
      some ((keyset.from' cursor).take asked) := by
  have hlength : ((keyset.from' cursor).take asked).length ≤ limit :=
    (List.length_take_le _ _).trans hasked
  have hfetch : keyset.fetch asked limit cursor = ⟨(keyset.from' cursor).take asked, none⟩ := by
    rw [fetch, Page.ofFetched, List.take_of_length_le hlength, if_neg (by omega)]
  rw [Page.walk, hfetch]

end Keyset

end MpcRegistry.Library
