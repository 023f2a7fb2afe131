import MpcRegistry.Migrations.Lexemes

/-!
# Where the scanner reads as PostgreSQL does

At each lexeme of a text the scanner looks for the end its own way. Where all its looks agree with
the lexeme, the text it makes is the text with its gaps squeezed.
-/
namespace MpcRegistry.Migrations
open Library Canonical Lexer

/-! ## Places -/

/-- A position in a text, for the lexer and for the scanner. -/
structure Place where
  context : Context
  before : Text
  /-- The units right before, back to the last gap or to the end of a literal. -/
  run : Text
  deriving DecidableEq, Repr

namespace Place

def start : Place := ⟨.start, [], []⟩

def runAfter (place : Place) : Lexeme → Text
  | .unit u => if place.context.gap = .adjacent then place.run ++ [u] else [u]
  | .space _ | .lineComment _ | .blockComment _ | .openComment _ => place.run
  | .quoted text | .openQuoted text => text.take 1
  | .dollarQuoted _ _ | .openDollar _ _ => [0x24]

def after (place : Place) (lexeme : Lexeme) : Place where
  context := place.context.after lexeme
  before := place.before ++ lexeme.text
  run := place.runAfter lexeme

/-- The tag that the scanner sees. -/
def tagSeen (place : Place) (text : Text) : Option Text :=
  if text.head? = some 0x24 then dollarTagAt place.before text else none

/-- The scanner knows whether a string has escapes, if that matters; it does not go on with the
string before. -/
def seesString (place : Place) (literal : Text) : Bool :=
  literal.head? = some 0x22 || !place.context.continues &&
    (backslashEscapes place.before = place.context.escapes || 0x5c ∉ literal)

/-- The scanner sees the tag, and knows whether a body starts with it. -/
def seesDollar (place : Place) (text tag : Text) : Bool :=
  place.tagSeen text = some tag && isFunctionBodyOpener place.run = place.context.opensBody

/-- The scanner sees the lexeme that stands here, closed if it is on the top level. -/
def agrees (place : Place) (top : Bool) (text : Text) : Lexeme → Bool
  | .unit u => place.tagSeen text = none && !isWhiteSpace u
  | .space _ | .blockComment _ => true
  | .lineComment comment => ((text.drop comment.length).takeWhile (· ≠ 0x0a)).all isSpace
  | .openComment _ => false
  | .quoted literal => place.seesString literal
  | .openQuoted literal => !top && place.seesString literal
  | .dollarQuoted tag _ => place.seesDollar text tag
  | .openDollar tag _ => !top && place.seesDollar text tag

end Place

def plainFrom : Nat → Bool → Place → Text → Bool
  | 0, _, _, text => text.isEmpty
  | _ + 1, _, _, [] => true
  | rounds + 1, top, place, u :: rest =>
    let lexeme := lexemeAt place.context u rest
    place.agrees top (u :: rest) lexeme &&
      (!place.context.opensBody || plainFrom rounds false .start lexeme.inner) &&
      plainFrom rounds top (place.after lexeme) ((u :: rest).drop lexeme.text.length)

/-- The scanner sees every lexeme of the text as it is, in bodies too. -/
def plain (top : Bool) (place : Place) (text : Text) : Bool := plainFrom text.length top place text

section Plain

variable {top : Bool} {place : Place} {u : CodeUnit} {rest text more : Text} {lexeme : Lexeme}

theorem plainFrom_rounds {n m : Nat} (hn : text.length ≤ n) (hm : text.length ≤ m) :
    plainFrom n top place text = plainFrom m top place text := by
  induction n generalizing m top place text with
  | zero =>
    obtain rfl := List.length_eq_zero_iff.mp (Nat.le_zero.mp hn)
    cases m <;> rfl
  | succ n ih =>
    cases text with
    | nil => cases m <;> rfl
    | cons u rest =>
      cases m with
      | zero => simp at hm
      | succ m =>
        rw [List.length_cons, Nat.succ_le_succ_iff] at hn hm
        obtain ⟨more, -, hdrop, hmore, hinner⟩ := exists_rest place.context u rest
        unfold plainFrom
        dsimp only
        rw [hdrop, ih (hmore.trans hn) (hmore.trans hm), ih (hinner.trans hn) (hinner.trans hm)]

theorem plain_cons (hlexeme : lexemeAt place.context u rest = lexeme)
    (htext : u :: rest = lexeme.text ++ more) : plain top place (u :: rest) = true ↔
      place.agrees top (u :: rest) lexeme = true ∧
        (place.context.opensBody = true → plain false .start lexeme.inner = true) ∧
        plain top (place.after lexeme) more = true := by
  subst hlexeme
  obtain ⟨more', htext', hdrop, hmore, hinner⟩ := exists_rest place.context u rest
  obtain rfl : more = more' := List.append_cancel_left (htext.symm.trans htext')
  rw [plain, List.length_cons, plainFrom, hdrop, plainFrom_rounds hmore (Nat.le_refl _),
    plainFrom_rounds hinner (Nat.le_refl _)]
  simp only [Bool.and_eq_true, Bool.or_eq_true, Bool.not_eq_true', and_assoc]
  refine and_congr_right fun _ => and_congr_left fun _ => ?_
  cases place.context.opensBody <;> simp [plain]

end Plain

/-! ## The scanner's rounds -/

section Rounds

variable {rounds : Nat} {context : Context} {before out rest more : Text} {u : CodeUnit}

theorem normalizeFrom_unit (hunit : PlainUnit context u rest)
    (htag : (if u = 0x24 then dollarTagAt before (u :: rest) else none) = none)
    (hspace : isWhiteSpace u = false) :
    normalizeFrom (rounds + 1) before (u :: rest) out =
      normalizeFrom rounds (before ++ [u]) rest (out ++ [u]) := by
  rw [normalizeFrom, htag]
  dsimp only
  rw [if_neg (by simpa using hunit.quote), if_neg (by simpa using hunit.line),
    if_neg (by simpa using hunit.block), if_neg (by simpa using hspace)]
  rfl

theorem isWhiteSpace_of_isSpace (h : isSpace u = true) : isWhiteSpace u = true := by
  have hcases : u = 0x20 ∨ u = 0x09 ∨ u = 0x0a ∨ u = 0x0b ∨ u = 0x0c ∨ u = 0x0d := by
    simpa [isSpace] using h
  rcases hcases with rfl | rfl | rfl | rfl | rfl | rfl <;> decide

theorem normalizeFrom_space (h : isSpace u = true) :
    normalizeFrom (rounds + 1) before (u :: rest) out =
      normalizeFrom rounds (before ++ [u]) rest (space out) := by
  have hcases : u = 0x20 ∨ u = 0x09 ∨ u = 0x0a ∨ u = 0x0b ∨ u = 0x0c ∨ u = 0x0d := by
    simpa [isSpace] using h
  rw [normalizeFrom]
  rcases hcases with rfl | rfl | rfl | rfl | rfl | rfl <;> rfl

theorem normalizeFrom_line {stop : Nat} (hhead : rest.head? = some 0x2d)
    (hstop : (indexOf [0x0a] (0x2d :: rest)).getD (rest.length + 1) = stop) :
    normalizeFrom (rounds + 1) before (0x2d :: rest) out =
      normalizeFrom rounds (before ++ (0x2d :: rest).take stop) ((0x2d :: rest).drop stop)
        (space out) := by
  subst hstop
  rw [normalizeFrom]
  simp [hhead]

theorem normalizeFrom_block {n : Nat} (hhead : rest.head? = some 0x2a)
    (hlength : commentLength 0 (0x2f :: rest) = some n) :
    normalizeFrom (rounds + 1) before (0x2f :: rest) out =
      normalizeFrom rounds (before ++ (0x2f :: rest).take n) ((0x2f :: rest).drop n)
        (space out) := by
  have hstop : endOfBlockComment (0x2f :: rest) = n := by
    rw [endOfBlockComment, commentRest_eq, hlength, Option.getD_some]
  rw [normalizeFrom]
  simp [hhead, hstop]

theorem normalizeFrom_quoted (hquote : u = 0x27 ∨ u = 0x22) :
    normalizeFrom (rounds + 1) before (u :: rest) out =
      normalizeFrom rounds (before ++ (u :: rest).take (endOfQuoted before u rest))
        ((u :: rest).drop (endOfQuoted before u rest))
        (out ++ (u :: rest).take (endOfQuoted before u rest)) := by
  rw [normalizeFrom]
  rcases hquote with rfl | rfl <;> rfl

theorem normalizeFrom_dollar {tag : Text} (htag : dollarTagAt before (0x24 :: rest) = some tag) :
    normalizeFrom (rounds + 1) before (0x24 :: rest) out =
      let quoted := normalizeDollarQuoted (fun inner => normalizeFrom rounds [] inner [])
        (0x24 :: rest) tag out
      normalizeFrom rounds (before ++ (0x24 :: rest).take quoted.stop)
        ((0x24 :: rest).drop quoted.stop) (out ++ quoted.text) := by
  rw [normalizeFrom, if_pos rfl, htag]

theorem normalizeDollarQuoted_closed {normalize : Text → Text} {tag inner more : Text}
    (habsent : Absent tag inner (tag ++ more)) :
    normalizeDollarQuoted normalize (tag ++ (inner ++ (tag ++ more))) tag out =
      ⟨tag ++ ((if isFunctionBodyOpener out then normalize inner else inner) ++ tag),
        (tag ++ (inner ++ tag)).length⟩ := by
  have hindex := indexOf_append_of_absent habsent
  have hinner : ((tag ++ (inner ++ (tag ++ more))).take (tag.length + inner.length)).drop
      tag.length = inner := by
    rw [List.take_length_add_append, List.drop_left, List.take_left]
  have hwhole : (tag ++ (inner ++ (tag ++ more))).take (tag.length + inner.length + tag.length) =
      tag ++ (inner ++ tag) := by
    rw [Nat.add_assoc, List.take_length_add_append, List.take_length_add_append, List.take_left]
  unfold normalizeDollarQuoted
  simp only [List.drop_left, hindex, Option.map_some, Option.getD_some, hinner, hwhole,
    Option.isNone_some, Bool.false_eq_true, if_false, Quoted.mk.injEq]
  refine ⟨?_, by simp only [List.length_append]; omega⟩
  split <;> simp

theorem normalizeDollarQuoted_open {normalize : Text → Text} {tag inner : Text} (hne : tag ≠ [])
    (habsent : Absent tag inner []) :
    normalizeDollarQuoted normalize (tag ++ inner) tag out =
      ⟨tag ++ (if isFunctionBodyOpener out then normalize inner else inner),
        (tag ++ inner).length⟩ := by
  have hindex := (indexOf_eq_none_iff hne).mpr habsent
  unfold normalizeDollarQuoted
  simp only [List.drop_left, hindex, Option.map_none, Option.getD_none, List.take_length,
    Option.isNone_none, if_true, List.append_nil, Quoted.mk.injEq, and_true]
  split <;> rfl

end Rounds

/-- The scanner comes to the end of a string that it sees. -/
theorem endOfQuoted_eq {place : Place} {u : CodeUnit} {rest : Text} {n : Nat}
    (hquote : u = 0x27 ∨ u = 0x22)
    (hlength : quotedLength (u = 0x27 && place.context.escapes) u rest = some n)
    (hsees : place.seesString (u :: rest.take n) = true) :
    endOfQuoted place.before u rest = 1 + n := by
  unfold endOfQuoted
  rw [quotedRest_eq]
  rcases hquote with rfl | rfl
  · have hcases : backslashEscapes place.before = place.context.escapes ∨
        0x5c ∉ (0x27 :: rest.take n : Text) := by
      simpa [Place.seesString] using (show _ ∧ _ by simpa [Place.seesString] using hsees).2
    rcases hcases with heq | hno
    · rw [heq, hlength]
      rfl
    · have hrest : 0x5c ∉ rest.take n := fun h => hno (List.mem_cons_of_mem _ h)
      rw [quotedLength_congr hlength (by decide) hrest]
      rfl
  · rw [show quotedLength ((0x22 : CodeUnit) = 0x27 && backslashEscapes place.before) 0x22 rest =
      some n from hlength]
    rfl

theorem endOfQuoted_open {place : Place} {u : CodeUnit} {rest : Text}
    (hquote : u = 0x27 ∨ u = 0x22)
    (hlength : quotedLength (u = 0x27 && place.context.escapes) u rest = none)
    (hsees : place.seesString (u :: rest) = true) :
    endOfQuoted place.before u rest = 1 + rest.length := by
  unfold endOfQuoted
  rw [quotedRest_eq]
  rcases hquote with rfl | rfl
  · have hcases : backslashEscapes place.before = place.context.escapes ∨
        0x5c ∉ (0x27 :: rest : Text) := by
      simpa [Place.seesString] using (show _ ∧ _ by simpa [Place.seesString] using hsees).2
    rcases hcases with heq | hno
    · rw [heq, hlength]
      rfl
    · have hrest : 0x5c ∉ rest := fun h => hno (List.mem_cons_of_mem _ h)
      rw [quotedLength_of_no_backslash hrest, ← quotedLength_of_no_backslash hrest, hlength]
      rfl
  · rw [show quotedLength ((0x22 : CodeUnit) = 0x27 && backslashEscapes place.before) 0x22 rest =
      none from hlength]
    rfl

/-! ## The text made so far -/

/-- The space for a gap. -/
def gapText (context : Context) : Text := if context.gap = .adjacent then [] else [0x20]

/-- The text made so far ends in the run before the place, with a space for a gap. -/
structure Follows (place : Place) (out : Text) : Prop where
  last : place.run.getLast? ≠ some 0x20
  shape : ∃ head, out = head ++ place.run ++ gapText place.context ∧
    (place.run = [] → head = []) ∧
    (head = [] ∨ head.getLast? = some 0x20 ∨
      ∃ u ∈ place.run.head?, u = 0x27 ∨ u = 0x22 ∨ u = 0x24)

section Follows

variable {place : Place} {out : Text} {u : CodeUnit}

theorem follows_start : Follows .start [] :=
  ⟨by simp [Place.start], [], rfl, fun _ => rfl, .inl rfl⟩

/-- The text ends in a space if it follows a gap. -/
theorem Follows.getLast?_iff (h : Follows place out) :
    out.getLast? = some 0x20 ↔ place.context.gap ≠ .adjacent := by
  obtain ⟨head, rfl, hnil, -⟩ := h.shape
  by_cases hgap : place.context.gap = .adjacent
  · have hlast : (head ++ place.run).getLast? ≠ some 0x20 := by
      cases hrun : place.run with
      | nil => simp [hnil hrun]
      | cons v run =>
        have hne := h.last
        rw [hrun] at hne
        rwa [List.getLast?_append_of_ne_nil _ (List.cons_ne_nil _ _)]
    simpa [gapText, hgap] using hlast
  · simp [gapText, hgap]

theorem Follows.space_eq (h : Follows place out) :
    space out = out ++ if place.context.gap = .adjacent then [0x20] else [] := by
  unfold space
  by_cases hgap : place.context.gap = .adjacent
  · rw [if_neg (fun hlast => h.getLast?_iff.mp hlast hgap), if_pos hgap]
  · rw [if_pos (h.getLast?_iff.mpr hgap), if_neg hgap, List.append_nil]

/-- What makes a body start can be seen in the run. -/
theorem Follows.opener (h : Follows place out) :
    isFunctionBodyOpener out = isFunctionBodyOpener place.run := by
  obtain ⟨head, hout, hnil, hhead⟩ := h.shape
  have hwords : (if out.getLast? = some 0x20 then out.dropLast else out) = head ++ place.run := by
    by_cases hgap : place.context.gap = .adjacent
    · rw [if_neg (fun hlast => h.getLast?_iff.mp hlast hgap), hout]
      simp [gapText, hgap]
    · rw [if_pos (h.getLast?_iff.mpr hgap), hout]
      simp [gapText, hgap]
  unfold isFunctionBodyOpener
  rw [hwords, if_neg h.last]
  dsimp only
  rw [List.reverse_append]
  cases hrun : place.run.reverse with
  | nil =>
    have hempty : place.run = [] := by simpa using hrun
    simp [hnil hempty]
  | cons second run =>
    cases run with
    | nil =>
      -- a run of one unit is no word that starts a body, whatever is before it
      have hsingle : place.run = [second] := by simpa using congrArg List.reverse hrun
      rw [hsingle] at hhead
      cases hback : head.reverse with
      | nil => rfl
      | cons first before =>
        have hlast : head.getLast? = some first := by
          rw [List.getLast?_eq_head?_reverse, hback]
          rfl
        have hnot : isOpenerWord first second = false := by
          rcases hhead with rfl | hspace | ⟨v, hv, hquote⟩
          · simp at hback
          · obtain rfl : first = 0x20 := Option.some.inj (hlast.symm.trans hspace)
            simp [isOpenerWord]
          · obtain rfl : second = v := by simpa using hv
            rcases hquote with rfl | rfl | rfl <;> simp [isOpenerWord]
        simp [hnot]
    | cons first run =>
      cases run with
      | nil =>
        have hpair : place.run = [first, second] := by simpa using congrArg List.reverse hrun
        rw [hpair] at hhead
        simp only [List.cons_append, List.nil_append, List.head?_nil, Option.all_none,
          Bool.and_true]
        cases hback : head.reverse with
        | nil => simp
        | cons third before =>
          have hlast : head.getLast? = some third := by
            rw [List.getLast?_eq_head?_reverse, hback]
            rfl
          rcases hhead with rfl | hspace | ⟨v, hv, hquote⟩
          · simp at hback
          · obtain rfl : third = 0x20 := Option.some.inj (hlast.symm.trans hspace)
            simp [isWordUnit]
          · obtain rfl : first = v := by simpa using hv
            rcases hquote with rfl | rfl | rfl <;> simp [isOpenerWord]
      | cons third run => simp

theorem Follows.gap (h : Follows place out) {place' : Place} (hrun : place'.run = place.run)
    (hgap : place'.context.gap ≠ .adjacent) : Follows place' (space out) := by
  refine ⟨hrun ▸ h.last, ?_⟩
  obtain ⟨head, hout, hnil, hhead⟩ := h.shape
  refine ⟨head, ?_, hrun ▸ hnil, hrun ▸ hhead⟩
  rw [h.space_eq, hout, hrun]
  by_cases hbefore : place.context.gap = .adjacent <;> simp [gapText, hbefore, hgap]

theorem Follows.unit (h : Follows place out) (hu : u ≠ 0x20) :
    Follows (place.after (.unit u)) (out ++ [u]) := by
  obtain ⟨head, hout, hnil, hhead⟩ := h.shape
  have hadjacent : gapText (place.after (.unit u)).context = [] := by
    simp [gapText, Place.after, Context.after]
  by_cases hgap : place.context.gap = .adjacent
  · have hrun : (place.after (.unit u)).run = place.run ++ [u] := by
      simp [Place.after, Place.runAfter, hgap]
    refine ⟨by simp [hrun, hu], head, ?_, by simp [hrun], ?_⟩
    · have hnone : gapText place.context = [] := by simp [gapText, hgap]
      simp [hadjacent, hrun, hout, hnone]
    · rcases hhead with hhead | hhead | ⟨v, hv, hquote⟩
      · exact .inl hhead
      · exact .inr (.inl hhead)
      · refine .inr (.inr ⟨v, ?_, hquote⟩)
        rw [hrun]
        cases hplace : place.run with
        | nil => simp [hplace] at hv
        | cons w run => simpa [hplace] using hv
  · have hrun : (place.after (.unit u)).run = [u] := by
      simp [Place.after, Place.runAfter, hgap]
    refine ⟨by simp [hrun, hu], out, by simp [hadjacent, hrun], by simp [hrun], ?_⟩
    exact .inr (.inl (h.getLast?_iff.mpr hgap))

/-- A literal ends in a quote or in the dollar sign of its tag. -/
theorem follows_literal {place' : Place} {text : Text} (hrun : place'.run = [u])
    (hgap : place'.context.gap = .adjacent) (hu : u = 0x27 ∨ u = 0x22 ∨ u = 0x24)
    (hlast : text.getLast? = some u) : Follows place' (out ++ text) := by
  refine ⟨?_, ?_⟩
  · rw [hrun]
    rcases hu with rfl | rfl | rfl <;> simp
  · obtain ⟨front, rfl⟩ := List.getLast?_eq_some_iff.mp hlast
    exact ⟨out ++ front, by simp [hrun, gapText, hgap], by simp [hrun],
      .inr (.inr ⟨u, by simp [hrun], hu⟩)⟩

end Follows

/-! ## The scanner squeezes -/

section Squeezing

variable {place : Place} {top : Bool} {out : Text}

/-- Whitespace behind a gap adds nothing. -/
theorem exists_place_of_spaces {spaces more : Text} (hspaces : ∀ u ∈ spaces, isSpace u = true)
    (hgap : place.context.gap ≠ .adjacent) (hplain : plain top place (spaces ++ more) = true) :
    ∃ place' : Place, plain top place' more = true ∧ place'.before = place.before ++ spaces ∧
      place'.run = place.run ∧ place'.context.gap ≠ .adjacent ∧
      squeeze place.context (spaces ++ more) = squeeze place'.context more := by
  induction spaces generalizing place with
  | nil => exact ⟨place, hplain, by simp, rfl, hgap, rfl⟩
  | cons u spaces ih =>
    have hlexeme : lexemeAt place.context u (spaces ++ more) = .space u :=
      lexemeAt_eq ⟨rfl, hspaces u List.mem_cons_self⟩
    have htext : u :: (spaces ++ more) = (Lexeme.space u).text ++ (spaces ++ more) := rfl
    obtain ⟨-, -, hrest⟩ := (plain_cons hlexeme htext).mp hplain
    have hafter : (place.after (.space u)).context.gap ≠ .adjacent := by
      simp only [Place.after, Context.after]
      cases place.context.gap <;> simp [Gap.blanks]
    obtain ⟨place', hplain', hbefore, hrun, hgap', hsqueeze⟩ :=
      ih (fun v hv => hspaces v (List.mem_cons_of_mem _ hv)) hafter hrest
    refine ⟨place', hplain', ?_, hrun, hgap', ?_⟩
    · rw [hbefore]
      simp [Place.after, Lexeme.text]
    · rw [List.cons_append, squeeze_cons hlexeme htext, Context.squeezed, if_neg hgap,
        List.nil_append]
      exact hsqueeze

theorem gap_after_ne {place : Place} {lexeme : Lexeme} (h : lexeme.isGap = true) :
    (place.after lexeme).context.gap ≠ .adjacent := by
  cases lexeme with
  | space u | lineComment text =>
    simp only [Place.after, Context.after]
    cases place.context.gap <;> simp [Gap.blanks]
  | blockComment text => simp [Place.after, Context.after]
  | _ => cases h

/-- A round of the scanner goes over a lexeme that it sees, and adds what squeezing keeps of it. -/
def Rounds (rounds : Nat) (place : Place) (lexeme : Lexeme) (text more out : Text) : Prop :=
  let made := out ++ place.context.squeezed (fun inner => normalizeFrom rounds [] inner []) lexeme
  normalizeFrom (rounds + 1) place.before text out =
      normalizeFrom rounds (place.after lexeme).before more made ∧
    (more = [] ∨ Follows (place.after lexeme) made)

section Round

variable {rounds : Nat} {u : CodeUnit} {rest more : Text}

theorem round_unit (hunit : PlainUnit place.context u rest)
    (hagrees : place.agrees top (u :: rest) (.unit u) = true) (hfollows : Follows place out) :
    Rounds rounds place (.unit u) (u :: rest) rest out := by
  have hseen : place.tagSeen (u :: rest) = none ∧ isWhiteSpace u = false := by
    simpa [Place.agrees] using hagrees
  have hne : u ≠ 0x20 := by
    rintro rfl
    exact absurd hseen.2 (by decide)
  exact ⟨normalizeFrom_unit hunit (by simpa [Place.tagSeen] using hseen.1) hseen.2,
    .inr (hfollows.unit hne)⟩

theorem round_space (hspace : isSpace u = true) (hfollows : Follows place out) :
    Rounds rounds place (.space u) (u :: rest) rest out := by
  have hfollows' : Follows (place.after (.space u)) (space out) :=
    hfollows.gap rfl (gap_after_ne rfl)
  unfold Rounds
  rw [normalizeFrom_space hspace]
  rw [hfollows.space_eq] at hfollows' ⊢
  exact ⟨rfl, .inr hfollows'⟩

theorem round_block {n : Nat} (hhead : rest.head? = some 0x2a)
    (hlength : commentLength 0 (0x2f :: rest) = some n) (hfollows : Follows place out) :
    Rounds rounds place (.blockComment ((0x2f :: rest).take n)) (0x2f :: rest)
      ((0x2f :: rest).drop n) out := by
  have hfollows' : Follows (place.after (.blockComment ((0x2f :: rest).take n))) (space out) :=
    hfollows.gap rfl (gap_after_ne rfl)
  unfold Rounds
  rw [normalizeFrom_block hhead hlength]
  rw [hfollows.space_eq] at hfollows' ⊢
  exact ⟨rfl, .inr hfollows'⟩

theorem round_quoted {n : Nat} (hquote : u = 0x27 ∨ u = 0x22)
    (hlength : quotedLength (u = 0x27 && place.context.escapes) u rest = some n)
    (hsees : place.seesString (u :: rest.take n) = true) :
    Rounds rounds place (.quoted (u :: rest.take n)) (u :: rest) (rest.drop n) out := by
  have hlast : (u :: rest.take n).getLast? = some u := by
    rw [List.getLast?_cons, quotedLength_last hlength]
    rfl
  unfold Rounds
  rw [normalizeFrom_quoted hquote, endOfQuoted_eq hquote hlength hsees, Nat.add_comm]
  exact ⟨rfl, .inr (follows_literal rfl rfl (hquote.imp_right .inl) hlast)⟩

theorem round_openQuoted (hquote : u = 0x27 ∨ u = 0x22)
    (hlength : quotedLength (u = 0x27 && place.context.escapes) u rest = none)
    (hsees : place.seesString (u :: rest) = true) :
    Rounds rounds place (.openQuoted (u :: rest)) (u :: rest) [] out := by
  unfold Rounds
  rw [normalizeFrom_quoted hquote, endOfQuoted_open hquote hlength hsees, Nat.add_comm,
    List.take_succ_cons, List.drop_succ_cons, List.take_length, List.drop_length]
  exact ⟨rfl, .inl rfl⟩

theorem dollarTagAt_of_seesDollar {tag : Text}
    (hsees : place.seesDollar (0x24 :: rest) tag = true) :
    dollarTagAt place.before (0x24 :: rest) = some tag ∧
      isFunctionBodyOpener place.run = place.context.opensBody := by
  simpa [Place.seesDollar, Place.tagSeen] using hsees

theorem round_dollar {tag inner : Text} (htag : IsTag isIdentStart isTagPart tag)
    (htext : 0x24 :: rest = tag ++ (inner ++ (tag ++ more)))
    (habsent : Absent tag inner (tag ++ more))
    (hsees : place.seesDollar (0x24 :: rest) tag = true) (hfollows : Follows place out) :
    Rounds rounds place (.dollarQuoted tag inner) (0x24 :: rest) more out := by
  obtain ⟨hseen, hopens⟩ := dollarTagAt_of_seesDollar hsees
  have hlast : ∀ front : Text, (tag ++ (front ++ tag)).getLast? = some 0x24 := by
    intro front
    have hne : front ++ tag ≠ [] := List.append_ne_nil_of_right_ne_nil _ htag.ne_nil
    rw [List.getLast?_append_of_ne_nil _ hne, List.getLast?_append_of_ne_nil _ htag.ne_nil,
      htag.getLast?]
  unfold Rounds
  rw [normalizeFrom_dollar hseen, htext, normalizeDollarQuoted_closed habsent, hfollows.opener,
    hopens]
  dsimp only
  have hsplit : tag ++ (inner ++ (tag ++ more)) = tag ++ (inner ++ tag) ++ more := by simp
  rw [hsplit, List.take_left, List.drop_left]
  exact ⟨rfl, .inr (follows_literal rfl rfl (.inr (.inr rfl)) (hlast _))⟩

theorem round_openDollar {tag inner : Text} (htag : IsTag isIdentStart isTagPart tag)
    (htext : 0x24 :: rest = tag ++ inner) (habsent : Absent tag inner [])
    (hsees : place.seesDollar (0x24 :: rest) tag = true) (hfollows : Follows place out) :
    Rounds rounds place (.openDollar tag inner) (0x24 :: rest) [] out := by
  obtain ⟨hseen, hopens⟩ := dollarTagAt_of_seesDollar hsees
  unfold Rounds
  rw [normalizeFrom_dollar hseen, htext, normalizeDollarQuoted_open htag.ne_nil habsent,
    hfollows.opener, hopens]
  dsimp only
  rw [List.take_length, List.drop_length]
  exact ⟨rfl, .inl rfl⟩

/-- All but line comments, which the scanner ends at a line feed alone. -/
theorem scanner_round {lexeme : Lexeme} (hspec : LexemeAt place.context u rest lexeme)
    (htext : u :: rest = lexeme.text ++ more)
    (hagrees : place.agrees top (u :: rest) lexeme = true)
    (hline : ∀ comment, lexeme ≠ .lineComment comment) (hfollows : Follows place out) :
    Rounds rounds place lexeme (u :: rest) more out := by
  cases lexeme with
  | unit v =>
    obtain ⟨rfl, hunit⟩ := hspec
    obtain rfl : rest = more := (List.cons.inj htext).2
    exact round_unit hunit hagrees hfollows
  | space v =>
    obtain ⟨rfl, hspace⟩ := hspec
    obtain rfl : rest = more := (List.cons.inj htext).2
    exact round_space hspace hfollows
  | lineComment comment => exact absurd rfl (hline comment)
  | blockComment comment =>
    obtain ⟨rfl, hhead, n, hlength, rfl⟩ := hspec
    obtain rfl : (0x2f :: rest).drop n = more := by
      have happend := (List.take_append_drop n (0x2f :: rest)).trans htext
      exact List.append_cancel_left happend
    exact round_block hhead hlength hfollows
  | openComment comment => simp [Place.agrees] at hagrees
  | quoted literal =>
    obtain ⟨hquote, n, hlength, rfl⟩ := hspec
    obtain rfl : rest.drop n = more := by
      have happend := (List.take_append_drop n rest).trans (List.cons.inj htext).2
      exact List.append_cancel_left happend
    exact round_quoted hquote hlength hagrees
  | openQuoted literal =>
    obtain ⟨hquote, hlength, rfl⟩ := hspec
    obtain rfl : more = [] := by simpa [Lexeme.text] using htext
    have hsees : place.seesString (u :: rest) = true := by
      simpa [Place.agrees] using (Bool.and_eq_true _ _ ▸ hagrees).2
    exact round_openQuoted hquote hlength hsees
  | dollarQuoted tag inner =>
    obtain ⟨-, htag, more', htext', habsent⟩ := hspec
    obtain rfl := htag.head htext'
    obtain rfl : more' = more := by
      have happend := htext'.symm.trans htext
      simpa [Lexeme.text] using happend
    exact round_dollar htag htext' habsent hagrees hfollows
  | openDollar tag inner =>
    obtain ⟨-, htag, htext', habsent⟩ := hspec
    obtain rfl := htag.head htext'
    obtain rfl : more = [] := by
      have happend := htext'.symm.trans htext
      simpa [Lexeme.text] using happend
    have hsees : place.seesDollar (0x24 :: rest) tag = true := by
      simpa [Place.agrees] using (Bool.and_eq_true _ _ ▸ hagrees).2
    exact round_openDollar htag htext' habsent hsees hfollows

end Round

/-- A line comment, and the spaces behind it up to a line feed. -/
theorem round_line {rounds : Nat} {rest : Text} (hhead : rest.head? = some 0x2d) :
    let comment : Text := 0x2d :: rest.takeWhile fun v => !isNewline v
    let spaces := (rest.dropWhile fun v => !isNewline v).takeWhile (· ≠ 0x0a)
    let more := (rest.dropWhile fun v => !isNewline v).dropWhile (· ≠ 0x0a)
    normalizeFrom (rounds + 1) place.before (0x2d :: rest) out =
      normalizeFrom rounds (place.before ++ comment ++ spaces) more (space out) := by
  intro comment spaces more
  have htext : 0x2d :: rest = comment ++ (rest.dropWhile fun v => !isNewline v) := by
    simp [comment, List.takeWhile_append_dropWhile]
  have hcomment : ∀ v ∈ comment, decide (v ≠ 0x0a) = true := by
    intro v hv
    rcases List.mem_cons.mp hv with rfl | hv
    · decide
    · have hline := List.mem_takeWhile_imp hv
      refine decide_eq_true fun heq => ?_
      subst heq
      exact absurd hline (by decide)
  have htake : (0x2d :: rest).takeWhile (· ≠ 0x0a) = comment ++ spaces := by
    rw [htext, List.takeWhile_append_of_pos hcomment]
  have hdrop : (0x2d :: rest).dropWhile (· ≠ 0x0a) = more := by
    rw [htext, List.dropWhile_append_of_pos hcomment]
  have hsplit := List.takeWhile_append_dropWhile (p := fun v => decide (v ≠ (0x0a : CodeUnit)))
    (l := (0x2d :: rest : Text))
  have hstop := indexOf_singleton (0x0a : CodeUnit) (0x2d :: rest)
  rw [List.length_cons] at hstop
  rw [htake, hdrop] at hsplit
  rw [normalizeFrom_line hhead hstop, htake, ← hsplit, List.take_left, List.drop_left,
    List.append_assoc]

/-- On a plain text the scanner makes the squeezed text. -/
theorem normalizeFrom_eq {n : Nat} : ∀ {text : Text}, text.length ≤ n →
    ∀ {rounds : Nat} {place : Place} {top : Bool} {out : Text}, text.length ≤ rounds →
      plain top place text = true → Follows place out →
        normalizeFrom rounds place.before text out = out ++ squeeze place.context text := by
  induction n with
  | zero =>
    intro text hn rounds place top out _ _ _
    obtain rfl := List.length_eq_zero_iff.mp (Nat.le_zero.mp hn)
    cases rounds <;> simp [normalizeFrom]
  | succ n ih =>
    intro text hn rounds place top out hrounds hplain hfollows
    cases text with
    | nil => cases rounds <;> simp [normalizeFrom]
    | cons u rest =>
    cases rounds with
    | zero => simp at hrounds
    | succ rounds =>
    rw [List.length_cons, Nat.succ_le_succ_iff] at hn hrounds
    obtain ⟨lexeme, hlexeme⟩ : ∃ lexeme, lexemeAt place.context u rest = lexeme := ⟨_, rfl⟩
    have hspec := lexemeAt_spec place.context u rest
    rw [hlexeme] at hspec
    obtain ⟨more, htext, hmore, hinner⟩ := hspec.text
    obtain ⟨hagrees, hbody, hrest⟩ := (plain_cons hlexeme htext).mp hplain
    rw [squeeze_cons hlexeme htext]
    by_cases hline : ∃ comment, lexeme = .lineComment comment
    · obtain ⟨comment, rfl⟩ := hline
      obtain ⟨rfl, hhead, hcomment⟩ := hspec
      obtain ⟨after, hafter⟩ : ∃ after, (rest.dropWhile fun v => !isNewline v) = after := ⟨_, rfl⟩
      obtain rfl : more = after := by
        have hwhole := List.takeWhile_append_dropWhile (p := fun v => !isNewline v) (l := rest)
        have hcons := (List.cons.inj (htext.trans (congrArg (· ++ more) hcomment))).2
        rw [hafter] at hwhole
        exact List.append_cancel_left (hcons.symm.trans hwhole.symm)
      have hspaces : ∀ v ∈ more.takeWhile (· ≠ 0x0a), isSpace v = true := by
        simp only [Place.agrees] at hagrees
        rw [htext] at hagrees
        simpa only [Lexeme.text, List.drop_left, List.all_eq_true] using hagrees
      have hgap : (place.after (.lineComment comment)).context.gap ≠ .adjacent := gap_after_ne rfl
      have hsplit := List.takeWhile_append_dropWhile (p := fun v => decide (v ≠ (0x0a : CodeUnit)))
        (l := more)
      rw [← hsplit] at hrest
      obtain ⟨place', hplain', hbefore, hrun, hgap', hsqueeze⟩ :=
        exists_place_of_spaces hspaces hgap hrest
      have hlength : (more.dropWhile (· ≠ 0x0a)).length ≤ more.length :=
        (List.dropWhile_suffix _).length_le
      have hown := ih ((hlength.trans hmore).trans hn) ((hlength.trans hmore).trans hrounds) hplain'
        (hfollows.gap hrun hgap')
      have hrest' : squeeze (place.context.after (.lineComment comment)) more =
          squeeze place'.context (more.dropWhile (· ≠ 0x0a)) := by
        rw [hsplit] at hsqueeze
        exact hsqueeze
      have hplace : place'.before = place.before ++ comment ++ more.takeWhile (· ≠ 0x0a) := hbefore
      rw [round_line hhead, hafter, ← hcomment, ← hplace, hown, hfollows.space_eq, hrest',
        List.append_assoc]
      rfl
    · obtain ⟨hround, hnext⟩ : Rounds rounds place lexeme (u :: rest) more out :=
        scanner_round hspec htext hagrees (fun comment heq => hline ⟨comment, heq⟩) hfollows
      -- the body of a function is made of a text of its own
      have hmade : place.context.squeezed (fun inner => normalizeFrom rounds [] inner []) lexeme =
          place.context.squeezed (squeeze .start) lexeme := by
        by_cases hopens : place.context.opensBody = true
        · refine squeezed_congr ?_
          have hown := ih (hinner.trans hn) (hinner.trans hrounds) (hbody hopens) follows_start
          simpa [Place.start] using hown
        · cases lexeme <;> simp [Context.squeezed, hopens]
      rw [hround, hmade]
      rw [hmade] at hnext
      rcases hnext with rfl | hnext
      · cases rounds <;> simp [normalizeFrom]
      · rw [ih (hmore.trans hn) (hmore.trans hrounds) hrest hnext]
        simp [Place.after]

end Squeezing

end MpcRegistry.Migrations
