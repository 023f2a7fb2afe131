import MpcRegistry.Migrations.Lexer

/-!
# Lexemes of a text

Every lexeme takes up the start of what is left, so that reading and squeezing come to the end.
What closes a lexeme is in it: what stands behind it does not count, but for a quote.
-/
namespace MpcRegistry.Migrations.Lexer
open Library

/-! ## Quoted tokens -/

section Quoted

variable {escapes escapes' : Bool} {quote : CodeUnit} {text more : Text} {n : Nat}

theorem quotedLength_pos (h : quotedLength escapes quote text = some n) : 0 < n := by
  unfold quotedLength at h
  split at h
  · cases h
  · split at h
    · obtain rfl := Option.some.inj h
      exact Nat.one_pos
    · cases h
  · split_ifs at h
    · obtain ⟨m, -, rfl⟩ := Option.map_eq_some_iff.mp h
      omega
    · obtain ⟨m, -, rfl⟩ := Option.map_eq_some_iff.mp h
      omega
    · obtain rfl := Option.some.inj h
      exact Nat.one_pos
    · obtain ⟨m, -, rfl⟩ := Option.map_eq_some_iff.mp h
      omega

theorem quotedLength_le (h : quotedLength escapes quote text = some n) : n ≤ text.length := by
  fun_induction quotedLength escapes quote text generalizing n with
  | case1 => cases h
  | case2 =>
    obtain rfl := Option.some.inj h
    exact Nat.le_refl _
  | case3 => cases h
  | case4 ch next rest hescape ih =>
    obtain ⟨m, hm, rfl⟩ := Option.map_eq_some_iff.mp h
    have hle := ih hm
    simp only [List.length_cons]
    omega
  | case5 rest hescape ih =>
    obtain ⟨m, hm, rfl⟩ := Option.map_eq_some_iff.mp h
    have hle := ih hm
    simp only [List.length_cons]
    omega
  | case6 next rest hnext hescape =>
    obtain rfl := Option.some.inj h
    simp
  | case7 ch next rest hescape hquote ih =>
    obtain ⟨m, hm, rfl⟩ := Option.map_eq_some_iff.mp h
    have hle := ih hm
    simp only [List.length_cons] at hle ⊢
    omega

/-- A closed token is closed whatever else comes behind it than one more quote. -/
theorem quotedLength_append (h : quotedLength escapes quote text = some n) (hquote : quote ≠ 0x5c)
    (hmore : more.head? ≠ some quote) :
    quotedLength escapes quote (text.take n ++ more) = some n := by
  have hclosed : quotedLength escapes quote (quote :: more) = some 1 := by
    cases more with
    | nil => simp [quotedLength]
    | cons next more =>
      have hnext : next ≠ quote := fun heq => hmore (by simp [heq])
      simp [quotedLength, hquote, hnext]
  fun_induction quotedLength escapes quote text generalizing n with
  | case1 => cases h
  | case2 =>
    obtain rfl := Option.some.inj h
    exact hclosed
  | case3 => cases h
  | case4 ch next rest hescape ih =>
    obtain ⟨m, hm, rfl⟩ := Option.map_eq_some_iff.mp h
    rw [Nat.add_comm 2 m]
    simp [quotedLength, hescape, ih hm, Nat.add_comm]
  | case5 rest hescape ih =>
    obtain ⟨m, hm, rfl⟩ := Option.map_eq_some_iff.mp h
    rw [Nat.add_comm 2 m]
    simp [quotedLength, hquote, ih hm, Nat.add_comm]
  | case6 next rest hnext hescape =>
    obtain rfl := Option.some.inj h
    exact hclosed
  | case7 ch next rest hescape hch ih =>
    obtain ⟨m, hm, rfl⟩ := Option.map_eq_some_iff.mp h
    have hpos := quotedLength_pos hm
    have hrest := ih hm
    obtain ⟨m, rfl⟩ := Nat.exists_eq_succ_of_ne_zero (Nat.pos_iff_ne_zero.mp hpos)
    rw [Nat.add_comm 1]
    simp only [Nat.succ_eq_add_one, List.take_succ_cons, List.cons_append] at hrest ⊢
    unfold quotedLength
    simp [hescape, hch, hrest, Nat.add_comm]

theorem quotedLength_last (h : quotedLength escapes quote text = some n) :
    (text.take n).getLast? = some quote := by
  fun_induction quotedLength escapes quote text generalizing n with
  | case1 => cases h
  | case2 =>
    obtain rfl := Option.some.inj h
    rfl
  | case3 => cases h
  | case4 ch next rest hescape ih =>
    obtain ⟨m, hm, rfl⟩ := Option.map_eq_some_iff.mp h
    rw [Nat.add_comm, List.take_succ_cons, List.take_succ_cons, List.getLast?_cons,
      List.getLast?_cons, ih hm]
    rfl
  | case5 rest hescape ih =>
    obtain ⟨m, hm, rfl⟩ := Option.map_eq_some_iff.mp h
    rw [Nat.add_comm, List.take_succ_cons, List.take_succ_cons, List.getLast?_cons,
      List.getLast?_cons, ih hm]
    rfl
  | case6 next rest hnext hescape =>
    obtain rfl := Option.some.inj h
    rfl
  | case7 ch next rest hescape hch ih =>
    obtain ⟨m, hm, rfl⟩ := Option.map_eq_some_iff.mp h
    rw [Nat.add_comm, List.take_succ_cons, List.getLast?_cons, ih hm]
    rfl

/-- What comes behind a closed token is no quote. -/
theorem quotedLength_next (h : quotedLength escapes quote text = some n) :
    (text.drop n).head? ≠ some quote := by
  fun_induction quotedLength escapes quote text generalizing n with
  | case1 => cases h
  | case2 =>
    obtain rfl := Option.some.inj h
    simp
  | case3 => cases h
  | case4 ch next rest hescape ih =>
    obtain ⟨m, hm, rfl⟩ := Option.map_eq_some_iff.mp h
    rw [Nat.add_comm]
    exact ih hm
  | case5 rest hescape ih =>
    obtain ⟨m, hm, rfl⟩ := Option.map_eq_some_iff.mp h
    rw [Nat.add_comm]
    exact ih hm
  | case6 next rest hnext hescape =>
    obtain rfl := Option.some.inj h
    simpa using hnext
  | case7 ch next rest hescape hch ih =>
    obtain ⟨m, hm, rfl⟩ := Option.map_eq_some_iff.mp h
    rw [Nat.add_comm]
    exact ih hm

/-- Without a backslash it makes no difference whether one escapes. -/
theorem quotedLength_of_no_backslash (hno : 0x5c ∉ text) :
    quotedLength escapes quote text = quotedLength false quote text := by
  fun_induction quotedLength escapes quote text with
  | case1 => rfl
  | case2 => simp [quotedLength]
  | case3 ch hch => simp [quotedLength, hch]
  | case4 ch next rest hescape ih => simp_all
  | case5 rest hescape ih =>
    have hrest : 0x5c ∉ rest := fun h => hno (by simp [h])
    simp [quotedLength, ih hrest]
  | case6 next rest hnext hescape => simp [quotedLength, hnext]
  | case7 ch next rest hescape hch ih =>
    have hrest : 0x5c ∉ next :: rest := fun h => hno (List.mem_cons_of_mem _ h)
    rw [ih hrest]
    conv_rhs => unfold quotedLength
    simp [hch]

theorem quotedLength_congr (h : quotedLength escapes quote text = some n) (hquote : quote ≠ 0x5c)
    (hno : 0x5c ∉ text.take n) : quotedLength escapes' quote text = some n := by
  have hclosed : quotedLength escapes quote (text.take n ++ []) = some n :=
    quotedLength_append h hquote (by simp)
  rw [List.append_nil, quotedLength_of_no_backslash hno] at hclosed
  have hclosed' : quotedLength escapes' quote (text.take n) = some n := by
    rw [quotedLength_of_no_backslash hno, hclosed]
  have happend := quotedLength_append hclosed' hquote (quotedLength_next h)
  rwa [List.take_take, Nat.min_self, List.take_append_drop] at happend

/-- The scanner comes to the same end, or to the end of the text. -/
theorem quotedRest_eq : quotedRest escapes quote text =
    (quotedLength escapes quote text).getD text.length := by
  fun_induction quotedLength escapes quote text with
  | case1 => rfl
  | case2 => rfl
  | case3 => rfl
  | case4 ch next rest hescape ih =>
    simp only [quotedRest, hescape, if_true, ih]
    cases quotedLength escapes quote rest with
    | none =>
      simp only [Option.map_none, Option.getD_none, List.length_cons]
      omega
    | some m => rfl
  | case5 rest hescape ih =>
    simp only [quotedRest, hescape, if_true, ih]
    cases quotedLength escapes quote rest with
    | none =>
      simp only [Option.map_none, Option.getD_none, List.length_cons]
      simp
      omega
    | some m => simp
  | case6 next rest hnext hescape => simp [quotedRest, hescape, hnext]
  | case7 ch next rest hescape hch ih =>
    unfold quotedRest
    simp only [hescape, hch, if_false, ih]
    cases quotedLength escapes quote (next :: rest) with
    | none =>
      simp only [Option.map_none, Option.getD_none, List.length_cons]
      simp
      omega
    | some m => simp

end Quoted

/-! ## Block comments -/

section Comments

variable {depth n : Nat} {text : Text}

theorem commentLength_spec (h : commentLength depth text = some n) :
    0 < n ∧ n ≤ text.length ∧ ∀ more, commentLength depth (text.take n ++ more) = some n := by
  fun_induction commentLength depth text generalizing n with
  | case1 => cases h
  | case2 => cases h
  | case3 depth ch next rest hopen ih =>
    obtain ⟨m, hm, rfl⟩ := Option.map_eq_some_iff.mp h
    obtain ⟨-, hle, happend⟩ := ih hm
    refine ⟨by omega, by simp only [List.length_cons]; omega, fun more => ?_⟩
    rw [Nat.add_comm 2 m]
    simp [commentLength, hopen, happend more, Nat.add_comm]
  | case4 depth ch next rest hopen hclose hdepth =>
    obtain rfl := Option.some.inj h
    exact ⟨by omega, by simp, fun more => by simp [commentLength, hopen, hclose, hdepth]⟩
  | case5 depth ch next rest hopen hclose hdepth ih =>
    obtain ⟨m, hm, rfl⟩ := Option.map_eq_some_iff.mp h
    obtain ⟨-, hle, happend⟩ := ih hm
    refine ⟨by omega, by simp only [List.length_cons]; omega, fun more => ?_⟩
    rw [Nat.add_comm 2 m]
    simp [commentLength, hopen, hclose, hdepth, happend more, Nat.add_comm]
  | case6 depth ch next rest hopen hclose ih =>
    obtain ⟨m, hm, rfl⟩ := Option.map_eq_some_iff.mp h
    obtain ⟨hpos, hle, happend⟩ := ih hm
    refine ⟨by omega, by simp only [List.length_cons] at hle ⊢; omega, fun more => ?_⟩
    obtain ⟨m, rfl⟩ := Nat.exists_eq_succ_of_ne_zero (Nat.pos_iff_ne_zero.mp hpos)
    have hrest := happend more
    rw [Nat.add_comm 1]
    simp only [Nat.succ_eq_add_one, List.take_succ_cons, List.cons_append] at hrest ⊢
    unfold commentLength
    simp [hopen, hclose, hrest, Nat.add_comm]

theorem commentRest_eq : commentRest depth text = (commentLength depth text).getD text.length := by
  fun_induction commentLength depth text with
  | case1 => rfl
  | case2 => rfl
  | case3 depth ch next rest hopen ih =>
    simp only [commentRest, hopen, if_true, ih]
    cases commentLength (depth + 1) rest with
    | none =>
      simp only [Option.map_none, Option.getD_none, List.length_cons]
      omega
    | some m => rfl
  | case4 depth ch next rest hopen hclose hdepth =>
    have hlast : depth - 1 = 0 := by omega
    simp [commentRest, hopen, hclose, hlast]
  | case5 depth ch next rest hopen hclose hdepth ih =>
    have hlast : ¬ depth - 1 = 0 := by omega
    simp only [commentRest, hopen, hclose, hlast, if_false, if_true, ih]
    cases commentLength (depth - 1) rest with
    | none =>
      simp only [Option.map_none, Option.getD_none, List.length_cons]
      simp
      omega
    | some m => simp
  | case6 depth ch next rest hopen hclose ih =>
    unfold commentRest
    simp only [hopen, hclose, ih]
    cases commentLength depth (next :: rest) with
    | none =>
      simp only [Option.map_none, Option.getD_none, List.length_cons]
      simp
      omega
    | some m => simp

end Comments

/-! ## Dollar-quote tags -/

section Tags

variable {isStart isPart : CodeUnit → Bool} {text tag : Text}

/-- A name, or none, between two dollar signs. -/
def IsTag (isStart isPart : CodeUnit → Bool) (tag : Text) : Prop :=
  ∃ name : Text, tag = 0x24 :: (name ++ [0x24]) ∧ (∀ u ∈ name, isPart u = true) ∧
    name.head?.all isStart = true

theorem tagMatch_of_isTag (h : IsTag isStart isPart tag) (hdollar : isPart 0x24 = false)
    (more : Text) : tagMatch isStart isPart (tag ++ more) = some tag := by
  obtain ⟨name, rfl, hpart, hstart⟩ := h
  have htake : (name ++ [0x24] ++ more).takeWhile isPart = name := by
    rw [List.append_assoc, List.takeWhile_append_of_pos hpart]
    simp [hdollar]
  unfold tagMatch
  simp only [List.cons_append, htake]
  rw [List.append_assoc, List.drop_left]
  simp [hstart]

theorem isTag_of_tagMatch (h : tagMatch isStart isPart text = some tag) :
    tag <+: text ∧ IsTag isStart isPart tag := by
  unfold tagMatch at h
  split at h
  · next rest =>
    dsimp only at h
    split at h
    · next hclosed =>
      rw [Bool.and_eq_true, decide_eq_true_iff] at hclosed
      obtain ⟨hdollar, hstart⟩ := hclosed
      obtain rfl := Option.some.inj h
      obtain ⟨tail, htail⟩ : ∃ tail, rest.drop (rest.takeWhile isPart).length = 0x24 :: tail := by
        cases hdrop : rest.drop (rest.takeWhile isPart).length with
        | nil => simp [hdrop] at hdollar
        | cons u tail => exact ⟨tail, by simpa [hdrop] using hdollar⟩
      refine ⟨⟨tail, ?_⟩, _, rfl, fun u hu => List.mem_takeWhile_imp hu, hstart⟩
      have hrest := List.prefix_iff_eq_append.mp (List.takeWhile_prefix (l := rest) isPart)
      rw [htail] at hrest
      simpa using hrest
    · cases h
  · cases h

theorem tagMatch_eq_some_iff (hdollar : isPart 0x24 = false) :
    tagMatch isStart isPart text = some tag ↔ tag <+: text ∧ IsTag isStart isPart tag := by
  constructor
  · exact isTag_of_tagMatch
  · rintro ⟨⟨more, rfl⟩, htag⟩
    exact tagMatch_of_isTag htag hdollar more

theorem IsTag.ne_nil (h : IsTag isStart isPart tag) : tag ≠ [] := by
  obtain ⟨name, rfl, -⟩ := h
  exact List.cons_ne_nil _ _

theorem IsTag.getLast? (h : IsTag isStart isPart tag) : tag.getLast? = some 0x24 := by
  obtain ⟨name, rfl, -⟩ := h
  rw [List.getLast?_cons, List.getLast?_concat]
  rfl

theorem IsTag.not_mem (h : IsTag isStart isPart tag) {u : CodeUnit} (hpart : isPart u = false)
    (hdollar : u ≠ 0x24) : u ∉ tag := by
  obtain ⟨name, rfl, hname, -⟩ := h
  intro hmem
  rw [List.mem_cons, List.mem_append, List.mem_singleton] at hmem
  rcases hmem with heq | hmem | heq
  · exact hdollar heq
  · simp [hname u hmem] at hpart
  · exact hdollar heq

end Tags

/-! ## Lexemes -/

section Lexemes

variable {context : Context} {u : CodeUnit} {rest : Text}

/-- Nothing but a unit of a word, a number or an operator starts here. -/
structure PlainUnit (context : Context) (u : CodeUnit) (rest : Text) : Prop where
  quote : ¬ (u = 0x27 ∨ u = 0x22)
  line : ¬ (u = 0x2d ∧ rest.head? = some 0x2d)
  block : ¬ (u = 0x2f ∧ rest.head? = some 0x2a)
  space : isSpace u = false
  dollar : context.inWord = true ∨ tagMatch isIdentStart isTagPart (u :: rest) = none

/-- What a lexeme at a position says about the text. -/
def LexemeAt (context : Context) (u : CodeUnit) (rest : Text) : Lexeme → Prop
  | .unit v => v = u ∧ PlainUnit context u rest
  | .space v => v = u ∧ isSpace u = true
  | .lineComment text => u = 0x2d ∧ rest.head? = some 0x2d ∧
      text = u :: rest.takeWhile fun v => !isNewline v
  | .blockComment text => u = 0x2f ∧ rest.head? = some 0x2a ∧
      ∃ n, commentLength 0 (u :: rest) = some n ∧ text = (u :: rest).take n
  | .openComment text => u = 0x2f ∧ rest.head? = some 0x2a ∧
      commentLength 0 (u :: rest) = none ∧ text = u :: rest
  | .quoted text => (u = 0x27 ∨ u = 0x22) ∧
      ∃ n, quotedLength (u = 0x27 && context.escapes) u rest = some n ∧ text = u :: rest.take n
  | .openQuoted text => (u = 0x27 ∨ u = 0x22) ∧
      quotedLength (u = 0x27 && context.escapes) u rest = none ∧ text = u :: rest
  | .dollarQuoted tag inner => context.inWord = false ∧ IsTag isIdentStart isTagPart tag ∧
      ∃ more, u :: rest = tag ++ (inner ++ (tag ++ more)) ∧ Absent tag inner (tag ++ more)
  | .openDollar tag inner => context.inWord = false ∧ IsTag isIdentStart isTagPart tag ∧
      u :: rest = tag ++ inner ∧ Absent tag inner []

theorem lexemeAt_spec (context : Context) (u : CodeUnit) (rest : Text) :
    LexemeAt context u rest (lexemeAt context u rest) := by
  unfold lexemeAt
  split_ifs with hquote hdash hslash hspace hword
  · rw [Bool.or_eq_true, decide_eq_true_iff, decide_eq_true_iff] at hquote
    cases hlength : quotedLength (u = 0x27 && context.escapes) u rest with
    | none => exact ⟨hquote, hlength, rfl⟩
    | some n => exact ⟨hquote, n, hlength, rfl⟩
  · rw [Bool.and_eq_true, decide_eq_true_iff, decide_eq_true_iff] at hdash
    exact ⟨hdash.1, hdash.2, rfl⟩
  · rw [Bool.and_eq_true, decide_eq_true_iff, decide_eq_true_iff] at hslash
    cases hlength : commentLength 0 (u :: rest) with
    | none => exact ⟨hslash.1, hslash.2, hlength, rfl⟩
    | some n => exact ⟨hslash.1, hslash.2, n, hlength, rfl⟩
  · exact ⟨rfl, hspace⟩
  · exact ⟨rfl, by simpa using hquote, by simpa using hdash, by simpa using hslash,
      by simpa using hspace, .inl hword⟩
  · rw [Bool.not_eq_true] at hword
    cases htag : tagMatch isIdentStart isTagPart (u :: rest) with
    | none =>
      exact ⟨rfl, by simpa using hquote, by simpa using hdash, by simpa using hslash,
        by simpa using hspace, .inr htag⟩
    | some tag =>
      obtain ⟨⟨inside, hinside⟩, hisTag⟩ := isTag_of_tagMatch htag
      have hdrop : (u :: rest).drop tag.length = inside := by rw [← hinside, List.drop_left]
      dsimp only
      rw [hdrop]
      cases hindex : indexOf tag inside with
      | none =>
        exact ⟨hword, hisTag, hinside.symm, (indexOf_eq_none_iff hisTag.ne_nil).mp hindex⟩
      | some n =>
        obtain ⟨inner, more, rfl, rfl, habsent⟩ := indexOf_eq_some hindex
        dsimp only
        rw [List.take_left]
        exact ⟨hword, hisTag, more, hinside.symm, habsent⟩

theorem IsTag.head {isStart isPart : CodeUnit → Bool} {tag more : Text} {u : CodeUnit}
    (h : IsTag isStart isPart tag) (htext : u :: rest = tag ++ more) : u = 0x24 := by
  obtain ⟨name, rfl, -⟩ := h
  exact (List.cons.inj htext).1

theorem lexemeAt_eq {lexeme : Lexeme} (h : LexemeAt context u rest lexeme) :
    lexemeAt context u rest = lexeme := by
  cases lexeme with
  | unit v =>
    obtain ⟨rfl, hquote, hline, hblock, hspace, hdollar⟩ := h
    unfold lexemeAt
    rw [if_neg (by simpa using hquote), if_neg (by simpa using hline),
      if_neg (by simpa using hblock), if_neg (by simpa using hspace)]
    split_ifs with hword
    · rfl
    · rw [hdollar.resolve_left hword]
  | space v =>
    obtain ⟨rfl, hspace⟩ := h
    have hcases : v = 0x20 ∨ v = 0x09 ∨ v = 0x0a ∨ v = 0x0b ∨ v = 0x0c ∨ v = 0x0d := by
      simpa [isSpace] using hspace
    unfold lexemeAt
    rcases hcases with rfl | rfl | rfl | rfl | rfl | rfl <;> rfl
  | lineComment text =>
    obtain ⟨rfl, hhead, rfl⟩ := h
    simp [lexemeAt, hhead]
  | blockComment text =>
    obtain ⟨rfl, hhead, n, hlength, rfl⟩ := h
    simp [lexemeAt, hhead, hlength]
  | openComment text =>
    obtain ⟨rfl, hhead, hlength, rfl⟩ := h
    simp [lexemeAt, hhead, hlength]
  | quoted text =>
    obtain ⟨hquote, n, hlength, rfl⟩ := h
    unfold lexemeAt
    rw [if_pos (by simpa using hquote), hlength]
  | openQuoted text =>
    obtain ⟨hquote, hlength, rfl⟩ := h
    unfold lexemeAt
    rw [if_pos (by simpa using hquote), hlength]
  | dollarQuoted tag inner =>
    obtain ⟨hword, htag, more, htext, habsent⟩ := h
    obtain rfl := htag.head htext
    have hmatch : tagMatch isIdentStart isTagPart (0x24 :: rest) = some tag :=
      htext ▸ tagMatch_of_isTag htag (by decide) _
    unfold lexemeAt
    rw [if_neg (by decide), if_neg (by simp), if_neg (by simp), if_neg (by decide),
      if_neg (by simp [hword]), hmatch]
    dsimp only
    rw [htext, List.drop_left, indexOf_append_of_absent habsent]
    dsimp only
    rw [List.take_left]
  | openDollar tag inner =>
    obtain ⟨hword, htag, htext, habsent⟩ := h
    obtain rfl := htag.head htext
    have hmatch : tagMatch isIdentStart isTagPart (0x24 :: rest) = some tag :=
      htext ▸ tagMatch_of_isTag htag (by decide) _
    unfold lexemeAt
    rw [if_neg (by decide), if_neg (by simp), if_neg (by simp), if_neg (by decide),
      if_neg (by simp [hword]), hmatch]
    dsimp only
    rw [htext, List.drop_left, (indexOf_eq_none_iff htag.ne_nil).mpr habsent]

/-- A lexeme takes up the start of the text. -/
theorem LexemeAt.text {lexeme : Lexeme} (h : LexemeAt context u rest lexeme) :
    ∃ more, u :: rest = lexeme.text ++ more ∧ more.length ≤ rest.length ∧
      lexeme.inner.length ≤ rest.length := by
  cases lexeme with
  | unit v | space v =>
    obtain ⟨rfl, -⟩ := h
    exact ⟨rest, rfl, Nat.le_refl _, Nat.zero_le _⟩
  | lineComment text =>
    obtain ⟨-, -, rfl⟩ := h
    refine ⟨rest.dropWhile fun v => !isNewline v, ?_, (List.dropWhile_suffix _).length_le,
      Nat.zero_le _⟩
    simp [Lexeme.text, List.takeWhile_append_dropWhile]
  | blockComment text =>
    obtain ⟨-, -, n, hlength, rfl⟩ := h
    have hpos := (commentLength_spec hlength).1
    refine ⟨(u :: rest).drop n, (List.take_append_drop _ _).symm, ?_, Nat.zero_le _⟩
    rw [List.length_drop, List.length_cons]
    omega
  | openComment text =>
    obtain ⟨-, -, -, rfl⟩ := h
    exact ⟨[], (List.append_nil _).symm, Nat.zero_le _, Nat.zero_le _⟩
  | quoted text =>
    obtain ⟨-, n, -, rfl⟩ := h
    refine ⟨rest.drop n, ?_, by simp, Nat.zero_le _⟩
    simp [Lexeme.text]
  | openQuoted text =>
    obtain ⟨-, -, rfl⟩ := h
    exact ⟨[], (List.append_nil _).symm, Nat.zero_le _, Nat.zero_le _⟩
  | dollarQuoted tag inner =>
    obtain ⟨-, htag, more, htext, -⟩ := h
    have hpos := List.length_pos_iff.mpr htag.ne_nil
    have hlength := congrArg List.length htext
    simp only [List.length_cons, List.length_append] at hlength
    exact ⟨more, by simpa [Lexeme.text] using htext, by omega, by simp only [Lexeme.inner]; omega⟩
  | openDollar tag inner =>
    obtain ⟨-, htag, htext, -⟩ := h
    have hpos := List.length_pos_iff.mpr htag.ne_nil
    have hlength := congrArg List.length htext
    simp only [List.length_cons, List.length_append] at hlength
    exact ⟨[], by simpa [Lexeme.text] using htext, Nat.zero_le _, by simp only [Lexeme.inner]; omega⟩

/-- What is left behind the lexeme at a position. -/
theorem exists_rest (context : Context) (u : CodeUnit) (rest : Text) : ∃ more,
    u :: rest = (lexemeAt context u rest).text ++ more ∧
      (u :: rest).drop (lexemeAt context u rest).text.length = more ∧
      more.length ≤ rest.length ∧ (lexemeAt context u rest).inner.length ≤ rest.length := by
  obtain ⟨more, htext, hmore, hinner⟩ := (lexemeAt_spec context u rest).text
  exact ⟨more, htext, by rw [htext, List.drop_left], hmore, hinner⟩

end Lexemes

/-! ## Reading and squeezing come to the end -/

theorem tokens_congr {context : Context} {read read' : Text → List Token} {lexeme : Lexeme}
    (h : read lexeme.inner = read' lexeme.inner) :
    context.tokens read lexeme = context.tokens read' lexeme := by
  cases lexeme with
  | dollarQuoted tag inner =>
    simp only [Context.tokens]
    rw [show read inner = read' inner from h]
  | _ => rfl

theorem squeezed_congr {context : Context} {squeeze squeeze' : Text → Text} {lexeme : Lexeme}
    (h : squeeze lexeme.inner = squeeze' lexeme.inner) :
    context.squeezed squeeze lexeme = context.squeezed squeeze' lexeme := by
  cases lexeme with
  | dollarQuoted tag inner | openDollar tag inner =>
    simp only [Context.squeezed]
    rw [show squeeze inner = squeeze' inner from h]
  | _ => rfl

theorem readFrom_rounds {n m : Nat} {context : Context} {text : Text} (hn : text.length ≤ n)
    (hm : text.length ≤ m) : readFrom n context text = readFrom m context text := by
  induction n generalizing m context text with
  | zero =>
    obtain rfl := List.length_eq_zero_iff.mp (Nat.le_zero.mp hn)
    cases m <;> rfl
  | succ n ih =>
    cases text with
    | nil => cases m <;> rfl
    | cons u rest =>
      cases m with
      | zero => simp at hm
      | succ m =>
        rw [List.length_cons, Nat.succ_le_succ_iff] at hn hm
        obtain ⟨more, -, hdrop, hmore, hinner⟩ := exists_rest context u rest
        unfold readFrom
        dsimp only
        rw [hdrop, ih (hmore.trans hn) (hmore.trans hm),
          tokens_congr (ih (hinner.trans hn) (hinner.trans hm))]

theorem squeezeFrom_rounds {n m : Nat} {context : Context} {text : Text} (hn : text.length ≤ n)
    (hm : text.length ≤ m) : squeezeFrom n context text = squeezeFrom m context text := by
  induction n generalizing m context text with
  | zero =>
    obtain rfl := List.length_eq_zero_iff.mp (Nat.le_zero.mp hn)
    cases m <;> rfl
  | succ n ih =>
    cases text with
    | nil => cases m <;> rfl
    | cons u rest =>
      cases m with
      | zero => simp at hm
      | succ m =>
        rw [List.length_cons, Nat.succ_le_succ_iff] at hn hm
        obtain ⟨more, -, hdrop, hmore, hinner⟩ := exists_rest context u rest
        unfold squeezeFrom
        dsimp only
        rw [hdrop, ih (hmore.trans hn) (hmore.trans hm),
          squeezed_congr (ih (hinner.trans hn) (hinner.trans hm))]

section Reading

variable {context : Context} {u : CodeUnit} {rest more : Text} {lexeme : Lexeme}

/-- One round of reading. -/
theorem read_cons (hlexeme : lexemeAt context u rest = lexeme)
    (htext : u :: rest = lexeme.text ++ more) :
    read context (u :: rest) = (if context.divided && !lexeme.isGap then [.gap] else []) ++
      context.tokens (read .start) lexeme ++ read (context.after lexeme) more := by
  subst hlexeme
  obtain ⟨more', htext', hdrop, hmore, hinner⟩ := exists_rest context u rest
  obtain rfl : more = more' := List.append_cancel_left (htext.symm.trans htext')
  have hbody : context.tokens (readFrom rest.length .start) (lexemeAt context u rest) =
      context.tokens (read .start) (lexemeAt context u rest) :=
    tokens_congr (readFrom_rounds hinner (Nat.le_refl _))
  rw [read, List.length_cons, readFrom, hdrop, hbody, readFrom_rounds hmore (Nat.le_refl _)]
  rfl

theorem squeeze_cons (hlexeme : lexemeAt context u rest = lexeme)
    (htext : u :: rest = lexeme.text ++ more) :
    squeeze context (u :: rest) =
      context.squeezed (squeeze .start) lexeme ++ squeeze (context.after lexeme) more := by
  subst hlexeme
  obtain ⟨more', htext', hdrop, hmore, hinner⟩ := exists_rest context u rest
  obtain rfl : more = more' := List.append_cancel_left (htext.symm.trans htext')
  have hbody : context.squeezed (squeezeFrom rest.length .start) (lexemeAt context u rest) =
      context.squeezed (squeeze .start) (lexemeAt context u rest) :=
    squeezed_congr (squeezeFrom_rounds hinner (Nat.le_refl _))
  rw [squeeze, List.length_cons, squeezeFrom, hdrop, hbody,
    squeezeFrom_rounds hmore (Nat.le_refl _)]
  rfl

@[simp]
theorem read_nil (context : Context) : read context [] = [] := rfl

@[simp]
theorem squeeze_nil (context : Context) : squeeze context [] = [] := rfl

end Reading

end MpcRegistry.Migrations.Lexer
