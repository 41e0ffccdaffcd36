/-
What the patterns of the lexer match.

# Matches

Which texts a pattern matches in front of which others is said here without
saying how the match is found: `Pattern` has one rule for each kind, with
the parts of a match and what may stand where. The text behind a match comes
into it for ranges only, which no operand may follow. One text may have
several matches in front, of different kinds or lengths.

# Matches and pieces

A piece is a match of one of the patterns (`pattern_of_piece?`), and where
one of them matches there is a piece (`piece?_ne_none`), though it may be
another match: an earlier kind goes before a later one, and a longer match
before a shorter. So the lexer stops exactly where no pattern matches
(`piece?_eq_none_iff`), which does not mention the order of the kinds at
all.
-/
import Spreadsheet.Proofs.Formula.Boundary
import Spreadsheet.Proofs.Formula.Progress

namespace Spreadsheet.Lexer

open Text (isBlank)

-- ====================================================== the patterns

/-- What may stand between double quotes: a quote only with another one
right after it. -/
inductive Doubled : Text → Prop
  | nil : Doubled []
  | pair {cs : Text} (h : Doubled cs) : Doubled (.char '"' :: .char '"' :: cs)
  | other {c : CodePoint} {cs : Text} (hc : c ≠ .char '"') (h : Doubled cs) : Doubled (c :: cs)

/-- One of the patterns matches the first text in front of the second
one. -/
inductive Pattern : Text → Text → Prop
  | blanks {token rest : Text} (hne : token ≠ []) (hblank : ∀ c ∈ token, isBlank c = true) :
      Pattern token rest
  | doubleQuoted {body rest : Text} (hbody : Doubled body) :
      Pattern (.char '"' :: (body ++ [.char '"'])) rest
  | singleQuoted {body rest : Text} (hbody : .char '\'' ∉ body) :
      Pattern (.char '\'' :: (body ++ [.char '\''])) rest
  | range {left before after right rest : Text} (hleft : ∀ c ∈ left, isAlphanumeric c = true)
      (hbefore : ∀ c ∈ before, isBlank c = true) (hafter : ∀ c ∈ after, isBlank c = true)
      (hright : ∀ c ∈ right, isAlphanumeric c = true)
      (hrest : ∀ c ∈ rest.head?, opensOperand c = false) :
      Pattern (left ++ (before ++ .char ':' :: (after ++ right))) rest
  | number {numeral : Decimal.Numeral} {rest : Text} (h : numeral.Proper) :
      Pattern numeral.text rest
  | name {c : CodePoint} {cs rest : Text} (hc : startsName c = true)
      (hcs : ∀ d ∈ cs, inName d = true) : Pattern (c :: cs) rest
  | comparison {rest : Text} (op : Comparator) : Pattern op.text rest
  | symbol {c : CodePoint} {rest : Text} (hc : c ∈ Text.ofString "+-*/(),") : Pattern [c] rest

-- ====================================================== strings

/-- A double quote that closes a string comes after a text in which
quotes are doubled. -/
theorem doubled_of_closingQuote {place n : Nat} {last : Option Nat} {cs : Text}
    (h : closingQuote place last cs = some n) :
    last = some n ∨ ∃ body rest, Doubled body ∧ cs = body ++ .char '"' :: rest ∧
      n = place + body.length + 1 := by
  induction place, last, cs using closingQuote.induct with
  | case1 place last => exact .inl h
  | case2 place last =>
      obtain rfl := Option.some.inj h
      exact .inr ⟨[], [], .nil, rfl, rfl⟩
  | case3 place last cs ih =>
      rw [closingQuote.eq_3, if_pos rfl] at h
      right
      rcases ih h with hlast | ⟨body, rest, hbody, rfl, rfl⟩
      · obtain rfl := Option.some.inj hlast
        exact ⟨[], .char '"' :: cs, .nil, rfl, rfl⟩
      · refine ⟨_, rest, .pair hbody, rfl, ?_⟩
        simp only [List.length_cons]
        omega
  | case4 place last c cs hc =>
      rw [closingQuote.eq_3, if_neg hc] at h
      obtain rfl := Option.some.inj h
      exact .inr ⟨[], c :: cs, .nil, rfl, rfl⟩
  | case5 place last c cs hnil hcons ih =>
      have hc : c ≠ .char '"' := by
        intro heq
        subst heq
        cases cs with
        | nil => exact hnil rfl rfl
        | cons d cs => exact hcons d cs rfl rfl
      rw [closingQuote_cons hc] at h
      apply (ih h).imp_right
      intro hfound
      obtain ⟨body, rest, hbody, rfl, rfl⟩ := hfound
      refine ⟨c :: body, rest, .other hc hbody, rfl, ?_⟩
      rw [List.length_cons]
      omega

/-- Where a double quote stands, or the string could be closed before,
one closes it. -/
theorem exists_closingQuote {last : Option Nat} {cs : Text}
    (h : last ≠ none ∨ .char '"' ∈ cs) (place : Nat) :
    ∃ n, closingQuote place last cs = some n := by
  induction place, last, cs using closingQuote.induct with
  | case1 place last =>
      have hlast := h.resolve_right List.not_mem_nil
      exact Option.ne_none_iff_exists'.mp hlast
  | case2 place last => exact ⟨place + 1, rfl⟩
  | case3 place last cs ih =>
      rw [closingQuote.eq_3, if_pos rfl]
      exact ih (.inl (Option.some_ne_none _))
  | case4 place last c cs hc => exact ⟨place + 1, by rw [closingQuote.eq_3, if_neg hc]⟩
  | case5 place last c cs hnil hcons ih =>
      rw [closingQuote.eq_4 place last c cs hnil hcons]
      apply ih
      apply h.imp_right
      intro hmem
      rcases List.mem_cons.mp hmem with rfl | hmem
      · cases cs with
        | nil => exact absurd rfl (hnil rfl)
        | cons d cs => exact absurd rfl (hcons d cs rfl)
      · exact hmem

-- ====================================================== the end of a range

/-- A second corner that no operand follows is found, or blanks after
the colon without it. -/
theorem exists_cornerLength? {after right rest : Text} (hafter : ∀ c ∈ after, isBlank c = true)
    (hright : ∀ c ∈ right, isAlphanumeric c = true)
    (hrest : ∀ c ∈ rest.head?, opensOperand c = false) :
    ∃ m, cornerLength? (after ++ (right ++ rest)) = some m := by
  obtain ⟨after', right', stop, hsplit, hafter', hright', hblank, hstop⟩ :=
    exists_corner (after ++ (right ++ rest))
  obtain ⟨hends, hends'⟩ := stops_corner hrest
  rw [hsplit, cornerLength?_eq hafter' hright' hblank hstop]
  cases after' with
  | cons b after' =>
      rw [List.isEmpty_cons, if_neg Bool.false_ne_true]
      split
      · exact ⟨_, rfl⟩
      · exact ⟨_, rfl⟩
  | nil =>
      -- then no blank stands after the colon, and both ways to split the text are one
      have hnil : after = [] := by
        cases after with
        | nil => rfl
        | cons b after =>
            rw [List.nil_append] at hsplit
            have hb := hblank b (by rw [← hsplit]; rfl)
            rw [hafter b (List.mem_cons_self ..)] at hb
            cases hb
      subst hnil
      have hsame : rest = stop := by
        have hdrop := congrArg (List.dropWhile isAlphanumeric) hsplit
        rwa [List.nil_append, List.nil_append, List.dropWhile_append_of_pos hright,
          List.dropWhile_append_of_pos hright', (no_run_of_head? hends).2,
          (no_run_of_head? hstop).2] at hdrop
      subst hsame
      rw [if_neg (Bool.eq_false_iff.mp hends')]
      exact ⟨_, rfl⟩

variable {cs : Text} {n : Nat}

/-- A range is two runs of letters and figures around a colon with
blanks, and no operand comes after it. -/
theorem parts_of_rangeLength? (h : rangeLength? cs = some n) :
    ∃ left before after right rest,
      cs = left ++ (before ++ .char ':' :: (after ++ right)) ++ rest ∧
      (left ++ (before ++ .char ':' :: (after ++ right))).length = n ∧
      (∀ c ∈ left, isAlphanumeric c = true) ∧ (∀ c ∈ before, isBlank c = true) ∧
      (∀ c ∈ after, isBlank c = true) ∧ (∀ c ∈ right, isAlphanumeric c = true) ∧
      ∀ c ∈ rest.head?, opensOperand c = false := by
  obtain ⟨left, before, tail, m, rfl, hleft, hbefore, hm, rfl⟩ := exists_of_rangeLength? h
  obtain ⟨after, right, stop, rfl, hafter, hright, hblank, hstop⟩ := exists_corner tail
  rw [cornerLength?_eq hafter hright hblank hstop] at hm
  split at hm
  · split at hm
    · cases hm
    · next hne =>
      -- the last blank is left in front of the operand
      obtain rfl := Option.some.inj hm
      obtain ⟨front, b, rfl⟩ :=
        (List.eq_nil_or_concat' after).resolve_left (by simpa using hne)
      obtain ⟨hfront, hb⟩ := List.forall_mem_append.mp hafter
      refine ⟨left, before, front, [], b :: (right ++ stop), ?_, ?_, hleft, hbefore, hfront,
        nofun, ?_⟩
      · simp only [List.append_assoc, List.cons_append, List.append_nil, List.nil_append]
      · simp only [List.length_append, List.length_cons, List.length_nil]
        omega
      · intro c hc
        obtain rfl := Option.some.inj hc
        apply Bool.eq_false_iff.mpr
        intro hopens
        have hblank := hb b (List.mem_singleton_self b)
        rw [isBlank_of_opensOperand hopens] at hblank
        cases hblank
  · next hends =>
    obtain rfl := Option.some.inj hm
    refine ⟨left, before, after, right, stop, ?_, ?_, hleft, hbefore, hafter, hright, ?_⟩
    · simp only [List.append_assoc, List.cons_append]
    · simp only [List.length_append, List.length_cons]
      omega
    · intro c hc
      rw [hc, Option.any_some] at hends
      unfold opensOperand
      rw [hstop c hc, Bool.eq_false_iff.mpr hends]
      rfl

-- ====================================================== the other kinds

/-- The blanks that are found are a match, since there is one of them at
least. -/
theorem pattern_of_blankLength? (h : blankLength? cs = some n) :
    ∃ token rest, cs = token ++ rest ∧ token.length = n ∧ Pattern token rest := by
  unfold blankLength? at h
  split at h
  · cases h
  · next hne =>
    refine ⟨cs.takeWhile isBlank, cs.dropWhile isBlank, List.takeWhile_append_dropWhile.symm,
      Option.some.inj h, .blanks ?_ fun c => List.mem_takeWhile_imp⟩
    intro hnil
    exact hne hnil

/-- A string that is found is a match: inside double quotes the quotes
are doubled, and inside single ones there are none. -/
theorem pattern_of_stringLength? (h : stringLength? cs = some n) :
    ∃ token rest, cs = token ++ rest ∧ token.length = n ∧ Pattern token rest := by
  unfold stringLength? at h
  split at h
  · next cs =>
    obtain ⟨m, hm, rfl⟩ := Option.map_eq_some_iff.mp h
    rcases doubled_of_closingQuote hm with hlast | ⟨body, rest, hbody, rfl, rfl⟩
    · cases hlast
    · refine ⟨_, rest, ?_, ?_, .doubleQuoted hbody⟩
      · simp only [List.append_assoc, List.cons_append, List.nil_append]
      · simp only [List.length_append, List.length_cons, List.length_nil]
        omega
  · next cs =>
    split at h
    · next hmem =>
      obtain ⟨inside, rest, rfl, hinside⟩ :=
        List.eq_append_cons_of_mem (List.contains_iff_mem.mp hmem)
      have hrun : (inside ++ .char '\'' :: rest).takeWhile (· ≠ .char '\'') = inside := by
        rw [List.takeWhile_append_of_pos, List.takeWhile_cons_of_neg (by simp), List.append_nil]
        intro c hc
        apply decide_eq_true
        intro heq
        exact hinside (heq ▸ hc)
      rw [hrun] at h
      refine ⟨_, rest, ?_, ?_, .singleQuoted hinside⟩
      · simp only [List.append_assoc, List.cons_append, List.nil_append]
      · rw [← Option.some.inj h]
        simp only [List.length_append, List.length_cons, List.length_nil]
    · cases h
  · cases h

theorem pattern_of_rangeLength? (h : rangeLength? cs = some n) :
    ∃ token rest, cs = token ++ rest ∧ token.length = n ∧ Pattern token rest := by
  obtain ⟨_, _, _, _, rest, hsplit, hlength, hleft, hbefore, hafter, hright, hrest⟩ :=
    parts_of_rangeLength? h
  exact ⟨_, rest, hsplit, hlength, .range hleft hbefore hafter hright hrest⟩

theorem pattern_of_numberLength? (h : numberLength? cs = some n) :
    ∃ token rest, cs = token ++ rest ∧ token.length = n ∧ Pattern token rest := by
  obtain ⟨⟨numeral, rest⟩, hscan, rfl⟩ := Option.map_eq_some_iff.mp h
  exact ⟨numeral.text, rest, (Decimal.Numeral.text_append_of_scan hscan).symm, rfl,
    .number (Decimal.Numeral.proper_of_scan hscan)⟩

/-- A name that is found is a match: it starts as a name may, and goes
on with what may stand inside one. -/
theorem pattern_of_nameLength? (h : nameLength? cs = some n) :
    ∃ token rest, cs = token ++ rest ∧ token.length = n ∧ Pattern token rest := by
  unfold nameLength? at h
  split at h
  · next c cs =>
    split at h
    · next hc =>
      refine ⟨c :: cs.takeWhile inName, cs.dropWhile inName, ?_, Option.some.inj h,
        .name hc fun d => List.mem_takeWhile_imp⟩
      rw [List.cons_append, List.takeWhile_append_dropWhile]
    · cases h
  · cases h

/-- A comparison of one character may turn out to be one of two, but it
is one. -/
theorem exists_comparator?_cons {c : CodePoint} (hc : c ∈ Text.ofString "><=") (rest : Text) :
    ∃ op, comparator? (c :: rest) = some op := by
  have hc : c = .char '>' ∨ c = .char '<' ∨ c = .char '=' := by
    simpa [Text.ofString, Text.ofChars] using hc
  rw [comparator?.eq_def]
  split
  case h_9 =>
    rcases hc with rfl | rfl | rfl <;> simp_all
  all_goals exact ⟨_, rfl⟩

theorem exists_comparator? (op : Comparator) (rest : Text) :
    ∃ found, comparator? (op.text ++ rest) = some found := by
  cases op with
  | greater => exact exists_comparator?_cons (c := '>') (by decide) rest
  | less => exact exists_comparator?_cons (c := '<') (by decide) rest
  | equal => exact exists_comparator?_cons (c := '=') (by decide) rest
  | atLeast => exact ⟨.atLeast, rfl⟩
  | atMost => exact ⟨.atMost, rfl⟩
  | doubleEqual => exact ⟨.doubleEqual, rfl⟩
  | unequal => exact ⟨.unequal, rfl⟩
  | angleUnequal => exact ⟨.angleUnequal, rfl⟩

/-- The symbols are these seven characters. Each of them is a piece by
itself, whatever follows. -/
theorem symbol?_ne_none_iff {c : CodePoint} {rest : Text} :
    symbol? (c :: rest) ≠ none ↔ c ∈ Text.ofString "+-*/()," := by
  have hmem : c ∈ Text.ofString "+-*/()," ↔ c = .char '+' ∨ c = .char '-' ∨ c = .char '*' ∨
      c = .char '/' ∨ c = .char '(' ∨ c = .char ')' ∨ c = .char ',' := by
    simp [Text.ofString, Text.ofChars]
  rw [hmem]
  constructor
  · intro h
    unfold symbol? at h
    split at h
    all_goals simp_all
  · intro h
    rcases h with rfl | rfl | rfl | rfl | rfl | rfl | rfl <;> exact Option.some_ne_none _

-- ====================================================== pieces

/-- A piece is a match of one of the patterns. The kinds are gone
through in the order in which the lexer tries them. -/
theorem pattern_of_piece? {lexeme : Option Lexeme} (h : piece? cs = some (lexeme, n)) :
    Pattern (cs.take n) (cs.drop n) := by
  have hmatch : ∃ token rest, cs = token ++ rest ∧ token.length = n ∧ Pattern token rest := by
    cases piece?_eq_some_iff.mp h with
    | blank hblank => exact pattern_of_blankLength? hblank
    | string _ hstring => exact pattern_of_stringLength? hstring
    | range _ _ hrange => exact pattern_of_rangeLength? hrange
    | number _ _ _ hnumber => exact pattern_of_numberLength? hnumber
    | name _ _ _ _ hname => exact pattern_of_nameLength? hname
    | @comparison op _ _ _ _ _ hop =>
        obtain ⟨rest, rfl⟩ := text_isPrefix_of_comparator? hop
        refine ⟨op.text, rest, rfl, ?_, .comparison op⟩
        rw [Text.ofString, Text.ofChars, List.length_map, String.length_toList]
    | symbol _ _ _ _ _ _ hsymbol =>
        obtain ⟨c, rest, rfl⟩ := List.exists_cons_of_ne_nil (ne_nil_of_symbol? hsymbol)
        have hc : symbol? (c :: rest) ≠ none := by
          rw [hsymbol]
          exact Option.some_ne_none _
        exact ⟨[c], rest, rfl, rfl, .symbol (symbol?_ne_none_iff.mp hc)⟩
  obtain ⟨token, rest, rfl, rfl, hpattern⟩ := hmatch
  rwa [List.take_left', List.drop_left']
  · rfl
  · rfl

/-- A text without a piece has none of any kind, since the lexer tries
each of them before it gives up. -/
theorem kinds_eq_none (h : piece? cs = none) :
    blankLength? cs = none ∧ stringLength? cs = none ∧ rangeLength? cs = none ∧
      numberLength? cs = none ∧ nameLength? cs = none ∧ comparator? cs = none ∧
      symbol? cs = none := by
  unfold piece? at h
  cases hblank : blankLength? cs with
  | some n => rw [hblank] at h; cases h
  | none =>
  rw [hblank] at h
  cases hstring : stringLength? cs with
  | some n => rw [hstring] at h; cases h
  | none =>
  rw [hstring] at h
  cases hrange : rangeLength? cs with
  | some n => rw [hrange] at h; cases h
  | none =>
  rw [hrange] at h
  cases hnumber : numberLength? cs with
  | some n => rw [hnumber] at h; cases h
  | none =>
  rw [hnumber] at h
  cases hname : nameLength? cs with
  | some n => rw [hname] at h; cases h
  | none =>
  rw [hname] at h
  cases hop : comparator? cs with
  | some op => rw [hop] at h; cases h
  | none =>
  rw [hop] at h
  exact ⟨rfl, rfl, rfl, rfl, rfl, rfl, Option.map_eq_none_iff.mp h⟩

/-- Where one of the patterns matches, there is a piece, perhaps of
another kind: an earlier one may take the text first. -/
theorem piece?_ne_none {token rest : Text} (h : Pattern token rest) :
    piece? (token ++ rest) ≠ none := by
  intro hnone
  obtain ⟨hblank, hstring, hrange, hnumber, hname, hop, hsymbol⟩ := kinds_eq_none hnone
  cases h with
  | blanks hne hall =>
      obtain ⟨c, token, rfl⟩ := List.exists_cons_of_ne_nil hne
      rw [List.cons_append, blankLength?_of_isBlank (hall c (List.mem_cons_self ..))] at hblank
      cases hblank
  | @doubleQuoted body _ hbody =>
      have hquote : .char '"' ∈ body ++ .char '"' :: rest :=
        List.mem_append_right _ (List.mem_cons_self ..)
      obtain ⟨n, hn⟩ := @exists_closingQuote none _ (.inr hquote) 0
      rw [List.cons_append, List.append_assoc, List.singleton_append, stringLength?.eq_1,
        hn] at hstring
      cases hstring
  | @singleQuoted body _ hbody =>
      rw [List.cons_append, stringLength?.eq_2, if_pos] at hstring
      · cases hstring
      · simp
  | @range left before after right _ hleft hbefore hafter hright hrest =>
      obtain ⟨m, hm⟩ := exists_cornerLength? hafter hright hrest
      have hcolon := rangeLength?_colon hleft hbefore (after ++ (right ++ rest))
      simp only [List.append_assoc, List.cons_append] at hrange
      rw [hcolon, hm] at hrange
      cases hrange
  | number hproper =>
      obtain ⟨found, left, hscan, -⟩ := Decimal.Numeral.scan_append hproper rest
      unfold numberLength? at hnumber
      rw [hscan] at hnumber
      cases hnumber
  | name hc hcs =>
      rw [List.cons_append, nameLength?, if_pos hc] at hname
      cases hname
  | comparison op =>
      obtain ⟨found, hfound⟩ := exists_comparator? op rest
      rw [hfound] at hop
      cases hop
  | symbol hc => exact symbol?_ne_none_iff.mpr hc hsymbol

/-- The lexer takes no piece exactly where no pattern matches. This says
where it stops without naming the functions it is made of. -/
theorem piece?_eq_none_iff :
    piece? cs = none ↔ ∀ token rest, cs = token ++ rest → ¬Pattern token rest := by
  constructor
  · intro hnone token rest hsplit hpattern
    subst hsplit
    exact piece?_ne_none hpattern hnone
  · intro h
    cases hpiece : piece? cs with
    | none => rfl
    | some found =>
        obtain ⟨lexeme, n⟩ := found
        exact absurd (pattern_of_piece? hpiece) (h _ _ (List.take_append_drop n cs).symm)

end Spreadsheet.Lexer
