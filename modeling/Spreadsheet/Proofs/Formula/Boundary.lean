/-
Strings and ranges that look past their end.

# Two kinds of pieces

Most pieces end where the characters end that belong to them, and what comes
after does not matter. Two kinds depend on it. A string is closed by a quote
that no other follows; only if there is no such quote does it end in the
middle of the last pair, and then a lone quote is left that is no token
(`stringLength?_append`). A range may not run into an operand.

# The second corner

Everything about a range after its colon is `cornerLength?`: blanks, then
letters and figures, and then something that goes on with neither. If what
follows goes on with a name or a call, the range gives up its second corner,
and one blank as well. Blanks that are put in after a range change its
length only where it had to leave a blank out in front of an operand
(`cornerLength?_append`). There the operand may be split by the new blanks,
so that its front becomes a corner; but some operand comes next in either
case (`OperandNext`), which is all that the grammar needs to refuse both
texts.
-/
import Spreadsheet.Proofs.Formula.Letters
import Spreadsheet.Proofs.Formula.Progress
import Spreadsheet.Proofs.Text.Padded

namespace Spreadsheet.Lexer

open Text (isBlank dropBlanks exists_blanks Padded)

-- ====================================================== strings

/-- A double quote that closes a string is followed by no other, or else
it is the first half of the last pair and no quote is left. -/
theorem closingQuote_cases {place n : Nat} {last : Option Nat} {cs : Text}
    (h : closingQuote place last cs = some n) :
    (last = some n ∧ .char '"' ∉ cs) ∨
      ∃ body rest, cs = body ++ rest ∧ n = place + body.length ∧
        ((rest.head? ≠ some (.char '"') ∧ ∀ rest' : Text, rest'.head? ≠ some (.char '"') →
            closingQuote place last (body ++ rest') = some n) ∨
          ∃ left, rest = .char '"' :: left ∧ .char '"' ∉ left) := by
  have hsingle : ∀ {place last} {rest : Text}, rest.head? ≠ some (.char '"') →
      closingQuote place last (.char '"' :: rest) = some (place + 1) := by
    intro place last rest hrest
    cases rest with
    | nil => rfl
    | cons c rest =>
        rw [closingQuote.eq_3, if_neg]
        rintro rfl
        exact hrest rfl
  induction place, last, cs using closingQuote.induct with
  | case1 place last => exact .inl ⟨h, List.not_mem_nil⟩
  | case2 place last =>
      obtain rfl := Option.some.inj h
      exact .inr ⟨[.char '"'], [], rfl, rfl, .inl ⟨by simp, fun rest' => hsingle⟩⟩
  | case3 place last cs ih =>
      rw [closingQuote.eq_3, if_pos rfl] at h
      rcases ih h with ⟨hlast, hnone⟩ | ⟨body, rest, rfl, rfl, hend⟩
      -- the pair closes the string, as no quote follows it
      · obtain rfl := Option.some.inj hlast
        exact .inr ⟨[.char '"'], .char '"' :: cs, rfl, rfl, .inr ⟨cs, rfl, hnone⟩⟩
      -- a later quote closes the string, and the pair is a part of it
      · refine .inr ⟨.char '"' :: .char '"' :: body, rest, rfl, by simp; omega, ?_⟩
        rcases hend with ⟨hrest, hclose⟩ | hend
        · refine .inl ⟨hrest, fun rest' hrest' => ?_⟩
          rw [List.cons_append, List.cons_append, closingQuote.eq_3, if_pos rfl]
          exact hclose rest' hrest'
        · exact .inr hend
  | case4 place last c cs hc =>
      rw [closingQuote.eq_3, if_neg hc] at h
      obtain rfl := Option.some.inj h
      refine .inr ⟨[.char '"'], c :: cs, rfl, rfl, .inl ⟨?_, fun rest' => hsingle⟩⟩
      rintro heq
      exact hc (Option.some.inj heq)
  | case5 place last c cs hnil hcons ih =>
      have hc : c ≠ .char '"' := by
        rintro rfl
        cases cs with
        | nil => exact hnil rfl rfl
        | cons d cs => exact hcons d cs rfl rfl
      rw [closingQuote_cons hc] at h
      rcases ih h with ⟨hlast, hnone⟩ | ⟨body, rest, rfl, rfl, hend⟩
      · exact .inl ⟨hlast, List.not_mem_cons_of_ne_of_not_mem hc.symm hnone⟩
      · refine .inr ⟨c :: body, rest, rfl, by simp; omega, ?_⟩
        rcases hend with ⟨hrest, hclose⟩ | hend
        · refine .inl ⟨hrest, fun rest' hrest' => ?_⟩
          rw [List.cons_append, closingQuote_cons hc]
          exact hclose rest' hrest'
        · exact .inr hend

variable {token rest rest' : Text}

/-- A string in front of one text is in front of another if no quote
joins it there. -/
theorem stringLength?_append (h : stringLength? (token ++ rest) = some token.length) :
    (∀ rest' : Text, (rest'.head? = some (.char '"') → rest.head? = some (.char '"')) →
        stringLength? (token ++ rest') = some token.length) ∨
      ∃ left, rest = .char '"' :: left ∧ .char '"' ∉ left := by
  obtain ⟨c, body, rfl⟩ := List.exists_cons_of_length_pos (stringLength?_pos h)
  rw [List.cons_append, List.length_cons] at h
  by_cases hdouble : c = .char '"'
  · subst hdouble
    rw [stringLength?.eq_1] at h
    obtain ⟨n, hn, heq⟩ := Option.map_eq_some_iff.mp h
    obtain rfl := Nat.succ.inj heq
    rcases closingQuote_cases hn with ⟨hnone, -⟩ | ⟨body', rest', hsplit, hlength, hend⟩
    · cases hnone
    · rw [Nat.zero_add] at hlength
      obtain ⟨rfl, rfl⟩ := List.append_inj hsplit hlength
      -- a quote that stands alone closes the string, or the first half of the last pair does
      rcases hend with ⟨hrest, hclose⟩ | hend
      · refine .inl fun rest' hrest' => ?_
        rw [List.cons_append, stringLength?.eq_1, hclose rest' fun heq => hrest (hrest' heq)]
        rfl
      · exact .inr hend
  · by_cases hsingle : c = .char '\''
    · subst hsingle
      rw [stringLength?.eq_2] at h
      split at h
      · next hmem =>
        have hstop : (body ++ rest).dropWhile (· ≠ .char '\'') ≠ [] := by
          intro hnil
          have hall := List.dropWhile_eq_nil_iff.mp hnil _ (List.contains_iff_mem.mp hmem)
          simp at hall
        obtain ⟨d, left, hleft⟩ := List.exists_cons_of_ne_nil hstop
        have hd : d = .char '\'' := by simpa using Text.eq_false_of_dropWhile hleft
        subst hd
        have hinside : ∀ d ∈ (body ++ rest).takeWhile (· ≠ .char '\''),
            (decide (d ≠ .char '\'')) = true := fun d => List.mem_takeWhile_imp
        have hsplit := (List.takeWhile_append_dropWhile (p := (· ≠ .char '\''))
          (l := body ++ rest)).symm
        have hlength := Option.some.inj h
        generalize (body ++ rest).takeWhile (· ≠ .char '\'') = inside at hsplit hlength hinside
        rw [hleft, List.append_cons] at hsplit
        obtain ⟨rfl, rfl⟩ := List.append_inj hsplit (by simp; omega)
        refine .inl fun rest' _ => ?_
        rw [List.cons_append, stringLength?.eq_2, if_pos (by simp), List.append_assoc,
          List.takeWhile_append_of_pos hinside]
        simp
      · cases h
    · rw [stringLength?_cons hdouble hsingle] at h
      cases h

-- ====================================================== ranges

/-- Can a name or a call go on with the character? -/
def goesOn (c : CodePoint) : Bool :=
  c = .char '_' || c = .char '.' || c = .char '('

/-- Can an operand open with the character? No range may stand right in
front of such a one. -/
def opensOperand (c : CodePoint) : Bool :=
  isAlphanumeric c || goesOn c

theorem isBlank_of_opensOperand {c : CodePoint} (hc : opensOperand c = true) :
    isBlank c = false := by
  cases hblank : isBlank c with
  | false => rfl
  | true =>
      rw [opensOperand, isAlphanumeric_of_isBlank hblank, goesOn, rangeEnd_blank hblank] at hc
      cases hc

/-- The length of the second corner of a range, with the blanks in front
of it, after the colon. -/
def cornerLength? (tail : Text) : Option Nat :=
  let after := tail.takeWhile isBlank
  let rest := tail.dropWhile isBlank
  let right := rest.takeWhile isAlphanumeric
  match rest.dropWhile isAlphanumeric with
  | c :: _ =>
    if goesOn c then if after.isEmpty then none else some (after.length - 1)
    else some (after.length + right.length)
  | [] => some (after.length + right.length)

variable {left before after right stop cs : Text}

/-- A range is its first corner, the colon and its second corner, with
blanks before the colon; those after it belong to the second corner. -/
theorem rangeLength?_colon (hleft : ∀ c ∈ left, isAlphanumeric c = true)
    (hbefore : ∀ c ∈ before, isBlank c = true) (tail : Text) :
    rangeLength? (left ++ (before ++ .char ':' :: tail))
      = (cornerLength? tail).map (left.length + before.length + 1 + ·) := by
  have hcolon := Text.takeWhile_blanks_cons (fun _ => isAlphanumeric_of_isBlank) hbefore
    (d := .char ':') rfl tail
  have hblanks := Text.takeWhile_isBlank_cons hbefore (d := .char ':') (by decide) tail
  unfold rangeLength? cornerLength? goesOn
  simp only [List.takeWhile_append_of_pos hleft, List.dropWhile_append_of_pos hleft, hcolon.1,
    hcolon.2, hblanks.1, hblanks.2, List.append_nil, Nat.add_assoc]
  cases (tail.dropWhile isBlank).dropWhile isAlphanumeric with
  | nil => rfl
  | cons c rest =>
      dsimp only
      rw [apply_ite (Option.map _), apply_ite (Option.map _)]
      rfl

/-- A range that is found has these parts, and its length is made up of
theirs. -/
theorem exists_of_rangeLength? {n : Nat} (h : rangeLength? cs = some n) :
    ∃ left before tail m, cs = left ++ (before ++ .char ':' :: tail) ∧
      (∀ c ∈ left, isAlphanumeric c = true) ∧ (∀ c ∈ before, isBlank c = true) ∧
      cornerLength? tail = some m ∧ n = left.length + before.length + 1 + m := by
  have hsplit : cs = cs.takeWhile isAlphanumeric
      ++ ((cs.dropWhile isAlphanumeric).takeWhile isBlank
        ++ (cs.dropWhile isAlphanumeric).dropWhile isBlank) := by
    rw [List.takeWhile_append_dropWhile, List.takeWhile_append_dropWhile]
  have hleft : ∀ c ∈ cs.takeWhile isAlphanumeric, isAlphanumeric c = true :=
    fun c => List.mem_takeWhile_imp
  have hbefore : ∀ c ∈ (cs.dropWhile isAlphanumeric).takeWhile isBlank, isBlank c = true :=
    fun c => List.mem_takeWhile_imp
  have hcolon : ∃ tail, (cs.dropWhile isAlphanumeric).dropWhile isBlank = .char ':' :: tail := by
    unfold rangeLength? at h
    dsimp only at h
    split at h
    · next rest hrest => exact ⟨rest, hrest⟩
    · cases h
  obtain ⟨tail, htail⟩ := hcolon
  rw [htail] at hsplit
  rw [hsplit, rangeLength?_colon hleft hbefore] at h
  obtain ⟨m, hm, rfl⟩ := Option.map_eq_some_iff.mp h
  exact ⟨_, _, tail, m, hsplit, hleft, hbefore, hm, rfl⟩

/-- A run is empty if the first character does not belong to it. -/
theorem no_run_of_head? {p : CodePoint → Bool} (h : ∀ c ∈ cs.head?, p c = false) :
    cs.takeWhile p = [] ∧ cs.dropWhile p = cs := by
  cases cs with
  | nil => exact ⟨rfl, rfl⟩
  | cons c cs =>
      have hc : ¬p c = true := by simp [h c rfl]
      exact ⟨List.takeWhile_cons_of_neg hc, List.dropWhile_cons_of_neg hc⟩

/-- The second corner, for a tail that is split into the blanks, the
corner and what stops it. -/
theorem cornerLength?_eq (hafter : ∀ c ∈ after, isBlank c = true)
    (hright : ∀ c ∈ right, isAlphanumeric c = true)
    (hblank : ∀ c ∈ (right ++ stop).head?, isBlank c = false)
    (hstop : ∀ c ∈ stop.head?, isAlphanumeric c = false) :
    cornerLength? (after ++ (right ++ stop))
      = if stop.head?.any goesOn then if after.isEmpty then none else some (after.length - 1)
        else some (after.length + right.length) := by
  unfold cornerLength?
  simp only [List.takeWhile_append_of_pos hafter, List.dropWhile_append_of_pos hafter,
    (no_run_of_head? hblank).1, (no_run_of_head? hblank).2, List.takeWhile_append_of_pos hright,
    List.dropWhile_append_of_pos hright, (no_run_of_head? hstop).1, (no_run_of_head? hstop).2,
    List.append_nil]
  cases stop <;> rfl

/-- Every tail is split in this way: blanks, a run of letters and
figures, and what stops it. -/
theorem exists_corner (tail : Text) :
    ∃ after right stop, tail = after ++ (right ++ stop) ∧ (∀ c ∈ after, isBlank c = true) ∧
      (∀ c ∈ right, isAlphanumeric c = true) ∧ (∀ c ∈ (right ++ stop).head?, isBlank c = false) ∧
      ∀ c ∈ stop.head?, isAlphanumeric c = false := by
  obtain ⟨after, hafter, hsplit, hblank⟩ := exists_blanks tail
  refine ⟨after, (dropBlanks tail).takeWhile isAlphanumeric,
    (dropBlanks tail).dropWhile isAlphanumeric, ?_, hafter, fun c => List.mem_takeWhile_imp, ?_,
    fun c hc => ?_⟩
  · rwa [List.takeWhile_append_dropWhile]
  · rwa [List.takeWhile_append_dropWhile]
  · obtain ⟨others, hothers⟩ := List.head?_eq_some_iff.mp hc
    exact Text.eq_false_of_dropWhile hothers

/-- An operand opens the text, past the blanks in front. -/
def OperandNext (cs : Text) : Prop :=
  ∃ c, (dropBlanks cs).head? = some c ∧ opensOperand c = true

/-- What an operand opens with is not a blank, so the operand comes
next. -/
theorem operandNext_cons {c : CodePoint} (hc : opensOperand c = true) (cs : Text) :
    OperandNext (c :: cs) :=
  ⟨c, by rw [dropBlanks, List.dropWhile_cons_of_neg (by simp [isBlank_of_opensOperand hc])]; rfl, hc⟩

/-- What stops a run of letters and figures with blanks put in: the
character that stopped the run without them, or a blank that the rest of
the run follows. -/
theorem dropWhile_of_padded {c : CodePoint} {ds : Text}
    (hright : ∀ c ∈ right, isAlphanumeric c = true) (hc : isAlphanumeric c = false)
    (hopens : opensOperand c = true) (h : Padded (right ++ c :: cs) ds) :
    ∃ d rest, ds.dropWhile isAlphanumeric = d :: rest ∧
      (d = c ∨ isBlank d = true ∧ OperandNext (d :: rest)) := by
  -- the first blank that was put in, unless the run is over
  have hput : ∀ {c b : CodePoint} {cs ds : Text}, opensOperand c = true → isBlank b = true →
      Padded (c :: cs) (b :: ds) → ∃ d rest, (b :: ds).dropWhile isAlphanumeric = d :: rest ∧
        (isBlank d = true ∧ OperandNext (d :: rest)) := by
    intro c b cs ds hc hb hpadded
    have hstays := List.dropWhile_cons_of_neg (l := ds)
      (show ¬isAlphanumeric b = true by simp [isAlphanumeric_of_isBlank hb])
    obtain ⟨d, hd, hopens⟩ := operandNext_cons hc cs
    exact ⟨b, ds, hstays, hb, d, hpadded.head?_dropBlanks.trans hd, hopens⟩
  induction right generalizing ds with
  | nil =>
      cases h with
      | keep _ h =>
          exact ⟨c, _, List.dropWhile_cons_of_neg (by simp [hc]), .inl rfl⟩
      | blank hb h =>
          obtain ⟨d, rest, hd, hnext⟩ := hput hopens hb (.blank hb h)
          exact ⟨d, rest, hd, .inr hnext⟩
  | cons r right ih =>
      obtain ⟨hr, hright⟩ := List.forall_mem_cons.mp hright
      have hropens : opensOperand r = true := by rw [opensOperand, hr, Bool.true_or]
      cases h with
      | keep _ h =>
          rw [List.dropWhile_cons_of_pos hr]
          exact ih hright h
      | blank hb h =>
          obtain ⟨d, rest, hd, hnext⟩ := hput hropens hb (.blank hb h)
          exact ⟨d, rest, hd, .inr hnext⟩

/-- What no operand opens neither goes on with a corner nor comes after
it as a name or a call. -/
theorem stops_corner (h : ∀ c ∈ cs.head?, opensOperand c = false) :
    (∀ c ∈ cs.head?, isAlphanumeric c = false) ∧ cs.head?.any goesOn = false := by
  cases cs with
  | nil => exact ⟨nofun, rfl⟩
  | cons c cs =>
      obtain ⟨hc, hc'⟩ := Bool.or_eq_false_iff.mp (h c rfl)
      exact ⟨fun d hd => Option.some.inj hd ▸ hc, hc'⟩

/-- A second corner that nothing goes on with takes in the blanks that
follow it, if it is empty, and nothing otherwise. -/
theorem cornerLength?_stopped (hafter : ∀ c ∈ after, isBlank c = true)
    (hright : ∀ c ∈ right, isAlphanumeric c = true)
    (hblank : ∀ c ∈ (right ++ stop).head?, isBlank c = false)
    (hstop : ∀ c ∈ stop.head?, opensOperand c = false) (h : Padded stop rest') :
    ∃ k, cornerLength? (after ++ (right ++ rest')) = some (after.length + right.length + k) ∧
      ∀ c ∈ rest'.take k, isBlank c = true := by
  cases right with
  | nil =>
      obtain ⟨gap, hgap, hsplit, hhead⟩ := exists_blanks rest'
      have hstart : (dropBlanks rest').head? = stop.head? := by
        rw [h.head?_dropBlanks, dropBlanks]
        cases stop with
        | nil => rfl
        | cons c stop => rw [List.dropWhile_cons_of_neg (by simp [hblank c rfl])]
      have hstops := stops_corner (show ∀ c ∈ (dropBlanks rest').head?, _ by rwa [hstart])
      have heq := cornerLength?_eq (List.forall_mem_append.mpr ⟨hafter, hgap⟩) hright
        (by exact hhead) hstops.1
      rw [hstops.2, List.append_assoc, List.nil_append, ← hsplit] at heq
      refine ⟨gap.length, by simpa using heq, fun c hc => ?_⟩
      rw [hsplit, List.take_left'] at hc
      · exact hgap c hc
      · rfl
  | cons r right =>
      have hhead : ∀ c ∈ rest'.head?, opensOperand c = false := by
        rcases h.head?_cases with heq | ⟨b, cs, rfl, hb⟩
        · rwa [heq]
        · rintro c hc
          obtain rfl := Option.some.inj hc
          rw [opensOperand, isAlphanumeric_of_isBlank hb, goesOn, rangeEnd_blank hb]
          rfl
      have hstops := stops_corner hhead
      have heq := cornerLength?_eq hafter hright (by exact hblank) hstops.1
      rw [hstops.2] at heq
      exact ⟨0, heq, by simp⟩

/-- What goes on with a name or a call is neither a letter nor a
figure. -/
theorem isAlphanumeric_of_goesOn {c : CodePoint} (hc : goesOn c = true) :
    isAlphanumeric c = false := by
  simp only [goesOn, Bool.or_eq_true, decide_eq_true_eq] at hc
  rcases hc with (rfl | rfl) | rfl <;> decide

/-- What stands on the left of a name or a call: the name itself, if
only its start. -/
theorem opensOperand_head? {c : CodePoint} (hright : ∀ c ∈ right, isAlphanumeric c = true)
    (hc : goesOn c = true) (cs : Text) :
    ∃ d, (right ++ c :: cs).head? = some d ∧ opensOperand d = true := by
  cases right with
  | nil => exact ⟨c, rfl, by rw [opensOperand, hc, Bool.or_true]⟩
  | cons r right =>
      exact ⟨r, rfl, by rw [opensOperand, hright r (List.mem_cons_self ..), Bool.true_or]⟩

/-- A second corner that ended at the last blank in front of an
operand. -/
theorem cornerLength?_operand {b c : CodePoint} (hafter : ∀ c ∈ after, isBlank c = true)
    (hb : isBlank b = true) (hright : ∀ c ∈ right, isAlphanumeric c = true)
    (hc : goesOn c = true) (h : Padded (b :: (right ++ c :: cs)) rest') :
    (∃ k, cornerLength? (after ++ rest') = some (after.length + k) ∧
        ∀ c ∈ rest'.take k, isBlank c = true) ∨
      ∃ n, cornerLength? (after ++ rest') = some n ∧ OperandNext ((after ++ rest').drop n) := by
  obtain ⟨o, ho, hopens⟩ := opensOperand_head? hright hc cs
  obtain ⟨gap, hgap, hsplit, hhead⟩ := exists_blanks rest'
  -- the blank is still there, and so is the operand after it
  have hne : gap ≠ [] := by
    rintro rfl
    rw [hsplit, List.nil_append] at h
    rcases h.head?_cases with heq | ⟨b', ds, heq, hb'⟩
    · rw [hhead b heq] at hb
      cases hb
    · rw [hhead b' (by rw [heq]; rfl)] at hb'
      cases hb'
  have hoperand : Padded (right ++ c :: cs) (dropBlanks rest') := by
    have hdrop := h.dropBlanks
    rw [dropBlanks, List.dropWhile_cons_of_pos hb] at hdrop
    obtain ⟨tail, htail⟩ := List.head?_eq_some_iff.mp ho
    rwa [htail, List.dropWhile_cons_of_neg (by simp [isBlank_of_opensOperand hopens]),
      ← htail] at hdrop
  obtain ⟨d, left, hstop, hd⟩ := dropWhile_of_padded hright (isAlphanumeric_of_goesOn hc)
    (by rw [opensOperand, hc, Bool.or_true]) hoperand
  have hrun : ∀ c ∈ (dropBlanks rest').takeWhile isAlphanumeric, isAlphanumeric c = true :=
    fun c => List.mem_takeWhile_imp
  have hrest : dropBlanks rest' = (dropBlanks rest').takeWhile isAlphanumeric ++ d :: left := by
    rw [← hstop, List.takeWhile_append_dropWhile]
  generalize (dropBlanks rest').takeWhile isAlphanumeric = run at hrun hrest
  rw [hrest] at hhead
  have heq := cornerLength?_eq (List.forall_mem_append.mpr ⟨hafter, hgap⟩) hrun hhead
    fun c hc => Option.some.inj hc ▸ Text.eq_false_of_dropWhile hstop
  rw [List.append_assoc, ← hrest, ← hsplit] at heq
  rcases hd with rfl | ⟨hblank, hnext⟩
  · refine .inl ⟨gap.length - 1, ?_, fun c hmem => ?_⟩
    · have hpos := List.length_pos_iff.mpr hne
      rw [heq, List.head?_cons, Option.any_some, if_pos hc, if_neg (by simp [hne]),
        List.length_append]
      congr 1
      omega
    · rw [hsplit] at hmem
      have htake : (gap ++ dropBlanks rest').take (gap.length - 1) = gap.take (gap.length - 1) :=
        List.take_append_of_le_length (Nat.sub_le _ _)
      rw [htake] at hmem
      exact hgap c (List.mem_of_mem_take hmem)
  · have hgoesOn : ¬goesOn d = true := by simp [goesOn, rangeEnd_blank hblank]
    rw [List.head?_cons, Option.any_some, if_neg hgoesOn] at heq
    refine .inr ⟨_, heq, ?_⟩
    rw [hsplit, hrest, ← List.append_assoc, ← List.append_assoc, ← List.length_append,
      List.drop_left']
    · exact hnext
    · rfl

/-- With blanks put in after it, a second corner takes in the blanks
that follow it at most. Or else it ended at the blank in front of an
operand, and it may take in the start of the operand now that a blank
follows that; but an operand comes next in either case. -/
theorem cornerLength?_append {corner : Text}
    (h : cornerLength? (corner ++ rest) = some corner.length) (hrest : Padded rest rest') :
    (∃ k, cornerLength? (corner ++ rest') = some (corner.length + k) ∧
        ∀ c ∈ rest'.take k, isBlank c = true) ∨
      OperandNext rest ∧ ∃ n, cornerLength? (corner ++ rest') = some n ∧
        OperandNext ((corner ++ rest').drop n) := by
  obtain ⟨after, right, stop, hsplit, hafter, hrun, hblank, hstop⟩ := exists_corner (corner ++ rest)
  rw [hsplit, cornerLength?_eq hafter hrun hblank hstop] at h
  -- nothing goes on after the corner
  have hstopped : (∀ c ∈ stop.head?, goesOn c = false) →
      ∃ k, cornerLength? (corner ++ rest') = some (corner.length + k) ∧
        ∀ c ∈ rest'.take k, isBlank c = true := by
    intro hends
    have hany : ¬stop.head?.any goesOn = true := by
      cases stop with
      | nil => exact nofun
      | cons c stop => simp [hends c rfl]
    rw [if_neg hany] at h
    have hlength := Option.some.inj h
    rw [← List.append_assoc] at hsplit
    obtain ⟨rfl, rfl⟩ := List.append_inj hsplit (by rw [List.length_append, hlength])
    rw [List.append_assoc, List.length_append]
    exact cornerLength?_stopped hafter hrun hblank
      (fun c hc => by rw [opensOperand, hstop c hc, hends c hc]; rfl) hrest
  cases stop with
  | nil => exact .inl (hstopped nofun)
  | cons c tail =>
      cases hc : goesOn c with
      | false => exact .inl (hstopped fun d hd => Option.some.inj hd ▸ hc)
      | true =>
          -- the range had to leave the last blank out
          rw [List.head?_cons, Option.any_some, if_pos hc] at h
          split at h
          · cases h
          · next hne =>
            have hlength := Option.some.inj h
            obtain ⟨front, b, rfl⟩ :=
              (List.eq_nil_or_concat' after).resolve_left (by simpa using hne)
            obtain ⟨hfront, hb⟩ := List.forall_mem_append.mp hafter
            have hb := hb b (List.mem_singleton_self b)
            rw [List.append_assoc, List.singleton_append] at hsplit
            obtain ⟨rfl, rfl⟩ := List.append_inj hsplit (by simpa using hlength.symm)
            refine (cornerLength?_operand hfront hb hrun hc hrest).imp_right fun hnext => ⟨?_, hnext⟩
            obtain ⟨o, ho, hopens⟩ := opensOperand_head? hrun hc tail
            obtain ⟨others, hothers⟩ := List.head?_eq_some_iff.mp ho
            rw [hothers]
            obtain ⟨d, hd, hopens'⟩ := operandNext_cons hopens others
            exact ⟨d, by rw [dropBlanks, List.dropWhile_cons_of_pos hb]; exact hd, hopens'⟩

end Spreadsheet.Lexer
