/-
An evaluation reads only the cells that its formula names.

# Tokens and trees

The cells a formula reads are found in its tokens, ranges written out
(`Formula.reads`), while the evaluator meets references and ranges in a
tree, and a lookup goes to single cells of its table by their coordinates.
Two stores that show the same under the keys found give the same display
(`evaluateText_congr`).

# The argument

The argument follows the evaluator. An expression has the same text and the
same number in two environments as soon as they agree on its operands
(`sameValue_of_agree`), by induction on the expression; both values are
carried at once, since the one is found by the other. The functions that
look at cells on their own, the aggregates and the lookup, have a lemma
each. That the operands of the tree stand among the tokens is known of the
parser, and that trimming keeps the tokens is known of the lexer.

# Faults

Nothing is assumed about success. An environment may fail to show a cell,
and a formula may fail to be evaluated; two environments that agree then
fail alike. A formula that is no expression is evaluated without any cells,
so there is nothing to agree on.
-/
import Spreadsheet.Eval.Formula
import Spreadsheet.Proofs.Formula.Operands
import Spreadsheet.Proofs.Formula.Reads

namespace Spreadsheet

namespace Eval

/-- Two environments agree on a lexeme: the keys it names can be listed,
and show the same. -/
def AgreeOn (env env' : Environment) (lexeme : Lexeme) : Prop :=
  ∃ keys, Formula.keysOf lexeme = .ok keys ∧ ∀ key ∈ keys, env.shown key = env'.shown key

variable {env env' : Environment}

theorem AgreeOn.shown {key : Text} (h : AgreeOn env env' (.reference key)) :
    env.shown key = env'.shown key := by
  obtain ⟨keys, hkeys, hagree⟩ := h
  cases hkeys
  exact hagree key (List.mem_singleton_self key)

theorem AgreeOn.numberOf {key : Text} (h : AgreeOn env env' (.reference key)) :
    env.numberOf key = env'.numberOf key := by
  unfold Environment.numberOf
  rw [h.shown]

/-- Environments that agree on a range show the same in all its
cells. -/
theorem AgreeOn.cells {text : Text} {r : Range} (h : AgreeOn env env' (.range text))
    (hr : Range.parse? text = .ok (some r)) : ∀ key ∈ r.cells, env.shown key = env'.shown key := by
  obtain ⟨keys, hkeys, hagree⟩ := h
  obtain ⟨found, hfound, hkeys⟩ := bind_eq_ok.mp hkeys
  rw [hr] at hfound
  cases hfound
  cases hkeys
  exact hagree

-- ====================================================== aggregates

theorem mapM_congr_of_mem {α β : Type} {f g : α → Except Fault β} {as : List α}
    (h : ∀ a ∈ as, f a = g a) : as.mapM f = as.mapM g := by
  induction as with
  | nil => rfl
  | cons a as ih =>
      rw [List.mapM_cons, List.mapM_cons, h a (List.mem_cons_self ..),
        ih fun b hb => h b (List.mem_cons_of_mem _ hb)]

/-- An aggregate looks at the cells of its one argument, which is a
reference or a range. With any other argument it has no keys. -/
theorem agree_of_aggregateKeys {function : Aggregate} {args : List Expr} {keys : List Text}
    (hargs : ∀ lexeme ∈ Expr.operandsOfAll args, AgreeOn env env' lexeme)
    (hkeys : aggregateKeys function args = .ok keys) :
    ∀ key ∈ keys, env.shown key = env'.shown key := by
  unfold aggregateKeys at hkeys
  split at hkeys
  · next text =>
    obtain ⟨keys', hkeys', hagree⟩ :=
      hargs (.range text) (by simp [Expr.operandsOfAll, Expr.operands])
    rw [Formula.keysOf, hkeys] at hkeys'
    cases hkeys'
    exact hagree
  · next key =>
    cases hkeys
    intro k hk
    rw [List.mem_singleton.mp hk]
    exact (hargs (.reference key) (by simp [Expr.operandsOfAll, Expr.operands])).shown
  · cases hkeys
  · cases hkeys

/-- An aggregate is the same where its cells show the same. Which cells
these are is decided by the text of its argument alone. -/
theorem aggregate_congr (function : Aggregate) {args : List Expr}
    (hargs : ∀ lexeme ∈ Expr.operandsOfAll args, AgreeOn env env' lexeme) :
    aggregate env function args = aggregate env' function args := by
  unfold aggregate
  cases hkeys : aggregateKeys function args with
  | error fault => rfl
  | ok keys =>
      have hshown := agree_of_aggregateKeys hargs hkeys
      have htexts : keys.mapM env.shown = keys.mapM env'.shown := mapM_congr_of_mem hshown
      have hnumbers : keys.mapM env.numberOf = keys.mapM env'.numberOf :=
        mapM_congr_of_mem fun key hkey => by
          unfold Environment.numberOf
          rw [hshown key hkey]
      rw [ok_bind, ok_bind, htexts, hnumbers]

-- ====================================================== lookups

/-- A column that is accepted is one of the table, so no cell outside
the table is looked at. -/
theorem lookupColumn_bounds {table : Range} {number : Option Binary64} {column : Int}
    (h : lookupColumn table number = .ok column) : 0 ≤ column ∧ column < table.cols := by
  unfold lookupColumn at h
  split at h
  · cases h
  · split at h
    · cases h
    · split at h
      · cases h
      · split at h
        · cases h
        · cases h
          omega

/-- The exact search finds one of the rows that it goes through. -/
theorem mem_of_exactRow {table : Range} {wanted : Content} {rows : List Int} {row : Int}
    (h : exactRow env table wanted rows = .ok (some row)) : row ∈ rows := by
  induction rows with
  | nil => cases h
  | cons first rows ih =>
      obtain ⟨content, -, h⟩ := bind_eq_ok.mp h
      split at h
      · cases h
        exact List.mem_cons_self ..
      · exact List.mem_cons_of_mem _ (ih h)

/-- The rows that the approximate search goes through hold the row it
finds, unless it was found before them. -/
theorem mem_of_approximateRowFrom {table : Range} {numeric : Bool} {target : SearchKey}
    {found : Option Int} {rows : List Int} {row : Int}
    (h : approximateRowFrom env table numeric target found rows = .ok (some row)) :
    found = some row ∨ row ∈ rows := by
  induction rows generalizing found with
  | nil =>
      cases h
      exact .inl rfl
  | cons first rows ih =>
      obtain ⟨content, -, h⟩ := bind_eq_ok.mp h
      split at h
      · exact (ih h).imp_right (List.mem_cons_of_mem _)
      · obtain ⟨key, -, h⟩ := bind_eq_ok.mp h
        split at h
        · cases h
          exact .inl rfl
        · refine .inr ?_
          rcases ih h with hfound | hmem
          · cases hfound
            exact List.mem_cons_self ..
          · exact List.mem_cons_of_mem _ hmem

section Lookup

variable {table : Range} (hcells : ∀ key ∈ table.cells, env.shown key = env'.shown key)
include hcells

/-- The cells of a table show the same where the range does. -/
theorem tableCell_congr {row col : Int} (hrow : row ∈ Range.integers table.top table.bottom)
    (hcol : 0 ≤ col ∧ col < table.cols) :
    tableCell env table row col = tableCell env' table row col := by
  refine hcells _ (Range.key_mem_cells hrow (Range.mem_integers.mpr ?_))
  have hcols : col < table.right - table.left + 1 := hcol.2
  exact ⟨by omega, by omega⟩

/-- A table has a first column. -/
theorem firstCell_congr {row : Int} (hrow : row ∈ Range.integers table.top table.bottom) :
    tableCell env table row 0 = tableCell env' table row 0 := by
  refine tableCell_congr hcells hrow ⟨Int.le_refl 0, ?_⟩
  have := table.left_le_right
  unfold Range.cols
  omega

/-- The exact search goes the same way where the first column shows the
same. -/
theorem exactRow_congr (wanted : Content) {rows : List Int}
    (hrows : ∀ row ∈ rows, row ∈ Range.integers table.top table.bottom) :
    exactRow env table wanted rows = exactRow env' table wanted rows := by
  induction rows with
  | nil => rfl
  | cons row rows ih =>
      rw [exactRow, exactRow, firstCell_congr hcells (hrows row (List.mem_cons_self ..)),
        ih fun r hr => hrows r (List.mem_cons_of_mem _ hr)]

/-- The approximate search goes the same way where the first column
shows the same. -/
theorem approximateRowFrom_congr (numeric : Bool) (target : SearchKey) (found : Option Int)
    {rows : List Int} (hrows : ∀ row ∈ rows, row ∈ Range.integers table.top table.bottom) :
    approximateRowFrom env table numeric target found rows
      = approximateRowFrom env' table numeric target found rows := by
  induction rows generalizing found with
  | nil => rfl
  | cons row rows ih =>
      have ih := fun found => ih found fun r hr => hrows r (List.mem_cons_of_mem _ hr)
      rw [approximateRowFrom, approximateRowFrom,
        firstCell_congr hcells (hrows row (List.mem_cons_self ..)), ih found, ih (some row)]

theorem approximateRow_congr (wanted : Content) :
    approximateRow env table wanted = approximateRow env' table wanted := by
  unfold approximateRow
  simp only [approximateRowFrom_congr hcells _ _ none fun _ h => h]

/-- What is shown of a row that a search found in the table. Row and
column lie inside, so the cell is one that the range names. -/
theorem foundCell_congr (wanted : Content) {column : Int}
    (hcolumn : 0 ≤ column ∧ column < table.cols) {search : Except Fault (Option Int)}
    (hsearch : ∀ row, search = .ok (some row) → row ∈ Range.integers table.top table.bottom) :
    (search >>= fun row => match row with
      | none => fail (.notFound wanted)
      | some row => tableCell env table row column)
    = search >>= fun row => match row with
      | none => fail (.notFound wanted)
      | some row => tableCell env' table row column := by
  cases search with
  | error fault => rfl
  | ok row =>
      cases row with
      | none => rfl
      | some row => exact tableCell_congr hcells (hsearch row rfl) hcolumn

/-- A lookup shows the same where its table does: it looks at cells of
the first column and at one of the wanted column, all of them in the
table. -/
theorem lookup_congr (wanted : Content) {column : Int} (hcolumn : 0 ≤ column ∧ column < table.cols)
    (approximate : Bool) :
    lookup env table wanted column approximate = lookup env' table wanted column approximate := by
  cases approximate with
  | true =>
      show (approximateRow env table wanted >>= _) = approximateRow env' table wanted >>= _
      rw [approximateRow_congr hcells]
      refine foundCell_congr hcells wanted hcolumn fun row h => ?_
      obtain ⟨target, -, h⟩ := bind_eq_ok.mp h
      exact (mem_of_approximateRowFrom h).resolve_left (fun h => nomatch h)
  | false =>
      show (exactRow env table wanted _ >>= _) = exactRow env' table wanted _ >>= _
      rw [exactRow_congr hcells wanted fun _ h => h]
      exact foundCell_congr hcells wanted hcolumn fun row h => mem_of_exactRow h

end Lookup

-- ====================================================== expressions

/-- An expression has the same two values in two environments. -/
structure SameValue (env env' : Environment) (e : Expr) : Prop where
  text : text env e = text env' e
  number : number env e = number env' e

/-- The cells of a table are those of the range that names it, all of
which count as read. -/
theorem agree_of_lookupTable {arg : Expr} {table : Range}
    (harg : ∀ lexeme ∈ arg.operands, AgreeOn env env' lexeme)
    (htable : lookupTable arg = .ok table) :
    ∀ key ∈ table.cells, env.shown key = env'.shown key := by
  cases arg with
  | range text =>
      obtain ⟨found, hfound, h⟩ := bind_eq_ok.mp htable
      split at h
      · cases h
        exact (harg (.range text) (by simp [Expr.operands])).cells hfound
      · cases h
  | number | string | reference | name | unary | binary | comparison | call => cases htable

/-- Arguments with the same values are joined to the same text. -/
theorem joined_congr {args : List Expr} (hsame : ∀ arg ∈ args, SameValue env env' arg) :
    joined env args = joined env' args := by
  induction args with
  | nil => rw [joined, joined]
  | cons first others ih =>
      rw [joined, joined, (hsame first (List.mem_cons_self ..)).text,
        ih fun arg harg => hsame arg (List.mem_cons_of_mem _ harg)]

/-- A function has the same value once its arguments have the same
values and the cells that it looks at on its own show the same. -/
theorem call_congr (function : Function) {args : List Expr}
    (hsettings : env.settings = env'.settings)
    (hargs : ∀ lexeme ∈ Expr.operandsOfAll args, AgreeOn env env' lexeme)
    (hsame : ∀ arg ∈ args, SameValue env env' arg) :
    call env function args = call env' function args := by
  rw [call.eq_def, call.eq_def]
  split
  · exact aggregate_congr _ hargs
  · next value places =>
    rw [(hsame value (by simp)).number, (hsame places (by simp)).number]
  · rfl
  · next first others =>
    rw [(hsame first (by simp)).text, joined_congr fun arg harg => hsame arg (by simp [harg])]
  · next function arg => rw [(hsame arg (by simp)).text]
  · rw [hsettings]
  · next condition yes no =>
    rw [(hsame condition (by simp)).number, (hsame yes (by simp)).text, (hsame no (by simp)).text]
  · next wanted table column =>
    rw [(hsame wanted (by simp)).text, (hsame column (by simp)).number]
    refine bind_congr_ok fun content _ => bind_congr_ok fun r hr => bind_congr_ok fun x _ =>
      bind_congr_ok fun n hn => ?_
    have htable : ∀ lexeme ∈ table.operands, AgreeOn env env' lexeme :=
      fun lexeme h => hargs lexeme (by simp [Expr.mem_operandsOfAll, h])
    exact lookup_congr (agree_of_lookupTable htable hr) content (lookupColumn_bounds hn) false
  · next wanted table column sorted =>
    rw [(hsame wanted (by simp)).text, (hsame column (by simp)).number,
      (hsame sorted (by simp)).number]
    refine bind_congr_ok fun content _ => bind_congr_ok fun r hr => bind_congr_ok fun x _ =>
      bind_congr_ok fun n hn => bind_congr_ok fun y _ => ?_
    have htable : ∀ lexeme ∈ table.operands, AgreeOn env env' lexeme :=
      fun lexeme h => hargs lexeme (by simp [Expr.mem_operandsOfAll, h])
    exact lookup_congr (agree_of_lookupTable htable hr) content (lookupColumn_bounds hn) _
  all_goals rfl

/-- An expression whose operands show the same in two environments has
the same values in both. -/
theorem sameValue_of_agree (hsettings : env.settings = env'.settings) (e : Expr)
    (h : ∀ lexeme ∈ e.operands, AgreeOn env env' lexeme) : SameValue env env' e := by
  induction e using Expr.inductionOn with
  | number text => exact ⟨by rw [Eval.text, Eval.text], by rw [Eval.number, Eval.number]⟩
  | string value => exact ⟨by rw [Eval.text, Eval.text], by rw [Eval.number, Eval.number]⟩
  | range text => exact ⟨by rw [Eval.text, Eval.text], by rw [Eval.number, Eval.number]⟩
  | name name => exact ⟨by rw [Eval.text, Eval.text], by rw [Eval.number, Eval.number]⟩
  | reference key =>
      have hkey := h (.reference key) (by simp [Expr.operands])
      refine ⟨?_, ?_⟩
      · rw [Eval.text, Eval.text, hkey.shown]
      · rw [Eval.number, Eval.number, hkey.numberOf]
  | unary sign operand ih =>
      have hoperand := (ih h).number
      refine ⟨?_, ?_⟩
      · rw [Eval.text, Eval.text, hoperand]
      · rw [Eval.number, Eval.number, hoperand]
  | binary op left right ihl ihr =>
      have hleft := (ihl fun l hl => h l (List.mem_append_left _ hl)).number
      have hright := (ihr fun l hl => h l (List.mem_append_right _ hl)).number
      refine ⟨?_, ?_⟩
      · rw [Eval.text, Eval.text, hleft, hright]
      · rw [Eval.number, Eval.number, hleft, hright]
  | comparison op left right ihl ihr =>
      have hleft := (ihl fun l hl => h l (List.mem_append_left _ hl)).number
      have hright := (ihr fun l hl => h l (List.mem_append_right _ hl)).number
      refine ⟨?_, ?_⟩
      · rw [Eval.text, Eval.text, hleft, hright]
      · rw [Eval.number, Eval.number, hleft, hright]
  | call name args ih =>
      -- a call is where cells are looked at, by way of the arguments that name them
      have hsame : ∀ arg ∈ args, SameValue env env' arg := fun arg harg =>
        ih arg harg fun l hl => h l (Expr.mem_operandsOfAll.mpr ⟨arg, harg, hl⟩)
      have hcall : ∀ function, call env function args = call env' function args := fun function =>
        call_congr function hsettings h hsame
      refine ⟨?_, ?_⟩
      · rw [Eval.text, Eval.text]
        cases Function.ofName? name with
        | none => rfl
        | some function => exact hcall function
      · rw [Eval.number, Eval.number]
        cases Function.ofName? name with
        | none => rfl
        | some function => simp only [hcall function]

theorem display_congr (hsettings : env.settings = env'.settings) {e : Expr}
    (h : ∀ lexeme ∈ e.operands, AgreeOn env env' lexeme) : display env e = display env' e := by
  have htext := (sameValue_of_agree hsettings e h).text
  cases e with
  | reference key =>
      rw [display, display, (h (.reference key) (by simp [Expr.operands])).numberOf]
  | name name => rw [display, display]
  | number text => rw [display, display]
  | string | range | unary | binary | comparison | call => exact htext

-- ====================================================== formulas

/-- The keys found in the tokens of an untrimmed formula cover the
operands of the expression that its trimmed text is. -/
theorem agree_of_readsOfText {expression : Text} {keys : List Text} {e : Expr}
    (hreads : Formula.readsOfText (.char '=' :: expression) = .ok keys)
    (hparse : Parser.parse (Text.trim expression) = .ok e)
    (hagree : ∀ key ∈ keys, env.shown key = env'.shown key) :
    ∀ lexeme ∈ e.operands, AgreeOn env env' lexeme := by
  obtain ⟨trimmed, htrimmed, hoperands⟩ := Parser.operands_of_parse hparse
  have hlexemes : Lexer.lexemesOf (Lexer.tokens expression) = some (trimmed.map Token.lexeme) := by
    rw [← Lexer.lexemes_trim, htrimmed]
    rfl
  obtain ⟨tokens, htokens, hsame⟩ := Lexer.exists_tokens_of_lexemesOf hlexemes
  simp only [Formula.readsOfText, htokens] at hreads
  obtain ⟨lists, hlists, hkeys⟩ := bind_eq_ok.mp hreads
  cases hkeys
  intro lexeme hlexeme
  have hmem := hoperands lexeme hlexeme
  rw [← hsame] at hmem
  obtain ⟨token, htoken, rfl⟩ := List.mem_map.mp hmem
  obtain ⟨list, hlist, hkeys⟩ := exists_ok_of_mapM hlists htoken
  exact ⟨list, hkeys, fun key hkey => hagree key (List.mem_flatten.mpr ⟨list, hlist, hkey⟩)⟩

/-- What a formula shows depends on the settings and on the cells that
it reads. -/
theorem evaluateText_congr (hsettings : env.settings = env'.settings) {formula : Text}
    {keys : List Text} (hreads : Formula.readsOfText formula = .ok keys)
    (hagree : ∀ key ∈ keys, env.shown key = env'.shown key) :
    evaluateText env formula = evaluateText env' formula := by
  unfold evaluateText
  split
  · next expression =>
    unfold expressionText
    cases hparse : Parser.parse (Text.trim expression) with
    | error fault =>
        -- plain arithmetic sees no cells at all
        simp only [hsettings]
    | ok e =>
        simp only
        rw [display_congr hsettings (agree_of_readsOfText hreads hparse hagree)]
  · rfl

/-- The cells found in the tokens of a formula are all that it reads: on
two stores that show the same under these keys, and with the same
settings, it shows the same. -/
theorem evaluateText_eq_of_agree (settings : Settings) {formula : Text} {keys : List Text}
    (hreads : Formula.readsOfText formula = .ok keys) {s t : Store}
    (hagree : ∀ key ∈ keys, s.shown key = t.shown key) :
    evaluateText (.ofStore s settings) formula = evaluateText (.ofStore t settings) formula := by
  have hsettings :
      (Environment.ofStore s settings).settings = (Environment.ofStore t settings).settings := rfl
  exact evaluateText_congr hsettings hreads fun key hkey => congrArg Except.ok (hagree key hkey)

/-- A cell that the formula does not name makes no difference. -/
theorem evaluateText_unread_cell :
    Formula.readsOfText "= IF(A1>1, A1, B1) " = .ok ["A1", "A1", "B1"] ∧
      evaluateText
          (.ofStore ((Store.empty.put "A1" (.ofInput "2")).put "C1" (.ofInput "7"))
            { now := default })
          "= IF(A1>1, A1, B1) "
        = evaluateText (.ofStore (Store.empty.put "A1" (.ofInput "2")) { now := default })
          "= IF(A1>1, A1, B1) " := by
  have hreads : Formula.readsOfText "= IF(A1>1, A1, B1) " = .ok ["A1", "A1", "B1"] := by rfl
  refine ⟨hreads, evaluateText_eq_of_agree _ hreads fun key hkey => ?_⟩
  have hkey : key = "A1" ∨ key = "B1" := by simpa using hkey
  rcases hkey with rfl | rfl <;> rfl

end Eval

end Spreadsheet
