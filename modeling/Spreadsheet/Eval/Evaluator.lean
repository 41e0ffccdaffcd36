/-
The value of an expression, as a text and as a number.

# Two values

An expression has both: a number is a text when it is joined, and a text is
a number when it is added. `text` and `number` give the two values,
`display` what a cell shows for a whole formula. A function yields a text,
and its number is read from that text.

# Missing numbers

Where a comparison, ROUND or VLOOKUP asks for a number, an argument that has
none is missing and no failure (`orMissing`); other failures go through. A
missing operand of a comparison is no number, so only inequality holds with
it.

# The order of things

Arguments are evaluated from the left, and the first one that fails is the
failure of the whole. IF evaluates its condition and the branch that is
taken, and VLOOKUP checks each argument before it evaluates the next one.

The four functions of expressions call each other on parts of the
expression, so the recursion is structural.
-/
import Spreadsheet.Calendar.Format
import Spreadsheet.Eval.Lookup

namespace Spreadsheet.Eval

-- ====================================================== numbers

/-- The number of a name: TRUE is one and FALSE is zero. -/
def nameNumber (name : Text) : Except Fault Binary64 :=
  if name = "TRUE" then .ok Binary64.one
  else if name = "FALSE" then .ok (Binary64.zero false)
  else fail (.unknownName name)

/-- The number that a content stands for, which must be there. -/
def contentNumber (content : Content) : Except Fault Binary64 := do
  match ← Number.ofContent? content with
  | some x => return x
  | none => fail (.notNumber content)

/-- The result of an operator; division by zero has none. -/
def arithmetic (op : Operator) (x y : Binary64) : Except Fault Binary64 :=
  match op with
  | .add => .ok (x + y)
  | .sub => .ok (x - y)
  | .mul => .ok (x * y)
  | .div => match x.div? y with
    | some z => .ok z
    | none => .error .divisionByZero

/-- Does a comparison hold? With what is no number only inequality
does. -/
def holds (op : Comparator) (x y : Binary64) : Bool :=
  match op with
  | .greater => x.gt y
  | .less => x.lt y
  | .atLeast => x.ge y
  | .atMost => x.le y
  | .equal => x.eq y
  | .doubleEqual => x.eq y
  | .unequal => !x.eq y
  | .angleUnequal => !x.eq y

/-- The number of a truth value. -/
def truthNumber (b : Bool) : Binary64 :=
  if b then Binary64.one else Binary64.zero false

/-- The number of an argument, missing where the argument is no number
or a bare name. -/
def orMissing (arg : Expr) (number : Except Fault Binary64) : Except Fault (Option Binary64) :=
  match number with
  | .ok x => .ok (some x)
  | .error (.failure f) =>
    if f.code = .value || arg.isName then .ok none else .error (.failure f)
  | .error fault => .error fault

/-- The operand of a comparison; a missing number is no number. -/
def orNan (arg : Expr) (number : Except Fault Binary64) : Except Fault Binary64 := do
  return (← orMissing arg number).getD .nan

-- ====================================================== functions of values

/-- ROUND of a number to a number of places from 0 to 100. -/
def roundText (value places : Option Binary64) : Except Fault Content :=
  match value, places with
  | some x, some p =>
    if x.isNan || p.isNan then fail .roundOperands
    else match p.truncate? with
      | none => fail (.roundPlaces p)
      | some n =>
        if n < 0 ∨ 100 < n then fail (.roundPlaces p)
        else match Number.rounded? n.toNat x with
          | some text => .ok (.text text)
          | none => .error .decimalTooLong
  | _, _ => fail .roundOperands

/-- LEN, UPPER or LOWER of a content. -/
def textFunction (function : TextFunction) (content : Content) : Except Fault Content :=
  match function, content with
  | .len, .text s => .ok (countText s.length)
  | .len, .other (.array items) => .ok (countText items.length)
  | .len, .other (.object fields) => .ok (countText fields.length)
  | .upper, .text s => .ok (.text (Text.upper s))
  | .lower, .text s => .ok (.text (Text.lower s))
  | _, content => .error (.contentNotText content)

/-- The reading of the clock by the pattern of a function; the pattern
must be characters only. -/
def clockText (settings : Settings) (function : ClockFunction) : Except Fault Content :=
  let pattern :=
    match function with
    | .today => settings.dateFormat
    | .now => settings.dateTimeFormat
  match Text.unencodable? pattern with
  | some fault => .error (.unencodablePattern fault)
  | none => .ok (.text (Calendar.format settings.now pattern))

-- ====================================================== expressions

mutual

/-- The value of an expression as a text. -/
def text (env : Environment) : Expr → Except Fault Content
  | .string value => .ok (.text value)
  | .number text => .ok (.text text)
  | .reference key => env.shown key
  | .name name => .ok (.text name)
  | .range _ => fail .rangeAsValue
  | .unary sign operand => do
    let x ← number env operand
    return .text (Number.display (if sign = .minus then -x else x))
  | .binary op left right => do
    let x ← number env left
    let y ← number env right
    return .text (Number.display (← arithmetic op x y))
  | .comparison op left right => do
    let x ← orNan left (number env left)
    let y ← orNan right (number env right)
    return .text (if holds op x y then "TRUE" else "FALSE")
  | .call name args =>
    match Function.ofName? name with
    | none => fail (.unknownFunction name)
    | some function => call env function args
termination_by structural e => e

/-- The value of an expression as a number. -/
def number (env : Environment) : Expr → Except Fault Binary64
  | .string value => contentNumber (.text value)
  | .number text => Number.whole text
  | .reference key => env.numberOf key
  | .name name => nameNumber name
  | .range _ => fail .rangeAsValue
  | .unary sign operand => do
    let x ← number env operand
    return if sign = .minus then -x else x
  | .binary op left right => do
    let x ← number env left
    let y ← number env right
    arithmetic op x y
  | .comparison op left right => do
    let x ← orNan left (number env left)
    let y ← orNan right (number env right)
    return truthNumber (holds op x y)
  | .call name args =>
    match Function.ofName? name with
    | none => fail (.unknownFunction name)
    | some function => do contentNumber (← call env function args)
termination_by structural e => e

/-- The value of a function, which is a text. -/
def call (env : Environment) (function : Function) (args : List Expr) : Except Fault Content :=
  match function, args with
  | .aggregate function, args => aggregate env function args
  | .round, [value, places] => do
    let x ← orMissing value (number env value)
    let p ← orMissing places (number env places)
    roundText x p
  | .concat, [] => .ok (.text [])
  | .concat, first :: others => do
    let content ← text env first
    let rest ← joined env others
    return .text ((← asText content) ++ rest)
  | .text function, [arg] => do textFunction function (← text env arg)
  | .clock function, [] => clockText env.settings function
  | .cond, [condition, yes, no] => do
    let x ← number env condition
    if x.isZero then text env no else text env yes
  | .lookup, [wanted, table, column] => do
    let wanted ← text env wanted
    let table ← lookupTable table
    let column ← lookupColumn table (← orMissing column (number env column))
    lookup env table wanted column false
  | .lookup, [wanted, table, column, sorted] => do
    let wanted ← text env wanted
    let table ← lookupTable table
    let column ← lookupColumn table (← orMissing column (number env column))
    let x ← number env sorted
    lookup env table wanted column (!x.isZero)
  | .round, args => fail (.argumentCount .round 2 args.length)
  | .text function, args => fail (.argumentCount (.text function) 1 args.length)
  | .clock function, args => fail (.argumentCount (.clock function) 0 args.length)
  | .cond, args => fail (.argumentCount .cond 3 args.length)
  | .lookup, args => fail (.lookupArgumentCount args.length)
termination_by structural args

/-- The values of some expressions, all of which must be texts, one
after another. -/
def joined (env : Environment) : List Expr → Except Fault Text
  | [] => .ok []
  | first :: others => do
    let content ← text env first
    let rest ← joined env others
    return (← asText content) ++ rest
termination_by structural es => es

end

/-- What a cell shows for a whole formula: numbers and references as
numbers, and of the bare names only the truth values. -/
def display (env : Environment) : Expr → Except Fault Content
  | .reference key => do return .text (Number.display (← env.numberOf key))
  | .name name => do
    let _ ← nameNumber name
    return .text name
  | .number text => do return .text (Number.display (← Number.whole text))
  | expr => text env expr

end Spreadsheet.Eval
