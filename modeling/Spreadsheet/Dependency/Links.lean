/-
The sets that the reads are kept in.

# Three collections

A graph is kept as three collections of sets: what each cell reads, who
reads each key, and the keys that take part. `Graph` keeps the first of them
and finds the other two from it. Here all three are kept, and each is
brought up to date on its own: a read is entered under the cell that reads,
and once more under the key that is read.

# What a question needs

The search for dependents goes from a key to its readers, the search for a
cycle goes from a cell to its reads, and an order of evaluation needs both:
it counts the reads of a cell and then goes through the readers. So the two
directions have to agree, although nothing but the way in which reads are
entered makes them agree. That they do, and that the three collections stand
for a graph, is a matter of proof.

# Building the sets

A cell with a formula takes part even if the formula reads nothing. Its reads
are entered one by one, so the sets of a store are those that are left by
adding all its reads to none.
-/
import Spreadsheet.Dependency.Graph

namespace Spreadsheet

/-- What each cell reads, who reads each key, and the keys that take
part, each kept on its own. -/
structure Links where
  reads : Entries (List Text)
  readers : Entries (List Text)
  nodes : List Text

namespace Links

/-- The links without reads. -/
def empty : Links :=
  ⟨[], [], []⟩

-- ====================================================== sets under names

/-- The members of the set under a name; a name without a set has
none. -/
def members (sets : Entries (List Text)) (name : Text) : List Text :=
  (sets.find? name).getD []

/-- The sets with one more member under a name. -/
def enter (sets : Entries (List Text)) (name member : Text) : Entries (List Text) :=
  sets.put name (Graph.withMember (members sets name) member)

-- ====================================================== entering reads

/-- The links in which a key takes part. -/
def addNode (links : Links) (key : Text) : Links :=
  { links with nodes := Graph.withMember links.nodes key }

/-- The links in which a cell also reads a key. -/
def addRead (links : Links) (cell key : Text) : Links where
  reads := enter links.reads cell key
  readers := enter links.readers key cell
  nodes := Graph.withMember (Graph.withMember links.nodes cell) key

/-- The links in which a cell also reads some keys, entered one by
one. -/
def addReads (links : Links) (cell : Text) (keys : List Text) : Links :=
  keys.foldl (fun links key => links.addRead cell key) links

/-- The links of the formulas of a store. -/
def ofStore (store : Store) : Except Fault Links :=
  store.entries.foldlM
    (fun links (key, cell) =>
      match cell.formula with
      | none => return links
      | some formula =>
        if formula.isVoid then return links
        else do
          let keys ← Formula.reads formula
          return (links.addNode key).addReads key keys)
    empty

end Links

end Spreadsheet
