import Slate.Toml.Document

/-!
# How the tables of a document nest

The header of a table says where it belongs: `[a.b]` is the table `b` within
the table `a`, and `[[a.b]]` is a further element of the array `b` there.

A document is put together from the top.  A *branch* takes the tables whose
headers start with the same parts, in the order of the document; those whose
header has further parts make the branches below it, and those that are elements
of an array make a branch each, which reaches to the next element.  A table that
has been put in place is not met again.

The *leader* of a branch is the table that it was entered for, or a shorter
header that it has met since.  Two things are wrong with a document:

* a branch meets the header of its leader a second time;
* a branch meets an element of an array where its own table should be.

So a table must not be defined twice, but only tables that the branch of the
first definition reaches are compared with it: a table that is met at last under
another element of an array counts as a table of that element.
-/

namespace Slate.Toml

/-- A table and its place among the tables of its document. -/
abbrev Placed := Table × Nat

/-- The elements of the array that `first` opens, up to the table at `limit`, each
with the place where it ends. -/
def elementsFrom (tables : List Placed) (first : Placed) (limit : Nat) : List (Placed × Nat) :=
  let later := ((tables.take limit).drop (first.2 + 1)).filter fun t =>
    t.1.isElement && t.1.header = first.1.header
  (first :: later).zip (later.map (·.2) ++ [limit])

/-- Puts the tables of a branch in place: those before `limit` whose places are
among the given ones.  The answer is the places of the tables that remain,
unless something is wrong.  `depth` is the number of parts that the headers of
the branch share, and `levels` bounds the number of branches below each other. -/
def putBranch (tables : List Placed) :
    (levels depth : Nat) → (leader : Placed) → (limit : Nat) → (places : List Nat) →
      Option (List Nat)
  | 0, _, _, _, places => some places
  | levels + 1, depth, leader, limit, places => do
    let root := leader.1.header.take depth
    let (_, places) ← (tables.take limit).foldlM (fun (leader, places) t => do
      if !root.isPrefixOf t.1.header ∨ t.2 ∉ places then pure (leader, places)
      else if t.2 ≠ leader.2 ∧ t.1.header = leader.1.header then none
      else
        let leader := if t.1.header.length < leader.1.header.length then t else leader
        if t.1.header.length = depth then
          if t.1.isElement then none else pure (leader, places.erase t.2)
        else if t.1.isElement ∧ t.1.header.length = depth + 1 then do
          let places ← (elementsFrom tables t limit).foldlM (fun places element =>
            putBranch tables levels (depth + 1) element.1 element.2 (places.erase element.1.2))
            places
          pure (leader, places)
        else do
          let places ← putBranch tables levels (depth + 1) t limit places
          pure (leader, places)) (leader, places)
    pure places

/-- The number of branches that can be below each other. -/
def levelsOf (tables : List Table) : Nat :=
  (tables.map (·.header.length)).foldl max 0 + 1

/-- Whether the tables of a document nest. -/
def nests (tables : List Table) : Bool :=
  match tables.zipIdx with
  | [] => true
  | first :: rest =>
    (putBranch (first :: rest) (levelsOf tables) 0 first tables.length
      (List.range tables.length)).isSome

/-- The tables of a document, if its text is one. -/
def tables? (source : String) : Option (List Table) := do
  let tables ← readTables? source
  if nests tables then some tables else none

end Slate.Toml
