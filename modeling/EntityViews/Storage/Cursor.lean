/-!
This module contains cursors, which walk the entities of several stored collections. A cursor is the
machine that generated enumerators implement: it has the index of a collection and the index of an
entity in it, where the latter starts at -1 so that the first advance arrives at index 0.

Collections are only given by the numbers of their entities here.
-/

namespace EntityViews

structure Position where
  collection : Nat
  index : Nat
deriving DecidableEq, Repr

structure Cursor where
  collection : Nat := 0
  index : Int := -1
deriving DecidableEq, Repr

namespace Cursor

def start : Cursor := {}

/--
Advance within the given collections, of which the first is the one the cursor is at. The result
tells whether there is a next entity.
-/
def seek (cursor : Cursor) : List Nat → Bool × Cursor
  | [] => (false, cursor)
  | count :: counts =>
    let index := cursor.index + 1
    if index.toNat < count then
      (true, { cursor with index })
    else
      seek { collection := cursor.collection + 1, index := -1 } counts

def moveNext (counts : List Nat) (cursor : Cursor) : Bool × Cursor :=
  cursor.seek (counts.drop cursor.collection)

def current (counts : List Nat) (cursor : Cursor) : Option Position :=
  match cursor.index, counts[cursor.collection]? with
  | .ofNat index, some count =>
    if index < count then some ⟨cursor.collection, index⟩ else none
  | _, _ => none

def step (counts : List Nat) (cursor : Cursor) : Option Position × Cursor :=
  match cursor.moveNext counts with
  | (true, cursor) => (some ⟨cursor.collection, cursor.index.toNat⟩, cursor)
  | (false, cursor) => (none, cursor)

def next (counts : List Nat) (cursor : Cursor) : Option Position × Cursor :=
  match cursor.moveNext counts with
  | (true, cursor) => (cursor.current counts, cursor)
  | (false, cursor) => (none, cursor)

def nth (counts : List Nat) : Nat → Cursor → Option Position × Cursor
  | 0, cursor => cursor.next counts
  | n + 1, cursor =>
    match cursor.next counts with
    | (some _, cursor) => nth counts n cursor
    | (none, cursor) => (none, cursor)

def reset (_ : Cursor) : Cursor := start

def dispose (cursor : Cursor) : Cursor := cursor.reset

def remaining (counts : List Nat) (cursor : Cursor) : Nat :=
  match counts.drop cursor.collection with
  | [] => 0
  | count :: counts => count - (cursor.index + 1).toNat + counts.foldr (· + ·) 0

def count (counts : List Nat) (cursor : Cursor) : Nat × Cursor :=
  go (cursor.remaining counts + 1) 0 cursor
where
  go (limit passed : Nat) (cursor : Cursor) : Nat × Cursor :=
    match limit with
    | 0 => (passed, cursor)
    | limit + 1 =>
      match cursor.next counts with
      | (some _, cursor) => go limit (passed + 1) cursor
      | (none, cursor) => (passed, cursor)

end Cursor

end EntityViews
