import HttpDns.Toml.Scalar

/-!
# TOML tables

A document is a table, and its statements extend it: a header opens a table that has not been
opened before, an assignment puts a value under a new key. Which extensions are allowed depends on
where a table comes from. A table that only lies on the way to another header may still be opened;
one that dotted keys made may be extended by dotted keys; an inline table is closed.
-/

namespace HttpDns.Toml

/-- Where a table comes from. -/
inductive Origin
  /-- its own header; also the document itself -/
  | header
  /-- it lies on the way to a header -/
  | implied
  /-- dotted keys -/
  | dotted
  /-- written out in braces -/
  | inline
  deriving DecidableEq, Repr

inductive Value
  | text (s : String)
  | scalar (s : Scalar)
  | list (items : List Value)
  | table (origin : Origin) (entries : List (String × Value))
  /-- one table for each of the doubled headers, the last one first -/
  | tables (last : List (String × Value)) (before : List (List (String × Value)))
  deriving Repr

/-- The keys of a table with their values, each key once. -/
abbrev Entries := List (String × Value)

/-! ## Reading -/

mutual

/-- Every scalar in the value can be read. -/
def Value.isReadable : Value → Bool
  | .text _ => true
  | .scalar s => s ≠ .unreadable
  | .list items => areReadable items
  | .table _ entries => entriesReadable entries
  | .tables last before => entriesReadable last && tablesReadable before

def areReadable : List Value → Bool
  | [] => true
  | v :: rest => v.isReadable && areReadable rest

def entriesReadable : List (String × Value) → Bool
  | [] => true
  | (_, v) :: rest => v.isReadable && entriesReadable rest

def tablesReadable : List (List (String × Value)) → Bool
  | [] => true
  | es :: rest => entriesReadable es && tablesReadable rest

end

theorem areReadable_eq_all : ∀ items : List Value, areReadable items = items.all Value.isReadable
  | [] => rfl
  | v :: rest => by rw [areReadable, List.all_cons, areReadable_eq_all rest]

theorem entriesReadable_eq_all :
    ∀ es : Entries, entriesReadable es = es.all fun entry => entry.2.isReadable
  | [] => rfl
  | (k, v) :: rest => by rw [entriesReadable, List.all_cons, entriesReadable_eq_all rest]

namespace Entries

def get? (es : Entries) (key : String) : Option Value :=
  es.lookup key

/-- The entries with this value under its key. -/
def put (es : Entries) (key : String) (v : Value) : Entries :=
  match es with
  | [] => [(key, v)]
  | (k, w) :: rest => if k = key then (k, v) :: rest else (k, w) :: put rest key v

/-- The entries with a value under a key that has none. -/
def add (es : Entries) (key : String) (v : Value) : Option Entries :=
  match es.get? key with
  | some _ => none
  | none => some (es.put key v)

end Entries

/-! ## Assignments -/

/-- Puts a value below dotted keys, of which this table was reached by at least one; the last table
on the way has to come from dotted keys. -/
def assignBelow (key : String) (v : Value) : List String → Origin → Entries → Option Entries
  | [], here, es => if here = .dotted then es.add key v else none
  | k :: path, _, es =>
    match es.get? k with
    | none => (assignBelow key v path .dotted []).map fun t => es.put k (.table .dotted t)
    | some (.table origin t) =>
      if origin = .dotted ∨ origin = .implied then
        (assignBelow key v path origin t).map fun t => es.put k (.table origin t)
      else none
    | some (.tables t before) =>
      (assignBelow key v path .header t).map fun t => es.put k (.tables t before)
    | some (.text _) | some (.scalar _) | some (.list _) => none

/-- Puts a value under the last of the keys, through the tables of the others. -/
def assign (path : List String) (key : String) (v : Value) (es : Entries) : Option Entries :=
  match path with
  | [] => es.add key v
  | k :: path => assignBelow key v (k :: path) .header es

/-! ## Headers -/

/-- Changes the table at the end of a path of header keys; tables that are not there yet are
implied. -/
def within (f : Entries → Option Entries) : List String → Entries → Option Entries
  | [], es => f es
  | k :: path, es =>
    match es.get? k with
    | none => (within f path []).map fun t => es.put k (.table .implied t)
    | some (.table origin t) =>
      if origin = .inline then none
      else (within f path t).map fun t => es.put k (.table origin t)
    | some (.tables t before) => (within f path t).map fun t => es.put k (.tables t before)
    | some (.text _) | some (.scalar _) | some (.list _) => none

/-- Opens a table under a key. -/
def openTable (key : String) (es : Entries) : Option Entries :=
  match es.get? key with
  | none => some (es.put key (.table .header []))
  | some (.table .implied t) => some (es.put key (.table .header t))
  | some _ => none

/-- Opens one more table of those under a key. -/
def openNext (key : String) (es : Entries) : Option Entries :=
  match es.get? key with
  | none => some (es.put key (.tables [] []))
  | some (.tables t before) => some (es.put key (.tables [] (t :: before)))
  | some _ => none

end HttpDns.Toml
