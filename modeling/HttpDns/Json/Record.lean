import HttpDns.Json.Value

/-!
# Typed reading of JSON trees

A record is read from an object or from a list of its fields' values in order. In an object the
unknown members are passed over, whatever they hold, and each known one stands at most once; a list
may be shorter than the fields but not longer. A field that is not given has its default. Nothing
is converted: a text is a text and a number is a whole number in the range of its field.
-/

namespace HttpDns.Json

/-- How deep what is kept of a text may be nested. -/
def maxDepth : Nat := 127

/-- The fields that are given, by name. -/
abbrev Fields := List (String × Tree)

/-- The names of the members, which all have to be text. -/
def namedMembers : List (List Piece × Tree) → Option Fields
  | [] => some []
  | (key, t) :: rest => do
    let name ← readText key
    let named ← namedMembers rest
    pure ((name, t) :: named)

/-- The given fields of a record nested at most `depth` deep. -/
def Tree.fields (names : List String) (depth : Nat) : Tree → Option Fields
  | .object members => do
    let named ← namedMembers members
    let known := named.filter (·.1 ∈ names)
    if 0 < depth ∧ (known.map (·.1)).Nodup then some known else none
  | .list items =>
    if 0 < depth ∧ items.length ≤ names.length then some (names.zip items) else none
  | .null | .bool _ | .number _ | .text _ => none

/-- The value of a field, or its default. -/
def Fields.get {α : Type} (fs : Fields) (name : String) (default : α) (read : Tree → Option α) :
    Option α :=
  match fs.lookup name with
  | none => some default
  | some t => read t

def Tree.text? : Tree → Option String
  | .text pieces => readText pieces
  | _ => none

/-- A text, or none where it is null. -/
def Tree.textOrNull? : Tree → Option (Option String)
  | .null => some none
  | t => t.text?.map some

/-- A whole number that is not negative and at most `limit`. -/
def Tree.natural? (limit : Nat) : Tree → Option Nat
  | .number n =>
    match n.read with
    | some (.whole (.ofNat k)) => if k ≤ limit then some k else none
    | _ => none
  | _ => none

def Tree.word32? (t : Tree) : Option UInt32 :=
  (t.natural? (UInt32.size - 1)).map UInt32.ofNat

def Tree.word16? (t : Tree) : Option UInt16 :=
  (t.natural? (UInt16.size - 1)).map UInt16.ofNat

/-- A list, itself nested at most `depth` deep, whose items are all read. -/
def Tree.listOf? {α : Type} (depth : Nat) (read : Tree → Option α) : Tree → Option (List α)
  | .list items => if 0 < depth then items.mapM read else none
  | _ => none

/-- A value, or none where it is null. -/
def Tree.valueOrNull? (depth : Nat) : Tree → Option (Option Value)
  | .null => some none
  | t => (t.value depth).map some

end HttpDns.Json
