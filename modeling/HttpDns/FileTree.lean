import HttpDns.Error
import HttpDns.Text.Separated

/-!
# File trees

What a path leads to. The parts of a path are followed one after the other, each in a directory;
the first part that leads nowhere decides the fault. Opening a directory succeeds, reading it does
not.
-/

namespace HttpDns

inductive FileTree
  | file (bytes : ByteArray)
  | directory (children : List (String × FileTree))

namespace FileTree

/-- The greatest length of one part of a path, in bytes. -/
def maxPart : Nat := 255

/-- The length from which on no path is followed, in bytes. -/
def maxPath : Nat := 4096

/-- Whether the part leads to where it starts: an empty part between slashes, or a single dot. -/
def staysPut (part : String) : Bool :=
  part = "" || part = "."

/-- One part of a path from a directory inside its ancestors, the innermost first. -/
def enter (here : FileTree) (above : List FileTree) (part : String) :
    Except ReadFault (FileTree × List FileTree) :=
  match here with
  | .file _ => .error .notDirectory
  | .directory children =>
    if staysPut part then .ok (here, above)
    else if part = ".." then
      match above with
      | [] => .ok (here, [])
      | parent :: above => .ok (parent, above)
    else if maxPart < part.utf8ByteSize then .error .nameTooLong
    else
      match children.lookup part with
      | none => .error .notFound
      | some child => .ok (child, here :: above)

/-- What the parts of a path lead to. -/
def follow (here : FileTree) (above : List FileTree) : List String → Except ReadFault FileTree
  | [] => .ok here
  | part :: rest =>
    match enter here above part with
    | .error f => .error f
    | .ok (here, above) => follow here above rest

/-- The bytes at a path. A relative path starts in the working directory, which is given with its
ancestors; an absolute one at the root. -/
def read (root : FileTree) (working : FileTree × List FileTree) (path : String) :
    Except ReadFault ByteArray :=
  if path.toList.contains '\x00' then .error .nulInPath
  else if path = "" then .error .notFound
  else if maxPath ≤ path.utf8ByteSize then .error .nameTooLong
  else
    let start := if path.toList.head? = some '/' then (root, []) else working
    match follow start.1 start.2 (Text.splitText '/' path) with
    | .error f => .error f
    | .ok (.directory _) => .error .isDirectory
    | .ok (.file bytes) => .ok bytes

end FileTree

end HttpDns
