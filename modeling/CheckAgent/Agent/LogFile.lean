/-!
# The log file

The log goes to a file if one is set. **A path** is divided at slashes into parts; empty parts and
single dots say nothing, except for a dot in front. The last part names the file unless it names a
folder, and then the file has its usual name. Folders that are missing are made.
-/

namespace CheckAgent

/-- A file for the log in its folder. -/
structure LogFile where
  folder : String
  name : String
  deriving DecidableEq, Repr

namespace LogFile

/-- The name of the file if the path has none. -/
def usualName : String := "scan-agent.log"

/-- The parts of a path. A path from the root begins with a slash as a part. -/
def parts (path : String) : List String :=
  let written := path.splitOn "/"
  let kept := written.filter fun p => p ≠ "" ∧ p ≠ "."
  match written.head? with
  | some "" => "/" :: kept
  | some "." => "." :: kept
  | _ => kept

/-- Parts that name no file. -/
def isFolder (part : String) : Bool := part = "/" || part = "." || part = ".."

def join : List String → String
  | [] => "."
  | "/" :: rest => "/" ++ "/".intercalate rest
  | front => "/".intercalate front

def ofPath (path : String) : LogFile :=
  match (parts path).reverse with
  | [] => ⟨join [], usualName⟩
  | last :: front => ⟨join front.reverse, if isFolder last then usualName else last⟩

/-- The entries of the working directory among what a path leads through, when it has led to
`depth` folders below. Nothing is known once it has led out. -/
def entriesFrom : (depth : Nat) → List String → List String
  | _, [] => []
  | depth, part :: rest =>
    if part = "/" then []
    else if part = "." then entriesFrom depth rest
    else if part = ".." then
      match depth with
      | 0 => []
      | d + 1 => entriesFrom d rest
    else if depth = 0 then part :: entriesFrom 1 rest
    else entriesFrom (depth + 1) rest

/-- The entries that the working directory then has. -/
def entries (f : LogFile) : List String :=
  ((entriesFrom 0 (parts f.folder ++ [f.name])).eraseDups).mergeSort

end LogFile

end CheckAgent
