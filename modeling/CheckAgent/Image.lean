import CheckAgent.Text.Blank

/-!
# Image references

An image reference names a repository, perhaps behind a registry host with a port, and a tag or a
digest. It is read twice: **a pull** asks the container runtime for a repository and a tag, and
**a checktype** is the name and the version that a check is told about itself.
-/

namespace CheckAgent

open CheckAgent.Text

/-- What a pull asks for. -/
structure PullSource where
  repository : String
  tag : Option String
  deriving DecidableEq, Repr

/-- The name and the version of a kind of check. -/
structure Checktype where
  name : String
  version : String
  deriving DecidableEq, Repr

namespace Image

/-- The version of an image without a tag. -/
def defaultVersion : String := "latest"

/-- Split an image for a pull. A digest is part of the repository, and a colon with a slash behind
it belongs to the registry host. -/
def pullSource (image : String) : PullSource :=
  let cs := image.toList
  if cs.contains '@' then ⟨image, none⟩
  else
    match splitLast? ':' cs with
    | some (repository, tag) =>
      if tag.contains '/' then ⟨image, none⟩
      else ⟨String.ofList repository, some (String.ofList tag)⟩
    | none => ⟨image, none⟩

/-- The text behind the last separator, or all of it. -/
def lastPart (sep : Char) (cs : List Char) : List Char :=
  match splitLast? sep cs with
  | some (_, after) => after
  | none => cs

/-- The kind of check that an image runs: the last part of its path up to a digest, divided at the
first colon. -/
def checktype (image : String) : Checktype :=
  let last := lastPart '/' (image.toList.takeWhile (· ≠ '@'))
  match splitFirst? ':' last with
  | some (name, version) => ⟨String.ofList name, String.ofList version⟩
  | none => ⟨String.ofList last, defaultVersion⟩

end Image

end CheckAgent
