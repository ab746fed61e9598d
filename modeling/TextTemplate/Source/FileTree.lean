import TextTemplate.Source.Directory

/-! Files in memory that are read as a directory would be, faults included. -/

namespace TextTemplate

/-- Files and directories by their way from the top. The directories on the way to a file are there
too. -/
structure FileTree where
  files : List (List String × ByteArray)
  directories : List (List String)

namespace FileTree

def parts (path : String) : List String := (Text.pieces (· = '/') path.toList).map String.ofList

def isDirectory (t : FileTree) (way : List String) : Bool :=
  t.directories.any (way.isPrefixOf ·) || t.files.any fun (p, _) => way.isPrefixOf p && p != way

/-- Names of more bytes than this are refused. -/
def longestName : Nat := 255

/-- Goes on from a directory. -/
def readFrom (t : FileTree) (here : List String) : List String → Except ReadFault ByteArray
  | [] => .error .isDirectory
  | part :: rest =>
    if part = "" ∨ part = "." then t.readFrom here rest
    else if part = ".." then
      if here = [] then .error .notFound else t.readFrom here.dropLast rest
    else if longestName < part.utf8ByteSize then .error .nameTooLong
    else
      let way := here ++ [part]
      match t.files.lookup way with
      | some content => if rest = [] then .ok content else .error .notADirectory
      | none => if t.isDirectory way then t.readFrom way rest else .error .notFound

/-- The bytes of the file at a path. There is nothing at absolute paths. -/
def read (t : FileTree) (path : String) : Except ReadFault ByteArray :=
  if path.toList.contains '\x00' then .error .nulInName
  else if path.startsWith "/" ∨ path = "" then .error .notFound
  else t.readFrom [] (parts path)

def reader {m : Type → Type} [Monad m] (t : FileTree) : FileReader m := fun path =>
  pure (t.read path)

end FileTree

end TextTemplate
