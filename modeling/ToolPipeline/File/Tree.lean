import ToolPipeline.Text.Split

/-! Files below a directory, and paths that lead to them. -/

namespace ToolPipeline

inductive FileFault where
  | notFound
  | notDirectory
  | isDirectory
  /-- The way there cannot be gone. -/
  | unreachable (message : String)
  /-- A file is there, but it cannot be read. -/
  | unreadable (message : String)
  deriving DecidableEq, Repr

def FileFault.message : FileFault → String
  | .notFound => "No such file or directory (os error 2)"
  | .notDirectory => "Not a directory (os error 20)"
  | .isDirectory => "Is a directory (os error 21)"
  | .unreachable m | .unreadable m => m

namespace Path

/-- The names on the way; a point stands for staying where one is. -/
def names (path : String) : List String :=
  ((Text.splitWhere (· == '/') path.toList).map String.ofList).filter fun n => n ≠ "" ∧ n ≠ "."

def isAbsolute (path : String) : Bool := path.startsWith "/"

/-- Whether a path leads to a device: what is read there is no file that could be looked for. -/
def isDevice (path : String) : Bool := isAbsolute path && (names path).head? = some "dev"

def normal (path : String) : String :=
  (if isAbsolute path then "/" else "") ++ "/".intercalate (names path)

/-- No directory lies deeper, as a path has no more than 4096 octets. -/
def deepest : Nat := 2048

/-- The same path from the directory so many levels further up. -/
def above (levels : Nat) (path : String) : String :=
  String.join (List.replicate levels "../") ++ path

def join (directory path : String) : String :=
  if directory = "" || directory.endsWith "/" then directory ++ path else directory ++ "/" ++ path

end Path

structure FileTree where
  files : List (List String × List UInt8)

namespace FileTree

def ofList (files : List (String × List UInt8)) : FileTree :=
  ⟨files.map fun f => (Path.names f.1, f.2)⟩

def isDirectory (t : FileTree) (way : List String) : Bool :=
  way = [] || t.files.any fun f => way.isPrefixOf f.1 && way ≠ f.1

/-- What is known above the directory: that there are directories. -/
def readAbove (way : List String) : Except FileFault (List UInt8) :=
  .error (if way.all (· = "..") then .isDirectory else .notFound)

def standardDirectories : List String :=
  ["bin", "dev", "etc", "home", "lib", "mnt", "opt", "proc", "root", "run", "sbin", "srv", "sys",
    "tmp", "usr", "var"]

/-- What is known from the root on: some directories, and the device that is always empty. -/
def readAbsolute (closed : Bool) (way : List String) : Except FileFault (List UInt8) :=
  match way.dropWhile (· = "..") with
  | [] => .error .isDirectory
  | ["dev", "null"] => if closed then .error .notDirectory else .ok []
  | [name] => .error (if standardDirectories.contains name then .isDirectory else .notFound)
  | _ => .error .notFound

/-- The file at the end of a way that begins in the directory `here`; `closed` says that the way
has to end in a directory. -/
def readFrom (t : FileTree) (closed : Bool) :
    (here : List String) → List String → Except FileFault (List UInt8)
  | _, [] => .error .isDirectory
  | here, name :: rest =>
    if name = ".." then
      if here = [] then readAbove rest else readFrom t closed here.dropLast rest
    else
      match t.files.lookup (here ++ [name]) with
      | some octets => if rest = [] && !closed then .ok octets else .error .notDirectory
      | none =>
        if t.isDirectory (here ++ [name]) then readFrom t closed (here ++ [name]) rest
        else .error .notFound

def read (t : FileTree) (path : String) : Except FileFault (List UInt8) :=
  let closed := path.endsWith "/" || path.endsWith "/."
  let way := Path.names path
  if Path.isAbsolute path then readAbsolute closed way else t.readFrom closed [] way

end FileTree

end ToolPipeline
