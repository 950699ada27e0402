set_option autoImplicit false

/-!
# Files

The files of a working directory. A path is followed part by part; what is missing on the way, or is
no directory where one is needed, decides how opening fails.
-/

namespace LuaHost

inductive FileNode where
  | content (b : ByteArray)
  | directory

/-- Files by the parts of their path below the working directory. -/
structure Files where
  nodes : List (List (List UInt8) × FileNode)

/-- Why a file cannot be read. -/
inductive FileError where
  | missing
  | notDirectory
  | isDirectory
  | nameTooLong
deriving DecidableEq, Repr

namespace FileError

def number : FileError → Nat
  | missing => 2
  | notDirectory => 20
  | isDirectory => 21
  | nameTooLong => 36

def text : FileError → String
  | missing => "No such file or directory"
  | notDirectory => "Not a directory"
  | isDirectory => "Is a directory"
  | nameTooLong => "File name too long"

end FileError

namespace Files

def empty : Files := ⟨[]⟩

/-- The parts of a path between slashes. -/
def parts : List UInt8 → List (List UInt8)
  | [] => [[]]
  | b :: rest =>
    match parts rest with
    | p :: ps => if b == 47 then [] :: p :: ps else (b :: p) :: ps
    | [] => [[b]]

def node? (f : Files) (path : List (List UInt8)) : Option FileNode :=
  if path.isEmpty then some .directory else (f.nodes.find? fun (p, _) => p == path).map (·.2)

def dot : List UInt8 := [46]

def dotDot : List UInt8 := [46, 46]

/-- Follows parts from a place in the tree. -/
def walk (f : Files) (place : List (List UInt8)) : List (List UInt8) → Except FileError FileNode
  | [] =>
    match f.node? place with
    | some n => .ok n
    | none => .error .missing
  | p :: rest =>
    match f.node? place with
    | none => .error .missing
    | some (.content _) => .error .notDirectory
    | some .directory =>
      if 255 < p.length then .error .nameTooLong
      else if p.isEmpty || p == dot then walk f place rest
      else if p == dotDot then walk f place.dropLast rest
      else walk f (place ++ [p]) rest

/-- What a path leads to. Outside the working directory there is only its root. -/
def find (f : Files) (path : ByteArray) : Except FileError FileNode :=
  match path.data.toList with
  | [] => .error .missing
  | 47 :: rest =>
    if (parts rest).all (fun p => p.isEmpty || p == dot || p == dotDot) then .ok .directory
    else .error .missing
  | bs => if 4096 ≤ bs.length then .error .nameTooLong else f.walk [] (parts bs)

/-- The content of a file. -/
def read (f : Files) (path : ByteArray) : Except FileError ByteArray :=
  match f.find path with
  | .ok (.content b) => .ok b
  | .ok .directory => .error .isDirectory
  | .error e => .error e

def insert (f : Files) (path : ByteArray) (n : FileNode) : Files :=
  let key := (parts path.data.toList).filter fun p => !p.isEmpty && p != dot
  ⟨(key, n) :: f.nodes.filter fun (p, _) => p != key⟩

def write (f : Files) (path content : ByteArray) : Files := f.insert path (.content content)

def makeDirectory (f : Files) (path : ByteArray) : Files := f.insert path .directory

end Files
end LuaHost
