import DirWatch.Error.Io
import DirWatch.Path.Basic

/-!
# File trees

What a file system holds, as far as anyone asks: directories, files with their bytes and symbolic
links, each at a place named by the parts of its absolute path. Looking a path up follows links, at
most forty of them; a path has less than 4096 bytes and each of its parts at most 255. Where a path
is made canonical, each place on the way is looked up by its absolute path, so that this has to be
short enough as well.
-/

namespace DirWatch

/-- What stands at a place. -/
inductive Node where
  | directory
  | file (content : List UInt8)
  | link (target : RawPath)
  deriving Inhabited

/-- A place: the parts of its absolute path, none of them empty, `.` or `..`. -/
abbrev Place := List (List UInt8)

/-- A file system and the directory that relative paths start from. -/
structure FileTree where
  nodes : List (Place × Node)
  workingDirectory : Place
  deriving Inhabited

namespace FileTree

/-- The node at a place; the root is a directory. -/
def node? (tree : FileTree) (place : Place) : Option Node :=
  match place with
  | [] => some .directory
  | place => (tree.nodes.find? fun e => e.1 == place).map (·.2)

/-- Tells whether a place is a directory itself. -/
def isDirectoryAt (tree : FileTree) (place : Place) : Bool :=
  match tree.node? place with
  | some .directory => true
  | _ => false

/-- The parts of a path in order; a slash at the end counts as a dot, which asks for a directory. -/
def partsOf (p : RawPath) : List (List UInt8) :=
  let parts := Text.pieces RawPath.slash p
  let named := parts.filter fun part => !part.isEmpty
  if parts.getLast? = some [] then named ++ [RawPath.dot] else named

/-- The most bytes that one part of a path may have. -/
def maxName : Nat := 255

/-- The most bytes that a path may have. -/
def maxPath : Nat := 4095

/-- The most links that a path may lead through. -/
def maxLinks : Nat := 40

/-- The absolute path of a place. -/
def pathOf (place : Place) : RawPath :=
  match place with
  | [] => [RawPath.slash]
  | place => place.flatMap (RawPath.slash :: ·)

/-- What a walk is for. -/
inductive Purpose where
  /-- To find what stands at the end. -/
  | finding
  /-- To make something at the end: nothing needs to stand at the place that the last part names. -/
  | making
  /-- To spell the way out: every place on it is looked up by its absolute path. -/
  | spelling
  deriving DecidableEq

/-- Tells whether a place can be looked up on a walk for a purpose. -/
def Purpose.reaches (purpose : Purpose) (place : Place) : Bool :=
  purpose ≠ .spelling || (pathOf place).length ≤ maxPath

/-- Walks from a place along parts of a path. Behind a link, `follow` walks on: from the place that
its target starts from, along the parts of the target and those that are left. -/
def walkTo (tree : FileTree) (purpose : Purpose)
    (follow : Place → List (List UInt8) → Except IoError Place) (place : Place) :
    List (List UInt8) → Except IoError Place
  | [] => .ok place
  | part :: rest =>
    if !tree.isDirectoryAt place then .error .noDirectory
    else if part = RawPath.dot then tree.walkTo purpose follow place rest
    else if part = RawPath.dotDot then tree.walkTo purpose follow place.dropLast rest
    else if maxName < part.length || !purpose.reaches (place ++ [part]) then .error .nameTooLong
    else
      match tree.node? (place ++ [part]) with
      | none =>
        if purpose = .making ∧ rest.isEmpty then .ok (place ++ [part]) else .error .noEntry
      | some (.link target) =>
        follow (if RawPath.isAbsolute target then [] else place) (partsOf target ++ rest)
      | some _ => tree.walkTo purpose follow (place ++ [part]) rest

/-- Walks from a place along parts of a path, with at most so many links on the way. -/
def walk (tree : FileTree) (purpose : Purpose) :
    Nat → Place → List (List UInt8) → Except IoError Place
  | 0 => tree.walkTo purpose fun _ _ => .error .linkLoop
  | links + 1 => tree.walkTo purpose (tree.walk purpose links)

/-- The place that a path starts from. -/
def startOf (tree : FileTree) (p : RawPath) : Place :=
  if RawPath.isAbsolute p then [] else tree.workingDirectory

/-- A path that is neither empty nor too long. -/
def measured (p : RawPath) : Except IoError RawPath :=
  if p = [] then .error .noEntry
  else if maxPath < p.length then .error .nameTooLong
  else .ok p

/-- The place that a path leads to, with all links followed. -/
def resolve (tree : FileTree) (p : RawPath) : Except IoError Place := do
  let p ← measured p
  tree.walk .finding maxLinks (tree.startOf p) (partsOf p)

def pathExists (tree : FileTree) (p : RawPath) : Bool :=
  match tree.resolve p with
  | .ok _ => true
  | .error _ => false

def isDirectory (tree : FileTree) (p : RawPath) : Bool :=
  match tree.resolve p with
  | .ok place => tree.isDirectoryAt place
  | .error _ => false

/-- The absolute path without links that a path leads to. However long the path itself is, each
place on the way has to be within reach. -/
def canonical (tree : FileTree) (p : RawPath) : Except IoError RawPath :=
  if p = [] then .error .noEntry
  else (tree.walk .spelling maxLinks (tree.startOf p) (partsOf p)).map pathOf

def read (tree : FileTree) (p : RawPath) : Except IoError (List UInt8) :=
  match tree.resolve p with
  | .error e => .error e
  | .ok place =>
    match tree.node? place with
    | some (.file content) => .ok content
    | some .directory => .error .directory
    | _ => .error .noEntry

/-- A path taken from the working directory. -/
def absolute (tree : FileTree) (p : RawPath) : RawPath :=
  RawPath.joinTo (pathOf tree.workingDirectory) p

/-! ## Changing the tree -/

def put (tree : FileTree) (place : Place) (node : Node) : FileTree :=
  { tree with nodes := (place, node) :: tree.nodes.filter fun e => e.1 != place }

/-- Takes away the node at a place and all that lies below it. -/
def drop (tree : FileTree) (place : Place) : FileTree :=
  { tree with nodes := tree.nodes.filter fun e => !place.isPrefixOf e.1 }

/-- A node stands where it has been put. -/
theorem node?_put {tree : FileTree} {place : Place} {node : Node} (h : place ≠ []) :
    (tree.put place node).node? place = some node := by
  cases place with
  | nil => exact absurd rfl h
  | cons part rest => simp [node?, put]

/-- Putting a node somewhere leaves all other places as they are. -/
theorem node?_put_of_ne {tree : FileTree} {place other : Place} {node : Node} (h : other ≠ place) :
    (tree.put place node).node? other = tree.node? other := by
  cases other with
  | nil => rfl
  | cons part rest =>
    have away : (place == part :: rest) = false := by simpa using Ne.symm h
    simp only [node?, put, List.find?_cons, away]
    congr 1
    induction tree.nodes with
    | nil => rfl
    | cons e nodes ih =>
      by_cases same : e.1 = place
      · simp [same, ih, away]
      · by_cases here : e.1 = part :: rest <;> simp_all

/-- The place where the last part of a path stands or may be put, whose links are not followed. -/
def entryPlace (tree : FileTree) (p : RawPath) : Except IoError Place := do
  let p ← measured p
  match ((Text.pieces RawPath.slash p).filter fun part => !part.isEmpty).reverse with
  | [] => .error .present
  | last :: parents =>
    let place ← tree.walk .finding maxLinks (tree.startOf p) parents.reverse
    if !tree.isDirectoryAt place then .error .noDirectory
    else if last = RawPath.dot ∨ last = RawPath.dotDot then .error .present
    else if maxName < last.length then .error .nameTooLong
    else .ok (place ++ [last])

/-- Makes the directories that parts of a path name, one below the other. -/
def makeDirectoriesFrom (tree : FileTree) (place : Place) :
    List (List UInt8) → Except IoError FileTree
  | [] => .ok tree
  | part :: rest =>
    match tree.walk .finding maxLinks place [part] with
    | .ok next =>
      if tree.isDirectoryAt next then tree.makeDirectoriesFrom next rest else .error .present
    | .error e =>
      if e = .noEntry ∧ (tree.node? (place ++ [part])).isNone then
        (tree.put (place ++ [part]) .directory).makeDirectoriesFrom (place ++ [part]) rest
      else .error e

/-- Makes a directory and those above it that are missing. -/
def makeDirectories (tree : FileTree) (p : RawPath) : Except IoError FileTree :=
  if maxPath < p.length then .error .nameTooLong
  else tree.makeDirectoriesFrom (tree.startOf p) (partsOf p)

/-- Writes a file where a path leads to, in place of one that is there. A link to nothing leads to
the place of the new file. -/
def writeFile (tree : FileTree) (p : RawPath) (content : List UInt8) : Except IoError FileTree := do
  let p ← measured p
  let place ← tree.walk .making maxLinks (tree.startOf p) (partsOf p)
  if tree.isDirectoryAt place then .error .directory else .ok (tree.put place (.file content))

/-- Makes a symbolic link where nothing is. -/
def makeLink (tree : FileTree) (p target : RawPath) : Except IoError FileTree := do
  let target ← measured target
  let place ← tree.entryPlace p
  match tree.node? place with
  | some _ => .error .present
  | none =>
    if p.getLast? = some RawPath.slash then .error .noEntry else .ok (tree.put place (.link target))

/-- Removes a file, a link or a directory with all that it holds. -/
def remove (tree : FileTree) (p : RawPath) : Except IoError FileTree := do
  let place ← tree.entryPlace p
  match tree.node? place with
  | none => .error .noEntry
  | some _ =>
    if p.getLast? = some RawPath.slash ∧ !tree.isDirectoryAt place then .error .noDirectory
    else .ok (tree.drop place)

end FileTree

end DirWatch
