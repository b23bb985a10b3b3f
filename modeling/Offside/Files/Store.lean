/-
  Offside.Files.Store
  ───────────────────
  A file store as a value.

  The store is a list of locations, each with the directory or file that is
  there, and a list of the symbolic links.  A location is the list of names on
  the way down from the root directory, which is always there.  A path is walked
  from the working directory, name by name; a link on the way is replaced by the
  path that it holds, and every name on the way must be a directory.  What the
  program writes gets later and later modification times, and may not fit.
-/
import Offside.Files.Error
import Offside.Files.Path
import Offside.Time

namespace Offside

/-- The names on the way from the root directory to an entry. -/
abbrev Location := List String

/-- Whether two lists are equally long. -/
def sameLength {α : Type} : List α → List α → Bool
  | [], [] => true
  | _ :: as, _ :: bs => sameLength as bs
  | _, _ => false

theorem sameLength_self {α : Type} (as : List α) : sameLength as as = true := by
  induction as with
  | nil => rfl
  | cons a as ih => exact ih

/-- Whether two locations are the same.  Their lengths are looked at first,
since that is quick and most locations differ in it. -/
def Location.same (a b : Location) : Bool := sameLength a b && a == b

@[simp]
theorem Location.same_eq_beq (a b : Location) : Location.same a b = (a == b) := by
  by_cases h : a = b
  · subst h
    simp [Location.same, sameLength_self]
  · have hb : (a == b) = false := by simpa using h
    simp [Location.same, hb]

/-- What can be at a location. -/
inductive FileEntry where
  | directory
  | file (content : ByteArray) (mtime : Binary64) (executable : Bool)

/-- What a store stands on.  The work of the program leaves it as it is. -/
structure Ground where
  /-- The working directory. -/
  home : Location
  /-- Where the symbolic links stand, and the paths that they hold. -/
  links : List (Location × Path) := []
  /-- The directories of which the names may not be listed. -/
  sealed : List Location := []
  /-- How many bytes a file may have, if there is a limit. -/
  limit : Option Nat := none
  deriving DecidableEq

/-- A file store and the working directory in it. -/
structure Files extends Ground where
  entries : List (Location × FileEntry)
  /-- How many files the program has written. -/
  writes : Nat := 0

namespace Files

/-! ## §1. Following names. -/

/-- What is at a location. -/
def at? (fs : Files) (loc : Location) : Option FileEntry :=
  if loc.isEmpty then some .directory
  else (fs.entries.find? fun e => Location.same e.1 loc).map (·.2)

/-- Follow one name.  A single dot stays where it is, and two lead up. -/
def hop (loc : Location) (name : String) : Location :=
  if name == "." then loc else if name == ".." then loc.dropLast else loc ++ [name]

/-- The longest name that an entry may have, in bytes. -/
def maxNameBytes : Nat := 255

/-- Walk down a list of names from a location.  What a name is followed from must
be a directory. -/
def walk (fs : Files) : Location → List String → Except FileCause Location
  | loc, [] => .ok loc
  | loc, name :: rest =>
    match fs.at? loc with
    | none => .error .notFound
    | some (.file ..) => .error .notDirectory
    | some .directory =>
      if maxNameBytes < name.utf8ByteSize then .error .nameTooLong
      else fs.walk (hop loc name) rest

/-- Where the names of a path start. -/
def origin (fs : Files) (p : Path) : Location :=
  match p.anchor with
  | .working => fs.home
  | _ => []

/-! ## §2. Links. -/

/-- The path that the link at a location holds, if there is one. -/
def linkAt? (links : List (Location × Path)) (loc : Location) : Option Path :=
  (links.find? fun l => Location.same l.1 loc).map (·.2)

/-- The names to be walked along once links are replaced, and whether there were
more links than are followed. -/
structure Route where
  names : List String
  endless : Bool
  deriving DecidableEq

/-- A route with one more name in front. -/
def Route.after (route : Route) (name : String) : Route :=
  { route with names := name :: route.names }

/-- The names that replace a link in the directory at a location. -/
def detour (loc : Location) (held : Path) : List String :=
  match held.anchor with
  | .working => held.parts
  | _ => List.replicate loc.length ".." ++ held.parts

/-- Follow names until the first link, and go on with `further` from there. -/
def followUntil (links : List (Location × Path)) (further : Location → List String → Route) :
    Location → List String → Route
  | _, [] => ⟨[], false⟩
  | loc, name :: rest =>
    match linkAt? links (hop loc name) with
    | some held => further loc (detour loc held ++ rest)
    | none => (followUntil links further (hop loc name) rest).after name

/-- Follow names and a number of links. -/
def follow (links : List (Location × Path)) : Nat → Location → List String → Route
  | 0 => followUntil links fun _ _ => ⟨[], true⟩
  | more + 1 => followUntil links (follow links more)

/-- How many links are followed on the way along a path. -/
def maxLinks : Nat := 40

/-- The way along a path. -/
def route (fs : Files) (p : Path) : Route := follow fs.links maxLinks (fs.origin p) p.parts

/-- How many links are followed when a path is resolved. -/
def maxResolved : Nat := 980

/-- The way along a path that is resolved. -/
def fullRoute (fs : Files) (p : Path) : Route := follow fs.links maxResolved (fs.origin p) p.parts

/-! ## §3. Looking. -/

/-- The longest text that a path may have, in bytes. -/
def maxPathBytes : Nat := 4095

/-- The location that a path leads to along a route, whether or not anything is
there. -/
def reach (fs : Files) (p : Path) (route : Route) : Except FileError Location :=
  if p.hasNull then .error .nullInPath
  else if maxPathBytes < p.toString.utf8ByteSize then .error (.refused .nameTooLong p.toString)
  else
    match fs.walk (fs.origin p) route.names with
    | .error cause => .error (.refused cause p.toString)
    | .ok loc => if route.endless then .error (.refused .tooManyLinks p.toString) else .ok loc

/-- The location that a path leads to, whether or not anything is there. -/
def locate (fs : Files) (p : Path) : Except FileError Location := fs.reach p (fs.route p)

/-- What a path leads to. -/
def stat (fs : Files) (p : Path) : Except FileError FileEntry :=
  match fs.locate p with
  | .error e => .error e
  | .ok loc =>
    match fs.at? loc with
    | none => .error (.refused .notFound p.toString)
    | some entry => .ok entry

/-- What a path leads to, if it leads anywhere; only a path that is too long
cannot even be looked at. -/
def look (fs : Files) (p : Path) : Except FileError (Option FileEntry) :=
  match fs.stat p with
  | .ok entry => .ok (some entry)
  | .error (.refused .nameTooLong path) => .error (.refused .nameTooLong path)
  | .error _ => .ok none

/-- Whether a path leads to a directory. -/
def isDirectory (fs : Files) (p : Path) : Bool :=
  match fs.stat p with
  | .ok .directory => true
  | _ => false

/-- Whether a path leads to a file. -/
def isFile (fs : Files) (p : Path) : Bool :=
  match fs.stat p with
  | .ok (.file ..) => true
  | _ => false

/-- Whether a path leads to anything. -/
def isPresent (fs : Files) (p : Path) : Bool :=
  match fs.stat p with
  | .ok _ => true
  | .error _ => false

/-- The path of a location from the root directory, with links replaced and the
parts `..` of a path taken back one by one. -/
def resolve (fs : Files) (p : Path) : Path :=
  ⟨.root, (fs.fullRoute p).names.foldl step (fs.origin p)⟩
where
  /-- Follow one part. -/
  step (loc : Location) (name : String) : Location :=
    if name == ".." then loc.dropLast else loc ++ [name]

/-- Why a path cannot be resolved, if it cannot: no file has such a name, or its
links lead round in a circle. -/
def unresolved? (fs : Files) (p : Path) : Option FileError :=
  if p.hasNull then some .nullInPath
  else if (fs.fullRoute p).endless then some (.refused .endless p.toString)
  else none

/-- The content of the file that a path leads to. -/
def read (fs : Files) (p : Path) : Except FileError ByteArray :=
  match fs.stat p with
  | .error e => .error e
  | .ok .directory => .error (.refused .isDirectory p.toString)
  | .ok (.file content ..) => .ok content

/-! ## §4. Listing. -/

/-- Put a name into a sorted list, unless it is in it. -/
def insertName (name : String) : List String → List String
  | [] => [name]
  | other :: rest =>
    if name < other then name :: other :: rest
    else if name == other then other :: rest
    else other :: insertName name rest

/-- The name that a location has in a directory, if it is in it. -/
def nameIn? (folder loc : Location) : Option String :=
  if Location.same loc.dropLast folder then loc.getLast? else none

/-- The names of what is in the directory at a location, sorted. -/
def namesAt (fs : Files) (loc : Location) : List String :=
  ((fs.entries.map (·.1) ++ fs.links.map (·.1)).filterMap (nameIn? loc)).foldr insertName []

/-- The names in the directory that a path leads to. -/
def list (fs : Files) (p : Path) : Except FileError (List String) :=
  match fs.locate p with
  | .error e => .error e
  | .ok loc =>
    match fs.at? loc with
    | none => .error (.refused .notFound p.toString)
    | some (.file ..) => .error (.refused .notDirectory p.toString)
    | some .directory =>
      if fs.sealed.contains loc then .error (.refused .denied p.toString)
      else .ok (fs.namesAt loc)

/-- How many directories can be gone down into, one in the other. -/
def maxLevels : Nat := 982

/-- Whether there is a directory of this name in the one that a path leads to.  A
link is none. -/
def hasFolder (fs : Files) (p : Path) (name : String) : Bool :=
  match fs.locate p with
  | .error _ => false
  | .ok loc =>
    match linkAt? fs.links (loc ++ [name]), fs.at? (loc ++ [name]) with
    | none, some .directory => true
    | _, _ => false

/-- The lists that are made of the items of a list, one after the other. -/
def gather {α β : Type} (list : α → Except FileError (List β)) : List α →
    Except FileError (List β)
  | [] => .ok []
  | a :: rest => do
    let here ← list a
    let more ← gather list rest
    return here ++ more

/-- The names in a directory; none if they may not be listed. -/
def globbed (fs : Files) (p : Path) : Except FileError (List String) :=
  match fs.list p with
  | .error (.refused .denied _) => .ok []
  | result => result

/-- A directory and those below it, a number of levels down.  Links are not
followed. -/
def foldersBelow (fs : Files) : Nat → Path → Except FileError (List Path)
  | 0, _ => .error .tooDeep
  | levels + 1, p => do
    let names ← fs.globbed p
    let below ← gather (fun name => fs.foldersBelow levels (p.child name))
      (names.filter (fs.hasFolder p))
    return p :: below

/-- The path itself, if it leads to a file. -/
def fileAt (fs : Files) (p : Path) : Except FileError (List Path) := do
  match ← fs.look p with
  | some (.file ..) => return [p]
  | _ => return []

/-- Put a path into a list that is sorted by the parts. -/
def insertPath (p : Path) : List Path → List Path
  | [] => [p]
  | q :: rest => if p.parts < q.parts then p :: q :: rest else q :: insertPath p rest

/-- **The files with accepted names** in a directory, in those below it too if
`deep`, sorted by the parts of their paths. -/
def glob (fs : Files) (p : Path) (deep : Bool) (accept : String → Bool) :
    Except FileError (List Path) := do
  let folders ← if deep then fs.foldersBelow maxLevels p else .ok [p]
  let found ← gather (fun folder => do
    let names ← fs.globbed folder
    gather (fun name => fs.fileAt (folder.child name)) (names.filter accept)) folders
  return found.foldr insertPath []

/-- Everything below the working directory: each path with what is there,
sorted by the text of the path. -/
def listing (fs : Files) : List (String × FileEntry) :=
  let below := fs.entries.filterMap fun e =>
    if fs.home.isPrefixOf e.1 && e.1 != fs.home then
      some (Path.toString ⟨.working, e.1.drop fs.home.length⟩, e.2)
    else none
  below.mergeSort fun a b => decide (a.1 ≤ b.1)

/-! ## §5. Writing. -/

/-- The store with an entry put at a location. -/
def put (fs : Files) (loc : Location) (entry : FileEntry) : Files :=
  if fs.entries.any fun e => Location.same e.1 loc then
    { fs with entries := fs.entries.map fun e =>
        if Location.same e.1 loc then (loc, entry) else e }
  else { fs with entries := fs.entries ++ [(loc, entry)] }

/-- The store without a location and all that is below it. -/
def drop (fs : Files) (loc : Location) : Files :=
  { fs with
    entries := fs.entries.filter fun e => !loc.isPrefixOf e.1
    links := fs.links.filter fun l => !loc.isPrefixOf l.1 }

/-- The modification time of the next file that the program writes, later
than every time that a file is given from outside. -/
def currentTime (fs : Files) : Binary64 := Binary64.ofRatio false (4102444800 + fs.writes) 1

/-- Whether there is an executable file at a location. -/
def isExecutable (fs : Files) (loc : Location) : Bool :=
  match fs.at? loc with
  | some (.file _ _ executable) => executable
  | _ => false

/-- Open a file to write it anew, and give back where it is.  A file that is
already there is emptied and stays executable if it was, and otherwise an empty
one is made. -/
def openNew (fs : Files) (p : Path) : Except FileError (Files × Location) :=
  match fs.locate p with
  | .error e => .error e
  | .ok loc =>
    match fs.at? loc with
    | some .directory => .error (.refused .isDirectory p.toString)
    | _ =>
      .ok ({ fs.put loc (.file .empty fs.currentTime (fs.isExecutable loc)) with
        writes := fs.writes + 1 }, loc)

/-- The part of a content that a file may have. -/
def fitting (fs : Files) (content : ByteArray) : ByteArray :=
  match fs.limit with
  | none => content
  | some limit => if content.size ≤ limit then content else content.extract 0 limit

/-- Whether a file may have a content. -/
def fits (fs : Files) (content : ByteArray) : Bool :=
  match fs.limit with
  | none => true
  | some limit => decide (content.size ≤ limit)

/-- Fill the file that was opened at a location.  What does not fit is refused,
and the file keeps the rest. -/
def fill (fs : Files) (p : Path) (loc : Location) (content : ByteArray) :
    Files × Except FileError Unit :=
  match fs.at? loc with
  | some (.file _ mtime executable) =>
    (fs.put loc (.file (fs.fitting content) mtime executable),
      if fs.fits content then .ok () else .error (.refused .tooLarge p.toString))
  | _ => (fs, .error (.refused .badDescriptor p.toString))

/-- Write a file: open it, and fill it. -/
def write (fs : Files) (p : Path) (content : ByteArray) : Files × Except FileError Unit :=
  match fs.openNew p with
  | .error e => (fs, .error e)
  | .ok (opened, loc) => opened.fill p loc content

/-- The store after a change, unless it was refused. -/
def unlessRefused (changed : Files × Except FileError Unit) : Except FileError Files :=
  changed.2.map fun _ => changed.1

/-! ## §6. Making directories. -/

/-- The way to the last name of a path, which is not followed itself. -/
def routeTo (fs : Files) (p : Path) : Route :=
  match p.parts.getLast? with
  | none => fs.route p
  | some name =>
    let route := fs.route p.parent
    { route with names := route.names ++ [name] }

/-- Make a directory at the location of the last name of a path; `mayExist` says
whether it may be there already.  A link to a directory is as good as one. -/
def makeAt (fs : Files) (p : Path) (mayExist : Bool) (loc : Location) :
    Except FileError (Files × Location) :=
  match linkAt? fs.links loc with
  | some _ =>
    match fs.locate p with
    | .ok held =>
      if mayExist && fs.isDirectory p then .ok (fs, held)
      else .error (.refused .exists p.toString)
    | .error _ => .error (.refused .exists p.toString)
  | none =>
    match fs.at? loc, mayExist with
    | none, _ => .ok (fs.put loc .directory, loc)
    | some .directory, true => .ok (fs, loc)
    | some _, _ => .error (.refused .exists p.toString)

/-- How many missing directories can be made at once. -/
def maxMissing : Nat := 985

/-- Make a directory and those above it that are missing, up to a number of
them, and give back where it is.  The names are taken off the end of the path
one by one until a directory can be made; what was made stays when a later one
is refused. -/
def makeMissing (fs : Files) (anchor : Anchor) :
    Nat → Bool → List String → Files × Except FileError Location
  | 0, _, _ => (fs, .error .tooDeep)
  | room + 1, mayExist, parts =>
    let p : Path := ⟨anchor, parts⟩
    match fs.reach p (fs.routeTo p), parts.getLast? with
    | .error (.refused .notFound _), some name =>
      match fs.makeMissing anchor room true parts.dropLast with
      | (fs', .error e) => (fs', .error e)
      | (fs', .ok above) =>
        match fs'.walk above [name] with
        | .error cause => (fs', .error (.refused cause p.toString))
        | .ok loc => settled fs' (fs'.makeAt p mayExist loc)
    | .error e, _ => (fs, .error e)
    | .ok loc, _ => settled fs (fs.makeAt p mayExist loc)
where
  /-- The store after a directory was made, or the same one. -/
  settled (fs : Files) : Except FileError (Files × Location) → Files × Except FileError Location
    | .ok (fs', loc) => (fs', .ok loc)
    | .error e => (fs, .error e)

/-- Make a directory and those above it that are missing. -/
def makeDirectories (fs : Files) (p : Path) (mayExist : Bool) : Files × Except FileError Unit :=
  let (fs', result) := fs.makeMissing p.anchor maxMissing mayExist p.parts
  (fs', result.map fun _ => ())

/-! ## §7. Changes from outside. -/

/-- What others do to the files while the program runs. -/
inductive Change where
  /-- Write a file at a time, with the directories above it. -/
  | write (path : Path) (content : ByteArray) (mtime : Time) (executable : Bool)
  /-- Give a file another modification time. -/
  | touch (path : Path) (mtime : Time)
  /-- Make a directory and those above it. -/
  | makeDirectory (path : Path)
  /-- Make a link that holds a path. -/
  | link (path : Path) (held : Path)
  /-- Remove a file, a link, or a directory with all that is in it. -/
  | remove (path : Path)

/-- The store with a directory at a location and at every location above
it. -/
def openTo (fs : Files) (loc : Location) : Files :=
  (List.range loc.length).foldl place fs
where
  /-- Make one directory on the way, unless something is there. -/
  place (fs : Files) (n : Nat) : Files :=
    let above := loc.take (n + 1)
    if (fs.at? above).isSome then fs else fs.put above .directory

/-- The location of the last name of a path, which is not followed itself. -/
def standing (fs : Files) (p : Path) : Location :=
  match p.parts.getLast? with
  | none => (fs.resolve p).parts
  | some name => resolve.step (fs.resolve p.parent).parts name

/-- The store after a change from outside.  A file that is written again
stays executable. -/
def apply (fs : Files) (change : Change) : Files :=
  match change with
  | .write p content mtime executable =>
    let loc := (fs.resolve p).parts
    (fs.openTo loc.dropLast).put loc
      (.file content mtime.stamp (executable || fs.isExecutable loc))
  | .touch p mtime =>
    let loc := (fs.resolve p).parts
    match fs.at? loc with
    | some (.file content _ executable) => fs.put loc (.file content mtime.stamp executable)
    | some .directory => fs
    | none => fs.put loc (.file .empty mtime.stamp false)
  | .makeDirectory p => fs.openTo (fs.resolve p).parts
  | .link p held =>
    let loc := fs.standing p
    let made := fs.openTo loc.dropLast
    { made with links := made.links ++ [(loc, held)] }
  | .remove p => fs.drop (fs.standing p)

/-- An empty working directory. -/
def fresh (home : Location) : Files := openTo { home, entries := [] } home

end Files

end Offside
