import LatticeLedger.Ordered.Map
import LatticeLedger.Requirement

/-!
# Files

Commands read and write whole text files. What they need of a file system is a class, with a
single directory as its model: a command that runs in a directory is a function on directories.
-/

namespace LatticeLedger

/-- Why a file cannot be read or written. -/
inductive FileError
  | notFound
  | notDirectory
  | isDirectory
  | nameTooLong
  /-- A path contains the character with the code zero. -/
  | badName
  /-- A file to be read is not UTF-8. -/
  | notText
  /-- Any other failure, in the words of the system. -/
  | other (words : String)
  deriving DecidableEq, Repr

/-- The wording of a file error. -/
def FileError.message : FileError → String
  | notFound => "No such file or directory (os error 2)"
  | notDirectory => "Not a directory (os error 20)"
  | isDirectory => "Is a directory (os error 21)"
  | nameTooLong => "File name too long (os error 36)"
  | badName => "file name contained an unexpected NUL byte"
  | notText => "stream did not contain valid UTF-8"
  | other words => words

/-- A monad in which text files are read and written. -/
class FileSystem (m : Type → Type) where
  /-- The text of a file. -/
  readText : String → m (Except FileError String)
  /-- Makes a text the content of a file. -/
  writeText : String → String → m (Except FileError Unit)

/-- The text of a sequence of bytes. -/
def decodeText (bytes : ByteArray) : Except FileError String :=
  match String.fromUTF8? bytes with
  | some text => .ok text
  | none => .error .notText

/-- The bytes of a text are decoded to that text. -/
theorem decodeText_toUTF8 (text : String) : decodeText text.toUTF8 = .ok text := by
  have h : String.fromUTF8? text.toUTF8 = some text := dif_pos text.isValidUTF8
  rw [decodeText, h]

/-- A directory that holds files and no other directories. -/
structure Directory where
  /-- The contents of the files, by name. -/
  files : OrderedMap String ByteArray := ∅

namespace Directory

/-- A directory through which a path may lead. -/
inductive Spot
  /-- The directory itself. -/
  | here
  /-- A directory above it, of which nothing else is known. -/
  | above
  deriving DecidableEq, Repr

/-- What a path names. -/
inductive Target
  /-- A directory. -/
  | directory
  /-- An entry of a directory, which is a file or not there. -/
  | entry (spot : Spot) (name : String)
  deriving DecidableEq, Repr

/-- The longest name of a file, in bytes. -/
def nameLimit : Nat := 255

/-- The longest path, in bytes. -/
def pathLimit : Nat := 4095

/-- The content of an entry. -/
def content? (directory : Directory) (spot : Spot) (name : String) :
    Except FileError (Option ByteArray) := do
  require (name.utf8ByteSize ≤ nameLimit) .nameTooLong
  match spot with
  | .here => return directory.files.get? name
  | .above => return none

/-- The directory to which a part of a path leads. No entry is a directory, so only dots lead
on. -/
def enter (directory : Directory) (spot : Spot) (part : String) : Except FileError Spot :=
  if part = "." then .ok spot
  else if part = ".." then .ok .above
  else do
    let _ ← demand .notFound (← directory.content? spot part)
    .error .notDirectory

/-- What a path names, seen from a directory. The path is followed from its start, or from a
directory above if it begins with a slash; slashes may be repeated. -/
def resolve (directory : Directory) (path : String) : Except FileError Target := do
  require (¬path.contains '\x00') .badName
  require (¬path.isEmpty) .notFound
  require (path.utf8ByteSize ≤ pathLimit) .nameTooLong
  let parts := ((path.toList.splitOn '/').map String.ofList).filter (· != "")
  let start := if path.startsWith "/" then Spot.above else .here
  let spot ← parts.dropLast.foldlM directory.enter start
  match parts.getLast? with
  | none | some "." | some ".." => return .directory
  | some name => return .entry spot name

/-- The text of a file. A slash after its name asks for a directory. -/
def readText (directory : Directory) (path : String) : Except FileError String := do
  match ← directory.resolve path with
  | .directory => .error .isDirectory
  | .entry spot name => do
    let bytes ← demand .notFound (← directory.content? spot name)
    require (¬path.endsWith "/") .notDirectory
    decodeText bytes

/-- The directory after a text was made the content of a file. What is written above the directory
is out of its sight. -/
def writeText (directory : Directory) (path text : String) : Except FileError Directory := do
  match ← directory.resolve path with
  | .directory => .error .isDirectory
  | .entry spot name => do
    require (¬path.endsWith "/") .isDirectory
    let _ ← directory.content? spot name
    match spot with
    | .here => return ⟨directory.files.insert name text.toUTF8⟩
    | .above => return directory

/-- Dots lead on and nothing else does, whatever files there are. -/
theorem enter_eq_ok_iff {directory : Directory} {spot next : Spot} {part : String} :
    directory.enter spot part = .ok next ↔
      part = "." ∧ spot = next ∨ part = ".." ∧ next = .above := by
  rw [enter]
  split
  case isTrue hdot => simp [hdot]
  case isFalse hdot =>
    split
    case isTrue hdots => simp [hdots, eq_comm]
    case isFalse hdots =>
      simp only [hdot, hdots, false_and, or_self, iff_false]
      intro h
      obtain ⟨_, -, h⟩ := bind_eq_ok_iff.1 h
      obtain ⟨_, -, h⟩ := bind_eq_ok_iff.1 h
      cases h

/-- A path that leads on in one directory leads on in every other, since no file is passed through.
-/
theorem foldlM_enter_eq_ok {directory other : Directory} {parts : List String} {start spot : Spot}
    (h : parts.foldlM directory.enter start = .ok spot) :
    parts.foldlM other.enter start = .ok spot := by
  induction parts generalizing start with
  | nil => exact h
  | cons part rest ih =>
    obtain ⟨next, hnext, hrest⟩ := bind_eq_ok_iff.1 h
    exact bind_eq_ok_iff.2 ⟨next, enter_eq_ok_iff.2 (enter_eq_ok_iff.1 hnext), ih hrest⟩

/-- What a path names does not depend on the files. -/
theorem resolve_eq_ok {directory other : Directory} {path : String} {target : Target}
    (h : directory.resolve path = .ok target) : other.resolve path = .ok target := by
  obtain ⟨_, hname, h⟩ := bind_eq_ok_iff.1 h
  obtain ⟨_, hsome, h⟩ := bind_eq_ok_iff.1 h
  obtain ⟨_, hlength, h⟩ := bind_eq_ok_iff.1 h
  obtain ⟨spot, hspot, htarget⟩ := bind_eq_ok_iff.1 h
  refine bind_eq_ok_iff.2 ⟨_, hname, ?_⟩
  refine bind_eq_ok_iff.2 ⟨_, hsome, ?_⟩
  refine bind_eq_ok_iff.2 ⟨_, hlength, ?_⟩
  exact bind_eq_ok_iff.2 ⟨spot, foldlM_enter_eq_ok hspot, htarget⟩

/-- A file of the directory that holds the bytes of a text reads as that text. -/
theorem readText_of_get? {directory : Directory} {path text name : String}
    (hresolve : directory.resolve path = .ok (.entry .here name))
    (hslash : ¬path.endsWith "/") (hlimit : name.utf8ByteSize ≤ nameLimit)
    (hget : directory.files.get? name = some text.toUTF8) : directory.readText path = .ok text := by
  have hcontent : directory.content? .here name = .ok (some text.toUTF8) :=
    bind_eq_ok_iff.2 ⟨(), require_eq_ok_iff.2 hlimit, congrArg Except.ok hget⟩
  refine bind_eq_ok_iff.2 ⟨_, hresolve, ?_⟩
  refine bind_eq_ok_iff.2 ⟨_, hcontent, ?_⟩
  refine bind_eq_ok_iff.2 ⟨text.toUTF8, rfl, ?_⟩
  exact bind_eq_ok_iff.2 ⟨(), require_eq_ok_iff.2 hslash, decodeText_toUTF8 text⟩

/-- A file of the directory reads back as it was written. -/
theorem readText_of_writeText {directory written : Directory} {path text name : String}
    (hresolve : directory.resolve path = .ok (.entry .here name))
    (hwrite : directory.writeText path text = .ok written) :
    written.readText path = .ok text := by
  obtain ⟨target, htarget, hwrite⟩ := bind_eq_ok_iff.1 hwrite
  obtain rfl := Except.ok.inj (hresolve.symm.trans htarget)
  obtain ⟨_, hslash, hwrite⟩ := bind_eq_ok_iff.1 hwrite
  obtain ⟨_, hcontent, hwrite⟩ := bind_eq_ok_iff.1 hwrite
  obtain rfl := Except.ok.inj hwrite
  obtain ⟨_, hlimit, -⟩ := bind_eq_ok_iff.1 hcontent
  have hget : (directory.files.insert name text.toUTF8).get? name = some text.toUTF8 :=
    OrderedMap.get?_eq_some_iff.2 (OrderedMap.mem_insert.2 (.inl rfl))
  exact readText_of_get? (resolve_eq_ok hresolve) (require_eq_ok_iff.1 hslash)
    (require_eq_ok_iff.1 hlimit) hget

end Directory

instance : FileSystem (StateM Directory) where
  readText path := do return (← get).readText path
  writeText path text := do
    match (← get).writeText path text with
    | .ok directory => do
      set directory
      return .ok ()
    | .error error => return .error error

end LatticeLedger
