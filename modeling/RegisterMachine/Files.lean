import RegisterMachine.Text.Utf8

/-!
Contract: a directory of plain files.

Names are resolved in the directory itself; it has no other directories below
it. So a path with several parts fails, because its first part is absent or is
a plain file. Opening an absent file for writing creates it.

Owns: `FileError`, `Files` and what happens when a file is read or written.
Does not own: files of the real world, which only `Main` touches.
-/

namespace RegisterMachine

/-- Why a file cannot be read or written. -/
inductive FileError where
  | notFound
  | isDirectory
  /-- A part of the path that should be a directory is a plain file. -/
  | notDirectory
  /-- A text file is not UTF-8. -/
  | notText
  | other (description : String)
deriving DecidableEq, Repr

def FileError.message : FileError → String
  | .notFound => "No such file or directory (os error 2)"
  | .isDirectory => "Is a directory (os error 21)"
  | .notDirectory => "Not a directory (os error 20)"
  | .notText => "stream did not contain valid UTF-8"
  | .other description => description

/-- The files of a directory with their contents; no name occurs twice. -/
structure Files where
  entries : List (String × Bytes)
deriving DecidableEq, Repr

namespace Files

def empty : Files := ⟨[]⟩

/-- The content of the plain file of this name. -/
def content? (files : Files) (name : String) : Option Bytes := files.entries.lookup name

/-- Replaces the content of an entry, or adds an entry at the end. -/
def setEntry (name : String) (content : Bytes) : List (String × Bytes) → List (String × Bytes)
  | [] => [(name, content)]
  | (other, old) :: rest =>
      if other = name then (name, content) :: rest
      else (other, old) :: setEntry name content rest

def set (files : Files) (name : String) (content : Bytes) : Files :=
  ⟨setEntry name content files.entries⟩

theorem lookup_setEntry (name other : String) (content : Bytes)
    (entries : List (String × Bytes)) :
    (setEntry name content entries).lookup other =
      if other = name then some content else entries.lookup other := by
  induction entries with
  | nil =>
      by_cases same : other = name
      · simp [setEntry, same]
      · simp [setEntry, same, List.lookup_cons, beq_false_of_ne same]
  | cons entry rest inductionHypothesis =>
      obtain ⟨first, old⟩ := entry
      by_cases isFirst : first = name
      · subst isFirst
        by_cases same : other = first
        · simp [setEntry, same]
        · simp [setEntry, same, List.lookup_cons, beq_false_of_ne same]
      · by_cases same : other = first
        · subst same
          simp [setEntry, isFirst]
        · simp [setEntry, isFirst, List.lookup_cons, beq_false_of_ne same, inductionHypothesis]

@[simp] theorem content?_set (files : Files) (name other : String) (content : Bytes) :
    (files.set name content).content? other =
      if other = name then some content else files.content? other :=
  lookup_setEntry name other content files.entries

/-! ## Paths -/

/-- The parts of a path between slashes. -/
def parts : List Char → List (List Char)
  | [] => [[]]
  | character :: rest =>
      if character = '/' then
        [] :: parts rest
      else
        match parts rest with
        | [] => [[character]]
        | part :: others => (character :: part) :: others

/-- The directory itself under its own name. -/
def isHere (part : List Char) : Bool := part == ['.']

/-- The name of the plain file that the parts of a path lead to. -/
def resolveParts (files : Files) : List (List Char) → Except FileError String
  | [] => .error .notFound
  | [last] => if last.isEmpty || isHere last then .error .isDirectory else .ok (String.ofList last)
  | first :: rest =>
      if isHere first then files.resolveParts rest
      else if (files.content? (String.ofList first)).isSome then .error .notDirectory
      else .error .notFound

/-- The name of the plain file that a path leads to, whether or not it exists. -/
def resolve (files : Files) (path : String) : Except FileError String :=
  if path.isEmpty then .error .notFound else files.resolveParts (parts path.toList)

/-! ## Reading and writing -/

/-- The content of a file. -/
def read (files : Files) (path : String) : Except FileError Bytes :=
  match files.resolve path with
  | .error error => .error error
  | .ok name =>
      match files.content? name with
      | some content => .ok content
      | none => .error .notFound

/-- Changes the content of a file, which is empty if it does not exist yet. -/
def modify (files : Files) (path : String) (change : Bytes → Bytes) : Except FileError Files :=
  match files.resolve path with
  | .error error => .error error
  | .ok name => .ok (files.set name (change ((files.content? name).getD [])))

end Files

/-- How the content of a file is changed. -/
inductive FileChange where
  /-- The new content takes the place of the old one. -/
  | replace (content : Bytes)
  | append (content : Bytes)
  /-- The new content takes the place of as many bytes of the old one from an offset on. -/
  | overwrite (offset : Nat) (content : Bytes)
deriving DecidableEq, Repr

/-- The first bytes of a content, filled up with zeros to the given number. -/
def paddedTake (count : Nat) (content : Bytes) : Bytes :=
  (content.take count).rightpad count 0

/-- The content after a change. A change that writes nothing does not fill up either. -/
def FileChange.apply : FileChange → Bytes → Bytes
  | .replace content, _ => content
  | .append content, old => old ++ content
  | .overwrite offset content, old =>
      if content.isEmpty then old
      else paddedTake offset old ++ content ++ old.drop (offset + content.length)

/-- To overwrite from the end on is to append. -/
theorem FileChange.apply_overwrite_length (old content : Bytes) :
    (FileChange.overwrite old.length content).apply old = old ++ content := by
  cases content with
  | nil => simp [apply]
  | cons first rest => simp [apply, paddedTake, List.rightpad]

/-- A file as text. -/
def decodeText (content : Bytes) : Except FileError String :=
  match Text.decode? content with
  | some text => .ok text
  | none => .error .notText

end RegisterMachine
