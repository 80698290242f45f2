/-!
# Files

What the library needs of a file system is two operations: the bytes at a path, and writing a text
to a path. `Files` is those two in any monad, so one definition serves a real file system and one
that is a value. A file that a reader wants has to be there, has to hold text, and the text has to
be one that the reader understands; `FileFault` tells the last from the other two.
-/

namespace ActionSheet

/-- A file system: what can be read from it and written to it. -/
structure Files (m : Type → Type) where
  /-- The bytes at a path, if there is a file that can be read. -/
  read : String → m (Option ByteArray)
  /-- Whether a text could be written to a path. -/
  write : String → String → m Bool

/-- A file system that is a value: what can be read from it, and what it is after a text was written
to it, if that is possible. -/
def Files.ofState {σ : Type} (read? : σ → String → Option ByteArray)
    (write? : σ → String → String → Option σ) : Files (StateM σ) where
  read path := return read? (← get) path
  write path text := do
    match write? (← get) path text with
    | none => return false
    | some s =>
      set s
      return true

/-- Why a file gave nothing. -/
inductive FileFault where
  | unreadable (path : String)
  | malformed (path : String)
  deriving DecidableEq, Repr

/-- The failure in words. -/
def FileFault.message : FileFault → String
  | unreadable path => "Failed to read " ++ path
  | malformed path => "Failed to parse " ++ path

/-- What a reader makes of the bytes at a path. -/
def FileFault.interpret {α : Type} (parse : String → Option α) (path : String) :
    Option ByteArray → Except FileFault α
  | none => .error (.unreadable path)
  | some bytes =>
    match String.fromUTF8? bytes with
    | none => .error (.unreadable path)
    | some text =>
      match parse text with
      | none => .error (.malformed path)
      | some value => .ok value

/-- The value that the text of a file spells. -/
def Files.load {m : Type → Type} {α : Type} [Monad m] (files : Files m)
    (parse : String → Option α) (path : String) : m (Except FileFault α) := do
  return FileFault.interpret parse path (← files.read path)

end ActionSheet
