import SignatureSearch.CommandLine.Measured
import SignatureSearch.Store.DatabaseText

/-! The program. It takes the files that a command needs from the disk, runs the command on them,
and writes back what the command changed. -/

namespace SignatureSearch

namespace CommandLine

def Command.places : Command → List String
  | .index paths _ _ => paths
  | _ => []

def visit (d : Disk) (path : Path) : IO Disk := do
  let target := (← IO.currentDir) / path.text
  if d.contains path then return d
  else if ← target.isDir then return d.addDirectory path
  else if ← target.pathExists then return d.put path (.bytes (← IO.FS.readBinFile target))
  else return d

partial def load (d : Disk) (path : Path) : IO Disk := do
  let d ← visit d path
  if d.isDirectory path then
    let names := (← ((← IO.currentDir) / path.text).readDir).toList.map fun entry => entry.fileName
    names.foldlM (fun d name => load d (path ++ [name])) d
  else return d

/-- Takes over all that is at or below a written path, and the directories on the way. -/
def loadPlace (d : Disk) (place : String) : IO Disk := do
  let mut d := d
  let mut path := Path.origin place
  for part in Path.parts place do
    path := path.follow part
    d ← visit d path
  if d.reaches place then load d path else return d

/-- Reads the database of an index, if its file holds one. -/
def withDatabase (s : IndexStore) (d : Disk) : Disk :=
  match ((s.file? d).bind fun file => file.content.text?).bind Database.ofText? with
  | some database => s.putDatabase d (.ofDatabase database)
  | none => d

def contentBytes : Content → ByteArray
  | .bytes content => content
  | .database content _ => content.text.toUTF8
  | .malformed => ByteArray.empty

def indexBytes (s : IndexStore) (d : Disk) : Nat :=
  [s.shownDatabase, s.shownSettings].foldl
    (fun size shown =>
      match d.find shown with
      | .ok path => size + ((d.file? path).map fun file => (contentBytes file.content).size).getD 0
      | .error _ => size) 0

/-- Whether what is on a disk is still there, though perhaps with other content. -/
def isKept (after : Disk) (entry : Path × Entry) : Bool :=
  match entry.2, after.entryAt entry.1 with
  | .directory, some .directory => true
  | .file old, some (.file new) => old.number == new.number
  | _, _ => false

/-- Writes back what differs. What is gone was in the directory of the index, and takes that with
it. -/
def writeBack (s : IndexStore) (before after : Disk) : IO Unit := do
  let here ← IO.currentDir
  let before ←
    if before.entries.toList.all (isKept after) then pure before
    else
      IO.FS.removeDirAll (here / s.shown)
      match before.find s.shown with
      | .ok path => pure (before.removeDirectory path)
      | .error _ => pure before
  for (path, entry) in after.entries do
    if before.entryAt path != some entry then
      match entry with
      | .directory => IO.FS.createDirAll (here / path.text)
      | .file file => IO.FS.writeBinFile (here / path.text) (contentBytes file.content)

def lastUpdated (s : IndexStore) : IO String := do
  let database := (← IO.currentDir) / s.shownDatabase
  if ← database.pathExists then
    return timeText (← database.metadata).modified.sec.toNat
  else
    return ""

/-- Runs a command for an index. What the command asks is printed before its answer is read. -/
def execute (root : String) (command : Command) (arguments : List String) : IO UInt32 := do
  let s := IndexStore.under root
  let before := withDatabase s (← (s.shown :: command.places).foldlM loadPlace .empty)
  let asked := (question? s before command).getD ""
  IO.print asked
  (← IO.getStdout).flush
  let input ← if asked.isEmpty then pure "" else (← IO.getStdin).getLine
  let started ← IO.monoNanosNow
  let (after, _) := run before none ⟨"", 0, ""⟩ arguments input
  let measurements : Measurements :=
    ⟨durationText ((← IO.monoNanosNow) - started), indexBytes s after, ← lastUpdated s⟩
  let (_, outcome) := run before none measurements arguments input
  writeBack s before after
  IO.print (String.ofList (outcome.output.toList.drop asked.length))
  IO.eprint outcome.messages
  return UInt32.ofNat outcome.exitCode

end CommandLine

end SignatureSearch

def main (arguments : List String) : IO UInt32 := do
  try
    match SignatureSearch.CommandLine.parse arguments with
    | .run root command => SignatureSearch.CommandLine.execute root command arguments
    | _ =>
      let (_, outcome) :=
        SignatureSearch.CommandLine.run .empty none ⟨"", 0, ""⟩ arguments ""
      IO.print outcome.output
      IO.eprint outcome.messages
      return UInt32.ofNat outcome.exitCode
  catch error =>
    IO.eprint (SignatureSearch.CommandLine.Report.notice "31" ("Error: " ++ toString error))
    return 1
