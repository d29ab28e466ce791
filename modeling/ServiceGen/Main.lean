import ServiceGen.CommandLine.Resolve

/-!
The generator as a program.  It reads the directories that its command line names, lets the
generation run on them, and writes back what is new.  Commands are not started: they are printed
for the user, in the order in which they are to be run.
-/

namespace ServiceGen.Main

/-- The written form of a place. -/
def pathOf (place : List String) : String :=
  "/" ++ "/".intercalate place

/-- The place that the parts of an absolute path lead to. -/
def placeOf (p : Path) : List String :=
  (FileTree.parts p).foldl
    (fun place part =>
      if part.isEmpty || part == "." then place
      else if part == ".." then place.dropLast
      else place ++ [part]) []

/-- The tree with what is on the disk at a place and below it.  Hidden directories are not looked
into. -/
partial def readBelow (t : FileTree) (place : List String) : IO FileTree := do
  let path ← try IO.FS.realPath (pathOf place) catch _ => return t
  if ← path.isDir then
    let mut t := t.put place .directory
    if (place.getLast?.getD "").startsWith "." then return t
    for entry in ← path.readDir do
      t ← readBelow t (place ++ [entry.fileName])
    return t
  else if ← path.pathExists then
    let bytes ← IO.FS.readBinFile path
    return t.put place (.file (.ofBytes bytes.toList))
  else return t

/-- The tree with what a path names, and with the directories around it. -/
def readPath (t : FileTree) (p : Path) : IO FileTree := do
  let place := placeOf p
  let mut t := t
  for depth in List.range place.length do
    let around := place.take (depth + 1)
    let here ← try (← IO.FS.realPath (pathOf around)).isDir catch _ => pure false
    if here then t := t.put around .directory
  readBelow t place

/-- Writes back an entry that is new or changed. -/
def writeEntry (before : FileTree) (place : List String) (e : Entry) : IO Unit := do
  if before.get? place != some e then
    match e with
    | .directory => IO.FS.createDirAll (pathOf place)
    | .file (.text s) => IO.FS.writeFile (pathOf place) s
    | .file (.binary bytes) => IO.FS.writeBinFile (pathOf place) ⟨bytes.toArray⟩

/-- The line that shows a command. -/
def commandLine (c : StartedCommand) : String :=
  let words := " ".intercalate (c.program :: c.arguments)
  match c.place with
  | some place => "cd " ++ pathOf place ++ " && " ++ words
  | none => words

/-- Runs what a command line asks for, and gives the status to exit with. -/
def run (cwd : Path) (home : Option Path) (c : CommandLine) (detail : String) : IO UInt32 := do
  let before ← (cwd :: c.paths cwd home).foldlM readPath .empty
  let start : Workspace :=
    { tree := before, programs := ["git", "python"], exits := [], started := [] }
  let (result, after) := (ExceptT.run (c.run cwd home)).run start
  for (place, e) in after.tree.entries do
    if detail != "info" then
      if before.get? place != some e then IO.println (pathOf place)
    writeEntry before place e
  for command in after.started do
    IO.println (commandLine command)
  match result with
  | .ok () => return 0
  | .error failure => do
      IO.eprintln failure.message
      return 1

end ServiceGen.Main

open ServiceGen

def main (words : List String) : IO UInt32 := do
  let cwd : ServiceGen.Path := ⟨(← IO.currentDir).toString⟩
  let home := (← IO.getEnv "HOME").map ServiceGen.Path.mk
  match CommandLine.parse (← IO.getEnv "SERVICE_GEN_CONFIG") words with
  | .ok c =>
      let c := { c with settingsFile := c.settingsFile.map fun file => (cwd.push file).text }
      let detail := CommandLine.logLevel c.verbosity (← IO.getEnv "SERVICE_GEN_LOG")
      ServiceGen.Main.run cwd home c detail
  | .error .help => do
      IO.println CommandLine.help
      return 0
  | .error .version => do
      IO.println CommandLine.version
      return 0
  | .error e => do
      IO.eprintln e.message
      return 2
