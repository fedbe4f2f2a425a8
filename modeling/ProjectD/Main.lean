import ProjectD.Program

/-! # The command line tool

Takes the part of the file system that a run can look at as a file tree, runs the program on it, and
carries out what the run printed and changed.
-/

set_option autoImplicit false

namespace ProjectD.Main

/-- The environment variables that the program knows. -/
def environment : IO Environment :=
  CommandLine.variableSwitches.filterMapM fun (_, name) => do
    let value ← IO.getEnv name
    return value.map (name, ·)

/-- The directories of the user. The one for configuration is the one that is set, if it is
absolute, and otherwise lies in the home directory. -/
def homes : IO Settings.Homes := do
  let home := (← IO.getEnv "HOME").filter (· ≠ "")
  let config := (← IO.getEnv "XDG_CONFIG_HOME").filter Path.isAbsolute
  return ⟨home, config.or (home.map fun dir => Path.join dir ".config")⟩

def pathOf (place : Place) : String :=
  Path.ofSteps true place

/-- Add what stands at a place of the file system. What cannot be read is left out. -/
def addPlace (tree : FileTree) (place : Place) : IO FileTree := do
  let path := (← IO.currentDir) / pathOf place
  if ← path.isDir then return tree.addDirectory place
  else if ← path.pathExists then
    try return tree.addFile place (← IO.FS.readBinFile path)
    catch _ => return tree
  else return tree

/-- Add all that stands on the way of a path. -/
def addPath (tree : FileTree) (path : String) : IO FileTree := do
  let (tree, _) ← (Path.names path).foldlM (fun (tree, place) name => do
    let place := if name = ".." then place.dropLast else place ++ [name]
    return (← addPlace tree place, place)) (tree, tree.origin path)
  return tree

/-- The part of the file system around some paths. -/
def snapshot (paths : List String) : IO FileTree := do
  let cwd ← IO.currentDir
  paths.foldlM addPath (FileTree.empty (Path.names cwd.toString))

/-- Bring a change about in the file system. -/
def apply : Place × Entry → IO Unit
  | (place, .directory) => IO.FS.createDirAll (pathOf place)
  | (place, .file content) => IO.FS.writeBinFile (pathOf place) content

/-- Show what a run leaves behind, and give its exit status. -/
def conclude (before : FileTree) (outcome : Outcome) : IO UInt32 := do
  IO.print outcome.output
  outcome.log.forM fun record => IO.eprintln ("ERROR " ++ record.render)
  (before.changes (outcome.tree before)).forM apply
  if let .refused e := outcome then IO.eprintln ("error: " ++ e.message)
  if let some e := outcome.failure? then IO.eprintln ("Error: " ++ e.structured)
  return UInt32.ofNat outcome.status

end ProjectD.Main

/-- Run the tool on the arguments of the process. -/
def main (args : List String) : IO UInt32 := do
  let env ← ProjectD.Main.environment
  let homes ← ProjectD.Main.homes
  let before ← ProjectD.Main.snapshot (ProjectD.pathsOfRun homes env args)
  ProjectD.Main.conclude before (ProjectD.run before homes env args)
