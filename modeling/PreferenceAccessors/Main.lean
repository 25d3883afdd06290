import PreferenceAccessors.Program

/-!
The command line on a real disk. What the program may look at is read into a
file tree first: the input, the resources beside or on the source path, and the
names below the output directory. The program runs on that tree, and what it
changed is written back.
-/

namespace PreferenceAccessors.Disk

def usage : String :=
  "usage: prefgen [-h] [-d] [-o OUTPUT] [-s PATH] [--config-name CONFIG_NAME] " ++
    "[--package PACKAGE] input"

def kind? (path : String) : IO (Option Bool) := do
  try
    let there ← IO.FS.realPath path
    if ← there.isDir then pure (some true)
    else if ← there.pathExists then pure (some false)
    else pure none
  catch _ => pure none

def addPath (t : FileTree) (names : List String) : IO FileTree := do
  let mut tree := t
  for count in List.range (names.length + 1) do
    let above := names.take count
    if (tree.find? above).isNone then
      let path := "/" ++ "/".intercalate above
      match ← kind? path with
      | some true => tree := tree.put above .empty
      | some false => tree := tree.put above (.file (← IO.FS.readBinFile path))
      | none => return tree
  return tree

partial def namesBelow (path : String) : IO FileTree := do
  let mut entries := []
  for entry in ← (← IO.FS.realPath path).readDir do
    let below := path ++ "/" ++ entry.fileName
    match ← kind? below with
    | some true => entries := entries ++ [(entry.fileName, ← namesBelow below)]
    | some false => entries := entries ++ [(entry.fileName, .file .empty)]
    | none => pure ()
  return .directory entries

def addBelow (t : FileTree) (names : List String) : IO FileTree := do
  let tree ← addPath t names
  let path := "/" ++ "/".intercalate names
  match ← kind? path with
  | some true => return tree.put names (← namesBelow path)
  | _ => return tree

def treeFor (cwd : Path) (sourcePath : Option String) : Request → IO FileTree
  | .help => pure .empty
  | .generate input o => do
    let s : Program.Surroundings := ⟨cwd, sourcePath, .empty⟩
    let inputPath := Path.ofText input
    let mut tree ← addPath .empty cwd.parts
    if let .ok output := Program.outputPath s o then
      tree ← addBelow tree (Path.resolve cwd output).parts
    tree ← addPath tree (Path.resolve cwd inputPath).parts
    if let (.ok sources, .text configName) := (Program.sourcePath s inputPath o, o.configName) then
      for path in sources.paths do
        tree ← addPath tree (Path.resolve cwd (path.join (Path.ofText configName))).parts
    return tree

def writeBack (before after : FileTree) : IO Unit := do
  for (names, content) in before.changes after do
    let path := "/" ++ "/".intercalate names
    match content with
    | some bytes => IO.FS.writeBinFile path bytes
    | none => IO.FS.createDirAll path

def levelName : Level → String
  | .debug => "DEBUG"
  | .info => "INFO"
  | .warning => "WARNING"
  | .error => "ERROR"

def print (elapsed : Nat) (n : Notice) : IO Unit :=
  let shown := match n with
    | .finished _ => Notice.finished elapsed
    | n => n
  match shown.level? with
  | some level => IO.println (levelName level ++ " " ++ shown.text)
  | none => pure ()

def run (words : List String) : IO UInt32 := do
  let started ← IO.monoMsNow
  let cwd := Path.ofText (← IO.currentDir).toString
  let sourcePath ← IO.getEnv "PREFGEN_SOURCE_PATH"
  let tree ← match Request.parse words with
    | .ok request => treeFor cwd sourcePath request
    | .error _ => pure .empty
  let r := Program.run ⟨cwd, sourcePath, tree⟩ words
  writeBack tree r.value.2
  let elapsed := ((← IO.monoMsNow) - started) / 10
  for notice in r.log do
    print elapsed notice
  match r.value.1 with
  | .help =>
    IO.println usage
    return 0
  | .usage e =>
    IO.eprintln usage
    IO.eprintln e.message
    return 2
  | .code n => return UInt32.ofNat n
  | .raised e =>
    IO.eprintln e.message
    return 1

end PreferenceAccessors.Disk

def main (words : List String) : IO UInt32 :=
  PreferenceAccessors.Disk.run words
