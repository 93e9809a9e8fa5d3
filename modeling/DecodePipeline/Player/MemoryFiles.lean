import DecodePipeline.Player.Files
import DecodePipeline.Recorder.StreamDump
import DecodePipeline.Text.Blank

/-!
This module contains a small file system in memory: a tree of directories, files and devices, with
a working directory in which paths start that are not absolute.
-/

namespace DecodePipeline

inductive MemorySink where
  | file (pieces : List ByteArray)
  | full
  | discard
  deriving DecidableEq, Inhabited

namespace MemorySink

def content : MemorySink → ByteArray
  | file pieces => pieces.foldr (fun piece before => before ++ piece) .empty
  | full | discard => .empty

instance : ByteSink MemorySink where
  write sink bytes := match sink with
    | file pieces => (.ok (), file (bytes :: pieces))
    | full => (.error "No space left on device (os error 28)", full)
    | discard => (.ok (), discard)

end MemorySink

inductive PathStep where
  | stay
  | up
  | enter (name : String)
  deriving DecidableEq

structure FilePath where
  absolute : Bool
  steps : List PathStep
  wantsDirectory : Bool
  deriving DecidableEq

namespace FilePath

def maxSize : Nat := 4095

def maxNameSize : Nat := 255

def stepOf : List Char → PathStep
  | ['.'] => .stay
  | ['.', '.'] => .up
  | name => .enter (String.ofList name)

def ofText (text : List Char) : FilePath where
  -- any number of slashes may stand between two steps
  absolute := text.head? == some '/'
  steps := ((Text.pieces '/' text).filter (!·.isEmpty)).map stepOf
  wantsDirectory := text.getLast? == some '/'

end FilePath

inductive FileNode where
  | directory
  | file (content : ByteArray)
  | nullDevice
  | fullDevice
  deriving DecidableEq, Inhabited

abbrev FilePlace := List String

structure MemoryFiles where
  nodes : List (FilePlace × FileNode)
  origin : FilePlace
  deriving DecidableEq, Inhabited

namespace MemoryFiles

def systemDirectories : List String :=
  ["bin", "dev", "etc", "home", "lib", "opt", "proc", "root", "run", "sys", "tmp", "usr", "var"]

def blank : MemoryFiles where
  nodes :=
    [(["null", "dev"], .nullDevice), (["full", "dev"], .fullDevice),
     (["working directory", "tmp"], .directory)]
      ++ systemDirectories.map fun name => ([name], .directory)
  origin := ["working directory", "tmp"]

def node? (fs : MemoryFiles) (place : FilePlace) : Option FileNode :=
  if place.isEmpty then some .directory else fs.nodes.lookup place

def put (fs : MemoryFiles) (place : FilePlace) (node : FileNode) : MemoryFiles :=
  { fs with nodes := (place, node) :: fs.nodes.filter (·.1 != place) }

def isDirectory (fs : MemoryFiles) (place : FilePlace) : Bool :=
  fs.node? place == some .directory

def enter (fs : MemoryFiles) (place : FilePlace) (name : String) : Except FileFault FilePlace :=
  if FilePath.maxNameSize < name.utf8ByteSize then .error .nameTooLong
  else if (fs.node? (name :: place)).isSome then .ok (name :: place)
  else .error .notFound

def walk (fs : MemoryFiles) (place : FilePlace) : List PathStep → Except FileFault FilePlace
  -- every step starts in a directory
  | [] => .ok place
  | step :: steps =>
    if fs.isDirectory place then
      match step with
      | .stay => fs.walk place steps
      | .up => fs.walk place.tail steps
      | .enter name => do fs.walk (← fs.enter place name) steps
    else .error .notDirectory

def start (fs : MemoryFiles) (path : FilePath) : FilePlace :=
  if path.absolute then [] else fs.origin

def path? (text : String) : Except FileFault FilePath :=
  if text.isEmpty then .error .notFound
  else if FilePath.maxSize < text.utf8ByteSize then .error .nameTooLong
  else .ok (.ofText text.toList)

def find (fs : MemoryFiles) (text : String) : Except FileFault FilePlace := do
  let path ← path? text
  let place ← fs.walk (fs.start path) path.steps
  if path.wantsDirectory && !fs.isDirectory place then throw .notDirectory else return place

def bytes (fs : MemoryFiles) (text : String) : Except FileFault ByteArray := do
  match fs.node? (← fs.find text) with
  | some (.file content) => return content
  | some .nullDevice | some .fullDevice => return .empty
  | some .directory => throw .isDirectory
  | none => throw .notFound

def textOf (content : ByteArray) : Except FileFault String :=
  match String.fromUTF8? content with
  | some text => .ok text
  | none => .error .notText

def read (fs : MemoryFiles) (text : String) : Except FileFault String := do
  textOf (← fs.bytes text)

/--
The place at which a path lets a file be written. The file need not be there yet, but its directory
has to. A directory is never written.
-/
def target (fs : MemoryFiles) (text : String) : Except FileFault FilePlace := do
  let path ← path? text
  match path.steps.getLast? with
  | some (.enter name) =>
    let place ← fs.walk (fs.start path) path.steps.dropLast
    if !fs.isDirectory place then throw .notDirectory
    else if path.wantsDirectory then throw .isDirectory
    else if FilePath.maxNameSize < name.utf8ByteSize then throw .nameTooLong
    else return name :: place
  | _ =>
    let _ ← fs.walk (fs.start path) path.steps
    throw .isDirectory

def createAt (fs : MemoryFiles) (place : FilePlace) : Except FileFault MemorySink × MemoryFiles :=
  match fs.node? place with
  | some .directory => (.error .isDirectory, fs)
  | some .nullDevice => (.ok .discard, fs)
  | some .fullDevice => (.ok .full, fs)
  | some (.file _) | none => (.ok (.file []), fs.put place (.file .empty))

def create (fs : MemoryFiles) (text : String) : Except FileFault MemorySink × MemoryFiles :=
  match fs.target text with
  | .ok place => fs.createAt place
  | .error fault => (.error fault, fs)

def save (fs : MemoryFiles) (dump : StreamDump MemorySink) : MemoryFiles :=
  match fs.target dump.path, dump.buffer.sink with
  | .ok place, .file _ => fs.put place (.file dump.buffer.sink.content)
  | _, _ => fs

def ofTexts (texts : List (String × String)) : MemoryFiles :=
  texts.foldl (fun fs (name, text) => fs.put (name :: fs.origin) (.file text.toUTF8)) blank

def access : FileAccess (StateM MemoryFiles) MemorySink where
  read path := return (← get).read path
  create path := modifyGet fun fs => fs.create path

end MemoryFiles
end DecodePipeline
