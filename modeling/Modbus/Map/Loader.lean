import Modbus.Map.DeviceMap
import Modbus.Text.Utf8

/-!
# Loading maps

A `Loader` takes maps of devices in, one by one, as long as no two of them are for the same address
(`Loader.add`). Maps come as values, as documents, as texts, or as the files of a directory.
`Loader.perform` takes one step of a user of a loader. A step that fails changes nothing, except
that of a directory the maps of the files before the one that failed stay.

A `Directory` lists entries, some of which are documents: files whose names end in `.json` behind
something else. `documentsOf` puts these in the order of their names, so that it does not matter in
which order a directory lists them.

A `Database` holds the maps that were taken in (`Loader.finish`) in the order of their addresses, so
that it does not matter in which order they came. `Database.mapAt` finds the map of a device.
-/

namespace Modbus

/-! ### Directories -/

/-- A path, or the name of a file. It may hold any bytes, those of a text or not. -/
@[ext] structure PathName where
  bytes : List UInt8
deriving DecidableEq, Repr

namespace PathName

/-- The path that a text spells. -/
def ofText (text : String) : PathName :=
  ⟨Utf8.encode text⟩

instance : Coe String PathName :=
  ⟨ofText⟩

/-- Stands between a directory and what is in it. -/
def slash : UInt8 := 0x2F

/-- Stands before an extension. -/
def point : UInt8 := 0x2E

/-- The path of a file in a directory. The path of the directory may end in a slash already. -/
def join (directory name : PathName) : PathName :=
  if directory.bytes.getLast?.all (· = slash) then ⟨directory.bytes ++ name.bytes⟩
  else ⟨directory.bytes ++ slash :: name.bytes⟩

/-- What stands behind the last point of a name, if something stands before that point. -/
def extension? (name : PathName) : Option (List UInt8) :=
  let reversed := name.bytes.reverse
  -- from the end: the extension, its point, and at least one byte before that
  match reversed.dropWhile (· ≠ point) with
  | _ :: _ :: _ => some (reversed.takeWhile (· ≠ point)).reverse
  | _ => none

/-- The path as an error shows it, with the replacement character for whatever is no text. -/
def text (path : PathName) : String :=
  Utf8.decodeLossy path.bytes

end PathName

/-- An entry of a directory. -/
structure Entry where
  name : PathName
  /-- The bytes of a file that can be read. -/
  content : Option (List UInt8)
deriving DecidableEq, Repr

/-- A directory, with its entries if it can be listed. -/
structure Directory where
  path : PathName
  entries : Option (List Entry)
deriving DecidableEq, Repr

namespace Entry

/-- The entry is a document. -/
def isDocument (entry : Entry) : Bool :=
  entry.name.extension? = some (Utf8.encode "json")

/-- The text of a file that holds text. -/
def text? (entry : Entry) : Option String :=
  entry.content.bind Utf8.decode?

end Entry

/-- The documents among entries, in the order of the bytes of their names. -/
def documentsOf (entries : List Entry) : List Entry :=
  (entries.filter Entry.isDocument).mergeSort fun first second =>
    first.name.bytes ≤ second.name.bytes

/-! ### Loaders -/

/-- Maps of devices that are being taken in, in the order in which they came. -/
structure Loader where
  maps : List DeviceMap := []

namespace Loader

/-- Take a map in. All its registers must be usable, and no map that is already there may be for one
of its addresses. -/
def add (loader : Loader) (map : DeviceMap) : Except ConfigError Loader := do
  -- the map may have been put together by hand, so its registers are looked at once more
  map.check
  match loader.maps.find? fun other => other.range.overlaps map.range with
  | some other => throw (.overlap map.name map.range other.name other.range)
  | none => return { maps := loader.maps ++ [map] }

/-- Take the map of a document in. -/
def addConfig (loader : Loader) (source : String) (config : Except Fault MapConfig) :
    Except ConfigError Loader :=
  match config with
  | .error fault => .error (.document source fault)
  | .ok config => do
    let map ← DeviceMap.ofConfig config
    loader.add map

/-- What documents are called that are not read from a file. -/
def documentName : String := "register map"

/-- Take the map of a document in that has been read as a whole. -/
def load (loader : Loader) (document : Json) : Except ConfigError Loader :=
  loader.addConfig documentName (Configurable.ofJson document)

/-- Take the map of a text in. -/
def loadText (loader : Loader) (text : String) : Except ConfigError Loader :=
  loader.addConfig documentName (Configurable.ofText text)

/-- Take the map of a file in. -/
def loadEntry (loader : Loader) (path : PathName) (entry : Entry) : Except ConfigError Loader :=
  let source := (path.join entry.name).text
  match entry.text? with
  | none => .error (.unreadable source)
  | some text => loader.addConfig source (Configurable.ofText text)

/-- Take the maps of files in, up to the first that fails; those before it stay. -/
def loadEntries (loader : Loader) (path : PathName) : List Entry → Except ConfigError Unit × Loader
  | [] => (.ok (), loader)
  | entry :: entries =>
    match loader.loadEntry path entry with
    | .error e => (.error e, loader)
    | .ok loader => loader.loadEntries path entries

/-- Take the maps of all documents of a directory in, in the order of their names. -/
def loadDirectory (loader : Loader) (directory : Directory) :
    Except ConfigError Unit × Loader :=
  match directory.entries with
  | none => (.error (.unreadable directory.path.text), loader)
  | some entries => loader.loadEntries directory.path (documentsOf entries)

/-! ### Steps -/

/-- A step of a user of a loader. -/
inductive Step where
  | add (map : DeviceMap)
  | load (document : Json)
  | loadText (text : String)
  | loadDirectory (directory : Directory)

/-- The outcome of taking one map in, and the loader after it: the old one if that failed. -/
def settle (loader : Loader) : Except ConfigError Loader → Except ConfigError Unit × Loader
  | .ok loader => (.ok (), loader)
  | .error e => (.error e, loader)

/-- The outcome of a step and the loader after it. -/
def perform (loader : Loader) : Step → Except ConfigError Unit × Loader
  | .add map => loader.settle (loader.add map)
  | .load document => loader.settle (loader.load document)
  | .loadText text => loader.settle (loader.loadText text)
  | .loadDirectory directory => loader.loadDirectory directory

/-- The loader after a list of steps. -/
def run (loader : Loader) (steps : List Step) : Loader :=
  steps.foldl (fun loader step => (loader.perform step).2) loader

end Loader

/-! ### Databases -/

/-- Maps of devices in the order of their addresses. -/
structure Database where
  maps : List DeviceMap := []

/-- The maps in the order of their addresses. -/
def Loader.finish (loader : Loader) : Database where
  maps := loader.maps.mergeSort fun first second => first.range.before second.range

namespace Database

/-- The map of the device at an address. -/
def mapAt (database : Database) (address : UInt8) : Except LookupError DeviceMap :=
  match database.maps.find? fun map => map.range.contains address with
  | some map => .ok map
  | none => .error (.addressNotFound address)

/-- The maps, each on a line. -/
def text (database : Database) : String :=
  String.join (database.maps.map DeviceMap.text)

end Database

end Modbus
