import SafeNetwork.Api.FilesMap

/-!
# Changes of files maps

`sn_api/src/app/files/files_map.rs`: an entry of a files map is made from the properties of a file and its
link. Where there is no link yet, the file is uploaded, and this may fail; the report of processed files
tells which entries have been added, updated or removed, and which files have failed.
-/

namespace SafeNetwork

open Std

inductive FilesMapChange where
  | added (link : Str)
  | updated (link : Str)
  | removed (link : Str)
  | failed (error : Str)
deriving DecidableEq

def FilesMapChange.isSuccess : FilesMapChange → Bool
  | added _ => true
  | updated _ => true
  | removed _ => true
  | failed _ => false

/-- `PathBuf`, by its components. Repeated slashes and inner dots do not count. -/
abbrev PathBuf : Type := List Str

instance transOrdPathBuf : TransOrd PathBuf := inferInstance

/-- `PathBuf::from` — the root, if the path starts there, a leading `.`, and the other components. -/
def pathBuf (text : Str) : PathBuf :=
  let parts := text.splitOn '/'
  (if text.head? = some '/' then [['/']] else if parts.head? = some ['.'] then [['.']] else []) ++
    parts.filter fun part => part ≠ [] ∧ part ≠ ['.']

abbrev ProcessedFiles : Type := ExtTreeMap PathBuf FilesMapChange

structure LocalFiles where
  /-- `FileMeta::from_path`, following symlinks or not. -/
  fromPath : Str → Bool → Except ApiError FileMeta
  uploadFileToNet : Str → Except ApiError Str
  /-- `upload_file_to_net` with a dry runner. -/
  dryUpload : Str → Except ApiError Str
  /-- `fs::metadata` — whether the path leads to a directory, unless it leads nowhere. -/
  isDir : Str → Option Bool
  /-- `fs::read_link`, or the debug text of its error. -/
  readLink : Str → Except Str Str

def normalisePathSeparator (path : Str) : Str := path.map fun symbol => if symbol = '\\' then '/' else symbol

variable (L : LocalFiles)

def LocalFiles.targetType (filePath : Str) : Str :=
  match L.isDir filePath with
  | some true => "dir".toList
  | some false => "file".toList
  | none => "unknown".toList

def genNewFileItem (filePath : Str) (fileMeta : FileMeta) (link : Option Str) : Except ApiError FileInfo :=
  let fileItem := fileMeta.toFileItem
  if fileMeta.isFile then do
    let xorurl ← match link with
      | none => L.uploadFileToNet filePath
      | some link => .ok link
    return fileItem.insert predicateLink xorurl
  else if fileMeta.isSymlink then do
    let targetPath ← match link with
      | some target => .ok target
      | none => ((L.readLink filePath).mapError fun err => .fileSystemError
          ("Unable to read link: ".toList ++ filePath ++ ".  ".toList ++ err)).map normalisePathSeparator
    return (fileItem.insert symlinkTarget targetPath).insert symlinkTargetType (L.targetType filePath)
  else .ok fileItem

/-- `add_or_update_file_item` — whether the entry was made, the map and the report. -/
def addOrUpdateFileItem (fileName fileNameForMap filePath : Str) (fileMeta : FileMeta) (fileLink : Option Str)
    (nameExists : Bool) (filesMap : FilesMap) (processedFiles : ProcessedFiles) :
    Bool × FilesMap × ProcessedFiles :=
  match genNewFileItem L filePath fileMeta fileLink with
  | .ok newFileItem =>
    let xorurl := newFileItem[predicateLink]?.getD []
    let fileItemChange := if nameExists then FilesMapChange.updated xorurl else .added xorurl
    (true, filesMap.insert fileNameForMap newFileItem, processedFiles.insert (pathBuf fileName) fileItemChange)
  | .error err => (false, filesMap, processedFiles.insert (pathBuf fileName) (.failed err.display))

end SafeNetwork
