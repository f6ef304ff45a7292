import Mathlib

/-!
# Files maps

`sn_api/src/app/files`: a FilesContainer maps the paths of its files, directories and symlinks to their
properties. A text is the list of its characters, ordered as the source orders strings. An index of a
missing property and a slice that cuts a character are panics.
-/

namespace SafeNetwork

open Std

/-- `String`. -/
abbrev Str : Type := List Char

/-! ## Errors -/

/-- The errors of `sn_api` that the modelled functions return, with their texts. -/
inductive ApiError where
  | invalidInput (text : Str)
  | contentNotFound (text : Str)
  | contentError (text : Str)
  | entryNotFound (text : Str)
  | fileSystemError (text : Str)
  | fileAlreadyExists (name : Str)
  | fileNameConflict (name : Str)
  | other (text : Str)
deriving DecidableEq

/-- `Display` of an error. -/
def ApiError.display : ApiError → Str
  | .invalidInput text => "InvalidInput: ".toList ++ text
  | .contentNotFound text => "ContentNotFound: ".toList ++ text
  | .contentError text => "ContentError: ".toList ++ text
  | .entryNotFound text => "EntryNotFound: ".toList ++ text
  | .fileSystemError text => "FileSystemError: ".toList ++ text
  | .fileAlreadyExists name =>
    "File named \"".toList ++ name ++ "\" already exists on target with same link.".toList
  | .fileNameConflict name =>
    "File named \"".toList ++ name ++
      "\" already exists on target. Use the 'force' flag to replace it.".toList
  | .other text => text

inductive Halt where
  | err (error : ApiError)
  | panicked
deriving DecidableEq

abbrev ApiResult (α : Type) : Type := Except Halt α

theorem exists_eq_ok {ε α : Type} {result : Except ε α} (valid : result.toOption.isSome) :
    ∃ value, result = .ok value := by
  cases result with
  | error err => cases valid
  | ok value => exact ⟨value, rfl⟩

/-! ## Properties of files -/

def predicateLink : Str := "link".toList
def predicateType : Str := "type".toList
def predicateSize : Str := "size".toList
def predicateModified : Str := "modified".toList
def predicateCreated : Str := "created".toList
def predicateOriginalModified : Str := "o_modified".toList
def predicateOriginalCreated : Str := "o_created".toList
def predicateReadonly : Str := "readonly".toList
def predicateModeBits : Str := "mode_bits".toList
def symlinkTarget : Str := "symlink_target".toList
def symlinkTargetType : Str := "symlink_target_type".toList
def mimetypeFilesystemDir : Str := "inode/directory".toList
def mimetypeFilesystemSymlink : Str := "inode/symlink".toList

/-- `FileInfo` — the properties of a file. -/
abbrev FileInfo : Type := ExtTreeMap Str Str

/-- `FilesMap` — the properties of the files by their paths. -/
abbrev FilesMap : Type := ExtTreeMap Str FileInfo

namespace FileInfo

def getattr (self : FileInfo) (key : Str) : ApiResult Str :=
  match self[key]? with
  | some value => .ok value
  | none => .error (.err (.entryNotFound ("key not found: ".toList ++ key)))

def index (self : FileInfo) (key : Str) : ApiResult Str :=
  match self[key]? with
  | some value => .ok value
  | none => .error .panicked

end FileInfo

structure FileMeta where
  created : Str
  modified : Str
  fileSize : Str
  fileType : Str
  readonly : Option Str
  modeBits : Option Str
  originalCreated : Option Str
  originalModified : Option Str
deriving DecidableEq

namespace FileMeta

def filetypeIsFile (fileType : Str) : Bool :=
  !(fileType == mimetypeFilesystemDir || fileType == mimetypeFilesystemSymlink)

def filetypeIsSymlink (fileType : Str) : Bool := fileType == mimetypeFilesystemSymlink

def filetypeIsDir (fileType : Str) : Bool := fileType == mimetypeFilesystemDir

def isFile (self : FileMeta) : Bool := filetypeIsFile self.fileType

def isSymlink (self : FileMeta) : Bool := filetypeIsSymlink self.fileType

def isDir (self : FileMeta) : Bool := filetypeIsDir self.fileType

/-- `FileMeta::from_file_item` — the first four properties must be present. -/
def fromFileItem (fileItem : FileInfo) : ApiResult FileMeta := do
  let created ← fileItem.index predicateCreated
  let modified ← fileItem.index predicateModified
  let fileSize ← fileItem.index predicateSize
  let fileType ← fileItem.index predicateType
  return {
    created, modified, fileSize, fileType
    readonly := fileItem[predicateReadonly]?
    modeBits := fileItem[predicateModeBits]?
    originalCreated := fileItem[predicateOriginalCreated]?
    originalModified := fileItem[predicateOriginalModified]? }

/-- `FileMeta::from_type_and_size` at some time. -/
def fromTypeAndSize (now fileType fileSize : Str) : FileMeta :=
  ⟨now, now, fileSize, fileType, none, none, none, none⟩

def addToFileitem (fileItem : FileInfo) (key : Str) : Option Str → FileInfo
  | some value => fileItem.insert key value
  | none => fileItem

def toFileItem (self : FileMeta) : FileInfo :=
  let fileItem := addToFileitem ∅ predicateCreated (some self.created)
  let fileItem := addToFileitem fileItem predicateModified (some self.modified)
  let fileItem := addToFileitem fileItem predicateSize (some self.fileSize)
  let fileItem := addToFileitem fileItem predicateType (some self.fileType)
  let fileItem := addToFileitem fileItem predicateReadonly self.readonly
  let fileItem := addToFileitem fileItem predicateModeBits self.modeBits
  let fileItem := addToFileitem fileItem predicateOriginalCreated self.originalCreated
  addToFileitem fileItem predicateOriginalModified self.originalModified

theorem fromFileItem_eq_ok {fileItem : FileInfo} {fileMeta : FileMeta} : fromFileItem fileItem = .ok fileMeta ↔
      fileItem[predicateCreated]? = some fileMeta.created ∧
      fileItem[predicateModified]? = some fileMeta.modified ∧
      fileItem[predicateSize]? = some fileMeta.fileSize ∧
      fileItem[predicateType]? = some fileMeta.fileType ∧
      fileItem[predicateReadonly]? = fileMeta.readonly ∧
      fileItem[predicateModeBits]? = fileMeta.modeBits ∧
      fileItem[predicateOriginalCreated]? = fileMeta.originalCreated ∧
      fileItem[predicateOriginalModified]? = fileMeta.originalModified := by
  unfold fromFileItem FileInfo.index
  obtain ⟨created, modified, fileSize, fileType, readonly, modeBits, originalCreated, originalModified⟩ := fileMeta
  cases fileItem[predicateCreated]? <;> cases fileItem[predicateModified]? <;>
    cases fileItem[predicateSize]? <;> cases fileItem[predicateType]? <;>
    simp [bind, Except.bind, pure, Except.pure]

end FileMeta

end SafeNetwork
