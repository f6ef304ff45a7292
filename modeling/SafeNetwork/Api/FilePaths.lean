import SafeNetwork.Api.FileItems
import SafeNetwork.Api.RealPath
import SafeNetwork.Library.Text

/-!
# Names of local files in files maps

`sn_api/src/app/files/mod.rs`: the name of an entry is made from the path of a local file. Every occurrence of
the text of the upload location is replaced by the base path of the destination, and the result is normalised.
The name is the destination followed by the path relative to the location, where the text of the location does
not occur again.
-/

namespace SafeNetwork

open Std FilesMap

namespace FilePaths

/-- The base path of a location in `get_base_paths`. -/
def locationBasePath (location : Str) : Str :=
  if location = dot then "./".toList else normalisePathSeparator location

/-- The destination in `get_base_paths`, the root by default. -/
def newDstPath : Option Str → Str
  | some path => if path.isEmpty then "/".toList else path
  | none => "/".toList

/-- The base path of a destination in `get_base_paths`. -/
def dstBasePath (location : Str) (dstPath : Option Str) : Str :=
  if (newDstPath dstPath).getLast? = some '/' then
    if (locationBasePath location).getLast? = some '/' then newDstPath dstPath
    else newDstPath dstPath ++ (splitPath (locationBasePath location)).getLastD []
  else newDstPath dstPath ++ ['/']

def getBasePaths (location : Str) (dstPath : Option Str) : Str × Str :=
  (locationBasePath location, dstBasePath location dstPath)

/-- A component in `RelativePath::normalize`. -/
def normalizeStep (path : List Str) (component : Str) : List Str :=
  if component = [] ∨ component = dot then path
  else if component = dotDot then
    if path.getLast? = none ∨ path.getLast? = some dotDot then path ++ [dotDot] else path.dropLast
  else path ++ [component]

/-- `RelativePath::normalize`, by components. -/
def normalize (path : Str) : List Str := (splitPath path).foldl normalizeStep []

/-- `trim_end_matches('/')`. -/
def trimEndMatches (path : Str) : Str := path.rdropWhile fun symbol => symbol = '/'

/-- The name of a local file in `files_map_create`. -/
def finalName (location : Str) (dstPath : Option Str) (fileName : Str) : Str :=
  let (locationBasePath, dstBasePath) := getBasePaths location dstPath
  let newFileName := joinPath (normalize (Text.replaceAll locationBasePath dstBasePath fileName))
  trimEndMatches ('/' :: normalisePathSeparator newFileName)

/-- The name of a local file in `files_map_sync`. -/
def normalisedFileName (location : Str) (dstPath : Option Str) (localFileName : Str) : Str :=
  let normalisedFileName := finalName location dstPath localFileName
  if normalisedFileName.isEmpty then "/".toList else normalisedFileName

/-! ## Local files -/

/-- `Path::join` with a relative path. -/
def pathJoin (location r : Str) : Str :=
  if location = [] ∨ location.getLast? = some '/' then location ++ r else location ++ '/' :: r

/-- The path that `file_system_dir_walk` lists a file below a location with. -/
def listedPath (location r : Str) : Str := normalisePathSeparator (pathJoin location r)

def afterLocation (location r : Str) : Str := (listedPath location r).drop (locationBasePath location).length

def IsRelative (r : Str) : Prop := ∀ component ∈ splitPath r, component ≠ [] ∧ IsName component

instance : DecidablePred IsRelative := fun r =>
  inferInstanceAs (Decidable (∀ component ∈ splitPath r, component ≠ [] ∧ IsName component))

def Recurs (location r : Str) : Prop := locationBasePath location <:+: afterLocation location r

instance (location r : Str) : Decidable (Recurs location r) :=
  inferInstanceAs (Decidable (locationBasePath location <:+: afterLocation location r))

def normalisedBase (location : Str) (dstPath : Option Str) : Str :=
  normalisePathSeparator ((normalize (dstBasePath location dstPath)).flatMap fun component => '/' :: component)

variable {location r : Str} {dstPath : Option Str}

theorem normalisePathSeparator_append (front back : Str) :
    normalisePathSeparator (front ++ back) = normalisePathSeparator front ++ normalisePathSeparator back :=
  List.map_append

theorem normalisePathSeparator_of_not_mem (slashes : '\\' ∉ r) : normalisePathSeparator r = r := by
  have kept : ∀ symbol ∈ r, (if symbol = '\\' then '/' else symbol) = id symbol := by
    intro symbol member
    have other : symbol ≠ '\\' := ne_of_mem_of_not_mem member slashes
    rw [if_neg other, id]
  rw [normalisePathSeparator, List.map_congr_left kept, List.map_id]

/-! ## Components -/

theorem normalize_append_slash (front back : Str) :
    normalize (front ++ '/' :: back) = (splitPath back).foldl normalizeStep (normalize front) := by
  rw [normalize, splitPath, List.splitOn_append_cons_self, List.foldl_append]
  rfl

theorem normalize_append_singleton (front : Str) : normalize (front ++ ['/']) = normalize front := by
  rw [normalize_append_slash]
  rfl

theorem foldl_normalizeStep {components : List Str}
    (names : ∀ component ∈ components, component ≠ [] ∧ IsName component) (path : List Str) :
    components.foldl normalizeStep path = path ++ components := by
  induction components generalizing path with
  | nil => exact (List.append_nil path).symm
  | cons component rest hypothesis =>
    obtain ⟨nonempty, noDot, noDotDot⟩ := names component List.mem_cons_self
    have step : normalizeStep path component = path ++ [component] := by
      rw [normalizeStep, if_neg (by simp [nonempty, noDot]), if_neg noDotDot]
    rw [List.foldl_cons, step, hypothesis fun other member => names other (List.mem_cons_of_mem _ member)]
    exact (List.append_cons path component rest).symm

theorem cons_joinPath_append (front : List Str) {back : List Str} (nonempty : back ≠ []) :
    '/' :: joinPath (front ++ back) = (front.flatMap fun component => '/' :: component) ++ '/' :: joinPath back := by
  induction front with
  | nil => rfl
  | cons component front hypothesis =>
    have more : front ++ back ≠ [] := List.append_ne_nil_of_right_ne_nil front nonempty
    rw [List.cons_append, joinPath, List.intercalate_cons_of_ne_nil more, List.append_assoc, List.singleton_append,
      ← joinPath, hypothesis, List.flatMap_cons, List.cons_append, List.cons_append, List.append_assoc]

theorem IsRelative.getLast?_ne (relative : IsRelative r) : ∃ front last, r = front ++ [last] ∧ last ≠ '/' := by
  rcases List.eq_nil_or_concat' r with rfl | ⟨front, last, rfl⟩
  · exact absurd rfl (relative [] (by simp [splitPath])).1
  · refine ⟨front, last, rfl, ?_⟩
    rintro rfl
    have split : splitPath (front ++ ['/']) = splitPath front ++ [[]] := List.splitOn_append_cons_self front []
    exact absurd rfl (relative [] (by simp [split])).1

/-! ## The name of a local file -/

theorem listedPath_eq (nonempty : location ≠ []) (slashes : '\\' ∉ r) :
    ∃ rest, listedPath location r = locationBasePath location ++ rest ∧
      (rest = '/' :: r ∨ rest = r ∧ (locationBasePath location).getLast? = some '/') := by
  have same := normalisePathSeparator_of_not_mem slashes
  by_cases isDot : location = dot
  · refine ⟨r, ?_, .inr ⟨rfl, ?_⟩⟩
    · rw [listedPath, isDot]
      exact congrArg (List.append "./".toList) same
    · rw [locationBasePath, if_pos isDot]
      rfl
  · rw [locationBasePath, if_neg isDot, listedPath, pathJoin]
    by_cases slash : location.getLast? = some '/'
    · refine ⟨r, ?_, .inr ⟨rfl, ?_⟩⟩
      · rw [if_pos (.inr slash), normalisePathSeparator_append, same]
      · rw [normalisePathSeparator, List.getLast?_map, slash]
        rfl
    · refine ⟨'/' :: r, ?_, .inl rfl⟩
      rw [if_neg (by simp [nonempty, slash]), normalisePathSeparator_append]
      congr 1
      exact congrArg (List.cons '/') same

theorem getLast?_dstBasePath (slash : (locationBasePath location).getLast? = some '/') (dstPath : Option Str) :
    ∃ front, dstBasePath location dstPath = front ++ ['/'] := by
  rw [dstBasePath]
  split_ifs with ends
  · exact List.getLast?_eq_some_iff.mp ends
  · exact ⟨_, rfl⟩

theorem normalize_append_relative (relative : IsRelative r) {rest : Str}
    (follows : rest = '/' :: r ∨ rest = r ∧ (locationBasePath location).getLast? = some '/') :
    normalize (dstBasePath location dstPath ++ rest) = normalize (dstBasePath location dstPath) ++ splitPath r := by
  rcases follows with rfl | ⟨rfl, slash⟩
  · rw [normalize_append_slash, foldl_normalizeStep relative]
  · obtain ⟨front, ends⟩ := getLast?_dstBasePath slash dstPath
    rw [ends, normalize_append_singleton, List.append_assoc, List.singleton_append, normalize_append_slash,
      foldl_normalizeStep relative]

/-- A local file gets the name of the destination followed by its relative path, unless the text of the location
occurs again. -/
theorem finalName_listedPath (relative : IsRelative r) (slashes : '\\' ∉ r) (once : ¬ Recurs location r) :
    finalName location dstPath (listedPath location r) = normalisedBase location dstPath ++ '/' :: r := by
  have nonempty : location ≠ [] := by
    rintro rfl
    exact once List.nil_infix
  obtain ⟨rest, listed, follows⟩ := listedPath_eq nonempty slashes
  have after : afterLocation location r = rest := by rw [afterLocation, listed, List.drop_left]
  rw [Recurs, after] at once
  have text : locationBasePath location ≠ [] := by
    intro empty
    rw [empty] at once
    exact once List.nil_infix
  have replaced : Text.replaceAll (locationBasePath location) (dstBasePath location dstPath)
      (listedPath location r) = dstBasePath location dstPath ++ rest := by
    rw [listed, Text.replaceAll_append text, Text.replaceAll_of_not_infix once]
  have joined : joinPath (splitPath r) = r := List.intercalate_splitOn '/'
  have split : splitPath r ≠ [] := List.splitOn_ne_nil '/' r
  have name : normalisePathSeparator ('/' :: joinPath (normalize (dstBasePath location dstPath ++ rest))) =
      normalisedBase location dstPath ++ '/' :: r := by
    rw [normalize_append_relative relative follows, cons_joinPath_append _ split, joined,
      normalisePathSeparator_append]
    exact congrArg (fun r => normalisedBase location dstPath ++ '/' :: r) (normalisePathSeparator_of_not_mem slashes)
  have trimmed : finalName location dstPath (listedPath location r) =
      trimEndMatches (normalisedBase location dstPath ++ '/' :: r) := by
    rw [← name, ← replaced]
    rfl
  obtain ⟨front, last, rfl, other⟩ := relative.getLast?_ne
  rw [trimmed, trimEndMatches, ← List.cons_append, ← List.append_assoc]
  exact List.rdropWhile_concat_neg _ _ last (by simpa using other)

theorem finalName_inj {r' : Str} (same : normalisedBase location dstPath ++ '/' :: r =
    normalisedBase location dstPath ++ '/' :: r') : r = r' :=
  (List.cons.inj (List.append_cancel_left same)).2

theorem normalisedFileName_eq {name front rest : Str}
    (found : finalName location dstPath name = front ++ '/' :: rest) :
    normalisedFileName location dstPath name = finalName location dstPath name := by
  simp [normalisedFileName, found]

end FilePaths

end SafeNetwork
